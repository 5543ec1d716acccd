/-
The authors and institutions of some lines, read off the records, and that the
messages of a walk are made of them one by one.
-/
import Citescoop.SnapshotRuns

namespace Citescoop

variable (lib : SnapshotLibrary)

/-- An author or an institution, as a record gives it. -/
inductive Listed where
  | author (data : Json)
  | institution (data : Json)

/-- The id computed for it. -/
def Listed.id? : Listed → Option Text
  | author data => (getAuthorId data).toOption
  | institution data => (getInstitutionId data).toOption

/-- The message that is made of it. -/
def Listed.message? : Listed → Option Entity
  | author data => (getAuthorId data).toOption.map fun id => .author (authorMessage id data)
  | institution data =>
      (getInstitutionId data).toOption.map fun id => .institution (institutionMessage id data)

/-- What stands under a key, item by item. -/
def Json.itemsAt (data : Json) (key : String) : List Json :=
  ((data.member? key.toList).map JsonValue.items).getD []

/-- What one of the three calls comes by, without what is empty. -/
def Extractor.listed (data : Json) : Extractor → List Listed
  | authors => (data.itemsAt "authorships").flatMap fun authorship =>
      ((authorship.member? "author".toList).toList.filter (!isAuthorEmpty ·)).map .author
  | institutions => (data.itemsAt "authorships").flatMap fun authorship =>
      ((authorship.itemsAt "institutions").filter (!isInstitutionEmpty ·)).map .institution
  | work => []

/-- The authors and institutions of some lines, in the order in which they are
processed. -/
def listedIn (lines : List Text) : List Listed :=
  lines.flatMap fun line =>
    if line.isEmpty then []
    else (lib.parse line).toList.flatMap fun data =>
      lib.order.extractors.flatMap (Extractor.listed data)

/-- The object has this string under the key. -/
def Json.HasString (data : Json) (key : String) (text : Text) : Prop :=
  data.member? key.toList = some (.string text)

/-- The fields of a message are the strings that an author or an institution has
under their keys; a field without such a string is not set. -/
def Entity.Carries : Entity → Listed → Prop
  | author message, .author data =>
      (∀ text, message.name? = some text ↔ data.HasString "display_name" text) ∧
        ∀ text, message.orcid? = some text ↔ data.HasString "orcid" text
  | institution message, .institution data =>
      (∀ text, message.name? = some text ↔ data.HasString "display_name" text) ∧
        ∀ text, message.ror? = some text ↔ data.HasString "ror" text
  | _, _ => False

theorem Json.hasString_iff {data : Json} {key : String} {text : Text} :
    data.HasString key text ↔ data.string? key = some text :=
  JsonValue.stringAt?_eq_some_iff.symm

theorem Listed.any_message? (listed : Listed) (id : Text) :
    (listed.message?.any fun entity => entity.openalexId = id) =
      decide (listed.id? = some id) := by
  rw [Bool.eq_iff_iff, Option.any_eq_true, decide_eq_true_iff]
  simp only [decide_eq_true_iff]
  cases listed with
  | author data =>
      cases hid : getAuthorId data <;>
        simp [message?, id?, hid, Except.toOption, Entity.openalexId, authorMessage]
  | institution data =>
      cases hid : getInstitutionId data <;>
        simp [message?, id?, hid, Except.toOption, Entity.openalexId, institutionMessage]

theorem Listed.carries_of_message? {listed : Listed} {entity : Entity}
    (hmessage : listed.message? = some entity) : entity.Carries listed := by
  cases listed with
  | author data =>
      rcases Option.map_eq_some_iff.mp hmessage with ⟨id, -, rfl⟩
      exact ⟨fun _ => Json.hasString_iff.symm, fun _ => Json.hasString_iff.symm⟩
  | institution data =>
      rcases Option.map_eq_some_iff.mp hmessage with ⟨id, -, rfl⟩
      exact ⟨fun _ => Json.hasString_iff.symm, fun _ => Json.hasString_iff.symm⟩

theorem Entity.Carries.eq_author {entity : Entity} {data : Json} {name orcid : Text}
    (hcarries : entity.Carries (.author data)) (hname : data.HasString "display_name" name)
    (horcid : data.HasString "orcid" orcid) :
    entity = .author ⟨entity.openalexId, some name, some orcid⟩ := by
  rcases entity with ⟨id, name?, orcid?⟩ | message
  · rw [← (hcarries.1 name).mpr hname, ← (hcarries.2 orcid).mpr horcid]
    rfl
  · exact hcarries.elim

theorem Entity.Carries.eq_institution {entity : Entity} {data : Json} {name ror : Text}
    (hcarries : entity.Carries (.institution data)) (hname : data.HasString "display_name" name)
    (hror : data.HasString "ror" ror) :
    entity = .institution ⟨entity.openalexId, some name, some ror⟩ := by
  rcases entity with message | ⟨id, name?, ror?⟩
  · exact hcarries.elim
  · rw [← (hcarries.1 name).mpr hname, ← (hcarries.2 ror).mpr hror]
    rfl

theorem Json.itemsAt_of_field {data listed : Json} {key : String}
    (hfield : data.field key = .ok listed) : data.itemsAt key = listed.items := by
  rw [itemsAt, field_eq_ok_iff.mp hfield]
  rfl

theorem items_considerAuthor {authorship : Json}
    (hwalk : (considerAuthor authorship).failure? = none) :
    (considerAuthor authorship).items.map .author =
      (((authorship.member? "author".toList).toList.filter (!isAuthorEmpty ·)).map
        Listed.author).filterMap Listed.message? := by
  rcases failure?_considerAuthor_eq_none_iff.mp hwalk with ⟨author, hauthor, hid⟩
  rw [field_eq_ok_iff.mp hauthor]
  cases hempty : isAuthorEmpty author with
  | true => simp [considerAuthor_of_empty hauthor hempty, hempty]
  | false =>
      rcases hid hempty with ⟨authorId, hid⟩
      simp [considerAuthor_of_id hauthor hempty hid, hempty, Listed.message?, hid,
        Except.toOption]

theorem items_considerInstitution (institution : Json) :
    (considerInstitution institution).items.map .institution =
      (([institution].filter (!isInstitutionEmpty ·)).map
        Listed.institution).filterMap Listed.message? := by
  rw [considerInstitution]
  cases hempty : isInstitutionEmpty institution with
  | true => simp [hempty]
  | false =>
      rcases exists_getInstitutionId hempty with ⟨institutionId, hid⟩
      simp [hempty, Listed.message?, hid, Except.toOption, Walk.ofExcept]

theorem items_considerInstitutions {authorship : Json}
    (hwalk : (considerInstitutions authorship).failure? = none) :
    (considerInstitutions authorship).items.map .institution =
      (((authorship.itemsAt "institutions").filter (!isInstitutionEmpty ·)).map
        Listed.institution).filterMap Listed.message? := by
  rcases Walk.failure?_ofExcept_eq_none_iff.mp hwalk with ⟨listed, hlisted, -⟩
  rw [Json.itemsAt_of_field hlisted, considerInstitutions, hlisted, Walk.ofExcept,
    Walk.items_each fun institution _ => failure?_considerInstitution institution]
  induction listed.items with
  | nil => rfl
  | cons institution institutions ih =>
      rw [List.flatMap_cons, List.map_append, ih, items_considerInstitution,
        ← List.filterMap_append, ← List.map_append, ← List.filter_append]
      rfl

/-- A call that is walked through comes by the messages of what is listed. -/
theorem Extractor.items_walk {data : Json} {extractor : Extractor}
    (hwalk : (extractor.walk lib data).failure? = none) :
    (extractor.walk lib data).items = (extractor.listed data).filterMap Listed.message? := by
  cases extractor with
  | authors =>
      have hauthors : (authorWalk data).failure? = none := hwalk
      rcases Walk.failure?_ofExcept_eq_none_iff.mp hauthors with ⟨authorships, hread, hloop⟩
      have hvisit := Walk.failure?_each_eq_none_iff.mp hloop
      rw [listed, Json.itemsAt_of_field hread, List.filterMap_flatMap, walk, authorWalk, hread]
      rw [Walk.map, Walk.ofExcept, Walk.items_each hvisit, List.map_flatMap]
      exact List.flatMap_congr fun authorship hmem => items_considerAuthor (hvisit _ hmem)
  | institutions =>
      have hinstitutions : (institutionWalk data).failure? = none := hwalk
      rcases Walk.failure?_ofExcept_eq_none_iff.mp hinstitutions with
        ⟨authorships, hread, hloop⟩
      have hvisit := Walk.failure?_each_eq_none_iff.mp hloop
      rw [listed, Json.itemsAt_of_field hread, List.filterMap_flatMap, walk, institutionWalk,
        hread]
      rw [Walk.map, Walk.ofExcept, Walk.items_each hvisit, List.map_flatMap]
      exact List.flatMap_congr fun authorship hmem => items_considerInstitutions (hvisit _ hmem)
  | work =>
      rcases Walk.failure?_ofExcept_eq_none_iff.mp hwalk with ⟨work, hwork, -⟩
      rw [walk, hwork]
      rfl

theorem items_lineWalk {line : Text} (hline : (lineWalk lib line).failure? = none) :
    (lineWalk lib line).items =
      ((lib.parse line).toList.flatMap fun data =>
        lib.order.extractors.flatMap (Extractor.listed data)).filterMap Listed.message? := by
  rcases of_failure?_lineWalk_eq_none lib hline with ⟨data, -, hparse, -⟩
  rw [lineWalk, parseLine, hparse] at hline ⊢
  have hvisit := Walk.failure?_each_eq_none_iff.mp hline
  rw [Walk.ofExcept, Walk.items_each hvisit, Option.toList_some, List.flatMap_singleton,
    List.filterMap_flatMap]
  exact List.flatMap_congr fun extractor hmem => Extractor.items_walk lib (hvisit _ hmem)

/-- Lines that are walked through give the messages of what they list. -/
theorem items_linesWalk {lines : List Text} (hwalk : (linesWalk lib lines).failure? = none) :
    (linesWalk lib lines).items = (listedIn lib lines).filterMap Listed.message? := by
  have hlines := Walk.failure?_each_eq_none_iff.mp hwalk
  rw [linesWalk, Walk.items_each hlines, listedIn, List.filterMap_flatMap]
  apply List.flatMap_congr
  intro line hmem
  have hread := hlines line hmem
  rw [readLine] at hread ⊢
  by_cases hempty : line.isEmpty = true
  · simp [hempty]
  · simp only [hempty, if_false, Bool.false_eq_true] at hread ⊢
    simpa using items_lineWalk lib hread

/-- The first message with an id is that of the first author or institution with
it. -/
theorem find?_items_linesWalk {lines : List Text}
    (hwalk : (linesWalk lib lines).failure? = none) (id : Text) :
    (linesWalk lib lines).items.find? (fun entity => entity.openalexId = id) =
      ((listedIn lib lines).find? fun listed => listed.id? = some id).bind
        Listed.message? := by
  rw [items_linesWalk lib hwalk, List.find?_filterMap]
  congr 2
  funext listed
  exact listed.any_message? id

end Citescoop
