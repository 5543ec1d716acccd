/-
The authors and institutions that a line, or a list of lines, comes by in the
order of processing, and the processor as their deduplication.
-/
import Citescoop.SnapshotProcessor

namespace Citescoop

open FirstSeen
open MonadExcept (ofExcept)

def considerAuthor (authorship : Json) : Walk SnapshotException Author :=
  Walk.ofExcept (fun author =>
    if isAuthorEmpty author then ⟨[], none⟩
    else Walk.ofExcept (fun authorId => ⟨[authorMessage authorId author], none⟩)
      (getAuthorId author)) (authorship.field "author")

/-- The authors for whom `ExtractAuthors` consults `seen_ids_`. -/
def authorWalk (data : Json) : Walk SnapshotException Author :=
  Walk.ofExcept (fun authorships => Walk.each considerAuthor authorships.items)
    (data.field "authorships")

def considerInstitution (institution : Json) : Walk SnapshotException Institution :=
  if isInstitutionEmpty institution then ⟨[], none⟩
  else Walk.ofExcept
    (fun institutionId => ⟨[institutionMessage institutionId institution], none⟩)
    (getInstitutionId institution)

def considerInstitutions (authorship : Json) : Walk SnapshotException Institution :=
  Walk.ofExcept (fun listed => Walk.each considerInstitution listed.items)
    (authorship.field "institutions")

/-- The institutions for which `ExtractInstitutions` consults `seen_ids_`. -/
def institutionWalk (data : Json) : Walk SnapshotException Institution :=
  Walk.ofExcept (fun authorships => Walk.each considerInstitutions authorships.items)
    (data.field "authorships")

theorem run_extractAuthors (data : Json) (seenIds : SeenIds) :
    (extractAuthors data).run seenIds =
      (authorWalk data).collect Author.openalexId [] seenIds := by
  apply Walk.run_ofExcept_bind_eq_collect
  intro authorships
  apply Walk.run_foldlM_eq_collect
  intro authors authorship seenIds
  apply Walk.run_ofExcept_bind_eq_collect
  intro author
  by_cases hempty : isAuthorEmpty author = true
  · rw [if_pos hempty, if_pos hempty, Walk.collect_nil]
    rfl
  · rw [if_neg hempty, if_neg hempty]
    apply Walk.run_ofExcept_bind_eq_collect
    intro authorId
    exact Walk.run_keep_eq_collect Author.openalexId (authorMessage authorId author)
      authors seenIds

theorem run_extractInstitutions (data : Json) (seenIds : SeenIds) :
    (extractInstitutions data).run seenIds =
      (institutionWalk data).collect Institution.openalexId [] seenIds := by
  apply Walk.run_ofExcept_bind_eq_collect
  intro authorships
  apply Walk.run_foldlM_eq_collect
  intro institutions authorship seenIds
  apply Walk.run_ofExcept_bind_eq_collect
  intro listed
  apply Walk.run_foldlM_eq_collect
  intro institutions institution seenIds
  rw [considerInstitution]
  by_cases hempty : isInstitutionEmpty institution = true
  · rw [if_pos hempty, if_pos hempty, Walk.collect_nil]
    rfl
  · rw [if_neg hempty, if_neg hempty]
    apply Walk.run_ofExcept_bind_eq_collect
    intro institutionId
    exact Walk.run_keep_eq_collect Institution.openalexId
      (institutionMessage institutionId institution) institutions seenIds

/-- An author that a record lists and that is not empty, with its id. -/
def ListsAuthor (data author : Json) (authorId : Text) : Prop :=
  ∃ authorships authorship : Json, data.field "authorships" = .ok authorships ∧
    authorship ∈ authorships.items ∧ authorship.field "author" = .ok author ∧
    isAuthorEmpty author = false ∧ getAuthorId author = .ok authorId

/-- An institution that a record lists and that is not empty, with its id. -/
def ListsInstitution (data institution : Json) (institutionId : Text) : Prop :=
  ∃ authorships authorship listed : Json, data.field "authorships" = .ok authorships ∧
    authorship ∈ authorships.items ∧ authorship.field "institutions" = .ok listed ∧
    institution ∈ listed.items ∧ isInstitutionEmpty institution = false ∧
    getInstitutionId institution = .ok institutionId

theorem failure?_considerAuthor_eq_none_iff {authorship : Json} :
    (considerAuthor authorship).failure? = none ↔
      ∃ author, authorship.field "author" = .ok author ∧
        (isAuthorEmpty author = false → ∃ authorId, getAuthorId author = .ok authorId) := by
  rw [considerAuthor, Walk.failure?_ofExcept_eq_none_iff]
  apply exists_congr
  intro author
  apply and_congr_right
  intro hauthor
  cases isAuthorEmpty author <;> simp [Walk.failure?_ofExcept_eq_none_iff]

theorem considerAuthor_of_empty {authorship author : Json}
    (hauthor : authorship.field "author" = .ok author) (hempty : isAuthorEmpty author = true) :
    considerAuthor authorship = ⟨[], none⟩ := by
  simp [considerAuthor, hauthor, Walk.ofExcept, hempty]

theorem considerAuthor_of_id {authorship author : Json} {authorId : Text}
    (hauthor : authorship.field "author" = .ok author)
    (hempty : isAuthorEmpty author = false) (hid : getAuthorId author = .ok authorId) :
    considerAuthor authorship = ⟨[authorMessage authorId author], none⟩ := by
  simp [considerAuthor, hauthor, Walk.ofExcept, hempty, hid]

theorem mem_considerAuthor_iff {authorship : Json} {message : Author} :
    message ∈ (considerAuthor authorship).items ↔
      ∃ author authorId, authorship.field "author" = .ok author ∧
        isAuthorEmpty author = false ∧ getAuthorId author = .ok authorId ∧
        message = authorMessage authorId author := by
  rw [considerAuthor]
  cases hauthor : authorship.field "author" with
  | error exception => simp [Walk.ofExcept, Walk.fail]
  | ok author =>
      cases hempty : isAuthorEmpty author with
      | true => simp [Walk.ofExcept, hempty]
      | false =>
          cases hid : getAuthorId author <;> simp [Walk.ofExcept, Walk.fail, hempty, hid]

theorem mem_considerInstitution_iff {institution : Json} {message : Institution} :
    message ∈ (considerInstitution institution).items ↔
      ∃ institutionId, isInstitutionEmpty institution = false ∧
        getInstitutionId institution = .ok institutionId ∧
        message = institutionMessage institutionId institution := by
  rw [considerInstitution]
  cases hempty : isInstitutionEmpty institution with
  | true => simp
  | false =>
      cases hid : getInstitutionId institution <;> simp [Walk.ofExcept, Walk.fail]

theorem mem_authorWalk_iff {data : Json} (hwalk : (authorWalk data).failure? = none)
    {message : Author} :
    message ∈ (authorWalk data).items ↔
      ∃ author authorId, ListsAuthor data author authorId ∧
        message = authorMessage authorId author := by
  rcases Walk.failure?_ofExcept_eq_none_iff.mp hwalk with ⟨authorships, hread, hloop⟩
  rw [authorWalk, hread, Walk.ofExcept, Walk.mem_items_each hloop]
  simp only [mem_considerAuthor_iff, ListsAuthor, hread]
  constructor
  · rintro ⟨authorship, hmem, author, authorId, hauthor, hempty, hid, hmessage⟩
    exact ⟨author, authorId,
      ⟨authorships, authorship, rfl, hmem, hauthor, hempty, hid⟩, hmessage⟩
  · rintro ⟨author, authorId,
      ⟨_, authorship, ⟨⟩, hmem, hauthor, hempty, hid⟩, hmessage⟩
    exact ⟨authorship, hmem, author, authorId, hauthor, hempty, hid, hmessage⟩

theorem failure?_considerInstitution (institution : Json) :
    (considerInstitution institution).failure? = none := by
  rw [considerInstitution]
  rcases hempty : isInstitutionEmpty institution with _ | _
  · rcases exists_getInstitutionId hempty with ⟨institutionId, hid⟩
    rw [hid]
    rfl
  · rfl

/-- The institutions of one authorship, where the field can be read at all. -/
theorem mem_considerInstitutions_iff {authorship : Json} {message : Institution} :
    message ∈ (considerInstitutions authorship).items ↔
      ∃ (listed institution : Json) (institutionId : Text),
        authorship.field "institutions" = .ok listed ∧ institution ∈ listed.items ∧
        isInstitutionEmpty institution = false ∧
        getInstitutionId institution = .ok institutionId ∧
        message = institutionMessage institutionId institution := by
  rw [considerInstitutions]
  rcases authorship.field "institutions" with exception | listed
  · simp [Walk.ofExcept, Walk.fail]
  · have hwalk : (Walk.each considerInstitution listed.items).failure? = none :=
      Walk.failure?_each_eq_none_iff.mpr fun institution _ =>
        failure?_considerInstitution institution
    simp [Walk.ofExcept, Walk.mem_items_each hwalk, mem_considerInstitution_iff]

theorem mem_institutionWalk_iff {data : Json}
    (hwalk : (institutionWalk data).failure? = none) {message : Institution} :
    message ∈ (institutionWalk data).items ↔
      ∃ institution institutionId, ListsInstitution data institution institutionId ∧
        message = institutionMessage institutionId institution := by
  rcases Walk.failure?_ofExcept_eq_none_iff.mp hwalk with ⟨authorships, hread, hloop⟩
  rw [institutionWalk, hread, Walk.ofExcept, Walk.mem_items_each hloop]
  simp only [mem_considerInstitutions_iff, ListsInstitution, hread]
  constructor
  · rintro ⟨authorship, hmem, listed, institution, institutionId, hlisted, hinstitution,
      hempty, hid, hmessage⟩
    exact ⟨institution, institutionId,
      ⟨authorships, authorship, listed, rfl, hmem, hlisted, hinstitution, hempty, hid⟩,
      hmessage⟩
  · rintro ⟨institution, institutionId,
      ⟨_, authorship, listed, ⟨⟩, hmem, hlisted, hinstitution, hempty, hid⟩, hmessage⟩
    exact ⟨authorship, hmem, listed, institution, institutionId, hlisted, hinstitution,
      hempty, hid, hmessage⟩

/-- The ids of the authors that a record comes by. -/
theorem exists_mem_authorWalk_iff {data : Json} (hwalk : (authorWalk data).failure? = none)
    {authorId : Text} :
    (∃ message ∈ (authorWalk data).items, message.openalexId = authorId) ↔
      ∃ author, ListsAuthor data author authorId := by
  simp only [mem_authorWalk_iff hwalk]
  constructor
  · rintro ⟨_, ⟨author, _, hlists, rfl⟩, rfl⟩
    exact ⟨author, hlists⟩
  · rintro ⟨author, hlists⟩
    exact ⟨_, ⟨author, authorId, hlists, rfl⟩, rfl⟩

/-- The ids of the institutions that a record comes by. -/
theorem exists_mem_institutionWalk_iff {data : Json}
    (hwalk : (institutionWalk data).failure? = none) {institutionId : Text} :
    (∃ message ∈ (institutionWalk data).items, message.openalexId = institutionId) ↔
      ∃ institution, ListsInstitution data institution institutionId := by
  simp only [mem_institutionWalk_iff hwalk]
  constructor
  · rintro ⟨_, ⟨institution, _, hlists, rfl⟩, rfl⟩
    exact ⟨institution, hlists⟩
  · rintro ⟨institution, hlists⟩
    exact ⟨_, ⟨institution, institutionId, hlists, rfl⟩, rfl⟩

/-- The tuple of what is new on a line. -/
def Extracted.of (entities : List Entity) (work : Work) : Extracted where
  authors := entities.filterMap Entity.author?
  institutions := entities.filterMap Entity.institution?
  work := work

section Lines

variable (lib : SnapshotLibrary)

/-- What one of the three calls comes by. -/
def Extractor.walk (data : Json) : Extractor → Walk SnapshotException Entity
  | authors => (authorWalk data).map .author
  | institutions => (institutionWalk data).map .institution
  | work => Walk.ofExcept (fun _ => ⟨[], none⟩) (extractWork lib.timeFromString data)

/-- The work of a record that can be processed. -/
def recordWork (data : Json) : Work :=
  (extractWork lib.timeFromString data).toOption.getD { openalexId := [] }

def lineWalk (line : Text) : Walk SnapshotException Entity :=
  Walk.ofExcept (fun data => Walk.each (Extractor.walk lib data) lib.order.extractors)
    (parseLine lib line)

theorem Extractor.extractor_of_mem_walk {data : Json} {extractor : Extractor}
    {entity : Entity} (hentity : entity ∈ (extractor.walk lib data).items) :
    entity.extractor = extractor := by
  cases extractor with
  | authors =>
      rcases List.mem_map.mp hentity with ⟨author, -, rfl⟩
      rfl
  | institutions =>
      rcases List.mem_map.mp hentity with ⟨institution, -, rfl⟩
      rfl
  | work =>
      simp only [Extractor.walk] at hentity
      cases hwork : extractWork lib.timeFromString data <;>
        simp [hwork, Walk.ofExcept, Walk.fail] at hentity

theorem filterMap_author?_eq_nil {entities : List Entity}
    (hkind : ∀ entity ∈ entities, entity.extractor ≠ .authors) :
    entities.filterMap Entity.author? = [] := by
  rw [List.filterMap_eq_nil_iff]
  intro entity hentity
  cases entity with
  | author message => exact absurd rfl (hkind _ hentity)
  | institution message => rfl

theorem filterMap_institution?_eq_nil {entities : List Entity}
    (hkind : ∀ entity ∈ entities, entity.extractor ≠ .institutions) :
    entities.filterMap Entity.institution? = [] := by
  rw [List.filterMap_eq_nil_iff]
  intro entity hentity
  cases entity with
  | author message => rfl
  | institution message => exact absurd rfl (hkind _ hentity)

/-- One of the three calls, when it has not been made before. -/
theorem run_extract (data : Json) (extractor : Extractor) (work : Work)
    {found : List Entity} (hfound : ∀ entity ∈ found, entity.extractor ≠ extractor)
    (seenIds : SeenIds) :
    (extract lib data (.of found work) extractor).run seenIds =
      match (extractor.walk lib data).collect Entity.openalexId found seenIds with
      | .ok entities seenIds' =>
          .ok (.of entities (if extractor = .work then recordWork lib data else work))
            seenIds'
      | .error exception seenIds' => .error exception seenIds' := by
  cases extractor with
  | authors =>
      have hkey : Entity.openalexId ∘ Entity.author = Author.openalexId := rfl
      simp only [extract, EStateM.run_bind, run_extractAuthors, Extractor.walk,
        Walk.collect_map, hkey]
      cases (authorWalk data).collect Author.openalexId [] seenIds with
      | error exception seenIds' => rfl
      | ok authors seenIds' =>
          simp [Extracted.of, filterMap_author?_eq_nil hfound]
  | institutions =>
      have hkey : Entity.openalexId ∘ Entity.institution = Institution.openalexId := rfl
      simp only [extract, EStateM.run_bind, run_extractInstitutions, Extractor.walk,
        Walk.collect_map, hkey]
      cases (institutionWalk data).collect Institution.openalexId [] seenIds with
      | error exception seenIds' => rfl
      | ok institutions seenIds' =>
          simp [Extracted.of, filterMap_institution?_eq_nil hfound]
  | work =>
      simp only [extract, EStateM.run_bind, Extractor.walk, recordWork]
      cases extractWork lib.timeFromString data with
      | error exception =>
          simp [Walk.ofExcept, Walk.fail, Walk.collect, ofExcept]
          rfl
      | ok work =>
          simp [Extracted.of, Walk.ofExcept, Walk.collect_nil, ofExcept, Except.toOption]

/-- The calls in any order, each made once. -/
theorem run_foldlM_extract (data : Json) {extractors : List Extractor}
    (hextractors : extractors.Nodup) (work : Work) {found : List Entity}
    (hfound : ∀ entity ∈ found, entity.extractor ∉ extractors) (seenIds : SeenIds) :
    (extractors.foldlM (extract lib data) (.of found work)).run seenIds =
      match (Walk.each (Extractor.walk lib data) extractors).collect Entity.openalexId
          found seenIds with
      | .ok entities seenIds' =>
          .ok (.of entities (if .work ∈ extractors then recordWork lib data else work))
            seenIds'
      | .error exception seenIds' => .error exception seenIds' := by
  induction extractors generalizing work found seenIds with
  | nil => simp [Walk.each, Walk.collect_nil]
  | cons extractor extractors ih =>
      rw [List.nodup_cons] at hextractors
      have hfirst : ∀ entity ∈ found, entity.extractor ≠ extractor := by
        intro entity hentity heq
        exact hfound entity hentity (heq ▸ List.mem_cons_self)
      rw [List.foldlM_cons, EStateM.run_bind, run_extract lib data extractor work hfirst,
        Walk.each, Walk.collect_append]
      cases hwalk : (extractor.walk lib data).failure? with
      | some exception => rw [Walk.collect_of_failure hwalk]
      | none =>
          rw [Walk.collect_of_failure?_eq_none hwalk]
          simp only
          rw [ih hextractors.2]
          · cases Walk.collect Entity.openalexId
                (Walk.each (Extractor.walk lib data) extractors) _ _ with
            | error exception seenIds' => rfl
            | ok entities seenIds' =>
                by_cases hlast : extractor = .work
                · simp [hlast]
                · simp [hlast, Ne.symm hlast]
          · intro entity hentity
            rcases List.mem_append.mp hentity with hold | hnew
            · exact fun hmem => hfound entity hold (List.mem_cons_of_mem _ hmem)
            · have hitem := (mem_fresh_iff.mp hnew).2
              rw [Extractor.extractor_of_mem_walk lib (List.mem_of_find?_eq_some hitem)]
              exact hextractors.1

/-- The work of a line that can be processed. -/
def lineWork (line : Text) : Work :=
  match lib.parse line with
  | some data => recordWork lib data
  | none => { openalexId := [] }

theorem EvaluationOrder.nodup_extractors (order : EvaluationOrder) :
    order.extractors.Nodup :=
  order.perm.nodup_iff.mpr (by decide)

theorem EvaluationOrder.work_mem_extractors (order : EvaluationOrder) :
    Extractor.work ∈ order.extractors :=
  order.perm.mem_iff.mpr (by decide)

/-- What can be said of a line that can be processed. -/
theorem of_failure?_lineWalk_eq_none {line : Text}
    (hline : (lineWalk lib line).failure? = none) :
    ∃ data work, lib.parse line = some data ∧
      extractWork lib.timeFromString data = .ok work ∧ lineWork lib line = work ∧
      (authorWalk data).failure? = none ∧ (institutionWalk data).failure? = none := by
  rcases Walk.failure?_ofExcept_eq_none_iff.mp hline with ⟨data, hread, hcalls⟩
  have hparse : lib.parse line = some data := by
    rw [parseLine] at hread
    cases hparse : lib.parse line <;> simp_all
  have hcall : ∀ extractor : Extractor, (extractor.walk lib data).failure? = none := by
    intro extractor
    apply Walk.failure?_each_eq_none_iff.mp hcalls
    rw [lib.order.perm.mem_iff]
    cases extractor <;> decide
  rcases Walk.failure?_ofExcept_eq_none_iff.mp (hcall .work) with ⟨work, hwork, -⟩
  refine ⟨data, work, hparse, hwork, ?_, hcall .authors, hcall .institutions⟩
  rw [lineWork, hparse]
  simp [recordWork, hwork, Except.toOption]

theorem mem_lineWalk_iff {line : Text} (hline : (lineWalk lib line).failure? = none)
    {data : Json} (hparse : lib.parse line = some data) {entity : Entity} :
    entity ∈ (lineWalk lib line).items ↔
      (∃ message ∈ (authorWalk data).items, entity = .author message) ∨
        ∃ message ∈ (institutionWalk data).items, entity = .institution message := by
  rw [lineWalk, parseLine, hparse] at hline ⊢
  simp only [Walk.ofExcept] at hline ⊢
  rw [Walk.mem_items_each hline]
  constructor
  · rintro ⟨extractor, -, hentity⟩
    cases extractor with
    | authors =>
        rcases List.mem_map.mp hentity with ⟨message, hmessage, rfl⟩
        exact Or.inl ⟨message, hmessage, rfl⟩
    | institutions =>
        rcases List.mem_map.mp hentity with ⟨message, hmessage, rfl⟩
        exact Or.inr ⟨message, hmessage, rfl⟩
    | work =>
        have hkind := Extractor.extractor_of_mem_walk lib hentity
        cases entity <;> cases hkind
  · rintro (⟨message, hmessage, rfl⟩ | ⟨message, hmessage, rfl⟩)
    · exact ⟨.authors, lib.order.perm.mem_iff.mpr (by decide),
        List.mem_map_of_mem hmessage⟩
    · exact ⟨.institutions, lib.order.perm.mem_iff.mpr (by decide),
        List.mem_map_of_mem hmessage⟩

/-- `ProcessLine` returns what is new on its walk through the line. -/
theorem run_processLine (line : Text) (seenIds : SeenIds) :
    (processLine lib line).run seenIds =
      match (lineWalk lib line).collect Entity.openalexId [] seenIds with
      | .ok entities seenIds' => .ok (.of entities (lineWork lib line)) seenIds'
      | .error exception seenIds' => .error exception seenIds' := by
  rw [processLine, EStateM.run_bind, lineWalk, lineWork, parseLine]
  cases lib.parse line with
  | none =>
      simp [ofExcept, Walk.ofExcept, Walk.fail, Walk.collect]
      rfl
  | some data =>
      have hcalls := run_foldlM_extract lib data lib.order.nodup_extractors
        { openalexId := [] } (List.forall_mem_nil _) seenIds
      simp only [if_pos lib.order.work_mem_extractors] at hcalls
      exact hcalls

theorem run_processLine_of_ok {line : Text} (hline : (lineWalk lib line).failure? = none)
    (seenIds : SeenIds) :
    (processLine lib line).run seenIds =
      .ok (.of (fresh Entity.openalexId seenIds (lineWalk lib line).items)
          (lineWork lib line))
        (seenIds ∪ keys Entity.openalexId (lineWalk lib line).items) := by
  rw [run_processLine, Walk.collect_of_failure?_eq_none hline]
  rfl

theorem run_processLine_of_error {line : Text} {exception : SnapshotException}
    (hline : (lineWalk lib line).failure? = some exception) (seenIds : SeenIds) :
    (processLine lib line).run seenIds =
      .error exception (seenIds ∪ keys Entity.openalexId (lineWalk lib line).items) := by
  rw [run_processLine, Walk.collect_of_failure hline]

end Lines

end Citescoop
