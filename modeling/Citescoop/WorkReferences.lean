/-
The references of a work: the authors and institutions whose ids `ExtractWork`
lists, beside those that `ExtractAuthors` and `ExtractInstitutions` consider.
-/
import Citescoop.ExceptFold
import Citescoop.ConsideredRecords

namespace Citescoop

open FirstSeen ExceptFold

/-- The ids that an authorship adds to `institution_ids`, repetitions included. -/
def referencedIds (authorship : Json) : List Text :=
  match authorship.field "author" with
  | .ok author =>
      if isAuthorEmpty author then []
      else (considerInstitutions authorship).items.map Institution.openalexId
  | .error _ => []

/-- Going on with the institutions of a work by some ids. -/
structure Tracks (references next : References) (ids : List Text) : Prop where
  seen : next.seenInstitutionIds = references.seenInstitutionIds ∪ keys id ids
  listed : next.institutionIds =
    references.institutionIds ++ fresh id references.seenInstitutionIds ids

theorem Tracks.refl (references : References) : Tracks references references [] :=
  ⟨by simp, by simp [fresh]⟩

theorem Tracks.append {references next final : References} {ids ids' : List Text}
    (hnext : Tracks references next ids) (hfinal : Tracks next final ids') :
    Tracks references final (ids ++ ids') := by
  refine ⟨?_, ?_⟩
  · rw [hfinal.seen, hnext.seen, keys_append, Finset.union_assoc]
  · rw [hfinal.listed, hnext.listed, hnext.seen, fresh_append, List.append_assoc]

theorem Tracks.foldlM {round : References → Json → Except SnapshotException References}
    {write : Json → List Text}
    (hround : ∀ references item next, round references item = .ok next →
      Tracks references next (write item))
    {items : List Json} {references final : References}
    (hfold : items.foldlM round references = .ok final) :
    Tracks references final (items.flatMap write) := by
  induction items generalizing references with
  | nil =>
      simp only [foldlM_nil, Except.ok.injEq] at hfold
      exact hfold ▸ .refl references
  | cons item items ih =>
      rcases foldlM_cons_ok.mp hfold with ⟨next, hnext, hrest⟩
      exact (hround references item next hnext).append (ih hrest)

theorem considerInstitution_of_empty {institution : Json}
    (hempty : isInstitutionEmpty institution = true) :
    considerInstitution institution = ⟨[], none⟩ := by
  rw [considerInstitution, if_pos hempty]

theorem considerInstitution_of_id {institution : Json} {institutionId : Text}
    (hempty : isInstitutionEmpty institution = false)
    (hid : getInstitutionId institution = .ok institutionId) :
    considerInstitution institution =
      ⟨[institutionMessage institutionId institution], none⟩ := by
  rw [considerInstitution, hempty, hid]
  rfl

theorem Tracks.of_seen {references : References} {institutionId : Text}
    (hseen : institutionId ∈ references.seenInstitutionIds) :
    Tracks references references [institutionId] :=
  ⟨by simp [hseen], by simp [fresh, hseen]⟩

theorem Tracks.of_notSeen {references : References} {institutionId : Text}
    (hseen : institutionId ∉ references.seenInstitutionIds) :
    Tracks references { references with
      seenInstitutionIds := insert institutionId references.seenInstitutionIds
      institutionIds := references.institutionIds ++ [institutionId] } [institutionId] :=
  ⟨by simp, by simp [fresh, hseen]⟩

theorem addInstitution_ok {references next : References} {institution : Json}
    (hadd : addInstitution references institution = .ok next) :
    next.authorIds = references.authorIds ∧
      (considerInstitution institution).failure? = none ∧
      Tracks references next
        ((considerInstitution institution).items.map Institution.openalexId) := by
  rw [addInstitution] at hadd
  rcases hempty : isInstitutionEmpty institution with _ | _
  · rw [if_neg (by simp [hempty])] at hadd
    rcases bind_ok hadd with ⟨institutionId, hid, hadd⟩
    rw [considerInstitution_of_id hempty hid]
    by_cases hseen : institutionId ∈ references.seenInstitutionIds
    · rw [if_pos hseen] at hadd
      rw [← Except.ok.inj hadd]
      exact ⟨rfl, rfl, .of_seen hseen⟩
    · rw [if_neg hseen] at hadd
      rw [← Except.ok.inj hadd]
      exact ⟨rfl, rfl, .of_notSeen hseen⟩
  · rw [if_pos hempty, Except.ok.injEq] at hadd
    rw [considerInstitution_of_empty hempty, ← hadd]
    exact ⟨rfl, rfl, .refl references⟩

/-- The loop over the institutions of one authorship. -/
theorem foldlM_addInstitution_ok {listed : List Json} {references next : References}
    (hfold : listed.foldlM addInstitution references = .ok next) :
    next.authorIds = references.authorIds ∧
      (Walk.each considerInstitution listed).failure? = none ∧
      Tracks references next
        ((Walk.each considerInstitution listed).items.map Institution.openalexId) := by
  have hwalk : ∀ institution ∈ listed, (considerInstitution institution).failure? = none := by
    intro institution hinstitution
    rcases foldlM_ok_item hfold hinstitution with ⟨state, next, hadd⟩
    exact (addInstitution_ok hadd).2.1
  refine ⟨?_, Walk.failure?_each_eq_none_iff.mpr hwalk, ?_⟩
  · apply foldlM_invariant (fun state => state.authorIds = references.authorIds) _ rfl hfold
    intro state institution _ next hstate hadd
    rw [(addInstitution_ok hadd).1, hstate]
  · rw [Walk.items_each hwalk, List.map_flatMap]
    refine Tracks.foldlM ?_ hfold
    intro state institution next hadd
    exact (addInstitution_ok hadd).2.2

theorem addAuthorship_ok {references next : References} {authorship : Json}
    (hadd : addAuthorship references authorship = .ok next) :
    (considerAuthor authorship).failure? = none ∧
      next.authorIds = references.authorIds ++
        (considerAuthor authorship).items.map Author.openalexId ∧
      Tracks references next (referencedIds authorship) := by
  rcases bind_ok hadd with ⟨author, hauthor, hadd⟩
  rw [referencedIds, hauthor]
  rcases hempty : isAuthorEmpty author with _ | _
  · rw [if_neg (by simp [hempty])] at hadd
    rcases bind_ok hadd with ⟨authorId, hid, hadd⟩
    rcases bind_ok hadd with ⟨listed, hlisted, hadd⟩
    rcases foldlM_addInstitution_ok hadd with ⟨hauthors, -, htracks⟩
    rw [considerAuthor_of_id hauthor hempty hid]
    refine ⟨rfl, hauthors, ?_⟩
    simp only [hempty, Bool.false_eq_true, if_false, considerInstitutions, hlisted]
    exact ⟨htracks.seen, htracks.listed⟩
  · rw [if_pos hempty] at hadd
    have hnext : references = next := Except.ok.inj hadd
    rw [considerAuthor_of_empty hauthor hempty, ← hnext]
    simp only [hempty, if_true]
    exact ⟨trivial, (List.append_nil _).symm, .refl references⟩

/-- What a work that is extracted says about the record. -/
theorem extractWork_ok {timeFromString : Text → Option Timestamp} {data : Json}
    {work : Work} (hwork : extractWork timeFromString data = .ok work) :
    ∃ (authorships : Json) (references : References),
      data.field "authorships" = .ok authorships ∧
      authorships.items.foldlM addAuthorship {} = .ok references ∧
      work.authorIds = references.authorIds ∧
      work.institutionIds = references.institutionIds ∧
      work.publicationDate? = (data.string? "publication_date").map fun date =>
        (timeFromString date).getD {} := by
  rw [extractWork] at hwork
  rcases bind_ok hwork with ⟨_, -, hwork⟩
  rcases bind_ok hwork with ⟨_, -, hwork⟩
  rcases bind_ok hwork with ⟨_, -, hwork⟩
  rcases bind_ok hwork with ⟨_, -, hwork⟩
  rcases bind_ok hwork with ⟨_, -, hwork⟩
  rcases bind_ok hwork with ⟨_, -, hwork⟩
  rcases bind_ok hwork with ⟨_, -, hwork⟩
  rcases bind_ok hwork with ⟨authorships, hauthorships, hwork⟩
  rcases bind_ok hwork with ⟨references, hreferences, hwork⟩
  rcases bind_ok hwork with ⟨identifiers, -, hwork⟩
  cases hwork
  exact ⟨authorships, references, hauthorships, hreferences, rfl, rfl, rfl⟩

/-- An id that `GetInstitutionId` computes for a non-empty institution of an
authorship whose author is not empty. -/
def ReferencesInstitution (data : Json) (institutionId : Text) : Prop :=
  ∃ authorships authorship author listed institution : Json,
    data.field "authorships" = .ok authorships ∧ authorship ∈ authorships.items ∧
    authorship.field "author" = .ok author ∧ isAuthorEmpty author = false ∧
    authorship.field "institutions" = .ok listed ∧ institution ∈ listed.items ∧
    isInstitutionEmpty institution = false ∧
    getInstitutionId institution = .ok institutionId

/-- A work refers only to institutions that its record lists. -/
theorem ReferencesInstitution.lists {data : Json} {institutionId : Text}
    (hreferences : ReferencesInstitution data institutionId) :
    ∃ institution, ListsInstitution data institution institutionId := by
  rcases hreferences with ⟨authorships, authorship, author, listed, institution,
    hauthorships, hmem, -, -, hlisted, hinstitution, hempty, hid⟩
  exact ⟨institution, authorships, authorship, listed, hauthorships, hmem, hlisted,
    hinstitution, hempty, hid⟩

theorem extractWork_authorIds {timeFromString : Text → Option Timestamp} {data : Json}
    {work : Work} (hwork : extractWork timeFromString data = .ok work) :
    (authorWalk data).failure? = none ∧
      work.authorIds = (authorWalk data).items.map Author.openalexId := by
  rcases extractWork_ok hwork with
    ⟨authorships, references, hauthorships, hfold, hauthors, -⟩
  have hwalk : ∀ authorship ∈ authorships.items,
      (considerAuthor authorship).failure? = none := by
    intro authorship hmem
    rcases foldlM_ok_item hfold hmem with ⟨state, next, hadd⟩
    exact (addAuthorship_ok hadd).1
  rw [authorWalk, hauthorships, Walk.ofExcept, hauthors]
  refine ⟨Walk.failure?_each_eq_none_iff.mpr hwalk, ?_⟩
  rw [Walk.items_each hwalk, List.map_flatMap]
  refine foldlM_log addAuthorship References.authorIds _ ?_ hfold
  intro state authorship next hadd
  exact (addAuthorship_ok hadd).2.1

theorem mem_referencedIds_iff {authorship : Json} {institutionId : Text} :
    institutionId ∈ referencedIds authorship ↔
      ∃ author listed institution : Json, authorship.field "author" = .ok author ∧
        isAuthorEmpty author = false ∧ authorship.field "institutions" = .ok listed ∧
        institution ∈ listed.items ∧ isInstitutionEmpty institution = false ∧
        getInstitutionId institution = .ok institutionId := by
  rw [referencedIds]
  cases authorship.field "author" with
  | error exception => simp
  | ok author =>
      cases hempty : isAuthorEmpty author with
      | true => simp [hempty]
      | false =>
          simp only [hempty, Bool.false_eq_true, if_false, List.mem_map,
            mem_considerInstitutions_iff]
          constructor
          · rintro ⟨message, ⟨listed, institution, otherId, hlisted, hmem, hne, hid, rfl⟩, rfl⟩
            exact ⟨author, listed, institution, rfl, hempty, hlisted, hmem, hne, hid⟩
          · rintro ⟨_, listed, institution, ⟨⟩, -, hlisted, hmem, hne, hid⟩
            exact ⟨_, ⟨listed, institution, institutionId, hlisted, hmem, hne, hid, rfl⟩, rfl⟩

/-- The institutions of a work are those referenced, each listed once. -/
theorem extractWork_institutionIds {timeFromString : Text → Option Timestamp}
    {data : Json} {work : Work} (hwork : extractWork timeFromString data = .ok work) :
    work.institutionIds.Nodup ∧
      ∀ institutionId, institutionId ∈ work.institutionIds ↔
        ReferencesInstitution data institutionId := by
  rcases extractWork_ok hwork with
    ⟨authorships, references, hauthorships, hfold, -, hinstitutions, -⟩
  have htracks : Tracks {} references (authorships.items.flatMap referencedIds) := by
    refine Tracks.foldlM ?_ hfold
    intro state authorship next hadd
    exact (addAuthorship_ok hadd).2.2
  have hlisted : work.institutionIds =
      fresh id ∅ (authorships.items.flatMap referencedIds) := by
    rw [hinstitutions, htracks.listed]
    rfl
  refine ⟨?_, ?_⟩
  · rw [hlisted, ← List.map_id (fresh _ _ _)]
    exact nodup_fresh _ _
  · intro institutionId
    rw [hlisted, ← List.map_id (fresh _ _ _), mem_map_fresh_iff, Finset.sdiff_empty,
      mem_keys]
    simp only [List.mem_flatMap, mem_referencedIds_iff]
    constructor
    · rintro ⟨_, ⟨authorship, hmem, author, listed, institution, hreferenced⟩, rfl⟩
      exact ⟨authorships, authorship, author, listed, institution, hauthorships, hmem,
        hreferenced⟩
    · rintro ⟨authorships', authorship, author, listed, institution, hread, hmem,
        hreferenced⟩
      rw [hauthorships] at hread
      cases hread
      exact ⟨institutionId, ⟨authorship, hmem, author, listed, institution, hreferenced⟩,
        rfl⟩

end Citescoop
