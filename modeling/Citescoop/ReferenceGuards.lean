/-
The guards in front of the references of a work: which authors and institutions
of a record are passed over as empty, and what that costs.
-/
import Citescoop.WorkReferences

namespace Citescoop

open FirstSeen

section Selection

variable {α β : Type} {f g : α → Option β}

theorem filterMap_sublist_filterMap {items : List α}
    (hfg : ∀ item ∈ items, ∀ value, f item = some value → g item = some value) :
    (items.filterMap f).Sublist (items.filterMap g) := by
  induction items with
  | nil => exact .slnil
  | cons item items ih =>
      rw [List.forall_mem_cons] at hfg
      cases hf : f item with
      | none =>
          rw [List.filterMap_cons_none hf]
          cases hg : g item with
          | none =>
              rw [List.filterMap_cons_none hg]
              exact ih hfg.2
          | some value =>
              rw [List.filterMap_cons_some hg]
              exact (ih hfg.2).cons value
      | some value =>
          rw [List.filterMap_cons_some hf, List.filterMap_cons_some (hfg.1 value hf)]
          exact (ih hfg.2).cons_cons value

/-- A selection that gives the same list as a wider one selects the same items. -/
theorem eq_of_filterMap_eq {items : List α}
    (hfg : ∀ item ∈ items, ∀ value, f item = some value → g item = some value)
    (hsame : items.filterMap f = items.filterMap g) :
    ∀ item ∈ items, f item = g item := by
  induction items with
  | nil => simp
  | cons item items ih =>
      rw [List.forall_mem_cons] at hfg ⊢
      cases hf : f item with
      | some value =>
          have hg := hfg.1 value hf
          rw [List.filterMap_cons_some hf, List.filterMap_cons_some hg,
            List.cons.injEq] at hsame
          exact ⟨hg.symm, ih hfg.2 hsame.2⟩
      | none =>
          rw [List.filterMap_cons_none hf] at hsame
          cases hg : g item with
          | none =>
              rw [List.filterMap_cons_none hg] at hsame
              exact ⟨rfl, ih hfg.2 hsame⟩
          | some value =>
              rw [List.filterMap_cons_some hg] at hsame
              have hlength := (filterMap_sublist_filterMap hfg.2).length_le
              rw [hsame, List.length_cons] at hlength
              omega

end Selection

/-- The key by which an author can be identified: the trimmed OpenAlex id, or
one made from the ORCID, or from the name. -/
def authorKey? (author : Json) : Option Text :=
  recordKey? "orcid" author

/-- The author objects of a record, in order. -/
def AuthorsOf (data : Json) (authors : List Json) : Prop :=
  ∃ authorships : Json, data.field "authorships" = .ok authorships ∧
    List.Forall₂ (fun (authorship : Json) author => authorship.field "author" = .ok author)
      authorships.items authors

/-- Every author that can be identified is kept, and no other: in the work, and
among those that `ExtractAuthors` considers; and no author that is not empty
makes `GetAuthorId` fail. -/
structure KeepsIdentifiable (timeFromString : Text → Option Timestamp) (data : Json)
    (authors : List Json) : Prop where
  listed : ∀ work, extractWork timeFromString data = .ok work →
    work.authorIds = authors.filterMap authorKey?
  considered : authorWalk data =
    ⟨authors.filterMap fun author =>
      (authorKey? author).map fun key => authorMessage key author, none⟩
  returns : ∀ author ∈ authors, isAuthorEmpty author = false →
    ∃ authorId, getAuthorId author = .ok authorId

/-- What `ExtractAuthors` makes of an author when `GetAuthorId` returns. -/
def consideredMessage? (author : Json) : Option Author :=
  if isAuthorEmpty author then none
  else (authorKey? author).map fun key => authorMessage key author

theorem each_considerAuthor {authorships authors : List Json}
    (hauthors : List.Forall₂
      (fun (authorship : Json) author => authorship.field "author" = .ok author)
      authorships authors)
    (hreturns : ∀ author ∈ authors, isAuthorEmpty author = false →
      ∃ authorId, getAuthorId author = .ok authorId) :
    Walk.each considerAuthor authorships =
      ⟨authors.filterMap consideredMessage?, none⟩ := by
  induction hauthors with
  | nil => rfl
  | cons hauthor hauthors ih =>
      rename_i authorship author authorships authors
      rw [List.forall_mem_cons] at hreturns
      rw [Walk.each, ih hreturns.2]
      cases hempty : isAuthorEmpty author with
      | true =>
          have hnone : consideredMessage? author = none := by simp [consideredMessage?, hempty]
          rw [considerAuthor_of_empty hauthor hempty, List.filterMap_cons_none hnone]
          rfl
      | false =>
          rcases hreturns.1 hempty with ⟨authorId, hid⟩
          have hkey : authorKey? author = some authorId := getRecordId_eq_ok_iff.mp hid
          have hsome : consideredMessage? author = some (authorMessage authorId author) := by
            simp [consideredMessage?, hempty, hkey]
          rw [considerAuthor_of_id hauthor hempty hid, List.filterMap_cons_some hsome]
          rfl

/-- The guard and the key go by the same fields of an author unless it is up to
the ORCID and the ROR. -/
theorem guard_agrees_iff (author : Json) :
    (isAuthorEmpty author = true ↔ authorKey? author = none) ↔
      (author.string? "id" = none → author.string? "display_name" = none →
        ((author.string? "orcid").isSome ↔ (author.string? "ror").isSome)) := by
  rw [isAuthorEmpty, authorKey?, recordKey?_eq_none_iff, isRecordEmpty, isRecordEmpty]
  cases author.string? "id" <;> cases author.string? "display_name" <;>
    cases author.string? "orcid" <;> cases author.string? "ror" <;> simp

theorem authorWalk_of_returns {data : Json} {authors : List Json}
    (hauthors : AuthorsOf data authors)
    (hreturns : ∀ author ∈ authors, isAuthorEmpty author = false →
      ∃ authorId, getAuthorId author = .ok authorId) :
    authorWalk data = ⟨authors.filterMap consideredMessage?, none⟩ := by
  rcases hauthors with ⟨authorships, hread, hauthors⟩
  rw [authorWalk, hread]
  exact each_considerAuthor hauthors hreturns

theorem map_authorMessage_of_consideredMessage? {author : Json} {message : Author}
    (hmessage : consideredMessage? author = some message) :
    (authorKey? author).map (fun key => authorMessage key author) = some message := by
  rw [consideredMessage?] at hmessage
  by_cases hempty : isAuthorEmpty author = true
  · simp [hempty] at hmessage
  · rwa [if_neg hempty] at hmessage

/-- Where the guard agrees with the key, an author that is not empty has an id. -/
theorem returns_of_guard_agrees {author : Json}
    (hagree : isAuthorEmpty author = true ↔ authorKey? author = none)
    (hempty : isAuthorEmpty author = false) :
    ∃ authorId, getAuthorId author = .ok authorId := by
  have hkey : authorKey? author ≠ none := by
    rw [Ne, ← hagree, hempty]
    exact Bool.false_ne_true
  rcases Option.ne_none_iff_exists'.mp hkey with ⟨authorId, hkey⟩
  exact ⟨authorId, getRecordId_eq_ok_iff.mpr hkey⟩

/-- The guard changes nothing exactly when it agrees with the key. -/
theorem consideredMessage?_eq_iff {author : Json}
    (hreturns : isAuthorEmpty author = false →
      ∃ authorId, getAuthorId author = .ok authorId) :
    consideredMessage? author = (authorKey? author).map (fun key => authorMessage key author) ↔
      (isAuthorEmpty author = true ↔ authorKey? author = none) := by
  rw [consideredMessage?]
  rcases hempty : isAuthorEmpty author with _ | _
  · rcases hreturns hempty with ⟨authorId, hid⟩
    have hkey : authorKey? author = some authorId := getRecordId_eq_ok_iff.mp hid
    simp [hkey]
  · rw [if_pos rfl, eq_comm, Option.map_eq_none_iff]
    simp

/-- Exactly the authors that can be identified are kept when no author of the
record without id and name has an ORCID and no ROR, or a ROR and no ORCID. -/
theorem keepsIdentifiable_iff (timeFromString : Text → Option Timestamp) {data : Json}
    {authors : List Json} (hauthors : AuthorsOf data authors) :
    KeepsIdentifiable timeFromString data authors ↔
      ∀ author ∈ authors, author.string? "id" = none →
        author.string? "display_name" = none →
        ((author.string? "orcid").isSome ↔ (author.string? "ror").isSome) := by
  simp only [← guard_agrees_iff]
  constructor
  · rintro ⟨-, hconsidered, hreturns⟩ author hmem
    rw [authorWalk_of_returns hauthors hreturns, Walk.mk.injEq] at hconsidered
    apply (consideredMessage?_eq_iff (hreturns author hmem)).mp
    apply eq_of_filterMap_eq _ hconsidered.1 author hmem
    intro author _ message hmessage
    exact map_authorMessage_of_consideredMessage? hmessage
  · intro hagree
    have hreturns : ∀ author ∈ authors, isAuthorEmpty author = false →
        ∃ authorId, getAuthorId author = .ok authorId := by
      intro author hmem hempty
      exact returns_of_guard_agrees (hagree author hmem) hempty
    have hconsidered : authorWalk data = ⟨authors.filterMap fun author =>
        (authorKey? author).map fun key => authorMessage key author, none⟩ := by
      rw [authorWalk_of_returns hauthors hreturns, Walk.mk.injEq]
      refine ⟨List.filterMap_congr ?_, rfl⟩
      intro author hmem
      exact (consideredMessage?_eq_iff (hreturns author hmem)).mpr (hagree author hmem)
    refine ⟨?_, hconsidered, hreturns⟩
    intro work hwork
    rw [(extractWork_authorIds hwork).2, hconsidered, List.map_filterMap]
    apply List.filterMap_congr
    intro author _
    cases authorKey? author <;> rfl

/-- An author with an ORCID alone, and one with a ROR alone. -/
def orcidAuthor : Json :=
  .object [("orcid".toList, .string "0000-0001-2345-6789".toList)]

def rorAuthor : Json :=
  .object [("ror".toList, .string "https://ror.org/012345678".toList)]

def authorshipOf (author : Json) (institutions : List Json) : Json :=
  .object [("author".toList, author), ("institutions".toList, .array institutions)]

theorem keepsIdentifiable_iff_orcid :
    KeepsIdentifiable (fun _ => none) (minimalRecord [authorshipOf orcidAuthor []])
        [orcidAuthor] ↔
      ∀ author ∈ [orcidAuthor], author.string? "id" = none →
        author.string? "display_name" = none →
        ((author.string? "orcid").isSome ↔ (author.string? "ror").isSome) :=
  keepsIdentifiable_iff _ ⟨.array [authorshipOf orcidAuthor []], rfl, .cons rfl .nil⟩

/-- The author with an ORCID is dropped from the work, though it has a key; the
author with a ROR is not empty, and reading its id meets an absent key. -/
theorem orcid_dropped :
    (∃ work, extractWork (fun _ => none) (minimalRecord [authorshipOf orcidAuthor []]) =
        .ok work ∧
      work.authorIds = [] ∧
      authorKey? orcidAuthor = some "UNKNOWN_0000-0001-2345-6789".toList) ∧
    isAuthorEmpty rorAuthor = false ∧
      getAuthorId rorAuthor = .error (.json .absentKey) :=
  ⟨⟨_, rfl, rfl, rfl⟩, rfl, rfl⟩

/-- The institutions of a work are those of all its authorships, each listed
once, and those that `ExtractInstitutions` considers if it returns. -/
structure ListsEveryInstitution (data : Json) (work : Work) : Prop where
  nodup : work.institutionIds.Nodup
  listed : ∀ institutionId, institutionId ∈ work.institutionIds ↔
    ∃ institution, ListsInstitution data institution institutionId
  considered : (institutionWalk data).failure? = none → ∀ institutionId,
    institutionId ∈ work.institutionIds ↔
      ∃ message ∈ (institutionWalk data).items, message.openalexId = institutionId

/-- An institution of a record that has a work is referred to, unless it stands under an
author that is passed over as empty. -/
theorem references_of_lists {timeFromString : Text → Option Timestamp} {data : Json}
    {work : Work} (hwork : extractWork timeFromString data = .ok work)
    {authorships authorship listed institution : Json} {institutionId : Text}
    (hread : data.field "authorships" = .ok authorships)
    (hmem : authorship ∈ authorships.items)
    (hlisted : authorship.field "institutions" = .ok listed)
    (hinstitution : institution ∈ listed.items)
    (hne : isInstitutionEmpty institution = false)
    (hid : getInstitutionId institution = .ok institutionId) :
    ∃ author, authorship.field "author" = .ok author ∧
      (isAuthorEmpty author = false → ReferencesInstitution data institutionId) := by
  rcases Walk.failure?_ofExcept_eq_none_iff.mp (extractWork_authorIds hwork).1 with
    ⟨authorships', hread', hwalk⟩
  have hsame : authorships' = authorships := Except.ok.inj (hread'.symm.trans hread)
  subst hsame
  rcases failure?_considerAuthor_eq_none_iff.mp
    (Walk.failure?_each_eq_none_iff.mp hwalk authorship hmem) with ⟨author, hauthor, -⟩
  refine ⟨author, hauthor, ?_⟩
  intro hguard
  exact ⟨_, authorship, author, listed, institution, hread, hmem, hauthor, hguard,
    hlisted, hinstitution, hne, hid⟩

/-- The work lists every institution exactly when those under an author that is
passed over as empty stand under another author as well. -/
theorem listsEveryInstitution_iff {timeFromString : Text → Option Timestamp}
    {data : Json} {work : Work} (hwork : extractWork timeFromString data = .ok work) :
    ListsEveryInstitution data work ↔
      ∀ (authorships authorship author listed institution : Json) (institutionId : Text),
        data.field "authorships" = .ok authorships → authorship ∈ authorships.items →
        authorship.field "author" = .ok author → isAuthorEmpty author = true →
        authorship.field "institutions" = .ok listed → institution ∈ listed.items →
        isInstitutionEmpty institution = false →
        getInstitutionId institution = .ok institutionId →
        ReferencesInstitution data institutionId := by
  rcases extractWork_institutionIds hwork with ⟨hnodup, hreferences⟩
  constructor
  · intro hlists authorships authorship author listed institution institutionId hread hmem
      _ _ hlisted hinstitution hne hid
    rw [← hreferences, hlists.listed]
    exact ⟨institution, authorships, authorship, listed, hread, hmem, hlisted,
      hinstitution, hne, hid⟩
  · intro hempty
    have hlisted : ∀ institutionId, institutionId ∈ work.institutionIds ↔
        ∃ institution, ListsInstitution data institution institutionId := by
      intro institutionId
      rw [hreferences]
      refine ⟨ReferencesInstitution.lists, ?_⟩
      rintro ⟨institution, authorships, authorship, listed, hread, hmem, hlisted,
        hinstitution, hne, hid⟩
      rcases references_of_lists hwork hread hmem hlisted hinstitution hne hid with
        ⟨author, hauthor, hfilled⟩
      rcases hguard : isAuthorEmpty author with _ | _
      · exact hfilled hguard
      · exact hempty authorships authorship author listed institution institutionId
          hread hmem hauthor hguard hlisted hinstitution hne hid
    refine ⟨hnodup, hlisted, ?_⟩
    intro hwalk institutionId
    rw [hlisted, exists_mem_institutionWalk_iff hwalk]

/-- An authorship without an author, at one institution. -/
def anonymousRecord : Json :=
  minimalRecord [authorshipOf (.object []) [.object [("id".toList, .string "I1".toList)]]]

theorem listsEveryInstitution_iff_anonymous :
    ∃ work, extractWork (fun _ => none) anonymousRecord = .ok work ∧
      (ListsEveryInstitution anonymousRecord work ↔
        ∀ (authorships authorship author listed institution : Json) (institutionId : Text),
          anonymousRecord.field "authorships" = .ok authorships →
          authorship ∈ authorships.items →
          authorship.field "author" = .ok author → isAuthorEmpty author = true →
          authorship.field "institutions" = .ok listed → institution ∈ listed.items →
          isInstitutionEmpty institution = false →
          getInstitutionId institution = .ok institutionId →
          ReferencesInstitution anonymousRecord institutionId) :=
  ⟨_, rfl, listsEveryInstitution_iff rfl⟩

/-- The institution is emitted, but the work does not refer to it. -/
theorem institution_unreferenced :
    ∃ work, extractWork (fun _ => none) anonymousRecord = .ok work ∧
      work.institutionIds = [] ∧
      ∃ seenIds, (extractInstitutions anonymousRecord).run ∅ =
        .ok [⟨"I1".toList, none, none⟩] seenIds :=
  ⟨_, rfl, rfl, _, rfl⟩

end Citescoop
