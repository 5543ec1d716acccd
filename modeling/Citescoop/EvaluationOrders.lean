/-
The order in which the calls in the tuple of `ProcessLine` are evaluated.  Authors and
institutions share `seen_ids_`: of an author and an institution with one id, the call
that is made first has it, and compilers need not agree on which that is.
-/
import Citescoop.ReferentialIntegrity

namespace Citescoop

open FirstSeen

namespace EvaluationOrder

theorem authorsFirst_perm : [Extractor.authors, .institutions, .work].Perm
    [.authors, .institutions, .work] := .refl _

def authorsFirst : EvaluationOrder := ⟨[.authors, .institutions, .work], authorsFirst_perm⟩

def institutionsFirst : EvaluationOrder := ⟨[.institutions, .authors, .work], by decide⟩

/-- The two calls that consult `seen_ids_`. -/
def deduplicating (order : EvaluationOrder) : List Extractor :=
  order.extractors.filter (· ≠ .work)

theorem deduplicating_eq (order : EvaluationOrder) :
    order.deduplicating = [.authors, .institutions] ∨
      order.deduplicating = [.institutions, .authors] :=
  List.perm_pair.mp (order.perm.filter _)

theorem deduplicating_authorsFirst : authorsFirst.deduplicating = [.authors, .institutions] := by
  decide

theorem deduplicating_institutionsFirst :
    institutionsFirst.deduplicating = [.institutions, .authors] := by
  decide

end EvaluationOrder

variable (lib : SnapshotLibrary)

section Sides

/-- What one of the calls comes by on a line. -/
def lineSide (line : Text) (extractor : Extractor) : List Entity :=
  if line.isEmpty then []
  else
    match lib.parse line with
    | some data => (extractor.walk lib data).items
    | none => []

theorem lineSide_work (line : Text) : lineSide lib line .work = [] := by
  rw [lineSide]
  split
  · rfl
  · cases lib.parse line with
    | none => rfl
    | some data =>
        simp only [Extractor.walk]
        cases extractWork lib.timeFromString data <;> rfl

theorem extractor_of_mem_lineSide {line : Text} {extractor : Extractor} {entity : Entity}
    (hentity : entity ∈ lineSide lib line extractor) : entity.extractor = extractor := by
  rw [lineSide] at hentity
  split at hentity
  · simp at hentity
  · split at hentity
    · exact Extractor.extractor_of_mem_walk lib hentity
    · simp at hentity

theorem items_readLine {line : Text} (hline : (readLine lib line).failure? = none) :
    (readLine lib line).items =
      lib.order.deduplicating.flatMap (lineSide lib line) := by
  have hsides : lib.order.extractors.flatMap (lineSide lib line) =
      lib.order.deduplicating.flatMap (lineSide lib line) := by
    rw [EvaluationOrder.deduplicating]
    induction lib.order.extractors with
    | nil => rfl
    | cons extractor extractors ih =>
        cases extractor <;> simp [ih, lineSide_work]
  rw [← hsides]
  rw [readLine] at hline ⊢
  by_cases hempty : line.isEmpty = true
  · simp [hempty, lineSide]
  · rw [if_neg hempty] at hline ⊢
    obtain ⟨data, hread, hcalls⟩ := Walk.failure?_ofExcept_eq_none_iff.mp hline
    have hparse : lib.parse line = some data := by
      rw [parseLine] at hread
      cases hparse : lib.parse line <;> simp_all
    rw [lineWalk, hread, Walk.ofExcept, Walk.items_each (Walk.failure?_each_eq_none_iff.mp hcalls)]
    apply List.flatMap_congr
    intro extractor _
    simp [lineSide, hempty, hparse]

/-- On a line, one kind is come by and then the other. -/
theorem items_readLine_evaluating (order : EvaluationOrder) {line : Text}
    (hline : (readLine lib line).failure? = none) :
    (readLine (lib.evaluating order) line).items =
      order.deduplicating.flatMap (lineSide lib line) :=
  items_readLine (lib.evaluating order) ((failure?_readLine_evaluating lib order line).mpr hline)

theorem keys_readLine_evaluating (order : EvaluationOrder) {line : Text}
    (hline : (readLine lib line).failure? = none) :
    keys Entity.openalexId (readLine (lib.evaluating order) line).items =
      keys Entity.openalexId (readLine lib line).items := by
  rw [items_readLine_evaluating lib order hline, items_readLine lib hline]
  rcases order.deduplicating_eq with horder | horder <;>
  rcases lib.order.deduplicating_eq with hown | hown <;>
  simp [horder, hown, Finset.union_comm]

theorem mem_keys_lineSide_authors {line : Text} (hne : line ≠ [])
    (hline : (readLine lib line).failure? = none) {id : Text} :
    id ∈ keys Entity.openalexId (lineSide lib line .authors) ↔
      ∃ data, lib.parse line = some data ∧ ∃ author, ListsAuthor data author id := by
  have hempty := mt List.isEmpty_iff.mp hne
  rw [readLine, if_neg hempty] at hline
  obtain ⟨data, -, hparse, -, -, hauthors, -⟩ := of_failure?_lineWalk_eq_none lib hline
  rw [lineSide, if_neg hempty, hparse]
  simp only [Option.some.injEq, exists_eq_left', ← exists_mem_authorWalk_iff hauthors]
  simp [Extractor.walk, Walk.map, Entity.openalexId]

theorem mem_keys_lineSide_institutions {line : Text} (hne : line ≠ [])
    (hline : (readLine lib line).failure? = none) {id : Text} :
    id ∈ keys Entity.openalexId (lineSide lib line .institutions) ↔
      ∃ data, lib.parse line = some data ∧ ∃ institution, ListsInstitution data institution id := by
  have hempty := mt List.isEmpty_iff.mp hne
  rw [readLine, if_neg hempty] at hline
  obtain ⟨data, -, hparse, -, -, -, hinstitutions⟩ := of_failure?_lineWalk_eq_none lib hline
  rw [lineSide, if_neg hempty, hparse]
  simp only [Option.some.injEq, exists_eq_left', ← exists_mem_institutionWalk_iff hinstitutions]
  simp [Extractor.walk, Walk.map, Entity.openalexId]

end Sides

/-- What stands in the tuple of an order that comes by `first` and then by `second`. -/
theorem filterMap_fresh_swap {β : Type} {kind : Entity → Option β} {seenIds : SeenIds}
    {first second : List Entity} (hsecond : second.filterMap kind = [])
    (hapart : ∀ id ∈ keys Entity.openalexId first, id ∈ keys Entity.openalexId second →
      id ∈ seenIds) :
    (fresh Entity.openalexId seenIds (second ++ first)).filterMap kind =
      (fresh Entity.openalexId seenIds (first ++ second)).filterMap kind := by
  have hnone : ∀ seen : SeenIds, (fresh Entity.openalexId seen second).filterMap kind = [] := by
    intro seen
    rw [List.filterMap_eq_nil_iff] at hsecond ⊢
    intro entity hentity
    exact hsecond entity (List.mem_of_find?_eq_some (mem_fresh_iff.mp hentity).2)
  have hsame : fresh Entity.openalexId (seenIds ∪ keys Entity.openalexId second) first =
      fresh Entity.openalexId seenIds first := by
    apply fresh_congr
    intro entity hentity
    rw [Finset.mem_union]
    refine ⟨fun hseen => hseen.elim id fun hkey => ?_, Or.inl⟩
    exact hapart _ ((mem_keys _ _).mpr ⟨entity, hentity, rfl⟩) hkey
  rw [fresh_append, fresh_append, hsame, List.filterMap_append, List.filterMap_append, hnone,
    hnone, List.nil_append, List.append_nil]

theorem filterMap_author?_lineSide (line : Text) :
    (lineSide lib line .institutions).filterMap Entity.author? = [] := by
  apply filterMap_author?_eq_nil
  intro entity hentity
  rw [extractor_of_mem_lineSide lib hentity]
  decide

theorem filterMap_institution?_lineSide (line : Text) :
    (lineSide lib line .authors).filterMap Entity.institution? = [] := by
  apply filterMap_institution?_eq_nil
  intro entity hentity
  rw [extractor_of_mem_lineSide lib hentity]
  decide

/-- No id is new on a line on which an author and an institution have it. -/
def Uncontested (seenIds : SeenIds) (lines : List Text) : Prop :=
  ∀ before line after, lines = before ++ line :: after →
    ∀ id ∈ keys Entity.openalexId (lineSide lib line .authors),
      id ∈ keys Entity.openalexId (lineSide lib line .institutions) →
        id ∈ seenIds ∪ keys Entity.openalexId (considered lib before)

theorem considered_cons {line : Text} (hline : (readLine lib line).failure? = none)
    (lines : List Text) :
    considered lib (line :: lines) = (readLine lib line).items ++ considered lib lines := by
  rw [considered, linesWalk, Walk.each, Walk.append_of_failure?_eq_none hline]
  rfl

theorem keys_considered_evaluating (order : EvaluationOrder) {lines : List Text}
    (hwalk : (linesWalk lib lines).failure? = none) :
    keys Entity.openalexId (considered (lib.evaluating order) lines) =
      keys Entity.openalexId (considered lib lines) := by
  induction lines with
  | nil => rfl
  | cons line lines ih =>
      obtain ⟨hline, hlines⟩ := Walk.failure?_append_eq_none_iff.mp hwalk
      rw [considered_cons lib hline,
        considered_cons _ ((failure?_readLine_evaluating lib order line).mpr hline), keys_append,
        keys_append, keys_readLine_evaluating lib order hline, ih hlines]

/-- On a line on which nothing is contested every order finds the same. -/
theorem filterMap_fresh_readLine {line : Text} (hline : (readLine lib line).failure? = none)
    {seenIds : SeenIds}
    (hapart : ∀ id ∈ keys Entity.openalexId (lineSide lib line .authors),
      id ∈ keys Entity.openalexId (lineSide lib line .institutions) → id ∈ seenIds)
    (order : EvaluationOrder) :
    (fresh Entity.openalexId seenIds (readLine (lib.evaluating order) line).items).filterMap
        Entity.author? =
      (fresh Entity.openalexId seenIds (readLine lib line).items).filterMap Entity.author? ∧
    (fresh Entity.openalexId seenIds (readLine (lib.evaluating order) line).items).filterMap
        Entity.institution? =
      (fresh Entity.openalexId seenIds (readLine lib line).items).filterMap
        Entity.institution? := by
  have hauthors := filterMap_fresh_swap (filterMap_author?_lineSide lib line) hapart
  have hinstitutions := filterMap_fresh_swap (filterMap_institution?_lineSide lib line)
    fun id hinstitution hauthor => hapart id hauthor hinstitution
  rw [items_readLine_evaluating lib order hline, items_readLine lib hline]
  rcases order.deduplicating_eq with horder | horder <;>
  rcases lib.order.deduplicating_eq with hown | hown <;>
  simp [horder, hown, hauthors, hinstitutions]

/-- Every order finds the same where nothing is contested. -/
theorem Uncontested.batch_eq {seenIds : SeenIds} {lines : List Text}
    (hlines : Uncontested lib seenIds lines) (hwalk : (linesWalk lib lines).failure? = none)
    (order : EvaluationOrder) (works : List Work) :
    Batch.of (fresh Entity.openalexId seenIds (considered (lib.evaluating order) lines)) works =
      Batch.of (fresh Entity.openalexId seenIds (considered lib lines)) works := by
  induction lines generalizing seenIds with
  | nil => rfl
  | cons line lines ih =>
      obtain ⟨hline, hrest⟩ := Walk.failure?_append_eq_none_iff.mp hwalk
      have hnext : Uncontested lib
          (seenIds ∪ keys Entity.openalexId (readLine lib line).items) lines := by
        intro before other after hsplit id hauthor hinstitution
        have hseen := hlines (line :: before) other after (by rw [hsplit]; rfl) id hauthor
          hinstitution
        rwa [considered_cons lib hline, keys_append, ← Finset.union_assoc] at hseen
      have hapart : ∀ id ∈ keys Entity.openalexId (lineSide lib line .authors),
          id ∈ keys Entity.openalexId (lineSide lib line .institutions) → id ∈ seenIds := by
        intro id hauthor hinstitution
        simpa [considered, linesWalk, Walk.each] using
          hlines [] line lines rfl id hauthor hinstitution
      have hhere := filterMap_fresh_readLine lib hline hapart order
      have hthere := (Batch.mk.injEq ..).mp (ih hnext hrest)
      rw [considered_cons lib hline,
        considered_cons _ ((failure?_readLine_evaluating lib order line).mpr hline), fresh_append,
        fresh_append, keys_readLine_evaluating lib order hline]
      simp only [Batch.of, List.filterMap_append, hhere.1, hhere.2, hthere.1, hthere.2.1]

/-- Of an author and an institution with a new id on one line, an order delivers the one
that it comes by first. -/
theorem fresh_contested (before first second after : List Entity) {seenIds : SeenIds}
    {id : Text} (hseen : id ∉ seenIds)
    (hbefore : id ∉ keys Entity.openalexId before)
    (hfirst : id ∈ keys Entity.openalexId first) :
    ∃ entity ∈ first, entity.openalexId = id ∧
      entity ∈ fresh Entity.openalexId seenIds (before ++ ((first ++ second) ++ after)) ∧
      ∀ other ∈ fresh Entity.openalexId seenIds (before ++ ((first ++ second) ++ after)),
        other.openalexId = id → other = entity := by
  obtain ⟨entity, hfind⟩ : ∃ entity,
      first.find? (fun other => other.openalexId = id) = some entity := by
    rw [← Option.isSome_iff_exists, List.find?_isSome]
    simpa using hfirst
  have hnone : before.find? (fun other => other.openalexId = id) = none := by
    simpa [List.find?_eq_none] using hbefore
  have hid : entity.openalexId = id := by simpa using List.find?_some hfind
  have hwhole : (before ++ ((first ++ second) ++ after)).find?
      (fun other => other.openalexId = id) = some entity := by
    simp [List.find?_append, hnone, hfind]
  refine ⟨entity, List.mem_of_find?_eq_some hfind, hid, ?_, ?_⟩
  · rw [mem_fresh_iff, hid]
    exact ⟨hseen, hwhole⟩
  · intro other hother hsame
    have hfound := (mem_fresh_iff.mp hother).2
    rw [hsame, hwhole] at hfound
    exact (Option.some.inj hfound).symm

/-- The ids of what a call returns, of either kind. -/
def Batch.entityIds (batch : Batch) : List Text :=
  batch.authors.map Author.openalexId ++ batch.institutions.map Institution.openalexId

theorem Batch.entityIds_of (entities : List Entity) (works : List Work) :
    (Batch.of entities works).entityIds.Perm (entities.map Entity.openalexId) := by
  have hperm := (perm_authors_institutions entities).map Entity.openalexId
  rw [List.map_append, List.map_map, List.map_map] at hperm
  exact hperm.symm

theorem run_collectLines_evaluating (order : EvaluationOrder) {lines : List Text}
    (hwalk : (linesWalk lib lines).failure? = none) (seenIds : SeenIds) :
    (collectLines (lib.evaluating order) lines).run seenIds =
      .ok (.of (fresh Entity.openalexId seenIds (considered (lib.evaluating order) lines))
          (lineWorks lib lines))
        (seenIds ∪ keys Entity.openalexId (considered lib lines)) := by
  have hwalk' := (failure?_linesWalk_evaluating lib order lines).mpr hwalk
  rw [run_collectLines, Walk.collect_of_failure?_eq_none hwalk',
    ← keys_considered_evaluating lib order hwalk]
  rfl

theorem Batch.mem_authors_of {entities : List Entity} (works : List Work) {message : Author} :
    message ∈ (Batch.of entities works).authors ↔ .author message ∈ entities := by
  rw [Batch.of, List.mem_filterMap]
  constructor
  · rintro ⟨entity, hentity, hkind⟩
    cases entity with
    | author other => exact Option.some.inj hkind ▸ hentity
    | institution other => cases hkind
  · intro hentity
    exact ⟨_, hentity, rfl⟩

/-- Where something is contested, two orders differ. -/
theorem uncontested_of_batch_eq {seenIds : SeenIds} {lines : List Text}
    (hwalk : (linesWalk lib lines).failure? = none) {batch : Batch} (works : List Work)
    (hsame : ∀ order : EvaluationOrder, Batch.of (fresh Entity.openalexId seenIds
      (considered (lib.evaluating order) lines)) works = batch) :
    Uncontested lib seenIds lines := by
  rintro before line after rfl id hauthor hinstitution
  by_contra hnew
  rw [Finset.mem_union, not_or] at hnew
  obtain ⟨hbefore, hline, -⟩ : (linesWalk lib before).failure? = none ∧
      (readLine lib line).failure? = none ∧ (linesWalk lib after).failure? = none := by
    rwa [failure?_linesWalk_append, linesWalk, linesWalk, Walk.each,
      Walk.failure?_append_eq_none_iff] at hwalk
  have hsplit : ∀ order : EvaluationOrder,
      considered (lib.evaluating order) (before ++ line :: after) =
        considered (lib.evaluating order) before ++
          (order.deduplicating.flatMap (lineSide lib line) ++
            considered (lib.evaluating order) after) := by
    intro order
    rw [considered_append _ ((failure?_linesWalk_evaluating lib order before).mpr hbefore) _,
      considered_cons _ ((failure?_readLine_evaluating lib order line).mpr hline),
      items_readLine_evaluating lib order hline]
  have hunseen : ∀ order : EvaluationOrder,
      id ∉ keys Entity.openalexId (considered (lib.evaluating order) before) := by
    intro order
    rw [keys_considered_evaluating lib order hbefore]
    exact hnew.2
  have hfirst := hsplit .authorsFirst
  have hsecond := hsplit .institutionsFirst
  simp only [EvaluationOrder.deduplicating_authorsFirst,
    EvaluationOrder.deduplicating_institutionsFirst, List.flatMap_cons, List.flatMap_nil,
    List.append_nil] at hfirst hsecond
  -- the author is delivered by the one order, and only the institution by the other
  obtain ⟨entity, hentity, hid, hkept, -⟩ := fresh_contested
    (considered (lib.evaluating .authorsFirst) before) (lineSide lib line .authors)
    (lineSide lib line .institutions) (considered (lib.evaluating .authorsFirst) after) hnew.1
    (hunseen .authorsFirst) hauthor
  obtain ⟨other, hother, -, -, honly⟩ := fresh_contested
    (considered (lib.evaluating .institutionsFirst) before) (lineSide lib line .institutions)
    (lineSide lib line .authors) (considered (lib.evaluating .institutionsFirst) after) hnew.1
    (hunseen .institutionsFirst) hinstitution
  rw [← hfirst] at hkept
  rw [← hsecond] at honly
  have hkind := extractor_of_mem_lineSide lib hentity
  have hkind' := extractor_of_mem_lineSide lib hother
  cases entity with
  | institution message => cases hkind
  | author message =>
      have hmessage := (Batch.mem_authors_of works).mpr hkept
      rw [hsame .authorsFirst, ← hsame .institutionsFirst, Batch.mem_authors_of] at hmessage
      rw [← honly _ hmessage hid] at hkind'
      cases hkind'

/-- An author and an institution of a record have this id. -/
def SharesId (line id : Text) : Prop :=
  ∃ data, lib.parse line = some data ∧ (∃ author, ListsAuthor data author id) ∧
    ∃ institution, ListsInstitution data institution id

theorem sharesId_iff {line : Text} (hne : line ≠ [])
    (hline : (readLine lib line).failure? = none) {id : Text} :
    SharesId lib line id ↔ id ∈ keys Entity.openalexId (lineSide lib line .authors) ∧
      id ∈ keys Entity.openalexId (lineSide lib line .institutions) := by
  rw [mem_keys_lineSide_authors lib hne hline, mem_keys_lineSide_institutions lib hne hline]
  constructor
  · rintro ⟨data, hparse, hauthor, hinstitution⟩
    exact ⟨⟨data, hparse, hauthor⟩, data, hparse, hinstitution⟩
  · rintro ⟨⟨data, hparse, hauthor⟩, other, hparse', hinstitution⟩
    cases hparse.symm.trans hparse'
    exact ⟨data, hparse, hauthor, hinstitution⟩

theorem uncontested_iff {seenIds : SeenIds} {lines : List Text}
    (hwalk : (linesWalk lib lines).failure? = none) :
    Uncontested lib seenIds lines ↔
      ∀ before line after, lines = before ++ line :: after → line ≠ [] →
        ∀ id, SharesId lib line id → id ∈ seenIds ∨
          ∃ earlier ∈ before, earlier ≠ [] ∧ ComputesId lib earlier id := by
  have hearlier : ∀ {before line after}, lines = before ++ line :: after → ∀ id,
      (id ∈ seenIds ∪ keys Entity.openalexId (considered lib before) ↔ id ∈ seenIds ∨
        ∃ earlier ∈ before, earlier ≠ [] ∧ ComputesId lib earlier id) := by
    rintro before line after rfl id
    rw [failure?_linesWalk_append] at hwalk
    rw [Finset.mem_union, mem_keys_considered_iff lib hwalk.1]
  constructor
  · intro hlines before line after hsplit hne id hid
    have hline := Walk.failure?_each_eq_none_iff.mp hwalk line (by simp [hsplit])
    obtain ⟨hauthor, hinstitution⟩ := (sharesId_iff lib hne hline).mp hid
    exact (hearlier hsplit id).mp (hlines before line after hsplit id hauthor hinstitution)
  · intro hlines before line after hsplit id hauthor hinstitution
    have hline := Walk.failure?_each_eq_none_iff.mp hwalk line (by simp [hsplit])
    have hne : line ≠ [] := by
      rintro rfl
      simp [lineSide] at hauthor
    exact (hearlier hsplit id).mpr (hlines before line after hsplit hne id
      ((sharesId_iff lib hne hline).mpr ⟨hauthor, hinstitution⟩))

/-- A call that returns, returns whatever the order of evaluation: with the same works, with
the same ids each once, and with the same ids seen.  It returns the same messages in every
order exactly when on no line an author and an institution have one id that is new there. -/
theorem processWorksSnapshot_orders {input : Text} {seenIds seenIds' : SeenIds} {batch : Batch}
    (hrun : (processWorksSnapshot lib input).run seenIds = .ok batch seenIds') :
    (∀ order, ∃ batch', (processWorksSnapshot (lib.evaluating order) input).run seenIds =
        .ok batch' seenIds' ∧ batch'.works = batch.works ∧
        batch'.entityIds.Perm batch.entityIds) ∧
    ((∀ order, (processWorksSnapshot (lib.evaluating order) input).run seenIds =
        .ok batch seenIds') ↔
      ∀ before line after, getLines input = before ++ line :: after → line ≠ [] →
        ∀ id, SharesId lib line id → id ∈ seenIds ∨
          ∃ earlier ∈ before, earlier ≠ [] ∧ ComputesId lib earlier id) := by
  rw [processWorksSnapshot, run_collectLines] at hrun
  cases hwalk : (linesWalk lib (getLines input)).failure? with
  | some exception =>
      rw [Walk.collect_of_failure hwalk] at hrun
      cases hrun
  | none =>
      rw [Walk.collect_of_failure?_eq_none hwalk] at hrun
      cases hrun
      simp only [processWorksSnapshot, run_collectLines_evaluating lib _ hwalk]
      refine ⟨fun order => ⟨_, rfl, rfl, ?_⟩, ?_⟩
      · apply (Batch.entityIds_of _ _).trans
        apply List.Perm.trans _ (Batch.entityIds_of _ _).symm
        apply (List.perm_ext_iff_of_nodup (nodup_fresh _ _) (nodup_fresh _ _)).mpr
        intro id
        rw [mem_map_fresh_iff, mem_map_fresh_iff, keys_considered_evaluating lib order hwalk]
        rfl
      · rw [← uncontested_iff lib hwalk]
        constructor
        · intro hsame
          apply uncontested_of_batch_eq lib hwalk (lineWorks lib (getLines input))
          intro order
          injection hsame order
        · intro hlines order
          rw [hlines.batch_eq lib hwalk order]
          rfl

/-- The record whose author and institution have one id: which of them is returned is up to
the compiler. -/
theorem processWorksSnapshot_orders_sharedName :
    ∃ batch seenIds, (processWorksSnapshot sharedNameLibrary sharedNameLine).run ∅ =
        .ok batch seenIds ∧
      ¬ ∀ order, (processWorksSnapshot (sharedNameLibrary.evaluating order)
        sharedNameLine).run ∅ = .ok batch seenIds := by
  have hlines : getLines sharedNameLine = [sharedNameLine] := by decide +kernel
  have hne : sharedNameLine ≠ [] := by simp [sharedNameLine, minimalLine]
  have hwalk : (linesWalk sharedNameLibrary (getLines sharedNameLine)).failure? = none := by
    decide +kernel
  have hreturns := run_collectLines sharedNameLibrary (getLines sharedNameLine) ∅
  rw [Walk.collect_of_failure?_eq_none hwalk] at hreturns
  refine ⟨_, _, hreturns, fun hsame => ?_⟩
  have hagree := (processWorksSnapshot_orders sharedNameLibrary hreturns).2.mp hsame
  have hline := Walk.failure?_each_eq_none_iff.mp hwalk sharedNameLine (by simp [hlines])
  have hshares : SharesId sharedNameLibrary sharedNameLine "UNKNOWN_Curie".toList :=
    (sharesId_iff sharedNameLibrary hne hline).mpr (by decide +kernel)
  simpa using hagree [] sharedNameLine [] hlines hne _ hshares

end Citescoop
