/-
Snapshots whose lines come in another order, and snapshots in parts that are processed by
processors of their own: what depends on the order, and how the parts are put together.
-/
import Citescoop.EvaluationOrders

namespace Citescoop

open FirstSeen

namespace Batch

def entities (batch : Batch) : List Entity :=
  batch.authors.map .author ++ batch.institutions.map .institution

/-- What several processors return, put together: of messages with one id the first is
kept, and none whose id had been seen. -/
def merge (seenIds : SeenIds) (batches : List Batch) : Batch :=
  .of (fresh Entity.openalexId seenIds (batches.flatMap entities)) (batches.flatMap Batch.works)

theorem entities_of (entities : List Entity) (works : List Work) :
    (Batch.of entities works).entities.Perm entities :=
  (perm_authors_institutions entities).symm

theorem filterMap_author?_entities (batch : Batch) :
    batch.entities.filterMap Entity.author? = batch.authors := by
  simp [entities, Function.comp_def]

theorem filterMap_institution?_entities (batch : Batch) :
    batch.entities.filterMap Entity.institution? = batch.institutions := by
  simp [entities, Function.comp_def]

end Batch

theorem filterMap_filter {α β : Type} {kind : α → Option β} {embed : β → α}
    (hkind : ∀ item value, kind item = some value → item = embed value) (p : α → Bool)
    (items : List α) :
    (items.filter p).filterMap kind = (items.filterMap kind).filter (p ∘ embed) := by
  induction items with
  | nil => rfl
  | cons item items ih =>
      cases hvalue : kind item with
      | none => cases hp : p item <;> simp [hvalue, hp, ih]
      | some value =>
          obtain rfl := hkind item value hvalue
          cases hp : p (embed value) <;> simp [hvalue, hp, ih]

theorem Entity.eq_author {entity : Entity} {message : Author}
    (hkind : entity.author? = some message) : entity = .author message := by
  cases entity with
  | author other => rw [Option.some.inj hkind]
  | institution other => cases hkind

theorem Entity.eq_institution {entity : Entity} {message : Institution}
    (hkind : entity.institution? = some message) : entity = .institution message := by
  cases entity with
  | author other => cases hkind
  | institution other => rw [Option.some.inj hkind]

/-- Messages of different ids may be put in order by their kinds before they are
deduplicated. -/
theorem Batch.of_fresh_entities {entities : List Entity}
    (hnodup : (entities.map Entity.openalexId).Nodup) (seenIds : SeenIds)
    (works works' : List Work) :
    Batch.of (fresh Entity.openalexId seenIds (Batch.of entities works).entities) works' =
      Batch.of (fresh Entity.openalexId seenIds entities) works' := by
  have hnodup' : ((Batch.of entities works).entities.map Entity.openalexId).Nodup :=
    ((entities_of entities works).map _).nodup_iff.mpr hnodup
  rw [fresh_of_nodup hnodup, fresh_of_nodup hnodup']
  simp only [Batch.of, filterMap_filter fun _ _ => Entity.eq_author,
    filterMap_filter fun _ _ => Entity.eq_institution, filterMap_author?_entities,
    filterMap_institution?_entities]

theorem Batch.keys_entities_of (entities : List Entity) (works : List Work) :
    keys Entity.openalexId (Batch.of entities works).entities =
      keys Entity.openalexId entities := by
  ext id
  simp only [mem_keys, (entities_of entities works).mem_iff]

theorem Batch.of_append_congr {first first' second second' : List Entity} (works : List Work)
    (hfirst : Batch.of first works = Batch.of first' works)
    (hsecond : Batch.of second works = Batch.of second' works) :
    Batch.of (first ++ second) works = Batch.of (first' ++ second') works := by
  simp only [Batch.of, Batch.mk.injEq] at hfirst hsecond ⊢
  simp only [List.filterMap_append, hfirst, hsecond, and_self]

/-- What processors find on parts by themselves, put together, is what one finds on the
whole. -/
theorem Batch.merge_of {ι : Type} (items : ι → List Entity) (works : ι → List Work)
    (parts : List ι) (seenIds : SeenIds) :
    Batch.merge seenIds
        (parts.map fun part => .of (fresh Entity.openalexId ∅ (items part)) (works part)) =
      .of (fresh Entity.openalexId seenIds (parts.flatMap items)) (parts.flatMap works) := by
  rw [merge, List.flatMap_map, List.flatMap_map]
  change Batch.of _ (parts.flatMap works) = _
  rw [← fresh_flatMap_fresh items parts seenIds]
  generalize parts.flatMap works = allWorks
  induction parts generalizing seenIds with
  | nil => rfl
  | cons part parts ih =>
      rw [List.flatMap_cons, List.flatMap_cons, fresh_append, fresh_append]
      apply Batch.of_append_congr
      · exact Batch.of_fresh_entities (nodup_fresh _ _) seenIds (works part) allWorks
      · rw [Batch.keys_entities_of]
        exact ih _

variable (lib : SnapshotLibrary)

section Parts

theorem run_processWorksSnapshot_of_ok {input : Text}
    (hwalk : (linesWalk lib (getLines input)).failure? = none) (seenIds : SeenIds) :
    (processWorksSnapshot lib input).run seenIds =
      .ok (.of (fresh Entity.openalexId seenIds (considered lib (getLines input)))
          (lineWorks lib (getLines input)))
        (seenIds ∪ keys Entity.openalexId (considered lib (getLines input))) := by
  rw [processWorksSnapshot, run_collectLines, Walk.collect_of_failure?_eq_none hwalk]
  rfl

/-- Whether a call returns is settled by its lines. -/
theorem processWorksSnapshot_returns_iff {input : Text} {seenIds : SeenIds} :
    (∃ batch seenIds', (processWorksSnapshot lib input).run seenIds = .ok batch seenIds') ↔
      (linesWalk lib (getLines input)).failure? = none := by
  constructor
  · rintro ⟨batch, seenIds', hrun⟩
    rw [processWorksSnapshot, run_collectLines] at hrun
    cases hwalk : (linesWalk lib (getLines input)).failure? with
    | none => rfl
    | some exception =>
        rw [Walk.collect_of_failure hwalk] at hrun
        cases hrun
  · intro hwalk
    exact ⟨_, _, run_processWorksSnapshot_of_ok lib hwalk seenIds⟩

theorem failure?_linesWalk_parts {parts : List Text} :
    (linesWalk lib (parts.flatMap getLines)).failure? = none ↔
      ∀ part ∈ parts, (linesWalk lib (getLines part)).failure? = none := by
  simp only [linesWalk, Walk.failure?_each_eq_none_iff, List.mem_flatMap]
  constructor
  · intro hlines part hpart line hline
    exact hlines line ⟨part, hpart, hline⟩
  · rintro hparts line ⟨part, hpart, hline⟩
    exact hparts part hpart line hline

theorem considered_parts {parts : List Text}
    (hwalks : ∀ part ∈ parts, (linesWalk lib (getLines part)).failure? = none) :
    considered lib (parts.flatMap getLines) =
      parts.flatMap fun part => considered lib (getLines part) := by
  induction parts with
  | nil => rfl
  | cons part parts ih =>
      rw [List.forall_mem_cons] at hwalks
      rw [List.flatMap_cons, List.flatMap_cons, considered_append lib hwalks.1, ih hwalks.2]

theorem lineWorks_parts (parts : List Text) :
    lineWorks lib (parts.flatMap getLines) =
      parts.flatMap fun part => lineWorks lib (getLines part) := by
  induction parts with
  | nil => rfl
  | cons part parts ih =>
      rw [List.flatMap_cons, List.flatMap_cons, lineWorks_append, ih]

theorem Batch.mem_entityIds_of_fresh {entities : List Entity} {works : List Work} {id : Text} :
    id ∈ (Batch.of (fresh Entity.openalexId ∅ entities) works).entityIds ↔
      id ∈ keys Entity.openalexId entities := by
  rw [(entityIds_of _ works).mem_iff, mem_map_fresh_iff, Finset.sdiff_empty]

/-- What a new processor finds on a part. -/
def partBatch (part : Text) : Batch :=
  .of (fresh Entity.openalexId ∅ (considered lib (getLines part))) (lineWorks lib (getLines part))

theorem eq_map_partBatch {parts : List Text} {batches : List Batch}
    (hbatches : List.Forall₂ (fun part batch => ∃ seenIds,
      (processWorksSnapshot lib part).run ∅ = .ok batch seenIds) parts batches) :
    (∀ part ∈ parts, (linesWalk lib (getLines part)).failure? = none) ∧
      batches = parts.map (partBatch lib) := by
  induction hbatches with
  | nil => simp
  | cons hpart _ ih =>
      obtain ⟨seenIds, hrun⟩ := hpart
      have hwalk := (processWorksSnapshot_returns_iff lib).mp ⟨_, _, hrun⟩
      rw [run_processWorksSnapshot_of_ok lib hwalk] at hrun
      refine ⟨List.forall_mem_cons.mpr ⟨hwalk, ih.1⟩, ?_⟩
      rw [List.map_cons, ← ih.2]
      congr 1
      injection hrun with hbatch
      exact hbatch.symm

/-- A snapshot that comes in parts may be processed by one processor, or each part by a
processor of its own: the one returns exactly if the others all do, and then what it
returns is what they return, put together. -/
theorem processWorksSnapshot_parts {input : Text} {parts : List Text}
    (hparts : getLines input = parts.flatMap getLines) (seenIds : SeenIds) :
    ((∃ batch seenIds', (processWorksSnapshot lib input).run seenIds = .ok batch seenIds') ↔
      ∀ part ∈ parts, ∃ batch seenIds', (processWorksSnapshot lib part).run ∅ =
        .ok batch seenIds') ∧
    ∀ batches, List.Forall₂ (fun part batch => ∃ seenIds',
        (processWorksSnapshot lib part).run ∅ = .ok batch seenIds') parts batches →
      (processWorksSnapshot lib input).run seenIds =
        .ok (Batch.merge seenIds batches)
          (seenIds ∪ (batches.flatMap Batch.entityIds).toFinset) := by
  constructor
  · simp only [processWorksSnapshot_returns_iff, hparts]
    exact failure?_linesWalk_parts lib
  · intro batches hbatches
    obtain ⟨hwalks, rfl⟩ := eq_map_partBatch lib hbatches
    have hwalk := (failure?_linesWalk_parts lib).mpr hwalks
    rw [← hparts] at hwalk
    have hseen : ((parts.map (partBatch lib)).flatMap Batch.entityIds).toFinset =
        keys Entity.openalexId (parts.flatMap fun part => considered lib (getLines part)) := by
      ext id
      simp only [List.mem_toFinset, List.mem_flatMap, List.mem_map, exists_exists_and_eq_and,
        partBatch, Batch.mem_entityIds_of_fresh, mem_keys]
      constructor
      · rintro ⟨part, hpart, entity, hentity, hid⟩
        exact ⟨entity, ⟨part, hpart, hentity⟩, hid⟩
      · rintro ⟨entity, ⟨part, hpart, hentity⟩, hid⟩
        exact ⟨part, hpart, entity, hentity, hid⟩
    rw [run_processWorksSnapshot_of_ok lib hwalk, hparts, considered_parts lib hwalks,
      lineWorks_parts, hseen]
    congr 1
    exact (Batch.merge_of _ _ parts seenIds).symm

end Parts

section Order

theorem considered_eq_flatMap {lines : List Text} (hwalk : (linesWalk lib lines).failure? = none) :
    considered lib lines = lines.flatMap fun line => considered lib [line] := by
  induction lines with
  | nil => rfl
  | cons line lines ih =>
      have hsplit : line :: lines = [line] ++ lines := rfl
      rw [hsplit, failure?_linesWalk_append] at hwalk
      rw [hsplit, considered_append lib hwalk.1, ih hwalk.2, List.flatMap_append,
        List.flatMap_singleton]

theorem failure?_linesWalk_perm {lines lines' : List Text} (hperm : lines'.Perm lines)
    (hwalk : (linesWalk lib lines).failure? = none) :
    (linesWalk lib lines').failure? = none := by
  rw [linesWalk, Walk.failure?_each_eq_none_iff] at hwalk ⊢
  exact fun line hline => hwalk line (hperm.mem_iff.mp hline)

theorem keys_considered_perm {lines lines' : List Text} (hperm : lines'.Perm lines)
    (hwalk : (linesWalk lib lines).failure? = none) :
    keys Entity.openalexId (considered lib lines') =
      keys Entity.openalexId (considered lib lines) := by
  rw [considered_eq_flatMap lib hwalk,
    considered_eq_flatMap lib (failure?_linesWalk_perm lib hperm hwalk)]
  ext id
  simp only [mem_keys, List.mem_flatMap, hperm.mem_iff]

/-- A snapshot whose lines come in another order is processed as well, to the same works, the
same ids, each once, and the same ids seen.  The messages are the same in every order exactly
when lines with a new id agree on what they first say of it. -/
theorem processWorksSnapshot_lines_perm {input : Text} {seenIds seenIds' : SeenIds}
    {batch : Batch} (hrun : (processWorksSnapshot lib input).run seenIds = .ok batch seenIds') :
    (∀ input', (getLines input').Perm (getLines input) →
      ∃ batch', (processWorksSnapshot lib input').run seenIds = .ok batch' seenIds' ∧
        batch'.works.Perm batch.works ∧ batch'.entityIds.Perm batch.entityIds ∧
        batch'.entityIds.Nodup) ∧
    ((∀ input' batch', (getLines input').Perm (getLines input) →
        (processWorksSnapshot lib input').run seenIds = .ok batch' seenIds' →
          batch'.entities.Perm batch.entities) ↔
      ∀ id ∉ seenIds, ∀ line ∈ getLines input, ∀ line' ∈ getLines input, ∀ first first',
        (considered lib [line]).find? (·.openalexId = id) = some first →
          (considered lib [line']).find? (·.openalexId = id) = some first' → first = first') := by
  have hwalk := (processWorksSnapshot_returns_iff lib).mp ⟨_, _, hrun⟩
  rw [run_processWorksSnapshot_of_ok lib hwalk] at hrun
  cases hrun
  have hrun' : ∀ {input'}, (getLines input').Perm (getLines input) →
      (processWorksSnapshot lib input').run seenIds =
        .ok (.of (fresh Entity.openalexId seenIds (considered lib (getLines input')))
            (lineWorks lib (getLines input')))
          (seenIds ∪ keys Entity.openalexId (considered lib (getLines input))) := by
    intro input' hperm
    rw [run_processWorksSnapshot_of_ok lib (failure?_linesWalk_perm lib hperm hwalk),
      keys_considered_perm lib hperm hwalk]
  constructor
  · intro input' hperm
    refine ⟨_, hrun' hperm, (hperm.filter _).map _, ?_, ?_⟩
    · apply (Batch.entityIds_of _ _).trans
      apply List.Perm.trans _ (Batch.entityIds_of _ _).symm
      apply (List.perm_ext_iff_of_nodup (nodup_fresh _ _) (nodup_fresh _ _)).mpr
      intro id
      rw [mem_map_fresh_iff, mem_map_fresh_iff, keys_considered_perm lib hperm hwalk]
    · exact (Batch.entityIds_of _ _).nodup_iff.mpr (nodup_fresh _ _)
  · rw [← fresh_flatMap_perm_iff, ← considered_eq_flatMap lib hwalk]
    constructor
    · intro hsame lines hperm
      have hlines : getLines (unlines lines) = lines :=
        getLines_unlines fun line hline => newline_notMem_getLines (hperm.mem_iff.mp hline)
      have hreordered := hlines.symm ▸ hperm
      have hentities := hsame _ _ hreordered (hrun' hreordered)
      rw [hlines] at hentities
      rw [← considered_eq_flatMap lib (failure?_linesWalk_perm lib hperm hwalk)]
      exact (Batch.entities_of _ _).symm.trans (hentities.trans (Batch.entities_of _ _))
    · intro hsame input' batch' hperm hreturns
      rw [hrun' hperm] at hreturns
      cases hreturns
      have hentities := hsame _ hperm
      rw [← considered_eq_flatMap lib (failure?_linesWalk_perm lib hperm hwalk)] at hentities
      exact (Batch.entities_of _ _).trans (hentities.trans (Batch.entities_of _ _).symm)

end Order

section Samples

/-- The record with one author twice, in a part each. -/
theorem processWorksSnapshot_parts_twice :
    ∃ batch seenIds, (processWorksSnapshot oneAuthorLibrary oneAuthorLine).run ∅ =
        .ok batch seenIds ∧
      (processWorksSnapshot oneAuthorLibrary (unlines [oneAuthorLine, oneAuthorLine])).run ∅ =
        .ok (Batch.merge ∅ [batch, batch])
          (∅ ∪ ([batch, batch].flatMap Batch.entityIds).toFinset) := by
  have hlines : getLines (unlines [oneAuthorLine, oneAuthorLine]) =
      [oneAuthorLine, oneAuthorLine].flatMap getLines := by
    rw [getLines_unlines]
    · simp [getLines_oneAuthorLine]
    · simpa using newline_notMem_oneAuthorLine
  have hreturns : ∃ batch seenIds,
      (processWorksSnapshot oneAuthorLibrary oneAuthorLine).run ∅ = .ok batch seenIds := by
    rw [processWorksSnapshot_returns_iff, getLines_oneAuthorLine]
    exact linesWalk_oneAuthorLine 1
  obtain ⟨batch, seenIds, hrun⟩ := hreturns
  exact ⟨batch, seenIds, hrun, (processWorksSnapshot_parts oneAuthorLibrary hlines ∅).2
    [batch, batch] (.cons ⟨seenIds, hrun⟩ (.cons ⟨seenIds, hrun⟩ .nil))⟩

/-- The text of a record with the same author, who has a name here. -/
def namedAuthorLine : Text :=
  minimalLine ("\x7b\"author\":\x7b\"id\":\"A1\",\"display_name\":\"Curie\"\x7d," ++
    "\"institutions\":[]\x7d")

def namedAuthorLibrary : SnapshotLibrary :=
  tableLibrary [
    (oneAuthorLine, minimalRecord [.object [
      ("author".toList, .object [("id".toList, .string "A1".toList)]),
      ("institutions".toList, .array [])]]),
    (namedAuthorLine, minimalRecord [.object [
      ("author".toList, .object [("id".toList, .string "A1".toList),
        ("display_name".toList, .string "Curie".toList)]),
      ("institutions".toList, .array [])]])]

/-- Whether the author has a name depends on the line that comes first. -/
theorem processWorksSnapshot_lines_perm_named :
    ∃ batch seenIds, (processWorksSnapshot namedAuthorLibrary
        (unlines [oneAuthorLine, namedAuthorLine])).run ∅ = .ok batch seenIds ∧
      ¬ ∀ input' batch', (getLines input').Perm
          (getLines (unlines [oneAuthorLine, namedAuthorLine])) →
        (processWorksSnapshot namedAuthorLibrary input').run ∅ = .ok batch' seenIds →
          batch'.entities.Perm batch.entities := by
  have hlines : getLines (unlines [oneAuthorLine, namedAuthorLine]) =
      [oneAuthorLine, namedAuthorLine] :=
    getLines_unlines (by decide +kernel)
  have hreturns : ∃ batch seenIds, (processWorksSnapshot namedAuthorLibrary
      (unlines [oneAuthorLine, namedAuthorLine])).run ∅ = .ok batch seenIds := by
    rw [processWorksSnapshot_returns_iff, hlines]
    decide +kernel
  obtain ⟨batch, seenIds, hrun⟩ := hreturns
  refine ⟨batch, seenIds, hrun, fun hsame => ?_⟩
  have hagree := (processWorksSnapshot_lines_perm namedAuthorLibrary hrun).2.mp hsame
  have hfirst := hagree "A1".toList (by simp) oneAuthorLine (by simp [hlines]) namedAuthorLine
    (by simp [hlines]) (.author ⟨"A1".toList, none, none⟩)
    (.author ⟨"A1".toList, some "Curie".toList, none⟩) (by decide +kernel) (by decide +kernel)
  simp at hfirst

end Samples

end Citescoop
