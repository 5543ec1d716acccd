/-
Loops that may throw and that collect what is new.  A walk is what a loop comes
by, up to its end or to the exception that stops it; what it has marked as seen
outlives the exception.
-/
import Citescoop.FirstSeen

open FirstSeen

universe u

structure Walk (ε α : Type u) where
  items : List α
  failure? : Option ε := none

namespace Walk

variable {ε α β γ : Type u}

def fail (failure : ε) : Walk ε α :=
  ⟨[], some failure⟩

/-- One walk and then another, unless the first one fails. -/
def append (walk rest : Walk ε α) : Walk ε α :=
  match walk.failure? with
  | none => ⟨walk.items ++ rest.items, rest.failure?⟩
  | some _ => walk

def each (visit : β → Walk ε α) : List β → Walk ε α
  | [] => ⟨[], none⟩
  | item :: items => (visit item).append (each visit items)

def ofExcept (visit : β → Walk ε α) : Except ε β → Walk ε α
  | .ok value => visit value
  | .error failure => fail failure

def map (f : α → β) (walk : Walk ε α) : Walk ε β :=
  ⟨walk.items.map f, walk.failure?⟩

theorem append_of_failure?_eq_none {walk : Walk ε α} (hwalk : walk.failure? = none)
    (rest : Walk ε α) :
    walk.append rest = ⟨walk.items ++ rest.items, rest.failure?⟩ := by
  rw [append, hwalk]

theorem append_of_failure {walk : Walk ε α} {failure : ε}
    (hwalk : walk.failure? = some failure) (rest : Walk ε α) :
    walk.append rest = walk := by
  rw [append, hwalk]

theorem failure?_append_eq_none_iff {walk rest : Walk ε α} :
    (walk.append rest).failure? = none ↔ walk.failure? = none ∧ rest.failure? = none := by
  cases hwalk : walk.failure? with
  | none => simp [append_of_failure?_eq_none hwalk]
  | some failure => simp [append_of_failure hwalk, hwalk]

theorem append_assoc (walk walk' walk'' : Walk ε α) :
    (walk.append walk').append walk'' = walk.append (walk'.append walk'') := by
  cases hwalk : walk.failure? with
  | some failure => simp only [append_of_failure hwalk]
  | none =>
      rw [append_of_failure?_eq_none hwalk, append_of_failure?_eq_none hwalk]
      cases hwalk' : walk'.failure? <;> simp [append, hwalk']

theorem each_append (visit : β → Walk ε α) (items items' : List β) :
    each visit (items ++ items') = (each visit items).append (each visit items') := by
  induction items with
  | nil => rfl
  | cons item items ih => rw [List.cons_append, each, ih, each, append_assoc]

/-- A loop comes to its end when each round does. -/
theorem failure?_each_eq_none_iff {visit : β → Walk ε α} {items : List β} :
    (each visit items).failure? = none ↔ ∀ item ∈ items, (visit item).failure? = none := by
  induction items with
  | nil => simp [each]
  | cons item items ih =>
      rw [each, failure?_append_eq_none_iff, ih, List.forall_mem_cons]

theorem items_each {visit : β → Walk ε α} {items : List β}
    (hvisit : ∀ item ∈ items, (visit item).failure? = none) :
    (each visit items).items = items.flatMap fun item => (visit item).items := by
  induction items with
  | nil => rfl
  | cons item items ih =>
      rw [List.forall_mem_cons] at hvisit
      rw [each, append_of_failure?_eq_none hvisit.1, List.flatMap_cons, ih hvisit.2]

theorem mem_items_each {visit : β → Walk ε α} {items : List β}
    (hvisit : (each visit items).failure? = none) {item : α} :
    item ∈ (each visit items).items ↔ ∃ other ∈ items, item ∈ (visit other).items := by
  rw [items_each (failure?_each_eq_none_iff.mp hvisit), List.mem_flatMap]

theorem failure?_ofExcept_eq_none_iff {visit : β → Walk ε α} {read : Except ε β} :
    (ofExcept visit read).failure? = none ↔
      ∃ value, read = .ok value ∧ (visit value).failure? = none := by
  cases read <;> simp [ofExcept, fail]

/-- Where a loop stops, and that everything before has been walked through. -/
theorem exists_of_failure?_each {visit : β → Walk ε α} {items : List β} {failure : ε}
    (hfailure : (each visit items).failure? = some failure) :
    ∃ before item after, items = before ++ item :: after ∧
      (∀ other ∈ before, (visit other).failure? = none) ∧
      (visit item).failure? = some failure ∧
      (each visit items).items =
        (before.flatMap fun other => (visit other).items) ++ (visit item).items := by
  induction items with
  | nil => cases hfailure
  | cons head items ih =>
      cases hhead : (visit head).failure? with
      | some other =>
          rw [each, append_of_failure hhead] at hfailure ⊢
          exact ⟨[], head, items, rfl, by simp, hfailure, by simp⟩
      | none =>
          rw [each, append_of_failure?_eq_none hhead] at hfailure ⊢
          rcases ih hfailure with ⟨before, item, after, hitems, hbefore, hitem, hwalked⟩
          refine ⟨head :: before, item, after, by rw [hitems, List.cons_append], ?_,
            hitem, ?_⟩
          · exact List.forall_mem_cons.mpr ⟨hhead, hbefore⟩
          · rw [hwalked, List.flatMap_cons, List.append_assoc]

theorem failure?_ofExcept_ne {visit : β → Walk ε α} {read : Except ε β} {failure : ε}
    (hread : read ≠ .error failure) (hvisit : ∀ value, (visit value).failure? ≠ some failure) :
    (ofExcept visit read).failure? ≠ some failure := by
  cases read with
  | error other => simpa [ofExcept, fail] using hread
  | ok value => exact hvisit value

theorem failure?_each_ne {visit : β → Walk ε α} {failure : ε}
    (hvisit : ∀ item, (visit item).failure? ≠ some failure) (items : List β) :
    (each visit items).failure? ≠ some failure := by
  intro hfailure
  rcases exists_of_failure?_each hfailure with ⟨-, item, -, -, -, hitem, -⟩
  exact hvisit item hitem

section Collect

variable {κ : Type u} [DecidableEq κ] (key : α → κ)

/-- What is left of a walk when `seen` had been seen before: what is new, or the
failure, and the keys marked on the way. -/
def collect (walk : Walk ε α) (found : List α) (seen : Finset κ) :
    EStateM.Result ε (Finset κ) (List α) :=
  match walk.failure? with
  | none => .ok (found ++ fresh key seen walk.items) (seen ∪ keys key walk.items)
  | some failure => .error failure (seen ∪ keys key walk.items)

variable {key}

theorem collect_of_failure?_eq_none {walk : Walk ε α} (hwalk : walk.failure? = none)
    (found : List α) (seen : Finset κ) :
    walk.collect key found seen =
      .ok (found ++ fresh key seen walk.items) (seen ∪ keys key walk.items) := by
  rw [collect, hwalk]

theorem collect_of_failure {walk : Walk ε α} {failure : ε}
    (hwalk : walk.failure? = some failure) (found : List α) (seen : Finset κ) :
    walk.collect key found seen = .error failure (seen ∪ keys key walk.items) := by
  rw [collect, hwalk]

theorem collect_append (walk rest : Walk ε α) (found : List α) (seen : Finset κ) :
    (walk.append rest).collect key found seen =
      match walk.collect key found seen with
      | .ok found' seen' => rest.collect key found' seen'
      | .error failure seen' => .error failure seen' := by
  cases hwalk : walk.failure? with
  | some failure => rw [append_of_failure hwalk, collect_of_failure hwalk]
  | none =>
      rw [append_of_failure?_eq_none hwalk, collect_of_failure?_eq_none hwalk]
      cases hrest : rest.failure? with
      | some failure =>
          simp [collect, hrest, keys_append, Finset.union_assoc]
      | none =>
          simp [collect, hrest, fresh_append, keys_append, Finset.union_assoc]

/-- The rule for loops: when each round collects from what it visits, so does
the whole loop. -/
theorem run_foldlM_eq_collect {visit : β → Walk ε α}
    {round : List α → β → EStateM ε (Finset κ) (List α)}
    (hround : ∀ found item seen,
      (round found item).run seen = (visit item).collect key found seen)
    (items : List β) (found : List α) (seen : Finset κ) :
    (items.foldlM round found).run seen = (each visit items).collect key found seen := by
  induction items generalizing found seen with
  | nil => simp [each, collect, fresh]
  | cons item items ih =>
      rw [List.foldlM_cons, EStateM.run_bind, hround, each, collect_append]
      cases (visit item).collect key found seen with
      | error failure seen' => rfl
      | ok found' seen' => exact ih found' seen'

/-- A value that is read first decides what is walked. -/
theorem run_ofExcept_bind_eq_collect {visit : β → Walk ε α}
    {next : β → EStateM ε (Finset κ) (List α)} {found : List α} {seen : Finset κ}
    (hnext : ∀ value, (next value).run seen = (visit value).collect key found seen)
    (read : Except ε β) :
    ((MonadExcept.ofExcept read : EStateM ε (Finset κ) β) >>= next).run seen =
      (ofExcept visit read).collect key found seen := by
  cases read with
  | error failure => simp [ofExcept, fail, collect, MonadExcept.ofExcept]; rfl
  | ok value => exact hnext value

variable (key) in
/-- The round that keeps an item when its key is new, and marks it. -/
theorem run_keep_eq_collect (item : α) (found : List α) (seen : Finset κ) :
    EStateM.run (ε := ε) (do
      if key item ∈ (← get) then return found
      else
        modify (insert (key item))
        return found ++ [item]) seen = collect key ⟨[item], none⟩ found seen := by
  rw [EStateM.run_bind, EStateM.run_get]
  by_cases hseen : key item ∈ seen
  · have hsame : seen ∪ {key item} = seen :=
      Finset.union_eq_left.mpr (Finset.singleton_subset_iff.mpr hseen)
    simp [hseen, collect, fresh, hsame]
  · have hnew : seen ∪ {key item} = insert (key item) seen := by
      rw [Finset.union_comm, Finset.insert_eq]
    simp [hseen, collect, fresh, hnew]

theorem collect_nil (found : List α) (seen : Finset κ) :
    (⟨[], none⟩ : Walk ε α).collect key found seen = .ok found seen := by
  simp [collect, fresh]

theorem collect_map {key : β → κ} (embed : α → β) (walk : Walk ε α) (found : List β)
    (seen : Finset κ) :
    (walk.map embed).collect key found seen =
      match walk.collect (key ∘ embed) [] seen with
      | .ok new seen' => .ok (found ++ new.map embed) seen'
      | .error failure seen' => .error failure seen' := by
  cases hwalk : walk.failure? <;> simp [collect, map, hwalk, fresh_map, keys_map]

end Collect

end Walk
