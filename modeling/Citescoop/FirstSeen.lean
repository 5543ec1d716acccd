/-
Deduplication against a set of keys already seen: of a list, the first item of
every key that is new is kept, and the keys met are added to the set.
-/
import Mathlib

namespace FirstSeen

universe u v w

variable {α : Type u} {κ : Type v} [DecidableEq κ] (key : α → κ)

def fresh : Finset κ → List α → List α
  | _, [] => []
  | seen, item :: items =>
      if key item ∈ seen then fresh seen items
      else item :: fresh (insert (key item) seen) items

def keys (items : List α) : Finset κ :=
  (items.map key).toFinset

section Keys

variable (items items' : List α)

@[simp] theorem keys_nil : keys key [] = ∅ := rfl

@[simp] theorem keys_cons (item : α) :
    keys key (item :: items) = insert (key item) (keys key items) := by
  simp [keys]

@[simp] theorem keys_append :
    keys key (items ++ items') = keys key items ∪ keys key items' := by
  simp [keys]

@[simp] theorem mem_keys {value : κ} :
    value ∈ keys key items ↔ ∃ item ∈ items, key item = value := by
  simp [keys]

theorem keys_map {β : Type w} (embed : β → α) (records : List β) :
    keys key (records.map embed) = keys (key ∘ embed) records := by
  simp [keys]

end Keys

variable {key}

theorem fresh_cons_of_mem {seen : Finset κ} {item : α} (hseen : key item ∈ seen)
    (items : List α) : fresh key seen (item :: items) = fresh key seen items :=
  if_pos hseen

theorem fresh_cons_of_not_mem {seen : Finset κ} {item : α} (hseen : key item ∉ seen)
    (items : List α) :
    fresh key seen (item :: items) =
      item :: fresh key (insert (key item) seen) items :=
  if_neg hseen

/-- The rest of a list is deduplicated against what its beginning adds. -/
theorem fresh_append (seen : Finset κ) (items items' : List α) :
    fresh key seen (items ++ items') =
      fresh key seen items ++ fresh key (seen ∪ keys key items) items' := by
  induction items generalizing seen with
  | nil => simp [fresh]
  | cons item items ih =>
      by_cases hseen : key item ∈ seen
      · have hsame : seen ∪ keys key (item :: items) = seen ∪ keys key items := by
          rw [keys_cons, Finset.union_insert, Finset.insert_eq_of_mem]
          exact Finset.mem_union_left _ hseen
        rw [List.cons_append, fresh_cons_of_mem hseen, fresh_cons_of_mem hseen, ih,
          hsame]
      · have hsame :
            seen ∪ keys key (item :: items) = insert (key item) seen ∪ keys key items := by
          rw [keys_cons, Finset.union_insert, Finset.insert_union]
        rw [List.cons_append, fresh_cons_of_not_mem hseen, fresh_cons_of_not_mem hseen,
          ih, hsame, List.cons_append]

theorem fresh_map {β : Type w} (embed : β → α) (seen : Finset κ) (records : List β) :
    fresh key seen (records.map embed) =
      (fresh (key ∘ embed) seen records).map embed := by
  induction records generalizing seen with
  | nil => rfl
  | cons record records ih =>
      by_cases hseen : key (embed record) ∈ seen
      · have hrecord : (key ∘ embed) record ∈ seen := hseen
        rw [List.map_cons, fresh_cons_of_mem hseen, ih, fresh_cons_of_mem hrecord]
      · have hrecord : (key ∘ embed) record ∉ seen := hseen
        rw [List.map_cons, fresh_cons_of_not_mem hseen, ih,
          fresh_cons_of_not_mem hrecord, List.map_cons]
        rfl

/-- An item is kept when its key is new and it is the first with it. -/
theorem mem_fresh_iff {seen : Finset κ} {items : List α} {item : α} :
    item ∈ fresh key seen items ↔
      key item ∉ seen ∧ items.find? (fun other => key other = key item) = some item := by
  induction items generalizing seen with
  | nil => simp [fresh]
  | cons head items ih =>
      by_cases hkey : key head = key item
      · by_cases hseen : key head ∈ seen
        · simp [fresh_cons_of_mem hseen, ih, ← hkey, hseen]
        · have hlater : item ∉ fresh key (insert (key head) seen) items := by
            simp [ih, hkey]
          simp only [fresh_cons_of_not_mem hseen, List.mem_cons, hlater, or_false,
            ← hkey, hseen, not_false_eq_true, true_and]
          simp [eq_comm]
      · have hne : item ≠ head := fun heq => hkey (by rw [heq])
        by_cases hseen : key head ∈ seen
        · simp [fresh_cons_of_mem hseen, ih, hkey]
        · simp [fresh_cons_of_not_mem hseen, ih, hkey, hne, Ne.symm hkey]

theorem keys_fresh (seen : Finset κ) (items : List α) :
    keys key (fresh key seen items) = keys key items \ seen := by
  induction items generalizing seen with
  | nil => simp [fresh]
  | cons item items ih =>
      by_cases hseen : key item ∈ seen
      · rw [fresh_cons_of_mem hseen, ih, keys_cons, Finset.insert_sdiff_of_mem _ hseen]
      · ext value
        rw [fresh_cons_of_not_mem hseen, keys_cons, ih, keys_cons]
        by_cases hvalue : value = key item <;> simp [hvalue, hseen]

/-- Seen is what was seen before and what was kept. -/
theorem union_keys_fresh (seen : Finset κ) (items : List α) :
    seen ∪ keys key (fresh key seen items) = seen ∪ keys key items := by
  rw [keys_fresh, Finset.union_sdiff_self_eq_union]

theorem nodup_fresh (seen : Finset κ) (items : List α) :
    ((fresh key seen items).map key).Nodup := by
  induction items generalizing seen with
  | nil => exact List.nodup_nil
  | cons item items ih =>
      by_cases hseen : key item ∈ seen
      · rw [fresh_cons_of_mem hseen]
        exact ih seen
      · rw [fresh_cons_of_not_mem hseen, List.map_cons, List.nodup_cons]
        refine ⟨?_, ih _⟩
        intro hagain
        rcases List.mem_map.mp hagain with ⟨other, hother, hkey⟩
        exact (mem_fresh_iff.mp hother).1 (hkey ▸ Finset.mem_insert_self _ _)

theorem mem_map_fresh_iff {seen : Finset κ} {items : List α} {value : κ} :
    value ∈ (fresh key seen items).map key ↔ value ∈ keys key items \ seen := by
  rw [← keys_fresh, keys, List.mem_toFinset]

/-- Every key met is kept exactly once, unless it had been seen before. -/
theorem count_fresh [BEq κ] [LawfulBEq κ] {seen : Finset κ} {items : List α} {value : κ} :
    ((fresh key seen items).map key).count value =
      if value ∈ keys key items \ seen then 1 else 0 := by
  by_cases hvalue : value ∈ keys key items \ seen
  · rw [if_pos hvalue]
    exact List.count_eq_one_of_mem (nodup_fresh seen items) (mem_map_fresh_iff.mpr hvalue)
  · rw [if_neg hvalue]
    exact List.count_eq_zero_of_not_mem fun hcount => hvalue (mem_map_fresh_iff.mp hcount)

/-- What had been seen before matters only where it is met. -/
theorem fresh_congr {seen seen' : Finset κ} {items : List α}
    (hsame : ∀ item ∈ items, (key item ∈ seen ↔ key item ∈ seen')) :
    fresh key seen items = fresh key seen' items := by
  induction items generalizing seen seen' with
  | nil => rfl
  | cons item items ih =>
      rw [List.forall_mem_cons] at hsame
      by_cases hseen : key item ∈ seen
      · rw [fresh_cons_of_mem hseen, fresh_cons_of_mem (hsame.1.mp hseen), ih hsame.2]
      · rw [fresh_cons_of_not_mem hseen, fresh_cons_of_not_mem (mt hsame.1.mpr hseen)]
        congr 1
        apply ih
        intro other hother
        rw [Finset.mem_insert, Finset.mem_insert, hsame.2 other hother]

/-- Deduplicating twice is deduplicating once. -/
theorem fresh_fresh {seen seen' : Finset κ} (hseen : seen' ⊆ seen) (items : List α) :
    fresh key seen (fresh key seen' items) = fresh key seen items := by
  induction items generalizing seen seen' with
  | nil => rfl
  | cons item items ih =>
      by_cases hitem' : key item ∈ seen'
      · rw [fresh_cons_of_mem hitem', fresh_cons_of_mem (hseen hitem'), ih hseen]
      · rw [fresh_cons_of_not_mem hitem']
        by_cases hitem : key item ∈ seen
        · rw [fresh_cons_of_mem hitem, fresh_cons_of_mem hitem]
          exact ih (Finset.insert_subset hitem hseen)
        · rw [fresh_cons_of_not_mem hitem, fresh_cons_of_not_mem hitem,
            ih (Finset.insert_subset_insert _ hseen)]

/-- Items of which no two have one key are kept or dropped one by one. -/
theorem fresh_of_nodup {items : List α} (hnodup : (items.map key).Nodup) (seen : Finset κ) :
    fresh key seen items = items.filter (key · ∉ seen) := by
  induction items generalizing seen with
  | nil => rfl
  | cons item items ih =>
      rw [List.map_cons, List.nodup_cons] at hnodup
      by_cases hseen : key item ∈ seen
      · rw [fresh_cons_of_mem hseen, ih hnodup.2, List.filter_cons_of_neg (by simpa using hseen)]
      · rw [fresh_cons_of_not_mem hseen, List.filter_cons_of_pos (by simpa using hseen),
          fresh_congr, ih hnodup.2]
        intro other hother
        have hne : key other ≠ key item := fun heq =>
          hnodup.1 (heq ▸ List.mem_map_of_mem hother)
        simp [hne]

/-- Parts may be deduplicated by themselves first. -/
theorem fresh_flatMap_fresh {ι : Type*} (items : ι → List α) (parts : List ι)
    (seen : Finset κ) :
    fresh key seen (parts.flatMap fun part => fresh key ∅ (items part)) =
      fresh key seen (parts.flatMap items) := by
  induction parts generalizing seen with
  | nil => rfl
  | cons part parts ih =>
      have hkeys : seen ∪ keys key (fresh key ∅ (items part)) = seen ∪ keys key (items part) := by
        rw [keys_fresh, Finset.sdiff_empty]
      rw [List.flatMap_cons, List.flatMap_cons, fresh_append, fresh_append,
        fresh_fresh (Finset.empty_subset seen), hkeys, ih]

section Blocks

variable {ι : Type*} {items : ι → List α} {blocks : List ι} {seen : Finset κ}

theorem find?_flatMap_of_agree {k : κ}
    (hagree : ∀ block ∈ blocks, ∀ block' ∈ blocks, ∀ item item',
      (items block).find? (key · = k) = some item →
        (items block').find? (key · = k) = some item' → item = item')
    {block : ι} (hblock : block ∈ blocks) {item : α}
    (hfind : (items block).find? (key · = k) = some item) :
    (blocks.flatMap items).find? (key · = k) = some item := by
  rw [List.find?_flatMap]
  cases hfirst : blocks.findSome? fun block => (items block).find? (key · = k) with
  | none => simp [List.findSome?_eq_none_iff.mp hfirst block hblock] at hfind
  | some first =>
      obtain ⟨block', hblock', hfind'⟩ := List.exists_of_findSome?_eq_some hfirst
      rw [hagree block' hblock' block hblock first item hfind' hfind]

theorem mem_fresh_flatMap_of_first {block : ι} {rest : List ι} {item : α}
    (hitem : key item ∉ seen)
    (hfind : (items block).find? (key · = key item) = some item) :
    item ∈ fresh key seen ((block :: rest).flatMap items) := by
  rw [mem_fresh_iff, List.flatMap_cons, List.find?_append, hfind]
  exact ⟨hitem, rfl⟩

/-- The order of the blocks makes no difference to what is kept exactly when the blocks
that have a new key agree on their first item with it. -/
theorem fresh_flatMap_perm_iff :
    (∀ blocks' : List ι, blocks'.Perm blocks →
      (fresh key seen (blocks'.flatMap items)).Perm (fresh key seen (blocks.flatMap items))) ↔
      ∀ k ∉ seen, ∀ block ∈ blocks, ∀ block' ∈ blocks, ∀ item item',
        (items block).find? (key · = k) = some item →
          (items block').find? (key · = k) = some item' → item = item' := by
  constructor
  · intro hperm k hk block hblock block' hblock' item item' hfind hfind'
    -- any block may come first, and then its items are kept
    have hkept : ∀ {block item}, block ∈ blocks →
        (items block).find? (key · = k) = some item →
          key item = k ∧ item ∈ fresh key seen (blocks.flatMap items) := by
      intro block item hblock hfind
      have hkey : key item = k := by simpa using List.find?_some hfind
      obtain ⟨before, after, rfl⟩ := List.append_of_mem hblock
      refine ⟨hkey, (hperm _ List.perm_middle.symm).mem_iff.mp ?_⟩
      exact mem_fresh_flatMap_of_first (hkey ▸ hk) (hkey ▸ hfind)
    obtain ⟨hkey, hmem⟩ := hkept hblock hfind
    obtain ⟨hkey', hmem'⟩ := hkept hblock' hfind'
    exact List.inj_on_of_nodup_map (nodup_fresh seen _) hmem hmem' (hkey.trans hkey'.symm)
  · intro hagree blocks' hperm
    have hagree' : ∀ k ∉ seen, ∀ block ∈ blocks', ∀ block' ∈ blocks', ∀ item item',
        (items block).find? (key · = k) = some item →
          (items block').find? (key · = k) = some item' → item = item' := by
      simpa only [hperm.mem_iff] using hagree
    apply (List.perm_ext_iff_of_nodup (nodup_fresh _ _).of_map (nodup_fresh _ _).of_map).mpr
    intro item
    rw [mem_fresh_iff, mem_fresh_iff]
    apply and_congr_right
    intro hitem
    constructor
    · intro hfind
      rw [List.find?_flatMap] at hfind
      obtain ⟨block, hblock, hfind⟩ := List.exists_of_findSome?_eq_some hfind
      exact find?_flatMap_of_agree (hagree _ hitem) (hperm.mem_iff.mp hblock) hfind
    · intro hfind
      rw [List.find?_flatMap] at hfind
      obtain ⟨block, hblock, hfind⟩ := List.exists_of_findSome?_eq_some hfind
      exact find?_flatMap_of_agree (hagree' _ hitem) (hperm.mem_iff.mpr hblock) hfind

end Blocks

end FirstSeen
