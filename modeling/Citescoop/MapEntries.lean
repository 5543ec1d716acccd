/-
Sums over the entries of a map, look-ups in its entries taken in any order, and
maps filled by insertions that keep what is there.
-/
import Mathlib

namespace MapEntries

universe u v w

variable {κ : Type u} {α : Type v} {M : Type w}
variable [Ord κ] [Std.TransOrd κ]

/-- The values of a map, weighed and added up. -/
def total [AddCommMonoid M] (weight : α → M) (m : Std.ExtTreeMap κ α) : M :=
  (m.toList.map fun entry => weight entry.2).sum

/-- Insert the entries in turn, each unless its key is there already. -/
def insertAll (m : Std.ExtTreeMap κ α) (entries : List (κ × α)) :
    Std.ExtTreeMap κ α :=
  entries.foldl (fun m entry => m.insertIfNew entry.1 entry.2) m

theorem total_empty [AddCommMonoid M] (weight : α → M) :
    total weight (∅ : Std.ExtTreeMap κ α) = 0 := by
  rw [total, Std.ExtTreeMap.toList_eq_nil_iff.mpr rfl]
  rfl

theorem nodup_keys_toList (m : Std.ExtTreeMap κ α) :
    (m.toList.map Prod.fst).Nodup := by
  rw [Std.ExtTreeMap.map_fst_toList_eq_keys]
  exact Std.ExtTreeMap.nodup_keys

theorem nodup_toList (m : Std.ExtTreeMap κ α) : m.toList.Nodup :=
  (nodup_keys_toList m).of_map

variable [Std.LawfulEqOrd κ]

theorem mem_map_snd_toList {m : Std.ExtTreeMap κ α} {value : α} :
    value ∈ m.toList.map Prod.snd ↔ ∃ key : κ, m[key]? = some value := by
  simp [Std.ExtTreeMap.mem_toList_iff_getElem?_eq_some]

/-- Which keys a map has settles the list of its keys. -/
theorem keys_eq_of_mem_iff {m m' : Std.ExtTreeMap κ α}
    (hkeys : ∀ key, key ∈ m ↔ key ∈ m') : m.keys = m'.keys := by
  have hperm : m.keys.Perm m'.keys := by
    apply (List.perm_ext_iff_of_nodup Std.ExtTreeMap.nodup_keys Std.ExtTreeMap.nodup_keys).mpr
    intro key
    simpa only [Std.ExtTreeMap.mem_keys] using hkeys key
  apply hperm.eq_of_pairwise _ Std.ExtTreeMap.ordered_keys Std.ExtTreeMap.ordered_keys
  intro first second _ _ hlt hgt
  exact absurd hgt (Std.OrientedCmp.not_lt_of_lt hlt)

/-- Maps with the same keys are equal when their values are, key by key. -/
theorem eq_of_map_snd_toList {m m' : Std.ExtTreeMap κ α}
    (hkeys : ∀ key, key ∈ m ↔ key ∈ m')
    (hvalues : m.toList.map Prod.snd = m'.toList.map Prod.snd) : m = m' := by
  apply Std.ExtTreeMap.toList_inj.mp
  have hfst : m.toList.map Prod.fst = m'.toList.map Prod.fst := by
    simp only [Std.ExtTreeMap.map_fst_toList_eq_keys, keys_eq_of_mem_iff hkeys]
  rw [← List.zip_unzip m.toList, ← List.zip_unzip m'.toList, List.unzip_eq_map,
    List.unzip_eq_map, hfst, hvalues]

theorem getElem?_insert_of_ne (m : Std.ExtTreeMap κ α) {key other : κ}
    (value : α) (hne : key ≠ other) : (m.insert key value)[other]? = m[other]? := by
  simp [Std.ExtTreeMap.getElem?_insert, hne]

theorem getElem?_erase_of_ne (m : Std.ExtTreeMap κ α) {key other : κ}
    (hne : key ≠ other) : (m.erase key)[other]? = m[other]? := by
  simp [Std.ExtTreeMap.getElem?_erase, hne]

theorem getElem?_insertIfNew [DecidableEq κ] (m : Std.ExtTreeMap κ α)
    (key other : κ) (value : α) :
    (m.insertIfNew key value)[other]? =
      m[other]?.or (if key = other then some value else none) := by
  rw [Std.ExtTreeMap.getElem?_insertIfNew]
  by_cases hkey : key = other
  · subst hkey
    cases hold : m[key]? with
    | none =>
        have hmem : ¬ key ∈ m := by simpa using hold
        simp [hmem]
    | some old =>
        have hmem : key ∈ m := by
          rw [Std.ExtTreeMap.mem_iff_isSome_getElem?, hold]
          rfl
        simp [hmem]
  · simp [hkey]

/-- A map with one entry written anew: the entry, and the rest of the map. -/
theorem toList_insert_perm (m : Std.ExtTreeMap κ α) (key : κ) (value : α) :
    (m.insert key value).toList.Perm ((key, value) :: (m.erase key).toList) := by
  have hnot : (key, value) ∉ (m.erase key).toList := by
    rw [Std.ExtTreeMap.mem_toList_iff_getElem?_eq_some]
    simp
  rw [List.perm_ext_iff_of_nodup (nodup_toList _)
    (List.nodup_cons.mpr ⟨hnot, nodup_toList _⟩)]
  rintro ⟨other, value'⟩
  rw [List.mem_cons, Std.ExtTreeMap.mem_toList_iff_getElem?_eq_some,
    Std.ExtTreeMap.mem_toList_iff_getElem?_eq_some]
  by_cases hother : key = other
  · subst hother
    simp [eq_comm]
  · simp [Std.ExtTreeMap.getElem?_insert, Std.ExtTreeMap.getElem?_erase, hother,
      Ne.symm hother]

theorem insert_of_getElem? {m : Std.ExtTreeMap κ α} {key : κ} {value : α}
    (hvalue : m[key]? = some value) : m.insert key value = m := by
  apply Std.ExtTreeMap.ext_getElem?
  intro other
  rw [Std.ExtTreeMap.getElem?_insert]
  by_cases hother : key = other
  · subst hother
    simp [hvalue]
  · simp [hother]

theorem erase_of_getElem? {m : Std.ExtTreeMap κ α} {key : κ}
    (hnone : m[key]? = none) : m.erase key = m := by
  apply Std.ExtTreeMap.ext_getElem?
  intro other
  rw [Std.ExtTreeMap.getElem?_erase]
  by_cases hother : key = other
  · subst hother
    simp [hnone]
  · simp [hother]

section

variable [AddCommMonoid M] (weight : α → M)

theorem total_insert_erase (m : Std.ExtTreeMap κ α) (key : κ) (value : α) :
    total weight (m.insert key value) = weight value + total weight (m.erase key) := by
  rw [total, ((toList_insert_perm m key value).map _).sum_eq]
  simp [total]

/-- A new entry adds its weight. -/
theorem total_insert_of_none {m : Std.ExtTreeMap κ α} {key : κ}
    (hnone : m[key]? = none) (value : α) :
    total weight (m.insert key value) = weight value + total weight m := by
  rw [total_insert_erase, erase_of_getElem? hnone]

/-- An entry that is overwritten takes its weight away. -/
theorem total_insert_of_some {m : Std.ExtTreeMap κ α} {key : κ} {old : α}
    (hold : m[key]? = some old) (value : α) :
    weight old + total weight (m.insert key value) =
      weight value + total weight m := by
  have herase := total_insert_erase weight m key old
  rw [insert_of_getElem? hold] at herase
  rw [herase, total_insert_erase, add_left_comm]

end

/-- The look-up of a key in the entries, whatever their order. -/
theorem findSome?_entries [DecidableEq κ] {β : Type w} (m : Std.ExtTreeMap κ α)
    {entries : List (κ × α)} (hentries : entries.Perm m.toList) (f : α → β)
    (key : κ) :
    (entries.findSome? fun entry =>
      if entry.1 = key then some (f entry.2) else none) = m[key]?.map f := by
  cases hvalue : m[key]? with
  | none =>
      rw [Option.map_none, List.findSome?_eq_none_iff]
      rintro ⟨other, value⟩ hmem
      rw [if_neg]
      rintro rfl
      have hsome := Std.ExtTreeMap.mem_toList_iff_getElem?_eq_some.mp
        (hentries.mem_iff.mp hmem)
      rw [hvalue] at hsome
      cases hsome
  | some value =>
      have hmem := hentries.mem_iff.mpr
        (Std.ExtTreeMap.mem_toList_iff_getElem?_eq_some.mpr hvalue)
      cases hfind : entries.findSome? fun entry =>
          if entry.1 = key then some (f entry.2) else none with
      | none =>
          have hnone := List.findSome?_eq_none_iff.mp hfind (key, value) hmem
          simp at hnone
      | some result =>
          obtain ⟨⟨other, value'⟩, hmem', hresult⟩ :=
            List.exists_of_findSome?_eq_some hfind
          simp only [Option.ite_none_right_eq_some, Option.some.injEq] at hresult
          obtain ⟨rfl, rfl⟩ := hresult
          have hsome := Std.ExtTreeMap.mem_toList_iff_getElem?_eq_some.mp
            (hentries.mem_iff.mp hmem')
          rw [hvalue, Option.some.injEq] at hsome
          rw [hsome, Option.map_some]

theorem getElem?_insertAll [DecidableEq κ] (m : Std.ExtTreeMap κ α)
    (entries : List (κ × α)) (key : κ) :
    (insertAll m entries)[key]? =
      m[key]?.or (entries.findSome? fun entry =>
        if entry.1 = key then some entry.2 else none) := by
  induction entries generalizing m with
  | nil => simp [insertAll]
  | cons entry entries ih =>
      rw [insertAll, List.foldl_cons, ← insertAll, ih, getElem?_insertIfNew,
        List.findSome?_cons, Option.or_assoc]
      by_cases hkey : entry.1 = key <;> simp [hkey]

/-- Of entries with different keys, each is found under its own. -/
theorem getElem?_insertAll_of_mem [DecidableEq κ] (m : Std.ExtTreeMap κ α)
    {entries : List (κ × α)} (hkeys : (entries.map Prod.fst).Nodup) {entry : κ × α}
    (hentry : entry ∈ entries) (hnone : m[entry.1]? = none) :
    (insertAll m entries)[entry.1]? = some entry.2 := by
  rw [getElem?_insertAll, hnone, Option.none_or]
  induction entries with
  | nil => cases hentry
  | cons first entries ih =>
      rw [List.map_cons, List.nodup_cons] at hkeys
      rw [List.findSome?_cons]
      rcases List.mem_cons.mp hentry with rfl | hmem
      · rw [if_pos rfl]
      · have hne : first.1 ≠ entry.1 := fun heq => hkeys.1 (heq ▸ List.mem_map_of_mem hmem)
        rw [if_neg hne]
        exact ih hkeys.2 hmem

/-- Inserting a whole map keeps what is there and adds the rest. -/
theorem getElem?_insertAll_toList [DecidableEq κ] (m other : Std.ExtTreeMap κ α)
    (key : κ) : (insertAll m other.toList)[key]? = m[key]?.or other[key]? := by
  have hother := findSome?_entries other (List.Perm.refl _) id key
  rw [Option.map_id_fun] at hother
  rw [getElem?_insertAll]
  exact congrArg _ hother

theorem insertAll_empty_toList [DecidableEq κ] (m : Std.ExtTreeMap κ α) :
    insertAll ∅ m.toList = m := by
  apply Std.ExtTreeMap.ext_getElem?
  intro key
  simp [getElem?_insertAll_toList]

theorem insertAll_toList_empty [DecidableEq κ] (m : Std.ExtTreeMap κ α) :
    insertAll m (∅ : Std.ExtTreeMap κ α).toList = m := by
  apply Std.ExtTreeMap.ext_getElem?
  intro key
  simp [getElem?_insertAll_toList]

theorem insertAll_insertAll_toList [DecidableEq κ] (m m' m'' : Std.ExtTreeMap κ α) :
    insertAll (insertAll m m'.toList) m''.toList =
      insertAll m (insertAll m' m''.toList).toList := by
  apply Std.ExtTreeMap.ext_getElem?
  intro key
  simp only [getElem?_insertAll_toList, Option.or_assoc]

/-- Entries with different keys may be inserted in any order. -/
theorem insertAll_perm [DecidableEq κ] (m : Std.ExtTreeMap κ α)
    {entries entries' : List (κ × α)} (hperm : entries.Perm entries')
    (hkeys : (entries.map Prod.fst).Nodup) : insertAll m entries = insertAll m entries' := by
  apply hperm.foldl_eq'
  intro first hfirst second hsecond map
  by_cases heq : first = second
  · rw [heq]
  · have hne : first.1 ≠ second.1 := fun hkey =>
      heq (List.inj_on_of_nodup_map hkeys hfirst hsecond hkey)
    apply Std.ExtTreeMap.ext_getElem?
    intro key
    simp only [getElem?_insertIfNew, Option.or_assoc]
    congr 1
    by_cases hkey : first.1 = key
    · simp [hkey, (hkey ▸ hne).symm]
    · simp [hkey]

end MapEntries
