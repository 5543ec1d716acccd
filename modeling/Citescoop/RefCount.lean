/-
A store that is kept by reference counts: it holds the known values of exactly
those keys that have a reference.
-/
import Citescoop.MapEntries

namespace RefCount

universe u v

variable {κ : Type u} {α : Type v} [Ord κ] [Std.TransOrd κ]

/-- The counters tell how many references there are, and the store holds the
values that are referred to. -/
structure Counts (known stored : Std.ExtTreeMap κ α) (refs : Std.ExtTreeMap κ Int)
    (count : κ → ℕ) : Prop where
  refs : ∀ key, refs.getD key 0 = count key
  referred : ∀ key, 0 < count key → ∃ value,
    known[key]? = some value ∧ stored[key]? = some value
  unreferred : ∀ key, count key = 0 → stored[key]? = none

variable {known stored : Std.ExtTreeMap κ α} {refs : Std.ExtTreeMap κ Int}
  {count : κ → ℕ}

theorem Counts.empty (known : Std.ExtTreeMap κ α) :
    Counts known ∅ ∅ (fun _ => 0) where
  refs key := by simp
  referred key hcount := absurd hcount (Nat.lt_irrefl 0)
  unreferred key _ := by simp

theorem Counts.congr (hcounts : Counts known stored refs count) {count' : κ → ℕ}
    (hcount : ∀ key, count' key = count key) : Counts known stored refs count' := by
  have heq : count' = count := funext hcount
  rwa [heq]

theorem Counts.mem_stored_iff (hcounts : Counts known stored refs count) (key : κ) :
    key ∈ stored ↔ 0 < refs.getD key 0 := by
  rw [hcounts.refs, Int.natCast_pos, Std.ExtTreeMap.mem_iff_isSome_getElem?]
  rcases Nat.eq_zero_or_pos (count key) with hzero | hpos
  · simp [hzero, hcounts.unreferred key hzero]
  · rcases hcounts.referred key hpos with ⟨value, -, hstored⟩
    simp [hpos, hstored]

theorem Counts.stored_known (hcounts : Counts known stored refs count) {key : κ}
    {value : α} (hvalue : stored[key]? = some value) : known[key]? = some value := by
  rcases Nat.eq_zero_or_pos (count key) with hzero | hpos
  · rw [hcounts.unreferred key hzero] at hvalue
    cases hvalue
  · rcases hcounts.referred key hpos with ⟨value', hknown, hstored⟩
    rw [hstored] at hvalue
    rw [hknown, hvalue]

variable [Std.LawfulEqOrd κ]

/-- The store is determined by what is referred to and what is known of that. -/
theorem Counts.stored_congr {known' stored' : Std.ExtTreeMap κ α}
    {refs' : Std.ExtTreeMap κ Int} (hcounts : Counts known stored refs count)
    (hcounts' : Counts known' stored' refs' count)
    (hsame : ∀ key, 0 < count key → known[key]? = known'[key]?) : stored = stored' := by
  apply Std.ExtTreeMap.ext_getElem?
  intro key
  rcases Nat.eq_zero_or_pos (count key) with hzero | hpos
  · rw [hcounts.unreferred key hzero, hcounts'.unreferred key hzero]
  · rcases hcounts.referred key hpos with ⟨value, hknown, hstored⟩
    rcases hcounts'.referred key hpos with ⟨value', hknown', hstored'⟩
    rw [hstored, hstored', ← hknown, ← hknown', hsame key hpos]

theorem Counts.stored_unique {stored' : Std.ExtTreeMap κ α}
    {refs' : Std.ExtTreeMap κ Int} (hcounts : Counts known stored refs count)
    (hcounts' : Counts known stored' refs' count) : stored = stored' :=
  hcounts.stored_congr hcounts' fun _ _ => rfl

variable [DecidableEq κ]

/-- One reference more. -/
theorem Counts.acquire (hcounts : Counts known stored refs count) {key : κ}
    {value : α} (hvalue : known[key]? = some value) {count' : κ → ℕ}
    (hcount : ∀ other, count' other = count other + if key = other then 1 else 0) :
    Counts known (stored.insertIfNew key value)
      (refs.insert key (refs.getD key 0 + 1)) count' where
  refs other := by
    rw [Std.ExtTreeMap.getD_insert, hcount]
    by_cases hother : key = other
    · subst hother
      simp [hcounts.refs]
    · simp [hother, hcounts.refs]
  referred other hpos := by
    rw [MapEntries.getElem?_insertIfNew]
    rcases Nat.eq_zero_or_pos (count other) with hzero | hpos'
    · have hother : key = other := by
        by_contra hne
        rw [hcount, hzero, if_neg hne] at hpos
        exact Nat.lt_irrefl 0 hpos
      subst hother
      exact ⟨value, hvalue, by simp [hcounts.unreferred key hzero]⟩
    · rcases hcounts.referred other hpos' with ⟨value', hknown, hstored⟩
      exact ⟨value', hknown, by rw [hstored, Option.some_or]⟩
  unreferred other hzero := by
    rw [hcount] at hzero
    have hother : key ≠ other := by
      intro hother
      rw [if_pos hother] at hzero
      omega
    rw [MapEntries.getElem?_insertIfNew, if_neg hother, Option.or_none]
    exact hcounts.unreferred other (by omega)

/-- One reference less; the last one takes the value out of the store. -/
theorem Counts.release (hcounts : Counts known stored refs count) {key : κ}
    {count' : κ → ℕ}
    (hcount : ∀ other, count other = count' other + if key = other then 1 else 0) :
    Counts known (if refs.getD key 0 - 1 ≤ 0 then stored.erase key else stored)
      (refs.insert key (refs.getD key 0 - 1)) count' where
  refs other := by
    rw [Std.ExtTreeMap.getD_insert, hcounts.refs, hcounts.refs, hcount key, if_pos rfl]
    by_cases hother : key = other
    · subst hother
      simp
    · simp [hother, hcount other]
  referred other hpos := by
    rcases hcounts.referred other (by rw [hcount]; omega)
      with ⟨value, hknown, hstored⟩
    refine ⟨value, hknown, ?_⟩
    by_cases hother : key = other
    · subst hother
      have hmore : ¬ refs.getD key 0 - 1 ≤ 0 := by
        rw [hcounts.refs, hcount, if_pos rfl]
        omega
      rw [if_neg hmore, hstored]
    · split_ifs
      · rw [MapEntries.getElem?_erase_of_ne _ hother, hstored]
      · exact hstored
  unreferred other hzero := by
    by_cases hother : key = other
    · subst hother
      have hlast : refs.getD key 0 - 1 ≤ 0 := by
        rw [hcounts.refs, hcount, if_pos rfl]
        omega
      rw [if_pos hlast]
      simp
    · have hnone := hcounts.unreferred other (by rw [hcount, if_neg hother]; omega)
      split_ifs
      · rw [MapEntries.getElem?_erase_of_ne _ hother, hnone]
      · exact hnone

end RefCount
