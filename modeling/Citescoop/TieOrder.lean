/-
What sorting by a key leaves open.  Items with equal keys may come out in any
order; which item is the first with a property, and which item follows the last
with it, is settled only up to that.
-/
import Mathlib.Data.List.DropRight
import Mathlib.Data.List.Pairwise
import Mathlib.Data.List.Sort
import Mathlib.Data.Prod.Lex

namespace TieOrder

universe u v

variable {α : Type u} {τ : Type v} [LinearOrder τ]

structure SortedBy (time : α → τ) (items sorted : List α) : Prop where
  perm : sorted.Perm items
  pairwise : sorted.Pairwise fun first second => time first ≤ time second

/-- No item with the property comes before this one. -/
structure Earliest (time : α → τ) (p : α → Prop) (items : List α) (item : α) : Prop where
  mem : item ∈ items
  holds : p item
  le : ∀ other ∈ items, p other → time item ≤ time other

/-- Everything with the property comes before this item. -/
structure Later (time : α → τ) (p : α → Prop) (items : List α) (item : α) : Prop where
  mem : item ∈ items
  lt : ∀ other ∈ items, p other → time other < time item

/-- An item that may be the first after all those with the property: it is tied with
the last of them, or comes at once after them. -/
structure Follows (time : α → τ) (p : α → Prop) (items : List α) (item : α) : Prop where
  mem : item ∈ items
  lacks : ¬ p item
  ge : ∀ other ∈ items, p other → time other ≤ time item
  le : ∀ other, Later time p items other → time item ≤ time other

theorem exists_sortedBy (time : α → τ) (items : List α) :
    ∃ sorted, SortedBy time items sorted := by
  have htotal : Std.Total fun first second : α => time first ≤ time second :=
    ⟨fun first second => le_total (time first) (time second)⟩
  have htrans : IsTrans α fun first second => time first ≤ time second :=
    ⟨fun _ _ _ => le_trans⟩
  exact ⟨items.insertionSort fun first second => time first ≤ time second,
    List.perm_insertionSort _ items, List.pairwise_insertionSort _ items⟩

section Sorted

variable {time : α → τ} {p : α → Prop} [DecidablePred p] {items sorted : List α} {item : α}

theorem SortedBy.mem_iff (hsorted : SortedBy time items sorted) {item : α} :
    item ∈ sorted ↔ item ∈ items :=
  hsorted.perm.mem_iff

theorem SortedBy.earliest (hsorted : SortedBy time items sorted)
    (hfind : sorted.find? (fun item => p item) = some item) : Earliest time p items item := by
  obtain ⟨hitem, before, after, rfl, hbefore⟩ := List.find?_eq_some_iff_append.mp hfind
  refine ⟨hsorted.mem_iff.mp (by simp), of_decide_eq_true hitem, ?_⟩
  intro other hother hp
  rcases List.mem_append.mp (hsorted.mem_iff.mpr hother) with hmem | hmem
  · exact absurd hp (by simpa using hbefore other hmem)
  · have hpairs := (List.pairwise_append.mp hsorted.pairwise).2.1
    rcases List.mem_cons.mp hmem with rfl | hmem
    · exact le_rfl
    · exact List.rel_of_pairwise_cons hpairs hmem

omit [LinearOrder τ] in
/-- A property that is never regained cuts a list in two. -/
theorem filter_append_filter_not {p : α → Prop} [DecidablePred p] {items : List α}
    (hpairs : items.Pairwise fun first second => p second → p first) :
    (items.filter fun item => p item) ++ (items.filter fun item => ¬ p item) = items := by
  induction items with
  | nil => rfl
  | cons item items ih =>
      rw [List.pairwise_cons] at hpairs
      by_cases hitem : p item
      · simpa [hitem] using ih hpairs.2
      · have hrest : ∀ other ∈ items, ¬ p other := fun other hother hp =>
          hitem (hpairs.1 other hother hp)
        have hnone : (items.filter fun item => p item) = [] := by
          simpa [List.filter_eq_nil_iff] using hrest
        have hall : (items.filter fun item => ¬ p item) = items := by
          simpa [List.filter_eq_self] using hrest
        simp only [hitem, decide_false, not_false_eq_true, decide_true, List.filter_cons_of_pos,
          Bool.false_eq_true, List.filter_cons_of_neg, hnone, hall, List.nil_append]

/-- Sorted items, cut where a property is lost for good. -/
theorem SortedBy.cut {olds news sorted : List α} {p : α → Prop} [DecidablePred p]
    (hsorted : SortedBy time (olds ++ news) sorted) (hold : ∀ old ∈ olds, p old)
    (hnew : ∀ new ∈ news, ¬ p new)
    (hpairs : sorted.Pairwise fun first second => p second → p first) :
    SortedBy time olds (sorted.filter fun item => p item) ∧
      SortedBy time news (sorted.filter fun item => ¬ p item) ∧
      (sorted.filter fun item => p item) ++ (sorted.filter fun item => ¬ p item) = sorted := by
  refine ⟨⟨?_, hsorted.pairwise.filter _⟩, ⟨?_, hsorted.pairwise.filter _⟩,
    filter_append_filter_not hpairs⟩
  · have hperm := hsorted.perm.filter fun item => p item
    have holds : (olds.filter fun item => p item) = olds := by
      simpa [List.filter_eq_self] using hold
    have hnews : (news.filter fun item => p item) = [] := by
      simpa [List.filter_eq_nil_iff] using hnew
    rwa [List.filter_append, holds, hnews, List.append_nil] at hperm
  · have hperm := hsorted.perm.filter fun item => ¬ p item
    have holds : (olds.filter fun item => ¬ p item) = [] := by
      simpa [List.filter_eq_nil_iff] using hold
    have hnews : (news.filter fun item => ¬ p item) = news := by
      simpa [List.filter_eq_self] using hnew
    rwa [List.filter_append, holds, hnews, List.nil_append] at hperm

/-- Items that all come later than the others stand behind them. -/
theorem SortedBy.exists_append {olds news sorted : List α}
    (hsorted : SortedBy time (olds ++ news) sorted)
    (hlater : ∀ old ∈ olds, ∀ new ∈ news, time old < time new) :
    ∃ before after, sorted = before ++ after ∧ SortedBy time olds before ∧
      SortedBy time news after := by
  obtain ⟨hbefore, hafter, hsplit⟩ := hsorted.cut
    (fun old hmem => (⟨old, hmem, le_rfl⟩ : ∃ other ∈ olds, time old ≤ time other))
    (fun new hmem ⟨old, hold, hle⟩ => absurd (hlater old hold new hmem) (not_lt_of_ge hle))
    (hsorted.pairwise.imp fun hle ⟨old, hmem, hother⟩ => ⟨old, hmem, hle.trans hother⟩)
  exact ⟨_, _, hsplit.symm, hbefore, hafter⟩

/-- What stands before the tail without the property is not after the last item that
has it. -/
theorem SortedBy.not_later_of_mem_rdropWhile (hsorted : SortedBy time items sorted)
    (hmem : item ∈ sorted.rdropWhile fun item => ¬ p item) : ¬ Later time p items item := by
  intro hlater
  have hne := List.ne_nil_of_mem hmem
  have hlast := List.rdropWhile_last_not (fun item => decide (¬ p item)) sorted hne
  have hbefore := List.rdropWhile_prefix (fun item => decide (¬ p item)) (l := sorted)
  have hle : time item ≤ time ((sorted.rdropWhile fun item => ¬ p item).getLast hne) := by
    have hrefl : Std.Refl fun first second : α => time first ≤ time second :=
      ⟨fun _ => le_rfl⟩
    exact (hsorted.pairwise.sublist hbefore.sublist).rel_getLast hmem
  apply absurd hle
  apply not_le_of_gt
  apply hlater.lt
  · exact hsorted.mem_iff.mp (hbefore.mem (List.getLast_mem hne))
  · simpa using hlast

theorem SortedBy.follows (hsorted : SortedBy time items sorted)
    (hhead : (sorted.rtakeWhile fun item => ¬ p item).head? = some item) :
    Follows time p items item := by
  obtain ⟨after, htail⟩ := List.head?_eq_some_iff.mp hhead
  have hsplit :=
    List.rdropWhile_append_rtakeWhile (p := fun item => decide (¬ p item)) (l := sorted)
  have hpairs := hsorted.pairwise
  rw [← hsplit, htail, List.pairwise_append] at hpairs
  have hitem : item ∈ sorted.rtakeWhile fun item => ¬ p item := htail ▸ List.mem_cons_self
  refine ⟨?_, by simpa using List.mem_rtakeWhile_imp hitem, ?_, ?_⟩
  · exact hsorted.mem_iff.mp ((List.rtakeWhile_suffix _ sorted).mem hitem)
  · intro other hother hp
    have hmem := hsorted.mem_iff.mpr hother
    rw [← hsplit, List.mem_append] at hmem
    rcases hmem with hmem | hmem
    · exact hpairs.2.2 other hmem item List.mem_cons_self
    · exact absurd hp (by simpa using List.mem_rtakeWhile_imp hmem)
  · intro other hother
    have hmem := hsorted.mem_iff.mpr hother.mem
    rw [← hsplit, List.mem_append, htail] at hmem
    rcases hmem with hmem | hmem
    · exact absurd hother (hsorted.not_later_of_mem_rdropWhile hmem)
    · rcases List.mem_cons.mp hmem with rfl | hmem
      · exact le_rfl
      · exact List.rel_of_pairwise_cons hpairs.2.1 hmem

theorem SortedBy.not_later (hsorted : SortedBy time items sorted)
    (hhead : (sorted.rtakeWhile fun item => ¬ p item).head? = none) (item : α) :
    ¬ Later time p items item := by
  intro hlater
  have hsplit :=
    List.rdropWhile_append_rtakeWhile (p := fun item => decide (¬ p item)) (l := sorted)
  rw [List.head?_eq_none_iff.mp hhead, List.append_nil] at hsplit
  apply hsorted.not_later_of_mem_rdropWhile _ hlater
  rw [hsplit]
  exact hsorted.mem_iff.mpr hlater.mem

end Sorted

section Mapped

variable {β : Type*} {f : β → α} {time : α → τ} {p : α → Prop} {time' : β → τ}
  {p' : β → Prop} {sources : List β}

/-- Items made from sources with the same keys and the same property. -/
theorem Earliest.of_map
    (hsame : ∀ source ∈ sources, time (f source) = time' source ∧ (p (f source) ↔ p' source))
    {item : α} (hitem : Earliest time p (sources.map f) item) :
    ∃ source, f source = item ∧ Earliest time' p' sources source := by
  obtain ⟨source, hsource, rfl⟩ := List.mem_map.mp hitem.mem
  refine ⟨source, rfl, hsource, (hsame source hsource).2.mp hitem.holds, ?_⟩
  intro other hother hp
  rw [← (hsame source hsource).1, ← (hsame other hother).1]
  exact hitem.le (f other) (List.mem_map_of_mem hother) ((hsame other hother).2.mpr hp)

theorem Later.map
    (hsame : ∀ source ∈ sources, time (f source) = time' source ∧ (p (f source) ↔ p' source))
    {source : β} (hsource : Later time' p' sources source) :
    Later time p (sources.map f) (f source) := by
  refine ⟨List.mem_map_of_mem hsource.mem, ?_⟩
  intro item hitem hp
  obtain ⟨other, hother, rfl⟩ := List.mem_map.mp hitem
  rw [(hsame source hsource.mem).1, (hsame other hother).1]
  exact hsource.lt other hother ((hsame other hother).2.mp hp)

theorem Follows.of_map
    (hsame : ∀ source ∈ sources, time (f source) = time' source ∧ (p (f source) ↔ p' source))
    {item : α} (hitem : Follows time p (sources.map f) item) :
    ∃ source, f source = item ∧ Follows time' p' sources source := by
  obtain ⟨source, hsource, rfl⟩ := List.mem_map.mp hitem.mem
  refine ⟨source, rfl, hsource, fun hp => hitem.lacks ((hsame source hsource).2.mpr hp), ?_, ?_⟩
  · intro other hother hp
    rw [← (hsame source hsource).1, ← (hsame other hother).1]
    exact hitem.ge (f other) (List.mem_map_of_mem hother) ((hsame other hother).2.mpr hp)
  · intro other hother
    rw [← (hsame source hsource).1, ← (hsame other hother.mem).1]
    exact hitem.le (f other) (hother.map hsame)

end Mapped

section Choices

variable {time : α → τ} {rank : α → ℕ} {items sorted : List α}

/-- Sorting with a rank among ties is a way to sort. -/
theorem SortedBy.of_rank
    (hsorted : SortedBy (fun item => toLex (time item, rank item)) items sorted) :
    SortedBy time items sorted := by
  refine ⟨hsorted.perm, hsorted.pairwise.imp ?_⟩
  intro first second hle
  rcases Prod.Lex.toLex_le_toLex.mp hle with hlt | ⟨heq, -⟩
  · exact le_of_lt hlt
  · exact le_of_eq heq

variable {p : α → Prop} [DecidablePred p] {item : α}

/-- Ties can be broken so that nothing follows, unless something is later. -/
theorem exists_sortedBy_of_not_later (hitems : ∀ item, ¬ Later time p items item) :
    ∃ sorted, SortedBy time items sorted ∧
      (sorted.rtakeWhile fun item => ¬ p item).head? = none := by
  obtain ⟨sorted, hsorted⟩ := exists_sortedBy
    (fun other => toLex (time other, if p other then 1 else 0)) items
  refine ⟨sorted, hsorted.of_rank, ?_⟩
  rcases hhead : (sorted.rtakeWhile fun item => ¬ p item).head? with _ | item
  · rfl
  · have hitem := hsorted.follows hhead
    refine absurd ⟨hitem.mem, ?_⟩ (hitems item)
    intro other hother hp
    rcases Prod.Lex.toLex_le_toLex.mp (hitem.ge other hother hp) with hlt | ⟨-, hle⟩
    · exact hlt
    · exact absurd hle (by simp [hp, hitem.lacks])

/-- A rank that leaves no choice for what follows. -/
theorem exists_sortedBy_of_rank
    (hlater : Later (fun other => toLex (time other, rank other)) p items item)
    (hunique : ∀ first, Follows (fun other => toLex (time other, rank other)) p items first →
      first = item) :
    ∃ sorted, SortedBy time items sorted ∧
      (sorted.rtakeWhile fun item => ¬ p item).head? = some item := by
  obtain ⟨sorted, hsorted⟩ := exists_sortedBy (fun other => toLex (time other, rank other)) items
  refine ⟨sorted, hsorted.of_rank, ?_⟩
  rcases hhead : (sorted.rtakeWhile fun item => ¬ p item).head? with _ | first
  · exact absurd hlater (hsorted.not_later hhead item)
  · rw [hunique first (hsorted.follows hhead)]

variable [DecidableEq α]

/-- Ties can be broken in favour of any of the earliest items. -/
theorem Earliest.exists_sortedBy (hitem : Earliest time p items item) :
    ∃ sorted, SortedBy time items sorted ∧
      sorted.find? (fun item => p item) = some item := by
  obtain ⟨sorted, hsorted⟩ := TieOrder.exists_sortedBy
    (fun other => toLex (time other, if other = item then 0 else 1)) items
  refine ⟨sorted, hsorted.of_rank, ?_⟩
  rcases hfind : sorted.find? fun item => p item with _ | first
  · have hlacks := List.find?_eq_none.mp hfind item (hsorted.mem_iff.mpr hitem.mem)
    exact absurd hitem.holds (by simpa using hlacks)
  · have hfirst := hsorted.earliest hfind
    rcases Prod.Lex.toLex_le_toLex.mp (hfirst.le item hitem.mem hitem.holds) with hlt | ⟨-, hle⟩
    · exact absurd hlt (not_lt_of_ge (hitem.le first hfirst.mem hfirst.holds))
    · by_cases heq : first = item
      · rw [heq]
      · exact absurd hle (by simp [heq])

/-- Among the items that come at once after those with the property, any can be put
first. -/
theorem Follows.exists_sortedBy_of_later (hitem : Follows time p items item)
    (hlater : Later time p items item) :
    ∃ sorted, SortedBy time items sorted ∧
      (sorted.rtakeWhile fun item => ¬ p item).head? = some item := by
  have hrank : Later (fun other => toLex (time other,
      if other = item then 0 else if p other then 2 else 1)) p items item :=
    ⟨hlater.mem, fun other hother hp =>
      Prod.Lex.toLex_lt_toLex.mpr (.inl (hlater.lt other hother hp))⟩
  apply exists_sortedBy_of_rank hrank
  intro first hfirst
  by_contra hne
  have hfirstLater : Later time p items first := by
    refine ⟨hfirst.mem, fun other hother hp => ?_⟩
    rcases Prod.Lex.toLex_le_toLex.mp (hfirst.ge other hother hp) with hlt | ⟨-, hle⟩
    · exact hlt
    · have hother : other ≠ item := fun heq => hitem.lacks (heq ▸ hp)
      exact absurd hle (by simp [hne, hother, hp, hfirst.lacks])
  rcases Prod.Lex.toLex_le_toLex.mp (hfirst.le item hrank) with hlt | ⟨-, hle⟩
  · exact absurd hlt (not_lt_of_ge (hitem.le first hfirstLater))
  · exact absurd hle (by simp [hne, hfirst.lacks])

/-- Among the items that are tied with the last one with the property, any can be put
after all of these, and before whatever else follows. -/
theorem Follows.exists_sortedBy_of_tied (hitem : Follows time p items item) {last : α}
    (hlast : last ∈ items) (hp : p last) (htied : time item ≤ time last) :
    ∃ sorted, SortedBy time items sorted ∧
      (sorted.rtakeWhile fun item => ¬ p item).head? = some item := by
  have hne : ∀ other, p other → other ≠ item := fun other hother heq =>
    hitem.lacks (heq ▸ hother)
  have hrank : Later (fun other => toLex (time other,
      if other = item then 2 else if p other then 1 else 0)) p items item := by
    refine ⟨hitem.mem, fun other hother hp => ?_⟩
    apply Prod.Lex.toLex_lt_toLex.mpr
    rcases (hitem.ge other hother hp).lt_or_eq with hlt | heq
    · exact .inl hlt
    · exact .inr ⟨heq, by simp [hne other hp, hp]⟩
  apply exists_sortedBy_of_rank hrank
  intro first hfirst
  by_contra hother
  have hle : time first ≤ time item := Prod.Lex.monotone_fst _ _ (hfirst.le item hrank)
  rcases Prod.Lex.toLex_le_toLex.mp (hfirst.ge last hlast hp) with hlt | ⟨-, hrank⟩
  · exact absurd (hle.trans htied) (not_le_of_gt hlt)
  · exact absurd hrank (by simp [hne last hp, hp, hother, hfirst.lacks])

/-- Ties can be broken so that any item that may follow does. -/
theorem Follows.exists_sortedBy (hitem : Follows time p items item) :
    ∃ sorted, SortedBy time items sorted ∧
      (sorted.rtakeWhile fun item => ¬ p item).head? = some item := by
  by_cases htied : ∃ last ∈ items, p last ∧ time item ≤ time last
  · obtain ⟨last, hlast, hp, hle⟩ := htied
    exact hitem.exists_sortedBy_of_tied hlast hp hle
  · apply hitem.exists_sortedBy_of_later
    refine ⟨hitem.mem, fun other hother hp => ?_⟩
    exact lt_of_not_ge fun hle => htied ⟨other, hother, hp, hle⟩

end Choices

section Agreement

variable {time : α → τ} {p : α → Prop} [DecidableEq α] [DecidablePred p] {items : List α}
  {β : Type*}

/-- All ways to sort agree on the first item with a property exactly when the
earliest such items do. -/
theorem map_find?_eq_iff (f : α → β) :
    (∀ sorted sorted', SortedBy time items sorted → SortedBy time items sorted' →
      (sorted.find? fun item => p item).map f = (sorted'.find? fun item => p item).map f) ↔
      ∀ first second, Earliest time p items first → Earliest time p items second →
        f first = f second := by
  constructor
  · intro hagree first second hfirst hsecond
    obtain ⟨sorted, hsorted, hfind⟩ := hfirst.exists_sortedBy
    obtain ⟨sorted', hsorted', hfind'⟩ := hsecond.exists_sortedBy
    have heq := hagree sorted sorted' hsorted hsorted'
    rw [hfind, hfind'] at heq
    exact Option.some.inj heq
  · intro hagree sorted sorted' hsorted hsorted'
    have hmem : ∀ item, item ∈ sorted ↔ item ∈ sorted' := fun item =>
      hsorted.mem_iff.trans hsorted'.mem_iff.symm
    rcases hfind : sorted.find? fun item => p item with _ | first
    · have hnone : (sorted'.find? fun item => p item) = none := by
        rw [List.find?_eq_none] at hfind ⊢
        exact fun item hitem => hfind item ((hmem item).mpr hitem)
      rw [hnone]
    · rcases hfind' : sorted'.find? fun item => p item with _ | second
      · have hlacks := List.find?_eq_none.mp hfind' first
          ((hmem first).mp (List.mem_of_find?_eq_some hfind))
        exact absurd (List.find?_some hfind) hlacks
      · exact congrArg some (hagree first second (hsorted.earliest hfind)
          (hsorted'.earliest hfind'))

/-- All ways to sort agree on what follows the last item with a property exactly
when the items that may follow do, and there are none unless something is later. -/
theorem map_head?_rtakeWhile_eq_iff (f : α → β) :
    (∀ sorted sorted', SortedBy time items sorted → SortedBy time items sorted' →
      (sorted.rtakeWhile fun item => ¬ p item).head?.map f =
        (sorted'.rtakeWhile fun item => ¬ p item).head?.map f) ↔
      (∀ first second, Follows time p items first → Follows time p items second →
        f first = f second) ∧
      ∀ item, Follows time p items item → ∃ later, Later time p items later := by
  constructor
  · intro hagree
    refine ⟨fun first second hfirst hsecond => ?_, fun item hitem => ?_⟩
    · obtain ⟨sorted, hsorted, hhead⟩ := hfirst.exists_sortedBy
      obtain ⟨sorted', hsorted', hhead'⟩ := hsecond.exists_sortedBy
      have heq := hagree sorted sorted' hsorted hsorted'
      rw [hhead, hhead'] at heq
      exact Option.some.inj heq
    · by_contra hnone
      obtain ⟨sorted, hsorted, hhead⟩ := hitem.exists_sortedBy
      obtain ⟨sorted', hsorted', hhead'⟩ :=
        exists_sortedBy_of_not_later fun other hother => hnone ⟨other, hother⟩
      have heq := hagree sorted sorted' hsorted hsorted'
      rw [hhead, hhead'] at heq
      exact Option.some_ne_none _ heq
  · rintro ⟨hagree, hlater⟩ sorted sorted' hsorted hsorted'
    rcases hhead : (sorted.rtakeWhile fun item => ¬ p item).head? with _ | first <;>
      rcases hhead' : (sorted'.rtakeWhile fun item => ¬ p item).head? with _ | second
    · rfl
    · obtain ⟨later, hother⟩ := hlater second (hsorted'.follows hhead')
      exact absurd hother (hsorted.not_later hhead later)
    · obtain ⟨later, hother⟩ := hlater first (hsorted.follows hhead)
      exact absurd hother (hsorted'.not_later hhead' later)
    · exact congrArg some (hagree first second (hsorted.follows hhead)
        (hsorted'.follows hhead'))

end Agreement

end TieOrder
