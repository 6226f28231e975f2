import Mathlib.Data.List.Pairwise
import Mathlib.Data.List.Sort
import Mathlib.Order.WithBot
import Mathlib.Data.Prod.Lex

/-!
# Stable ranking by a key

`sortByKey` is the stable ascending sort both languages offer; a selection takes its
first entries. A selection is determined by the set of candidates as soon as no two of
them share a key, it ranks no rejected candidate before a chosen one, and a renaming of
the candidates that keeps their order commutes with it. Two keys select alike exactly when
whoever a chosen candidate is ahead of by the one stays behind by the other.
-/

namespace BossWorker

section Ranking

variable {α β κ μ : Type} [LinearOrder κ] [LinearOrder μ]

/-- Stable ascending sort by a key. -/
def sortByKey (key : α → κ) (items : List α) : List α :=
  items.insertionSort fun left right => key left ≤ key right

/-- Sorting rearranges. -/
theorem sortByKey_perm (key : α → κ) (items : List α) : (sortByKey key items).Perm items :=
  List.perm_insertionSort _ items

/-- Sorting puts smaller keys first. -/
theorem sortByKey_pairwise (key : α → κ) (items : List α) :
    (sortByKey key items).Pairwise fun left right => key left ≤ key right := by
  have total : Std.Total fun left right : α => key left ≤ key right :=
    ⟨fun left right => le_total (key left) (key right)⟩
  have transitive : IsTrans α fun left right => key left ≤ key right :=
    ⟨fun _ _ _ first second => le_trans first second⟩
  exact List.pairwise_insertionSort _ items

/-- Candidates with distinct keys sort the same way whatever their order. -/
theorem sortByKey_eq_of_perm (key : α → κ) {items other : List α} (same : items.Perm other)
    (distinct : ∀ a ∈ items, ∀ b ∈ items, key a = key b → a = b) :
    sortByKey key items = sortByKey key other := by
  have rearranged : (sortByKey key items).Perm (sortByKey key other) :=
    (sortByKey_perm key items).trans (same.trans (sortByKey_perm key other).symm)
  apply List.Perm.eq_of_pairwise _ (sortByKey_pairwise key items)
    (sortByKey_pairwise key other) rearranged
  intro a b inside outside below above
  exact distinct a ((sortByKey_perm key items).mem_iff.mp inside) b
    (same.mem_iff.mpr ((sortByKey_perm key other).mem_iff.mp outside)) (le_antisymm below above)

/-- A renaming that keeps the order of the keys commutes with sorting. -/
theorem map_sortByKey (key : α → κ) (other : β → μ) (rename : α → β) (items : List α)
    (agree : ∀ a ∈ items, ∀ b ∈ items, key a ≤ key b ↔ other (rename a) ≤ other (rename b)) :
    (sortByKey key items).map rename = sortByKey other (items.map rename) :=
  List.map_insertionSort _ _ rename items agree

/-- A selection has as many entries as there are places and candidates for them. -/
theorem length_take_sortByKey (key : α → κ) (places : Nat) (items : List α) :
    ((sortByKey key items).take places).length = min places items.length := by
  rw [List.length_take, (sortByKey_perm key items).length_eq]

/-- Only candidates are selected. -/
theorem mem_of_mem_take_sortByKey {key : α → κ} {places : Nat} {items : List α} {a : α}
    (chosen : a ∈ (sortByKey key items).take places) : a ∈ items :=
  (sortByKey_perm key items).mem_iff.mp (List.mem_of_mem_take chosen)

/-- Distinct images of the candidates stay distinct in a selection. -/
theorem nodup_map_take_sortByKey {γ : Type} (key : α → κ) (places : Nat) (items : List α)
    (label : α → γ) (distinct : (items.map label).Nodup) :
    (((sortByKey key items).take places).map label).Nodup := by
  have sorted := ((sortByKey_perm key items).map label).nodup_iff.mpr distinct
  exact sorted.sublist ((List.take_sublist _ _).map label)

/-- Selections of candidates with distinct images are the same when their images are. -/
theorem map_inj_of_mem {γ : Type} {label : α → γ} {items left right : List α}
    (distinct : ∀ a ∈ items, ∀ b ∈ items, label a = label b → a = b)
    (inside : ∀ a ∈ left, a ∈ items) (other : ∀ b ∈ right, b ∈ items) :
    left.map label = right.map label ↔ left = right := by
  refine ⟨fun same => ?_, congrArg _⟩
  have size : left.length = right.length := by
    simpa only [List.length_map] using congrArg List.length same
  apply List.ext_getElem size
  intro i first second
  have place : label left[i] = label right[i] := by
    simpa only [List.getElem?_map, List.getElem?_eq_getElem first,
      List.getElem?_eq_getElem second, Option.map_some, Option.some.injEq] using
      congrArg (·[i]?) same
  exact distinct _ (inside _ (List.getElem_mem first)) _ (other _ (List.getElem_mem second)) place

/-- A rejected candidate ranks no lower than any chosen one. -/
theorem key_le_of_not_mem_take {key : α → κ} {places : Nat} {items : List α} {a b : α}
    (chosen : a ∈ (sortByKey key items).take places) (candidate : b ∈ items)
    (rejected : b ∉ (sortByKey key items).take places) : key a ≤ key b := by
  have sorted := sortByKey_pairwise key items
  rw [← List.take_append_drop places (sortByKey key items), List.pairwise_append] at sorted
  have inside := (sortByKey_perm key items).mem_iff.mpr candidate
  rw [← List.take_append_drop places (sortByKey key items), List.mem_append] at inside
  exact sorted.2.2 a chosen b (inside.resolve_left rejected)

/-- Distinct candidates with distinct keys are sorted strictly. -/
theorem sortByKey_strict (key : α → κ) {items : List α} (nodup : items.Nodup)
    (distinct : ∀ a ∈ items, ∀ b ∈ items, key a = key b → a = b) :
    (sortByKey key items).Pairwise fun left right => key left < key right := by
  have rearranged := sortByKey_perm key items
  have different : (sortByKey key items).Pairwise fun left right => left ≠ right :=
    rearranged.nodup_iff.mpr nodup
  refine ((sortByKey_pairwise key items).and different).imp_of_mem ?_
  intro a b inside other apart
  have unequal : key a ≠ key b := fun same =>
    apart.2 (distinct a (rearranged.mem_iff.mp inside) b (rearranged.mem_iff.mp other) same)
  exact lt_of_le_of_ne apart.1 unequal

/-- A list of so many candidates with the smallest keys, in increasing order. -/
structure IsSmallest (key : α → κ) (places : Nat) (items chosen : List α) : Prop where
  /-- As many as there are places and candidates for them. -/
  length : chosen.length = min places items.length
  /-- Only candidates. -/
  candidates : ∀ a ∈ chosen, a ∈ items
  /-- In strictly increasing order. -/
  increasing : chosen.Pairwise fun left right => key left < key right
  /-- Everybody left out is strictly greater. -/
  smallest : ∀ a ∈ chosen, ∀ b ∈ items, b ∉ chosen → key a < key b

/-- A selection among distinct candidates with distinct keys has the smallest ones. -/
theorem take_sortByKey_isSmallest (key : α → κ) (places : Nat) {items : List α}
    (nodup : items.Nodup) (distinct : ∀ a ∈ items, ∀ b ∈ items, key a = key b → a = b) :
    IsSmallest key places items ((sortByKey key items).take places) where
  length := length_take_sortByKey key places items
  candidates a chosen := mem_of_mem_take_sortByKey chosen
  increasing := (sortByKey_strict key nodup distinct).sublist (List.take_sublist _ _)
  smallest a chosen b candidate rejected := by
    have least := key_le_of_not_mem_take chosen candidate rejected
    have unequal : key a ≠ key b := fun same =>
      rejected (distinct a (mem_of_mem_take_sortByKey chosen) b candidate same ▸ chosen)
    exact lt_of_le_of_ne least unequal

section Rivals

variable {first second : α → κ} {items : List α} {places : Nat}

/-- Whoever a chosen candidate ranks ahead of by one key is still behind by another. -/
def StaysAhead (first second : α → κ) (places : Nat) (items : List α) : Prop :=
  ∀ a ∈ (sortByKey first items).take places, ∀ b ∈ items, first a < first b → second a < second b

/-- Candidates chosen alike by two keys stay ahead. -/
theorem staysAhead_of_take_eq (nodup : items.Nodup)
    (distinct : ∀ a ∈ items, ∀ b ∈ items, first a = first b → a = b)
    (apart : ∀ a ∈ items, ∀ b ∈ items, second a = second b → a = b)
    (same : (sortByKey first items).take places = (sortByKey second items).take places) :
    StaysAhead first second places items := by
  intro a chosen b candidate ahead
  have other := take_sortByKey_isSmallest second places nodup apart
  rw [← same] at other
  by_cases inside : b ∈ (sortByKey first items).take places
  · -- one list increases by both keys, so it orders its members alike
    let agree (left right : α) : Prop := (first left < first right → second left < second right) ∧
      (first right < first left → second right < second left)
    have increasing := (take_sortByKey_isSmallest first places nodup distinct).increasing
    have alike : ((sortByKey first items).take places).Pairwise agree := by
      refine (increasing.and other.increasing).imp ?_
      exact fun both => ⟨fun _ => both.2, fun above => absurd above both.1.not_gt⟩
    have symmetric : Std.Symm agree := ⟨fun _ _ both => ⟨both.2, both.1⟩⟩
    have irreflexive : ∀ a ∈ (sortByKey first items).take places, agree a a :=
      fun a _ => ⟨fun below => absurd below (lt_irrefl _), fun below => absurd below (lt_irrefl _)⟩
    exact (List.Pairwise.forall_of_forall irreflexive alike chosen inside).1 ahead
  · exact other.smallest a chosen b candidate inside

/-- Candidates who stay ahead by another key are chosen by it, in the same order. -/
theorem take_eq_of_staysAhead
    (distinct : ∀ a ∈ items, ∀ b ∈ items, first a = first b → a = b)
    (apart : ∀ a ∈ items, ∀ b ∈ items, second a = second b → a = b)
    (ahead : StaysAhead first second places items) :
    (sortByKey first items).take places = (sortByKey second items).take places := by
  have rearranged := sortByKey_perm first items
  have sorted := sortByKey_pairwise first items
  rw [← List.take_append_drop places (sortByKey first items)] at rearranged sorted
  rw [List.pairwise_append] at sorted
  -- the chosen candidates and then the others by the second key are sorted by that key
  let others := sortByKey second ((sortByKey first items).drop places)
  have whole : ((sortByKey first items).take places ++ others).Perm items :=
    ((sortByKey_perm second _).append_left _).trans rearranged
  have lifted {a b : α} (chosen : a ∈ (sortByKey first items).take places) (candidate : b ∈ items)
      (below : first a ≤ first b) : second a ≤ second b := by
    rcases lt_or_eq_of_le below with less | equal
    · exact (ahead a chosen b candidate less).le
    · rw [distinct a (mem_of_mem_take_sortByKey chosen) b candidate equal]
  have ordered : ((sortByKey first items).take places ++ others).Pairwise
      fun left right => second left ≤ second right := by
    rw [List.pairwise_append]
    refine ⟨sorted.1.imp_of_mem fun chosen other below =>
      lifted chosen (mem_of_mem_take_sortByKey other) below, sortByKey_pairwise second _, ?_⟩
    intro a chosen b later
    have dropped := (sortByKey_perm second _).mem_iff.mp later
    exact lifted chosen (rearranged.mem_iff.mp (List.mem_append_right _ dropped))
      (sorted.2.2 a chosen b dropped)
  have unique : sortByKey second items = (sortByKey first items).take places ++ others := by
    refine List.Perm.eq_of_pairwise ?_ (sortByKey_pairwise second items) ordered
      ((sortByKey_perm second items).trans whole.symm)
    intro a b inside other below above
    exact apart a ((sortByKey_perm second items).mem_iff.mp inside) b (whole.mem_iff.mp other)
      (le_antisymm below above)
  rw [unique, List.take_append, List.take_take, min_self, List.length_take]
  rcases Nat.le_total places (sortByKey first items).length with fits | short
  · rw [Nat.min_eq_left fits, Nat.sub_self, List.take_zero, List.append_nil]
  · have nobody : others = [] := by
      have none_left : (sortByKey first items).drop places = [] := List.drop_eq_nil_of_le short
      simp only [others, none_left]
      rfl
    rw [nobody, List.take_nil, List.append_nil]

/-- Two keys choose alike exactly when the candidates chosen by one stay ahead by the
other. -/
theorem take_sortByKey_eq_iff (nodup : items.Nodup)
    (distinct : ∀ a ∈ items, ∀ b ∈ items, first a = first b → a = b)
    (apart : ∀ a ∈ items, ∀ b ∈ items, second a = second b → a = b) :
    (sortByKey first items).take places = (sortByKey second items).take places ↔
      StaysAhead first second places items :=
  ⟨staysAhead_of_take_eq nodup distinct apart, take_eq_of_staysAhead distinct apart⟩

end Rivals

/-- Against keys above a least one, the least one as a default ranks like absence. -/
theorem toLex_unbotD_le_iff {least : κ} {left right : WithBot κ} (first second : Nat)
    (above : ∀ value : κ, left = value → least < value)
    (beyond : ∀ value : κ, right = value → least < value) :
    toLex (left.unbotD least, first) ≤ toLex (right.unbotD least, second) ↔
      toLex (left, first) ≤ toLex (right, second) := by
  have same : (left.unbotD least < right.unbotD least ↔ left < right) ∧
      (left.unbotD least = right.unbotD least ↔ left = right) := by
    cases left with
    | bot =>
      cases right with
      | bot => simp
      | coe value =>
        have bound := beyond value rfl
        simp [bound, bound.ne, WithBot.bot_lt_coe]
    | coe value =>
      have bound := above value rfl
      cases right with
      | bot => simp [bound.not_gt, bound.ne']
      | coe other => simp
  rw [Prod.Lex.toLex_le_toLex, Prod.Lex.toLex_le_toLex]
  exact or_congr same.1 (and_congr_left' same.2)

end Ranking

end BossWorker
