import Mathlib.Algebra.BigOperators.Fin
import Mathlib.Algebra.Order.BigOperators.Group.Finset
import Mathlib.Data.Fintype.Perm

/-!
# Matchings inside permutations

A list of pairs of positions with distinct left and distinct right positions extends to a
permutation of any larger range, so the best permutation is at least as good as the best
matching. A cell of a padded square is real when both positions are; every permutation
meets as many real cells as there are positions on the shorter side, so a constant on the
real cells does not change which permutation is cheapest. All permutations cost the same
exactly when exchanging the columns of two rows never changes their cost.
-/

namespace BossWorker

open Equiv (Perm)

/-- Distinct pairs of positions below a bound are part of a permutation. -/
theorem exists_perm_extending {size : Nat} {pairs : List (Nat × Nat)}
    (left : (pairs.map Prod.fst).Nodup) (right : (pairs.map Prod.snd).Nodup)
    (bounded : ∀ pair ∈ pairs, pair.1 < size ∧ pair.2 < size) :
    ∃ σ : Perm (Fin size), ∀ pair ∈ pairs, ∀ inside : pair.1 < size,
      (σ ⟨pair.1, inside⟩ : Nat) = pair.2 := by
  induction pairs with
  | nil => exact ⟨1, nofun⟩
  | cons first pairs ih =>
    rw [List.map_cons, List.nodup_cons] at left right
    obtain ⟨σ, extending⟩ := ih left.2 right.2
      fun pair member => bounded pair (List.mem_cons_of_mem first member)
    obtain ⟨row, col⟩ := bounded first List.mem_cons_self
    -- moving the first pair into place disturbs no other pair
    refine ⟨Equiv.swap (σ ⟨first.1, row⟩) ⟨first.2, col⟩ * σ, ?_⟩
    intro pair member inside
    rw [Equiv.Perm.mul_apply]
    rcases List.mem_cons.mp member with rfl | later
    · rw [Equiv.swap_apply_left]
    · have known := extending pair later inside
      have notRow : σ ⟨pair.1, inside⟩ ≠ σ ⟨first.1, row⟩ := by
        intro same
        have equal : pair.1 = first.1 := congrArg Fin.val (σ.injective same)
        exact left.1 (equal ▸ List.mem_map_of_mem later)
      have notCol : σ ⟨pair.1, inside⟩ ≠ ⟨first.2, col⟩ := by
        intro same
        have equal : pair.2 = first.2 := known.symm.trans (congrArg Fin.val same)
        exact right.1 (equal ▸ List.mem_map_of_mem later)
      rw [Equiv.swap_apply_of_ne_of_ne notRow notCol, known]

/-- Gains collected along distinct pairs are part of those along a permutation. -/
theorem sum_pairs_le_sum_perm {size : Nat} (gain : Nat → Nat → Nat) {pairs : List (Nat × Nat)}
    (left : (pairs.map Prod.fst).Nodup) (σ : Perm (Fin size))
    (extending : ∀ pair ∈ pairs, ∃ inside : pair.1 < size,
      (σ ⟨pair.1, inside⟩ : Nat) = pair.2) :
    (pairs.map fun pair => gain pair.1 pair.2).sum ≤ ∑ i : Fin size, gain i (σ i) := by
  let along (i : Nat) : Nat := if inside : i < size then gain i (σ ⟨i, inside⟩) else 0
  have pairwise : (pairs.map fun pair => gain pair.1 pair.2) =
      (pairs.map Prod.fst).map along := by
    rw [List.map_map]
    apply List.map_congr_left
    intro pair member
    obtain ⟨inside, image⟩ := extending pair member
    simp only [Function.comp_apply, along, inside, dif_pos, image]
  have below : (pairs.map Prod.fst).toFinset ⊆ Finset.range size := by
    intro i member
    obtain ⟨pair, inside, rfl⟩ := List.mem_map.mp (List.mem_toFinset.mp member)
    exact Finset.mem_range.mpr (extending pair inside).1
  calc (pairs.map fun pair => gain pair.1 pair.2).sum
      = ∑ i ∈ (pairs.map Prod.fst).toFinset, along i := by
        rw [pairwise, List.sum_toFinset along left]
    _ ≤ ∑ i ∈ Finset.range size, along i := Finset.sum_le_sum_of_subset below
    _ = ∑ i : Fin size, gain i (σ i) := by
        rw [Finset.sum_range]
        apply Finset.sum_congr rfl
        intro i _
        simp only [along, i.isLt, dif_pos]

/-- A constant on the first positions of a range adds up to their number. -/
theorem sum_ite_lt {size count : Nat} (fits : count ≤ size) (value : ℤ) :
    ∑ i : Fin size, (if i.val < count then value else 0) = value * count := by
  have range : ∑ i : Fin size, (if i.val < count then value else 0) =
      ∑ i ∈ Finset.range size, if i < count then value else 0 :=
    (Finset.sum_range fun i => if i < count then value else 0).symm
  have inner : ∑ i ∈ Finset.range count, (if i < count then value else 0) =
      ∑ i ∈ Finset.range size, if i < count then value else 0 := by
    apply Finset.sum_subset (Finset.range_mono fits)
    intro i _ outside
    rw [if_neg (fun inside => outside (Finset.mem_range.mpr inside))]
  have all : ∑ i ∈ Finset.range count, (if i < count then value else 0) =
      ∑ _i ∈ Finset.range count, value := by
    apply Finset.sum_congr rfl
    intro i inside
    rw [if_pos (Finset.mem_range.mp inside)]
  rw [range, ← inner, all, Finset.sum_const, Finset.card_range, nsmul_eq_mul, mul_comm]

/-- Every permutation of the padded square meets the same number of real cells. -/
theorem sum_real_cells (rows cols : Nat) (value : ℤ) (σ : Perm (Fin (max rows cols))) :
    ∑ i, (if i.val < rows ∧ (σ i).val < cols then value else 0) =
      value * (min rows cols : Nat) := by
  rcases Nat.le_total rows cols with wide | tall
  · have columns (i : Fin (max rows cols)) : (σ i).val < cols :=
      Nat.lt_of_lt_of_eq (σ i).isLt (Nat.max_eq_right wide)
    simp only [columns, and_true, Nat.min_eq_left wide]
    exact sum_ite_lt (Nat.le_max_left rows cols) value
  · have lines (i : Fin (max rows cols)) : i.val < rows :=
      Nat.lt_of_lt_of_eq i.isLt (Nat.max_eq_left tall)
    simp only [lines, true_and, Nat.min_eq_right tall]
    rw [Equiv.sum_comp σ fun j => if j.val < cols then value else 0]
    exact sum_ite_lt (Nat.le_max_right rows cols) value

section Balanced

variable {size : Nat} {cost : Fin size → Fin size → Nat}

/-- Exchanging the columns of two rows never changes their cost. -/
def Balanced (cost : Fin size → Fin size → Nat) : Prop :=
  ∀ row other col second, cost row col + cost other second = cost row second + cost other col

/-- Where exchanges cost nothing, every permutation costs as much as the diagonal. -/
theorem Balanced.sum_eq (balanced : Balanced cost) (σ : Perm (Fin size)) :
    ∑ i, cost i (σ i) = ∑ i, cost i i := by
  by_cases empty : size = 0
  · subst empty
    rfl
  · -- a cell is the cost of its row and of its column, up to a constant
    let zero : Fin size := ⟨0, Nat.pos_of_ne_zero empty⟩
    have split (τ : Perm (Fin size)) : ∑ i, cost i (τ i) + ∑ _i : Fin size, cost zero zero =
        ∑ i, cost i zero + ∑ i, cost zero i := by
      rw [← Equiv.sum_comp τ (cost zero), ← Finset.sum_add_distrib, ← Finset.sum_add_distrib]
      apply Finset.sum_congr rfl
      intro i _
      exact balanced i zero (τ i) zero
    have left := split σ
    have right := split 1
    simp only [Equiv.Perm.one_apply] at right
    omega

/-- Exchanging the columns of two rows changes only their own cells. -/
theorem sum_mul_swap (cost : Fin size → Fin size → Nat) (σ : Perm (Fin size))
    {row other : Fin size} (apart : row ≠ other) :
    ∑ i, cost i (σ i) + (cost row (σ other) + cost other (σ row)) =
      ∑ i, cost i ((σ * Equiv.swap row other) i) +
        (cost row (σ row) + cost other (σ other)) := by
  let rest := (Finset.univ.erase row).erase other
  have apartRows : other ∈ Finset.univ.erase row :=
    Finset.mem_erase.mpr ⟨apart.symm, Finset.mem_univ other⟩
  have cells (τ : Perm (Fin size)) : ∑ i, cost i (τ i) =
      ∑ i ∈ rest, cost i (τ i) + cost other (τ other) + cost row (τ row) := by
    rw [← Finset.sum_erase_add _ _ (Finset.mem_univ row),
      ← Finset.sum_erase_add _ _ apartRows]
  have kept : ∑ i ∈ rest, cost i ((σ * Equiv.swap row other) i) =
      ∑ i ∈ rest, cost i (σ i) := by
    apply Finset.sum_congr rfl
    intro i inside
    have second := Finset.mem_erase.mp inside
    have first := Finset.mem_erase.mp second.2
    rw [Equiv.Perm.mul_apply, Equiv.swap_apply_of_ne_of_ne first.1 second.1]
  rw [cells σ, cells (σ * Equiv.swap row other), kept]
  simp only [Equiv.Perm.mul_apply, Equiv.swap_apply_left, Equiv.swap_apply_right]
  omega

/-- Where all permutations cost the same, exchanges cost nothing. -/
theorem balanced_of_sum_eq
    (same : ∀ σ τ : Perm (Fin size), ∑ i, cost i (σ i) = ∑ i, cost i (τ i)) :
    Balanced cost := by
  intro row other col second
  by_cases rows : row = other
  · rw [rows, Nat.add_comm]
  · by_cases cols : col = second
    · rw [cols]
    · -- some permutation meets both cells, and exchanging the columns is another
      have left : ([(row.val, col.val), (other.val, second.val)].map Prod.fst).Nodup := by
        simpa using fun equal => rows (Fin.ext equal)
      have right : ([(row.val, col.val), (other.val, second.val)].map Prod.snd).Nodup := by
        simpa using fun equal => cols (Fin.ext equal)
      have bounded : ∀ pair ∈ [(row.val, col.val), (other.val, second.val)],
          pair.1 < size ∧ pair.2 < size := by simp
      obtain ⟨σ, extending⟩ := exists_perm_extending left right bounded
      have first : σ row = col :=
        Fin.ext (extending (row.val, col.val) List.mem_cons_self row.isLt)
      have last : σ other = second :=
        Fin.ext (extending (other.val, second.val) (by simp) other.isLt)
      have exchanged := sum_mul_swap cost σ rows
      have equal := same σ (σ * Equiv.swap row other)
      rw [first, last] at exchanged
      omega

end Balanced

/-- The positions of a list hold the list. -/
theorem map_getD_range {α : Type} (entries : List α) (default : α) :
    (List.range entries.length).map (fun position => entries.getD position default) =
      entries := by
  apply List.ext_getElem
  · simp
  · intro i _ inside
    rw [List.getElem_map, List.getElem_range, List.getD_eq_getElem?_getD,
      List.getElem?_eq_getElem inside, Option.getD_some]

/-- What occurs no more often than in a list without repetition does not repeat. -/
theorem nodup_of_subperm {α : Type} {part all : List α} (within : part.Subperm all)
    (distinct : all.Nodup) : part.Nodup := by
  obtain ⟨order, same, sublist⟩ := within
  exact same.nodup_iff.mp (distinct.sublist sublist)

/-- What distinct positions of a list hold occurs no more often than in the list. -/
theorem map_getD_subperm {α : Type} (entries : List α) (default : α) {positions : List Nat}
    (distinct : positions.Nodup) (bounded : ∀ position ∈ positions, position < entries.length) :
    (positions.map fun position => entries.getD position default).Subperm entries := by
  have below : positions ⊆ List.range entries.length := by
    intro position member
    exact List.mem_range.mpr (bounded position member)
  obtain ⟨order, same, part⟩ := List.subperm_of_subset distinct below
  refine ⟨order.map fun position => entries.getD position default, same.map _, ?_⟩
  have listed := part.map fun position => entries.getD position default
  rwa [map_getD_range] at listed

/-- A view of what a list of items is looked up as is a view of the items. -/
theorem map_of_map_some {α β γ : Type} {items : List α} {found : List β} {look : α → Option β}
    (looked : found.map some = items.map look) {view : β → γ} {expected : α → γ}
    (agrees : ∀ item value, look item = some value → view value = expected item) :
    found.map view = items.map expected := by
  induction items generalizing found with
  | nil => rw [List.map_eq_nil_iff.mp looked]; rfl
  | cons item items ih =>
    cases found with
    | nil => contradiction
    | cons value found =>
      rw [List.map_cons, List.map_cons, List.cons.injEq] at looked
      rw [List.map_cons, List.map_cons, ih looked.2, agrees item value looked.1.symm]

/-- Every permutation is tried. -/
theorem mem_permsOfList_finRange {size : Nat} (τ : Perm (Fin size)) :
    τ ∈ permsOfList (List.finRange size) :=
  mem_permsOfList_of_mem fun _ _ => List.mem_finRange _

/-- A cheapest permutation, found by trying all of them. -/
def cheapest {size : Nat} (cost : Perm (Fin size) → ℤ) : Perm (Fin size) :=
  (permsOfList (List.finRange size)).minOn cost
    (List.ne_nil_of_mem (mem_permsOfList_finRange 1))

/-- No permutation is cheaper than the cheapest. -/
theorem cost_cheapest_le {size : Nat} (cost : Perm (Fin size) → ℤ) (τ : Perm (Fin size)) :
    cost (cheapest cost) ≤ cost τ :=
  List.apply_minOn_le_of_mem (mem_permsOfList_finRange τ)

end BossWorker
