import Mathlib.Algebra.GroupWithZero.Nat
import Mathlib.Data.List.Induction

/-!
# Greedy packing

Items of given sizes arrive in order and each is packed exactly when it still fits into
the room that is left. Sizes are natural numbers, so nothing overflows. More room packs
no less: the first item that only the larger room takes already exceeds the smaller one.
-/

namespace BossWorker

/-- The size packed once one more item has arrived. -/
def pack (room used size : Nat) : Nat := if used + size ≤ room then used + size else used

/-- The size packed from a list of items. -/
def packed (room : Nat) (sizes : List Nat) : Nat := sizes.foldl (pack room) 0

/-- The last item is packed onto the others. -/
theorem packed_concat (room : Nat) (sizes : List Nat) (size : Nat) :
    packed room (sizes ++ [size]) = pack room (packed room sizes) size := by
  simp only [packed, List.foldl_append, List.foldl_cons, List.foldl_nil]

/-- What is packed fits into the room. -/
theorem packed_le (room : Nat) (sizes : List Nat) : packed room sizes ≤ room := by
  induction sizes using List.reverseRecOn with
  | nil => exact Nat.zero_le room
  | append_singleton sizes size ih =>
    rw [packed_concat, pack]
    split
    · assumption
    · exact ih

/-- No more is packed than arrives. -/
theorem packed_le_sum (room : Nat) (sizes : List Nat) : packed room sizes ≤ sizes.sum := by
  induction sizes using List.reverseRecOn with
  | nil => exact Nat.le_refl _
  | append_singleton sizes size ih =>
    rw [packed_concat, pack, List.sum_append, List.sum_singleton]
    split <;> omega

/-- Another item takes nothing out. -/
theorem le_pack (room used size : Nat) : used ≤ pack room used size := by
  unfold pack
  split <;> omega

/-- As long as a larger room has not packed more than the smaller one can hold, both have
packed the same. -/
theorem packed_eq_or_lt {room more : Nat} (larger : room ≤ more) (sizes : List Nat) :
    packed room sizes = packed more sizes ∨ room < packed more sizes := by
  induction sizes using List.reverseRecOn with
  | nil => exact Or.inl rfl
  | append_singleton sizes size ih =>
    have grows := le_pack more (packed more sizes) size
    rw [packed_concat, packed_concat]
    rcases ih with same | past
    · rw [same]
      by_cases fits : packed more sizes + size ≤ room
      · have also : packed more sizes + size ≤ more := by omega
        rw [pack, pack, if_pos fits, if_pos also]
        exact Or.inl rfl
      · -- here the runs part: the item the larger room takes exceeds the smaller one
        rw [pack, pack, if_neg fits]
        by_cases also : packed more sizes + size ≤ more
        · rw [if_pos also]
          exact Or.inr (by omega)
        · rw [if_neg also]
          exact Or.inl rfl
    · exact Or.inr (by omega)

/-- More room packs no less. -/
theorem packed_mono {room more : Nat} (larger : room ≤ more) (sizes : List Nat) :
    packed room sizes ≤ packed more sizes := by
  have bound := packed_le room sizes
  have parted := packed_eq_or_lt larger sizes
  omega

/-- Whether each item is packed as it arrives. -/
def admitted (room used : Nat) : List Nat → List Bool
  | [] => []
  | size :: sizes => decide (used + size ≤ room) :: admitted room (pack room used size) sizes

/-- Every item is decided on. -/
theorem length_admitted (room used : Nat) (sizes : List Nat) :
    (admitted room used sizes).length = sizes.length := by
  induction sizes generalizing used with
  | nil => rfl
  | cons size sizes ih => rw [admitted, List.length_cons, List.length_cons, ih]

/-- Later items are decided on with the earlier ones packed. -/
theorem admitted_append (room used : Nat) (front back : List Nat) :
    admitted room used (front ++ back) =
      admitted room used front ++ admitted room (front.foldl (pack room) used) back := by
  induction front generalizing used with
  | nil => rfl
  | cons size front ih => simp only [List.cons_append, admitted, ih, List.foldl_cons]

section Kept

variable {α β : Type}

/-- The items whose flag is set, in order. -/
def kept (flags : List Bool) (items : List α) : List α :=
  ((items.zip flags).filter Prod.snd).map Prod.fst

/-- Two parts that match their flags are kept one after the other. -/
theorem kept_append {flags : List Bool} {front : List α} (same : flags.length = front.length)
    (more : List Bool) (back : List α) :
    kept (flags ++ more) (front ++ back) = kept flags front ++ kept more back := by
  rw [kept, List.zip_append same.symm, List.filter_append, List.map_append, kept, kept]

/-- Flags past the end of the items do not count. -/
theorem kept_append_left {flags : List Bool} {front : List α}
    (same : flags.length = front.length) (more : List Bool) :
    kept (flags ++ more) front = kept flags front := by
  have parts := kept_append same more []
  rwa [List.append_nil, kept, kept, kept, List.zip_nil_left, List.filter_nil, List.map_nil,
    List.append_nil] at parts

/-- A single item is kept when its flag is set. -/
theorem kept_singleton (flag : Bool) (item : α) :
    kept [flag] [item] = if flag then [item] else [] := by
  cases flag <;> rfl

/-- The images of what is kept are what is kept of the images. -/
theorem map_kept (view : α → β) (flags : List Bool) (items : List α) :
    (kept flags items).map view = kept flags (items.map view) := by
  simp only [kept, List.zip_map_left, List.filter_map, List.map_map]
  rfl

end Kept

section Decided

variable (room : Nat) (sizes : List Nat)

/-- The last item is decided on with the others packed. -/
theorem admitted_concat (size : Nat) : admitted room 0 (sizes ++ [size]) =
    admitted room 0 sizes ++ [decide (packed room sizes + size ≤ room)] :=
  admitted_append room 0 sizes [size]

/-- What is packed is the sum of the items admitted. -/
theorem sum_kept_admitted : (kept (admitted room 0 sizes) sizes).sum = packed room sizes := by
  induction sizes using List.reverseRecOn with
  | nil => rfl
  | append_singleton sizes size ih =>
    rw [admitted_concat, kept_append (length_admitted _ _ _), List.sum_append, ih, kept_singleton,
      packed_concat, pack]
    by_cases fits : packed room sizes + size ≤ room <;> simp [fits]

/-- An item that is not admitted would not fit at the end either. -/
theorem lt_packed_add_of_not_admitted :
    ∀ size ∈ kept ((admitted room 0 sizes).map not) sizes, room < packed room sizes + size := by
  induction sizes using List.reverseRecOn with
  | nil => exact fun size member => absurd member List.not_mem_nil
  | append_singleton sizes size ih =>
    have same : ((admitted room 0 sizes).map not).length = sizes.length := by
      rw [List.length_map, length_admitted]
    have grows := le_pack room (packed room sizes) size
    rw [admitted_concat, List.map_append, List.map_singleton, kept_append same, kept_singleton,
      packed_concat]
    intro other member
    rcases List.mem_append.mp member with earlier | last
    · have bound := ih other earlier
      omega
    · by_cases fits : packed room sizes + size ≤ room
      · simp [fits] at last
      · simp only [fits, decide_false, Bool.not_false, if_true, List.mem_singleton] at last
        omega

end Decided

end BossWorker
