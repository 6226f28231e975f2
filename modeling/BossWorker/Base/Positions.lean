import Mathlib.Algebra.GroupWithZero.Nat
import Mathlib.Data.List.Induction
import Mathlib.Data.List.Nodup
import Mathlib.Data.List.Perm.Basic

/-!
# Lists changed at a position

A list of things under way, each of which is replaced as it goes on and removed when it is
done. What all of them contribute, a number or a list up to order, changes by what the
one at the position contributes before and after.
-/

namespace BossWorker

variable {α β : Type} {items : List α} {index : Nat} {item : α}

/-- The item at a position in front of the others. -/
theorem cons_eraseIdx_perm (found : items[index]? = some item) :
    (item :: items.eraseIdx index).Perm items := by
  obtain ⟨inside, rfl⟩ := List.getElem?_eq_some_iff.mp found
  exact List.getElem_cons_eraseIdx_perm inside

/-- The new item at a position in front of the others. -/
theorem set_perm_cons (found : items[index]? = some item) (next : α) :
    (items.set index next).Perm (next :: items.eraseIdx index) :=
  List.set_perm_cons_eraseIdx (List.getElem?_eq_some_iff.mp found).1 next

/-- Replacing an item by itself changes nothing. -/
theorem set_eq_self (found : items[index]? = some item) : items.set index item = items := by
  obtain ⟨inside, rfl⟩ := List.getElem?_eq_some_iff.mp found
  exact List.set_getElem_self inside

section Lists

variable (part : α → List β)

/-- Removing an item removes its part. -/
theorem flatMap_eraseIdx_perm (found : items[index]? = some item) :
    (part item ++ (items.eraseIdx index).flatMap part).Perm (items.flatMap part) :=
  (cons_eraseIdx_perm found).flatMap_right part

/-- Replacing an item replaces its part. -/
theorem flatMap_set_perm (found : items[index]? = some item) (next : α) :
    (part item ++ (items.set index next).flatMap part).Perm
      (part next ++ items.flatMap part) := by
  have replaced := (set_perm_cons found next).flatMap_right part
  have removed := flatMap_eraseIdx_perm part found
  rw [List.flatMap_cons] at replaced
  refine (replaced.append_left _).trans ?_
  refine List.perm_append_comm_assoc _ _ _ |>.trans ?_
  exact removed.append_left _

/-- Replacing an item by one with the same part changes nothing but the order. -/
theorem flatMap_set_perm_of_eq (found : items[index]? = some item) {next : α}
    (same : part next = part item) :
    ((items.set index next).flatMap part).Perm (items.flatMap part) := by
  have replaced := flatMap_set_perm part found next
  rw [same] at replaced
  exact (List.perm_append_left_iff _).mp replaced

/-- The parts before, at and behind a position. -/
theorem flatMap_split (found : items[index]? = some item) :
    items.flatMap part = (items.take index).flatMap part ++
      (part item ++ (items.drop (index + 1)).flatMap part) := by
  obtain ⟨inside, rfl⟩ := List.getElem?_eq_some_iff.mp found
  have whole := List.take_append_drop index items
  rw [List.drop_eq_getElem_cons inside] at whole
  rw [← List.flatMap_cons, ← List.flatMap_append, whole]

/-- The parts before, at and behind a position after a replacement. -/
theorem flatMap_set (found : items[index]? = some item) (next : α) :
    (items.set index next).flatMap part = (items.take index).flatMap part ++
      (part next ++ (items.drop (index + 1)).flatMap part) := by
  have inside := (List.getElem?_eq_some_iff.mp found).1
  rw [List.set_eq_take_append_cons_drop, if_pos inside, List.flatMap_append, List.flatMap_cons]

/-- The parts before and behind a position that is removed. -/
theorem flatMap_eraseIdx :
    (items.eraseIdx index).flatMap part = (items.take index).flatMap part ++
      (items.drop (index + 1)).flatMap part := by
  rw [List.eraseIdx_eq_take_drop_succ, List.flatMap_append]

end Lists

/-- Lists that are not empty are no more than their entries. -/
theorem length_le_length_flatMap {part : α → List β}
    (each : ∀ item ∈ items, 1 ≤ (part item).length) :
    items.length ≤ (items.flatMap part).length := by
  induction items with
  | nil => exact Nat.le_refl _
  | cons item items ih =>
    rw [List.forall_mem_cons] at each
    have rest := ih each.2
    rw [List.flatMap_cons, List.length_append, List.length_cons]
    omega

/-- Parts of the entries are parts of the whole. -/
theorem sublist_flatMap {part whole : α → List β}
    (each : ∀ item ∈ items, (part item).Sublist (whole item)) :
    (items.flatMap part).Sublist (items.flatMap whole) := by
  induction items with
  | nil => exact List.Sublist.refl _
  | cons item items ih =>
    rw [List.forall_mem_cons] at each
    rw [List.flatMap_cons, List.flatMap_cons]
    exact each.1.append (ih each.2)

/-- Labels that are distinct within every list are distinct among all, with the numbers of
the lists. -/
theorem nodup_map_flatMap_zipIdx {α β γ : Type} (part : α → List β) (label : β → γ)
    {items : List α} (each : ∀ item ∈ items, ((part item).map label).Nodup) :
    ((items.zipIdx.flatMap fun item => (part item.1).map fun entry => (item.2, entry)).map
      fun pair => (pair.1, label pair.2)).Nodup := by
  induction items using List.reverseRecOn with
  | nil => exact List.nodup_nil
  | append_singleton items item ih =>
    rw [List.forall_mem_append, List.forall_mem_singleton] at each
    rw [List.zipIdx_append, List.flatMap_append, List.map_append, List.nodup_append,
      List.zipIdx_singleton, List.flatMap_singleton, List.map_map]
    refine ⟨ih each.1, ?_, ?_⟩
    · have apart := each.2.map fun (first second : γ)
        (same : (items.length, first) = (items.length, second)) => (Prod.mk.inj same).2
      rw [List.map_map] at apart
      rw [Nat.zero_add]
      exact apart
    · intro old before new after same
      obtain ⟨pair, listed, rfl⟩ := List.mem_map.mp before
      obtain ⟨entry, _, rfl⟩ := List.mem_map.mp after
      obtain ⟨numbered, place, found⟩ := List.mem_flatMap.mp listed
      obtain ⟨_, _, rfl⟩ := List.mem_map.mp found
      have inside := List.snd_lt_of_mem_zipIdx place
      have number : numbered.2 = 0 + items.length := (Prod.mk.inj same).1
      omega

section Numbers

variable (weight : α → Nat)

/-- What the items weigh together. -/
def load (items : List α) : Nat := (items.map weight).sum

@[simp] theorem load_nil : load weight ([] : List α) = 0 := rfl

@[simp] theorem load_cons (item : α) (items : List α) :
    load weight (item :: items) = weight item + load weight items := by
  simp only [load, List.map_cons, List.sum_cons]

/-- The order does not matter. -/
theorem load_perm {first second : List α} (same : first.Perm second) :
    load weight first = load weight second :=
  (same.map weight).sum_nat

/-- Removing an item removes its weight. -/
theorem load_eraseIdx (found : items[index]? = some item) :
    weight item + load weight (items.eraseIdx index) = load weight items := by
  rw [← load_cons]
  exact load_perm weight (cons_eraseIdx_perm found)

/-- Replacing an item replaces its weight. -/
theorem load_set (found : items[index]? = some item) (next : α) :
    weight item + load weight (items.set index next) = weight next + load weight items := by
  have replaced := load_perm weight (set_perm_cons found next)
  have removed := load_eraseIdx weight found
  rw [load_cons] at replaced
  omega

/-- Only a list without weight has items without weight. -/
theorem weight_eq_zero_of_load (light : load weight items = 0) (member : item ∈ items) :
    weight item = 0 := by
  obtain ⟨index, found⟩ := List.mem_iff_getElem?.mp member
  have removed := load_eraseIdx weight found
  omega

end Numbers

section Counting

variable (counted : α → Bool)

/-- Replacing an item replaces what it counts. -/
theorem countP_set_add (found : items[index]? = some item) (next : α) :
    (items.set index next).countP counted + (if counted item then 1 else 0) =
      items.countP counted + if counted next then 1 else 0 := by
  have replaced := (set_perm_cons found next).countP_eq counted
  have removed := (cons_eraseIdx_perm found).countP_eq counted
  rw [List.countP_cons] at replaced removed
  omega

end Counting

/-- What holds of all items and of the new one holds of all items afterwards. -/
theorem forall_mem_set {holds : α → Prop} (all : ∀ item ∈ items, holds item) {next : α}
    (fresh : holds next) : ∀ item ∈ items.set index next, holds item := by
  intro item member
  cases List.mem_or_eq_of_mem_set member with
  | inl old => exact all item old
  | inr new => rw [new]; exact fresh

/-- What holds of all items holds of those that are left. -/
theorem forall_mem_eraseIdx {holds : α → Prop} (all : ∀ item ∈ items, holds item)
    (index : Nat) : ∀ item ∈ items.eraseIdx index, holds item :=
  fun item member => all item (List.mem_of_mem_eraseIdx member)

end BossWorker
