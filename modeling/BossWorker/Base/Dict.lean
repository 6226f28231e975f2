import Mathlib.Data.List.Nodup
import Mathlib.Data.List.Perm.Basic
import Mathlib.Order.WithBot

/-!
# Insertion-ordered dictionaries

A dictionary is a list of key-value pairs whose keys are distinct. Assignment to a
present key replaces the value in place and assignment to a new key appends, so the
entries stand in the order in which their keys first arrived. A hash map is read
through the same structure by way of an `Enumeration`, an arbitrary rearrangement of
what the entries list: nothing may then depend on the stored order. Values that stand
under labels of their own, or that carry stamps counting up, stay distinct under insertion.
-/

namespace BossWorker

/-- A finite map with its keys in order of first arrival. -/
structure Dict (κ ν : Type) where
  /-- Key-value pairs, oldest key first. -/
  entries : List (κ × ν)
  /-- No key is stored twice. -/
  distinct : (entries.map Prod.fst).Nodup
  deriving DecidableEq

/-- An order in which a hash map may hand out its contents: any rearrangement. -/
structure Enumeration (α : Type) where
  /-- The contents as one iteration yields them. -/
  arrange : List α → List α
  /-- Iteration yields every element exactly once. -/
  complete : ∀ items, (arrange items).Perm items

/-- The enumeration that keeps the stored order. -/
def Enumeration.stored (α : Type) : Enumeration α := ⟨id, fun _ => List.Perm.refl _⟩

/-- The enumeration that reverses the stored order. -/
def Enumeration.reversed (α : Type) : Enumeration α := ⟨List.reverse, List.reverse_perm⟩

namespace Dict

variable {κ ν : Type}

/-- The dictionary without entries. -/
def empty : Dict κ ν := ⟨[], List.nodup_nil⟩

/-- Keys in order of first arrival. -/
def keys (d : Dict κ ν) : List κ := d.entries.map Prod.fst

/-- Values in the order of their keys. -/
def values (d : Dict κ ν) : List ν := d.entries.map Prod.snd

/-- The keys of a dictionary are distinct. -/
theorem keys_nodup (d : Dict κ ν) : d.keys.Nodup := d.distinct

/-- A value is stored for every key and for nothing else. -/
theorem length_values (d : Dict κ ν) : d.values.length = d.keys.length := by
  simp only [values, keys, List.length_map]

/-- The values are exactly the second components of the entries. -/
theorem mem_values_iff (d : Dict κ ν) (value : ν) :
    value ∈ d.values ↔ ∃ key, (key, value) ∈ d.entries := by
  simp only [values, List.mem_map, Prod.exists, exists_eq_right]

section Keyed

variable {d : Dict κ ν} (label : ν → κ)

/-- Where every value stands under its own label, the labels are the keys. -/
theorem map_values_of_keyed (keyed : ∀ entry ∈ d.entries, label entry.2 = entry.1) :
    d.values.map label = d.keys := by
  simp only [values, keys, List.map_map]
  exact List.map_congr_left fun entry member => keyed entry member

/-- Values that stand under their own labels are distinct. -/
theorem nodup_values_of_keyed (keyed : ∀ entry ∈ d.entries, label entry.2 = entry.1) :
    d.values.Nodup := by
  have distinct := d.keys_nodup
  rw [← map_values_of_keyed label keyed] at distinct
  exact distinct.of_map

/-- Values that stand under their own labels differ in them. -/
theorem eq_of_keyed (keyed : ∀ entry ∈ d.entries, label entry.2 = entry.1) :
    ∀ a ∈ d.values, ∀ b ∈ d.values, label a = label b → a = b := by
  have distinct := d.keys_nodup
  rw [← map_values_of_keyed label keyed] at distinct
  exact fun a inside b other same => List.inj_on_of_nodup_map distinct inside other same

end Keyed

/-- The values carry stamps up to a bound, and no two the same. -/
structure Stamped (stamp : ν → Nat) (bound : Nat) (d : Dict κ ν) : Prop where
  /-- No stamp is past the bound. -/
  bounded : ∀ entry ∈ d.entries, stamp entry.2 ≤ bound
  /-- Entries with one stamp are one entry. -/
  distinct : ∀ left ∈ d.entries, ∀ right ∈ d.entries,
    stamp left.2 = stamp right.2 → left = right

section Stamped

variable {stamp : ν → Nat} {bound : Nat} {d : Dict κ ν}

/-- No two values are stamped alike without values. -/
theorem stamped_empty : Stamped stamp bound (Dict.empty : Dict κ ν) := by
  constructor <;> simp [Dict.empty]

/-- Values with one stamp are one value. -/
theorem Stamped.eq_of_stamp_eq (stamped : Stamped stamp bound d) :
    ∀ a ∈ d.values, ∀ b ∈ d.values, stamp a = stamp b → a = b := by
  intro a inside b other same
  obtain ⟨key, stored⟩ := (mem_values_iff d a).mp inside
  obtain ⟨second, also⟩ := (mem_values_iff d b).mp other
  exact congrArg Prod.snd (stamped.distinct _ stored _ also same)

end Stamped

/-- Keep the entries that pass a test. -/
def filter (d : Dict κ ν) (keep : κ × ν → Bool) : Dict κ ν :=
  ⟨d.entries.filter keep, d.distinct.sublist (List.filter_sublist.map Prod.fst)⟩

variable [DecidableEq κ]

/-- Entries after assigning a value to a key. -/
def assign (entries : List (κ × ν)) (key : κ) (value : ν) : List (κ × ν) :=
  if key ∈ entries.map Prod.fst then
    entries.map fun entry => if entry.1 = key then (key, value) else entry
  else entries ++ [(key, value)]

/-- Assignment keeps a present key where it is and adds a new key at the end. -/
theorem map_fst_assign (entries : List (κ × ν)) (key : κ) (value : ν) :
    (assign entries key value).map Prod.fst =
      if key ∈ entries.map Prod.fst then entries.map Prod.fst
      else entries.map Prod.fst ++ [key] := by
  unfold assign
  split
  · rw [List.map_map]
    apply List.map_congr_left
    intro entry _
    by_cases same : entry.1 = key <;> simp [same]
  · simp

/-- The entries after an assignment: the assigned one, and the old ones under other keys. -/
theorem mem_assign (entries : List (κ × ν)) (key : κ) (value : ν) (entry : κ × ν) :
    entry ∈ assign entries key value ↔
      entry = (key, value) ∨ (entry.1 ≠ key ∧ entry ∈ entries) := by
  unfold assign
  split
  · rename_i present
    constructor
    · intro member
      obtain ⟨old, stored, replaced⟩ := List.mem_map.mp member
      by_cases own : old.1 = key
      · exact Or.inl (by rw [← replaced, if_pos own])
      · rw [if_neg own] at replaced
        exact Or.inr (replaced ▸ ⟨own, stored⟩)
    · rintro (assigned | ⟨other, stored⟩)
      · obtain ⟨old, stored, own⟩ := List.mem_map.mp present
        exact List.mem_map.mpr ⟨old, stored, by rw [if_pos own, assigned]⟩
      · exact List.mem_map.mpr ⟨entry, stored, if_neg other⟩
  · rename_i absent
    rw [List.mem_append, List.mem_singleton]
    constructor
    · rintro (stored | assigned)
      · exact Or.inr ⟨fun own => absent (List.mem_map.mpr ⟨entry, stored, own⟩), stored⟩
      · exact Or.inl assigned
    · rintro (assigned | ⟨_, stored⟩)
      · exact Or.inr assigned
      · exact Or.inl stored

/-- The value stored for a key, if any. -/
def get? (d : Dict κ ν) (key : κ) : Option ν := d.entries.lookup key

/-- The value stored for a key as a level, where absence lies below every value. -/
def level (d : Dict κ ν) (key : κ) : WithBot ν := d.get? key

/-- Assign a value to a key. -/
def insert (d : Dict κ ν) (key : κ) (value : ν) : Dict κ ν where
  entries := assign d.entries key value
  distinct := by
    rw [map_fst_assign]
    split
    · exact d.distinct
    · rename_i absent
      exact List.nodup_append.mpr ⟨d.distinct, List.nodup_singleton key, by
        intro left member right single
        rw [List.mem_singleton.mp single]
        exact fun same => absent (same ▸ member)⟩

/-- Remove a key and its value; an absent key changes nothing. -/
def erase (d : Dict κ ν) (key : κ) : Dict κ ν := d.filter fun entry => entry.1 ≠ key

/-- Remove a list of keys, one after the other. -/
def eraseAll (d : Dict κ ν) (gone : List κ) : Dict κ ν := gone.foldl erase d

/-- Assign one value to a list of keys, one after the other. -/
def insertAll (d : Dict κ ν) (keys : List κ) (value : ν) : Dict κ ν :=
  keys.foldl (fun d key => d.insert key value) d

/-- Reading a key finds exactly its entry. -/
theorem get?_eq_some_iff (d : Dict κ ν) (key : κ) (value : ν) :
    d.get? key = some value ↔ (key, value) ∈ d.entries := by
  obtain ⟨entries, distinct⟩ := d
  unfold get?
  induction entries with
  | nil => simp
  | cons entry entries ih =>
    obtain ⟨stored, content⟩ := entry
    simp only [List.map_cons, List.nodup_cons, List.mem_map, Prod.exists,
      exists_and_right, exists_eq_right, not_exists] at distinct
    by_cases same : key = stored
    · subst same
      have absent := distinct.1 value
      simp [absent, eq_comm]
    · have other : (key == stored) = false := by simpa using same
      rw [List.lookup_cons, other]
      simpa [same] using ih distinct.2

/-- A key reads as absent exactly when no entry carries it. -/
theorem get?_eq_none_iff (d : Dict κ ν) (key : κ) : d.get? key = none ↔ key ∉ d.keys := by
  rw [Option.eq_none_iff_forall_ne_some]
  simp only [ne_eq, get?_eq_some_iff, keys, List.mem_map, Prod.exists, exists_and_right,
    exists_eq_right, not_exists]

@[simp] theorem get?_empty (key : κ) : (empty : Dict κ ν).get? key = none := rfl

/-- Assignment changes the value of its own key only. -/
@[simp] theorem get?_insert (d : Dict κ ν) (key other : κ) (value : ν) :
    (d.insert key value).get? other = if other = key then some value else d.get? other := by
  apply Option.ext
  intro found
  rw [get?_eq_some_iff]
  change (other, found) ∈ assign d.entries key value ↔ _
  rw [mem_assign]
  by_cases same : other = key
  · simp [same, eq_comm]
  · simp [same, get?_eq_some_iff]

/-- A filtered dictionary reads what passed the test. -/
theorem get?_filter (d : Dict κ ν) (keep : κ × ν → Bool) (key : κ) :
    (d.filter keep).get? key = (d.get? key).filter fun value => keep (key, value) := by
  apply Option.ext
  intro value
  rw [get?_eq_some_iff, Option.filter_eq_some_iff, get?_eq_some_iff]
  simp [filter]

/-- Removal forgets its own key only. -/
@[simp] theorem get?_erase (d : Dict κ ν) (key other : κ) :
    (d.erase key).get? other = if other = key then none else d.get? other := by
  rw [erase, get?_filter]
  by_cases same : other = key
  · simp [same]
  · cases found : d.get? other <;> simp [same]

/-- Removal on a condition keeps the other keys, and its own unless the condition holds. -/
theorem get?_ite_erase (d : Dict κ ν) (keep : Bool) (key other : κ) (value : ν) :
    (if keep then d else d.erase key).get? other = some value ↔
      d.get? other = some value ∧ (key = other → keep = true) := by
  cases keep with
  | true => simp
  | false =>
    simp only [Bool.false_eq_true, if_false, get?_erase, imp_false]
    by_cases same : other = key
    · simp [same]
    · simp [same, Ne.symm same]

/-- Removing a list of keys forgets exactly those. -/
@[simp] theorem get?_eraseAll (d : Dict κ ν) (gone : List κ) (key : κ) :
    (d.eraseAll gone).get? key = if key ∈ gone then none else d.get? key := by
  unfold eraseAll
  induction gone generalizing d with
  | nil => simp
  | cons head rest ih =>
    rw [List.foldl_cons, ih, get?_erase]
    by_cases first : key = head
    · simp [first]
    · simp [first]

/-- The keys of the entries that pass a test. -/
theorem mem_map_fst_filter (d : Dict κ ν) (test : κ × ν → Bool) (key : κ) :
    key ∈ (d.entries.filter test).map Prod.fst ↔
      ∃ value, d.get? key = some value ∧ test (key, value) = true := by
  simp only [List.mem_map, List.mem_filter, Prod.exists, exists_and_right, exists_eq_right,
    get?_eq_some_iff]

/-- Removing the keys of the entries that pass a test keeps exactly the other entries. -/
theorem get?_eraseAll_filter (d : Dict κ ν) (stale : κ × ν → Bool) (key : κ) :
    (d.eraseAll ((d.entries.filter stale).map Prod.fst)).get? key =
      (d.get? key).filter fun value => !stale (key, value) := by
  rw [get?_eraseAll]
  cases found : d.get? key with
  | none => simp
  | some value =>
    have listed := d.mem_map_fst_filter stale key
    rw [found] at listed
    by_cases test : stale (key, value) = true
    · rw [if_pos (listed.mpr ⟨value, rfl, test⟩), Option.filter_some, test]
      rfl
    · have absent : key ∉ (d.entries.filter stale).map Prod.fst := by
        intro member
        obtain ⟨stored, same, passed⟩ := listed.mp member
        cases same
        exact test passed
      rw [if_neg absent, Option.filter_some]
      simp [test]

/-- Assigning one value to a list of keys changes exactly those. -/
@[simp] theorem get?_insertAll (d : Dict κ ν) (keys : List κ) (value : ν) (key : κ) :
    (d.insertAll keys value).get? key = if key ∈ keys then some value else d.get? key := by
  unfold insertAll
  induction keys generalizing d with
  | nil => simp
  | cons head rest ih =>
    rw [List.foldl_cons, ih, get?_insert]
    by_cases first : key = head
    · simp [first]
    · simp [first]

/-- The level of a removed key is the least. -/
theorem level_erase (d : Dict κ ν) (key other : κ) :
    (d.erase key).level other = if other = key then ⊥ else d.level other :=
  d.get?_erase key other

/-- The levels of removed keys are the least. -/
theorem level_eraseAll (d : Dict κ ν) (gone : List κ) (key : κ) :
    (d.eraseAll gone).level key = if key ∈ gone then ⊥ else d.level key :=
  d.get?_eraseAll gone key

/-- The levels of assigned keys are the assigned value. -/
theorem level_insertAll (d : Dict κ ν) (keys : List κ) (value : ν) (key : κ) :
    (d.insertAll keys value).level key = if key ∈ keys then (value : WithBot ν) else d.level key :=
  d.get?_insertAll keys value key

/-- Dictionaries that read alike up to a view of their values list the same views. -/
theorem map_values_perm {μ γ : Type} {d : Dict κ ν} {other : Dict κ μ} {view : ν → γ}
    {look : μ → γ} (same : ∀ key, (d.get? key).map view = (other.get? key).map look) :
    (d.values.map view).Perm (other.values.map look) := by
  have listed {ξ : Type} (e : Dict κ ξ) (see : ξ → γ) (key : κ) (content : γ) :
      (key, content) ∈ e.entries.map (Prod.map id see) ↔
        (e.get? key).map see = some content := by
    rw [Option.map_eq_some_iff, List.mem_map]
    simp only [Prod.exists, Prod.map_apply, id_eq, Prod.mk.injEq, get?_eq_some_iff]
    constructor
    · rintro ⟨_, value, stored, rfl, seen⟩
      exact ⟨value, stored, seen⟩
    · exact fun ⟨value, stored, seen⟩ => ⟨key, value, stored, rfl, seen⟩
  have distinct {ξ : Type} (e : Dict κ ξ) (see : ξ → γ) :
      (e.entries.map (Prod.map id see)).Nodup := by
    apply List.Nodup.of_map Prod.fst
    rw [List.map_map]
    exact e.distinct
  have entries : (d.entries.map (Prod.map id view)).Perm
      (other.entries.map (Prod.map id look)) := by
    rw [List.perm_ext_iff_of_nodup (distinct d view) (distinct other look)]
    rintro ⟨key, content⟩
    rw [listed, listed, same key]
  have seen := entries.map Prod.snd
  rw [List.map_map, List.map_map] at seen
  simp only [values, List.map_map]
  exact seen

/-- What holds of the values and of a new one holds of the values after its assignment. -/
theorem forall_mem_values_insert {holds : ν → Prop} (d : Dict κ ν) (key : κ) {value : ν}
    (fresh : holds value) (all : ∀ stored ∈ d.values, holds stored) :
    ∀ stored ∈ (d.insert key value).values, holds stored := by
  intro stored member
  obtain ⟨label, entry⟩ := (mem_values_iff _ stored).mp member
  cases (mem_assign d.entries key value (label, stored)).mp entry with
  | inl assigned =>
    rw [(Prod.mk.inj assigned).2]
    exact fresh
  | inr old => exact all stored ((mem_values_iff d stored).mpr ⟨label, old.2⟩)

/-- An assignment under a present key replaces its value. -/
theorem values_insert_perm {d : Dict κ ν} {key : κ} {old : ν} (stored : d.get? key = some old)
    (value : ν) : (old :: (d.insert key value).values).Perm (value :: d.values) := by
  have listed := (get?_eq_some_iff d key old).mp stored
  obtain ⟨front, back, split⟩ := List.append_of_mem listed
  have distinct := d.distinct
  rw [split, List.map_append, List.map_cons, List.nodup_append, List.nodup_cons] at distinct
  have others (part : List (κ × ν)) (apart : key ∉ part.map Prod.fst) :
      part.map (fun entry => if entry.1 = key then (key, value) else entry) = part := by
    conv_rhs => rw [← List.map_id part]
    apply List.map_congr_left
    intro entry member
    exact if_neg fun same => apart (List.mem_map.mpr ⟨entry, member, same⟩)
  have before : key ∉ front.map Prod.fst :=
    fun member => distinct.2.2 key member key List.mem_cons_self rfl
  have present : key ∈ d.entries.map Prod.fst := List.mem_map.mpr ⟨_, listed, rfl⟩
  have after : (d.insert key value).values =
      front.map Prod.snd ++ value :: back.map Prod.snd := by
    have assigned : (d.insert key value).entries = d.entries.map fun entry =>
        if entry.1 = key then (key, value) else entry := if_pos present
    rw [values, assigned, split, List.map_append, List.map_cons, others front before,
      others back distinct.2.1.1, if_pos rfl, List.map_append, List.map_cons]
  have whole : d.values = front.map Prod.snd ++ old :: back.map Prod.snd := by
    rw [values, split, List.map_append, List.map_cons]
  rw [after, whole]
  refine ((List.perm_middle).cons old).trans ?_
  exact (List.Perm.swap _ _ _).trans ((List.perm_middle).symm.cons value)

/-- An assignment never leaves the dictionary without values. -/
theorem values_insert_ne_nil (d : Dict κ ν) (key : κ) (value : ν) :
    (d.insert key value).values ≠ [] := by
  have stored := (mem_assign d.entries key value (key, value)).mpr (Or.inl rfl)
  exact List.ne_nil_of_mem ((mem_values_iff (d.insert key value) value).mpr ⟨key, stored⟩)

/-- A value assigned under its own label keeps every value under its own. -/
theorem keyed_insert {d : Dict κ ν} (label : ν → κ)
    (keyed : ∀ entry ∈ d.entries, label entry.2 = entry.1) (value : ν) :
    ∀ entry ∈ (d.insert (label value) value).entries, label entry.2 = entry.1 := by
  intro entry member
  rcases (mem_assign _ _ _ entry).mp member with rfl | ⟨_, stored⟩
  · rfl
  · exact keyed entry stored

/-- The next stamp is past all others. -/
theorem Stamped.insert {stamp : ν → Nat} {bound : Nat} {d : Dict κ ν}
    (stamped : Stamped stamp bound d) (key : κ) {value : ν} (next : stamp value = bound + 1) :
    Stamped stamp (bound + 1) (d.insert key value) := by
  have entries (entry : κ × ν) (member : entry ∈ (d.insert key value).entries) :
      entry = (key, value) ∨ entry ∈ d.entries :=
    ((mem_assign _ _ _ entry).mp member).imp_right And.right
  constructor
  · intro entry member
    rcases entries entry member with rfl | stored
    · exact next.le
    · exact Nat.le_succ_of_le (stamped.bounded entry stored)
  · intro left inside right other same
    rcases entries left inside with rfl | first <;> rcases entries right other with rfl | second
    · rfl
    · have earlier := stamped.bounded right second
      simp only at same
      omega
    · have earlier := stamped.bounded left first
      simp only at same
      omega
    · exact stamped.distinct left first right second same

end Dict

end BossWorker
