import Mathlib.Data.Nat.Find
import Mathlib.Order.Lattice

/-!
# Arrivals at a queue

A queue is opened at some moment with finitely many items in it, and further items may
arrive for ever. The items are numbered in the order in which they are taken, each with the
time it was put there; those put there before the opening are the waiting ones.
-/

namespace BossWorker

/-- An item and the time at which it is put on the queue. -/
structure Arrival (τ α : Type) where
  time : τ
  item : α

/-- The items of a queue from its opening on, in order. -/
structure Arrivals (τ α : Type) [LinearOrder τ] (opened : τ) where
  /-- The arrival with a number, if that many items ever arrive. -/
  nth : Nat → Option (Arrival τ α)
  /-- Numbers are not left out. -/
  closed : ∀ n, nth n = none → nth (n + 1) = none
  /-- Items arrive in the order of time. -/
  ordered : ∀ n first second, nth n = some first → nth (n + 1) = some second →
    first.time ≤ second.time
  /-- Only finitely many items are waiting. -/
  finite : ∃ count, ∀ arrival, nth count = some arrival → opened < arrival.time

namespace Arrivals

variable {τ α : Type} [LinearOrder τ] {opened : τ} (arrivals : Arrivals τ α opened)

/-- After the last item there is none. -/
theorem nth_eq_none {n m : Nat} (ended : arrivals.nth n = none) (later : n ≤ m) :
    arrivals.nth m = none := by
  induction later with
  | refl => exact ended
  | step _ ih => exact arrivals.closed _ ih

/-- A later number arrives no earlier. -/
theorem time_le {n m : Nat} {first second : Arrival τ α} (later : n ≤ m)
    (one : arrivals.nth n = some first) (other : arrivals.nth m = some second) :
    first.time ≤ second.time := by
  induction later generalizing second with
  | refl =>
    rw [one] at other
    rw [Option.some.inj other]
  | @step m _ ih =>
    cases before : arrivals.nth m with
    | none =>
      rw [arrivals.closed m before] at other
      contradiction
    | some middle => exact (ih before).trans (arrivals.ordered m middle second before other)

variable (wanted : α → Prop)

/-- An item is the first wanted one, and it is there by a given time. -/
def FirstBy (deadline : τ) (item : α) : Prop :=
  ∃ n arrival, arrivals.nth n = some arrival ∧ arrival.item = item ∧ wanted item ∧
    arrival.time ≤ deadline ∧
      ∀ m < n, ∀ earlier, arrivals.nth m = some earlier → ¬ wanted earlier.item

/-- No wanted item is there by a given time. -/
def NoneBy (deadline : τ) : Prop :=
  ∀ n arrival, arrivals.nth n = some arrival → arrival.time ≤ deadline →
    ¬ wanted arrival.item

/-- No item arrives after the opening and by a given time. -/
def QuietUntil (deadline : τ) : Prop :=
  ∀ n arrival, arrivals.nth n = some arrival → arrival.time ≤ deadline →
    arrival.time ≤ opened

/-- Of the wanted items that are there by a given time, one is the first. -/
theorem exists_firstBy {deadline : τ} (some_there : ¬ arrivals.NoneBy wanted deadline) :
    ∃ item, arrivals.FirstBy wanted deadline item := by
  classical
  simp only [NoneBy, not_forall, not_not] at some_there
  obtain ⟨n, arrival, there, inTime, right⟩ := some_there
  have found : ∃ n arrival, arrivals.nth n = some arrival ∧ wanted arrival.item :=
    ⟨n, arrival, there, right⟩
  obtain ⟨first, listed, fits⟩ := Nat.find_spec found
  have early : Nat.find found ≤ n := Nat.find_min' found ⟨arrival, there, right⟩
  have before := arrivals.time_le early listed there
  refine ⟨first.item, Nat.find found, first, listed, rfl, fits, before.trans inTime, ?_⟩
  intro m below earlier known desired
  exact Nat.find_min found below ⟨earlier, known, desired⟩

end Arrivals

end BossWorker
