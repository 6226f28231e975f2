import BossWorker.Proto.Messages
import Mathlib.Algebra.Group.Int.Defs
import Mathlib.Algebra.Group.Nat.Defs

/-!
# The Python chore filters

`processing/processor.py` of the orchestrator and the function of the same name in the
worker's `main.py`, which logs more and sleeps before it builds its result; that the sleep
can raise is left to the worker process. Python integers do not overflow; a protobuf field
of type `uint32` takes a number in range and raises on any other. Reading an absent message
gives the default one, and a message passed to a constructor is present in the result.
-/

namespace BossWorker.Python

/-- The `ValueError` of a number that does not fit its field. -/
structure OutOfRange where
  /-- The number. -/
  value : ℤ
  deriving DecidableEq

/-- Assignment to a `uint32` field. -/
def uint32 (value : ℤ) : Except OutOfRange UInt32 :=
  if 0 ≤ value ∧ value < 2 ^ 32 then .ok (UInt32.ofNat value.toNat) else .error ⟨value⟩

/-- A number in range is stored as it is. -/
theorem uint32_natCast {value : Nat} (small : value < 2 ^ 32) :
    uint32 (value : ℤ) = .ok (UInt32.ofNat value) := by
  have inside : (0 : ℤ) ≤ value ∧ (value : ℤ) < 2 ^ 32 := by omega
  rw [uint32, if_pos inside, Int.toNat_natCast]

/-- A stored number is the word it is stored as. -/
theorem eq_toNat_of_uint32 {value : ℤ} {word : UInt32} (stored : uint32 value = .ok word) :
    value = word.toNat := by
  unfold uint32 at stored
  by_cases inside : 0 ≤ value ∧ value < 2 ^ 32
  · rw [if_pos inside, Except.ok.injEq] at stored
    subst stored
    rw [UInt32.toNat_ofNat', Nat.mod_eq_of_lt (by omega)]
    omega
  · rw [if_neg inside] at stored
    contradiction

/-- A word is stored as it is. -/
theorem uint32_toNat (word : UInt32) : uint32 (word.toNat : ℤ) = .ok word := by
  rw [uint32_natCast word.toNat_lt, UInt32.ofNat_toNat]

/-- The local variables of the loop over the chores. -/
structure FilterLoop where
  usedMinutes : Nat
  acceptedChores : List Chore
  rejectedChores : List Chore
  deriving DecidableEq

namespace FilterLoop

/-- The variables before the loop. -/
def start : FilterLoop := ⟨0, [], []⟩

/-- One pass of the loop body. -/
def step (availableMinutes : Nat) (loop : FilterLoop) (chore : Chore) : FilterLoop :=
  if loop.usedMinutes + chore.estimatedMinutes.toNat ≤ availableMinutes then
    { loop with
      acceptedChores := loop.acceptedChores ++ [chore]
      usedMinutes := loop.usedMinutes + chore.estimatedMinutes.toNat }
  else { loop with rejectedChores := loop.rejectedChores ++ [chore] }

/-- The whole loop. -/
def run (availableMinutes : Nat) (loop : FilterLoop) (chores : List Chore) : FilterLoop :=
  chores.foldl (step availableMinutes) loop

@[simp] theorem run_nil (availableMinutes : Nat) (loop : FilterLoop) :
    loop.run availableMinutes [] = loop := rfl

@[simp] theorem run_cons (availableMinutes : Nat) (loop : FilterLoop) (chore : Chore)
    (chores : List Chore) : loop.run availableMinutes (chore :: chores) =
      (loop.step availableMinutes chore).run availableMinutes chores := rfl

/-- A loop over two lists goes on from where the first ends. -/
@[simp] theorem run_append (availableMinutes : Nat) (loop : FilterLoop)
    (front back : List Chore) : loop.run availableMinutes (front ++ back) =
      (loop.run availableMinutes front).run availableMinutes back := List.foldl_append

end FilterLoop

/-- `process_chore_filter_request` of the orchestrator. -/
def processChoreFilterRequest (request : ChoreFilterRequest) :
    Except OutOfRange ChoreFilterResult := do
  let person := request.person.getD {}
  let chores := request.chores.getD {}
  let availableMinutes := person.availableMinutes.toNat
  let loop := FilterLoop.start.run availableMinutes chores.chores
  let usedMinutes ← uint32 loop.usedMinutes
  let remainingMinutes ← uint32 (max ((availableMinutes : ℤ) - loop.usedMinutes) 0)
  return {
    filterId := request.filterId
    choresId := chores.choresId
    person := some person
    usedMinutes := usedMinutes
    remainingMinutes := remainingMinutes
    context := some (request.context.getD {})
    acceptedChores := loop.acceptedChores
    rejectedChores := loop.rejectedChores }

/-- `process_chore_filter_request` of the worker, given that its `time.sleep` returns; the
name appears in log lines only. -/
def Worker.processChoreFilterRequest (request : ChoreFilterRequest)
    (_actualWorkerName : String) : Except OutOfRange ChoreFilterResult :=
  BossWorker.Python.processChoreFilterRequest request

end BossWorker.Python
