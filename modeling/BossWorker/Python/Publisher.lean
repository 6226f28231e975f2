import BossWorker.Base.Arrivals
import BossWorker.Proto.Assignment
import Mathlib.Algebra.Order.Ring.Rat

/-!
# The publisher's wait for a result

`assignment/publisher.py`, the inner loop of `main`. Clock readings are exact rationals, and
the loop takes no time besides the blocking `get`. The queue holds every result published
under the result key, whoever asked for it. A timeout is meant to be one that `threading`
takes, at most `threading.TIMEOUT_MAX` seconds. The loop may run for ever, so it is given the
number of `get` calls it may make.
-/

namespace BossWorker.Python

/-- How the wait for a result ends. -/
structure WaitEnd where
  /-- The accepted result; none is reported as timed out. -/
  result : Option AssignmentResult
  /-- When the loop is left. -/
  time : ℚ

variable {opened : ℚ}

/-- `result_queue.get(timeout=…)`, called at `now` for the next result: the result, or `Empty`,
and the time at which the call ends. -/
def queueGet (timeout : ℚ) (results : Arrivals ℚ AssignmentResult opened) (now : ℚ)
    (next : Nat) : Option AssignmentResult × ℚ :=
  match results.nth next with
  | some arrival =>
    if arrival.time ≤ now + timeout then (some arrival.item, max now arrival.time)
    else (none, now + timeout)
  | none => (none, now + timeout)

/-- The inner loop of `main`, from a time and the number of the next result on. -/
def awaitResult (timeout : ℚ) (assignmentId : String)
    (results : Arrivals ℚ AssignmentResult opened) : Nat → ℚ → Nat → Option WaitEnd
  | 0, _, _ => none
  | calls + 1, now, next =>
    match queueGet timeout results now next with
    | (none, time) => some { result := none, time := time }
    | (some result, time) =>
      if result.assignmentId ≠ assignmentId then
        awaitResult timeout assignmentId results calls time (next + 1)
      else some { result := some result, time := time }

end BossWorker.Python
