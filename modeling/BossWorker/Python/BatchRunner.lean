import BossWorker.Python.Processor
import Mathlib.Algebra.GroupWithZero.Nat

/-!
# The Python batch runner

`execution/batch_runner.py`. Reading an absent context gives the default one, and a context
passed to a constructor is present. The totals of a summary are `uint32` fields, so a number
out of range raises. Whether `consumer_pub.put` returns is the argument `publish`; the lock
around it makes the call one step.
-/

namespace BossWorker.Python

/-- What a run of the batch runner leaves behind. -/
structure JobOutcome where
  /-- Summaries the transport took. -/
  published : List ChoreFilterSummary
  /-- Whether the runner returned. -/
  succeeded : Bool
  deriving DecidableEq

namespace BatchRunner

/-- `filter_id` of a person's request. -/
def filterId (chores : Chores) (person : PersonAvailability) : String :=
  chores.choresId ++ "-" ++ person.personId

/-- `_build_chore_filter_request`. -/
def buildChoreFilterRequest (filterId : String) (chores : Chores)
    (person : PersonAvailability) : ChoreFilterRequest where
  filterId := filterId
  context := some (chores.context.getD {})
  chores := some chores
  person := some person

/-- `_build_summary`. -/
def buildSummary (choresId : String) (context : RequestContext)
    (results : List ChoreFilterResult) : Except OutOfRange ChoreFilterSummary := do
  let total : Nat := (results.map fun result => result.acceptedChores.length).sum
  let totalPeopleEvaluated ← uint32 results.length
  let totalChoresAccepted ← uint32 total
  return {
    choresId := choresId
    totalPeopleEvaluated := totalPeopleEvaluated
    totalChoresAccepted := totalChoresAccepted
    context := some context
    results := results }

/-- The answer to a person's request. -/
def answer (chores : Chores) (person : PersonAvailability) :
    Except OutOfRange ChoreFilterResult :=
  processChoreFilterRequest (buildChoreFilterRequest (filterId chores person) chores person)

/-- The summary that `run_chore_filter` publishes. -/
def personSummary (chores : Chores) (person : PersonAvailability) :
    Except OutOfRange ChoreFilterSummary := do
  let result ← answer chores person
  buildSummary chores.choresId (chores.context.getD {}) [result]

/-- The summary that `run_chore_filter_window` publishes. -/
def windowSummary (chores : Chores) (people : List PersonAvailability) :
    Except OutOfRange ChoreFilterSummary := do
  let results ← people.mapM (answer chores)
  buildSummary chores.choresId (chores.context.getD {}) results

/-- `_publish_summary` of a summary that could be built. -/
def publishSummary (publish : ChoreFilterSummary → Bool) :
    Except OutOfRange ChoreFilterSummary → JobOutcome
  | .ok summary => if publish summary then ⟨[summary], true⟩ else ⟨[], false⟩
  | .error _ => ⟨[], false⟩

/-- `run_chore_filter`. -/
def runChoreFilter (publish : ChoreFilterSummary → Bool) (chores : Chores)
    (person : PersonAvailability) : JobOutcome :=
  publishSummary publish (personSummary chores person)

/-- `run_chore_filter_window`. -/
def runChoreFilterWindow (publish : ChoreFilterSummary → Bool) (chores : Chores)
    (people : List PersonAvailability) : JobOutcome :=
  publishSummary publish (windowSummary chores people)

/-- The summary of one person is that of a window of one. -/
theorem personSummary_eq (chores : Chores) (person : PersonAvailability) :
    personSummary chores person = windowSummary chores [person] := by
  simp only [personSummary, windowSummary, List.mapM_cons, List.mapM_nil]
  cases answer chores person with
  | error error => rfl
  | ok result => rfl

end BatchRunner

end BossWorker.Python
