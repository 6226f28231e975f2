import BossWorker.Rust.Coordinator
import BossWorker.Rust.Processor
import Mathlib.Data.UInt

/-!
# The Rust batch runner and window executors

`execution/batch_runner.rs` and `execution/executor.rs`. `submit_window` spawns tasks; a
task runs the chore filter, publishes one summary and sends one completion per person it
was given. Whether the transport takes a summary is the argument `publish`. The thread
pool is left out here, as no filter that a runner hands to it panics; a closure of the pool
that did would end the process.
-/

namespace BossWorker.Rust

/-- What a run of the batch runner leaves behind. -/
structure JobOutcome where
  /-- Summaries the transport took. -/
  published : List ChoreFilterSummary
  /-- Whether the runner returned `Ok`. -/
  succeeded : Bool
  deriving DecidableEq

namespace BatchRunner

/-- `filter_id` of a person's request. -/
def filterId (chores : Chores) (person : PersonAvailability) : String :=
  chores.choresId ++ "-" ++ person.personId

/-- `build_chore_filter_request`. -/
def buildChoreFilterRequest (filterId : String) (chores : Chores)
    (person : PersonAvailability) : ChoreFilterRequest where
  filterId := filterId
  context := chores.context
  chores := some chores
  person := some person

/-- `build_summary`; the sum and both lengths are machine words. -/
def buildSummary (choresId : String) (context : Option RequestContext)
    (results : List ChoreFilterResult) : ChoreFilterSummary where
  choresId := choresId
  totalPeopleEvaluated := UInt32.ofNat results.length
  totalChoresAccepted :=
    (results.map fun result => UInt32.ofNat result.acceptedChores.length).sum
  results := results
  context := context

/-- `publish_summary`. -/
def publishSummary (publish : ChoreFilterSummary → Bool) (summary : ChoreFilterSummary) :
    JobOutcome :=
  if publish summary then ⟨[summary], true⟩ else ⟨[], false⟩

/-- `run_chore_filter`. -/
def runChoreFilter (publish : ChoreFilterSummary → Bool) (chores : Chores)
    (person : PersonAvailability) : JobOutcome :=
  let request := buildChoreFilterRequest (filterId chores person) chores person
  match processChoreFilterRequest request with
  | none => ⟨[], false⟩
  | some result =>
    publishSummary publish (buildSummary chores.choresId chores.context [result])

/-- `run_chore_filter_window`. -/
def runChoreFilterWindow (publish : ChoreFilterSummary → Bool) (chores : Chores)
    (people : List PersonAvailability) : JobOutcome :=
  let results := people.mapM fun person =>
    processChoreFilterRequest (buildChoreFilterRequest (filterId chores person) chores person)
  match results with
  | none => ⟨[], false⟩
  | some results =>
    publishSummary publish (buildSummary chores.choresId chores.context results)

end BatchRunner

/-- `JobSubmissionMode`. -/
inductive JobSubmissionMode where
  /-- One task for each person. -/
  | perPerson
  /-- One task for the whole window. -/
  | windowBatch
  deriving DecidableEq

/-- A task spawned by an executor. -/
inductive Task where
  /-- The task of one person. -/
  | single (chores : Chores) (person : PersonAvailability)
  /-- The task of one window. -/
  | batch (chores : Chores) (people : List PersonAvailability)
  deriving DecidableEq

namespace Task

/-- The people a task reports on, in the order of its completions. -/
def people : Task → List PersonAvailability
  | .single _ person => [person]
  | .batch _ people => people

/-- The batch runner call of a task. -/
def run (publish : ChoreFilterSummary → Bool) : Task → JobOutcome
  | .single chores person => BatchRunner.runChoreFilter publish chores person
  | .batch chores people => BatchRunner.runChoreFilterWindow publish chores people

/-- The completions a task sends after its runner has returned. -/
def completions (succeeded : Bool) (task : Task) : List PersonJobCompletion :=
  task.people.map fun person => { personId := person.personId, succeeded := succeeded }

end Task

/-- `PerPersonExecutor::submit_window`. -/
def PerPersonExecutor.submitWindow (chores : Chores) (people : List PersonAvailability) :
    List Task :=
  people.map fun person => .single chores person

/-- `WindowBatchExecutor::submit_window`. -/
def WindowBatchExecutor.submitWindow (chores : Chores) (people : List PersonAvailability) :
    List Task :=
  [.batch chores people]

/-- `submit_window` of the executor that `build_window_executor` picks. -/
def JobSubmissionMode.submitWindow : JobSubmissionMode → Chores → List PersonAvailability →
    List Task
  | .perPerson => PerPersonExecutor.submitWindow
  | .windowBatch => WindowBatchExecutor.submitWindow

/-- Either executor spawns tasks for exactly the people it is given, in order. -/
theorem submitWindow_people (mode : JobSubmissionMode) (chores : Chores)
    (people : List PersonAvailability) :
    (mode.submitWindow chores people).flatMap Task.people = people := by
  cases mode with
  | perPerson =>
    simp only [JobSubmissionMode.submitWindow, PerPersonExecutor.submitWindow, List.flatMap_map,
      Task.people]
    exact List.flatMap_singleton' people
  | windowBatch =>
    simp [JobSubmissionMode.submitWindow, WindowBatchExecutor.submitWindow, Task.people]

end BossWorker.Rust
