import BossWorker.Python.Coordinator

/-!
# The Python per-person executor

`PerPersonExecutor` of `execution/executor.py`: `submit_window` starts one daemon thread a
person, in order, and an exception of `thread.start` leaves the loop and the flush that
called it. Every started job reports its person once, whether the runner succeeds or raises.
The state is the coordinator with the jobs that have been started and have not reported.
-/

namespace BossWorker.Python

/-- `PerPersonExecutor.submit_window`: the people whose jobs were started, and how the call
returns. `starts` tells for each `thread.start` in turn whether it succeeds. -/
def submitWindow : List PersonAvailability → (Nat → Bool) → List PersonAvailability × Outcome
  | [], _ => ([], .returned)
  | person :: people, starts =>
    if starts 0 then
      let rest := submitWindow people fun index => starts (index + 1)
      (person :: rest.1, rest.2)
    else ([], .raised)

/-- A window handed to the executor. -/
structure Attempt where
  submission : Submission
  /-- People whose jobs were started. -/
  started : List PersonAvailability
  outcome : Outcome
  deriving DecidableEq

/-- The coordinator and the jobs that will still report. -/
structure EmployedCoordinator where
  coordinator : BatchCoordinator
  /-- People whose jobs have been started and have not reported. -/
  jobs : List PersonAvailability
  deriving DecidableEq

/-- A call on the coordinator. -/
inductive JobEvent where
  /-- `receive_chores`. -/
  | chores (chores : Chores) (now : Monotonic)
  /-- `receive_person`. -/
  | person (person : PersonAvailability) (now : Monotonic) (ident : Nat) (started : Bool)
  /-- `expire_stale_if_idle`. -/
  | prune (now : Monotonic)
  /-- `_flush_current_window`; `starts` is for the threads of the executor. -/
  | flush (now : Monotonic) (starts : Nat → Bool)
  /-- The job at a position reports its person. -/
  | finish (index : Nat) (succeeded : Bool) (now : Monotonic)

namespace EmployedCoordinator

/-- No window and no job. -/
def new : EmployedCoordinator where
  coordinator := .new
  jobs := []

variable (config : OrchestratorConfig)

/-- `_flush_current_window` with the executor's threads. -/
def flush (self : EmployedCoordinator) (now : Monotonic) (starts : Nat → Bool) :
    EmployedCoordinator × Option Attempt :=
  let flushed := self.coordinator.flushCurrentWindow config now
  match flushed.2 with
  | none => ({ self with coordinator := flushed.1 }, none)
  | some submission =>
    let submitted := submitWindow submission.people starts
    ({ coordinator := flushed.1, jobs := self.jobs ++ submitted.1 },
      some { submission := submission, started := submitted.1, outcome := submitted.2 })

/-- The `finally` of `_run_person_job`. -/
def finish (self : EmployedCoordinator) (index : Nat) (succeeded : Bool) (now : Monotonic) :
    EmployedCoordinator :=
  match self.jobs[index]? with
  | none => self
  | some person =>
    { coordinator := self.coordinator.onPersonComplete config person succeeded now
      jobs := self.jobs.eraseIdx index }

end EmployedCoordinator

/-- The coordinator with its per-person jobs as a machine that shows the windows handed
over. -/
def employedCoordinator (config : OrchestratorConfig) :
    Machine EmployedCoordinator JobEvent (Option Attempt) where
  step self
    | .chores chores now =>
      ({ self with coordinator := self.coordinator.receiveChores chores now }, none)
    | .person person now ident started =>
      ({ self with
         coordinator := (self.coordinator.receivePerson config person now ident started).1 },
        none)
    | .prune now =>
      ({ self with coordinator := self.coordinator.expireStaleIfIdle config now }, none)
    | .flush now starts => self.flush config now starts
    | .finish index succeeded now => (self.finish config index succeeded now, none)

end BossWorker.Python
