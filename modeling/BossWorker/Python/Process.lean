import BossWorker.Python.BatchRunner
import BossWorker.Python.Executor
import BossWorker.Python.Timers

/-!
# The Python orchestrator process

`main.py` with `transport/handler.py` and `execution/executor.py`: Zenoh calls the handler with
payloads, timers flush windows, the main loop prunes, and every job runs on a thread of its
own, which builds a summary, publishes it and reports its people one after the other. A step
is one of these while a lock is held, or what a job does without one; a step that is not due
changes nothing. The handler swallows every exception. Parsing, the answer of the transport
and which threads can be started are arguments; jobs and published summaries carry the
number of the `submit_window` call they come from, which the code does not have.
-/

namespace BossWorker.Python

/-- `Chores.ParseFromString` and `PersonAvailability.ParseFromString`. -/
structure Parsers where
  chores : List UInt8 → Except String Chores
  person : List UInt8 → Except String PersonAvailability

/-- `JobSubmissionMode`. -/
inductive JobSubmissionMode where
  /-- One job for each person. -/
  | perPerson
  /-- One job for the whole window. -/
  | windowBatch
  deriving DecidableEq

/-- The call that the thread of a job makes on its executor. -/
inductive Task where
  /-- `_run_person_job`. -/
  | single (chores : Chores) (person : PersonAvailability)
  /-- `_run_window_job`. -/
  | batch (chores : Chores) (people : List PersonAvailability)
  deriving DecidableEq

namespace Task

/-- The people a job reports, in order. -/
def people : Task → List PersonAvailability
  | .single _ person => [person]
  | .batch _ people => people

/-- The summary that a job publishes. -/
def summary : Task → Except OutOfRange ChoreFilterSummary
  | .single chores person => BatchRunner.personSummary chores person
  | .batch chores people => BatchRunner.windowSummary chores people

end Task

/-- `PerPersonExecutor.submit_window` with the jobs it starts. -/
def PerPersonExecutor.submitWindow (chores : Chores) (people : List PersonAvailability)
    (starts : Nat → Bool) : List Task × Outcome :=
  let submitted := Python.submitWindow people starts
  (submitted.1.map (.single chores), submitted.2)

/-- `WindowBatchExecutor.submit_window` with the job it starts. -/
def WindowBatchExecutor.submitWindow (chores : Chores) (people : List PersonAvailability)
    (starts : Nat → Bool) : List Task × Outcome :=
  if starts 0 then ([.batch chores people], .returned) else ([], .raised)

/-- `submit_window` of the executor that `build_window_executor` picks. -/
def JobSubmissionMode.submitWindow : JobSubmissionMode → Chores → List PersonAvailability →
    (Nat → Bool) → List Task × Outcome
  | .perPerson => PerPersonExecutor.submitWindow
  | .windowBatch => WindowBatchExecutor.submitWindow

/-- Where the thread of a job stands. -/
inductive JobStage where
  /-- Its batch runner has not built the summary. -/
  | computing
  /-- Its batch runner is about to publish. -/
  | publishing (summary : ChoreFilterSummary)
  /-- Its `finally` block still has people to report. -/
  | reporting (succeeded : Bool) (people : List PersonAvailability)
  deriving DecidableEq

/-- A job whose thread has been started. -/
structure StartedJob where
  /-- Position of the call among all calls. -/
  batch : Nat
  task : Task
  stage : JobStage
  deriving DecidableEq

/-- People a job has not reported. -/
def StartedJob.remaining (job : StartedJob) : List PersonAvailability :=
  match job.stage with
  | .reporting _ people => people
  | _ => job.task.people

/-- A summary that the transport took. -/
structure PublishedSummary where
  /-- Position of the call among all calls. -/
  batch : Nat
  summary : ChoreFilterSummary
  deriving DecidableEq

/-- What a step shows. -/
inductive Observation where
  /-- A window handed to the executor. -/
  | attempted (attempt : Attempt)
  /-- A report of a job of a call. -/
  | reported (batch : Nat) (person : PersonAvailability) (succeeded : Bool)
  deriving DecidableEq

/-- The process: the coordinator with its timers, and its jobs. -/
structure Process where
  timed : TimedCoordinator
  /-- Number of `submit_window` calls so far. -/
  batches : Nat
  /-- Jobs whose threads have not ended. -/
  jobs : List StartedJob
  /-- Summaries that the transport took, oldest first. -/
  published : List PublishedSummary
  deriving DecidableEq

/-- A step of one of the threads. -/
inductive ProcessEvent where
  /-- `on_chores_sample`. -/
  | choresSample (bytes : List UInt8) (now : Monotonic)
  /-- `on_person_sample`; `started` tells whether a timer it creates can be started. -/
  | personSample (bytes : List UInt8) (now : Monotonic) (started : Bool)
  /-- `expire_stale_if_idle`. -/
  | prune (now : Monotonic)
  /-- The outstanding timer at a position flushes; `starts` is for the threads of jobs. -/
  | fire (index : Nat) (now : Monotonic) (starts : Nat → Bool)
  /-- The job at a position builds its summary. -/
  | compute (index : Nat)
  /-- The transport answers the job at a position; `taken` is the answer. -/
  | publish (index : Nat) (taken : Bool)
  /-- The job at a position reports its next person. -/
  | report (index : Nat) (now : Monotonic)

namespace Process

/-- The process before its first sample. -/
def start : Process where
  timed := .new
  batches := 0
  jobs := []
  published := []

variable (config : OrchestratorConfig) (mode : JobSubmissionMode) (parsers : Parsers)

/-- `on_chores_sample`. -/
def onChoresSample (self : Process) (bytes : List UInt8) (now : Monotonic) : Process :=
  match parsers.chores bytes with
  | .ok chores =>
    { self with timed := ((timedCoordinator config).step self.timed (.chores chores now)).1 }
  | .error _ => self

/-- `on_person_sample`. -/
def onPersonSample (self : Process) (bytes : List UInt8) (now : Monotonic) (started : Bool) :
    Process :=
  match parsers.person bytes with
  | .ok person => { self with timed := (self.timed.receivePerson config person now started).1 }
  | .error _ => self

/-- A flush by a timer, with the jobs the executor starts. -/
def fired (self : Process) (index : Nat) (now : Monotonic) (starts : Nat → Bool) :
    Process × Option Observation :=
  match self.timed.fire config index now with
  | (timed, .flushed _ (some submission)) =>
    let submitted := mode.submitWindow submission.chores submission.people starts
    ({ self with
        timed := timed
        batches := self.batches + 1
        jobs := self.jobs ++ submitted.1.map fun task => ⟨self.batches, task, .computing⟩ },
      some (.attempted {
        submission := submission
        started := submitted.1.flatMap Task.people
        outcome := submitted.2 }))
  | (timed, _) => ({ self with timed := timed }, none)

/-- A job comes to or goes on in its `finally` block, and ends when everybody is reported. -/
def finallyReports (self : Process) (index : Nat) (job : StartedJob) (succeeded : Bool)
    (people : List PersonAvailability) : Process :=
  match people with
  | [] => { self with jobs := self.jobs.eraseIdx index }
  | person :: rest =>
    let job := { job with stage := .reporting succeeded (person :: rest) }
    { self with jobs := self.jobs.set index job }

/-- The batch runner builds the summary of a job, or raises. -/
def computed (self : Process) (index : Nat) : Process :=
  match self.jobs[index]? with
  | some ⟨batch, task, .computing⟩ =>
    match task.summary with
    | .ok summary =>
      { self with jobs := self.jobs.set index ⟨batch, task, .publishing summary⟩ }
    | .error _ => self.finallyReports index ⟨batch, task, .computing⟩ false task.people
  | _ => self

/-- `consumer_pub.put` of a job. -/
def publishedSummary (self : Process) (index : Nat) (taken : Bool) : Process :=
  match self.jobs[index]? with
  | some ⟨batch, task, .publishing summary⟩ =>
    let published := if taken then [⟨batch, summary⟩] else []
    { self with published := self.published ++ published }.finallyReports index
      ⟨batch, task, .publishing summary⟩ taken task.people
  | _ => self

/-- `on_person_complete` of the next person of a job. -/
def reported (self : Process) (index : Nat) (now : Monotonic) :
    Process × Option Observation :=
  match self.jobs[index]? with
  | some ⟨batch, task, .reporting succeeded (person :: rest)⟩ =>
    let coordinator :=
      self.timed.coordinator.onPersonComplete config person succeeded now
    ({ self with timed := { self.timed with coordinator := coordinator } }.finallyReports index
        ⟨batch, task, .reporting succeeded (person :: rest)⟩ succeeded rest,
      some (.reported batch person succeeded))
  | _ => (self, none)

end Process

/-- The Python orchestrator process as a machine. -/
def process (config : OrchestratorConfig) (mode : JobSubmissionMode) (parsers : Parsers) :
    Machine Process ProcessEvent (Option Observation) where
  step self
    | .choresSample bytes now => (self.onChoresSample config parsers bytes now, none)
    | .personSample bytes now started =>
      (self.onPersonSample config parsers bytes now started, none)
    | .prune now =>
      ({ self with timed := ((timedCoordinator config).step self.timed (.prune now)).1 }, none)
    | .fire index now starts => self.fired config mode index now starts
    | .compute index => (self.computed index, none)
    | .publish index taken => (self.publishedSummary index taken, none)
    | .report index now => self.reported config index now

end BossWorker.Python
