import BossWorker.Rust.System

/-!
# The Rust orchestrator process

`main.rs` with `transport/handler.rs` and the thread pool of `execution/batch_runner.rs`: the
main loop receives payloads, ticks and completions, and every spawned task takes its own
steps. A task hands a closure to the pool, a free thread of the pool runs it, its results
come back through the oneshot channel, the task publishes a summary and sends its
completions. A step that is not due changes nothing. A closure that panics ends the process,
since the pool has no panic handler; a tick does not panic, as the times of a configuration are
ones that `Duration::from_secs_f64` accepts. Decoding and the answer of the transport are
arguments; published summaries carry the number of their call, as tasks do.
-/

namespace BossWorker.Rust

/-- `Chores::decode` and `PersonAvailability::decode`. -/
structure Decoders where
  chores : List UInt8 → Except String Chores
  person : List UInt8 → Except String PersonAvailability

namespace OrchestratorHandler

variable (decoders : Decoders) (coordinator : BatchCoordinator) (bytes : List UInt8)
  (now : Instant)

/-- `on_chores_bytes`. -/
def onChoresBytes : BatchCoordinator :=
  match decoders.chores bytes with
  | .ok chores => coordinator.receiveChores chores now
  | .error _ => coordinator

/-- `on_person_bytes`. -/
def onPersonBytes : BatchCoordinator :=
  match decoders.person bytes with
  | .ok person => coordinator.receivePerson person now
  | .error _ => coordinator

end OrchestratorHandler

namespace Task

/-- The chores of a task. -/
def chores : Task → Chores
  | .single chores _ => chores
  | .batch chores _ => chores

/-- What the closure of a task sends back; `none` is a panic. -/
def results : Task → Option (List ChoreFilterResult)
  | .single chores person => do
    let result ← processChoreFilterRequest (BatchRunner.buildChoreFilterRequest
      (BatchRunner.filterId chores person) chores person)
    return [result]
  | .batch chores people => people.mapM fun person =>
    processChoreFilterRequest (BatchRunner.buildChoreFilterRequest
      (BatchRunner.filterId chores person) chores person)

/-- The summary that a task builds from its results. -/
def summary (task : Task) (results : List ChoreFilterResult) : ChoreFilterSummary :=
  BatchRunner.buildSummary task.chores.choresId task.chores.context results

/-- The run of a task is its closure and the publication of its summary. -/
theorem run_eq (publish : ChoreFilterSummary → Bool) (task : Task) :
    task.run publish = match task.results with
      | none => ⟨[], false⟩
      | some results => BatchRunner.publishSummary publish (task.summary results) := by
  cases task with
  | single chores person =>
    simp only [run, BatchRunner.runChoreFilter, results, summary, Task.chores]
    cases processChoreFilterRequest (BatchRunner.buildChoreFilterRequest
        (BatchRunner.filterId chores person) chores person) with
    | none => rfl
    | some result => rfl
  | batch chores people => rfl

end Task

/-- Where a spawned task stands. -/
inductive JobStage where
  /-- It has not handed its closure to the pool. -/
  | spawned
  /-- Its closure waits for a thread of the pool. -/
  | queued
  /-- Its closure runs on a thread of the pool. -/
  | executing
  /-- It has received the results and is about to publish. -/
  | computed (results : List ChoreFilterResult)
  /-- The batch runner has returned, with `Ok` or an error. -/
  | returned (succeeded : Bool)
  deriving DecidableEq

/-- A spawned task and its stage. -/
structure SpawnedTask where
  running : Running
  stage : JobStage
  deriving DecidableEq

/-- A summary that the transport took. -/
structure PublishedSummary where
  /-- Position of the call among all calls. -/
  batch : Nat
  summary : ChoreFilterSummary
  deriving DecidableEq

/-- The orchestrator process with its pool. -/
structure Process where
  /-- The coordinator behind its mutex. -/
  coordinator : BatchCoordinator
  /-- Number of `submit_window` calls so far. -/
  batches : Nat
  /-- Tasks that have not ended. -/
  jobs : List SpawnedTask
  /-- The completion channel, oldest message first. -/
  queue : List Delivery
  /-- Summaries that the transport took, oldest first. -/
  published : List PublishedSummary
  /-- A closure has panicked. -/
  aborted : Bool

/-- One arm of the select, or one step of a task or of the pool. -/
inductive ProcessEvent where
  /-- A chores sample. -/
  | choresSample (bytes : List UInt8) (now : Instant)
  /-- A person sample. -/
  | personSample (bytes : List UInt8) (now : Instant)
  /-- A subscriber yields an error, which is logged. -/
  | receiveError
  /-- A tick of the interval timer. -/
  | tick (now : Instant) (order : Enumeration PendingPerson)
  /-- The task at a position hands its closure to the pool. -/
  | dispatch (index : Nat)
  /-- A free thread of the pool takes the closure of the task at a position. -/
  | start (index : Nat)
  /-- The closure of the task at a position ends. -/
  | compute (index : Nat)
  /-- The transport answers the task at a position; `taken` is the answer. -/
  | publish (index : Nat) (taken : Bool)
  /-- The task at a position sends its completions and ends. -/
  | report (index : Nat)
  /-- The receipt of the oldest completion. -/
  | consume

namespace Process

/-- The process before the main loop. -/
def start : Process where
  coordinator := .new
  batches := 0
  jobs := []
  queue := []
  published := []
  aborted := false

/-- Threads of the pool that run a closure. -/
def executing (self : Process) : Nat :=
  self.jobs.countP fun job => decide (job.stage = .executing)

/-- The task at a position goes on to a stage. -/
def enter (self : Process) (index : Nat) (job : SpawnedTask) (stage : JobStage) : Process :=
  { self with jobs := self.jobs.set index { job with stage := stage } }

/-- The process after a tick whose coordinator part is given. -/
def ticked (self : Process) (mode : JobSubmissionMode) (now : Instant)
    (result : BatchCoordinator × Option Submission) : Process × List Observation :=
  match result.2 with
  | none => ({ self with coordinator := result.1 }, [.pruned now])
  | some submission =>
    let tasks := mode.submitWindow submission.chores submission.people
    ({ self with
        coordinator := result.1
        batches := self.batches + 1
        jobs := self.jobs ++ tasks.map fun task => ⟨⟨self.batches, task⟩, .spawned⟩ },
      [.submitted now submission, .pruned now])

/-- `worker_pool.spawn`. -/
def dispatched (self : Process) (index : Nat) : Process :=
  match self.jobs[index]? with
  | some ⟨running, .spawned⟩ => self.enter index ⟨running, .spawned⟩ .queued
  | _ => self

/-- A free thread of a pool of a given size takes a closure. -/
def started (self : Process) (threads index : Nat) : Process :=
  match self.jobs[index]? with
  | some ⟨running, .queued⟩ =>
    if self.executing < threads then self.enter index ⟨running, .queued⟩ .executing else self
  | _ => self

/-- The end of a closure. -/
def computed (self : Process) (index : Nat) : Process :=
  match self.jobs[index]? with
  | some ⟨running, .executing⟩ =>
    match running.task.results with
    | some results => self.enter index ⟨running, .executing⟩ (.computed results)
    | none => { self with aborted := true }
  | _ => self

/-- `publish_summary`, with the answer of the transport. -/
def publishedSummary (self : Process) (index : Nat) (taken : Bool) : Process :=
  match self.jobs[index]? with
  | some ⟨running, .computed results⟩ =>
    let published :=
      if taken then [⟨running.batch, running.task.summary results⟩] else []
    { self with published := self.published ++ published }.enter index
      ⟨running, .computed results⟩ (.returned taken)
  | _ => self

/-- The end of a task: its completions are at the end of the queue. -/
def reported (self : Process) (index : Nat) : Process :=
  match self.jobs[index]? with
  | some ⟨running, .returned succeeded⟩ =>
    { self with
      jobs := self.jobs.eraseIdx index
      queue := self.queue ++ (running.task.completions succeeded).map fun completion =>
        ⟨running.batch, completion⟩ }
  | _ => self

/-- The process after the receipt of the oldest completion. -/
def consumed (self : Process) : Process × List Observation :=
  match self.queue with
  | [] => (self, [])
  | delivery :: rest =>
    ({ self with
        coordinator := self.coordinator.onPersonComplete delivery.completion
        queue := rest },
      [.consumed delivery])

variable (config : OrchestratorConfig) (mode : JobSubmissionMode) (decoders : Decoders)
  (threads : Nat)

/-- One step of a process that has not been aborted. -/
def step (self : Process) : ProcessEvent → Process × List Observation
  | .choresSample bytes now =>
    ({ self with coordinator :=
        OrchestratorHandler.onChoresBytes decoders self.coordinator bytes now }, [])
  | .personSample bytes now =>
    ({ self with coordinator :=
        OrchestratorHandler.onPersonBytes decoders self.coordinator bytes now }, [])
  | .receiveError => (self, [])
  | .tick now order =>
    self.ticked mode now (self.coordinator.expireStaleIfIdle config now order)
  | .dispatch index => (self.dispatched index, [])
  | .start index => (self.started threads index, [])
  | .compute index => (self.computed index, [])
  | .publish index taken => (self.publishedSummary index taken, [])
  | .report index => (self.reported index, [])
  | .consume => self.consumed

end Process

/-- The orchestrator process as a machine. -/
def process (config : OrchestratorConfig) (mode : JobSubmissionMode) (decoders : Decoders)
    (threads : Nat) : Machine Process ProcessEvent (List Observation) where
  step self event :=
    if self.aborted then (self, []) else self.step config mode decoders threads event

end BossWorker.Rust
