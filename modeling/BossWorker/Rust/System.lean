import BossWorker.Rust.Executor

/-!
# The Rust orchestrator as a step system

`main.rs` selects between incoming chores, incoming people, clock ticks and completions
while spawned tasks run. One event is one arm of the select or the end of one task, so a
list of events is an interleaving; an event that is not enabled changes nothing. Tasks and
completions carry the number of the `submit_window` call they come from. The code has no
such number: it only names what is counted.
-/

namespace BossWorker.Rust

/-- A spawned task and the call that spawned it. -/
structure Running where
  /-- Position of the call among all calls. -/
  batch : Nat
  /-- The task. -/
  task : Task
  deriving DecidableEq

/-- A completion in the channel and the call it belongs to. -/
structure Delivery where
  /-- Position of the call among all calls. -/
  batch : Nat
  /-- The message. -/
  completion : PersonJobCompletion
  deriving DecidableEq

/-- The orchestrator process. -/
structure Orchestrator where
  /-- The coordinator behind its mutex. -/
  coordinator : BatchCoordinator
  /-- Number of `submit_window` calls so far. -/
  batches : Nat
  /-- Tasks that have not ended. -/
  running : List Running
  /-- The completion channel, oldest message first. -/
  queue : List Delivery

/-- The process before the main loop. -/
def Orchestrator.start : Orchestrator := ⟨BatchCoordinator.new, 0, [], []⟩

/-- One arm of the select, or the end of a task. -/
inductive SystemEvent where
  /-- A decoded chores sample. -/
  | chores (chores : Chores) (now : Instant)
  /-- A decoded person sample. -/
  | person (person : PersonAvailability) (now : Instant)
  /-- A tick of the interval timer. -/
  | tick (now : Instant) (order : Enumeration PendingPerson)
  /-- The end of the task at a position of `running`, with the result of its runner. -/
  | finish (index : Nat) (succeeded : Bool)
  /-- The receipt of the oldest completion. -/
  | consume

/-- What an event does that its surroundings can see. -/
inductive Observation where
  /-- A `submit_window` call. -/
  | submitted (now : Instant) (submission : Submission)
  /-- A completion handed to the coordinator. -/
  | consumed (delivery : Delivery)
  /-- A pass over the selection history. -/
  | pruned (now : Instant)

/-- The process after a tick whose coordinator part is given. -/
def Orchestrator.ticked (self : Orchestrator) (mode : JobSubmissionMode) (now : Instant)
    (result : BatchCoordinator × Option Submission) : Orchestrator × List Observation :=
  match result.2 with
  | none => ({ self with coordinator := result.1 }, [.pruned now])
  | some submission =>
    let tasks := mode.submitWindow submission.chores submission.people
    ({ self with
        coordinator := result.1
        batches := self.batches + 1
        running := self.running ++ tasks.map fun task => ⟨self.batches, task⟩ },
      [.submitted now submission, .pruned now])

/-- The process after the end of a task: its completions are at the end of the queue. -/
def Orchestrator.finished (self : Orchestrator) (index : Nat) (succeeded : Bool) :
    Orchestrator :=
  match self.running[index]? with
  | none => self
  | some job =>
    { self with
      running := self.running.eraseIdx index
      queue := self.queue ++ (job.task.completions succeeded).map fun completion =>
        ⟨job.batch, completion⟩ }

/-- The process after the receipt of the oldest completion. -/
def Orchestrator.consumed (self : Orchestrator) : Orchestrator × List Observation :=
  match self.queue with
  | [] => (self, [])
  | delivery :: rest =>
    ({ self with
        coordinator := self.coordinator.onPersonComplete delivery.completion
        queue := rest },
      [.consumed delivery])

/-- The step system. -/
def orchestrator (config : OrchestratorConfig) (mode : JobSubmissionMode) :
    Machine Orchestrator SystemEvent (List Observation) where
  step self
    | .chores chores now =>
      ({ self with coordinator := self.coordinator.receiveChores chores now }, [])
    | .person person now =>
      ({ self with coordinator := self.coordinator.receivePerson person now }, [])
    | .tick now order =>
      self.ticked mode now (self.coordinator.expireStaleIfIdle config now order)
    | .finish index succeeded => (self.finished index succeeded, [])
    | .consume => self.consumed

namespace Orchestrator

/-- Submitted people whose completion has not been consumed: those a task still has to
report and those reported in the queue. -/
def outstanding (self : Orchestrator) : List (Nat × String) :=
  (self.running.flatMap fun job => job.task.people.map fun person =>
      (job.batch, person.personId)) ++
    self.queue.map fun delivery => (delivery.batch, delivery.completion.personId)

end Orchestrator

/-- The `submit_window` calls of a log, in order. -/
def submissions (log : List Observation) : List Submission :=
  log.filterMap fun
    | .submitted _ submission => some submission
    | .consumed _ => none
    | .pruned _ => none

/-- The people of every `submit_window` call of a log, each with the number of its call. -/
def submittedPeople (log : List Observation) : List (Nat × String) :=
  (submissions log).zipIdx.flatMap fun call => call.1.personIds.map fun id => (call.2, id)

/-- The people whose completion a log hands to the coordinator. -/
def consumedPeople (log : List Observation) : List (Nat × String) :=
  log.filterMap fun
    | .submitted _ _ => none
    | .consumed delivery => some (delivery.batch, delivery.completion.personId)
    | .pruned _ => none

end BossWorker.Rust
