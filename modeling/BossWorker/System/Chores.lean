import BossWorker.Python.Consumer
import BossWorker.Python.Process
import BossWorker.Python.Producer
import BossWorker.Rust.Process

/-!
# The chore demo

Producers put chores and people under two keys, orchestrators in either language receive them
and put summaries under a third key, and consumers log the summaries. A payload put under a
key may reach any subscriber at any later time, more than once, out of order or never. A step
is one of the parties or Zenoh acting; a step that is not due changes nothing. The codecs are
arguments.
-/

namespace BossWorker

open BossWorker.Python (Producer ProducerEvent ProducerMessage ConsumerLine)

/-- The codecs of the parties. -/
structure ChoreDemo where
  /-- `Chores.SerializeToString` of the producer. -/
  serializeChores : Chores → List UInt8
  /-- `PersonAvailability.SerializeToString` of the producer. -/
  serializePerson : PersonAvailability → List UInt8
  decoders : Rust.Decoders
  parsers : Python.Parsers
  /-- `ChoreFilterSummary::encode_to_vec` of the Rust orchestrator. -/
  encodeSummary : ChoreFilterSummary → List UInt8
  /-- `ChoreFilterSummary.SerializeToString` of the Python orchestrator. -/
  serializeSummary : ChoreFilterSummary → List UInt8
  /-- `ChoreFilterSummary.ParseFromString` of the consumer. -/
  parseSummary : List UInt8 → Except String ChoreFilterSummary

/-- An orchestrator in one of the languages, with its settings. -/
inductive ChoreOrchestrator where
  | rust (config : Rust.OrchestratorConfig) (mode : Rust.JobSubmissionMode) (threads : Nat)
      (process : Rust.Process)
  | python (config : Python.OrchestratorConfig) (mode : Python.JobSubmissionMode)
      (process : Python.Process)

/-- The settings of an orchestrator. -/
inductive OrchestratorSettings where
  | rust (config : Rust.OrchestratorConfig) (mode : Rust.JobSubmissionMode) (threads : Nat)
  | python (config : Python.OrchestratorConfig) (mode : Python.JobSubmissionMode)

namespace ChoreOrchestrator

/-- An orchestrator that has just subscribed. -/
def new : OrchestratorSettings → ChoreOrchestrator
  | .rust config mode threads => .rust config mode threads .start
  | .python config mode => .python config mode .start

/-- The summaries that an orchestrator has put, oldest first. -/
def published : ChoreOrchestrator → List ChoreFilterSummary
  | .rust _ _ _ process => process.published.map Rust.PublishedSummary.summary
  | .python _ _ process => process.published.map Python.PublishedSummary.summary

/-- The payload that an orchestrator makes of a summary. -/
def payload (setup : ChoreDemo) (summary : ChoreFilterSummary) : ChoreOrchestrator → List UInt8
  | .rust _ _ _ _ => setup.encodeSummary summary
  | .python _ _ _ => setup.serializeSummary summary

end ChoreOrchestrator

/-- What has been put under the keys of the producers, and the parties. -/
structure ChoreSystem where
  /-- Payloads put under the key of the chores, oldest first. -/
  choresPayloads : List (List UInt8)
  /-- Payloads put under the key of the people, oldest first. -/
  personPayloads : List (List UInt8)
  producers : List Producer
  orchestrators : List ChoreOrchestrator

/-- A step of a party or of Zenoh. -/
inductive ChoreEvent where
  /-- A producer goes on in its loop. -/
  | produce (producer : Nat) (event : ProducerEvent)
  /-- A step of a Rust orchestrator. -/
  | rust (orchestrator : Nat) (event : Rust.ProcessEvent)
  /-- A step of a Python orchestrator. -/
  | python (orchestrator : Nat) (event : Python.ProcessEvent)
  /-- Zenoh brings the summary at a position of an orchestrator to a consumer. -/
  | consume (orchestrator position : Nat)

/-- What a step shows. -/
inductive ChoreObservation where
  /-- A producer has put a message. -/
  | sent (producer : Nat) (message : ProducerMessage)
  /-- A consumer has been brought a summary of an orchestrator and logs lines. -/
  | logged (orchestrator : Nat) (summary : ChoreFilterSummary) (lines : List ConsumerLine)
  deriving DecidableEq

/-- The payload of a sample has been put under its key. -/
def Rust.ProcessEvent.carried (system : ChoreSystem) : Rust.ProcessEvent → Bool
  | .choresSample bytes _ => decide (bytes ∈ system.choresPayloads)
  | .personSample bytes _ => decide (bytes ∈ system.personPayloads)
  | _ => true

/-- The payload of a sample has been put under its key. -/
def Python.ProcessEvent.carried (system : ChoreSystem) : Python.ProcessEvent → Bool
  | .choresSample bytes _ => decide (bytes ∈ system.choresPayloads)
  | .personSample bytes _ _ => decide (bytes ∈ system.personPayloads)
  | _ => true

namespace ChoreSystem

variable (setup : ChoreDemo) (self : ChoreSystem)

/-- The parties before the first cycle. -/
def start (producers : Nat) (orchestrators : List OrchestratorSettings) : ChoreSystem where
  choresPayloads := []
  personPayloads := []
  producers := List.replicate producers .new
  orchestrators := orchestrators.map ChoreOrchestrator.new

/-- A message is put under its key. -/
def put (message : ProducerMessage) : ChoreSystem :=
  match message with
  | .chores chores =>
    { self with choresPayloads := self.choresPayloads ++ [setup.serializeChores chores] }
  | .person person =>
    { self with personPayloads := self.personPayloads ++ [setup.serializePerson person] }

/-- A producer goes on in its loop. -/
def produced (producer : Nat) (event : ProducerEvent) : ChoreSystem × List ChoreObservation :=
  match self.producers[producer]? with
  | some party =>
    match Producer.machine.step party event with
    | (next, none) => ({ self with producers := self.producers.set producer next }, [])
    | (next, some message) =>
      ({ self with producers := self.producers.set producer next }.put setup message,
        [.sent producer message])
  | none => (self, [])

/-- A Rust orchestrator takes a step. -/
def rustStepped (orchestrator : Nat) (event : Rust.ProcessEvent) : ChoreSystem :=
  match self.orchestrators[orchestrator]? with
  | some (.rust config mode threads process) =>
    if event.carried self then
      let next := ((Rust.process config mode setup.decoders threads).step process event).1
      { self with orchestrators :=
          self.orchestrators.set orchestrator (.rust config mode threads next) }
    else self
  | _ => self

/-- A Python orchestrator takes a step. -/
def pythonStepped (orchestrator : Nat) (event : Python.ProcessEvent) : ChoreSystem :=
  match self.orchestrators[orchestrator]? with
  | some (.python config mode process) =>
    if event.carried self then
      let next := ((Python.process config mode setup.parsers).step process event).1
      { self with orchestrators :=
          self.orchestrators.set orchestrator (.python config mode next) }
    else self
  | _ => self

/-- A consumer is brought a summary. -/
def consumed (orchestrator position : Nat) : List ChoreObservation :=
  match self.orchestrators[orchestrator]? with
  | some party =>
    match party.published[position]? with
    | some summary =>
      [.logged orchestrator summary
        (Python.Consumer.onSummary setup.parseSummary (party.payload setup summary))]
    | none => []
  | none => []

end ChoreSystem

/-- The chore demo as a machine. -/
def choreSystem (setup : ChoreDemo) : Machine ChoreSystem ChoreEvent (List ChoreObservation) where
  step self
    | .produce producer event => self.produced setup producer event
    | .rust orchestrator event => (self.rustStepped setup orchestrator event, [])
    | .python orchestrator event => (self.pythonStepped setup orchestrator event, [])
    | .consume orchestrator position => (self, self.consumed setup orchestrator position)

end BossWorker
