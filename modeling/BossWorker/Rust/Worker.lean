import BossWorker.Base.Broker
import BossWorker.Base.Machine
import BossWorker.Proto.Example1
import Mathlib.Algebra.Order.Round
import Mathlib.Data.Rat.Floor

/-!
# The RabbitMQ workers

`worker/src/main.rs` with `publish_bytes` of `bw-core/src/rabbitmq.rs`: any number of worker
processes consume the jobs queue with prefetch 1 and publish to the results queue. A step is
one call of one worker or one act of the broker, in any order; a step that is not due leaves
everything as it is. What a call answers, how long a worker sleeps, and at which position a
message becomes ready again are part of the step. `Job::decode` is an argument, and a stored
result is kept as the message it encodes.
-/

namespace BossWorker.Rust

open Example1 (JobResult WorkPayload)

/-- `Job::decode`. -/
abbrev DecodeJob : Type := List UInt8 → Except String Example1.Job

/-- The value that `process_delivery` reports as processed. -/
def payloadValue (payload : Option WorkPayload) : String :=
  match payload.bind WorkPayload.kind with
  | some (.text text) => text
  | some (.numericValue number) => toString number
  | some (.rawBytes _) => "<bytes>"
  | none => ""

/-- The result that `process_delivery` publishes. -/
def buildJobResult (workerName : String) (sleepTime : ℚ) (job : Example1.Job) : JobResult where
  batchId := job.batchId
  jobId := job.jobId
  worker := workerName
  result := "processed-" ++ payloadValue job.payload
  processingSeconds := (round (sleepTime * 100) : ℤ) / 100
  context := job.context
  warnings := []

example : buildJobResult "worker-1" (5 / 4) {
    batchId := "batch", jobId := 3, payload := some { kind := some (.numericValue (-5)) } } = {
    batchId := "batch", jobId := 3, worker := "worker-1", result := "processed--5",
    processingSeconds := 5 / 4 } := by decide +kernel

/-- A message of the jobs queue: its body, and its place among the initial ones, which tells
it from another message with the same body. -/
structure JobMessage where
  place : Nat
  body : List UInt8
  deriving DecidableEq

/-- Where a worker stands in its loop. -/
inductive WorkerStage where
  /-- At `consumer.next()`. -/
  | waiting
  /-- It has a delivery and is about to decode it. -/
  | received (message : JobMessage)
  /-- It has decoded the job, and sleeps or publishes. -/
  | decoded (message : JobMessage) (job : Example1.Job)
  /-- `process_delivery` has returned `Ok`, and the delivery is not acked yet. -/
  | processed (message : JobMessage)
  /-- `process_delivery` has returned `Err`, and the delivery is not nacked yet. -/
  | failed (message : JobMessage)
  deriving DecidableEq

/-- The two queues and the running workers. -/
structure JobSystem where
  jobs : Broker Nat JobMessage
  workers : Dict Nat WorkerStage
  results : List JobResult
  deriving DecidableEq

/-- What becomes of a published result. The channel is not in confirm mode and the message not
mandatory, so `publish_bytes` does not learn whether the broker has stored it; that it has
whenever `Ok` is returned is assumed of the broker. -/
inductive Publication where
  /-- Stored, and `publish_bytes` returns `Ok`. -/
  | confirmed
  /-- Stored, and `publish_bytes` returns an error. -/
  | unconfirmed
  /-- Not stored, and `publish_bytes` returns an error. -/
  | refused
  deriving DecidableEq

/-- One step of a worker or of the broker. Workers are told apart by a number. -/
inductive WorkerEvent where
  /-- A worker process starts and consumes the jobs queue. -/
  | join (worker : Nat)
  /-- The broker delivers the ready message at a position. -/
  | deliver (worker : Nat) (position : Nat)
  /-- The consumer yields an error, which is logged. -/
  | consumerError (worker : Nat)
  /-- `Job::decode` returns. -/
  | decode (worker : Nat)
  /-- `publish_bytes` returns after a sleep. -/
  | publish (worker : Nat) (sleepTime : ℚ) (publication : Publication)
  /-- `ack` returns, with `Ok` or an error; `settled` tells whether it reached the broker. -/
  | ack (worker : Nat) (settled ok : Bool) (position : Nat)
  /-- `nack` with `requeue: true` returns. -/
  | nack (worker : Nat) (settled ok : Bool) (position : Nat)
  /-- The worker ends: it crashes, or its consumer has no next delivery. -/
  | exit (worker : Nat) (position : Nat)

namespace JobSystem

/-- All bodies ready, no worker and no result. -/
def new (bodies : List (List UInt8)) : JobSystem where
  jobs := .filled (bodies.zipIdx.map fun entry => ⟨entry.2, entry.1⟩)
  workers := .empty
  results := []

/-- A worker goes on to a stage. -/
def enter (system : JobSystem) (worker : Nat) (stage : WorkerStage) : JobSystem :=
  { system with workers := system.workers.insert worker stage }

/-- A worker is gone, and its unacknowledged delivery is ready again. -/
def exit (system : JobSystem) (worker : Nat) (position : Nat) : JobSystem :=
  { system with
    jobs := system.jobs.requeue worker position
    workers := system.workers.erase worker }

/-- A delivery has been answered: the worker waits for the next one, or `main` returns the
error. -/
def answered (system : JobSystem) (worker : Nat) (ok : Bool) (position : Nat) : JobSystem :=
  if ok then system.enter worker .waiting else system.exit worker position

variable (decode : DecodeJob) (workerName : Nat → String)

/-- One step, and the message that it delivers. -/
def step (system : JobSystem) : WorkerEvent → JobSystem × Option JobMessage
  | .join worker =>
    match system.workers.get? worker with
    | none => (system.enter worker .waiting, none)
    | some _ => (system, none)
  | .deliver worker position =>
    match system.workers.get? worker, system.jobs.deliver worker position with
    | some .waiting, (jobs, some message) =>
      ({ system with jobs := jobs }.enter worker (.received message), some message)
    | _, _ => (system, none)
  | .consumerError _ => (system, none)
  | .decode worker =>
    match system.workers.get? worker with
    | some (.received message) =>
      match decode message.body with
      | .ok job => (system.enter worker (.decoded message job), none)
      | .error _ => (system.enter worker (.failed message), none)
    | _ => (system, none)
  | .publish worker sleepTime publication =>
    match system.workers.get? worker with
    | some (.decoded message job) =>
      let result := buildJobResult (workerName worker) sleepTime job
      match publication with
      | .confirmed => ({ system with results := system.results ++ [result] }.enter worker
          (.processed message), none)
      | .unconfirmed => ({ system with results := system.results ++ [result] }.enter worker
          (.failed message), none)
      | .refused => (system.enter worker (.failed message), none)
    | _ => (system, none)
  | .ack worker settled ok position =>
    match system.workers.get? worker with
    | some (.processed _) =>
      let jobs := if settled then system.jobs.settle worker else system.jobs
      ({ system with jobs := jobs }.answered worker ok position, none)
    | _ => (system, none)
  | .nack worker settled ok position =>
    match system.workers.get? worker with
    | some (.failed _) =>
      let jobs := if settled then system.jobs.requeue worker position else system.jobs
      ({ system with jobs := jobs }.answered worker ok position, none)
    | _ => (system, none)
  | .exit worker position => (system.exit worker position, none)

/-- The workers and the two queues as a machine. -/
def machine : Machine JobSystem WorkerEvent (Option JobMessage) := ⟨step decode workerName⟩

end JobSystem

/-- One pass of the loop of a single worker while every call succeeds. The delivery is the head
of the queue, and a message given back is its head again. After a decode that fails only the
`nack` is due, otherwise the `publish` and the `ack` are. -/
def loopPass (sleepTime : ℚ) : List WorkerEvent :=
  [.deliver 0 0, .decode 0, .publish 0 sleepTime .confirmed, .ack 0 true true 0,
    .nack 0 true true 0]

/-- The loop of a single worker while every call succeeds, a pass for each sleep. -/
def consumeLoop (sleepTimes : List ℚ) : List WorkerEvent :=
  .join 0 :: sleepTimes.flatMap loopPass

end BossWorker.Rust
