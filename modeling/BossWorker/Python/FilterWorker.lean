import BossWorker.Base.Machine
import BossWorker.Python.Processor

/-!
# The remote chore filter

`worker/main.py`: Zenoh calls `on_request` with payloads, which are parsed and submitted to a
`ThreadPoolExecutor`, whose threads filter the chores and put the results. A step is one call
of `on_request`, or one of what a thread of the pool does; a step that is not due changes
nothing. Every exception is logged and ends its own request only; the sleep between filtering
and result raises one for a time that `time.sleep` does not take, such as a negative one.
Parsing, whether the sleep returns and the answer of the transport are arguments.
-/

namespace BossWorker.Python

/-- `ChoreFilterRequest.ParseFromString`. -/
abbrev ParseRequest : Type := List UInt8 → Except String ChoreFilterRequest

/-- Where `handle_chore_filter_request` stands. -/
inductive HandlerStage where
  /-- In `process_chore_filter_request`. -/
  | processing
  /-- Before `result_pub.put`. -/
  | publishing (result : ChoreFilterResult)
  deriving DecidableEq

/-- A request that a thread of the pool handles. -/
structure HandledRequest where
  request : ChoreFilterRequest
  stage : HandlerStage
  deriving DecidableEq

/-- The worker process. -/
structure FilterWorker where
  /-- Submitted requests that no thread has taken, oldest first. -/
  waiting : List ChoreFilterRequest
  /-- Requests that the threads handle. -/
  running : List HandledRequest
  /-- Results that the transport took, oldest first. -/
  published : List ChoreFilterResult
  deriving DecidableEq

/-- A step of one of the threads. -/
inductive FilterWorkerEvent where
  /-- `on_request`. -/
  | request (payload : List UInt8)
  /-- A free thread of the pool calls `handle_chore_filter_request`. -/
  | start
  /-- `process_chore_filter_request` of the thread at a position returns or raises; `slept`
  tells whether its `time.sleep` returns. -/
  | process (index : Nat) (slept : Bool)
  /-- `put` of the thread at a position returns or raises. -/
  | publish (index : Nat) (taken : Bool)

/-- What a step shows. -/
inductive HandlerReport where
  /-- A thread has taken the request. -/
  | started (request : ChoreFilterRequest)
  /-- The call for the request has ended, with the result if it has been sent. -/
  | ended (request : ChoreFilterRequest) (result : Option ChoreFilterResult)
  deriving DecidableEq

namespace FilterWorker

/-- The worker before its first request. -/
def new : FilterWorker where
  waiting := []
  running := []
  published := []

variable (parse : ParseRequest) (workerName : String) (maxWorkers : Nat)

/-- `on_request`. -/
def onRequest (state : FilterWorker) (payload : List UInt8) : FilterWorker :=
  match parse payload with
  | .ok request => { state with waiting := state.waiting ++ [request] }
  | .error _ => state

/-- A thread of the pool takes the oldest request. -/
def started (state : FilterWorker) : FilterWorker × Option HandlerReport :=
  match state.waiting with
  | request :: rest =>
    if state.running.length < maxWorkers then
      ({ state with waiting := rest, running := state.running ++ [⟨request, .processing⟩] },
        some (.started request))
    else (state, none)
  | [] => (state, none)

/-- A thread goes on with what its call has returned, or logs what it raised. -/
def filtered (state : FilterWorker) (index : Nat) (request : ChoreFilterRequest) :
    Except OutOfRange ChoreFilterResult → FilterWorker × Option HandlerReport
  | .ok result =>
    ({ state with running := state.running.set index ⟨request, .publishing result⟩ }, none)
  | .error _ =>
    ({ state with running := state.running.eraseIdx index }, some (.ended request none))

/-- A thread logs what its sleep raised. -/
def awakened (state : FilterWorker) (index : Nat) (request : ChoreFilterRequest) :
    FilterWorker × Option HandlerReport :=
  ({ state with running := state.running.eraseIdx index }, some (.ended request none))

/-- `process_chore_filter_request` of a thread. -/
def processed (state : FilterWorker) (index : Nat) (slept : Bool) :
    FilterWorker × Option HandlerReport :=
  match state.running[index]? with
  | some ⟨request, .processing⟩ =>
    if slept then
      state.filtered index request (Worker.processChoreFilterRequest request workerName)
    else state.awakened index request
  | _ => (state, none)

/-- `result_pub.put` of a thread. -/
def publishedResult (state : FilterWorker) (index : Nat) (taken : Bool) :
    FilterWorker × Option HandlerReport :=
  match state.running[index]? with
  | some ⟨request, .publishing result⟩ =>
    let sent := if taken then some result else none
    ({ state with
        running := state.running.eraseIdx index
        published := state.published ++ sent.toList },
      some (.ended request sent))
  | _ => (state, none)

end FilterWorker

/-- The worker process as a machine. -/
def filterWorker (parse : ParseRequest) (workerName : String) (maxWorkers : Nat) :
    Machine FilterWorker FilterWorkerEvent (Option HandlerReport) where
  step state
    | .request payload => (state.onRequest parse payload, none)
    | .start => state.started maxWorkers
    | .process index slept => state.processed workerName index slept
    | .publish index taken => state.publishedResult index taken

end BossWorker.Python
