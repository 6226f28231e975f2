import BossWorker.Proto.Assignment

/-!
# The rounds of the publisher

`assignment/publisher.py`, the outer loop of `main`: a request is built and put, and then
results are taken from the queue until one carries its id or none comes in time. Time is left
out: a wait may be given up whenever the queue is empty. Results that Zenoh delivers are
queued from a thread of their own, also between two rounds. A `put` that raises ends `main`.
-/

namespace BossWorker.Python

/-- What `build_request` takes from its surroundings. -/
structure Nonce where
  assignmentUuid : String
  requestUuid : String
  createdAtUnixMs : Int64
  deriving DecidableEq

/-- `build_request`. -/
def buildRequest (nonce : Nonce) : AssignmentRequest where
  assignmentId := "assignment-" ++ nonce.assignmentUuid
  context := some {
    requestId := "req-" ++ nonce.requestUuid
    createdAtUnixMs := nonce.createdAtUnixMs
    source := "assignment-demo-publisher"
    tags := Dict.empty.insert "mode" "demo" }
  workers := [⟨"alice", "Alice"⟩, ⟨"bob", "Bob"⟩, ⟨"carol", "Carol"⟩]
  jobs := [⟨"dishes", "Wash dishes"⟩, ⟨"laundry", "Fold laundry"⟩, ⟨"vacuum", "Vacuum"⟩]
  costs := [
    ⟨"alice", "dishes", 1⟩, ⟨"alice", "laundry", 10⟩, ⟨"alice", "vacuum", 5⟩,
    ⟨"bob", "dishes", 10⟩, ⟨"bob", "laundry", 1⟩, ⟨"bob", "vacuum", 5⟩,
    ⟨"carol", "dishes", 5⟩, ⟨"carol", "laundry", 5⟩, ⟨"carol", "vacuum", 1⟩]

/-- Where the outer loop stands. -/
inductive PublisherStage where
  /-- Before the next request. -/
  | idle
  /-- Taking results. -/
  | waiting (request : AssignmentRequest)
  /-- `main` has ended. -/
  | ended
  deriving DecidableEq

/-- The publisher. -/
structure Publisher where
  stage : PublisherStage
  /-- `result_queue`, oldest first. -/
  resultQueue : List AssignmentResult
  deriving DecidableEq

namespace Publisher

/-- The publisher before its first round. -/
def new : Publisher where
  stage := .idle
  resultQueue := []

/-- The request whose result the publisher waits for. -/
def waiting (self : Publisher) : List AssignmentRequest :=
  match self.stage with
  | .waiting request => [request]
  | _ => []

/-- The start of a round; `taken` tells whether `put` returns. -/
def publish (self : Publisher) (request : AssignmentRequest) (taken : Bool) : Publisher :=
  { self with stage := if taken then .waiting request else .ended }

/-- `on_result`; a publisher that has ended is not called. -/
def onResult {Payload : Type} (parse : Payload → Except String AssignmentResult)
    (self : Publisher) (payload : Payload) : Publisher :=
  match self.stage, parse payload with
  | .ended, _ => self
  | _, .ok result => { self with resultQueue := self.resultQueue ++ [result] }
  | _, .error _ => self

/-- The publisher takes a result that it waits for or ignores. -/
def take (self : Publisher) (request : AssignmentRequest) (result : AssignmentResult)
    (rest : List AssignmentResult) : Publisher where
  stage := if result.assignmentId ≠ request.assignmentId then self.stage else .idle
  resultQueue := rest

/-- The wait is given up. -/
def giveUp (self : Publisher) : Publisher := { self with stage := .idle }

end Publisher

end BossWorker.Python
