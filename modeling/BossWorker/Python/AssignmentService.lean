import BossWorker.Python.AssignmentHandler

/-!
# The Python assignment service

`assignment/main.py` with `handle_assignment_bytes`. Zenoh calls `on_request` with the payload
of a request; every exception is logged, whether it comes from the parser, the handler or
the publisher. The codec of the generated classes is an argument. As it stands the service
cannot be imported, for the names that `solver.py` uses without importing them; it is read as
with those names imported.
-/

namespace BossWorker.Python

/-- `AssignmentRequest.ParseFromString` and `AssignmentResult.SerializeToString`. -/
structure AssignmentCodec (Payload : Type) where
  parse : Payload → Except String AssignmentRequest
  serialize : AssignmentResult → Payload

/-- The exception that `handle_assignment_bytes` ends with. -/
inductive BytesError where
  /-- Raised by the parser. -/
  | parse (text : String)
  /-- Raised by the handler. -/
  | handler (error : AssignmentError)
  deriving DecidableEq

variable {Payload : Type} (codec : AssignmentCodec Payload)
  (linearSumAssignment : LinearSumAssignment)

/-- `handle_assignment_bytes`. -/
def handleAssignmentBytes (payload : Payload) : Except BytesError Payload := do
  let request ← (codec.parse payload).mapError .parse
  let result ← (handleAssignmentRequest linearSumAssignment request).mapError .handler
  return codec.serialize result

/-- `on_request`: the answer, if one is published. `taken` tells whether `put` returns. -/
def onRequest (payload : Payload) (taken : Bool) : Option Payload :=
  match handleAssignmentBytes codec linearSumAssignment payload with
  | .ok answer => if taken then some answer else none
  | .error _ => none

end BossWorker.Python
