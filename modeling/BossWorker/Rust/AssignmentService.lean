import BossWorker.Rust.AssignmentHandler

/-!
# The Rust assignment service

`assignment/src/main.rs` with `handle_assignment_bytes`. Zenoh puts the payloads of requests
into a bounded channel, from which the main loop takes them one after the other; while the
channel is full, Zenoh waits. A request that cannot be decoded or solved is logged, and an
error of the channel or of the publisher ends `main`. The codec of `prost` is an argument.
-/

namespace BossWorker.Rust

/-- `AssignmentRequest::decode` and `AssignmentResult::encode`. -/
structure AssignmentCodec (Payload : Type) where
  decode : Payload → Except DynError AssignmentRequest
  encode : AssignmentResult → Payload

/-- Places in the channel of the subscriber. -/
def channelCapacity : Nat := 1024

/-- The service: its channel and whether `main` still runs. -/
structure AssignmentService (Payload : Type) where
  /-- Payloads in the channel, oldest first. -/
  channel : List Payload
  running : Bool
  deriving DecidableEq

variable {Payload : Type} (codec : AssignmentCodec Payload) (lapjv : Lapjv)

/-- `handle_assignment_bytes`. -/
def handleAssignmentBytes (payload : Payload) : Except DynError Payload := do
  let request ← codec.decode payload
  let result ← handleAssignmentRequest lapjv request
  return codec.encode result

namespace AssignmentService

variable (self : AssignmentService Payload)

/-- A service that has just subscribed. -/
def new : AssignmentService Payload where
  channel := []
  running := true

/-- Zenoh can put a payload into the channel. -/
def Accepts : Prop := self.running = true ∧ self.channel.length < channelCapacity

instance : Decidable self.Accepts := inferInstanceAs (Decidable (_ ∧ _))

/-- Zenoh puts a payload into the channel. -/
def receive (payload : Payload) : AssignmentService Payload :=
  { self with channel := self.channel ++ [payload] }

/-- A turn of the main loop over the payload it has taken: the service afterwards and the
answer, if one is published. `taken` tells whether `put` succeeds. -/
def serve (payload : Payload) (rest : List Payload) (taken : Bool) :
    AssignmentService Payload × Option Payload :=
  match handleAssignmentBytes codec lapjv payload with
  | .ok answer =>
    if taken then ({ self with channel := rest }, some answer)
    else ({ channel := rest, running := false }, none)
  | .error _ => ({ self with channel := rest }, none)

/-- `recv_async` fails. -/
def disconnect : AssignmentService Payload := { self with running := false }

end AssignmentService

end BossWorker.Rust
