import BossWorker.Base.Machine
import BossWorker.Python.AssignmentService
import BossWorker.Python.PublisherLoop
import BossWorker.Rust.AssignmentService

/-!
# The assignment demo

Any number of publishers and of services in either language share two keys. A payload put
under a key may reach any subscriber at any later time, more than once, out of order or never,
and other clients may put payloads under both keys. Every service hears all requests, every
publisher all results. A step is one of these parties or Zenoh acting; a step that is not due
changes nothing. How requests are built, the codecs and the two solvers are arguments.
-/

namespace BossWorker

/-- Codecs of the parties, and the solvers of the services. -/
structure Assignments (Payload : Type) where
  /-- `AssignmentRequest.SerializeToString` of the publisher. -/
  serialize : AssignmentRequest → Payload
  /-- `AssignmentResult.ParseFromString` of the publisher. -/
  parse : Payload → Except String AssignmentResult
  rustCodec : Rust.AssignmentCodec Payload
  pythonCodec : Python.AssignmentCodec Payload
  lapjv : Rust.Lapjv
  linearSumAssignment : Python.LinearSumAssignment

/-- The language of a service. -/
inductive Language where
  | rust
  | python
  deriving DecidableEq

/-- A service in one of the languages. -/
inductive Service (Payload : Type) where
  | rust (service : Rust.AssignmentService Payload)
  | python
  deriving DecidableEq

/-- A service that has just subscribed. -/
def Service.new {Payload : Type} : Language → Service Payload
  | .rust => .rust .new
  | .python => .python

/-- What has been put under the keys, and the parties. -/
structure AssignmentSystem (Payload : Type) where
  /-- Payloads put under the request key, oldest first. -/
  requests : List Payload
  /-- Payloads put under the result key, oldest first. -/
  results : List Payload
  services : List (Service Payload)
  publishers : List Python.Publisher
  deriving DecidableEq

/-- A step of a party, of Zenoh or of another client. -/
inductive AssignmentEvent (Payload ν : Type) where
  /-- A publisher starts a round. -/
  | publish (publisher : Nat) (nonce : ν) (taken : Bool)
  /-- Zenoh brings the request at a position to a service. A Python service answers at once;
  `taken` is the answer of its publisher. -/
  | request (service position : Nat) (taken : Bool)
  /-- The main loop of a Rust service takes a payload from its channel. -/
  | serve (service : Nat) (taken : Bool)
  /-- The channel of a Rust service fails. -/
  | disconnect (service : Nat)
  /-- Zenoh brings the result at a position to a publisher. -/
  | result (publisher position : Nat)
  /-- A waiting publisher takes a result from its queue. -/
  | get (publisher : Nat)
  /-- The wait of a publisher on an empty queue ends. -/
  | giveUp (publisher : Nat)
  /-- Another client puts a payload under the request key. -/
  | foreignRequest (payload : Payload)
  /-- Another client puts a payload under the result key. -/
  | foreignResult (payload : Payload)

/-- What a step shows. -/
inductive AssignmentObservation (Payload : Type) where
  /-- A publisher has put a request. -/
  | sent (publisher : Nat) (request : AssignmentRequest)
  /-- A service has been brought a request. -/
  | received (service : Nat) (payload : Payload)
  /-- A service is done with a request, with the answer that it has published. -/
  | served (service : Nat) (payload : Payload) (answer : Option Payload)
  /-- A publisher has accepted a result. -/
  | accepted (publisher : Nat) (request : AssignmentRequest) (result : AssignmentResult)
  /-- A publisher has given up its request. -/
  | gaveUp (publisher : Nat) (request : AssignmentRequest)
  deriving DecidableEq

namespace AssignmentSystem

variable {Payload ν : Type} (setup : Assignments Payload) (build : ν → AssignmentRequest)
  (self : AssignmentSystem Payload)

/-- The parties before the first round. -/
def start (services : List Language) (publishers : Nat) : AssignmentSystem Payload where
  requests := []
  results := []
  services := services.map Service.new
  publishers := List.replicate publishers .new

/-- A publisher starts a round. -/
def published (publisher : Nat) (nonce : ν) (taken : Bool) :
    AssignmentSystem Payload × List (AssignmentObservation Payload) :=
  match self.publishers[publisher]? with
  | some party =>
    match party.stage with
    | .idle =>
      let request := build nonce
      let publishers := self.publishers.set publisher (party.publish request taken)
      if taken then
        ({ self with requests := self.requests ++ [setup.serialize request]
                     publishers := publishers }, [.sent publisher request])
      else ({ self with publishers := publishers }, [])
    | _ => (self, [])
  | none => (self, [])

/-- Zenoh brings a request to a service. -/
def requested (service position : Nat) (taken : Bool) :
    AssignmentSystem Payload × List (AssignmentObservation Payload) :=
  match self.services[service]?, self.requests[position]? with
  | some (.rust party), some payload =>
    if party.Accepts then
      ({ self with services := self.services.set service (.rust (party.receive payload)) },
        [.received service payload])
    else (self, [])
  | some .python, some payload =>
    let answer := Python.onRequest setup.pythonCodec setup.linearSumAssignment payload taken
    ({ self with results := self.results ++ answer.toList },
      [.received service payload, .served service payload answer])
  | _, _ => (self, [])

/-- A turn of the main loop of a Rust service. -/
def served (service : Nat) (taken : Bool) :
    AssignmentSystem Payload × List (AssignmentObservation Payload) :=
  match self.services[service]? with
  | some (.rust ⟨payload :: rest, true⟩) =>
    let turn := Rust.AssignmentService.serve setup.rustCodec setup.lapjv
      ⟨payload :: rest, true⟩ payload rest taken
    ({ self with services := self.services.set service (.rust turn.1)
                 results := self.results ++ turn.2.toList }, [.served service payload turn.2])
  | _ => (self, [])

/-- The channel of a Rust service fails. -/
def disconnected (service : Nat) : AssignmentSystem Payload :=
  match self.services[service]? with
  | some (.rust party) =>
    { self with services := self.services.set service (.rust party.disconnect) }
  | _ => self

/-- Zenoh brings a result to a publisher. -/
def brought (publisher position : Nat) : AssignmentSystem Payload :=
  match self.publishers[publisher]?, self.results[position]? with
  | some party, some payload =>
    { self with
      publishers := self.publishers.set publisher (party.onResult setup.parse payload) }
  | _, _ => self

/-- A waiting publisher takes a result from its queue. -/
def took (publisher : Nat) :
    AssignmentSystem Payload × List (AssignmentObservation Payload) :=
  match self.publishers[publisher]? with
  | some ⟨.waiting request, result :: rest⟩ =>
    let party := Python.Publisher.take ⟨.waiting request, result :: rest⟩ request result rest
    ({ self with publishers := self.publishers.set publisher party },
      if result.assignmentId ≠ request.assignmentId then []
      else [.accepted publisher request result])
  | _ => (self, [])

/-- A waiting publisher with an empty queue gives up. -/
def gaveUp (publisher : Nat) :
    AssignmentSystem Payload × List (AssignmentObservation Payload) :=
  match self.publishers[publisher]? with
  | some ⟨.waiting request, []⟩ =>
    let party := Python.Publisher.giveUp ⟨.waiting request, []⟩
    ({ self with publishers := self.publishers.set publisher party },
      [.gaveUp publisher request])
  | _ => (self, [])

end AssignmentSystem

/-- The assignment demo as a machine. -/
def assignmentSystem {Payload ν : Type} (setup : Assignments Payload)
    (build : ν → AssignmentRequest) :
    Machine (AssignmentSystem Payload) (AssignmentEvent Payload ν)
      (List (AssignmentObservation Payload)) where
  step self
    | .publish publisher nonce taken => self.published setup build publisher nonce taken
    | .request service position taken => self.requested setup service position taken
    | .serve service taken => self.served setup service taken
    | .disconnect service => (self.disconnected service, [])
    | .result publisher position => (self.brought setup publisher position, [])
    | .get publisher => self.took publisher
    | .giveUp publisher => self.gaveUp publisher
    | .foreignRequest payload => ({ self with requests := self.requests ++ [payload] }, [])
    | .foreignResult payload => ({ self with results := self.results ++ [payload] }, [])

end BossWorker
