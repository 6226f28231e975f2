import BossWorker.Base.Positions
import BossWorker.System.Assignment

/-!
# Where the results of the assignment demo come from

Whatever Zenoh and other clients do, a result that a publisher accepts was put by another
client or is what a service made of a request under the request key, and every request has
one fate. Ids that are used once and that no other client uses then pin down the request.
-/

namespace BossWorker

variable {Payload ν : Type}

/-- The request that a service of a language reads off a payload. -/
def Assignments.read (setup : Assignments Payload) (language : Language) (payload : Payload) :
    Option AssignmentRequest :=
  match language with
  | .rust => (setup.rustCodec.decode payload).toOption
  | .python => (setup.pythonCodec.parse payload).toOption

/-- The result that a service of a language gives to a request. -/
def Assignments.handle (setup : Assignments Payload) (language : Language)
    (request : AssignmentRequest) : Option AssignmentResult :=
  match language with
  | .rust => (Rust.handleAssignmentRequest setup.lapjv request).toOption
  | .python => (Python.handleAssignmentRequest setup.linearSumAssignment request).toOption

/-- The payload that a service of a language makes of a result. -/
def Assignments.write (setup : Assignments Payload) (language : Language)
    (result : AssignmentResult) : Payload :=
  match language with
  | .rust => setup.rustCodec.encode result
  | .python => setup.pythonCodec.serialize result

/-- What a service of a language makes of a payload. -/
def Assignments.answer (setup : Assignments Payload) (language : Language) (asked : Payload) :
    Option Payload :=
  ((setup.read language asked).bind (setup.handle language)).map (setup.write language)

/-- A service of either language answers one payload by another. -/
def Assignments.Answers (setup : Assignments Payload) (asked answer : Payload) : Prop :=
  ∃ language, setup.answer language asked = some answer

/-- Payloads that other clients put under the request key. -/
def foreignRequests (events : List (AssignmentEvent Payload ν)) : List Payload :=
  events.filterMap fun
    | .foreignRequest payload => some payload
    | _ => none

/-- Payloads that other clients put under the result key. -/
def foreignResults (events : List (AssignmentEvent Payload ν)) : List Payload :=
  events.filterMap fun
    | .foreignResult payload => some payload
    | _ => none

/-- Requests that publishers have put, each with its publisher. -/
def sent (shown : List (AssignmentObservation Payload)) : List (Nat × AssignmentRequest) :=
  shown.filterMap fun
    | .sent publisher request => some (publisher, request)
    | _ => none

/-- Requests whose wait has ended, each with its publisher. -/
def closed (shown : List (AssignmentObservation Payload)) : List (Nat × AssignmentRequest) :=
  shown.filterMap fun
    | .accepted publisher request _ => some (publisher, request)
    | .gaveUp publisher request => some (publisher, request)
    | _ => none

/-- Results that publishers have accepted, each with its publisher and its request. -/
def accepted (shown : List (AssignmentObservation Payload)) :
    List (Nat × AssignmentRequest × AssignmentResult) :=
  shown.filterMap fun
    | .accepted publisher request result => some (publisher, request, result)
    | _ => none

/-- Requests that one publisher has put or closed. -/
def ofPublisher (publisher : Nat) (requests : List (Nat × AssignmentRequest)) :
    List AssignmentRequest :=
  (requests.filter fun entry => entry.1 = publisher).map Prod.snd

section Logs

variable (shown later : List (AssignmentObservation Payload))

@[simp] theorem sent_append : sent (shown ++ later) = sent shown ++ sent later :=
  List.filterMap_append

@[simp] theorem closed_append : closed (shown ++ later) = closed shown ++ closed later :=
  List.filterMap_append

@[simp] theorem accepted_append :
    accepted (shown ++ later) = accepted shown ++ accepted later := List.filterMap_append

@[simp] theorem ofPublisher_append (publisher : Nat)
    (first second : List (Nat × AssignmentRequest)) : ofPublisher publisher (first ++ second) =
      ofPublisher publisher first ++ ofPublisher publisher second := by
  simp only [ofPublisher, List.filter_append, List.map_append]

end Logs

/-- What a step of the demo can do. -/
inductive AssignmentStep (setup : Assignments Payload) (build : ν → AssignmentRequest)
    (self : AssignmentSystem Payload) : AssignmentEvent Payload ν →
      AssignmentSystem Payload × List (AssignmentObservation Payload) → Prop where
  /-- Nothing is due. -/
  | idle {event : AssignmentEvent Payload ν} (own : foreignResults [event] = []) :
      AssignmentStep setup build self event (self, [])
  /-- A request has been put. -/
  | sent {publisher : Nat} {nonce : ν} {party : Python.Publisher}
      (found : self.publishers[publisher]? = some party) (ready : party.stage = .idle) :
      AssignmentStep setup build self (.publish publisher nonce true)
        ({ self with
            requests := self.requests ++ [setup.serialize (build nonce)]
            publishers := self.publishers.set publisher (party.publish (build nonce) true) },
          [.sent publisher (build nonce)])
  /-- A request could not be put. -/
  | unsent {publisher : Nat} {nonce : ν} {party : Python.Publisher}
      (found : self.publishers[publisher]? = some party) (ready : party.stage = .idle) :
      AssignmentStep setup build self (.publish publisher nonce false)
        ({ self with
            publishers := self.publishers.set publisher (party.publish (build nonce) false) },
          [])
  /-- A request is in the channel of a Rust service. -/
  | received {service position : Nat} {taken : Bool} {party : Rust.AssignmentService Payload}
      {payload : Payload} (found : self.services[service]? = some (.rust party))
      (there : self.requests[position]? = some payload) (accepts : party.Accepts) :
      AssignmentStep setup build self (.request service position taken)
        ({ self with services := self.services.set service (.rust (party.receive payload)) },
          [.received service payload])
  /-- A Python service is done with a request. -/
  | answered {service position : Nat} {taken : Bool} {payload : Payload}
      (found : self.services[service]? = some .python)
      (there : self.requests[position]? = some payload) :
      AssignmentStep setup build self (.request service position taken)
        (let answer := Python.onRequest setup.pythonCodec setup.linearSumAssignment payload taken
        ({ self with results := self.results ++ answer.toList },
          [.received service payload, .served service payload answer]))
  /-- A Rust service is done with a request. -/
  | served {service : Nat} {taken : Bool} {payload : Payload} {rest : List Payload}
      (found : self.services[service]? = some (.rust ⟨payload :: rest, true⟩)) :
      AssignmentStep setup build self (.serve service taken)
        (let turn := Rust.AssignmentService.serve setup.rustCodec setup.lapjv
          ⟨payload :: rest, true⟩ payload rest taken
        ({ self with
            services := self.services.set service (.rust turn.1)
            results := self.results ++ turn.2.toList }, [.served service payload turn.2]))
  /-- A Rust service has ended. -/
  | disconnected {service : Nat} {party : Rust.AssignmentService Payload}
      (found : self.services[service]? = some (.rust party)) :
      AssignmentStep setup build self (.disconnect service)
        ({ self with services := self.services.set service (.rust party.disconnect) }, [])
  /-- A publisher has been brought a result. -/
  | brought {publisher position : Nat} {party : Python.Publisher} {payload : Payload}
      (found : self.publishers[publisher]? = some party)
      (there : self.results[position]? = some payload) :
      AssignmentStep setup build self (.result publisher position)
        ({ self with
            publishers := self.publishers.set publisher (party.onResult setup.parse payload) },
          [])
  /-- A publisher has ignored a result. -/
  | ignored {publisher : Nat} {request : AssignmentRequest} {result : AssignmentResult}
      {rest : List AssignmentResult}
      (found : self.publishers[publisher]? = some ⟨.waiting request, result :: rest⟩)
      (other : result.assignmentId ≠ request.assignmentId) :
      AssignmentStep setup build self (.get publisher)
        ({ self with publishers := self.publishers.set publisher ⟨.waiting request, rest⟩ }, [])
  /-- A publisher has accepted a result. -/
  | accepted {publisher : Nat} {request : AssignmentRequest} {result : AssignmentResult}
      {rest : List AssignmentResult}
      (found : self.publishers[publisher]? = some ⟨.waiting request, result :: rest⟩)
      (own : result.assignmentId = request.assignmentId) :
      AssignmentStep setup build self (.get publisher)
        ({ self with publishers := self.publishers.set publisher ⟨.idle, rest⟩ },
          [.accepted publisher request result])
  /-- A publisher has given up. -/
  | gaveUp {publisher : Nat} {request : AssignmentRequest}
      (found : self.publishers[publisher]? = some ⟨.waiting request, []⟩) :
      AssignmentStep setup build self (.giveUp publisher)
        ({ self with publishers := self.publishers.set publisher ⟨.idle, []⟩ },
          [.gaveUp publisher request])
  /-- Another client has put a payload under the request key. -/
  | foreignRequest {payload : Payload} :
      AssignmentStep setup build self (.foreignRequest payload)
        ({ self with requests := self.requests ++ [payload] }, [])
  /-- Another client has put a payload under the result key. -/
  | foreignResult {payload : Payload} :
      AssignmentStep setup build self (.foreignResult payload)
        ({ self with results := self.results ++ [payload] }, [])

/-- Every step does one of these. -/
theorem assignmentSystem_step (setup : Assignments Payload) (build : ν → AssignmentRequest)
    (self : AssignmentSystem Payload) (event : AssignmentEvent Payload ν) :
    AssignmentStep setup build self event ((assignmentSystem setup build).step self event) := by
  cases event with
  | publish publisher nonce taken =>
    simp only [assignmentSystem, AssignmentSystem.published]
    cases found : self.publishers[publisher]? with
    | none => exact .idle rfl
    | some party =>
      cases ready : party.stage with
      | idle =>
        simp only [ready]
        cases taken with
        | true => exact .sent found ready
        | false => exact .unsent found ready
      | waiting request =>
        simp only [ready]
        exact .idle rfl
      | ended =>
        simp only [ready]
        exact .idle rfl
  | request service position taken =>
    simp only [assignmentSystem, AssignmentSystem.requested]
    split
    · rename_i party payload found there
      split
      · rename_i accepts
        exact .received found there accepts
      · exact .idle rfl
    · rename_i payload found there
      exact .answered found there
    · exact .idle rfl
  | serve service taken =>
    simp only [assignmentSystem, AssignmentSystem.served]
    split
    · rename_i payload rest found
      exact .served found
    · exact .idle rfl
  | disconnect service =>
    simp only [assignmentSystem, AssignmentSystem.disconnected]
    split
    · rename_i party found
      exact .disconnected found
    · exact .idle rfl
  | result publisher position =>
    simp only [assignmentSystem, AssignmentSystem.brought]
    split
    · rename_i party payload found there
      exact .brought found there
    · exact .idle rfl
  | get publisher =>
    simp only [assignmentSystem, AssignmentSystem.took]
    split
    · rename_i request result rest found
      by_cases own : result.assignmentId = request.assignmentId
      · simp only [Python.Publisher.take, ne_eq, own, not_true_eq_false, if_false]
        exact .accepted found own
      · simp only [Python.Publisher.take, ne_eq, own, not_false_eq_true, if_true]
        exact .ignored found own
    · exact .idle rfl
  | giveUp publisher =>
    simp only [assignmentSystem, AssignmentSystem.gaveUp]
    split
    · rename_i request found
      exact .gaveUp found
    · exact .idle rfl
  | foreignRequest payload => exact .foreignRequest
  | foreignResult payload => exact .foreignResult

section Services

variable (setup : Assignments Payload)

/-- What a Rust service makes of a payload is what its handler of bytes returns. -/
theorem answer_rust (payload : Payload) : setup.answer .rust payload =
    (Rust.handleAssignmentBytes setup.rustCodec setup.lapjv payload).toOption := by
  unfold Assignments.answer Assignments.read Rust.handleAssignmentBytes
  cases setup.rustCodec.decode payload with
  | error error => rfl
  | ok request =>
    change Option.map _ (Rust.handleAssignmentRequest setup.lapjv request).toOption =
      Except.toOption (Rust.handleAssignmentRequest setup.lapjv request >>= _)
    cases Rust.handleAssignmentRequest setup.lapjv request <;> rfl

/-- What a Python service makes of a payload is what its handler of bytes returns. -/
theorem answer_python (payload : Payload) : setup.answer .python payload =
    (Python.handleAssignmentBytes setup.pythonCodec setup.linearSumAssignment
      payload).toOption := by
  unfold Assignments.answer Assignments.read Python.handleAssignmentBytes
  cases setup.pythonCodec.parse payload with
  | error error => rfl
  | ok request =>
    change Option.map _ (Python.handleAssignmentRequest setup.linearSumAssignment
        request).toOption =
      Except.toOption ((Python.handleAssignmentRequest setup.linearSumAssignment
        request).mapError _ >>= _)
    cases Python.handleAssignmentRequest setup.linearSumAssignment request <;> rfl

/-- A Python service publishes what it makes of a request. -/
theorem onRequest_eq (payload : Payload) (taken : Bool) :
    Python.onRequest setup.pythonCodec setup.linearSumAssignment payload taken =
      if taken then setup.answer .python payload else none := by
  rw [answer_python]
  unfold Python.onRequest
  cases Python.handleAssignmentBytes setup.pythonCodec setup.linearSumAssignment payload with
  | ok answer => rfl
  | error error => cases taken <;> rfl

/-- A Rust service publishes what it makes of a request. -/
theorem serve_snd (party : Rust.AssignmentService Payload) (payload : Payload)
    (rest : List Payload) (taken : Bool) :
    (party.serve setup.rustCodec setup.lapjv payload rest taken).2 =
      if taken then setup.answer .rust payload else none := by
  rw [answer_rust]
  unfold Rust.AssignmentService.serve
  cases Rust.handleAssignmentBytes setup.rustCodec setup.lapjv payload with
  | ok answer => cases taken <;> rfl
  | error error => cases taken <;> rfl

/-- What is published answers the request. -/
theorem answers_of_published {language : Language} {payload answer : Payload} {taken : Bool}
    (published : answer ∈
      (if taken then setup.answer language payload else none).toList) :
    setup.Answers payload answer := by
  cases taken with
  | true => exact ⟨language, Option.mem_toList.mp published⟩
  | false => exact absurd published List.not_mem_nil

/-- A turn of a Rust service takes one payload from its channel. -/
theorem channel_serve (party : Rust.AssignmentService Payload) (payload : Payload)
    (rest : List Payload) (taken : Bool) :
    (party.serve setup.rustCodec setup.lapjv payload rest taken).1.channel = rest := by
  unfold Rust.AssignmentService.serve
  split
  · cases taken <;> rfl
  · rfl

end Services

section Rounds

/-- Every request that has been put has been closed once or is waited for, and each publisher
has closed its requests in the order in which it has put them. -/
structure Rounds (waits : List (List AssignmentRequest))
    (shown : List (AssignmentObservation Payload)) : Prop where
  /-- Requests that are put are closed or waited for. -/
  fates : ((sent shown).map Prod.snd).Perm ((closed shown).map Prod.snd ++ waits.flatMap id)
  /-- The requests of a publisher, in order. -/
  ordered : ∀ publisher waiting, waits[publisher]? = some waiting →
    ofPublisher publisher (sent shown) = ofPublisher publisher (closed shown) ++ waiting
  /-- A publisher closes what it has put. -/
  known : closed shown ⊆ sent shown

namespace Rounds

variable {waits : List (List AssignmentRequest)} {shown : List (AssignmentObservation Payload)}

/-- What neither puts nor closes a request changes nothing. -/
theorem quiet (rounds : Rounds waits shown) {later : List (AssignmentObservation Payload)}
    (none_sent : sent later = []) (none_closed : closed later = []) :
    Rounds waits (shown ++ later) where
  fates := by
    rw [sent_append, closed_append, none_sent, none_closed, List.append_nil, List.append_nil]
    exact rounds.fates
  ordered publisher waiting found := by
    rw [sent_append, closed_append, none_sent, none_closed, List.append_nil, List.append_nil]
    exact rounds.ordered publisher waiting found
  known := by
    rw [sent_append, closed_append, none_sent, none_closed, List.append_nil, List.append_nil]
    exact rounds.known

variable {publisher : Nat} {request : AssignmentRequest}

/-- A request that is put is waited for. -/
theorem put (rounds : Rounds waits shown) (found : waits[publisher]? = some []) :
    Rounds (waits.set publisher [request]) (shown ++ [.sent publisher request]) where
  fates := by
    have replaced := flatMap_set_perm id found [request]
    rw [sent_append, closed_append, List.map_append, List.map_append]
    change (_ ++ [request]).Perm (((closed shown).map Prod.snd ++ []) ++ _)
    rw [List.append_nil]
    have more := rounds.fates.append_right [request]
    refine more.trans ?_
    rw [List.append_assoc]
    exact (List.perm_append_comm.trans replaced.symm).append_left _
  ordered other waiting there := by
    rw [sent_append, closed_append, ofPublisher_append, ofPublisher_append]
    by_cases same : publisher = other
    · subst same
      have inside := (List.getElem?_eq_some_iff.mp found).1
      rw [List.getElem?_set_self inside] at there
      have before := rounds.ordered publisher [] found
      have own : ofPublisher publisher
          (sent [(.sent publisher request : AssignmentObservation Payload)]) = [request] := by
        simp [sent, ofPublisher]
      rw [before, own, ← Option.some.inj there]
      simp [closed, ofPublisher]
    · rw [List.getElem?_set_ne same] at there
      have before := rounds.ordered other waiting there
      have foreign : ofPublisher other
          (sent [(.sent publisher request : AssignmentObservation Payload)]) = [] := by
        simp [sent, ofPublisher, same]
      rw [before, foreign]
      simp [closed, ofPublisher]
  known := by
    rw [sent_append, closed_append]
    change closed shown ++ [] ⊆ _
    rw [List.append_nil]
    exact List.subset_append_of_subset_left _ rounds.known

/-- A request whose wait ends is closed. -/
theorem close (rounds : Rounds waits shown) (found : waits[publisher]? = some [request])
    {last : AssignmentObservation Payload} (none_sent : sent [last] = [])
    (ends : closed [last] = [(publisher, request)]) :
    Rounds (waits.set publisher []) (shown ++ [last]) where
  fates := by
    have replaced := flatMap_set_perm id found []
    rw [sent_append, closed_append, none_sent, ends, List.append_nil, List.map_append,
      List.append_assoc]
    exact rounds.fates.trans (replaced.symm.append_left _)
  ordered other waiting there := by
    rw [sent_append, closed_append, none_sent, ends, List.append_nil, ofPublisher_append]
    by_cases same : publisher = other
    · subst same
      have inside := (List.getElem?_eq_some_iff.mp found).1
      rw [List.getElem?_set_self inside] at there
      have before := rounds.ordered publisher [request] found
      rw [before, ← Option.some.inj there]
      simp [ofPublisher]
    · rw [List.getElem?_set_ne same] at there
      have before := rounds.ordered other waiting there
      rw [before]
      simp [ofPublisher, same]
  known := by
    have own : request ∈ ofPublisher publisher (sent shown) := by
      rw [rounds.ordered publisher [request] found]
      exact List.mem_append_right _ List.mem_cons_self
    obtain ⟨entry, listed, same⟩ := List.mem_map.mp own
    rw [List.mem_filter] at listed
    have whole : entry = (publisher, request) := Prod.ext (of_decide_eq_true listed.2) same
    rw [sent_append, closed_append, none_sent, ends, List.append_nil, List.append_subset,
      ← whole]
    exact ⟨rounds.known, List.cons_subset.mpr ⟨listed.1, List.nil_subset _⟩⟩

end Rounds

variable {setup : Assignments Payload} {build : ν → AssignmentRequest}
  {self : AssignmentSystem Payload} {shown : List (AssignmentObservation Payload)}

/-- A result in the queue of a publisher ends no wait. -/
theorem waiting_onResult (party : Python.Publisher) (payload : Payload) :
    (party.onResult setup.parse payload).waiting = party.waiting := by
  unfold Python.Publisher.onResult
  split <;> rfl

/-- Every step keeps the rounds. -/
theorem Rounds.step (rounds : Rounds (self.publishers.map Python.Publisher.waiting) shown)
    {event : AssignmentEvent Payload ν}
    {result : AssignmentSystem Payload × List (AssignmentObservation Payload)}
    (step : AssignmentStep setup build self event result) :
    Rounds (result.1.publishers.map Python.Publisher.waiting) (shown ++ result.2) := by
  have listed {publisher : Nat} {party : Python.Publisher}
      (found : self.publishers[publisher]? = some party) :
      (self.publishers.map Python.Publisher.waiting)[publisher]? = some party.waiting := by
    rw [List.getElem?_map, found, Option.map_some]
  -- a party that waits as before leaves all waits as they are
  have unchanged {publisher : Nat} {party next : Python.Publisher}
      (found : self.publishers[publisher]? = some party) (same : next.waiting = party.waiting) :
      (self.publishers.set publisher next).map Python.Publisher.waiting =
        self.publishers.map Python.Publisher.waiting := by
    rw [List.map_set, same]
    exact set_eq_self (listed found)
  cases step with
  | sent found ready =>
    rw [List.map_set]
    apply rounds.put
    rw [listed found, Python.Publisher.waiting, ready]
  | @unsent publisher nonce party found ready =>
    have idle : party.waiting = [] := by rw [Python.Publisher.waiting, ready]
    have same : (party.publish (build nonce) false).waiting = party.waiting := idle.symm
    simp only
    rw [unchanged found same]
    exact rounds.quiet rfl rfl
  | brought found there =>
    simp only
    rw [unchanged found (waiting_onResult _ _)]
    exact rounds.quiet rfl rfl
  | @ignored publisher request result rest found other =>
    have same := @unchanged publisher _ ⟨.waiting request, rest⟩ found rfl
    simp only
    rw [same]
    exact rounds.quiet rfl rfl
  | accepted found own =>
    rw [List.map_set]
    exact rounds.close (listed found) rfl rfl
  | gaveUp found =>
    rw [List.map_set]
    exact rounds.close (listed found) rfl rfl
  | _ => exact rounds.quiet rfl rfl

end Rounds

section Origins

/-- A payload under the request key is a request of a publisher or was put by another
client. -/
def Requested (setup : Assignments Payload) (events : List (AssignmentEvent Payload ν))
    (shown : List (AssignmentObservation Payload)) (payload : Payload) : Prop :=
  payload ∈ foreignRequests events ∨ ∃ entry ∈ sent shown, payload = setup.serialize entry.2

/-- A payload under the result key answers a payload under the request key or was put by
another client. -/
def Answered (setup : Assignments Payload) (events : List (AssignmentEvent Payload ν))
    (requests : List Payload) (payload : Payload) : Prop :=
  payload ∈ foreignResults events ∨ ∃ asked ∈ requests, setup.Answers asked payload

/-- A result was read off a payload under the result key. -/
def ReadOff (setup : Assignments Payload) (results : List Payload) (result : AssignmentResult) :
    Prop :=
  ∃ payload ∈ results, setup.parse payload = .ok result

/-- The payloads that a service has not looked at. -/
def Service.channel : Service Payload → List Payload
  | .rust party => party.channel
  | .python => []

variable {setup : Assignments Payload} {build : ν → AssignmentRequest}
  {events : List (AssignmentEvent Payload ν)} {self : AssignmentSystem Payload}
  {shown : List (AssignmentObservation Payload)}

theorem Requested.append {payload : Payload} (origin : Requested setup events shown payload)
    (event : AssignmentEvent Payload ν) (later : List (AssignmentObservation Payload)) :
    Requested setup (events ++ [event]) (shown ++ later) payload := by
  cases origin with
  | inl foreign =>
    left
    rw [foreignRequests, List.filterMap_append]
    exact List.mem_append_left _ foreign
  | inr own =>
    obtain ⟨entry, listed, same⟩ := own
    right
    rw [sent_append]
    exact ⟨entry, List.mem_append_left _ listed, same⟩

theorem Answered.append {requests : List Payload} {payload : Payload}
    (origin : Answered setup events requests payload) (event : AssignmentEvent Payload ν)
    {more : List Payload} (kept : requests ⊆ more) :
    Answered setup (events ++ [event]) more payload := by
  cases origin with
  | inl foreign =>
    left
    rw [foreignResults, List.filterMap_append]
    exact List.mem_append_left _ foreign
  | inr own =>
    obtain ⟨asked, listed, answers⟩ := own
    exact Or.inr ⟨asked, kept listed, answers⟩

theorem ReadOff.mono {results more : List Payload} {result : AssignmentResult}
    (origin : ReadOff setup results result) (kept : results ⊆ more) :
    ReadOff setup more result := by
  obtain ⟨payload, listed, parsed⟩ := origin
  exact ⟨payload, kept listed, parsed⟩

/-- Where the payloads and the results of a state come from. -/
structure Traced (setup : Assignments Payload) (events : List (AssignmentEvent Payload ν))
    (state : AssignmentSystem Payload) (shown : List (AssignmentObservation Payload)) :
    Prop where
  /-- Payloads under the request key. -/
  requests : ∀ payload ∈ state.requests, Requested setup events shown payload
  /-- Payloads under the result key. -/
  results : ∀ payload ∈ state.results, Answered setup events state.requests payload
  /-- Payloads in channels. -/
  channels : ∀ service ∈ state.services, ∀ payload ∈ service.channel, payload ∈ state.requests
  /-- Results in queues. -/
  queues : ∀ party ∈ state.publishers, ∀ result ∈ party.resultQueue,
    ReadOff setup state.results result
  /-- Accepted results. -/
  accepted : ∀ entry ∈ accepted shown, entry.2.2.assignmentId = entry.2.1.assignmentId ∧
    ReadOff setup state.results entry.2.2

namespace Traced

/-- At first there is nothing to trace. -/
theorem start (services : List Language) (publishers : Nat) :
    Traced setup ([] : List (AssignmentEvent Payload ν)) (.start services publishers) [] where
  requests _ member := absurd member List.not_mem_nil
  results _ member := absurd member List.not_mem_nil
  channels service member payload inside := by
    obtain ⟨language, _, rfl⟩ := List.mem_map.mp member
    cases language with
    | rust => exact absurd inside List.not_mem_nil
    | python => exact absurd inside List.not_mem_nil
  queues party member result inside := by
    rw [List.eq_of_mem_replicate member] at inside
    exact absurd inside List.not_mem_nil
  accepted _ member := absurd member List.not_mem_nil

/-- More payloads under the keys, with their origins, and the same parties. -/
theorem grow (traced : Traced setup events self shown) (event : AssignmentEvent Payload ν)
    (later : List (AssignmentObservation Payload)) (quiet : BossWorker.accepted later = [])
    {asked answers : List Payload}
    (requested : ∀ payload ∈ asked, Requested setup (events ++ [event]) (shown ++ later) payload)
    (answered : ∀ payload ∈ answers,
      Answered setup (events ++ [event]) (self.requests ++ asked) payload) :
    Traced setup (events ++ [event])
      { self with requests := self.requests ++ asked, results := self.results ++ answers }
      (shown ++ later) where
  requests := by
    rw [List.forall_mem_append]
    exact ⟨fun payload member => (traced.requests payload member).append event later, requested⟩
  results := by
    rw [List.forall_mem_append]
    refine ⟨fun payload member => ?_, answered⟩
    exact (traced.results payload member).append event (List.subset_append_left _ _)
  channels service member payload inside :=
    List.mem_append_left _ (traced.channels service member payload inside)
  queues party member result inside :=
    (traced.queues party member result inside).mono (List.subset_append_left _ _)
  accepted := by
    rw [accepted_append, quiet, List.append_nil]
    intro entry member
    have before := traced.accepted entry member
    exact ⟨before.1, before.2.mono (List.subset_append_left _ _)⟩

/-- Another service at a position, with payloads of requests in its channel. -/
theorem withService (traced : Traced setup events self shown) (position : Nat)
    {service : Service Payload} (inside : ∀ payload ∈ service.channel, payload ∈ self.requests) :
    Traced setup events { self with services := self.services.set position service } shown :=
  ⟨traced.requests, traced.results, forall_mem_set traced.channels inside, traced.queues,
    traced.accepted⟩

/-- Another publisher at a position, with results that were read off. -/
theorem withPublisher (traced : Traced setup events self shown) (position : Nat)
    {party : Python.Publisher}
    (inside : ∀ result ∈ party.resultQueue, ReadOff setup self.results result) :
    Traced setup events { self with publishers := self.publishers.set position party } shown :=
  ⟨traced.requests, traced.results, traced.channels, forall_mem_set traced.queues inside,
    traced.accepted⟩

/-- One more payload under the request key. -/
theorem request (traced : Traced setup events self shown) (event : AssignmentEvent Payload ν)
    (later : List (AssignmentObservation Payload)) (quiet : BossWorker.accepted later = [])
    {payload : Payload}
    (origin : Requested setup (events ++ [event]) (shown ++ later) payload) :
    Traced setup (events ++ [event]) { self with requests := self.requests ++ [payload] }
      (shown ++ later) := by
  have grown := traced.grow event later quiet (List.forall_mem_singleton.mpr origin)
    (fun _ absent => absurd absent List.not_mem_nil)
  rw [List.append_nil] at grown
  exact grown

/-- More payloads under the result key. -/
theorem result (traced : Traced setup events self shown) (event : AssignmentEvent Payload ν)
    (later : List (AssignmentObservation Payload)) (quiet : BossWorker.accepted later = [])
    {answers : List Payload}
    (origin : ∀ payload ∈ answers, Answered setup (events ++ [event]) self.requests payload) :
    Traced setup (events ++ [event]) { self with results := self.results ++ answers }
      (shown ++ later) := by
  have asked : ∀ payload ∈ ([] : List Payload),
      Requested setup (events ++ [event]) (shown ++ later) payload :=
    fun _ absent => absurd absent List.not_mem_nil
  have same : self.requests = self.requests ++ [] := (List.append_nil _).symm
  rw [same] at origin
  have grown := traced.grow event later quiet asked origin
  rw [List.append_nil] at grown
  exact grown

/-- A step that puts nothing and accepts nothing. -/
theorem quiet (traced : Traced setup events self shown) (event : AssignmentEvent Payload ν)
    {later : List (AssignmentObservation Payload)} (nothing : BossWorker.accepted later = []) :
    Traced setup (events ++ [event]) self (shown ++ later) := by
  have none_put : ∀ payload ∈ ([] : List Payload),
      Answered setup (events ++ [event]) self.requests payload :=
    fun _ absent => absurd absent List.not_mem_nil
  have grown := traced.result event later nothing none_put
  rw [List.append_nil] at grown
  exact grown

/-- A result of the queue is accepted for a request with its id. -/
theorem accept (traced : Traced setup events self shown) (event : AssignmentEvent Payload ν)
    (publisher : Nat) {request : AssignmentRequest} {result : AssignmentResult}
    (own : result.assignmentId = request.assignmentId)
    (origin : ReadOff setup self.results result) :
    Traced setup (events ++ [event]) self (shown ++ [.accepted publisher request result]) where
  requests payload member := (traced.requests payload member).append event _
  results payload member :=
    (traced.results payload member).append event (List.Subset.refl _)
  channels := traced.channels
  queues := traced.queues
  accepted := by
    rw [accepted_append, List.forall_mem_append]
    refine ⟨traced.accepted, fun entry member => ?_⟩
    rw [List.mem_singleton.mp member]
    exact ⟨own, origin⟩

/-- The results that a publisher has are read off after a delivery too. -/
theorem onResult (traced : Traced setup events self shown) {position : Nat}
    {party : Python.Publisher} {payload : Payload} (member : party ∈ self.publishers)
    (there : self.results[position]? = some payload) :
    ∀ result ∈ (party.onResult setup.parse payload).resultQueue,
      ReadOff setup self.results result := by
  have before := traced.queues party member
  unfold Python.Publisher.onResult
  split
  · exact before
  · rename_i made parsed running
    rw [List.forall_mem_append, List.forall_mem_singleton]
    exact ⟨before, payload, List.mem_of_getElem? there, parsed⟩
  · exact before

/-- Every step keeps the origins. -/
theorem step (traced : Traced setup events self shown) {event : AssignmentEvent Payload ν}
    {result : AssignmentSystem Payload × List (AssignmentObservation Payload)}
    (step : AssignmentStep setup build self event result) :
    Traced setup (events ++ [event]) result.1 (shown ++ result.2) := by
  cases step with
  | idle own => exact traced.quiet event rfl
  | @sent publisher nonce party found ready =>
    have listed := List.mem_of_getElem? found
    have fresh : Requested setup (events ++ [.publish publisher nonce true])
        (shown ++ [.sent publisher (build nonce)]) (setup.serialize (build nonce)) := by
      refine Or.inr ⟨(publisher, build nonce), ?_, rfl⟩
      rw [sent_append]
      exact List.mem_append_right _ List.mem_cons_self
    have grown := traced.request (.publish publisher nonce true) [.sent publisher (build nonce)]
      rfl fresh
    exact grown.withPublisher publisher (traced.queues party listed)
  | @unsent publisher nonce party found ready =>
    have kept := traced.queues party (List.mem_of_getElem? found)
    exact (traced.quiet _ rfl).withPublisher publisher kept
  | @received service position taken party payload found there accepts =>
    have before := traced.channels _ (List.mem_of_getElem? found)
    refine (traced.quiet _ rfl).withService service ?_
    change ∀ other ∈ party.channel ++ [payload], other ∈ self.requests
    rw [List.forall_mem_append, List.forall_mem_singleton]
    exact ⟨before, List.mem_of_getElem? there⟩
  | @answered service position taken payload found there =>
    have listed := List.mem_of_getElem? there
    apply traced.result
    · rfl
    · intro answer published
      rw [onRequest_eq] at published
      exact Or.inr ⟨payload, listed, answers_of_published setup published⟩
  | @served service taken payload rest found =>
    have before := traced.channels _ (List.mem_of_getElem? found)
    have listed : payload ∈ self.requests := before payload List.mem_cons_self
    let turn := Rust.AssignmentService.serve setup.rustCodec setup.lapjv
      ⟨payload :: rest, true⟩ payload rest taken
    have answers : ∀ answer ∈ turn.2.toList, Answered setup
        (events ++ [.serve service taken]) self.requests answer := by
      intro answer published
      rw [serve_snd] at published
      exact Or.inr ⟨payload, listed, answers_of_published setup published⟩
    have grown := traced.result (.serve service taken) [.served service payload turn.2] rfl
      answers
    refine grown.withService service ?_
    intro other inside
    rw [Service.channel, channel_serve] at inside
    exact before other (List.mem_cons_of_mem _ inside)
  | @disconnected service party found =>
    have before := traced.channels _ (List.mem_of_getElem? found)
    exact (traced.quiet _ rfl).withService service before
  | @brought publisher position party payload found there =>
    have kept := traced.onResult (List.mem_of_getElem? found) there
    exact (traced.quiet _ rfl).withPublisher publisher kept
  | @ignored publisher request result rest found other =>
    have before := traced.queues _ (List.mem_of_getElem? found)
    refine (traced.quiet _ rfl).withPublisher publisher fun later inside => ?_
    exact before later (List.mem_cons_of_mem _ inside)
  | @accepted publisher request result rest found own =>
    have before := traced.queues _ (List.mem_of_getElem? found)
    have origin := before result List.mem_cons_self
    refine (traced.accept _ publisher own origin).withPublisher publisher fun later inside => ?_
    exact before later (List.mem_cons_of_mem _ inside)
  | @gaveUp publisher request found =>
    refine (traced.quiet _ rfl).withPublisher publisher fun later inside => ?_
    exact absurd inside List.not_mem_nil
  | @foreignRequest payload =>
    have fresh : Requested setup (events ++ [.foreignRequest payload]) (shown ++ []) payload := by
      left
      rw [foreignRequests, List.filterMap_append]
      exact List.mem_append_right _ List.mem_cons_self
    exact traced.request (.foreignRequest payload) [] rfl fresh
  | @foreignResult payload =>
    have fresh : Answered setup (events ++ [.foreignResult payload]) self.requests payload := by
      left
      rw [foreignResults, List.filterMap_append]
      exact List.mem_append_right _ List.mem_cons_self
    exact traced.result (.foreignResult payload) [] rfl (List.forall_mem_singleton.mpr fresh)

end Traced

end Origins

section Runs

variable (setup : Assignments Payload) (build : ν → AssignmentRequest)
  (services : List Language) (publishers : Nat) (events : List (AssignmentEvent Payload ν))

/-- What a run from the start shows, in order. -/
def assignmentLog : List (AssignmentObservation Payload) :=
  ((assignmentSystem setup build).outputs (.start services publishers) events).flatten

/-- Every run is traced and keeps the rounds. -/
theorem run_traced :
    Traced setup events
        ((assignmentSystem setup build).run (.start services publishers) events)
        (assignmentLog setup build services publishers events) ∧
      Rounds
        (((assignmentSystem setup build).run (.start services publishers) events).publishers.map
          Python.Publisher.waiting) (assignmentLog setup build services publishers events) := by
  apply (assignmentSystem setup build).run_history (fun events state trace =>
    Traced setup events state (trace.map Transition.output).flatten ∧
      Rounds (state.publishers.map Python.Publisher.waiting)
        (trace.map Transition.output).flatten)
  · refine ⟨Traced.start services publishers, List.Perm.of_eq ?_, ?_, List.Subset.refl _⟩
    · simp [sent, closed, AssignmentSystem.start, Python.Publisher.new,
        Python.Publisher.waiting]
    · intro publisher waiting found
      simp only [AssignmentSystem.start, List.map_replicate] at found
      have idle := List.eq_of_mem_replicate (List.mem_of_getElem? found)
      rw [idle]
      rfl
  · intro before event both
    have step := assignmentSystem_step setup build
      ((assignmentSystem setup build).run (.start services publishers) before) event
    simp only [List.map_append, List.map_cons, List.map_nil, List.flatten_append,
      List.flatten_cons, List.flatten_nil, List.append_nil]
    exact ⟨both.1.step step, both.2.step step⟩

/-- Publishers put what they build. -/
theorem sent_built : ∀ entry ∈ sent (assignmentLog setup build services publishers events),
    ∃ nonce, entry.2 = build nonce := by
  apply (assignmentSystem setup build).run_history (fun _ _ trace =>
    ∀ entry ∈ sent (trace.map Transition.output).flatten, ∃ nonce, entry.2 = build nonce)
  · exact fun _ absent => absurd absent List.not_mem_nil
  · intro before event built
    have step := assignmentSystem_step setup build
      ((assignmentSystem setup build).run (.start services publishers) before) event
    simp only [List.map_append, List.map_cons, List.map_nil, List.flatten_append,
      List.flatten_cons, List.flatten_nil, List.append_nil, sent_append]
    rw [List.forall_mem_append]
    refine ⟨built, ?_⟩
    generalize (assignmentSystem setup build).step _ event = result at step
    cases step with
    | @sent publisher nonce party found ready => exact List.forall_mem_singleton.mpr ⟨nonce, rfl⟩
    | _ => exact fun _ absent => absurd absent List.not_mem_nil

end Runs

end BossWorker
