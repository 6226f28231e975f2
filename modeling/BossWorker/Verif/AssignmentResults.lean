import BossWorker.Verif.Answers
import BossWorker.Verif.AssignmentSystem

/-!
# The results that publishers accept

An accepted result carries the id of a request of its publisher. If ids are used once and no
other client uses them, the result is what a service made of that very request, however Zenoh
loses, repeats and reorders payloads, and so reports a matching of largest value.
-/

namespace BossWorker

open BossWorker.Spec BossWorker.Verif

variable {Payload ν : Type}

/-- What a decoder gives back is what was encoded, but for the context, whose tags have no
order. -/
structure Assignments.Faithful (setup : Assignments Payload) : Prop where
  /-- Services read the requests of publishers. -/
  requests : ∀ language request, ∃ context,
    setup.read language (setup.serialize request) = some { request with context := context }
  /-- Publishers read the results of services. -/
  results : ∀ language result, ∃ context,
    setup.parse (setup.write language result) = .ok { result with context := context }

/-- Both libraries solve their problems. -/
structure Assignments.Solves (setup : Assignments Payload) : Prop where
  lapjv : Rust.SolvesLap setup.lapjv
  linearSumAssignment : Python.SolvesLsa setup.linearSumAssignment

/-- Ids are used once, and by no other client. -/
structure Unforged (setup : Assignments Payload) (events : List (AssignmentEvent Payload ν))
    (shown : List (AssignmentObservation Payload)) : Prop where
  /-- No two requests have one id. -/
  fresh : ((sent shown).map fun entry => entry.2.assignmentId).Nodup
  /-- No other client asks under the id of a request. -/
  requests : ∀ payload ∈ foreignRequests events, ∀ language request,
    setup.read language payload = some request →
      ∀ entry ∈ sent shown, request.assignmentId ≠ entry.2.assignmentId
  /-- No other client answers under the id of a request. -/
  results : ∀ payload ∈ foreignResults events, ∀ result, setup.parse payload = .ok result →
    ∀ entry ∈ sent shown, result.assignmentId ≠ entry.2.assignmentId

section Answers

variable {setup : Assignments Payload}

/-- An answer of either language is a best one. -/
theorem bestAnswer_of_handle (solves : setup.Solves) {language : Language}
    {request : AssignmentRequest} {result : AssignmentResult}
    (handled : setup.handle language request = some result) :
    ∃ pairs, BestAnswer request result pairs := by
  cases language with
  | rust =>
    unfold Assignments.handle at handled
    cases returned : Rust.handleAssignmentRequest setup.lapjv request with
    | error error =>
      rw [returned] at handled
      contradiction
    | ok made =>
      rw [returned] at handled
      obtain rfl := Option.some.inj handled
      exact rust_bestAnswer solves.lapjv returned
  | python =>
    unfold Assignments.handle at handled
    cases returned : Python.handleAssignmentRequest setup.linearSumAssignment request with
    | error error =>
      rw [returned] at handled
      contradiction
    | ok made =>
      rw [returned] at handled
      obtain rfl := Option.some.inj handled
      exact python_bestAnswer solves.linearSumAssignment returned

/-- What a publisher reads off an answer is a best answer to what the service has read. -/
theorem exists_of_answer (faithful : setup.Faithful) (solves : setup.Solves)
    {language : Language} {asked payload : Payload} {result : AssignmentResult}
    (answered : setup.answer language asked = some payload)
    (parsed : setup.parse payload = .ok result) :
    ∃ request pairs, setup.read language asked = some request ∧
      BestAnswer request result pairs := by
  obtain ⟨made, handled, rfl⟩ := Option.map_eq_some_iff.mp answered
  obtain ⟨request, known, given⟩ := Option.bind_eq_some_iff.mp handled
  obtain ⟨pairs, best⟩ := bestAnswer_of_handle solves given
  obtain ⟨context, back⟩ := faithful.results language made
  obtain rfl := Except.ok.inj (back.symm.trans parsed)
  exact ⟨request, pairs, known, best.own, best.matching, best.reported, best.maximal,
    best.summed⟩

end Answers

section Runs

variable (setup : Assignments Payload) (build : ν → AssignmentRequest)
  (services : List Language) (publishers : Nat) (events : List (AssignmentEvent Payload ν))

/-- Accepted results are for closed requests. -/
theorem accepted_sublist (shown : List (AssignmentObservation Payload)) :
    ((accepted shown).map fun entry => (entry.1, entry.2.1)).Sublist (closed shown) := by
  induction shown with
  | nil => exact List.Sublist.refl _
  | cons last shown ih =>
    cases last with
    | accepted publisher request result => exact ih.cons_cons (publisher, request)
    | gaveUp publisher request => exact ih.cons (publisher, request)
    | _ => exact ih

/-- Whatever Zenoh and other clients do, a result that a publisher accepts carries the id of
a request that this publisher has put, and was put by another client or is what a service
made of a payload that a publisher or another client put. Every request that is put is
accepted once, given up once or waited for, and each publisher ends its waits in the order
of its requests. -/
theorem accepted_results_have_origins :
    let reached := (assignmentSystem setup build).run (.start services publishers) events
    let log := assignmentLog setup build services publishers events
    (∀ entry ∈ accepted log, (entry.1, entry.2.1) ∈ sent log ∧
        entry.2.2.assignmentId = entry.2.1.assignmentId ∧
          ∃ payload, setup.parse payload = .ok entry.2.2 ∧
            (payload ∈ foreignResults events ∨ ∃ asked, setup.Answers asked payload ∧
              (asked ∈ foreignRequests events ∨
                ∃ other ∈ sent log, asked = setup.serialize other.2))) ∧
      ((sent log).map Prod.snd).Perm ((closed log).map Prod.snd ++
        reached.publishers.flatMap Python.Publisher.waiting) ∧
      ∀ (position : Nat) (publisher : Python.Publisher),
        reached.publishers[position]? = some publisher →
          ofPublisher position (sent log) =
            ofPublisher position (closed log) ++ publisher.waiting := by
  intro reached log
  have both := run_traced setup build services publishers events
  have traced := both.1
  have rounds := both.2
  refine ⟨?_, ?_, ?_⟩
  · intro entry member
    have own := traced.accepted entry member
    have put : (entry.1, entry.2.1) ∈ sent log := by
      apply rounds.known
      exact (accepted_sublist log).subset (List.mem_map_of_mem member)
    obtain ⟨payload, listed, parsed⟩ := own.2
    refine ⟨put, own.1, payload, parsed, ?_⟩
    cases traced.results payload listed with
    | inl foreign => exact Or.inl foreign
    | inr answered =>
      obtain ⟨asked, there, answers⟩ := answered
      exact Or.inr ⟨asked, answers, traced.requests asked there⟩
  · have fates := rounds.fates
    rw [List.flatMap_map] at fates
    exact fates
  · intro position publisher found
    apply rounds.ordered
    rw [List.getElem?_map, found, Option.map_some]

variable {setup build services publishers events}

/-- What a publisher accepts is a best answer to a request that it has put. -/
theorem bestAnswer_of_accepted (faithful : setup.Faithful) (solves : setup.Solves)
    (unforged : Unforged setup events
      (assignmentLog setup build services publishers events))
    {entry : Nat × AssignmentRequest × AssignmentResult}
    (member : entry ∈ accepted (assignmentLog setup build services publishers events)) :
    (entry.1, entry.2.1) ∈ sent (assignmentLog setup build services publishers events) ∧
      ∃ pairs, BestAnswer entry.2.1 entry.2.2 pairs := by
  have both := run_traced setup build services publishers events
  have traced := both.1
  generalize assignmentLog setup build services publishers events = log at *
  have put : (entry.1, entry.2.1) ∈ sent log := by
    apply both.2.known
    exact (accepted_sublist log).subset (List.mem_map_of_mem member)
  obtain ⟨same, payload, listed, parsed⟩ := traced.accepted entry member
  refine ⟨put, ?_⟩
  cases traced.results payload listed with
  | inl foreign => exact absurd same (unforged.results payload foreign _ parsed _ put)
  | inr answered =>
    obtain ⟨asked, there, language, answer⟩ := answered
    obtain ⟨request, pairs, known, best⟩ := exists_of_answer faithful solves answer parsed
    have id : request.assignmentId = entry.2.1.assignmentId := best.own.symm.trans same
    cases traced.requests asked there with
    | inl foreign => exact absurd id (unforged.requests asked foreign language _ known _ put)
    | inr own =>
      obtain ⟨other, sent_other, rfl⟩ := own
      obtain ⟨context, back⟩ := faithful.requests language other.2
      obtain rfl := Option.some.inj (back.symm.trans known)
      -- the id picks out the request among all that were put
      have this_one : other = (entry.1, entry.2.1) :=
        List.inj_on_of_nodup_map unforged.fresh sent_other put id
      rw [this_one] at best
      exact ⟨pairs, best.own, best.matching, best.reported, best.maximal, best.summed⟩

/-- Under ids that are used once, no request is accepted twice. -/
theorem accepted_nodup (unforged : Unforged setup events
      (assignmentLog setup build services publishers events)) :
    ((accepted (assignmentLog setup build services publishers events)).map fun entry =>
      entry.2.1.assignmentId).Nodup := by
  have rounds := (run_traced setup build services publishers events).2
  generalize assignmentLog setup build services publishers events = log at *
  have ids := rounds.fates.map AssignmentRequest.assignmentId
  rw [List.map_append, List.map_map, List.map_map] at ids
  have closed_once := (List.nodup_append.mp (ids.nodup_iff.mp unforged.fresh)).1
  have inside := (accepted_sublist log).map fun entry => entry.2.assignmentId
  rw [List.map_map] at inside
  exact closed_once.sublist inside

variable (setup build services publishers events)

/-- If decoders give back what was encoded, the libraries solve their problems and ids are
used once and by no other client, then every result that a publisher accepts reports a
matching of largest value for the very request that it waits for, and no request is accepted
twice, however payloads are lost, repeated and reordered. -/
theorem accepted_results_are_best (faithful : setup.Faithful) (solves : setup.Solves)
    (unforged : Unforged setup events
      (assignmentLog setup build services publishers events)) :
    let log := assignmentLog setup build services publishers events
    (∀ entry ∈ accepted log, (entry.1, entry.2.1) ∈ sent log ∧
        ∃ pairs, BestAnswer entry.2.1 entry.2.2 pairs) ∧
      ((accepted log).map fun entry => entry.2.1.assignmentId).Nodup := by
  exact ⟨fun _ member => bestAnswer_of_accepted faithful solves unforged member,
    accepted_nodup unforged⟩

end Runs

section Example

/-- Payloads that are the messages themselves. -/
def plainAssignments : Assignments (AssignmentRequest ⊕ AssignmentResult) where
  serialize := .inl
  parse
    | .inr result => .ok result
    | .inl _ => .error "Error parsing message"
  rustCodec := {
    decode := fun
      | .inl request => .ok request
      | .inr _ => .error "failed to decode Protobuf message"
    encode := .inr }
  pythonCodec := {
    parse := fun
      | .inl request => .ok request
      | .inr _ => .error "Error parsing message"
    serialize := .inr }
  lapjv := Rust.bruteForceLapjv
  linearSumAssignment := Python.bruteForceLsa

/-- Messages are read as they are written. -/
theorem plainAssignments_faithful : plainAssignments.Faithful where
  requests language request := by
    cases language <;> exact ⟨request.context, rfl⟩
  results language result := by
    cases language <;> exact ⟨result.context, rfl⟩

/-- Trying everything solves the problems. -/
theorem plainAssignments_solves : plainAssignments.Solves :=
  ⟨Rust.bruteForceLapjv_solvesLap, Python.bruteForceLsa_solvesLsa⟩

/-- One worker who has two jobs to choose from. -/
def smallRequest (number : Nat) : AssignmentRequest where
  assignmentId := "assignment-" ++ toString number
  workers := [⟨"alice", "Alice"⟩]
  jobs := [⟨"dishes", "Wash dishes"⟩, ⟨"laundry", "Fold laundry"⟩]
  costs := [⟨"alice", "dishes", 1⟩, ⟨"alice", "laundry", 10⟩]

/-- A late answer to a first request is ignored in the second round, whose answer comes
twice. -/
def lateAnswer : List (AssignmentEvent (AssignmentRequest ⊕ AssignmentResult) Nat) :=
  [.publish 0 1 true, .request 0 0 true, .giveUp 0, .publish 0 2 true, .serve 0 true,
    .result 0 0, .get 0, .request 1 1 true, .result 0 1, .result 0 1, .get 0]

/-- The run with a late answer accepts the best answer to the second request. -/
theorem accepted_results_are_best_late :
    let log := assignmentLog plainAssignments smallRequest [.rust, .python] 1 lateAnswer
    (∀ entry ∈ accepted log, (entry.1, entry.2.1) ∈ sent log ∧
        ∃ pairs, BestAnswer entry.2.1 entry.2.2 pairs) ∧
      ((accepted log).map fun entry => entry.2.1.assignmentId).Nodup := by
  apply accepted_results_are_best plainAssignments smallRequest [.rust, .python] 1 lateAnswer
    plainAssignments_faithful plainAssignments_solves
  refine ⟨by decide +kernel, ?_, ?_⟩
  · exact fun _ absent => absurd absent List.not_mem_nil
  · exact fun _ absent => absurd absent List.not_mem_nil

example :
    (accepted (assignmentLog plainAssignments smallRequest [.rust, .python] 1
      lateAnswer)).map (fun entry => entry.2.1.assignmentId) = ["assignment-2"] := by
  decide +kernel

end Example

end BossWorker
