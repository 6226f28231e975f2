import BossWorker.Verif.AssignmentSystem

/-!
# What the services of the assignment demo do with requests

A service of either language is done with the requests it is brought in the order in which
they come, with each of them once. It answers by what its handler makes of the payload, and
is only silent where the handler fails or this very answer could not be published; a payload
that cannot be decoded or solved costs nothing but its place in the channel.
-/

namespace BossWorker

variable {Payload ν : Type}

/-- Payloads that a service has been brought, in order. -/
def receivedBy (service : Nat) (shown : List (AssignmentObservation Payload)) : List Payload :=
  shown.filterMap fun
    | .received other payload => if other = service then some payload else none
    | _ => none

/-- Payloads that a service is done with, each with the answer that it has published. -/
def servedBy (service : Nat) (shown : List (AssignmentObservation Payload)) :
    List (Payload × Option Payload) :=
  shown.filterMap fun
    | .served other payload answer => if other = service then some (payload, answer) else none
    | _ => none

/-- Answers that services have published, in order. -/
def publishedAnswers (shown : List (AssignmentObservation Payload)) : List Payload :=
  shown.filterMap fun
    | .served _ _ answer => answer
    | _ => none

/-- The language of a service. -/
def Service.language : Service Payload → Language
  | .rust _ => .rust
  | .python => .python

/-- In the step a service is done with a request and its publisher takes the answer. -/
def AssignmentEvent.taken : AssignmentEvent Payload ν → Bool
  | .request _ _ taken => taken
  | .serve _ taken => taken
  | _ => false

section Logs

variable (shown later : List (AssignmentObservation Payload)) (service : Nat)

@[simp] theorem receivedBy_append : receivedBy service (shown ++ later) =
    receivedBy service shown ++ receivedBy service later := List.filterMap_append

@[simp] theorem servedBy_append : servedBy service (shown ++ later) =
    servedBy service shown ++ servedBy service later := List.filterMap_append

@[simp] theorem publishedAnswers_append : publishedAnswers (shown ++ later) =
    publishedAnswers shown ++ publishedAnswers later := List.filterMap_append

/-- A service that is done with a payload has published its answer, if any. -/
theorem publishedAnswers_served (payload : Payload) (answer : Option Payload) :
    publishedAnswers [.served service payload answer] = answer.toList := by
  cases answer <;> rfl

end Logs

section Steps

variable {setup : Assignments Payload} {build : ν → AssignmentRequest}
  {self : AssignmentSystem Payload} {event : AssignmentEvent Payload ν}
  {result : AssignmentSystem Payload × List (AssignmentObservation Payload)}

/-- What a service answers in a step is what its handler makes of the payload, if the
publisher takes it in this step. -/
theorem AssignmentStep.answer_eq (step : AssignmentStep setup build self event result)
    {position : Nat} {payload : Payload} {answer : Option Payload}
    (shown : .served position payload answer ∈ result.2) :
    ∃ service, self.services[position]? = some service ∧
      answer = if event.taken then setup.answer service.language payload else none := by
  cases step with
  | @answered _ _ taken asked found there =>
    simp only [List.mem_cons, reduceCtorEq, AssignmentObservation.served.injEq,
      List.not_mem_nil, or_false, false_or] at shown
    obtain ⟨rfl, rfl, rfl⟩ := shown
    exact ⟨_, found, onRequest_eq setup payload taken⟩
  | @served _ taken asked rest found =>
    simp only [List.mem_singleton, AssignmentObservation.served.injEq] at shown
    obtain ⟨rfl, rfl, rfl⟩ := shown
    exact ⟨_, found, serve_snd setup _ payload rest taken⟩
  | _ => simp at shown

end Steps

/-- What the services have done. -/
structure Serving (events : List (AssignmentEvent Payload ν))
    (services : List (Service Payload)) (results : List Payload)
    (shown : List (AssignmentObservation Payload)) : Prop where
  /-- A service is done with what it has been brought, but for what is in its channel. -/
  ordered : ∀ (position : Nat) (service : Service Payload),
    services[position]? = some service → receivedBy position shown =
      (servedBy position shown).map Prod.fst ++ service.channel
  /-- No channel holds more than it has places. -/
  bounded : ∀ service ∈ services, service.channel.length ≤ Rust.channelCapacity
  /-- Every answer is under the result key once. -/
  results : results.Perm (foreignResults events ++ publishedAnswers shown)

namespace Serving

variable {setup : Assignments Payload} {build : ν → AssignmentRequest}
  {events : List (AssignmentEvent Payload ν)} {services : List (Service Payload)}
  {results : List Payload} {shown : List (AssignmentObservation Payload)}

/-- At first nothing is done. -/
theorem start (languages : List Language) :
    Serving ([] : List (AssignmentEvent Payload ν)) (languages.map Service.new) [] [] where
  ordered position service found := by
    obtain ⟨language, _, rfl⟩ := List.mem_map.mp (List.mem_of_getElem? found)
    cases language <;> rfl
  bounded service member := by
    obtain ⟨language, _, rfl⟩ := List.mem_map.mp member
    cases language <;> exact Nat.zero_le _
  results := List.Perm.refl _

/-- A step in which the services do nothing. -/
theorem quiet (serving : Serving events services results shown)
    (event : AssignmentEvent Payload ν) {grown : List Payload}
    (put : grown = results ++ foreignResults [event])
    {later : List (AssignmentObservation Payload)}
    (unserved : ∀ position, receivedBy position later = [] ∧ servedBy position later = [])
    (unanswered : publishedAnswers later = []) :
    Serving (events ++ [event]) services grown (shown ++ later) where
  ordered position service found := by
    rw [receivedBy_append, servedBy_append, (unserved position).1, (unserved position).2,
      List.append_nil, List.append_nil]
    exact serving.ordered position service found
  bounded := serving.bounded
  results := by
    rw [publishedAnswers_append, unanswered, List.append_nil, foreignResults,
      List.filterMap_append]
    change List.Perm _ ((foreignResults events ++ foreignResults [event]) ++ _)
    rw [put, List.append_assoc]
    refine (serving.results.append_right _).trans ?_
    rw [List.append_assoc]
    exact List.perm_append_comm.append_left _

/-- A step of the service at a position. -/
theorem act (serving : Serving events services results shown)
    (event : AssignmentEvent Payload ν) (own : foreignResults [event] = []) {position : Nat}
    {service : Service Payload} (found : services[position]? = some service)
    {next : Service Payload} {later : List (AssignmentObservation Payload)}
    {grown : List Payload}
    (put : grown = results ++ publishedAnswers later)
    (others : ∀ other ≠ position, receivedBy other later = [] ∧ servedBy other later = [])
    (moved : service.channel ++ receivedBy position later =
      (servedBy position later).map Prod.fst ++ next.channel)
    (fits : next.channel.length ≤ Rust.channelCapacity) :
    Serving (events ++ [event]) (services.set position next)
      grown (shown ++ later) := by
  have inside := (List.getElem?_eq_some_iff.mp found).1
  refine ⟨?_, forall_mem_set serving.bounded fits, ?_⟩
  · intro other party listed
    rw [receivedBy_append, servedBy_append]
    by_cases here : position = other
    · subst here
      rw [List.getElem?_set_self inside] at listed
      obtain rfl := Option.some.inj listed
      rw [serving.ordered position service found, List.append_assoc, moved, List.map_append,
        List.append_assoc]
    · rw [List.getElem?_set_ne here] at listed
      have apart := others other (Ne.symm here)
      rw [apart.1, apart.2, List.append_nil, List.append_nil]
      exact serving.ordered other party listed
  · rw [publishedAnswers_append, foreignResults, List.filterMap_append]
    change List.Perm _ ((foreignResults events ++ foreignResults [event]) ++ _)
    rw [own, put, List.append_nil, ← List.append_assoc]
    exact serving.results.append_right _

/-- Every step keeps what the services have done. -/
theorem step {self : AssignmentSystem Payload}
    (serving : Serving events self.services self.results shown)
    {event : AssignmentEvent Payload ν}
    {result : AssignmentSystem Payload × List (AssignmentObservation Payload)}
    (step : AssignmentStep setup build self event result) :
    Serving (events ++ [event]) result.1.services result.1.results
      (shown ++ result.2) := by
  cases step with
  | @received service position taken party payload found there accepts =>
    refine serving.act _ ?_ found ?_ ?_ ?_ ?_
    · rfl
    · exact (List.append_nil _).symm
    · exact fun other apart => by simp [receivedBy, servedBy, Ne.symm apart]
    · simp [receivedBy, servedBy, Service.channel, Rust.AssignmentService.receive]
    · have room := accepts.2
      change (party.channel ++ [payload]).length ≤ _
      rw [List.length_append, List.length_singleton]
      omega
  | @answered service position taken payload found there =>
    have same := set_eq_self found
    simp only
    rw [← same]
    refine serving.act _ ?_ found ?_ ?_ ?_ ?_
    · rfl
    · exact congrArg _ (publishedAnswers_served service payload _).symm
    · exact fun other apart => by simp [receivedBy, servedBy, Ne.symm apart]
    · simp [receivedBy, servedBy, Service.channel]
    · exact Nat.zero_le _
  | @served service taken payload rest found =>
    refine serving.act _ ?_ found ?_ ?_ ?_ ?_
    · rfl
    · exact congrArg _ (publishedAnswers_served service payload _).symm
    · exact fun other apart => by simp [receivedBy, servedBy, Ne.symm apart]
    · simp [receivedBy, servedBy, Service.channel, channel_serve]
    · have before : rest.length + 1 ≤ Rust.channelCapacity :=
        serving.bounded _ (List.mem_of_getElem? found)
      simp only [Service.channel, channel_serve]
      omega
  | @disconnected service party found =>
    refine serving.act _ ?_ found ?_ ?_ ?_ ?_
    · rfl
    · exact (List.append_nil _).symm
    · exact fun _ _ => ⟨rfl, rfl⟩
    · exact List.append_nil _
    · have before := serving.bounded _ (List.mem_of_getElem? found)
      exact before
  | foreignResult => exact serving.quiet _ rfl (fun _ => ⟨rfl, rfl⟩) rfl
  | idle own =>
    refine serving.quiet _ ?_ (fun _ => ⟨rfl, rfl⟩) rfl
    rw [own, List.append_nil]
  | _ =>
    refine serving.quiet _ ?_ (fun _ => ⟨rfl, rfl⟩) rfl
    exact (List.append_nil _).symm

end Serving

section Runs

variable (setup : Assignments Payload) (build : ν → AssignmentRequest)
  (services : List Language) (publishers : Nat) (events : List (AssignmentEvent Payload ν))

end Runs

end BossWorker
