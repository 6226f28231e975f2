import BossWorker.Spec.Sources
import BossWorker.Verif.Summaries

/-!
# The Rust orchestrator submits what it has received

The chores of a window are the latest that were received, and its people are among those
received since it was opened, so both are messages of the payloads that decode.
-/

namespace BossWorker.Rust

variable {sources : Sources}

/-- What a coordinator holds comes from the sources. -/
structure BatchCoordinator.Sourced (sources : Sources) (state : BatchCoordinator) : Prop where
  formed : state.WellFormed
  chores : ∀ chores, state.latestChores = some chores → sources.chores chores
  people : ∀ window, state.currentWindow = some window →
    ∀ pending ∈ window.pendingPeople.values, sources.person pending.message

/-- The message of a call comes from the sources. -/
def Event.FedBy (sources : Sources) : Event → Prop
  | .chores message _ => sources.chores message
  | .person message _ => sources.person message
  | _ => True

/-- The message of an arm of the select comes from the sources. -/
def SystemEvent.FedBy (sources : Sources) : SystemEvent → Prop
  | .chores message _ => sources.chores message
  | .person message _ => sources.person message
  | _ => True

namespace BatchCoordinator

/-- A coordinator that has received nothing holds nothing. -/
theorem sourced_new : Sourced sources .new where
  formed := new_wellFormed
  chores chores latest := absurd latest.symm (Option.some_ne_none chores)
  people window opened := absurd opened.symm (Option.some_ne_none window)

/-- A flush submits what the coordinator holds. -/
theorem Sourced.flushed {config : OrchestratorConfig} {self : BatchCoordinator}
    (sourced : self.Sourced sources) {now : Instant} {order : Enumeration PendingPerson}
    {result : BatchCoordinator × Option Submission}
    (outcome : Flushed config self now order result) :
    (result.1.prunePersonHistory config now).Sourced sources ∧
      ∀ submission, result.2 = some submission → submission.From sources := by
  cases outcome with
  | waiting idle =>
    refine ⟨⟨sourced.formed, sourced.chores, sourced.people⟩, ?_⟩
    intro submission absent
    exact absurd absent.symm (Option.some_ne_none submission)
  | dropped window due refused =>
    refine ⟨⟨wellFormed_of_closed rfl, sourced.chores, ?_⟩, ?_⟩
    · intro other opened
      exact absurd opened.symm (Option.some_ne_none other)
    · intro submission absent
      exact absurd absent.symm (Option.some_ne_none submission)
  | accepted window chores due latest pending idle =>
    have closed : (self.accepted config now window order).currentWindow = none :=
      self.accepted_currentWindow config now window order
    refine ⟨⟨wellFormed_of_closed closed, ?_, ?_⟩, ?_⟩
    · intro other held
      apply sourced.chores other
      rw [accepted, foldl_recordSelection] at held
      exact held
    · intro other opened
      exact absurd (opened.symm.trans closed) (Option.some_ne_none other)
    · intro submission handed
      rw [← Option.some.inj handed]
      constructor
      · exact sourced.chores chores latest
      · intro person member
        obtain ⟨chosen, selected, rfl⟩ := List.mem_map.mp member
        exact sourced.people window due.opened chosen (mem_values_of_mem_selection selected)
      · rw [submission_personIds]
        exact selection_nodup config self order (sourced.formed window due.opened).1

/-- A call that comes from the sources keeps what the coordinator holds. -/
theorem Sourced.step (config : OrchestratorConfig) {self : BatchCoordinator}
    (sourced : self.Sourced sources) (event : Event) (fed : event.FedBy sources) :
    ((coordinator config).step self event).1.Sourced sources ∧
      ∀ submission, ((coordinator config).step self event).2 = some submission →
        submission.From sources := by
  have quiet (submission : Submission) (absent : none = some submission) :
      submission.From sources := absurd absent.symm (Option.some_ne_none submission)
  cases event with
  | chores chores now =>
    refine ⟨⟨sourced.formed, ?_, sourced.people⟩, quiet⟩
    intro other latest
    rw [← Option.some.inj latest]
    exact fed
  | person person now =>
    refine ⟨⟨receivePerson_wellFormed sourced.formed person now, sourced.chores, ?_⟩, quiet⟩
    intro window opened
    rw [← Option.some.inj opened]
    apply Dict.forall_mem_values_insert
    · exact fed
    · unfold openWindow
      cases current : self.currentWindow with
      | some old => exact sourced.people old current
      | none => exact fun pending absent => absurd absent List.not_mem_nil
  | complete completion => exact ⟨⟨sourced.formed, sourced.chores, sourced.people⟩, quiet⟩
  | tick now order =>
    exact sourced.flushed (self.flushWindowIfExpired_flushed config now order)

end BatchCoordinator

section Runs

variable (config : OrchestratorConfig) (mode : JobSubmissionMode)

/-- An event that comes from the sources keeps what the orchestrator holds. -/
theorem BatchCoordinator.Sourced.system {self : Orchestrator}
    (sourced : self.coordinator.Sourced sources) {event : SystemEvent}
    (fed : event.FedBy sources) :
    ((orchestrator config mode).step self event).1.coordinator.Sourced sources ∧
      ∀ submission ∈ submissions ((orchestrator config mode).step self event).2,
        submission.From sources := by
  have quiet (submission : Submission) (absent : submission ∈ submissions []) :
      submission.From sources := absurd absent List.not_mem_nil
  cases event with
  | chores chores now => exact ⟨(sourced.step config (.chores chores now) fed).1, quiet⟩
  | person person now => exact ⟨(sourced.step config (.person person now) fed).1, quiet⟩
  | finish index succeeded =>
    refine ⟨?_, quiet⟩
    have same : ((orchestrator config mode).step self (.finish index succeeded)).1.coordinator =
        self.coordinator := by
      simp only [orchestrator, Orchestrator.finished]
      cases self.running[index]? <;> rfl
    rw [same]
    exact sourced
  | consume =>
    simp only [orchestrator, Orchestrator.consumed]
    cases self.queue with
    | nil => exact ⟨sourced, quiet⟩
    | cons delivery rest =>
      refine ⟨(sourced.step config (.complete delivery.completion) trivial).1, ?_⟩
      exact fun submission absent => absurd absent List.not_mem_nil
  | tick now order =>
    have called := sourced.step config (.tick now order) trivial
    change (self.coordinator.expireStaleIfIdle config now order).1.Sourced sources ∧
      ∀ submission, (self.coordinator.expireStaleIfIdle config now order).2 = some submission →
        submission.From sources at called
    simp only [orchestrator, Orchestrator.ticked]
    cases handed : (self.coordinator.expireStaleIfIdle config now order).2 with
    | none => exact ⟨called.1, fun submission absent => absurd absent List.not_mem_nil⟩
    | some submission =>
      refine ⟨called.1, ?_⟩
      intro other member
      have same : other = submission := List.mem_singleton.mp member
      rw [same]
      exact called.2 submission handed

/-- Events that come from the sources lead to calls that do. -/
theorem run_sourced {events : List SystemEvent} (fed : ∀ event ∈ events, event.FedBy sources) :
    ((orchestrator config mode).run .start events).coordinator.Sourced sources ∧
      ∀ submission ∈ submissions (observations config mode events), submission.From sources := by
  induction events using List.reverseRecOn with
  | nil =>
    exact ⟨BatchCoordinator.sourced_new, fun submission absent => absurd absent List.not_mem_nil⟩
  | append_singleton events event ih =>
    rw [List.forall_mem_append, List.forall_mem_singleton] at fed
    have before := ih fed.1
    have next := before.1.system config mode fed.2
    rw [Machine.run_concat, observations, Machine.outputs_concat, List.flatten_append,
      submissions_append, List.forall_mem_append]
    refine ⟨next.1, before.2, ?_⟩
    rw [List.flatten_singleton]
    exact next.2

end Runs

section Processes

variable (config : OrchestratorConfig) (mode : JobSubmissionMode) (decoders : Decoders)
  (threads : Nat)

/-- The message of a payload, if it decodes, comes from the sources. -/
def ProcessEvent.FedBy (sources : Sources) (decoders : Decoders) : ProcessEvent → Prop
  | .choresSample bytes _ =>
    ∀ message, decoders.chores bytes = .ok message → sources.chores message
  | .personSample bytes _ =>
    ∀ message, decoders.person bytes = .ok message → sources.person message
  | _ => True

/-- What the surroundings hand over comes from the sources if the payload does. -/
theorem ProcessEvent.FedBy.decoded {event : ProcessEvent} (fed : event.FedBy sources decoders)
    {handed : SystemEvent} (given : event.decoded decoders = some handed) :
    handed.FedBy sources := by
  cases event with
  | choresSample bytes now =>
    simp only [ProcessEvent.decoded] at given
    cases answer : decoders.chores bytes with
    | ok chores =>
      rw [answer] at given
      rw [← Option.some.inj given]
      exact fed chores answer
    | error error =>
      rw [answer] at given
      contradiction
  | personSample bytes now =>
    simp only [ProcessEvent.decoded] at given
    cases answer : decoders.person bytes with
    | ok person =>
      rw [answer] at given
      rw [← Option.some.inj given]
      exact fed person answer
    | error error =>
      rw [answer] at given
      contradiction
  | tick now order =>
    rw [← Option.some.inj given]
    trivial
  | _ => contradiction

/-- Payloads that come from the sources lead to calls that do. -/
theorem process_submissions_from {events : List ProcessEvent}
    (fed : ∀ event ∈ events, event.FedBy sources decoders) :
    ∀ submission ∈ submissions (processLog config mode decoders threads events),
      submission.From sources := by
  have admitted : ∀ event ∈ processExplanation config mode decoders threads events,
      event.FedBy sources := by
    apply (processRefinement config mode decoders threads).forall_mem_explained
      (SystemEvent.FedBy sources) (fun self event _ => filterMap_explain decoders self event)
      (start_holds config mode decoders threads) events
    · intro event silent
      cases event with
      | finish index succeeded => trivial
      | consume => trivial
      | _ => contradiction
    · intro event member found given other seen
      have same : other = found := by
        cases other with
        | finish index succeeded => contradiction
        | consume => contradiction
        | _ => exact Option.some.inj seen
      rw [same]
      exact (fed event member).decoded decoders given
  have shown := process_observations config mode decoders threads events
  rw [processLog, shown]
  exact (run_sourced config mode admitted).2

end Processes

end BossWorker.Rust
