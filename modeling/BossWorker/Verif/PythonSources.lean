import BossWorker.Spec.Sources
import BossWorker.Verif.Expiry
import BossWorker.Verif.PythonLimits

/-!
# The Python orchestrator submits what it has received

The chores of a window are the latest that were received, and its people are among those
received since it was opened, so both are messages of the payloads that parse. A person
whose window gets no timer is not in the window.
-/

namespace BossWorker.Python

variable {sources : Sources}

/-- The people of a window come from the sources. -/
def PersonWindow.Sourced (sources : Sources) (window : PersonWindow) : Prop :=
  ∀ pending ∈ window.pendingPeople.values, sources.person pending.message

/-- What a coordinator holds comes from the sources. -/
structure BatchCoordinator.Sourced (sources : Sources) (state : BatchCoordinator) : Prop where
  keyed : state.Keyed
  chores : ∀ chores, state.latestChores = some chores → sources.chores chores
  people : ∀ window, state.currentWindow = some window → window.Sourced sources

/-- The message of a call comes from the sources. -/
def TimedEvent.FedBy (sources : Sources) : TimedEvent → Prop
  | .chores message _ => sources.chores message
  | .person message _ _ => sources.person message
  | _ => True

/-- A person of the sources joins a window. -/
theorem PersonWindow.Sourced.joined {window : PersonWindow} (sourced : window.Sourced sources)
    {person : PersonAvailability} (fed : sources.person person) (now : Monotonic) :
    (window.joined person now).Sourced sources := by
  apply Dict.forall_mem_values_insert
  · exact fed
  · exact sourced

/-- A new window has nobody. -/
theorem sourced_openWindow (sources : Sources) (config : OrchestratorConfig) (now : Monotonic)
    (ident : Nat) : (BatchCoordinator.openWindow config now ident).Sourced sources :=
  fun _ absent => absurd absent List.not_mem_nil

namespace BatchCoordinator

variable (config : OrchestratorConfig) {self : BatchCoordinator}

/-- A coordinator that has received nothing holds nothing. -/
theorem sourced_new : Sourced sources .new where
  keyed window absent := absurd absent.symm (Option.some_ne_none window)
  chores chores latest := absurd latest.symm (Option.some_ne_none chores)
  people window opened := absurd opened.symm (Option.some_ne_none window)

/-- A person of the sources is received. -/
theorem Sourced.receivePerson (sourced : self.Sourced sources) {person : PersonAvailability}
    (fed : sources.person person) (now : Monotonic) (ident : Nat) (started : Bool) :
    (self.receivePerson config person now ident started).1.Sourced sources := by
  have keyed := step_keyed config sourced.keyed (.person person now ident started)
  change (self.receivePerson config person now ident started).1.Keyed at keyed
  refine ⟨keyed, ?_, ?_⟩
  · intro chores latest
    apply sourced.chores chores
    unfold BatchCoordinator.receivePerson at latest
    cases current : self.currentWindow with
    | some window =>
      rw [current] at latest
      exact latest
    | none =>
      rw [current] at latest
      cases started <;> exact latest
  · intro window opened
    unfold BatchCoordinator.receivePerson at opened
    cases current : self.currentWindow with
    | some old =>
      rw [current] at opened
      have same : old.joined person now = window := Option.some.inj opened
      rw [← same]
      exact (sourced.people old current).joined fed now
    | none =>
      have fresh := sourced_openWindow sources config now ident
      rw [current] at opened
      cases started with
      | true =>
        have same : (openWindow config now ident).joined person now = window :=
          Option.some.inj opened
        rw [← same]
        exact fresh.joined fed now
      | false =>
        have same : openWindow config now ident = window := Option.some.inj opened
        rw [← same]
        exact fresh

/-- A flush submits what the coordinator holds. -/
theorem Sourced.flushed (sourced : self.Sourced sources) (now : Monotonic) :
    (self.flushCurrentWindow config now).1.Sourced sources ∧
      ∀ submission, (self.flushCurrentWindow config now).2 = some submission →
        submission.From sources := by
  have distinct (submission : Submission)
      (handed : (self.flushCurrentWindow config now).2 = some submission) :
      submission.personIds.Nodup := (handed_over config sourced.keyed handed).2
  have closed := self.flushCurrentWindow_currentWindow config now
  have outcome := self.flushCurrentWindow_flushed config now
  generalize self.flushCurrentWindow config now = result at *
  have windowless : result.1.Keyed ∧ ∀ window, result.1.currentWindow = some window →
      window.Sourced sources := by
    constructor
    · intro window opened
      exact absurd (opened.symm.trans closed) (Option.some_ne_none window)
    · intro window opened
      exact absurd (opened.symm.trans closed) (Option.some_ne_none window)
  cases outcome with
  | absent none_open =>
    refine ⟨sourced, fun submission absent => ?_⟩
    exact absurd absent.symm (Option.some_ne_none submission)
  | dropped window opened refused =>
    refine ⟨⟨windowless.1, sourced.chores, windowless.2⟩, fun submission absent => ?_⟩
    exact absurd absent.symm (Option.some_ne_none submission)
  | accepted window chores opened latest pending idle =>
    refine ⟨⟨windowless.1, ?_, windowless.2⟩, ?_⟩
    · intro other held
      apply sourced.chores other
      rw [accepted, foldl_recordSelection] at held
      exact held
    · intro submission handed
      have known := distinct submission handed
      rw [← Option.some.inj handed] at known ⊢
      refine ⟨sourced.chores chores latest, ?_, known⟩
      intro person member
      obtain ⟨chosen, selected, rfl⟩ := List.mem_map.mp member
      exact sourced.people window opened chosen (mem_values_of_mem_selection selected)

end BatchCoordinator

section Runs

variable (config : OrchestratorConfig)

/-- A call that comes from the sources keeps what the coordinator holds. -/
theorem BatchCoordinator.Sourced.timed {self : TimedCoordinator}
    (sourced : self.coordinator.Sourced sources) {call : TimedEvent} (fed : call.FedBy sources) :
    ((timedCoordinator config).step self call).1.coordinator.Sourced sources ∧
      ∀ submission ∈ Answer.submission ((timedCoordinator config).step self call).2,
        submission.From sources := by
  have quiet (submission : Submission) (absent : submission ∈ []) : submission.From sources :=
    absurd absent List.not_mem_nil
  cases call with
  | chores chores now =>
    refine ⟨⟨sourced.keyed, ?_, sourced.people⟩, quiet⟩
    intro other latest
    rw [← Option.some.inj latest]
    exact fed
  | complete person succeeded now => exact ⟨⟨sourced.keyed, sourced.chores, sourced.people⟩, quiet⟩
  | prune now => exact ⟨⟨sourced.keyed, sourced.chores, sourced.people⟩, quiet⟩
  | person person now started =>
    have received := sourced.receivePerson config fed now self.nextIdent started
    simp only [timedCoordinator, TimedCoordinator.receivePerson]
    cases self.coordinator.currentWindow with
    | some window => exact ⟨received, quiet⟩
    | none => exact ⟨received, quiet⟩
  | fire index now =>
    have flushed := sourced.flushed config now
    simp only [timedCoordinator, TimedCoordinator.fire]
    cases self.outstanding[index]? with
    | none => exact ⟨sourced, quiet⟩
    | some timer =>
      refine ⟨flushed.1, ?_⟩
      cases handed : (self.coordinator.flushCurrentWindow config now).2 with
      | none => exact quiet
      | some submission =>
        intro other member
        have same : other = submission := List.mem_singleton.mp member
        rw [same]
        exact flushed.2 submission handed

/-- Calls that come from the sources lead to windows that do. -/
theorem run_sourced {calls : List TimedEvent} (fed : ∀ call ∈ calls, call.FedBy sources) :
    ((timedCoordinator config).run .new calls).coordinator.Sourced sources ∧
      ∀ submission ∈ ((timedCoordinator config).outputs .new calls).flatMap Answer.submission,
        submission.From sources := by
  induction calls using List.reverseRecOn with
  | nil =>
    exact ⟨BatchCoordinator.sourced_new, fun submission absent => absurd absent List.not_mem_nil⟩
  | append_singleton calls call ih =>
    rw [List.forall_mem_append, List.forall_mem_singleton] at fed
    have before := ih fed.1
    have next := before.1.timed config fed.2
    rw [Machine.run_concat, Machine.outputs_concat, List.flatMap_append, List.forall_mem_append,
      List.flatMap_singleton]
    exact ⟨next.1, before.2, next.2⟩

end Runs

section Processes

variable (config : OrchestratorConfig) (mode : JobSubmissionMode) (parsers : Parsers)

/-- The message of a payload, if it parses, comes from the sources. -/
def ProcessEvent.FedBy (sources : Sources) (parsers : Parsers) : ProcessEvent → Prop
  | .choresSample bytes _ =>
    ∀ message, parsers.chores bytes = .ok message → sources.chores message
  | .personSample bytes _ _ =>
    ∀ message, parsers.person bytes = .ok message → sources.person message
  | _ => True

/-- The call of a payload comes from the sources if the payload does. -/
theorem ProcessEvent.FedBy.call {event : ProcessEvent} (fed : event.FedBy sources parsers)
    {call : TimedEvent} (given : event.call parsers = some call) : call.FedBy sources := by
  cases event with
  | choresSample bytes now =>
    simp only [ProcessEvent.call] at given
    cases answer : parsers.chores bytes with
    | ok chores =>
      rw [answer] at given
      rw [← Option.some.inj given]
      exact fed chores answer
    | error error =>
      rw [answer] at given
      contradiction
  | personSample bytes now started =>
    simp only [ProcessEvent.call] at given
    cases answer : parsers.person bytes with
    | ok person =>
      rw [answer] at given
      rw [← Option.some.inj given]
      exact fed person answer
    | error error =>
      rw [answer] at given
      contradiction
  | prune now =>
    rw [← Option.some.inj given]
    trivial
  | _ => contradiction

/-- What is attempted is what is submitted. -/
theorem map_submission_attempts (shown : List (Option Observation)) :
    (attempts shown).map Attempt.submission = shown.flatMap Observation.submission := by
  induction shown with
  | nil => rfl
  | cons last shown ih =>
    rw [List.flatMap_cons, ← ih]
    cases last with
    | none => rfl
    | some observation =>
      cases observation with
      | attempted attempt => rfl
      | reported batch person succeeded => rfl

/-- Payloads that come from the sources lead to windows that do. -/
theorem process_attempts_from {events : List ProcessEvent}
    (fed : ∀ event ∈ events, event.FedBy sources parsers) :
    ∀ attempt ∈ attempts ((process config mode parsers).outputs .start events),
      attempt.submission.From sources := by
  have admitted : ∀ call ∈ (timedRefinement config mode parsers).explained .start events,
      call.FedBy sources := by
    apply (timedRefinement config mode parsers).forall_mem_explained
      (TimedEvent.FedBy sources) (fun self event _ => filterMap_explainTimed parsers self event)
      trivial events
    · intro call silent
      cases call with
      | complete person succeeded now => trivial
      | fire index now => trivial
      | _ => contradiction
    · intro event member found given other seen
      have same : other = found := by
        cases other with
        | complete person succeeded now => contradiction
        | fire index now => contradiction
        | _ => exact Option.some.inj seen
      rw [same]
      exact (fed event member).call parsers given
  have initial : (timedRefinement config mode parsers).holds .start := trivial
  have shown : ((process config mode parsers).outputs .start events).flatMap
      Observation.submission = ((timedCoordinator config).outputs .new
        ((timedRefinement config mode parsers).explained .start events)).flatMap
          Answer.submission :=
    (timedRefinement config mode parsers).shown_outputs initial events
  have sourced := (run_sourced config admitted).2
  rw [← shown, ← map_submission_attempts] at sourced
  exact fun attempt member => sourced _ (List.mem_map_of_mem member)

end Processes

end BossWorker.Python
