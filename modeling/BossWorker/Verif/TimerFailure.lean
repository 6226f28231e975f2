import BossWorker.Verif.Timers

/-!
# A timer that cannot be started

`receive_person` publishes the window and then starts its timer, so a start that fails
leaves the window behind. As long as no start fails, everybody received is in a window that
its own timer will close. After the first failure the window never closes again: everybody
joins it and no timer is left.
-/

namespace BossWorker.Python

/-- The person is in the open window, and the window has an outstanding timer whose call
will close it. -/
def Covered (config : OrchestratorConfig) (self : TimedCoordinator)
    (person : PersonAvailability) : Prop :=
  ∃ window pending timer index, self.coordinator.currentWindow = some window ∧
    window.pendingPeople.get? person.personId = some pending ∧ pending.message = person ∧
    window.timer = some timer ∧ self.outstanding[index]? = some timer ∧
    ∀ now, (((timedCoordinator config).step self (.fire index now)).1).coordinator.currentWindow =
      none

/-- Every call that raises leaves the coordinator as it was, and everybody received is in a
window with a running timer that will close it. -/
structure AtomicOnError (config : OrchestratorConfig) (events : List TimedEvent) : Prop where
  /-- A call that raises changes nothing. -/
  unchanged : ∀ step ∈ (timedCoordinator config).trace .new events,
    step.output = .received .raised → step.after.coordinator = step.before.coordinator
  /-- A person whose call returns will be flushed. -/
  covered : ∀ step ∈ (timedCoordinator config).trace .new events, ∀ person now started,
    step.event = .person person now started → step.output = .received .returned →
      Covered config step.after person

/-- No call of the run has to start a timer that cannot be started: whoever meets a refusal
finds a window open. -/
def NoStartRefused (config : OrchestratorConfig) (events : List TimedEvent) : Prop :=
  ∀ step ∈ (timedCoordinator config).trace .new events, step.event.StartsIn step.before

/-- While window and timer are paired, a person whose call has returned is covered. -/
theorem covered_of_received {config : OrchestratorConfig} {self : TimedCoordinator}
    {person : PersonAvailability} {now : Monotonic} {started : Bool}
    {result : TimedCoordinator × Answer}
    (stepped : TimedStep config self (.person person now started) result)
    (returned : result.2 = .received .returned) (armed : Armed result.1) :
    Covered config result.1 person := by
  have joined : ∃ window : PersonWindow,
      result.1.coordinator.currentWindow = some (window.joined person now) := by
    cases stepped with
    | other event coordinator same => cases returned
    | joined person now started window current => exact ⟨window, rfl⟩
    | opened person now absent coordinator current => exact ⟨_, current⟩
    | refused person now absent coordinator current => cases returned
  obtain ⟨window, current⟩ := joined
  cases armed with
  | closed absent idle =>
    rw [current] at absent
    contradiction
  | opened other timer found own alone pending =>
    obtain rfl : other = window.joined person now := Option.some.inj (found.symm.trans current)
    have first : result.1.outstanding[0]? = some timer := by rw [alone]; rfl
    refine ⟨_, ⟨person, now, window.sequenceNumber + 1⟩, timer, 0, current, ?_, rfl, own, first,
      fun later => ?_⟩
    · simp [PersonWindow.joined]
    · change (result.1.fire config 0 later).1.coordinator.currentWindow = none
      simp only [TimedCoordinator.fire, first]
      exact BatchCoordinator.flushCurrentWindow_currentWindow config _ later

/-- Along a run without refused starts, window and timer stay paired. -/
theorem armed_of_noStartRefused {config : OrchestratorConfig} {events : List TimedEvent}
    (started : NoStartRefused config events) :
    ∀ step ∈ (timedCoordinator config).trace .new events,
      Armed step.before ∧ Armed step.after := by
  have preserved (self : TimedCoordinator) (event : TimedEvent) (armed : Armed self)
      (starts : event.StartsIn self) : Armed ((timedCoordinator config).step self event).1 :=
    armed.step starts (timedCoordinator_step config self event)
  have initial : Armed .new := .closed rfl rfl
  exact (timedCoordinator config).trace_invariant preserved initial events started

/-- A call whose timer does not start is one of `receive_person` with no window open. -/
theorem refused_of_not_startsIn {self : TimedCoordinator} {event : TimedEvent}
    (refused : ¬ event.StartsIn self) :
    ∃ person now, event = .person person now false ∧ self.coordinator.currentWindow = none := by
  cases event with
  | person person now started =>
    simp only [TimedEvent.StartsIn, not_or, Bool.not_eq_true, ne_eq, not_not] at refused
    exact ⟨person, now, by rw [refused.1], refused.2⟩
  | _ => exact absurd trivial refused

/-- Such a call raises and leaves its empty window open. -/
theorem step_refused {config : OrchestratorConfig} {self : TimedCoordinator}
    (person : PersonAvailability) (now : Monotonic)
    (absent : self.coordinator.currentWindow = none) :
    (timedCoordinator config).step self (.person person now false) =
      ({ coordinator := { self.coordinator with
           currentWindow := some (BatchCoordinator.openWindow config now self.nextIdent) }
         outstanding := self.outstanding
         nextIdent := self.nextIdent + 1 }, .received .raised) := by
  change self.receivePerson config person now false = _
  simp only [TimedCoordinator.receivePerson, BatchCoordinator.receivePerson, absent,
    Bool.false_eq_true, if_false, List.append_nil]

/-- In every run, calls that raise leave the coordinator as it was and everybody received is
in a window that a running timer will close, exactly when no call of the run has to start a
timer that cannot be started. -/
theorem receive_person_atomic_iff (config : OrchestratorConfig) (events : List TimedEvent) :
    AtomicOnError config events ↔ NoStartRefused config events := by
  constructor
  · intro atomic step member
    by_contra refused
    obtain ⟨person, now, same, absent⟩ := refused_of_not_startsIn refused
    have result := (timedCoordinator config).step_of_mem_trace member
    rw [same, step_refused person now absent, Prod.mk.injEq] at result
    have kept := atomic.unchanged step member result.2.symm
    have current : step.after.coordinator.currentWindow ≠ none := by
      rw [← result.1]
      exact Option.some_ne_none _
    rw [kept] at current
    exact current absent
  · intro started
    have armed := armed_of_noStartRefused started
    refine ⟨fun step member raised => ?_, fun step member person now begun called returned => ?_⟩
    · have stepped := timedCoordinator_step config step.before step.event
      rw [(timedCoordinator config).step_of_mem_trace member, raised] at stepped
      have starts := started step member
      generalize step.event = event at stepped starts
      generalize step.after = after at stepped
      cases stepped with
      | refused person now absent coordinator current =>
        exact absurd absent (starts.resolve_left Bool.false_ne_true)
    · have stepped := timedCoordinator_step config step.before step.event
      rw [(timedCoordinator config).step_of_mem_trace member, called] at stepped
      exact covered_of_received stepped returned (armed step member).2

/-- One person whose timer does not start, and one who comes later. -/
def refusedStart : List TimedEvent :=
  [.person { personId := "amy" } 1 false, .person { personId := "bob" } 2 true]

/-- The first call of that run leaves a window open, and the second joins it although no
timer is left to close it. -/
theorem refused_start_not_atomic :
    ¬ AtomicOnError ⟨2, 5, 60⟩ refusedStart ∧
      ((timedCoordinator ⟨2, 5, 60⟩).run .new refusedStart).outstanding = [] := by
  refine ⟨fun atomic => ?_, rfl⟩
  have kept := atomic.unchanged _ List.mem_cons_self rfl
  exact absurd (congrArg BatchCoordinator.currentWindow kept) (Option.some_ne_none _)

section Stranded

variable {config : OrchestratorConfig} {self : TimedCoordinator}

/-- A window is open and no timer is left. -/
structure Stranded (timed : TimedCoordinator) : Prop where
  opened : timed.coordinator.currentWindow ≠ none
  silent : timed.outstanding = []

/-- Nothing gets a stranded coordinator out of its window, and nothing is flushed. -/
theorem Stranded.step (stranded : Stranded self) {event : TimedEvent}
    {result : TimedCoordinator × Answer} (stepped : TimedStep config self event result) :
    Stranded result.1 ∧ ∀ timer submission, result.2 ≠ .flushed timer submission := by
  cases stepped with
  | other event coordinator same =>
    exact ⟨⟨same ▸ stranded.opened, stranded.silent⟩, fun _ _ => nofun⟩
  | joined person now started window current =>
    exact ⟨⟨Option.some_ne_none _, stranded.silent⟩, fun _ _ => nofun⟩
  | opened person now absent coordinator current => exact absurd absent stranded.opened
  | refused person now absent coordinator current => exact absurd absent stranded.opened
  | fired index now timer found =>
    rw [stranded.silent] at found
    contradiction

end Stranded

/-- Every reachable state is paired or stranded, whatever timers fail to start. -/
theorem armed_or_stranded (config : OrchestratorConfig) (events : List TimedEvent) :
    Armed ((timedCoordinator config).run .new events) ∨
      Stranded ((timedCoordinator config).run .new events) := by
  have preserved (self : TimedCoordinator) (event : TimedEvent)
      (sound : Armed self ∨ Stranded self) :
      Armed ((timedCoordinator config).step self event).1 ∨
        Stranded ((timedCoordinator config).step self event).1 := by
    have stepped := timedCoordinator_step config self event
    rcases sound with armed | stranded
    · by_cases starts : event.StartsIn self
      · exact Or.inl (armed.step starts stepped)
      · obtain ⟨person, now, rfl, absent⟩ := refused_of_not_startsIn starts
        rw [step_refused person now absent]
        cases armed with
        | closed _ idle => exact Or.inr ⟨Option.some_ne_none _, idle⟩
        | opened window timer current own alone pending =>
          rw [absent] at current
          contradiction
    · exact Or.inr (stranded.step stepped).1
  have initial : Armed .new ∨ Stranded .new := Or.inl (.closed rfl rfl)
  exact (timedCoordinator config).run_invariant preserved initial events

/-- Once a timer has failed to start, whatever is called later, its window stays open
without a timer and nothing is ever flushed. -/
theorem refused_start_strands (config : OrchestratorConfig) (history later : List TimedEvent)
    (person : PersonAvailability) (now : Monotonic)
    (absent : ((timedCoordinator config).run .new history).coordinator.currentWindow = none) :
    let failed := ((timedCoordinator config).run .new (history ++ [.person person now false]))
    Stranded ((timedCoordinator config).run failed later) ∧
      ∀ step ∈ (timedCoordinator config).trace failed later, ∀ timer submission,
        step.output ≠ .flushed timer submission := by
  intro failed
  have after : Stranded failed := by
    rw [show failed = _ from (timedCoordinator config).run_concat _ _ _,
      step_refused person now absent]
    rcases armed_or_stranded config history with armed | stranded
    · cases armed with
      | closed _ idle => exact ⟨Option.some_ne_none _, idle⟩
      | opened window timer current own alone pending =>
        rw [absent] at current
        contradiction
    · exact absurd absent stranded.opened
  have preserved (self : TimedCoordinator) (event : TimedEvent) (stranded : Stranded self)
      (_ : True) : Stranded ((timedCoordinator config).step self event).1 :=
    (stranded.step (timedCoordinator_step config self event)).1
  constructor
  · apply (timedCoordinator config).run_invariant _ after
    exact fun self event stranded => preserved self event stranded trivial
  · intro step member
    have before := ((timedCoordinator config).trace_invariant preserved after later
      (fun _ _ => trivial) step member).1
    have stepped := timedCoordinator_step config step.before step.event
    rw [(timedCoordinator config).step_of_mem_trace member] at stepped
    exact (before.step stepped).2

end BossWorker.Python
