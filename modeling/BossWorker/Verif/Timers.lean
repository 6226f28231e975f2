import BossWorker.Python.Timers
import BossWorker.Verif.PythonCoordinator

/-!
# Windows and their timers

While every timer starts, the open window and the outstanding timer come and go together:
`Armed` says so, and it is what makes a call that names no window close the right one. A
timer that cannot be started breaks the pair for good, because the window is published
first: it stays open, everybody joins it, and no timer is left to close it.
-/

namespace BossWorker.Python

/-- The timer of the open window. -/
def BatchCoordinator.currentTimer (self : BatchCoordinator) : Option Timer :=
  self.currentWindow.bind PersonWindow.timer

/-- One outstanding timer, that of the open window, or neither a window nor a timer. -/
inductive Armed (self : TimedCoordinator) : Prop where
  /-- No window is open and no timer is outstanding. -/
  | closed (absent : self.coordinator.currentWindow = none) (idle : self.outstanding = [])
  /-- A window with people in it is open, and its timer is the only one. -/
  | opened (window : PersonWindow) (timer : Timer)
    (current : self.coordinator.currentWindow = some window) (own : window.timer = some timer)
    (alone : self.outstanding = [timer]) (pending : window.pendingPeople.values ≠ [])

/-- Any timer that the call creates starts. -/
def TimedEvent.Starts : TimedEvent → Prop
  | .person _ _ started => started = true
  | _ => True

/-- Any timer that the call creates in this state starts. -/
def TimedEvent.StartsIn (self : TimedCoordinator) : TimedEvent → Prop
  | .person _ _ started => started = true ∨ self.coordinator.currentWindow ≠ none
  | _ => True

/-- A call whose timer starts does so in every state. -/
theorem TimedEvent.Starts.startsIn {event : TimedEvent} (starts : event.Starts)
    (self : TimedCoordinator) : event.StartsIn self := by
  cases event with
  | person person now started => exact Or.inl starts
  | _ => trivial

/-- The window that a transition closes. -/
def closing (step : Transition TimedCoordinator TimedEvent Answer) : Option PersonWindow :=
  step.before.coordinator.currentWindow.filter fun window =>
    step.after.coordinator.currentTimer ≠ window.timer

section Step

variable {config : OrchestratorConfig} {self : TimedCoordinator}

/-- What a call does to the window and the timers. -/
inductive TimedStep (config : OrchestratorConfig) (self : TimedCoordinator) :
    TimedEvent → TimedCoordinator × Answer → Prop where
  /-- Nothing. -/
  | other (event : TimedEvent) (coordinator : BatchCoordinator)
    (same : coordinator.currentWindow = self.coordinator.currentWindow) :
    TimedStep config self event ({ self with coordinator := coordinator }, .quiet)
  /-- A person joins the open window. -/
  | joined (person : PersonAvailability) (now : Monotonic) (started : Bool)
    (window : PersonWindow) (current : self.coordinator.currentWindow = some window) :
    TimedStep config self (.person person now started)
      ({ self with coordinator := self.coordinator.joinWindow window person now },
        .received .returned)
  /-- A person opens a window and starts its timer. -/
  | opened (person : PersonAvailability) (now : Monotonic)
    (absent : self.coordinator.currentWindow = none) (coordinator : BatchCoordinator)
    (current : coordinator.currentWindow = some
      ((BatchCoordinator.openWindow config now self.nextIdent).joined person now)) :
    TimedStep config self (.person person now true)
      ({ coordinator := coordinator
         outstanding := self.outstanding ++
           [⟨self.nextIdent, config.personGatherWindowSeconds⟩]
         nextIdent := self.nextIdent + 1 }, .received .returned)
  /-- A person opens a window and its timer cannot be started. -/
  | refused (person : PersonAvailability) (now : Monotonic)
    (absent : self.coordinator.currentWindow = none) (coordinator : BatchCoordinator)
    (current : coordinator.currentWindow = some
      (BatchCoordinator.openWindow config now self.nextIdent)) :
    TimedStep config self (.person person now false)
      ({ coordinator := coordinator
         outstanding := self.outstanding
         nextIdent := self.nextIdent + 1 }, .received .raised)
  /-- An outstanding timer flushes. -/
  | fired (index : Nat) (now : Monotonic) (timer : Timer)
    (found : self.outstanding[index]? = some timer) :
    TimedStep config self (.fire index now)
      ({ self with
         coordinator := (self.coordinator.flushCurrentWindow config now).1
         outstanding := self.outstanding.eraseIdx index },
        .flushed timer (self.coordinator.flushCurrentWindow config now).2)

/-- Every call does one of these. -/
theorem timedCoordinator_step (config : OrchestratorConfig) (self : TimedCoordinator)
    (event : TimedEvent) :
    TimedStep config self event ((timedCoordinator config).step self event) := by
  cases event with
  | chores chores now => exact .other _ _ rfl
  | complete person succeeded now => exact .other _ _ rfl
  | prune now => exact .other _ _ rfl
  | person person now started =>
    change TimedStep config self _ (self.receivePerson config person now started)
    unfold TimedCoordinator.receivePerson BatchCoordinator.receivePerson
    cases current : self.coordinator.currentWindow with
    | some window => exact .joined person now started window current
    | none =>
      cases started with
      | true => exact .opened person now current _ rfl
      | false =>
        simp only [Bool.false_eq_true, if_false, List.append_nil]
        exact .refused person now current _ rfl
  | fire index now =>
    change TimedStep config self _ (self.fire config index now)
    unfold TimedCoordinator.fire
    cases found : self.outstanding[index]? with
    | none => exact .other _ _ rfl
    | some timer => exact .fired index now timer found

/-- A call whose timer starts keeps window and timer together. -/
theorem Armed.step (armed : Armed self) {event : TimedEvent} (starts : event.StartsIn self)
    {result : TimedCoordinator × Answer} (stepped : TimedStep config self event result) :
    Armed result.1 := by
  cases stepped with
  | other event coordinator same =>
    cases armed with
    | closed absent idle => exact .closed (same.trans absent) idle
    | opened window timer current own alone pending =>
      exact .opened window timer (same.trans current) own alone pending
  | joined person now started window current =>
    cases armed with
    | closed absent idle =>
      rw [current] at absent
      contradiction
    | opened other timer found own alone pending =>
      obtain rfl : other = window := Option.some.inj (found.symm.trans current)
      exact .opened (other.joined person now) timer rfl own alone
        (Dict.values_insert_ne_nil _ _ _)
  | opened person now absent coordinator current =>
    cases armed with
    | closed _ idle =>
      refine .opened _ ⟨self.nextIdent, config.personGatherWindowSeconds⟩ current rfl ?_
        (Dict.values_insert_ne_nil _ _ _)
      rw [idle, List.nil_append]
    | opened window timer found own alone pending =>
      rw [absent] at found
      contradiction
  | refused person now absent coordinator current =>
    exact absurd absent (starts.resolve_left Bool.false_ne_true)
  | fired index now timer found =>
    have gone := self.coordinator.flushCurrentWindow_currentWindow config now
    cases armed with
    | closed absent idle =>
      rw [idle] at found
      contradiction
    | opened window other current own alone pending =>
      refine .closed gone ?_
      have first : index = 0 := by
        rw [alone] at found
        have inside := (List.getElem?_eq_some_iff.mp found).1
        rw [List.length_singleton] at inside
        omega
      rw [alone, first]
      rfl

end Step

/-- The timer of the open window, if one is open. -/
def openTimers (self : TimedCoordinator) : List (Option Timer) :=
  self.coordinator.currentWindow.toList.map PersonWindow.timer

/-- The timers of the windows a trace has closed. -/
def closedTimers (trace : List (Transition TimedCoordinator TimedEvent Answer)) :
    List (Option Timer) :=
  (trace.filterMap closing).map PersonWindow.timer

/-- One more transition adds the window it closes. -/
theorem closedTimers_concat (trace : List (Transition TimedCoordinator TimedEvent Answer))
    (step : Transition TimedCoordinator TimedEvent Answer) :
    closedTimers (trace ++ [step]) =
      closedTimers trace ++ (closing step).toList.map PersonWindow.timer := by
  have last : [step].filterMap closing = (closing step).toList := by
    cases closed : closing step <;> simp [closed]
  rw [closedTimers, List.filterMap_append, last, List.map_append, closedTimers]

/-- A call moves the timer of the open window to the closed ones, or leaves both alone, or
opens a window with a fresh timer. -/
theorem timers_step {config : OrchestratorConfig} {self : TimedCoordinator}
    (armed : Armed self) {event : TimedEvent} (starts : event.StartsIn self)
    {result : TimedCoordinator × Answer} (stepped : TimedStep config self event result) :
    let step : Transition TimedCoordinator TimedEvent Answer := ⟨self, event, result.2, result.1⟩
    ((closing step).toList.map PersonWindow.timer ++ openTimers result.1 = openTimers self ∧
        result.1.nextIdent = self.nextIdent) ∨
      (closing step = none ∧ openTimers self = [] ∧
        openTimers result.1 = [some ⟨self.nextIdent, config.personGatherWindowSeconds⟩] ∧
        result.1.nextIdent = self.nextIdent + 1) := by
  cases stepped with
  | other event coordinator same =>
    refine Or.inl ⟨?_, rfl⟩
    simp only [closing, openTimers, BatchCoordinator.currentTimer, same]
    cases self.coordinator.currentWindow <;> simp
  | joined person now started window current =>
    refine Or.inl ⟨?_, rfl⟩
    simp [closing, openTimers, BatchCoordinator.currentTimer, BatchCoordinator.joinWindow,
      current]
  | opened person now absent coordinator current =>
    refine Or.inr ⟨?_, ?_, ?_, rfl⟩
    · simp [closing, absent]
    · simp [openTimers, absent]
    · rw [openTimers, current]
      rfl
  | refused person now absent coordinator current =>
    exact absurd absent (starts.resolve_left Bool.false_ne_true)
  | fired index now timer found =>
    have gone := self.coordinator.flushCurrentWindow_currentWindow config now
    refine Or.inl ⟨?_, rfl⟩
    simp only [closing, openTimers, BatchCoordinator.currentTimer, gone]
    cases armed with
    | closed absent idle => simp [absent]
    | opened window other current own alone pending => simp [current, own]

/-- What holds along every run whose timers start: windows and timers are paired, a timer
closes the window it was created for, which has people in it, and no window is closed
twice. -/
structure TimerLifecycle (timed : TimedCoordinator)
    (trace : List (Transition TimedCoordinator TimedEvent Answer)) : Prop where
  /-- There is one outstanding timer, that of the open window, or neither. -/
  armed : Armed timed
  /-- A timer that makes its call closes its own window. -/
  closes : ∀ step ∈ trace, ∀ timer submission, step.output = .flushed timer submission →
    ∃ window, step.before.coordinator.currentWindow = some window ∧
      window.timer = some timer ∧ window.pendingPeople.values ≠ [] ∧
      step.after.coordinator.currentWindow = none
  /-- The windows closed so far and the open one have different timers. -/
  once : (closedTimers trace ++ openTimers timed).Nodup
  /-- All of these timers have been created. -/
  created : ∀ entry ∈ closedTimers trace ++ openTimers timed,
    ∃ timer, entry = some timer ∧ timer.ident < timed.nextIdent

/-- Nothing has happened yet. -/
theorem timerLifecycle_new : TimerLifecycle .new [] where
  armed := .closed rfl rfl
  closes _ member := absurd member List.not_mem_nil
  once := List.nodup_nil
  created _ member := absurd member List.not_mem_nil

/-- One more call whose timer starts keeps the lifecycle. -/
theorem TimerLifecycle.step {config : OrchestratorConfig} {self : TimedCoordinator}
    {trace : List (Transition TimedCoordinator TimedEvent Answer)}
    (lifecycle : TimerLifecycle self trace) {event : TimedEvent} (starts : event.StartsIn self)
    {result : TimedCoordinator × Answer} (stepped : TimedStep config self event result) :
    TimerLifecycle result.1 (trace ++ [⟨self, event, result.2, result.1⟩]) := by
  have moved := timers_step lifecycle.armed starts stepped
  refine ⟨lifecycle.armed.step starts stepped, ?_, ?_, ?_⟩
  · intro step member timer submission flushed
    rcases List.mem_append.mp member with earlier | last
    · exact lifecycle.closes step earlier timer submission flushed
    · obtain rfl := List.mem_singleton.mp last
      cases stepped with
      | other event coordinator same => cases flushed
      | joined person now started window current => cases flushed
      | opened person now absent coordinator current => cases flushed
      | refused person now absent coordinator current => cases flushed
      | fired index now fired found =>
        cases flushed
        cases lifecycle.armed with
        | closed absent idle =>
          rw [idle] at found
          contradiction
        | opened window other current own alone pending =>
          have only : timer = other := by
            rw [alone] at found
            exact List.mem_singleton.mp (List.mem_of_getElem? found)
          exact ⟨window, current, only ▸ own, pending,
            self.coordinator.flushCurrentWindow_currentWindow config now⟩
  · rw [closedTimers_concat, List.append_assoc]
    rcases moved with ⟨same, _⟩ | ⟨none_closed, none_open, fresh, _⟩
    · exact same ▸ lifecycle.once
    · have before := lifecycle.once
      rw [none_open, List.append_nil] at before
      rw [none_closed, fresh, Option.toList_none, List.map_nil, List.nil_append,
        List.nodup_append]
      refine ⟨before, List.nodup_singleton _, fun entry member other last => ?_⟩
      obtain ⟨timer, rfl, old⟩ := lifecycle.created entry (List.mem_append_left _ member)
      rintro rfl
      have same : timer = ⟨self.nextIdent, config.personGatherWindowSeconds⟩ :=
        Option.some.inj (List.mem_singleton.mp last)
      rw [same] at old
      exact Nat.lt_irrefl _ old
  · rw [closedTimers_concat, List.append_assoc]
    rcases moved with ⟨same, count⟩ | ⟨none_closed, none_open, fresh, count⟩
    · rw [same, count]
      exact lifecycle.created
    · intro entry member
      rw [none_closed, fresh, Option.toList_none, List.map_nil, List.nil_append] at member
      rw [count]
      rcases List.mem_append.mp member with earlier | last
      · obtain ⟨timer, same, old⟩ := lifecycle.created entry (List.mem_append_left _ earlier)
        exact ⟨timer, same, Nat.lt_succ_of_lt old⟩
      · exact ⟨_, List.mem_singleton.mp last, Nat.lt_succ_self _⟩

/-- In every run of calls whose timers start, in any order, a window is open exactly while
its own timer is the one outstanding, every timer closes the window it was created for,
which has people in it, and no window is closed twice. -/
theorem timer_lifecycle (config : OrchestratorConfig) (events : List TimedEvent)
    (starts : ∀ event ∈ events, event.Starts) :
    TimerLifecycle ((timedCoordinator config).run .new events)
      ((timedCoordinator config).trace .new events) := by
  have along := (timedCoordinator config).run_history
    (fun events self trace => (∀ event ∈ events, event.Starts) → TimerLifecycle self trace)
    (fun _ => timerLifecycle_new)
    fun events event ih all => by
      have earlier := ih fun other member => all other (List.mem_append_left _ member)
      have last := all event (List.mem_append_right _ (List.mem_singleton_self event))
      exact earlier.step (last.startsIn _) (timedCoordinator_step config _ event)
  exact along events starts

/-- The lifecycle of two windows, the second opened before a late prune and closed without
chores. -/
theorem timer_lifecycle_twice :
    let config : OrchestratorConfig := ⟨2, 5, 60⟩
    let amy : PersonAvailability := { personId := "amy" }
    let bob : PersonAvailability := { personId := "bob" }
    let events : List TimedEvent := [.chores {} 1, .person amy 2 true, .fire 0 9,
      .person bob 10 true, .complete amy true 11, .prune 12, .fire 0 40]
    TimerLifecycle ((timedCoordinator config).run .new events)
      ((timedCoordinator config).trace .new events) :=
  timer_lifecycle _ _ (by simp [TimedEvent.Starts])

end BossWorker.Python
