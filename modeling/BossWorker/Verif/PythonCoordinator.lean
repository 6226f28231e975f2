import BossWorker.Python.Coordinator

/-!
# What one call of the Python coordinator can do

A flush finds no window, drops it or accepts it, and `Flushed` lists the three cases with
the state each leaves behind. What holds of new windows and survives a person joining holds
of every window reached: entries stand under their own person id whatever the calls and the
timers do, so a selection names nobody twice, and carry distinct sequence numbers.
-/

namespace BossWorker.Python

/-- A slice up to a stop that is not negative takes that many. -/
theorem sliceTo_of_nonneg {α : Type} (items : List α) {stop : ℤ} (nonnegative : 0 ≤ stop) :
    sliceTo items stop = items.take stop.toNat := by
  rw [sliceTo, if_neg (not_lt.mpr nonnegative)]

/-- Every entry of a window stands under the id of its own message. -/
def PersonWindow.Keyed (window : PersonWindow) : Prop :=
  ∀ entry ∈ window.pendingPeople.entries, entry.2.message.personId = entry.1

/-- The ids of the pending messages are the keys of the window. -/
theorem PersonWindow.Keyed.map_personId_values {window : PersonWindow} (keyed : window.Keyed) :
    window.pendingPeople.values.map (fun pending => pending.message.personId) =
      window.pendingPeople.keys :=
  Dict.map_values_of_keyed _ keyed

/-- The entries of a window carry distinct sequence numbers up to its counter. -/
def PersonWindow.Numbered (window : PersonWindow) : Prop :=
  window.pendingPeople.Stamped PendingPerson.sequenceNumber window.sequenceNumber

/-- The window after a person has joined it. -/
def PersonWindow.joined (window : PersonWindow) (person : PersonAvailability)
    (now : Monotonic) : PersonWindow :=
  { window with
    sequenceNumber := window.sequenceNumber + 1
    pendingPeople := window.pendingPeople.insert person.personId
      { message := person, receivedMonotonic := now,
        sequenceNumber := window.sequenceNumber + 1 } }

/-- A person who joins a keyed window leaves it keyed. -/
theorem PersonWindow.Keyed.joined {window : PersonWindow} (keyed : window.Keyed)
    (person : PersonAvailability) (now : Monotonic) : (window.joined person now).Keyed :=
  Dict.keyed_insert (fun pending : PendingPerson => pending.message.personId) keyed
    ⟨person, now, window.sequenceNumber + 1⟩

/-- A person who joins a window takes its next number. -/
theorem PersonWindow.Numbered.joined {window : PersonWindow} (numbered : window.Numbered)
    (person : PersonAvailability) (now : Monotonic) : (window.joined person now).Numbered :=
  Dict.Stamped.insert numbered person.personId rfl

namespace BatchCoordinator

/-- The open window, if any, is keyed. -/
def Keyed (self : BatchCoordinator) : Prop :=
  ∀ window, self.currentWindow = some window → window.Keyed

/-- The open window, if any, is numbered. -/
def Numbered (self : BatchCoordinator) : Prop :=
  ∀ window, self.currentWindow = some window → window.Numbered

/-- The key ranks by the level of the last selection, with zero for none. -/
theorem rank_eq (self : BatchCoordinator) (pending : PendingPerson) :
    self.rank pending =
      toLex ((self.personLastSelected.level pending.message.personId).unbotD 0,
        pending.sequenceNumber) := by
  unfold rank Dict.level
  cases self.personLastSelected.get? pending.message.personId <;> rfl

/-- The people a flush of the window selects, in the order of their ranks. -/
def selection (config : OrchestratorConfig) (self : BatchCoordinator)
    (window : PersonWindow) : List PendingPerson :=
  self.choosePeopleToRunLocked window.pendingPeople.values config.maxActiveFilters

/-- The state an accepted window leaves behind. -/
def accepted (config : OrchestratorConfig) (self : BatchCoordinator) (now : Monotonic)
    (window : PersonWindow) : BatchCoordinator :=
  (self.selection config window).foldl (recordSelection now)
    { self with currentWindow := none }

/-- The call an accepted window makes. -/
def submission (config : OrchestratorConfig) (self : BatchCoordinator) (chores : Chores)
    (window : PersonWindow) : Submission where
  chores := chores
  people := (self.selection config window).map PendingPerson.message

/-- The ids a call submits are those of the selection. -/
theorem submission_personIds (config : OrchestratorConfig) (self : BatchCoordinator)
    (chores : Chores) (window : PersonWindow) :
    (self.submission config chores window).personIds =
      (self.selection config window).map fun pending => pending.message.personId := by
  simp only [Submission.personIds, submission, List.map_map]
  rfl

/-- Recording a selection counts its people and writes the time of the flush under their
ids. -/
theorem foldl_recordSelection (now : Monotonic) (people : List PendingPerson)
    (self : BatchCoordinator) :
    people.foldl (recordSelection now) self =
      { self with
        activeFilterCount := self.activeFilterCount + people.length
        personLastSelected := self.personLastSelected.insertAll
          (people.map fun pending => pending.message.personId) now } := by
  induction people generalizing self with
  | nil => simp [Dict.insertAll]
  | cons pending people ih =>
    have count : self.activeFilterCount + 1 + (people.length : ℤ) =
        self.activeFilterCount + ((pending :: people).length : ℤ) := by
      rw [List.length_cons]
      omega
    rw [List.foldl_cons, ih, ← count]
    rfl

/-- Pruning keeps exactly the selections within the time to live. -/
theorem prunePersonHistoryLocked_get? (config : OrchestratorConfig) (self : BatchCoordinator)
    (now : Monotonic) (id : String) (time : Monotonic) :
    (self.prunePersonHistoryLocked config now).personLastSelected.get? id = some time ↔
      self.personLastSelected.get? id = some time ∧
        now - time ≤ config.personLastSuccessTtlSeconds := by
  simp only [prunePersonHistoryLocked, stalePersonIds, Dict.get?_eraseAll_filter,
    Option.filter_eq_some_iff, gt_iff_lt, Bool.not_eq_true', decide_eq_false_iff_not, not_lt]

/-- A completion forgets its person if the job failed, and prunes. -/
theorem onPersonComplete_get? (config : OrchestratorConfig) (self : BatchCoordinator)
    (person : PersonAvailability) (succeeded : Bool) (now : Monotonic) (id : String)
    (time : Monotonic) :
    (self.onPersonComplete config person succeeded now).personLastSelected.get? id = some time ↔
      self.personLastSelected.get? id = some time ∧
        (person.personId = id → succeeded = true) ∧
          now - time ≤ config.personLastSuccessTtlSeconds := by
  simp only [onPersonComplete]
  rw [prunePersonHistoryLocked_get?, ← and_assoc]
  exact and_congr_left' (self.personLastSelected.get?_ite_erase succeeded person.personId id time)

/-- The three things a flush can do. -/
inductive Flushed (config : OrchestratorConfig) (self : BatchCoordinator) (now : Monotonic) :
    BatchCoordinator × Option Submission → Prop where
  /-- No window is open. -/
  | absent (closed : self.currentWindow = none) : Flushed config self now (self, none)
  /-- The window is closed without a call. -/
  | dropped (window : PersonWindow) (opened : self.currentWindow = some window)
    (refused : self.latestChores = none ∨ window.pendingPeople.values = [] ∨
      0 < self.activeFilterCount) :
    Flushed config self now ({ self with currentWindow := none }, none)
  /-- The window is submitted. -/
  | accepted (window : PersonWindow) (chores : Chores)
    (opened : self.currentWindow = some window) (latest : self.latestChores = some chores)
    (pending : window.pendingPeople.values ≠ []) (idle : self.activeFilterCount ≤ 0) :
    Flushed config self now
      (self.accepted config now window, some (self.submission config chores window))

/-- A flush refuses a window without chores or people and a window behind a busy batch. -/
theorem flushCurrentWindow_refused {self : BatchCoordinator} {window : PersonWindow}
    (config : OrchestratorConfig) (now : Monotonic)
    (opened : self.currentWindow = some window)
    (refused : self.latestChores = none ∨ window.pendingPeople.values = [] ∨
      0 < self.activeFilterCount) :
    self.flushCurrentWindow config now = ({ self with currentWindow := none }, none) := by
  simp only [flushCurrentWindow, opened]
  cases latest : self.latestChores with
  | none => rfl
  | some chores =>
    rw [latest] at refused
    rcases refused with absent | vacant | busy
    · contradiction
    · simp [vacant]
    · simp [busy]

/-- A flush accepts a window with chores and people when no batch is active. -/
theorem flushCurrentWindow_accepted {self : BatchCoordinator} {window : PersonWindow}
    {chores : Chores} (config : OrchestratorConfig) (now : Monotonic)
    (opened : self.currentWindow = some window) (latest : self.latestChores = some chores)
    (pending : window.pendingPeople.values ≠ []) (idle : self.activeFilterCount ≤ 0) :
    self.flushCurrentWindow config now =
      (self.accepted config now window, some (self.submission config chores window)) := by
  have full : window.pendingPeople.values.isEmpty = false := by simp [pending]
  simp only [flushCurrentWindow, opened, latest, full, gt_iff_lt, not_lt.mpr idle,
    Bool.false_eq_true, if_false]
  simp only [BatchCoordinator.accepted, submission, selection, choosePeopleToRunLocked, latest]
  rfl

/-- Every flush does one of the three. -/
theorem flushCurrentWindow_flushed (config : OrchestratorConfig) (self : BatchCoordinator)
    (now : Monotonic) : Flushed config self now (self.flushCurrentWindow config now) := by
  cases opened : self.currentWindow with
  | none =>
    rw [flushCurrentWindow, opened]
    exact .absent opened
  | some window =>
    by_cases refused : self.latestChores = none ∨ window.pendingPeople.values = [] ∨
        0 < self.activeFilterCount
    · rw [flushCurrentWindow_refused config now opened refused]
      exact .dropped window opened refused
    · rw [not_or, not_or, not_lt] at refused
      obtain ⟨chores, latest⟩ := Option.ne_none_iff_exists'.mp refused.1
      rw [flushCurrentWindow_accepted config now opened latest refused.2.1 refused.2.2]
      exact .accepted window chores opened latest refused.2.1 refused.2.2

/-- A flush leaves no window open. -/
theorem flushCurrentWindow_currentWindow (config : OrchestratorConfig)
    (self : BatchCoordinator) (now : Monotonic) :
    (self.flushCurrentWindow config now).1.currentWindow = none := by
  have outcome := self.flushCurrentWindow_flushed config now
  generalize self.flushCurrentWindow config now = result at outcome
  cases outcome with
  | absent closed => exact closed
  | dropped window opened refused => rfl
  | accepted window chores opened latest pending idle =>
    rw [BatchCoordinator.accepted, foldl_recordSelection]

/-- With chores and people, a window is accepted. -/
def AcceptsWindows (config : OrchestratorConfig) (self : BatchCoordinator) : Prop :=
  ∀ window chores now, self.currentWindow = some window → self.latestChores = some chores →
    window.pendingPeople.values ≠ [] → (self.flushCurrentWindow config now).2.isSome

/-- A coordinator without active people accepts windows. -/
theorem acceptsWindows_of_idle (config : OrchestratorConfig) {self : BatchCoordinator}
    (idle : self.activeFilterCount = 0) : self.AcceptsWindows config := by
  intro window chores now opened latest pending
  rw [self.flushCurrentWindow_accepted config now opened latest pending idle.le]
  rfl

/-- A received person does not change the active count. -/
theorem receivePerson_activeFilterCount (self : BatchCoordinator) (config : OrchestratorConfig)
    (person : PersonAvailability) (now : Monotonic) (ident : Nat) (started : Bool) :
    (self.receivePerson config person now ident started).1.activeFilterCount =
      self.activeFilterCount := by
  unfold receivePerson
  split
  · rfl
  · split <;> rfl

/-- A completion lowers an active count that is not zero by one. -/
theorem onPersonComplete_activeFilterCount (self : BatchCoordinator)
    (config : OrchestratorConfig) (person : PersonAvailability) (succeeded : Bool)
    (now : Monotonic) (active : 0 < self.activeFilterCount) :
    (self.onPersonComplete config person succeeded now).activeFilterCount =
      self.activeFilterCount - 1 := by
  change (if self.activeFilterCount - 1 < 0 then 0 else self.activeFilterCount - 1) = _
  have enough : ¬ self.activeFilterCount - 1 < 0 := by omega
  rw [if_neg enough]

/-- An accepted window adds the people it submits to the active count. -/
theorem accepted_activeFilterCount (config : OrchestratorConfig) (self : BatchCoordinator)
    (now : Monotonic) (window : PersonWindow) (chores : Chores) :
    (self.accepted config now window).activeFilterCount =
      self.activeFilterCount + (self.submission config chores window).people.length := by
  rw [BatchCoordinator.accepted, foldl_recordSelection, submission, List.length_map]

/-- An accepted window writes the time of the flush for everybody it selects. -/
theorem accepted_history (config : OrchestratorConfig) (self : BatchCoordinator)
    (now : Monotonic) (window : PersonWindow) (id : String) :
    (self.accepted config now window).personLastSelected.get? id =
      if id ∈ (self.selection config window).map fun pending => pending.message.personId
      then some now else self.personLastSelected.get? id := by
  rw [BatchCoordinator.accepted, foldl_recordSelection]
  exact Dict.get?_insertAll _ _ _ _

/-- An accepted window records the time of the flush for everybody it submits. -/
theorem accepted_get? (config : OrchestratorConfig) (self : BatchCoordinator)
    (now : Monotonic) (window : PersonWindow) (chores : Chores) {person : PersonAvailability}
    (submitted : person ∈ (self.submission config chores window).people) :
    (self.accepted config now window).personLastSelected.get? person.personId = some now := by
  have chosen : person.personId ∈
      (self.selection config window).map fun pending => pending.message.personId := by
    rw [← submission_personIds config self chores]
    exact List.mem_map_of_mem submitted
  rw [accepted_history, if_pos chosen]

section Windows

variable {config : OrchestratorConfig} {holds : PersonWindow → Prop}

/-- A received person joins the open window or a new one; a new one whose timer does not
start is left without the person. -/
theorem receivePerson_window {self : BatchCoordinator}
    (fresh : ∀ now ident, holds (openWindow config now ident))
    (joins : ∀ window person now, holds window → holds (window.joined person now))
    (before : ∀ window, self.currentWindow = some window → holds window)
    (person : PersonAvailability) (now : Monotonic) (ident : Nat) (started : Bool) :
    ∀ window, (self.receivePerson config person now ident started).1.currentWindow =
      some window → holds window := by
  intro window after
  unfold receivePerson at after
  split at after
  · rename_i old opened
    have same : old.joined person now = window := Option.some.inj after
    exact same ▸ joins old person now (before old opened)
  · cases started with
    | true =>
      have same : (openWindow config now ident).joined person now = window :=
        Option.some.inj after
      exact same ▸ joins _ person now (fresh now ident)
    | false =>
      have same : openWindow config now ident = window := Option.some.inj after
      exact same ▸ fresh now ident

/-- What holds of new windows and survives joining holds of the open window after a call. -/
theorem step_window {self : BatchCoordinator}
    (fresh : ∀ now ident, holds (openWindow config now ident))
    (joins : ∀ window person now, holds window → holds (window.joined person now))
    (before : ∀ window, self.currentWindow = some window → holds window) (event : Event) :
    ∀ window, ((coordinator config).step self event).1.currentWindow = some window →
      holds window := by
  cases event with
  | chores chores now => exact before
  | person person now ident started =>
    exact receivePerson_window fresh joins before person now ident started
  | complete person succeeded now => exact before
  | prune now => exact before
  | flush now =>
    intro window after
    have closed := self.flushCurrentWindow_currentWindow config now
    exact absurd (after.symm.trans closed) (Option.some_ne_none window)

end Windows

/-- Every call keeps the open window keyed. -/
theorem step_keyed (config : OrchestratorConfig) {self : BatchCoordinator}
    (keyed : self.Keyed) (event : Event) :
    ((coordinator config).step self event).1.Keyed := by
  apply step_window _ _ keyed event
  · intro now ident entry member
    exact absurd member List.not_mem_nil
  · exact fun window person now before => before.joined person now

end BatchCoordinator

/-- Every reachable state is keyed. -/
theorem run_keyed (config : OrchestratorConfig) (events : List Event) :
    ((coordinator config).run .new events).Keyed := by
  have preserved (self : BatchCoordinator) (event : Event) (keyed : self.Keyed) :
      ((coordinator config).step self event).1.Keyed :=
    BatchCoordinator.step_keyed config keyed event
  have initial : BatchCoordinator.new.Keyed :=
    fun window absent => absurd absent.symm (Option.some_ne_none window)
  exact (coordinator config).run_invariant preserved initial events

/-- Every reachable state is numbered. -/
theorem run_numbered (config : OrchestratorConfig) (events : List Event) :
    ((coordinator config).run .new events).Numbered := by
  have preserved (self : BatchCoordinator) (event : Event) (numbered : self.Numbered) :
      ((coordinator config).step self event).1.Numbered := by
    apply BatchCoordinator.step_window _ _ numbered event
    · exact fun now ident => Dict.stamped_empty
    · exact fun window person now before => before.joined person now
  have initial : BatchCoordinator.new.Numbered :=
    fun window absent => absurd absent.symm (Option.some_ne_none window)
  exact (coordinator config).run_invariant preserved initial events

end BossWorker.Python
