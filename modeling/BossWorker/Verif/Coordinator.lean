import BossWorker.Rust.Coordinator

/-!
# What one call of the Rust coordinator can do

A flush waits, drops the window or accepts it, and `Flushed` lists the three cases with the
state each leaves behind; every later invariant is a case analysis over them. A window is
well formed when entries stand under their own person id and carry distinct sequence
numbers. Both survive every call, so a selection never depends on hash map order.
-/

namespace BossWorker.Rust

/-- What every call keeps true of an open window. -/
structure PersonWindow.WellFormed (window : PersonWindow) : Prop where
  /-- An entry stands under the id of its own message. -/
  keyed : ∀ entry ∈ window.pendingPeople.entries, entry.2.message.personId = entry.1
  /-- No entry is numbered past the window's counter. -/
  numbered : ∀ entry ∈ window.pendingPeople.entries,
    entry.2.sequenceNumber ≤ window.sequenceNumber
  /-- No two entries share a sequence number. -/
  distinct : ∀ left ∈ window.pendingPeople.entries, ∀ right ∈ window.pendingPeople.entries,
    left.2.sequenceNumber = right.2.sequenceNumber → left = right

namespace PersonWindow.WellFormed

variable {window : PersonWindow}

/-- The ids of the pending messages are the keys of the window. -/
theorem map_personId_values (formed : window.WellFormed) :
    window.pendingPeople.values.map (fun pending => pending.message.personId) =
      window.pendingPeople.keys :=
  Dict.map_values_of_keyed _ formed.keyed

/-- Sequence numbers are stamps up to the window's counter. -/
theorem stamped (formed : window.WellFormed) :
    window.pendingPeople.Stamped PendingPerson.sequenceNumber window.sequenceNumber :=
  ⟨formed.numbered, formed.distinct⟩

/-- The pending entry of a person is the one under the person's id. -/
theorem mem_values_iff (formed : window.WellFormed) (pending : PendingPerson) :
    pending ∈ window.pendingPeople.values ↔
      window.pendingPeople.get? pending.message.personId = some pending := by
  rw [Dict.mem_values_iff, Dict.get?_eq_some_iff]
  constructor
  · rintro ⟨key, member⟩
    rwa [formed.keyed _ member]
  · exact fun member => ⟨_, member⟩

/-- Pending entries with one sequence number are one entry. -/
theorem values_distinct (formed : window.WellFormed) {left right : PendingPerson}
    (inside : left ∈ window.pendingPeople.values) (other : right ∈ window.pendingPeople.values)
    (same : left.sequenceNumber = right.sequenceNumber) : left = right :=
  formed.stamped.eq_of_stamp_eq left inside right other same

end PersonWindow.WellFormed

namespace BatchCoordinator

/-- The open window, if any, is well formed and has a pending person. -/
def WellFormed (self : BatchCoordinator) : Prop :=
  ∀ window, self.currentWindow = some window →
    window.WellFormed ∧ window.pendingPeople.values ≠ []

/-- There is no window to be malformed when none is open. -/
theorem wellFormed_of_closed {self : BatchCoordinator} (closed : self.currentWindow = none) :
    self.WellFormed := by
  intro window opened
  rw [closed] at opened
  contradiction

/-- There is no window to be malformed at the start. -/
theorem new_wellFormed : new.WellFormed := wellFormed_of_closed rfl

/-- The window a person joins is well formed, whether it was open or is new. -/
theorem openWindow_wellFormed {self : BatchCoordinator} (formed : self.WellFormed)
    (now : Instant) : (self.openWindow now).WellFormed := by
  unfold openWindow
  split
  · rename_i window opened
    exact (formed window opened).1
  · exact ⟨by simp [Dict.empty], by simp [Dict.empty], by simp [Dict.empty]⟩

/-- A received person joins under its own id with the next sequence number. -/
theorem receivePerson_wellFormed {self : BatchCoordinator} (formed : self.WellFormed)
    (person : PersonAvailability) (now : Instant) :
    (self.receivePerson person now).WellFormed := by
  intro window opened
  have old := openWindow_wellFormed formed now
  simp only [receivePerson, Option.some.injEq] at opened
  subst opened
  let pending : PendingPerson := ⟨person, (self.openWindow now).sequenceNumber + 1⟩
  have next : pending.sequenceNumber = (self.openWindow now).sequenceNumber + 1 := rfl
  have stamped := old.stamped.insert person.personId next
  have keyed := Dict.keyed_insert (fun pending => pending.message.personId) old.keyed pending
  exact ⟨⟨keyed, stamped.bounded, stamped.distinct⟩, Dict.values_insert_ne_nil _ _ _⟩

/-- The people a flush of the window selects, in the order of their ranks. -/
def selection (config : OrchestratorConfig) (self : BatchCoordinator) (window : PersonWindow)
    (order : Enumeration PendingPerson) : List PendingPerson :=
  self.choosePeopleToRun (order.arrange window.pendingPeople.values) config.maxPeoplePerWindow

section Selection

variable (config : OrchestratorConfig) (self : BatchCoordinator) {window : PersonWindow}
  (order : Enumeration PendingPerson)

/-- Only pending people are selected. -/
theorem mem_values_of_mem_selection {config : OrchestratorConfig} {self : BatchCoordinator}
    {order : Enumeration PendingPerson} {pending : PendingPerson}
    (chosen : pending ∈ self.selection config window order) :
    pending ∈ window.pendingPeople.values :=
  (order.complete _).mem_iff.mp (mem_of_mem_take_sortByKey chosen)

/-- A selection fills the capacity or takes everyone. -/
theorem length_selection (window : PersonWindow) : (self.selection config window order).length =
    min config.maxPeoplePerWindow window.pendingPeople.keys.length := by
  simp only [selection, choosePeopleToRun, length_take_sortByKey,
    (order.complete _).length_eq, Dict.length_values]

/-- No person is selected twice. -/
theorem selection_nodup (formed : window.WellFormed) :
    ((self.selection config window order).map fun pending =>
      pending.message.personId).Nodup := by
  apply nodup_map_take_sortByKey
  have same := (order.complete window.pendingPeople.values).map fun pending =>
    pending.message.personId
  rw [same.nodup_iff, formed.map_personId_values]
  exact window.pendingPeople.keys_nodup

end Selection

/-- Recording a selection counts its people and writes the time of the flush under their
ids. -/
theorem foldl_recordSelection (now : Instant) (people : List PendingPerson)
    (self : BatchCoordinator) :
    people.foldl (recordSelection now) self =
      { self with
        activeFilterCount := self.activeFilterCount + people.length
        personLastSelected := self.personLastSelected.insertAll
          (people.map fun pending => pending.message.personId) now } := by
  induction people generalizing self with
  | nil => rfl
  | cons pending people ih =>
    have count : self.activeFilterCount + 1 + people.length =
        self.activeFilterCount + (pending :: people).length := by
      rw [List.length_cons]
      omega
    rw [List.foldl_cons, ih, ← count]
    rfl

section Prune

variable (config : OrchestratorConfig) (self : BatchCoordinator) (now : Instant)

/-- Pruning keeps exactly the selections within the time to live. -/
theorem prunePersonHistory_get? (id : String) (time : Instant) :
    (self.prunePersonHistory config now).personLastSelected.get? id = some time ↔
      self.personLastSelected.get? id = some time ∧
        now - time ≤ config.ttl := by
  simp only [prunePersonHistory, stalePersonIds, Dict.get?_eraseAll_filter,
    Option.filter_eq_some_iff, gt_iff_lt, lt_durationSince_iff config.ttl_nonneg,
    Bool.not_eq_true', decide_eq_false_iff_not, not_lt]

/-- A completion forgets its person if the job failed. -/
theorem onPersonComplete_get? (completion : PersonJobCompletion) (id : String)
    (time : Instant) :
    (self.onPersonComplete completion).personLastSelected.get? id = some time ↔
      self.personLastSelected.get? id = some time ∧
        (completion.personId = id → completion.succeeded = true) :=
  self.personLastSelected.get?_ite_erase completion.succeeded completion.personId id time

end Prune

/-- A window whose gather time has passed. -/
structure Due (config : OrchestratorConfig) (coordinator : BatchCoordinator) (now : Instant)
    (window : PersonWindow) : Prop where
  /-- The window is open. -/
  opened : coordinator.currentWindow = some window
  /-- Its deadline is not in the future. -/
  expired : config.windowDuration ≤ durationSince now window.openedAt

/-- The state an accepted window leaves behind, before the history is pruned. -/
def accepted (config : OrchestratorConfig) (self : BatchCoordinator) (now : Instant)
    (window : PersonWindow) (order : Enumeration PendingPerson) : BatchCoordinator :=
  (self.selection config window order).foldl (recordSelection now)
    { self with currentWindow := none }

/-- The call an accepted window makes. -/
def submission (config : OrchestratorConfig) (self : BatchCoordinator) (chores : Chores)
    (window : PersonWindow) (order : Enumeration PendingPerson) : Submission where
  chores := chores
  people := (self.selection config window order).map PendingPerson.message

/-- An accepted window leaves no window open. -/
theorem accepted_currentWindow (config : OrchestratorConfig) (self : BatchCoordinator)
    (now : Instant) (window : PersonWindow) (order : Enumeration PendingPerson) :
    (self.accepted config now window order).currentWindow = none := by
  rw [accepted, foldl_recordSelection]

/-- An accepted window writes the time of the flush for everybody it selects. -/
theorem accepted_history (config : OrchestratorConfig) (self : BatchCoordinator)
    (now : Instant) (window : PersonWindow) (order : Enumeration PendingPerson) (id : String) :
    (self.accepted config now window order).personLastSelected.get? id =
      if id ∈ (self.selection config window order).map fun pending => pending.message.personId
      then some now else self.personLastSelected.get? id := by
  rw [accepted, foldl_recordSelection]
  exact Dict.get?_insertAll _ _ _ _

/-- There is no window to be malformed once one is accepted. -/
theorem accepted_wellFormed (config : OrchestratorConfig) (self : BatchCoordinator)
    (now : Instant) (window : PersonWindow) (order : Enumeration PendingPerson) :
    ((self.accepted config now window order).prunePersonHistory config now).WellFormed :=
  wellFormed_of_closed (self.accepted_currentWindow config now window order)

/-- The ids a call submits are those of the selection. -/
theorem submission_personIds (config : OrchestratorConfig) (self : BatchCoordinator)
    (chores : Chores) (window : PersonWindow) (order : Enumeration PendingPerson) :
    (self.submission config chores window order).personIds =
      (self.selection config window order).map fun pending => pending.message.personId := by
  simp only [Submission.personIds, submission, List.map_map]
  rfl

/-- The three things the flush of a tick can do. -/
inductive Flushed (config : OrchestratorConfig) (self : BatchCoordinator) (now : Instant)
    (order : Enumeration PendingPerson) : BatchCoordinator × Option Submission → Prop where
  /-- No window is due. -/
  | waiting (idle : ∀ window, ¬ Due config self now window) :
    Flushed config self now order (self, none)
  /-- A due window is closed without a call. -/
  | dropped (window : PersonWindow) (due : Due config self now window)
    (refused : self.latestChores = none ∨ window.pendingPeople.values = [] ∨
      0 < self.activeFilterCount) :
    Flushed config self now order ({ self with currentWindow := none }, none)
  /-- A due window is submitted. -/
  | accepted (window : PersonWindow) (chores : Chores) (due : Due config self now window)
    (latest : self.latestChores = some chores) (pending : window.pendingPeople.values ≠ [])
    (idle : self.activeFilterCount = 0) :
    Flushed config self now order
      (self.accepted config now window order,
        some (self.submission config chores window order))

/-- A flush refuses a window without chores or people and a window behind a busy batch. -/
theorem flushCurrentWindow_refused {self : BatchCoordinator} {window : PersonWindow}
    (config : OrchestratorConfig) (now : Instant) (order : Enumeration PendingPerson)
    (opened : self.currentWindow = some window)
    (refused : self.latestChores = none ∨ window.pendingPeople.values = [] ∨
      0 < self.activeFilterCount) :
    self.flushCurrentWindow config now order = ({ self with currentWindow := none }, none) := by
  simp only [flushCurrentWindow, opened]
  cases latest : self.latestChores with
  | none => rfl
  | some chores =>
    rw [latest] at refused
    rcases refused with absent | vacant | busy
    · contradiction
    · simp [vacant]
    · simp [busy]

/-- A flush accepts a window with chores and people when no batch is active. -/
theorem flushCurrentWindow_accepted {self : BatchCoordinator} {window : PersonWindow}
    {chores : Chores} (config : OrchestratorConfig) (now : Instant)
    (order : Enumeration PendingPerson) (opened : self.currentWindow = some window)
    (latest : self.latestChores = some chores) (pending : window.pendingPeople.values ≠ [])
    (idle : self.activeFilterCount = 0) :
    self.flushCurrentWindow config now order =
      (self.accepted config now window order,
        some (self.submission config chores window order)) := by
  have full : window.pendingPeople.values.isEmpty = false := by simp [pending]
  simp only [flushCurrentWindow, opened, latest, full, idle, gt_iff_lt, lt_irrefl,
    Bool.false_eq_true, if_false]
  simp only [BatchCoordinator.accepted, submission, selection, choosePeopleToRun, latest, idle]
  rfl

/-- Every tick does one of the three, and then prunes. -/
theorem flushWindowIfExpired_flushed (config : OrchestratorConfig) (self : BatchCoordinator)
    (now : Instant) (order : Enumeration PendingPerson) :
    Flushed config self now order (self.flushWindowIfExpired config now order) := by
  unfold flushWindowIfExpired
  cases opened : self.currentWindow with
  | none => exact .waiting fun window due => by simp [due.opened] at opened
  | some window =>
    by_cases early : durationSince now window.openedAt < config.windowDuration
    · simp only [early, if_true]
      refine .waiting fun other due => ?_
      have same : other = window := Option.some.inj (due.opened.symm.trans opened)
      exact absurd due.expired (not_le.mpr (same ▸ early))
    · have due : Due config self now window := ⟨opened, not_lt.mp early⟩
      simp only [early, if_false]
      by_cases refused : self.latestChores = none ∨ window.pendingPeople.values = [] ∨
          0 < self.activeFilterCount
      · rw [flushCurrentWindow_refused config now order opened refused]
        exact .dropped window due refused
      · rw [not_or, not_or, not_lt, Nat.le_zero] at refused
        obtain ⟨chores, latest⟩ := Option.ne_none_iff_exists'.mp refused.1
        rw [flushCurrentWindow_accepted config now order opened latest refused.2.1 refused.2.2]
        exact .accepted window chores due latest refused.2.1 refused.2.2

/-- Every call keeps the open window well formed. -/
theorem step_wellFormed (config : OrchestratorConfig) {self : BatchCoordinator}
    (formed : self.WellFormed) (event : Event) :
    ((coordinator config).step self event).1.WellFormed := by
  cases event with
  | chores chores now => exact formed
  | person person now => exact receivePerson_wellFormed formed person now
  | complete completion => exact formed
  | tick now order =>
    have outcome := self.flushWindowIfExpired_flushed config now order
    change ((self.flushWindowIfExpired config now order).1.prunePersonHistory config now).WellFormed
    generalize self.flushWindowIfExpired config now order = flushed at outcome
    cases outcome with
    | waiting idle => exact formed
    | dropped window due refused => exact wellFormed_of_closed rfl
    | accepted window chores due latest pending idle =>
      exact accepted_wellFormed config self now window order

end BatchCoordinator

/-- Every reachable state is well formed. -/
theorem run_wellFormed (config : OrchestratorConfig) (events : List Event) :
    ((coordinator config).run .new events).WellFormed := by
  have preserved (self : BatchCoordinator) (event : Event) (formed : self.WellFormed) :
      ((coordinator config).step self event).1.WellFormed :=
    BatchCoordinator.step_wellFormed config formed event
  exact (coordinator config).run_invariant preserved BatchCoordinator.new_wellFormed events

end BossWorker.Rust
