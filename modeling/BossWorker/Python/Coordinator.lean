import BossWorker.Base.Machine
import BossWorker.Base.Ranking
import BossWorker.Proto.Messages
import Mathlib.Algebra.Order.Ring.Rat

/-!
# The Python batch coordinator

`coordination/coordinator.py`, method by method. Floats that hold clock readings and
durations are exact rationals, an `int` is an integer, and a `dict` keeps its entries in
insertion order. The lock makes every method one atomic step, so it is left out. A timer
is an object with an identity; that the operating system may refuse to start its thread is
an argument of `receivePerson`. Copies of messages made with `CopyFrom` are the messages.
Log lines, and values computed for them alone, are left out.
-/

namespace BossWorker.Python

/-- A reading of `time.monotonic`, in seconds. -/
abbrev Monotonic : Type := ℚ

/-- `OrchestratorConfig`. -/
structure OrchestratorConfig where
  numThreads : ℤ
  personGatherWindowSeconds : ℚ
  personLastSuccessTtlSeconds : ℚ

/-- `max_active_filters`. -/
def OrchestratorConfig.maxActiveFilters (config : OrchestratorConfig) : ℤ := config.numThreads

/-- A `threading.Timer` that calls `_flush_current_window`. -/
structure Timer where
  /-- Which timer object it is. -/
  ident : Nat
  /-- Seconds until it runs. -/
  interval : ℚ
  deriving DecidableEq

/-- `PendingPerson`. -/
structure PendingPerson where
  message : PersonAvailability
  receivedMonotonic : Monotonic
  sequenceNumber : Nat
  deriving DecidableEq

/-- `PersonWindow`. -/
structure PersonWindow where
  receivedMonotonic : Monotonic
  pendingPeople : Dict String PendingPerson
  timer : Option Timer
  sequenceNumber : Nat := 0
  deriving DecidableEq

/-- `BatchCoordinator`, without its executor, configuration and lock. -/
structure BatchCoordinator where
  latestChores : Option Chores
  latestChoresReceivedMonotonic : Option Monotonic
  currentWindow : Option PersonWindow
  activeFilterCount : ℤ
  personLastSelected : Dict String Monotonic
  deriving DecidableEq

/-- How a call returns to its caller. -/
inductive Outcome where
  /-- Normally. -/
  | returned
  /-- With the exception of a thread that cannot be started. -/
  | raised
  deriving DecidableEq

/-- The slice `items[:stop]`; a negative stop counts from the end. -/
def sliceTo {α : Type} (items : List α) (stop : ℤ) : List α :=
  if stop < 0 then items.take (items.length + stop).toNat else items.take stop.toNat

namespace BatchCoordinator

/-- `__init__`. -/
def new : BatchCoordinator where
  latestChores := none
  latestChoresReceivedMonotonic := none
  currentWindow := none
  activeFilterCount := 0
  personLastSelected := Dict.empty

/-- `receive_chores`, which reads the clock once. -/
def receiveChores (self : BatchCoordinator) (chores : Chores) (now : Monotonic) :
    BatchCoordinator :=
  { self with latestChores := some chores, latestChoresReceivedMonotonic := some now }

/-- The second half of `receive_person`: the person joins the window. -/
def joinWindow (self : BatchCoordinator) (window : PersonWindow)
    (person : PersonAvailability) (now : Monotonic) : BatchCoordinator :=
  let sequenceNumber := window.sequenceNumber + 1
  { self with
    currentWindow := some { window with
      sequenceNumber := sequenceNumber
      pendingPeople := window.pendingPeople.insert person.personId
        { message := person, receivedMonotonic := now, sequenceNumber := sequenceNumber } } }

variable (config : OrchestratorConfig)

/-- The window that `receive_person` opens, with a timer of the given identity. -/
def openWindow (now : Monotonic) (ident : Nat) : PersonWindow where
  receivedMonotonic := now
  pendingPeople := Dict.empty
  timer := some { ident := ident, interval := config.personGatherWindowSeconds }

/-- `receive_person`, which reads the clock once. A new window gets a timer; `started` tells
whether `timer.start` succeeds. -/
def receivePerson (self : BatchCoordinator) (person : PersonAvailability) (now : Monotonic)
    (ident : Nat) (started : Bool) : BatchCoordinator × Outcome :=
  match self.currentWindow with
  | some window => (self.joinWindow window person now, .returned)
  | none =>
    let window := openWindow config now ident
    -- the window is published before its timer is started
    let self := { self with currentWindow := some window }
    if started then (self.joinWindow window person now, .returned) else (self, .raised)

/-- The sort key of `_choose_people_to_run_locked`: a person never selected counts as
selected at time zero. -/
def rank (self : BatchCoordinator) (pending : PendingPerson) : Monotonic ×ₗ Nat :=
  toLex ((self.personLastSelected.get? pending.message.personId).getD 0,
    pending.sequenceNumber)

/-- `_choose_people_to_run_locked`. -/
def choosePeopleToRunLocked (self : BatchCoordinator) (people : List PendingPerson)
    (maxPeople : ℤ) : List PendingPerson :=
  sliceTo (sortByKey self.rank people) maxPeople

/-- The loop body of `_flush_current_window` that counts a selected person and records the
time of the selection. -/
def recordSelection (now : Monotonic) (self : BatchCoordinator) (pending : PendingPerson) :
    BatchCoordinator :=
  { self with
    activeFilterCount := self.activeFilterCount + 1
    personLastSelected := self.personLastSelected.insert pending.message.personId now }

/-- `_flush_current_window` and the `submit_window` call it makes, if any. The clock is read
once, after the selection. -/
def flushCurrentWindow (self : BatchCoordinator) (now : Monotonic) :
    BatchCoordinator × Option Submission :=
  match self.currentWindow with
  | none => (self, none)
  | some window =>
    let self := { self with currentWindow := none }
    match self.latestChores with
    | none => (self, none)
    | some chores =>
      if window.pendingPeople.values.isEmpty then (self, none)
      else if self.activeFilterCount > 0 then (self, none)
      else
        let peopleToRun := self.choosePeopleToRunLocked window.pendingPeople.values
          config.maxActiveFilters
        (peopleToRun.foldl (recordSelection now) self,
          some { chores := chores, people := peopleToRun.map PendingPerson.message })

/-- People whose last selection is older than the time to live. -/
def stalePersonIds (self : BatchCoordinator) (now : Monotonic) : List String :=
  (self.personLastSelected.entries.filter fun entry =>
    now - entry.2 > config.personLastSuccessTtlSeconds).map Prod.fst

/-- `_prune_person_history_locked`. -/
def prunePersonHistoryLocked (self : BatchCoordinator) (now : Monotonic) : BatchCoordinator :=
  { self with
    personLastSelected := self.personLastSelected.eraseAll (self.stalePersonIds config now) }

/-- `expire_stale_if_idle`. -/
def expireStaleIfIdle (self : BatchCoordinator) (now : Monotonic) : BatchCoordinator :=
  self.prunePersonHistoryLocked config now

/-- `_on_person_complete`, which reads the clock once. -/
def onPersonComplete (self : BatchCoordinator) (person : PersonAvailability)
    (succeeded : Bool) (now : Monotonic) : BatchCoordinator :=
  let activeFilterCount := self.activeFilterCount - 1
  let self := { self with
    activeFilterCount := if activeFilterCount < 0 then 0 else activeFilterCount
    personLastSelected :=
      if succeeded then self.personLastSelected
      else self.personLastSelected.erase person.personId }
  self.prunePersonHistoryLocked config now

end BatchCoordinator

/-- A call made on the coordinator, with the clock it reads. -/
inductive Event where
  /-- `receive_chores`. -/
  | chores (chores : Chores) (now : Monotonic)
  /-- `receive_person`; the identity and the start are those of a timer it may create. -/
  | person (person : PersonAvailability) (now : Monotonic) (ident : Nat) (started : Bool)
  /-- `_flush_current_window`, called by a timer. -/
  | flush (now : Monotonic)
  /-- `_on_person_complete`, called by an executor. -/
  | complete (person : PersonAvailability) (succeeded : Bool) (now : Monotonic)
  /-- `expire_stale_if_idle`, called by the main loop. -/
  | prune (now : Monotonic)

/-- The coordinator as a machine whose outputs are its `submit_window` calls. -/
def coordinator (config : OrchestratorConfig) :
    Machine BatchCoordinator Event (Option Submission) where
  step self
    | .chores chores now => (self.receiveChores chores now, none)
    | .person person now ident started =>
      ((self.receivePerson config person now ident started).1, none)
    | .flush now => self.flushCurrentWindow config now
    | .complete person succeeded now =>
      (self.onPersonComplete config person succeeded now, none)
    | .prune now => (self.expireStaleIfIdle config now, none)

end BossWorker.Python
