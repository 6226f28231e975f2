import BossWorker.Base.Machine
import BossWorker.Base.Ranking
import BossWorker.Base.Rounding
import BossWorker.Proto.Messages
import Mathlib.Algebra.Order.Ring.Rat

/-!
# The Rust batch coordinator

`coordination/coordinator.rs`, function by function. An `Instant` is an exact number of
seconds on the monotonic clock and subtracting a later one saturates at zero, as
`Instant::duration_since` does. The coordinator calls its executor once per accepted
window; the call is the output of the flush, so the state stays free of the executor.
The times of the configuration are `f64` seconds; every tick compares with the `Duration` that
`Duration::from_secs_f64` makes of them, a whole number of nanoseconds.
`HashMap` iteration takes an `Enumeration` from the caller. `u64` and `usize` counters
are natural numbers: they count messages received in one window and people of one batch.
Log lines, and values computed for them alone, are left out.
-/

namespace BossWorker.Rust

/-- A reading of the monotonic clock, in seconds. -/
abbrev Instant : Type := ℚ

/-- `Instant::duration_since`: zero when the other instant is later. -/
def durationSince (now earlier : Instant) : ℚ := max (now - earlier) 0

/-- Time elapsed since an instant that is not in the future. -/
theorem durationSince_of_le {now earlier : Instant} (ordered : earlier ≤ now) :
    durationSince now earlier = now - earlier :=
  max_eq_left (sub_nonneg.mpr ordered)

/-- Against a bound that is a `Duration`, saturation does not matter. -/
theorem lt_durationSince_iff {bound : ℚ} (nonnegative : 0 ≤ bound) (now earlier : Instant) :
    bound < durationSince now earlier ↔ bound < now - earlier := by
  rw [durationSince, lt_max_iff]
  exact or_iff_left nonnegative.not_gt

/-- `Duration::from_secs_f64`, in seconds: rounded to whole nanoseconds, ties to even. `none` is
its panic, on a negative number and from `2^64` seconds on; infinities and NaN, which panic
too, are not among the arguments. -/
def durationFromSecsF64 (secs : ℚ) : Option ℚ :=
  if 0 ≤ secs ∧ secs < 18446744073709551616 then
    some (roundHalfEven (secs * 1000000000) / 1000000000)
  else none

/-- A duration is not negative. -/
theorem durationFromSecsF64_nonneg {secs duration : ℚ}
    (made : durationFromSecsF64 secs = some duration) : 0 ≤ duration := by
  unfold durationFromSecsF64 at made
  split at made
  · rename_i range
    rw [← Option.some.inj made]
    have scaled : 0 ≤ secs * 1000000000 := mul_nonneg range.1 (by decide)
    have rounded : (0 : ℚ) ≤ roundHalfEven (secs * 1000000000) :=
      Int.cast_nonneg (roundHalfEven_nonneg scaled)
    exact div_nonneg rounded (by decide)
  · contradiction

/-- Whole nanoseconds are not rounded. -/
theorem durationFromSecsF64_of_whole {secs duration : ℚ} {nanoseconds : ℤ}
    (whole : secs * 1000000000 = nanoseconds) (made : durationFromSecsF64 secs = some duration) :
    duration = secs := by
  unfold durationFromSecsF64 at made
  split at made
  · rw [whole, roundHalfEven_intCast, ← whole] at made
    rw [← Option.some.inj made]
    exact mul_div_cancel_right₀ secs (by decide)
  · contradiction

/-- `OrchestratorConfig`, with times that `Duration::from_secs_f64` takes: with others the
process panics at a tick. -/
structure OrchestratorConfig where
  maxPeoplePerWindow : Nat
  personGatherWindowSeconds : ℚ
  personLastSuccessTtlSeconds : ℚ
  /-- The gather window makes a `Duration`. -/
  gather_valid : (durationFromSecsF64 personGatherWindowSeconds).isSome
  /-- The time to live makes a `Duration`. -/
  ttl_valid : (durationFromSecsF64 personLastSuccessTtlSeconds).isSome

namespace OrchestratorConfig

variable (config : OrchestratorConfig)

/-- `window_duration` of `flush_window_if_expired`. -/
def windowDuration : ℚ :=
  (durationFromSecsF64 config.personGatherWindowSeconds).get config.gather_valid

/-- `ttl` of `prune_person_history`. -/
def ttl : ℚ := (durationFromSecsF64 config.personLastSuccessTtlSeconds).get config.ttl_valid

/-- The time to live is a duration. -/
theorem ttl_nonneg : 0 ≤ config.ttl :=
  durationFromSecsF64_nonneg (Option.some_get config.ttl_valid).symm

/-- A time to live of whole nanoseconds is compared as it is. -/
theorem ttl_of_whole {nanoseconds : ℤ}
    (whole : config.personLastSuccessTtlSeconds * 1000000000 = nanoseconds) :
    config.ttl = config.personLastSuccessTtlSeconds :=
  durationFromSecsF64_of_whole whole (Option.some_get config.ttl_valid).symm

end OrchestratorConfig

/-- `PendingPerson`. -/
structure PendingPerson where
  message : PersonAvailability
  sequenceNumber : Nat
  deriving DecidableEq

/-- `PersonWindow`. -/
structure PersonWindow where
  openedAt : Instant
  pendingPeople : Dict String PendingPerson
  sequenceNumber : Nat
  deriving DecidableEq

/-- `PersonJobCompletion`. -/
structure PersonJobCompletion where
  personId : String
  succeeded : Bool
  deriving DecidableEq

/-- `BatchCoordinator`, without its executor and configuration. -/
structure BatchCoordinator where
  latestChores : Option Chores
  latestChoresReceivedAt : Option Instant
  currentWindow : Option PersonWindow
  activeFilterCount : Nat
  personLastSelected : Dict String Instant
  deriving DecidableEq

namespace BatchCoordinator

/-- `BatchCoordinator::new`. -/
def new : BatchCoordinator where
  latestChores := none
  latestChoresReceivedAt := none
  currentWindow := none
  activeFilterCount := 0
  personLastSelected := Dict.empty

/-- `receive_chores`, which reads the clock once. -/
def receiveChores (self : BatchCoordinator) (chores : Chores) (now : Instant) :
    BatchCoordinator :=
  { self with latestChores := some chores, latestChoresReceivedAt := some now }

/-- The window `receive_person` adds its message to: the current one or a new one. -/
def openWindow (self : BatchCoordinator) (now : Instant) : PersonWindow :=
  match self.currentWindow with
  | some window => window
  | none => { openedAt := now, pendingPeople := Dict.empty, sequenceNumber := 0 }

/-- `receive_person`, which reads the clock once. -/
def receivePerson (self : BatchCoordinator) (person : PersonAvailability) (now : Instant) :
    BatchCoordinator :=
  let window := self.openWindow now
  let sequenceNumber := window.sequenceNumber + 1
  { self with
    currentWindow := some { window with
      sequenceNumber := sequenceNumber
      pendingPeople := window.pendingPeople.insert person.personId
        { message := person, sequenceNumber := sequenceNumber } } }

/-- The sort key of `choose_people_to_run`: a person never selected has no last selection,
and an absent `Option` sorts before a present one. -/
def rank (self : BatchCoordinator) (pending : PendingPerson) : WithBot Instant ×ₗ Nat :=
  toLex ((self.personLastSelected.get? pending.message.personId : WithBot Instant),
    pending.sequenceNumber)

/-- `choose_people_to_run`. -/
def choosePeopleToRun (self : BatchCoordinator) (people : List PendingPerson)
    (maxPeople : Nat) : List PendingPerson :=
  (sortByKey self.rank people).take maxPeople

/-- The closure of `flush_current_window` that counts a selected person and records the
time of the selection. -/
def recordSelection (now : Instant) (self : BatchCoordinator) (pending : PendingPerson) :
    BatchCoordinator :=
  { self with
    activeFilterCount := self.activeFilterCount + 1
    personLastSelected := self.personLastSelected.insert pending.message.personId now }

variable (config : OrchestratorConfig)

/-- `flush_current_window` and the `submit_window` call it makes, if any. -/
def flushCurrentWindow (self : BatchCoordinator) (now : Instant)
    (order : Enumeration PendingPerson) : BatchCoordinator × Option Submission :=
  match self.currentWindow with
  | none => (self, none)
  | some window =>
    -- `take` empties the slot before any of the drop conditions is looked at
    let self := { self with currentWindow := none }
    match self.latestChores with
    | none => (self, none)
    | some chores =>
      if window.pendingPeople.values.isEmpty then (self, none)
      else if self.activeFilterCount > 0 then (self, none)
      else
        let peopleToRun := self.choosePeopleToRun
          (order.arrange window.pendingPeople.values) config.maxPeoplePerWindow
        (peopleToRun.foldl (recordSelection now) self,
          some { chores := chores, people := peopleToRun.map PendingPerson.message })

/-- `flush_window_if_expired`. -/
def flushWindowIfExpired (self : BatchCoordinator) (now : Instant)
    (order : Enumeration PendingPerson) : BatchCoordinator × Option Submission :=
  match self.currentWindow with
  | none => (self, none)
  | some window =>
    if durationSince now window.openedAt < config.windowDuration then (self, none)
    else self.flushCurrentWindow config now order

/-- People whose last selection is older than the time to live. -/
def stalePersonIds (self : BatchCoordinator) (now : Instant) : List String :=
  (self.personLastSelected.entries.filter fun entry =>
    durationSince now entry.2 > config.ttl).map Prod.fst

/-- `prune_person_history`. -/
def prunePersonHistory (self : BatchCoordinator) (now : Instant) : BatchCoordinator :=
  { self with
    personLastSelected := self.personLastSelected.eraseAll (self.stalePersonIds config now) }

/-- `expire_stale_if_idle`. -/
def expireStaleIfIdle (self : BatchCoordinator) (now : Instant)
    (order : Enumeration PendingPerson) : BatchCoordinator × Option Submission :=
  let flushed := self.flushWindowIfExpired config now order
  (flushed.1.prunePersonHistory config now, flushed.2)

/-- `on_person_complete`. -/
def onPersonComplete (self : BatchCoordinator) (completion : PersonJobCompletion) :
    BatchCoordinator :=
  { self with
    activeFilterCount :=
      if self.activeFilterCount = 0 then 0 else self.activeFilterCount - 1
    personLastSelected :=
      if completion.succeeded then self.personLastSelected
      else self.personLastSelected.erase completion.personId }

end BatchCoordinator

/-- A call the main loop makes on the coordinator, with the clock it reads. -/
inductive Event where
  /-- `receive_chores`. -/
  | chores (chores : Chores) (now : Instant)
  /-- `receive_person`. -/
  | person (person : PersonAvailability) (now : Instant)
  /-- `expire_stale_if_idle`; the order is that of one hash map iteration. -/
  | tick (now : Instant) (order : Enumeration PendingPerson)
  /-- `on_person_complete`. -/
  | complete (completion : PersonJobCompletion)

/-- The clock reading of a call that takes one. -/
def Event.reading : Event → Option Instant
  | .chores _ now => some now
  | .person _ now => some now
  | .tick now _ => some now
  | .complete _ => none

/-- The coordinator as a machine whose outputs are its `submit_window` calls. -/
def coordinator (config : OrchestratorConfig) :
    Machine BatchCoordinator Event (Option Submission) where
  step self
    | .chores chores now => (self.receiveChores chores now, none)
    | .person person now => (self.receivePerson person now, none)
    | .tick now order => self.expireStaleIfIdle config now order
    | .complete completion => (self.onPersonComplete completion, none)

end BossWorker.Rust
