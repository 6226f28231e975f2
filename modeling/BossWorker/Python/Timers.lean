import BossWorker.Python.Coordinator

/-!
# The Python coordinator and its timers

A started timer calls `_flush_current_window` once, from a thread of its own, at any later
moment; the call names no window. An interval is meant to be one that `threading` takes, at
most `threading.TIMEOUT_MAX` seconds. The state is the coordinator with the timers that have
been started and have not made their call. The methods take the lock for their whole
length, so their calls interleave as atomic steps.
-/

namespace BossWorker.Python

/-- The coordinator and the timers that will still call it. -/
structure TimedCoordinator where
  coordinator : BatchCoordinator
  /-- Timers that have been started and whose call has not run. -/
  outstanding : List Timer
  /-- Identity of the next timer object. -/
  nextIdent : Nat
  deriving DecidableEq

/-- A call that takes the lock. -/
inductive TimedEvent where
  /-- `receive_chores`. -/
  | chores (chores : Chores) (now : Monotonic)
  /-- `receive_person`; `started` tells whether a timer it creates can be started. -/
  | person (person : PersonAvailability) (now : Monotonic) (started : Bool)
  /-- `_on_person_complete`. -/
  | complete (person : PersonAvailability) (succeeded : Bool) (now : Monotonic)
  /-- `expire_stale_if_idle`. -/
  | prune (now : Monotonic)
  /-- `_flush_current_window`, called by the outstanding timer at a position. -/
  | fire (index : Nat) (now : Monotonic)

/-- What a call leaves for its caller or, at a flush, for the executor. -/
inductive Answer where
  /-- Nothing. -/
  | quiet
  /-- `receive_person` has returned or raised. -/
  | received (outcome : Outcome)
  /-- A timer has made its call, with the `submit_window` call of it. -/
  | flushed (timer : Timer) (submission : Option Submission)
  deriving DecidableEq

namespace TimedCoordinator

/-- No window and no timer. -/
def new : TimedCoordinator where
  coordinator := .new
  outstanding := []
  nextIdent := 0

variable (config : OrchestratorConfig)

/-- `receive_person` with a fresh timer when it opens a window. -/
def receivePerson (self : TimedCoordinator) (person : PersonAvailability) (now : Monotonic)
    (started : Bool) : TimedCoordinator × Answer :=
  let called := self.coordinator.receivePerson config person now self.nextIdent started
  match self.coordinator.currentWindow with
  | some _ => ({ self with coordinator := called.1 }, .received called.2)
  | none =>
    let timer := (BatchCoordinator.openWindow config now self.nextIdent).timer.toList
    ({ coordinator := called.1
       outstanding := self.outstanding ++ if started then timer else []
       nextIdent := self.nextIdent + 1 }, .received called.2)

/-- `_flush_current_window`, called by an outstanding timer. -/
def fire (self : TimedCoordinator) (index : Nat) (now : Monotonic) :
    TimedCoordinator × Answer :=
  match self.outstanding[index]? with
  | none => (self, .quiet)
  | some timer =>
    let called := self.coordinator.flushCurrentWindow config now
    ({ self with
       coordinator := called.1
       outstanding := self.outstanding.eraseIdx index }, .flushed timer called.2)

end TimedCoordinator

/-- The coordinator with its timers as a machine. -/
def timedCoordinator (config : OrchestratorConfig) :
    Machine TimedCoordinator TimedEvent Answer where
  step self
    | .chores chores now =>
      ({ self with coordinator := self.coordinator.receiveChores chores now }, .quiet)
    | .person person now started => self.receivePerson config person now started
    | .complete person succeeded now =>
      ({ self with coordinator := self.coordinator.onPersonComplete config person succeeded now },
        .quiet)
    | .prune now =>
      ({ self with coordinator := self.coordinator.expireStaleIfIdle config now }, .quiet)
    | .fire index now => self.fire config index now

end BossWorker.Python
