import BossWorker.Base.Rotation
import BossWorker.Python.Coordinator
import BossWorker.Rust.Coordinator

/-!
# The coordinators as rotations

What a coordinator does to its selection history, told as the events of a rotation: an
accepted window is a turn that lets its pending people wait and serves those it submits, a
failed completion forgets its person, and a prune forgets the stale ones. All other calls
are silent.
-/

namespace BossWorker

/-- The turn of a call that closes a window with these pending people: there is one if the
window is submitted. -/
def turnAt {T : Type} (now : T) (pending : Option (List String))
    (output : Option Submission) : List (RotationEvent String T) :=
  match pending, output with
  | some waiting, some submission => [.served ⟨now, waiting, submission.personIds⟩]
  | _, _ => []

namespace Rust

/-- Ids of the people in the open window. -/
def BatchCoordinator.waiting (self : BatchCoordinator) : Option (List String) :=
  self.currentWindow.map fun window => window.pendingPeople.keys

/-- A person never selected ranks below every time. -/
def rotationRules (config : OrchestratorConfig) : RotationRules Instant where
  capacity := config.maxPeoplePerWindow
  never := ⊥
  stale now time := config.ttl < now - time

/-- The level of a person is the time of the last selection in the history. -/
def BatchCoordinator.levels (self : BatchCoordinator) (id : String) : WithBot Instant :=
  self.personLastSelected.level id

/-- What one call does to the history. -/
def rotationEvents (config : OrchestratorConfig)
    (t : Transition BatchCoordinator Event (Option Submission)) :
    List (RotationEvent String Instant) :=
  match t.event with
  | .chores _ _ => []
  | .person _ _ => []
  | .tick now order =>
    let flushed := t.before.flushWindowIfExpired config now order
    turnAt now t.before.waiting t.output ++ [.pruned now (flushed.1.stalePersonIds config now)]
  | .complete completion =>
    if completion.succeeded then [] else [.failed completion.personId]

/-- What a run of calls does to the history. -/
def rotationLog (config : OrchestratorConfig) (self : BatchCoordinator)
    (events : List Event) : List (RotationEvent String Instant) :=
  ((coordinator config).trace self events).flatMap (rotationEvents config)

end Rust

namespace Python

/-- Ids of the people in the open window. -/
def BatchCoordinator.waiting (self : BatchCoordinator) : Option (List String) :=
  self.currentWindow.map fun window => window.pendingPeople.keys

/-- A person never selected ranks as one selected at time zero. -/
def rotationRules (config : OrchestratorConfig) : RotationRules Monotonic where
  capacity := config.maxActiveFilters.toNat
  never := (0 : Monotonic)
  stale now time := config.personLastSuccessTtlSeconds < now - time

/-- The level of a person is the time of the last selection in the history, or zero. -/
def BatchCoordinator.levels (self : BatchCoordinator) (id : String) : WithBot Monotonic :=
  ((self.personLastSelected.level id).unbotD 0 : Monotonic)

/-- What one call does to the history. A completion prunes too. -/
def rotationEvents (config : OrchestratorConfig)
    (t : Transition BatchCoordinator Event (Option Submission)) :
    List (RotationEvent String Monotonic) :=
  match t.event with
  | .chores _ _ => []
  | .person _ _ _ _ => []
  | .flush now => turnAt now t.before.waiting t.output
  | .complete person succeeded now =>
    let kept := if succeeded then t.before.personLastSelected
      else t.before.personLastSelected.erase person.personId
    let self := { t.before with personLastSelected := kept }
    (if succeeded then [] else [.failed person.personId]) ++
      [.pruned now (self.stalePersonIds config now)]
  | .prune now => [.pruned now (t.before.stalePersonIds config now)]

/-- What a run of calls does to the history. -/
def rotationLog (config : OrchestratorConfig) (self : BatchCoordinator)
    (events : List Event) : List (RotationEvent String Monotonic) :=
  ((coordinator config).trace self events).flatMap (rotationEvents config)

end Python

end BossWorker
