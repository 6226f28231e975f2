import BossWorker.Base.Lock
import BossWorker.Python.Coordinator

/-!
# The Python coordinator under its lock

Every method body is one `with self.lock` block, and the lock is a `threading.Lock`, which
is not reentrant. `_flush_current_window` calls `submit_window` inside its block, so whatever
that call itself reports runs `_on_person_complete` on the thread that holds the lock, while
reports on other threads, even before the call returns, wait for the lock like any method, and
a call that waits for such a report waits with the lock in hand. The clock readings a method
takes outside the block are arguments here.
-/

namespace BossWorker.Python

/-- One call of `_on_person_complete`. -/
structure Completion where
  person : PersonAvailability
  succeeded : Bool
  now : Monotonic
  deriving DecidableEq

/-- What a `WindowExecutor` does with a window: whom `submit_window` itself reports, on the
thread that called it, whom other threads report while it waits for that, and whom other
threads report at any time from the call on, every person once in all. -/
structure WindowExecutor where
  /-- Reported by `submit_window` itself. -/
  inline : Submission → List Completion
  /-- Reported by other threads, before `submit_window` returns. -/
  awaited : Submission → List Completion
  /-- Reported by other threads, whether it has returned or not. -/
  later : Submission → List Completion
  /-- Each submitted person is reported exactly once. -/
  exact : ∀ submission, ((inline submission ++ awaited submission ++
    later submission).map Completion.person).Perm submission.people

/-- A call on the coordinator from outside the executor. -/
inductive Call where
  /-- `receive_chores`. -/
  | chores (chores : Chores) (now : Monotonic)
  /-- `receive_person`. -/
  | person (person : PersonAvailability) (now : Monotonic) (ident : Nat) (started : Bool)
  /-- `expire_stale_if_idle`. -/
  | prune (now : Monotonic)
  /-- `_flush_current_window`, with what the executor does if it gets the window. -/
  | flush (now : Monotonic) (executor : WindowExecutor)

/-- What a thread does inside a `with self.lock` block. -/
inductive Block where
  /-- The body of a call. -/
  | call (call : Call)
  /-- The body of `_on_person_complete`. -/
  | complete (completion : Completion)

/-- The body as an atomic step of the coordinator. -/
def Block.event : Block → Event
  | .call (.chores chores now) => .chores chores now
  | .call (.person person now ident started) => .person person now ident started
  | .call (.prune now) => .prune now
  | .call (.flush now _) => .flush now
  | .complete completion => .complete completion.person completion.succeeded completion.now

/-- The coordinator and the reports of its executors. -/
structure Shared where
  coordinator : BatchCoordinator
  /-- Reports that other threads have still to begin. -/
  owed : List Completion
  /-- Reports made since the last window was handed over. -/
  reported : List Completion
  deriving DecidableEq

/-- A window handed to an executor. -/
structure Handover where
  submission : Submission
  inline : List Completion
  awaited : List Completion
  later : List Completion
  deriving DecidableEq

/-- What `submit_window` does on the thread that calls it. -/
def Handover.calls (handed : Handover) : List (Instruction Block) :=
  (handed.inline.flatMap fun completion => critical (.complete completion)) ++
    handed.awaited.map fun completion => .await (.complete completion)

variable (config : OrchestratorConfig)

/-- The `submit_window` call a body makes, with what the executor does. -/
def handover (shared : Shared) : Block → Option Handover
  | .call (.flush now executor) =>
    (shared.coordinator.flushCurrentWindow config now).2.map fun submission =>
      { submission := submission
        inline := executor.inline submission
        awaited := executor.awaited submission
        later := executor.later submission }
  | _ => none

/-- The reports made since the last window, after a body that hands over none. -/
def Shared.reports (shared : Shared) : Block → List Completion
  | .complete completion => shared.reported ++ [completion]
  | .call _ => shared.reported

/-- Runs a body. What `submit_window` does it does on the same thread, before the lock is
released. -/
def perform (shared : Shared) (block : Block) : Shared × List (Instruction Block) :=
  let handed := handover config shared block
  ({ coordinator := ((coordinator config).step shared.coordinator block.event).1
     owed := shared.owed ++ handed.elim [] fun window => window.awaited ++ window.later
     reported := handed.elim (shared.reports block) fun _ => [] },
    handed.elim [] Handover.calls)

/-- A report has been made since the last window was handed over. -/
def Shared.hasReported (shared : Shared) : Block → Bool
  | .complete completion => decide (completion ∈ shared.reported)
  | .call _ => true

/-- The work of the threads. -/
def coordinatorWork : Work Shared Block where
  perform := perform config
  done := Shared.hasReported

/-- A move of the scheduler. -/
inductive Schedule where
  /-- A new thread makes a call. -/
  | enter (call : Call)
  /-- A new thread of an executor makes the report at a position of those owed. -/
  | report (index : Nat)
  /-- A thread takes its next instruction. -/
  | resume (thread : Nat)

/-- The `submit_window` call the next instruction of a thread makes, if any. -/
def nextHandover (self : Locked Shared Block) (thread : Nat) : Option Handover :=
  match self.threads[thread]? with
  | some (.perform block :: _) => handover config self.shared block
  | _ => none

/-- No thread has started. -/
def unlocked : Locked Shared Block where
  shared := { coordinator := .new, owed := [], reported := [] }
  holder := none
  threads := []

/-- Threads that call one coordinator, as a machine that shows the `submit_window` calls. -/
def lockedCoordinator : Machine (Locked Shared Block) Schedule (Option Handover) where
  step self
    | .enter call => (self.spawn (critical (.call call)), none)
    | .report index =>
      match self.shared.owed[index]? with
      | none => (self, none)
      | some completion =>
        let owed := self.shared.owed.eraseIdx index
        ({ self with shared := { self.shared with owed := owed } }.spawn
          (critical (.complete completion)), none)
    | .resume thread =>
      (self.resume (coordinatorWork config) thread, nextHandover config self thread)

end BossWorker.Python
