import BossWorker.Base.Machine
import BossWorker.Base.Positions

/-!
# A pool of threads

Tasks wait in the order in which they are submitted, a limited number of them runs at a
time, and those that run end in any order. So every task is waiting, running or finished,
and each starts once, in the order of submission; with a single thread the tasks also end
in that order.
-/

namespace BossWorker

/-- The tasks of a pool. -/
structure Pool (α : Type) where
  /-- Tasks that have not started, oldest first. -/
  waiting : List α
  /-- Tasks that have started and not ended. -/
  running : List α
  deriving DecidableEq

/-- What happens to the tasks of a pool. -/
inductive PoolEvent (α : Type) where
  /-- A new task. -/
  | submit (task : α)
  /-- A free thread takes the oldest task. -/
  | start
  /-- The running task at a position ends. -/
  | finish (index : Nat)

/-- What a pool shows. -/
inductive PoolReport (α : Type) where
  | started (task : α)
  | finished (task : α)
  deriving DecidableEq

/-- A task that has started. -/
def PoolReport.starting {α : Type} : PoolReport α → Option α
  | .started task => some task
  | .finished _ => none

/-- A task that has ended. -/
def PoolReport.ending {α : Type} : PoolReport α → Option α
  | .started _ => none
  | .finished task => some task

/-- A task that is submitted. -/
def PoolEvent.submitted {α : Type} : PoolEvent α → Option α
  | .submit task => some task
  | _ => none

namespace Pool

variable {α : Type} (threads : Nat)

/-- No task. -/
def empty : Pool α := ⟨[], []⟩

/-- One event; an event that is not due changes nothing. -/
def step (pool : Pool α) : PoolEvent α → Pool α × Option (PoolReport α)
  | .submit task => ({ pool with waiting := pool.waiting ++ [task] }, none)
  | .start =>
    match pool.waiting with
    | task :: rest =>
      if pool.running.length < threads then
        (⟨rest, pool.running ++ [task]⟩, some (.started task))
      else (pool, none)
    | [] => (pool, none)
  | .finish index =>
    match pool.running[index]? with
    | some task =>
      ({ pool with running := pool.running.eraseIdx index }, some (.finished task))
    | none => (pool, none)

/-- The pool as a machine. -/
def machine (α : Type) (threads : Nat) :
    Machine (Pool α) (PoolEvent α) (Option (PoolReport α)) :=
  ⟨step threads⟩

/-- What a step does. -/
inductive PoolStep (pool : Pool α) :
    PoolEvent α → Pool α × Option (PoolReport α) → Prop where
  /-- The task waits behind the others. -/
  | submitted (task : α) :
      PoolStep pool (.submit task) ({ pool with waiting := pool.waiting ++ [task] }, none)
  /-- The oldest task starts. -/
  | started (task : α) (rest : List α) (oldest : pool.waiting = task :: rest)
      (free : pool.running.length < threads) :
      PoolStep pool .start (⟨rest, pool.running ++ [task]⟩, some (.started task))
  /-- A running task ends. -/
  | finished (index : Nat) (task : α) (found : pool.running[index]? = some task) :
      PoolStep pool (.finish index)
        ({ pool with running := pool.running.eraseIdx index }, some (.finished task))
  /-- Nothing is due. -/
  | idle (event : PoolEvent α) (unsent : event.submitted = none) :
      PoolStep pool event (pool, none)

/-- Every step is one of these. -/
theorem poolStep (pool : Pool α) (event : PoolEvent α) :
    PoolStep threads pool event ((machine α threads).step pool event) := by
  cases event with
  | submit task => exact .submitted task
  | start =>
    simp only [machine, step]
    cases oldest : pool.waiting with
    | nil => exact .idle .start rfl
    | cons task rest =>
      by_cases free : pool.running.length < threads
      · simp only [if_pos free]
        exact .started task rest oldest free
      · simp only [if_neg free]
        exact .idle .start rfl
  | finish index =>
    simp only [machine, step]
    cases found : pool.running[index]? with
    | none => exact .idle _ rfl
    | some task => exact .finished index task found

section Steps

variable {threads} {pool : Pool α} {task : α}

/-- A free thread takes the oldest task. -/
theorem step_start {rest : List α} (oldest : pool.waiting = task :: rest)
    (free : pool.running.length < threads) : (machine α threads).step pool .start =
      (⟨rest, pool.running ++ [task]⟩, some (.started task)) := by
  simp only [machine, step, oldest, if_pos free]

/-- Without a waiting task or a free thread nothing starts. -/
theorem step_start_idle (undue : ¬ (pool.waiting ≠ [] ∧ pool.running.length < threads)) :
    (machine α threads).step pool .start = (pool, none) := by
  simp only [machine, step]
  cases oldest : pool.waiting with
  | nil => rfl
  | cons task rest =>
    have full : ¬ pool.running.length < threads := by
      intro free
      rw [oldest] at undue
      exact undue ⟨List.cons_ne_nil task rest, free⟩
    simp only [if_neg full]

/-- A running task ends. -/
theorem step_finish {index : Nat} (found : pool.running[index]? = some task) :
    (machine α threads).step pool (.finish index) =
      ({ pool with running := pool.running.eraseIdx index }, some (.finished task)) := by
  simp only [machine, step, found]

end Steps

/-- Tasks that have started, in order. -/
def starts (reports : List (PoolReport α)) : List α := reports.filterMap PoolReport.starting

/-- Tasks that have ended, in order. -/
def ends (reports : List (PoolReport α)) : List α := reports.filterMap PoolReport.ending

/-- Every submitted task is waiting, running or finished, and no more tasks run than there
are threads. -/
structure Accounted (submitted : List α) (reports : List (PoolReport α)) (pool : Pool α) :
    Prop where
  /-- Tasks start in the order of submission. -/
  queued : starts reports ++ pool.waiting = submitted
  /-- What has started is running or has ended. -/
  employed : (ends reports ++ pool.running).Perm (starts reports)
  /-- Every running task has a thread. -/
  limited : pool.running.length ≤ threads
  /-- A single thread ends one task before it starts the next. -/
  ordered : threads ≤ 1 → ends reports ++ pool.running = starts reports

section Reports

variable (reports : List (PoolReport α)) (task : α)

/-- A start is the latest start, and no end. -/
theorem starts_concat_started : starts (reports ++ [.started task]) = starts reports ++ [task] :=
  List.filterMap_append

theorem ends_concat_started : ends (reports ++ [.started task]) = ends reports :=
  List.filterMap_append.trans (List.append_nil _)

/-- An end is the latest end, and no start. -/
theorem ends_concat_finished : ends (reports ++ [.finished task]) = ends reports ++ [task] :=
  List.filterMap_append

theorem starts_concat_finished : starts (reports ++ [.finished task]) = starts reports :=
  List.filterMap_append.trans (List.append_nil _)

end Reports

/-- A pool without tasks has lost none. -/
theorem Accounted.start : Accounted threads ([] : List α) [] empty where
  queued := rfl
  employed := List.Perm.refl _
  limited := Nat.zero_le _
  ordered _ := rfl

/-- A step loses no task. -/
theorem Accounted.step {submitted : List α} {reports : List (PoolReport α)} {pool : Pool α}
    (accounted : Accounted threads submitted reports pool) (event : PoolEvent α) :
    Accounted threads (submitted ++ event.submitted.toList)
      (reports ++ ((machine α threads).step pool event).2.toList)
      ((machine α threads).step pool event).1 := by
  have step := poolStep threads pool event
  generalize (machine α threads).step pool event = result at step
  cases step with
  | submitted task =>
    rw [Option.toList_none, List.append_nil]
    refine ⟨?_, accounted.employed, accounted.limited, accounted.ordered⟩
    rw [← List.append_assoc, accounted.queued]
    rfl
  | started task rest oldest free =>
    rw [Option.toList_some]
    constructor
    · rw [starts_concat_started, List.append_assoc, List.singleton_append, ← oldest,
        accounted.queued]
      exact (List.append_nil _).symm
    · rw [starts_concat_started, ends_concat_started, ← List.append_assoc]
      exact accounted.employed.append_right [task]
    · rw [List.length_append, List.length_singleton]
      exact free
    · intro single
      rw [starts_concat_started, ends_concat_started, ← List.append_assoc,
        accounted.ordered single]
  | finished index task found =>
    rw [Option.toList_some]
    constructor
    · rw [starts_concat_finished, accounted.queued]
      exact (List.append_nil _).symm
    · rw [starts_concat_finished, ends_concat_finished, List.append_assoc]
      exact ((cons_eraseIdx_perm found).append_left _).trans accounted.employed
    · have limited := accounted.limited
      have fewer := List.length_eraseIdx_le pool.running index
      show (pool.running.eraseIdx index).length ≤ threads
      omega
    · intro single
      have limited := accounted.limited
      have inside := (List.getElem?_eq_some_iff.mp found).1
      have first : index = 0 := by omega
      have alone : pool.running = [task] := by
        obtain ⟨only, listed⟩ := List.length_eq_one_iff.mp
          (show pool.running.length = 1 by omega)
        rw [listed, first] at found
        rw [listed, Option.some.inj found]
      rw [starts_concat_finished, ends_concat_finished, ← accounted.ordered single, alone, first]
      exact List.append_nil _
  | idle event unsent =>
    rw [unsent, Option.toList_none, Option.toList_none, List.append_nil, List.append_nil]
    exact accounted

/-- What a run shows. -/
def reports (events : List (PoolEvent α)) : List (PoolReport α) :=
  ((machine α threads).outputs empty events).flatMap Option.toList

/-- A run loses no task. -/
theorem run_accounted (events : List (PoolEvent α)) :
    Accounted threads (events.filterMap PoolEvent.submitted) (reports threads events)
      ((machine α threads).run empty events) := by
  induction events using List.reverseRecOn with
  | nil => exact .start threads
  | append_singleton events event ih =>
    have later := ih.step threads event
    have sent : (events ++ [event]).filterMap PoolEvent.submitted =
        events.filterMap PoolEvent.submitted ++ event.submitted.toList := by
      rw [List.filterMap_append]
      cases event <;> rfl
    rw [sent, Machine.run_concat, reports, Machine.outputs_concat, List.flatMap_append,
      List.flatMap_singleton]
    exact later

end Pool

end BossWorker
