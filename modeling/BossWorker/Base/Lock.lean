/-!
# Threads that share a lock

A thread is the list of instructions it has left: take the lock, do some work on the shared
state, give the lock back. The lock is not reentrant, so a thread that holds it and comes to
another acquisition waits for itself. Work may put instructions of its own in front of the
rest of its thread, as a callback does, or make it wait for work of other threads. Threads
that each run one critical section, whose work does neither, never wait for themselves, and
the holder can always go on to its release. A holder that waits for work of such threads waits
for ever.
-/

namespace BossWorker

/-- One instruction of a thread. -/
inductive Instruction (ι : Type) where
  /-- Wait for the lock and take it. -/
  | acquire
  /-- Work on the shared state. -/
  | perform (body : ι)
  /-- Wait until some work has been done. -/
  | await (body : ι)
  /-- Give the lock back. -/
  | release
  deriving DecidableEq

/-- The work in a critical section of its own. -/
def critical {ι : Type} (body : ι) : List (Instruction ι) := [.acquire, .perform body, .release]

/-- A shared state, its lock and the threads with the instructions they have left. -/
structure Locked (σ ι : Type) where
  /-- The shared state. -/
  shared : σ
  /-- The thread that holds the lock. -/
  holder : Option Nat
  /-- Instructions left of every thread. -/
  threads : List (List (Instruction ι))
  deriving DecidableEq

/-- What work does. -/
structure Work (σ ι : Type) where
  /-- The state after the work, and the instructions it puts in front of its thread. -/
  perform : σ → ι → σ × List (Instruction ι)
  /-- The work counts as done. -/
  done : σ → ι → Bool

namespace Locked

variable {σ ι : Type} (work : Work σ ι)

/-- The next instruction of a thread, if it has one and need not wait. -/
def resume (self : Locked σ ι) (thread : Nat) : Locked σ ι :=
  match self.threads[thread]? with
  | some (.acquire :: rest) =>
    if self.holder = none then
      { self with holder := some thread, threads := self.threads.set thread rest }
    else self
  | some (.perform body :: rest) =>
    let after := work.perform self.shared body
    { self with shared := after.1, threads := self.threads.set thread (after.2 ++ rest) }
  | some (.await body :: rest) =>
    if work.done self.shared body then
      { self with threads := self.threads.set thread rest }
    else self
  | some (.release :: rest) =>
    { self with holder := none, threads := self.threads.set thread rest }
  | _ => self

/-- A new thread. -/
def spawn (self : Locked σ ι) (program : List (Instruction ι)) : Locked σ ι :=
  { self with threads := self.threads ++ [program] }

/-- How many instructions of a kind the threads have left. -/
def left (self : Locked σ ι) (kind : Instruction ι → Bool) : Nat :=
  self.threads.flatten.countP kind

/-- A thread holds the lock and waits to take it. -/
def SelfWaiting (self : Locked σ ι) : Prop :=
  ∃ thread rest, self.holder = some thread ∧ self.threads[thread]? = some (.acquire :: rest)

/-- Where a thread of one critical section stands, with and without the lock. -/
inductive Stage : Bool → List (Instruction ι) → Prop where
  /-- In front of the section. -/
  | waiting (body : ι) : Stage false (critical body)
  /-- Inside, before the work. -/
  | working (body : ι) : Stage true [.perform body, .release]
  /-- Inside, after the work. -/
  | leaving : Stage true [.release]
  /-- Behind the section. -/
  | finished : Stage false []

/-- Every thread is at a stage of one critical section, inside exactly if it is the holder. -/
structure Disciplined (locked : Locked σ ι) : Prop where
  staged : ∀ thread program, locked.threads[thread]? = some program →
    Stage (decide (locked.holder = some thread)) program
  present : ∀ thread, locked.holder = some thread → thread < locked.threads.length

variable {work} {self : Locked σ ι}

/-- The holder among disciplined threads is inside its section. -/
theorem Disciplined.holder_stage (disciplined : self.Disciplined) {thread : Nat}
    (held : self.holder = some thread) :
    ∃ program, self.threads[thread]? = some program ∧ Stage true program := by
  have inside := disciplined.present thread held
  have staged := disciplined.staged thread _ (List.getElem?_eq_getElem inside)
  rw [decide_eq_true held] at staged
  exact ⟨_, List.getElem?_eq_getElem inside, staged⟩

/-- Disciplined threads do not wait for themselves. -/
theorem Disciplined.not_selfWaiting (disciplined : self.Disciplined) : ¬ self.SelfWaiting := by
  rintro ⟨thread, rest, held, next⟩
  obtain ⟨program, left, stage⟩ := disciplined.holder_stage held
  rw [next, Option.some.injEq] at left
  subst left
  cases stage

/-- The only threads with work next are inside their section. -/
theorem Disciplined.working (disciplined : self.Disciplined) {thread : Nat} {body : ι}
    {rest : List (Instruction ι)}
    (next : self.threads[thread]? = some (Instruction.perform body :: rest)) :
    self.holder = some thread ∧ rest = [.release] := by
  have staged := disciplined.staged thread _ next
  generalize inside : decide (self.holder = some thread) = held at staged
  cases staged with
  | working body => exact ⟨of_decide_eq_true inside, rfl⟩

/-- A thread that goes on to another stage, leaving the holder as it was or becoming it or
ceasing to be it, stays in discipline with the others. -/
theorem Disciplined.move (disciplined : self.Disciplined) {moved : Locked σ ι} {thread : Nat}
    {rest : List (Instruction ι)} (inside : thread < self.threads.length)
    (threads : moved.threads = self.threads.set thread rest)
    (stage : Stage (decide (moved.holder = some thread)) rest)
    (others : ∀ other, other ≠ thread →
      (moved.holder = some other ↔ self.holder = some other)) : moved.Disciplined := by
  constructor
  · intro other program left
    by_cases same : other = thread
    · subst same
      rw [threads, List.getElem?_set_self inside, Option.some.injEq] at left
      exact left ▸ stage
    · rw [threads, List.getElem?_set_ne (Ne.symm same)] at left
      rw [decide_eq_decide.mpr (others other same)]
      exact disciplined.staged other program left
  · intro other held
    rw [threads, List.length_set]
    by_cases same : other = thread
    · exact same ▸ inside
    · exact disciplined.present other ((others other same).mp held)

/-- Disciplined threads take their instructions without waiting for themselves as long as
the work calls nothing back. -/
theorem Disciplined.resume (disciplined : self.Disciplined) (thread : Nat)
    (quiet : ∀ body rest, self.threads[thread]? = some (.perform body :: rest) →
      (work.perform self.shared body).2 = []) : (self.resume work thread).Disciplined := by
  unfold Locked.resume
  split
  · rename_i rest next
    have inside := (List.getElem?_eq_some_iff.mp next).1
    have staged := disciplined.staged thread _ next
    split
    · rename_i free
      have stage : Stage true rest := by
        generalize decide (self.holder = some thread) = held at staged
        cases staged with
        | waiting body => exact .working body
      refine disciplined.move inside rfl (by simpa using stage) fun other different => ?_
      simp [free, Ne.symm different]
    · exact disciplined
  · rename_i body rest next
    have inside := (List.getElem?_eq_some_iff.mp next).1
    obtain ⟨held, rfl⟩ := disciplined.working next
    refine disciplined.move inside rfl ?_ fun other _ => Iff.rfl
    rw [quiet body _ next, decide_eq_true held]
    exact .leaving
  · rename_i body rest next
    have staged := disciplined.staged thread _ next
    generalize decide (self.holder = some thread) = held at staged
    cases staged
  · rename_i rest next
    have inside := (List.getElem?_eq_some_iff.mp next).1
    have staged := disciplined.staged thread _ next
    generalize entered : decide (self.holder = some thread) = held at staged
    cases staged with
    | leaving =>
      refine disciplined.move inside rfl .finished fun other different => ?_
      simp [of_decide_eq_true entered, Ne.symm different]
  · exact disciplined

/-- A new thread with a critical section joins disciplined threads. -/
theorem Disciplined.spawn (disciplined : self.Disciplined) (body : ι) :
    (self.spawn (critical body)).Disciplined := by
  constructor
  · intro thread program left
    have staged := disciplined.staged thread
    rcases Nat.lt_trichotomy thread self.threads.length with inside | rfl | outside
    · rw [Locked.spawn, List.getElem?_append_left inside] at left
      exact staged program left
    · rw [Locked.spawn, List.getElem?_concat_length, Option.some.injEq] at left
      have free : self.holder ≠ some self.threads.length :=
        fun held => Nat.lt_irrefl _ (disciplined.present _ held)
      rw [← left]
      exact decide_eq_false free ▸ .waiting body
    · have beyond : (self.spawn (critical body)).threads.length ≤ thread := by
        rw [Locked.spawn, List.length_append, List.length_singleton]
        exact outside
      rw [List.getElem?_eq_none beyond] at left
      contradiction
  · intro thread held
    have inside := disciplined.present thread held
    rw [Locked.spawn, List.length_append, List.length_singleton]
    omega

/-- After work that calls nothing back, a disciplined thread releases the lock. -/
theorem Disciplined.holder_resume_resume (disciplined : self.Disciplined) {thread : Nat}
    {body : ι} {rest : List (Instruction ι)}
    (next : self.threads[thread]? = some (Instruction.perform body :: rest))
    (quiet : (work.perform self.shared body).2 = []) :
    ((self.resume work thread).resume work thread).holder = none := by
  obtain ⟨_, rfl⟩ := disciplined.working next
  have inside := (List.getElem?_eq_some_iff.mp next).1
  simp only [Locked.resume, next, quiet, List.nil_append, List.getElem?_set_self inside]

/-- After work that calls back into a critical section, a disciplined thread waits for
itself. -/
theorem Disciplined.selfWaiting_resume (disciplined : self.Disciplined) {thread : Nat}
    {body : ι} {rest back : List (Instruction ι)}
    (next : self.threads[thread]? = some (Instruction.perform body :: rest))
    (called : (work.perform self.shared body).2 = .acquire :: back) :
    (self.resume work thread).SelfWaiting := by
  obtain ⟨held, rfl⟩ := disciplined.working next
  have inside := (List.getElem?_eq_some_iff.mp next).1
  refine ⟨thread, back ++ [.release], ?_, ?_⟩
  · simp only [Locked.resume, next]
    exact held
  · simp only [Locked.resume, next, called, List.getElem?_set_self inside]
    rfl

/-- A thread holds the lock and waits for work that has not been done, and all others are in
front of a critical section or behind it. -/
structure Stuck (work : Work σ ι) (locked : Locked σ ι) (thread : Nat) : Prop where
  held : locked.holder = some thread
  waits : ∃ body rest, locked.threads[thread]? = some (.await body :: rest) ∧
    work.done locked.shared body = false
  others : ∀ other program, other ≠ thread → locked.threads[other]? = some program →
    Stage false program

/-- Then no thread goes on. -/
theorem Stuck.resume_eq {thread : Nat} (stuck : Stuck work self thread) (other : Nat) :
    self.resume work other = self := by
  by_cases same : other = thread
  · obtain ⟨body, rest, next, undone⟩ := stuck.waits
    rw [same, Locked.resume, next]
    simp only [undone, Bool.false_eq_true, if_false]
  · cases program : self.threads[other]? with
    | none => rw [Locked.resume, program]
    | some left =>
      have staged := stuck.others other left same program
      cases staged with
      | waiting body =>
        have taken : self.holder ≠ none := by
          rw [stuck.held]
          exact Option.some_ne_none thread
        simp only [Locked.resume, program, critical, if_neg taken]
      | finished => rw [Locked.resume, program]

/-- A new thread does not help. -/
theorem Stuck.spawn {thread : Nat} (stuck : Stuck work self thread) (body : ι) :
    Stuck work (self.spawn (critical body)) thread := by
  obtain ⟨awaited, rest, next, undone⟩ := stuck.waits
  have inside := (List.getElem?_eq_some_iff.mp next).1
  refine ⟨stuck.held, ⟨awaited, rest, ?_, undone⟩, fun other program different left => ?_⟩
  · rw [Locked.spawn, List.getElem?_append_left inside]
    exact next
  · by_cases there : other < self.threads.length
    · rw [Locked.spawn, List.getElem?_append_left there] at left
      exact stuck.others other program different left
    · rw [Locked.spawn, List.getElem?_append_right (Nat.not_lt.mp there)] at left
      rw [List.mem_singleton.mp (List.mem_of_getElem? left)]
      exact .waiting body

/-- After work that makes it wait for work not done, a disciplined thread is stuck. -/
theorem Disciplined.stuck_resume (disciplined : self.Disciplined) {thread : Nat}
    {body awaited : ι} {rest more : List (Instruction ι)}
    (next : self.threads[thread]? = some (Instruction.perform body :: rest))
    (called : (work.perform self.shared body).2 = .await awaited :: more)
    (undone : work.done (work.perform self.shared body).1 awaited = false) :
    Stuck work (self.resume work thread) thread := by
  obtain ⟨held, rfl⟩ := disciplined.working next
  have inside := (List.getElem?_eq_some_iff.mp next).1
  simp only [Locked.resume, next, called]
  refine ⟨held, ⟨awaited, more ++ [.release], ?_, undone⟩, fun other program different left => ?_⟩
  · rw [List.getElem?_set_self inside]
    rfl
  · rw [List.getElem?_set_ne (Ne.symm different)] at left
    have staged := disciplined.staged other program left
    have free : ¬ self.holder = some other := by
      rw [held]
      exact fun same => different (Option.some.inj same).symm
    rw [decide_eq_false free] at staged
    exact staged

/-- Replacing the instructions of one thread replaces their count. -/
theorem left_set (kind : Instruction ι → Bool) {threads : List (List (Instruction ι))}
    {thread : Nat} {program : List (Instruction ι)} (next : threads[thread]? = some program)
    (rest : List (Instruction ι)) :
    (threads.set thread rest).flatten.countP kind + program.countP kind =
      threads.flatten.countP kind + rest.countP kind := by
  induction threads generalizing thread with
  | nil => contradiction
  | cons first threads ih =>
    cases thread with
    | zero =>
      obtain rfl : first = program := Option.some.inj next
      simp only [List.set_cons_zero, List.flatten_cons, List.countP_append]
      omega
    | succ thread =>
      have later := ih next
      simp only [List.set_cons_succ, List.flatten_cons, List.countP_append]
      omega

/-- A new thread adds the instructions it has. -/
theorem left_spawn (kind : Instruction ι → Bool) (self : Locked σ ι)
    (program : List (Instruction ι)) :
    (self.spawn program).left kind = self.left kind + program.countP kind := by
  simp [left, spawn]

end Locked

end BossWorker
