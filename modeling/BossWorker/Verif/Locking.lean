import BossWorker.Python.Locking
import BossWorker.Verif.PythonCoordinator

/-!
# Executors that report from inside `submit_window`

The active count is the number of reports still to come, in every run. As long as no
`submit_window` itself reports anybody, on the thread that flushes, or waits for a report of
another thread, every thread is one critical section that calls nothing back, so nobody waits
for a lock that is his own and every flush returns. The first such report waits for its own
thread, which holds the lock and comes to `with self.lock` again, and the first such wait is
for a thread that cannot get the lock.
-/

namespace BossWorker.Python

/-- The instruction is the body of a report. -/
def isReport : Instruction Block → Bool
  | .perform (.complete _) => true
  | _ => false

/-- Reports that executors still owe and reports that have begun and not run their body. -/
def outstandingReports (self : Locked Shared Block) : Nat :=
  self.shared.owed.length + self.left isReport

/-- A call of `submit_window` holds one report body for everybody it reports itself. -/
theorem countP_isReport_calls (handed : Handover) :
    handed.calls.countP isReport = handed.inline.length := by
  have waits : (handed.awaited.map fun completion =>
      Instruction.await (Block.complete completion)).countP isReport = 0 := by
    rw [List.countP_map, List.countP_eq_zero]
    exact fun _ _ => Bool.false_ne_true
  rw [Handover.calls, List.countP_append, waits, Nat.add_zero]
  induction handed.inline with
  | nil => rfl
  | cons completion completions ih =>
    rw [List.flatMap_cons, List.countP_append, ih, List.length_cons, Nat.add_comm]
    rfl

section Perform

variable (config : OrchestratorConfig)

/-- A call raises the active count by the people it hands over. -/
theorem perform_call_activeFilterCount (shared : Shared) (call : Call) :
    (perform config shared (.call call)).1.coordinator.activeFilterCount =
      shared.coordinator.activeFilterCount +
        ((handover config shared (.call call)).elim 0
          fun handed => handed.inline.length + (handed.awaited ++ handed.later).length : Nat) := by
  cases call with
  | chores chores now => exact (add_zero _).symm
  | prune now => exact (add_zero _).symm
  | person person now ident started =>
    have kept := shared.coordinator.receivePerson_activeFilterCount config person now ident started
    exact kept.trans (add_zero _).symm
  | flush now executor =>
    have outcome := shared.coordinator.flushCurrentWindow_flushed config now
    change (shared.coordinator.flushCurrentWindow config now).1.activeFilterCount = _
    simp only [handover]
    generalize shared.coordinator.flushCurrentWindow config now = result at outcome
    cases outcome with
    | absent closed => exact (add_zero _).symm
    | dropped window opened refused => exact (add_zero _).symm
    | accepted window chores opened latest pending idle =>
      have people := (executor.exact (shared.coordinator.submission config chores window)).length_eq
      rw [List.length_map, List.append_assoc, List.length_append] at people
      rw [BatchCoordinator.accepted_activeFilterCount config _ now window chores, ← people]
      rfl

/-- A report lowers an active count that is not zero by one. -/
theorem perform_complete_activeFilterCount (shared : Shared) (completion : Completion)
    (active : 0 < shared.coordinator.activeFilterCount) :
    (perform config shared (.complete completion)).1.coordinator.activeFilterCount =
      shared.coordinator.activeFilterCount - 1 := by
  exact shared.coordinator.onPersonComplete_activeFilterCount config _ _ _ active

end Perform

/-- The active count is the number of reports still to come. -/
def Counted (self : Locked Shared Block) : Prop :=
  self.shared.coordinator.activeFilterCount = outstandingReports self

/-- A body makes up in reports for what it does to the active count. -/
theorem perform_counted (config : OrchestratorConfig) (shared : Shared) (block : Block)
    (rest : Nat) (counted : shared.coordinator.activeFilterCount =
      ((shared.owed.length + rest + [Instruction.perform block].countP isReport : Nat) : ℤ)) :
    (perform config shared block).1.coordinator.activeFilterCount =
      (((perform config shared block).1.owed.length + rest +
        (perform config shared block).2.countP isReport : Nat) : ℤ) := by
  cases block with
  | call call =>
    have raised := perform_call_activeFilterCount config shared call
    have called : [Instruction.perform (Block.call call)].countP isReport = 0 := rfl
    rw [called] at counted
    simp only [perform] at raised ⊢
    rw [raised, counted, List.length_append]
    cases handover config shared (.call call) with
    | none => simp
    | some handed =>
      simp only [Option.elim_some, countP_isReport_calls]
      omega
  | complete completion =>
    have reported : [Instruction.perform (Block.complete completion)].countP isReport = 1 := rfl
    rw [reported] at counted
    have active : 0 < shared.coordinator.activeFilterCount := by omega
    rw [perform_complete_activeFilterCount config shared completion active, counted]
    simp only [perform, handover, Option.elim_none, List.append_nil, List.countP_nil]
    omega

/-- A thread's next instruction keeps the count. -/
theorem Counted.resume {self : Locked Shared Block} (counted : Counted self)
    (config : OrchestratorConfig) (thread : Nat) :
    Counted (self.resume (coordinatorWork config) thread) := by
  unfold Counted outstandingReports Locked.left at counted ⊢
  unfold Locked.resume
  split
  · rename_i rest next
    have moved := Locked.left_set isReport next rest
    have plain : (Instruction.acquire :: rest).countP isReport = rest.countP isReport :=
      List.countP_cons_of_neg Bool.false_ne_true
    split
    · change self.shared.coordinator.activeFilterCount =
        ((self.shared.owed.length +
          (self.threads.set thread rest).flatten.countP isReport : Nat) : ℤ)
      omega
    · exact counted
  · rename_i block rest next
    have emptied := Locked.left_set isReport next []
    have moved := Locked.left_set isReport next ((perform config self.shared block).2 ++ rest)
    have split : (Instruction.perform block :: rest).countP isReport =
        [Instruction.perform block].countP isReport + rest.countP isReport := by
      rw [← List.countP_append, List.singleton_append]
    rw [List.countP_append] at moved
    rw [List.countP_nil] at emptied
    have done := perform_counted config self.shared block
      ((self.threads.set thread []).flatten.countP isReport + rest.countP isReport)
      (by omega)
    change (perform config self.shared block).1.coordinator.activeFilterCount =
      (((perform config self.shared block).1.owed.length +
        (self.threads.set thread ((perform config self.shared block).2 ++
          rest)).flatten.countP isReport : Nat) : ℤ)
    omega
  · rename_i block rest next
    have moved := Locked.left_set isReport next rest
    have plain : (Instruction.await block :: rest).countP isReport = rest.countP isReport :=
      List.countP_cons_of_neg Bool.false_ne_true
    split
    · change self.shared.coordinator.activeFilterCount =
        ((self.shared.owed.length +
          (self.threads.set thread rest).flatten.countP isReport : Nat) : ℤ)
      omega
    · exact counted
  · rename_i rest next
    have moved := Locked.left_set isReport next rest
    have plain : (Instruction.release :: rest).countP isReport = rest.countP isReport :=
      List.countP_cons_of_neg Bool.false_ne_true
    change self.shared.coordinator.activeFilterCount =
      ((self.shared.owed.length +
        (self.threads.set thread rest).flatten.countP isReport : Nat) : ℤ)
    omega
  · exact counted

/-- Every move of the scheduler keeps the count. -/
theorem Counted.step {self : Locked Shared Block} (counted : Counted self)
    (config : OrchestratorConfig) (move : Schedule) :
    Counted ((lockedCoordinator config).step self move).1 := by
  cases move with
  | resume thread => exact counted.resume config thread
  | enter call =>
    change Counted (self.spawn (critical (.call call)))
    unfold Counted outstandingReports at counted ⊢
    rw [Locked.left_spawn]
    exact counted
  | report index =>
    simp only [lockedCoordinator]
    split
    · exact counted
    · rename_i completion found
      unfold Counted outstandingReports at counted ⊢
      have inside := (List.getElem?_eq_some_iff.mp found).1
      have fewer := List.length_eraseIdx_of_lt inside
      have begun : (critical (Block.complete completion)).countP isReport = 1 := rfl
      rw [Locked.left_spawn, begun]
      change self.shared.coordinator.activeFilterCount =
        (((self.shared.owed.eraseIdx index).length + (self.left isReport + 1) : Nat) : ℤ)
      omega

/-- In every run the active count is the number of reports still to come, around every move. -/
theorem trace_counted (config : OrchestratorConfig) (moves : List Schedule) :
    ∀ step ∈ (lockedCoordinator config).trace unlocked moves,
      Counted step.before ∧ Counted step.after := by
  have preserved (self : Locked Shared Block) (move : Schedule) (counted : Counted self)
      (_ : True) : Counted ((lockedCoordinator config).step self move).1 :=
    counted.step config move
  have initial : Counted unlocked := rfl
  exact (lockedCoordinator config).trace_invariant preserved initial moves fun _ _ => trivial

section Discipline

variable {config : OrchestratorConfig} {self : Locked Shared Block}

/-- What a body does on its own thread is what `submit_window` does with the window it hands
over. -/
theorem perform_calls {thread : Nat} {block : Block} {rest : List (Instruction Block)}
    (next : self.threads[thread]? = some (Instruction.perform block :: rest)) :
    (perform config self.shared block).2 =
      (nextHandover config self thread).elim [] Handover.calls := by
  rw [nextHandover, next]
  rfl

/-- A `submit_window` that reports nobody and waits for nobody does nothing on its thread. -/
def Handover.Quiet (handed : Handover) : Prop := handed.inline = [] ∧ handed.awaited = []

/-- Then its thread goes on to the release. -/
theorem Handover.Quiet.calls_eq {handed : Handover} (quiet : handed.Quiet) :
    handed.calls = [] := by
  rw [Handover.calls, quiet.1, quiet.2]
  rfl

/-- A thread that hands over a window is at the body that does. -/
theorem exists_next_of_handover {thread : Nat} {handed : Handover}
    (output : nextHandover config self thread = some handed) :
    ∃ block rest, self.threads[thread]? = some (Instruction.perform block :: rest) := by
  unfold nextHandover at output
  split at output
  · rename_i block rest next
    exact ⟨block, rest, next⟩
  · contradiction

/-- A move that hands over a window is the next instruction of a thread. -/
theorem exists_thread_of_shown {move : Schedule} {handed : Handover}
    (shown : ((lockedCoordinator config).step self move).2 = some handed) :
    ∃ thread, move = .resume thread ∧ nextHandover config self thread = some handed := by
  cases move with
  | enter call => contradiction
  | report index =>
    simp only [lockedCoordinator] at shown
    split at shown <;> contradiction
  | resume thread => exact ⟨thread, rfl, shown⟩

/-- Moves that hand over no window, or one that `submit_window` does nothing with on its own
thread, keep the threads disciplined. -/
theorem disciplined_step (disciplined : self.Disciplined) {move : Schedule}
    (quiet : ∀ handed, ((lockedCoordinator config).step self move).2 = some handed →
      handed.Quiet) : ((lockedCoordinator config).step self move).1.Disciplined := by
  cases move with
  | enter call => exact disciplined.spawn _
  | report index =>
    simp only [lockedCoordinator]
    split
    · exact disciplined
    · have same : Locked.Disciplined { self with shared := { self.shared with
          owed := self.shared.owed.eraseIdx index } } :=
        ⟨disciplined.staged, disciplined.present⟩
      exact same.spawn _
  | resume thread =>
    apply disciplined.resume
    intro block rest next
    change (perform config self.shared block).2 = []
    rw [perform_calls next]
    change ∀ handed, nextHandover config self thread = some handed → _ at quiet
    cases handed : nextHandover config self thread with
    | none => rfl
    | some window => exact (quiet window handed).calls_eq

/-- A move that hands over a window somebody is reported of at once makes its thread wait
for itself. -/
theorem selfWaiting_step (disciplined : self.Disciplined) {move : Schedule} {handed : Handover}
    (output : ((lockedCoordinator config).step self move).2 = some handed)
    (reported : handed.inline ≠ []) :
    ((lockedCoordinator config).step self move).1.SelfWaiting := by
  obtain ⟨thread, rfl, handing⟩ := exists_thread_of_shown output
  obtain ⟨first, others, listed⟩ := List.exists_cons_of_ne_nil reported
  obtain ⟨block, rest, next⟩ := exists_next_of_handover handing
  apply disciplined.selfWaiting_resume next
  change (perform config self.shared block).2 = _
  rw [perform_calls next, handing, Option.elim_some, Handover.calls, listed, List.flatMap_cons]
  rfl

/-- A move that hands over a window and makes its thread wait for somebody's report leaves the
thread stuck with the lock. -/
theorem stuck_step (disciplined : self.Disciplined) {thread : Nat} {handed : Handover}
    (output : nextHandover config self thread = some handed) (silent : handed.inline = [])
    (waits : handed.awaited ≠ []) :
    Locked.Stuck (coordinatorWork config) (self.resume (coordinatorWork config) thread) thread := by
  obtain ⟨first, others, listed⟩ := List.exists_cons_of_ne_nil waits
  obtain ⟨block, rest, next⟩ := exists_next_of_handover output
  have called : (perform config self.shared block).2 =
      .await (.complete first) :: others.map fun completion => .await (.complete completion) := by
    rw [perform_calls next, output, Option.elim_some, Handover.calls, silent, listed]
    rfl
  have handing : handover config self.shared block = some handed := by
    rw [nextHandover, next] at output
    exact output
  have unreported : (perform config self.shared block).1.reported = [] := by
    simp only [perform, handing, Option.elim_some]
  refine disciplined.stuck_resume next called (decide_eq_false ?_)
  change first ∉ (perform config self.shared block).1.reported
  rw [unreported]
  exact List.not_mem_nil

/-- No move of the scheduler frees such a thread. -/
theorem stuck_move {thread : Nat} (stuck : Locked.Stuck (coordinatorWork config) self thread)
    (move : Schedule) :
    Locked.Stuck (coordinatorWork config) ((lockedCoordinator config).step self move).1 thread := by
  cases move with
  | enter call => exact stuck.spawn _
  | report index =>
    simp only [lockedCoordinator]
    split
    · exact stuck
    · have same : Locked.Stuck (coordinatorWork config) { self with shared := { self.shared with
          owed := self.shared.owed.eraseIdx index } } thread := by
        obtain ⟨body, rest, next, undone⟩ := stuck.waits
        refine ⟨stuck.held, ⟨body, rest, next, ?_⟩, stuck.others⟩
        cases body with
        | call call => exact undone
        | complete completion => exact undone
      exact same.spawn _
  | resume other =>
    change Locked.Stuck (coordinatorWork config) (self.resume (coordinatorWork config) other) thread
    rw [stuck.resume_eq other]
    exact stuck

end Discipline

/-- The lock is given back in some continuation of the schedule. -/
def CanReturn (config : OrchestratorConfig) (self : Locked Shared Block) : Prop :=
  ∃ moves, ((lockedCoordinator config).run self moves).holder = none

/-- A stuck thread never gives the lock back. -/
theorem not_canReturn_of_stuck {config : OrchestratorConfig} {self : Locked Shared Block}
    {thread : Nat} (stuck : Locked.Stuck (coordinatorWork config) self thread) :
    ¬ CanReturn config self := by
  rintro ⟨moves, free⟩
  have kept (before : Locked Shared Block) (move : Schedule)
      (holds : Locked.Stuck (coordinatorWork config) before thread) :
      Locked.Stuck (coordinatorWork config) ((lockedCoordinator config).step before move).1
        thread :=
    stuck_move holds move
  have still := (lockedCoordinator config).run_invariant kept stuck moves
  rw [still.held] at free
  contradiction

/-- No thread ever waits for a lock it holds, every flush that hands over a window can
return, and once all reports have been made the active count is zero and windows are
accepted. -/
structure Tolerates (config : OrchestratorConfig) (moves : List Schedule) : Prop where
  /-- Nobody holds the lock and waits for it. -/
  noSelfWait : ∀ step ∈ (lockedCoordinator config).trace unlocked moves,
    ¬ step.after.SelfWaiting
  /-- The thread that has called `submit_window` can go on to its release. -/
  returns : ∀ step ∈ (lockedCoordinator config).trace unlocked moves,
    step.output ≠ none → CanReturn config step.after
  /-- After the last report the coordinator is idle. -/
  drains : ∀ step ∈ (lockedCoordinator config).trace unlocked moves,
    outstandingReports step.after = 0 →
      step.after.shared.coordinator.activeFilterCount = 0 ∧
        step.after.shared.coordinator.AcceptsWindows config

/-- In every window handed over `submit_window` leaves all reports to other threads and waits
for none of them. -/
def LeavesReports (config : OrchestratorConfig) (moves : List Schedule) : Prop :=
  ∀ step ∈ (lockedCoordinator config).trace unlocked moves, ∀ handed,
    step.output = some handed → handed.Quiet

/-- No thread, no discipline to break. -/
theorem disciplined_unlocked : unlocked.Disciplined where
  staged thread program left := by simp [unlocked] at left
  present thread held := by simp [unlocked] at held

/-- A step after which nobody waits for himself and the flush can return hands over no window
that `submit_window` does something with on its own thread. -/
theorem quiet_of_step {config : OrchestratorConfig} {self : Locked Shared Block}
    (disciplined : self.Disciplined) {move : Schedule} {handed : Handover}
    (shown : ((lockedCoordinator config).step self move).2 = some handed)
    (free : ¬ ((lockedCoordinator config).step self move).1.SelfWaiting)
    (returns : CanReturn config ((lockedCoordinator config).step self move).1) :
    handed.Quiet := by
  have silent : handed.inline = [] := by
    by_contra reported
    exact free (selfWaiting_step disciplined shown reported)
  refine ⟨silent, ?_⟩
  by_contra waits
  obtain ⟨thread, rfl, handing⟩ := exists_thread_of_shown shown
  exact not_canReturn_of_stuck (stuck_step disciplined handing silent waits) returns

/-- Threads are disciplined in front of every step as long as nobody waits for himself and
every flush can return. -/
theorem Tolerates.disciplined {config : OrchestratorConfig} {moves : List Schedule}
    (tolerates : Tolerates config moves) :
    ∀ step ∈ (lockedCoordinator config).trace unlocked moves, step.before.Disciplined := by
  have preserved (self : Locked Shared Block) (move : Schedule)
      (disciplined : self.Disciplined)
      (good : ¬ ((lockedCoordinator config).step self move).1.SelfWaiting ∧
        (((lockedCoordinator config).step self move).2 ≠ none →
          CanReturn config ((lockedCoordinator config).step self move).1)) :
      ((lockedCoordinator config).step self move).1.Disciplined := by
    apply disciplined_step disciplined
    intro handed shown
    have made : ((lockedCoordinator config).step self move).2 ≠ none := by
      rw [shown]
      exact Option.some_ne_none handed
    exact quiet_of_step disciplined shown good.1 (good.2 made)
  have disciplined := (lockedCoordinator config).trace_invariant preserved
    disciplined_unlocked moves fun step member => by
      rw [(lockedCoordinator config).step_of_mem_trace member]
      exact ⟨tolerates.noSelfWait step member, tolerates.returns step member⟩
  exact fun step member => (disciplined step member).1

/-- Where all reports are left to other threads all threads are disciplined. -/
theorem LeavesReports.disciplined {config : OrchestratorConfig} {moves : List Schedule}
    (leaves : LeavesReports config moves) :
    ∀ step ∈ (lockedCoordinator config).trace unlocked moves,
      step.before.Disciplined ∧ step.after.Disciplined := by
  have preserved (self : Locked Shared Block) (move : Schedule)
      (disciplined : self.Disciplined)
      (calm : ∀ handed, ((lockedCoordinator config).step self move).2 = some handed →
        handed.Quiet) :
      ((lockedCoordinator config).step self move).1.Disciplined :=
    disciplined_step disciplined calm
  apply (lockedCoordinator config).trace_invariant preserved disciplined_unlocked moves
  intro step member
  rw [(lockedCoordinator config).step_of_mem_trace member]
  exact leaves step member

/-- After a window is handed over and left to other threads, its own thread gives the lock
back. -/
theorem canReturn_step {config : OrchestratorConfig} {self : Locked Shared Block}
    (disciplined : self.Disciplined) {move : Schedule} {handed : Handover}
    (shown : ((lockedCoordinator config).step self move).2 = some handed)
    (quiet : handed.Quiet) :
    CanReturn config ((lockedCoordinator config).step self move).1 := by
  obtain ⟨thread, rfl, handing⟩ := exists_thread_of_shown shown
  obtain ⟨block, rest, next⟩ := exists_next_of_handover handing
  have silent : (perform config self.shared block).2 = [] := by
    rw [perform_calls next, handing]
    exact quiet.calls_eq
  exact ⟨[.resume thread], disciplined.holder_resume_resume next silent⟩

/-- In every run, under any schedule, the coordinator tolerates its executors exactly when
none of them reports anybody on the thread that flushes or waits there for a report of another
thread. -/
theorem tolerates_iff (config : OrchestratorConfig) (moves : List Schedule) :
    Tolerates config moves ↔ LeavesReports config moves := by
  have output {step : Transition (Locked Shared Block) Schedule (Option Handover)}
      (member : step ∈ (lockedCoordinator config).trace unlocked moves) :
      (lockedCoordinator config).step step.before step.event = (step.after, step.output) :=
    (lockedCoordinator config).step_of_mem_trace member
  constructor
  · intro tolerates step member handed shown
    have disciplined := tolerates.disciplined step member
    have free := tolerates.noSelfWait step member
    have returns := tolerates.returns step member
      (by rw [shown]; exact Option.some_ne_none handed)
    have showing : ((lockedCoordinator config).step step.before step.event).2 = some handed := by
      rw [output member]
      exact shown
    refine quiet_of_step disciplined showing ?_ ?_
    · rw [output member]
      exact free
    · rw [output member]
      exact returns
  · intro leaves
    refine ⟨fun step member => (leaves.disciplined step member).2.not_selfWaiting, ?_, ?_⟩
    · intro step member made
      obtain ⟨handed, shown⟩ := Option.ne_none_iff_exists'.mp made
      have showing : ((lockedCoordinator config).step step.before step.event).2 =
          some handed := by
        rw [output member]
        exact shown
      have returns := canReturn_step (leaves.disciplined step member).1 showing
        (leaves step member handed shown)
      rw [output member] at returns
      exact returns
    · intro step member none_left
      have counted := (trace_counted config moves step member).2
      have idle : step.after.shared.coordinator.activeFilterCount = 0 := by
        rw [counted, none_left]
        rfl
      exact ⟨idle, BatchCoordinator.acceptsWindows_of_idle config idle⟩

/-- The executor of the scenario tests, which reports everybody before it returns. -/
def fakeExecutor : WindowExecutor where
  inline submission := submission.people.map fun person => ⟨person, true, 0⟩
  awaited _ := []
  later _ := []
  exact submission := by
    rw [List.append_nil, List.append_nil, List.map_map]
    exact List.Perm.of_eq (List.map_id submission.people)

/-- Chores, one person, and the flush up to its call of `submit_window`. -/
def beforeFakeReport : List Schedule :=
  [.enter (.chores {} 1), .resume 0, .resume 0, .resume 0,
    .enter (.person { personId := "amy" } 2 0 true), .resume 1, .resume 1, .resume 1,
    .enter (.flush 7 fakeExecutor), .resume 2]

/-- With that executor the thread of the first accepted window waits for itself. -/
theorem fake_executor_not_tolerated :
    ¬ Tolerates ⟨2, 5, 60⟩ (beforeFakeReport ++ [.resume 2]) := by
  intro tolerates
  have last := tolerates.noSelfWait _
    (by rw [Machine.trace_concat]; exact List.mem_append_right _ (List.mem_singleton_self _))
  exact last ⟨2, _, rfl, rfl⟩

end BossWorker.Python
