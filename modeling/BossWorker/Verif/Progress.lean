import BossWorker.Verif.Summaries

/-!
# The orchestrator process comes to rest

Every step of a task or of the pool and every receipt of a completion brings a task nearer
to its end, and while a task or a completion is left one of them is due, because the pool has
a thread. So without further ticks the process comes to rest in any order of steps. Then
nobody is counted any more, and the next due window is submitted.
-/

namespace BossWorker.Rust

/-- Steps that a task at a stage has left. -/
def JobStage.stepsLeft : JobStage → Nat
  | .spawned => 5
  | .queued => 4
  | .executing => 3
  | .computed _ => 2
  | .returned _ => 1

/-- Steps that a task has left, with the receipt of its completions. -/
def SpawnedTask.stepsLeft (job : SpawnedTask) : Nat :=
  job.stage.stepsLeft + job.running.task.people.length

/-- Steps that the tasks and the completions have left. -/
def Process.stepsLeft (self : Process) : Nat :=
  load SpawnedTask.stepsLeft self.jobs + self.queue.length

section Steps

variable {self after : Process} {threads : Nat}

/-- A task has a step left. -/
theorem SpawnedTask.stepsLeft_pos (job : SpawnedTask) : 0 < job.stepsLeft := by
  unfold SpawnedTask.stepsLeft
  cases job.stage <;> simp only [JobStage.stepsLeft] <;> omega

/-- Going on to a later stage leaves fewer steps. -/
theorem Process.stepsLeft_enter {index : Nat} {job : SpawnedTask}
    (found : self.jobs[index]? = some job) {stage : JobStage}
    (later : stage.stepsLeft < job.stage.stepsLeft) :
    (self.enter index job stage).stepsLeft < self.stepsLeft := by
  have replaced := load_set SpawnedTask.stepsLeft found { job with stage := stage }
  simp only [Process.stepsLeft, Process.enter]
  simp only [SpawnedTask.stepsLeft] at replaced ⊢
  omega

/-- A due step of a task or of the pool leaves fewer steps. -/
theorem TaskStep.stepsLeft_lt {event : ProcessEvent} (step : TaskStep threads self event after)
    (due : self.Due threads event) : after.stepsLeft < self.stepsLeft := by
  cases step with
  | idle undue => exact absurd due undue
  | dispatched found => exact Process.stepsLeft_enter found (by simp [JobStage.stepsLeft])
  | started found free => exact Process.stepsLeft_enter found (by simp [JobStage.stepsLeft])
  | computed found => exact Process.stepsLeft_enter found (by simp [JobStage.stepsLeft])
  | @published index running results found =>
    have fewer : (JobStage.returned true).stepsLeft < (JobStage.computed results).stepsLeft := by
      simp [JobStage.stepsLeft]
    exact Process.stepsLeft_enter found fewer
  | refused found => exact Process.stepsLeft_enter found (by simp [JobStage.stepsLeft])
  | @reported index running succeeded found =>
    have removed := load_eraseIdx SpawnedTask.stepsLeft found
    have own : SpawnedTask.stepsLeft ⟨running, .returned succeeded⟩ =
        1 + running.task.people.length := rfl
    have sent : (running.task.completions succeeded).length = running.task.people.length :=
      List.length_map ..
    simp only [Process.stepsLeft, List.length_append, List.length_map, sent]
    omega

/-- While a task is left, a step of a task or of the pool is due. -/
theorem Process.exists_due_of_job (room : 0 < threads) {job : SpawnedTask}
    (member : job ∈ self.jobs) : ∃ event, self.Due threads event := by
  obtain ⟨index, found⟩ := List.mem_iff_getElem?.mp member
  cases job with
  | mk running stage =>
    cases stage with
    | spawned => exact ⟨.dispatch index, running, found⟩
    | executing => exact ⟨.compute index, running, found⟩
    | computed results => exact ⟨.publish index true, running, results, found⟩
    | returned succeeded => exact ⟨.report index, running, succeeded, found⟩
    | queued =>
      by_cases free : self.executing < threads
      · exact ⟨.start index, ⟨running, found⟩, free⟩
      · -- every thread is taken, so some closure runs
        have busy : 0 < self.executing := by omega
        obtain ⟨other, listed, runs⟩ := List.countP_pos_iff.mp busy
        obtain ⟨place, there⟩ := List.mem_iff_getElem?.mp listed
        have stage : other.stage = .executing := of_decide_eq_true runs
        refine ⟨.compute place, other.running, ?_⟩
        rw [there, ← stage]

/-- While something is left, a step is due. -/
theorem Process.exists_due (room : 0 < threads) (left : 0 < self.stepsLeft) :
    ∃ event, self.Due threads event := by
  cases queued : self.queue with
  | cons delivery rest =>
    refine ⟨.consume, ?_⟩
    simp only [Process.Due, queued]
    exact List.cons_ne_nil delivery rest
  | nil =>
    cases working : self.jobs with
    | cons job rest =>
      apply Process.exists_due_of_job room
      rw [working]
      exact List.mem_cons_self
    | nil =>
      simp only [Process.stepsLeft, queued, working, load_nil, List.length_nil] at left
      omega

/-- Nothing is left when no step is. -/
theorem Process.at_rest (done : self.stepsLeft = 0) : self.jobs = [] ∧ self.queue = [] := by
  unfold Process.stepsLeft at done
  constructor
  · rw [List.eq_nil_iff_forall_not_mem]
    intro job member
    have light : load SpawnedTask.stepsLeft self.jobs = 0 := by omega
    have none_left := weight_eq_zero_of_load SpawnedTask.stepsLeft light member
    have positive := job.stepsLeft_pos
    omega
  · apply List.eq_nil_of_length_eq_zero
    omega

end Steps

section Runs

variable (config : OrchestratorConfig) (mode : JobSubmissionMode) (decoders : Decoders)
  (threads : Nat)

/-- A due step leaves fewer steps. -/
theorem stepsLeft_step_lt {self : Process} (alive : self.aborted = false)
    {event : ProcessEvent} (due : self.Due threads event) :
    ((process config mode decoders threads).step self event).1.stepsLeft < self.stepsLeft := by
  by_cases inner : event.ofTask = true
  · exact (process_taskStep config mode decoders threads alive inner).1.stepsLeft_lt due
  · rw [process_step config mode decoders threads alive]
    cases event with
    | consume =>
      simp only [Process.step, Process.consumed]
      cases queued : self.queue with
      | nil => exact absurd queued due
      | cons delivery rest =>
        simp only [Process.stepsLeft, queued, List.length_cons]
        omega
    | dispatch index => exact absurd rfl inner
    | start index => exact absurd rfl inner
    | compute index => exact absurd rfl inner
    | publish index taken => exact absurd rfl inner
    | report index => exact absurd rfl inner
    | _ => exact due.elim

/-- The due steps come to an end. -/
def processDescent (room : 0 < threads) :
    Descent (process config mode decoders threads) (Process.Due threads) where
  holds self := self.aborted = false
  left := Process.stepsLeft
  preserved _ event alive _ := (process_explained config mode decoders threads alive event).2.1
  lowers _ _ alive due := stepsLeft_step_lt config mode decoders threads alive due
  waits _ _ left := Process.exists_due room left

/-- A process at rest has nobody counted, has heard of everyone submitted, and submits the
next due window if it knows chores. -/
structure AtRest (events : List ProcessEvent) (rest : Process) : Prop where
  /-- No task is left. -/
  jobs : rest.jobs = []
  /-- No completion is left. -/
  queue : rest.queue = []
  /-- Nobody is counted. -/
  idle : rest.coordinator.activeFilterCount = 0
  /-- Everyone submitted has been reported once. -/
  reported : (submittedPeople (processLog config mode decoders threads events)).Perm
    (consumedPeople (processLog config mode decoders threads events))
  /-- Those reported as successes are those whose summary was taken. -/
  published : rest.publishedPeople.Perm
    (successes (consumedDeliveries (processLog config mode decoders threads events)))
  /-- A due window is submitted, if chores have been received. -/
  accepts : ∀ window chores now order, rest.coordinator.latestChores = some chores →
    BatchCoordinator.Due config rest.coordinator now window →
      ((process config mode decoders threads).step rest (.tick now order)).2 =
        [.submitted now (rest.coordinator.submission config chores window order), .pruned now]

/-- A reached process without steps left is at rest. -/
theorem atRest_of_stepsLeft {events : List ProcessEvent}
    (done : ((process config mode decoders threads).run .start events).stepsLeft = 0) :
    AtRest config mode decoders threads events
      ((process config mode decoders threads).run .start events) := by
  have documented := run_documented config mode decoders threads events
  have account := process_accounted config mode decoders threads events
  have alive := process_alive config mode decoders threads events
  generalize (process config mode decoders threads).run .start events = rest at *
  obtain ⟨jobs, queue⟩ := Process.at_rest done
  have nobody : rest.orchestrator.outstanding = [] := by
    simp only [Process.orchestrator, Orchestrator.outstanding, jobs, queue, List.map_nil,
      List.flatMap_nil, List.append_nil]
  have idle : rest.coordinator.activeFilterCount = 0 :=
    account.count.trans (congrArg List.length nobody)
  refine ⟨jobs, queue, idle, ?_, ?_, ?_⟩
  · have conserved := account.conserved
    rw [nobody, List.append_nil] at conserved
    exact conserved
  · have truthful := documented.truthful
    rw [jobs, queue, List.flatMap_nil, List.append_nil] at truthful
    exact truthful.trans (List.Perm.of_eq (List.append_nil _))
  · intro window chores now order latest due
    have pending := (account.formed window due.opened).2
    have flushed := BatchCoordinator.flushCurrentWindow_accepted config now order due.opened
      latest pending idle
    have late : ¬ durationSince now window.openedAt < config.windowDuration :=
      not_lt.mpr due.expired
    have opened := due.opened
    rw [process_step config mode decoders threads alive]
    simp only [Process.step, BatchCoordinator.expireStaleIfIdle,
      BatchCoordinator.flushWindowIfExpired, opened, late, if_false, flushed, Process.ticked]

/-- After any run of a process whose pool has a thread, at most a known number of due steps of
tasks, pool and channel can follow, in any order; when no more is due, and in some order
that is reached, the process is at rest. -/
theorem process_drains (room : 0 < threads) (events : List ProcessEvent) :
    let reached := (process config mode decoders threads).run .start events
    (∀ steps, (∀ t ∈ (process config mode decoders threads).trace reached steps,
        t.before.Due threads t.event) →
      steps.length ≤ reached.stepsLeft ∧
        ((∀ event, ¬ ((process config mode decoders threads).run reached steps).Due threads
            event) →
          AtRest config mode decoders threads (events ++ steps)
            ((process config mode decoders threads).run reached steps))) ∧
      ∃ steps, (∀ t ∈ (process config mode decoders threads).trace reached steps,
          t.before.Due threads t.event) ∧
        AtRest config mode decoders threads (events ++ steps)
          ((process config mode decoders threads).run reached steps) := by
  intro reached
  have alive : reached.aborted = false := process_alive config mode decoders threads events
  apply (processDescent config mode decoders threads room).ends alive
    (AtRest config mode decoders threads)
  intro steps _ _ done
  exact atRest_of_stepsLeft config mode decoders threads done

end Runs

/-- A second is a valid time to gather. -/
theorem second_valid : (durationFromSecsF64 1).isSome := by
  decide

/-- Ten seconds are a valid time to live. -/
theorem tenSeconds_valid : (durationFromSecsF64 10).isSome := by
  decide

/-- The settings of a process that gathers for a second. -/
def oneSecond : OrchestratorConfig := ⟨3, 1, 10, second_valid, tenSeconds_valid⟩

/-- Decoders that read the same chores and the same person off everything. -/
def sameMessages : Decoders :=
  ⟨fun _ => .ok { choresId := "weekly" }, fun _ => .ok { personId := "amy" }⟩

/-- A window of one person is flushed. -/
def oneWindow : List ProcessEvent :=
  [.choresSample [] 0, .personSample [] 0, .tick 2 (.stored PendingPerson)]

/-- With one thread in the pool the window comes to rest. -/
theorem process_drains_one :
    let machine := process oneSecond .perPerson sameMessages 1
    ∃ steps, (∀ t ∈ machine.trace (machine.run .start oneWindow) steps,
        t.before.Due 1 t.event) ∧
      AtRest oneSecond .perPerson sameMessages 1 (oneWindow ++ steps)
        (machine.run (machine.run .start oneWindow) steps) :=
  (process_drains oneSecond .perPerson sameMessages 1 (by decide) oneWindow).2

end BossWorker.Rust
