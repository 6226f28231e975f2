import BossWorker.Verif.PythonLimits

/-!
# The jobs of the Python process come to an end

Every step of a job brings it nearer to its end, and until it has ended one of its steps is
due, whatever its batch runner and the transport answer. So without further samples and
timers the process comes to rest in any order of steps. Then everybody a job was started for
has been reported once, and the only people still counted are those without a job.
-/

namespace BossWorker.Python

/-- Steps that a job has left. -/
def StartedJob.stepsLeft (job : StartedJob) : Nat :=
  match job.stage with
  | .computing => 2 + job.task.people.length
  | .publishing _ => 1 + job.task.people.length
  | .reporting _ people => people.length

/-- Steps that all jobs have left. -/
def Process.stepsLeft (self : Process) : Nat := load StartedJob.stepsLeft self.jobs

/-- A job has a step left. -/
def StartedJob.Busy (job : StartedJob) : Prop := 0 < job.stepsLeft

/-- Every job that has not ended has a step left. -/
def Process.Busy (self : Process) : Prop := ∀ job ∈ self.jobs, job.Busy

section Steps

variable (self : Process) {index : Nat} {job : StartedJob} (succeeded : Bool)
  (people : List PersonAvailability)

/-- A job that comes to its `finally` block or goes on in it leaves the steps of its people. -/
theorem Process.stepsLeft_finallyReports (found : self.jobs[index]? = some job) :
    job.stepsLeft + (self.finallyReports index job succeeded people).stepsLeft =
      people.length + self.stepsLeft := by
  cases people with
  | nil =>
    have removed := load_eraseIdx StartedJob.stepsLeft found
    change job.stepsLeft + load StartedJob.stepsLeft (self.jobs.eraseIdx index) =
      0 + load StartedJob.stepsLeft self.jobs
    omega
  | cons person rest => exact load_set StartedJob.stepsLeft found _

/-- The `finally` block keeps no job that has reported everybody. -/
theorem Process.Busy.finallyReports {self : Process} (busy : self.Busy) (index : Nat)
    (job : StartedJob) : (self.finallyReports index job succeeded people).Busy := by
  cases people with
  | nil => exact forall_mem_eraseIdx busy index
  | cons person rest =>
    have waiting : StartedJob.Busy { job with stage := .reporting succeeded (person :: rest) } :=
      Nat.succ_pos _
    exact forall_mem_set busy waiting

/-- While a step is left, a step is due. -/
theorem Process.exists_due (left : 0 < self.stepsLeft) : ∃ event, self.Due event := by
  have some_job : ∃ job ∈ self.jobs, job.Busy := by
    by_contra idle
    have light : ∀ weight ∈ self.jobs.map StartedJob.stepsLeft, weight = 0 := by
      intro weight member
      obtain ⟨job, listed, rfl⟩ := List.mem_map.mp member
      by_contra heavy
      exact idle ⟨job, listed, Nat.pos_of_ne_zero heavy⟩
    have nothing : self.stepsLeft = 0 := List.sum_eq_zero light
    omega
  obtain ⟨job, listed, busy⟩ := some_job
  obtain ⟨index, found⟩ := List.mem_iff_getElem?.mp listed
  cases job with
  | mk batch task stage =>
    cases stage with
    | computing => exact ⟨.compute index, batch, task, found⟩
    | publishing summary => exact ⟨.publish index true, batch, task, summary, found⟩
    | reporting succeeded people =>
      cases people with
      | nil => exact absurd busy (Nat.lt_irrefl 0)
      | cons person rest =>
        exact ⟨.report index 0, batch, task, succeeded, person, rest, found⟩

/-- No job is left when no step is. -/
theorem Process.Busy.jobs_eq_nil {self : Process} (busy : self.Busy)
    (done : self.stepsLeft = 0) : self.jobs = [] := by
  rw [List.eq_nil_iff_forall_not_mem]
  intro job member
  have light := weight_eq_zero_of_load StartedJob.stepsLeft done member
  have heavy := busy job member
  unfold StartedJob.Busy at heavy
  omega

end Steps

section Runs

variable (config : OrchestratorConfig) (mode : JobSubmissionMode) (parsers : Parsers)

/-- Every step keeps the jobs busy. -/
theorem Process.Busy.step {self : Process} (busy : self.Busy) (event : ProcessEvent) :
    ((process config mode parsers).step self event).1.Busy := by
  have step := process_processStep config mode parsers self event
  generalize (process config mode parsers).step self event = result at step
  cases step with
  | idle uncalled undue unfired => exact busy
  | called given => exact busy
  | flushed found answer => exact busy
  | @attempted index now starts timer submission found answer =>
    intro job member
    cases List.mem_append.mp member with
    | inl old => exact busy job old
    | inr new =>
      obtain ⟨task, _, rfl⟩ := List.mem_map.mp new
      change 0 < 2 + task.people.length
      omega
  | @built index batch task summary found made =>
    have waiting : StartedJob.Busy ⟨batch, task, .publishing summary⟩ := by
      change 0 < 1 + task.people.length
      omega
    exact forall_mem_set busy waiting
  | raised found failed => exact busy.finallyReports _ _ _ _
  | @published index batch task summary taken found =>
    let later : Process :=
      { self with published := self.published ++ if taken then [⟨batch, summary⟩] else [] }
    have kept : later.Busy := busy
    exact kept.finallyReports _ _ _ _
  | @reported index batch now task succeeded person rest found =>
    let timed := ((timedCoordinator config).step self.timed (.complete person succeeded now)).1
    have kept : Process.Busy { self with timed := timed } := busy
    exact kept.finallyReports _ _ _ _

/-- A due step leaves fewer steps. -/
theorem stepsLeft_step_lt {self : Process} {event : ProcessEvent} (due : self.Due event) :
    ((process config mode parsers).step self event).1.stepsLeft < self.stepsLeft := by
  have step := process_processStep config mode parsers self event
  generalize (process config mode parsers).step self event = result at step
  cases step with
  | idle uncalled undue unfired => exact absurd due undue
  | called given =>
    cases event with
    | compute index => contradiction
    | publish index taken => contradiction
    | report index now => contradiction
    | _ => exact due.elim
  | flushed found answer => exact due.elim
  | attempted found answer => exact due.elim
  | @built index batch task summary found made =>
    have replaced := load_set StartedJob.stepsLeft found ⟨batch, task, .publishing summary⟩
    change 2 + task.people.length + load StartedJob.stepsLeft (self.jobs.set index _) =
      1 + task.people.length + load StartedJob.stepsLeft self.jobs at replaced
    change load StartedJob.stepsLeft (self.jobs.set index _) <
      load StartedJob.stepsLeft self.jobs
    omega
  | @raised index batch task error found failed =>
    have spent := self.stepsLeft_finallyReports false task.people found
    change 2 + task.people.length + _ = _ at spent
    simp only
    omega
  | @published index batch task summary taken found =>
    let later : Process :=
      { self with published := self.published ++ if taken then [⟨batch, summary⟩] else [] }
    have spent := later.stepsLeft_finallyReports taken task.people found
    have same : later.stepsLeft = self.stepsLeft := rfl
    change 1 + task.people.length + _ = _ at spent
    change (later.finallyReports index ⟨batch, task, .publishing summary⟩ taken
      task.people).stepsLeft < self.stepsLeft
    omega
  | @reported index batch now task succeeded person rest found =>
    let timed := ((timedCoordinator config).step self.timed (.complete person succeeded now)).1
    let later : Process := { self with timed := timed }
    have spent := later.stepsLeft_finallyReports succeeded rest found
    have same : later.stepsLeft = self.stepsLeft := rfl
    change rest.length + 1 + _ = _ at spent
    change (later.finallyReports index ⟨batch, task, .reporting succeeded (person :: rest)⟩
      succeeded rest).stepsLeft < self.stepsLeft
    omega

/-- The steps of the jobs come to an end. -/
def processDescent : Descent (process config mode parsers) Process.Due where
  holds := Process.Busy
  left := Process.stepsLeft
  preserved _ event busy _ := busy.step config mode parsers event
  lowers _ _ _ due := stepsLeft_step_lt config mode parsers due
  waits self _ left := self.exists_due left

/-- A process at rest has no job, has reported everybody a job was started for, and counts
only people without one. -/
structure AtRest (shown : List (Option Observation)) (rest : Process) : Prop where
  /-- No job is left. -/
  jobs : rest.jobs = []
  /-- Everybody a job was started for has been reported once. -/
  reported : (startedPeople shown).Perm (reportedPeople shown)
  /-- Those reported as successes are those whose summary was taken. -/
  published : rest.publishedPeople.Perm (successes shown)
  /-- Only people without a job are counted. -/
  counted : rest.timed.coordinator.activeFilterCount = neverStarted shown
  /-- If every job was started, windows are accepted. -/
  accepts : neverStarted shown = 0 → rest.timed.coordinator.AcceptsWindows config

/-- A reached process without steps left is at rest. -/
theorem atRest_of_stepsLeft {events : List ProcessEvent}
    (busy : ((process config mode parsers).run .start events).Busy)
    (done : ((process config mode parsers).run .start events).stepsLeft = 0) :
    AtRest config ((process config mode parsers).outputs .start events)
      ((process config mode parsers).run .start events) := by
  have documented := run_documented config mode parsers events
  have count := process_activeFilterCount config mode parsers events
  have jobs := busy.jobs_eq_nil done
  generalize (process config mode parsers).run .start events = rest at *
  generalize (process config mode parsers).outputs .start events = shown at *
  have counted : rest.timed.coordinator.activeFilterCount = neverStarted shown := by
    have nobody : rest.unreported.length = 0 := by
      rw [Process.unreported, jobs]
      rfl
    omega
  refine ⟨jobs, ?_, ?_, counted, ?_⟩
  · have conserved := documented.conserved
    rw [jobs, List.flatMap_nil, List.append_nil] at conserved
    exact conserved
  · have truthful := documented.truthful
    rw [jobs, List.flatMap_nil, List.append_nil] at truthful
    exact truthful
  · intro complete
    apply BatchCoordinator.acceptsWindows_of_idle
    omega

/-- After any run at most a known number of steps of the jobs can follow, in any order; when
no more is due, and in some order that is reached, the process is at rest. -/
theorem jobs_come_to_an_end (events : List ProcessEvent) :
    let reached := (process config mode parsers).run .start events
    (∀ steps, (∀ t ∈ (process config mode parsers).trace reached steps,
        t.before.Due t.event) →
      steps.length ≤ reached.stepsLeft ∧
        ((∀ event, ¬ ((process config mode parsers).run reached steps).Due event) →
          AtRest config ((process config mode parsers).outputs .start (events ++ steps))
            ((process config mode parsers).run reached steps))) ∧
      ∃ steps, (∀ t ∈ (process config mode parsers).trace reached steps,
          t.before.Due t.event) ∧
        AtRest config ((process config mode parsers).outputs .start (events ++ steps))
          ((process config mode parsers).run reached steps) := by
  intro reached
  have preserved (self : Process) (event : ProcessEvent) (busy : self.Busy) :
      ((process config mode parsers).step self event).1.Busy :=
    busy.step config mode parsers event
  have initial : Process.start.Busy := fun _ member => absurd member List.not_mem_nil
  have staffed : reached.Busy :=
    (process config mode parsers).run_invariant preserved initial events
  apply (processDescent config mode parsers).ends staffed fun history rest =>
    AtRest config ((process config mode parsers).outputs .start history) rest
  intro steps _ busy done
  exact atRest_of_stepsLeft config mode parsers busy done

end Runs

end BossWorker.Python
