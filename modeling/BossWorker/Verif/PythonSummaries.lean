import BossWorker.Verif.BatchRunners
import BossWorker.Verif.PythonProcess

/-!
# What the Python process reports and publishes

Everybody a job was started for is reported once or still waits in the `finally` block of the
job. A job reports success exactly after the transport has taken its summary, so the people
of published summaries are those reported as successes, or about to be.
-/

namespace BossWorker.Python

/-- The windows handed over, in order. -/
def attempts (shown : List (Option Observation)) : List Attempt :=
  shown.filterMap fun
    | some (.attempted attempt) => some attempt
    | _ => none

/-- The people jobs are started for, each with the number of its call. -/
def startedPeople (shown : List (Option Observation)) : List (Nat × PersonAvailability) :=
  (attempts shown).zipIdx.flatMap fun call => call.1.started.map fun person => (call.2, person)

/-- The people that jobs report, each with the number of its call. -/
def reportedPeople (shown : List (Option Observation)) : List (Nat × PersonAvailability) :=
  shown.filterMap fun
    | some (.reported batch person _) => some (batch, person)
    | _ => none

/-- The people that jobs report as successes, each with the number of its call. -/
def successes (shown : List (Option Observation)) : List (Nat × PersonAvailability) :=
  shown.filterMap fun
    | some (.reported batch person true) => some (batch, person)
    | _ => none

/-- The people a job has not reported, each with the number of its call. -/
def StartedJob.outstanding (job : StartedJob) : List (Nat × PersonAvailability) :=
  job.remaining.map fun person => (job.batch, person)

/-- The people a job is about to report as successes. -/
def StartedJob.succeeding (job : StartedJob) : List (Nat × PersonAvailability) :=
  match job.stage with
  | .reporting true people => people.map fun person => (job.batch, person)
  | _ => []

/-- The people of published summaries, each with the number of its call. -/
def Process.publishedPeople (self : Process) : List (Nat × PersonAvailability) :=
  self.published.flatMap fun entry =>
    entry.summary.results.map fun result => (entry.batch, result.person.getD {})

/-- What an executor does with a window. -/
def JobSubmissionMode.attempt (mode : JobSubmissionMode) (submission : Submission)
    (starts : Nat → Bool) : Attempt :=
  let submitted := mode.submitWindow submission.chores submission.people starts
  { submission := submission
    started := submitted.1.flatMap Task.people
    outcome := submitted.2 }

/-- A task is one that the call of a number started. -/
def Called (mode : JobSubmissionMode) (shown : List (Option Observation)) (batch : Nat)
    (task : Task) : Prop :=
  ∃ attempt starts, (attempts shown)[batch]? = some attempt ∧
    task ∈ (mode.submitWindow attempt.submission.chores attempt.submission.people starts).1

section Logs

variable (shown : List (Option Observation)) (last : Option Observation)

@[simp] theorem attempts_append (later : List (Option Observation)) :
    attempts (shown ++ later) = attempts shown ++ attempts later := List.filterMap_append

@[simp] theorem reportedPeople_append (later : List (Option Observation)) :
    reportedPeople (shown ++ later) = reportedPeople shown ++ reportedPeople later :=
  List.filterMap_append

@[simp] theorem successes_append (later : List (Option Observation)) :
    successes (shown ++ later) = successes shown ++ successes later := List.filterMap_append

/-- A call stays the call of its number. -/
theorem Called.append {mode : JobSubmissionMode} {shown : List (Option Observation)}
    {batch : Nat} {task : Task} (called : Called mode shown batch task)
    (later : List (Option Observation)) : Called mode (shown ++ later) batch task := by
  obtain ⟨attempt, starts, found, member⟩ := called
  refine ⟨attempt, starts, ?_, member⟩
  have inside := (List.getElem?_eq_some_iff.mp found).1
  rw [attempts_append, List.getElem?_append_left inside, found]

/-- One more call adds its people under the next number. -/
theorem startedPeople_concat (attempt : Attempt) :
    startedPeople (shown ++ [some (.attempted attempt)]) = startedPeople shown ++
      attempt.started.map fun person => ((attempts shown).length, person) := by
  have one : attempts [some (.attempted attempt)] = [attempt] := rfl
  simp only [startedPeople, attempts_append, one, List.zipIdx_append, Nat.zero_add,
    List.flatMap_append, List.zipIdx_singleton, List.flatMap_singleton]

/-- A step that hands nothing over starts no job. -/
theorem startedPeople_concat_of_quiet (quiet : attempts [last] = []) :
    startedPeople (shown ++ [last]) = startedPeople shown := by
  simp only [startedPeople, attempts_append, quiet, List.append_nil]

/-- Successes are reports. -/
theorem successes_sublist : (successes shown).Sublist (reportedPeople shown) := by
  induction shown with
  | nil => exact List.Sublist.refl _
  | cons last shown ih =>
    cases last with
    | none => exact ih
    | some observation =>
      cases observation with
      | attempted attempt => exact ih
      | reported batch person succeeded =>
        cases succeeded with
        | true => exact ih.cons_cons (batch, person)
        | false => exact ih.cons (batch, person)

end Logs

/-- The summary of a task reports on its people, in order. -/
theorem people_of_summary {task : Task} {summary : ChoreFilterSummary}
    (made : task.summary = .ok summary) :
    summary.results.map (fun result => result.person.getD {}) = task.people := by
  cases task with
  | single chores person =>
    rw [Task.summary, BatchRunner.personSummary_eq, Verif.windowSummary_eq_ok_iff] at made
    rw [made.2.2]
    rfl
  | batch chores people =>
    rw [Task.summary, Verif.windowSummary_eq_ok_iff] at made
    rw [made.2.2, List.map_map]
    exact List.map_id people

section Finally

variable (self : Process) {index : Nat} {job : StartedJob} (succeeded : Bool)
  (people : List PersonAvailability)

/-- What the jobs contribute when one of them comes to its `finally` block or goes on in it. -/
theorem Process.finallyReports_perm {β : Type} (part : StartedJob → List β)
    (found : self.jobs[index]? = some job)
    (ended : part { job with stage := .reporting succeeded [] } = []) :
    (part job ++ (self.finallyReports index job succeeded people).jobs.flatMap part).Perm
      (part { job with stage := .reporting succeeded people } ++ self.jobs.flatMap part) := by
  cases people with
  | nil =>
    rw [ended]
    exact flatMap_eraseIdx_perm part found
  | cons person rest => exact flatMap_set_perm part found _

/-- What holds of all jobs and of the one in its `finally` block holds of all afterwards. -/
theorem Process.finallyReports_forall {holds : StartedJob → Prop}
    (all : ∀ job ∈ self.jobs, holds job)
    (fresh : holds { job with stage := .reporting succeeded people }) :
    ∀ other ∈ (self.finallyReports index job succeeded people).jobs, holds other := by
  cases people with
  | nil => exact forall_mem_eraseIdx all index
  | cons person rest => exact forall_mem_set all fresh

/-- The `finally` block publishes nothing and hands nothing over. -/
theorem Process.finallyReports_rest (index : Nat) (job : StartedJob) :
    (self.finallyReports index job succeeded people).published = self.published ∧
      (self.finallyReports index job succeeded people).batches = self.batches := by
  cases people with
  | nil => exact ⟨rfl, rfl⟩
  | cons person rest => exact ⟨rfl, rfl⟩

end Finally

/-- The invariant of the jobs and of what they publish and report. -/
structure Documented (mode : JobSubmissionMode) (state : Process)
    (shown : List (Option Observation)) : Prop where
  /-- Calls are numbered in order. -/
  numbered : state.batches = (attempts shown).length
  /-- Jobs are started by their calls. -/
  called : ∀ job ∈ state.jobs, Called mode shown job.batch job.task
  /-- A summary about to be published is that of the job. -/
  made : ∀ job ∈ state.jobs, ∀ summary, job.stage = .publishing summary →
    job.task.summary = .ok summary
  /-- A published summary is that of a job. -/
  written : ∀ entry ∈ state.published, ∃ task, Called mode shown entry.batch task ∧
    task.summary = .ok entry.summary
  /-- Everybody a job was started for is reported once or outstanding. -/
  conserved : (startedPeople shown).Perm
    (reportedPeople shown ++ state.jobs.flatMap StartedJob.outstanding)
  /-- Published people and successes are the same. -/
  truthful : state.publishedPeople.Perm
    (successes shown ++ state.jobs.flatMap StartedJob.succeeding)

namespace Documented

variable {mode : JobSubmissionMode} {self : Process} {shown : List (Option Observation)}

/-- At first there is nothing to record. -/
theorem start : Documented mode .start [] where
  numbered := rfl
  called _ member := absurd member List.not_mem_nil
  made _ member := absurd member List.not_mem_nil
  written _ member := absurd member List.not_mem_nil
  conserved := List.Perm.refl _
  truthful := List.Perm.refl _

/-- A step that leaves the jobs alone and shows nothing. -/
theorem quiet (documented : Documented mode self shown) (timed : TimedCoordinator) :
    Documented mode { self with timed := timed } (shown ++ [none]) where
  numbered := by
    rw [attempts_append]
    exact documented.numbered.trans (congrArg List.length (List.append_nil _)).symm
  called job member := (documented.called job member).append _
  made := documented.made
  written entry member := by
    obtain ⟨task, called, made⟩ := documented.written entry member
    exact ⟨task, called.append _, made⟩
  conserved := by
    rw [startedPeople_concat_of_quiet shown none rfl, reportedPeople_append]
    exact documented.conserved.trans (List.Perm.append_right _
      (List.Perm.of_eq (List.append_nil _).symm))
  truthful := by
    rw [successes_append]
    exact documented.truthful.trans (List.Perm.append_right _
      (List.Perm.of_eq (List.append_nil _).symm))

/-- A call starts jobs for people of its window. -/
theorem attempted (documented : Documented mode self shown) (timed : TimedCoordinator)
    (submission : Submission) (starts : Nat → Bool) :
    Documented mode
      { self with
        timed := timed
        batches := self.batches + 1
        jobs := self.jobs ++ (mode.submitWindow submission.chores submission.people starts).1.map
          fun task => ⟨self.batches, task, .computing⟩ }
      (shown ++ [some (.attempted (mode.attempt submission starts))]) where
  numbered := by
    rw [attempts_append, List.length_append, ← documented.numbered]
    rfl
  called job member := by
    cases List.mem_append.mp member with
    | inl old => exact (documented.called job old).append _
    | inr new =>
      obtain ⟨task, spawned, rfl⟩ := List.mem_map.mp new
      refine ⟨mode.attempt submission starts, starts, ?_, spawned⟩
      rw [attempts_append, documented.numbered]
      exact List.getElem?_concat_length
  made job member summary stage := by
    cases List.mem_append.mp member with
    | inl old => exact documented.made job old summary stage
    | inr new =>
      obtain ⟨task, _, rfl⟩ := List.mem_map.mp new
      contradiction
  written entry member := by
    obtain ⟨task, called, made⟩ := documented.written entry member
    exact ⟨task, called.append _, made⟩
  conserved := by
    have fresh : ((mode.submitWindow submission.chores submission.people starts).1.map
        fun task => StartedJob.mk self.batches task .computing).flatMap StartedJob.outstanding =
        ((mode.submitWindow submission.chores submission.people starts).1.flatMap
          Task.people).map fun person => (self.batches, person) := by
      rw [List.flatMap_map, List.map_flatMap]
      rfl
    rw [startedPeople_concat, reportedPeople_append, List.flatMap_append, fresh,
      ← documented.numbered]
    have none_reported : reportedPeople
        [some (.attempted (mode.attempt submission starts))] = [] := rfl
    rw [none_reported, List.append_nil, ← List.append_assoc]
    exact documented.conserved.append_right _
  truthful := by
    have fresh : ((mode.submitWindow submission.chores submission.people starts).1.map
        fun task => StartedJob.mk self.batches task .computing).flatMap StartedJob.succeeding =
        [] := by
      rw [List.flatMap_map, List.flatMap_eq_nil_iff]
      exact fun _ _ => rfl
    rw [successes_append, List.flatMap_append, fresh, List.append_nil]
    exact documented.truthful.trans (List.Perm.append_right _
      (List.Perm.of_eq (List.append_nil _).symm))

/-- A job that builds its summary goes on to publish it. -/
theorem built (documented : Documented mode self shown) {index batch : Nat} {task : Task}
    {summary : ChoreFilterSummary}
    (found : self.jobs[index]? = some ⟨batch, task, .computing⟩)
    (made : task.summary = .ok summary) :
    Documented mode { self with jobs := self.jobs.set index ⟨batch, task, .publishing summary⟩ }
      (shown ++ [none]) where
  numbered := (documented.quiet self.timed).numbered
  called := by
    have own := (documented.quiet self.timed).called _ (List.mem_of_getElem? found)
    exact forall_mem_set (documented.quiet self.timed).called own
  made := by
    have fresh : ∀ other, JobStage.publishing summary = .publishing other →
        task.summary = .ok other := by
      intro other same
      rw [← JobStage.publishing.inj same]
      exact made
    exact forall_mem_set documented.made fresh
  written := (documented.quiet self.timed).written
  conserved := by
    have same : ((self.jobs.set index ⟨batch, task, .publishing summary⟩).flatMap
        StartedJob.outstanding).Perm (self.jobs.flatMap StartedJob.outstanding) :=
      flatMap_set_perm_of_eq StartedJob.outstanding found rfl
    exact (documented.quiet self.timed).conserved.trans (same.symm.append_left _)
  truthful := by
    have same : ((self.jobs.set index ⟨batch, task, .publishing summary⟩).flatMap
        StartedJob.succeeding).Perm (self.jobs.flatMap StartedJob.succeeding) :=
      flatMap_set_perm_of_eq StartedJob.succeeding found rfl
    exact (documented.quiet self.timed).truthful.trans (same.symm.append_left _)

/-- A job whose batch runner returns or raises comes to its `finally` block; what it has
published is what it will report as successes. -/
theorem ended (documented : Documented mode self shown) {index : Nat} {job : StartedJob}
    (found : self.jobs[index]? = some job) (waiting : job.remaining = job.task.people)
    (unsuccessful : job.succeeding = []) (succeeded : Bool)
    (published : List PublishedSummary)
    (written : ∀ entry ∈ published, Called mode shown entry.batch job.task ∧
      job.task.summary = .ok entry.summary)
    (reports : (published.flatMap fun entry =>
        entry.summary.results.map fun result => (entry.batch, result.person.getD {})) =
      if succeeded then job.task.people.map fun person => (job.batch, person) else []) :
    Documented mode
      (Process.finallyReports { self with published := self.published ++ published } index job
        succeeded job.task.people) (shown ++ [none]) := by
  have before := documented.quiet self.timed
  have own := before.called _ (List.mem_of_getElem? found)
  have rest := Process.finallyReports_rest { self with published := self.published ++ published }
    succeeded job.task.people index job
  refine ⟨?_, ?_, ?_, ?_, ?_, ?_⟩
  · rw [rest.2]
    exact before.numbered
  · exact Process.finallyReports_forall _ succeeded _ before.called own
  · exact Process.finallyReports_forall _ succeeded _ before.made fun _ absent => by contradiction
  · intro entry member
    rw [rest.1] at member
    cases List.mem_append.mp member with
    | inl old => exact before.written entry old
    | inr new =>
      obtain ⟨called, made⟩ := written entry new
      exact ⟨job.task, called.append _, made⟩
  · have moved := Process.finallyReports_perm
      { self with published := self.published ++ published } succeeded job.task.people
      StartedJob.outstanding found rfl
    have same : StartedJob.outstanding
        { job with stage := .reporting succeeded job.task.people } = job.outstanding := by
      rw [StartedJob.outstanding, StartedJob.outstanding, waiting]
      rfl
    rw [same] at moved
    have kept := (List.perm_append_left_iff _).mp moved
    exact before.conserved.trans (kept.symm.append_left _)
  · have empty : StartedJob.succeeding { job with stage := .reporting succeeded [] } = [] := by
      cases succeeded with
      | true => rfl
      | false => rfl
    have moved := Process.finallyReports_perm
      { self with published := self.published ++ published } succeeded job.task.people
      StartedJob.succeeding found empty
    have gained : StartedJob.succeeding
        { job with stage := .reporting succeeded job.task.people } =
          if succeeded then job.task.people.map fun person => (job.batch, person) else [] := by
      cases succeeded with
      | true => rfl
      | false => rfl
    rw [unsuccessful, List.nil_append, gained] at moved
    rw [Process.publishedPeople, rest.1, List.flatMap_append, reports]
    have earlier := before.truthful.append_right
      (if succeeded then job.task.people.map fun person => (job.batch, person) else [])
    refine earlier.trans ?_
    rw [List.append_assoc]
    exact (List.perm_append_comm.trans moved.symm).append_left _

/-- A job that reports a person goes on with the others. -/
theorem reported (documented : Documented mode self shown) {index batch : Nat} {task : Task}
    {succeeded : Bool} {person : PersonAvailability} {rest : List PersonAvailability}
    (found : self.jobs[index]? = some ⟨batch, task, .reporting succeeded (person :: rest)⟩)
    (timed : TimedCoordinator) :
    Documented mode
      (Process.finallyReports { self with timed := timed } index
        ⟨batch, task, .reporting succeeded (person :: rest)⟩ succeeded rest)
      (shown ++ [some (.reported batch person succeeded)]) := by
  have kept := Process.finallyReports_rest { self with timed := timed } succeeded rest index
    ⟨batch, task, .reporting succeeded (person :: rest)⟩
  have none_started : attempts [some (.reported batch person succeeded)] = [] := rfl
  have own := documented.called _ (List.mem_of_getElem? found)
  refine ⟨?_, ?_, ?_, ?_, ?_, ?_⟩
  · rw [kept.2, attempts_append, none_started, List.append_nil]
    exact documented.numbered
  · have called : ∀ job ∈ self.jobs,
        Called mode (shown ++ [some (.reported batch person succeeded)]) job.batch job.task :=
      fun job member => (documented.called job member).append _
    exact Process.finallyReports_forall _ succeeded _ called (own.append _)
  · exact Process.finallyReports_forall _ succeeded _ documented.made
      fun _ absent => by contradiction
  · intro entry member
    rw [kept.1] at member
    obtain ⟨task, called, made⟩ := documented.written entry member
    exact ⟨task, called.append _, made⟩
  · have moved := Process.finallyReports_perm { self with timed := timed } succeeded rest
      StartedJob.outstanding found rfl
    have split : StartedJob.outstanding ⟨batch, task, .reporting succeeded (person :: rest)⟩ =
        (batch, person) ::
          StartedJob.outstanding ⟨batch, task, .reporting succeeded rest⟩ := rfl
    rw [split, List.cons_append] at moved
    have left : ((batch, person) :: (Process.finallyReports { self with timed := timed } index
        ⟨batch, task, .reporting succeeded (person :: rest)⟩ succeeded rest).jobs.flatMap
          StartedJob.outstanding).Perm (self.jobs.flatMap StartedJob.outstanding) := by
      refine (List.perm_append_left_iff (StartedJob.outstanding
        ⟨batch, task, .reporting succeeded rest⟩)).mp ?_
      exact List.perm_middle.trans moved
    rw [startedPeople_concat_of_quiet shown _ none_started, reportedPeople_append,
      List.append_assoc]
    exact documented.conserved.trans (left.symm.append_left _)
  · have empty : StartedJob.succeeding ⟨batch, task, .reporting succeeded []⟩ = [] := by
      cases succeeded with
      | true => rfl
      | false => rfl
    have moved := Process.finallyReports_perm { self with timed := timed } succeeded rest
      StartedJob.succeeding found empty
    have split : StartedJob.succeeding ⟨batch, task, .reporting succeeded (person :: rest)⟩ =
        successes [some (.reported batch person succeeded)] ++
          StartedJob.succeeding ⟨batch, task, .reporting succeeded rest⟩ := by
      cases succeeded with
      | true => rfl
      | false => rfl
    rw [split, List.append_assoc] at moved
    have left : (successes [some (.reported batch person succeeded)] ++
        (Process.finallyReports { self with timed := timed } index
          ⟨batch, task, .reporting succeeded (person :: rest)⟩ succeeded rest).jobs.flatMap
            StartedJob.succeeding).Perm (self.jobs.flatMap StartedJob.succeeding) := by
      refine (List.perm_append_left_iff (StartedJob.succeeding
        ⟨batch, task, .reporting succeeded rest⟩)).mp ?_
      exact (List.perm_append_comm_assoc _ _ _).trans moved
    rw [Process.publishedPeople, kept.1, successes_append, List.append_assoc]
    exact documented.truthful.trans (left.symm.append_left _)

/-- Every step keeps the record. -/
theorem step (documented : Documented mode self shown) (config : OrchestratorConfig)
    (parsers : Parsers) (event : ProcessEvent) :
    Documented mode ((process config mode parsers).step self event).1
      (shown ++ [((process config mode parsers).step self event).2]) := by
  have step := process_processStep config mode parsers self event
  generalize (process config mode parsers).step self event = after at step
  cases step with
  | idle uncalled undue unfired => exact documented.quiet self.timed
  | called given => exact documented.quiet _
  | flushed found answer => exact documented.quiet _
  | @attempted index now starts timer submission found answer =>
    exact documented.attempted _ submission starts
  | built found made => exact documented.built found made
  | @raised index batch task error found failed =>
    have nothing : ({ self with published := self.published ++ [] } : Process) = self := by
      rw [List.append_nil]
    have ended := documented.ended found rfl rfl false []
      (fun _ absent => absurd absent List.not_mem_nil) rfl
    rw [nothing] at ended
    exact ended
  | @published index batch task summary taken found =>
    have listed := List.mem_of_getElem? found
    have made := documented.made _ listed summary rfl
    refine documented.ended found rfl rfl taken _ ?_ ?_
    · intro entry member
      cases taken with
      | true =>
        rw [List.mem_singleton.mp member]
        exact ⟨documented.called _ listed, made⟩
      | false => exact absurd member List.not_mem_nil
    · cases taken with
      | true =>
        have people := people_of_summary made
        simp only [if_true, List.flatMap_singleton, ← people, List.map_map]
        rfl
      | false => rfl
  | reported found => exact documented.reported found _

end Documented

section Runs

variable (config : OrchestratorConfig) (mode : JobSubmissionMode) (parsers : Parsers)
  (events : List ProcessEvent)

/-- Every run is documented. -/
theorem run_documented : Documented mode ((process config mode parsers).run .start events)
    ((process config mode parsers).outputs .start events) := by
  apply (process config mode parsers).run_history
    (fun _ state trace => Documented mode state (trace.map Transition.output)) Documented.start
  intro before event documented
  rw [List.map_append, List.map_singleton]
  exact documented.step config parsers event

/-- The people of published summaries are people jobs were started for. -/
theorem publishedPeople_subperm :
    (((process config mode parsers).run .start events).publishedPeople).Subperm
      (startedPeople ((process config mode parsers).outputs .start events)) := by
  have documented := run_documented config mode parsers events
  generalize (process config mode parsers).run .start events = reached at documented ⊢
  generalize (process config mode parsers).outputs .start events = shown at documented ⊢
  have reported := successes_sublist shown
  have waiting : (reached.jobs.flatMap StartedJob.succeeding).Sublist
      (reached.jobs.flatMap StartedJob.outstanding) := by
    apply sublist_flatMap
    intro job _
    unfold StartedJob.succeeding StartedJob.outstanding StartedJob.remaining
    cases job.stage with
    | reporting succeeded people =>
      cases succeeded with
      | true => exact List.Sublist.refl _
      | false => exact List.nil_sublist _
    | _ => exact List.nil_sublist _
  have parts := reported.subperm.append waiting.subperm
  exact (documented.truthful.subperm.trans parts).trans documented.conserved.symm.subperm

/-- Either mode starts jobs for the people of a window and with its chores. -/
theorem mem_submitWindow {chores : Chores} {people : List PersonAvailability}
    {starts : Nat → Bool} {task : Task}
    (member : task ∈ (mode.submitWindow chores people starts).1) :
    task.people.Sublist people ∧
      task.summary = BatchRunner.windowSummary chores task.people := by
  cases mode with
  | perPerson =>
    obtain ⟨unstarted, split, _⟩ := submitWindow_spec people starts
    obtain ⟨person, begun, rfl⟩ := List.mem_map.mp member
    refine ⟨?_, BatchRunner.personSummary_eq chores person⟩
    change [person].Sublist people
    rw [split, List.singleton_sublist]
    exact List.mem_append_left _ begun
  | windowBatch =>
    simp only [JobSubmissionMode.submitWindow, WindowBatchExecutor.submitWindow] at member
    split at member
    · rw [List.mem_singleton.mp member]
      exact ⟨List.Sublist.refl _, rfl⟩
    · exact absurd member List.not_mem_nil

/-- A published summary is built from the chores of its call for people of its window. -/
theorem exists_windowSummary_of_published {entry : PublishedSummary}
    (member : entry ∈ ((process config mode parsers).run .start events).published) :
    ∃ attempt people,
      (attempts ((process config mode parsers).outputs .start events))[entry.batch]? =
          some attempt ∧
        people.Sublist attempt.submission.people ∧
        BatchRunner.windowSummary attempt.submission.chores people = .ok entry.summary := by
  have documented := run_documented config mode parsers events
  obtain ⟨task, ⟨attempt, starts, found, spawned⟩, made⟩ := documented.written entry member
  have own := mem_submitWindow mode spawned
  refine ⟨attempt, task.people, found, own.1, ?_⟩
  rw [← own.2]
  exact made

/-- Every published summary is the one that the batch runner builds from the chores of its
call for people of its window, in their order. It is published for people a job was started
for, at most once for each of them, and they are exactly those reported as successes or about
to be. -/
theorem published_summaries_truthful :
    let reached := (process config mode parsers).run .start events
    let shown := (process config mode parsers).outputs .start events
    (∀ entry ∈ reached.published, ∃ attempt people,
        (attempts shown)[entry.batch]? = some attempt ∧
          people.Sublist attempt.submission.people ∧
          BatchRunner.windowSummary attempt.submission.chores people = .ok entry.summary) ∧
      reached.publishedPeople.Subperm (startedPeople shown) ∧
      reached.publishedPeople.Perm
        (successes shown ++ reached.jobs.flatMap StartedJob.succeeding) := by
  intro reached shown
  have documented := run_documented config mode parsers events
  have within := publishedPeople_subperm config mode parsers events
  refine ⟨?_, within, documented.truthful⟩
  exact fun entry member => exists_windowSummary_of_published config mode parsers events member

end Runs

end BossWorker.Python
