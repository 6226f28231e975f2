import BossWorker.Verif.PythonSummaries

/-!
# How many jobs the Python process has, and for whom

The active count is the number of people who have a job that has not reported them, and of
those whose jobs could not be started. A window is handed over when it is zero, so it never
exceeds the number of threads, jobs of two windows never overlap, and one person whose job
could not be started is the end of all windows.
-/

namespace BossWorker.Python

section Runs

variable (config : OrchestratorConfig) (mode : JobSubmissionMode) (parsers : Parsers)
  (events : List ProcessEvent)

/-- People of the windows handed over whose jobs were never started. -/
def neverStarted (shown : List (Option Observation)) : Nat :=
  ((attempts shown).map fun attempt => attempt.unstarted.length).sum

/-- People whose jobs were never started, from what is handed over and started. -/
theorem neverStarted_eq (shown : List (Option Observation)) :
    neverStarted shown = ((shown.flatMap Observation.started).map fun pair =>
      (pair.1.people.drop pair.2.length).length).sum := by
  induction shown with
  | nil => rfl
  | cons last shown ih =>
    cases last with
    | none => exact ih
    | some observation =>
      cases observation with
      | reported batch person succeeded => exact ih
      | attempted attempt =>
        have first : neverStarted (some (.attempted attempt) :: shown) =
            attempt.unstarted.length + neverStarted shown := rfl
        rw [first, ih]
        rfl

/-- The same number from the coordinator with its jobs. -/
theorem leaked_eq (trace : List (Transition EmployedCoordinator JobEvent (Option Attempt))) :
    leaked trace = (((trace.map Transition.output).flatMap started).map fun pair =>
      (pair.1.people.drop pair.2.length).length).sum := by
  induction trace with
  | nil => rfl
  | cons step trace ih =>
    have first : leaked (step :: trace) = missed step.output + leaked trace := rfl
    rw [first, ih, List.map_cons, List.flatMap_cons, List.map_append, List.sum_append]
    cases step.output with
    | none => rfl
    | some attempt => rfl

/-- The active count is the number of people not reported and of those never started. -/
theorem process_activeFilterCount :
    let reached := (process config mode parsers).run .start events
    reached.timed.coordinator.activeFilterCount = (reached.unreported.length +
      neverStarted ((process config mode parsers).outputs .start events) : Nat) := by
  intro reached
  have initial : Accounted .new 0 := rfl
  have image : reached.employed = (employedCoordinator config).run .new
      (employedExplanation config mode parsers events) :=
    (employedRefinement config mode parsers).image_run trivial events
  have shown : ((process config mode parsers).outputs .start events).flatMap
      Observation.started = ((employedCoordinator config).outputs .new
        (employedExplanation config mode parsers events)).flatMap started :=
    (employedRefinement config mode parsers).shown_outputs trivial events
  have counted := run_accounted config initial (employedExplanation config mode parsers events)
  rw [← image, leaked_eq, ← Machine.outputs, ← shown, ← neverStarted_eq, Nat.zero_add] at counted
  rw [Nat.cast_add]
  exact counted

/-- A call keeps the open window keyed. -/
theorem timedCoordinator_keyed {self : TimedCoordinator} (keyed : self.coordinator.Keyed)
    (call : TimedEvent) : ((timedCoordinator config).step self call).1.coordinator.Keyed := by
  have stepped := timedCoordinator_step config self call
  generalize (timedCoordinator config).step self call = result at stepped
  have fresh (now : Monotonic) (ident : Nat) :
      (BatchCoordinator.openWindow config now ident).Keyed :=
    fun entry member => absurd member List.not_mem_nil
  cases stepped with
  | other event coordinator same => exact fun window found => keyed window (same ▸ found)
  | joined person now started window current =>
    intro after found
    have last : window.joined person now = after := Option.some.inj found
    rw [← last]
    exact (keyed window current).joined person now
  | opened person now absent coordinator current =>
    intro after found
    have last := Option.some.inj (current.symm.trans found)
    rw [← last]
    exact (fresh now self.nextIdent).joined person now
  | refused person now absent coordinator current =>
    intro after found
    have last := Option.some.inj (current.symm.trans found)
    rw [← last]
    exact fresh now self.nextIdent
  | fired index now timer found =>
    intro after still
    have closed := self.coordinator.flushCurrentWindow_currentWindow config now
    exact absurd (still.symm.trans closed) (Option.some_ne_none after)

/-- A window is submitted for at most as many people as there are threads. -/
theorem BatchCoordinator.length_submission_le (self : BatchCoordinator) (chores : Chores)
    (window : PersonWindow) (room : 0 ≤ config.numThreads) :
    (self.submission config chores window).people.length ≤ config.numThreads.toNat := by
  rw [BatchCoordinator.submission, List.length_map, BatchCoordinator.selection,
    BatchCoordinator.choosePeopleToRunLocked, OrchestratorConfig.maxActiveFilters,
    sliceTo_of_nonneg _ room]
  exact List.length_take_le _ _

/-- No call counts more people than there are threads. -/
theorem timedCoordinator_within (room : 0 ≤ config.numThreads) {self : TimedCoordinator}
    (within : self.coordinator.activeFilterCount ≤ config.numThreads) (call : TimedEvent) :
    ((timedCoordinator config).step self call).1.coordinator.activeFilterCount ≤
      config.numThreads := by
  cases call with
  | chores chores now => exact within
  | prune now => exact within
  | person person now started =>
    have kept := self.coordinator.receivePerson_activeFilterCount config person now
      self.nextIdent started
    simp only [timedCoordinator, TimedCoordinator.receivePerson]
    cases self.coordinator.currentWindow with
    | none => exact kept.trans_le within
    | some window => exact kept.trans_le within
  | complete person succeeded now =>
    change (if self.coordinator.activeFilterCount - 1 < 0 then 0
      else self.coordinator.activeFilterCount - 1) ≤ config.numThreads
    split <;> omega
  | fire index now =>
    cases found : self.outstanding[index]? with
    | none =>
      change (self.fire config index now).1.coordinator.activeFilterCount ≤ config.numThreads
      rw [TimedCoordinator.fire_of_none config found]
      exact within
    | some timer =>
      change (self.fire config index now).1.coordinator.activeFilterCount ≤ config.numThreads
      rw [(TimedCoordinator.fire_of_some config found now).1]
      have outcome := self.coordinator.flushCurrentWindow_flushed config now
      generalize self.coordinator.flushCurrentWindow config now = result at outcome
      cases outcome with
      | absent closed => exact within
      | dropped window opened refused => exact within
      | accepted window chores opened latest pending idle =>
        have counted := self.coordinator.accepted_activeFilterCount config now window chores
        have taken := self.coordinator.length_submission_le config chores window room
        simp only
        omega

/-- A window is handed over only when nobody is counted, and names nobody twice. -/
theorem BatchCoordinator.handed_over {self : BatchCoordinator} (keyed : self.Keyed)
    {now : Monotonic} {submission : Submission}
    (handed : (self.flushCurrentWindow config now).2 = some submission) :
    self.activeFilterCount ≤ 0 ∧ submission.personIds.Nodup := by
  have outcome := self.flushCurrentWindow_flushed config now
  generalize self.flushCurrentWindow config now = result at outcome handed
  cases outcome with
  | absent closed => contradiction
  | dropped window opened refused => contradiction
  | accepted window chores opened latest pending idle =>
    refine ⟨idle, ?_⟩
    have distinct : (window.pendingPeople.values.map fun pending =>
        pending.message.personId).Nodup := by
      rw [(keyed window opened).map_personId_values]
      exact window.pendingPeople.keys_nodup
    rw [← Option.some.inj handed, submission_personIds, selection, choosePeopleToRunLocked,
      sliceTo]
    split
    · exact nodup_map_take_sortByKey _ _ _ _ distinct
    · exact nodup_map_take_sortByKey _ _ _ _ distinct

/-- A step of the process that hands a window over. -/
theorem ProcessStep.handed {self after : Process} {event : ProcessEvent} {attempt : Attempt}
    (step : ProcessStep config mode parsers self event (after, some (.attempted attempt)))
    (keyed : self.timed.coordinator.Keyed) :
    self.timed.coordinator.activeFilterCount ≤ 0 ∧
      (attempt.started.map PersonAvailability.personId).Nodup := by
  cases step with
  | @attempted index now starts timer submission found answer =>
    have flush := TimedCoordinator.fire_of_some config found now
    rw [flush.2, Answer.flushed.injEq] at answer
    have handed := BatchCoordinator.handed_over config keyed answer.2
    refine ⟨handed.1, ?_⟩
    obtain ⟨unstarted, split, _⟩ := submitWindow_spec submission.people
      (mode.threadStarts starts)
    have first := List.sublist_append_left
      (submitWindow submission.people (mode.threadStarts starts)).1 unstarted
    rw [← split] at first
    change ((mode.submitWindow submission.chores submission.people starts).1.flatMap
      Task.people |>.map PersonAvailability.personId).Nodup
    rw [submitWindow_started]
    exact handed.2.sublist (first.map _)

/-- Every call starts jobs for distinct people. -/
theorem run_keyed_distinct :
    ((process config mode parsers).run .start events).timed.coordinator.Keyed ∧
      ∀ attempt ∈ attempts ((process config mode parsers).outputs .start events),
        (attempt.started.map PersonAvailability.personId).Nodup := by
  apply (process config mode parsers).run_history
    (fun _ state trace => state.timed.coordinator.Keyed ∧
      ∀ attempt ∈ attempts (trace.map Transition.output),
        (attempt.started.map PersonAvailability.personId).Nodup)
  · exact ⟨fun window absent => absurd absent.symm (Option.some_ne_none window),
      fun attempt absent => absurd absent List.not_mem_nil⟩
  intro before event earlier
  have step := process_processStep config mode parsers
    ((process config mode parsers).run .start before) event
  have timed := (process_explainTimed config mode parsers
    ((process config mode parsers).run .start before) event).1
  generalize (process config mode parsers).run .start before = state at *
  generalize (process config mode parsers).step state event = result at *
  constructor
  · have preserved (self : TimedCoordinator) (call : TimedEvent)
        (keyed : self.coordinator.Keyed) :
        ((timedCoordinator config).step self call).1.coordinator.Keyed :=
      timedCoordinator_keyed config keyed call
    rw [timed]
    exact (timedCoordinator config).run_invariant preserved earlier.1 _
  · rw [List.map_append, attempts_append, List.forall_mem_append]
    refine ⟨earlier.2, ?_⟩
    intro attempt member
    cases result with
    | mk after shown =>
      cases shown with
      | none => exact absurd member List.not_mem_nil
      | some observation =>
        cases observation with
        | reported batch person succeeded => exact absurd member List.not_mem_nil
        | attempted other =>
          rw [List.mem_singleton.mp member]
          exact (step.handed config mode parsers earlier.1).2

/-- A job is started for nobody twice in one call. -/
theorem startedPeople_nodup :
    ((startedPeople ((process config mode parsers).outputs .start events)).map
      fun pair => (pair.1, pair.2.personId)).Nodup := by
  apply nodup_map_flatMap_zipIdx Attempt.started PersonAvailability.personId
  exact (run_keyed_distinct config mode parsers events).2

/-- People of jobs that have not reported them, with and without the numbers of the calls. -/
theorem length_outstanding (self : Process) :
    (self.jobs.flatMap StartedJob.outstanding).length = self.unreported.length := by
  have same : self.jobs.flatMap StartedJob.outstanding = self.jobs.flatMap fun job =>
      job.remaining.map fun person => (job.batch, person) := rfl
  rw [same, Process.unreported, List.length_flatMap, List.length_flatMap]
  simp only [List.length_map]

/-- No call starts a job for anybody twice, and everybody started is reported once or still
outstanding. The active count is the number of people outstanding and of those whose jobs
were never started, within the number of threads. A window is handed over only when everybody
started so far has been reported and nobody was ever left without a job. -/
theorem people_reported_once :
    let reached := (process config mode parsers).run .start events
    let shown := (process config mode parsers).outputs .start events
    ((startedPeople shown).map fun pair => (pair.1, pair.2.personId)).Nodup ∧
      (startedPeople shown).Perm
        (reportedPeople shown ++ reached.jobs.flatMap StartedJob.outstanding) ∧
      reached.timed.coordinator.activeFilterCount =
        ((reached.jobs.flatMap StartedJob.outstanding).length + neverStarted shown : Nat) ∧
      (0 ≤ config.numThreads →
        reached.timed.coordinator.activeFilterCount ≤ config.numThreads) ∧
      ∀ earlier attempt later, shown = earlier ++ some (.attempted attempt) :: later →
        (startedPeople earlier).Perm (reportedPeople earlier) ∧ neverStarted earlier = 0 := by
  intro reached shown
  have documented := run_documented config mode parsers events
  refine ⟨startedPeople_nodup config mode parsers events, documented.conserved, ?_, ?_, ?_⟩
  · rw [length_outstanding]
    exact process_activeFilterCount config mode parsers events
  · intro room
    have initial : TimedCoordinator.new.coordinator.activeFilterCount ≤ config.numThreads := room
    have timed : reached.timed = (timedCoordinator config).run .new
        ((timedRefinement config mode parsers).explained .start events) :=
      (timedRefinement config mode parsers).image_run trivial events
    have preserved (self : TimedCoordinator) (call : TimedEvent)
        (within : self.coordinator.activeFilterCount ≤ config.numThreads) :
        ((timedCoordinator config).step self call).1.coordinator.activeFilterCount ≤
          config.numThreads := timedCoordinator_within config room within call
    rw [timed]
    exact (timedCoordinator config).run_invariant preserved initial _
  · intro earlier attempt later split
    obtain ⟨first, event, rest, _, before, answer⟩ :=
      (process config mode parsers).exists_of_outputs_eq split
    have step := process_processStep config mode parsers
      ((process config mode parsers).run .start first) event
    have count := process_activeFilterCount config mode parsers first
    have conserved := (run_documented config mode parsers first).conserved
    have keyed := run_keyed_distinct config mode parsers first
    rw [before] at count conserved
    generalize (process config mode parsers).run .start first = state at *
    generalize (process config mode parsers).step state event = result at *
    have handed : ProcessStep config mode parsers state event
        (result.1, some (.attempted attempt)) := by
      rw [← answer]
      exact step
    have idle := (handed.handed config mode parsers keyed.1).1
    have nobody : state.unreported.length = 0 := by omega
    rw [← length_outstanding, List.length_eq_zero_iff] at nobody
    rw [nobody, List.append_nil] at conserved
    exact ⟨conserved, by omega⟩

end Runs

end BossWorker.Python
