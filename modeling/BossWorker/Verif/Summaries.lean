import BossWorker.Verif.Process

/-!
# What the orchestrator process publishes

Every summary is that of a task that some call spawned, with the answers to the people of
the task. Tasks report success exactly after the transport has taken their summary, so the
people of published summaries are those reported as successes: already received by the
coordinator, still in the channel, or about to be sent.
-/

namespace BossWorker.Rust

/-- The successes among completions, each with the number of its call. -/
def successes (deliveries : List Delivery) : List (Nat × String) :=
  (deliveries.filter fun delivery => delivery.completion.succeeded).map fun delivery =>
    (delivery.batch, delivery.completion.personId)

/-- The completions that a log hands to the coordinator. -/
def consumedDeliveries (log : List Observation) : List Delivery :=
  log.filterMap fun
    | .submitted _ _ => none
    | .consumed delivery => some delivery
    | .pruned _ => none

/-- The people a summary reports on, each with the number of its call. -/
def PublishedSummary.people (entry : PublishedSummary) : List (Nat × String) :=
  entry.summary.results.map fun result => (entry.batch, (result.person.getD {}).personId)

/-- The people of all published summaries. -/
def Process.publishedPeople (self : Process) : List (Nat × String) :=
  self.published.flatMap PublishedSummary.people

/-- The people of a task, each with the number of its call. -/
def Running.people (running : Running) : List (Nat × String) :=
  running.task.people.map fun person => (running.batch, person.personId)

/-- The people of a task that has published and has not reported. -/
def SpawnedTask.succeeding (job : SpawnedTask) : List (Nat × String) :=
  match job.stage with
  | .returned true => job.running.people
  | _ => []

/-- The answers to the people of a task. -/
def Task.answers (task : Task) : List ChoreFilterResult :=
  task.people.map (jobResult task.chores)

/-- A task is one that the call of its number spawned. -/
def Called (mode : JobSubmissionMode) (log : List Observation) (running : Running) : Prop :=
  ∃ submission, (submissions log)[running.batch]? = some submission ∧
    running.task ∈ mode.submitWindow submission.chores submission.people

@[simp] theorem successes_append (first second : List Delivery) :
    successes (first ++ second) = successes first ++ successes second := by
  simp only [successes, List.filter_append, List.map_append]

@[simp] theorem consumedDeliveries_append (log later : List Observation) :
    consumedDeliveries (log ++ later) = consumedDeliveries log ++ consumedDeliveries later :=
  List.filterMap_append

/-- The completions of a task are successes if it succeeded. -/
theorem successes_completions (running : Running) (succeeded : Bool) :
    successes ((running.task.completions succeeded).map fun completion =>
      ⟨running.batch, completion⟩) = if succeeded then running.people else [] := by
  cases succeeded with
  | true => simp [successes, Task.completions, Running.people, List.filter_map, Function.comp_def]
  | false => simp [successes, Task.completions, List.filter_map, Function.comp_def]

/-- The summary of a task reports on its people. -/
theorem people_summary (running : Running) :
    PublishedSummary.people ⟨running.batch, running.task.summary running.task.answers⟩ =
      running.people := by
  simp only [PublishedSummary.people, Task.summary, BatchRunner.buildSummary, Task.answers,
    List.map_map, Running.people]
  rfl

/-- A call stays the call of its number. -/
theorem Called.append {mode : JobSubmissionMode} {log : List Observation} {running : Running}
    (called : Called mode log running) (later : List Observation) :
    Called mode (log ++ later) running := by
  obtain ⟨submission, found, spawned⟩ := called
  refine ⟨submission, ?_, spawned⟩
  have inside := (List.getElem?_eq_some_iff.mp found).1
  rw [submissions_append, List.getElem?_append_left inside, found]

/-- The invariant of the tasks and of what they publish. -/
structure Documented (mode : JobSubmissionMode) (threads : Nat) (state : Process)
    (log : List Observation) : Prop where
  /-- Calls are numbered in order. -/
  numbered : state.batches = (submissions log).length
  /-- Tasks are spawned by their calls. -/
  called : ∀ job ∈ state.jobs, Called mode log job.running
  /-- The results of a task are the answers to its people. -/
  answered : ∀ job ∈ state.jobs, ∀ results, job.stage = .computed results →
    results = job.running.task.answers
  /-- A summary is that of a task. -/
  written : ∀ entry ∈ state.published, ∃ running, Called mode log running ∧
    entry = ⟨running.batch, running.task.summary running.task.answers⟩
  /-- Published people and successes are the same. -/
  truthful : state.publishedPeople.Perm (successes (consumedDeliveries log) ++
    (successes state.queue ++ state.jobs.flatMap SpawnedTask.succeeding))
  /-- No more closures run than the pool has threads. -/
  bounded : state.executing ≤ threads

namespace Documented

variable {mode : JobSubmissionMode} {threads : Nat} {self : Process} {log : List Observation}

/-- At first there is nothing to record. -/
theorem start : Documented mode threads .start [] where
  numbered := rfl
  called _ member := absurd member List.not_mem_nil
  answered _ member := absurd member List.not_mem_nil
  written _ member := absurd member List.not_mem_nil
  truthful := List.Perm.refl _
  bounded := Nat.zero_le _

/-- Another coordinator leaves the record as it is. -/
theorem withCoordinator (documented : Documented mode threads self log)
    (coordinator : BatchCoordinator) :
    Documented mode threads { self with coordinator := coordinator } log :=
  ⟨documented.numbered, documented.called, documented.answered, documented.written,
    documented.truthful, documented.bounded⟩

/-- A task that goes on to another stage without a success. -/
theorem enter (documented : Documented mode threads self log) {index : Nat} {job : SpawnedTask}
    (found : self.jobs[index]? = some job) {stage : JobStage}
    (answered : ∀ results, stage = .computed results → results = job.running.task.answers)
    (quiet : SpawnedTask.succeeding { job with stage := stage } = job.succeeding)
    (room : stage = .executing → self.executing < threads) :
    Documented mode threads (self.enter index job stage) log where
  numbered := documented.numbered
  called := forall_mem_set documented.called (documented.called job (List.mem_of_getElem? found))
  answered := forall_mem_set documented.answered answered
  written := documented.written
  truthful := by
    refine documented.truthful.trans (List.Perm.append_left _ (List.Perm.append_left _ ?_))
    exact (flatMap_set_perm_of_eq SpawnedTask.succeeding found quiet).symm
  bounded := by
    have counted := countP_set_add (fun job => decide (job.stage = .executing)) found
      { job with stage := stage }
    have before := documented.bounded
    unfold Process.executing Process.enter at *
    by_cases starts : stage = .executing
    · have free := room starts
      simp only [starts, decide_true, if_true] at counted ⊢
      omega
    · simp only [starts, decide_false, Bool.false_eq_true, if_false] at counted ⊢
      omega

/-- A task whose summary has been taken. -/
theorem published (documented : Documented mode threads self log) {index : Nat} {running : Running}
    {results : List ChoreFilterResult}
    (found : self.jobs[index]? = some ⟨running, .computed results⟩) :
    Documented mode threads
      (Process.enter
        { self with published :=
            self.published ++ [⟨running.batch, running.task.summary results⟩] }
        index ⟨running, .computed results⟩ (.returned true)) log where
  numbered := documented.numbered
  called := by
    have own := documented.called _ (List.mem_of_getElem? found)
    exact forall_mem_set documented.called own
  answered := forall_mem_set documented.answered fun _ absent => by contradiction
  written entry member := by
    cases List.mem_append.mp member with
    | inl old => exact documented.written entry old
    | inr new =>
      have listed := List.mem_of_getElem? found
      refine ⟨running, documented.called _ listed, ?_⟩
      rw [List.mem_singleton.mp new, documented.answered _ listed results rfl]
  truthful := by
    have listed := List.mem_of_getElem? found
    have answers := documented.answered _ listed results rfl
    simp only [Process.publishedPeople, Process.enter, List.flatMap_append, List.flatMap_cons,
      List.flatMap_nil, List.append_nil, answers, people_summary]
    have replaced := flatMap_set_perm SpawnedTask.succeeding found ⟨running, .returned true⟩
    have moved : (self.jobs.set index ⟨running, .returned true⟩).flatMap
        SpawnedTask.succeeding |>.Perm (running.people ++
          self.jobs.flatMap SpawnedTask.succeeding) := replaced
    have before := documented.truthful.append_right running.people
    refine before.trans ?_
    rw [List.append_assoc, List.append_assoc]
    refine List.Perm.append_left _ (List.Perm.append_left _ ?_)
    exact List.perm_append_comm.trans moved.symm
  bounded := by
    have counted := countP_set_add (fun job => decide (job.stage = .executing)) found
      ⟨running, .returned true⟩
    have before := documented.bounded
    unfold Process.executing Process.enter at *
    simp only [reduceCtorEq, decide_false, Bool.false_eq_true, if_false] at counted ⊢
    omega

/-- A task that sends its completions. -/
theorem reported (documented : Documented mode threads self log) {index : Nat} {running : Running}
    {succeeded : Bool} (found : self.jobs[index]? = some ⟨running, .returned succeeded⟩) :
    Documented mode threads
      { self with
        jobs := self.jobs.eraseIdx index
        queue := self.queue ++ (running.task.completions succeeded).map fun completion =>
          ⟨running.batch, completion⟩ } log where
  numbered := documented.numbered
  called := forall_mem_eraseIdx documented.called index
  answered := forall_mem_eraseIdx documented.answered index
  written := documented.written
  truthful := by
    have removed := flatMap_eraseIdx_perm SpawnedTask.succeeding found
    have own : SpawnedTask.succeeding ⟨running, .returned succeeded⟩ =
        if succeeded then running.people else [] := by
      cases succeeded with
      | true => rfl
      | false => rfl
    rw [own] at removed
    refine documented.truthful.trans (List.Perm.append_left _ ?_)
    rw [successes_append, successes_completions, List.append_assoc]
    exact List.Perm.append_left _ removed.symm
  bounded := by
    have removed := (cons_eraseIdx_perm found).countP_eq
      fun job : SpawnedTask => decide (job.stage = .executing)
    have before := documented.bounded
    rw [List.countP_cons] at removed
    simp only [Process.executing] at before ⊢
    omega

/-- A step of a task or of the pool keeps the record. -/
theorem taskStep (documented : Documented mode threads self log) {event : ProcessEvent}
    {after : Process} (step : TaskStep threads self event after) :
    Documented mode threads after log := by
  cases step with
  | idle undue => exact documented
  | dispatched found =>
    exact documented.enter found (fun _ absent => by contradiction) rfl
      (fun absent => by contradiction)
  | started found free =>
    exact documented.enter found (fun _ absent => by contradiction) rfl (fun _ => free)
  | computed found =>
    exact documented.enter found (fun _ same => (JobStage.computed.inj same).symm) rfl
      (fun absent => by contradiction)
  | published found => exact documented.published found
  | refused found =>
    exact documented.enter found (fun _ absent => by contradiction) rfl
      (fun absent => by contradiction)
  | reported found => exact documented.reported found

/-- A log that submits and consumes nothing more. -/
theorem quiet (documented : Documented mode threads self log) {later : List Observation}
    (submitted : submissions later = []) (consumed : consumedDeliveries later = []) :
    Documented mode threads self (log ++ later) where
  numbered := by rw [submissions_append, submitted, List.append_nil, documented.numbered]
  called job member := (documented.called job member).append later
  answered := documented.answered
  written entry member := by
    obtain ⟨running, called, same⟩ := documented.written entry member
    exact ⟨running, called.append later, same⟩
  truthful := by
    rw [consumedDeliveries_append, consumed, List.append_nil]
    exact documented.truthful
  bounded := documented.bounded

/-- A call spawns the tasks of its window. -/
theorem submitted (documented : Documented mode threads self log) (coordinator : BatchCoordinator)
    (submission : Submission) (now : Instant) :
    Documented mode threads
      { self with
        coordinator := coordinator
        batches := self.batches + 1
        jobs := self.jobs ++ (mode.submitWindow submission.chores submission.people).map
          fun task => ⟨⟨self.batches, task⟩, .spawned⟩ }
      (log ++ [.submitted now submission, .pruned now]) where
  numbered := by
    rw [submissions_append, List.length_append, ← documented.numbered]
    rfl
  called job member := by
    cases List.mem_append.mp member with
    | inl old => exact (documented.called job old).append _
    | inr new =>
      obtain ⟨task, spawned, rfl⟩ := List.mem_map.mp new
      refine ⟨submission, ?_, spawned⟩
      rw [submissions_append, documented.numbered]
      exact List.getElem?_concat_length
  answered job member results stage := by
    cases List.mem_append.mp member with
    | inl old => exact documented.answered job old results stage
    | inr new =>
      obtain ⟨task, _, rfl⟩ := List.mem_map.mp new
      contradiction
  written entry member := by
    obtain ⟨running, called, same⟩ := documented.written entry member
    exact ⟨running, called.append _, same⟩
  truthful := by
    have none_yet : ((mode.submitWindow submission.chores submission.people).map fun task =>
        SpawnedTask.mk ⟨self.batches, task⟩ .spawned).flatMap SpawnedTask.succeeding = [] := by
      rw [List.flatMap_map, List.flatMap_eq_nil_iff]
      exact fun _ _ => rfl
    rw [List.flatMap_append, none_yet, List.append_nil, consumedDeliveries_append]
    have nothing : consumedDeliveries [.submitted now submission, .pruned now] = [] := rfl
    rw [nothing, List.append_nil]
    exact documented.truthful
  bounded := by
    have before := documented.bounded
    have none_yet : ((mode.submitWindow submission.chores submission.people).map fun task =>
        SpawnedTask.mk ⟨self.batches, task⟩ .spawned).countP
          (fun job => decide (job.stage = .executing)) = 0 := by
      rw [List.countP_map, List.countP_eq_zero]
      exact fun _ _ => Bool.false_ne_true
    simp only [Process.executing, List.countP_append, none_yet] at before ⊢
    omega

/-- The receipt of a completion. -/
theorem consumed (documented : Documented mode threads self log) :
    Documented mode threads self.consumed.1 (log ++ self.consumed.2) := by
  unfold Process.consumed
  cases queued : self.queue with
  | nil => exact documented.quiet rfl rfl
  | cons delivery rest =>
    refine ⟨?_, ?_, documented.answered, ?_, ?_, documented.bounded⟩
    · rw [submissions_append]
      exact documented.numbered.trans (congrArg List.length (List.append_nil _)).symm
    · exact fun job member => (documented.called job member).append _
    · intro entry member
      obtain ⟨running, called, same⟩ := documented.written entry member
      exact ⟨running, called.append _, same⟩
    · have before := documented.truthful
      have first : successes (delivery :: rest) = successes [delivery] ++ successes rest :=
        successes_append [delivery] rest
      rw [queued, first, List.append_assoc, ← List.append_assoc, ← successes_append] at before
      rw [consumedDeliveries_append]
      exact before

/-- Every step keeps the record. -/
theorem step (documented : Documented mode threads self log) (alive : self.aborted = false)
    (config : OrchestratorConfig) (decoders : Decoders) (event : ProcessEvent) :
    Documented mode threads ((process config mode decoders threads).step self event).1
      (log ++ ((process config mode decoders threads).step self event).2) := by
  by_cases inner : event.ofTask = true
  · have taken := process_taskStep config mode decoders threads alive inner
    rw [taken.2, List.append_nil]
    exact documented.taskStep taken.1
  · rw [process_step config mode decoders threads alive]
    cases event with
    | choresSample bytes now => exact (documented.withCoordinator _).quiet rfl rfl
    | personSample bytes now => exact (documented.withCoordinator _).quiet rfl rfl
    | receiveError => exact documented.quiet rfl rfl
    | tick now order =>
      simp only [Process.step, Process.ticked]
      cases (self.coordinator.expireStaleIfIdle config now order).2 with
      | none => exact (documented.withCoordinator _).quiet rfl rfl
      | some submission => exact documented.submitted _ submission now
    | consume => exact documented.consumed
    | _ => exact absurd rfl inner

end Documented

/-- One more call of distinct people submits nobody twice. -/
theorem submittedPeople_nodup_append {log later : List Observation} {submission : Submission}
    (before : (submittedPeople log).Nodup) (call : submissions later = [submission])
    (distinct : submission.personIds.Nodup) : (submittedPeople (log ++ later)).Nodup := by
  rw [submittedPeople_append_of_call log call, List.nodup_append]
  refine ⟨before, distinct.map fun _ _ same => (Prod.mk.inj same).2, ?_⟩
  intro person old other new same
  obtain ⟨id, _, rfl⟩ := List.mem_map.mp new
  obtain ⟨earlier, found, _⟩ := mem_submittedPeople old
  have inside := (List.getElem?_eq_some_iff.mp found).1
  rw [same] at inside
  exact Nat.lt_irrefl _ inside

/-- A step submits nobody twice. -/
theorem step_submittedPeople_nodup {config : OrchestratorConfig} {state : Orchestrator}
    {log : List Observation} (account : Orchestrator.Accounted config state log)
    (before : (submittedPeople log).Nodup) (mode : JobSubmissionMode) (event : SystemEvent) :
    (submittedPeople (log ++ ((orchestrator config mode).step state event).2)).Nodup := by
  cases event with
  | tick now order =>
    have outcome := state.coordinator.flushWindowIfExpired_flushed config now order
    simp only [orchestrator, BatchCoordinator.expireStaleIfIdle]
    generalize state.coordinator.flushWindowIfExpired config now order = flushed at outcome
    cases outcome with
    | waiting idle =>
      rw [submittedPeople_append_of_quiet log rfl]
      exact before
    | dropped window due refused =>
      rw [submittedPeople_append_of_quiet log rfl]
      exact before
    | accepted window chores due latest pending idle =>
      have formed := (account.formed window due.opened).1
      apply submittedPeople_nodup_append before rfl
      rw [BatchCoordinator.submission_personIds]
      exact BatchCoordinator.selection_nodup config state.coordinator order formed
  | consume =>
    simp only [orchestrator, Orchestrator.consumed]
    cases state.queue with
    | nil =>
      rw [submittedPeople_append_of_quiet log rfl]
      exact before
    | cons delivery rest =>
      rw [submittedPeople_append_of_quiet log rfl]
      exact before
  | _ =>
    rw [submittedPeople_append_of_quiet log rfl]
    exact before

/-- No interleaving submits anybody twice in one call. -/
theorem submittedPeople_nodup (config : OrchestratorConfig) (mode : JobSubmissionMode)
    (events : List SystemEvent) : (submittedPeople (observations config mode events)).Nodup := by
  have both := (orchestrator config mode).run_history
    (fun _ state trace =>
      Orchestrator.Accounted config state (trace.map Transition.output).flatten ∧
        (submittedPeople (trace.map Transition.output).flatten).Nodup)
    ⟨Orchestrator.run_accounted config mode [], List.nodup_nil⟩ ?_ events
  · exact both.2
  · intro events event before
    simp only [List.map_append, List.map_cons, List.map_nil, List.flatten_append,
      List.flatten_cons, List.flatten_nil, List.append_nil]
    exact ⟨Orchestrator.step_accounted before.1 mode event,
      step_submittedPeople_nodup before.1 before.2 mode event⟩

/-- A task of a call carries the chores of the call. -/
theorem chores_of_mem_submitWindow {mode : JobSubmissionMode} {chores : Chores}
    {people : List PersonAvailability} {task : Task}
    (member : task ∈ mode.submitWindow chores people) : task.chores = chores := by
  cases mode with
  | perPerson =>
    obtain ⟨person, _, rfl⟩ := List.mem_map.mp member
    rfl
  | windowBatch =>
    rw [List.mem_singleton.mp member]
    rfl

/-- The people of a task are people of its window. -/
theorem people_sublist_of_mem_submitWindow {mode : JobSubmissionMode} {chores : Chores}
    {people : List PersonAvailability} {task : Task}
    (spawned : task ∈ mode.submitWindow chores people) : task.people.Sublist people := by
  cases mode with
  | perPerson =>
    obtain ⟨person, member, rfl⟩ := List.mem_map.mp spawned
    exact List.singleton_sublist.mpr member
  | windowBatch =>
    rw [List.mem_singleton.mp spawned]
    exact List.Sublist.refl _

/-- What a process shows to its surroundings, in order. -/
def processLog (config : OrchestratorConfig) (mode : JobSubmissionMode) (decoders : Decoders)
    (threads : Nat) (events : List ProcessEvent) : List Observation :=
  ((process config mode decoders threads).outputs .start events).flatten

section Runs

variable (config : OrchestratorConfig) (mode : JobSubmissionMode) (decoders : Decoders)
  (threads : Nat) (events : List ProcessEvent)

/-- Every run is documented. -/
theorem run_documented :
    Documented mode threads ((process config mode decoders threads).run .start events)
      (processLog config mode decoders threads events) := by
  have documented := (process config mode decoders threads).run_history
    (fun _ state trace => state.aborted = false ∧
      Documented mode threads state (trace.map Transition.output).flatten)
    ⟨rfl, Documented.start⟩ ?_ events
  · exact documented.2
  · intro events event before
    refine ⟨(process_explained config mode decoders threads before.1 event).2.1, ?_⟩
    simp only [List.map_append, List.map_cons, List.map_nil, List.flatten_append,
      List.flatten_cons, List.flatten_nil, List.append_nil]
    exact before.2.step before.1 config decoders event

/-- Every run keeps the account of the step system. -/
theorem process_accounted :
    Orchestrator.Accounted config
      ((process config mode decoders threads).run .start events).orchestrator
      (processLog config mode decoders threads events) := by
  rw [process_image, processLog, process_observations]
  exact Orchestrator.run_accounted config mode _

/-- No more closures run than the pool has threads, and no more tasks exist than a window may
select: all of them come from the most recent call, and the active count is the number of
their people with the completions in the channel. -/
theorem process_within_limits :
    let reached := (process config mode decoders threads).run .start events
    reached.executing ≤ threads ∧
      reached.coordinator.activeFilterCount =
        (reached.jobs.flatMap fun job => job.running.people).length + reached.queue.length ∧
      reached.coordinator.activeFilterCount ≤ config.maxPeoplePerWindow ∧
      (∀ job ∈ reached.jobs, job.running.people ≠ [] →
        job.running.batch + 1 = reached.batches) ∧
      (0 < config.maxPeoplePerWindow → reached.jobs.length ≤ config.maxPeoplePerWindow) := by
  intro reached
  have account := process_accounted config mode decoders threads events
  have documented := run_documented config mode decoders threads events
  have outstanding : reached.orchestrator.outstanding =
      reached.jobs.flatMap (fun job => job.running.people) ++
        reached.queue.map fun delivery => (delivery.batch, delivery.completion.personId) := by
    simp only [Orchestrator.outstanding, Process.orchestrator, List.flatMap_map]
    rfl
  have count : reached.coordinator.activeFilterCount =
      (reached.jobs.flatMap fun job => job.running.people).length + reached.queue.length := by
    have counted := account.count
    rw [outstanding, List.length_append, List.length_map] at counted
    exact counted
  have capacity : reached.coordinator.activeFilterCount ≤ config.maxPeoplePerWindow :=
    account.count.trans_le account.capacity
  refine ⟨documented.bounded, count, capacity, ?_, ?_⟩
  · intro job member staffed
    obtain ⟨person, first⟩ := List.exists_mem_of_ne_nil _ staffed
    have listed : person ∈ reached.orchestrator.outstanding := by
      rw [outstanding, List.mem_append, List.mem_flatMap]
      exact Or.inl ⟨job, member, first⟩
    have latest := account.latest person listed
    obtain ⟨_, _, rfl⟩ := List.mem_map.mp first
    exact latest
  · intro room
    have each : ∀ job ∈ reached.jobs, 1 ≤ job.running.people.length := by
      intro job member
      have staffed := account.staffed room job.running (List.mem_map_of_mem member)
      rw [Running.people, List.length_map]
      exact List.length_pos_iff.mpr staffed
    have fewer := length_le_length_flatMap each
    omega

/-- The people of published summaries have been submitted. -/
theorem publishedPeople_subperm :
    (((process config mode decoders threads).run .start events).publishedPeople).Subperm
      (submittedPeople (processLog config mode decoders threads events)) := by
  generalize reaches : (process config mode decoders threads).run .start events = reached
  have documented := run_documented config mode decoders threads events
  have account := process_accounted config mode decoders threads events
  rw [reaches] at documented account
  generalize processLog config mode decoders threads events = log at documented account
  have consumed : (successes (consumedDeliveries log)).Sublist (consumedPeople log) := by
    have all : consumedPeople log = (consumedDeliveries log).map fun delivery =>
        (delivery.batch, delivery.completion.personId) := by
      rw [consumedPeople, consumedDeliveries, List.map_filterMap]
      apply List.filterMap_congr
      intro observation _
      cases observation with
      | consumed delivery => rfl
      | _ => rfl
    rw [all]
    exact List.filter_sublist.map _
  have queued : (successes reached.queue).Sublist (reached.orchestrator.queue.map fun delivery =>
      (delivery.batch, delivery.completion.personId)) := List.filter_sublist.map _
  have running : (reached.jobs.flatMap SpawnedTask.succeeding).Sublist
      (reached.orchestrator.running.flatMap Running.people) := by
    rw [Process.orchestrator, List.flatMap_map]
    apply sublist_flatMap
    intro job _
    unfold SpawnedTask.succeeding
    split
    · exact List.Sublist.refl _
    · exact List.nil_sublist _
  have parts := consumed.subperm.append (queued.subperm.append running.subperm)
  refine (documented.truthful.subperm.trans parts).trans ?_
  refine ((List.Perm.append_left _ List.perm_append_comm).trans ?_).subperm
  exact account.conserved.symm

/-- A published summary is built from the chores of its call and the answers to the people of
one of its tasks. -/
theorem exists_task_of_published {entry : PublishedSummary}
    (member : entry ∈ ((process config mode decoders threads).run .start events).published) :
    ∃ submission task,
      (submissions (processLog config mode decoders threads events))[entry.batch]? =
          some submission ∧
        task ∈ mode.submitWindow submission.chores submission.people ∧
        entry.summary = BatchRunner.buildSummary submission.chores.choresId
          submission.chores.context (task.people.map (jobResult submission.chores)) := by
  have documented := run_documented config mode decoders threads events
  obtain ⟨running, called, same⟩ := documented.written entry member
  obtain ⟨submission, found, spawned⟩ := called
  refine ⟨submission, running.task, ?_, spawned, ?_⟩
  · rw [same]
    exact found
  · rw [same, Task.summary, Task.answers, chores_of_mem_submitWindow spawned]

/-- Every published summary is the one that the code builds from the chores of its call and
the answers to the people of one of its tasks. Nobody's answer is published twice for one
call, and none is published for people that were not submitted. The people of published
summaries are exactly those reported as successes: to the coordinator, to the channel, or by
a task that is about to report. -/
theorem summaries_truthful :
    let reached := (process config mode decoders threads).run .start events
    let log := processLog config mode decoders threads events
    (∀ entry ∈ reached.published, ∃ submission task,
        (submissions log)[entry.batch]? = some submission ∧
          task ∈ mode.submitWindow submission.chores submission.people ∧
          entry.summary = BatchRunner.buildSummary submission.chores.choresId
            submission.chores.context (task.people.map (jobResult submission.chores))) ∧
      reached.publishedPeople.Nodup ∧
      reached.publishedPeople ⊆ submittedPeople log ∧
      reached.publishedPeople.Perm (successes (consumedDeliveries log) ++
        (successes reached.queue ++ reached.jobs.flatMap SpawnedTask.succeeding)) := by
  intro reached log
  have documented := run_documented config mode decoders threads events
  have within := publishedPeople_subperm config mode decoders threads events
  refine ⟨?_, ?_, within.subset, documented.truthful⟩
  · exact fun entry member => exists_task_of_published config mode decoders threads events member
  · have submitted : (submittedPeople log).Nodup := by
      have shown := process_observations config mode decoders threads events
      simp only [log, processLog, shown]
      exact submittedPeople_nodup config mode _
    obtain ⟨kept, same, sublist⟩ := within
    exact same.nodup_iff.mp (sublist.nodup submitted)

end Runs

end BossWorker.Rust
