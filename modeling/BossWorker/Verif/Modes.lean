import BossWorker.Rust.Executor
import BossWorker.Verif.Coordinator
import Mathlib.Algebra.BigOperators.Group.List.Basic

/-!
# The two submission modes against each other

When the transport takes every summary, the tasks of one window report the same results,
totals and completions in either mode, in whatever order they end. A successful completion
only lowers the count, so the order of their receipt does not matter either.
-/

namespace BossWorker.Rust

/-- The transport that takes every summary. -/
def publishes (_ : ChoreFilterSummary) : Bool := true

/-- The summaries that tasks publish, in the order in which the tasks end. -/
def summaries (finished : List Task) : List ChoreFilterSummary :=
  finished.flatMap fun task => (task.run publishes).published

/-- The completions that tasks deliver, in the order in which the tasks end. -/
def completions (finished : List Task) : List PersonJobCompletion :=
  finished.flatMap fun task => task.completions (task.run publishes).succeeded

/-- The request of a person's job. -/
def jobRequest (chores : Chores) (person : PersonAvailability) : ChoreFilterRequest :=
  BatchRunner.buildChoreFilterRequest (BatchRunner.filterId chores person) chores person

/-- The answer to a person's job, which always carries a person and chores. -/
def jobResult (chores : Chores) (person : PersonAvailability) : ChoreFilterResult :=
  (processChoreFilterRequest (jobRequest chores person)).get
    (processChoreFilterRequest_isSome rfl rfl)

/-- The completion of a person whose job succeeded. -/
def success (person : PersonAvailability) : PersonJobCompletion := ⟨person.personId, true⟩

section Runs

variable (chores : Chores) (people : List PersonAvailability)

/-- A person's job is answered. -/
theorem processChoreFilterRequest_jobRequest (person : PersonAvailability) :
    processChoreFilterRequest (jobRequest chores person) = some (jobResult chores person) :=
  (Option.some_get _).symm

/-- The task of one person publishes a summary of one result. -/
theorem run_single (person : PersonAvailability) : (Task.single chores person).run publishes =
    ⟨[BatchRunner.buildSummary chores.choresId chores.context [jobResult chores person]],
      true⟩ := by
  have answered := processChoreFilterRequest_jobRequest chores person
  unfold jobRequest at answered
  simp only [Task.run, BatchRunner.runChoreFilter, answered, BatchRunner.publishSummary,
    publishes, if_true]

/-- The task of a window publishes a summary of all results. -/
theorem run_batch : (Task.batch chores people).run publishes =
    ⟨[BatchRunner.buildSummary chores.choresId chores.context
      (people.map (jobResult chores))], true⟩ := by
  have answered : people.mapM (fun person => processChoreFilterRequest
      (BatchRunner.buildChoreFilterRequest (BatchRunner.filterId chores person) chores
        person)) = some (people.map (jobResult chores)) := by
    have each := funext (processChoreFilterRequest_jobRequest chores)
    unfold jobRequest at each
    rw [each]
    exact List.mapM_pure
  simp only [Task.run, BatchRunner.runChoreFilterWindow, answered, BatchRunner.publishSummary,
    publishes, if_true]

/-- The tasks of single people publish a summary each. -/
theorem summaries_perPerson :
    summaries (JobSubmissionMode.perPerson.submitWindow chores people) =
      people.map fun person => BatchRunner.buildSummary chores.choresId chores.context
        [jobResult chores person] := by
  simp only [summaries, JobSubmissionMode.submitWindow, PerPersonExecutor.submitWindow,
    List.flatMap_map, run_single]
  exact List.map_eq_flatMap.symm

/-- The task of the window publishes one summary. -/
theorem summaries_windowBatch :
    summaries (JobSubmissionMode.windowBatch.submitWindow chores people) =
      [BatchRunner.buildSummary chores.choresId chores.context
        (people.map (jobResult chores))] := by
  simp only [summaries, JobSubmissionMode.submitWindow, WindowBatchExecutor.submitWindow,
    List.flatMap_cons, List.flatMap_nil, List.append_nil, run_batch]

/-- Either mode delivers one successful completion for each person. -/
theorem completions_submitWindow (mode : JobSubmissionMode) :
    completions (mode.submitWindow chores people) = people.map success := by
  cases mode with
  | perPerson =>
    simp only [completions, JobSubmissionMode.submitWindow, PerPersonExecutor.submitWindow,
      List.flatMap_map, run_single, Task.completions, Task.people, List.map_cons, List.map_nil]
    exact List.map_eq_flatMap.symm
  | windowBatch =>
    simp only [completions, JobSubmissionMode.submitWindow, WindowBatchExecutor.submitWindow,
      List.flatMap_cons, List.flatMap_nil, List.append_nil, run_batch, Task.completions,
      Task.people]
    rfl

/-- As many ones as there are people sum up to the word of their number. -/
theorem sum_map_one {α : Type} (items : List α) :
    (items.map fun _ => (1 : UInt32)).sum = UInt32.ofNat items.length := by
  induction items with
  | nil => rfl
  | cons item items ih =>
    rw [List.map_cons, List.sum_cons, ih, List.length_cons, UInt32.ofNat_add, UInt32.add_comm]
    rfl

/-- The single summaries count as many people as the summary of the window. -/
theorem sum_totalPeopleEvaluated :
    ((people.map fun person => BatchRunner.buildSummary chores.choresId chores.context
        [jobResult chores person]).map ChoreFilterSummary.totalPeopleEvaluated).sum =
      (BatchRunner.buildSummary chores.choresId chores.context
        (people.map (jobResult chores))).totalPeopleEvaluated := by
  have counted := sum_map_one people
  rw [List.map_map]
  simp only [BatchRunner.buildSummary, List.length_map, ← counted]
  rfl

/-- The single summaries count as many chores as the summary of the window. -/
theorem sum_totalChoresAccepted :
    ((people.map fun person => BatchRunner.buildSummary chores.choresId chores.context
        [jobResult chores person]).map ChoreFilterSummary.totalChoresAccepted).sum =
      (BatchRunner.buildSummary chores.choresId chores.context
        (people.map (jobResult chores))).totalChoresAccepted := by
  rw [List.map_map]
  simp only [BatchRunner.buildSummary, List.map_map]
  congr 1
  apply List.map_congr_left
  intro person _
  simp

end Runs

/-- The coordinator after the receipt of completions. -/
def BatchCoordinator.consume (state : BatchCoordinator)
    (delivered : List PersonJobCompletion) : BatchCoordinator :=
  delivered.foldl BatchCoordinator.onPersonComplete state

/-- Successful completions of as many people as are active leave nobody active and change
nothing else. -/
theorem BatchCoordinator.consume_success {state : BatchCoordinator}
    {delivered : List PersonJobCompletion}
    (succeeded : ∀ completion ∈ delivered, completion.succeeded = true)
    (active : state.activeFilterCount = delivered.length) :
    state.consume delivered = { state with activeFilterCount := 0 } := by
  induction delivered generalizing state with
  | nil =>
    rw [List.length_nil] at active
    rw [← active]
    rfl
  | cons completion delivered ih =>
    have won := succeeded completion List.mem_cons_self
    have rest := fun other member => succeeded other (List.mem_cons_of_mem completion member)
    rw [List.length_cons] at active
    have next : state.onPersonComplete completion =
        { state with activeFilterCount := delivered.length } := by
      simp only [onPersonComplete, won, if_true, active]
      rfl
    change (state.onPersonComplete completion).consume delivered = _
    rw [next, ih rest rfl]

/-- A call counts the people it submits. -/
theorem BatchCoordinator.activeFilterCount_of_submitted {config : OrchestratorConfig}
    {state : BatchCoordinator} {now : Instant} {order : Enumeration PendingPerson}
    {submission : Submission}
    (submitted : (state.expireStaleIfIdle config now order).2 = some submission) :
    (state.expireStaleIfIdle config now order).1.activeFilterCount =
      submission.people.length := by
  have outcome := state.flushWindowIfExpired_flushed config now order
  simp only [expireStaleIfIdle] at submitted ⊢
  generalize state.flushWindowIfExpired config now order = flushed at outcome submitted
  cases outcome with
  | waiting idle => contradiction
  | dropped window due refused => contradiction
  | accepted window chores due latest pending idle =>
    cases submitted
    simp only [prunePersonHistory, BatchCoordinator.accepted, foldl_recordSelection, idle,
      Nat.zero_add, submission, List.length_map]

/-- For all chores and people, the single tasks of a window, in whatever order they end,
publish the results, totals, chores id and context of the one task of the window, and both
deliver one success for each person. Consumed in any order after the window was submitted,
the completions of either mode leave the coordinator as it was with nobody active. -/
theorem modes_interchangeable (chores : Chores) (people : List PersonAvailability)
    (finished : List Task)
    (ended : finished.Perm (JobSubmissionMode.perPerson.submitWindow chores people)) :
    ∃ whole, summaries (JobSubmissionMode.windowBatch.submitWindow chores people) = [whole] ∧
      ((summaries finished).flatMap ChoreFilterSummary.results).Perm whole.results ∧
      (∀ summary ∈ whole :: summaries finished,
        summary.choresId = chores.choresId ∧ summary.context = chores.context) ∧
      ((summaries finished).map ChoreFilterSummary.totalPeopleEvaluated).sum =
        whole.totalPeopleEvaluated ∧
      ((summaries finished).map ChoreFilterSummary.totalChoresAccepted).sum =
        whole.totalChoresAccepted ∧
      (completions finished).Perm (people.map success) ∧
      completions (JobSubmissionMode.windowBatch.submitWindow chores people) =
        people.map success ∧
      ∀ (config : OrchestratorConfig) (state : BatchCoordinator) (now : Instant)
        (order : Enumeration PendingPerson) (delivered : List PersonJobCompletion),
        (state.expireStaleIfIdle config now order).2 = some ⟨chores, people⟩ →
        delivered.Perm (completions finished) ∨ delivered.Perm (completions
          (JobSubmissionMode.windowBatch.submitWindow chores people)) →
        (state.expireStaleIfIdle config now order).1.consume delivered =
          { (state.expireStaleIfIdle config now order).1 with activeFilterCount := 0 } := by
  have published : (summaries finished).Perm (people.map fun person =>
      BatchRunner.buildSummary chores.choresId chores.context [jobResult chores person]) := by
    rw [← summaries_perPerson]
    exact ended.flatMap_right _
  have reported : (completions finished).Perm (people.map success) := by
    rw [← completions_submitWindow chores people .perPerson]
    exact ended.flatMap_right _
  refine ⟨_, summaries_windowBatch chores people, ?_, ?_, ?_, ?_, reported,
    completions_submitWindow chores people .windowBatch, ?_⟩
  · have results := published.flatMap_right ChoreFilterSummary.results
    rw [List.flatMap_map] at results
    exact results.trans (List.Perm.of_eq List.map_eq_flatMap.symm)
  · intro summary member
    rcases List.mem_cons.mp member with rfl | single
    · exact ⟨rfl, rfl⟩
    · obtain ⟨person, _, rfl⟩ := List.mem_map.mp (published.mem_iff.mp single)
      exact ⟨rfl, rfl⟩
  · rw [(published.map _).sum_eq]
    exact sum_totalPeopleEvaluated chores people
  · rw [(published.map _).sum_eq]
    exact sum_totalChoresAccepted chores people
  · intro config state now order delivered submitted consumed
    have all : delivered.Perm (people.map success) := by
      rcases consumed with single | whole
      · exact single.trans reported
      · rwa [completions_submitWindow] at whole
    apply BatchCoordinator.consume_success
    · intro completion member
      obtain ⟨person, _, rfl⟩ := List.mem_map.mp (all.mem_iff.mp member)
      rfl
    · rw [BatchCoordinator.activeFilterCount_of_submitted submitted, all.length_eq,
        List.length_map]

/-- Two single tasks that end in the other order report what the task of both reports. -/
theorem modes_interchangeable_reversed :
    let chores : Chores := { choresId := "weekly", chores := [⟨"sweep", "Sweep", 30⟩] }
    let people : List PersonAvailability :=
      [{ personId := "amy", availableMinutes := 60 }, { personId := "bob" }]
    ∃ whole, summaries (JobSubmissionMode.windowBatch.submitWindow chores people) = [whole] ∧
      ((summaries (JobSubmissionMode.perPerson.submitWindow chores people).reverse).flatMap
        ChoreFilterSummary.results).Perm whole.results := by
  intro chores people
  obtain ⟨whole, published, results, _⟩ :=
    modes_interchangeable chores people _ (List.reverse_perm _)
  exact ⟨whole, published, results⟩

end BossWorker.Rust
