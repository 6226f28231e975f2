import BossWorker.Rust.System
import BossWorker.Verif.Coordinator

/-!
# Every submitted person is counted until its completion is consumed

The counter of the coordinator is tied to the tasks still running and the completions
still queued: together they are the people submitted whose completion has not been
consumed. A window is accepted only at a count of zero, so all of them come from the most
recent call. The end of a task moves people from the tasks to the queue and so rearranges
them only; receiving messages does not touch them at all.
-/

namespace BossWorker.Rust

@[simp] theorem submissions_append (log later : List Observation) :
    submissions (log ++ later) = submissions log ++ submissions later :=
  List.filterMap_append

@[simp] theorem consumedPeople_append (log later : List Observation) :
    consumedPeople (log ++ later) = consumedPeople log ++ consumedPeople later :=
  List.filterMap_append

/-- A log that submits nothing more keeps the submitted people. -/
theorem submittedPeople_append_of_quiet (log : List Observation) {later : List Observation}
    (quiet : submissions later = []) : submittedPeople (log ++ later) = submittedPeople log := by
  simp only [submittedPeople, submissions_append, quiet, List.append_nil]

/-- One more call adds its people under the next number. -/
theorem submittedPeople_append_of_call (log : List Observation) {later : List Observation}
    {submission : Submission} (call : submissions later = [submission]) :
    submittedPeople (log ++ later) = submittedPeople log ++
      submission.personIds.map fun id => ((submissions log).length, id) := by
  simp only [submittedPeople, submissions_append, call, List.zipIdx_append, Nat.zero_add,
    List.flatMap_append, List.zipIdx_singleton, List.flatMap_singleton]

/-- A submitted person is named by the call of its number. -/
theorem mem_submittedPeople {log : List Observation} {person : Nat × String}
    (member : person ∈ submittedPeople log) :
    ∃ submission, (submissions log)[person.1]? = some submission ∧
      person.2 ∈ submission.personIds := by
  obtain ⟨call, inside, named⟩ := List.mem_flatMap.mp member
  obtain ⟨id, found, rfl⟩ := List.mem_map.mp named
  exact ⟨call.1, List.mem_zipIdx_iff_getElem?.mp inside, found⟩

/-- What an interleaving shows to the surroundings, in order. -/
def observations (config : OrchestratorConfig) (mode : JobSubmissionMode)
    (events : List SystemEvent) : List Observation :=
  ((orchestrator config mode).outputs Orchestrator.start events).flatten

namespace Orchestrator

/-- The people of the tasks one call spawns, each with the number of the call. -/
def spawned (batch : Nat) (people : List PersonAvailability) : List (Nat × String) :=
  people.map fun person => (batch, person.personId)

/-- Spawning tasks for a window adds exactly its people. -/
theorem flatMap_spawned (mode : JobSubmissionMode) (chores : Chores)
    (people : List PersonAvailability) (batch : Nat) :
    (((mode.submitWindow chores people).map fun task => Running.mk batch task).flatMap fun job =>
      job.task.people.map fun person => (job.batch, person.personId)) =
      spawned batch people := by
  calc (((mode.submitWindow chores people).map fun task => Running.mk batch task).flatMap
        fun job => job.task.people.map fun person => (job.batch, person.personId))
      = (mode.submitWindow chores people).flatMap fun task =>
          task.people.map fun person => (batch, person.personId) := List.flatMap_map ..
    _ = ((mode.submitWindow chores people).flatMap Task.people).map fun person =>
          (batch, person.personId) := List.map_flatMap.symm
    _ = spawned batch people := by rw [submitWindow_people, spawned]

/-- A task spawned for people has people to report on. -/
theorem submitWindow_staffed {mode : JobSubmissionMode} {chores : Chores}
    {people : List PersonAvailability} (some_people : people ≠ []) {task : Task}
    (member : task ∈ mode.submitWindow chores people) : task.people ≠ [] := by
  cases mode with
  | perPerson =>
    obtain ⟨person, _, rfl⟩ := List.mem_map.mp member
    exact List.cons_ne_nil person []
  | windowBatch =>
    rw [List.mem_singleton.mp member]
    exact some_people

/-- The invariant that ties the counter to the people outstanding. -/
structure Accounted (config : OrchestratorConfig) (state : Orchestrator)
    (log : List Observation) : Prop where
  /-- The open window is well formed. -/
  formed : state.coordinator.WellFormed
  /-- Calls are numbered in order. -/
  batches : state.batches = (submissions log).length
  /-- The counter counts the people outstanding. -/
  count : state.coordinator.activeFilterCount = state.outstanding.length
  /-- No submitted person is lost or reported twice. -/
  conserved : (submittedPeople log).Perm (consumedPeople log ++ state.outstanding)
  /-- Everyone outstanding belongs to the most recent call. -/
  latest : ∀ person ∈ state.outstanding, person.1 + 1 = state.batches
  /-- Nobody is outstanding twice. -/
  distinct : (state.outstanding.map Prod.snd).Nodup
  /-- No more people are outstanding than one window may select. -/
  capacity : state.outstanding.length ≤ config.maxPeoplePerWindow
  /-- With room for anyone, no task is without people. -/
  staffed : 0 < config.maxPeoplePerWindow → ∀ job ∈ state.running, job.task.people ≠ []

namespace Accounted

variable {config : OrchestratorConfig} {state next : Orchestrator} {log : List Observation}

/-- A step that only rearranges the people outstanding keeps the account. -/
theorem rearranged (account : Accounted config state log) {later : List Observation}
    (formed : next.coordinator.WellFormed) (batches : next.batches = state.batches)
    (count : next.coordinator.activeFilterCount = state.coordinator.activeFilterCount)
    (same : next.outstanding.Perm state.outstanding)
    (staffed : ∀ job ∈ next.running, job ∈ state.running)
    (quiet : submissions later = []) (kept : consumedPeople later = []) :
    Accounted config next (log ++ later) where
  formed := formed
  batches := by rw [batches, account.batches, submissions_append, quiet, List.append_nil]
  count := by rw [count, account.count, same.length_eq]
  conserved := by
    rw [submittedPeople_append_of_quiet log quiet, consumedPeople_append, kept, List.append_nil]
    exact account.conserved.trans (same.symm.append_left _)
  latest person member := by rw [batches, account.latest person (same.mem_iff.mp member)]
  distinct := (same.map Prod.snd).nodup_iff.mpr account.distinct
  capacity := same.length_eq ▸ account.capacity
  staffed room job member := account.staffed room job (staffed job member)

/-- A step of the coordinator alone that does not count keeps the account. -/
theorem uncounted (account : Accounted config state log) {later : List Observation}
    {coordinator : BatchCoordinator} (formed : coordinator.WellFormed)
    (count : coordinator.activeFilterCount = state.coordinator.activeFilterCount)
    (quiet : submissions later = []) (kept : consumedPeople later = []) :
    Accounted config { state with coordinator := coordinator } (log ++ later) :=
  account.rearranged formed rfl count (List.Perm.refl _) (fun _ member => member) quiet kept

/-- Nobody is outstanding at a count of zero. -/
theorem outstanding_eq_nil (account : Accounted config state log)
    (idle : state.coordinator.activeFilterCount = 0) : state.outstanding = [] :=
  List.eq_nil_of_length_eq_zero (account.count.symm.trans idle)

/-- With nobody outstanding and room for anyone, no task is running. -/
theorem running_eq_nil (account : Accounted config state log)
    (idle : state.outstanding = []) (room : 0 < config.maxPeoplePerWindow) :
    state.running = [] := by
  rw [List.eq_nil_iff_forall_not_mem]
  intro job member
  have people := account.staffed room job member
  rw [outstanding, List.append_eq_nil_iff, List.flatMap_eq_nil_iff] at idle
  exact people (List.map_eq_nil_iff.mp (idle.1 job member))

/-- Everyone outstanding is named by the most recent call. -/
theorem mem_last_call (account : Accounted config state log) {person : Nat × String}
    (member : person ∈ state.outstanding) : ∃ calls call, submissions log = calls ++ [call] ∧
      person.1 = calls.length ∧ person.2 ∈ call.personIds := by
  have known := account.conserved.mem_iff.mpr (List.mem_append_right _ member)
  obtain ⟨last, found, named⟩ := mem_submittedPeople known
  have position := account.latest person member
  rw [account.batches] at position
  obtain ⟨inside, rfl⟩ := List.getElem?_eq_some_iff.mp found
  have whole := List.take_append_getElem inside
  rw [position, List.take_length] at whole
  exact ⟨_, _, whole.symm, by rw [List.length_take]; omega, named⟩

/-- The end of a task moves its people from the tasks to the queue. -/
theorem finished (account : Accounted config state log) (index : Nat) (succeeded : Bool) :
    Accounted config (state.finished index succeeded) (log ++ []) := by
  unfold Orchestrator.finished
  split
  · exact account.uncounted account.formed rfl rfl rfl
  · rename_i job found
    obtain ⟨inside, rfl⟩ := List.getElem?_eq_some_iff.mp found
    refine account.rearranged account.formed rfl rfl ?_
      (fun other member => List.mem_of_mem_eraseIdx member) rfl rfl
    have moved := (List.getElem_cons_eraseIdx_perm inside).flatMap_right fun job =>
      job.task.people.map fun person => (job.batch, person.personId)
    rw [List.flatMap_cons] at moved
    simp only [outstanding, List.map_append, List.map_map, Task.completions]
    rw [← List.append_assoc]
    refine List.perm_append_comm.trans ?_
    rw [← List.append_assoc]
    exact moved.append_right _

/-- The receipt of a completion takes one person off both sides. -/
theorem consumed (account : Accounted config state log) :
    Accounted config state.consumed.1 (log ++ state.consumed.2) := by
  unfold Orchestrator.consumed
  split
  · exact account.uncounted account.formed rfl rfl rfl
  · rename_i delivery rest queued
    generalize received : ({ state with
      coordinator := state.coordinator.onPersonComplete delivery.completion
      queue := rest } : Orchestrator) = next
    have split : state.outstanding.Perm
        ((delivery.batch, delivery.completion.personId) :: next.outstanding) := by
      simp only [← received, outstanding, queued, List.map_cons]
      exact List.perm_middle
    have length := split.length_eq
    rw [List.length_cons] at length
    exact {
      formed := received ▸ account.formed
      batches := by
        rw [submissions_append, List.length_append, ← account.batches, ← received]
        rfl
      count := by
        have count := account.count
        rw [← received]
        simp only [BatchCoordinator.onPersonComplete, count, length]
        exact received ▸ rfl
      conserved := by
        rw [submittedPeople_append_of_quiet log rfl, consumedPeople_append]
        refine account.conserved.trans ?_
        rw [List.append_assoc]
        exact split.append_left _
      latest := fun person member => by
        rw [← received]
        exact account.latest person (split.mem_iff.mpr (List.mem_cons_of_mem _ member))
      distinct := by
        have distinct := (split.map Prod.snd).nodup_iff.mp account.distinct
        rw [List.map_cons, List.nodup_cons] at distinct
        exact distinct.2
      capacity := by
        have capacity := account.capacity
        change next.outstanding.length ≤ _
        omega
      staffed := received ▸ account.staffed }

/-- A call at a count of zero opens the account of a new batch. -/
theorem submitted (account : Accounted config state log)
    (idle : state.coordinator.activeFilterCount = 0) {coordinator : BatchCoordinator}
    {submission : Submission} (formed : coordinator.WellFormed)
    (count : coordinator.activeFilterCount = submission.people.length)
    (distinct : submission.personIds.Nodup)
    (capacity : submission.people.length ≤ config.maxPeoplePerWindow)
    (staffed : 0 < config.maxPeoplePerWindow → submission.people ≠ [])
    (mode : JobSubmissionMode) (now : Instant) :
    Accounted config (state.ticked mode now (coordinator, some submission)).1
      (log ++ (state.ticked mode now (coordinator, some submission)).2) := by
  have nobody := account.outstanding_eq_nil idle
  have quiet := nobody
  rw [outstanding, List.append_eq_nil_iff] at quiet
  have fresh : (state.ticked mode now (coordinator, some submission)).1.outstanding =
      spawned state.batches submission.people := by
    simp only [Orchestrator.ticked, outstanding, List.flatMap_append, quiet.1, quiet.2,
      List.nil_append, List.append_nil]
    exact flatMap_spawned mode submission.chores submission.people state.batches
  have named : (spawned state.batches submission.people).map Prod.snd =
      submission.personIds := by
    simp only [spawned, List.map_map, Submission.personIds]
    rfl
  exact {
    formed := formed
    batches := by
      rw [submissions_append, List.length_append, ← account.batches]
      rfl
    count := by
      rw [fresh, spawned, List.length_map]
      exact count
    conserved := by
      have before := account.conserved
      rw [nobody, List.append_nil] at before
      rw [submittedPeople_append_of_call log rfl, consumedPeople_append, fresh,
        ← account.batches, Submission.personIds, List.map_map, List.append_assoc]
      exact before.append_right _
    latest := fun person member => by
      rw [fresh] at member
      obtain ⟨_, _, rfl⟩ := List.mem_map.mp member
      rfl
    distinct := by rw [fresh, named]; exact distinct
    capacity := by rw [fresh, spawned, List.length_map]; exact capacity
    staffed := fun room job member => by
      rcases List.mem_append.mp member with old | new
      · exact account.staffed room job old
      · obtain ⟨task, spawns, rfl⟩ := List.mem_map.mp new
        exact submitWindow_staffed (staffed room) spawns }

/-- A tick keeps the account, whether it waits, drops its window or submits it. -/
theorem ticked (account : Accounted config state log) (mode : JobSubmissionMode)
    (now : Instant) (order : Enumeration PendingPerson) :
    Accounted config
      (state.ticked mode now (state.coordinator.expireStaleIfIdle config now order)).1
      (log ++
        (state.ticked mode now (state.coordinator.expireStaleIfIdle config now order)).2) := by
  have outcome := state.coordinator.flushWindowIfExpired_flushed config now order
  simp only [BatchCoordinator.expireStaleIfIdle]
  generalize state.coordinator.flushWindowIfExpired config now order = flushed at outcome
  cases outcome with
  | waiting idle => exact account.uncounted account.formed rfl rfl rfl
  | dropped window due refused =>
    exact account.uncounted (BatchCoordinator.wellFormed_of_closed rfl) rfl rfl rfl
  | accepted window chores due latest pending idle =>
    have formed := (account.formed window due.opened).1
    have size := state.coordinator.length_selection config order window
    apply account.submitted idle
    · exact BatchCoordinator.accepted_wellFormed config state.coordinator now window order
    · simp only [BatchCoordinator.prunePersonHistory, BatchCoordinator.accepted,
        BatchCoordinator.foldl_recordSelection, BatchCoordinator.submission, idle,
        Nat.zero_add, List.length_map]
    · rw [BatchCoordinator.submission_personIds]
      exact BatchCoordinator.selection_nodup config state.coordinator order formed
    · rw [BatchCoordinator.submission, List.length_map, size]
      exact Nat.min_le_left _ _
    · intro room vacant
      have keys : 0 < window.pendingPeople.keys.length := by
        rw [← Dict.length_values]
        exact List.length_pos_iff.mpr pending
      have none_selected : state.coordinator.selection config window order = [] :=
        List.map_eq_nil_iff.mp vacant
      rw [none_selected, List.length_nil] at size
      omega

end Accounted

/-- Every event keeps the account. -/
theorem step_accounted {config : OrchestratorConfig} {state : Orchestrator}
    {log : List Observation} (account : Accounted config state log) (mode : JobSubmissionMode)
    (event : SystemEvent) :
    Accounted config ((orchestrator config mode).step state event).1
      (log ++ ((orchestrator config mode).step state event).2) := by
  cases event with
  | chores chores now => exact account.uncounted account.formed rfl rfl rfl
  | person person now =>
    exact account.uncounted (BatchCoordinator.receivePerson_wellFormed account.formed person now)
      rfl rfl rfl
  | tick now order => exact account.ticked mode now order
  | finish index succeeded => exact account.finished index succeeded
  | consume => exact account.consumed

/-- Every interleaving keeps the account. -/
theorem run_accounted (config : OrchestratorConfig) (mode : JobSubmissionMode)
    (events : List SystemEvent) :
    Accounted config ((orchestrator config mode).run Orchestrator.start events)
      (observations config mode events) := by
  refine (orchestrator config mode).run_history
    (fun _ state trace => Accounted config state (trace.map Transition.output).flatten)
    ?_ ?_ events
  · exact {
      formed := BatchCoordinator.new_wellFormed
      batches := rfl
      count := rfl
      conserved := List.Perm.refl _
      latest := fun _ member => nomatch member
      distinct := List.nodup_nil
      capacity := Nat.zero_le _
      staffed := fun _ _ member => nomatch member }
  · intro events event account
    simp only [List.map_append, List.map_cons, List.map_nil, List.flatten_append,
      List.flatten_cons, List.flatten_nil, List.append_nil]
    exact step_accounted account mode event

/-- A call is only made when nobody is outstanding. -/
theorem outstanding_eq_nil_of_submitted {config : OrchestratorConfig} {state : Orchestrator}
    {log : List Observation} (account : Accounted config state log) (mode : JobSubmissionMode)
    (event : SystemEvent) {now : Instant} {submission : Submission}
    (call : .submitted now submission ∈ ((orchestrator config mode).step state event).2) :
    state.outstanding = [] := by
  cases event with
  | tick time order =>
    have outcome := state.coordinator.flushWindowIfExpired_flushed config time order
    simp only [orchestrator, BatchCoordinator.expireStaleIfIdle] at call
    generalize state.coordinator.flushWindowIfExpired config time order = flushed
      at outcome call
    cases outcome with
    | waiting _ => simp [Orchestrator.ticked] at call
    | dropped _ _ _ => simp [Orchestrator.ticked] at call
    | accepted _ _ _ _ _ idle => exact account.outstanding_eq_nil idle
  | consume =>
    simp only [orchestrator, Orchestrator.consumed] at call
    split at call <;> simp at call
  | _ => simp [orchestrator] at call

end Orchestrator

/-- In every interleaving the active count is the number of submitted people whose
completion has not been consumed. They all belong to the most recent call, are pairwise
distinct and fit one window; a completion never arrives at a count of zero; and no window
is submitted while a task of any person runs or a completion is queued. -/
theorem active_count_exact (config : OrchestratorConfig) (mode : JobSubmissionMode)
    (events : List SystemEvent) :
    let state := (orchestrator config mode).run Orchestrator.start events
    let log := observations config mode events
    state.coordinator.activeFilterCount = state.outstanding.length ∧
      (submittedPeople log).Perm (consumedPeople log ++ state.outstanding) ∧
      (∀ person ∈ state.outstanding, ∃ earlier last, submissions log = earlier ++ [last] ∧
        person.1 = earlier.length ∧ person.2 ∈ last.personIds) ∧
      (state.outstanding.map Prod.snd).Nodup ∧
      state.outstanding.length ≤ config.maxPeoplePerWindow ∧
      (state.queue ≠ [] → state.coordinator.activeFilterCount ≠ 0) ∧
      ∀ event now submission,
        .submitted now submission ∈ ((orchestrator config mode).step state event).2 →
          state.outstanding = [] ∧ state.queue = [] ∧
            (0 < config.maxPeoplePerWindow → state.running = []) := by
  intro state log
  have account : Orchestrator.Accounted config state log :=
    Orchestrator.run_accounted config mode events
  refine ⟨account.count, account.conserved, fun person member => account.mem_last_call member,
    account.distinct, account.capacity, ?_, ?_⟩
  · intro queued idle
    have nobody := account.outstanding_eq_nil idle
    rw [Orchestrator.outstanding, List.append_eq_nil_iff, List.map_eq_nil_iff] at nobody
    exact queued nobody.2
  · intro event now submission call
    have nobody := Orchestrator.outstanding_eq_nil_of_submitted account mode event call
    refine ⟨nobody, ?_, account.running_eq_nil nobody⟩
    rw [Orchestrator.outstanding, List.append_eq_nil_iff, List.map_eq_nil_iff] at nobody
    exact nobody.2

end BossWorker.Rust
