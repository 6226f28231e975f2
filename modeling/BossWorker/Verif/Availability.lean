import BossWorker.Verif.Progress

/-!
# The Rust orchestrator can always publish again

Whatever has happened to a process, its tasks can come to an end. Then chores and a person
that it receives open a window or join the open one, the next tick that is late enough submits
the window, and the first of its tasks can publish a summary of the new chores.
-/

namespace BossWorker.Rust

/-- The summary is the one built from these chores and the answers to people of a window. -/
def SummarizesWindow (chores : Chores) (window : PersonWindow) (summary : ChoreFilterSummary) :
    Prop :=
  ∃ people, people ≠ [] ∧
    (∀ person ∈ people, ∃ pending ∈ window.pendingPeople.values, pending.message = person) ∧
    summary = BatchRunner.buildSummary chores.choresId chores.context
      (people.map (jobResult chores))

section Steps

variable (config : OrchestratorConfig) (mode : JobSubmissionMode) (decoders : Decoders)
  (threads : Nat)

/-- A tick that submits spawns the tasks of its window. -/
theorem jobs_of_submitted {self : Process} (alive : self.aborted = false) {now later : Instant}
    {order : Enumeration PendingPerson} {submission : Submission}
    (submitted : ((process config mode decoders threads).step self (.tick later order)).2 =
      [.submitted now submission, .pruned now]) :
    ((process config mode decoders threads).step self (.tick later order)).1.jobs =
        self.jobs ++ (mode.submitWindow submission.chores submission.people).map
          (fun task => ⟨⟨self.batches, task⟩, .spawned⟩) ∧
      ((process config mode decoders threads).step self (.tick later order)).1.aborted = false := by
  rw [process_step config mode decoders threads alive] at submitted ⊢
  simp only [Process.step, Process.ticked] at submitted ⊢
  cases call : (self.coordinator.expireStaleIfIdle config later order).2 with
  | none =>
    rw [call] at submitted
    exact absurd (List.cons.inj submitted).1 Observation.noConfusion
  | some made =>
    rw [call] at submitted
    have same := (Observation.submitted.inj (List.cons.inj submitted).1).2
    rw [same]
    exact ⟨rfl, alive⟩

/-- While no closure runs, the first task can be led to the publication of its summary. -/
theorem published_of_first {self : Process} (alive : self.aborted = false) (room : 0 < threads)
    (idle : self.executing = 0) {running : Running} {others : List SpawnedTask}
    (first : self.jobs = ⟨running, .spawned⟩ :: others) :
    ((process config mode decoders threads).run self
        [.dispatch 0, .start 0, .compute 0, .publish 0 true]).published =
      self.published ++ [⟨running.batch, running.task.summary running.task.answers⟩] := by
  have going (jobs : List SpawnedTask) (event : ProcessEvent) :
      (process config mode decoders threads).step { self with jobs := jobs } event =
        Process.step config mode decoders threads { self with jobs := jobs } event := by
    have still : ({ self with jobs := jobs } : Process).aborted = false := alive
    exact process_step config mode decoders threads still event
  have dispatched : ((process config mode decoders threads).step self (.dispatch 0)).1 =
      { self with jobs := ⟨running, .queued⟩ :: others } := by
    rw [process_step config mode decoders threads alive]
    simp only [Process.step, Process.dispatched, first, List.getElem?_cons_zero, Process.enter,
      List.set_cons_zero]
  have free : ({ self with jobs := ⟨running, .queued⟩ :: others } : Process).executing <
      threads := by
    rw [Process.executing, first, List.countP_cons] at idle
    rw [Process.executing, List.countP_cons]
    simp only [reduceCtorEq, decide_false, Bool.false_eq_true, if_false] at idle ⊢
    omega
  have started : ((process config mode decoders threads).step
      { self with jobs := ⟨running, .queued⟩ :: others } (.start 0)).1 =
        { self with jobs := ⟨running, .executing⟩ :: others } := by
    rw [going]
    simp only [Process.step, Process.started, List.getElem?_cons_zero, if_pos free,
      Process.enter, List.set_cons_zero]
  have computed : ((process config mode decoders threads).step
      { self with jobs := ⟨running, .executing⟩ :: others } (.compute 0)).1 =
        { self with jobs := ⟨running, .computed running.task.answers⟩ :: others } := by
    rw [going]
    simp only [Process.step, Process.computed, List.getElem?_cons_zero, Task.results_eq,
      Process.enter, List.set_cons_zero]
    rfl
  have published : ((process config mode decoders threads).step
      { self with jobs := ⟨running, .computed running.task.answers⟩ :: others }
        (.publish 0 true)).1.published =
          self.published ++ [⟨running.batch, running.task.summary running.task.answers⟩] := by
    rw [going]
    simp only [Process.step, Process.publishedSummary, List.getElem?_cons_zero, if_true,
      Process.enter]
  rw [Machine.run_cons, dispatched, Machine.run_cons, started, Machine.run_cons, computed,
    Machine.run_cons, Machine.run_nil]
  exact published

/-- Chores and a person that decode are received. -/
theorem run_samples {self : Process} (alive : self.aborted = false)
    {choresBytes personBytes : List UInt8} {chores : Chores} {person : PersonAvailability}
    (choresDecoded : decoders.chores choresBytes = .ok chores)
    (personDecoded : decoders.person personBytes = .ok person) (now : Instant) :
    (process config mode decoders threads).run self
        [.choresSample choresBytes now, .personSample personBytes now] =
      { self with coordinator :=
          (self.coordinator.receiveChores chores now).receivePerson person now } := by
  have received : ((process config mode decoders threads).step self
      (.choresSample choresBytes now)).1 =
        { self with coordinator := self.coordinator.receiveChores chores now } := by
    rw [process_step config mode decoders threads alive]
    simp only [Process.step, OrchestratorHandler.onChoresBytes, choresDecoded]
  have going (coordinator : BatchCoordinator) (event : ProcessEvent) :
      (process config mode decoders threads).step { self with coordinator := coordinator }
          event = Process.step config mode decoders threads
            { self with coordinator := coordinator } event := by
    have still : ({ self with coordinator := coordinator } : Process).aborted = false := alive
    exact process_step config mode decoders threads still event
  have joined : ((process config mode decoders threads).step
      { self with coordinator := self.coordinator.receiveChores chores now }
        (.personSample personBytes now)).1 =
          { self with coordinator :=
              (self.coordinator.receiveChores chores now).receivePerson person now } := by
    rw [going]
    simp only [Process.step, OrchestratorHandler.onPersonBytes, personDecoded]
  rw [Machine.run_cons, received, Machine.run_cons, joined, Machine.run_nil]

/-- Calls are only added to. -/
theorem batches_le (events more : List ProcessEvent) :
    ((process config mode decoders threads).run .start events).batches ≤
      ((process config mode decoders threads).run .start (events ++ more)).batches := by
  have before := (run_documented config mode decoders threads events).numbered
  have after := (run_documented config mode decoders threads (events ++ more)).numbered
  rw [before, after, processLog, processLog, Machine.outputs_append, List.flatten_append,
    submissions_append, List.length_append]
  exact Nat.le_add_right _ _

/-- A window that is due while nothing is left of earlier ones leads to a summary. -/
theorem exists_published_of_due (room : 0 < threads) (capacity : 0 < config.maxPeoplePerWindow)
    (events : List ProcessEvent) {window : PersonWindow} {chores : Chores} {later : Instant}
    (done : ((process config mode decoders threads).run .start events).stepsLeft = 0)
    (latest : ((process config mode decoders threads).run .start
      events).coordinator.latestChores = some chores)
    (due : BatchCoordinator.Due config
      ((process config mode decoders threads).run .start events).coordinator later window)
    (order : Enumeration PendingPerson) :
    ∃ entry ∈ ((process config mode decoders threads).run .start (events ++
        [.tick later order, .dispatch 0, .start 0, .compute 0, .publish 0 true])).published,
      entry.batch = ((process config mode decoders threads).run .start events).batches ∧
        SummarizesWindow chores window entry.summary := by
  have rest := atRest_of_stepsLeft config mode decoders threads done
  have alive := process_alive config mode decoders threads events
  have account := process_accounted config mode decoders threads events
  rw [Machine.run_append, Machine.run_cons]
  generalize (process config mode decoders threads).run .start events = self at *
  have pending := (account.formed window due.opened).2
  have ticked := jobs_of_submitted config mode decoders threads alive
    (rest.accepts window chores later order latest due)
  rw [rest.jobs, List.nil_append] at ticked
  generalize ((process config mode decoders threads).step self (.tick later order)).1 = next at *
  -- the capacity lets somebody of the window be selected
  have chosen : (self.coordinator.submission config chores window order).people ≠ [] := by
    have size := self.coordinator.length_selection config order window
    have values := List.length_pos_iff.mpr pending
    rw [Dict.length_values] at values
    rw [BatchCoordinator.submission, ← List.length_pos_iff, List.length_map, size]
    exact lt_min capacity values
  have idle : next.executing = 0 := by
    rw [Process.executing, ticked.1, List.countP_map, List.countP_eq_zero]
    exact fun _ _ => Bool.false_ne_true
  have staffed := fun task (member : task ∈ mode.submitWindow
      (self.coordinator.submission config chores window order).chores
      (self.coordinator.submission config chores window order).people) =>
    Orchestrator.submitWindow_staffed chosen member
  cases tasks : mode.submitWindow (self.coordinator.submission config chores window order).chores
      (self.coordinator.submission config chores window order).people with
  | nil =>
    have everyone := submitWindow_people mode
      (self.coordinator.submission config chores window order).chores
      (self.coordinator.submission config chores window order).people
    rw [tasks] at everyone
    exact absurd everyone.symm chosen
  | cons task others =>
    have member : task ∈ mode.submitWindow
        (self.coordinator.submission config chores window order).chores
        (self.coordinator.submission config chores window order).people := by
      rw [tasks]
      exact List.mem_cons_self
    have first := ticked.1
    rw [tasks, List.map_cons] at first
    rw [published_of_first config mode decoders threads ticked.2 room idle first]
    refine ⟨_, List.mem_append_right _ List.mem_cons_self, rfl, task.people,
      staffed task member, fun person listed => ?_, ?_⟩
    · have submitted := (people_sublist_of_mem_submitWindow member).subset listed
      obtain ⟨pending, selected, rfl⟩ := List.mem_map.mp submitted
      exact ⟨pending, BatchCoordinator.mem_values_of_mem_selection selected, rfl⟩
    · rw [Task.summary, Task.answers, chores_of_mem_submitWindow member]
      rfl

/-- After any run of a process with threads and capacity the tasks can come to an end, and then
chores and a person that it receives lead to a summary of these chores: every tick that is
late enough submits the window the person has joined, and its first task can publish. -/
theorem process_can_always_publish (room : 0 < threads) (capacity : 0 < config.maxPeoplePerWindow)
    {choresBytes personBytes : List UInt8} {chores : Chores} {person : PersonAvailability}
    (choresDecoded : decoders.chores choresBytes = .ok chores)
    (personDecoded : decoders.person personBytes = .ok person) (events : List ProcessEvent)
    (now : Instant) :
    let machine := process config mode decoders threads
    ∃ drain late window, (∀ t ∈ machine.trace (machine.run .start events) drain,
        t.before.Due threads t.event) ∧
      (machine.run .start (events ++ drain ++ [.choresSample choresBytes now,
        .personSample personBytes now])).coordinator.currentWindow = some window ∧
      (window.pendingPeople.get? person.personId).map PendingPerson.message = some person ∧
      ∀ later order, late ≤ later →
        ∃ entry ∈ (machine.run .start (events ++ drain ++
            [.choresSample choresBytes now, .personSample personBytes now] ++
            [.tick later order, .dispatch 0, .start 0, .compute 0, .publish 0 true])).published,
          (machine.run .start events).batches ≤ entry.batch ∧
            SummarizesWindow chores window entry.summary := by
  intro machine
  have alive := process_alive config mode decoders threads events
  obtain ⟨drain, taken, done⟩ :=
    (processDescent config mode decoders threads room).exists_run_left_eq_zero alive
  change (machine.run (machine.run .start events) drain).stepsLeft = 0 at done
  rw [← Machine.run_append] at done
  have drained := process_alive config mode decoders threads (events ++ drain)
  have samples := run_samples config mode decoders threads drained choresDecoded personDecoded now
  rw [← Machine.run_append] at samples
  have more := batches_le config mode decoders threads events
    (drain ++ [.choresSample choresBytes now, .personSample personBytes now])
  rw [← List.append_assoc] at more
  let coordinator := (machine.run .start (events ++ drain)).coordinator.receiveChores chores now
  let window := coordinator.openWindow now
  let joined : PersonWindow := { window with
    sequenceNumber := window.sequenceNumber + 1
    pendingPeople := window.pendingPeople.insert person.personId
      { message := person, sequenceNumber := window.sequenceNumber + 1 } }
  have opened : (machine.run .start (events ++ drain ++ [.choresSample choresBytes now,
      .personSample personBytes now])).coordinator.currentWindow = some joined := by
    rw [samples]
    rfl
  have listed : (joined.pendingPeople.get? person.personId).map PendingPerson.message =
      some person := by
    rw [Dict.get?_insert, if_pos rfl]
    rfl
  refine ⟨drain, window.openedAt + config.windowDuration, joined, taken, opened, listed, ?_⟩
  intro later order late
  have expired : config.windowDuration ≤ durationSince later joined.openedAt :=
    le_max_of_le_left (le_sub_iff_add_le'.mpr late)
  obtain ⟨entry, published, number, answered⟩ :=
    exists_published_of_due config mode decoders threads room capacity
      (events ++ drain ++ [.choresSample choresBytes now, .personSample personBytes now])
      (by rw [samples]; exact done) (by rw [samples]; rfl) ⟨opened, expired⟩ order
  exact ⟨entry, published, more.trans (Nat.le_of_eq number.symm), answered⟩

end Steps

/-- After a window that has just been flushed, another one leads to a summary. -/
theorem process_can_always_publish_one :
    let machine := process oneSecond .perPerson sameMessages 1
    ∃ drain late window, (∀ t ∈ machine.trace (machine.run .start oneWindow) drain,
        t.before.Due 1 t.event) ∧
      (machine.run .start (oneWindow ++ drain ++ [.choresSample [] 3,
        .personSample [] 3])).coordinator.currentWindow = some window ∧
      (window.pendingPeople.get? "amy").map PendingPerson.message = some { personId := "amy" } ∧
      ∀ later order, late ≤ later →
        ∃ entry ∈ (machine.run .start (oneWindow ++ drain ++
            [.choresSample [] 3, .personSample [] 3] ++
            [.tick later order, .dispatch 0, .start 0, .compute 0, .publish 0 true])).published,
          (machine.run .start oneWindow).batches ≤ entry.batch ∧
            SummarizesWindow { choresId := "weekly" } window entry.summary :=
  process_can_always_publish oneSecond .perPerson sameMessages 1 (by decide) (by decide) rfl rfl
    oneWindow 3

end BossWorker.Rust
