import BossWorker.Base.Positions
import BossWorker.Base.Refinement
import BossWorker.Rust.Process
import BossWorker.Verif.Accounting
import BossWorker.Verif.Modes

/-!
# The orchestrator process refines the step system

A payload that decodes is the message it encodes, and one that does not is nothing; the way
of a task through the pool is nothing until the task ends. So the process with its payloads
and its pool is explained by the step system, and the account of the step system is an
account of the process. A closure never panics, since a request built by the batch runner
always carries a person and chores.
-/

namespace BossWorker.Rust

/-- The closure of a task answers for every person. -/
theorem Task.results_eq (task : Task) :
    task.results = some (task.people.map (jobResult task.chores)) := by
  cases task with
  | single chores person =>
    have answered := processChoreFilterRequest_jobRequest chores person
    unfold jobRequest at answered
    simp only [Task.results, answered]
    rfl
  | batch chores people =>
    have each := funext (processChoreFilterRequest_jobRequest chores)
    unfold jobRequest at each
    simp only [Task.results, each]
    exact List.mapM_pure

/-- The event is a step of a task or of the pool. -/
def ProcessEvent.ofTask : ProcessEvent → Bool
  | .dispatch _ => true
  | .start _ => true
  | .compute _ => true
  | .publish _ _ => true
  | .report _ => true
  | _ => false

/-- The event is a step of a task or of the pool, or the receipt of a completion, and it is
due. -/
def Process.Due (threads : Nat) (self : Process) : ProcessEvent → Prop
  | .dispatch index => ∃ running, self.jobs[index]? = some ⟨running, .spawned⟩
  | .start index =>
    (∃ running, self.jobs[index]? = some ⟨running, .queued⟩) ∧ self.executing < threads
  | .compute index => ∃ running, self.jobs[index]? = some ⟨running, .executing⟩
  | .publish index _ => ∃ running results, self.jobs[index]? = some ⟨running, .computed results⟩
  | .report index => ∃ running succeeded, self.jobs[index]? = some ⟨running, .returned succeeded⟩
  | .consume => self.queue ≠ []
  | _ => False

/-- What the surroundings hand to the step system. -/
def SystemEvent.input : SystemEvent → Option SystemEvent
  | .finish _ _ => none
  | .consume => none
  | event => some event

/-- What the surroundings hand to the process, decoded. -/
def ProcessEvent.decoded (decoders : Decoders) : ProcessEvent → Option SystemEvent
  | .choresSample bytes now =>
    match decoders.chores bytes with
    | .ok chores => some (.chores chores now)
    | .error _ => none
  | .personSample bytes now =>
    match decoders.person bytes with
    | .ok person => some (.person person now)
    | .error _ => none
  | .tick now order => some (.tick now order)
  | _ => none

/-- What a step of a task or of the pool can do. -/
inductive TaskStep (threads : Nat) (self : Process) : ProcessEvent → Process → Prop where
  /-- The step is not due. -/
  | idle {event : ProcessEvent} (undue : ¬ self.Due threads event) :
      TaskStep threads self event self
  /-- A closure is handed to the pool. -/
  | dispatched {index : Nat} {running : Running}
      (found : self.jobs[index]? = some ⟨running, .spawned⟩) :
      TaskStep threads self (.dispatch index) (self.enter index ⟨running, .spawned⟩ .queued)
  /-- A closure is started. -/
  | started {index : Nat} {running : Running}
      (found : self.jobs[index]? = some ⟨running, .queued⟩) (free : self.executing < threads) :
      TaskStep threads self (.start index) (self.enter index ⟨running, .queued⟩ .executing)
  /-- A closure ends. -/
  | computed {index : Nat} {running : Running}
      (found : self.jobs[index]? = some ⟨running, .executing⟩) :
      TaskStep threads self (.compute index) (self.enter index ⟨running, .executing⟩
        (.computed (running.task.people.map (jobResult running.task.chores))))
  /-- The transport takes a summary. -/
  | published {index : Nat} {running : Running} {results : List ChoreFilterResult}
      (found : self.jobs[index]? = some ⟨running, .computed results⟩) :
      TaskStep threads self (.publish index true)
        (Process.enter
          { self with published :=
              self.published ++ [⟨running.batch, running.task.summary results⟩] }
          index ⟨running, .computed results⟩ (.returned true))
  /-- The transport refuses a summary. -/
  | refused {index : Nat} {running : Running} {results : List ChoreFilterResult}
      (found : self.jobs[index]? = some ⟨running, .computed results⟩) :
      TaskStep threads self (.publish index false)
        (self.enter index ⟨running, .computed results⟩ (.returned false))
  /-- A task sends its completions. -/
  | reported {index : Nat} {running : Running} {succeeded : Bool}
      (found : self.jobs[index]? = some ⟨running, .returned succeeded⟩) :
      TaskStep threads self (.report index)
        { self with
          jobs := self.jobs.eraseIdx index
          queue := self.queue ++ (running.task.completions succeeded).map fun completion =>
            ⟨running.batch, completion⟩ }

namespace Process

variable (self : Process) (threads index : Nat)

/-- `dispatched` takes a step. -/
theorem dispatched_step : TaskStep threads self (.dispatch index) (self.dispatched index) := by
  unfold dispatched
  split
  · rename_i running found
    exact .dispatched found
  · rename_i other
    exact .idle fun due => due.elim other

/-- `started` takes a step. -/
theorem started_step : TaskStep threads self (.start index) (self.started threads index) := by
  unfold started
  split
  · rename_i running found
    by_cases free : self.executing < threads
    · rw [if_pos free]
      exact .started found free
    · rw [if_neg free]
      exact .idle fun due => free due.2
  · rename_i other
    exact .idle fun due => due.1.elim other

/-- `computed` takes a step, without a panic. -/
theorem computed_step : TaskStep threads self (.compute index) (self.computed index) := by
  unfold computed
  split
  · rename_i running found
    rw [Task.results_eq]
    exact .computed found
  · rename_i other
    exact .idle fun due => due.elim other

/-- `publishedSummary` takes a step. -/
theorem publishedSummary_step (taken : Bool) :
    TaskStep threads self (.publish index taken) (self.publishedSummary index taken) := by
  unfold publishedSummary
  split
  · rename_i running results found
    cases taken with
    | true => exact .published found
    | false =>
      have unchanged : { self with published := self.published ++ [] } = self := by
        rw [List.append_nil]
      simp only [Bool.false_eq_true, if_false, unchanged]
      exact .refused found
  · rename_i other
    exact .idle fun due => due.elim fun running found => found.elim (other running)

/-- `reported` takes a step. -/
theorem reported_step : TaskStep threads self (.report index) (self.reported index) := by
  unfold reported
  split
  · rename_i running succeeded found
    exact .reported found
  · rename_i other
    exact .idle fun due => due.elim fun running found => found.elim (other running)

/-- The state of the step system that a process stands for. -/
def orchestrator : Orchestrator where
  coordinator := self.coordinator
  batches := self.batches
  running := self.jobs.map SpawnedTask.running
  queue := self.queue

/-- The end of the task at a position, if it is due. -/
def ending : List SystemEvent :=
  match self.jobs[index]? with
  | some ⟨_, .returned succeeded⟩ => [.finish index succeeded]
  | _ => []

/-- The events of the step system that explain an event. -/
def explain (decoders : Decoders) : ProcessEvent → List SystemEvent
  | .choresSample bytes now =>
    match decoders.chores bytes with
    | .ok chores => [.chores chores now]
    | .error _ => []
  | .personSample bytes now =>
    match decoders.person bytes with
    | .ok person => [.person person now]
    | .error _ => []
  | .tick now order => [.tick now order]
  | .report index => self.ending index
  | .consume => [.consume]
  | _ => []

/-- A task that goes on to another stage stands for the same state. -/
theorem orchestrator_enter {index : Nat} {job : SpawnedTask}
    (found : self.jobs[index]? = some job) (stage : JobStage) :
    (self.enter index job stage).orchestrator = self.orchestrator := by
  have same : (self.jobs.map SpawnedTask.running).set index job.running =
      self.jobs.map SpawnedTask.running := by
    obtain ⟨inside, rfl⟩ := List.getElem?_eq_some_iff.mp found
    apply List.ext_getElem?
    intro position
    by_cases here : index = position
    · subst here
      rw [List.getElem?_set_self (by simpa using inside), List.getElem?_map, found,
        Option.map_some]
    · rw [List.getElem?_set_ne here]
  simp only [orchestrator, enter, List.map_set, same]

/-- A tick of the process is a tick of the step system. -/
theorem orchestrator_ticked (mode : JobSubmissionMode) (now : Instant)
    (result : BatchCoordinator × Option Submission) :
    (self.ticked mode now result).1.orchestrator =
        (self.orchestrator.ticked mode now result).1 ∧
      (self.ticked mode now result).2 = (self.orchestrator.ticked mode now result).2 := by
  unfold ticked Orchestrator.ticked
  cases result.2 with
  | none => exact ⟨rfl, rfl⟩
  | some submission =>
    refine ⟨?_, rfl⟩
    simp only [orchestrator, List.map_append, List.map_map]
    rfl

/-- The process receives a completion as the step system does. -/
theorem orchestrator_consumed :
    self.consumed.1.orchestrator = self.orchestrator.consumed.1 ∧
      self.consumed.2 = self.orchestrator.consumed.2 := by
  unfold consumed Orchestrator.consumed
  cases queued : self.queue with
  | nil => simp only [orchestrator, queued, and_self]
  | cons delivery rest => simp only [orchestrator, queued, and_self]

end Process

section Refining

variable (config : OrchestratorConfig) (mode : JobSubmissionMode) (decoders : Decoders)
  (threads : Nat)

/-- The machine takes the step of a process that has not been aborted. -/
theorem process_step {self : Process} (alive : self.aborted = false) (event : ProcessEvent) :
    (process config mode decoders threads).step self event =
      self.step config mode decoders threads event := by
  simp only [process, alive, Bool.false_eq_true, if_false]

/-- A step of a task or of the pool is one of the inversion and shows nothing. -/
theorem process_taskStep {self : Process} (alive : self.aborted = false) {event : ProcessEvent}
    (inner : event.ofTask = true) :
    TaskStep threads self event ((process config mode decoders threads).step self event).1 ∧
      ((process config mode decoders threads).step self event).2 = [] := by
  rw [process_step config mode decoders threads alive]
  cases event with
  | dispatch index => exact ⟨self.dispatched_step threads index, rfl⟩
  | start index => exact ⟨self.started_step threads index, rfl⟩
  | compute index => exact ⟨self.computed_step threads index, rfl⟩
  | publish index taken => exact ⟨self.publishedSummary_step threads index taken, rfl⟩
  | report index => exact ⟨self.reported_step threads index, rfl⟩
  | _ => contradiction

/-- A step of a task or of the pool is explained, and the process goes on. -/
theorem TaskStep.explained {self after : Process} {event : ProcessEvent}
    (step : TaskStep threads self event after) (inner : event.ofTask = true) :
    after.orchestrator =
        (orchestrator config mode).run self.orchestrator (self.explain decoders event) ∧
      after.aborted = self.aborted := by
  cases step with
  | idle undue =>
    refine ⟨?_, rfl⟩
    cases event with
    | report index =>
      simp only [Process.explain, Process.ending]
      split
      · rename_i running succeeded found
        exact absurd ⟨running, succeeded, found⟩ undue
      · rfl
    | choresSample bytes now => contradiction
    | personSample bytes now => contradiction
    | tick now order => contradiction
    | consume => contradiction
    | _ => rfl
  | dispatched found => exact ⟨self.orchestrator_enter found _, rfl⟩
  | started found free => exact ⟨self.orchestrator_enter found _, rfl⟩
  | computed found => exact ⟨self.orchestrator_enter found _, rfl⟩
  | published found => exact ⟨self.orchestrator_enter found _, rfl⟩
  | refused found => exact ⟨self.orchestrator_enter found _, rfl⟩
  | @reported index running succeeded found =>
    refine ⟨?_, rfl⟩
    have there : self.orchestrator.running[index]? = some running := by
      rw [Process.orchestrator, List.getElem?_map, found, Option.map_some]
    have ended : (self.orchestrator.finished index succeeded) =
        { self.orchestrator with
          running := self.orchestrator.running.eraseIdx index
          queue := self.orchestrator.queue ++ (running.task.completions succeeded).map
            fun completion => ⟨running.batch, completion⟩ } := by
      simp only [Orchestrator.finished, there]
    simp only [Process.explain, Process.ending, found, Machine.run_cons, Machine.run_nil,
      orchestrator, ended]
    simp only [Process.orchestrator, List.eraseIdx_map]

/-- A step of the process is explained by the step system. -/
theorem process_explained {self : Process} (alive : self.aborted = false)
    (event : ProcessEvent) :
    let stepped := (process config mode decoders threads).step self event
    stepped.1.orchestrator =
        (orchestrator config mode).run self.orchestrator (self.explain decoders event) ∧
      stepped.1.aborted = false ∧
      stepped.2 = ((orchestrator config mode).outputs self.orchestrator
        (self.explain decoders event)).flatten := by
  intro stepped
  by_cases inner : event.ofTask = true
  · obtain ⟨step, silent⟩ := process_taskStep config mode decoders threads alive inner
    obtain ⟨image, going⟩ := step.explained config mode decoders threads inner
    refine ⟨image, going.trans alive, silent.trans ?_⟩
    cases event with
    | report index =>
      simp only [Process.explain, Process.ending]
      split
      · rfl
      · rfl
    | choresSample bytes now => contradiction
    | personSample bytes now => contradiction
    | tick now order => contradiction
    | consume => contradiction
    | _ => rfl
  · have taken : stepped = self.step config mode decoders threads event :=
      process_step config mode decoders threads alive event
    rw [taken]
    cases event with
    | choresSample bytes now =>
      simp only [Process.step, Process.explain, OrchestratorHandler.onChoresBytes]
      cases decoders.chores bytes with
      | ok chores => exact ⟨rfl, alive, rfl⟩
      | error error => exact ⟨rfl, alive, rfl⟩
    | personSample bytes now =>
      simp only [Process.step, Process.explain, OrchestratorHandler.onPersonBytes]
      cases decoders.person bytes with
      | ok person => exact ⟨rfl, alive, rfl⟩
      | error error => exact ⟨rfl, alive, rfl⟩
    | receiveError => exact ⟨rfl, alive, rfl⟩
    | tick now order =>
      have same := self.orchestrator_ticked mode now
        (self.coordinator.expireStaleIfIdle config now order)
      have going : (self.ticked mode now
          (self.coordinator.expireStaleIfIdle config now order)).1.aborted = self.aborted := by
        unfold Process.ticked
        split
        · rfl
        · rfl
      refine ⟨same.1, going.trans alive, same.2.trans ?_⟩
      exact (List.append_nil _).symm
    | consume =>
      have same := self.orchestrator_consumed
      have going : self.consumed.1.aborted = self.aborted := by
        unfold Process.consumed
        split
        · rfl
        · rfl
      refine ⟨same.1, going.trans alive, same.2.trans ?_⟩
      exact (List.append_nil _).symm
    | _ => exact absurd rfl inner

/-- The process refines the step system. -/
def processRefinement :
    Refinement (process config mode decoders threads) (orchestrator config mode)
      Observation where
  holds self := self.aborted = false
  image := Process.orchestrator
  explain self := self.explain decoders
  shown := id
  seen := id
  preserved _ event alive := (process_explained config mode decoders threads alive event).2.1
  steps _ event alive := (process_explained config mode decoders threads alive event).1
  answers self event alive := by
    have shown := (process_explained config mode decoders threads alive event).2.2
    rw [List.flatMap_id]
    exact shown

/-- The interleaving of the step system that explains a run from the start. -/
def processExplanation (events : List ProcessEvent) : List SystemEvent :=
  (processRefinement config mode decoders threads).explained .start events

/-- The process starts without a panic. -/
theorem start_holds : (processRefinement config mode decoders threads).holds .start := rfl

/-- No run aborts. -/
theorem process_alive (events : List ProcessEvent) :
    ((process config mode decoders threads).run .start events).aborted = false := by
  have preserved := (processRefinement config mode decoders threads).preserved
  exact (process config mode decoders threads).run_invariant preserved
    (start_holds config mode decoders threads) events

/-- A run reaches what its explanation reaches. -/
theorem process_image (events : List ProcessEvent) :
    ((process config mode decoders threads).run .start events).orchestrator =
      (orchestrator config mode).run .start
        (processExplanation config mode decoders threads events) :=
  (processRefinement config mode decoders threads).image_run
    (start_holds config mode decoders threads) events

/-- A run shows what its explanation shows. -/
theorem process_observations (events : List ProcessEvent) :
    ((process config mode decoders threads).outputs .start events).flatten =
      observations config mode (processExplanation config mode decoders threads events) := by
  have shown := (processRefinement config mode decoders threads).shown_outputs
    (start_holds config mode decoders threads) events
  simp only [processRefinement, List.flatMap_id] at shown
  exact shown

/-- What the surroundings hand over in an explanation is what they hand to the process. -/
theorem filterMap_explain (self : Process) (event : ProcessEvent) :
    (self.explain decoders event).filterMap SystemEvent.input =
      (event.decoded decoders).toList := by
  cases event with
  | choresSample bytes now =>
    simp only [Process.explain, ProcessEvent.decoded]
    cases decoders.chores bytes with
    | ok chores => rfl
    | error error => rfl
  | personSample bytes now =>
    simp only [Process.explain, ProcessEvent.decoded]
    cases decoders.person bytes with
    | ok person => rfl
    | error error => rfl
  | report index =>
    simp only [Process.explain, Process.ending]
    split
    · rfl
    · rfl
  | _ => rfl

/-- Every run of the process is explained: some interleaving of the step system, given the
messages that the decodable payloads encode and the same ticks in the same order, reaches
the same coordinator, tasks and queue and shows the same, and no closure ever panics. -/
theorem process_refines_orchestrator (events : List ProcessEvent) :
    let reached := (process config mode decoders threads).run .start events
    reached.aborted = false ∧ ∃ explained : List SystemEvent,
      reached.orchestrator = (orchestrator config mode).run .start explained ∧
        ((process config mode decoders threads).outputs .start events).flatten =
          observations config mode explained ∧
        explained.filterMap SystemEvent.input = events.filterMap (ProcessEvent.decoded decoders)
        := by
  intro reached
  have alive := process_alive config mode decoders threads events
  refine ⟨alive, processExplanation config mode decoders threads events, ?_, ?_, ?_⟩
  · exact process_image config mode decoders threads events
  · exact process_observations config mode decoders threads events
  · apply (processRefinement config mode decoders threads).filterMap_explained
    · exact fun self event _ => filterMap_explain decoders self event
    · rfl

end Refining

end BossWorker.Rust
