import BossWorker.Base.Positions
import BossWorker.Base.Refinement
import BossWorker.Python.Process
import BossWorker.Verif.SubmissionFailure
import BossWorker.Verif.Timers

/-!
# The Python process refines the coordinator with timers and the coordinator with jobs

The process has payloads, timers and jobs at once. Without its jobs it is the coordinator
with its timers, and without its timers the coordinator with the people its jobs have not
reported, so what is known of either is known of the process. Both hold in either
submission mode: the one thread of a window reports its people in order.
-/

namespace BossWorker.Python

/-- The call that a step makes on the coordinator with its timers, if it is a sample that
parses or a pass over the history. -/
def ProcessEvent.call (parsers : Parsers) : ProcessEvent → Option TimedEvent
  | .choresSample bytes now =>
    match parsers.chores bytes with
    | .ok chores => some (.chores chores now)
    | .error _ => none
  | .personSample bytes now started =>
    match parsers.person bytes with
    | .ok person => some (.person person now started)
    | .error _ => none
  | .prune now => some (.prune now)
  | _ => none

/-- The event is the next step of a job, and it is due. -/
def Process.Due (self : Process) : ProcessEvent → Prop
  | .compute index => ∃ batch task, self.jobs[index]? = some ⟨batch, task, .computing⟩
  | .publish index _ =>
    ∃ batch task summary, self.jobs[index]? = some ⟨batch, task, .publishing summary⟩
  | .report index _ => ∃ batch task succeeded person rest,
    self.jobs[index]? = some ⟨batch, task, .reporting succeeded (person :: rest)⟩
  | _ => False

/-- What a step of the process can do. -/
inductive ProcessStep (config : OrchestratorConfig) (mode : JobSubmissionMode)
    (parsers : Parsers) (self : Process) :
    ProcessEvent → Process × Option Observation → Prop where
  /-- Nothing is due: a payload does not parse, no such timer is outstanding, or no such job
  is at the step. -/
  | idle {event : ProcessEvent} (uncalled : event.call parsers = none)
      (undue : ¬ self.Due event)
      (unfired : ∀ index now starts, event = .fire index now starts →
        self.timed.outstanding[index]? = none) :
      ProcessStep config mode parsers self event (self, none)
  /-- The coordinator is called. -/
  | called {event : ProcessEvent} {call : TimedEvent} (given : event.call parsers = some call) :
      ProcessStep config mode parsers self event
        ({ self with timed := ((timedCoordinator config).step self.timed call).1 }, none)
  /-- A timer flushes, and no window is handed over. -/
  | flushed {index : Nat} {now : Monotonic} {starts : Nat → Bool} {timer : Timer}
      (found : self.timed.outstanding[index]? = some timer)
      (answer : (self.timed.fire config index now).2 = .flushed timer none) :
      ProcessStep config mode parsers self (.fire index now starts)
        ({ self with timed := (self.timed.fire config index now).1 }, none)
  /-- A timer flushes, and a window is handed over. -/
  | attempted {index : Nat} {now : Monotonic} {starts : Nat → Bool} {timer : Timer}
      {submission : Submission} (found : self.timed.outstanding[index]? = some timer)
      (answer : (self.timed.fire config index now).2 = .flushed timer (some submission)) :
      ProcessStep config mode parsers self (.fire index now starts)
        (let submitted := mode.submitWindow submission.chores submission.people starts
        ({ self with
            timed := (self.timed.fire config index now).1
            batches := self.batches + 1
            jobs := self.jobs ++
              submitted.1.map fun task => ⟨self.batches, task, .computing⟩ },
          some (.attempted {
            submission := submission
            started := submitted.1.flatMap Task.people
            outcome := submitted.2 })))
  /-- A job has built its summary. -/
  | built {index batch : Nat} {task : Task} {summary : ChoreFilterSummary}
      (found : self.jobs[index]? = some ⟨batch, task, .computing⟩)
      (made : task.summary = .ok summary) :
      ProcessStep config mode parsers self (.compute index)
        ({ self with jobs := self.jobs.set index ⟨batch, task, .publishing summary⟩ }, none)
  /-- The batch runner of a job has raised. -/
  | raised {index batch : Nat} {task : Task} {error : OutOfRange}
      (found : self.jobs[index]? = some ⟨batch, task, .computing⟩)
      (failed : task.summary = .error error) :
      ProcessStep config mode parsers self (.compute index)
        (self.finallyReports index ⟨batch, task, .computing⟩ false task.people, none)
  /-- The transport has answered a job. -/
  | published {index batch : Nat} {task : Task} {summary : ChoreFilterSummary} {taken : Bool}
      (found : self.jobs[index]? = some ⟨batch, task, .publishing summary⟩) :
      ProcessStep config mode parsers self (.publish index taken)
        (Process.finallyReports
          { self with published :=
              self.published ++ if taken then [⟨batch, summary⟩] else [] }
          index ⟨batch, task, .publishing summary⟩ taken task.people, none)
  /-- A job has reported a person. -/
  | reported {index batch : Nat} {now : Monotonic} {task : Task} {succeeded : Bool}
      {person : PersonAvailability} {rest : List PersonAvailability}
      (found : self.jobs[index]? =
        some ⟨batch, task, .reporting succeeded (person :: rest)⟩) :
      ProcessStep config mode parsers self (.report index now)
        (Process.finallyReports
          { self with timed :=
              ((timedCoordinator config).step self.timed (.complete person succeeded now)).1 }
          index ⟨batch, task, .reporting succeeded (person :: rest)⟩ succeeded rest,
          some (.reported batch person succeeded))

section Steps

variable (config : OrchestratorConfig) (mode : JobSubmissionMode) (parsers : Parsers)
  (self : Process)

/-- Every step does one of them. -/
theorem process_processStep (event : ProcessEvent) :
    ProcessStep config mode parsers self event ((process config mode parsers).step self event) := by
  cases event with
  | choresSample bytes now =>
    simp only [process, Process.onChoresSample]
    cases parsed : parsers.chores bytes with
    | ok chores => exact .called (by simp only [ProcessEvent.call, parsed])
    | error error =>
      exact .idle (by simp only [ProcessEvent.call, parsed]) id (fun _ _ _ same => by contradiction)
  | personSample bytes now started =>
    simp only [process, Process.onPersonSample]
    cases parsed : parsers.person bytes with
    | ok person =>
      have given : (ProcessEvent.personSample bytes now started).call parsers =
          some (.person person now started) := by
        simp only [ProcessEvent.call, parsed]
      exact .called given
    | error error =>
      exact .idle (by simp only [ProcessEvent.call, parsed]) id (fun _ _ _ same => by contradiction)
  | prune now => exact .called rfl
  | fire index now starts =>
    simp only [process, Process.fired]
    cases found : self.timed.outstanding[index]? with
    | none =>
      have same : self.timed.fire config index now = (self.timed, .quiet) := by
        simp only [TimedCoordinator.fire, found]
      rw [same]
      refine .idle rfl id fun other _ _ fires => ?_
      obtain ⟨rfl, _, _⟩ := ProcessEvent.fire.inj fires
      exact found
    | some timer =>
      have answer : (self.timed.fire config index now).2 =
          .flushed timer (self.timed.coordinator.flushCurrentWindow config now).2 := by
        simp only [TimedCoordinator.fire, found]
      cases handed : (self.timed.coordinator.flushCurrentWindow config now).2 with
      | none =>
        rw [handed] at answer
        have split : self.timed.fire config index now =
            ((self.timed.fire config index now).1, .flushed timer none) := by rw [← answer]
        rw [split]
        exact .flushed found answer
      | some submission =>
        rw [handed] at answer
        have split : self.timed.fire config index now =
            ((self.timed.fire config index now).1, .flushed timer (some submission)) := by
          rw [← answer]
        rw [split]
        exact .attempted found answer
  | compute index =>
    simp only [process, Process.computed]
    split
    · rename_i batch task found
      cases made : task.summary with
      | ok summary => exact .built found made
      | error error => exact .raised found made
    · rename_i other
      refine .idle rfl ?_ (fun _ _ _ same => by contradiction)
      rintro ⟨batch, task, found⟩
      exact other batch task found
  | publish index taken =>
    simp only [process, Process.publishedSummary]
    split
    · rename_i batch task summary found
      exact .published found
    · rename_i other
      refine .idle rfl ?_ (fun _ _ _ same => by contradiction)
      rintro ⟨batch, task, summary, found⟩
      exact other batch task summary found
  | report index now =>
    simp only [process, Process.reported]
    split
    · rename_i batch task succeeded person rest found
      exact .reported found
    · rename_i other
      refine .idle rfl ?_ (fun _ _ _ same => by contradiction)
      rintro ⟨batch, task, succeeded, person, rest, found⟩
      exact other batch task succeeded person rest found

/-- The events of the coordinator with its timers that explain a step. -/
def Process.explainTimed (parsers : Parsers) (self : Process) : ProcessEvent → List TimedEvent
  | .fire index now _ => [.fire index now]
  | .report index now =>
    match self.jobs[index]? with
    | some ⟨_, _, .reporting succeeded (person :: _)⟩ => [.complete person succeeded now]
    | _ => []
  | event => (event.call parsers).toList

/-- What the coordinator with its timers hands over. -/
def Answer.submission : Answer → List Submission
  | .flushed _ (some submission) => [submission]
  | _ => []

/-- What the process hands over. -/
def Observation.submission : Option Observation → List Submission
  | some (.attempted attempt) => [attempt.submission]
  | _ => []

/-- The `finally` block of a job does not call the coordinator itself. -/
@[simp] theorem Process.finallyReports_timed (index : Nat) (job : StartedJob) (succeeded : Bool)
    (people : List PersonAvailability) :
    (self.finallyReports index job succeeded people).timed = self.timed := by
  cases people with
  | nil => rfl
  | cons person rest => rfl

/-- A timer that is not outstanding does nothing. -/
theorem TimedCoordinator.fire_of_none {self : TimedCoordinator} {index : Nat}
    (absent : self.outstanding[index]? = none) (now : Monotonic) :
    self.fire config index now = (self, .quiet) := by
  simp only [TimedCoordinator.fire, absent]

/-- A sample or a pass over the history hands nothing over. -/
theorem submission_of_call {event : ProcessEvent} {call : TimedEvent}
    (given : event.call parsers = some call) (timed : TimedCoordinator) :
    Answer.submission ((timedCoordinator config).step timed call).2 = [] := by
  cases event with
  | choresSample bytes now =>
    simp only [ProcessEvent.call] at given
    cases parsed : parsers.chores bytes with
    | error error => simp [parsed] at given
    | ok chores =>
      rw [parsed] at given
      rw [← Option.some.inj given]
      rfl
  | personSample bytes now started =>
    simp only [ProcessEvent.call] at given
    cases parsed : parsers.person bytes with
    | error error => simp [parsed] at given
    | ok person =>
      rw [parsed] at given
      rw [← Option.some.inj given]
      simp only [timedCoordinator, TimedCoordinator.receivePerson]
      cases timed.coordinator.currentWindow with
      | none => rfl
      | some window => rfl
  | prune now =>
    rw [← Option.some.inj given]
    rfl
  | _ => contradiction

/-- A step of the process is explained by the coordinator with its timers. -/
theorem process_explainTimed (event : ProcessEvent) :
    let stepped := (process config mode parsers).step self event
    stepped.1.timed = (timedCoordinator config).run self.timed (self.explainTimed parsers event) ∧
      Observation.submission stepped.2 =
        ((timedCoordinator config).outputs self.timed
          (self.explainTimed parsers event)).flatMap Answer.submission := by
  intro stepped
  have step := process_processStep config mode parsers self event
  change ProcessStep config mode parsers self event stepped at step
  generalize stepped = after at step
  cases step with
  | idle uncalled undue unfired =>
    cases event with
    | fire index now starts =>
      have silent := TimedCoordinator.fire_of_none config (unfired index now starts rfl) now
      change self.timed = (self.timed.fire config index now).1 ∧
        [] = [(self.timed.fire config index now).2].flatMap Answer.submission
      rw [silent]
      exact ⟨rfl, rfl⟩
    | report index now =>
      have none_due : self.explainTimed parsers (.report index now) = [] := by
        simp only [Process.explainTimed]
        split
        · rename_i batch task succeeded person rest found
          exact absurd ⟨batch, task, succeeded, person, rest, found⟩ undue
        · rfl
      rw [none_due]
      exact ⟨rfl, rfl⟩
    | _ =>
      simp only [Process.explainTimed, uncalled]
      exact ⟨rfl, rfl⟩
  | @called event call given =>
    have only : self.explainTimed parsers event = [call] := by
      cases event with
      | fire index now starts => contradiction
      | report index now => contradiction
      | _ => simp only [Process.explainTimed, given, Option.toList_some]
    rw [only]
    refine ⟨rfl, ?_⟩
    change [] = [((timedCoordinator config).step self.timed call).2].flatMap Answer.submission
    rw [List.flatMap_singleton, submission_of_call config parsers given]
  | flushed found answer =>
    refine ⟨rfl, ?_⟩
    simp only [Process.explainTimed, Machine.outputs, Machine.trace_cons, Machine.trace_nil,
      timedCoordinator, answer, List.map_cons, List.map_nil]
    rfl
  | attempted found answer =>
    refine ⟨rfl, ?_⟩
    simp only [Process.explainTimed, Machine.outputs, Machine.trace_cons, Machine.trace_nil,
      timedCoordinator, answer, List.map_cons, List.map_nil]
    rfl
  | built found made => exact ⟨rfl, rfl⟩
  | raised found failed =>
    rw [Process.finallyReports_timed]
    exact ⟨rfl, rfl⟩
  | published found =>
    rw [Process.finallyReports_timed]
    exact ⟨rfl, rfl⟩
  | reported found =>
    rw [Process.finallyReports_timed]
    simp only [Process.explainTimed, found]
    exact ⟨rfl, rfl⟩

/-- For which people the threads of a mode can be started. -/
def JobSubmissionMode.threadStarts (starts : Nat → Bool) : JobSubmissionMode → Nat → Bool
  | .perPerson => starts
  | .windowBatch => fun _ => starts 0

/-- With one answer for all threads, all jobs are started or none. -/
theorem submitWindow_const (people : List PersonAvailability) (started : Bool) :
    (submitWindow people fun _ => started).1 = if started then people else [] := by
  induction people with
  | nil => cases started <;> rfl
  | cons person people ih =>
    cases started with
    | true =>
      simp only [submitWindow, if_true] at ih ⊢
      rw [ih]
    | false => rfl

/-- Either mode starts jobs for the people whose threads can be started. -/
theorem submitWindow_started (chores : Chores) (people : List PersonAvailability)
    (starts : Nat → Bool) :
    (mode.submitWindow chores people starts).1.flatMap Task.people =
      (submitWindow people (mode.threadStarts starts)).1 := by
  cases mode with
  | perPerson =>
    simp only [JobSubmissionMode.submitWindow, PerPersonExecutor.submitWindow,
      List.flatMap_map, Task.people, JobSubmissionMode.threadStarts]
    exact List.flatMap_singleton' _
  | windowBatch =>
    simp only [JobSubmissionMode.submitWindow, WindowBatchExecutor.submitWindow,
      JobSubmissionMode.threadStarts, submitWindow_const]
    cases starts 0 with
    | true => simp [Task.people]
    | false => rfl

/-- People whose jobs have not reported them. -/
def Process.unreported (self : Process) : List PersonAvailability :=
  self.jobs.flatMap StartedJob.remaining

/-- How many people the jobs before a position have not reported. -/
def Process.offset (self : Process) (index : Nat) : Nat :=
  ((self.jobs.take index).flatMap StartedJob.remaining).length

/-- The coordinator with its jobs that a process stands for. -/
def Process.employed (self : Process) : EmployedCoordinator where
  coordinator := self.timed.coordinator
  jobs := self.unreported

/-- The events of the coordinator with its jobs that explain a step. -/
def Process.explainEmployed (mode : JobSubmissionMode) (parsers : Parsers) (self : Process) :
    ProcessEvent → List JobEvent
  | .fire index now starts =>
    match self.timed.outstanding[index]? with
    | some _ => [.flush now (mode.threadStarts starts)]
    | none => []
  | .report index now =>
    match self.jobs[index]? with
    | some ⟨_, _, .reporting succeeded (_ :: _)⟩ =>
      [.finish (self.offset index) succeeded now]
    | _ => []
  | event =>
    match event.call parsers with
    | some (.chores chores now) => [.chores chores now]
    | some (.person person now started) => [.person person now self.timed.nextIdent started]
    | some (.prune now) => [.prune now]
    | _ => []

/-- What the coordinator with its jobs hands over, and for whom jobs are started. -/
def started : Option Attempt → List (Submission × List PersonAvailability)
  | some attempt => [(attempt.submission, attempt.started)]
  | none => []

/-- What the process hands over, and for whom jobs are started. -/
def Observation.started : Option Observation → List (Submission × List PersonAvailability)
  | some (.attempted attempt) => [(attempt.submission, attempt.started)]
  | _ => []

/-- The `finally` block of a job leaves it with the people it is given. -/
theorem Process.unreported_finallyReports {index : Nat} {job : StartedJob}
    (found : self.jobs[index]? = some job) (succeeded : Bool)
    (people : List PersonAvailability) :
    (self.finallyReports index job succeeded people).unreported =
      (self.jobs.take index).flatMap StartedJob.remaining ++
        (people ++ (self.jobs.drop (index + 1)).flatMap StartedJob.remaining) := by
  cases people with
  | nil => exact flatMap_eraseIdx StartedJob.remaining
  | cons person rest => exact flatMap_set StartedJob.remaining found _

/-- A job that goes on with all of its people leaves the same people unreported. -/
theorem Process.unreported_finallyReports_same {index : Nat} {job : StartedJob}
    (found : self.jobs[index]? = some job) (succeeded : Bool) :
    (self.finallyReports index job succeeded job.remaining).unreported = self.unreported := by
  rw [Process.unreported_finallyReports self found, Process.unreported,
    flatMap_split StartedJob.remaining found]

/-- A flush of an outstanding timer is a flush of the coordinator. -/
theorem TimedCoordinator.fire_of_some {self : TimedCoordinator} {index : Nat} {timer : Timer}
    (found : self.outstanding[index]? = some timer) (now : Monotonic) :
    (self.fire config index now).1.coordinator =
        (self.coordinator.flushCurrentWindow config now).1 ∧
      (self.fire config index now).2 =
        .flushed timer (self.coordinator.flushCurrentWindow config now).2 := by
  simp only [TimedCoordinator.fire, found, and_self]

/-- A call on the coordinator with its timers is a call on the coordinator with its jobs. -/
theorem process_explainEmployed_of_call {event : ProcessEvent} {call : TimedEvent}
    (given : event.call parsers = some call) :
    let timed := ((timedCoordinator config).step self.timed call).1
    ({ self with timed := timed } : Process).employed =
        (employedCoordinator config).run self.employed
          (self.explainEmployed mode parsers event) ∧
      [] = ((employedCoordinator config).outputs self.employed
        (self.explainEmployed mode parsers event)).flatMap started := by
  intro timed
  cases event with
  | choresSample bytes now =>
    have known := given
    simp only [ProcessEvent.call] at known
    cases parsed : parsers.chores bytes with
    | error error => simp [parsed] at known
    | ok chores =>
      simp only [parsed, Option.some.injEq] at known
      subst known
      simp only [Process.explainEmployed, given]
      exact ⟨rfl, rfl⟩
  | personSample bytes now started =>
    have known := given
    simp only [ProcessEvent.call] at known
    cases parsed : parsers.person bytes with
    | error error => simp [parsed] at known
    | ok person =>
      simp only [parsed, Option.some.injEq] at known
      subst known
      simp only [Process.explainEmployed, given]
      refine ⟨?_, rfl⟩
      simp only [timed, timedCoordinator, TimedCoordinator.receivePerson]
      cases self.timed.coordinator.currentWindow with
      | none => rfl
      | some window => rfl
  | prune now =>
    have known := Option.some.inj given
    subst known
    exact ⟨rfl, rfl⟩
  | _ => contradiction

/-- The jobs that an executor starts have reported nobody. -/
theorem unreported_spawned (batch : Nat) (tasks : List Task) :
    (tasks.map fun task => StartedJob.mk batch task .computing).flatMap StartedJob.remaining =
      tasks.flatMap Task.people := by
  rw [List.flatMap_map]
  rfl

/-- The next person a job reports is at the offset of the job, and is taken out there. -/
theorem Process.reported_at_offset {index : Nat} {job : StartedJob} {person : PersonAvailability}
    {rest : List PersonAvailability} (found : self.jobs[index]? = some job)
    (next : job.remaining = person :: rest) :
    self.unreported[self.offset index]? = some person ∧
      self.unreported.eraseIdx (self.offset index) =
        (self.jobs.take index).flatMap StartedJob.remaining ++
          (rest ++ (self.jobs.drop (index + 1)).flatMap StartedJob.remaining) := by
  have split := flatMap_split StartedJob.remaining found
  rw [next, List.cons_append] at split
  simp only [Process.unreported, Process.offset, split]
  constructor
  · rw [List.getElem?_append_right (Nat.le_refl _), Nat.sub_self]
    rfl
  · rw [List.eraseIdx_append_of_length_le (Nat.le_refl _), Nat.sub_self]
    rfl

/-- Where nothing is due there is nothing to explain. -/
theorem Process.explainEmployed_of_idle {event : ProcessEvent}
    (uncalled : event.call parsers = none) (undue : ¬ self.Due event)
    (unfired : ∀ index now starts, event = .fire index now starts →
      self.timed.outstanding[index]? = none) :
    self.explainEmployed mode parsers event = [] := by
  cases event with
  | fire index now starts =>
    simp only [Process.explainEmployed, unfired index now starts rfl]
  | report index now =>
    simp only [Process.explainEmployed]
    split
    · rename_i batch task succeeded person rest found
      exact absurd ⟨batch, task, succeeded, person, rest, found⟩ undue
    · rfl
  | _ => simp only [Process.explainEmployed, uncalled]

/-- An outstanding timer that fires is a flush by the threads of the mode. -/
theorem Process.explainEmployed_fire {index : Nat} {timer : Timer}
    (found : self.timed.outstanding[index]? = some timer) (now : Monotonic)
    (starts : Nat → Bool) : self.explainEmployed mode parsers (.fire index now starts) =
      [.flush now (mode.threadStarts starts)] := by
  simp only [Process.explainEmployed, found]

/-- A step of the process is explained by the coordinator with its jobs. -/
theorem process_explainEmployed (event : ProcessEvent) :
    let stepped := (process config mode parsers).step self event
    stepped.1.employed = (employedCoordinator config).run self.employed
        (self.explainEmployed mode parsers event) ∧
      Observation.started stepped.2 =
        ((employedCoordinator config).outputs self.employed
          (self.explainEmployed mode parsers event)).flatMap started := by
  intro stepped
  have step := process_processStep config mode parsers self event
  change ProcessStep config mode parsers self event stepped at step
  generalize stepped = after at step
  cases step with
  | idle uncalled undue unfired =>
    rw [self.explainEmployed_of_idle mode parsers uncalled undue unfired]
    exact ⟨rfl, rfl⟩
  | called given => exact process_explainEmployed_of_call config mode parsers self given
  | @flushed index now starts timer found answer =>
    have flush := TimedCoordinator.fire_of_some config found now
    rw [flush.2, Answer.flushed.injEq] at answer
    have handed : self.employed.flush config now (mode.threadStarts starts) =
        ({ self.employed with coordinator :=
            (self.timed.coordinator.flushCurrentWindow config now).1 }, none) := by
      simp only [EmployedCoordinator.flush, Process.employed, answer.2]
    rw [self.explainEmployed_fire mode parsers found]
    change EmployedCoordinator.mk (self.timed.fire config index now).1.coordinator _ =
        (self.employed.flush config now (mode.threadStarts starts)).1 ∧
      [] = [(self.employed.flush config now (mode.threadStarts starts)).2].flatMap started
    rw [handed, flush.1]
    exact ⟨rfl, rfl⟩
  | @attempted index now starts timer submission found answer =>
    have flush := TimedCoordinator.fire_of_some config found now
    rw [flush.2, Answer.flushed.injEq] at answer
    have handed : self.employed.flush config now (mode.threadStarts starts) =
        (let submitted := submitWindow submission.people (mode.threadStarts starts)
        ({ coordinator := (self.timed.coordinator.flushCurrentWindow config now).1
           jobs := self.unreported ++ submitted.1 },
          some { submission := submission, started := submitted.1, outcome := submitted.2 })) := by
      simp only [EmployedCoordinator.flush, Process.employed, answer.2]
    have same := submitWindow_started mode submission.chores submission.people starts
    rw [self.explainEmployed_fire mode parsers found]
    change EmployedCoordinator.mk (self.timed.fire config index now).1.coordinator
        (List.flatMap StartedJob.remaining (self.jobs ++ _)) =
        (self.employed.flush config now (mode.threadStarts starts)).1 ∧
      [(submission, _)] =
        [(self.employed.flush config now (mode.threadStarts starts)).2].flatMap started
    rw [handed, flush.1, List.flatMap_append, unreported_spawned, same]
    exact ⟨rfl, rfl⟩
  | @built index batch task summary found made =>
    refine ⟨?_, rfl⟩
    have same : (self.jobs.set index ⟨batch, task, .publishing summary⟩).flatMap
        StartedJob.remaining = self.unreported := by
      rw [flatMap_set StartedJob.remaining found, Process.unreported,
        flatMap_split StartedJob.remaining found]
      rfl
    exact congrArg (EmployedCoordinator.mk self.timed.coordinator) same
  | @raised index batch task error found failed =>
    refine ⟨?_, rfl⟩
    have same := self.unreported_finallyReports_same found false
    simp only [Process.employed, Process.finallyReports_timed]
    exact congrArg (EmployedCoordinator.mk self.timed.coordinator) same
  | @published index batch task summary taken found =>
    refine ⟨?_, rfl⟩
    have same := Process.unreported_finallyReports_same
      { self with published := self.published ++ if taken then [⟨batch, summary⟩] else [] }
      found taken
    simp only [Process.employed, Process.finallyReports_timed]
    exact congrArg (EmployedCoordinator.mk self.timed.coordinator) same
  | @reported index batch now task succeeded person rest found =>
    have next := self.reported_at_offset found rfl
    have only : self.explainEmployed mode parsers (.report index now) =
        [.finish (self.offset index) succeeded now] := by
      simp only [Process.explainEmployed, found]
    have left := Process.unreported_finallyReports
      { self with timed :=
          ((timedCoordinator config).step self.timed (.complete person succeeded now)).1 }
      found succeeded rest
    rw [only]
    refine ⟨?_, rfl⟩
    change _ = self.employed.finish config (self.offset index) succeeded now
    simp only [EmployedCoordinator.finish, Process.employed, next.1, next.2,
      Process.finallyReports_timed]
    exact congrArg (EmployedCoordinator.mk _) left

end Steps

section Runs

variable (config : OrchestratorConfig) (mode : JobSubmissionMode) (parsers : Parsers)

/-- The process refines the coordinator with its timers. -/
def timedRefinement :
    Refinement (process config mode parsers) (timedCoordinator config) Submission where
  holds _ := True
  image := Process.timed
  explain self := self.explainTimed parsers
  shown := Observation.submission
  seen := Answer.submission
  preserved _ _ _ := trivial
  steps self event _ := (process_explainTimed config mode parsers self event).1
  answers self event _ := (process_explainTimed config mode parsers self event).2

/-- The process refines the coordinator with its jobs. -/
def employedRefinement :
    Refinement (process config mode parsers) (employedCoordinator config)
      (Submission × List PersonAvailability) where
  holds _ := True
  image := Process.employed
  explain self := self.explainEmployed mode parsers
  shown := Observation.started
  seen := started
  preserved _ _ _ := trivial
  steps self event _ := (process_explainEmployed config mode parsers self event).1
  answers self event _ := (process_explainEmployed config mode parsers self event).2

/-- The events of the coordinator with its jobs that explain a run from the start. -/
def employedExplanation (events : List ProcessEvent) : List JobEvent :=
  (employedRefinement config mode parsers).explained .start events

/-- A call that is a sample or a pass over the history. -/
def TimedEvent.sample : TimedEvent → Option TimedEvent
  | .complete _ _ _ => none
  | .fire _ _ => none
  | event => some event

/-- The calls of an explanation that are samples or passes are those of the step. -/
theorem filterMap_explainTimed (self : Process) (event : ProcessEvent) :
    (self.explainTimed parsers event).filterMap TimedEvent.sample =
      (event.call parsers).toList := by
  cases event with
  | fire index now starts => rfl
  | report index now =>
    simp only [Process.explainTimed]
    split
    · rfl
    · rfl
  | choresSample bytes now =>
    simp only [Process.explainTimed, ProcessEvent.call]
    cases parsers.chores bytes with
    | ok chores => rfl
    | error error => rfl
  | personSample bytes now started =>
    simp only [Process.explainTimed, ProcessEvent.call]
    cases parsers.person bytes with
    | ok person => rfl
    | error error => rfl
  | _ => rfl

/-- Every run of the process, in either submission mode, is a run of the coordinator with its
timers that receives the messages of the payloads that parse, and its coordinator with the
people its jobs have not reported is a run of the coordinator with its jobs; all hand over
the same windows, the last for the same people. -/
theorem process_refines_timers_and_jobs (events : List ProcessEvent) :
    let reached := (process config mode parsers).run .start events
    let shown := (process config mode parsers).outputs .start events
    (∃ calls : List TimedEvent,
        reached.timed = (timedCoordinator config).run .new calls ∧
          shown.flatMap Observation.submission =
            ((timedCoordinator config).outputs .new calls).flatMap Answer.submission ∧
          calls.filterMap TimedEvent.sample = events.filterMap (ProcessEvent.call parsers)) ∧
      ∃ calls : List JobEvent,
        reached.employed = (employedCoordinator config).run .new calls ∧
          shown.flatMap Observation.started =
            ((employedCoordinator config).outputs .new calls).flatMap started := by
  intro reached shown
  constructor
  · refine ⟨(timedRefinement config mode parsers).explained .start events, ?_, ?_, ?_⟩
    · exact (timedRefinement config mode parsers).image_run trivial events
    · exact (timedRefinement config mode parsers).shown_outputs trivial events
    · apply (timedRefinement config mode parsers).filterMap_explained
      · exact fun self event _ => filterMap_explainTimed parsers self event
      · trivial
  · refine ⟨employedExplanation config mode parsers events, ?_, ?_⟩
    · exact (employedRefinement config mode parsers).image_run trivial events
    · exact (employedRefinement config mode parsers).shown_outputs trivial events

end Runs

end BossWorker.Python
