import BossWorker.Python.Executor
import BossWorker.Verif.PythonCoordinator
import Mathlib.Algebra.GroupWithZero.Nat

/-!
# A job that cannot be started

A flush counts and records everybody it selects before the executor starts the first job.
The count comes down one report at a time, so people whose jobs never start stay in it for
good: the active count is the number of running jobs and of all such people so far, and the
first of them is the end of accepted windows.
-/

namespace BossWorker.Python

/-- The executor starts jobs for a front part of the people, and raises exactly when
somebody is left. -/
theorem submitWindow_spec (people : List PersonAvailability) (starts : Nat → Bool) :
    ∃ unstarted, people = (submitWindow people starts).1 ++ unstarted ∧
      ((submitWindow people starts).2 = .raised ↔ unstarted ≠ []) := by
  induction people generalizing starts with
  | nil => exact ⟨[], rfl, by simp [submitWindow]⟩
  | cons person people ih =>
    unfold submitWindow
    by_cases first : starts 0
    · obtain ⟨unstarted, split, left⟩ := ih fun index => starts (index + 1)
      refine ⟨unstarted, ?_, ?_⟩
      · rw [if_pos first, List.cons_append, ← split]
      · rw [if_pos first]
        exact left
    · refine ⟨person :: people, ?_, ?_⟩
      · rw [if_neg first, List.nil_append]
      · rw [if_neg first]
        exact iff_of_true rfl (List.cons_ne_nil person people)

/-- People of a window whose jobs were not started. -/
def Attempt.unstarted (attempt : Attempt) : List PersonAvailability :=
  attempt.submission.people.drop attempt.started.length

/-- People whose jobs a call failed to start. -/
def missed (output : Option Attempt) : Nat := output.elim 0 fun attempt => attempt.unstarted.length

/-- People whose jobs were never started, over a whole trace. -/
def leaked (trace : List (Transition EmployedCoordinator JobEvent (Option Attempt))) : Nat :=
  (trace.map fun step => missed step.output).sum

/-- Everybody counted as active has a job that will report, or is one of so many who have
none. -/
def Accounted (self : EmployedCoordinator) (count : Nat) : Prop :=
  self.coordinator.activeFilterCount = self.jobs.length + count

/-- What a flush does to the coordinator and its jobs. -/
inductive FlushStep (config : OrchestratorConfig) (self : EmployedCoordinator)
    (now : Monotonic) : EmployedCoordinator × Option Attempt → Prop where
  /-- No window is handed over. -/
  | refused (coordinator : BatchCoordinator)
    (same : coordinator.activeFilterCount = self.coordinator.activeFilterCount) :
    FlushStep config self now ({ self with coordinator := coordinator }, none)
  /-- A window is handed over, and jobs are started for a front part of its people. -/
  | attempted (coordinator : BatchCoordinator) (attempt : Attempt)
    (idle : self.coordinator.activeFilterCount ≤ 0)
    (counted : coordinator.activeFilterCount =
      self.coordinator.activeFilterCount + attempt.submission.people.length)
    (recorded : ∀ person ∈ attempt.submission.people,
      coordinator.personLastSelected.get? person.personId = some now)
    (split : attempt.submission.people = attempt.started ++ attempt.unstarted)
    (raised : attempt.outcome = .raised ↔ attempt.unstarted ≠ []) :
    FlushStep config self now
      ({ coordinator := coordinator, jobs := self.jobs ++ attempt.started }, some attempt)

/-- Every flush does one of the two. -/
theorem flush_flushStep (config : OrchestratorConfig) (self : EmployedCoordinator)
    (now : Monotonic) (starts : Nat → Bool) :
    FlushStep config self now (self.flush config now starts) := by
  have outcome := self.coordinator.flushCurrentWindow_flushed config now
  unfold EmployedCoordinator.flush
  generalize self.coordinator.flushCurrentWindow config now = flushed at outcome
  cases outcome with
  | absent closed => exact .refused _ rfl
  | dropped window opened refused => exact .refused _ rfl
  | accepted window chores opened latest pending idle =>
    let submission := self.coordinator.submission config chores window
    obtain ⟨unstarted, split, left⟩ := submitWindow_spec submission.people starts
    have rest : submission.people.drop (submitWindow submission.people starts).1.length =
        unstarted := by
      rw [congrArg (List.drop _) split, List.drop_left]
    refine .attempted _ ⟨submission, _, _⟩ idle
      (self.coordinator.accepted_activeFilterCount config now window chores)
      (fun person member => self.coordinator.accepted_get? config now window chores member) ?_ ?_
    · change submission.people = _ ++ submission.people.drop _
      rw [rest]
      exact split
    · change _ ↔ submission.people.drop _ ≠ []
      rw [rest]
      exact left

/-- A call keeps the account, and adds the people it fails to start jobs for. -/
theorem Accounted.step {self : EmployedCoordinator} {count : Nat}
    (accounted : Accounted self count) (config : OrchestratorConfig) (event : JobEvent) :
    let result := (employedCoordinator config).step self event
    Accounted result.1 (count + missed result.2) := by
  intro result
  unfold Accounted at accounted ⊢
  cases event with
  | chores chores now => exact accounted
  | prune now => exact accounted
  | person person now ident started =>
    have kept := self.coordinator.receivePerson_activeFilterCount config person now ident started
    exact kept.trans accounted
  | flush now starts =>
    have stepped := flush_flushStep config self now starts
    change FlushStep config self now result at stepped
    generalize result = result at stepped ⊢
    cases stepped with
    | refused coordinator same => exact same.trans accounted
    | attempted coordinator attempt idle counted recorded split raised =>
      have people := congrArg List.length split
      rw [List.length_append] at people
      change coordinator.activeFilterCount = ((self.jobs ++ attempt.started).length : ℤ) +
        ((count + attempt.unstarted.length : Nat) : ℤ)
      rw [counted, List.length_append]
      omega
  | finish index succeeded now =>
    change (self.finish config index succeeded now).coordinator.activeFilterCount =
      ((self.finish config index succeeded now).jobs.length : ℤ) + ((count + 0 : Nat) : ℤ)
    unfold EmployedCoordinator.finish
    cases found : self.jobs[index]? with
    | none => exact accounted
    | some person =>
      have inside := (List.getElem?_eq_some_iff.mp found).1
      have fewer := List.length_eraseIdx_of_lt inside
      have active : 0 < self.coordinator.activeFilterCount := by omega
      have lowered := self.coordinator.onPersonComplete_activeFilterCount config person
        succeeded now active
      simp only
      omega

/-- In every run the active count is the number of running jobs and of people whose jobs
were never started. -/
theorem run_accounted (config : OrchestratorConfig) {self : EmployedCoordinator} {count : Nat}
    (accounted : Accounted self count) (events : List JobEvent) :
    Accounted ((employedCoordinator config).run self events)
      (count + leaked ((employedCoordinator config).trace self events)) := by
  apply (employedCoordinator config).run_history
    (fun _ last trace => Accounted last (count + leaked trace)) accounted
  intro before event earlier
  have more := earlier.step config event
  rw [leaked, List.map_append, List.sum_append, List.map_singleton, List.sum_singleton,
    ← Nat.add_assoc]
  exact more

/-- While somebody without a job is counted, no window is handed over. -/
theorem Accounted.refuses {self : EmployedCoordinator} {count : Nat}
    (accounted : Accounted self count) (leaking : 0 < count) (config : OrchestratorConfig)
    (event : JobEvent) : ((employedCoordinator config).step self event).2 = none := by
  cases event with
  | flush now starts =>
    have stepped := flush_flushStep config self now starts
    change (self.flush config now starts).2 = none
    generalize self.flush config now starts = result at stepped
    cases stepped with
    | refused coordinator same => rfl
    | attempted coordinator attempt idle counted recorded split raised =>
      unfold Accounted at accounted
      omega
  | _ => rfl

section Failed

variable {config : OrchestratorConfig} {history : List JobEvent} {now : Monotonic}
  {starts : Nat → Bool} {attempt : Attempt}

/-- After a flush whose submission raised, the jobs are those that were started, the people
without a job are counted as active, and the whole window is recorded as selected. -/
theorem after_failed_flush
    (submitted : ((employedCoordinator config).step
      ((employedCoordinator config).run .new history) (.flush now starts)).2 = some attempt)
    (raised : attempt.outcome = .raised) :
    let after := (employedCoordinator config).run .new (history ++ [.flush now starts])
    after.jobs = attempt.started ∧ 0 < attempt.unstarted.length ∧
      Accounted after attempt.unstarted.length ∧
      ∀ person ∈ attempt.submission.people,
        after.coordinator.personLastSelected.get? person.personId = some now := by
  intro after
  have initial : Accounted .new 0 := rfl
  have accounted := run_accounted config initial history
  generalize leaked _ = count at accounted
  have stepped := flush_flushStep config ((employedCoordinator config).run .new history) now starts
  have reached : after =
      (((employedCoordinator config).run .new history).flush config now starts).1 :=
    (employedCoordinator config).run_concat .new history _
  change (((employedCoordinator config).run .new history).flush config now starts).2 = _
    at submitted
  rw [reached]
  generalize (employedCoordinator config).run .new history = before at accounted stepped submitted
  generalize before.flush config now starts = result at stepped submitted
  cases stepped with
  | refused coordinator same => contradiction
  | attempted coordinator other idle counted recorded split outcome =>
    obtain rfl : other = attempt := Option.some.inj submitted
    unfold Accounted at accounted
    have free : before.jobs = [] := List.length_eq_zero_iff.mp (by omega)
    have people := congrArg List.length split
    rw [List.length_append] at people
    refine ⟨?_, List.length_pos_iff.mpr (outcome.mp raised), ?_, recorded⟩
    · change before.jobs ++ other.started = other.started
      rw [free, List.nil_append]
    · change coordinator.activeFilterCount =
        ((before.jobs ++ other.started).length : ℤ) + (other.unstarted.length : ℤ)
      rw [free, List.nil_append]
      rw [free, List.length_nil] at accounted
      omega

/-- Whatever happens after such a flush, the people without a job stay counted and no window
is handed over again. -/
theorem leak_is_permanent
    (submitted : ((employedCoordinator config).step
      ((employedCoordinator config).run .new history) (.flush now starts)).2 = some attempt)
    (raised : attempt.outcome = .raised) (later : List JobEvent) :
    let after := (employedCoordinator config).run .new (history ++ [.flush now starts])
    Accounted ((employedCoordinator config).run after later) attempt.unstarted.length ∧
      ∀ step ∈ (employedCoordinator config).trace after later, step.output = none := by
  intro after
  obtain ⟨_, leaking, accounted, _⟩ := after_failed_flush submitted raised
  have preserved (self : EmployedCoordinator) (event : JobEvent)
      (holds : Accounted self attempt.unstarted.length) :
      Accounted ((employedCoordinator config).step self event).1 attempt.unstarted.length := by
    have next : Accounted ((employedCoordinator config).step self event).1
        (attempt.unstarted.length + missed ((employedCoordinator config).step self event).2) :=
      holds.step config event
    rw [holds.refuses leaking config event] at next
    exact next
  constructor
  · exact (employedCoordinator config).run_invariant preserved accounted later
  · intro step member
    have before := ((employedCoordinator config).trace_invariant
      (fun self event holds (_ : True) => preserved self event holds) accounted later
      (fun _ _ => trivial) step member).1
    have silent := before.refuses leaking config step.event
    rwa [(employedCoordinator config).step_of_mem_trace member] at silent

end Failed

/-- The event is the report of a job. -/
def JobEvent.IsReport : JobEvent → Prop
  | .finish _ _ _ => True
  | _ => False

/-- All jobs can report, one after the other. -/
theorem exists_all_reported (config : OrchestratorConfig) (self : EmployedCoordinator)
    (now : Monotonic) :
    ∃ reports, (∀ event ∈ reports, event.IsReport) ∧
      ((employedCoordinator config).run self reports).jobs = [] := by
  induction size : self.jobs.length generalizing self with
  | zero => exact ⟨[], List.forall_mem_nil _, List.length_eq_zero_iff.mp size⟩
  | succ count ih =>
    obtain ⟨person, jobs, listed⟩ := List.exists_cons_of_length_eq_add_one size
    have fewer : (self.finish config 0 true now).jobs.length = count := by
      simp only [EmployedCoordinator.finish, listed, List.getElem?_cons_zero,
        List.eraseIdx_cons_zero]
      rw [listed, List.length_cons] at size
      omega
    obtain ⟨reports, only, finished⟩ := ih (self.finish config 0 true now) fewer
    exact ⟨.finish 0 true now :: reports, List.forall_mem_cons.mpr ⟨trivial, only⟩, finished⟩

/-- Once the started jobs have reported and nothing else has happened, the active count is
zero, nobody whose job never started is recorded as selected by the window, and the next
window is accepted. -/
def CapacityRestored (config : OrchestratorConfig) (after : EmployedCoordinator)
    (attempt : Attempt) (now : Monotonic) : Prop :=
  ∀ reports : List JobEvent, (∀ event ∈ reports, event.IsReport) →
    let reached := (employedCoordinator config).run after reports
    reached.jobs = [] → reached.coordinator.activeFilterCount = 0 ∧
      (∀ person ∈ attempt.unstarted,
        reached.coordinator.personLastSelected.get? person.personId ≠ some now) ∧
      reached.coordinator.AcceptsWindows config

/-- In no reachable state and for no window does a submission that raises part of the way
give its capacity back: the whole window is recorded as selected, whatever happens later the
people without a job stay counted, and no window is handed over again. -/
theorem failed_submission_leaks (config : OrchestratorConfig) (history : List JobEvent)
    (now : Monotonic) (starts : Nat → Bool) (attempt : Attempt)
    (submitted : ((employedCoordinator config).step
      ((employedCoordinator config).run .new history) (.flush now starts)).2 = some attempt)
    (raised : attempt.outcome = .raised) :
    let after := (employedCoordinator config).run .new (history ++ [.flush now starts])
    ¬ CapacityRestored config after attempt now ∧
      (∀ person ∈ attempt.submission.people,
        after.coordinator.personLastSelected.get? person.personId = some now) ∧
      ∀ later, let reached := (employedCoordinator config).run after later
        reached.coordinator.activeFilterCount =
            reached.jobs.length + attempt.unstarted.length ∧
          0 < reached.coordinator.activeFilterCount ∧
          ∀ step ∈ (employedCoordinator config).trace after later, step.output = none := by
  intro after
  obtain ⟨_, leaking, _, recorded⟩ := after_failed_flush submitted raised
  refine ⟨fun restored => ?_, recorded, fun later => ?_⟩
  · obtain ⟨reports, only, finished⟩ := exists_all_reported config after now
    have accounted := (leak_is_permanent submitted raised reports).1
    have idle := (restored reports only finished).1
    change ((employedCoordinator config).run after reports).coordinator.activeFilterCount =
      _ at accounted
    rw [finished, List.length_nil] at accounted
    omega
  · obtain ⟨accounted, silent⟩ := leak_is_permanent submitted raised later
    unfold Accounted at accounted
    refine ⟨accounted, ?_, silent⟩
    rw [accounted]
    omega

/-- Chores and two people in one window. -/
def twoPeople : List JobEvent :=
  [.chores {} 1, .person { personId := "amy" } 2 0 true, .person { personId := "bob" } 3 0 true]

/-- The window of the two people, with a job for amy alone. -/
def amyAlone : Attempt where
  submission := { chores := {}, people := [{ personId := "amy" }, { personId := "bob" }] }
  started := [{ personId := "amy" }]
  outcome := .raised

/-- The second job cannot be started. -/
theorem failed_submission_leaks_second :
    let after := (employedCoordinator ⟨2, 5, 60⟩).run .new (twoPeople ++ [.flush 7 (· = 0)])
    ¬ CapacityRestored ⟨2, 5, 60⟩ after amyAlone 7 ∧
      after.coordinator.personLastSelected.get? "bob" = some 7 :=
  let leaks := failed_submission_leaks _ twoPeople 7 (· = 0) amyAlone (by decide +kernel) rfl
  ⟨leaks.1, leaks.2.1 { personId := "bob" } (by decide)⟩

/-- When amy's job has reported, bob's place is still taken, he is recorded as selected and
the next window is dropped. -/
example :
    let reached := (employedCoordinator ⟨2, 5, 60⟩).run .new
      (twoPeople ++ [.flush 7 (· = 0), .finish 0 true 8, .person { personId := "cat" } 9 1 true])
    reached.jobs = [] ∧ reached.coordinator.activeFilterCount = 1 ∧
      reached.coordinator.personLastSelected.get? "bob" = some 7 ∧
      (reached.coordinator.flushCurrentWindow ⟨2, 5, 60⟩ 14).2 = none := by
  decide +kernel

/-- With no job started at all, both places are taken at once and for good. -/
theorem no_job_not_restored :
    ¬ CapacityRestored ⟨2, 5, 60⟩
      ((employedCoordinator ⟨2, 5, 60⟩).run .new (twoPeople ++ [.flush 7 fun _ => false]))
      { amyAlone with started := [] } 7 := by
  intro restored
  have idle := (restored [] (List.forall_mem_nil _) (by decide +kernel)).1
  exact absurd idle (by decide +kernel)

end BossWorker.Python
