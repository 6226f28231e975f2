import BossWorker.Verif.BatchRunners
import BossWorker.Verif.PythonSummaries
import BossWorker.Verif.Summaries
import Mathlib.Algebra.Group.Action.Defs
import Mathlib.Algebra.Order.BigOperators.Group.List
import Mathlib.Algebra.Order.Ring.Nat

/-!
# Which summaries are true

A summary is true of chores and people when every answer in it is a greedy decision about one
of the people, in exact arithmetic, and the totals are the exact numbers. Every summary that
the Python runner builds is true. One that the Rust runner builds is true exactly when no
machine word wraps, neither the minutes of a person nor a total.
-/

namespace BossWorker.Verif

/-- An answer that is right about a person. -/
structure TrueAnswer (chores : Chores) (person : PersonAvailability)
    (answer : ChoreFilterResult) : Prop where
  /-- The answer is given to the request for this person and these chores. -/
  filterId : answer.filterId = Python.BatchRunner.filterId chores person
  choresId : answer.choresId = chores.choresId
  asked : answer.person = some person
  /-- The chores are split greedily. -/
  decision : ∃ flags, GreedyDecision person.availableMinutes.toNat chores.chores flags answer
  context : answer.context.getD {} = chores.context.getD {}

/-- A summary that is right about people. -/
structure TrueSummary (chores : Chores) (people : List PersonAvailability)
    (summary : ChoreFilterSummary) : Prop where
  choresId : summary.choresId = chores.choresId
  /-- Everybody is answered, in order. -/
  answers : List.Forall₂ (TrueAnswer chores) people summary.results
  /-- The people are counted. -/
  people : summary.totalPeopleEvaluated.toNat = people.length
  /-- The accepted chores are counted. -/
  accepted : summary.totalChoresAccepted.toNat =
    (summary.results.map fun answer => answer.acceptedChores.length).sum
  context : summary.context.getD {} = chores.context.getD {}

section Greedy

variable {available : UInt32} {chores : List Chore} {flags : List Bool}
  {result : ChoreFilterResult}

/-- The same decision is as greedy. -/
theorem GreedyDecision.same {other : ChoreFilterResult} {room : Nat}
    (decided : GreedyDecision room chores flags other) (same : SameDecision result other) :
    GreedyDecision room chores flags result where
  complete := decided.complete
  accepted := same.accepted.trans decided.accepted
  rejected := same.rejected.trans decided.rejected
  greedy := decided.greedy
  used := by rw [same.used, same.accepted, decided.used]
  within := by rw [same.used]; exact decided.within
  remaining := by rw [same.used, same.remaining, decided.remaining]
  left_out := by rw [same.rejected, same.remaining]; exact decided.left_out

/-- Flags in front of a part of the chores decide on that part. -/
theorem kept_take (flags : List Bool) (front : List Chore) :
    kept (flags.take front.length) front = kept flags front := by
  induction front generalizing flags with
  | nil => cases flags <;> rfl
  | cons chore front ih =>
    cases flags with
    | nil => rfl
    | cons flag flags =>
      have rest := ih flags
      cases flag <;> simpa [kept] using rest

/-- A greedy decision leaves no choice. -/
theorem GreedyDecision.flags_eq
    (decided : GreedyDecision available.toNat chores flags result) :
    flags = acceptance available chores := by
  have fronts (front back : List Chore) (split : chores = front ++ back) :
      flags.take front.length = acceptance available front := by
    induction front using List.reverseRecOn generalizing back with
    | nil => rfl
    | append_singleton front chore ih =>
      rw [List.append_assoc, List.singleton_append] at split
      have before := ih (chore :: back) split
      have inside : front.length < flags.length := by
        rw [decided.complete, split, List.length_append, List.length_cons]
        omega
      have choice := decided.greedy front chore back split
      rw [← kept_take, before, sum_minutes_acceptance, List.getElem?_eq_getElem inside,
        Option.some.injEq] at choice
      rw [List.length_append, List.length_singleton, acceptance_concat, ← before,
        List.take_succ_eq_append_getElem inside]
      congr 2
      rw [Bool.eq_iff_iff, choice, decide_eq_true_eq]
  have whole := fronts chores [] (List.append_nil chores).symm
  rw [← decided.complete, List.take_length] at whole
  exact whole

end Greedy

section Python

variable {chores : Chores} {people : List PersonAvailability}

/-- What Python answers to a person is true. -/
theorem pythonAnswer_true (chores : Chores) (person : PersonAvailability) :
    TrueAnswer chores person (pythonAnswer chores person) where
  filterId := rfl
  choresId := rfl
  asked := rfl
  decision := by
    have booked : packedMinutes person.availableMinutes chores.chores ≤
        person.availableMinutes.toNat := packed_le _ _
    have bound := person.availableMinutes.toNat_lt
    have lists := python_lists person.availableMinutes chores.chores
    have used := UInt32.toNat_ofNat_of_lt' (Nat.lt_of_le_of_lt booked bound)
    have rest := UInt32.toNat_ofNat_of_lt' (Nat.lt_of_le_of_lt (Nat.sub_le
      person.availableMinutes.toNat (packedMinutes person.availableMinutes chores.chores)) bound)
    have decided : GreedyDecision person.availableMinutes.toNat chores.chores
        (acceptance person.availableMinutes chores.chores) (pythonAnswer chores person) :=
      greedyDecision_of_loop _ _ lists.1.symm lists.2.symm used rest
    exact ⟨_, decided⟩
  context := Option.getD_some

/-- What Python builds for a window is true. -/
theorem windowSummary_true {summary : ChoreFilterSummary}
    (built : Python.BatchRunner.windowSummary chores people = .ok summary) :
    TrueSummary chores people summary := by
  obtain ⟨fewPeople, fewChores, rfl⟩ := (windowSummary_eq_ok_iff chores people summary).mp built
  refine ⟨rfl, ?_, ?_, ?_, Option.getD_some⟩
  · rw [List.forall₂_map_right_iff, List.forall₂_same]
    exact fun person _ => pythonAnswer_true chores person
  · exact UInt32.toNat_ofNat_of_lt' fewPeople
  · rw [List.map_map]
    exact UInt32.toNat_ofNat_of_lt' fewChores

end Python

/-- Chores whose minutes stay below 2^32 all together never wrap. -/
theorem neverWraps_of_sum (available : UInt32) {chores : List Chore}
    (small : (chores.map minutes).sum < 2 ^ 32) : NeverWraps available chores := by
  intro front chore back split
  have booked := packed_le_sum available.toNat (front.map minutes)
  rw [split, List.map_append, List.sum_append, List.map_cons, List.sum_cons] at small
  rw [packedMinutes]
  omega

/-- Nobody accepts more chores than there are. -/
theorem acceptedCount_le (chores : Chores) (people : List PersonAvailability) :
    acceptedCount chores people ≤ people.length * chores.chores.length := by
  have each : ∀ count ∈ people.map fun person =>
      (kept (acceptance person.availableMinutes chores.chores) chores.chores).length,
      count ≤ chores.chores.length := by
    intro count member
    obtain ⟨person, _, rfl⟩ := List.mem_map.mp member
    rw [kept, List.length_map]
    have filtered := List.length_filter_le Prod.snd
      (chores.chores.zip (acceptance person.availableMinutes chores.chores))
    rw [List.length_zip] at filtered
    omega
  have total := List.sum_le_card_nsmul _ _ each
  rw [List.length_map, smul_eq_mul] at total
  exact total

section Rust

variable (chores : Chores) (people : List PersonAvailability)

/-- What Rust answers to a person is true exactly when no minutes wrap. -/
theorem rustAnswer_true_iff (person : PersonAvailability) :
    TrueAnswer chores person (Rust.jobResult chores person) ↔
      NeverWraps person.availableMinutes chores.chores := by
  constructor
  · intro right
    obtain ⟨flags, decided⟩ := right.decision
    by_contra wraps
    have differ := accepted_ne_of_wraps wraps
    rw [(python_lists person.availableMinutes chores.chores).1, ← decided.flags_eq] at differ
    exact differ decided.accepted
  · intro small
    have same := (sameAnswer_iff chores person).mpr small
    have right := pythonAnswer_true chores person
    obtain ⟨flags, decided⟩ := right.decision
    exact ⟨same.filterId.trans right.filterId, same.choresId.trans right.choresId,
      same.person.trans right.asked, ⟨flags, decided.same same.decision⟩,
      same.context.trans right.context⟩

/-- What Rust builds for a window is true exactly when no minutes wrap and the totals fit. -/
theorem rustSummary_true_iff :
    TrueSummary chores people (Rust.BatchRunner.buildSummary chores.choresId chores.context
        (people.map (Rust.jobResult chores))) ↔
      (∀ person ∈ people, NeverWraps person.availableMinutes chores.chores) ∧
        people.length < 2 ^ 32 ∧ acceptedCount chores people < 2 ^ 32 := by
  have answers : List.Forall₂ (TrueAnswer chores) people (people.map (Rust.jobResult chores)) ↔
      ∀ person ∈ people, NeverWraps person.availableMinutes chores.chores := by
    rw [List.forall₂_map_right_iff, List.forall₂_same]
    exact forall₂_congr fun person _ => rustAnswer_true_iff chores person
  have word (number : Nat) : (UInt32.ofNat number).toNat = number ↔ number < 2 ^ 32 := by
    constructor
    · intro same
      rw [← same]
      exact (UInt32.ofNat number).toNat_lt
    · exact fun small => UInt32.toNat_ofNat_of_lt' small
  have counted (small : ∀ person ∈ people, NeverWraps person.availableMinutes chores.chores) :
      ((people.map (Rust.jobResult chores)).map fun answer =>
        answer.acceptedChores.length) = people.map fun person =>
          (kept (acceptance person.availableMinutes chores.chores) chores.chores).length := by
    rw [List.map_map]
    apply List.map_congr_left
    intro person member
    have same := (sameAnswer_iff chores person).mpr (small person member)
    exact congrArg List.length same.decision.accepted
  have evaluated : (Rust.BatchRunner.buildSummary chores.choresId chores.context
      (people.map (Rust.jobResult chores))).totalPeopleEvaluated =
        UInt32.ofNat people.length := by
    rw [Rust.BatchRunner.buildSummary, List.length_map]
  have accepted : (Rust.BatchRunner.buildSummary chores.choresId chores.context
      (people.map (Rust.jobResult chores))).totalChoresAccepted =
        UInt32.ofNat ((people.map (Rust.jobResult chores)).map fun answer =>
          answer.acceptedChores.length).sum := by
    rw [Rust.BatchRunner.buildSummary, ← sum_map_ofNat]
  constructor
  · intro right
    have small := answers.mp right.answers
    have total := right.accepted
    rw [accepted] at total
    have fits := (word _).mp total
    rw [counted small] at fits
    refine ⟨small, ?_, fits⟩
    rw [← word, ← evaluated]
    exact right.people
  · intro small
    refine ⟨rfl, answers.mpr small.1, ?_, ?_, rfl⟩
    · rw [evaluated]
      exact (word _).mpr small.2.1
    · rw [accepted]
      apply (word _).mpr
      rw [counted small.1]
      exact small.2.2

end Rust

/-- In every run of the Python orchestrator all published summaries are true of the chores of
their call and of people of its window. In every run of the Rust orchestrator a published summary
is built from the chores of its call and the answers to the people of one of its tasks, and is
true of them exactly when no minutes and no total wraps. -/
theorem published_summaries_true :
    (∀ config mode parsers events,
      let shown := (Python.process config mode parsers).outputs .start events
      ∀ entry ∈ ((Python.process config mode parsers).run .start events).published,
        ∃ attempt people, (Python.attempts shown)[entry.batch]? = some attempt ∧
          people.Sublist attempt.submission.people ∧
          TrueSummary attempt.submission.chores people entry.summary) ∧
    ∀ config mode decoders threads events,
      let log := Rust.processLog config mode decoders threads events
      ∀ entry ∈ ((Rust.process config mode decoders threads).run .start events).published,
        ∃ submission task, (Rust.submissions log)[entry.batch]? = some submission ∧
          task ∈ mode.submitWindow submission.chores submission.people ∧
          task.people.Sublist submission.people ∧
          entry.summary = Rust.BatchRunner.buildSummary submission.chores.choresId
            submission.chores.context (task.people.map (Rust.jobResult submission.chores)) ∧
          (TrueSummary submission.chores task.people entry.summary ↔
            (∀ person ∈ task.people,
              NeverWraps person.availableMinutes submission.chores.chores) ∧
            task.people.length < 2 ^ 32 ∧
            acceptedCount submission.chores task.people < 2 ^ 32) := by
  constructor
  · intro config mode parsers events shown entry member
    obtain ⟨attempt, people, found, within, built⟩ :=
      Python.exists_windowSummary_of_published config mode parsers events member
    exact ⟨attempt, people, found, within, windowSummary_true built⟩
  · intro config mode decoders threads events log entry member
    obtain ⟨submission, task, found, spawned, same⟩ :=
      Rust.exists_task_of_published config mode decoders threads events member
    refine ⟨submission, task, found, spawned,
      Rust.people_sublist_of_mem_submitWindow spawned, same, ?_⟩
    rw [same]
    exact rustSummary_true_iff submission.chores task.people

end BossWorker.Verif
