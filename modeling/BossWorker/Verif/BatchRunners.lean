import BossWorker.Python.BatchRunner
import BossWorker.Verif.Greedy
import BossWorker.Verif.Modes

/-!
# The batch runners against each other

For the same chores and people the Rust and the Python batch runner publish the same report
as long as no minutes wrap and the totals fit their fields. Beyond that Rust reports wrapped
words, while Python raises and publishes nothing.
-/

namespace BossWorker.Verif

/-- The same answer to a person, up to a context that is absent on one side and the default
one on the other. -/
structure SameAnswer (rust python : ChoreFilterResult) : Prop where
  filterId : rust.filterId = python.filterId
  choresId : rust.choresId = python.choresId
  person : rust.person = python.person
  decision : SameDecision rust python
  context : rust.context.getD {} = python.context.getD {}

/-- The same report on a window, up to absent contexts. -/
structure SameSummary (rust python : ChoreFilterSummary) : Prop where
  choresId : rust.choresId = python.choresId
  people : rust.totalPeopleEvaluated = python.totalPeopleEvaluated
  accepted : rust.totalChoresAccepted = python.totalChoresAccepted
  results : List.Forall₂ SameAnswer rust.results python.results
  context : rust.context.getD {} = python.context.getD {}

/-- Both runners publish one summary and return, and the summaries are the same. -/
def RunnersAgree (rustRun : Rust.JobOutcome) (pythonRun : Python.JobOutcome) : Prop :=
  ∃ rust python, rustRun = ⟨[rust], true⟩ ∧ pythonRun = ⟨[python], true⟩ ∧
    SameSummary rust python

/-- Rust publishes one summary, and Python raises and publishes none, or publishes another. -/
def RunnersDiffer (rustRun : Rust.JobOutcome) (pythonRun : Python.JobOutcome) : Prop :=
  ∃ rust, rustRun = ⟨[rust], true⟩ ∧ (pythonRun = ⟨[], false⟩ ∨
    ∃ python, pythonRun = ⟨[python], true⟩ ∧ ¬ SameSummary rust python)

/-- The transport that takes every summary. -/
def takesAll (_ : ChoreFilterSummary) : Bool := true

section Answers

variable (chores : Chores) (person : PersonAvailability)

/-- What Python answers to a person. -/
def pythonAnswer : ChoreFilterResult where
  filterId := Python.BatchRunner.filterId chores person
  choresId := chores.choresId
  person := some person
  acceptedChores := kept (acceptance person.availableMinutes chores.chores) chores.chores
  rejectedChores :=
    kept ((acceptance person.availableMinutes chores.chores).map not) chores.chores
  usedMinutes := UInt32.ofNat (packedMinutes person.availableMinutes chores.chores)
  remainingMinutes := UInt32.ofNat (person.availableMinutes.toNat -
    packedMinutes person.availableMinutes chores.chores)
  context := some (chores.context.getD {})

/-- Python answers a person without an exception. -/
theorem answer_eq : Python.BatchRunner.answer chores person = .ok (pythonAnswer chores person) := by
  have used := python_usedMinutes person.availableMinutes chores.chores
  have lists := python_lists person.availableMinutes chores.chores
  have booked : packedMinutes person.availableMinutes chores.chores ≤
      person.availableMinutes.toNat := packed_le _ _
  have bound := person.availableMinutes.toNat_lt
  have left : max ((person.availableMinutes.toNat : ℤ) -
      (packedMinutes person.availableMinutes chores.chores : ℤ)) 0 =
      ((person.availableMinutes.toNat -
        packedMinutes person.availableMinutes chores.chores : Nat) : ℤ) := by
    omega
  have fits := Nat.lt_of_le_of_lt booked bound
  have rest := Nat.lt_of_le_of_lt
    (Nat.sub_le _ (packedMinutes person.availableMinutes chores.chores)) bound
  simp only [Python.BatchRunner.answer, Python.processChoreFilterRequest,
    Python.BatchRunner.buildChoreFilterRequest, Option.getD_some]
  rw [used, left, Python.uint32_natCast fits, Python.uint32_natCast rest, lists.1, lists.2]
  rfl

/-- The answers are the same exactly when no minutes wrap. -/
theorem sameAnswer_iff : SameAnswer (Rust.jobResult chores person) (pythonAnswer chores person) ↔
    NeverWraps person.availableMinutes chores.chores := by
  constructor
  · intro same
    by_contra wraps
    have differ := accepted_ne_of_wraps wraps
    rw [(python_lists person.availableMinutes chores.chores).1] at differ
    exact differ same.decision.accepted
  · intro small
    have together := run_sameLoop small
    have used := python_usedMinutes person.availableMinutes chores.chores
    have lists := python_lists person.availableMinutes chores.chores
    have booked : packedMinutes person.availableMinutes chores.chores ≤
        person.availableMinutes.toNat := packed_le _ _
    have fits := Nat.lt_of_le_of_lt booked person.availableMinutes.toNat_lt
    have rest := Nat.lt_of_le_of_lt
      (Nat.sub_le _ (packedMinutes person.availableMinutes chores.chores))
      person.availableMinutes.toNat_lt
    have word : (Rust.FilterLoop.start.run person.availableMinutes chores.chores).usedMinutes =
        UInt32.ofNat (packedMinutes person.availableMinutes chores.chores) := by
      apply UInt32.toNat_inj.mp
      rw [together.used, used, UInt32.toNat_ofNat_of_lt' fits]
    refine ⟨rfl, rfl, rfl, ⟨together.accepted.trans lists.1, together.rejected.trans lists.2,
      word, ?_⟩, ?_⟩
    · apply UInt32.toNat_inj.mp
      have within : UInt32.ofNat (packedMinutes person.availableMinutes chores.chores) ≤
          person.availableMinutes := by
        rw [UInt32.le_iff_toNat_le, UInt32.toNat_ofNat_of_lt' fits]
        exact booked
      change (Rust.saturatingSub person.availableMinutes
        (Rust.FilterLoop.start.run person.availableMinutes chores.chores).usedMinutes).toNat = _
      rw [word, Rust.saturatingSub, if_pos within, UInt32.toNat_sub_of_le _ _ within,
        UInt32.toNat_ofNat_of_lt' fits]
      exact (UInt32.toNat_ofNat_of_lt' rest).symm
    · change chores.context.getD {} = (some (chores.context.getD {})).getD {}
      rw [Option.getD_some]

end Answers

section Summaries

variable (chores : Chores) (people : List PersonAvailability)

/-- Chores that an exact greedy packing accepts for all people together. -/
def acceptedCount : Nat :=
  (people.map fun person =>
    (kept (acceptance person.availableMinutes chores.chores) chores.chores).length).sum

/-- Python builds the summary of a window exactly when both totals fit their fields. -/
theorem windowSummary_eq : Python.BatchRunner.windowSummary chores people = do
    let totalPeopleEvaluated ← Python.uint32 people.length
    let totalChoresAccepted ← Python.uint32 (acceptedCount chores people)
    return {
      choresId := chores.choresId
      totalPeopleEvaluated := totalPeopleEvaluated
      totalChoresAccepted := totalChoresAccepted
      context := some (chores.context.getD {})
      results := people.map (pythonAnswer chores) } := by
  have answered : people.mapM (Python.BatchRunner.answer chores) =
      pure (people.map (pythonAnswer chores)) := by
    rw [funext (answer_eq chores)]
    exact List.mapM_pure
  have total : ((people.map (pythonAnswer chores)).map fun result =>
      result.acceptedChores.length).sum = acceptedCount chores people := by
    rw [List.map_map]
    rfl
  rw [Python.BatchRunner.windowSummary, answered, pure_bind, Python.BatchRunner.buildSummary,
    List.length_map, total]

/-- Words of numbers sum up to the word of the sum. -/
theorem sum_map_ofNat {α : Type} (items : List α) (number : α → Nat) :
    (items.map fun item => UInt32.ofNat (number item)).sum =
      UInt32.ofNat (items.map number).sum := by
  induction items with
  | nil => rfl
  | cons item items ih =>
    rw [List.map_cons, List.sum_cons, ih, List.map_cons, List.sum_cons, UInt32.ofNat_add]

/-- A field takes a number exactly when it is small. -/
theorem uint32_eq_ok_iff (number : Nat) (word : UInt32) :
    Python.uint32 number = .ok word ↔ number < 2 ^ 32 ∧ word = UInt32.ofNat number := by
  constructor
  · intro stored
    have same := Python.eq_toNat_of_uint32 stored
    have exact_number : number = word.toNat := by omega
    have small : number < 2 ^ 32 := by
      rw [exact_number]
      exact word.toNat_lt
    rw [Python.uint32_natCast small, Except.ok.injEq] at stored
    exact ⟨small, stored.symm⟩
  · intro small
    rw [Python.uint32_natCast small.1, small.2]

/-- What Python publishes for a window. -/
theorem windowSummary_eq_ok_iff (summary : ChoreFilterSummary) :
    Python.BatchRunner.windowSummary chores people = .ok summary ↔
      people.length < 2 ^ 32 ∧ acceptedCount chores people < 2 ^ 32 ∧ summary = {
        choresId := chores.choresId
        totalPeopleEvaluated := UInt32.ofNat people.length
        totalChoresAccepted := UInt32.ofNat (acceptedCount chores people)
        context := some (chores.context.getD {})
        results := people.map (pythonAnswer chores) } := by
  rw [windowSummary_eq]
  constructor
  · intro built
    cases counted : Python.uint32 (people.length : ℤ) with
    | error error =>
      rw [counted] at built
      cases built
    | ok evaluated =>
      cases accepting : Python.uint32 (acceptedCount chores people : ℤ) with
      | error error =>
        rw [counted, accepting] at built
        cases built
      | ok accepted =>
        rw [counted, accepting] at built
        have first := (uint32_eq_ok_iff _ _).mp counted
        have second := (uint32_eq_ok_iff _ _).mp accepting
        rw [← first.2, ← second.2]
        exact ⟨first.1, second.1, (Except.ok.inj built).symm⟩
  · intro small
    rw [Python.uint32_natCast small.1, Python.uint32_natCast small.2.1, small.2.2]
    rfl

/-- The runners agree on a window exactly when no minutes wrap and the totals fit. -/
theorem window_agree_iff :
    RunnersAgree (Rust.BatchRunner.runChoreFilterWindow Rust.publishes chores people)
        (Python.BatchRunner.runChoreFilterWindow takesAll chores people) ↔
      (∀ person ∈ people, NeverWraps person.availableMinutes chores.chores) ∧
        people.length < 2 ^ 32 ∧ acceptedCount chores people < 2 ^ 32 := by
  have rustRun : Rust.BatchRunner.runChoreFilterWindow Rust.publishes chores people =
      ⟨[Rust.BatchRunner.buildSummary chores.choresId chores.context
        (people.map (Rust.jobResult chores))], true⟩ := Rust.run_batch chores people
  have answers : List.Forall₂ SameAnswer (people.map (Rust.jobResult chores))
      (people.map (pythonAnswer chores)) ↔
        ∀ person ∈ people, NeverWraps person.availableMinutes chores.chores := by
    rw [List.forall₂_map_left_iff, List.forall₂_map_right_iff, List.forall₂_same]
    exact forall₂_congr fun person _ => sameAnswer_iff chores person
  constructor
  · rintro ⟨rust, python, rustDone, pythonDone, same⟩
    have built : Python.BatchRunner.windowSummary chores people = .ok python := by
      cases summary : Python.BatchRunner.windowSummary chores people with
      | error error =>
        simp [Python.BatchRunner.runChoreFilterWindow, Python.BatchRunner.publishSummary,
          summary] at pythonDone
      | ok made =>
        simp [Python.BatchRunner.runChoreFilterWindow, Python.BatchRunner.publishSummary,
          summary, takesAll] at pythonDone
        rw [pythonDone]
    obtain ⟨fewPeople, fewChores, rfl⟩ := (windowSummary_eq_ok_iff chores people python).mp built
    rw [rustRun] at rustDone
    obtain rfl : Rust.BatchRunner.buildSummary chores.choresId chores.context
        (people.map (Rust.jobResult chores)) = rust := by
      simpa using rustDone
    exact ⟨answers.mp same.results, fewPeople, fewChores⟩
  · rintro ⟨small, fewPeople, fewChores⟩
    have built := (windowSummary_eq_ok_iff chores people _).mpr ⟨fewPeople, fewChores, rfl⟩
    have pythonRun : Python.BatchRunner.runChoreFilterWindow takesAll chores people =
        ⟨[{ choresId := chores.choresId
            totalPeopleEvaluated := UInt32.ofNat people.length
            totalChoresAccepted := UInt32.ofNat (acceptedCount chores people)
            context := some (chores.context.getD {})
            results := people.map (pythonAnswer chores) }], true⟩ := by
      simp only [Python.BatchRunner.runChoreFilterWindow, Python.BatchRunner.publishSummary,
        built, takesAll, if_true]
    refine ⟨_, _, rustRun, pythonRun, ?_⟩
    · refine ⟨rfl, ?_, ?_, answers.mpr small, ?_⟩
      · simp only [Rust.BatchRunner.buildSummary, List.length_map]
      · simp only [Rust.BatchRunner.buildSummary, List.map_map]
        have each : ∀ person ∈ people, UInt32.ofNat
            (Rust.jobResult chores person).acceptedChores.length =
              UInt32.ofNat (kept (acceptance person.availableMinutes chores.chores)
                chores.chores).length := by
          intro person member
          have same := (sameAnswer_iff chores person).mpr (small person member)
          rw [same.decision.accepted]
          rfl
        rw [acceptedCount, ← sum_map_ofNat]
        exact congrArg List.sum (List.map_congr_left each)
      · change chores.context.getD {} = (some (chores.context.getD {})).getD {}
        rw [Option.getD_some]

/-- Runners that do not agree on a window differ. -/
theorem window_differ
    (apart : ¬ RunnersAgree (Rust.BatchRunner.runChoreFilterWindow Rust.publishes chores people)
      (Python.BatchRunner.runChoreFilterWindow takesAll chores people)) :
    RunnersDiffer (Rust.BatchRunner.runChoreFilterWindow Rust.publishes chores people)
      (Python.BatchRunner.runChoreFilterWindow takesAll chores people) := by
  refine ⟨_, Rust.run_batch chores people, ?_⟩
  cases built : Python.BatchRunner.windowSummary chores people with
  | error error =>
    left
    rw [Python.BatchRunner.runChoreFilterWindow, built]
    rfl
  | ok python =>
    have published : Python.BatchRunner.runChoreFilterWindow takesAll chores people =
        ⟨[python], true⟩ := by
      rw [Python.BatchRunner.runChoreFilterWindow, built]
      rfl
    right
    exact ⟨python, published,
      fun same => apart ⟨_, python, Rust.run_batch chores people, published, same⟩⟩

end Summaries

/-- For all chores, the batch runners of both languages publish the same summary of a window
exactly when no person's minutes wrap in the Rust filter and both totals fit their fields,
and the same summary of one person exactly when this holds of that person. Otherwise Rust
publishes another summary, or Python raises and publishes none. -/
theorem batch_runners_agree_iff (chores : Chores) :
    (∀ people,
      let rustRun := Rust.BatchRunner.runChoreFilterWindow Rust.publishes chores people
      let pythonRun := Python.BatchRunner.runChoreFilterWindow takesAll chores people
      (RunnersAgree rustRun pythonRun ↔
        (∀ person ∈ people, NeverWraps person.availableMinutes chores.chores) ∧
          people.length < 2 ^ 32 ∧ acceptedCount chores people < 2 ^ 32) ∧
        (¬ RunnersAgree rustRun pythonRun → RunnersDiffer rustRun pythonRun)) ∧
      ∀ person,
        let rustRun := Rust.BatchRunner.runChoreFilter Rust.publishes chores person
        let pythonRun := Python.BatchRunner.runChoreFilter takesAll chores person
        (RunnersAgree rustRun pythonRun ↔
          NeverWraps person.availableMinutes chores.chores ∧
            acceptedCount chores [person] < 2 ^ 32) ∧
          (¬ RunnersAgree rustRun pythonRun → RunnersDiffer rustRun pythonRun) := by
  refine ⟨fun people => ⟨window_agree_iff chores people, window_differ chores people⟩, ?_⟩
  intro person
  have rustSame : Rust.BatchRunner.runChoreFilter Rust.publishes chores person =
      Rust.BatchRunner.runChoreFilterWindow Rust.publishes chores [person] :=
    (Rust.run_single chores person).trans (Rust.run_batch chores [person]).symm
  have pythonSame : Python.BatchRunner.runChoreFilter takesAll chores person =
      Python.BatchRunner.runChoreFilterWindow takesAll chores [person] := by
    rw [Python.BatchRunner.runChoreFilter, Python.BatchRunner.personSummary_eq,
      Python.BatchRunner.runChoreFilterWindow]
  rw [rustSame, pythonSame]
  refine ⟨?_, window_differ chores [person]⟩
  rw [window_agree_iff, List.forall_mem_singleton, List.length_singleton]
  constructor
  · intro both
    exact ⟨both.1, both.2.2⟩
  · intro both
    exact ⟨both.1, by decide, both.2⟩

end BossWorker.Verif
