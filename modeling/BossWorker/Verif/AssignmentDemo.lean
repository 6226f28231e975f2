import BossWorker.Verif.AssignmentResults

/-!
# What the publisher of the demo is answered

The publisher puts the same three workers, jobs and nine costs in every round, with fresh ids.
One matching is worth more than all others, so whichever service and library answers, the
publisher accepts nothing else.
-/

namespace BossWorker

open BossWorker.Spec BossWorker.Verif

/-- What the solvers are given in every round. -/
def demoInput : AssignmentInput := requestInput (Python.buildRequest ⟨"", "", 0⟩)

/-- Alice does the laundry, Bob the dishes and Carol the vacuuming. -/
def demoPairs : List (Nat × Nat) := [(0, 1), (1, 0), (2, 2)]

/-- The assignments of these pairs. -/
def demoAssignments : List Assignment :=
  [⟨"alice", "laundry", 10⟩, ⟨"bob", "dishes", 10⟩, ⟨"carol", "vacuum", 1⟩]

/-- Any worker gains by any job. -/
theorem bonus_le_gain_demo (worker job : Fin 3) : bonus ≤ gain demoInput worker job := by
  revert worker job
  decide +kernel

/-- Of all ways to give three workers three jobs, one gains most. -/
theorem sum_gain_demo (image : Fin 3 → Fin 3) (injective : Function.Injective image) :
    ∑ i : Fin 3, gain demoInput i (image i) ≤ value demoInput demoPairs ∧
      (value demoInput demoPairs ≤ ∑ i : Fin 3, gain demoInput i (image i) →
        (List.ofFn fun i => (i.val, (image i).val)) = demoPairs) := by
  revert image
  decide +kernel

/-- A matching that is worth as much as the three pairs leaves nobody out. -/
theorem isComplete_of_value_demo {pairs : List (Nat × Nat)} (matching : IsMatching demoInput pairs)
    (worth : value demoInput demoPairs ≤ value demoInput pairs) : IsComplete demoInput pairs := by
  refine ⟨matching, fun worker inside => ?_⟩
  have three : demoInput.workers.length = 3 := by decide
  rw [three] at inside
  obtain ⟨σ, _, extra⟩ :=
    matching.exists_perm (Nat.le_of_eq three) (Nat.le_of_eq (by decide : demoInput.jobs.length = 3))
  by_contra outside
  have more := extra ⟨worker, inside⟩ outside
  have most := (sum_gain_demo σ σ.injective).1
  have gained := bonus_le_gain_demo ⟨worker, inside⟩ (σ ⟨worker, inside⟩)
  have positive : 0 < bonus := by decide
  omega

/-- It is the three pairs. -/
theorem perm_of_value_demo {pairs : List (Nat × Nat)} (matching : IsMatching demoInput pairs)
    (worth : value demoInput demoPairs ≤ value demoInput pairs) : demoPairs.Perm pairs := by
  have complete := isComplete_of_value_demo matching worth
  obtain ⟨f, listed⟩ := complete.exists_listing
  have gained : value demoInput pairs = ∑ i : Fin 3, gain demoInput i (f i) := by
    rw [value, ← (listed.map _).sum_eq, List.map_ofFn, List.sum_ofFn]
    rfl
  rw [gained] at worth
  have same := (sum_gain_demo f f.injective).2 worth
  rw [← same]
  exact listed

/-- A best answer to a request of the demo is made of the three assignments. -/
theorem assignments_of_bestAnswer {nonce : Python.Nonce} {result : AssignmentResult}
    {pairs : List (Nat × Nat)} (best : BestAnswer (Python.buildRequest nonce) result pairs) :
    result.assignments.Perm demoAssignments ∧ result.totalCost = 21 := by
  have whole : IsMatching demoInput demoPairs := ⟨by decide, by decide, by decide⟩
  have listed := perm_of_value_demo best.matching (best.maximal demoPairs whole)
  constructor
  · have reported : demoPairs.map (edge demoInput) = demoAssignments.map
        (fun assignment => some (assignment.workerId, assignment.jobId, assignment.cost)) := by
      decide +kernel
    have same := (listed.map (edge demoInput)).symm
    rw [reported] at same
    have answered := (List.Perm.of_eq best.reported).trans same
    have injective : Function.Injective fun assignment : Assignment =>
        some (assignment.workerId, assignment.jobId, assignment.cost) := by
      intro first second equal
      cases first
      cases second
      simpa using equal
    exact (List.map_perm_map_iff injective).mp answered
  · have sum : total demoInput pairs = total demoInput demoPairs :=
      ((listed.map (cost demoInput)).sum_eq).symm
    have summed := best.summed
    change result.totalCost.toNat = min (total demoInput pairs) (2 ^ 32 - 1) at summed
    have known : total demoInput demoPairs = 21 := by decide +kernel
    apply UInt32.toNat.inj
    rw [summed, sum, known]
    rfl

/-- If decoders give back what was encoded, the libraries solve their problems and ids are
used once and by no other client, then in every run the publishers of the demo accept nothing
but laundry for Alice, dishes for Bob and vacuuming for Carol, at a total of 21. -/
theorem demo_accepts_one_answer {Payload : Type} (setup : Assignments Payload)
    (services : List Language) (publishers : Nat)
    (events : List (AssignmentEvent Payload Python.Nonce)) (faithful : setup.Faithful)
    (solves : setup.Solves)
    (unforged : Unforged setup events
      (assignmentLog setup Python.buildRequest services publishers events)) :
    ∀ entry ∈ accepted (assignmentLog setup Python.buildRequest services publishers events),
      entry.2.2.assignments.Perm demoAssignments ∧ entry.2.2.totalCost = 21 := by
  intro entry member
  obtain ⟨put, pairs, best⟩ := bestAnswer_of_accepted faithful solves unforged member
  obtain ⟨nonce, built⟩ := sent_built setup Python.buildRequest services publishers events _ put
  change entry.2.1 = Python.buildRequest nonce at built
  rw [built] at best
  exact assignments_of_bestAnswer best

/-- A round in which a Rust service answers. -/
def demoRound : List (AssignmentEvent (AssignmentRequest ⊕ AssignmentResult) Python.Nonce) :=
  [.publish 0 ⟨"1", "2", 3⟩ true, .request 0 0 true, .serve 0 true, .result 0 0, .get 0]

/-- The round accepts one answer, the one answer there is. -/
theorem demo_accepts_one_answer_rust :
    let log := assignmentLog plainAssignments Python.buildRequest [.rust] 1 demoRound
    (accepted log).length = 1 ∧
      ∀ entry ∈ accepted log,
        entry.2.2.assignments.Perm demoAssignments ∧ entry.2.2.totalCost = 21 := by
  constructor
  · decide +kernel
  · apply demo_accepts_one_answer plainAssignments [.rust] 1 demoRound plainAssignments_faithful
      plainAssignments_solves
    refine ⟨by decide +kernel, ?_, ?_⟩
    · exact fun _ absent => absurd absent List.not_mem_nil
    · exact fun _ absent => absurd absent List.not_mem_nil

end BossWorker
