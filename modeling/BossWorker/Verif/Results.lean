import BossWorker.Verif.Handlers

/-!
# What the assignments of a result say

The Rust loop adds each cost to the total in the step that reports it, so for any answer of
the library the total is the sum of the reported costs, as far as a word reaches. A solution
uses no position twice; the ids at distinct positions occur no more often than in the
request, which may list an id twice.
-/

namespace BossWorker.Verif

open BossWorker.Spec

/-- The exact sum of the costs of a list of assignments. -/
def costSum (assignments : List Assignment) : Nat :=
  (assignments.map fun assignment => assignment.cost.toNat).sum

/-- Whatever the library answers, the total is the capped sum of the costs. -/
theorem capped_of_solved {lapjv : Rust.Lapjv} {input : AssignmentInput}
    {output : Rust.AssignmentOutput}
    (solved : Rust.solveAssignment lapjv input = .ok output) : Rust.Capped output := by
  have nothing : Rust.Capped ⟨[], 0⟩ := rfl
  unfold Rust.solveAssignment at solved
  split at solved
  · rw [← Except.ok.inj solved]
    exact nothing
  · obtain ⟨solution, _, collected⟩ := exists_of_bind_eq_ok solved
    rw [← Except.ok.inj collected]
    exact nothing.foldl input _ _

/-- For every answer of `lapjv` and every request that Rust answers with a result, the total
cost is the exact sum of the costs of its assignments, capped at the largest word. -/
theorem rust_total_cost_capped (lapjv : Rust.Lapjv) (request : AssignmentRequest)
    (result : AssignmentResult)
    (handled : Rust.handleAssignmentRequest lapjv request = .ok result) :
    result.totalCost.toNat = min (costSum result.assignments) (2 ^ 32 - 1) := by
  obtain ⟨output, solved, rfl⟩ := rust_solved_of_handled handled
  have capped := capped_of_solved solved
  rw [costSum, Rust.buildResult, List.map_map]
  exact capped

/-- Two costs that each fit a word and together do not. -/
def dearRequest : AssignmentRequest where
  assignmentId := "dear"
  workers := [⟨"alice", ""⟩, ⟨"bob", ""⟩]
  jobs := [⟨"dishes", ""⟩, ⟨"laundry", ""⟩]
  costs := [⟨"alice", "dishes", 4000000000⟩, ⟨"alice", "laundry", 0⟩, ⟨"bob", "dishes", 0⟩,
    ⟨"bob", "laundry", 4000000000⟩]

/-- What Rust answers to the two dear costs. -/
def dearResult : AssignmentResult where
  assignmentId := "dear"
  assignments := [⟨"alice", "dishes", 4000000000⟩, ⟨"bob", "laundry", 4000000000⟩]
  totalCost := 4294967295

/-- The total of the two dear costs is capped. -/
theorem rust_total_cost_capped_dear :
    dearResult.totalCost.toNat = min (costSum dearResult.assignments) (2 ^ 32 - 1) :=
  rust_total_cost_capped Rust.bruteForceLapjv dearRequest dearResult (by decide +kernel)

/-- The capped total is not the sum of the two costs. -/
theorem rust_total_cost_not_exact :
    ¬ ∀ lapjv, Rust.SolvesLap lapjv → ∀ request result,
      Rust.handleAssignmentRequest lapjv request = .ok result →
        result.totalCost.toNat = costSum result.assignments := by
  intro exact
  have handled : Rust.handleAssignmentRequest Rust.bruteForceLapjv dearRequest =
      .ok dearResult := by decide +kernel
  have same := exact _ Rust.bruteForceLapjv_solvesLap _ _ handled
  have total : dearResult.totalCost.toNat = 4294967295 := by decide
  have sum : costSum dearResult.assignments = 8000000000 := by decide
  omega

/-- A result that names no id more often than its request does. -/
structure NamesWithin (request : AssignmentRequest) (result : AssignmentResult) : Prop where
  /-- Among the assigned workers. -/
  workers : (result.assignments.map Assignment.workerId).Subperm
    (request.workers.map Worker.workerId)
  /-- Among the assigned jobs. -/
  jobs : (result.assignments.map Assignment.jobId).Subperm (request.jobs.map Job.jobId)

/-- With distinct ids in the request, no id is assigned twice. -/
theorem NamesWithin.nodup {request : AssignmentRequest} {result : AssignmentResult}
    (within : NamesWithin request result)
    (workers : (request.workers.map Worker.workerId).Nodup)
    (jobs : (request.jobs.map Job.jobId).Nodup) :
    (result.assignments.map Assignment.workerId).Nodup ∧
      (result.assignments.map Assignment.jobId).Nodup :=
  ⟨nodup_of_subperm within.workers workers, nodup_of_subperm within.jobs jobs⟩

section Ids

variable {request : AssignmentRequest}

/-- Assignments that carry the ids of a matching name no id too often. -/
theorem namesWithin_of_matching {result : AssignmentResult} {pairs : List (Nat × Nat)}
    (matching : IsMatching (requestInput request) pairs)
    (workers : result.assignments.map Assignment.workerId =
      pairs.map fun pair => (requestInput request).workers.getD pair.1 "")
    (jobs : result.assignments.map Assignment.jobId =
      pairs.map fun pair => (requestInput request).jobs.getD pair.2 "") :
    NamesWithin request result where
  workers := by
    rw [workers]
    exact matching.workers_subperm
  jobs := by
    rw [jobs]
    exact matching.jobs_subperm

/-- Rust reports the ids of a matching. -/
theorem rust_namesWithin {lapjv : Rust.Lapjv} (solves : Rust.SolvesLap lapjv)
    {result : AssignmentResult}
    (handled : Rust.handleAssignmentRequest lapjv request = .ok result) :
    NamesWithin request result := by
  obtain ⟨output, solved, rfl⟩ := rust_solved_of_handled handled
  obtain ⟨σ, reported, _⟩ := Rust.exists_perm_of_solved solves solved
  apply namesWithin_of_matching (Rust.made_perm_isMatching (requestInput request) σ)
  · rw [Rust.buildResult, List.map_map]
    exact map_of_map_some reported fun pair found present => (ids_of_edge present).1
  · rw [Rust.buildResult, List.map_map]
    exact map_of_map_some reported fun pair found present => (ids_of_edge present).2

/-- Building the assignments of a result keeps their ids. -/
theorem map_ids_of_built {assignments : List (String × String × ℤ)} {built : List Assignment}
    (listed : assignments.mapM Python.buildAssignment = .ok built) :
    built.map (fun assignment => (assignment.workerId, assignment.jobId)) =
      assignments.map fun assignment => (assignment.1, assignment.2.1) := by
  induction assignments generalizing built with
  | nil => rw [← Except.ok.inj listed]; rfl
  | cons assignment assignments ih =>
    rw [List.mapM_cons] at listed
    obtain ⟨first, one, rest⟩ := exists_of_bind_eq_ok listed
    obtain ⟨others, more, same⟩ := exists_of_bind_eq_ok rest
    obtain ⟨cost, _, made⟩ := exists_of_bind_eq_ok one
    rw [← Except.ok.inj same, List.map_cons, List.map_cons, ih more, ← Except.ok.inj made]

/-- Python reports the ids of a matching. -/
theorem python_namesWithin {linearSumAssignment : Python.LinearSumAssignment}
    (solves : Python.SolvesLsa linearSumAssignment) {result : AssignmentResult}
    (handled : Python.handleAssignmentRequest linearSumAssignment request = .ok result) :
    NamesWithin request result := by
  obtain ⟨output, solved, built⟩ := python_solved_of_handled handled
  have ids := map_ids_of_built (python_parts_of_built built).2
  have workers := congrArg (List.map Prod.fst) ids
  have jobs := congrArg (List.map Prod.snd) ids
  rw [List.map_map, List.map_map] at workers jobs
  obtain ⟨pairs, best⟩ := Python.exists_bestComplete_of_returned solves solved
  have reported (pair : Nat × Nat) (row : String × String × ℤ)
      (same : Python.report (requestInput request) pair = some row) :
      row.1 = (requestInput request).workers.getD pair.1 "" ∧
        row.2.1 = (requestInput request).jobs.getD pair.2 "" := by
    obtain ⟨found, present, rfl⟩ := Option.map_eq_some_iff.mp same
    exact ids_of_edge present
  apply namesWithin_of_matching best.complete.toIsMatching
  · exact workers.trans (map_of_map_some best.reported fun pair row same =>
      (reported pair row same).1)
  · exact jobs.trans (map_of_map_some best.reported fun pair row same =>
      (reported pair row same).2)

end Ids

/-- With library solvers that solve their problems, every result of either handler names no
worker id more often than the request lists it, and no job id. -/
theorem results_name_within (lapjv : Rust.Lapjv)
    (linearSumAssignment : Python.LinearSumAssignment) (solvesLap : Rust.SolvesLap lapjv)
    (solvesLsa : Python.SolvesLsa linearSumAssignment) (request : AssignmentRequest)
    (result : AssignmentResult)
    (handled : Rust.handleAssignmentRequest lapjv request = .ok result ∨
      Python.handleAssignmentRequest linearSumAssignment request = .ok result) :
    NamesWithin request result := by
  cases handled with
  | inl rust => exact rust_namesWithin solvesLap rust
  | inr python => exact python_namesWithin solvesLsa python

/-- A request that lists alice twice. -/
def twiceAlice : AssignmentRequest where
  assignmentId := "twice"
  workers := [⟨"alice", ""⟩, ⟨"alice", ""⟩]
  jobs := [⟨"dishes", ""⟩, ⟨"laundry", ""⟩]
  costs := [⟨"alice", "dishes", 1⟩, ⟨"alice", "laundry", 2⟩]

/-- The result that gives alice both jobs. -/
def twiceResult : AssignmentResult where
  assignmentId := "twice"
  assignments := [⟨"alice", "dishes", 1⟩, ⟨"alice", "laundry", 2⟩]
  totalCost := 3

/-- The result names alice as often as the request. -/
theorem results_name_within_twice : NamesWithin twiceAlice twiceResult :=
  results_name_within Rust.bruteForceLapjv Python.bruteForceLsa Rust.bruteForceLapjv_solvesLap
    Python.bruteForceLsa_solvesLsa twiceAlice twiceResult (Or.inl (by decide +kernel))

example : (Python.handleAssignmentRequest Python.bruteForceLsa twiceAlice).map
    AssignmentResult.assignments = .ok twiceResult.assignments := by decide +kernel

/-- Alice is assigned twice. -/
theorem results_repeat_ids :
    ¬ ∀ lapjv linearSumAssignment, Rust.SolvesLap lapjv →
      Python.SolvesLsa linearSumAssignment → ∀ request result,
        Rust.handleAssignmentRequest lapjv request = .ok result ∨
            Python.handleAssignmentRequest linearSumAssignment request = .ok result →
          (result.assignments.map Assignment.workerId).Nodup ∧
            (result.assignments.map Assignment.jobId).Nodup := by
  intro distinct
  have handled : Rust.handleAssignmentRequest Rust.bruteForceLapjv twiceAlice =
      .ok twiceResult := by decide +kernel
  have once := distinct _ _ Rust.bruteForceLapjv_solvesLap Python.bruteForceLsa_solvesLsa _ _
    (Or.inl handled)
  have twice : ¬ (twiceResult.assignments.map Assignment.workerId).Nodup := by decide
  exact twice once.1

end BossWorker.Verif
