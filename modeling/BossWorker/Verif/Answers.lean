import BossWorker.Verif.Results

/-!
# What an answer of either service is worth

The services differ in what they answer: Rust may leave workers out, Python rejects a request
instead. But an answer of either is a matching of existing pairs that no other is worth more
than, with the costs of the request and their sum, as far as a word reaches.
-/

namespace BossWorker.Verif

open BossWorker.Spec

/-- A result that reports a matching of largest value. -/
structure BestAnswer (request : AssignmentRequest) (result : AssignmentResult)
    (pairs : List (Nat × Nat)) : Prop where
  /-- The result is for the request. -/
  own : result.assignmentId = request.assignmentId
  /-- The pairs are a matching of existing pairs. -/
  matching : IsMatching (requestInput request) pairs
  /-- Each assignment reports the ids and the cost of its pair. -/
  reported : result.assignments.map
      (fun assignment => some (assignment.workerId, assignment.jobId, assignment.cost)) =
    pairs.map (edge (requestInput request))
  /-- No matching is worth more. -/
  maximal : ∀ other, IsMatching (requestInput request) other →
    value (requestInput request) other ≤ value (requestInput request) pairs
  /-- The total is the sum of the costs, as far as a word reaches. -/
  summed : result.totalCost.toNat = min (total (requestInput request) pairs) (2 ^ 32 - 1)

variable {request : AssignmentRequest} {result : AssignmentResult}

/-- An answer of Rust is a best one. -/
theorem rust_bestAnswer {lapjv : Rust.Lapjv} (solves : Rust.SolvesLap lapjv)
    (handled : Rust.handleAssignmentRequest lapjv request = .ok result) :
    ∃ pairs, BestAnswer request result pairs := by
  obtain ⟨output, solved, rfl⟩ := rust_solved_of_handled handled
  obtain ⟨σ, reported, summed, maximal⟩ := Rust.exists_perm_of_solved solves solved
  have matching := Rust.made_perm_isMatching (requestInput request) σ
  refine ⟨_, rfl, matching, ?_, maximal, summed⟩
  rw [← reported, Rust.buildResult, List.map_map]
  rfl

/-- What the Python solver returns is worth as much as any matching, complete or not. -/
theorem python_value_le {linearSumAssignment : Python.LinearSumAssignment}
    (solves : Python.SolvesLsa linearSumAssignment) {input : AssignmentInput}
    {output : Python.AssignmentOutput}
    (returned : Python.solveAssignment linearSumAssignment input = .ok output) :
    ∃ pairs, Python.BestComplete input output pairs ∧
      ∀ other, IsMatching input other → value input other ≤ value input pairs := by
  by_cases idle : input.workers = []
  · obtain ⟨pairs, best⟩ := Python.exists_bestComplete_of_returned solves returned
    refine ⟨pairs, best, fun other matching => ?_⟩
    rw [matching.eq_nil_of_idle idle]
    exact Nat.zero_le _
  · have fits := Python.fits_of_returned idle returned
    obtain ⟨rows, cols⟩ := Python.solverMatrix_shape input
    obtain ⟨f, solution, least⟩ := solves _ _ _ rows cols fits
    have edges := (Python.solveAssignment_returns_iff idle fits solution).mp ⟨output, returned⟩
    obtain ⟨same, solved, best⟩ :=
      Python.solveAssignment_bestComplete idle fits solution least edges
    obtain rfl : same = output := Except.ok.inj (solved.symm.trans returned)
    refine ⟨_, best, fun other matching => ?_⟩
    -- a matching is worth no more than a permutation of the jobs, and that than a cheapest one
    obtain ⟨σ, worth, _⟩ := matching.exists_perm fits (Nat.le_refl _)
    let g : Fin input.workers.length ↪ Fin input.jobs.length :=
      ⟨fun i => σ (Fin.castLE fits i), σ.injective.comp (Fin.castLE_injective fits)⟩
    have restricted : ∑ i : Fin input.jobs.length, gain input i (σ i) =
        ∑ i : Fin input.workers.length, gain input i (g i) :=
      sum_gain_castLE fits fun i => (σ i).val
    have cheaper := least g
    rw [Python.sum_solverMatrix, Python.sum_solverMatrix] at cheaper
    rw [value_made]
    omega

/-- Building the assignments of a result keeps their ids and their costs. -/
theorem map_costs_of_built {assignments : List (String × String × ℤ)} {built : List Assignment}
    (listed : assignments.mapM Python.buildAssignment = .ok built) :
    built.map (fun assignment =>
      (assignment.workerId, assignment.jobId, (assignment.cost.toNat : ℤ))) = assignments := by
  induction assignments generalizing built with
  | nil =>
    rw [← Except.ok.inj listed]
    rfl
  | cons assignment assignments ih =>
    rw [List.mapM_cons] at listed
    obtain ⟨first, one, rest⟩ := exists_of_bind_eq_ok listed
    obtain ⟨others, more, same⟩ := exists_of_bind_eq_ok rest
    obtain ⟨cost, stored, made⟩ := exists_of_bind_eq_ok one
    have number := Python.eq_toNat_of_uint32 stored
    rw [← Except.ok.inj same, List.map_cons, ih more, ← Except.ok.inj made]
    simp only [← number]

/-- An answer of Python is a best one. -/
theorem python_bestAnswer {linearSumAssignment : Python.LinearSumAssignment}
    (solves : Python.SolvesLsa linearSumAssignment)
    (handled : Python.handleAssignmentRequest linearSumAssignment request = .ok result) :
    ∃ pairs, BestAnswer request result pairs := by
  obtain ⟨output, solved, built⟩ := python_solved_of_handled handled
  obtain ⟨pairs, best, maximal⟩ := python_value_le solves solved
  have own : result.assignmentId = request.assignmentId := by
    obtain ⟨total, _, rest⟩ := exists_of_bind_eq_ok built
    obtain ⟨assignments, _, same⟩ := exists_of_bind_eq_ok rest
    rw [← Except.ok.inj same]
  have costs := map_costs_of_built (python_parts_of_built built).2
  have summed := python_totalCost_of_built built
  refine ⟨pairs, own, best.complete.toIsMatching, ?_, maximal, ?_⟩
  · have reported := best.reported
    rw [← costs, List.map_map] at reported
    let widen (found : String × String × UInt32) : String × String × ℤ :=
      (found.1, found.2.1, (found.2.2.toNat : ℤ))
    have widen_injective : Function.Injective widen := by
      intro first second same
      obtain ⟨workers, rest⟩ := Prod.mk.inj same
      obtain ⟨jobs, words⟩ := Prod.mk.inj rest
      have costs : first.2.2 = second.2.2 := UInt32.toNat.inj (Int.ofNat.inj words)
      exact Prod.ext workers (Prod.ext jobs costs)
    apply List.map_injective_iff.mpr (Option.map_injective widen_injective)
    rw [List.map_map, List.map_map]
    exact reported
  · have word := result.totalCost.toNat_lt
    rw [best.summed] at summed
    omega

end BossWorker.Verif
