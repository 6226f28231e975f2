import BossWorker.Python.Solver
import BossWorker.Spec.Matching

/-!
# The Python solver in terms of edges

The rectangular matrix costs the sentinel less the gain in every cell, so a cheapest
injection of the workers is one of largest gain. The solver returns exactly when every cell
of the solution is an edge and reports those edges in the order of the workers.
-/

namespace BossWorker.Python

open BossWorker.Spec
open Equiv (Perm)

/-- What scipy promises of `linear_sum_assignment` on a matrix with no more rows than
columns: all rows in order, on distinct columns, at the least sum. -/
def SolvesLsa (linearSumAssignment : LinearSumAssignment) : Prop :=
  ∀ (rows cols : Nat) (matrix : Grid ℤ), matrix.rows = rows → matrix.cols = cols →
    rows ≤ cols → ∃ f : Fin rows ↪ Fin cols,
      linearSumAssignment matrix = .ok (List.range rows, List.ofFn fun i => (f i).val) ∧
        ∀ g : Fin rows ↪ Fin cols,
          ∑ i : Fin rows, matrix.cell i (f i) ≤ ∑ i : Fin rows, matrix.cell i (g i)

/-- A solver that tries all permutations of the columns. -/
def bruteForceLsa : LinearSumAssignment := fun matrix =>
  if fits : matrix.rows ≤ matrix.cols then
    let σ := cheapest fun σ : Perm (Fin matrix.cols) =>
      ∑ i : Fin matrix.rows, matrix.cell i (σ (Fin.castLE fits i))
    .ok (List.range matrix.rows, List.ofFn fun i => (σ (Fin.castLE fits i)).val)
  else .error "more rows than columns"

/-- Trying all permutations finds a cheapest injection. -/
theorem bruteForceLsa_solvesLsa : SolvesLsa bruteForceLsa := by
  rintro rows cols matrix rfl rfl fits
  let cost (σ : Perm (Fin matrix.cols)) : ℤ :=
    ∑ i : Fin matrix.rows, matrix.cell i (σ (Fin.castLE fits i))
  have injective : Function.Injective fun i => cheapest cost (Fin.castLE fits i) :=
    (cheapest cost).injective.comp (Fin.castLE_injective fits)
  refine ⟨⟨_, injective⟩, by rw [bruteForceLsa, dif_pos fits]; rfl, fun g => ?_⟩
  have bounded : ∀ pair ∈ List.ofFn fun i : Fin matrix.rows => (i.val, (g i).val),
      pair.1 < matrix.cols ∧ pair.2 < matrix.cols := by
    intro pair member
    obtain ⟨i, rfl⟩ := List.mem_ofFn.mp member
    exact ⟨Nat.lt_of_lt_of_le i.isLt fits, (g i).isLt⟩
  have rows_distinct : ((List.ofFn fun i : Fin matrix.rows => (i.val, (g i).val)).map
      Prod.fst).Nodup := by
    rw [List.map_ofFn]
    exact List.nodup_ofFn.mpr Fin.val_injective
  have cols_distinct : ((List.ofFn fun i : Fin matrix.rows => (i.val, (g i).val)).map
      Prod.snd).Nodup := by
    rw [List.map_ofFn]
    exact List.nodup_ofFn.mpr (Fin.val_injective.comp g.injective)
  obtain ⟨τ, extending⟩ := exists_perm_extending rows_distinct cols_distinct bounded
  have image (i : Fin matrix.rows) : (τ (Fin.castLE fits i)).val = (g i).val :=
    extending _ (List.mem_ofFn.mpr ⟨i, rfl⟩) _
  calc cost (cheapest cost) ≤ cost τ := cost_cheapest_le cost τ
    _ = ∑ i : Fin matrix.rows, matrix.cell i (g i) := by simp only [cost, image]

section Matrices

variable (input : AssignmentInput)

/-- The cell of the score matrix is the cost of the edge, or the mark of a missing pair. -/
theorem scoreMatrix_cell (i j : Nat) : (buildScoreMatrix input).cell i j =
    (edge input (i, j)).elim impossibleCost fun found => (found.2.2.toNat : ℤ) := by
  have own : TouchesOwnCell (fillScore input.costs) Grid.cell
      (fun worker job old => (input.costs.get? (worker, job)).elim old fun cost =>
        (cost.toNat : ℤ)) := by
    intro scoreMatrix row col worker job r c
    cases priced : input.costs.get? (worker, job) <;>
      simp only [fillScore, priced, Grid.cell_set, Option.elim_none, Option.elim_some, ite_self]
  rw [buildScoreMatrix, look_sweep own]
  simp only [edge, Option.bind_eq_bind]
  cases input.workers[i]? with
  | none => rfl
  | some worker =>
    cases input.jobs[j]? with
    | none => rfl
    | some job =>
      simp only [Option.bind_some]
      cases input.costs.get? (worker, job) <;> rfl

/-- The cell of the solver matrix is the sentinel less the gain. -/
theorem solverMatrix_cell (i j : Nat) :
    (buildSolverMatrix (buildScoreMatrix input)).cell i j =
      solverImpossibleCost - gain input i j := by
  have score := scoreMatrix_cell input i j
  unfold gain
  cases present : edge input (i, j) with
  | none =>
    rw [present] at score
    simp [buildSolverMatrix, score]
  | some found =>
    rw [present, Option.elim_some] at score
    have possible : (found.2.2.toNat : ℤ) ≠ impossibleCost := by
      simp only [impossibleCost]
      omega
    simp only [buildSolverMatrix, score, ne_eq, possible, not_false_eq_true, if_true,
      solverImpossibleCost, bonus]
    omega

/-- The solver matrix has a row for each worker and a column for each job. -/
theorem solverMatrix_shape :
    (buildSolverMatrix (buildScoreMatrix input)).rows = input.workers.length ∧
      (buildSolverMatrix (buildScoreMatrix input)).cols = input.jobs.length := by
  have own : TouchesOwnCell (fillScore input.costs)
      (fun scoreMatrix _ _ => (scoreMatrix.rows, scoreMatrix.cols))
      (fun _ _ shape => shape) := by
    intro scoreMatrix row col worker job r c
    cases priced : input.costs.get? (worker, job) <;>
      simp only [fillScore, priced, Grid.rows_set, Grid.cols_set, ite_self]
  have shape := look_sweep own
    (Grid.fromElem input.workers.length input.jobs.length impossibleCost)
    input.workers input.jobs 0 0
  have kept : ((buildScoreMatrix input).rows, (buildScoreMatrix input).cols) =
      (input.workers.length, input.jobs.length) := by
    refine Eq.trans shape ?_
    cases input.workers[0]? <;> cases input.jobs[0]? <;> rfl
  exact ⟨congrArg Prod.fst kept, congrArg Prod.snd kept⟩

/-- The cost of an injection of the workers falls as its gain rises. -/
theorem sum_solverMatrix (f : Fin input.workers.length ↪ Fin input.jobs.length) :
    ∑ i : Fin input.workers.length,
        (buildSolverMatrix (buildScoreMatrix input)).cell i (f i) =
      solverImpossibleCost * input.workers.length -
        ((∑ i : Fin input.workers.length, gain input i (f i) : Nat) : ℤ) := by
  simp only [solverMatrix_cell, Finset.sum_sub_distrib, Finset.sum_const, Finset.card_univ,
    Fintype.card_fin, nsmul_eq_mul, Nat.cast_sum, mul_comm]

/-- A cell of the solution is reported when it is an edge, and raises otherwise. -/
theorem appendAssignment_eq (output : AssignmentOutput) (cell : Nat × Nat) :
    appendAssignment input (buildScoreMatrix input)
        (buildSolverMatrix (buildScoreMatrix input)) output cell =
      match edge input cell with
      | some found => .ok {
          assignments := output.assignments ++ [(found.1, found.2.1, (found.2.2.toNat : ℤ))]
          totalCost := output.totalCost + found.2.2.toNat }
      | none => .error "No valid assignment found" := by
  have price := solverMatrix_cell input cell.1 cell.2
  have score := scoreMatrix_cell input cell.1 cell.2
  unfold gain at price
  rw [appendAssignment]
  cases present : edge input cell with
  | none =>
    rw [present] at price
    have sentinel : (buildSolverMatrix (buildScoreMatrix input)).cell cell.1 cell.2 ≥
        solverImpossibleCost := by
      rw [price]
      exact le_of_eq (sub_zero _).symm
    rw [if_pos sentinel]
  | some found =>
    rw [present] at price score
    have cheap : ¬ (buildSolverMatrix (buildScoreMatrix input)).cell cell.1 cell.2 ≥
        solverImpossibleCost := by
      rw [price]
      simp only [solverImpossibleCost, bonus]
      omega
    rw [if_neg cheap, score]
    simp only [edge, Option.bind_eq_bind, Option.bind_eq_some_iff] at present
    obtain ⟨worker, listed, job, offered, cost, priced, same⟩ := present
    cases same
    simp only [List.getD_eq_getElem?_getD, listed, offered, Option.getD_some,
      Option.elim_some]

/-- The loop over the solution returns exactly when every cell is an edge. -/
theorem foldlM_appendAssignment_iff (cells : List (Nat × Nat)) (output : AssignmentOutput) :
    (∃ result, cells.foldlM (appendAssignment input (buildScoreMatrix input)
        (buildSolverMatrix (buildScoreMatrix input))) output = .ok result) ↔
      ∀ cell ∈ cells, (edge input cell).isSome := by
  induction cells generalizing output with
  | nil => exact iff_of_true ⟨output, rfl⟩ nofun
  | cons cell cells ih =>
    rw [List.foldlM_cons, appendAssignment_eq, List.forall_mem_cons]
    cases present : edge input cell with
    | none => exact iff_of_false (fun ⟨_, raised⟩ => nomatch raised) (fun all => nomatch all.1)
    | some found =>
      refine (ih _).trans ?_
      simp

/-- The row of the output that reports an edge. -/
def report (pair : Nat × Nat) : Option (String × String × ℤ) :=
  (edge input pair).map fun found => (found.1, found.2.1, (found.2.2.toNat : ℤ))

/-- The loop over a solution made of edges reports them all and adds up their costs. -/
theorem foldlM_appendAssignment_of_edges (cells : List (Nat × Nat)) (output : AssignmentOutput)
    (edges : ∀ cell ∈ cells, (edge input cell).isSome) :
    ∃ result, cells.foldlM (appendAssignment input (buildScoreMatrix input)
        (buildSolverMatrix (buildScoreMatrix input))) output = .ok result ∧
      result.assignments.map some =
        output.assignments.map some ++ cells.map (report input) ∧
      result.totalCost = output.totalCost + total input cells := by
  induction cells generalizing output with
  | nil => exact ⟨output, rfl, (List.append_nil _).symm, (add_zero _).symm⟩
  | cons cell cells ih =>
    obtain ⟨found, present⟩ := Option.isSome_iff_exists.mp (edges cell List.mem_cons_self)
    obtain ⟨result, loop, reported, sum⟩ := ih
      ⟨output.assignments ++ [(found.1, found.2.1, (found.2.2.toNat : ℤ))],
        output.totalCost + found.2.2.toNat⟩
      fun later member => edges later (List.mem_cons_of_mem cell member)
    refine ⟨result, ?_, ?_, ?_⟩
    · rw [List.foldlM_cons, appendAssignment_eq, present]
      exact loop
    · rw [reported, List.map_cons, report, present]
      simp
    · have price : total input (cell :: cells) = found.2.2.toNat + total input cells := by
        rw [total, List.map_cons, List.sum_cons, cost, present, Option.elim_some, total]
      have added : result.totalCost =
          output.totalCost + found.2.2.toNat + total input cells := sum
      rw [added, price]
      omega

end Matrices

section Solution

variable {input : AssignmentInput} {linearSumAssignment : LinearSumAssignment}

/-- With an injection as the solution, the solver runs its loop over the cells of it. -/
theorem solveAssignment_of_lsa (workers : input.workers ≠ [])
    (fits : input.workers.length ≤ input.jobs.length)
    {f : Fin input.workers.length ↪ Fin input.jobs.length}
    (solution : linearSumAssignment (buildSolverMatrix (buildScoreMatrix input)) =
      .ok (List.range input.workers.length, List.ofFn fun i => (f i).val)) :
    solveAssignment linearSumAssignment input =
      (List.ofFn fun i => (i.val, (f i).val)).foldlM (appendAssignment input
        (buildScoreMatrix input) (buildSolverMatrix (buildScoreMatrix input))) ⟨[], 0⟩ := by
  have staffed : input.workers.isEmpty = false := by simp [workers]
  have offered : input.jobs.isEmpty = false := by
    have positive := List.length_pos_iff.mpr workers
    rw [List.isEmpty_eq_false_iff, ← List.length_pos_iff]
    omega
  have cells : (List.range input.workers.length).zip (List.ofFn fun i => (f i).val) =
      List.ofFn fun i => (i.val, (f i).val) := by
    apply List.ext_getElem
    · simp
    · intro i _ _
      simp
  simp only [solveAssignment, staffed, offered, Bool.false_eq_true, if_false, gt_iff_lt,
    not_lt.mpr fits, solution]
  rw [← cells]
  rfl

/-- With an injection as the solution, the solver returns exactly when all its cells are
edges. -/
theorem solveAssignment_returns_iff (workers : input.workers ≠ [])
    (fits : input.workers.length ≤ input.jobs.length)
    {f : Fin input.workers.length ↪ Fin input.jobs.length}
    (solution : linearSumAssignment (buildSolverMatrix (buildScoreMatrix input)) =
      .ok (List.range input.workers.length, List.ofFn fun i => (f i).val)) :
    (∃ output, solveAssignment linearSumAssignment input = .ok output) ↔
      ∀ i : Fin input.workers.length, (edge input (i.val, (f i).val)).isSome := by
  have loop := foldlM_appendAssignment_iff input
    (List.ofFn fun i => (i.val, (f i).val)) ⟨[], 0⟩
  rw [List.forall_mem_ofFn_iff] at loop
  rwa [solveAssignment_of_lsa workers fits solution]

/-- Without workers the solver returns the empty output. -/
theorem solveAssignment_of_idle (idle : input.workers = []) :
    solveAssignment linearSumAssignment input = .ok ⟨[], 0⟩ := by
  simp [solveAssignment, idle]

/-- With workers, the solver returns only when there are enough jobs. -/
theorem fits_of_returned (workers : input.workers ≠ []) {output : AssignmentOutput}
    (returned : solveAssignment linearSumAssignment input = .ok output) :
    input.workers.length ≤ input.jobs.length := by
  have staffed : input.workers.isEmpty = false := by simp [workers]
  by_contra crowded
  rw [solveAssignment, staffed] at returned
  simp only [Bool.false_eq_true, if_false, gt_iff_lt, not_le.mp crowded, if_true] at returned
  split at returned
  · contradiction
  · contradiction

/-- An output that is a best complete matching of the input, worker by worker. -/
structure BestComplete (input : AssignmentInput) (output : AssignmentOutput)
    (pairs : List (Nat × Nat)) : Prop where
  /-- Every worker has a job, no job is given twice and all pairs exist. -/
  complete : IsComplete input pairs
  /-- Workers come once each, in input order. -/
  ordered : pairs.map Prod.fst = List.range input.workers.length
  /-- Each assignment reports the ids and the cost of its pair. -/
  reported : output.assignments.map some = pairs.map (report input)
  /-- The total cost is the exact sum of the costs. -/
  summed : output.totalCost = total input pairs
  /-- No complete matching of existing pairs has a larger total. -/
  maximal : ∀ other, IsComplete input other → total input other ≤ total input pairs

/-- A cheapest injection made of edges is a best complete matching. -/
theorem solveAssignment_bestComplete (workers : input.workers ≠ [])
    (fits : input.workers.length ≤ input.jobs.length)
    {f : Fin input.workers.length ↪ Fin input.jobs.length}
    (solution : linearSumAssignment (buildSolverMatrix (buildScoreMatrix input)) =
      .ok (List.range input.workers.length, List.ofFn fun i => (f i).val))
    (least : ∀ g : Fin input.workers.length ↪ Fin input.jobs.length,
      ∑ i : Fin input.workers.length,
          (buildSolverMatrix (buildScoreMatrix input)).cell i (f i) ≤
        ∑ i : Fin input.workers.length,
          (buildSolverMatrix (buildScoreMatrix input)).cell i (g i))
    (edges : ∀ i : Fin input.workers.length, (edge input (i.val, (f i).val)).isSome) :
    ∃ output, solveAssignment linearSumAssignment input = .ok output ∧
      BestComplete input output (made input fun i => (f i).val) := by
  have listed := made_of_edges edges
  have injective : Function.Injective fun i => (f i).val :=
    fun i j same => f.injective (Fin.ext same)
  have complete := isComplete_made injective edges
  obtain ⟨output, loop, reported, sum⟩ := foldlM_appendAssignment_of_edges input
    (made input fun i => (f i).val) ⟨[], 0⟩ complete.edges
  refine ⟨output, ?_, complete, ?_, reported, by simpa using sum, fun other rival => ?_⟩
  · rw [solveAssignment_of_lsa workers fits solution, ← listed, loop]
  · rw [listed, List.map_ofFn]
    apply List.ext_getElem
    · simp
    · intro i _ _
      simp
  · obtain ⟨g, worth⟩ := rival.exists_embedding
    have cheaper := least g
    rw [sum_solverMatrix, sum_solverMatrix, ← worth] at cheaper
    rw [← complete.value_le_iff rival, value_made]
    omega

end Solution

/-- What the solver returns for at least one worker are the edges of an injection, as a best
complete matching. -/
theorem exists_embedding_of_returned {linearSumAssignment : LinearSumAssignment}
    (solves : SolvesLsa linearSumAssignment) {input : AssignmentInput}
    (workers : input.workers ≠ []) {output : AssignmentOutput}
    (returned : solveAssignment linearSumAssignment input = .ok output) :
    ∃ f : Fin input.workers.length ↪ Fin input.jobs.length,
      BestComplete input output (made input fun i => (f i).val) := by
  have fits := fits_of_returned workers returned
  obtain ⟨rows, cols⟩ := solverMatrix_shape input
  obtain ⟨f, solution, least⟩ := solves _ _ _ rows cols fits
  have edges := (solveAssignment_returns_iff workers fits solution).mp ⟨output, returned⟩
  obtain ⟨other, solved, best⟩ :=
    solveAssignment_bestComplete workers fits solution least edges
  obtain rfl : other = output := Except.ok.inj (solved.symm.trans returned)
  exact ⟨f, best⟩

/-- The empty output is a best complete matching of no workers. -/
theorem bestComplete_of_idle {input : AssignmentInput} (idle : input.workers = []) :
    BestComplete input ⟨[], 0⟩ [] := by
  have nothing : IsMatching input [] :=
    ⟨fun pair none => absurd none List.not_mem_nil, List.nodup_nil, List.nodup_nil⟩
  have complete : IsComplete input [] := by
    refine ⟨nothing, fun worker inside => ?_⟩
    rw [idle] at inside
    exact absurd inside (Nat.not_lt_zero worker)
  refine ⟨complete, by rw [idle]; rfl, rfl, rfl, fun other rival => ?_⟩
  rw [rival.eq_nil idle]

/-- Whatever the solver returns is a best complete matching. -/
theorem exists_bestComplete_of_returned {linearSumAssignment : LinearSumAssignment}
    (solves : SolvesLsa linearSumAssignment) {input : AssignmentInput}
    {output : AssignmentOutput}
    (returned : solveAssignment linearSumAssignment input = .ok output) :
    ∃ pairs, BestComplete input output pairs := by
  by_cases idle : input.workers = []
  · obtain rfl := Except.ok.inj (returned.symm.trans (solveAssignment_of_idle idle))
    exact ⟨[], bestComplete_of_idle idle⟩
  · obtain ⟨f, best⟩ := exists_embedding_of_returned solves idle returned
    exact ⟨_, best⟩

/-- Given a `linear_sum_assignment` that solves its problem, whatever the solver returns for
at least one worker is a best complete matching: every worker position once and in order,
on distinct jobs, by existing pairs at their costs, with the exact and largest total. -/
theorem solve_assignment_sound (linearSumAssignment : LinearSumAssignment)
    (solves : SolvesLsa linearSumAssignment) (input : AssignmentInput)
    (workers : input.workers ≠ []) (output : AssignmentOutput)
    (returned : solveAssignment linearSumAssignment input = .ok output) :
    ∃ pairs, BestComplete input output pairs := by
  obtain ⟨f, best⟩ := exists_embedding_of_returned solves workers returned
  exact ⟨_, best⟩

/-- Two workers, three jobs and two missing pairs. -/
theorem solve_assignment_sound_sparse :
    let input : AssignmentInput := {
      workers := ["amy", "bob"]
      jobs := ["wash", "iron", "sweep"]
      costs := (((Dict.empty.insert ("amy", "wash") 10).insert ("amy", "iron") 8).insert
        ("bob", "wash") 7).insert ("bob", "sweep") 1 }
    ∃ pairs, BestComplete input
      ⟨[("amy", "iron", 8), ("bob", "wash", 7)], 15⟩ pairs :=
  solve_assignment_sound bruteForceLsa bruteForceLsa_solvesLsa _ (by decide) _
    (by decide +kernel)

end BossWorker.Python
