import BossWorker.Rust.Solver
import BossWorker.Spec.Matching

/-!
# The Rust solver finds the best matching

In the padded square a real cell costs the sentinel less its gain and a dummy cell costs
nothing. Every permutation meets the same number of real cells, so a cheapest permutation
is one of largest gain, and the edges it meets are a matching of largest value: any better
matching would extend to a cheaper permutation.
-/

namespace BossWorker.Rust

open BossWorker.Spec
open Equiv (Perm)

/-- What the crate promises of `lapjv`: a cheapest permutation of every square matrix. -/
def SolvesLap (lapjv : Lapjv) : Prop :=
  ∀ (size : Nat) (matrix : Grid ℤ), matrix.rows = size → matrix.cols = size →
    ∃ (σ : Perm (Fin size)) (columns : List Nat),
      lapjv matrix = .ok (List.ofFn fun i => (σ i).val, columns) ∧
        ∀ τ : Perm (Fin size),
          ∑ i : Fin size, matrix.cell i (σ i) ≤ ∑ i : Fin size, matrix.cell i (τ i)

/-- A solver that tries all permutations. -/
def bruteForceLapjv : Lapjv := fun matrix =>
  let σ := cheapest fun σ : Perm (Fin matrix.rows) =>
    ∑ i : Fin matrix.rows, matrix.cell i (σ i)
  .ok (List.ofFn fun i => (σ i).val, List.ofFn fun j => (σ.symm j).val)

/-- Trying all permutations finds a cheapest one. -/
theorem bruteForceLapjv_solvesLap : SolvesLap bruteForceLapjv := by
  rintro size matrix rfl _
  exact ⟨_, _, rfl, cost_cheapest_le _⟩

/-- The side of the padded square. -/
abbrev solverSize (input : AssignmentInput) : Nat :=
  max input.workers.length input.jobs.length

section Matrices

variable (input : AssignmentInput)

/-- The cell of the solver matrix: the sentinel less the gain, or nothing in the padding. -/
theorem solverMatrix_cell (i j : Nat) : (buildMatrices input).solverMatrix.cell i j =
    (if i < input.workers.length ∧ j < input.jobs.length then solverImpossibleCost else 0) -
      gain input i j := by
  have own : TouchesOwnCell (fillCell input.costs)
      (fun matrices => matrices.solverMatrix.cell)
      (fun worker job _ => (input.costs.get? (worker, job)).elim solverImpossibleCost
        fun score => -(score.toNat : ℤ)) := by
    intro matrices row col worker job r c
    cases priced : input.costs.get? (worker, job) <;>
      simp only [fillCell, priced, Grid.cell_set, Option.elim_none, Option.elim_some]
  rw [buildMatrices, look_sweep own]
  simp only [gain, edge, Option.bind_eq_bind]
  cases listed : input.workers[i]? with
  | none =>
    have outside : ¬ (i < input.workers.length ∧ j < input.jobs.length) := by
      rw [List.getElem?_eq_none_iff] at listed
      omega
    rw [if_neg outside]
    rfl
  | some worker =>
    cases offered : input.jobs[j]? with
    | none =>
      have outside : ¬ (i < input.workers.length ∧ j < input.jobs.length) := by
        rw [List.getElem?_eq_none_iff] at offered
        omega
      rw [if_neg outside]
      rfl
    | some job =>
      have inside : i < input.workers.length ∧ j < input.jobs.length :=
        ⟨(List.getElem?_eq_some_iff.mp listed).1, (List.getElem?_eq_some_iff.mp offered).1⟩
      rw [if_pos inside]
      simp only [Option.bind_some]
      cases input.costs.get? (worker, job) with
      | none => rfl
      | some score =>
        simp only [Option.bind_some, Option.elim_some, Option.pure_def, solverImpossibleCost,
          bonus]
        omega

/-- The cell of the score matrix at an edge is its cost. -/
theorem scoreMatrix_cell {i j : Nat} {found : String × String × UInt32}
    (present : edge input (i, j) = some found) :
    (buildMatrices input).scoreMatrix.cell i j = found.2.2.toNat := by
  have own : TouchesOwnCell (fillCell input.costs)
      (fun matrices => matrices.scoreMatrix.cell)
      (fun worker job old => (input.costs.get? (worker, job)).elim old fun score =>
        (score.toNat : ℤ)) := by
    intro matrices row col worker job r c
    cases priced : input.costs.get? (worker, job) <;>
      simp only [fillCell, priced, Grid.cell_set, Option.elim_none, Option.elim_some, ite_self]
  simp only [edge, Option.bind_eq_bind, Option.bind_eq_some_iff] at present
  obtain ⟨worker, listed, job, offered, cost, priced, same⟩ := present
  cases same
  rw [buildMatrices, look_sweep own, listed, offered]
  simp only [priced, Option.elim_some]

/-- The solver matrix is the square that holds all workers and jobs. -/
theorem solverMatrix_shape :
    (buildMatrices input).solverMatrix.rows = solverSize input ∧
      (buildMatrices input).solverMatrix.cols = solverSize input := by
  have own : TouchesOwnCell (fillCell input.costs)
      (fun matrices _ _ => (matrices.solverMatrix.rows, matrices.solverMatrix.cols))
      (fun _ _ shape => shape) := by
    intro matrices row col worker job r c
    cases priced : input.costs.get? (worker, job) <;>
      simp only [fillCell, priced, Grid.rows_set, Grid.cols_set, ite_self]
  have shape := look_sweep own
    { scoreMatrix := Grid.fromElem input.workers.length input.jobs.length impossibleScore
      solverMatrix := Grid.fromElem (solverSize input) (solverSize input)
        dummyAssignmentCost }
    input.workers input.jobs 0 0
  have kept : ((buildMatrices input).solverMatrix.rows,
      (buildMatrices input).solverMatrix.cols) = (solverSize input, solverSize input) := by
    refine Eq.trans shape ?_
    cases input.workers[0]? <;> cases input.jobs[0]? <;> rfl
  exact ⟨congrArg Prod.fst kept, congrArg Prod.snd kept⟩

/-- The cost of a permutation falls as its gain rises. -/
theorem sum_solverMatrix (σ : Perm (Fin (solverSize input))) :
    ∑ i : Fin (solverSize input), (buildMatrices input).solverMatrix.cell i (σ i) =
      solverImpossibleCost * (min input.workers.length input.jobs.length : Nat) -
        ((∑ i : Fin (solverSize input), gain input i (σ i) : Nat) : ℤ) := by
  simp only [solverMatrix_cell, Finset.sum_sub_distrib, sum_real_cells, Nat.cast_sum]

end Matrices

/-- The cast back to `u32` recovers a cost. -/
theorem asU32_toNat (cost : UInt32) : asU32 (cost.toNat : ℤ) = cost := by
  have bound := cost.toNat_lt
  have nonnegative : ¬ (cost.toNat : ℤ) < 0 := by omega
  have small : (cost.toNat : ℤ) < 2 ^ 32 := by omega
  rw [asU32, if_neg nonnegative, if_pos small, Int.toNat_natCast, UInt32.ofNat_toNat]

/-- A saturating sum is the sum up to the largest word. -/
theorem saturatingAdd_toNat (left right : UInt32) :
    (saturatingAdd left right).toNat = min (left.toNat + right.toNat) (2 ^ 32 - 1) := by
  unfold saturatingAdd
  by_cases small : left.toNat + right.toNat < 2 ^ 32
  · rw [if_pos small, UInt32.toNat_add, Nat.mod_eq_of_lt small]
    omega
  · rw [if_neg small]
    have largest : (4294967295 : UInt32).toNat = 2 ^ 32 - 1 := by decide
    omega

section Collect

variable (input : AssignmentInput)

/-- A row of the solution is reported when it is an edge, and skipped otherwise. -/
theorem collectAssignment_eq (output : AssignmentOutput) (row : Nat × Nat) :
    collectAssignment input (buildMatrices input) output row =
      match edge input row.swap with
      | some found =>
        { assignments := output.assignments ++ [found]
          totalCost := saturatingAdd output.totalCost found.2.2 }
      | none => output := by
  obtain ⟨jobIndex, workerIndex⟩ := row
  have cell := solverMatrix_cell input workerIndex jobIndex
  cases present : edge input (workerIndex, jobIndex) with
  | none =>
    have nothing : gain input workerIndex jobIndex = 0 := by rw [gain, present]
    simp only [collectAssignment, Prod.swap_prod_mk, present]
    by_cases dummy : workerIndex ≥ input.workers.length ∨ jobIndex ≥ input.jobs.length
    · rw [if_pos dummy]
    · have inside : workerIndex < input.workers.length ∧ jobIndex < input.jobs.length := by
        omega
      rw [if_pos inside, nothing] at cell
      have sentinel : (buildMatrices input).solverMatrix.cell workerIndex jobIndex ≥
          solverImpossibleCost := by
        rw [cell]
        exact le_of_eq (sub_zero _).symm
      rw [if_neg dummy, if_pos sentinel]
  | some found =>
    have inside : workerIndex < input.workers.length ∧ jobIndex < input.jobs.length :=
      lt_of_edge (Option.isSome_iff_exists.mpr ⟨found, present⟩)
    have gained : gain input workerIndex jobIndex = found.2.2.toNat + bonus := by
      rw [gain, present]
    have real : ¬ (workerIndex ≥ input.workers.length ∨ jobIndex ≥ input.jobs.length) := by
      omega
    have cheap : ¬ (buildMatrices input).solverMatrix.cell workerIndex jobIndex ≥
        solverImpossibleCost := by
      rw [cell, if_pos inside, gained]
      simp only [solverImpossibleCost, bonus]
      omega
    have score := scoreMatrix_cell input present
    simp only [edge, Option.bind_eq_bind, Option.bind_eq_some_iff] at present
    obtain ⟨worker, listed, job, offered, cost, priced, same⟩ := present
    cases same
    simp only [collectAssignment, real, if_false, cheap, score, asU32_toNat,
      List.getD_eq_getElem?_getD, listed, offered, Option.getD_some, Prod.swap_prod_mk, edge,
      Option.bind_eq_bind, Option.bind_some, priced, Option.pure_def]

/-- The loop reports the edges among the rows, in order. -/
theorem foldl_collectAssignment (rows : List (Nat × Nat)) (output : AssignmentOutput) :
    (rows.foldl (collectAssignment input (buildMatrices input)) output).assignments.map some =
      output.assignments.map some ++
        ((rows.map Prod.swap).filter fun pair => (edge input pair).isSome).map
          (edge input) := by
  induction rows generalizing output with
  | nil => simp
  | cons row rows ih =>
    rw [List.foldl_cons, ih, collectAssignment_eq, List.map_cons, List.filter_cons]
    cases present : edge input row.swap with
    | none => simp
    | some found => simp [present]

/-- The total of an output is the sum of its costs, as far as a word reaches. -/
def Capped (output : AssignmentOutput) : Prop :=
  output.totalCost.toNat =
    min (output.assignments.map fun assignment => assignment.2.2.toNat).sum (2 ^ 32 - 1)

/-- A reported cost is added to the total in the same step. -/
theorem Capped.collect (matrices : SolverMatrices) {output : AssignmentOutput}
    (capped : Capped output) (row : Nat × Nat) :
    Capped (collectAssignment input matrices output row) := by
  simp only [collectAssignment]
  split
  · exact capped
  · split
    · exact capped
    · unfold Capped at capped ⊢
      simp only [saturatingAdd_toNat, capped, List.map_append, List.sum_append,
        List.map_singleton, List.sum_singleton]
      omega

/-- The loop keeps the total at the sum of the costs. -/
theorem Capped.foldl (matrices : SolverMatrices) (rows : List (Nat × Nat))
    {output : AssignmentOutput} (capped : Capped output) :
    Capped (rows.foldl (collectAssignment input matrices) output) := by
  induction rows generalizing output with
  | nil => exact capped
  | cons row rows ih => exact ih (capped.collect input matrices row)

/-- An output that reports edges totals their costs, as far as a word reaches. -/
theorem Capped.totalCost_of_reported {output : AssignmentOutput} (capped : Capped output)
    {pairs : List (Nat × Nat)} (reported : output.assignments.map some = pairs.map (edge input)) :
    output.totalCost.toNat = min (total input pairs) (2 ^ 32 - 1) := by
  have costs : output.assignments.map (fun assignment => assignment.2.2.toNat) =
      pairs.map (cost input) := by
    apply map_of_map_some reported
    intro pair found present
    rw [cost, present, Option.elim_some]
  rw [capped, costs, total]

/-- Rows with their indices are the pairs of a map of positions. -/
theorem zipIdx_ofFn_swap {size : Nat} (image : Fin size → Nat) :
    (List.ofFn image).zipIdx.map Prod.swap = List.ofFn fun i => (i.val, image i) := by
  apply List.ext_getElem
  · simp
  · intro i _ _
    simp

/-- With a permutation as the solution, the solver reports the edges it meets, and their
total cost as far as a word reaches. -/
theorem solveAssignment_of_lapjv {lapjv : Lapjv} (workers : input.workers ≠ [])
    (jobs : input.jobs ≠ []) {size : Nat} {σ : Perm (Fin size)} {columns : List Nat}
    (solution : lapjv (buildMatrices input).solverMatrix =
      .ok (List.ofFn fun i => (σ i).val, columns)) :
    ∃ output, solveAssignment lapjv input = .ok output ∧
      output.assignments.map some = (made input fun i => (σ i).val).map (edge input) ∧
      output.totalCost.toNat =
        min (total input (made input fun i => (σ i).val)) (2 ^ 32 - 1) := by
  have staffed : ¬ (input.workers.isEmpty = true ∨ input.jobs.isEmpty = true) := by
    simp [workers, jobs]
  let output := (List.ofFn fun i => (σ i).val).zipIdx.foldl
    (collectAssignment input (buildMatrices input)) ⟨[], 0⟩
  have solved : solveAssignment lapjv input = .ok output := by
    simp only [solveAssignment, if_neg staffed, solution]
    rfl
  have reported : output.assignments.map some =
      (made input fun i => (σ i).val).map (edge input) := by
    rw [foldl_collectAssignment, zipIdx_ofFn_swap]
    rfl
  have nothing : Capped ⟨[], 0⟩ := rfl
  have capped : Capped output := nothing.foldl input (buildMatrices input) _
  exact ⟨output, solved, reported, capped.totalCost_of_reported input reported⟩

end Collect

/-- Without workers or without jobs nothing is assigned. -/
theorem solveAssignment_of_isEmpty (lapjv : Lapjv) {input : AssignmentInput}
    (vacant : input.workers = [] ∨ input.jobs = []) :
    solveAssignment lapjv input = .ok { assignments := [], totalCost := 0 } := by
  rw [solveAssignment, if_pos (by simpa using vacant)]

/-- A cheapest permutation of the solver matrix gains the most. -/
theorem gain_le_of_cheapest {input : AssignmentInput}
    {σ : Perm (Fin (solverSize input))}
    (least : ∀ τ : Perm (Fin (solverSize input)),
      ∑ i : Fin (solverSize input), (buildMatrices input).solverMatrix.cell i (σ i) ≤
        ∑ i : Fin (solverSize input), (buildMatrices input).solverMatrix.cell i (τ i))
    (τ : Perm (Fin (solverSize input))) :
    ∑ i : Fin (solverSize input), gain input i (τ i) ≤
      ∑ i : Fin (solverSize input), gain input i (σ i) := by
  have cost := least τ
  rw [sum_solverMatrix, sum_solverMatrix] at cost
  omega

/-- No matching is worth more than the edges of a cheapest permutation. -/
theorem value_le_of_cheapest {input : AssignmentInput} {σ : Perm (Fin (solverSize input))}
    (least : ∀ τ : Perm (Fin (solverSize input)),
      ∑ i : Fin (solverSize input), (buildMatrices input).solverMatrix.cell i (σ i) ≤
        ∑ i : Fin (solverSize input), (buildMatrices input).solverMatrix.cell i (τ i))
    {other : List (Nat × Nat)} (matching : IsMatching input other) :
    value input other ≤ value input (made input fun i => (σ i).val) := by
  obtain ⟨τ, bound, _⟩ :=
    matching.exists_perm (Nat.le_max_left _ input.jobs.length) (Nat.le_max_right _ _)
  rw [value_made]
  exact bound.trans (gain_le_of_cheapest least τ)

/-- The edges of a permutation are a matching. -/
theorem made_perm_isMatching (input : AssignmentInput) {size : Nat} (σ : Perm (Fin size)) :
    IsMatching input (made input fun i => (σ i).val) :=
  made_isMatching fun _ _ same => σ.injective (Fin.ext same)

/-- Given a `lapjv` that solves its problem, the solver returns. -/
theorem solveAssignment_returns {lapjv : Lapjv} (solves : SolvesLap lapjv)
    (input : AssignmentInput) : ∃ output, solveAssignment lapjv input = .ok output := by
  by_cases vacant : input.workers = [] ∨ input.jobs = []
  · exact ⟨_, solveAssignment_of_isEmpty lapjv vacant⟩
  · rw [not_or] at vacant
    obtain ⟨rows, cols⟩ := solverMatrix_shape input
    obtain ⟨σ, columns, solution, _⟩ := solves _ _ rows cols
    obtain ⟨output, solved, _⟩ := solveAssignment_of_lapjv input vacant.1 vacant.2 solution
    exact ⟨output, solved⟩

/-- Without workers or without jobs there is no edge to meet. -/
theorem made_of_isEmpty {input : AssignmentInput} (vacant : input.workers = [] ∨ input.jobs = [])
    {size : Nat} (image : Fin size → Nat) : made input image = [] := by
  rw [List.eq_nil_iff_forall_not_mem]
  intro pair member
  have inside := lt_of_edge (List.mem_filter.mp member).2
  rcases vacant with workers | jobs
  · rw [workers] at inside
    exact Nat.not_lt_zero _ inside.1
  · rw [jobs] at inside
    exact Nat.not_lt_zero _ inside.2

/-- What the solver returns reports the edges of a permutation, with their total as far as a
word reaches, and no matching is worth more than these edges. -/
theorem exists_perm_of_solved {lapjv : Lapjv} (solves : SolvesLap lapjv)
    {input : AssignmentInput} {output : AssignmentOutput}
    (solved : solveAssignment lapjv input = .ok output) :
    ∃ σ : Perm (Fin (solverSize input)),
      output.assignments.map some = (made input fun i => (σ i).val).map (edge input) ∧
      output.totalCost.toNat = min (total input (made input fun i => (σ i).val)) (2 ^ 32 - 1) ∧
      ∀ other, IsMatching input other →
        value input other ≤ value input (made input fun i => (σ i).val) := by
  obtain ⟨rows, cols⟩ := solverMatrix_shape input
  obtain ⟨σ, columns, solution, least⟩ := solves _ _ rows cols
  have most (other : List (Nat × Nat)) (matching : IsMatching input other) :=
    value_le_of_cheapest least matching
  refine ⟨σ, ?_⟩
  by_cases vacant : input.workers = [] ∨ input.jobs = []
  · have nothing := solveAssignment_of_isEmpty lapjv vacant
    obtain rfl := Except.ok.inj (solved.symm.trans nothing)
    rw [made_of_isEmpty vacant] at most ⊢
    exact ⟨rfl, rfl, most⟩
  · rw [not_or] at vacant
    obtain ⟨other, returned, reported, sum⟩ :=
      solveAssignment_of_lapjv input vacant.1 vacant.2 solution
    obtain rfl := Except.ok.inj (solved.symm.trans returned)
    exact ⟨reported, sum, most⟩

/-- Reported assignments that are a best matching of the input, worker by worker. -/
structure OptimalAssignments (input : AssignmentInput)
    (assignments : List (String × String × UInt32)) (pairs : List (Nat × Nat)) : Prop where
  /-- The positions are a matching of existing pairs. -/
  matching : IsMatching input pairs
  /-- Workers come in input order. -/
  ordered : (pairs.map Prod.fst).Pairwise (· < ·)
  /-- Each assignment reports the ids and the cost of its pair. -/
  reported : pairs.map (edge input) = assignments.map some
  /-- No matching of existing pairs is worth more. -/
  maximal : ∀ other, IsMatching input other → value input other ≤ value input pairs

/-- Given a `lapjv` that solves its problem, the solver returns a best matching of every
input, whether workers or jobs are fewer, equally many or missing. -/
theorem solve_assignment_optimal (lapjv : Lapjv) (solves : SolvesLap lapjv)
    (input : AssignmentInput) :
    ∃ output pairs, solveAssignment lapjv input = .ok output ∧
      OptimalAssignments input output.assignments pairs := by
  obtain ⟨output, solved⟩ := solveAssignment_returns solves input
  obtain ⟨σ, reported, _, most⟩ := exists_perm_of_solved solves solved
  exact ⟨output, _, solved, made_perm_isMatching input σ, made_ordered _, reported.symm, most⟩

/-- More workers than jobs, and a pair without a cost. -/
theorem solve_assignment_optimal_uneven :
    let input : AssignmentInput := {
      workers := ["amy", "bob", "cat"]
      jobs := ["wash", "iron"]
      costs := ((Dict.empty.insert ("amy", "wash") 10).insert ("bob", "wash") 7).insert
        ("bob", "iron") 3 }
    ∃ output pairs, solveAssignment bruteForceLapjv input = .ok output ∧
      OptimalAssignments input output.assignments pairs :=
  solve_assignment_optimal bruteForceLapjv bruteForceLapjv_solvesLap _

end BossWorker.Rust
