import BossWorker.Verif.PythonSolver
import BossWorker.Verif.RustSolver

/-!
# When a missing pair is truly impossible

The sentinel makes every edge worth 10^9 more than its cost, and costs reach 2^32, so one
dear edge can outweigh two cheap ones. The solvers keep to complete assignments exactly
when no matching that leaves a worker out is worth as much as every complete one: a library
solver may return any cheapest permutation, so a tie already loses a worker.
-/

namespace BossWorker.Verif

open BossWorker.Spec
open Equiv (Perm)

/-- The Rust solver gives every worker a job. -/
def RustAssignsAll (lapjv : Rust.Lapjv) (input : AssignmentInput) : Prop :=
  ∃ output, Rust.solveAssignment lapjv input = .ok output ∧
    output.assignments.map Prod.fst = input.workers

/-- The Python solver returns a result. -/
def PythonReturns (linearSumAssignment : Python.LinearSumAssignment)
    (input : AssignmentInput) : Prop :=
  ∃ output, Python.solveAssignment linearSumAssignment input = .ok output

/-- Whatever optimal solutions the libraries return, Rust assigns every worker and Python
does not raise. -/
def MissingPairsImpossible (input : AssignmentInput) : Prop :=
  ∀ lapjv linearSumAssignment, Rust.SolvesLap lapjv → Python.SolvesLsa linearSumAssignment →
    RustAssignsAll lapjv input ∧ PythonReturns linearSumAssignment input

/-- Every matching that leaves a worker out is worth less than some complete one. -/
def CompletePrevails (input : AssignmentInput) : Prop :=
  ∀ part, IsMatching input part →
    (∃ worker < input.workers.length, worker ∉ part.map Prod.fst) →
      ∃ full, IsComplete input full ∧ value input part < value input full

/-- A solver may return any cheapest permutation of a matrix. -/
theorem exists_solvesLap_of_cheapest {size : Nat} {matrix : Grid ℤ} (rows : matrix.rows = size)
    {τ : Perm (Fin size)}
    (least : ∀ σ : Perm (Fin size),
      ∑ i : Fin size, matrix.cell i (τ i) ≤ ∑ i : Fin size, matrix.cell i (σ i)) :
    ∃ lapjv, Rust.SolvesLap lapjv ∧
      lapjv matrix = .ok (List.ofFn fun i => (τ i).val, []) := by
  classical
  refine ⟨fun other => if other = matrix then .ok (List.ofFn fun i => (τ i).val, [])
    else Rust.bruteForceLapjv other, fun count other height width => ?_, if_pos rfl⟩
  by_cases own : other = matrix
  · subst own
    obtain rfl : size = count := rows.symm.trans height
    exact ⟨τ, [], if_pos rfl, least⟩
  · simp only [own, if_false]
    exact Rust.bruteForceLapjv_solvesLap count other height width

section Reported

variable {input : AssignmentInput} {assignments : List (String × String × UInt32)}
  {pairs : List (Nat × Nat)}

/-- Reported ids are those of the worker positions. -/
theorem map_fst_of_reported (reported : assignments.map some = pairs.map (edge input)) :
    assignments.map Prod.fst =
      (pairs.map Prod.fst).map fun worker => input.workers.getD worker "" := by
  rw [List.map_map]
  exact map_of_map_some reported fun pair found present => (ids_of_edge present).1

/-- Every worker is reported, in input order, exactly when every position is matched. -/
theorem map_fst_eq_workers_iff (matching : IsMatching input pairs)
    (ordered : (pairs.map Prod.fst).Pairwise (· < ·))
    (reported : assignments.map some = pairs.map (edge input)) :
    assignments.map Prod.fst = input.workers ↔
      ∀ worker < input.workers.length, worker ∈ pairs.map Prod.fst := by
  have ids := map_fst_of_reported reported
  have below : pairs.map Prod.fst ⊆ List.range input.workers.length := by
    intro worker member
    obtain ⟨pair, inside, rfl⟩ := List.mem_map.mp member
    exact List.mem_range.mpr (lt_of_edge (matching.edges pair inside)).1
  constructor
  · intro all worker inside
    have size := congrArg List.length (ids.symm.trans all)
    rw [List.length_map] at size
    have same := (List.subperm_of_subset matching.workers below).perm_of_length_le
      (by rw [List.length_range, size])
    exact same.mem_iff.mpr (List.mem_range.mpr inside)
  · intro all
    have complete : IsComplete input pairs := ⟨matching, all⟩
    have same : pairs.map Prod.fst = List.range input.workers.length := by
      refine List.Perm.eq_of_pairwise ?_ ordered List.pairwise_lt_range complete.workers_perm
      exact fun a b _ _ first second => absurd first (Nat.lt_asymm second)
    rw [ids, same, map_getD_range]

end Reported

section Solvers

variable {input : AssignmentInput}

/-- With a permutation as the solution, Rust assigns every worker exactly when the
permutation gives each worker an edge. -/
theorem rustAssignsAll_iff {lapjv : Rust.Lapjv} (workers : input.workers ≠ [])
    (jobs : input.jobs ≠ []) {σ : Perm (Fin (Rust.solverSize input))} {columns : List Nat}
    (solution : lapjv (Rust.buildMatrices input).solverMatrix =
      .ok (List.ofFn fun i => (σ i).val, columns)) :
    RustAssignsAll lapjv input ↔ ∀ worker < input.workers.length,
      worker ∈ (made input fun i => (σ i).val).map Prod.fst := by
  obtain ⟨output, solved, reported, _⟩ :=
    Rust.solveAssignment_of_lapjv input workers jobs solution
  rw [← map_fst_eq_workers_iff (Rust.made_perm_isMatching input σ) (made_ordered _) reported]
  constructor
  · rintro ⟨other, same, all⟩
    obtain rfl : output = other := Except.ok.inj (solved.symm.trans same)
    exact all
  · exact fun all => ⟨output, solved, all⟩

/-- Where complete matchings prevail, Rust assigns every worker. -/
theorem rustAssignsAll_of_prevails (prevails : CompletePrevails input) {lapjv : Rust.Lapjv}
    (solves : Rust.SolvesLap lapjv) : RustAssignsAll lapjv input := by
  obtain ⟨output, solved⟩ := Rust.solveAssignment_returns solves input
  obtain ⟨σ, reported, _, most⟩ := Rust.exists_perm_of_solved solves solved
  have matching := Rust.made_perm_isMatching input σ
  refine ⟨output, solved, ?_⟩
  apply (map_fst_eq_workers_iff matching (made_ordered _) reported).mpr
  by_contra left
  simp only [not_forall] at left
  obtain ⟨worker, inside, outside⟩ := left
  obtain ⟨full, complete, better⟩ := prevails _ matching ⟨worker, inside, outside⟩
  have bound := most full complete.toIsMatching
  omega

/-- Where complete matchings prevail, Python returns. -/
theorem pythonReturns_of_prevails (prevails : CompletePrevails input)
    (fits : input.workers.length ≤ input.jobs.length)
    {linearSumAssignment : Python.LinearSumAssignment}
    (solves : Python.SolvesLsa linearSumAssignment) :
    PythonReturns linearSumAssignment input := by
  by_cases workers : input.workers = []
  · exact ⟨⟨[], 0⟩, by simp [Python.solveAssignment, workers]⟩
  · obtain ⟨rows, cols⟩ := Python.solverMatrix_shape input
    obtain ⟨f, solution, least⟩ := solves _ _ _ rows cols fits
    refine (Python.solveAssignment_returns_iff workers fits solution).mpr ?_
    by_contra missing
    simp only [not_forall] at missing
    obtain ⟨worker, absent⟩ := missing
    have injective : Function.Injective fun i => (f i).val :=
      fun i j same => f.injective (Fin.ext same)
    have outside : worker.val ∉ (made input fun i => (f i).val).map Prod.fst :=
      fun member => absent ((mem_map_fst_made _ worker).mp member)
    obtain ⟨full, complete, better⟩ :=
      prevails _ (made_isMatching injective) ⟨worker, worker.isLt, outside⟩
    obtain ⟨g, worth⟩ := complete.exists_embedding
    have cost := least g
    rw [Python.sum_solverMatrix, Python.sum_solverMatrix, ← worth] at cost
    rw [value_made] at better
    omega

/-- Where a matching that leaves a worker out is worth as much as every complete one, some
optimal `lapjv` leaves a worker out. -/
theorem exists_lapjv_leaving_out (fits : input.workers.length ≤ input.jobs.length)
    {part : List (Nat × Nat)} (matching : IsMatching input part)
    {worker : Nat} (inside : worker < input.workers.length)
    (outside : worker ∉ part.map Prod.fst)
    (rivals : ∀ full, IsComplete input full → value input full ≤ value input part) :
    ∃ lapjv, Rust.SolvesLap lapjv ∧ ¬ RustAssignsAll lapjv input := by
  have workers : input.workers ≠ [] := List.length_pos_iff.mp (Nat.zero_lt_of_lt inside)
  have jobs : input.jobs ≠ [] := by
    rw [← List.length_pos_iff]
    omega
  obtain ⟨rows, cols⟩ := Rust.solverMatrix_shape input
  obtain ⟨σ, columns, solution, least⟩ := Rust.bruteForceLapjv_solvesLap _ _ rows cols
  by_cases all : RustAssignsAll Rust.bruteForceLapjv input
  · -- the solution is complete, so the part is as good and extends to another solution
    have served := (rustAssignsAll_iff workers jobs solution).mp all
    have complete : IsComplete input (made input fun i => (σ i).val) :=
      ⟨Rust.made_perm_isMatching input σ, served⟩
    have rival := rivals _ complete
    have height : input.workers.length ≤ Rust.solverSize input := Nat.le_max_left _ _
    have width : input.jobs.length ≤ Rust.solverSize input := Nat.le_max_right _ _
    obtain ⟨τ, worth, extra⟩ := matching.exists_perm height width
    have most := Rust.gain_le_of_cheapest least τ
    rw [value_made] at rival
    have cheap : ∀ ρ : Perm (Fin (Rust.solverSize input)),
        ∑ i : Fin (Rust.solverSize input),
            (Rust.buildMatrices input).solverMatrix.cell i (τ i) ≤
          ∑ i : Fin (Rust.solverSize input),
            (Rust.buildMatrices input).solverMatrix.cell i (ρ i) := by
      intro ρ
      refine le_trans ?_ (least ρ)
      rw [Rust.sum_solverMatrix, Rust.sum_solverMatrix]
      omega
    obtain ⟨lapjv, solves, answer⟩ := exists_solvesLap_of_cheapest rows cheap
    refine ⟨lapjv, solves, fun every => ?_⟩
    have room : worker < Rust.solverSize input := Nat.lt_of_lt_of_le inside height
    have edged := (mem_map_fst_made _ ⟨worker, room⟩).mp
      ((rustAssignsAll_iff workers jobs answer).mp every worker inside)
    have gained := (gain_pos_iff _ _).mpr edged
    have bound := extra ⟨worker, room⟩ outside
    omega
  · exact ⟨_, Rust.bruteForceLapjv_solvesLap, all⟩

end Solvers

/-- For an input with no more workers than jobs, Rust assigns every worker and Python
returns, whatever optimal solutions the libraries choose, exactly when every matching of
existing pairs that leaves a worker out is worth less, at 10^9 plus the cost for each pair,
than some complete assignment. -/
theorem missing_pairs_impossible_iff (input : AssignmentInput)
    (fits : input.workers.length ≤ input.jobs.length) :
    MissingPairsImpossible input ↔ CompletePrevails input := by
  constructor
  · rintro impossible part matching ⟨worker, inside, outside⟩
    by_contra rivals
    simp only [not_exists, not_and, not_lt] at rivals
    obtain ⟨lapjv, solves, left⟩ :=
      exists_lapjv_leaving_out fits matching inside outside rivals
    exact left (impossible lapjv _ solves Python.bruteForceLsa_solvesLsa).1
  · exact fun prevails lapjv linearSumAssignment solvesLap solvesLsa =>
      ⟨rustAssignsAll_of_prevails prevails solvesLap,
        pythonReturns_of_prevails prevails fits solvesLsa⟩

/-- Two workers, two jobs and a missing pair that the others can do without. -/
def cheapPairs : AssignmentInput where
  workers := ["amy", "bob"]
  jobs := ["wash", "iron"]
  costs := ((Dict.empty.insert ("amy", "wash") 3).insert ("amy", "iron") 2).insert
    ("bob", "wash") 1

/-- The equivalence for the two workers, who complete the assignment without the pair. -/
theorem missing_pairs_impossible_iff_cheap :
    (MissingPairsImpossible cheapPairs ↔ CompletePrevails cheapPairs) ∧
      Rust.solveAssignment Rust.bruteForceLapjv cheapPairs =
        .ok ⟨[⟨"amy", "iron", 2⟩, ⟨"bob", "wash", 1⟩], 3⟩ :=
  ⟨missing_pairs_impossible_iff cheapPairs (by decide), by decide +kernel⟩

/-- One dear pair, two free ones that complete the assignment, and a missing pair. -/
def dearPair : AssignmentInput where
  workers := ["amy", "bob"]
  jobs := ["wash", "iron"]
  costs := ((Dict.empty.insert ("amy", "wash") 4000000000).insert ("amy", "iron") 0).insert
    ("bob", "wash") 0

example : Rust.solveAssignment Rust.bruteForceLapjv dearPair =
    .ok ⟨[("amy", "wash", 4000000000)], 4000000000⟩ := by decide

example : Python.solveAssignment Python.bruteForceLsa dearPair =
    .error "No valid assignment found" := by decide

/-- Amy on the dear job and nobody else is worth five bonuses, the complete assignment two,
so the complete assignment is not found. -/
theorem missing_pair_possible :
    dearPair.workers.length ≤ dearPair.jobs.length ∧
      (∃ full, IsComplete dearPair full) ∧ ¬ MissingPairsImpossible dearPair := by
  refine ⟨by decide, ⟨[(0, 1), (1, 0)], ⟨by decide, by decide, by decide⟩, by decide⟩, ?_⟩
  intro impossible
  have matching : IsMatching dearPair [(0, 0)] := ⟨by decide, by decide, by decide⟩
  have rivals (full : List (Nat × Nat)) (complete : IsComplete dearPair full) :
      value dearPair full ≤ value dearPair [(0, 0)] := by
    obtain ⟨f, worth⟩ := complete.exists_embedding
    let amy : Fin dearPair.workers.length := ⟨0, by decide⟩
    let bob : Fin dearPair.workers.length := ⟨1, by decide⟩
    have distinct : f amy ≠ f bob := fun same => absurd (f.injective same) (by decide)
    have bound : ∀ a b : Fin dearPair.jobs.length, a ≠ b →
        gain dearPair 0 a + gain dearPair 1 b ≤ value dearPair [(0, 0)] := by decide
    rw [worth]
    exact (Fin.sum_univ_two _).trans_le (bound (f amy) (f bob) distinct)
  obtain ⟨lapjv, solves, left⟩ :=
    exists_lapjv_leaving_out (by decide) matching (by decide : 1 < 2) (by decide) rivals
  exact left (impossible lapjv _ solves Python.bruteForceLsa_solvesLsa).1

end BossWorker.Verif
