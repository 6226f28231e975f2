import BossWorker.Verif.Handlers
import Mathlib.Order.Bounds.Defs

/-!
# The total against the smallest total

The message definition calls a lower cost better, and the unit tests expect the smallest
total. Both solvers negate the costs before they ask for a cheapest solution, so where every
pair has a cost they return a complete assignment of the largest total. The two are the same
exactly when all complete assignments cost the same, that is, when exchanging the jobs of two
workers never changes the cost.
-/

namespace BossWorker.Verif

open BossWorker.Spec
open Equiv (Perm)

section Square

variable {input : AssignmentInput}

/-- Every worker position and job position have a cost. -/
def Priced (input : AssignmentInput) : Prop :=
  ∀ worker < input.workers.length, ∀ job < input.jobs.length,
    (edge input (worker, job)).isSome

/-- The costs of a square input. -/
def squareCost (input : AssignmentInput) (worker job : Fin input.workers.length) : Nat :=
  cost input (worker.val, job.val)

/-- The total of the edges that a map of positions meets. -/
theorem total_made_of_edges {size : Nat} {image : Fin size → Nat}
    (edges : ∀ i : Fin size, (edge input (i.val, image i)).isSome) :
    total input (made input image) = ∑ i : Fin size, cost input (i.val, image i) := by
  rw [total, made_of_edges edges, List.map_ofFn, List.sum_ofFn]
  rfl

/-- Where every pair has a cost, a permutation is a complete assignment. -/
theorem isComplete_made_perm (priced : Priced input)
    (square : input.workers.length = input.jobs.length)
    (σ : Perm (Fin input.workers.length)) :
    IsComplete input (made input fun i => (σ i).val) ∧
      total input (made input fun i => (σ i).val) = ∑ i, squareCost input i (σ i) := by
  have edges (i : Fin input.workers.length) : (edge input (i.val, (σ i).val)).isSome := by
    apply priced i.val i.isLt
    have inside := (σ i).isLt
    omega
  have injective : Function.Injective fun i => (σ i).val :=
    fun i j same => σ.injective (Fin.ext same)
  exact ⟨isComplete_made injective edges, total_made_of_edges edges⟩

/-- A complete assignment of a square input costs as much as some permutation. -/
theorem exists_perm_of_isComplete (square : input.workers.length = input.jobs.length)
    {pairs : List (Nat × Nat)} (complete : IsComplete input pairs) :
    ∃ σ : Perm (Fin input.workers.length),
      total input pairs = ∑ i, squareCost input i (σ i) := by
  obtain ⟨f, listed⟩ := complete.exists_listing
  let image (i : Fin input.workers.length) : Fin input.workers.length :=
    Fin.cast square.symm (f i)
  have injective : Function.Injective image :=
    (Fin.cast_injective square.symm).comp f.injective
  refine ⟨Equiv.ofBijective image (Finite.injective_iff_bijective.mp injective), ?_⟩
  rw [total, ← (listed.map _).sum_eq, List.map_ofFn, List.sum_ofFn]
  rfl

/-- The complete assignments of a square input all cost the same exactly when exchanging the
jobs of two workers never changes the cost. -/
theorem totals_eq_iff (priced : Priced input)
    (square : input.workers.length = input.jobs.length) :
    (∀ left right, IsComplete input left → IsComplete input right →
      total input left = total input right) ↔ Balanced (squareCost input) := by
  constructor
  · intro same
    apply balanced_of_sum_eq
    intro σ τ
    obtain ⟨left, leftTotal⟩ := isComplete_made_perm priced square σ
    obtain ⟨right, rightTotal⟩ := isComplete_made_perm priced square τ
    rw [← leftTotal, ← rightTotal]
    exact same _ _ left right
  · intro balanced left right first second
    obtain ⟨σ, leftTotal⟩ := exists_perm_of_isComplete square first
    obtain ⟨τ, rightTotal⟩ := exists_perm_of_isComplete square second
    rw [leftTotal, rightTotal, balanced.sum_eq σ, balanced.sum_eq τ]

/-- Where every pair has a cost, Rust totals a complete assignment, as far as a word
reaches. -/
theorem rust_total_of_solved (priced : Priced input)
    (square : input.workers.length = input.jobs.length) {lapjv : Rust.Lapjv}
    (solves : Rust.SolvesLap lapjv) {output : Rust.AssignmentOutput}
    (solved : Rust.solveAssignment lapjv input = .ok output) :
    ∃ pairs, IsComplete input pairs ∧
      output.totalCost.toNat = min (total input pairs) (2 ^ 32 - 1) := by
  obtain ⟨σ, _, sum, _⟩ := Rust.exists_perm_of_solved solves solved
  refine ⟨_, ⟨Rust.made_perm_isMatching input σ, fun worker inside => ?_⟩, sum⟩
  have size : Rust.solverSize input = input.jobs.length := Nat.max_eq_right (by omega)
  have room : worker < Rust.solverSize input := by omega
  have column := (σ ⟨worker, room⟩).isLt
  exact (mem_map_fst_made _ ⟨worker, room⟩).mpr (priced worker inside _ (by omega))

/-- Where every pair has a cost, Python returns. -/
theorem python_returns_of_priced (priced : Priced input)
    (square : input.workers.length = input.jobs.length)
    {linearSumAssignment : Python.LinearSumAssignment}
    (solves : Python.SolvesLsa linearSumAssignment) :
    PythonReturns linearSumAssignment input := by
  by_cases idle : input.workers = []
  · exact ⟨_, Python.solveAssignment_of_idle idle⟩
  · have fits := Nat.le_of_eq square
    obtain ⟨rows, cols⟩ := Python.solverMatrix_shape input
    obtain ⟨f, solution, _⟩ := solves _ _ _ rows cols fits
    apply (Python.solveAssignment_returns_iff idle fits solution).mpr
    exact fun i => priced i i.isLt (f i) (f i).isLt

end Square

section Requests

variable {request : AssignmentRequest}

/-- The request has a cost for every worker and job. -/
def Quoted (request : AssignmentRequest) : Prop :=
  ∀ worker ∈ request.workers, ∀ job ∈ request.jobs, ∃ entry ∈ request.costs,
    entry.workerId = worker.workerId ∧ entry.jobId = job.jobId

instance (request : AssignmentRequest) : Decidable (Quoted request) :=
  inferInstanceAs (Decidable (∀ worker ∈ request.workers, ∀ job ∈ request.jobs,
    ∃ entry ∈ request.costs, entry.workerId = worker.workerId ∧ entry.jobId = job.jobId))

/-- The total of a result is the smallest total of a complete assignment. -/
def HasMinimumTotal (request : AssignmentRequest) (result : AssignmentResult) : Prop :=
  IsLeast {sum | ∃ full, IsComplete (requestInput request) full ∧
    total (requestInput request) full = sum} result.totalCost.toNat

/-- Both handlers return a result with the smallest total. -/
structure ReturnMinimum (lapjv : Rust.Lapjv) (linearSumAssignment : Python.LinearSumAssignment)
    (request : AssignmentRequest) : Prop where
  /-- The Rust handler. -/
  rust : ∃ result, Rust.handleAssignmentRequest lapjv request = .ok result ∧
    HasMinimumTotal request result
  /-- The Python handler. -/
  python : ∃ result, Python.handleAssignmentRequest linearSumAssignment request = .ok result ∧
    HasMinimumTotal request result

/-- All complete assignments of a request cost the same, and their cost is a word. -/
structure CostsLevel (request : AssignmentRequest) : Prop where
  /-- Exchanging the jobs of two workers never changes the cost. -/
  balanced : Balanced (squareCost (requestInput request))
  /-- The first worker with the first job, the second with the second, and so on. -/
  small : ∑ i, squareCost (requestInput request) i i < 2 ^ 32

/-- A cost listed for a key is found in the map of the request. -/
theorem isSome_get?_collectCosts {costs : List AssignmentCost} {entry : AssignmentCost}
    (listed : entry ∈ costs) :
    ((Rust.collectCosts costs).get? (entry.workerId, entry.jobId)).isSome := by
  have filled (later : List AssignmentCost) (found : Dict (String × String) UInt32)
      (known : entry ∈ later ∨ (found.get? (entry.workerId, entry.jobId)).isSome) :
      ((later.foldl (fun costs cost => costs.insert (cost.workerId, cost.jobId) cost.cost)
        found).get? (entry.workerId, entry.jobId)).isSome := by
    induction later generalizing found with
    | nil => exact known.resolve_left List.not_mem_nil
    | cons first later ih =>
      apply ih
      rw [Dict.get?_insert]
      by_cases same : (entry.workerId, entry.jobId) = (first.workerId, first.jobId)
      · rw [if_pos same]
        exact Or.inr rfl
      · rw [if_neg same]
        rcases known with listed | before
        · rcases List.mem_cons.mp listed with rfl | after
          · exact absurd rfl same
          · exact Or.inl after
        · exact Or.inr before
  exact filled costs Dict.empty (Or.inl listed)

/-- A request with a cost for every worker and job is priced. -/
theorem priced_of_quoted (quoted : Quoted request) : Priced (requestInput request) := by
  intro worker inside job offered
  have staffed : worker < request.workers.length := by simpa [requestInput] using inside
  have wanted : job < request.jobs.length := by simpa [requestInput] using offered
  obtain ⟨entry, listed, sameWorker, sameJob⟩ :=
    quoted _ (List.getElem_mem staffed) _ (List.getElem_mem wanted)
  have found := isSome_get?_collectCosts listed
  rw [sameWorker, sameJob] at found
  obtain ⟨price, same⟩ := Option.isSome_iff_exists.mp found
  have first : (requestInput request).workers[worker]? =
      some request.workers[worker].workerId := by simp [requestInput, staffed]
  have second : (requestInput request).jobs[job]? = some request.jobs[job].jobId := by
    simp [requestInput, wanted]
  have known : (requestInput request).costs.get?
      (request.workers[worker].workerId, request.jobs[job].jobId) = some price := same
  simp only [edge, first, second, Option.bind_eq_bind, Option.bind_some, known, Option.pure_def,
    Option.isSome_some]

/-- Where both handlers return the smallest total, all complete assignments cost the same. -/
theorem ReturnMinimum.costsLevel {lapjv : Rust.Lapjv}
    {linearSumAssignment : Python.LinearSumAssignment}
    (minimum : ReturnMinimum lapjv linearSumAssignment request)
    (solves : Python.SolvesLsa linearSumAssignment)
    (priced : Priced (requestInput request))
    (square : (requestInput request).workers.length = (requestInput request).jobs.length) :
    CostsLevel request := by
  obtain ⟨result, handled, least⟩ := minimum.python
  obtain ⟨output, solved, built⟩ := python_solved_of_handled handled
  obtain ⟨pairs, best⟩ := Python.exists_bestComplete_of_returned solves solved
  have stored := python_totalCost_of_built built
  have sum := best.summed
  have word := result.totalCost.toNat_lt
  -- the smallest total is the largest as well
  have level (full : List (Nat × Nat)) (rival : IsComplete (requestInput request) full) :
      total (requestInput request) full = result.totalCost.toNat := by
    have above := best.maximal full rival
    have below := least.2 ⟨full, rival, rfl⟩
    omega
  constructor
  · rw [← totals_eq_iff priced square]
    intro left right first second
    rw [level left first, level right second]
  · obtain ⟨diagonal, sum⟩ := isComplete_made_perm priced square 1
    rw [level _ diagonal] at sum
    simp only [Equiv.Perm.one_apply] at sum
    omega

/-- Where all complete assignments cost the same word, any of them has the smallest total. -/
theorem CostsLevel.hasMinimumTotal (costs : CostsLevel request)
    (priced : Priced (requestInput request))
    (square : (requestInput request).workers.length = (requestInput request).jobs.length)
    {pairs : List (Nat × Nat)} (complete : IsComplete (requestInput request) pairs) :
    total (requestInput request) pairs < 2 ^ 32 ∧
      ∀ result : AssignmentResult,
        result.totalCost.toNat = total (requestInput request) pairs →
          HasMinimumTotal request result := by
  have same := (totals_eq_iff priced square).mpr costs.balanced
  constructor
  · obtain ⟨diagonal, sum⟩ := isComplete_made_perm priced square 1
    have small := costs.small
    rw [same _ _ diagonal complete] at sum
    simp only [Equiv.Perm.one_apply] at sum
    omega
  · intro result reached
    constructor
    · exact ⟨pairs, complete, reached.symm⟩
    · intro sum attained
      obtain ⟨full, rival, rfl⟩ := attained
      rw [reached]
      exact Nat.le_of_eq (same pairs full complete rival)

/-- Where all complete assignments cost the same word, both handlers return it. -/
theorem CostsLevel.returnMinimum (costs : CostsLevel request)
    (priced : Priced (requestInput request))
    (square : (requestInput request).workers.length = (requestInput request).jobs.length)
    {lapjv : Rust.Lapjv} {linearSumAssignment : Python.LinearSumAssignment}
    (solvesLap : Rust.SolvesLap lapjv) (solvesLsa : Python.SolvesLsa linearSumAssignment) :
    ReturnMinimum lapjv linearSumAssignment request := by
  constructor
  · obtain ⟨output, solved⟩ := Rust.solveAssignment_returns solvesLap (requestInput request)
    obtain ⟨pairs, complete, sum⟩ := rust_total_of_solved priced square solvesLap solved
    obtain ⟨small, least⟩ := costs.hasMinimumTotal priced square complete
    refine ⟨Rust.buildResult request output, rust_handled solved, least _ ?_⟩
    change output.totalCost.toNat = _
    omega
  · obtain ⟨output, solved⟩ := python_returns_of_priced priced square solvesLsa
    obtain ⟨pairs, best⟩ := Python.exists_bestComplete_of_returned solvesLsa solved
    obtain ⟨small, least⟩ := costs.hasMinimumTotal priced square best.complete
    obtain ⟨result, built, stored⟩ := python_built_of_bestComplete request best small
    refine ⟨result, ?_, least result ?_⟩
    · rw [python_handled solved, built]
      rfl
    · rw [stored, UInt32.toNat_ofNat', Nat.mod_eq_of_lt small]

/-- The positions of a request are its workers and jobs. -/
theorem square_requestInput (square : request.workers.length = request.jobs.length) :
    (requestInput request).workers.length = (requestInput request).jobs.length := by
  change (request.workers.map _).length = (request.jobs.map _).length
  rw [List.length_map, List.length_map, square]

end Requests

/-- With as many jobs as workers and a cost for every pair, both handlers return a result with
the smallest total of a complete assignment exactly when exchanging the jobs of two workers
never changes the cost and the one total there is fits a word. -/
theorem minimum_returned_iff (lapjv : Rust.Lapjv)
    (linearSumAssignment : Python.LinearSumAssignment) (solvesLap : Rust.SolvesLap lapjv)
    (solvesLsa : Python.SolvesLsa linearSumAssignment) (request : AssignmentRequest)
    (square : request.workers.length = request.jobs.length) (quoted : Quoted request) :
    ReturnMinimum lapjv linearSumAssignment request ↔ CostsLevel request := by
  have priced := priced_of_quoted quoted
  have same := square_requestInput square
  constructor
  · exact fun minimum => minimum.costsLevel solvesLsa priced same
  · exact fun level => level.returnMinimum priced same solvesLap solvesLsa

/-- The request of the handler's unit test, which expects the total 2. -/
def choresForTwo : AssignmentRequest where
  assignmentId := "assignment-001"
  workers := [⟨"alice", "Alice"⟩, ⟨"bob", "Bob"⟩]
  jobs := [⟨"dishes", "Wash dishes"⟩, ⟨"laundry", "Fold laundry"⟩]
  costs := [⟨"alice", "dishes", 1⟩, ⟨"alice", "laundry", 10⟩, ⟨"bob", "dishes", 10⟩,
    ⟨"bob", "laundry", 1⟩]

/-- The equivalence for the request of the unit test. -/
theorem minimum_returned_iff_chores :
    ReturnMinimum Rust.bruteForceLapjv Python.bruteForceLsa choresForTwo ↔
      CostsLevel choresForTwo :=
  minimum_returned_iff _ _ Rust.bruteForceLapjv_solvesLap Python.bruteForceLsa_solvesLsa
    choresForTwo (by decide) (by decide)

example : (Rust.handleAssignmentRequest Rust.bruteForceLapjv choresForTwo).map
    AssignmentResult.totalCost = .ok 20 := by decide +kernel

/-- The Python handler reports 20 where 2 is the smallest total. -/
theorem minimum_not_returned :
    ¬ ∀ lapjv linearSumAssignment, Rust.SolvesLap lapjv →
      Python.SolvesLsa linearSumAssignment → ∀ request : AssignmentRequest,
        request.workers.length = request.jobs.length →
        (request.workers.map Worker.workerId).Nodup →
        (request.jobs.map Job.jobId).Nodup → Quoted request →
          ReturnMinimum lapjv linearSumAssignment request := by
  intro minimal
  have minimum := minimal _ _ Rust.bruteForceLapjv_solvesLap Python.bruteForceLsa_solvesLsa
    choresForTwo (by decide) (by decide) (by decide) (by decide)
  obtain ⟨result, handled, least⟩ := minimum.python
  have reported : (Python.handleAssignmentRequest Python.bruteForceLsa choresForTwo).map
      AssignmentResult.totalCost = .ok 20 := by decide +kernel
  rw [handled] at reported
  have large : result.totalCost = 20 := Except.ok.inj reported
  have cheap : IsComplete (requestInput choresForTwo) [(0, 0), (1, 1)] :=
    ⟨⟨by decide, by decide, by decide⟩, by decide⟩
  have below := least.2 ⟨_, cheap, rfl⟩
  have two : total (requestInput choresForTwo) [(0, 0), (1, 1)] = 2 := by decide
  rw [large, two] at below
  exact absurd below (by decide)

end BossWorker.Verif
