import BossWorker.Python.AssignmentHandler
import BossWorker.Rust.AssignmentHandler
import BossWorker.Verif.Feasibility

/-!
# The assignment handlers against each other

Rust answers every request; Python rejects one that its solver gives up or whose total does
not fit its field. So the handlers agree exactly when Python answers whatever optimal
solution it is given: complete assignments prevail, and none of them totals 2^32 or more.
Then both solutions are complete assignments of the largest value, which have one total.
-/

namespace BossWorker.Verif

open BossWorker.Spec

section Fallible

variable {ε δ α β : Type}

/-- A sequence returns when its first part does and the rest does on its value. -/
theorem exists_of_bind_eq_ok {first : Except ε α} {next : α → Except ε β} {value : β}
    (returned : (first >>= next) = .ok value) :
    ∃ middle, first = .ok middle ∧ next middle = .ok value := by
  cases first with
  | error error => contradiction
  | ok middle => exact ⟨middle, rfl, returned⟩

/-- Changing the error of what returns changes nothing. -/
theorem eq_ok_of_mapError_eq_ok {first : Except ε α} {change : ε → δ} {value : α}
    (returned : first.mapError change = .ok value) : first = .ok value := by
  cases first with
  | error error => contradiction
  | ok middle => rw [← Except.ok.inj returned]

end Fallible

/-- What the solvers are given for a request. -/
def requestInput (request : AssignmentRequest) : AssignmentInput where
  workers := request.workers.map Worker.workerId
  jobs := request.jobs.map Job.jobId
  costs := Rust.collectCosts request.costs

/-- Both handlers give a result and the totals are the same, or both reject. -/
inductive TotalsAgree : Except Rust.DynError AssignmentResult →
    Except Python.AssignmentError AssignmentResult → Prop where
  /-- Two results. -/
  | results (rust python : AssignmentResult) (same : rust.totalCost = python.totalCost) :
    TotalsAgree (.ok rust) (.ok python)
  /-- Two rejections. -/
  | rejections (rust : Rust.DynError) (python : Python.AssignmentError) :
    TotalsAgree (.error rust) (.error python)

/-- Whatever optimal solutions the libraries return, the handlers agree. -/
def HandlersAgree (request : AssignmentRequest) : Prop :=
  ∀ lapjv linearSumAssignment, Rust.SolvesLap lapjv → Python.SolvesLsa linearSumAssignment →
    TotalsAgree (Rust.handleAssignmentRequest lapjv request)
      (Python.handleAssignmentRequest linearSumAssignment request)

section Solvers

variable {input : AssignmentInput}

/-- A solver may return any cheapest injection of the rows of a matrix. -/
theorem exists_solvesLsa_of_cheapest {height width : Nat} {matrix : Grid ℤ}
    (rows : matrix.rows = height) (cols : matrix.cols = width) {f : Fin height ↪ Fin width}
    (least : ∀ g : Fin height ↪ Fin width,
      ∑ i : Fin height, matrix.cell i (f i) ≤ ∑ i : Fin height, matrix.cell i (g i)) :
    ∃ linearSumAssignment, Python.SolvesLsa linearSumAssignment ∧
      linearSumAssignment matrix = .ok (List.range height, List.ofFn fun i => (f i).val) := by
  classical
  let answer : Except String (List Nat × List Nat) :=
    .ok (List.range height, List.ofFn fun i => (f i).val)
  refine ⟨fun other => if other = matrix then answer else Python.bruteForceLsa other,
    ?_, if_pos rfl⟩
  intro lines columns other tall wide fits
  by_cases own : other = matrix
  · subst own
    obtain rfl : height = lines := rows.symm.trans tall
    obtain rfl : width = columns := cols.symm.trans wide
    exact ⟨f, if_pos rfl, least⟩
  · simp only [own, if_false]
    exact Python.bruteForceLsa_solvesLsa lines columns other tall wide fits

/-- Where a matching that leaves a worker out is worth as much as every complete one, Python
raises for some optimal `linear_sum_assignment`. -/
theorem exists_lsa_raising (fits : input.workers.length ≤ input.jobs.length)
    {part : List (Nat × Nat)} (matching : IsMatching input part)
    {worker : Nat} (inside : worker < input.workers.length)
    (outside : worker ∉ part.map Prod.fst)
    (rivals : ∀ full, IsComplete input full → value input full ≤ value input part) :
    ∃ linearSumAssignment, Python.SolvesLsa linearSumAssignment ∧
      ¬ PythonReturns linearSumAssignment input := by
  have workers : input.workers ≠ [] := List.length_pos_iff.mp (Nat.zero_lt_of_lt inside)
  obtain ⟨rows, cols⟩ := Python.solverMatrix_shape input
  obtain ⟨f, solution, least⟩ := Python.bruteForceLsa_solvesLsa _ _ _ rows cols fits
  by_cases returns : PythonReturns Python.bruteForceLsa input
  · -- the solution is complete, so the part is as good and extends to another solution
    have edges := (Python.solveAssignment_returns_iff workers fits solution).mp returns
    obtain ⟨_, _, best⟩ := Python.solveAssignment_bestComplete workers fits solution least edges
    have rival := rivals _ best.complete
    rw [value_made] at rival
    obtain ⟨σ, worth, extra⟩ := matching.exists_perm fits (Nat.le_refl _)
    have restricted := sum_gain_castLE fits fun i => (σ i).val
    let g : Fin input.workers.length ↪ Fin input.jobs.length :=
      ⟨fun i => σ (Fin.castLE fits i), σ.injective.comp (Fin.castLE_injective fits)⟩
    have most (h : Fin input.workers.length ↪ Fin input.jobs.length) :
        ∑ i : Fin input.workers.length, gain input i (h i) ≤
          ∑ i : Fin input.workers.length, gain input i (f i) := by
      have cost := least h
      rw [Python.sum_solverMatrix, Python.sum_solverMatrix] at cost
      omega
    have bound : ∑ i : Fin input.workers.length, gain input i (g i) ≤
        ∑ i : Fin input.workers.length, gain input i (f i) := most g
    have cheap : ∀ h : Fin input.workers.length ↪ Fin input.jobs.length,
        ∑ i : Fin input.workers.length,
            (Python.buildSolverMatrix (Python.buildScoreMatrix input)).cell i (g i) ≤
          ∑ i : Fin input.workers.length,
            (Python.buildSolverMatrix (Python.buildScoreMatrix input)).cell i (h i) := by
      intro h
      have below := most h
      have same : ∑ i : Fin input.workers.length, gain input i (g i) =
          ∑ i : Fin input.jobs.length, gain input i (σ i) := restricted.symm
      rw [Python.sum_solverMatrix, Python.sum_solverMatrix]
      omega
    obtain ⟨linearSumAssignment, solves, answer⟩ :=
      exists_solvesLsa_of_cheapest rows cols cheap
    refine ⟨linearSumAssignment, solves, fun returned => ?_⟩
    have edge := (Python.solveAssignment_returns_iff workers fits answer).mp returned
      ⟨worker, inside⟩
    have gained : 0 < gain input worker (g ⟨worker, inside⟩) := (gain_pos_iff _ _).mpr edge
    have room : worker < input.jobs.length := Nat.lt_of_lt_of_le inside fits
    have more : value input part + gain input worker (g ⟨worker, inside⟩) ≤
        ∑ i : Fin input.jobs.length, gain input i (σ i) := extra ⟨worker, room⟩ outside
    have same : ∑ i : Fin input.workers.length, gain input i (g i) =
        ∑ i : Fin input.jobs.length, gain input i (σ i) := restricted.symm
    omega
  · exact ⟨_, Python.bruteForceLsa_solvesLsa, returns⟩

/-- With a worker to serve, complete assignments prevail only if there is one. -/
theorem CompletePrevails.exists_complete (prevails : CompletePrevails input)
    (workers : input.workers ≠ []) : ∃ full, IsComplete input full := by
  have nothing : IsMatching input [] := ⟨nofun, List.nodup_nil, List.nodup_nil⟩
  obtain ⟨full, complete, _⟩ :=
    prevails [] nothing ⟨0, List.length_pos_iff.mpr workers, List.not_mem_nil⟩
  exact ⟨full, complete⟩

/-- Where Python returns for every optimal solution, complete assignments prevail. -/
theorem completePrevails_of_returns
    (returns : ∀ linearSumAssignment, Python.SolvesLsa linearSumAssignment →
      PythonReturns linearSumAssignment input) : CompletePrevails input := by
  rintro part matching ⟨worker, inside, outside⟩
  by_contra rivals
  simp only [not_exists, not_and, not_lt] at rivals
  have workers : input.workers ≠ [] := List.length_pos_iff.mp (Nat.zero_lt_of_lt inside)
  obtain ⟨output, returned⟩ := returns _ Python.bruteForceLsa_solvesLsa
  have fits := Python.fits_of_returned workers returned
  obtain ⟨linearSumAssignment, solves, raises⟩ :=
    exists_lsa_raising fits matching inside outside rivals
  exact raises (returns linearSumAssignment solves)

end Solvers

section Results

variable {request : AssignmentRequest}

/-- A result is built from a total and assignments that fit their fields. -/
theorem python_parts_of_built {output : Python.AssignmentOutput} {result : AssignmentResult}
    (built : Python.buildResult request output = .ok result) :
    Python.uint32 output.totalCost = .ok result.totalCost ∧
      output.assignments.mapM Python.buildAssignment = .ok result.assignments := by
  obtain ⟨total, stored, rest⟩ := exists_of_bind_eq_ok built
  obtain ⟨assignments, listed, same⟩ := exists_of_bind_eq_ok rest
  rw [← Except.ok.inj same]
  exact ⟨stored, listed⟩

/-- The total of a result is the total of the output it is built from. -/
theorem python_totalCost_of_built {output : Python.AssignmentOutput} {result : AssignmentResult}
    (built : Python.buildResult request output = .ok result) :
    output.totalCost = result.totalCost.toNat :=
  Python.eq_toNat_of_uint32 (python_parts_of_built built).1

/-- Assignments whose costs are words are built. -/
theorem exists_mapM_buildAssignment {assignments : List (String × String × ℤ)}
    (words : ∀ assignment ∈ assignments, ∃ cost : UInt32, assignment.2.2 = cost.toNat) :
    ∃ built, assignments.mapM Python.buildAssignment = .ok built := by
  induction assignments with
  | nil => exact ⟨[], rfl⟩
  | cons assignment assignments ih =>
    obtain ⟨built, rest⟩ := ih fun later member => words later (List.mem_cons_of_mem _ member)
    obtain ⟨cost, word⟩ := words assignment List.mem_cons_self
    have first : Python.buildAssignment assignment =
        .ok ⟨assignment.1, assignment.2.1, cost⟩ := by
      rw [Python.buildAssignment, word, Python.uint32_toNat]
      rfl
    exact ⟨_, by rw [List.mapM_cons, first, rest]; rfl⟩

/-- A best complete matching whose total is a word gives a result with that total. -/
theorem python_built_of_bestComplete (request : AssignmentRequest) {input : AssignmentInput}
    {output : Python.AssignmentOutput} {pairs : List (Nat × Nat)}
    (best : Python.BestComplete input output pairs) (small : total input pairs < 2 ^ 32) :
    ∃ result, Python.buildResult request output = .ok result ∧
      result.totalCost = UInt32.ofNat (total input pairs) := by
  have words : ∀ assignment ∈ output.assignments,
      ∃ cost : UInt32, assignment.2.2 = cost.toNat := by
    intro assignment member
    have listed : some assignment ∈ pairs.map (Python.report input) :=
      best.reported ▸ List.mem_map_of_mem member
    obtain ⟨pair, _, same⟩ := List.mem_map.mp listed
    obtain ⟨found, _, rfl⟩ := Option.map_eq_some_iff.mp same
    exact ⟨found.2.2, rfl⟩
  obtain ⟨built, listed⟩ := exists_mapM_buildAssignment words
  have stored : Python.uint32 output.totalCost = .ok (UInt32.ofNat (total input pairs)) := by
    rw [best.summed, Python.uint32_natCast small]
  refine ⟨⟨request.assignmentId, built, UInt32.ofNat (total input pairs),
    some (request.context.getD {})⟩, ?_, rfl⟩
  rw [Python.buildResult, stored, listed]
  rfl

/-- A solved request is answered by Rust. -/
theorem rust_handled {lapjv : Rust.Lapjv} {output : Rust.AssignmentOutput}
    (solved : Rust.solveAssignment lapjv (requestInput request) = .ok output) :
    Rust.handleAssignmentRequest lapjv request = .ok (Rust.buildResult request output) := by
  change (Rust.solveAssignment lapjv (requestInput request) >>= _) = _
  rw [solved]
  rfl

/-- A solved request is answered by Python if the result can be built. -/
theorem python_handled {linearSumAssignment : Python.LinearSumAssignment}
    {output : Python.AssignmentOutput}
    (solved : Python.solveAssignment linearSumAssignment (requestInput request) = .ok output) :
    Python.handleAssignmentRequest linearSumAssignment request =
      (Python.buildResult request output).mapError .outOfRange := by
  change ((Python.solveAssignment linearSumAssignment (requestInput request)).mapError _ >>= _) =
    _
  rw [solved]
  rfl

/-- A request the solver gives up is rejected by Python. -/
theorem python_raised {linearSumAssignment : Python.LinearSumAssignment} {text : String}
    (raised : Python.solveAssignment linearSumAssignment (requestInput request) =
      .error text) :
    Python.handleAssignmentRequest linearSumAssignment request = .error (.unsolved text) := by
  change ((Python.solveAssignment linearSumAssignment (requestInput request)).mapError _ >>= _) =
    _
  rw [raised]
  rfl

/-- A Rust result is built from what the solver returned. -/
theorem rust_solved_of_handled {lapjv : Rust.Lapjv} {result : AssignmentResult}
    (handled : Rust.handleAssignmentRequest lapjv request = .ok result) :
    ∃ output, Rust.solveAssignment lapjv (requestInput request) = .ok output ∧
      Rust.buildResult request output = result := by
  obtain ⟨output, solved, built⟩ := exists_of_bind_eq_ok handled
  exact ⟨output, solved, Except.ok.inj built⟩

/-- A Python result is built from what the solver returned. -/
theorem python_solved_of_handled {linearSumAssignment : Python.LinearSumAssignment}
    {result : AssignmentResult}
    (handled : Python.handleAssignmentRequest linearSumAssignment request = .ok result) :
    ∃ output, Python.solveAssignment linearSumAssignment (requestInput request) = .ok output ∧
      Python.buildResult request output = .ok result := by
  obtain ⟨output, solved, built⟩ := exists_of_bind_eq_ok handled
  exact ⟨output, eq_ok_of_mapError_eq_ok solved, eq_ok_of_mapError_eq_ok built⟩

/-- Where the handlers agree, Python builds a result from what its solver returns. -/
theorem HandlersAgree.python_built (agree : HandlersAgree request)
    {linearSumAssignment : Python.LinearSumAssignment}
    (solves : Python.SolvesLsa linearSumAssignment) :
    ∃ output result,
      Python.solveAssignment linearSumAssignment (requestInput request) = .ok output ∧
      Python.buildResult request output = .ok result := by
  have both := agree _ linearSumAssignment Rust.bruteForceLapjv_solvesLap solves
  obtain ⟨answer, solved⟩ :=
    Rust.solveAssignment_returns Rust.bruteForceLapjv_solvesLap (requestInput request)
  rw [rust_handled solved] at both
  cases returned : Python.solveAssignment linearSumAssignment (requestInput request) with
  | error text =>
    rw [python_raised returned] at both
    cases both
  | ok output =>
    rw [python_handled returned] at both
    cases built : Python.buildResult request output with
    | error error =>
      rw [built] at both
      cases both
    | ok result => exact ⟨output, result, rfl, built⟩

end Results

section Agreement

variable {request : AssignmentRequest}

/-- Where the handlers agree, every complete assignment totals a word. -/
theorem HandlersAgree.total_lt (agree : HandlersAgree request) {full : List (Nat × Nat)}
    (complete : IsComplete (requestInput request) full) :
    total (requestInput request) full < 2 ^ 32 := by
  obtain ⟨output, result, returned, built⟩ :=
    agree.python_built Python.bruteForceLsa_solvesLsa
  obtain ⟨pairs, best⟩ :=
    Python.exists_bestComplete_of_returned Python.bruteForceLsa_solvesLsa returned
  have most := best.maximal full complete
  have sum := python_totalCost_of_built built
  have word := result.totalCost.toNat_lt
  rw [best.summed] at sum
  omega

/-- Where complete assignments prevail and total words, the handlers agree. -/
theorem handlersAgree_of_prevails (prevails : CompletePrevails (requestInput request))
    (small : ∀ full, IsComplete (requestInput request) full →
      total (requestInput request) full < 2 ^ 32) : HandlersAgree request := by
  intro lapjv linearSumAssignment solvesLap solvesLsa
  have fits : (requestInput request).workers.length ≤ (requestInput request).jobs.length := by
    by_cases idle : (requestInput request).workers = []
    · rw [idle]
      exact Nat.zero_le _
    · obtain ⟨_, complete⟩ := prevails.exists_complete idle
      exact complete.fits
  -- Rust's edges are a complete matching of the largest value
  obtain ⟨answer, found, all⟩ := rustAssignsAll_of_prevails prevails solvesLap
  obtain ⟨σ, reported, sum, most⟩ := Rust.exists_perm_of_solved solvesLap found
  have matching := Rust.made_perm_isMatching (requestInput request) σ
  have whole : IsComplete (requestInput request)
      (made (requestInput request) fun i => (σ i).val) :=
    ⟨matching, (map_fst_eq_workers_iff matching (made_ordered _) reported).mp all⟩
  -- so are Python's
  obtain ⟨output, solved⟩ := pythonReturns_of_prevails prevails fits solvesLsa
  obtain ⟨pairs, best⟩ := Python.exists_bestComplete_of_returned solvesLsa solved
  obtain ⟨result, built, stored⟩ :=
    python_built_of_bestComplete request best (small _ best.complete)
  have above := best.maximal _ whole
  have below := (whole.value_le_iff best.complete).mp (most _ best.complete.toIsMatching)
  have word := small _ whole
  rw [rust_handled found, python_handled solved, built]
  apply TotalsAgree.results
  rw [stored]
  apply UInt32.toNat.inj
  change answer.totalCost.toNat = _
  rw [sum, UInt32.toNat_ofNat', Nat.mod_eq_of_lt (small _ best.complete)]
  omega

end Agreement

/-- For every request, the handlers agree, whatever optimal solutions the libraries return,
exactly when every matching of existing pairs that leaves a worker out is worth less, at
10^9 plus the cost for each pair, than some complete assignment, and no complete assignment
costs 2^32 or more in all. -/
theorem handlers_agree_iff (request : AssignmentRequest) :
    HandlersAgree request ↔ CompletePrevails (requestInput request) ∧
      ∀ full, IsComplete (requestInput request) full →
        total (requestInput request) full < 2 ^ 32 := by
  constructor
  · intro agree
    refine ⟨completePrevails_of_returns fun linearSumAssignment solves => ?_,
      fun full complete => agree.total_lt complete⟩
    obtain ⟨output, _, returned, _⟩ := agree.python_built solves
    exact ⟨output, returned⟩
  · exact fun condition => handlersAgree_of_prevails condition.1 condition.2

/-- Three workers for two jobs: the golden case that pins the total down to 110. -/
def threeForTwo : AssignmentRequest where
  assignmentId := "rectangular_workers_greater_than_jobs_3x2"
  workers := [⟨"alice", ""⟩, ⟨"bob", ""⟩, ⟨"carol", ""⟩]
  jobs := [⟨"dishes", ""⟩, ⟨"laundry", ""⟩]
  costs := [⟨"alice", "dishes", 10⟩, ⟨"alice", "laundry", 50⟩, ⟨"bob", "dishes", 40⟩,
    ⟨"bob", "laundry", 30⟩, ⟨"carol", "dishes", 60⟩, ⟨"carol", "laundry", 20⟩]

example : (Rust.handleAssignmentRequest Rust.bruteForceLapjv threeForTwo).map
    AssignmentResult.totalCost = .ok 110 := by decide +kernel

/-- Rust reports the expected total of the golden case, Python raises. -/
theorem handlers_disagree : ¬ HandlersAgree threeForTwo := by
  intro agree
  have both := agree _ _ Rust.bruteForceLapjv_solvesLap Python.bruteForceLsa_solvesLsa
  have raised : Python.handleAssignmentRequest Python.bruteForceLsa threeForTwo =
      .error (.unsolved "More workers than jobs is not supported: workers=3 jobs=2") := by
    decide +kernel
  obtain ⟨output, solved⟩ :=
    Rust.solveAssignment_returns Rust.bruteForceLapjv_solvesLap (requestInput threeForTwo)
  rw [rust_handled solved, raised] at both
  cases both

end BossWorker.Verif
