import BossWorker.Base.Grid
import BossWorker.Proto.Assignment
import Mathlib.Algebra.Group.Int.Defs

/-!
# The Python assignment solver

`assignment/solver.py`, with `np` read as numpy, `linear_sum_assignment` as the function of
scipy and the two dataclasses as the ones the handler imports. An integer array never
leaves the range of its type here. A raised `ValueError` is its text.
-/

namespace BossWorker.Python

/-- `IMPOSSIBLE_COST`. -/
def impossibleCost : ℤ := -1

/-- `SOLVER_IMPOSSIBLE_COST`. -/
def solverImpossibleCost : ℤ := 1000000000

/-- `AssignmentOutput`. -/
structure AssignmentOutput where
  assignments : List (String × String × ℤ)
  totalCost : ℤ
  deriving DecidableEq

/-- The body of the double loop that fills the score matrix. -/
def fillScore (costs : Dict (String × String) UInt32) (scoreMatrix : Grid ℤ) (i j : Nat)
    (workerId jobId : String) : Grid ℤ :=
  match costs.get? (workerId, jobId) with
  | some cost => scoreMatrix.set i j cost.toNat
  | none => scoreMatrix

/-- `score_matrix`. -/
def buildScoreMatrix (input : AssignmentInput) : Grid ℤ :=
  sweep (fillScore input.costs)
    (Grid.fromElem input.workers.length input.jobs.length impossibleCost)
    input.workers input.jobs

/-- `solver_matrix`: the negated score where the mask of possible scores is set. -/
def buildSolverMatrix (scoreMatrix : Grid ℤ) : Grid ℤ :=
  { scoreMatrix with
    cell := fun i j =>
      if scoreMatrix.cell i j ≠ impossibleCost then -scoreMatrix.cell i j
      else solverImpossibleCost }

/-- The body of the loop over the solution. -/
def appendAssignment (input : AssignmentInput) (scoreMatrix solverMatrix : Grid ℤ)
    (output : AssignmentOutput) (cell : Nat × Nat) : Except String AssignmentOutput :=
  if solverMatrix.cell cell.1 cell.2 ≥ solverImpossibleCost then
    .error "No valid assignment found"
  else
    -- the solution stays inside the matrix, so no default is ever taken
    let workerId := input.workers.getD cell.1 ""
    let jobId := input.jobs.getD cell.2 ""
    let cost := scoreMatrix.cell cell.1 cell.2
    .ok {
      assignments := output.assignments ++ [(workerId, jobId, cost)]
      totalCost := output.totalCost + cost }

/-- The scipy function: row indices and column indices of the solution, or an error. -/
abbrev LinearSumAssignment : Type := Grid ℤ → Except String (List Nat × List Nat)

/-- `solve_assignment`. -/
def solveAssignment (linearSumAssignment : LinearSumAssignment) (input : AssignmentInput) :
    Except String AssignmentOutput :=
  if input.workers.isEmpty then .ok { assignments := [], totalCost := 0 }
  else if input.jobs.isEmpty then
    .error "Cannot assign workers because there are no jobs"
  else if input.workers.length > input.jobs.length then
    .error ("More workers than jobs is not supported: workers=" ++
      toString input.workers.length ++ " jobs=" ++ toString input.jobs.length)
  else do
    let scoreMatrix := buildScoreMatrix input
    let solverMatrix := buildSolverMatrix scoreMatrix
    let (rowInd, colInd) ← linearSumAssignment solverMatrix
    (rowInd.zip colInd).foldlM (appendAssignment input scoreMatrix solverMatrix)
      { assignments := [], totalCost := 0 }

end BossWorker.Python
