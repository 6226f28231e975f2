import BossWorker.Base.Grid
import BossWorker.Proto.Assignment
import Mathlib.Algebra.Group.Int.Defs
import Mathlib.Algebra.Group.Nat.Defs

/-!
# The Rust assignment solver

`assignment/src/solver.rs`. Every float it computes is a whole number of at most 2^32 in
absolute value, so the matrices hold integers. The crate function `lapjv` is an argument;
it returns the column of each row, and the row of each column, which the solver ignores.
-/

namespace BossWorker.Rust

/-- `IMPOSSIBLE_SCORE`. -/
def impossibleScore : ℤ := -1

/-- `SOLVER_IMPOSSIBLE_COST`. -/
def solverImpossibleCost : ℤ := 1000000000

/-- `DUMMY_ASSIGNMENT_COST`. -/
def dummyAssignmentCost : ℤ := 0

/-- The boxed error of a fallible function, as text. -/
abbrev DynError : Type := String

/-- `AssignmentOutput`. -/
structure AssignmentOutput where
  assignments : List (String × String × UInt32)
  totalCost : UInt32
  deriving DecidableEq

/-- The cast of a whole float to `u32`, which saturates. -/
def asU32 (value : ℤ) : UInt32 :=
  if value < 0 then 0 else if value < 2 ^ 32 then UInt32.ofNat value.toNat else 4294967295

/-- `u32::saturating_add`. -/
def saturatingAdd (left right : UInt32) : UInt32 :=
  if left.toNat + right.toNat < 2 ^ 32 then left + right else 4294967295

/-- The two matrices of `solve_assignment`. -/
structure SolverMatrices where
  scoreMatrix : Grid ℤ
  solverMatrix : Grid ℤ

/-- The body of the double loop that fills the matrices. -/
def fillCell (costs : Dict (String × String) UInt32) (matrices : SolverMatrices)
    (workerIndex jobIndex : Nat) (workerId jobId : String) : SolverMatrices :=
  match costs.get? (workerId, jobId) with
  | some score =>
    { scoreMatrix := matrices.scoreMatrix.set workerIndex jobIndex score.toNat
      solverMatrix := matrices.solverMatrix.set workerIndex jobIndex (-(score.toNat : ℤ)) }
  | none =>
    { matrices with
      solverMatrix := matrices.solverMatrix.set workerIndex jobIndex solverImpossibleCost }

/-- The matrices of `solve_assignment`. -/
def buildMatrices (input : AssignmentInput) : SolverMatrices :=
  let realWorkerCount := input.workers.length
  let realJobCount := input.jobs.length
  let solverSize := max realWorkerCount realJobCount
  sweep (fillCell input.costs)
    { scoreMatrix := Grid.fromElem realWorkerCount realJobCount impossibleScore
      solverMatrix := Grid.fromElem solverSize solverSize dummyAssignmentCost }
    input.workers input.jobs

/-- The body of the loop over the rows of the solution. -/
def collectAssignment (input : AssignmentInput) (matrices : SolverMatrices)
    (output : AssignmentOutput) (row : Nat × Nat) : AssignmentOutput :=
  let jobIndex := row.1
  let workerIndex := row.2
  let isDummyWorker := workerIndex ≥ input.workers.length
  let isDummyJob := jobIndex ≥ input.jobs.length
  if isDummyWorker ∨ isDummyJob then output
  else
    let solverCost := matrices.solverMatrix.cell workerIndex jobIndex
    if solverCost ≥ solverImpossibleCost then output
    else
      -- both positions are in range here, so no default is ever taken
      let workerId := input.workers.getD workerIndex ""
      let jobId := input.jobs.getD jobIndex ""
      let cost := asU32 (matrices.scoreMatrix.cell workerIndex jobIndex)
      { assignments := output.assignments ++ [(workerId, jobId, cost)]
        totalCost := saturatingAdd output.totalCost cost }

/-- The crate function: columns of the rows and rows of the columns, or an error. -/
abbrev Lapjv : Type := Grid ℤ → Except DynError (List Nat × List Nat)

/-- `solve_assignment`. -/
def solveAssignment (lapjv : Lapjv) (input : AssignmentInput) :
    Except DynError AssignmentOutput :=
  if input.workers.isEmpty ∨ input.jobs.isEmpty then
    .ok { assignments := [], totalCost := 0 }
  else do
    let matrices := buildMatrices input
    let (rowAssignment, _columnAssignment) ← lapjv matrices.solverMatrix
    return rowAssignment.zipIdx.foldl (collectAssignment input matrices)
      { assignments := [], totalCost := 0 }

end BossWorker.Rust
