import BossWorker.Python.Processor
import BossWorker.Python.Solver

/-!
# The Python assignment handler

`assignment/handler.py`, from the parsed request to the result before it is serialized. The
solver raises a `ValueError` with a text, and a number that does not fit a field of the
result raises one too. The context of the request is read, so the result has one.
-/

namespace BossWorker.Python

/-- The `ValueError` that a request ends with. -/
inductive AssignmentError where
  /-- Raised by the solver. -/
  | unsolved (text : String)
  /-- Raised when the result is built. -/
  | outOfRange (error : OutOfRange)
  deriving DecidableEq

/-- The loop that fills the `costs` of a request. -/
def fillCosts (costs : List AssignmentCost) : Dict (String × String) UInt32 :=
  costs.foldl (fun costs cost => costs.insert (cost.workerId, cost.jobId) cost.cost) Dict.empty

/-- The `Assignment` message of one assignment. -/
def buildAssignment (assignment : String × String × ℤ) : Except OutOfRange Assignment := do
  let cost ← uint32 assignment.2.2
  return { workerId := assignment.1, jobId := assignment.2.1, cost := cost }

/-- `build_result`. -/
def buildResult (request : AssignmentRequest) (output : AssignmentOutput) :
    Except OutOfRange AssignmentResult := do
  let totalCost ← uint32 output.totalCost
  let assignments ← output.assignments.mapM buildAssignment
  return {
    assignmentId := request.assignmentId
    totalCost := totalCost
    context := some (request.context.getD {})
    assignments := assignments }

/-- `handle_assignment_request`. -/
def handleAssignmentRequest (linearSumAssignment : LinearSumAssignment)
    (request : AssignmentRequest) : Except AssignmentError AssignmentResult := do
  let output ← (solveAssignment linearSumAssignment {
    workers := request.workers.map Worker.workerId
    jobs := request.jobs.map Job.jobId
    costs := fillCosts request.costs }).mapError .unsolved
  (buildResult request output).mapError .outOfRange

end BossWorker.Python
