import BossWorker.Rust.Solver

/-!
# The Rust assignment handler

`assignment/src/handler.rs`, from the decoded request to the result before it is encoded.
A map collected from entries keeps the last entry of every key.
-/

namespace BossWorker.Rust

/-- The costs of a request, collected into a map. -/
def collectCosts (costs : List AssignmentCost) : Dict (String × String) UInt32 :=
  costs.foldl (fun costs cost => costs.insert (cost.workerId, cost.jobId) cost.cost) Dict.empty

/-- `build_result`. -/
def buildResult (request : AssignmentRequest) (output : AssignmentOutput) :
    AssignmentResult where
  assignmentId := request.assignmentId
  assignments := output.assignments.map fun assignment =>
    { workerId := assignment.1, jobId := assignment.2.1, cost := assignment.2.2 }
  totalCost := output.totalCost
  context := request.context

/-- `handle_assignment_request`. -/
def handleAssignmentRequest (lapjv : Lapjv) (request : AssignmentRequest) :
    Except DynError AssignmentResult := do
  let output ← solveAssignment lapjv {
    workers := request.workers.map Worker.workerId
    jobs := request.jobs.map Job.jobId
    costs := collectCosts request.costs }
  return buildResult request output

end BossWorker.Rust
