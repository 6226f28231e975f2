import BossWorker.Proto.Messages

/-!
# Messages of the assignment service and the input of its solvers

The records of `assignment.proto`, and the input both solvers take: the ids of workers and
jobs in order, with no promise that they are distinct, and a map from pairs of ids to
costs. The costs come from a `uint32` field.
-/

namespace BossWorker

/-- `demo.assignment.Worker`. -/
structure Worker where
  workerId : String := ""
  name : String := ""
  deriving DecidableEq

/-- `demo.assignment.Job`. -/
structure Job where
  jobId : String := ""
  name : String := ""
  deriving DecidableEq

/-- `demo.assignment.AssignmentCost`. -/
structure AssignmentCost where
  workerId : String := ""
  jobId : String := ""
  cost : UInt32 := 0
  deriving DecidableEq

/-- `demo.assignment.AssignmentRequest`. -/
structure AssignmentRequest where
  assignmentId : String := ""
  workers : List Worker := []
  jobs : List Job := []
  costs : List AssignmentCost := []
  context : Option RequestContext := none
  deriving DecidableEq

/-- `demo.assignment.Assignment`. -/
structure Assignment where
  workerId : String := ""
  jobId : String := ""
  cost : UInt32 := 0
  deriving DecidableEq

/-- `demo.assignment.AssignmentResult`. -/
structure AssignmentResult where
  assignmentId : String := ""
  assignments : List Assignment := []
  totalCost : UInt32 := 0
  context : Option RequestContext := none
  deriving DecidableEq

/-- `AssignmentInput`. -/
structure AssignmentInput where
  workers : List String
  jobs : List String
  costs : Dict (String × String) UInt32
  deriving DecidableEq

end BossWorker
