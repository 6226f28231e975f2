import BossWorker.Proto.Messages
import Mathlib.Algebra.Order.Ring.Rat

/-!
# Messages of the batch worker

The records of the package `demo.example1` that the worker reads and writes. The fields of
a job that it ignores are left out; a `double` is an exact rational.
-/

namespace BossWorker.Example1

/-- `demo.example1.WorkPayload.kind`. -/
inductive Kind where
  | text (text : String)
  | rawBytes (bytes : List UInt8)
  | numericValue (number : Int64)
  deriving DecidableEq

/-- `demo.example1.WorkPayload`. -/
structure WorkPayload where
  kind : Option Kind := none
  deriving DecidableEq

/-- `demo.example1.Job`. -/
structure Job where
  batchId : String := ""
  jobId : UInt32 := 0
  payload : Option WorkPayload := none
  context : Option RequestContext := none
  deriving DecidableEq

/-- `demo.example1.JobResult`. -/
structure JobResult where
  batchId : String := ""
  jobId : UInt32 := 0
  worker : String := ""
  result : String := ""
  processingSeconds : ℚ := 0
  context : Option RequestContext := none
  warnings : List String := []
  deriving DecidableEq

end BossWorker.Example1
