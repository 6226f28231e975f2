import BossWorker.Base.Dict

/-!
# Messages of the chore services

The records of `chores.proto` and `common.proto` as both languages hold them. A proto3
`uint32` is a machine word, a repeated field is a list, and a message-valued field may be
absent; reading an absent one in Python yields the record of default values.
-/

namespace BossWorker

/-- `demo.common.RequestContext`. -/
structure RequestContext where
  requestId : String := ""
  createdAtUnixMs : Int64 := 0
  source : String := ""
  tags : Dict String String := Dict.empty
  deriving DecidableEq

/-- `demo.chores.Chore`. -/
structure Chore where
  choreId : String := ""
  name : String := ""
  estimatedMinutes : UInt32 := 0
  deriving DecidableEq

/-- `demo.chores.Chores`. -/
structure Chores where
  choresId : String := ""
  chores : List Chore := []
  context : Option RequestContext := none
  deriving DecidableEq

/-- `demo.chores.PersonAvailability`. -/
structure PersonAvailability where
  cycleId : String := ""
  personId : String := ""
  availableMinutes : UInt32 := 0
  context : Option RequestContext := none
  deriving DecidableEq

/-- `demo.chores.ChoreFilterRequest`. -/
structure ChoreFilterRequest where
  filterId : String := ""
  chores : Option Chores := none
  person : Option PersonAvailability := none
  context : Option RequestContext := none
  deriving DecidableEq

/-- `demo.chores.ChoreFilterResult`. -/
structure ChoreFilterResult where
  filterId : String := ""
  choresId : String := ""
  person : Option PersonAvailability := none
  acceptedChores : List Chore := []
  rejectedChores : List Chore := []
  usedMinutes : UInt32 := 0
  remainingMinutes : UInt32 := 0
  context : Option RequestContext := none
  deriving DecidableEq

/-- `demo.chores.ChoreFilterSummary`. -/
structure ChoreFilterSummary where
  choresId : String := ""
  results : List ChoreFilterResult := []
  totalPeopleEvaluated : UInt32 := 0
  totalChoresAccepted : UInt32 := 0
  context : Option RequestContext := none
  deriving DecidableEq

/-- The arguments of one `submit_window` call. -/
structure Submission where
  /-- The chores message of the window. -/
  chores : Chores
  /-- The selected people, in the order of their ranks. -/
  people : List PersonAvailability
  deriving DecidableEq

/-- Ids of the people a call submits. -/
def Submission.personIds (submission : Submission) : List String :=
  submission.people.map PersonAvailability.personId

end BossWorker
