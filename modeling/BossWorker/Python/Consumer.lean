import BossWorker.Proto.Messages

/-!
# The consumer

`services/consumer/main.py`: `on_summary` parses a payload and logs the summary and every
result in it. A payload that does not parse is logged as such; the parser is an argument.
-/

namespace BossWorker.Python

/-- A line of the log, with the values that it shows. -/
inductive ConsumerLine where
  /-- `received chore filter summary`. -/
  | received (choresId : String) (peopleEvaluated totalChoresAccepted : UInt32)
  /-- `filter result`. -/
  | filterResult (filterId personId : String)
      (availableMinutes usedMinutes remainingMinutes : UInt32) (accepted rejected : List String)
  /-- `failed to decode output`. -/
  | failed (error : String)
  deriving DecidableEq

namespace Consumer

/-- How a chore is shown. -/
def choreText (chore : Chore) : String :=
  chore.name ++ "(" ++ toString chore.estimatedMinutes.toNat ++ "m)"

/-- The line of a result; an absent person reads as the default one. -/
def resultLine (result : ChoreFilterResult) : ConsumerLine :=
  let person := result.person.getD {}
  .filterResult result.filterId person.personId person.availableMinutes result.usedMinutes
    result.remainingMinutes (result.acceptedChores.map choreText)
    (result.rejectedChores.map choreText)

/-- The lines of a summary. -/
def summaryLines (summary : ChoreFilterSummary) : List ConsumerLine :=
  .received summary.choresId summary.totalPeopleEvaluated summary.totalChoresAccepted ::
    summary.results.map resultLine

/-- `on_summary`. -/
def onSummary (parse : List UInt8 → Except String ChoreFilterSummary) (payload : List UInt8) :
    List ConsumerLine :=
  match parse payload with
  | .ok summary => summaryLines summary
  | .error error => [.failed error]

end Consumer

end BossWorker.Python
