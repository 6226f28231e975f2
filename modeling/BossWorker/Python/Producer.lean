import BossWorker.Base.Labels
import BossWorker.Base.Machine
import BossWorker.Proto.Messages

/-!
# The producer

`services/producer/main.py`: a cycle puts one chores message and then the messages of ten
people, whom `random.sample` draws from the ten there are. The clock, the draw and the answer
of the transport are arguments. A `put` that raises ends `main`.
-/

namespace BossWorker.Python

/-- `PERSON_MESSAGES_PER_BATCH`. -/
def personMessagesPerBatch : Nat := 10

/-- `STATIC_CHORES`. -/
def staticChores : List (String × UInt32) :=
  [("wash dishes", 10), ("sweep kitchen", 8), ("take out trash", 5), ("fold laundry", 15),
    ("vacuum living room", 20), ("clean bathroom sink", 12), ("wipe counters", 6),
    ("water plants", 4), ("make bed", 7), ("mop hallway", 18)]

/-- `STATIC_PEOPLE`. -/
def staticPeople : Dict String UInt32 :=
  [("person-1", 10), ("person-2", 15), ("person-3", 20), ("person-4", 25), ("person-5", 30),
    ("person-6", 35), ("person-7", 40), ("person-8", 45), ("person-9", 50),
    ("person-10", 60)].foldl (fun people entry => people.insert entry.1 entry.2) Dict.empty

/-- `cycle_id`. -/
def cycleId (cycleNumber : Nat) : String := "cycle-" ++ zeroPadded 4 cycleNumber

/-- The `context` of a cycle. -/
def cycleContext (cycleNumber : Nat) (createdAtUnixMs : Int64) : RequestContext where
  requestId := "req-" ++ zeroPadded 4 cycleNumber
  createdAtUnixMs := createdAtUnixMs
  source := "producer"
  tags := ((Dict.empty.insert "env" "demo").insert "transport" "zenoh").insert "mode"
    "chores-and-people"

/-- `build_chores`. -/
def buildChores (cycleId : String) (context : RequestContext) : Chores where
  choresId := "chores-" ++ cycleId
  context := some context
  chores := (staticChores.zipIdx 1).map fun entry => {
    choreId := cycleId ++ "-chore-" ++ toString entry.2
    name := entry.1.1
    estimatedMinutes := entry.1.2 }

/-- The message of a selected person. -/
def personMessage (cycleId personId : String) (context : RequestContext) :
    PersonAvailability where
  cycleId := cycleId
  personId := personId
  availableMinutes := (staticPeople.get? personId).getD 0
  context := some context

/-- A message of the producer. -/
inductive ProducerMessage where
  /-- Put under the key of the chores. -/
  | chores (chores : Chores)
  /-- Put under the key of the people. -/
  | person (person : PersonAvailability)
  deriving DecidableEq

/-- The messages of a cycle, in order. `random.sample` is the front of a rearrangement. -/
def cycleMessages (cycleNumber : Nat) (createdAtUnixMs : Int64) (sample : Enumeration String) :
    List ProducerMessage :=
  let context := cycleContext cycleNumber createdAtUnixMs
  let selectedPersonIds := (sample.arrange staticPeople.keys).take personMessagesPerBatch
  .chores (buildChores (cycleId cycleNumber) context) ::
    selectedPersonIds.map fun personId =>
      .person (personMessage (cycleId cycleNumber) personId context)

/-- The producer in its loop. -/
structure Producer where
  /-- Number of the next cycle. -/
  cycleNumber : Nat
  /-- Messages of the current cycle that have not been put. -/
  unsent : List ProducerMessage
  /-- `main` has ended. -/
  ended : Bool
  deriving DecidableEq

/-- A step of the loop. -/
inductive ProducerEvent where
  /-- The next cycle begins. -/
  | cycle (createdAtUnixMs : Int64) (sample : Enumeration String)
  /-- `put` of the next message returns or raises. -/
  | put (taken : Bool)

namespace Producer

/-- The producer before its first cycle. -/
def new : Producer where
  cycleNumber := 1
  unsent := []
  ended := false

/-- One step, and the message that the transport takes; a step that is not due changes
nothing. -/
def step (producer : Producer) : ProducerEvent → Producer × Option ProducerMessage
  | .cycle createdAtUnixMs sample =>
    match producer.ended, producer.unsent with
    | false, [] =>
      ({ producer with
          cycleNumber := producer.cycleNumber + 1
          unsent := cycleMessages producer.cycleNumber createdAtUnixMs sample }, none)
    | _, _ => (producer, none)
  | .put taken =>
    match producer.ended, producer.unsent with
    | false, message :: rest =>
      if taken then ({ producer with unsent := rest }, some message)
      else ({ producer with ended := true }, none)
    | _, _ => (producer, none)

/-- The producer as a machine that shows what it sends. -/
def machine : Machine Producer ProducerEvent (Option ProducerMessage) := ⟨step⟩

end Producer

end BossWorker.Python
