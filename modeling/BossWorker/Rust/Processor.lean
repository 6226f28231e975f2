import BossWorker.Proto.Messages

/-!
# The Rust chore filter

`processing/processor.rs`. The release profile adds machine words modulo 2^32, which is
what addition of `UInt32` does. A panicking `expect` is the result `none`; the pause of
two seconds before the result is left out.
-/

namespace BossWorker.Rust

/-- The local variables of the loop over the chores. -/
structure FilterLoop where
  usedMinutes : UInt32
  acceptedChores : List Chore
  rejectedChores : List Chore
  deriving DecidableEq

namespace FilterLoop

/-- The variables before the loop. -/
def start : FilterLoop := ⟨0, [], []⟩

/-- One pass of the loop body. -/
def step (availableMinutes : UInt32) (loop : FilterLoop) (chore : Chore) : FilterLoop :=
  if loop.usedMinutes + chore.estimatedMinutes ≤ availableMinutes then
    { loop with
      acceptedChores := loop.acceptedChores ++ [chore]
      usedMinutes := loop.usedMinutes + chore.estimatedMinutes }
  else { loop with rejectedChores := loop.rejectedChores ++ [chore] }

/-- The whole loop. -/
def run (availableMinutes : UInt32) (loop : FilterLoop) (chores : List Chore) : FilterLoop :=
  chores.foldl (step availableMinutes) loop

@[simp] theorem run_nil (availableMinutes : UInt32) (loop : FilterLoop) :
    loop.run availableMinutes [] = loop := rfl

@[simp] theorem run_cons (availableMinutes : UInt32) (loop : FilterLoop) (chore : Chore)
    (chores : List Chore) : loop.run availableMinutes (chore :: chores) =
      (loop.step availableMinutes chore).run availableMinutes chores := rfl

/-- A loop over two lists goes on from where the first ends. -/
@[simp] theorem run_append (availableMinutes : UInt32) (loop : FilterLoop)
    (front back : List Chore) : loop.run availableMinutes (front ++ back) =
      (loop.run availableMinutes front).run availableMinutes back := List.foldl_append

end FilterLoop

/-- `u32::saturating_sub`. -/
def saturatingSub (left right : UInt32) : UInt32 := if right ≤ left then left - right else 0

/-- `process_chore_filter_request`; `none` is the panic of a missing person or chores. -/
def processChoreFilterRequest (request : ChoreFilterRequest) : Option ChoreFilterResult := do
  let person ← request.person
  let chores ← request.chores
  let loop := FilterLoop.start.run person.availableMinutes chores.chores
  return {
    filterId := request.filterId
    choresId := chores.choresId
    person := some person
    acceptedChores := loop.acceptedChores
    rejectedChores := loop.rejectedChores
    usedMinutes := loop.usedMinutes
    remainingMinutes := saturatingSub person.availableMinutes loop.usedMinutes
    context := request.context }

/-- A request that carries a person and chores is answered. -/
theorem processChoreFilterRequest_isSome {request : ChoreFilterRequest}
    (person : request.person.isSome) (chores : request.chores.isSome) :
    (processChoreFilterRequest request).isSome := by
  obtain ⟨present, found⟩ := Option.isSome_iff_exists.mp person
  obtain ⟨listed, carried⟩ := Option.isSome_iff_exists.mp chores
  simp [processChoreFilterRequest, found, carried]

end BossWorker.Rust
