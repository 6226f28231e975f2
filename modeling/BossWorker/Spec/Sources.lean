import BossWorker.Proto.Messages

/-!
# Where the messages of a window come from

The orchestrators invent nothing: whatever is known of every chores message and of every
person message that is handed to them is known of the windows that they submit.
-/

namespace BossWorker

/-- What is known of the messages handed to an orchestrator. -/
structure Sources where
  /-- Of every chores message. -/
  chores : Chores → Prop
  /-- Of every person message. -/
  person : PersonAvailability → Prop

/-- A call for messages of the sources, with nobody in it twice. -/
structure Submission.From (sources : Sources) (submission : Submission) : Prop where
  chores : sources.chores submission.chores
  people : ∀ person ∈ submission.people, sources.person person
  distinct : submission.personIds.Nodup

end BossWorker
