import BossWorker.Base.Redelivery
import BossWorker.Verif.Worker

/-!
# How often a job is processed

Every delivery of a message leads to at most one stored result, and a message is delivered
again only after it has been given back. So the results of a message are at most one more
than its returns, whatever the workers and the broker do; a message that was never given
back and that the queue no longer has got exactly one result.
-/

namespace BossWorker.Rust

open Example1 (JobResult)

variable {decode : DecodeJob} {workerName : Nat → String} {bodies : List (List UInt8)}

/-- A transition of the workers and the queues. -/
abbrev JobTransition : Type := Transition JobSystem WorkerEvent (Option JobMessage)

/-- The result that a step stores, with the message that the worker holds. -/
def JobSystem.stores (workerName : Nat → String) (system : JobSystem) :
    WorkerEvent → Option (JobMessage × JobResult)
  | .publish worker sleepTime publication =>
    match system.workers.get? worker, publication with
    | some (.decoded _ _), .refused => none
    | some (.decoded message job), _ =>
      some (message, buildJobResult (workerName worker) sleepTime job)
    | _, _ => none
  | _ => none

/-- Results that a run has stored, each with its message, oldest first. -/
def publications (workerName : Nat → String) (trace : List JobTransition) :
    List (JobMessage × JobResult) :=
  trace.filterMap fun t => t.before.stores workerName t.event

/-- How many results of a message a run has stored. -/
def storedCount (workerName : Nat → String) (trace : List JobTransition)
    (message : JobMessage) : Nat :=
  ((publications workerName trace).map Prod.fst).count message

/-- How often a run has delivered a message. -/
def deliveryCount (trace : List JobTransition) (message : JobMessage) : Nat :=
  (trace.map Transition.output).count (some message)

/-- How often a message has become ready again in a run. -/
def returnCount (trace : List JobTransition) (message : JobMessage) : Nat :=
  trace.countP fun t => Broker.Returned t.before.jobs t.after.jobs message

/-- What a step does. -/
inductive JobStep (decode : DecodeJob) (workerName : Nat → String) (system : JobSystem) :
    WorkerEvent → JobSystem × Option JobMessage → Prop where
  /-- Nothing is due, or an error is logged. -/
  | idle (event : WorkerEvent) (silent : system.stores workerName event = none) :
      JobStep decode workerName system event (system, none)
  /-- A worker begins to wait. -/
  | joined (worker : Nat) (absent : system.workers.get? worker = none) :
      JobStep decode workerName system (.join worker) (system.enter worker .waiting, none)
  /-- A waiting worker receives a message. -/
  | delivered (worker position : Nat) (jobs : Broker Nat JobMessage) (message : JobMessage)
      (waiting : system.workers.get? worker = some .waiting)
      (given : system.jobs.deliver worker position = (jobs, some message)) :
      JobStep decode workerName system (.deliver worker position)
        ({ system with jobs := jobs }.enter worker (.received message), some message)
  /-- A job has been decoded. -/
  | decoded (worker : Nat) (message : JobMessage) (job : Example1.Job)
      (known : system.workers.get? worker = some (.received message)) :
      JobStep decode workerName system (.decode worker)
        (system.enter worker (.decoded message job), none)
  /-- A body does not decode. -/
  | undecoded (worker : Nat) (message : JobMessage)
      (known : system.workers.get? worker = some (.received message)) :
      JobStep decode workerName system (.decode worker)
        (system.enter worker (.failed message), none)
  /-- A result is stored. -/
  | stored (worker : Nat) (sleepTime : ℚ) (publication : Publication) (message : JobMessage)
      (job : Example1.Job) (stage : WorkerStage)
      (known : system.workers.get? worker = some (.decoded message job))
      (stores : system.stores workerName (.publish worker sleepTime publication) =
        some (message, buildJobResult (workerName worker) sleepTime job))
      (next : stage = .processed message ∨ stage = .failed message) :
      JobStep decode workerName system (.publish worker sleepTime publication)
        ({ system with results := system.results ++
            [buildJobResult (workerName worker) sleepTime job] }.enter worker stage, none)
  /-- A result is refused. -/
  | refused (worker : Nat) (sleepTime : ℚ) (message : JobMessage) (job : Example1.Job)
      (known : system.workers.get? worker = some (.decoded message job)) :
      JobStep decode workerName system (.publish worker sleepTime .refused)
        (system.enter worker (.failed message), none)
  /-- An answer of a worker that has processed its delivery. -/
  | acked (worker : Nat) (settled ok : Bool) (position : Nat) (message : JobMessage)
      (known : system.workers.get? worker = some (.processed message)) :
      JobStep decode workerName system (.ack worker settled ok position)
        ({ system with jobs := if settled then system.jobs.settle worker
            else system.jobs }.answered worker ok position, none)
  /-- An answer of a worker that has failed. -/
  | nacked (worker : Nat) (settled ok : Bool) (position : Nat) (message : JobMessage)
      (known : system.workers.get? worker = some (.failed message)) :
      JobStep decode workerName system (.nack worker settled ok position)
        ({ system with jobs := if settled then system.jobs.requeue worker position
            else system.jobs }.answered worker ok position, none)
  /-- A worker ends. -/
  | exited (worker position : Nat) :
      JobStep decode workerName system (.exit worker position)
        (system.exit worker position, none)

/-- Every step is one of these. -/
theorem jobStep (decode : DecodeJob) (workerName : Nat → String) (system : JobSystem)
    (event : WorkerEvent) :
    JobStep decode workerName system event
      ((JobSystem.machine decode workerName).step system event) := by
  cases event with
  | join worker =>
    cases known : system.workers.get? worker with
    | none =>
      simp only [JobSystem.machine, JobSystem.step, known]
      exact .joined worker known
    | some stage =>
      simp only [JobSystem.machine, JobSystem.step, known]
      exact .idle _ rfl
  | deliver worker position =>
    simp only [JobSystem.machine, JobSystem.step]
    split
    · rename_i jobs message waiting given
      exact .delivered worker position jobs message waiting given
    · exact .idle _ rfl
  | consumerError worker => exact .idle _ rfl
  | decode worker =>
    simp only [JobSystem.machine, JobSystem.step]
    split
    · rename_i message known
      split
      · rename_i job _
        exact .decoded worker message job known
      · exact .undecoded worker message known
    · exact .idle _ rfl
  | publish worker sleepTime publication =>
    simp only [JobSystem.machine, JobSystem.step]
    split
    · rename_i message job known
      cases publication with
      | refused => exact .refused worker sleepTime message job known
      | confirmed =>
        have stores : system.stores workerName (.publish worker sleepTime .confirmed) =
            some (message, buildJobResult (workerName worker) sleepTime job) := by
          simp only [JobSystem.stores, known]
        exact .stored worker sleepTime _ message job _ known stores (Or.inl rfl)
      | unconfirmed =>
        have stores : system.stores workerName (.publish worker sleepTime .unconfirmed) =
            some (message, buildJobResult (workerName worker) sleepTime job) := by
          simp only [JobSystem.stores, known]
        exact .stored worker sleepTime _ message job _ known stores (Or.inr rfl)
    · rename_i other
      refine .idle _ ?_
      simp only [JobSystem.stores]
      split
      · rfl
      · rename_i known _
        exact absurd known (other _ _)
      · rfl
  | ack worker settled ok position =>
    simp only [JobSystem.machine, JobSystem.step]
    split
    · rename_i message known
      exact .acked worker settled ok position message known
    · exact .idle _ rfl
  | nack worker settled ok position =>
    simp only [JobSystem.machine, JobSystem.step]
    split
    · rename_i message known
      exact .nacked worker settled ok position message known
    · exact .idle _ rfl
  | exit worker position => exact .exited worker position

/-- The broker makes one move at a time. -/
theorem jobs_move (decode : DecodeJob) (workerName : Nat → String) (system : JobSystem)
    (event : WorkerEvent) :
    Broker.Move system.jobs ((JobSystem.machine decode workerName).step system event).1.jobs
      ((JobSystem.machine decode workerName).step system event).2 := by
  have step := jobStep decode workerName system event
  generalize (JobSystem.machine decode workerName).step system event = result at step
  cases step with
  | idle event silent => exact .kept
  | joined worker absent => exact .kept
  | delivered worker position jobs message waiting given =>
    exact .delivered worker position jobs message given
  | decoded worker message job known => exact .kept
  | undecoded worker message known => exact .kept
  | stored worker sleepTime publication message job stage known stores next => exact .kept
  | refused worker sleepTime message job known => exact .kept
  | exited worker position => exact .requeued worker position
  | acked worker settled ok position message known =>
    cases settled with
    | true =>
      cases ok with
      | true => exact .settled worker
      | false =>
        have gone : (system.jobs.settle worker).unacked.get? worker = none := by
          rw [Broker.get?_unacked_settle, if_pos rfl]
        have same := Broker.requeue_of_idle gone position
        show Broker.Move system.jobs ((system.jobs.settle worker).requeue worker position) none
        rw [same]
        exact .settled worker
    | false =>
      cases ok with
      | true => exact .kept
      | false => exact .requeued worker position
  | nacked worker settled ok position message known =>
    cases settled with
    | true =>
      cases ok with
      | true => exact .requeued worker position
      | false =>
        have gone : (system.jobs.requeue worker position).unacked.get? worker = none := by
          rw [Broker.get?_unacked_requeue, if_pos rfl]
        have same := Broker.requeue_of_idle gone position
        show Broker.Move system.jobs
          ((system.jobs.requeue worker position).requeue worker position) none
        rw [same]
        exact .requeued worker position
    | false =>
      cases ok with
      | true => exact .kept
      | false => exact .requeued worker position

section Counts

variable (trace : List JobTransition) (last : JobTransition) (message : JobMessage)

/-- The last step adds what it delivers. -/
theorem deliveryCount_concat : deliveryCount (trace ++ [last]) message =
    deliveryCount trace message + if last.output = some message then 1 else 0 := by
  rw [deliveryCount, List.map_append, List.count_append, List.map_singleton,
    List.count_singleton]
  simp only [beq_iff_eq, deliveryCount]

/-- The last step adds what it returns. -/
theorem returnCount_concat : returnCount (trace ++ [last]) message =
    returnCount trace message +
      if Broker.Returned last.before.jobs last.after.jobs message then 1 else 0 := by
  rw [returnCount, List.countP_append, List.countP_singleton]
  simp only [decide_eq_true_eq, returnCount]

/-- The last step adds what it stores. -/
theorem publications_concat : publications workerName (trace ++ [last]) =
    publications workerName trace ++ (last.before.stores workerName last.event).toList := by
  rw [publications, List.filterMap_append, publications]
  cases stored : last.before.stores workerName last.event with
  | none =>
    simp only [List.filterMap_cons, List.filterMap_nil, stored]
    rfl
  | some pair =>
    simp only [List.filterMap_cons, List.filterMap_nil, stored]
    rfl

/-- The last step adds to the count what it stores. -/
theorem storedCount_concat : storedCount workerName (trace ++ [last]) message =
    storedCount workerName trace message +
      if (last.before.stores workerName last.event).map Prod.fst = some message then 1
      else 0 := by
  rw [storedCount, publications_concat, List.map_append, List.count_append, storedCount]
  cases last.before.stores workerName last.event with
  | none => rfl
  | some pair =>
    rw [Option.toList_some, List.map_singleton, List.count_singleton, Option.map_some]
    simp only [beq_iff_eq, Option.some.injEq]

end Counts

/-- What a stage says about the counts of its message. -/
def StageTally (delivered stored : JobMessage → Nat) : WorkerStage → Prop
  | .received message => stored message + 1 ≤ delivered message
  | .decoded message _ => stored message + 1 ≤ delivered message
  | .processed message => 1 ≤ stored message
  | _ => True

/-- A stage keeps its tally while nothing of its message is stored and deliveries are
added. -/
theorem StageTally.mono {delivered stored more : JobMessage → Nat} {stage : WorkerStage}
    (tally : StageTally delivered stored stage)
    (grown : ∀ message, delivered message ≤ more message) : StageTally more stored stage := by
  cases stage with
  | received message => exact Nat.le_trans tally (grown message)
  | decoded message job => exact Nat.le_trans tally (grown message)
  | _ => exact tally

section Workers

variable {system : JobSystem} {worker other : Nat} {stage reached : WorkerStage}

/-- A worker that goes on to a stage leaves the stages of the others. -/
theorem enter_cases (known : (system.enter worker stage).workers.get? other = some reached) :
    other = worker ∧ reached = stage ∨
      other ≠ worker ∧ system.workers.get? other = some reached := by
  rw [JobSystem.enter, Dict.get?_insert] at known
  by_cases own : other = worker
  · rw [if_pos own] at known
    exact Or.inl ⟨own, (Option.some.inj known).symm⟩
  · rw [if_neg own] at known
    exact Or.inr ⟨own, known⟩

/-- A worker that is gone leaves the stages of the others. -/
theorem exit_cases {position : Nat}
    (known : (system.exit worker position).workers.get? other = some reached) :
    system.workers.get? other = some reached := by
  rw [JobSystem.exit, Dict.get?_erase] at known
  by_cases own : other = worker
  · rw [if_pos own] at known
    contradiction
  · rwa [if_neg own] at known

/-- An answered worker waits or is gone. -/
theorem answered_cases {ok : Bool} {position : Nat}
    (known : (system.answered worker ok position).workers.get? other = some reached) :
    reached = .waiting ∨ system.workers.get? other = some reached := by
  cases ok with
  | true =>
    cases enter_cases known with
    | inl mine => exact Or.inl mine.2
    | inr old => exact Or.inr old.2
  | false => exact Or.inr (exit_cases known)

end Workers

/-- The counts of a run, and what its last state says about them. -/
structure Tallied (decode : DecodeJob) (workerName : Nat → String) (bodies : List (List UInt8))
    (trace : List JobTransition) (system : JobSystem) : Prop where
  /-- No message is lost and the stages are right. -/
  safe : Safe decode workerName bodies none system
  /-- Every message is in one place. -/
  exclusive : system.jobs.Exclusive
  /-- A message is delivered once more than it has become ready again, unless it is ready. -/
  balance : ∀ message ∈ initialMessages bodies,
    (if message ∈ system.jobs.ready then 1 else 0) + deliveryCount trace message =
      1 + returnCount trace message
  /-- No more results are stored than messages delivered. -/
  bounded : ∀ message, storedCount workerName trace message ≤ deliveryCount trace message
  /-- A worker about to process its delivery has stored nothing for it. -/
  stages : ∀ worker stage, system.workers.get? worker = some stage →
    StageTally (deliveryCount trace) (storedCount workerName trace) stage
  /-- A message that the broker has no more has a result. -/
  kept : system.jobs.AtLeastOnce (initialMessages bodies)
    fun message => 1 ≤ storedCount workerName trace message

/-- The initial messages are told apart by their places. -/
theorem initialMessages_nodup (bodies : List (List UInt8)) : (initialMessages bodies).Nodup := by
  apply List.Nodup.of_map JobMessage.place
  have places : (initialMessages bodies).map JobMessage.place = bodies.zipIdx.map Prod.snd :=
    List.map_map
  rw [places, List.zipIdx_map_snd]
  exact List.nodup_range'

/-- Before the first step every message is ready. -/
theorem Tallied.start : Tallied decode workerName bodies [] (.new bodies) where
  safe := .start
  exclusive := Broker.exclusive_filled (initialMessages_nodup bodies)
  balance message member := by
    have ready : message ∈ (JobSystem.new bodies).jobs.ready := member
    rw [if_pos ready]
    rfl
  bounded message := Nat.le_refl 0
  stages worker stage known := by
    rw [JobSystem.new, Dict.get?_empty] at known
    contradiction
  kept := .start

section Step

variable {trace : List JobTransition} {system : JobSystem}

/-- The transition of an event. -/
def transition (decode : DecodeJob) (workerName : Nat → String) (system : JobSystem)
    (event : WorkerEvent) : JobTransition :=
  ⟨system, event, ((JobSystem.machine decode workerName).step system event).2,
    ((JobSystem.machine decode workerName).step system event).1⟩

/-- The balance of deliveries and returns is kept. -/
theorem Tallied.balance_step (tallied : Tallied decode workerName bodies trace system)
    (event : WorkerEvent) (message : JobMessage) (member : message ∈ initialMessages bodies) :
    let last := transition decode workerName system event
    (if message ∈ last.after.jobs.ready then 1 else 0) + deliveryCount (trace ++ [last]) message =
      1 + returnCount (trace ++ [last]) message := by
  intro last
  have before := tallied.balance message member
  have moved := (jobs_move decode workerName system event).balance tallied.exclusive message
  change (if message ∈ last.after.jobs.ready then 1 else 0) +
    (if last.output = some message then 1 else 0) = (if message ∈ system.jobs.ready then 1 else 0)
      + if Broker.Returned last.before.jobs last.after.jobs message then 1 else 0 at moved
  rw [deliveryCount_concat, returnCount_concat]
  omega

/-- A step that stores nothing adds to no count of results. -/
theorem storedCount_of_silent (trace : List JobTransition) {last : JobTransition}
    (silent : last.before.stores workerName last.event = none) :
    storedCount workerName (trace ++ [last]) = storedCount workerName trace := by
  funext message
  rw [storedCount_concat, silent]
  rfl

/-- Deliveries are never taken back. -/
theorem deliveryCount_le (trace : List JobTransition) (last : JobTransition)
    (message : JobMessage) :
    deliveryCount trace message ≤ deliveryCount (trace ++ [last]) message := by
  rw [deliveryCount_concat]
  exact Nat.le_add_right _ _

/-- What a step does to the stages and the counts. -/
structure StageStep (workerName : Nat → String) (trace : List JobTransition)
    (last : JobTransition) : Prop where
  bounded : ∀ message,
    storedCount workerName (trace ++ [last]) message ≤ deliveryCount (trace ++ [last]) message
  stages : ∀ worker stage, last.after.workers.get? worker = some stage →
    StageTally (deliveryCount (trace ++ [last])) (storedCount workerName (trace ++ [last])) stage

/-- A step that stores nothing, after which every stage is an old one or tallies. -/
theorem Tallied.silent_step (tallied : Tallied decode workerName bodies trace system)
    {last : JobTransition} (silent : last.before.stores workerName last.event = none)
    (stages : ∀ worker stage, last.after.workers.get? worker = some stage →
      system.workers.get? worker = some stage ∨ StageTally (deliveryCount (trace ++ [last]))
        (storedCount workerName trace) stage) :
    StageStep workerName trace last := by
  have same := storedCount_of_silent trace silent
  constructor
  · intro message
    rw [same]
    exact Nat.le_trans (tallied.bounded message) (deliveryCount_le trace last message)
  · intro worker stage known
    rw [same]
    cases stages worker stage known with
    | inl old => exact (tallied.stages worker stage old).mono (deliveryCount_le trace last)
    | inr fresh => exact fresh

/-- A step that stores nothing, after which one worker is at a stage that tallies. -/
theorem Tallied.enter_step (tallied : Tallied decode workerName bodies trace system)
    {last : JobTransition} {worker : Nat} {next : WorkerStage}
    (silent : last.before.stores workerName last.event = none)
    (after : ∀ other stage, last.after.workers.get? other = some stage →
      other = worker ∧ stage = next ∨ other ≠ worker ∧ system.workers.get? other = some stage)
    (tally : StageTally (deliveryCount (trace ++ [last])) (storedCount workerName trace) next) :
    StageStep workerName trace last := by
  apply tallied.silent_step silent
  intro other stage known
  cases after other stage known with
  | inl mine =>
    rw [mine.2]
    exact Or.inr tally
  | inr old => exact Or.inl old.2

/-- Two workers do not hold the same message. -/
theorem Tallied.holder_eq (tallied : Tallied decode workerName bodies trace system)
    {first second : Nat} {message : JobMessage}
    (taken : system.jobs.unacked.get? first = some message)
    (also : system.jobs.unacked.get? second = some message) : first = second :=
  tallied.exclusive.sole first second message taken also

/-- A step that stores a result. -/
theorem Tallied.stored_step (tallied : Tallied decode workerName bodies trace system)
    {last : JobTransition} {worker : Nat} {message : JobMessage} {job : Example1.Job}
    {result : JobResult} {next : WorkerStage}
    (known : system.workers.get? worker = some (.decoded message job))
    (stores : last.before.stores workerName last.event = some (message, result))
    (undelivered : last.output = none)
    (after : ∀ other stage, last.after.workers.get? other = some stage →
      other = worker ∧ stage = next ∨ other ≠ worker ∧ system.workers.get? other = some stage)
    (ended : next = .processed message ∨ next = .failed message) :
    StageStep workerName trace last := by
  have delivered : deliveryCount (trace ++ [last]) = deliveryCount trace := by
    funext other
    rw [deliveryCount_concat, undelivered]
    rfl
  have stored (other : JobMessage) : storedCount workerName (trace ++ [last]) other =
      storedCount workerName trace other + if message = other then 1 else 0 := by
    rw [storedCount_concat, stores, Option.map_some]
    simp only [Option.some.injEq]
  have pending : storedCount workerName trace message + 1 ≤ deliveryCount trace message :=
    tallied.stages worker _ known
  have mine := (tallied.safe.stages worker _ (by simp) known).1
  constructor
  · intro other
    have bounded := tallied.bounded other
    rw [delivered, stored]
    by_cases same : message = other
    · rw [if_pos same, ← same]
      exact pending
    · rw [if_neg same]
      exact bounded
  · intro other stage reached
    rw [delivered]
    cases after other stage reached with
    | inl own =>
      rw [own.2]
      cases ended with
      | inl processed =>
        rw [processed]
        show 1 ≤ storedCount workerName (trace ++ [last]) message
        rw [stored, if_pos rfl]
        omega
      | inr failed =>
        rw [failed]
        trivial
    | inr old =>
      have tally := tallied.stages other stage old.2
      have right := tallied.safe.stages other stage (by simp) old.2
      -- nobody else holds the message
      have apart (held : JobMessage)
          (taken : system.jobs.unacked.get? other = some held) : ¬ message = held := by
        intro same
        rw [← same] at taken
        exact old.1 (tallied.holder_eq taken mine)
      cases stage with
      | received held =>
        show storedCount workerName (trace ++ [last]) held + 1 ≤ deliveryCount trace held
        rw [stored, if_neg (apart held right)]
        exact tally
      | decoded held work =>
        show storedCount workerName (trace ++ [last]) held + 1 ≤ deliveryCount trace held
        rw [stored, if_neg (apart held right.1)]
        exact tally
      | processed held =>
        show 1 ≤ storedCount workerName (trace ++ [last]) held
        rw [stored]
        exact Nat.le_trans tally (Nat.le_add_right _ _)
      | _ => trivial

/-- The stages and the counts of results are kept. -/
theorem Tallied.stage_step (tallied : Tallied decode workerName bodies trace system)
    (event : WorkerEvent) :
    StageStep workerName trace (transition decode workerName system event) := by
  have step := jobStep decode workerName system event
  unfold transition
  generalize (JobSystem.machine decode workerName).step system event = result at step
  cases step with
  | idle event silent => exact tallied.silent_step silent fun worker stage known => Or.inl known
  | joined worker absent =>
    exact tallied.enter_step rfl (fun other stage known => enter_cases known) trivial
  | delivered worker position jobs message waiting given =>
    apply tallied.enter_step rfl fun other stage known => enter_cases known
    have bounded := tallied.bounded message
    show storedCount workerName trace message + 1 ≤ deliveryCount (trace ++ [_]) message
    rw [deliveryCount_concat, if_pos rfl]
    omega
  | decoded worker message job received =>
    apply tallied.enter_step rfl fun other stage known => enter_cases known
    have tally : StageTally (deliveryCount trace) (storedCount workerName trace)
        (.received message) := tallied.stages worker _ received
    exact tally.mono (deliveryCount_le trace _)
  | undecoded worker message received =>
    exact tallied.enter_step rfl (fun other stage known => enter_cases known) trivial
  | stored worker sleepTime publication message job stage decoded stores next =>
    exact tallied.stored_step decoded stores rfl (fun other reached known => enter_cases known)
      next
  | refused worker sleepTime message job decoded =>
    have silent : system.stores workerName (.publish worker sleepTime .refused) = none := by
      simp only [JobSystem.stores, decoded]
    exact tallied.enter_step silent (fun other stage known => enter_cases known) trivial
  | acked worker settled ok position message processed =>
    apply tallied.silent_step rfl
    intro other stage known
    cases answered_cases known with
    | inl waits =>
      rw [waits]
      exact Or.inr trivial
    | inr old => exact Or.inl old
  | nacked worker settled ok position message failed =>
    apply tallied.silent_step rfl
    intro other stage known
    cases answered_cases known with
    | inl waits =>
      rw [waits]
      exact Or.inr trivial
    | inr old => exact Or.inl old
  | exited worker position =>
    apply tallied.silent_step rfl
    intro other stage known
    exact Or.inl (exit_cases known)

/-- No message that the broker has no more is without a result. -/
theorem Tallied.kept_step (tallied : Tallied decode workerName bodies trace system)
    (event : WorkerEvent) :
    let last := transition decode workerName system event
    last.after.jobs.AtLeastOnce (initialMessages bodies) fun message =>
      1 ≤ storedCount workerName (trace ++ [last]) message := by
  intro last
  have grown (message : JobMessage) (served : 1 ≤ storedCount workerName trace message) :
      1 ≤ storedCount workerName (trace ++ [last]) message := by
    rw [storedCount_concat]
    omega
  have kept := tallied.kept.mono grown
  have step := jobStep decode workerName system event
  change JobStep decode workerName system event (last.after, last.output) at step
  generalize storedCount workerName (trace ++ [last]) = stored at *
  generalize last.after = after at *
  generalize last.output = output at step
  cases step with
  | idle event silent => exact kept
  | joined worker absent => exact kept
  | delivered worker position jobs message waiting given => exact kept.deliver given
  | decoded worker message job known => exact kept
  | undecoded worker message known => exact kept
  | stored worker sleepTime publication message job stage known stores next => exact kept
  | refused worker sleepTime message job known => exact kept
  | exited worker position => exact kept.requeue worker position
  | acked worker settled ok position message known =>
    have mine := (tallied.safe.stages worker _ (by simp) known).1
    have served : 1 ≤ storedCount workerName trace message := tallied.stages worker _ known
    have done (other : JobMessage) (taken : system.jobs.unacked.get? worker = some other) :
        1 ≤ stored other := by
      rw [mine] at taken
      rw [← Option.some.inj taken]
      exact grown message served
    cases settled with
    | true =>
      cases ok with
      | true => exact kept.settle worker done
      | false => exact (kept.settle worker done).requeue worker position
    | false =>
      cases ok with
      | true => exact kept
      | false => exact kept.requeue worker position
  | nacked worker settled ok position message known =>
    cases settled with
    | true =>
      cases ok with
      | true => exact kept.requeue worker position
      | false => exact (kept.requeue worker position).requeue worker position
    | false =>
      cases ok with
      | true => exact kept
      | false => exact kept.requeue worker position

/-- A step keeps the counts. -/
theorem Tallied.step (tallied : Tallied decode workerName bodies trace system)
    (event : WorkerEvent) :
    Tallied decode workerName bodies (trace ++ [transition decode workerName system event])
      ((JobSystem.machine decode workerName).step system event).1 where
  safe := tallied.safe.step event
  exclusive := tallied.exclusive.move (jobs_move decode workerName system event)
  balance := tallied.balance_step event
  bounded := (tallied.stage_step event).bounded
  stages := (tallied.stage_step event).stages
  kept := tallied.kept_step event

end Step

section Runs

variable (decode : DecodeJob) (workerName : Nat → String) (bodies : List (List UInt8))
  (events : List WorkerEvent)

/-- A run keeps the counts. -/
theorem run_tallied : Tallied decode workerName bodies
    ((JobSystem.machine decode workerName).trace (.new bodies) events)
    ((JobSystem.machine decode workerName).run (.new bodies) events) := by
  apply (JobSystem.machine decode workerName).run_history
    fun _ system trace => Tallied decode workerName bodies trace system
  · exact .start
  · intro earlier event tallied
    exact tallied.step event

/-- A step adds to the results queue what it stores. -/
theorem results_step (system : JobSystem) (event : WorkerEvent) :
    ((JobSystem.machine decode workerName).step system event).1.results =
      system.results ++ ((system.stores workerName event).toList).map Prod.snd := by
  have step := jobStep decode workerName system event
  generalize (JobSystem.machine decode workerName).step system event = result at step
  cases step with
  | idle event silent =>
    rw [silent]
    exact (List.append_nil _).symm
  | stored worker sleepTime publication message job stage known stores next =>
    rw [stores]
    rfl
  | refused worker sleepTime message job known =>
    have silent : system.stores workerName (.publish worker sleepTime .refused) = none := by
      simp only [JobSystem.stores, known]
    rw [silent]
    exact (List.append_nil _).symm
  | acked worker settled ok position message known =>
    cases ok <;> exact (List.append_nil _).symm
  | nacked worker settled ok position message known =>
    cases ok <;> exact (List.append_nil _).symm
  | _ => exact (List.append_nil _).symm

/-- The results queue holds what has been published, in order. -/
theorem run_results : ((JobSystem.machine decode workerName).run (.new bodies) events).results =
    (publications workerName
      ((JobSystem.machine decode workerName).trace (.new bodies) events)).map Prod.snd := by
  apply (JobSystem.machine decode workerName).run_history
    fun _ system trace => system.results = (publications workerName trace).map Prod.snd
  · rfl
  · intro earlier event recorded
    rw [publications_concat, List.map_append, ← recorded]
    exact results_step decode workerName _ event

/-- What a step stores is made of the job that the worker has decoded. -/
theorem stores_eq_some {system : JobSystem} {event : WorkerEvent}
    {stored : JobMessage × JobResult} (stores : system.stores workerName event = some stored) :
    ∃ worker sleepTime job, system.workers.get? worker = some (.decoded stored.1 job) ∧
      stored.2 = buildJobResult (workerName worker) sleepTime job := by
  unfold JobSystem.stores at stores
  split at stores
  · rename_i worker sleepTime publication
    split at stores
    · contradiction
    · rename_i message job known _
      have same := Option.some.inj stores
      rw [← same]
      exact ⟨worker, sleepTime, job, known, rfl⟩
    · contradiction
  · contradiction

/-- Results are made of jobs of the queue, each of its own message. -/
theorem run_genuine : ∀ stored ∈ publications workerName
    ((JobSystem.machine decode workerName).trace (.new bodies) events),
    stored.1 ∈ initialMessages bodies ∧ ∃ job, decode stored.1.body = .ok job ∧
      ∃ worker sleepTime, stored.2 = buildJobResult (workerName worker) sleepTime job := by
  intro stored member
  obtain ⟨t, listed, stores⟩ := List.mem_filterMap.mp member
  have preserved (system : JobSystem) (event : WorkerEvent)
      (safe : Safe decode workerName bodies none system) (_ : True) :
      Safe decode workerName bodies none
        ((JobSystem.machine decode workerName).step system event).1 := safe.step event
  have safe := ((JobSystem.machine decode workerName).trace_invariant preserved .start events
    (fun _ _ => trivial) t listed).1
  obtain ⟨worker, sleepTime, job, known, made⟩ := stores_eq_some workerName stores
  have right := safe.stages worker _ (by simp) known
  exact ⟨safe.jobs.own _ (Or.inr ⟨worker, right.1⟩), job, right.2, worker, sleepTime, made⟩

/-- How often messages are delivered, given back and processed in a run. -/
structure Counted (decode : DecodeJob) (workerName : Nat → String) (bodies : List (List UInt8))
    (trace : List JobTransition) (system : JobSystem) : Prop where
  /-- No message is ready twice, ready and delivered, or delivered to two workers. -/
  exclusive : system.jobs.Exclusive
  /-- A message has no more results than deliveries. -/
  bounded : ∀ message, storedCount workerName trace message ≤ deliveryCount trace message
  /-- It is delivered at most once more than it is given back. -/
  redelivered : ∀ message ∈ initialMessages bodies,
    deliveryCount trace message ≤ 1 + returnCount trace message
  /-- A message that was never given back and is gone has exactly one result. -/
  once : ∀ message ∈ initialMessages bodies, returnCount trace message = 0 →
    ¬ system.jobs.Holds message → storedCount workerName trace message = 1
  /-- The results queue holds the results so counted, in order. -/
  results : system.results = (publications workerName trace).map Prod.snd
  /-- Every result is what some worker makes of the job of its message. -/
  genuine : ∀ stored ∈ publications workerName trace,
    stored.1 ∈ initialMessages bodies ∧ ∃ job, decode stored.1.body = .ok job ∧
      ∃ worker sleepTime, stored.2 = buildJobResult (workerName worker) sleepTime job

/-- In every run of any number of workers, by any interleaving of their calls, with crashes
and failed calls at any point, and with a broker that has stored what it is given whenever
`publish_bytes` returns `Ok`, no message is in two places at once, and a message has at most
one result more than the times it was given back to the queue; one that was never given back
and that the queue no longer has got exactly one result. -/
theorem duplicates_need_returns : Counted decode workerName bodies
    ((JobSystem.machine decode workerName).trace (.new bodies) events)
    ((JobSystem.machine decode workerName).run (.new bodies) events) := by
  have tallied := run_tallied decode workerName bodies events
  have results := run_results decode workerName bodies events
  have genuine := run_genuine decode workerName bodies events
  generalize (JobSystem.machine decode workerName).trace (.new bodies) events = trace at *
  generalize (JobSystem.machine decode workerName).run (.new bodies) events = system at *
  have redelivered (message : JobMessage) (member : message ∈ initialMessages bodies) :
      deliveryCount trace message ≤ 1 + returnCount trace message := by
    have balance := tallied.balance message member
    omega
  refine ⟨tallied.exclusive, tallied.bounded, redelivered, ?_, results, genuine⟩
  intro message member never gone
  have least := (tallied.kept.kept message member).resolve_left gone
  have most := tallied.bounded message
  have deliveries := redelivered message member
  omega

/-- A result that is stored but not confirmed is made again. -/
example : storedCount (fun _ => "worker-1") ((JobSystem.machine (fun _ => .ok {})
    (fun _ => "worker-1")).trace (.new [[]]) (.join 0 :: ([.deliver 0 0, .decode 0,
      .publish 0 1 .unconfirmed, .nack 0 true true 0] ++ loopPass 1))) ⟨0, []⟩ = 2 := by
  decide +kernel

end Runs

end BossWorker.Rust
