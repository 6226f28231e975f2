import BossWorker.Rust.Worker

/-!
# No job is lost by the workers

A worker acks a delivery only after `publish_bytes` has returned `Ok`, and every other way
out of its loop body leaves the message with the broker. The invariant is stated with one
worker set aside, because the broker and the results change before that worker goes on.
-/

namespace BossWorker.Rust

open Example1 (JobResult)

variable {decode : DecodeJob} {workerName : Nat → String} {bodies : List (List UInt8)}

/-- The initial messages of the jobs queue. -/
def initialMessages (bodies : List (List UInt8)) : List JobMessage :=
  (JobSystem.new bodies).jobs.ready

/-- The message decodes, and some result carries the batch and the id of its job. -/
def Served (decode : DecodeJob) (results : List JobResult) (message : JobMessage) : Prop :=
  ∃ job, decode message.body = .ok job ∧
    ∃ result ∈ results, result.batchId = job.batchId ∧ result.jobId = job.jobId

/-- The result is what some worker makes of a job of the queue. -/
def FromQueue (decode : DecodeJob) (workerName : Nat → String) (bodies : List (List UInt8))
    (result : JobResult) : Prop :=
  ∃ body ∈ bodies, ∃ job, decode body = .ok job ∧
    ∃ worker sleepTime, result = buildJobResult (workerName worker) sleepTime job

/-- What a stage of a worker says about its delivery. -/
def StageOk (decode : DecodeJob) (system : JobSystem) (worker : Nat) : WorkerStage → Prop
  | .waiting => True
  | .received message => system.jobs.unacked.get? worker = some message
  | .decoded message job =>
    system.jobs.unacked.get? worker = some message ∧ decode message.body = .ok job
  | .processed message =>
    system.jobs.unacked.get? worker = some message ∧ Served decode system.results message
  | .failed message => system.jobs.unacked.get? worker = some message

/-- No message is lost, every result is genuine, and the stages are right, but for a worker
that may be in the middle of a step. -/
structure Safe (decode : DecodeJob) (workerName : Nat → String) (bodies : List (List UInt8))
    (aside : Option Nat) (system : JobSystem) : Prop where
  /-- Every message is held by the broker or served. -/
  jobs : system.jobs.AtLeastOnce (initialMessages bodies) (Served decode system.results)
  /-- Every result is made of a job of the queue. -/
  results : ∀ result ∈ system.results, FromQueue decode workerName bodies result
  /-- Every stage is right. -/
  stages : ∀ worker stage, aside ≠ some worker →
    system.workers.get? worker = some stage → StageOk decode system worker stage

/-- More results serve more messages. -/
theorem Served.append {results : List JobResult} {message : JobMessage}
    (served : Served decode results message) (more : List JobResult) :
    Served decode (results ++ more) message := by
  obtain ⟨job, decoded, result, stored, same⟩ := served
  exact ⟨job, decoded, result, List.mem_append_left more stored, same⟩

/-- A stage stays right while its delivery stays and results are added. -/
theorem StageOk.mono {system after : JobSystem} {worker : Nat} {stage : WorkerStage}
    (right : StageOk decode system worker stage)
    (delivery : after.jobs.unacked.get? worker = system.jobs.unacked.get? worker)
    (more : ∀ message, Served decode system.results message →
      Served decode after.results message) : StageOk decode after worker stage := by
  cases stage with
  | waiting => exact trivial
  | received message => exact delivery.trans right
  | decoded message job => exact ⟨delivery.trans right.1, right.2⟩
  | processed message => exact ⟨delivery.trans right.1, more message right.2⟩
  | failed message => exact delivery.trans right

namespace Safe

variable {worker position : Nat} {system : JobSystem}

/-- At first all messages are held. -/
theorem start : Safe decode workerName bodies none (.new bodies) where
  jobs := Broker.AtLeastOnce.start
  results _ stored := absurd stored List.not_mem_nil
  stages _ _ _ known := by
    rw [JobSystem.new, Dict.get?_empty] at known
    contradiction

/-- Setting a worker aside asks for less. -/
theorem setAside (safe : Safe decode workerName bodies none system) (worker : Nat) :
    Safe decode workerName bodies (some worker) system where
  jobs := safe.jobs
  results := safe.results
  stages other stage _ known := by
    apply safe.stages other stage _ known
    simp

/-- A broker that has acted on the worker set aside. -/
theorem withJobs (safe : Safe decode workerName bodies (some worker) system)
    {jobs : Broker Nat JobMessage}
    (kept : jobs.AtLeastOnce (initialMessages bodies) (Served decode system.results))
    (others : ∀ other ≠ worker, jobs.unacked.get? other = system.jobs.unacked.get? other) :
    Safe decode workerName bodies (some worker) { system with jobs := jobs } where
  jobs := kept
  results := safe.results
  stages other stage apart known := by
    have different : other ≠ worker := fun same => apart (congrArg some same.symm)
    exact (safe.stages other stage apart known).mono (others other different) fun _ => id

/-- A worker that goes on to a right stage is no longer set aside. -/
theorem enter (safe : Safe decode workerName bodies (some worker) system) {stage : WorkerStage}
    (right : StageOk decode system worker stage) :
    Safe decode workerName bodies none (system.enter worker stage) where
  jobs := safe.jobs
  results := safe.results
  stages other reached _ known := by
    rw [JobSystem.enter, Dict.get?_insert] at known
    by_cases own : other = worker
    · rw [if_pos own] at known
      rw [own, ← Option.some.inj known]
      exact right
    · rw [if_neg own] at known
      exact safe.stages other reached (fun same => own (Option.some.inj same).symm) known

/-- A worker that is gone is no longer set aside. -/
theorem exit (safe : Safe decode workerName bodies (some worker) system) (position : Nat) :
    Safe decode workerName bodies none (system.exit worker position) where
  jobs := safe.jobs.requeue worker position
  results := safe.results
  stages other stage _ known := by
    rw [JobSystem.exit, Dict.get?_erase] at known
    by_cases own : other = worker
    · rw [if_pos own] at known
      contradiction
    · rw [if_neg own] at known
      have apart : some worker ≠ some other := fun same => own (Option.some.inj same).symm
      have delivery : (system.exit worker position).jobs.unacked.get? other =
          system.jobs.unacked.get? other :=
        (Broker.get?_unacked_requeue system.jobs worker other position).trans (if_neg own)
      exact (safe.stages other stage apart known).mono delivery fun _ => id

/-- An answered worker waits or is gone. -/
theorem answered (safe : Safe decode workerName bodies (some worker) system) (ok : Bool)
    (position : Nat) :
    Safe decode workerName bodies none (system.answered worker ok position) := by
  cases ok with
  | true => exact safe.enter trivial
  | false => exact safe.exit position

/-- A published result is genuine and takes nothing away. -/
theorem publish (safe : Safe decode workerName bodies (some worker) system)
    {result : JobResult} (genuine : FromQueue decode workerName bodies result) :
    Safe decode workerName bodies (some worker)
      { system with results := system.results ++ [result] } where
  jobs := safe.jobs.mono fun _ served => served.append [result]
  results other stored := by
    cases List.mem_append.mp stored with
    | inl before => exact safe.results other before
    | inr last => rwa [List.mem_singleton.mp last]
  stages other stage apart known :=
    (safe.stages other stage apart known).mono rfl fun _ served => served.append [result]

/-- A delivery is received. -/
theorem deliver (safe : Safe decode workerName bodies none system)
    {jobs : Broker Nat JobMessage} {message : JobMessage}
    (given : system.jobs.deliver worker position = (jobs, some message)) :
    Safe decode workerName bodies none
      ({ system with jobs := jobs }.enter worker (.received message)) := by
  obtain ⟨_, _, unacked⟩ := Broker.deliver_eq_some given
  have others : ∀ other ≠ worker,
      jobs.unacked.get? other = system.jobs.unacked.get? other := by
    intro other apart
    rw [unacked, Dict.get?_insert, if_neg apart]
  have delivered : jobs.unacked.get? worker = some message := by
    rw [unacked, Dict.get?_insert, if_pos rfl]
  exact ((safe.setAside worker).withJobs (safe.jobs.deliver given) others).enter delivered

/-- A delivery is settled after its job has been served. -/
theorem settle (safe : Safe decode workerName bodies none system) {message : JobMessage}
    (delivered : system.jobs.unacked.get? worker = some message)
    (served : Served decode system.results message) :
    Safe decode workerName bodies (some worker)
      { system with jobs := system.jobs.settle worker } := by
  have done : ∀ other, system.jobs.unacked.get? worker = some other →
      Served decode system.results other := by
    intro other same
    rw [delivered] at same
    rwa [← Option.some.inj same]
  apply (safe.setAside worker).withJobs (safe.jobs.settle worker done)
  intro other apart
  rw [Broker.get?_unacked_settle, if_neg apart]

/-- A delivery is given back. -/
theorem requeue (safe : Safe decode workerName bodies none system) (worker position : Nat) :
    Safe decode workerName bodies (some worker)
      { system with jobs := system.jobs.requeue worker position } := by
  apply (safe.setAside worker).withJobs (safe.jobs.requeue worker position)
  intro other apart
  rw [Broker.get?_unacked_requeue, if_neg apart]

end Safe

/-- The message of a delivery is an initial one. -/
theorem mem_of_delivered {system : JobSystem} {worker : Nat} {message : JobMessage}
    (safe : Safe decode workerName bodies none system)
    (delivered : system.jobs.unacked.get? worker = some message) : message.body ∈ bodies := by
  have member := safe.jobs.own message (Or.inr ⟨worker, delivered⟩)
  obtain ⟨entry, listed, rfl⟩ := List.mem_map.mp member
  exact List.fst_mem_of_mem_zipIdx listed

/-- A step keeps the invariant. -/
theorem Safe.step {system : JobSystem} (safe : Safe decode workerName bodies none system)
    (event : WorkerEvent) :
    Safe decode workerName bodies none (JobSystem.step decode workerName system event).1 := by
  cases event with
  | join worker =>
    cases known : system.workers.get? worker with
    | none =>
      simp only [JobSystem.step, known]
      exact (safe.setAside worker).enter trivial
    | some stage => simpa only [JobSystem.step, known] using safe
  | deliver worker position =>
    simp only [JobSystem.step]
    split
    · rename_i jobs message _ given
      exact safe.deliver given
    · exact safe
  | consumerError worker => exact safe
  | decode worker =>
    simp only [JobSystem.step]
    split
    · rename_i message known
      have delivered := safe.stages worker _ (by simp) known
      split
      · rename_i job decoded
        exact (safe.setAside worker).enter ⟨delivered, decoded⟩
      · exact (safe.setAside worker).enter delivered
    · exact safe
  | publish worker sleepTime publication =>
    simp only [JobSystem.step]
    split
    · rename_i message job known
      obtain ⟨delivered, decoded⟩ := safe.stages worker _ (by simp) known
      have genuine : FromQueue decode workerName bodies
          (buildJobResult (workerName worker) sleepTime job) :=
        ⟨message.body, mem_of_delivered safe delivered, job, decoded, worker, sleepTime, rfl⟩
      cases publication with
      | confirmed =>
        have served : Served decode
            (system.results ++ [buildJobResult (workerName worker) sleepTime job]) message :=
          ⟨job, decoded, _, List.mem_append_right _ List.mem_cons_self, rfl, rfl⟩
        exact ((safe.setAside worker).publish genuine).enter ⟨delivered, served⟩
      | unconfirmed => exact ((safe.setAside worker).publish genuine).enter delivered
      | refused => exact (safe.setAside worker).enter delivered
    · exact safe
  | ack worker settled ok position =>
    simp only [JobSystem.step]
    split
    · rename_i message known
      obtain ⟨delivered, served⟩ := safe.stages worker _ (by simp) known
      cases settled with
      | true => exact (safe.settle delivered served).answered ok position
      | false => exact (safe.setAside worker).answered ok position
    · exact safe
  | nack worker settled ok position =>
    simp only [JobSystem.step]
    split
    · cases settled with
      | true => exact (safe.requeue worker position).answered ok position
      | false => exact (safe.setAside worker).answered ok position
    · exact safe
  | exit worker position => exact (safe.setAside worker).exit position

/-- In every state that any number of workers reach by any interleaving of their calls, with
crashes and failed calls at any point, every message of the jobs queue is ready, or delivered
and not acknowledged, or its job has a result in the results queue; and every result is what
a worker makes of a job of the queue. -/
theorem no_job_lost (decode : DecodeJob) (workerName : Nat → String)
    (bodies : List (List UInt8)) (events : List WorkerEvent) :
    let system := (JobSystem.machine decode workerName).run (.new bodies) events
    (∀ message ∈ initialMessages bodies,
      system.jobs.Holds message ∨ Served decode system.results message) ∧
    ∀ result ∈ system.results, FromQueue decode workerName bodies result := by
  have start : Safe decode workerName bodies none (.new bodies) := Safe.start
  have preserved (system : JobSystem) (event : WorkerEvent)
      (safe : Safe decode workerName bodies none system) : Safe decode workerName bodies none
        ((JobSystem.machine decode workerName).step system event).1 := safe.step event
  have safe := (JobSystem.machine decode workerName).run_invariant preserved start events
  exact ⟨safe.jobs.kept, safe.results⟩

end BossWorker.Rust
