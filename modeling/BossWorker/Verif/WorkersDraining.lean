import BossWorker.Base.Refinement
import BossWorker.Verif.Draining
import BossWorker.Verif.Duplicates

/-!
# Any number of workers empty the queue

When every body is a job and the calls succeed, each call of a worker brings a message nearer
to its acknowledgement, whatever has happened before. So from then on at most a known number
of calls follows, in whatever order the workers make them, and when none is due any more the
queue is empty and every job has its result.
-/

namespace BossWorker.Rust

variable {decode : DecodeJob} {workerName : Nat → String} {bodies : List (List UInt8)}

/-- An `ack` or `nack` that returns `Ok` has reached the broker. -/
def WorkerEvent.Reliable : WorkerEvent → Prop
  | .ack _ settled ok _ => ok = true → settled = true
  | .nack _ settled ok _ => ok = true → settled = true
  | _ => True

/-- The next call of a worker, which succeeds. -/
def JobSystem.Due (system : JobSystem) : WorkerEvent → Prop
  | .deliver worker position => system.workers.get? worker = some .waiting ∧
      system.jobs.unacked.get? worker = none ∧ position < system.jobs.ready.length
  | .decode worker => ∃ message, system.workers.get? worker = some (.received message)
  | .publish worker _ .confirmed =>
    ∃ message job, system.workers.get? worker = some (.decoded message job)
  | .ack worker true true _ => ∃ message, system.workers.get? worker = some (.processed message)
  | .nack worker true true _ => ∃ message, system.workers.get? worker = some (.failed message)
  | _ => False

/-- What a call that succeeds does. -/
inductive SucceedingCall (decode : DecodeJob) (workerName : Nat → String) (system : JobSystem) :
    JobSystem → Prop where
  /-- A message has been delivered. -/
  | delivered (worker position : Nat) (message : JobMessage)
      (waiting : system.workers.get? worker = some .waiting)
      (there : system.jobs.ready[position]? = some message) :
      SucceedingCall decode workerName system
        ({ system with jobs := ⟨system.jobs.ready.eraseIdx position,
            system.jobs.unacked.insert worker message⟩ }.enter worker (.received message))
  /-- A job has been decoded. -/
  | decoded (worker : Nat) (message : JobMessage) (job : Example1.Job)
      (known : system.workers.get? worker = some (.received message)) :
      SucceedingCall decode workerName system (system.enter worker (.decoded message job))
  /-- A result has been stored. -/
  | stored (worker : Nat) (sleepTime : ℚ) (message : JobMessage) (job : Example1.Job)
      (known : system.workers.get? worker = some (.decoded message job)) :
      SucceedingCall decode workerName system
        ({ system with results := system.results ++
            [buildJobResult (workerName worker) sleepTime job] }.enter worker (.processed message))
  /-- A delivery has been acknowledged. -/
  | acked (worker : Nat) (message : JobMessage)
      (known : system.workers.get? worker = some (.processed message)) :
      SucceedingCall decode workerName system
        ({ system with jobs := system.jobs.settle worker }.enter worker .waiting)
  /-- A delivery has been given back. -/
  | nacked (worker position : Nat) (message : JobMessage)
      (known : system.workers.get? worker = some (.failed message))
      (delivered : system.jobs.unacked.get? worker = some message) :
      SucceedingCall decode workerName system
        ({ system with jobs := system.jobs.requeue worker position }.enter worker .waiting)

section Attended

variable {system : JobSystem}

/-- Whoever has a delivery is not waiting for one. -/
def Attended (system : JobSystem) : Prop :=
  ∀ worker message, system.jobs.unacked.get? worker = some message →
    ∃ stage, system.workers.get? worker = some stage ∧ stage ≠ .waiting

/-- A step of one worker keeps the others attended. -/
theorem Attended.of_others (attended : Attended system) {after : JobSystem} (worker : Nat)
    (unacked : ∀ other ≠ worker,
      after.jobs.unacked.get? other = system.jobs.unacked.get? other)
    (workers : ∀ other ≠ worker, after.workers.get? other = system.workers.get? other)
    (own : ∀ message, after.jobs.unacked.get? worker = some message →
      ∃ stage, after.workers.get? worker = some stage ∧ stage ≠ .waiting) :
    Attended after := by
  intro other message delivered
  by_cases mine : other = worker
  · rw [mine] at delivered ⊢
    exact own message delivered
  · rw [unacked other mine] at delivered
    rw [workers other mine]
    exact attended other message delivered

/-- A worker goes on to a stage in which it has its delivery. -/
theorem Attended.enter (attended : Attended system) (worker : Nat) {stage : WorkerStage}
    (busy : stage ≠ .waiting) : Attended (system.enter worker stage) := by
  apply attended.of_others worker
  · exact fun _ _ => rfl
  · intro other apart
    rw [JobSystem.enter, Dict.get?_insert, if_neg apart]
  · intro message _
    refine ⟨stage, ?_, busy⟩
    rw [JobSystem.enter, Dict.get?_insert, if_pos rfl]

/-- A worker without a delivery waits or is gone. -/
theorem Attended.answered (attended : Attended system) {jobs : Broker Nat JobMessage}
    {worker : Nat} (others : ∀ other ≠ worker,
      jobs.unacked.get? other = system.jobs.unacked.get? other) {ok : Bool} {position : Nat}
    (reliable : ok = true → jobs.unacked.get? worker = none) :
    Attended ({ system with jobs := jobs }.answered worker ok position) := by
  apply attended.of_others worker
  · intro other apart
    cases ok with
    | true => exact others other apart
    | false =>
      exact (Broker.get?_unacked_requeue jobs worker other position).trans
        ((if_neg apart).trans (others other apart))
  · intro other apart
    cases ok with
    | true => exact (Dict.get?_insert _ _ _ _).trans (if_neg apart)
    | false => exact (Dict.get?_erase _ _ _).trans (if_neg apart)
  · intro message delivered
    cases ok with
    | true =>
      change jobs.unacked.get? worker = some message at delivered
      rw [reliable rfl] at delivered
      contradiction
    | false =>
      change (jobs.requeue worker position).unacked.get? worker = some message at delivered
      rw [Broker.get?_unacked_requeue, if_pos rfl] at delivered
      contradiction

/-- Whatever happens, deliveries stay attended. -/
theorem Attended.step (attended : Attended system) {event : WorkerEvent}
    (reliable : event.Reliable) :
    Attended ((JobSystem.machine decode workerName).step system event).1 := by
  have step := jobStep decode workerName system event
  generalize (JobSystem.machine decode workerName).step system event = result at step
  cases step with
  | idle event silent => exact attended
  | joined worker absent =>
    apply attended.of_others worker
    · exact fun _ _ => rfl
    · intro other apart
      rw [JobSystem.enter, Dict.get?_insert, if_neg apart]
    · intro message delivered
      obtain ⟨stage, known, _⟩ := attended worker message delivered
      rw [absent] at known
      contradiction
  | delivered worker position jobs message waiting given =>
    obtain ⟨_, _, unacked⟩ := Broker.deliver_eq_some given
    apply attended.of_others worker
    · intro other apart
      show jobs.unacked.get? other = _
      rw [unacked, Dict.get?_insert, if_neg apart]
    · intro other apart
      rw [JobSystem.enter, Dict.get?_insert, if_neg apart]
    · intro _ _
      refine ⟨.received message, ?_, WorkerStage.noConfusion⟩
      rw [JobSystem.enter, Dict.get?_insert, if_pos rfl]
  | decoded worker message job known => exact attended.enter worker WorkerStage.noConfusion
  | undecoded worker message known => exact attended.enter worker WorkerStage.noConfusion
  | refused worker sleepTime message job known =>
    exact attended.enter worker WorkerStage.noConfusion
  | stored worker sleepTime publication message job stage known stores next =>
    have added : Attended { system with results := system.results ++
      [buildJobResult (workerName worker) sleepTime job] } := attended
    apply added.enter worker
    cases next with
    | inl processed =>
      rw [processed]
      exact WorkerStage.noConfusion
    | inr failed =>
      rw [failed]
      exact WorkerStage.noConfusion
  | acked worker settled ok position message known =>
    apply attended.answered
    · intro other apart
      cases settled with
      | true => exact (Broker.get?_unacked_settle _ _ _).trans (if_neg apart)
      | false => rfl
    · intro returned
      rw [if_pos (reliable returned), Broker.get?_unacked_settle, if_pos rfl]
  | nacked worker settled ok position message known =>
    apply attended.answered
    · intro other apart
      cases settled with
      | true => exact (Broker.get?_unacked_requeue _ _ _ _).trans (if_neg apart)
      | false => rfl
    · intro returned
      rw [if_pos (reliable returned), Broker.get?_unacked_requeue, if_pos rfl]
  | exited worker position =>
    have ended : Attended ({ system with jobs := system.jobs }.answered worker false position) :=
      attended.answered (fun _ _ => rfl) fun absent => by contradiction
    exact ended

end Attended

/-- Calls that a worker still makes for its delivery. -/
def WorkerStage.callsLeft : WorkerStage → Nat
  | .waiting => 0
  | .processed _ => 1
  | .decoded _ _ => 2
  | .received _ => 3
  | .failed _ => 5

/-- Calls that all messages still need at most. -/
def JobSystem.callsLeft (system : JobSystem) : Nat :=
  4 * system.jobs.ready.length + load WorkerStage.callsLeft system.workers.values

/-- A state in which the calls can go on. -/
structure Drainable (decode : DecodeJob) (workerName : Nat → String) (bodies : List (List UInt8))
    (system : JobSystem) : Prop where
  safe : Safe decode workerName bodies none system
  attended : Attended system
  /-- Some worker is there. -/
  staffed : ∃ worker stage, system.workers.get? worker = some stage

section Calls

variable {system : JobSystem}

/-- Calls that succeed are reliable. -/
theorem JobSystem.Due.reliable {event : WorkerEvent} (due : system.Due event) :
    event.Reliable := by
  cases event with
  | ack worker settled ok position =>
    cases settled with
    | true => exact fun _ => rfl
    | false => exact due.elim
  | nack worker settled ok position =>
    cases settled with
    | true => exact fun _ => rfl
    | false => exact due.elim
  | _ => trivial

/-- Every due call is one of these. -/
theorem succeedingCall (decodes : ∀ body ∈ bodies, ∃ job, decode body = .ok job)
    (safe : Safe decode workerName bodies none system) {event : WorkerEvent}
    (due : system.Due event) :
    SucceedingCall decode workerName system
      ((JobSystem.machine decode workerName).step system event).1 := by
  cases event with
  | deliver worker position =>
    obtain ⟨waiting, idle, inside⟩ := due
    have there := List.getElem?_eq_getElem inside
    have given : system.jobs.deliver worker position =
        (⟨system.jobs.ready.eraseIdx position, system.jobs.unacked.insert worker
          system.jobs.ready[position]⟩, some system.jobs.ready[position]) := by
      simp only [Broker.deliver, idle, there]
    simp only [JobSystem.machine, JobSystem.step, waiting, given]
    exact .delivered worker position _ waiting there
  | decode worker =>
    obtain ⟨message, known⟩ := due
    have delivered := safe.stages worker _ (by simp) known
    obtain ⟨job, decoded⟩ := decodes message.body (mem_of_delivered safe delivered)
    simp only [JobSystem.machine, JobSystem.step, known, decoded]
    exact .decoded worker message job known
  | publish worker sleepTime publication =>
    cases publication with
    | confirmed =>
      obtain ⟨message, job, known⟩ := due
      simp only [JobSystem.machine, JobSystem.step, known]
      exact .stored worker sleepTime message job known
    | unconfirmed => exact due.elim
    | refused => exact due.elim
  | ack worker settled ok position =>
    cases settled with
    | false => exact due.elim
    | true =>
      cases ok with
      | false => exact due.elim
      | true =>
        obtain ⟨message, known⟩ := due
        simp only [JobSystem.machine, JobSystem.step, known]
        exact .acked worker message known
  | nack worker settled ok position =>
    cases settled with
    | false => exact due.elim
    | true =>
      cases ok with
      | false => exact due.elim
      | true =>
        obtain ⟨message, known⟩ := due
        have delivered := safe.stages worker _ (by simp) known
        simp only [JobSystem.machine, JobSystem.step, known]
        exact .nacked worker position message known delivered
  | _ => exact due.elim

/-- A worker that goes on to a stage exchanges the calls of its stages. -/
theorem load_enter {worker : Nat} {before : WorkerStage}
    (known : system.workers.get? worker = some before) (after : WorkerStage) :
    before.callsLeft + load WorkerStage.callsLeft (system.workers.insert worker after).values =
      after.callsLeft + load WorkerStage.callsLeft system.workers.values := by
  have replaced := load_perm WorkerStage.callsLeft (Dict.values_insert_perm known after)
  rwa [load_cons, load_cons] at replaced

/-- A call that succeeds leaves fewer calls. -/
theorem SucceedingCall.callsLeft_lt {after : JobSystem}
    (call : SucceedingCall decode workerName system after) :
    after.callsLeft < system.callsLeft := by
  unfold JobSystem.callsLeft
  cases call with
  | delivered worker position message waiting there =>
    have exchanged := load_enter waiting (.received message)
    have fewer := (cons_eraseIdx_perm there).length_eq
    rw [List.length_cons] at fewer
    have none_left : WorkerStage.waiting.callsLeft = 0 := rfl
    have three : (WorkerStage.received message).callsLeft = 3 := rfl
    show 4 * (system.jobs.ready.eraseIdx position).length + load _
      (system.workers.insert worker (.received message)).values < _
    omega
  | decoded worker message job known =>
    have exchanged := load_enter known (.decoded message job)
    have three : (WorkerStage.received message).callsLeft = 3 := rfl
    have two : (WorkerStage.decoded message job).callsLeft = 2 := rfl
    show 4 * system.jobs.ready.length + load _
      (system.workers.insert worker (.decoded message job)).values < _
    omega
  | stored worker sleepTime message job known =>
    have exchanged := load_enter known (.processed message)
    have two : (WorkerStage.decoded message job).callsLeft = 2 := rfl
    have one : (WorkerStage.processed message).callsLeft = 1 := rfl
    show 4 * system.jobs.ready.length + load _
      (system.workers.insert worker (.processed message)).values < _
    omega
  | acked worker message known =>
    have exchanged := load_enter known .waiting
    have one : (WorkerStage.processed message).callsLeft = 1 := rfl
    have none_left : WorkerStage.waiting.callsLeft = 0 := rfl
    show 4 * system.jobs.ready.length + load _
      (system.workers.insert worker .waiting).values < _
    omega
  | nacked worker position message known delivered =>
    have exchanged := load_enter known .waiting
    have five : (WorkerStage.failed message).callsLeft = 5 := rfl
    have none_left : WorkerStage.waiting.callsLeft = 0 := rfl
    have more : (system.jobs.requeue worker position).ready.length =
        system.jobs.ready.length + 1 := by
      have whole := congrArg List.length (List.take_append_drop position system.jobs.ready)
      rw [List.length_append] at whole
      simp only [Broker.requeue, delivered, List.length_append, List.length_cons]
      omega
    show 4 * (system.jobs.requeue worker position).ready.length + load _
      (system.workers.insert worker .waiting).values < _
    omega

/-- Somebody is there after the call. -/
theorem SucceedingCall.staffed {after : JobSystem}
    (call : SucceedingCall decode workerName system after) :
    ∃ worker stage, after.workers.get? worker = some stage := by
  cases call with
  | delivered worker position message waiting there =>
    exact ⟨worker, _, (Dict.get?_insert _ _ _ _).trans (if_pos rfl)⟩
  | decoded worker message job known =>
    exact ⟨worker, _, (Dict.get?_insert _ _ _ _).trans (if_pos rfl)⟩
  | stored worker sleepTime message job known =>
    exact ⟨worker, _, (Dict.get?_insert _ _ _ _).trans (if_pos rfl)⟩
  | acked worker message known =>
    exact ⟨worker, _, (Dict.get?_insert _ _ _ _).trans (if_pos rfl)⟩
  | nacked worker position message known delivered =>
    exact ⟨worker, _, (Dict.get?_insert _ _ _ _).trans (if_pos rfl)⟩

/-- A worker that does not wait has a call to make. -/
theorem due_of_busy {worker : Nat} {stage : WorkerStage}
    (known : system.workers.get? worker = some stage) (busy : stage ≠ .waiting) :
    ∃ event, system.Due event := by
  cases stage with
  | waiting => exact absurd rfl busy
  | received message => exact ⟨.decode worker, message, known⟩
  | decoded message job => exact ⟨.publish worker 1 .confirmed, message, job, known⟩
  | processed message => exact ⟨.ack worker true true 0, message, known⟩
  | failed message => exact ⟨.nack worker true true 0, message, known⟩

/-- While a call is left, one is due. -/
theorem Drainable.exists_due (drainable : Drainable decode workerName bodies system)
    (left : 0 < system.callsLeft) : ∃ event, system.Due event := by
  by_cases busy : ∃ worker stage, system.workers.get? worker = some stage ∧ stage ≠ .waiting
  · obtain ⟨worker, stage, known, works⟩ := busy
    exact due_of_busy known works
  · have idle (worker : Nat) (stage : WorkerStage)
        (known : system.workers.get? worker = some stage) : stage = .waiting := by
      by_contra works
      exact busy ⟨worker, stage, known, works⟩
    obtain ⟨worker, stage, known⟩ := drainable.staffed
    have free : system.jobs.unacked.get? worker = none := by
      cases taken : system.jobs.unacked.get? worker with
      | none => rfl
      | some message =>
        obtain ⟨other, there, works⟩ := drainable.attended worker message taken
        exact absurd (idle worker other there) works
    rw [idle worker stage known] at known
    refine ⟨.deliver worker 0, known, free, ?_⟩
    have light : load WorkerStage.callsLeft system.workers.values = 0 := by
      apply List.sum_eq_zero
      intro calls member
      obtain ⟨stage, listed, rfl⟩ := List.mem_map.mp member
      obtain ⟨other, entry⟩ := (Dict.mem_values_iff _ stage).mp listed
      rw [idle other stage ((Dict.get?_eq_some_iff _ other stage).mpr entry)]
      rfl
    unfold JobSystem.callsLeft at left
    omega

end Calls

section Runs

variable (workerName)

/-- Calls that succeed come to an end. -/
def callDescent (decodes : ∀ body ∈ bodies, ∃ job, decode body = .ok job) :
    Descent (JobSystem.machine decode workerName) JobSystem.Due where
  holds := Drainable decode workerName bodies
  left := JobSystem.callsLeft
  preserved _ event drainable due := {
    safe := drainable.safe.step event
    attended := drainable.attended.step due.reliable
    staffed := (succeedingCall decodes drainable.safe due).staffed }
  lowers _ _ drainable due := (succeedingCall decodes drainable.safe due).callsLeft_lt
  waits _ drainable left := drainable.exists_due left

/-- The queue is empty and every job has its result. -/
structure Drained (decode : DecodeJob) (workerName : Nat → String) (bodies : List (List UInt8))
    (trace : List JobTransition) (system : JobSystem) : Prop where
  /-- No message is left, ready or delivered. -/
  emptied : ∀ message, ¬ system.jobs.Holds message
  /-- Every message has a result with the ids of its job. -/
  served : ∀ message ∈ initialMessages bodies, Served decode system.results message
  /-- A message that was never given back has exactly one. -/
  once : ∀ message ∈ initialMessages bodies, returnCount trace message = 0 →
    storedCount workerName trace message = 1

/-- A run of reliable events leaves a state in which the calls can go on, if somebody is
there. -/
theorem drainable_run {events : List WorkerEvent} (reliable : ∀ event ∈ events, event.Reliable)
    (staffed : ∃ worker stage, ((JobSystem.machine decode workerName).run (.new bodies)
      events).workers.get? worker = some stage) :
    Drainable decode workerName bodies
      ((JobSystem.machine decode workerName).run (.new bodies) events) := by
  refine ⟨(run_tallied decode workerName bodies events).safe, ?_, staffed⟩
  clear staffed
  induction events using List.reverseRecOn with
  | nil =>
    intro worker message delivered
    have nobody : (JobSystem.new bodies).jobs.unacked.get? worker = none := rfl
    rw [Machine.run_nil, nobody] at delivered
    contradiction
  | append_singleton events event ih =>
    rw [List.forall_mem_append, List.forall_mem_singleton] at reliable
    rw [Machine.run_concat]
    exact (ih reliable.1).step reliable.2

/-- A run that leaves no calls has drained the queue. -/
theorem drained_of_callsLeft {events : List WorkerEvent}
    (drainable : Drainable decode workerName bodies
      ((JobSystem.machine decode workerName).run (.new bodies) events))
    (done : ((JobSystem.machine decode workerName).run (.new bodies) events).callsLeft = 0) :
    Drained decode workerName bodies
      ((JobSystem.machine decode workerName).trace (.new bodies) events)
      ((JobSystem.machine decode workerName).run (.new bodies) events) := by
  have tallied := run_tallied decode workerName bodies events
  generalize (JobSystem.machine decode workerName).trace (.new bodies) events = trace at *
  generalize (JobSystem.machine decode workerName).run (.new bodies) events = system at *
  unfold JobSystem.callsLeft at done
  have empty : system.jobs.ready = [] := List.length_eq_zero_iff.mp (by omega)
  have light : load WorkerStage.callsLeft system.workers.values = 0 := by omega
  have gone (message : JobMessage) : ¬ system.jobs.Holds message := by
    intro held
    cases held with
    | inl ready =>
      rw [empty] at ready
      exact absurd ready List.not_mem_nil
    | inr taken =>
      obtain ⟨worker, delivered⟩ := taken
      obtain ⟨stage, known, busy⟩ := drainable.attended worker message delivered
      have listed := (Dict.mem_values_iff _ stage).mpr
        ⟨worker, (Dict.get?_eq_some_iff _ worker stage).mp known⟩
      have idle := weight_eq_zero_of_load WorkerStage.callsLeft light listed
      cases stage with
      | waiting => exact busy rfl
      | _ => contradiction
  refine ⟨gone, ?_, ?_⟩
  · exact fun message member => (tallied.safe.jobs.kept message member).resolve_left (gone message)
  · intro message member never
    have least := (tallied.kept.kept message member).resolve_left (gone message)
    have most := tallied.bounded message
    have balance := tallied.balance message member
    omega

/-- Suppose every body is a job. After any run of any number of workers, crashes and failed
calls included, in which a publication that returns `Ok` is stored, acknowledgements that
return reach the broker and which leaves a worker, at most a known number of succeeding calls
can follow, in any order. When none is due any more, and in some order that is reached, the
queue is empty, every job has its result, and a message that was never given back has exactly
one. -/
theorem workers_drain (decode : DecodeJob) (bodies : List (List UInt8))
    (decodes : ∀ body ∈ bodies, ∃ job, decode body = .ok job) (events : List WorkerEvent)
    (reliable : ∀ event ∈ events, event.Reliable)
    (staffed : ∃ worker stage, ((JobSystem.machine decode workerName).run (.new bodies)
      events).workers.get? worker = some stage) :
    let machine := JobSystem.machine decode workerName
    let reached := machine.run (.new bodies) events
    (∀ calls, (∀ t ∈ machine.trace reached calls, t.before.Due t.event) →
      calls.length ≤ reached.callsLeft ∧
        ((∀ event, ¬ (machine.run reached calls).Due event) →
          Drained decode workerName bodies (machine.trace (.new bodies) (events ++ calls))
            (machine.run reached calls))) ∧
      ∃ calls, (∀ t ∈ machine.trace reached calls, t.before.Due t.event) ∧
        Drained decode workerName bodies (machine.trace (.new bodies) (events ++ calls))
          (machine.run reached calls) := by
  intro machine reached
  have drainable : Drainable decode workerName bodies reached :=
    drainable_run workerName reliable staffed
  apply (callDescent workerName decodes).ends drainable fun history rest =>
    Drained decode workerName bodies (machine.trace (.new bodies) history) rest
  intro calls _ still done
  exact drained_of_callsLeft workerName still done

/-- Two workers, of which one crashes with the only job in its hands. -/
def crashRun : List WorkerEvent := [.join 0, .join 1, .deliver 0 0, .decode 0, .exit 0 0]

/-- The other worker empties the queue. -/
theorem workers_drain_crash :
    let machine := JobSystem.machine decodeSeven fun _ => "worker-1"
    ∃ calls, (∀ t ∈ machine.trace (machine.run (.new [[16, 7]]) crashRun) calls,
        t.before.Due t.event) ∧
      Drained decodeSeven (fun _ => "worker-1") [[16, 7]]
        (machine.trace (.new [[16, 7]]) (crashRun ++ calls))
        (machine.run (machine.run (.new [[16, 7]]) crashRun) calls) := by
  refine (workers_drain (fun _ => "worker-1") decodeSeven [[16, 7]] ?_ crashRun ?_ ?_).2
  · rw [List.forall_mem_singleton]
    exact ⟨{ jobId := 7 }, rfl⟩
  · simp [crashRun, WorkerEvent.Reliable]
  · exact ⟨1, .waiting, by decide⟩

end Runs

end BossWorker.Rust
