import BossWorker.Verif.Worker
import Mathlib.Data.List.ReduceOption

/-!
# When a single worker drains the queue

A pass of the loop over a message that decodes takes it off the queue and stores its result;
a pass over one that does not leaves the queue as it was, because the error arm gives the
message back to the head. So the queue is drained exactly when every body decodes.
-/

namespace BossWorker.Rust

open JobSystem (machine)

variable {decode : DecodeJob} (workerName : Nat → String)

/-- The worker waits, nothing is delivered, and these messages are ready. -/
structure Resting (system : JobSystem) (ready : List JobMessage) : Prop where
  waits : system.workers.get? 0 = some .waiting
  free : ∀ worker, system.jobs.unacked.get? worker = none
  queue : system.jobs.ready = ready

/-- The messages delivered in a run, in order. -/
def deliveries (decode : DecodeJob) (workerName : Nat → String) (system : JobSystem)
    (events : List WorkerEvent) : List JobMessage :=
  ((machine decode workerName).outputs system events).reduceOption

section Pass

variable {system : JobSystem} {message : JobMessage} {later : List JobMessage}

/-- A resting worker is delivered the head of the queue. -/
theorem Resting.deliver (rest : Resting system (message :: later)) :
    system.jobs.deliver 0 0 =
      (⟨later, system.jobs.unacked.insert 0 message⟩, some message) := by
  simp only [Broker.deliver, rest.free 0, rest.queue, List.getElem?_cons_zero,
    List.eraseIdx_zero, List.tail_cons]

/-- After a delivery has ended nothing is delivered. -/
theorem Resting.free_after {ready : List JobMessage} (rest : Resting system ready)
    (worker : Nat) :
    ((system.jobs.unacked.insert 0 message).erase 0).get? worker = none := by
  rw [Dict.get?_erase, Dict.get?_insert, rest.free worker]
  by_cases own : worker = 0
  · rw [if_pos own]
  · rw [if_neg own, if_neg own]

/-- A pass over a message that decodes takes it off the queue and stores its result. -/
theorem loopPass_decoded (rest : Resting system (message :: later)) {job : Example1.Job}
    (decoded : decode message.body = .ok job) (sleepTime : ℚ) :
    let after := (machine decode workerName).run system (loopPass sleepTime)
    Resting after later ∧
      after.results = system.results ++ [buildJobResult (workerName 0) sleepTime job] ∧
      deliveries decode workerName system (loopPass sleepTime) = [message] := by
  have given := rest.deliver
  have waits := rest.waits
  have passed : (machine decode workerName).run system (loopPass sleepTime) = {
      jobs := ⟨later, (system.jobs.unacked.insert 0 message).erase 0⟩
      workers := (((system.workers.insert 0 (.received message)).insert 0
        (.decoded message job)).insert 0 (.processed message)).insert 0 .waiting
      results := system.results ++ [buildJobResult (workerName 0) sleepTime job] } := by
    simp [loopPass, machine, JobSystem.step, waits, given, JobSystem.enter, decoded,
      JobSystem.answered, Broker.settle]
  have answers : (machine decode workerName).outputs system (loopPass sleepTime) =
      [some message, none, none, none, none] := by
    simp [Machine.outputs, loopPass, machine, JobSystem.step, waits, given, JobSystem.enter,
      decoded, JobSystem.answered]
  rw [deliveries, answers, passed]
  exact ⟨⟨by simp, rest.free_after, rfl⟩, rfl, rfl⟩

/-- A pass over a message that does not decode leaves everything as it was. -/
theorem loopPass_undecoded (rest : Resting system (message :: later)) {error : String}
    (undecoded : decode message.body = .error error) (sleepTime : ℚ) :
    let after := (machine decode workerName).run system (loopPass sleepTime)
    Resting after (message :: later) ∧ after.results = system.results ∧
      deliveries decode workerName system (loopPass sleepTime) = [message] := by
  have given := rest.deliver
  have waits := rest.waits
  have passed : (machine decode workerName).run system (loopPass sleepTime) = {
      jobs := ⟨message :: later, (system.jobs.unacked.insert 0 message).erase 0⟩
      workers := ((system.workers.insert 0 (.received message)).insert 0
        (.failed message)).insert 0 .waiting
      results := system.results } := by
    simp [loopPass, machine, JobSystem.step, waits, given, JobSystem.enter, undecoded,
      JobSystem.answered, Broker.requeue]
  have answers : (machine decode workerName).outputs system (loopPass sleepTime) =
      [some message, none, none, none, none] := by
    simp [Machine.outputs, loopPass, machine, JobSystem.step, waits, given, JobSystem.enter,
      undecoded, JobSystem.answered]
  rw [deliveries, answers, passed]
  exact ⟨⟨by simp, rest.free_after, rfl⟩, rfl, rfl⟩

/-- A pass over the empty queue waits. -/
theorem loopPass_empty (decode : DecodeJob) (rest : Resting system []) (sleepTime : ℚ) :
    (machine decode workerName).run system (loopPass sleepTime) = system ∧
      deliveries decode workerName system (loopPass sleepTime) = [] := by
  have waits := rest.waits
  have nothing : system.jobs.deliver 0 0 = (system.jobs, none) := by
    simp only [Broker.deliver, rest.free 0, rest.queue, List.getElem?_nil]
  constructor
  · simp [loopPass, machine, JobSystem.step, waits, nothing]
  · simp [deliveries, Machine.outputs, loopPass, machine, JobSystem.step, waits, nothing]

end Pass

section Passes

variable {system : JobSystem} {ready : List JobMessage}

/-- The deliveries of two runs in a row. -/
theorem deliveries_append (first second : List WorkerEvent) :
    deliveries decode workerName system (first ++ second) =
      deliveries decode workerName system first ++
        deliveries decode workerName ((machine decode workerName).run system first) second := by
  rw [deliveries, Machine.outputs_append, List.reduceOption_append, deliveries, deliveries]

/-- While every message decodes, each pass takes the next one off the queue and serves it. -/
theorem run_passes_decoded (rest : Resting system ready)
    (sound : ∀ message ∈ ready, ∃ job, decode message.body = .ok job) (sleepTimes : List ℚ) :
    let after := (machine decode workerName).run system (sleepTimes.flatMap loopPass)
    Resting after (ready.drop sleepTimes.length) ∧
      deliveries decode workerName system (sleepTimes.flatMap loopPass) =
        ready.take sleepTimes.length ∧
      ∀ message, Served decode system.results message ∨
          message ∈ ready.take sleepTimes.length → Served decode after.results message := by
  induction sleepTimes generalizing system ready with
  | nil =>
    refine ⟨rest, rfl, fun message known => ?_⟩
    exact known.resolve_right List.not_mem_nil
  | cons sleepTime sleepTimes ih =>
    rw [List.flatMap_cons, Machine.run_append, deliveries_append]
    cases ready with
    | nil =>
      obtain ⟨same, nothing⟩ :=
        loopPass_empty workerName decode rest sleepTime
      rw [same, nothing]
      have later := ih rest sound
      rw [List.drop_nil, List.take_nil] at later ⊢
      exact later
    | cons message ready =>
      obtain ⟨job, decoded⟩ := sound message List.mem_cons_self
      obtain ⟨still, stored, first⟩ :=
        loopPass_decoded workerName rest decoded sleepTime
      obtain ⟨queue, order, served⟩ := ih still fun other member =>
        sound other (List.mem_cons_of_mem message member)
      refine ⟨queue, ?_, fun other known => served other ?_⟩
      · rw [first, order]
        rfl
      · rw [stored]
        rcases known with before | taken
        · exact Or.inl (before.append _)
        · rcases List.mem_cons.mp taken with rfl | behind
          · exact Or.inl ⟨job, decoded, _, List.mem_append_right _ List.mem_cons_self, rfl, rfl⟩
          · exact Or.inr behind

/-- A message that does not decode stays at the head and is delivered in every pass; whatever
is behind it waits for ever. -/
theorem run_passes_blocked {message : JobMessage}
    (rest : Resting system (message :: ready)) {error : String}
    (undecoded : decode message.body = .error error) (sleepTimes : List ℚ) :
    let after := (machine decode workerName).run system (sleepTimes.flatMap loopPass)
    Resting after (message :: ready) ∧ after.results = system.results ∧
      deliveries decode workerName system (sleepTimes.flatMap loopPass) =
        List.replicate sleepTimes.length message := by
  induction sleepTimes generalizing system with
  | nil => exact ⟨rest, rfl, rfl⟩
  | cons sleepTime sleepTimes ih =>
    rw [List.flatMap_cons, Machine.run_append, deliveries_append]
    obtain ⟨still, kept, first⟩ :=
      loopPass_undecoded workerName rest undecoded sleepTime
    obtain ⟨queue, unchanged, again⟩ := ih still
    refine ⟨queue, unchanged.trans kept, ?_⟩
    rw [first, again]
    rfl

/-- If some message does not decode, enough passes receive more deliveries than there are
messages. -/
theorem exists_passes_surplus (rest : Resting system ready)
    (unsound : ∃ message ∈ ready, ∃ error, decode message.body = .error error) :
    ∃ sleepTimes : List ℚ, ready.length <
      (deliveries decode workerName system (sleepTimes.flatMap loopPass)).length := by
  induction ready generalizing system with
  | nil =>
    obtain ⟨message, member, _⟩ := unsound
    exact absurd member List.not_mem_nil
  | cons message ready ih =>
    cases answer : decode message.body with
    | error error =>
      obtain ⟨_, _, again⟩ := run_passes_blocked workerName rest answer
        (List.replicate (ready.length + 2) 0)
      refine ⟨List.replicate (ready.length + 2) 0, ?_⟩
      rw [again, List.length_replicate, List.length_replicate, List.length_cons]
      omega
    | ok job =>
      have behind : ∃ other ∈ ready, ∃ error, decode other.body = .error error := by
        obtain ⟨other, member, error, undecoded⟩ := unsound
        rcases List.mem_cons.mp member with rfl | later
        · rw [answer] at undecoded
          contradiction
        · exact ⟨other, later, error, undecoded⟩
      obtain ⟨still, _, first⟩ := loopPass_decoded workerName rest answer 0
      obtain ⟨sleepTimes, surplus⟩ := ih still behind
      refine ⟨0 :: sleepTimes, ?_⟩
      rw [List.flatMap_cons, deliveries_append, first, List.length_append,
        List.length_singleton, List.length_cons]
      omega

end Passes

section Loop

variable (decode : DecodeJob) (bodies : List (List UInt8))

/-- The initial queue with a worker that has joined. -/
def joined (decode : DecodeJob) (workerName : Nat → String) (bodies : List (List UInt8)) :
    JobSystem :=
  (machine decode workerName).run (.new bodies) [.join 0]

/-- A worker that has joined the initial queue rests. -/
theorem resting_joined : Resting (joined decode workerName bodies) (initialMessages bodies) :=
  ⟨rfl, fun _ => rfl, rfl⟩

/-- The loop is its passes after joining. -/
theorem run_consumeLoop (sleepTimes : List ℚ) :
    (machine decode workerName).run (.new bodies) (consumeLoop sleepTimes) =
      (machine decode workerName).run (joined decode workerName bodies)
        (sleepTimes.flatMap loopPass) :=
  rfl

/-- Joining delivers nothing. -/
theorem deliveries_consumeLoop (sleepTimes : List ℚ) :
    deliveries decode workerName (.new bodies) (consumeLoop sleepTimes) =
      deliveries decode workerName (joined decode workerName bodies)
        (sleepTimes.flatMap loopPass) :=
  deliveries_append workerName [.join 0] (sleepTimes.flatMap loopPass)

end Loop

/-- There is an initial message for every body. -/
theorem map_body_initialMessages (bodies : List (List UInt8)) :
    (initialMessages bodies).map JobMessage.body = bodies := by
  change ((bodies.zipIdx.map _).map _) = bodies
  rw [List.map_map]
  exact List.zipIdx_map_fst 0 bodies

/-- The loop receives no more deliveries than there are messages, and once it has made as many
passes the queue is empty and every job that decodes has its result. -/
structure Drains (decode : DecodeJob) (workerName : Nat → String)
    (bodies : List (List UInt8)) : Prop where
  /-- After any number of passes. -/
  bounded : ∀ sleepTimes, (deliveries decode workerName (.new bodies)
    (consumeLoop sleepTimes)).length ≤ bodies.length
  /-- No message is left, ready or delivered. -/
  emptied : ∀ sleepTimes, bodies.length ≤ sleepTimes.length → ∀ message,
    ¬ ((machine decode workerName).run (.new bodies) (consumeLoop sleepTimes)).jobs.Holds message
  /-- Every job has a result. -/
  served : ∀ sleepTimes, bodies.length ≤ sleepTimes.length → ∀ body ∈ bodies, ∀ job,
    decode body = .ok job →
      ∃ result ∈ ((machine decode workerName).run (.new bodies)
        (consumeLoop sleepTimes)).results, result.batchId = job.batchId ∧
          result.jobId = job.jobId

/-- For every list of message bodies, the loop of a single worker drains the queue exactly when
every body decodes as a job. -/
theorem drains_iff (decode : DecodeJob) (workerName : Nat → String)
    (bodies : List (List UInt8)) :
    Drains decode workerName bodies ↔ ∀ body ∈ bodies, ∃ job, decode body = .ok job := by
  have rest := resting_joined workerName decode bodies
  have places := map_body_initialMessages bodies
  have count : (initialMessages bodies).length = bodies.length := by
    rw [← places, List.length_map, places]
  constructor
  · intro drains body member
    cases answer : decode body with
    | ok job => exact ⟨job, rfl⟩
    | error error =>
      rw [← places] at member
      obtain ⟨message, listed, rfl⟩ := List.mem_map.mp member
      obtain ⟨sleepTimes, surplus⟩ :=
        exists_passes_surplus workerName rest ⟨message, listed, error, answer⟩
      have bound := drains.bounded sleepTimes
      rw [deliveries_consumeLoop] at bound
      omega
  · intro sound
    have each : ∀ message ∈ initialMessages bodies, ∃ job, decode message.body = .ok job := by
      intro message listed
      apply sound
      rw [← places]
      exact List.mem_map_of_mem listed
    have passes (sleepTimes : List ℚ) := run_passes_decoded workerName rest each sleepTimes
    constructor
    · intro sleepTimes
      rw [deliveries_consumeLoop, (passes sleepTimes).2.1, List.length_take]
      omega
    · intro sleepTimes enough message held
      have after := (passes sleepTimes).1
      rw [List.drop_eq_nil_of_le (by omega)] at after
      rw [run_consumeLoop] at held
      cases held with
      | inl still =>
        rw [after.queue] at still
        exact absurd still List.not_mem_nil
      | inr taken =>
        obtain ⟨worker, has⟩ := taken
        rw [after.free worker] at has
        contradiction
    · intro sleepTimes enough body member job decoded
      have served := (passes sleepTimes).2.2
      rw [List.take_of_length_le (by omega)] at served
      rw [← places] at member
      obtain ⟨message, listed, rfl⟩ := List.mem_map.mp member
      obtain ⟨found, same, result, stored, ids⟩ := served message (Or.inr listed)
      rw [decoded] at same
      rw [← Except.ok.inj same] at ids
      exact ⟨result, stored, ids⟩

/-- A decoder that knows a job with the id 7 and rejects other bodies. -/
def decodeSeven : DecodeJob := fun body =>
  if body = [16, 7] then .ok { jobId := 7 }
  else .error "failed to decode Protobuf message: invalid varint"

/-- A body that is no message, ahead of one job. -/
def poisonedBodies : List (List UInt8) := [[255], [16, 7]]

/-- The body that is no message is delivered again and again. -/
theorem poisoned_not_drained :
    ¬ ∀ decode workerName bodies, Drains decode workerName bodies := by
  intro drains
  have bound := (drains decodeSeven (fun _ => "worker-1") poisonedBodies).bounded [1, 1, 1]
  have thrice : (deliveries decodeSeven (fun _ => "worker-1") (.new poisonedBodies)
      (consumeLoop [1, 1, 1])).length = 3 := by decide +kernel
  rw [thrice] at bound
  exact absurd bound (by decide)

end BossWorker.Rust
