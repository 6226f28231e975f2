import BossWorker.Verif.FilterWorker

/-!
# The remote chore filter answers everything in the end

Every step of a thread of the pool brings a request nearer to its end, and while one is left
some thread has a step to take. So once no more requests come, at most a known number of
steps follows in any order, and then the call for every request has ended.
-/

namespace BossWorker.Python

/-- Steps that a request has left once a thread has taken it. -/
def HandledRequest.stepsLeft (handled : HandledRequest) : Nat :=
  match handled.stage with
  | .processing => 2
  | .publishing _ => 1

/-- Steps that all requests have left. -/
def FilterWorker.stepsLeft (state : FilterWorker) : Nat :=
  3 * state.waiting.length + load HandledRequest.stepsLeft state.running

variable (parse : ParseRequest) (workerName : String) (maxWorkers : Nat)

/-- A due step leaves fewer steps. -/
theorem FilterWorker.stepsLeft_step_lt {state : FilterWorker} {event : FilterWorkerEvent}
    (due : state.Due maxWorkers event) :
    ((filterWorker parse workerName maxWorkers).step state event).1.stepsLeft <
      state.stepsLeft := by
  have step := filterWorkerStep parse workerName maxWorkers state event
  generalize (filterWorker parse workerName maxWorkers).step state event = result at step
  cases step with
  | accepted payload request parsed => exact due.elim
  | started request rest oldest free =>
    have queued : state.waiting.length = rest.length + 1 := by
      rw [oldest, List.length_cons]
    have joined : load HandledRequest.stepsLeft (state.running ++ [⟨request, .processing⟩]) =
        load HandledRequest.stepsLeft state.running + 2 := by
      rw [load_perm _ List.perm_append_comm, List.singleton_append, load_cons]
      exact Nat.add_comm _ _
    show 3 * rest.length +
      load HandledRequest.stepsLeft (state.running ++ [⟨request, .processing⟩]) <
        state.stepsLeft
    unfold FilterWorker.stepsLeft
    omega
  | filtered index request result found made =>
    have replaced := load_set HandledRequest.stepsLeft found ⟨request, .publishing result⟩
    have before : HandledRequest.stepsLeft ⟨request, .processing⟩ = 2 := rfl
    have after : HandledRequest.stepsLeft ⟨request, .publishing result⟩ = 1 := rfl
    show 3 * state.waiting.length + load HandledRequest.stepsLeft (state.running.set index _) <
      state.stepsLeft
    unfold FilterWorker.stepsLeft
    omega
  | awakened index request found =>
    have removed := load_eraseIdx HandledRequest.stepsLeft found
    have before : HandledRequest.stepsLeft ⟨request, .processing⟩ = 2 := rfl
    show 3 * state.waiting.length + load HandledRequest.stepsLeft (state.running.eraseIdx index) <
      state.stepsLeft
    unfold FilterWorker.stepsLeft
    omega
  | sent index request result taken found =>
    have removed := load_eraseIdx HandledRequest.stepsLeft found
    have before : HandledRequest.stepsLeft ⟨request, .publishing result⟩ = 1 := rfl
    show 3 * state.waiting.length + load HandledRequest.stepsLeft (state.running.eraseIdx index) <
      state.stepsLeft
    unfold FilterWorker.stepsLeft
    omega
  | idle event unsent undue => exact absurd due undue

/-- A thread that handles a request has a step to take. -/
theorem FilterWorker.due_of_running {state : FilterWorker} {index : Nat}
    {handled : HandledRequest} (found : state.running[index]? = some handled) :
    ∃ event, state.Due maxWorkers event := by
  cases handled with
  | mk request stage =>
    cases stage with
    | processing => exact ⟨.process index true, request, found⟩
    | publishing result => exact ⟨.publish index true, request, result, found⟩

/-- While a step is left, a step is due, if there are threads. -/
theorem FilterWorker.exists_due (threads : 0 < maxWorkers) {state : FilterWorker}
    (left : 0 < state.stepsLeft) : ∃ event, state.Due maxWorkers event := by
  cases handled : state.running with
  | cons first others =>
    have found : state.running[0]? = some first := by
      rw [handled]
      rfl
    exact due_of_running maxWorkers found
  | nil =>
    have queued : state.waiting ≠ [] := by
      intro none_left
      have nothing : state.stepsLeft = 0 := by
        rw [FilterWorker.stepsLeft, none_left, handled]
        rfl
      omega
    have free : state.running.length < maxWorkers := by
      rw [handled]
      exact threads
    exact ⟨.start, queued, free⟩

/-- The steps of the pool come to an end. -/
def filterDescent (threads : 0 < maxWorkers) :
    Descent (filterWorker parse workerName maxWorkers) (FilterWorker.Due maxWorkers) where
  holds _ := True
  left := FilterWorker.stepsLeft
  preserved _ _ _ _ := trivial
  lowers _ _ _ due := FilterWorker.stepsLeft_step_lt parse workerName maxWorkers due
  waits _ _ left := FilterWorker.exists_due maxWorkers threads left

/-- Nothing waits, nothing is handled, and the call for every request has ended once. -/
structure Settled (received : List ChoreFilterRequest) (reports : List HandlerReport)
    (rest : FilterWorker) : Prop where
  waiting : rest.waiting = []
  running : rest.running = []
  ended : ((endings reports).map Prod.fst).Perm received

/-- A reached worker without steps left is settled. -/
theorem settled_of_stepsLeft {events : List FilterWorkerEvent}
    (done : ((filterWorker parse workerName maxWorkers).run .new events).stepsLeft = 0) :
    Settled (events.filterMap (FilterWorkerEvent.received parse))
      (handlerReports parse workerName maxWorkers events)
      ((filterWorker parse workerName maxWorkers).run .new events) := by
  have accounted := pool_accounted parse workerName maxWorkers events
  generalize (filterWorker parse workerName maxWorkers).run .new events = rest at *
  have queued := accounted.queued
  have employed := accounted.employed
  rw [starts_map_poolReport] at queued employed
  rw [ends_map_poolReport] at employed
  have parts : 3 * rest.waiting.length + load HandledRequest.stepsLeft rest.running = 0 := done
  have waiting : rest.waiting = [] := List.length_eq_zero_iff.mp (by omega)
  have light : load HandledRequest.stepsLeft rest.running = 0 := by omega
  have running : rest.running = [] := by
    rw [List.eq_nil_iff_forall_not_mem]
    intro handled member
    have none_left := weight_eq_zero_of_load HandledRequest.stepsLeft light member
    unfold HandledRequest.stepsLeft at none_left
    cases stage : handled.stage with
    | processing => simp [stage] at none_left
    | publishing result => simp [stage] at none_left
  refine ⟨waiting, running, ?_⟩
  have started : takenRequests (handlerReports parse workerName maxWorkers events) =
      events.filterMap (FilterWorkerEvent.received parse) := by
    rw [← queued, FilterWorker.pool, waiting, List.append_nil]
  rw [FilterWorker.pool, running, List.map_nil, List.append_nil, started] at employed
  exact employed

/-- Steps of the pool bring no request. -/
theorem filterMap_received_of_due {state : FilterWorker} {steps : List FilterWorkerEvent}
    (taken : ∀ t ∈ (filterWorker parse workerName maxWorkers).trace state steps,
      t.before.Due maxWorkers t.event) :
    steps.filterMap (FilterWorkerEvent.received parse) = [] := by
  induction steps generalizing state with
  | nil => rfl
  | cons event steps ih =>
    rw [Machine.trace_cons, List.forall_mem_cons] at taken
    have quiet : event.received parse = none := by
      cases event with
      | request payload => exact taken.1.elim
      | _ => rfl
    rw [List.filterMap_cons, quiet]
    exact ih taken.2

/-- After any run of a worker with threads at most a known number of steps of the pool can
follow, in any order; when none is due any more, and in some order that is reached, the call
for every request that came has ended once. -/
theorem requests_come_to_an_end (threads : 0 < maxWorkers) (events : List FilterWorkerEvent) :
    let reached := (filterWorker parse workerName maxWorkers).run .new events
    let received := events.filterMap (FilterWorkerEvent.received parse)
    (∀ steps, (∀ t ∈ (filterWorker parse workerName maxWorkers).trace reached steps,
        t.before.Due maxWorkers t.event) →
      steps.length ≤ reached.stepsLeft ∧
        ((∀ event, ¬ ((filterWorker parse workerName maxWorkers).run reached steps).Due
            maxWorkers event) →
          Settled received (handlerReports parse workerName maxWorkers (events ++ steps))
            ((filterWorker parse workerName maxWorkers).run reached steps))) ∧
      ∃ steps, (∀ t ∈ (filterWorker parse workerName maxWorkers).trace reached steps,
          t.before.Due maxWorkers t.event) ∧
        Settled received (handlerReports parse workerName maxWorkers (events ++ steps))
          ((filterWorker parse workerName maxWorkers).run reached steps) := by
  intro reached received
  apply (filterDescent parse workerName maxWorkers threads).ends trivial fun history rest =>
    Settled received (handlerReports parse workerName maxWorkers history) rest
  intro steps taken _ done
  have settled := settled_of_stepsLeft parse workerName maxWorkers done
  rw [List.filterMap_append, filterMap_received_of_due parse workerName maxWorkers taken,
    List.append_nil] at settled
  exact settled

/-- One thread and one request. -/
theorem requests_come_to_an_end_idle :
    let worker := filterWorker (fun _ => .ok {}) "worker-1" 1
    ∃ steps, (∀ t ∈ worker.trace (worker.run .new [.request []]) steps,
        t.before.Due 1 t.event) ∧
      Settled [{}] (handlerReports (fun _ => .ok {}) "worker-1" 1 ([.request []] ++ steps))
        (worker.run (worker.run .new [.request []]) steps) :=
  (requests_come_to_an_end (fun _ => .ok {}) "worker-1" 1 (by decide) [.request []]).2

end BossWorker.Python
