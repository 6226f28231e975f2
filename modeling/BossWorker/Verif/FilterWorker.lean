import BossWorker.Base.Refinement
import BossWorker.Base.ThreadPool
import BossWorker.Python.FilterWorker
import BossWorker.Verif.Greedy

/-!
# The remote chore filter answers its requests

The worker is a pool of threads whose tasks are the requests that parse: whatever the
payloads, the pace of the threads and the answers of the transport, each request is waiting,
handled or answered, and is answered once. Filtering never raises, so only the sleep and the
transport can keep a result back; and when no more requests come, all are answered.
-/

namespace BossWorker.Python

variable {parse : ParseRequest} {workerName : String} {maxWorkers : Nat}

/-- The request that an event brings. -/
def FilterWorkerEvent.received (parse : ParseRequest) : FilterWorkerEvent →
    Option ChoreFilterRequest
  | .request payload => (parse payload).toOption
  | _ => none

/-- The step is one that a thread of the pool has to take. -/
def FilterWorker.Due (maxWorkers : Nat) (state : FilterWorker) : FilterWorkerEvent → Prop
  | .request _ => False
  | .start => state.waiting ≠ [] ∧ state.running.length < maxWorkers
  | .process index _ => ∃ request, state.running[index]? = some ⟨request, .processing⟩
  | .publish index _ =>
    ∃ request result, state.running[index]? = some ⟨request, .publishing result⟩

/-- The step ends the call for a request without a result: its sleep raises, or the transport
does not take its result. -/
def FilterWorker.Fails (state : FilterWorker) (request : ChoreFilterRequest) :
    FilterWorkerEvent → Prop
  | .process index slept =>
    slept = false ∧ state.running[index]? = some ⟨request, .processing⟩
  | .publish index taken =>
    taken = false ∧ ∃ result, state.running[index]? = some ⟨request, .publishing result⟩
  | _ => False

/-- What a step does. -/
inductive FilterWorkerStep (parse : ParseRequest) (workerName : String) (maxWorkers : Nat)
    (state : FilterWorker) : FilterWorkerEvent → FilterWorker × Option HandlerReport → Prop where
  /-- A request waits behind the others. -/
  | accepted (payload : List UInt8) (request : ChoreFilterRequest)
      (parsed : parse payload = .ok request) :
      FilterWorkerStep parse workerName maxWorkers state (.request payload)
        ({ state with waiting := state.waiting ++ [request] }, none)
  /-- The oldest request starts. -/
  | started (request : ChoreFilterRequest) (rest : List ChoreFilterRequest)
      (oldest : state.waiting = request :: rest) (free : state.running.length < maxWorkers) :
      FilterWorkerStep parse workerName maxWorkers state .start
        ({ state with waiting := rest, running := state.running ++ [⟨request, .processing⟩] },
          some (.started request))
  /-- A request has its result. -/
  | filtered (index : Nat) (request : ChoreFilterRequest) (result : ChoreFilterResult)
      (found : state.running[index]? = some ⟨request, .processing⟩)
      (made : Worker.processChoreFilterRequest request workerName = .ok result) :
      FilterWorkerStep parse workerName maxWorkers state (.process index true)
        ({ state with running := state.running.set index ⟨request, .publishing result⟩ }, none)
  /-- The sleep of a request has raised. -/
  | awakened (index : Nat) (request : ChoreFilterRequest)
      (found : state.running[index]? = some ⟨request, .processing⟩) :
      FilterWorkerStep parse workerName maxWorkers state (.process index false)
        ({ state with running := state.running.eraseIdx index }, some (.ended request none))
  /-- The transport has answered. -/
  | sent (index : Nat) (request : ChoreFilterRequest) (result : ChoreFilterResult)
      (taken : Bool) (found : state.running[index]? = some ⟨request, .publishing result⟩) :
      FilterWorkerStep parse workerName maxWorkers state (.publish index taken)
        ({ state with
            running := state.running.eraseIdx index
            published := state.published ++ (if taken then some result else none).toList },
          some (.ended request (if taken then some result else none)))
  /-- Nothing is due. -/
  | idle (event : FilterWorkerEvent) (unsent : event.received parse = none)
      (undue : ¬ state.Due maxWorkers event) :
      FilterWorkerStep parse workerName maxWorkers state event (state, none)

/-- Filtering never raises. -/
theorem exists_processed (request : ChoreFilterRequest) (workerName : String) :
    ∃ result, Worker.processChoreFilterRequest request workerName = .ok result := by
  obtain ⟨result, returned, _⟩ := Verif.python_returns request
  refine ⟨result, ?_⟩
  rw [Worker.processChoreFilterRequest, returned]

/-- Every step is one of these. -/
theorem filterWorkerStep (parse : ParseRequest) (workerName : String) (maxWorkers : Nat)
    (state : FilterWorker) (event : FilterWorkerEvent) :
    FilterWorkerStep parse workerName maxWorkers state event
      ((filterWorker parse workerName maxWorkers).step state event) := by
  cases event with
  | request payload =>
    simp only [filterWorker, FilterWorker.onRequest]
    cases parsed : parse payload with
    | ok request => exact .accepted payload request parsed
    | error error =>
      refine .idle _ ?_ id
      rw [FilterWorkerEvent.received, parsed]
      rfl
  | start =>
    simp only [filterWorker, FilterWorker.started]
    cases oldest : state.waiting with
    | nil => exact .idle _ rfl fun due => due.1 oldest
    | cons request rest =>
      by_cases free : state.running.length < maxWorkers
      · simp only [if_pos free]
        exact .started request rest oldest free
      · simp only [if_neg free]
        exact .idle _ rfl fun due => free due.2
  | process index slept =>
    simp only [filterWorker, FilterWorker.processed]
    split
    · rename_i request found
      cases slept with
      | true =>
        obtain ⟨result, made⟩ := exists_processed request workerName
        rw [if_pos rfl, made]
        exact .filtered index request result found made
      | false => exact .awakened index request found
    · rename_i other
      refine .idle _ rfl fun due => ?_
      obtain ⟨request, found⟩ := due
      exact other request found
  | publish index taken =>
    simp only [filterWorker, FilterWorker.publishedResult]
    split
    · rename_i request result found
      exact .sent index request result taken found
    · rename_i other
      refine .idle _ rfl fun due => ?_
      obtain ⟨request, result, found⟩ := due
      exact other request result found

/-- A thread puts what filtering its request has returned. -/
def HandledRequest.Sound (workerName : String) (handled : HandledRequest) : Prop :=
  ∀ result, handled.stage = .publishing result →
    Worker.processChoreFilterRequest handled.request workerName = .ok result

/-- Every thread does. -/
def FilterWorker.Sound (workerName : String) (state : FilterWorker) : Prop :=
  ∀ handled ∈ state.running, handled.Sound workerName

variable (parse maxWorkers) in
/-- A step keeps the threads sound. -/
theorem FilterWorker.Sound.step {state : FilterWorker} (sound : state.Sound workerName)
    (event : FilterWorkerEvent) :
    ((filterWorker parse workerName maxWorkers).step state event).1.Sound workerName := by
  have step := filterWorkerStep parse workerName maxWorkers state event
  generalize (filterWorker parse workerName maxWorkers).step state event = result at step
  cases step with
  | accepted payload request parsed => exact sound
  | started request rest oldest free =>
    intro handled member
    cases List.mem_append.mp member with
    | inl old => exact sound handled old
    | inr new =>
      rw [List.mem_singleton.mp new]
      intro result publishing
      contradiction
  | filtered index request result found made =>
    have fresh : HandledRequest.Sound workerName ⟨request, .publishing result⟩ := by
      intro other publishing
      rw [← HandlerStage.publishing.inj publishing]
      exact made
    exact forall_mem_set sound fresh
  | awakened index request found => exact forall_mem_eraseIdx sound index
  | sent index request result taken found => exact forall_mem_eraseIdx sound index
  | idle event unsent undue => exact sound

section Pool

/-- What a report says of the pool. -/
def HandlerReport.poolReport : HandlerReport → PoolReport ChoreFilterRequest
  | .started request => .started request
  | .ended request _ => .finished request

/-- The pool behind the worker. -/
def FilterWorker.pool (state : FilterWorker) : Pool ChoreFilterRequest where
  waiting := state.waiting
  running := state.running.map HandledRequest.request

/-- What a step means to the pool. -/
def FilterWorker.poolEvents (parse : ParseRequest) (state : FilterWorker) :
    FilterWorkerEvent → List (PoolEvent ChoreFilterRequest)
  | .request payload => (parse payload).toOption.toList.map PoolEvent.submit
  | .start => [.start]
  | .process index slept =>
    match state.running[index]? with
    | some ⟨_, .processing⟩ => if slept then [] else [.finish index]
    | _ => []
  | .publish index _ =>
    match state.running[index]? with
    | some ⟨_, .publishing _⟩ => [.finish index]
    | _ => []

/-- The pool runs the requests that the threads handle. -/
theorem FilterWorker.pool_running {state : FilterWorker} {index : Nat}
    {handled : HandledRequest} (found : state.running[index]? = some handled) :
    state.pool.running[index]? = some handled.request := by
  rw [pool, List.getElem?_map, found]
  rfl

/-- A step does to the pool what it means. -/
theorem FilterWorker.pool_step (state : FilterWorker) (event : FilterWorkerEvent) :
    ((filterWorker parse workerName maxWorkers).step state event).1.pool =
        (Pool.machine ChoreFilterRequest maxWorkers).run state.pool (state.poolEvents parse event) ∧
      ((filterWorker parse workerName maxWorkers).step state event).2.toList.map
          HandlerReport.poolReport =
        ((Pool.machine ChoreFilterRequest maxWorkers).outputs state.pool
          (state.poolEvents parse event)).flatMap Option.toList := by
  have step := filterWorkerStep parse workerName maxWorkers state event
  generalize (filterWorker parse workerName maxWorkers).step state event = result at step
  cases step with
  | accepted payload request parsed =>
    rw [poolEvents, parsed]
    exact ⟨rfl, rfl⟩
  | started request rest oldest free =>
    have room : state.pool.running.length < maxWorkers := by
      rw [pool, List.length_map]
      exact free
    have first : state.pool.waiting = request :: rest := oldest
    rw [poolEvents, Machine.run_cons, Machine.run_nil, Machine.outputs, Machine.trace_cons,
      Machine.trace_nil, Pool.step_start first room]
    refine ⟨?_, rfl⟩
    rw [pool, List.map_append]
    rfl
  | filtered index request result found made =>
    have unseen : state.poolEvents parse (.process index true) = [] := by
      simp only [poolEvents, found, if_true]
    rw [unseen]
    refine ⟨?_, rfl⟩
    have same : (state.running.map HandledRequest.request)[index]? = some request :=
      pool_running found
    rw [Machine.run_nil, pool, pool, List.map_set, set_eq_self same]
  | awakened index request found =>
    have there := pool_running found
    simp only [poolEvents, found, Bool.false_eq_true, if_false, Machine.run_cons,
      Machine.run_nil, Machine.outputs, Machine.trace_cons, Machine.trace_nil,
      Pool.step_finish there]
    refine ⟨?_, rfl⟩
    simp only [pool, List.eraseIdx_map]
  | sent index request result taken found =>
    have there := pool_running found
    rw [poolEvents, found]
    simp only [Machine.run_cons, Machine.run_nil, Machine.outputs, Machine.trace_cons,
      Machine.trace_nil, Pool.step_finish there]
    refine ⟨?_, rfl⟩
    simp only [pool, List.eraseIdx_map]
  | idle event unsent undue =>
    cases event with
    | request payload =>
      have refused : (parse payload).toOption = none := unsent
      rw [poolEvents, refused]
      exact ⟨rfl, rfl⟩
    | start =>
      have still : ¬ (state.pool.waiting ≠ [] ∧ state.pool.running.length < maxWorkers) := by
        rw [pool, List.length_map]
        exact undue
      rw [poolEvents, Machine.run_cons, Machine.run_nil, Machine.outputs, Machine.trace_cons,
        Machine.trace_nil, Pool.step_start_idle still]
      exact ⟨rfl, rfl⟩
    | process index slept =>
      have nothing : state.poolEvents parse (.process index slept) = [] := by
        simp only [poolEvents]
        split
        · rename_i request found
          exact absurd ⟨request, found⟩ undue
        · rfl
      rw [nothing]
      exact ⟨rfl, rfl⟩
    | publish index taken =>
      have nothing : state.poolEvents parse (.publish index taken) = [] := by
        simp only [poolEvents]
        split
        · rename_i request result found
          exact absurd ⟨request, result, found⟩ undue
        · rfl
      rw [nothing]
      exact ⟨rfl, rfl⟩

/-- The worker refines the pool. -/
def filterRefinement (parse : ParseRequest) (workerName : String) (maxWorkers : Nat) :
    Refinement (filterWorker parse workerName maxWorkers)
      (Pool.machine ChoreFilterRequest maxWorkers) (PoolReport ChoreFilterRequest) where
  holds _ := True
  image := FilterWorker.pool
  explain := FilterWorker.poolEvents parse
  shown output := output.toList.map HandlerReport.poolReport
  seen := Option.toList
  preserved _ _ _ := trivial
  steps state event _ := (state.pool_step event).1
  answers state event _ := (state.pool_step event).2

/-- The requests that events bring are submitted to the pool. -/
theorem filterMap_poolEvents (parse : ParseRequest) (state : FilterWorker)
    (event : FilterWorkerEvent) : (state.poolEvents parse event).filterMap PoolEvent.submitted =
      (event.received parse).toList := by
  cases event with
  | request payload =>
    simp only [FilterWorker.poolEvents, FilterWorkerEvent.received]
    cases (parse payload).toOption with
    | none => rfl
    | some request => rfl
  | start => rfl
  | process index slept =>
    simp only [FilterWorker.poolEvents]
    split
    · cases slept with
      | true => rfl
      | false => rfl
    · rfl
  | publish index taken =>
    simp only [FilterWorker.poolEvents]
    split
    · rfl
    · rfl

end Pool

/-- A request that a thread has taken. -/
def HandlerReport.taken : HandlerReport → Option ChoreFilterRequest
  | .started request => some request
  | .ended _ _ => none

/-- A request whose call has ended, with the result that was sent. -/
def HandlerReport.ending : HandlerReport → Option (ChoreFilterRequest × Option ChoreFilterResult)
  | .started _ => none
  | .ended request result => some (request, result)

/-- Requests that have been taken, in order. -/
def takenRequests (reports : List HandlerReport) : List ChoreFilterRequest :=
  reports.filterMap HandlerReport.taken

/-- Requests whose calls have ended, in order, with the results that were sent. -/
def endings (reports : List HandlerReport) :
    List (ChoreFilterRequest × Option ChoreFilterResult) :=
  reports.filterMap HandlerReport.ending

/-- What the pool starts has been taken. -/
theorem starts_map_poolReport (reports : List HandlerReport) :
    Pool.starts (reports.map HandlerReport.poolReport) = takenRequests reports := by
  rw [Pool.starts, List.filterMap_map, takenRequests]
  congr 1
  funext report
  cases report <;> rfl

/-- What ends in the pool is a call that has ended. -/
theorem ends_map_poolReport (reports : List HandlerReport) :
    Pool.ends (reports.map HandlerReport.poolReport) = (endings reports).map Prod.fst := by
  rw [Pool.ends, List.filterMap_map, endings, List.map_filterMap]
  congr 1
  funext report
  cases report <;> rfl

/-- Every request is waiting, handled or ended, once; every result that is sent is the right
one, and a request goes without one only if its own sleep raises or the transport refuses its
own result. -/
structure Answered (parse : ParseRequest) (workerName : String) (maxWorkers : Nat)
    (events : List FilterWorkerEvent) (reports : List HandlerReport) (reached : FilterWorker) :
    Prop where
  /-- Requests are taken in the order in which they come. -/
  queued : takenRequests reports ++ reached.waiting =
    events.filterMap (FilterWorkerEvent.received parse)
  /-- A request that has been taken is handled or has ended. -/
  handled : ((endings reports).map Prod.fst ++ reached.running.map HandledRequest.request).Perm
    (takenRequests reports)
  /-- No more requests are handled at a time than the pool has threads. -/
  limited : reached.running.length ≤ maxWorkers
  /-- With one thread the calls end in the order in which the requests come. -/
  ordered : maxWorkers ≤ 1 → (endings reports).map Prod.fst ++
    reached.running.map HandledRequest.request = takenRequests reports
  /-- The results sent are those of the calls that have ended. -/
  published : reached.published = (endings reports).filterMap Prod.snd
  /-- A result is what filtering returns for its own request. -/
  genuine : ∀ ending ∈ endings reports, ∀ result, ending.2 = some result →
    Worker.processChoreFilterRequest ending.1 workerName = .ok result
  /-- A call ends without a result only in the step that fails its own request. -/
  failed : ∀ step ∈ (filterWorker parse workerName maxWorkers).trace .new events,
    ∀ request, step.output = some (.ended request none) → step.before.Fails request step.event

section Results

/-- What the results of a run satisfy. -/
structure Resulting (workerName : String) (reports : List HandlerReport)
    (reached : FilterWorker) : Prop where
  sound : reached.Sound workerName
  published : reached.published = (endings reports).filterMap Prod.snd
  genuine : ∀ ending ∈ endings reports, ∀ result, ending.2 = some result →
    Worker.processChoreFilterRequest ending.1 workerName = .ok result

/-- A step that ends no call adds no result. -/
theorem Resulting.quiet {reports : List HandlerReport} {state : FilterWorker}
    (resulting : Resulting workerName reports state) {report : Option HandlerReport}
    {after : FilterWorker} (silent : endings (reports ++ report.toList) = endings reports)
    (sound : after.Sound workerName) (same : after.published = state.published) :
    Resulting workerName (reports ++ report.toList) after := by
  refine ⟨sound, ?_, ?_⟩
  · rw [same, silent]
    exact resulting.published
  · rw [silent]
    exact resulting.genuine

/-- An end is the latest end. -/
theorem endings_concat (reports : List HandlerReport) (request : ChoreFilterRequest)
    (result : Option ChoreFilterResult) :
    endings (reports ++ [.ended request result]) = endings reports ++ [(request, result)] :=
  List.filterMap_append

/-- A step that ends a call adds its result, if there is one. -/
theorem Resulting.ended {reports : List HandlerReport} {state : FilterWorker}
    (resulting : Resulting workerName reports state) {request : ChoreFilterRequest}
    {result : Option ChoreFilterResult} {after : FilterWorker}
    (right : ∀ answer, result = some answer →
      Worker.processChoreFilterRequest request workerName = .ok answer)
    (sound : after.Sound workerName) (same : after.published = state.published ++ result.toList) :
    Resulting workerName (reports ++ [.ended request result]) after := by
  refine ⟨sound, ?_, ?_⟩
  · rw [endings_concat, List.filterMap_append, ← resulting.published, same]
    cases result <;> rfl
  · intro ending member answer sent
    rw [endings_concat] at member
    cases List.mem_append.mp member with
    | inl old => exact resulting.genuine ending old answer sent
    | inr new =>
      rw [List.mem_singleton.mp new] at sent ⊢
      exact right answer sent

/-- A step keeps the results right. -/
theorem Resulting.step {reports : List HandlerReport} {state : FilterWorker}
    (resulting : Resulting workerName reports state) (event : FilterWorkerEvent) :
    Resulting workerName
      (reports ++ ((filterWorker parse workerName maxWorkers).step state event).2.toList)
      ((filterWorker parse workerName maxWorkers).step state event).1 := by
  have sound := resulting.sound.step parse maxWorkers event
  have step := filterWorkerStep parse workerName maxWorkers state event
  generalize (filterWorker parse workerName maxWorkers).step state event = result
    at step sound
  have unreported : endings (reports ++ []) = endings reports :=
    congrArg endings (List.append_nil reports)
  cases step with
  | accepted payload request parsed => exact resulting.quiet unreported sound rfl
  | started request rest oldest free =>
    apply resulting.quiet _ sound rfl
    exact List.filterMap_append.trans (List.append_nil _)
  | filtered index request result found made => exact resulting.quiet unreported sound rfl
  | idle event unsent undue => exact resulting.quiet unreported sound rfl
  | awakened index request found =>
    refine resulting.ended (fun answer sent => ?_) sound (List.append_nil _).symm
    contradiction
  | sent index request result taken found =>
    have right := resulting.sound _ (List.mem_of_getElem? found) result rfl
    refine resulting.ended (fun answer sent => ?_) sound rfl
    cases taken with
    | false =>
      have nothing : (none : Option ChoreFilterResult) = some answer := sent
      cases nothing
    | true => rw [right, Option.some.inj sent]

/-- A step that ends a call without a result fails its request. -/
theorem fails_of_ended {state : FilterWorker} {event : FilterWorkerEvent}
    {request : ChoreFilterRequest}
    (ended : ((filterWorker parse workerName maxWorkers).step state event).2 =
      some (.ended request none)) : state.Fails request event := by
  have step := filterWorkerStep parse workerName maxWorkers state event
  generalize (filterWorker parse workerName maxWorkers).step state event = result at step ended
  cases step with
  | awakened index other found =>
    obtain rfl : other = request := (HandlerReport.ended.inj (Option.some.inj ended)).1
    exact ⟨rfl, found⟩
  | sent index other result taken found =>
    obtain ⟨rfl, unsent⟩ := HandlerReport.ended.inj (Option.some.inj ended)
    cases taken with
    | false => exact ⟨rfl, result, found⟩
    | true =>
      have nothing : some result = none := unsent
      cases nothing
  | _ => cases ended

end Results

section Runs

variable (parse : ParseRequest) (workerName : String) (maxWorkers : Nat)
  (events : List FilterWorkerEvent)

/-- What a run reports. -/
def handlerReports : List HandlerReport :=
  ((filterWorker parse workerName maxWorkers).outputs .new events).flatMap Option.toList

/-- A run keeps the results right. -/
theorem run_resulting : Resulting workerName
    (handlerReports parse workerName maxWorkers events)
    ((filterWorker parse workerName maxWorkers).run .new events) := by
  induction events using List.reverseRecOn with
  | nil =>
    refine ⟨fun _ member => absurd member List.not_mem_nil, rfl, ?_⟩
    exact fun _ member => absurd member List.not_mem_nil
  | append_singleton events event ih =>
    rw [Machine.run_concat, handlerReports, Machine.outputs_concat, List.flatMap_append,
      List.flatMap_singleton]
    exact ih.step event

/-- The requests of a run are accounted for as the tasks of the pool. -/
theorem pool_accounted : Pool.Accounted maxWorkers
    (events.filterMap (FilterWorkerEvent.received parse))
    ((handlerReports parse workerName maxWorkers events).map HandlerReport.poolReport)
    ((filterWorker parse workerName maxWorkers).run .new events).pool := by
  let refined := filterRefinement parse workerName maxWorkers
  have initial : refined.holds .new := trivial
  have accounted := Pool.run_accounted maxWorkers (refined.explained .new events)
  have submitted := refined.filterMap_explained
    (fun state event _ => filterMap_poolEvents parse state event) initial events
  have image : refined.image ((filterWorker parse workerName maxWorkers).run .new events) =
      (Pool.machine ChoreFilterRequest maxWorkers).run .empty (refined.explained .new events) :=
    refined.image_run initial events
  have shown : Pool.reports maxWorkers (refined.explained .new events) =
      (handlerReports parse workerName maxWorkers events).map HandlerReport.poolReport := by
    rw [handlerReports, List.map_flatMap]
    exact (refined.shown_outputs initial events).symm
  rw [submitted, shown, ← image] at accounted
  exact accounted

/-- In every run of the worker, whatever the payloads, the pace of its threads, the sleeps that
raise and the answers of the transport, each request that parses is waiting, handled or ended,
once; requests are taken in the order in which they come and no more at a time than there are
threads; every result sent is what filtering returns for its own request, and a request ends
without one only in the step in which its sleep raises or the transport refuses its result. -/
theorem requests_answered_once : Answered parse workerName maxWorkers events
    (handlerReports parse workerName maxWorkers events)
    ((filterWorker parse workerName maxWorkers).run .new events) := by
  have resulting := run_resulting parse workerName maxWorkers events
  have failed : ∀ step ∈ (filterWorker parse workerName maxWorkers).trace .new events,
      ∀ request, step.output = some (.ended request none) →
        step.before.Fails request step.event := by
    intro step member request ended
    have taken := (filterWorker parse workerName maxWorkers).step_of_mem_trace member
    have unanswered : ((filterWorker parse workerName maxWorkers).step step.before
        step.event).2 = some (.ended request none) := (congrArg Prod.snd taken).trans ended
    exact fails_of_ended unanswered
  have accounted := pool_accounted parse workerName maxWorkers events
  generalize handlerReports parse workerName maxWorkers events = reports at *
  generalize (filterWorker parse workerName maxWorkers).run .new events = reached at *
  have queued := accounted.queued
  have handled := accounted.employed
  have limited : (reached.running.map HandledRequest.request).length ≤ maxWorkers :=
    accounted.limited
  have ordered := accounted.ordered
  rw [starts_map_poolReport] at queued handled ordered
  rw [ends_map_poolReport] at handled ordered
  rw [List.length_map] at limited
  exact {
    queued := queued
    handled := handled
    limited := limited
    ordered := ordered
    published := resulting.published
    genuine := resulting.genuine
    failed := failed }

end Runs

end BossWorker.Python
