import BossWorker.Spec.Gathering
import BossWorker.Verif.Coordinator
import Mathlib.Data.List.ReduceOption

/-!
# The coordinator against the raw message history

The coordinator's window mirrors the gathering of the message history: it was opened at the
same reading and stores, under each person id, the last message from that person. From
this the calls are read off the history alone: when they happen, which chores they carry
and which messages they submit.
-/

namespace BossWorker.Rust

open BossWorker.Spec

/-- A stored window shows the last message of each person of a gathering. -/
structure Mirrors (window : PersonWindow) (gathering : Gathering) : Prop where
  /-- Both opened at one clock reading. -/
  opened : window.openedAt = gathering.openedAt
  /-- The message stored for a person is the last one received from that person. -/
  pending : ∀ id, (window.pendingPeople.get? id).map PendingPerson.message =
    (gathering.lastFrom id).map Prod.snd

namespace Mirrors

variable {window : PersonWindow} {gathering : Gathering}

/-- A person with a stored message is a person heard of, and the other way round. -/
theorem mem_keys_iff (mirrors : Mirrors window gathering) (id : String) :
    id ∈ window.pendingPeople.keys ↔
      id ∈ gathering.messages.map fun message => message.2.personId := by
  have both := congrArg Option.isSome (mirrors.pending id)
  rw [Option.isSome_map, Option.isSome_map] at both
  rw [← gathering.lastFrom_isSome_iff, ← both, ← not_iff_not,
    ← window.pendingPeople.get?_eq_none_iff]
  simp

/-- The window stores one entry for each distinct person. -/
theorem length_keys (mirrors : Mirrors window gathering) :
    window.pendingPeople.keys.length = gathering.distinctPeople := by
  have same : window.pendingPeople.keys.Perm
      (gathering.messages.map fun message => message.2.personId).dedup := by
    rw [List.perm_ext_iff_of_nodup window.pendingPeople.keys_nodup (List.nodup_dedup _)]
    intro id
    rw [mirrors.mem_keys_iff id, List.mem_dedup]
  exact same.length_eq

/-- A message stored under its own id stays mirrored when it joins the gathering. -/
theorem join (mirrors : Mirrors window gathering) (position number : Nat)
    (person : PersonAvailability) :
    Mirrors { window with
        sequenceNumber := number
        pendingPeople := window.pendingPeople.insert person.personId ⟨person, number⟩ }
      (gathering.join (position, person)) where
  opened := mirrors.opened
  pending id := by
    rw [Dict.get?_insert, gathering.lastFrom_join]
    by_cases own : person.personId = id
    · simp [own]
    · rw [if_neg (Ne.symm own), if_neg own]
      exact mirrors.pending id

/-- A pending message is the last one of its person in the gathering. -/
theorem lastFrom_of_mem_values (mirrors : Mirrors window gathering)
    (formed : window.WellFormed) {pending : PendingPerson}
    (member : pending ∈ window.pendingPeople.values) :
    ∃ position, gathering.lastFrom pending.message.personId =
      some (position, pending.message) := by
  have stored := mirrors.pending pending.message.personId
  rw [(formed.mem_values_iff pending).mp member] at stored
  obtain ⟨message, found, same⟩ := Option.map_eq_some_iff.mp stored.symm
  exact ⟨message.1, by rw [found, ← same]⟩

end Mirrors

/-- The coordinator's chores and window are those of the message history. -/
structure Mirrored (config : OrchestratorConfig) (events : List Event)
    (state : BatchCoordinator) : Prop where
  /-- The open window is well formed. -/
  formed : state.WellFormed
  /-- The stored chores are the latest received. -/
  chores : state.latestChores = latestChores events
  /-- The stored window mirrors the open gathering. -/
  window : Option.Rel Mirrors state.currentWindow
    (windows config.windowDuration events).current

/-- No clock reading of the history is later than one of the event. -/
def Clocked (events : List Event) (event : Event) : Prop :=
  ∀ now, event.reading = some now → ∀ time ∈ readings events, time ≤ now

/-- A history with non-decreasing readings is clocked at its last event. -/
theorem clocked_of_pairwise {events : List Event} {event : Event}
    (ordered : (readings (events ++ [event])).Pairwise (· ≤ ·)) :
    (readings events).Pairwise (· ≤ ·) ∧ Clocked events event := by
  rw [readings, List.filterMap_append, List.pairwise_append] at ordered
  refine ⟨ordered.1, fun now reads time member => ordered.2.2 time member now ?_⟩
  simp [reads]

namespace Mirrored

variable {config : OrchestratorConfig} {events : List Event} {state : BatchCoordinator}

/-- A due window is a gathering past its deadline. -/
theorem due_iff (mirrored : Mirrored config events state) {now : Instant}
    (clocked : ∀ time ∈ readings events, time ≤ now) {gathering : Gathering}
    (opened : (windows config.windowDuration events).current = some gathering) :
    (∃ window, BatchCoordinator.Due config state now window) ↔
      config.windowDuration ≤ now - gathering.openedAt := by
  have related := mirrored.window
  rw [opened] at related
  cases stored : state.currentWindow with
  | none => rw [stored] at related; contradiction
  | some window =>
    rw [stored] at related
    obtain ⟨mirrors⟩ := related
    have past := clocked _ (openedAt_mem_readings opened)
    have elapsed : durationSince now window.openedAt = now - gathering.openedAt := by
      rw [mirrors.opened, durationSince_of_le past]
    constructor
    · rintro ⟨other, due⟩
      have same : other = window := Option.some.inj (due.opened.symm.trans stored)
      exact elapsed ▸ same ▸ due.expired
    · exact fun late => ⟨window, stored, elapsed.symm ▸ late⟩

/-- Window and gathering opened at one reading, or neither is open. -/
theorem openedAt_eq (mirrored : Mirrored config events state) :
    state.currentWindow.map PersonWindow.openedAt =
      (windows config.windowDuration events).current.map Gathering.openedAt := by
  have related := mirrored.window
  generalize (windows config.windowDuration events).current = current at related ⊢
  generalize state.currentWindow = stored at related ⊢
  cases related with
  | some mirrors => exact congrArg some mirrors.opened
  | none => rfl

/-- No window is due when no gathering is open. -/
theorem not_due (mirrored : Mirrored config events state) (now : Instant)
    (closed : (windows config.windowDuration events).current = none)
    (window : PersonWindow) : ¬ BatchCoordinator.Due config state now window := by
  intro due
  have related := mirrored.window
  rw [closed, due.opened] at related
  contradiction

/-- A message received joins the window on both sides. -/
theorem receivePerson (mirrored : Mirrored config events state) (person : PersonAvailability)
    (now : Instant) :
    Mirrored config (events ++ [.person person now]) (state.receivePerson person now) where
  formed := BatchCoordinator.receivePerson_wellFormed mirrored.formed person now
  chores := by
    rw [latestChores_concat]
    exact mirrored.chores
  window := by
    rw [windows_concat]
    have related := mirrored.window
    cases gathered : (windows config.windowDuration events).current with
    | none =>
      cases stored : state.currentWindow with
      | some window =>
        rw [gathered, stored] at related
        contradiction
      | none =>
        have fresh : Mirrors ⟨now, Dict.empty, 0⟩ ⟨now, []⟩ := ⟨rfl, fun id => rfl⟩
        have joined := fresh.join events.length 1 person
        simp only [Windows.advance, gathered, BatchCoordinator.receivePerson,
          BatchCoordinator.openWindow, stored]
        exact .some joined
    | some gathering =>
      cases stored : state.currentWindow with
      | none =>
        rw [gathered, stored] at related
        contradiction
      | some window =>
        rw [gathered, stored] at related
        obtain ⟨mirrors⟩ := related
        have joined := mirrors.join events.length (window.sequenceNumber + 1) person
        simp only [Windows.advance, gathered, BatchCoordinator.receivePerson,
          BatchCoordinator.openWindow, stored]
        exact .some joined

/-- A tick closes the window on both sides or on neither. -/
theorem ticked (mirrored : Mirrored config events state) {now : Instant}
    (clocked : ∀ time ∈ readings events, time ≤ now) (order : Enumeration PendingPerson) :
    Mirrored config (events ++ [.tick now order])
      (state.expireStaleIfIdle config now order).1 where
  formed := BatchCoordinator.step_wellFormed config mirrored.formed (.tick now order)
  chores := by
    rw [latestChores_concat]
    have outcome := state.flushWindowIfExpired_flushed config now order
    simp only [BatchCoordinator.expireStaleIfIdle]
    generalize state.flushWindowIfExpired config now order = flushed at outcome
    cases outcome with
    | waiting idle => exact mirrored.chores
    | dropped window due refused => exact mirrored.chores
    | accepted window chores due latest pending idle =>
      rw [BatchCoordinator.accepted, BatchCoordinator.foldl_recordSelection]
      exact mirrored.chores
  window := by
    rw [windows_concat]
    have outcome := state.flushWindowIfExpired_flushed config now order
    simp only [BatchCoordinator.expireStaleIfIdle]
    cases gathered : (windows config.windowDuration events).current with
    | none =>
      have unopened := mirrored.not_due now gathered
      have vacant : state.currentWindow = none := by
        have related := mirrored.window
        rw [gathered] at related
        cases stored : state.currentWindow with
        | none => rfl
        | some window =>
          rw [stored] at related
          contradiction
      generalize state.flushWindowIfExpired config now order = flushed at outcome
      cases outcome with
      | waiting idle =>
        simp only [Windows.advance, gathered, BatchCoordinator.prunePersonHistory, vacant]
        exact .none
      | dropped window due refused => exact absurd due (unopened window)
      | accepted window chores due latest pending idle => exact absurd due (unopened window)
    | some gathering =>
      have deadline := mirrored.due_iff clocked gathered
      generalize state.flushWindowIfExpired config now order = flushed at outcome
      cases outcome with
      | waiting idle =>
        have early : ¬ config.windowDuration ≤ now - gathering.openedAt :=
          fun late => (deadline.mpr late).elim idle
        simp only [Windows.advance, gathered, early, if_false]
        exact gathered ▸ mirrored.window
      | dropped window due refused =>
        have late := deadline.mp ⟨window, due⟩
        simp only [Windows.advance, gathered, late, if_true]
        exact .none
      | accepted window chores due latest pending idle =>
        have late := deadline.mp ⟨window, due⟩
        have vacant := state.accepted_currentWindow config now window order
        simp only [Windows.advance, gathered, late, if_true,
          BatchCoordinator.prunePersonHistory, vacant]
        exact .none

/-- Every event moves the coordinator and its history alike. -/
theorem step (mirrored : Mirrored config events state) {event : Event}
    (clocked : Clocked events event) :
    Mirrored config (events ++ [event]) ((coordinator config).step state event).1 := by
  cases event with
  | chores chores now =>
    refine ⟨mirrored.formed, by rw [latestChores_concat]; rfl, ?_⟩
    rw [windows_concat]
    exact mirrored.window
  | person person now => exact mirrored.receivePerson person now
  | tick now order => exact mirrored.ticked (clocked now rfl) order
  | complete completion =>
    refine ⟨mirrored.formed, by rw [latestChores_concat]; exact mirrored.chores, ?_⟩
    rw [windows_concat]
    exact mirrored.window

end Mirrored

/-- The coordinator after a list of events. -/
def reached (config : OrchestratorConfig) (events : List Event) : BatchCoordinator :=
  (coordinator config).run BatchCoordinator.new events

/-- The call the coordinator makes at an event that follows a list of events. -/
def call (config : OrchestratorConfig) (events : List Event) (event : Event) :
    Option Submission :=
  ((coordinator config).step (reached config events) event).2

/-- A coordinator reached with non-decreasing readings mirrors its history. -/
theorem reached_mirrored (config : OrchestratorConfig) (events : List Event)
    (ordered : (readings events).Pairwise (· ≤ ·)) :
    Mirrored config events (reached config events) := by
  induction events using List.reverseRecOn with
  | nil => exact ⟨BatchCoordinator.new_wellFormed, rfl, .none⟩
  | append_singleton events event ih =>
    obtain ⟨earlier, clocked⟩ := clocked_of_pairwise ordered
    rw [reached, Machine.run_concat]
    exact (ih earlier).step clocked

/-- What a tick must find for its call: the gathering it submits and the chores it passes. -/
structure Callable (config : OrchestratorConfig) (events : List Event) (now : Instant)
    (gathering : Gathering) (chores : Chores) : Prop where
  /-- A window is open. -/
  opened : (windows config.windowDuration events).current = some gathering
  /-- Its gather time has passed. -/
  late : config.windowDuration ≤ now - gathering.openedAt
  /-- Chores were received, these last. -/
  latest : latestChores events = some chores
  /-- No submitted person is still counted. -/
  idle : (reached config events).activeFilterCount = 0

/-- What a call passes, in terms of the gathering it submits. -/
structure Submits (config : OrchestratorConfig) (gathering : Gathering)
    (submission : Submission) : Prop where
  /-- As many people as there are, up to the capacity. -/
  length : submission.people.length =
    min config.maxPeoplePerWindow gathering.distinctPeople
  /-- Nobody is named twice. -/
  distinct : submission.personIds.Nodup
  /-- Each message is the last one of its person. -/
  last : ∀ person ∈ submission.people, ∃ position,
    gathering.lastFrom person.personId = some (position, person)

section Call

variable {config : OrchestratorConfig} {events : List Event}

/-- A tick calls with a submission of the gathering it found callable, or finds none. -/
theorem call_tick (mirrored : Mirrored config events (reached config events)) {now : Instant}
    (clocked : ∀ time ∈ readings events, time ≤ now) (order : Enumeration PendingPerson) :
    (∃ gathering submission, call config events (.tick now order) = some submission ∧
        Callable config events now gathering submission.chores ∧
        Submits config gathering submission) ∨
      (call config events (.tick now order) = none ∧
        ∀ gathering chores, ¬ Callable config events now gathering chores) := by
  have outcome := (reached config events).flushWindowIfExpired_flushed config now order
  change (∃ gathering submission,
      ((reached config events).flushWindowIfExpired config now order).2 = some submission ∧ _) ∨
    (((reached config events).flushWindowIfExpired config now order).2 = none ∧ _)
  generalize (reached config events).flushWindowIfExpired config now order = flushed at outcome
  cases outcome with
  | waiting idle =>
    refine Or.inr ⟨rfl, fun gathering chores callable => ?_⟩
    obtain ⟨window, due⟩ := (mirrored.due_iff clocked callable.opened).mpr callable.late
    exact idle window due
  | dropped window due refused =>
    refine Or.inr ⟨rfl, fun gathering chores callable => ?_⟩
    rcases refused with absent | vacant | busy
    · rw [mirrored.chores, callable.latest] at absent
      contradiction
    · exact (mirrored.formed window due.opened).2 vacant
    · rw [callable.idle] at busy
      exact absurd busy (lt_irrefl 0)
  | accepted window chores due latest pending idle =>
    have related := mirrored.window
    rw [due.opened] at related
    cases gathered : (windows config.windowDuration events).current with
    | none =>
      rw [gathered] at related
      contradiction
    | some gathering =>
      rw [gathered] at related
      obtain ⟨mirrors⟩ := related
      have formed := (mirrored.formed window due.opened).1
      refine Or.inl ⟨gathering, _, rfl, ⟨gathered, ?_, ?_, idle⟩, ⟨?_, ?_, ?_⟩⟩
      · exact (mirrored.due_iff clocked gathered).mp ⟨window, due⟩
      · exact mirrored.chores.symm.trans latest
      · rw [BatchCoordinator.submission, List.length_map, BatchCoordinator.length_selection,
          mirrors.length_keys]
      · rw [BatchCoordinator.submission_personIds]
        exact BatchCoordinator.selection_nodup config _ order formed
      · intro person submitted
        obtain ⟨chosen, member, rfl⟩ := List.mem_map.mp submitted
        exact mirrors.lastFrom_of_mem_values formed
          (BatchCoordinator.mem_values_of_mem_selection member)

/-- Only a tick makes a call. -/
theorem eq_tick_of_call {event : Event} {submission : Submission}
    (made : call config events event = some submission) :
    ∃ now order, event = .tick now order := by
  cases event with
  | tick now order => exact ⟨now, order, rfl⟩
  | chores _ _ => contradiction
  | person _ _ => contradiction
  | complete _ => contradiction

/-- A call is made for a callable gathering and passes on what it asks for. -/
theorem submits_of_call {event : Event} {submission : Submission}
    (ordered : (readings (events ++ [event])).Pairwise (· ≤ ·))
    (made : call config events event = some submission) :
    ∃ now order gathering, event = .tick now order ∧
      Callable config events now gathering submission.chores ∧
      Submits config gathering submission := by
  obtain ⟨earlier, clocked⟩ := clocked_of_pairwise ordered
  obtain ⟨now, order, rfl⟩ := eq_tick_of_call made
  rcases call_tick (reached_mirrored config events earlier) (clocked now rfl) order with
    ⟨gathering, other, same, callable, submits⟩ | ⟨quiet, _⟩
  · obtain rfl : other = submission := Option.some.inj (same.symm.trans made)
    exact ⟨now, order, gathering, rfl, callable, submits⟩
  · rw [quiet] at made
    contradiction

/-- A call is made exactly at a tick that finds a callable gathering. -/
theorem call_isSome_iff {event : Event}
    (ordered : (readings (events ++ [event])).Pairwise (· ≤ ·)) :
    (call config events event).isSome ↔ ∃ now order gathering chores,
      event = .tick now order ∧ Callable config events now gathering chores := by
  constructor
  · intro made
    obtain ⟨submission, made⟩ := Option.isSome_iff_exists.mp made
    obtain ⟨now, order, gathering, same, callable, _⟩ := submits_of_call ordered made
    exact ⟨now, order, gathering, _, same, callable⟩
  · rintro ⟨now, order, gathering, chores, rfl, callable⟩
    obtain ⟨earlier, clocked⟩ := clocked_of_pairwise ordered
    rcases call_tick (reached_mirrored config events earlier) (clocked now rfl) order with
      ⟨_, submission, made, _⟩ | ⟨_, never⟩
    · rw [made]
      rfl
    · exact absurd callable (never gathering chores)

/-- A tick past the deadline of a gathering leaves no window open. -/
theorem closed_of_late {now : Instant} {order : Enumeration PendingPerson}
    {gathering : Gathering}
    (ordered : (readings (events ++ [.tick now order])).Pairwise (· ≤ ·))
    (current : (windows config.windowDuration events).current = some gathering)
    (late : config.windowDuration ≤ now - gathering.openedAt) :
    (reached config (events ++ [.tick now order])).currentWindow = none := by
  have same := (reached_mirrored config (events ++ [.tick now order]) ordered).openedAt_eq
  rw [windows_concat] at same
  simp only [Windows.advance, current, late, if_true, Option.map_none] at same
  exact Option.map_eq_none_iff.mp same

end Call

/-- The received messages that a call at an event submits. -/
def servedAt (config : OrchestratorConfig) (events : List Event) (event : Event) :
    List Received :=
  match call config events event, (windows config.windowDuration events).current with
  | some submission, some gathering =>
    submission.people.filterMap fun person => gathering.lastFrom person.personId
  | _, _ => []

/-- The received messages that the calls of a run submit, in order. -/
def served (config : OrchestratorConfig) (events : List Event) : List Received :=
  events.zipIdx.flatMap fun event => servedAt config (events.take event.2) event.1

/-- The last event adds what its own call submits. -/
theorem served_concat (config : OrchestratorConfig) (events : List Event) (event : Event) :
    served config (events ++ [event]) =
      served config events ++ servedAt config events event := by
  simp only [served, List.zipIdx_append, List.flatMap_append, List.zipIdx_singleton,
    List.flatMap_singleton, Nat.zero_add, List.take_left']
  congr 1
  apply List.flatMap_congr
  intro cut member
  rw [List.take_append_of_le_length]
  exact (List.snd_lt_of_mem_zipIdx member).le

section Served

variable {config : OrchestratorConfig} {events : List Event} {event : Event}

/-- What a call submits are messages of the closing gathering, none of them twice. -/
theorem servedAt_of_submits {submission : Submission} {gathering : Gathering}
    (made : call config events event = some submission)
    (opened : (windows config.windowDuration events).current = some gathering)
    (submits : Submits config gathering submission) :
    (servedAt config events event).map Prod.snd = submission.people ∧
      List.Subperm (servedAt config events event) gathering.messages := by
  have people := gathering.map_snd_filterMap_lastFrom submits.last
  simp only [servedAt, made, opened]
  refine ⟨people, List.subperm_of_subset (List.Nodup.of_map Prod.snd ?_) ?_⟩
  · rw [people]
    exact submits.distinct.of_map
  · intro message member
    obtain ⟨person, _, last⟩ := List.mem_filterMap.mp member
    exact (Gathering.mem_of_lastFrom last).1

/-- Without a call nothing is submitted. -/
theorem servedAt_of_call_eq_none (quiet : call config events event = none) :
    servedAt config events event = [] := by
  simp only [servedAt, quiet]

/-- At any event, the submitted messages are those of the call, and they belong to windows
that the event closes. -/
theorem servedAt_closes (config : OrchestratorConfig)
    (ordered : (readings (events ++ [event])).Pairwise (· ≤ ·)) :
    (servedAt config events event).map Prod.snd =
        (call config events event).toList.flatMap Submission.people ∧
      ∃ closing, (windows config.windowDuration (events ++ [event])).closed =
          (windows config.windowDuration events).closed ++ closing ∧
        List.Subperm (servedAt config events event) (closing.flatMap Gathering.messages) := by
  cases made : call config events event with
  | some submission =>
    obtain ⟨now, order, gathering, rfl, callable, submits⟩ := submits_of_call ordered made
    obtain ⟨people, inside⟩ := servedAt_of_submits made callable.opened submits
    refine ⟨by simpa using people, [gathering], ?_, by simpa using inside⟩
    rw [windows_concat]
    simp only [Windows.advance, callable.opened, callable.late, if_true]
  | none =>
    rw [servedAt_of_call_eq_none made]
    have closing := Windows.closed_advance config.windowDuration
      (windows config.windowDuration events) (event, events.length)
    obtain ⟨closing, more⟩ := closing
    exact ⟨rfl, closing, by rw [windows_concat, more], List.nil_subperm⟩

end Served

/-- The submitted messages of a run are those of its calls, and messages of closed windows,
each at most once. -/
theorem served_subperm (config : OrchestratorConfig) (events : List Event)
    (ordered : (readings events).Pairwise (· ≤ ·)) :
    (served config events).map Prod.snd =
        ((coordinator config).outputs BatchCoordinator.new events).reduceOption.flatMap
          Submission.people ∧
      List.Subperm (served config events)
        ((windows config.windowDuration events).closed.flatMap
          Gathering.messages) := by
  induction events using List.reverseRecOn with
  | nil => exact ⟨rfl, List.nil_subperm⟩
  | append_singleton events event ih =>
    obtain ⟨earlier, _⟩ := clocked_of_pairwise ordered
    obtain ⟨calls, inside⟩ := ih earlier
    obtain ⟨people, closing, closed, more⟩ := servedAt_closes config ordered
    rw [served_concat, closed, List.map_append, calls, people, List.flatMap_append]
    refine ⟨?_, List.Subperm.append inside more⟩
    rw [Machine.outputs_concat, List.reduceOption_append, List.flatMap_append]
    have alone : [call config events event].reduceOption =
        (call config events event).toList := by
      cases call config events event <;> rfl
    exact congrArg _ (congrArg _ alone.symm)

/-- The calls of a run are exactly those its message history asks for. -/
structure SubmitsExactly (config : OrchestratorConfig) (events : List Event) : Prop where
  /-- A call happens exactly at a tick that finds a callable gathering. -/
  calls : ∀ before event after, events = before ++ event :: after →
    ((call config before event).isSome ↔ ∃ now order gathering chores,
      event = .tick now order ∧ Callable config before now gathering chores)
  /-- The call passes the latest chores and the latest messages of that gathering. -/
  submits : ∀ before event after submission, events = before ++ event :: after →
    call config before event = some submission → ∃ now order gathering,
      event = .tick now order ∧ Callable config before now gathering submission.chores ∧
        Submits config gathering submission
  /-- The coordinator has a window open exactly when the history has, since the same time. -/
  opened : ∀ before after, events = before ++ after →
    (reached config before).currentWindow.map PersonWindow.openedAt =
      (windows config.windowDuration before).current.map Gathering.openedAt
  /-- A tick at or past the deadline closes the window. -/
  closes : ∀ before now order after gathering, events = before ++ .tick now order :: after →
    (windows config.windowDuration before).current = some gathering →
    config.windowDuration ≤ now - gathering.openedAt →
    (reached config (before ++ [.tick now order])).currentWindow = none
  /-- The windows divide the received messages. -/
  partition : ((windows config.windowDuration events).closed ++
      (windows config.windowDuration events).current.toList).flatMap
    Gathering.messages = received events
  /-- No message of a closed window is in the open one. -/
  apart : ∀ before after gathering, events = before ++ after →
    (windows config.windowDuration before).current = some gathering →
    ∀ old ∈ (windows config.windowDuration before).closed,
      old.messages.Disjoint gathering.messages
  /-- What the calls of the run submit are received messages. -/
  messages : (served config events).map Prod.snd =
      ((coordinator config).outputs BatchCoordinator.new events).reduceOption.flatMap
        Submission.people ∧
    served config events ⊆ received events
  /-- No received message is submitted twice. -/
  once : ((served config events).map Prod.fst).Nodup

/-- With readings that never decrease, the coordinator submits exactly what the messages it
received ask for: at the ticks past the deadline of a window that find chores and nobody
active, the latest chores with the last messages of as many people as fit, and no message
more than once. -/
theorem submit_window_exact (config : OrchestratorConfig) (events : List Event)
    (ordered : (readings events).Pairwise (· ≤ ·)) : SubmitsExactly config events := by
  have ordered_front (front back : List Event) (split : events = front ++ back) :
      (readings front).Pairwise (· ≤ ·) := by
    rw [split, readings, List.filterMap_append] at ordered
    exact (List.pairwise_append.mp ordered).1
  have ordered_concat (before : List Event) (event : Event) (after : List Event)
      (split : events = before ++ event :: after) :
      (readings (before ++ [event])).Pairwise (· ≤ ·) :=
    ordered_front (before ++ [event]) after (by rw [split, List.append_cons])
  obtain ⟨people, inside⟩ := served_subperm config events ordered
  have known : List.Subperm (served config events) (received events) := by
    rw [← windows_partition config.windowDuration events, List.flatMap_append]
    exact inside.trans (List.sublist_append_left _ _).subperm
  obtain ⟨kept, rearranged, sublist⟩ := known
  have positions := (received_positions_nodup events).sublist (sublist.map Prod.fst)
  exact {
    calls := fun before event after split =>
      call_isSome_iff (ordered_concat before event after split)
    submits := fun before event after _ split =>
      submits_of_call (ordered_concat before event after split)
    opened := fun before after split =>
      (reached_mirrored config before (ordered_front before after split)).openedAt_eq
    closes := fun before now order after _ split =>
      closed_of_late (ordered_concat before (.tick now order) after split)
    partition := windows_partition config.windowDuration events
    apart := fun before after gathering _ current old closed =>
      closed_disjoint_current current closed
    messages := ⟨people, fun message member =>
      sublist.subset (rearranged.mem_iff.mpr member)⟩
    once := (rearranged.map Prod.fst).nodup_iff.mp positions }

/-- A run in which the chores arrive after the person they are submitted with. -/
theorem submit_window_exact_late_chores :
    SubmitsExactly ⟨1, 2, 60, by decide, by decide⟩
      [.person { personId := "alice" } 10, .chores { choresId := "weekly" } 11,
        .tick 12 (.stored _)] :=
  submit_window_exact _ _ (by decide)

end BossWorker.Rust
