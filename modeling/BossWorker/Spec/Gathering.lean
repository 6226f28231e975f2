import BossWorker.Rust.Coordinator
import Mathlib.Data.List.Dedup
import Mathlib.Data.List.Perm.Subperm

/-!
# Person windows as the message history shows them

An abstract account of the coordinator's windows that knows no map, no counter and no
sequence number: a window opens at the first person message after the last closing,
gathers every person message until a tick at or past its deadline, and then closes. A
message is told apart from an equal one by its position among the events. The windows
divide the received messages, so each message enters exactly one of them.
-/

namespace BossWorker.Spec

open BossWorker.Rust (Event Instant)

/-- A person message and its position among the events. -/
abbrev Received : Type := Nat × PersonAvailability

/-- One window: when it opened and what it gathered, in order. -/
structure Gathering where
  /-- Clock reading of the first message. -/
  openedAt : Instant
  /-- Messages received since then. -/
  messages : List Received

/-- The messages of a window that come from one person. -/
def Gathering.from (gathering : Gathering) (id : String) : List Received :=
  gathering.messages.filter fun message => message.2.personId = id

/-- The last message of a window that comes from one person. -/
def Gathering.lastFrom (gathering : Gathering) (id : String) : Option Received :=
  (gathering.from id).getLast?

/-- Number of distinct person ids a window has received. -/
def Gathering.distinctPeople (gathering : Gathering) : Nat :=
  (gathering.messages.map fun message => message.2.personId).dedup.length

/-- The window after one more message. -/
def Gathering.join (gathering : Gathering) (message : Received) : Gathering :=
  { gathering with messages := gathering.messages ++ [message] }

/-- A message of the person itself becomes the last one; others change nothing. -/
theorem Gathering.lastFrom_join (gathering : Gathering) (message : Received) (id : String) :
    (gathering.join message).lastFrom id =
      if message.2.personId = id then some message else gathering.lastFrom id := by
  by_cases own : message.2.personId = id
  · simp [Gathering.lastFrom, Gathering.from, Gathering.join, own]
  · simp [Gathering.lastFrom, Gathering.from, Gathering.join, own]

/-- The last message from a person is a message of the window and comes from that person. -/
theorem Gathering.mem_of_lastFrom {gathering : Gathering} {id : String} {message : Received}
    (last : gathering.lastFrom id = some message) :
    message ∈ gathering.messages ∧ message.2.personId = id := by
  have member := List.mem_of_getLast? last
  rw [Gathering.from, List.mem_filter, decide_eq_true_eq] at member
  exact member

/-- A person has a last message exactly when there is any message from that person. -/
theorem Gathering.lastFrom_isSome_iff (gathering : Gathering) (id : String) :
    (gathering.lastFrom id).isSome ↔
      id ∈ gathering.messages.map fun message => message.2.personId := by
  rw [Gathering.lastFrom, List.getLast?_isSome]
  simp [Gathering.from, List.filter_eq_nil_iff]

/-- Closed windows in the order of their closing, and the open one. -/
structure Windows where
  /-- Windows closed by a tick, submitted or not. -/
  closed : List Gathering
  /-- The open window. -/
  current : Option Gathering

/-- The windows after one event at a position. -/
def Windows.advance (gather : ℚ) (windows : Windows) (event : Event × Nat) : Windows :=
  match event.1, windows.current with
  | .person person now, none =>
    { windows with current := some ⟨now, [(event.2, person)]⟩ }
  | .person person _, some gathering =>
    { windows with current := some (gathering.join (event.2, person)) }
  | .tick now _, some gathering =>
    if gather ≤ now - gathering.openedAt then ⟨windows.closed ++ [gathering], none⟩
    else windows
  | .tick _ _, none => windows
  | .chores _ _, _ => windows
  | .complete _, _ => windows

/-- An event keeps the closed windows and may add to them. -/
theorem Windows.closed_advance (gather : ℚ) (windows : Windows) (event : Event × Nat) :
    ∃ closing, (windows.advance gather event).closed = windows.closed ++ closing := by
  unfold advance
  split
  · exact ⟨[], (List.append_nil _).symm⟩
  · exact ⟨[], (List.append_nil _).symm⟩
  · split
    · exact ⟨_, rfl⟩
    · exact ⟨[], (List.append_nil _).symm⟩
  · exact ⟨[], (List.append_nil _).symm⟩
  · exact ⟨[], (List.append_nil _).symm⟩
  · exact ⟨[], (List.append_nil _).symm⟩

/-- The windows of a list of events. -/
def windows (gather : ℚ) (events : List Event) : Windows :=
  events.zipIdx.foldl (Windows.advance gather) ⟨[], none⟩

/-- The person messages of a list of events, with their positions. -/
def received (events : List Event) : List Received :=
  events.zipIdx.filterMap fun event =>
    match event.1 with
    | .person person _ => some (event.2, person)
    | .chores _ _ => none
    | .tick _ _ => none
    | .complete _ => none

/-- The most recent chores message of a list of events. -/
def latestChores (events : List Event) : Option Chores :=
  (events.filterMap fun
    | .chores chores _ => some chores
    | .person _ _ => none
    | .tick _ _ => none
    | .complete _ => none).getLast?

/-- Clock readings of a list of events, in order. -/
def readings (events : List Event) : List Instant := events.filterMap Event.reading

@[simp] theorem windows_nil (gather : ℚ) : windows gather [] = ⟨[], none⟩ := rfl

/-- The last event advances the windows before it. -/
theorem windows_concat (gather : ℚ) (events : List Event) (event : Event) :
    windows gather (events ++ [event]) =
      (windows gather events).advance gather (event, events.length) := by
  simp [windows, List.zipIdx_append]

/-- The last event adds itself if it is a person message. -/
theorem received_concat (events : List Event) (event : Event) :
    received (events ++ [event]) = received events ++
      match event with
      | .person person _ => [(events.length, person)]
      | .chores _ _ => []
      | .tick _ _ => []
      | .complete _ => [] := by
  cases event <;> simp [received, List.zipIdx_append]

/-- A chores message becomes the latest one; other events change nothing. -/
theorem latestChores_concat (events : List Event) (event : Event) :
    latestChores (events ++ [event]) =
      match event with
      | .chores chores _ => some chores
      | .person _ _ => latestChores events
      | .tick _ _ => latestChores events
      | .complete _ => latestChores events := by
  cases event <;> simp [latestChores]

/-- A received message stands at its position. -/
theorem getElem?_of_mem_received {events : List Event} {message : Received}
    (member : message ∈ received events) :
    ∃ now, events[message.1]? = some (.person message.2 now) := by
  obtain ⟨⟨event, position⟩, inside, shown⟩ := List.mem_filterMap.mp member
  cases event with
  | person person now =>
    cases shown
    exact ⟨now, List.mem_zipIdx_iff_getElem?.mp inside⟩
  | chores _ _ => contradiction
  | tick _ _ => contradiction
  | complete _ => contradiction

/-- No two received messages share a position. -/
theorem received_positions_nodup (events : List Event) :
    ((received events).map Prod.fst).Nodup := by
  induction events using List.reverseRecOn with
  | nil => exact List.nodup_nil
  | append_singleton events event ih =>
    rw [received_concat]
    cases event with
    | person person now =>
      rw [List.map_append, List.nodup_append]
      refine ⟨ih, List.nodup_singleton _, ?_⟩
      intro position old last single
      obtain ⟨message, member, rfl⟩ := List.mem_map.mp old
      obtain ⟨time, found⟩ := getElem?_of_mem_received member
      have bound := (List.getElem?_eq_some_iff.mp found).1
      simp only [List.map_cons, List.map_nil, List.mem_singleton] at single
      omega
    | _ => simpa using ih

/-- Every received message enters exactly one window: the closed windows and the open one
hold the received messages, each once and in order. -/
theorem windows_partition (gather : ℚ) (events : List Event) :
    ((windows gather events).closed ++
      (windows gather events).current.toList).flatMap Gathering.messages = received events := by
  induction events using List.reverseRecOn with
  | nil => rfl
  | append_singleton events event ih =>
    rw [windows_concat, received_concat]
    generalize windows gather events = before at ih
    obtain ⟨closed, current⟩ := before
    cases event with
    | chores _ _ => simpa [Windows.advance] using ih
    | complete _ => simpa [Windows.advance] using ih
    | person person now =>
      cases current with
      | none => simpa [Windows.advance] using ih
      | some gathering => simp [Windows.advance, Gathering.join, ← ih]
    | tick now order =>
      cases current with
      | none => simpa [Windows.advance] using ih
      | some gathering =>
        by_cases late : gather ≤ now - gathering.openedAt
        · simpa [Windows.advance, late] using ih
        · simpa [Windows.advance, late] using ih

/-- The open window shares no message with a closed one. -/
theorem closed_disjoint_current {gather : ℚ} {events : List Event} {gathering old : Gathering}
    (opened : (windows gather events).current = some gathering)
    (closed : old ∈ (windows gather events).closed) :
    old.messages.Disjoint gathering.messages := by
  have distinct := (received_positions_nodup events).of_map
  rw [← windows_partition gather events, List.flatMap_append, opened] at distinct
  have apart := (List.nodup_append'.mp distinct).2.2
  intro message inside outside
  exact apart (List.mem_flatMap.mpr ⟨old, closed, inside⟩) (by simpa using outside)

/-- A last message of a person for each of a list of people gives the people back. -/
theorem Gathering.map_snd_filterMap_lastFrom {gathering : Gathering}
    {people : List PersonAvailability}
    (last : ∀ person ∈ people, ∃ position,
      gathering.lastFrom person.personId = some (position, person)) :
    (people.filterMap fun person => gathering.lastFrom person.personId).map Prod.snd =
      people := by
  induction people with
  | nil => rfl
  | cons person people ih =>
    obtain ⟨position, found⟩ := last person List.mem_cons_self
    have rest := ih fun other member => last other (List.mem_cons_of_mem person member)
    simp only [List.filterMap_cons, found, List.map_cons, rest]

/-- A window opens at a clock reading of the history. -/
theorem openedAt_mem_readings {gather : ℚ} {events : List Event} {gathering : Gathering}
    (opened : (windows gather events).current = some gathering) :
    gathering.openedAt ∈ readings events := by
  induction events using List.reverseRecOn generalizing gathering with
  | nil => simp at opened
  | append_singleton events event ih =>
    rw [readings, List.filterMap_append, List.mem_append]
    rw [windows_concat] at opened
    cases event with
    | chores _ _ => exact Or.inl (ih opened)
    | complete _ => exact Or.inl (ih opened)
    | person person now =>
      cases before : (windows gather events).current with
      | none =>
        simp only [Windows.advance, before, Option.some.injEq] at opened
        exact Or.inr (by simp [← opened, Event.reading])
      | some old =>
        simp only [Windows.advance, before, Option.some.injEq] at opened
        have known := ih before
        subst opened
        exact Or.inl known
    | tick now order =>
      cases before : (windows gather events).current with
      | none => simp [Windows.advance, before] at opened
      | some old =>
        simp only [Windows.advance, before] at opened
        split at opened
        · contradiction
        · exact Or.inl (ih opened)

end BossWorker.Spec
