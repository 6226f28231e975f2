import BossWorker.Verif.Coordinator
import BossWorker.Verif.PythonCoordinator

/-!
# The two coordinators are one machine

Both coordinators serve the same events: a received message, a flush, a completion with the
prune Python adds to it, and a prune. They correspond when they hold the same chores, the
same window up to clock readings and timers, the same count and the same history. One
event keeps them in correspondence and makes the same call; the selection is the same
because a default time of zero ranks below every positive clock reading, and because
distinct sequence numbers leave a sort nothing to choose.
-/

namespace BossWorker.Verif

/-- An event both coordinators serve, with the clock readings each side takes. -/
inductive TwinEvent where
  /-- Chores arrive. -/
  | chores (chores : Chores) (rustNow pythonNow : ℚ)
  /-- A person arrives; a timer Python may create has the identity and does start. -/
  | person (person : PersonAvailability) (rustNow pythonNow : ℚ) (ident : Nat)
  /-- The current window is flushed; the order is that of the Rust hash map. -/
  | flush (now : ℚ) (order : Enumeration Rust.PendingPerson)
  /-- A completion of a person arrives. -/
  | complete (person : PersonAvailability) (succeeded : Bool) (now : ℚ)
  /-- The selection history is pruned. -/
  | prune (now : ℚ)

/-- Every clock reading of the event is positive. -/
def TwinEvent.Positive : TwinEvent → Prop
  | .chores _ rustNow pythonNow => 0 < rustNow ∧ 0 < pythonNow
  | .person _ rustNow pythonNow _ => 0 < rustNow ∧ 0 < pythonNow
  | .flush now _ => 0 < now
  | .complete _ _ now => 0 < now
  | .prune now => 0 < now

instance : DecidablePred TwinEvent.Positive
  | .chores _ rustNow pythonNow => inferInstanceAs (Decidable (0 < rustNow ∧ 0 < pythonNow))
  | .person _ rustNow pythonNow _ => inferInstanceAs (Decidable (0 < rustNow ∧ 0 < pythonNow))
  | .flush now _ => inferInstanceAs (Decidable (0 < now))
  | .complete _ _ now => inferInstanceAs (Decidable (0 < now))
  | .prune now => inferInstanceAs (Decidable (0 < now))

/-- The Rust side of the events. -/
def rustTwin (config : Rust.OrchestratorConfig) :
    Machine Rust.BatchCoordinator TwinEvent (Option Submission) where
  step state
    | .chores chores now _ => (state.receiveChores chores now, none)
    | .person person now _ _ => (state.receivePerson person now, none)
    | .flush now order => state.flushCurrentWindow config now order
    | .complete person succeeded now =>
      ((state.onPersonComplete ⟨person.personId, succeeded⟩).prunePersonHistory config now,
        none)
    | .prune now => (state.prunePersonHistory config now, none)

/-- The Python side of the events. -/
def pythonTwin (config : Python.OrchestratorConfig) :
    Machine Python.BatchCoordinator TwinEvent (Option Submission) where
  step state
    | .chores chores _ now => (state.receiveChores chores now, none)
    | .person person _ now ident => ((state.receivePerson config person now ident true).1, none)
    | .flush now _ => state.flushCurrentWindow config now
    | .complete person succeeded now =>
      (state.onPersonComplete config person succeeded now, none)
    | .prune now => (state.expireStaleIfIdle config now, none)

/-- The configurations agree on capacity and time to live. -/
structure SameConfig (rust : Rust.OrchestratorConfig) (python : Python.OrchestratorConfig) :
    Prop where
  /-- The number of threads is the capacity. -/
  capacity : python.maxActiveFilters = (rust.maxPeoplePerWindow : ℤ)
  /-- The times to live are equal. -/
  seconds : python.personLastSuccessTtlSeconds = rust.personLastSuccessTtlSeconds

/-- The time to live is a whole number of nanoseconds. -/
def WholeTtl (rust : Rust.OrchestratorConfig) : Prop :=
  ∃ nanoseconds : ℤ, rust.personLastSuccessTtlSeconds * 1000000000 = nanoseconds

/-- The configurations agree, also after Rust has made a `Duration` of the time to live. -/
structure SameSettings (rust : Rust.OrchestratorConfig) (python : Python.OrchestratorConfig) :
    Prop extends SameConfig rust python where
  /-- The time to live that Python compares with is the one that Rust compares with. -/
  ttl : python.personLastSuccessTtlSeconds = rust.ttl

/-- A time to live of whole nanoseconds is the same in both. -/
theorem SameConfig.settings {rust : Rust.OrchestratorConfig}
    {python : Python.OrchestratorConfig} (config : SameConfig rust python)
    (whole : WholeTtl rust) : SameSettings rust python := by
  obtain ⟨nanoseconds, equal⟩ := whole
  exact ⟨config, config.seconds.trans (rust.ttl_of_whole equal).symm⟩

/-- What the Rust coordinator keeps of a pending person. -/
def rustEntry (pending : Rust.PendingPerson) : PersonAvailability × Nat :=
  (pending.message, pending.sequenceNumber)

/-- What the Python coordinator keeps of a pending person, but for the time of receipt. -/
def pythonEntry (pending : Python.PendingPerson) : PersonAvailability × Nat :=
  (pending.message, pending.sequenceNumber)

/-- Two open windows with the same counter and the same entries. -/
structure SameWindow (rust : Rust.PersonWindow) (python : Python.PersonWindow) : Prop where
  /-- The counters agree. -/
  counter : rust.sequenceNumber = python.sequenceNumber
  /-- The entries agree under every id. -/
  entries : ∀ id, (rust.pendingPeople.get? id).map rustEntry =
    (python.pendingPeople.get? id).map pythonEntry

/-- The correspondence of states. -/
structure Corresponds (rust : Rust.BatchCoordinator) (python : Python.BatchCoordinator) :
    Prop where
  /-- Both know the same chores. -/
  chores : rust.latestChores = python.latestChores
  /-- Both have the same window open, or none. -/
  window : Option.Rel SameWindow rust.currentWindow python.currentWindow
  /-- Both count the same number of active people. -/
  active : python.activeFilterCount = (rust.activeFilterCount : ℤ)
  /-- Both histories read alike. -/
  history : ∀ id, rust.personLastSelected.get? id = python.personLastSelected.get? id

/-- The correspondence with what keeps the rankings alike. -/
structure Twins (rust : Rust.BatchCoordinator) (python : Python.BatchCoordinator) : Prop
    extends Corresponds rust python where
  /-- The open Rust window is well formed. -/
  formed : rust.WellFormed
  /-- Times in the history are positive. -/
  positive : ∀ id time, rust.personLastSelected.get? id = some time → 0 < time

/-- The key both sides rank by, on what both keep of a pending person. -/
def sharedRank (history : Dict String ℚ) (entry : PersonAvailability × Nat) :
    WithBot ℚ ×ₗ Nat :=
  toLex (history.level entry.1.personId, entry.2)

section Selection

variable {rust : Rust.BatchCoordinator} {python : Python.BatchCoordinator}
  {rustConfig : Rust.OrchestratorConfig} {pythonConfig : Python.OrchestratorConfig}
  {rustWindow : Rust.PersonWindow} {pythonWindow : Python.PersonWindow}

/-- Corresponding windows list the same entries, whatever the order of the hash map. -/
theorem SameWindow.entries_perm (same : SameWindow rustWindow pythonWindow)
    (order : Enumeration Rust.PendingPerson) :
    ((order.arrange rustWindow.pendingPeople.values).map rustEntry).Perm
      (pythonWindow.pendingPeople.values.map pythonEntry) :=
  ((order.complete _).map rustEntry).trans (Dict.map_values_perm same.entries)

/-- The Python key orders as the shared key does. -/
theorem Twins.rank_le_iff (twins : Twins rust python) (left right : Python.PendingPerson) :
    python.rank left ≤ python.rank right ↔
      sharedRank rust.personLastSelected (pythonEntry left) ≤
        sharedRank rust.personLastSelected (pythonEntry right) := by
  have same (id : String) : rust.personLastSelected.level id =
      python.personLastSelected.level id := twins.history id
  have above (id : String) (value : ℚ) (found : python.personLastSelected.level id = value) :
      0 < value := twins.positive id value ((same id).trans found)
  simp only [sharedRank, same, Python.BatchCoordinator.rank_eq]
  exact toLex_unbotD_le_iff left.sequenceNumber right.sequenceNumber
    (above left.message.personId) (above right.message.personId)

/-- Both sides select the same entries in the same order. -/
theorem Twins.selection_eq (twins : Twins rust python)
    (config : SameSettings rustConfig pythonConfig)
    (same : SameWindow rustWindow pythonWindow) (formed : rustWindow.WellFormed)
    (order : Enumeration Rust.PendingPerson) :
    (rust.selection rustConfig rustWindow order).map rustEntry =
      (python.selection pythonConfig pythonWindow).map pythonEntry := by
  have distinct : ∀ left ∈ (order.arrange rustWindow.pendingPeople.values).map rustEntry,
      ∀ right ∈ (order.arrange rustWindow.pendingPeople.values).map rustEntry,
        sharedRank rust.personLastSelected left = sharedRank rust.personLastSelected right →
          left = right := by
    intro left inside right other ranked
    obtain ⟨first, stored, rfl⟩ := List.mem_map.mp inside
    obtain ⟨second, kept, rfl⟩ := List.mem_map.mp other
    have number : first.sequenceNumber = second.sequenceNumber :=
      congrArg (fun key => (ofLex key).2) ranked
    rw [formed.values_distinct ((order.complete _).mem_iff.mp stored)
      ((order.complete _).mem_iff.mp kept) number]
  have rustSorted := map_sortByKey rust.rank (sharedRank rust.personLastSelected) rustEntry
    (order.arrange rustWindow.pendingPeople.values) fun _ _ _ _ => Iff.rfl
  have pythonSorted := map_sortByKey python.rank (sharedRank rust.personLastSelected)
    pythonEntry pythonWindow.pendingPeople.values fun left _ right _ =>
      twins.rank_le_iff left right
  calc (rust.selection rustConfig rustWindow order).map rustEntry
      = (sortByKey (sharedRank rust.personLastSelected)
          ((order.arrange rustWindow.pendingPeople.values).map rustEntry)).take
            rustConfig.maxPeoplePerWindow := by
        rw [← rustSorted, ← List.map_take]
        rfl
    _ = (sortByKey (sharedRank rust.personLastSelected)
          (pythonWindow.pendingPeople.values.map pythonEntry)).take
            rustConfig.maxPeoplePerWindow := by
        rw [sortByKey_eq_of_perm _ (same.entries_perm order) distinct]
    _ = (python.selection pythonConfig pythonWindow).map pythonEntry := by
        rw [← pythonSorted, ← List.map_take, Python.BatchCoordinator.selection,
          Python.BatchCoordinator.choosePeopleToRunLocked, config.capacity,
          Python.sliceTo_of_nonneg _ (Int.natCast_nonneg _), Int.toNat_natCast]

end Selection

/-- Corresponding windows have pending people together. -/
theorem SameWindow.values_eq_nil_iff {rustWindow : Rust.PersonWindow}
    {pythonWindow : Python.PersonWindow} (same : SameWindow rustWindow pythonWindow) :
    rustWindow.pendingPeople.values = [] ↔ pythonWindow.pendingPeople.values = [] := by
  have size := (same.entries_perm (.stored _)).length_eq
  rw [List.length_map, List.length_map, ((Enumeration.stored _).complete _).length_eq] at size
  rw [← List.length_eq_zero_iff, ← List.length_eq_zero_iff, size]

/-- A person who joins corresponding windows leaves them corresponding. -/
theorem SameWindow.join {rustWindow : Rust.PersonWindow} {pythonWindow : Python.PersonWindow}
    (same : SameWindow rustWindow pythonWindow) (person : PersonAvailability) (now : ℚ) :
    SameWindow
      { rustWindow with
        sequenceNumber := rustWindow.sequenceNumber + 1
        pendingPeople := rustWindow.pendingPeople.insert person.personId
          ⟨person, rustWindow.sequenceNumber + 1⟩ }
      { pythonWindow with
        sequenceNumber := pythonWindow.sequenceNumber + 1
        pendingPeople := pythonWindow.pendingPeople.insert person.personId
          ⟨person, now, pythonWindow.sequenceNumber + 1⟩ } where
  counter := congrArg (· + 1) same.counter
  entries id := by
    rw [Dict.get?_insert, Dict.get?_insert]
    by_cases own : id = person.personId
    · rw [if_pos own, if_pos own]
      simp only [Option.map_some, rustEntry, pythonEntry, same.counter]
    · rw [if_neg own, if_neg own]
      exact same.entries id

namespace Twins

variable {rust : Rust.BatchCoordinator} {python : Python.BatchCoordinator}
  {rustConfig : Rust.OrchestratorConfig} {pythonConfig : Python.OrchestratorConfig}

/-- A received person keeps the twins. -/
theorem receivePerson (twins : Twins rust python) (person : PersonAvailability)
    (rustNow pythonNow : ℚ) (ident : Nat) :
    Twins (rust.receivePerson person rustNow)
      (python.receivePerson pythonConfig person pythonNow ident true).1 := by
  have formed := Rust.BatchCoordinator.receivePerson_wellFormed twins.formed person rustNow
  have related := twins.window
  cases opened : python.currentWindow with
  | none =>
    cases stored : rust.currentWindow with
    | some window =>
      rw [opened, stored] at related
      contradiction
    | none =>
      have fresh : SameWindow ⟨rustNow, Dict.empty, 0⟩
          (Python.BatchCoordinator.openWindow pythonConfig pythonNow ident) :=
        ⟨rfl, fun id => rfl⟩
      refine ⟨⟨?_, ?_, ?_, ?_⟩, formed, twins.positive⟩ <;>
        simp only [Python.BatchCoordinator.receivePerson, opened, if_true,
          Python.BatchCoordinator.joinWindow, Rust.BatchCoordinator.receivePerson,
          Rust.BatchCoordinator.openWindow, stored]
      · exact twins.chores
      · exact .some (fresh.join person pythonNow)
      · exact twins.active
      · exact twins.history
  | some pythonWindow =>
    cases stored : rust.currentWindow with
    | none =>
      rw [opened, stored] at related
      contradiction
    | some rustWindow =>
      rw [opened, stored] at related
      obtain ⟨same⟩ := related
      refine ⟨⟨?_, ?_, ?_, ?_⟩, formed, twins.positive⟩ <;>
        simp only [Python.BatchCoordinator.receivePerson, opened,
          Python.BatchCoordinator.joinWindow, Rust.BatchCoordinator.receivePerson,
          Rust.BatchCoordinator.openWindow, stored]
      · exact twins.chores
      · exact .some (same.join person pythonNow)
      · exact twins.active
      · exact twins.history

/-- A prune keeps the twins. -/
theorem prune (twins : Twins rust python) (config : SameSettings rustConfig pythonConfig)
    (now : ℚ) :
    Twins (rust.prunePersonHistory rustConfig now)
      (python.prunePersonHistoryLocked pythonConfig now) where
  chores := twins.chores
  window := twins.window
  active := twins.active
  history id := by
    apply Option.ext
    intro time
    rw [rust.prunePersonHistory_get?, python.prunePersonHistoryLocked_get?, config.ttl,
      twins.history id]
  formed := twins.formed
  positive id time found :=
    twins.positive id time ((rust.prunePersonHistory_get? rustConfig now id time).mp found).1

/-- A completion keeps the twins, before either history is pruned. -/
theorem onPersonComplete (twins : Twins rust python) (config : SameSettings rustConfig pythonConfig)
    (person : PersonAvailability) (succeeded : Bool) (now : ℚ) :
    Twins ((rust.onPersonComplete ⟨person.personId, succeeded⟩).prunePersonHistory rustConfig now)
      (python.onPersonComplete pythonConfig person succeeded now) := by
  apply Twins.prune _ config now
  refine ⟨⟨twins.chores, twins.window, ?_, ?_⟩, twins.formed, ?_⟩
  · have active := twins.active
    simp only [Rust.BatchCoordinator.onPersonComplete]
    by_cases idle : rust.activeFilterCount = 0
    · rw [if_pos idle, active, idle]
      decide
    · rw [if_neg idle, active, if_neg (by omega)]
      omega
  · intro id
    cases succeeded with
    | true => exact twins.history id
    | false =>
      simp only [Rust.BatchCoordinator.onPersonComplete, Bool.false_eq_true, if_false,
        Dict.get?_erase, twins.history id]
  · intro id time found
    rw [rust.onPersonComplete_get?] at found
    exact twins.positive id time found.1

/-- Corresponding accepted windows make one call and keep the twins. -/
theorem accepted (twins : Twins rust python) (config : SameSettings rustConfig pythonConfig)
    {rustWindow : Rust.PersonWindow} {pythonWindow : Python.PersonWindow}
    (same : SameWindow rustWindow pythonWindow) (formed : rustWindow.WellFormed)
    {now : ℚ} (clock : 0 < now) (order : Enumeration Rust.PendingPerson) (chores : Chores) :
    rust.submission rustConfig chores rustWindow order =
        python.submission pythonConfig chores pythonWindow ∧
      Twins (rust.accepted rustConfig now rustWindow order)
        (python.accepted pythonConfig now pythonWindow) := by
  have selected := twins.selection_eq config same formed order
  have messages := congrArg (List.map Prod.fst) selected
  rw [List.map_map, List.map_map] at messages
  have ids := congrArg (List.map PersonAvailability.personId) messages
  rw [List.map_map, List.map_map] at ids
  have size := congrArg List.length selected
  rw [List.length_map, List.length_map] at size
  constructor
  · exact congrArg (Submission.mk chores) messages
  · rw [Rust.BatchCoordinator.accepted, Python.BatchCoordinator.accepted,
      Rust.BatchCoordinator.foldl_recordSelection,
      Python.BatchCoordinator.foldl_recordSelection]
    refine ⟨⟨twins.chores, .none, ?_, ?_⟩, Rust.BatchCoordinator.wellFormed_of_closed rfl, ?_⟩
    · simp only [twins.active, size, Nat.cast_add]
    · intro id
      rw [Dict.get?_insertAll, Dict.get?_insertAll, twins.history id]
      exact congrArg (fun list => if id ∈ list then some now else _) ids
    · intro id time found
      simp only [Dict.get?_insertAll] at found
      split at found
      · exact Option.some.inj found ▸ clock
      · exact twins.positive id time found

/-- A flush makes one call on both sides, or none, and keeps the twins. -/
theorem flush (twins : Twins rust python) (config : SameSettings rustConfig pythonConfig)
    {now : ℚ} (clock : 0 < now) (order : Enumeration Rust.PendingPerson) :
    (rust.flushCurrentWindow rustConfig now order).2 =
        (python.flushCurrentWindow pythonConfig now).2 ∧
      Twins (rust.flushCurrentWindow rustConfig now order).1
        (python.flushCurrentWindow pythonConfig now).1 := by
  have related := twins.window
  have outcome := python.flushCurrentWindow_flushed pythonConfig now
  generalize python.flushCurrentWindow pythonConfig now = result at outcome
  cases outcome with
  | absent closed =>
    cases stored : rust.currentWindow with
    | some window =>
      rw [closed, stored] at related
      contradiction
    | none =>
      rw [Rust.BatchCoordinator.flushCurrentWindow, stored]
      exact ⟨rfl, twins⟩
  | dropped pythonWindow opened refused =>
    cases stored : rust.currentWindow with
    | none =>
      rw [opened, stored] at related
      contradiction
    | some rustWindow =>
      rw [opened, stored] at related
      obtain ⟨same⟩ := related
      rw [← twins.chores, ← same.values_eq_nil_iff, twins.active, Int.natCast_pos] at refused
      rw [Rust.BatchCoordinator.flushCurrentWindow_refused rustConfig now order stored refused]
      exact ⟨rfl, ⟨twins.chores, .none, twins.active, twins.history⟩,
        Rust.BatchCoordinator.wellFormed_of_closed rfl, twins.positive⟩
  | accepted pythonWindow chores opened latest pending idle =>
    cases stored : rust.currentWindow with
    | none =>
      rw [opened, stored] at related
      contradiction
    | some rustWindow =>
      rw [opened, stored] at related
      obtain ⟨same⟩ := related
      rw [← twins.chores] at latest
      rw [Ne, ← same.values_eq_nil_iff] at pending
      rw [twins.active] at idle
      rw [Rust.BatchCoordinator.flushCurrentWindow_accepted rustConfig now order stored latest
        pending (by omega)]
      obtain ⟨calls, next⟩ := twins.accepted config same (twins.formed rustWindow stored).1
        clock order chores
      exact ⟨congrArg some calls, next⟩

/-- Both coordinators start as twins. -/
theorem new : Twins .new .new :=
  ⟨⟨rfl, .none, rfl, fun _ => rfl⟩, Rust.BatchCoordinator.new_wellFormed, fun _ _ => nofun⟩

/-- Every event with positive readings keeps the twins and makes one call. -/
theorem step (twins : Twins rust python) (config : SameSettings rustConfig pythonConfig)
    {event : TwinEvent} (positive : event.Positive) :
    ((rustTwin rustConfig).step rust event).2 = ((pythonTwin pythonConfig).step python event).2 ∧
      Twins ((rustTwin rustConfig).step rust event).1
        ((pythonTwin pythonConfig).step python event).1 := by
  cases event with
  | chores chores rustNow pythonNow =>
    exact ⟨rfl, ⟨rfl, twins.window, twins.active, twins.history⟩, twins.formed, twins.positive⟩
  | person person rustNow pythonNow ident =>
    exact ⟨rfl, twins.receivePerson person rustNow pythonNow ident⟩
  | flush now order => exact twins.flush config positive order
  | complete person succeeded now =>
    exact ⟨rfl, twins.onPersonComplete config person succeeded now⟩
  | prune now => exact ⟨rfl, twins.prune config now⟩

end Twins

/-- The simulation of the Python coordinator by the Rust one, and the other way round. -/
def twinSimulation {rust : Rust.OrchestratorConfig} {python : Python.OrchestratorConfig}
    (config : SameSettings rust python) :
    Simulation (rustTwin rust) (pythonTwin python) TwinEvent.Positive where
  related := Twins
  answers _ _ _ twins positive := (twins.step config positive).1
  steps _ _ _ twins positive := (twins.step config positive).2

/-- On every trace of events with positive clock readings, with a time to live of whole
nanoseconds, the two coordinators make the same calls at the same events, and they correspond
after every event. -/
theorem coordinators_simulate (rust : Rust.OrchestratorConfig)
    (python : Python.OrchestratorConfig) (config : SameConfig rust python)
    (whole : WholeTtl rust) (events : List TwinEvent)
    (positive : ∀ event ∈ events, event.Positive) :
    (rustTwin rust).outputs .new events = (pythonTwin python).outputs .new events ∧
      ∀ front, front <+: events →
        Corresponds ((rustTwin rust).run .new front) ((pythonTwin python).run .new front) := by
  have settings := config.settings whole
  refine ⟨(twinSimulation settings).outputs_eq Twins.new events positive, fun front part => ?_⟩
  have legal : ∀ event ∈ front, event.Positive :=
    fun event member => positive event (part.subset member)
  have twins : Twins _ _ := (twinSimulation settings).run_related Twins.new front legal
  exact twins.toCorresponds

/-- Two people compete for one place, and the loser of the first flush wins the second. -/
theorem coordinators_simulate_turns :
    let rust : Rust.OrchestratorConfig := ⟨1, 2, 60, by decide, by decide⟩
    let python : Python.OrchestratorConfig := ⟨1, 2, 60⟩
    let bob := TwinEvent.person { personId := "bob" } 1 1 0
    let amy := TwinEvent.person { personId := "amy" } 2 2 0
    let events := [.chores { choresId := "weekly" } 1 1, bob, amy, .flush 3 (.reversed _),
      .complete { personId := "bob" } true 4, bob, amy, .flush 6 (.stored _)]
    (rustTwin rust).outputs .new events = (pythonTwin python).outputs .new events ∧
      ∀ front, front <+: events →
        Corresponds ((rustTwin rust).run .new front) ((pythonTwin python).run .new front) :=
  coordinators_simulate _ _ ⟨rfl, rfl⟩ ⟨60000000000, by decide +kernel⟩ _ (by decide)

/-- With a time to live of 0.999999999501 seconds, which is no whole number of nanoseconds,
Rust keeps a selection that is a second old and Python forgets it. So different people are
submitted afterwards. -/
theorem rounded_ttl_diverges :
    let rust : Rust.OrchestratorConfig :=
      ⟨1, 2, 999999999501 / 1000000000000, by decide, by decide +kernel⟩
    let python : Python.OrchestratorConfig := ⟨1, 2, 999999999501 / 1000000000000⟩
    let amy (now : ℚ) (ident : Nat) := TwinEvent.person { personId := "amy" } now now ident
    let events := [.chores { choresId := "weekly" } 1 1, amy 1 0, .flush 1 (.stored _),
      .complete { personId := "amy" } true 1, .prune 2, amy 2 1,
      .person { personId := "bob" } 2 2 1, .flush 3 (.stored _)]
    SameConfig rust python ∧ (∀ event ∈ events, event.Positive) ∧
      (rustTwin rust).outputs .new events ≠ (pythonTwin python).outputs .new events := by
  refine ⟨⟨rfl, rfl⟩, ?_, ?_⟩
  all_goals decide +kernel

end BossWorker.Verif
