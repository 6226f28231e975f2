import BossWorker.Spec.Rotation
import BossWorker.Verif.Coordinator
import BossWorker.Verif.PythonCoordinator

/-!
# Both coordinators run a rotation

Every call changes the selection history exactly as the events of its log say: a flush
serves the least levels of its window, a completion forgets what it should and a prune
forgets nothing but stale entries. A whole run is therefore a run of the rotation, and what
holds of rotations holds of both coordinators.
-/

namespace BossWorker

/-- A call that submits nothing takes no turn. -/
@[simp] theorem turnAt_none {T : Type} (now : T) (pending : Option (List String)) :
    turnAt now pending none = [] := by
  cases pending <;> rfl

namespace Rust

variable (config : OrchestratorConfig)

namespace BatchCoordinator

variable {config} {self : BatchCoordinator}

/-- A flush serves the least levels of its window and records the time of the turn. -/
theorem served_step {window : PersonWindow} (formed : window.WellFormed) (now : Instant)
    (order : Enumeration PendingPerson) (chores : Chores) :
    (rotationRules config).Step self.levels
      (.served ⟨now, window.pendingPeople.keys,
        (self.submission config chores window order).personIds⟩)
      (self.accepted config now window order).levels := by
  rw [submission_personIds, ← formed.map_personId_values]
  constructor
  · refine Turn.fair_of_take now config.maxPeoplePerWindow (fun left right below => ?_)
      (order.complete _) ?_
    · exact (Prod.Lex.toLex_le_toLex.mp below).elim le_of_lt fun both => both.1.le
    · rw [formed.map_personId_values]
      exact window.pendingPeople.keys_nodup
  · intro id
    rw [levels, accepted, foldl_recordSelection]
    exact Dict.level_insertAll _ _ _ _

/-- The flush of a tick takes the turn its log shows. -/
theorem flushed_run (formed : self.WellFormed) (now : Instant)
    (order : Enumeration PendingPerson) :
    (rotationRules config).Run self.levels
      (turnAt now self.waiting (self.flushWindowIfExpired config now order).2)
      (self.flushWindowIfExpired config now order).1.levels := by
  have outcome := self.flushWindowIfExpired_flushed config now order
  generalize self.flushWindowIfExpired config now order = flushed at outcome
  cases outcome with
  | waiting idle => exact turnAt_none now self.waiting ▸ rfl
  | dropped window due refused => exact turnAt_none now self.waiting ▸ rfl
  | accepted window chores due latest pending idle =>
    rw [waiting, due.opened]
    exact ⟨_, served_step (formed window due.opened).1 now order chores, rfl⟩

/-- A prune forgets stale levels only. -/
theorem pruned_step (self : BatchCoordinator) (now : Instant) :
    (rotationRules config).Step self.levels (.pruned now (self.stalePersonIds config now))
      (self.prunePersonHistory config now).levels := by
  constructor
  · intro id listed
    obtain ⟨time, stored, old⟩ := (Dict.mem_map_fst_filter _ _ id).mp listed
    have elapsed := of_decide_eq_true old
    exact ⟨time, stored, (lt_durationSince_iff config.ttl_nonneg now time).mp elapsed⟩
  · exact fun id => Dict.level_eraseAll _ _ id

/-- A failed completion forgets the level of its person. -/
theorem failed_step (self : BatchCoordinator) {completion : PersonJobCompletion}
    (failed : completion.succeeded = false) :
    (rotationRules config).Step self.levels (.failed completion.personId)
      (self.onPersonComplete completion).levels := by
  intro id
  rw [levels, onPersonComplete, failed]
  exact Dict.level_erase _ _ id

/-- Every call runs the rotation through its events. -/
theorem step_run (formed : self.WellFormed) (event : Event) :
    (rotationRules config).Run self.levels
      (rotationEvents config ⟨self, event, ((coordinator config).step self event).2,
        ((coordinator config).step self event).1⟩)
      ((coordinator config).step self event).1.levels := by
  cases event with
  | chores chores now => rfl
  | person person now => rfl
  | complete completion =>
    cases done : completion.succeeded with
    | true =>
      have kept : (self.onPersonComplete completion).levels = self.levels := by
        funext id
        rw [levels, onPersonComplete, done]
        rfl
      simp only [rotationEvents, done, if_true]
      exact kept
    | false =>
      simp only [rotationEvents, done]
      exact ⟨_, failed_step self done, rfl⟩
  | tick now order =>
    exact RotationRules.run_append _ _ |>.mpr
      ⟨_, flushed_run formed now order, _, pruned_step _ now, rfl⟩

end BatchCoordinator

/-- Every run of calls from a well-formed state is a run of the rotation. -/
theorem rotation_run {self : BatchCoordinator} (formed : self.WellFormed)
    (events : List Event) :
    (rotationRules config).Run self.levels (rotationLog config self events)
      ((coordinator config).run self events).levels :=
  RotationRules.run_trace
    (fun _ event formed => BatchCoordinator.step_wellFormed config formed event)
    (fun _ event formed => BatchCoordinator.step_run formed event) formed events

end Rust

namespace Python

variable {config : OrchestratorConfig}

namespace BatchCoordinator

variable {self other : BatchCoordinator}

/-- A level that changes in the history changes alike when absence counts as zero. -/
theorem levels_of_level (level : WithBot Monotonic) {id : String} {changed : Prop}
    [Decidable changed] (same : other.personLastSelected.level id =
      if changed then level else self.personLastSelected.level id) :
    other.levels id = if changed then ((level.unbotD 0 : Monotonic) : WithBot Monotonic)
      else self.levels id := by
  rw [levels, same]
  split <;> rfl

/-- A flush serves the least levels of its window and records the time of the turn. -/
theorem served_step (room : 0 ≤ config.maxActiveFilters) {window : PersonWindow}
    (keyed : window.Keyed) (now : Monotonic) (chores : Chores) :
    (rotationRules config).Step self.levels
      (.served ⟨now, window.pendingPeople.keys,
        (self.submission config chores window).personIds⟩)
      (self.accepted config now window).levels := by
  have selected : self.selection config window =
      (sortByKey self.rank window.pendingPeople.values).take config.maxActiveFilters.toNat := by
    rw [selection, choosePeopleToRunLocked, sliceTo_of_nonneg _ room]
  rw [submission_personIds, ← keyed.map_personId_values]
  constructor
  · rw [selected]
    refine Turn.fair_of_take now config.maxActiveFilters.toNat (fun left right below => ?_)
      (List.Perm.refl _) ?_
    · rw [rank_eq, rank_eq, Prod.Lex.toLex_le_toLex] at below
      exact WithBot.coe_le_coe.mpr (below.elim le_of_lt fun both => both.1.le)
    · rw [keyed.map_personId_values]
      exact window.pendingPeople.keys_nodup
  · intro id
    refine levels_of_level now ?_
    rw [accepted, foldl_recordSelection]
    exact Dict.level_insertAll _ _ _ _

/-- A flush takes the turn its log shows. -/
theorem flushed_run (room : 0 ≤ config.maxActiveFilters) (keyed : self.Keyed)
    (now : Monotonic) :
    (rotationRules config).Run self.levels
      (turnAt now self.waiting (self.flushCurrentWindow config now).2)
      (self.flushCurrentWindow config now).1.levels := by
  have outcome := self.flushCurrentWindow_flushed config now
  generalize self.flushCurrentWindow config now = flushed at outcome
  cases outcome with
  | absent closed => exact turnAt_none now self.waiting ▸ rfl
  | dropped window opened refused => exact turnAt_none now self.waiting ▸ rfl
  | accepted window chores opened latest pending idle =>
    rw [waiting, opened]
    exact ⟨_, served_step room (keyed window opened) now chores, rfl⟩

/-- A prune forgets stale levels only. -/
theorem pruned_step (self : BatchCoordinator) (now : Monotonic) :
    (rotationRules config).Step self.levels (.pruned now (self.stalePersonIds config now))
      (self.prunePersonHistoryLocked config now).levels := by
  constructor
  · intro id listed
    obtain ⟨time, stored, old⟩ := (Dict.mem_map_fst_filter _ _ id).mp listed
    have elapsed := of_decide_eq_true old
    refine ⟨time, ?_, elapsed⟩
    have known : self.personLastSelected.level id = time := stored
    rw [levels, known, WithBot.unbotD_coe]
  · exact fun id => levels_of_level ⊥ (Dict.level_eraseAll _ _ id)

/-- A failed completion forgets the level of its person. -/
theorem failed_step (self : BatchCoordinator) (id : String) :
    (rotationRules config).Step self.levels (.failed id)
      { self with personLastSelected := self.personLastSelected.erase id }.levels :=
  fun other => levels_of_level ⊥ (Dict.level_erase _ _ other)

/-- Every call runs the rotation through its events. -/
theorem step_run (room : 0 ≤ config.maxActiveFilters) (keyed : self.Keyed) (event : Event) :
    (rotationRules config).Run self.levels
      (rotationEvents config ⟨self, event, ((coordinator config).step self event).2,
        ((coordinator config).step self event).1⟩)
      ((coordinator config).step self event).1.levels := by
  cases event with
  | chores chores now => rfl
  | person person now ident started =>
    have kept : (self.receivePerson config person now ident started).1.levels =
        self.levels := by
      unfold receivePerson
      split
      · rfl
      · split <;> rfl
    exact kept
  | flush now => exact flushed_run room keyed now
  | prune now => exact ⟨_, pruned_step self now, rfl⟩
  | complete person succeeded now =>
    refine RotationRules.run_append _ _ |>.mpr ⟨_, ?_, _, pruned_step _ now, rfl⟩
    cases succeeded with
    | true => rfl
    | false => exact ⟨_, failed_step self person.personId, rfl⟩

end BatchCoordinator

/-- Every run of calls from a keyed state is a run of the rotation. -/
theorem rotation_run (room : 0 ≤ config.maxActiveFilters) {self : BatchCoordinator}
    (keyed : self.Keyed) (events : List Event) :
    (rotationRules config).Run self.levels (rotationLog config self events)
      ((coordinator config).run self events).levels :=
  RotationRules.run_trace
    (fun _ event keyed => BatchCoordinator.step_keyed config keyed event)
    (fun _ event keyed => BatchCoordinator.step_run room keyed event) keyed events

end Python

end BossWorker
