import BossWorker.Verif.Selection

/-!
# Expired selections still count

A flush ranks by the history as the prunes before it left it. An entry it reads was recorded
by a flush that submitted its person and found fresh by every prune since; it may have expired
after the last of them, and the flush does not look. The selection is then the one without
expired entries exactly when nobody chosen ahead of an expired person arrived after that person.
-/

namespace BossWorker

namespace Rust

section Expiry

variable {config : OrchestratorConfig} {self : BatchCoordinator} {now : Instant}

/-- The last selection of a pending person is older than the time to live. -/
def BatchCoordinator.Expired (config : OrchestratorConfig) (self : BatchCoordinator)
    (now : Instant) (pending : PendingPerson) : Prop :=
  ∃ time, self.personLastSelected.get? pending.message.personId = some time ∧
    config.ttl < now - time

namespace BatchCoordinator

/-- Without the expired entries an expired person ranks as never selected. -/
theorem rank_prune_of_expired {pending : PendingPerson}
    (expired : self.Expired config now pending) :
    (self.prunePersonHistory config now).rank pending = toLex (⊥, pending.sequenceNumber) := by
  obtain ⟨time, found, old⟩ := expired
  have gone : (self.prunePersonHistory config now).personLastSelected.get?
      pending.message.personId = none := by
    rw [Option.eq_none_iff_forall_ne_some]
    intro other kept
    rw [prunePersonHistory_get?, found, Option.some.injEq] at kept
    exact absurd (kept.1 ▸ kept.2) (not_le.mpr old)
  rw [rank, gone]
  rfl

/-- Without the expired entries everybody else ranks as before. -/
theorem rank_prune_of_not_expired {pending : PendingPerson}
    (fresh : ¬ self.Expired config now pending) :
    (self.prunePersonHistory config now).rank pending = self.rank pending := by
  have same : (self.prunePersonHistory config now).personLastSelected.get?
      pending.message.personId = self.personLastSelected.get? pending.message.personId := by
    apply Option.ext
    intro time
    rw [prunePersonHistory_get?]
    exact and_iff_left_of_imp fun found => not_lt.mp fun old => fresh ⟨time, found, old⟩
  rw [rank, rank, same]

/-- Whoever ranks ahead of an expired person is expired or was never selected. -/
theorem rank_prune_of_lt_expired {ahead pending : PendingPerson}
    (expired : self.Expired config now pending) (before : self.rank ahead < self.rank pending) :
    (self.prunePersonHistory config now).rank ahead = toLex (⊥, ahead.sequenceNumber) := by
  by_cases also : self.Expired config now ahead
  · exact rank_prune_of_expired also
  · rw [rank_prune_of_not_expired also, rank]
    cases found : self.personLastSelected.get? ahead.message.personId with
    | none => rfl
    | some time =>
      obtain ⟨last, stored, old⟩ := expired
      have earlier : (time : WithBot Instant) ≤ last := by
        have ordered := (Prod.Lex.toLex_lt_toLex.mp before)
        simp only [found, stored] at ordered
        exact ordered.elim le_of_lt fun tie => tie.1.le
      have older : time ≤ last := WithBot.coe_le_coe.mp earlier
      have expired_also : self.Expired config now ahead :=
        ⟨time, found, old.trans_le (sub_le_sub_left older now)⟩
      exact absurd expired_also also

/-- Forgetting expired entries moves nobody back. -/
theorem rank_prune_le (pending : PendingPerson) :
    (self.prunePersonHistory config now).rank pending ≤ self.rank pending := by
  by_cases expired : self.Expired config now pending
  · rw [rank_prune_of_expired expired, rank, Prod.Lex.toLex_le_toLex]
    obtain ⟨time, found, _⟩ := expired
    rw [found]
    exact Or.inl (WithBot.bot_lt_coe time)
  · rw [rank_prune_of_not_expired expired]

/-- The selection is the one without expired entries exactly when nobody chosen ahead of an
expired person arrived after that person. -/
theorem selection_prune_eq_iff {window : PersonWindow} (formed : window.WellFormed)
    (order : Enumeration PendingPerson) :
    self.selection config window order =
        (self.prunePersonHistory config now).selection config window order ↔
      ∀ chosen ∈ self.selection config window order, ∀ pending ∈ window.pendingPeople.values,
        self.Expired config now pending → self.rank chosen < self.rank pending →
          chosen.sequenceNumber < pending.sequenceNumber := by
  have same := order.complete window.pendingPeople.values
  have nodup := same.nodup_iff.mpr formed.values_nodup
  have distinct (coordinator : BatchCoordinator) :
      ∀ a ∈ order.arrange window.pendingPeople.values,
        ∀ b ∈ order.arrange window.pendingPeople.values,
          coordinator.rank a = coordinator.rank b → a = b := by
    intro a inside b other tie
    exact coordinator.rank_injective formed a (same.mem_iff.mp inside) b
      (same.mem_iff.mp other) tie
  rw [selection, selection, choosePeopleToRun, choosePeopleToRun, take_sortByKey_eq_iff nodup
    (distinct self) (distinct (self.prunePersonHistory config now))]
  constructor
  · intro ahead chosen inside pending listed expired before
    have still := ahead chosen inside pending (same.mem_iff.mpr listed) before
    rw [rank_prune_of_expired expired, rank_prune_of_lt_expired expired before] at still
    exact (Prod.Lex.toLex_lt_toLex.mp still).elim (fun less => absurd less (lt_irrefl _))
      And.right
  · intro arrival chosen inside pending listed before
    by_cases expired : self.Expired config now pending
    · rw [rank_prune_of_expired expired, rank_prune_of_lt_expired expired before]
      have first := arrival chosen inside pending (same.mem_iff.mp listed) expired before
      exact Prod.Lex.toLex_lt_toLex.mpr (Or.inr ⟨rfl, first⟩)
    · rw [rank_prune_of_not_expired expired]
      exact (rank_prune_le chosen).trans_lt before

/-- An entry of a later state was written by a tick that submitted its person, or was there and
found fresh. -/
theorem step_get? (id : String) (time : Instant) (event : Event)
    (after : ((coordinator config).step self event).1.personLastSelected.get? id = some time) :
    ((∃ order, event = .tick time order) ∧ ∃ submission,
        ((coordinator config).step self event).2 = some submission ∧
          id ∈ submission.personIds) ∨ (self.personLastSelected.get? id = some time ∧
      ∀ now order, event = .tick now order →
        now - time ≤ config.ttl) := by
  cases event with
  | chores chores now =>
    refine Or.inr ⟨after, fun other order ticked => ?_⟩
    contradiction
  | person person now =>
    refine Or.inr ⟨after, fun other order ticked => ?_⟩
    contradiction
  | complete completion =>
    simp only [coordinator, onPersonComplete_get?] at after
    refine Or.inr ⟨after.1, fun other order ticked => ?_⟩
    contradiction
  | tick now order =>
    have outcome := self.flushWindowIfExpired_flushed config now order
    simp only [coordinator, expireStaleIfIdle] at after ⊢
    generalize self.flushWindowIfExpired config now order = flushed at outcome after ⊢
    rw [prunePersonHistory_get?] at after
    have fresh (other : Instant) (also : Enumeration PendingPerson)
        (this : Event.tick now order = .tick other also) :
        other - time ≤ config.ttl := by
      cases this
      exact after.2
    cases outcome with
    | waiting idle => exact Or.inr ⟨after.1, fresh⟩
    | dropped window due refused => exact Or.inr ⟨after.1, fresh⟩
    | accepted window chores due latest pending idle =>
      have entry := after.1
      rw [accepted_history] at entry
      split at entry
      · rename_i submitted
        have stamp : now = time := Option.some.inj entry
        rw [← submission_personIds config self chores window order] at submitted
        exact Or.inl ⟨⟨order, stamp ▸ rfl⟩, _, rfl, submitted⟩
      · exact Or.inr ⟨entry, fresh⟩

end BatchCoordinator

end Expiry

/-- A tick at the time submitted the person, and every tick since found the selection fresh. -/
def Standing (config : OrchestratorConfig) (events : List Event) (id : String)
    (time : Instant) : Prop :=
  Since
    (fun step => (∃ order, step.event = .tick time order) ∧
      ∃ submission, step.output = some submission ∧ id ∈ submission.personIds)
    (fun step => ∀ now order, step.event = .tick now order → now - time ≤ config.ttl)
    ((coordinator config).trace .new events)

/-- Every entry of a reachable history stands. -/
theorem history_standing (config : OrchestratorConfig) (events : List Event) (id : String)
    (time : Instant)
    (stored : ((coordinator config).run .new events).personLastSelected.get? id = some time) :
    Standing config events id time := by
  let recorded (self : BatchCoordinator) : Prop := self.personLastSelected.get? id = some time
  have absent : ¬ recorded .new := fun none => absurd none.symm (Option.some_ne_none time)
  exact (coordinator config).run_since (fun self event => self.step_get? id time event) absent
    events stored

section Flush

variable {config : OrchestratorConfig} {self : BatchCoordinator} {now : Instant}
  {order : Enumeration PendingPerson}

/-- What a tick submits is the selection of the window it closes. -/
theorem BatchCoordinator.people_of_expireStaleIfIdle {submission : Submission}
    (flushed : (self.expireStaleIfIdle config now order).2 = some submission) :
    ∃ window, self.currentWindow = some window ∧
      submission.people = (self.selection config window order).map PendingPerson.message := by
  have outcome := self.flushWindowIfExpired_flushed config now order
  simp only [expireStaleIfIdle] at flushed
  generalize self.flushWindowIfExpired config now order = result at outcome flushed
  cases outcome with
  | waiting idle => contradiction
  | dropped window due refused => contradiction
  | accepted window chores due latest pending idle =>
    have made : self.submission config chores window order = submission := Option.some.inj flushed
    exact ⟨window, due.opened, made ▸ rfl⟩

/-- Selections from one window are the same when their messages are. -/
theorem BatchCoordinator.messages_eq_iff {window : PersonWindow} (formed : window.WellFormed)
    (other : BatchCoordinator) :
    (self.selection config window order).map PendingPerson.message =
        (other.selection config window order).map PendingPerson.message ↔
      self.selection config window order = other.selection config window order :=
  map_inj_of_mem formed.message_injective (fun _ => mem_values_of_mem_selection)
    (fun _ => mem_values_of_mem_selection)

end Flush

end Rust

namespace Python

/-- Where the slice `items[:stop]` of so many items ends. -/
def stopAt (count : Nat) (stop : ℤ) : Nat :=
  if stop < 0 then (count + stop).toNat else stop.toNat

/-- A slice takes the items up to where it ends. -/
theorem sliceTo_eq_take {α : Type} (items : List α) (stop : ℤ) :
    sliceTo items stop = items.take (stopAt items.length stop) := by
  unfold sliceTo stopAt
  split <;> rfl

/-- The reading of a call that prunes. -/
def Event.pruning : Event → Option Monotonic
  | .complete _ _ now => some now
  | .prune now => some now
  | _ => none

section Expiry

variable {config : OrchestratorConfig} {self : BatchCoordinator} {window : PersonWindow}

/-- The last selection of a pending person is older than the time to live. -/
def BatchCoordinator.Expired (config : OrchestratorConfig) (self : BatchCoordinator)
    (now : Monotonic) (pending : PendingPerson) : Prop :=
  ∃ time, self.personLastSelected.get? pending.message.personId = some time ∧
    config.personLastSuccessTtlSeconds < now - time

namespace BatchCoordinator

/-- Without the expired entries an expired person ranks as never selected, at time zero. -/
theorem rank_prune_of_expired {now : Monotonic} {pending : PendingPerson}
    (expired : self.Expired config now pending) :
    (self.prunePersonHistoryLocked config now).rank pending =
      toLex (0, pending.sequenceNumber) := by
  obtain ⟨time, found, old⟩ := expired
  have gone : (self.prunePersonHistoryLocked config now).personLastSelected.get?
      pending.message.personId = none := by
    rw [Option.eq_none_iff_forall_ne_some]
    intro other kept
    rw [prunePersonHistoryLocked_get?, found, Option.some.injEq] at kept
    exact absurd (kept.1 ▸ kept.2) (not_le.mpr old)
  rw [rank, gone]
  rfl

/-- Without the expired entries everybody else ranks as before. -/
theorem rank_prune_of_not_expired {now : Monotonic} {pending : PendingPerson}
    (fresh : ¬ self.Expired config now pending) :
    (self.prunePersonHistoryLocked config now).rank pending = self.rank pending := by
  have same : (self.prunePersonHistoryLocked config now).personLastSelected.get?
      pending.message.personId = self.personLastSelected.get? pending.message.personId := by
    apply Option.ext
    intro time
    rw [prunePersonHistoryLocked_get?]
    exact and_iff_left_of_imp fun found => not_lt.mp fun old => fresh ⟨time, found, old⟩
  rw [rank, rank, same]

/-- The recorded times are those of a clock that starts at zero. -/
def Clocked (self : BatchCoordinator) : Prop :=
  ∀ id time, self.personLastSelected.get? id = some time → 0 ≤ time

/-- Whoever ranks ahead of an expired person is expired or was never selected. -/
theorem rank_prune_of_lt_expired {now : Monotonic}
    {ahead pending : PendingPerson} (expired : self.Expired config now pending)
    (before : self.rank ahead < self.rank pending) :
    (self.prunePersonHistoryLocked config now).rank ahead = toLex (0, ahead.sequenceNumber) := by
  by_cases also : self.Expired config now ahead
  · exact rank_prune_of_expired also
  · rw [rank_prune_of_not_expired also, rank]
    cases found : self.personLastSelected.get? ahead.message.personId with
    | none => rfl
    | some time =>
      obtain ⟨last, stored, old⟩ := expired
      have older : time ≤ last := by
        have ordered := Prod.Lex.toLex_lt_toLex.mp before
        simp only [found, stored, Option.getD_some] at ordered
        exact ordered.elim le_of_lt fun tie => tie.1.le
      have expired_also : self.Expired config now ahead :=
        ⟨time, found, old.trans_le (sub_le_sub_left older now)⟩
      exact absurd expired_also also

/-- With such a clock forgetting expired entries moves nobody back. -/
theorem rank_prune_le (clocked : self.Clocked) {now : Monotonic} (pending : PendingPerson) :
    (self.prunePersonHistoryLocked config now).rank pending ≤ self.rank pending := by
  by_cases expired : self.Expired config now pending
  · rw [rank_prune_of_expired expired, rank, Prod.Lex.toLex_le_toLex]
    obtain ⟨time, found, _⟩ := expired
    rw [found, Option.getD_some]
    cases (clocked _ time found).lt_or_eq with
    | inl later => exact Or.inl later
    | inr start => exact Or.inr ⟨start, le_refl _⟩
  · rw [rank_prune_of_not_expired expired]

/-- A selection is a front of the ranking. -/
theorem selection_eq_take (config : OrchestratorConfig) (self : BatchCoordinator)
    (window : PersonWindow) : self.selection config window =
      (sortByKey self.rank window.pendingPeople.values).take
        (stopAt window.pendingPeople.values.length config.maxActiveFilters) := by
  rw [selection, choosePeopleToRunLocked, sliceTo_eq_take, (sortByKey_perm _ _).length_eq]

/-- Only pending people are selected. -/
theorem mem_values_of_mem_selection {pending : PendingPerson}
    (chosen : pending ∈ self.selection config window) :
    pending ∈ window.pendingPeople.values := by
  rw [selection_eq_take] at chosen
  exact mem_of_mem_take_sortByKey chosen

/-- Two histories select alike from a window exactly when whoever a chosen person ranks ahead
of by the one stays behind by the other. -/
theorem selection_eq_iff (keyed : window.Keyed) (numbered : window.Numbered)
    (other : BatchCoordinator) :
    self.selection config window = other.selection config window ↔
      ∀ chosen ∈ self.selection config window, ∀ pending ∈ window.pendingPeople.values,
        self.rank chosen < self.rank pending → other.rank chosen < other.rank pending := by
  rw [selection_eq_take, selection_eq_take, take_sortByKey_eq_iff keyed.values_nodup
    (self.rank_injective numbered) (other.rank_injective numbered)]
  rfl

/-- The selection is the one without expired entries exactly when forgetting them puts no
expired person ahead of a chosen one, and no chosen person whose entry expired behind another. -/
theorem selection_prune_eq_iff (keyed : window.Keyed) (numbered : window.Numbered)
    (now : Monotonic) :
    self.selection config window =
        (self.prunePersonHistoryLocked config now).selection config window ↔
      ∀ chosen ∈ self.selection config window, ∀ pending ∈ window.pendingPeople.values,
        self.Expired config now chosen ∨ self.Expired config now pending →
          self.rank chosen < self.rank pending →
            (self.prunePersonHistoryLocked config now).rank chosen <
              (self.prunePersonHistoryLocked config now).rank pending := by
  rw [selection_eq_iff keyed numbered]
  constructor
  · exact fun ahead chosen inside pending listed _ => ahead chosen inside pending listed
  · intro ahead chosen inside pending listed before
    by_cases either : self.Expired config now chosen ∨ self.Expired config now pending
    · exact ahead chosen inside pending listed either before
    · rw [not_or] at either
      rw [rank_prune_of_not_expired either.1, rank_prune_of_not_expired either.2]
      exact before

/-- With a clock that starts at zero it is so exactly when nobody chosen ahead of an expired
person arrived after that person. -/
theorem selection_prune_eq_iff_of_clocked (keyed : window.Keyed) (numbered : window.Numbered)
    (clocked : self.Clocked) (now : Monotonic) :
    self.selection config window =
        (self.prunePersonHistoryLocked config now).selection config window ↔
      ∀ chosen ∈ self.selection config window, ∀ pending ∈ window.pendingPeople.values,
        self.Expired config now pending → self.rank chosen < self.rank pending →
          chosen.sequenceNumber < pending.sequenceNumber := by
  rw [selection_prune_eq_iff keyed numbered]
  constructor
  · intro ahead chosen inside pending listed expired before
    have still := ahead chosen inside pending listed (Or.inr expired) before
    rw [rank_prune_of_expired expired, rank_prune_of_lt_expired expired before] at still
    exact (Prod.Lex.toLex_lt_toLex.mp still).elim (fun less => absurd less (lt_irrefl _))
      And.right
  · intro arrival chosen inside pending listed _ before
    by_cases expired : self.Expired config now pending
    · rw [rank_prune_of_expired expired, rank_prune_of_lt_expired expired before]
      have first := arrival chosen inside pending listed expired before
      exact Prod.Lex.toLex_lt_toLex.mpr (Or.inr ⟨rfl, first⟩)
    · rw [rank_prune_of_not_expired expired]
      exact (rank_prune_le clocked chosen).trans_lt before

/-- Selections from one window are the same when their messages are. -/
theorem messages_eq_iff (keyed : window.Keyed) (other : BatchCoordinator) :
    (self.selection config window).map PendingPerson.message =
        (other.selection config window).map PendingPerson.message ↔
      self.selection config window = other.selection config window :=
  map_inj_of_mem keyed.message_injective (fun _ => mem_values_of_mem_selection)
    (fun _ => mem_values_of_mem_selection)

/-- What a flush submits is the selection of the window it closes. -/
theorem people_of_flushCurrentWindow {now : Monotonic} {submission : Submission}
    (flushed : (self.flushCurrentWindow config now).2 = some submission) :
    ∃ window, self.currentWindow = some window ∧
      submission.people = (self.selection config window).map PendingPerson.message := by
  have outcome := self.flushCurrentWindow_flushed config now
  generalize self.flushCurrentWindow config now = result at outcome flushed
  cases outcome with
  | absent closed => contradiction
  | dropped window opened refused => contradiction
  | accepted window chores opened latest pending idle =>
    have made : self.submission config chores window = submission := Option.some.inj flushed
    exact ⟨window, opened, made ▸ rfl⟩

/-- A received person leaves the history alone. -/
theorem receivePerson_personLastSelected (self : BatchCoordinator) (config : OrchestratorConfig)
    (person : PersonAvailability) (now : Monotonic) (ident : Nat) (started : Bool) :
    (self.receivePerson config person now ident started).1.personLastSelected =
      self.personLastSelected := by
  unfold receivePerson
  split
  · rfl
  · split <;> rfl

/-- An entry of a later state was written by a flush that submitted its person, or was there and
found fresh. -/
theorem step_get? (id : String) (time : Monotonic) (event : Event)
    (after : ((coordinator config).step self event).1.personLastSelected.get? id = some time) :
    (event = .flush time ∧ ∃ submission,
        ((coordinator config).step self event).2 = some submission ∧
          id ∈ submission.personIds) ∨ (self.personLastSelected.get? id = some time ∧
      ∀ now, event.pruning = some now → now - time ≤ config.personLastSuccessTtlSeconds) := by
  have unpruned {event : Event} (never : event.pruning = none) (now : Monotonic)
      (reading : event.pruning = some now) : now - time ≤ config.personLastSuccessTtlSeconds :=
    absurd (reading.symm.trans never) (Option.some_ne_none now)
  cases event with
  | chores chores now => exact Or.inr ⟨after, unpruned rfl⟩
  | person person now ident started =>
    simp only [coordinator, receivePerson_personLastSelected] at after
    exact Or.inr ⟨after, unpruned rfl⟩
  | flush now =>
    have outcome := self.flushCurrentWindow_flushed config now
    simp only [coordinator] at after ⊢
    generalize self.flushCurrentWindow config now = result at outcome after ⊢
    cases outcome with
    | absent closed => exact Or.inr ⟨after, unpruned rfl⟩
    | dropped window opened refused => exact Or.inr ⟨after, unpruned rfl⟩
    | accepted window chores opened latest pending idle =>
      rw [accepted_history] at after
      split at after
      · rename_i submitted
        rw [← submission_personIds config self chores window] at submitted
        exact Or.inl ⟨congrArg Event.flush (Option.some.inj after), _, rfl, submitted⟩
      · exact Or.inr ⟨after, unpruned rfl⟩
  | complete person succeeded now =>
    simp only [coordinator, onPersonComplete_get?] at after
    exact Or.inr ⟨after.1, fun other reading => Option.some.inj reading ▸ after.2.2⟩
  | prune now =>
    simp only [coordinator, expireStaleIfIdle] at after
    rw [prunePersonHistoryLocked_get?] at after
    exact Or.inr ⟨after.1, fun other reading => Option.some.inj reading ▸ after.2⟩

end BatchCoordinator

end Expiry

/-- A flush at the time submitted the person, and every prune since found the selection
fresh. -/
def Standing (config : OrchestratorConfig) (events : List Event) (id : String)
    (time : Monotonic) : Prop :=
  Since
    (fun step => step.event = .flush time ∧
      ∃ submission, step.output = some submission ∧ id ∈ submission.personIds)
    (fun step => ∀ now, step.event.pruning = some now →
      now - time ≤ config.personLastSuccessTtlSeconds)
    ((coordinator config).trace .new events)

/-- Every entry of a reachable history stands. -/
theorem history_standing (config : OrchestratorConfig) (events : List Event) (id : String)
    (time : Monotonic)
    (stored : ((coordinator config).run .new events).personLastSelected.get? id = some time) :
    Standing config events id time := by
  let recorded (self : BatchCoordinator) : Prop := self.personLastSelected.get? id = some time
  have absent : ¬ recorded .new := fun none => absurd none.symm (Option.some_ne_none time)
  exact (coordinator config).run_since (fun self event => self.step_get? id time event) absent
    events stored

end Python

/-- In both languages the list passed to `submit_window` is selected by the history as the
prunes so far have left it: every entry stands since the flush that submitted its person, expired
or not. It is the list selected without the entries expired at the flush exactly when nobody
chosen ahead of an expired person arrived after that person; in Python this takes recorded times
that are not negative, and for any times it is so exactly when whoever a chosen person ranks
ahead of stays behind where an entry of the two has expired and counts as zero. -/
theorem expired_entries_count_until_pruned :
    (∀ (config : Rust.OrchestratorConfig) (events : List Rust.Event) (now : Rust.Instant)
        (order : Enumeration Rust.PendingPerson) (submission : Submission),
      let self := (Rust.coordinator config).run .new events
      let pruned := self.prunePersonHistory config now
      (self.expireStaleIfIdle config now order).2 = some submission →
        (∀ id time, self.personLastSelected.get? id = some time →
          Rust.Standing config events id time) ∧
        ∃ window, self.currentWindow = some window ∧
          submission.people =
            (self.selection config window order).map Rust.PendingPerson.message ∧
          (submission.people =
              (pruned.selection config window order).map Rust.PendingPerson.message ↔
            ∀ chosen ∈ self.selection config window order,
              ∀ pending ∈ window.pendingPeople.values, self.Expired config now pending →
                self.rank chosen < self.rank pending →
                  chosen.sequenceNumber < pending.sequenceNumber)) ∧
    ∀ (config : Python.OrchestratorConfig) (events : List Python.Event) (now : Python.Monotonic)
        (submission : Submission),
      let self := (Python.coordinator config).run .new events
      let pruned := self.prunePersonHistoryLocked config now
      (self.flushCurrentWindow config now).2 = some submission →
        (∀ id time, self.personLastSelected.get? id = some time →
          Python.Standing config events id time) ∧
        ∃ window, self.currentWindow = some window ∧
          submission.people =
            (self.selection config window).map Python.PendingPerson.message ∧
          (submission.people =
              (pruned.selection config window).map Python.PendingPerson.message ↔
            ∀ chosen ∈ self.selection config window,
              ∀ pending ∈ window.pendingPeople.values,
                self.Expired config now chosen ∨ self.Expired config now pending →
                  self.rank chosen < self.rank pending →
                    pruned.rank chosen < pruned.rank pending) ∧
          (self.Clocked →
            (submission.people =
                (pruned.selection config window).map Python.PendingPerson.message ↔
              ∀ chosen ∈ self.selection config window,
                ∀ pending ∈ window.pendingPeople.values, self.Expired config now pending →
                  self.rank chosen < self.rank pending →
                    chosen.sequenceNumber < pending.sequenceNumber)) := by
  constructor
  · intro config events now order submission self pruned flushed
    obtain ⟨window, opened, people⟩ := Rust.BatchCoordinator.people_of_expireStaleIfIdle flushed
    have formed := (Rust.run_wellFormed config events window opened).1
    refine ⟨Rust.history_standing config events, window, opened, people, ?_⟩
    rw [people, Rust.BatchCoordinator.messages_eq_iff formed,
      Rust.BatchCoordinator.selection_prune_eq_iff formed]
  · intro config events now submission self pruned flushed
    obtain ⟨window, opened, people⟩ := Python.BatchCoordinator.people_of_flushCurrentWindow flushed
    have keyed := Python.run_keyed config events window opened
    have numbered := Python.run_numbered config events window opened
    refine ⟨Python.history_standing config events, window, opened, people, ?_, ?_⟩
    · rw [people, Python.BatchCoordinator.messages_eq_iff keyed,
        Python.BatchCoordinator.selection_prune_eq_iff keyed numbered]
    · intro clocked
      rw [people, Python.BatchCoordinator.messages_eq_iff keyed,
        Python.BatchCoordinator.selection_prune_eq_iff_of_clocked keyed numbered clocked]

section Returning

/-- One place, a window of a second and ten seconds of history in Rust. -/
def rustTenSeconds : Rust.OrchestratorConfig := ⟨1, 1, 10, by decide, by decide⟩

/-- One place, a window of a second and ten seconds of history in Python. -/
def pythonTenSeconds : Python.OrchestratorConfig := ⟨1, 1, 10⟩

/-- Amy, selected at one second, comes back and Bob comes for the first time; the last tick
finds her selection ten seconds old. -/
def rustReturning : List Rust.Event :=
  [.chores {} 0, .person { personId := "amy" } 0, .tick 1 (.stored _),
    .complete ⟨"amy", true⟩, .person { personId := "amy" } (101 / 10),
    .person { personId := "bob" } (101 / 10), .tick 11 (.stored _)]

/-- The same in Python, where the last prune finds the selection ten seconds old. -/
def pythonReturning : List Python.Event :=
  [.chores {} 0, .person { personId := "amy" } 0 0 true, .flush 1,
    .complete { personId := "amy" } true 2, .person { personId := "amy" } (101 / 10) 1 true,
    .person { personId := "bob" } (101 / 10) 2 true, .prune 11]

/-- The window with Bob alone selected. -/
def bobAlone : Submission := { chores := {}, people := [{ personId := "bob" }] }

/-- At the flush Amy's entry is older than ten seconds and stands in both languages. -/
theorem expired_entries_count_until_pruned_returning :
    Rust.Standing rustTenSeconds rustReturning "amy" 1 ∧
      Python.Standing pythonTenSeconds pythonReturning "amy" 1 :=
  ⟨(expired_entries_count_until_pruned.1 rustTenSeconds rustReturning (111 / 10) (.stored _)
      bobAlone (by decide +kernel)).1 "amy" 1 (by decide +kernel),
    (expired_entries_count_until_pruned.2 pythonTenSeconds pythonReturning (111 / 10)
      bobAlone (by decide +kernel)).1 "amy" 1 (by decide +kernel)⟩

/-- The flush submits Bob, who was never selected; without Amy's expired entry it would be
Amy, who arrived first. -/
theorem expired_entry_ranks :
    let rust := (Rust.coordinator rustTenSeconds).run .new rustReturning
    let python := (Python.coordinator pythonTenSeconds).run .new pythonReturning
    ((rust.expireStaleIfIdle rustTenSeconds (111 / 10) (.stored _)).2.map Submission.personIds =
        some ["bob"] ∧
      rust.currentWindow.map (fun window =>
        ((rust.prunePersonHistory rustTenSeconds (111 / 10)).selection rustTenSeconds window
          (.stored _)).map fun pending => pending.message.personId) = some ["amy"]) ∧
    (python.flushCurrentWindow pythonTenSeconds (111 / 10)).2.map Submission.personIds =
        some ["bob"] ∧
      python.currentWindow.map (fun window =>
        ((python.prunePersonHistoryLocked pythonTenSeconds (111 / 10)).selection
          pythonTenSeconds window).map fun pending => pending.message.personId) =
        some ["amy"] := by
  decide +kernel

end Returning

end BossWorker
