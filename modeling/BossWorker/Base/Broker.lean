import BossWorker.Base.Dict

/-!
# A queue with acknowledgements

A broker hands each consumer one message at a time and keeps it until the consumer settles
it; a message that is given back, or whose consumer is gone, is ready again. So a message is
forgotten only by being settled, and if consumers settle only what has been served, every
message is held or served at any time.
-/

namespace BossWorker

/-- Messages that are ready, in order, and the unsettled delivery of each consumer. -/
structure Broker (κ α : Type) where
  ready : List α
  unacked : Dict κ α
  deriving DecidableEq

namespace Broker

variable {κ α : Type} [DecidableEq κ]

/-- The message is ready, or delivered to somebody who has not settled it. -/
def Holds (broker : Broker κ α) (message : α) : Prop :=
  message ∈ broker.ready ∨ ∃ consumer, broker.unacked.get? consumer = some message

/-- A broker with all messages ready. -/
def filled (messages : List α) : Broker κ α := ⟨messages, Dict.empty⟩

/-- A consumer without an unsettled delivery is given the ready message at a position. -/
def deliver (broker : Broker κ α) (consumer : κ) (position : Nat) :
    Broker κ α × Option α :=
  match broker.unacked.get? consumer, broker.ready[position]? with
  | none, some message =>
    ({ ready := broker.ready.eraseIdx position
       unacked := broker.unacked.insert consumer message }, some message)
  | _, _ => (broker, none)

/-- The delivery of a consumer is done with. -/
def settle (broker : Broker κ α) (consumer : κ) : Broker κ α :=
  { broker with unacked := broker.unacked.erase consumer }

/-- The delivery of a consumer is ready again, at a position. -/
def requeue (broker : Broker κ α) (consumer : κ) (position : Nat) : Broker κ α :=
  match broker.unacked.get? consumer with
  | some message =>
    { ready := broker.ready.take position ++ message :: broker.ready.drop position
      unacked := broker.unacked.erase consumer }
  | none => broker

section Holding

variable {broker after : Broker κ α} {consumer : κ} {position : Nat} {message : α}

/-- A filled broker holds its messages. -/
theorem holds_filled_iff {messages : List α} :
    (filled messages : Broker κ α).Holds message ↔ message ∈ messages := by
  simp [Holds, filled]

/-- A delivery is a ready message that becomes unsettled. -/
theorem deliver_eq_some (given : broker.deliver consumer position = (after, some message)) :
    broker.unacked.get? consumer = none ∧ broker.ready[position]? = some message ∧
      after = ⟨broker.ready.eraseIdx position, broker.unacked.insert consumer message⟩ := by
  unfold deliver at given
  cases idle : broker.unacked.get? consumer with
  | some earlier =>
    rw [idle] at given
    cases given
  | none =>
    cases there : broker.ready[position]? with
    | none =>
      rw [idle, there] at given
      cases given
    | some found =>
      rw [idle, there] at given
      cases given
      exact ⟨rfl, rfl, rfl⟩

/-- A delivery keeps every message. -/
theorem holds_deliver_iff {delivered : α}
    (given : broker.deliver consumer position = (after, some delivered)) :
    after.Holds message ↔ broker.Holds message := by
  obtain ⟨idle, there, rfl⟩ := deliver_eq_some given
  constructor
  · intro held
    cases held with
    | inl still => exact Or.inl (List.mem_of_mem_eraseIdx still)
    | inr taken =>
      obtain ⟨other, has⟩ := taken
      rw [Dict.get?_insert] at has
      by_cases own : other = consumer
      · rw [if_pos own] at has
        rw [← Option.some.inj has]
        exact Or.inl (List.mem_of_getElem? there)
      · rw [if_neg own] at has
        exact Or.inr ⟨other, has⟩
  · intro held
    cases held with
    | inl before =>
      obtain ⟨index, found⟩ := List.mem_iff_getElem?.mp before
      by_cases same : index = position
      · rw [same, there] at found
        refine Or.inr ⟨consumer, ?_⟩
        rw [Dict.get?_insert, if_pos rfl, found]
      · exact Or.inl (List.mem_eraseIdx_iff_getElem?.mpr ⟨index, same, found⟩)
    | inr taken =>
      obtain ⟨other, has⟩ := taken
      have apart : other ≠ consumer := by
        intro same
        rw [same, idle] at has
        contradiction
      refine Or.inr ⟨other, ?_⟩
      rw [Dict.get?_insert, if_neg apart, has]

/-- Removing the delivery of a consumer leaves it to nobody else. -/
theorem get?_erase_eq_some_iff {other : κ} :
    (broker.unacked.erase consumer).get? other = some message ↔
      other ≠ consumer ∧ broker.unacked.get? other = some message := by
  rw [Dict.get?_erase]
  by_cases same : other = consumer
  · simp [same]
  · simp [same]

/-- Settling forgets at most the message delivered to the consumer. -/
theorem holds_settle (held : broker.Holds message) :
    broker.unacked.get? consumer = some message ∨ (broker.settle consumer).Holds message := by
  cases held with
  | inl still => exact Or.inr (Or.inl still)
  | inr taken =>
    obtain ⟨other, has⟩ := taken
    by_cases own : other = consumer
    · rw [own] at has
      exact Or.inl has
    · exact Or.inr (Or.inr ⟨other, get?_erase_eq_some_iff.mpr ⟨own, has⟩⟩)

/-- Settling adds no message. -/
theorem holds_of_settle (held : (broker.settle consumer).Holds message) :
    broker.Holds message := by
  cases held with
  | inl still => exact Or.inl still
  | inr taken =>
    obtain ⟨other, has⟩ := taken
    exact Or.inr ⟨other, (get?_erase_eq_some_iff.mp has).2⟩

/-- A list with an element put in at a position. -/
theorem mem_take_append_drop (entries : List α) (entry : α) :
    message ∈ entries.take position ++ entry :: entries.drop position ↔
      message = entry ∨ message ∈ entries := by
  have whole : message ∈ entries ↔
      message ∈ entries.take position ∨ message ∈ entries.drop position := by
    rw [← List.mem_append, List.take_append_drop]
  rw [List.mem_append, List.mem_cons, whole]
  exact or_left_comm

/-- Requeueing keeps every message. -/
theorem holds_requeue_iff :
    (broker.requeue consumer position).Holds message ↔ broker.Holds message := by
  unfold requeue
  cases mine : broker.unacked.get? consumer with
  | none => exact Iff.rfl
  | some delivery =>
    simp only [Holds, mem_take_append_drop, get?_erase_eq_some_iff]
    constructor
    · intro held
      rcases held with (rfl | still) | ⟨other, _, has⟩
      · exact Or.inr ⟨consumer, mine⟩
      · exact Or.inl still
      · exact Or.inr ⟨other, has⟩
    · intro held
      rcases held with still | ⟨other, has⟩
      · exact Or.inl (Or.inr still)
      · by_cases own : other = consumer
        · rw [own, mine] at has
          exact Or.inl (Or.inl (Option.some.inj has).symm)
        · exact Or.inr ⟨other, own, has⟩

end Holding

section Lookup

variable (broker : Broker κ α) (consumer other : κ) (position : Nat)

/-- Settling ends the delivery of its own consumer only. -/
@[simp] theorem get?_unacked_settle : (broker.settle consumer).unacked.get? other =
    if other = consumer then none else broker.unacked.get? other :=
  Dict.get?_erase broker.unacked consumer other

/-- Requeueing ends the delivery of its own consumer only. -/
@[simp] theorem get?_unacked_requeue : (broker.requeue consumer position).unacked.get? other =
    if other = consumer then none else broker.unacked.get? other := by
  unfold requeue
  cases mine : broker.unacked.get? consumer with
  | some message => exact Dict.get?_erase broker.unacked consumer other
  | none =>
    by_cases same : other = consumer
    · rw [if_pos same, same]
      exact mine
    · rw [if_neg same]

end Lookup

/-- Every message is held or served, and no other message is held. -/
structure AtLeastOnce (messages : List α) (served : α → Prop) (broker : Broker κ α) :
    Prop where
  /-- No message is forgotten before it is served. -/
  kept : ∀ message ∈ messages, broker.Holds message ∨ served message
  /-- What is held is one of the messages. -/
  own : ∀ message, broker.Holds message → message ∈ messages

namespace AtLeastOnce

variable {messages : List α} {served : α → Prop} {broker after : Broker κ α} {consumer : κ}
  {position : Nat}

/-- At first every message is held. -/
theorem start : AtLeastOnce messages served (filled messages : Broker κ α) where
  kept _ member := Or.inl (holds_filled_iff.mpr member)
  own _ held := holds_filled_iff.mp held

/-- What has been served stays served. -/
theorem mono (safe : AtLeastOnce messages served broker) {more : α → Prop}
    (still : ∀ message, served message → more message) :
    AtLeastOnce messages more broker where
  kept message member := (safe.kept message member).imp_right (still message)
  own := safe.own

/-- A delivery loses nothing. -/
theorem deliver (safe : AtLeastOnce messages served broker) {message : α}
    (given : broker.deliver consumer position = (after, some message)) :
    AtLeastOnce messages served after where
  kept message member := (safe.kept message member).imp_left (holds_deliver_iff given).mpr
  own message held := safe.own message ((holds_deliver_iff given).mp held)

/-- Requeueing loses nothing. -/
theorem requeue (safe : AtLeastOnce messages served broker) (consumer : κ) (position : Nat) :
    AtLeastOnce messages served (broker.requeue consumer position) where
  kept message member := (safe.kept message member).imp_left holds_requeue_iff.mpr
  own message held := safe.own message (holds_requeue_iff.mp held)

/-- Settling a served delivery loses nothing. -/
theorem settle (safe : AtLeastOnce messages served broker) (consumer : κ)
    (done : ∀ message, broker.unacked.get? consumer = some message → served message) :
    AtLeastOnce messages served (broker.settle consumer) where
  kept message member := by
    cases safe.kept message member with
    | inl held =>
      cases holds_settle held with
      | inl delivered => exact Or.inr (done message delivered)
      | inr still => exact Or.inl still
    | inr served => exact Or.inr served
  own message held := safe.own message (holds_of_settle held)

end AtLeastOnce

end Broker

end BossWorker
