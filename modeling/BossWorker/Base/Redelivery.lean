import BossWorker.Base.Broker
import BossWorker.Base.Positions

/-!
# How often a broker delivers a message

While its messages are told apart, a broker never has one in two places: ready twice, ready
and delivered, or delivered to two consumers. So it delivers a message again only after the
message has become ready again, and deliveries and returns of a message can be counted off
against each other.
-/

namespace BossWorker.Broker

variable {κ α : Type} [DecidableEq κ]

/-- One act of a broker, with the message that it delivers. -/
inductive Move (broker : Broker κ α) : Broker κ α → Option α → Prop where
  /-- Nothing happens. -/
  | kept : Move broker broker none
  /-- A ready message is delivered. -/
  | delivered (consumer : κ) (position : Nat) (after : Broker κ α) (message : α)
      (given : broker.deliver consumer position = (after, some message)) :
      Move broker after (some message)
  /-- A delivery is settled. -/
  | settled (consumer : κ) : Move broker (broker.settle consumer) none
  /-- A delivery is given back. -/
  | requeued (consumer : κ) (position : Nat) : Move broker (broker.requeue consumer position) none

/-- Every message is in at most one place. -/
structure Exclusive (broker : Broker κ α) : Prop where
  /-- No message is ready twice. -/
  distinct : broker.ready.Nodup
  /-- No message is ready and delivered. -/
  apart : ∀ consumer message, broker.unacked.get? consumer = some message →
    message ∉ broker.ready
  /-- No message is delivered to two consumers. -/
  sole : ∀ first second message, broker.unacked.get? first = some message →
    broker.unacked.get? second = some message → first = second

/-- The message has become ready. -/
def Returned (before after : Broker κ α) (message : α) : Prop :=
  message ∉ before.ready ∧ message ∈ after.ready

instance [DecidableEq α] (before after : Broker κ α) (message : α) :
    Decidable (Returned before after message) :=
  inferInstanceAs (Decidable (_ ∧ _))

section Moves

variable {broker after : Broker κ α} {output : Option α} {consumer : κ} {position : Nat}
  {message : α}

/-- Distinct messages that are all ready are in one place each. -/
theorem exclusive_filled {messages : List α} (distinct : messages.Nodup) :
    (filled messages : Broker κ α).Exclusive where
  distinct := distinct
  apart consumer message taken := by
    rw [filled, Dict.get?_empty] at taken
    contradiction
  sole first second message taken _ := by
    rw [filled, Dict.get?_empty] at taken
    contradiction

/-- What is ready after a delivery was ready and is not the message delivered. -/
theorem mem_ready_of_deliver (exclusive : broker.Exclusive) {delivered : α}
    (given : broker.deliver consumer position = (after, some delivered)) :
    message ∈ after.ready ↔ message ≠ delivered ∧ message ∈ broker.ready := by
  obtain ⟨_, there, rfl⟩ := deliver_eq_some given
  have whole := cons_eraseIdx_perm there
  have distinct := whole.nodup_iff.mpr exclusive.distinct
  have gone : delivered ∉ broker.ready.eraseIdx position := (List.nodup_cons.mp distinct).1
  have same : message ∈ delivered :: broker.ready.eraseIdx position ↔ message ∈ broker.ready :=
    whole.mem_iff
  rw [List.mem_cons] at same
  constructor
  · intro left
    have other : message ≠ delivered := by
      intro equal
      rw [equal] at left
      exact gone left
    exact ⟨other, same.mp (Or.inr left)⟩
  · intro ready
    exact (same.mpr ready.2).resolve_left ready.1

/-- What is ready after a requeue was ready or is the delivery of the consumer. -/
theorem mem_ready_requeue {delivered : α}
    (mine : broker.unacked.get? consumer = some delivered) :
    message ∈ (broker.requeue consumer position).ready ↔
      message = delivered ∨ message ∈ broker.ready := by
  rw [requeue, mine]
  exact mem_take_append_drop broker.ready delivered

/-- A requeue without a delivery changes nothing. -/
theorem requeue_of_idle (idle : broker.unacked.get? consumer = none) (position : Nat) :
    broker.requeue consumer position = broker := by
  rw [requeue, idle]

/-- A delivery keeps every message in one place. -/
theorem Exclusive.deliver (exclusive : broker.Exclusive) {delivered : α}
    (given : broker.deliver consumer position = (after, some delivered)) :
    after.Exclusive := by
  have places (message : α) : message ∈ after.ready ↔
      message ≠ delivered ∧ message ∈ broker.ready := mem_ready_of_deliver exclusive given
  obtain ⟨idle, there, rfl⟩ := deliver_eq_some given
  have held := List.mem_of_getElem? there
  constructor
  · exact exclusive.distinct.eraseIdx position
  · intro other message taken ready
    have before := (places message).mp ready
    rw [Dict.get?_insert] at taken
    by_cases own : other = consumer
    · rw [if_pos own] at taken
      exact before.1 (Option.some.inj taken).symm
    · rw [if_neg own] at taken
      exact exclusive.apart other message taken before.2
  · intro first second message taken also
    rw [Dict.get?_insert] at taken also
    -- the delivered message was ready, so nobody else has it
    have nobody (other : κ) : broker.unacked.get? other ≠ some delivered := fun has =>
      exclusive.apart other delivered has held
    by_cases own : first = consumer
    · rw [if_pos own] at taken
      by_cases too : second = consumer
      · rw [own, too]
      · rw [if_neg too, ← taken] at also
        exact absurd also (nobody second)
    · rw [if_neg own] at taken
      by_cases too : second = consumer
      · rw [if_pos too] at also
        rw [← also] at taken
        exact absurd taken (nobody first)
      · rw [if_neg too] at also
        exact exclusive.sole first second message taken also

/-- A requeue keeps every message in one place. -/
theorem Exclusive.requeue (exclusive : broker.Exclusive) (consumer : κ) (position : Nat) :
    (broker.requeue consumer position).Exclusive := by
  cases mine : broker.unacked.get? consumer with
  | none =>
    rw [requeue_of_idle mine]
    exact exclusive
  | some delivered =>
    have fresh := exclusive.apart consumer delivered mine
    have listed : (broker.requeue consumer position).ready =
        broker.ready.take position ++ delivered :: broker.ready.drop position := by
      rw [Broker.requeue, mine]
    constructor
    · have order : (broker.requeue consumer position).ready.Perm (delivered :: broker.ready) := by
        rw [listed]
        apply List.perm_middle.trans
        rw [List.take_append_drop]
      exact order.nodup_iff.mpr (List.nodup_cons.mpr ⟨fresh, exclusive.distinct⟩)
    · intro other message taken ready
      rw [get?_unacked_requeue] at taken
      by_cases own : other = consumer
      · rw [if_pos own] at taken
        contradiction
      · rw [if_neg own] at taken
        cases (mem_ready_requeue mine).mp ready with
        | inl same =>
          rw [same] at taken
          exact own (exclusive.sole other consumer delivered taken mine)
        | inr still => exact exclusive.apart other message taken still
    · intro first second message taken also
      rw [get?_unacked_requeue] at taken also
      by_cases own : first = consumer
      · rw [if_pos own] at taken
        contradiction
      · by_cases too : second = consumer
        · rw [if_pos too] at also
          contradiction
        · rw [if_neg own] at taken
          rw [if_neg too] at also
          exact exclusive.sole first second message taken also

/-- A message in one place stays in one place. -/
theorem Exclusive.move (exclusive : broker.Exclusive) (move : Move broker after output) :
    after.Exclusive := by
  cases move with
  | kept => exact exclusive
  | delivered consumer position after message given => exact exclusive.deliver given
  | requeued consumer position => exact exclusive.requeue consumer position
  | settled consumer =>
    constructor
    · exact exclusive.distinct
    · intro other message taken
      exact exclusive.apart other message (get?_erase_eq_some_iff.mp taken).2
    · intro first second message taken also
      exact exclusive.sole first second message (get?_erase_eq_some_iff.mp taken).2
        (get?_erase_eq_some_iff.mp also).2

section Balance

variable [DecidableEq α]

/-- What is ready or has just been delivered was ready or has just been given back. -/
theorem Move.balance (exclusive : broker.Exclusive) (move : Move broker after output)
    (message : α) :
    (if message ∈ after.ready then 1 else 0) + (if output = some message then 1 else 0) =
      (if message ∈ broker.ready then 1 else 0) +
        if Returned broker after message then 1 else 0 := by
  cases move with
  | kept =>
    have still : ¬ Returned broker broker message := fun returned => returned.1 returned.2
    rw [if_neg still]
    rfl
  | settled consumer =>
    have still : ¬ Returned broker (broker.settle consumer) message :=
      fun returned => returned.1 returned.2
    rw [if_neg still]
    rfl
  | delivered consumer position after delivered given =>
    have places : message ∈ after.ready ↔ message ≠ delivered ∧ message ∈ broker.ready :=
      mem_ready_of_deliver exclusive given
    have held : delivered ∈ broker.ready :=
      List.mem_of_getElem? (deliver_eq_some given).2.1
    have still : ¬ Returned broker after message :=
      fun returned => returned.1 (places.mp returned.2).2
    rw [if_neg still]
    by_cases same : message = delivered
    · have gone : message ∉ after.ready := fun ready => (places.mp ready).1 same
      rw [if_neg gone, same, if_pos rfl, if_pos held]
    · have other : ¬ some delivered = some message := fun equal =>
        same (Option.some.inj equal).symm
      have ready : message ∈ after.ready ↔ message ∈ broker.ready :=
        ⟨fun left => (places.mp left).2, fun right => places.mpr ⟨same, right⟩⟩
      rw [if_neg other]
      simp only [ready]
  | requeued consumer position =>
    have quiet : ¬ none = some message := fun equal => Option.some_ne_none _ equal.symm
    rw [if_neg quiet]
    cases mine : broker.unacked.get? consumer with
    | none =>
      rw [requeue_of_idle mine]
      have still : ¬ Returned broker broker message := fun returned => returned.1 returned.2
      rw [if_neg still]
    | some delivered =>
      have places : message ∈ (broker.requeue consumer position).ready ↔
          message = delivered ∨ message ∈ broker.ready := mem_ready_requeue mine
      by_cases same : message = delivered
      · have fresh : message ∉ broker.ready := by
          rw [same]
          exact exclusive.apart consumer delivered mine
        have ready : message ∈ (broker.requeue consumer position).ready :=
          places.mpr (Or.inl same)
        rw [if_pos ready, if_neg fresh, if_pos ⟨fresh, ready⟩]
      · have ready : message ∈ (broker.requeue consumer position).ready ↔
            message ∈ broker.ready :=
          ⟨fun left => (places.mp left).resolve_left same, fun right => places.mpr (Or.inr right)⟩
        have still : ¬ Returned broker (broker.requeue consumer position) message :=
          fun returned => returned.1 (ready.mp returned.2)
        rw [if_neg still]
        simp only [ready]

end Balance

end Moves

end BossWorker.Broker
