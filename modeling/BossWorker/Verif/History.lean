import BossWorker.Verif.Accounting

/-!
# The selection history is exact

An entry of `person_last_selected` stands for one call: the latest one that submitted the
person. It goes when that very selection is reported failed or when a prune finds it older
than the time to live, and in no other way. Completions name a person and no call, so a
late failure could erase a newer selection; it cannot, because every completion in the
queue belongs to the most recent call.
-/

namespace BossWorker.Rust

/-- Nothing in the later part of a log erases or replaces the entry that the call of a
given number wrote for a person at a given time. -/
structure Intact (config : OrchestratorConfig) (batch : Nat) (id : String) (time : Instant)
    (later : List Observation) : Prop where
  /-- No later call submits the person. -/
  latest : ∀ now submission, .submitted now submission ∈ later → id ∉ submission.personIds
  /-- The completion of this selection was not consumed as failed. -/
  succeeded : ∀ delivery, .consumed delivery ∈ later → delivery.batch = batch →
    delivery.completion.personId = id → delivery.completion.succeeded = true
  /-- No prune found the entry too old. -/
  fresh : ∀ now, .pruned now ∈ later → now - time ≤ config.ttl

/-- The log ends with a selection of the person at the time that nothing has erased. -/
def Recorded (config : OrchestratorConfig) (log : List Observation) (id : String)
    (time : Instant) : Prop :=
  ∃ earlier submission later, log = earlier ++ .submitted time submission :: later ∧
    id ∈ submission.personIds ∧ Intact config (submissions earlier).length id time later

section Recorded

variable {config : OrchestratorConfig} {log : List Observation} {id : String} {time : Instant}

/-- Two later parts leave an entry alone exactly when each does. -/
theorem intact_append (batch : Nat) (first second : List Observation) :
    Intact config batch id time (first ++ second) ↔
      Intact config batch id time first ∧ Intact config batch id time second := by
  constructor
  · intro whole
    refine ⟨⟨?_, ?_, ?_⟩, ⟨?_, ?_, ?_⟩⟩
    · exact fun now submission member =>
        whole.latest now submission (List.mem_append_left _ member)
    · exact fun delivery member => whole.succeeded delivery (List.mem_append_left _ member)
    · exact fun now member => whole.fresh now (List.mem_append_left _ member)
    · exact fun now submission member =>
        whole.latest now submission (List.mem_append_right _ member)
    · exact fun delivery member => whole.succeeded delivery (List.mem_append_right _ member)
    · exact fun now member => whole.fresh now (List.mem_append_right _ member)
  · rintro ⟨left, right⟩
    refine ⟨?_, ?_, ?_⟩
    · exact fun now submission member => (List.mem_append.mp member).elim
        (left.latest now submission) (right.latest now submission)
    · exact fun delivery member => (List.mem_append.mp member).elim
        (left.succeeded delivery) (right.succeeded delivery)
    · exact fun now member => (List.mem_append.mp member).elim
        (left.fresh now) (right.fresh now)

/-- An observation after the log either is the selection itself or comes after it. -/
theorem recorded_concat (seen : Observation) : Recorded config (log ++ [seen]) id time ↔
    (∃ submission, seen = .submitted time submission ∧ id ∈ submission.personIds) ∨
      ∃ earlier submission later, log = earlier ++ .submitted time submission :: later ∧
        id ∈ submission.personIds ∧
        Intact config (submissions earlier).length id time later ∧
        Intact config (submissions earlier).length id time [seen] := by
  constructor
  · rintro ⟨earlier, submission, later, cut, chosen, intact⟩
    rcases List.eq_nil_or_concat later with rfl | ⟨later, last, rfl⟩
    · have ends := (List.append_inj' cut rfl).2
      exact Or.inl ⟨submission, List.singleton_inj.mp ends, chosen⟩
    · rw [List.concat_eq_append] at cut intact
      rw [← List.cons_append, ← List.append_assoc] at cut
      obtain ⟨front, ends⟩ := List.append_inj' cut rfl
      have both := (intact_append _ _ _).mp intact
      rw [← List.singleton_inj.mp ends] at both
      exact Or.inr ⟨earlier, submission, later, front, chosen, both⟩
  · rintro (⟨submission, rfl, chosen⟩ | ⟨earlier, submission, later, rfl, chosen, both⟩)
    · exact ⟨log, submission, [], rfl, chosen, ⟨nofun, nofun, nofun⟩⟩
    · exact ⟨earlier, submission, later ++ [seen], by simp, chosen,
        (intact_append _ _ _).mpr both⟩

/-- A call writes the entries of its people and leaves those of others alone. -/
theorem recorded_submitted (now : Instant) (submission : Submission) :
    Recorded config (log ++ [.submitted now submission]) id time ↔
      (id ∈ submission.personIds ∧ time = now) ∨
        (id ∉ submission.personIds ∧ Recorded config log id time) := by
  rw [recorded_concat]
  apply or_congr
  · constructor
    · rintro ⟨other, same, chosen⟩
      cases same
      exact ⟨chosen, rfl⟩
    · rintro ⟨chosen, rfl⟩
      exact ⟨submission, rfl, chosen⟩
  · constructor
    · rintro ⟨earlier, first, later, cut, chosen, intact, last⟩
      exact ⟨last.latest now submission List.mem_cons_self,
        earlier, first, later, cut, chosen, intact⟩
    · rintro ⟨absent, earlier, first, later, cut, chosen, intact⟩
      refine ⟨earlier, first, later, cut, chosen, intact, ⟨?_, nofun, nofun⟩⟩
      intro other call member
      cases List.mem_singleton.mp member
      exact absent

/-- A prune keeps the entries it finds fresh. -/
theorem recorded_pruned (now : Instant) : Recorded config (log ++ [.pruned now]) id time ↔
    Recorded config log id time ∧ now - time ≤ config.ttl := by
  rw [recorded_concat]
  constructor
  · rintro (⟨_, same, _⟩ | ⟨earlier, submission, later, cut, chosen, intact, last⟩)
    · contradiction
    · exact ⟨⟨earlier, submission, later, cut, chosen, intact⟩,
        last.fresh now List.mem_cons_self⟩
  · rintro ⟨⟨earlier, submission, later, cut, chosen, intact⟩, fresh⟩
    refine Or.inr ⟨earlier, submission, later, cut, chosen, intact, ⟨nofun, nofun, ?_⟩⟩
    intro other member
    cases List.mem_singleton.mp member
    exact fresh

/-- When the last call of a log submits a person, the person's latest selection is that
call's. -/
theorem submissions_of_latest {calls : List Submission} {call submission : Submission}
    {earlier later : List Observation} (ends : submissions log = calls ++ [call])
    (named : id ∈ call.personIds) (cut : log = earlier ++ .submitted time submission :: later)
    (latest : ∀ now other, .submitted now other ∈ later → id ∉ other.personIds) :
    (submissions earlier).length = calls.length := by
  rw [cut, submissions_append] at ends
  change submissions earlier ++ submission :: submissions later = calls ++ [call] at ends
  rcases List.eq_nil_or_concat (submissions later) with quiet | ⟨front, last, more⟩
  · rw [quiet] at ends
    rw [(List.append_inj' ends rfl).1]
  · rw [more, List.concat_eq_append, ← List.cons_append, ← List.append_assoc] at ends
    have same : last = call := List.singleton_inj.mp (List.append_inj' ends rfl).2
    have member : call ∈ submissions later := by simp [more, same]
    obtain ⟨seen, inside, shown⟩ := List.mem_filterMap.mp member
    cases seen with
    | submitted now other =>
      cases shown
      exact absurd named (latest now call inside)
    | consumed _ => contradiction
    | pruned _ => contradiction

/-- A completion of the last call erases the entry of its person if it reports a failure. -/
theorem recorded_consumed {calls : List Submission} {call : Submission} {delivery : Delivery}
    (ends : submissions log = calls ++ [call]) (batch : delivery.batch = calls.length)
    (named : delivery.completion.personId ∈ call.personIds) :
    Recorded config (log ++ [.consumed delivery]) id time ↔ Recorded config log id time ∧
      (delivery.completion.personId = id → delivery.completion.succeeded = true) := by
  rw [recorded_concat]
  constructor
  · rintro (⟨_, same, _⟩ | ⟨earlier, submission, later, cut, chosen, intact, last⟩)
    · contradiction
    · refine ⟨⟨earlier, submission, later, cut, chosen, intact⟩, fun same => ?_⟩
      have own := submissions_of_latest ends (same ▸ named) cut intact.latest
      exact last.succeeded delivery List.mem_cons_self (batch.trans own.symm) same
  · rintro ⟨⟨earlier, submission, later, cut, chosen, intact⟩, succeeded⟩
    refine Or.inr ⟨earlier, submission, later, cut, chosen, intact, ⟨nofun, ?_, nofun⟩⟩
    intro other member _ same
    cases List.mem_singleton.mp member
    exact succeeded same

end Recorded

/-- The history map holds exactly what the log records. -/
def HistoryExact (config : OrchestratorConfig) (state : Orchestrator)
    (log : List Observation) : Prop :=
  ∀ id time, state.coordinator.personLastSelected.get? id = some time ↔
    Recorded config log id time

namespace HistoryExact

variable {config : OrchestratorConfig} {state : Orchestrator} {log : List Observation}

/-- A tick records its call and prunes. -/
theorem ticked (exact_history : HistoryExact config state log) (mode : JobSubmissionMode)
    (now : Instant) (order : Enumeration PendingPerson) :
    HistoryExact config
      (state.ticked mode now (state.coordinator.expireStaleIfIdle config now order)).1
      (log ++
        (state.ticked mode now (state.coordinator.expireStaleIfIdle config now order)).2) := by
  intro id time
  have outcome := state.coordinator.flushWindowIfExpired_flushed config now order
  simp only [BatchCoordinator.expireStaleIfIdle]
  generalize state.coordinator.flushWindowIfExpired config now order = flushed at outcome
  cases outcome with
  | waiting idle =>
    simp only [Orchestrator.ticked]
    rw [BatchCoordinator.prunePersonHistory_get?, recorded_pruned, exact_history id time]
  | dropped window due refused =>
    simp only [Orchestrator.ticked]
    rw [BatchCoordinator.prunePersonHistory_get?, recorded_pruned]
    exact and_congr_left fun _ => exact_history id time
  | accepted window chores due latest pending idle =>
    simp only [Orchestrator.ticked]
    rw [BatchCoordinator.prunePersonHistory_get?, List.append_cons, recorded_pruned,
      recorded_submitted, BatchCoordinator.submission_personIds,
      BatchCoordinator.accepted_history]
    apply and_congr_left
    intro _
    by_cases chosen : id ∈ (state.coordinator.selection config window order).map
        fun pending => pending.message.personId
    · rw [if_pos chosen, Option.some.injEq]
      simp [chosen, eq_comm]
    · rw [if_neg chosen]
      simp [chosen, exact_history id time]

/-- The receipt of a completion erases the entry of a failed selection only. -/
theorem consumed (exact_history : HistoryExact config state log)
    (account : Orchestrator.Accounted config state log) :
    HistoryExact config state.consumed.1 (log ++ state.consumed.2) := by
  intro id time
  unfold Orchestrator.consumed
  split
  · rw [List.append_nil]
    exact exact_history id time
  · rename_i delivery rest queued
    have inside : (delivery.batch, delivery.completion.personId) ∈ state.outstanding := by
      simp [Orchestrator.outstanding, queued]
    obtain ⟨calls, call, ends, batch, named⟩ := account.mem_last_call inside
    rw [recorded_consumed ends batch named, ← exact_history id time]
    exact state.coordinator.onPersonComplete_get? delivery.completion id time

/-- Every event keeps the history exact. -/
theorem step (exact_history : HistoryExact config state log)
    (account : Orchestrator.Accounted config state log) (mode : JobSubmissionMode)
    (event : SystemEvent) :
    HistoryExact config ((orchestrator config mode).step state event).1
      (log ++ ((orchestrator config mode).step state event).2) := by
  cases event with
  | chores chores now => exact (List.append_nil log).symm ▸ exact_history
  | person person now => exact (List.append_nil log).symm ▸ exact_history
  | tick now order => exact exact_history.ticked mode now order
  | finish index succeeded =>
    simp only [orchestrator, Orchestrator.finished, List.append_nil]
    split <;> exact exact_history
  | consume => exact exact_history.consumed account

end HistoryExact

/-- In every reachable state the history holds a time for a person exactly when it is that
of the latest call submitting the person, the completion of that selection was not
consumed as failed and no later prune found it too old; and a completion still queued
belongs to the latest call of its person, so a failure never erases a newer entry. -/
theorem person_last_selected_exact (config : OrchestratorConfig) (mode : JobSubmissionMode)
    (events : List SystemEvent) :
    let state := (orchestrator config mode).run Orchestrator.start events
    let log := observations config mode events
    (∀ id time, state.coordinator.personLastSelected.get? id = some time ↔
      ∃ earlier submission later, log = earlier ++ .submitted time submission :: later ∧
        id ∈ submission.personIds ∧ Intact config (submissions earlier).length id time later) ∧
      ∀ delivery ∈ state.queue, ∃ calls call, submissions log = calls ++ [call] ∧
        delivery.batch = calls.length ∧ delivery.completion.personId ∈ call.personIds := by
  intro state log
  have both : Orchestrator.Accounted config state log ∧ HistoryExact config state log := by
    refine (orchestrator config mode).run_history
      (fun _ state trace => Orchestrator.Accounted config state
          (trace.map Transition.output).flatten ∧
        HistoryExact config state (trace.map Transition.output).flatten) ?_ ?_ events
    · refine ⟨Orchestrator.run_accounted config mode [], fun id time => ⟨nofun, ?_⟩⟩
      rintro ⟨earlier, submission, later, cut, _⟩
      exact absurd cut.symm (List.append_ne_nil_of_right_ne_nil _ (List.cons_ne_nil _ _))
    · intro events event known
      simp only [List.map_append, List.map_cons, List.map_nil, List.flatten_append,
        List.flatten_cons, List.flatten_nil, List.append_nil]
      exact ⟨Orchestrator.step_accounted known.1 mode event, known.2.step known.1 mode event⟩
  refine ⟨both.2, fun delivery queued => ?_⟩
  have inside : (delivery.batch, delivery.completion.personId) ∈ state.outstanding :=
    List.mem_append_right _ (List.mem_map_of_mem queued)
  exact both.1.mem_last_call inside

end BossWorker.Rust
