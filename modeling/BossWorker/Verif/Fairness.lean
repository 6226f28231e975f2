import BossWorker.Verif.Rotation

/-!
# Fairness of both coordinators

What the selection history is for, over whole runs. Nobody is passed over longer than a
round of the people who compete with them, whatever happened before. Somebody who is passed
over again and again for the same person was either served at the very reading of the clock
at which that began, or has a failure of the other person to thank: a failed completion
forgets the selection, and its person ranks again as one never selected.
-/

namespace BossWorker.Verif

/-- A person starves another only after failing, or by a tie with an earlier selection at
the same clock reading. -/
theorem starvation_needs_failure :
    (∀ (config : Rust.OrchestratorConfig) (events : List Rust.Event)
        (earlier between : List (RotationEvent String Rust.Instant))
        (first second : Turn String Rust.Instant) (p q : String),
      let log := Rust.rotationLog config .new events
      Steady log → Starves log earlier first between second p q →
        .failed p ∈ between ∨
          ∃ turn ∈ turns earlier, q ∈ turn.chosen ∧ turn.time = first.time) ∧
    (∀ (config : Python.OrchestratorConfig) (events : List Python.Event)
        (earlier between : List (RotationEvent String Python.Monotonic))
        (first second : Turn String Python.Monotonic) (p q : String),
      let log := Python.rotationLog config .new events
      0 ≤ config.maxActiveFilters → 0 < first.time → Steady log →
        Starves log earlier first between second p q →
        .failed p ∈ between ∨
          ∃ turn ∈ turns earlier, q ∈ turn.chosen ∧ turn.time = first.time) := by
  refine ⟨?_, ?_⟩
  · intro config events earlier between first second p q log steady starves
    refine or_iff_not_imp_left.mpr fun succeeded => ?_
    have run := Rust.rotation_run config Rust.BatchCoordinator.new_wellFormed events
    have start (id : String) : Rust.BatchCoordinator.new.levels id =
        (Rust.rotationRules config).never := rfl
    exact run.served_at_first start starves steady (WithBot.bot_lt_coe _) succeeded
  · intro config events earlier between first second p q log room positive steady starves
    refine or_iff_not_imp_left.mpr fun succeeded => ?_
    have run := Python.rotation_run room (Python.run_keyed config []) events
    have start (id : String) : Python.BatchCoordinator.new.levels id =
        (Python.rotationRules config).never := rfl
    exact run.served_at_first start starves steady (WithBot.coe_lt_coe.mpr positive) succeeded

section Retries

/-- One place, windows that close at once, and a minute of history in Rust. -/
def rustPlace : Rust.OrchestratorConfig := ⟨1, 0, 60, by decide, by decide⟩

/-- One place, windows that close at once, and a minute of history in Python. -/
def pythonPlace : Python.OrchestratorConfig := ⟨1, 0, 60⟩

/-- A minute is whole nanoseconds. -/
theorem rustPlace_ttl : rustPlace.ttl = 60 := by decide +kernel

/-- A turn that two people wait for and one of them gets. -/
def contest (time : ℚ) (winner : String) : Turn String ℚ := ⟨time, ["bob", "amy"], [winner]⟩

/-- In Rust the failed job of one person comes back ahead of the other person. -/
theorem rust_retry_starves :
    let log := Rust.rotationLog rustPlace .new
      [.chores {} 1, .person { personId := "bob" } 2, .person { personId := "amy" } 2,
        .tick 3 (.stored _), .complete ⟨"bob", false⟩, .person { personId := "bob" } 4,
        .person { personId := "amy" } 4, .tick 5 (.stored _)]
    Steady log ∧ Starves log [] (contest 3 "bob") [.pruned 3 [], .failed "bob"]
      (contest 5 "bob") "bob" "amy" := by
  refine ⟨⟨?_, ?_⟩, ⟨[.pruned 5 []], ?_⟩, ?_, ?_⟩
  all_goals decide +kernel

/-- In Python the failed job of one person comes back ahead of the other person. -/
theorem python_retry_starves :
    let log := Python.rotationLog pythonPlace .new
      [.chores {} 1, .person { personId := "bob" } 2 0 true,
        .person { personId := "amy" } 2 0 true, .flush 3,
        .complete { personId := "bob" } false 3, .person { personId := "bob" } 4 1 true,
        .person { personId := "amy" } 4 1 true, .flush 5]
    Steady log ∧ Starves log [] (contest 3 "bob") [.failed "bob", .pruned 3 []]
      (contest 5 "bob") "bob" "amy" := by
  refine ⟨⟨?_, ?_⟩, ⟨[], ?_⟩, ?_, ?_⟩
  all_goals decide +kernel

/-- Without any failure, a selection at the clock reading of the next flush starves. -/
theorem rust_tie_starves :
    let log := Rust.rotationLog rustPlace .new
      [.chores {} 1, .person { personId := "amy" } 3, .tick 3 (.stored _),
        .complete ⟨"amy", true⟩, .person { personId := "bob" } 3,
        .person { personId := "amy" } 3, .tick 3 (.stored _), .complete ⟨"bob", true⟩,
        .person { personId := "bob" } 4, .person { personId := "amy" } 4,
        .tick 5 (.stored _)]
    (Steady log ∧ .failed "bob" ∉ log) ∧
      Starves log [.served ⟨3, ["amy"], ["amy"]⟩, .pruned 3 []] (contest 3 "bob")
        [.pruned 3 []] (contest 5 "bob") "bob" "amy" := by
  refine ⟨⟨⟨?_, ?_⟩, ?_⟩, ⟨[.pruned 5 []], ?_⟩, ?_, ?_⟩
  all_goals decide +kernel

/-- The failures of the two retries are the ones the starved person has to thank. -/
theorem starvation_needs_failure_retries :
    (.failed "bob" ∈ [RotationEvent.pruned (3 : ℚ) [], .failed "bob"] ∨
        ∃ turn ∈ turns [], "amy" ∈ turn.chosen ∧ turn.time = (contest 3 "bob").time) ∧
      (.failed "bob" ∈ [.failed "bob", RotationEvent.pruned (3 : ℚ) []] ∨
        ∃ turn ∈ turns [], "amy" ∈ turn.chosen ∧ turn.time = (contest 3 "bob").time) :=
  ⟨starvation_needs_failure.1 rustPlace _ _ _ _ _ _ _ rust_retry_starves.1
      rust_retry_starves.2,
    starvation_needs_failure.2 pythonPlace _ _ _ _ _ _ _ (by decide) (by decide)
      python_retry_starves.1 python_retry_starves.2⟩

end Retries

/-- A person whose job fails is selected again ahead of one who waits, in both
implementations; and where two flushes read the clock alike, no failure is needed. -/
theorem failing_person_starves :
    (∃ config events earlier first between second p q,
      let log := Rust.rotationLog config .new events
      1 ≤ config.maxPeoplePerWindow ∧ Steady log ∧
        Starves log earlier first between second p q) ∧
    (∃ config events earlier first between second p q,
      let log := Python.rotationLog config .new events
      1 ≤ config.maxActiveFilters ∧ Steady log ∧
        Starves log earlier first between second p q) ∧
    (∃ config events earlier first between second p q,
      let log := Rust.rotationLog config .new events
      1 ≤ config.maxPeoplePerWindow ∧ Steady log ∧ .failed p ∉ log ∧
        Starves log earlier first between second p q) := by
  refine ⟨?_, ?_, ?_⟩
  · exact ⟨rustPlace, _, _, _, _, _, _, _, le_refl 1, rust_retry_starves⟩
  · exact ⟨pythonPlace, _, _, _, _, _, _, _, le_refl 1, python_retry_starves⟩
  · obtain ⟨⟨steady, succeeded⟩, starves⟩ := rust_tie_starves
    exact ⟨rustPlace, _, _, _, _, _, _, _, le_refl 1, steady, succeeded, starves⟩

/-- Whoever is pending in every accepted window of a round is submitted in some window of
it, from any reachable state on. -/
theorem round_submits_everyone :
    (∀ (config : Rust.OrchestratorConfig) (past during : List Rust.Event)
        (front body : List (RotationEvent String Rust.Instant)) (people : Finset String),
      let state := (Rust.coordinator config).run .new past
      1 ≤ config.maxPeoplePerWindow →
        Round state.personLastSelected.level config.maxPeoplePerWindow
          config.ttl (Rust.rotationLog config state during)
          front body people →
        ¬ ∃ q ∈ people, ∀ turn ∈ turns body, q ∈ turn.pending ∧ q ∉ turn.chosen) ∧
    (∀ (config : Python.OrchestratorConfig) (past during : List Python.Event)
        (front body : List (RotationEvent String Python.Monotonic)) (people : Finset String),
      let state := (Python.coordinator config).run .new past
      1 ≤ config.maxActiveFilters → (∀ turn ∈ turns body, 0 < turn.time) →
        Round state.personLastSelected.level config.maxActiveFilters.toNat
          config.personLastSuccessTtlSeconds (Python.rotationLog config state during)
          front body people →
        ¬ ∃ q ∈ people, ∀ turn ∈ turns body, q ∈ turn.pending ∧ q ∉ turn.chosen) := by
  refine ⟨?_, ?_⟩
  · rintro config past during front body people state room round ⟨q, member, passed⟩
    have run := Rust.rotation_run config (Rust.run_wellFormed config past) during
    obtain ⟨turn, taken, chosen⟩ := round.everyone_served run room (fun _ _ old => old)
      (fun _ => Or.inr rfl) (fun _ _ => WithBot.bot_lt_coe _) member
      fun turn taken => (passed turn taken).1
    exact (passed turn taken).2 chosen
  · rintro config past during front body people state room positive round ⟨q, member, passed⟩
    have seats : 0 ≤ config.maxActiveFilters := by omega
    have run := Python.rotation_run seats (Python.run_keyed config past) during
    have start (id : String) : state.levels id = (Python.rotationRules config).never ∨
        state.levels id = state.personLastSelected.level id := by
      unfold Python.BatchCoordinator.levels
      cases state.personLastSelected.level id with
      | bot => exact Or.inl rfl
      | coe time => exact Or.inr rfl
    have places : 1 ≤ config.maxActiveFilters.toNat := by omega
    obtain ⟨turn, taken, chosen⟩ := round.everyone_served run places (fun _ _ old => old)
      start (fun turn taken => WithBot.coe_lt_coe.mpr (positive turn taken)) member
      fun turn taken => (passed turn taken).1
    exact (passed turn taken).2 chosen

section Ties

/-- Bob is served twice by stretch although Amy waits both times: her only selection, in front
of the stretch, reads the clock as the first turn of the stretch does. -/
def tiedTurns : List (RotationEvent String ℚ) :=
  [.served (contest 3 "bob"), .pruned 3 [], .served (contest 5 "bob")]

/-- Two turns for two people and one place, which nobody fails. -/
theorem tiedTurns_stretch {log front : List (RotationEvent String ℚ)}
    (cut : ∃ back, log = front ++ (tiedTurns ++ back)) :
    Stretch (fun _ => ⊥) 1 60 log front tiedTurns {"bob", "amy"} where
  cut := cut
  count := by decide
  later _ _ _ := WithBot.bot_lt_coe _
  inside := by decide
  succeeded := by
    intro upTo id rest split
    have absent : .failed id ∉ tiedTurns := by simp [tiedTurns]
    exact absurd (split ▸ List.mem_append_right upTo List.mem_cons_self) absent
  short := by decide +kernel
  clocked := by
    intro upTo now removed rest split turn member
    have reading : now = 3 := by
      have listed : .pruned now removed ∈ tiedTurns :=
        split ▸ List.mem_append_right upTo List.mem_cons_self
      simp [tiedTurns] at listed
      exact listed.1
    have inside : turn ∈ turns tiedTurns := by
      rw [split, turns_append]
      exact List.mem_append_right _ member
    have late : ∀ turn ∈ turns tiedTurns, (3 : ℚ) ≤ turn.time := by decide +kernel
    exact reading ▸ late turn inside

/-- Turns that are later than the history of the state a run goes on from, but not than a window
accepted in front of them, may pass somebody over in both implementations. -/
theorem tied_round_passes_over :
    (∃ config during front,
      Stretch Rust.BatchCoordinator.new.personLastSelected.level config.maxPeoplePerWindow
          config.ttl (Rust.rotationLog config .new during) front tiedTurns {"bob", "amy"} ∧
        (turns tiedTurns).Pairwise (fun first second => first.time < second.time) ∧
        ∀ turn ∈ turns tiedTurns, "amy" ∈ turn.pending ∧ "amy" ∉ turn.chosen) ∧
    ∃ config during front,
      Stretch Python.BatchCoordinator.new.personLastSelected.level config.maxActiveFilters.toNat
          config.personLastSuccessTtlSeconds (Python.rotationLog config .new during) front
          tiedTurns {"bob", "amy"} ∧
        (turns tiedTurns).Pairwise (fun first second => first.time < second.time) ∧
        ∀ turn ∈ turns tiedTurns, "amy" ∈ turn.pending ∧ "amy" ∉ turn.chosen := by
  have increasing : (turns tiedTurns).Pairwise fun first second => first.time < second.time := by
    decide +kernel
  have passed : ∀ turn ∈ turns tiedTurns, "amy" ∈ turn.pending ∧ "amy" ∉ turn.chosen := by
    decide +kernel
  constructor
  · refine ⟨rustPlace, [.chores {} 1, .person { personId := "amy" } 3, .tick 3 (.stored _),
      .complete ⟨"amy", true⟩, .person { personId := "bob" } 3, .person { personId := "amy" } 3,
      .tick 3 (.stored _), .complete ⟨"bob", true⟩, .person { personId := "bob" } 4,
      .person { personId := "amy" } 4, .tick 5 (.stored _)],
      [.served ⟨3, ["amy"], ["amy"]⟩, .pruned 3 []], ?_, increasing, passed⟩
    rw [rustPlace_ttl]
    exact tiedTurns_stretch ⟨[.pruned 5 []], by decide +kernel⟩
  · refine ⟨pythonPlace, [.chores {} 1, .person { personId := "amy" } 3 0 true, .flush 3,
      .person { personId := "bob" } 3 1 true, .person { personId := "amy" } 3 1 true,
      .complete { personId := "amy" } true 3, .flush 3, .complete { personId := "bob" } true 3,
      .person { personId := "bob" } 4 2 true, .person { personId := "amy" } 4 2 true,
      .flush 5], [.served ⟨3, ["amy"], ["amy"]⟩, .pruned 3 []], ?_, increasing, passed⟩
    exact tiedTurns_stretch ⟨[], by decide +kernel⟩

end Ties

section Turns

/-- Two contests in a row, won by one and then by the other. -/
def turnAndTurn : List (RotationEvent String ℚ) :=
  [.served (contest 10 "amy"), .pruned 10 [], .served (contest 20 "bob")]

/-- Two contests at one place are a round of two people. -/
theorem turnAndTurn_round {history : String → WithBot ℚ} {log : List (RotationEvent String ℚ)}
    (cut : ∃ back, log = turnAndTurn ++ back) (early : ∀ id, history id ≤ (3 : ℚ)) :
    Round history 1 60 log [] turnAndTurn {"bob", "amy"} where
  cut := cut
  count := by decide
  later := by
    have late : ∀ turn ∈ turns turnAndTurn, (3 : ℚ) < turn.time := by decide +kernel
    exact fun turn taken id => (early id).trans_lt (WithBot.coe_lt_coe.mpr (late turn taken))
  after _ _ _ none := nomatch none
  inside := by decide
  succeeded := by
    intro upTo id rest split
    have absent : .failed id ∉ turnAndTurn := by simp [turnAndTurn]
    exact absurd (split ▸ List.mem_append_right upTo List.mem_cons_self) absent
  short := by decide +kernel
  clocked := by
    intro upTo now removed rest split turn member
    have reading : now = 10 := by
      have listed : .pruned now removed ∈ turnAndTurn :=
        split ▸ List.mem_append_right upTo List.mem_cons_self
      simp [turnAndTurn] at listed
      exact listed.1
    have inside : turn ∈ turns turnAndTurn := by
      rw [split, turns_append]
      exact List.mem_append_right _ member
    have late : ∀ turn ∈ turns turnAndTurn, (10 : ℚ) ≤ turn.time := by decide +kernel
    exact reading ▸ late turn inside

/-- A history of one early selection has no late levels. -/
theorem level_le_of_entries {history : Dict String ℚ} (single : history.entries = [("bob", 3)])
    (id : String) : history.level id ≤ (3 : ℚ) := by
  by_cases own : id = "bob"
  · have stored : history.level id = (3 : ℚ) := by
      rw [own]
      exact (history.get?_eq_some_iff "bob" 3).mpr (single ▸ List.mem_cons_self)
    exact stored.le
  · have absent : history.level id = ⊥ := by
      refine (history.get?_eq_none_iff id).mpr ?_
      rw [Dict.keys, single]
      exact fun member => own (List.mem_singleton.mp member)
    exact absent ▸ bot_le

/-- Bob, who was selected before, waits while Amy has her turn, and then has his. -/
theorem round_submits_everyone_turns :
    let stranded := ∃ q ∈ ({"bob", "amy"} : Finset String), ∀ turn ∈ turns turnAndTurn,
      q ∈ turn.pending ∧ q ∉ turn.chosen
    let rust := (Rust.coordinator rustPlace).run .new
      [.chores {} 1, .person { personId := "bob" } 2, .tick 3 (.stored _),
        .complete ⟨"bob", true⟩]
    let rustCalls : List Rust.Event :=
      [.person { personId := "bob" } 9, .person { personId := "amy" } 9,
        .tick 10 (.reversed _), .complete ⟨"amy", true⟩, .person { personId := "bob" } 19,
        .person { personId := "amy" } 19, .tick 20 (.stored _)]
    let python := (Python.coordinator pythonPlace).run .new
      [.chores {} 1, .person { personId := "bob" } 2 0 true, .flush 3,
        .complete { personId := "bob" } true 3]
    let pythonCalls : List Python.Event :=
      [.person { personId := "bob" } 9 1 true, .person { personId := "amy" } 9 1 true,
        .flush 10, .complete { personId := "amy" } true 10,
        .person { personId := "bob" } 19 2 true, .person { personId := "amy" } 19 2 true,
        .flush 20]
    (Rust.rotationLog rustPlace rust rustCalls = turnAndTurn ++ [.pruned 20 []] ∧
        ¬ stranded) ∧
      (Python.rotationLog pythonPlace python pythonCalls = turnAndTurn ++ [] ∧
        ¬ stranded) := by
  intro stranded rust rustCalls python pythonCalls
  have rust_history : rust.personLastSelected.entries = [("bob", 3)] := by decide +kernel
  have rust_log : Rust.rotationLog rustPlace rust rustCalls =
      turnAndTurn ++ [.pruned 20 []] := by decide +kernel
  have python_history : python.personLastSelected.entries = [("bob", 3)] := by decide +kernel
  have python_log : Python.rotationLog pythonPlace python pythonCalls = turnAndTurn ++ [] := by
    decide +kernel
  refine ⟨⟨rust_log, ?_⟩, python_log, ?_⟩
  · have round := turnAndTurn_round ⟨_, rust_log⟩ (level_le_of_entries rust_history)
    rw [← rustPlace_ttl] at round
    exact round_submits_everyone.1 rustPlace _ rustCalls [] turnAndTurn _ (by decide)
      round
  · exact round_submits_everyone.2 pythonPlace _ pythonCalls [] turnAndTurn _ (by decide)
      (by decide +kernel)
      (turnAndTurn_round ⟨_, python_log⟩ (level_le_of_entries python_history))

end Turns

end BossWorker.Verif
