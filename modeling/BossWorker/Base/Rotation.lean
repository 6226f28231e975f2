import BossWorker.Base.Machine
import BossWorker.Base.Ranking
import Mathlib.Algebra.Order.Group.Defs
import Mathlib.Data.Finset.Card
import Mathlib.Data.List.Perm.Subperm

/-!
# Rotations

A rotation serves some of the people who are waiting, those with the least level first, and
lifts their level to the time of the turn. Levels can be forgotten in two ways, after a
failure and by pruning stale ones; a forgotten level is that of somebody never served. From
this alone: what a level can be after a run, and that a long enough run of increasing turns
serves everyone who waits through it.
-/

namespace BossWorker

variable {ι T : Type}

/-- One turn of a rotation. -/
structure Turn (ι T : Type) where
  /-- When the turn is taken. -/
  time : T
  /-- Who waits. -/
  pending : List ι
  /-- Who is served. -/
  chosen : List ι
  deriving DecidableEq

/-- What can happen to the levels of a rotation. -/
inductive RotationEvent (ι T : Type) where
  /-- A turn is taken. -/
  | served (turn : Turn ι T)
  /-- A level is forgotten after a failure. -/
  | failed (id : ι)
  /-- Stale levels are forgotten. -/
  | pruned (now : T) (removed : List ι)
  deriving DecidableEq

/-- The turns of a list of events. -/
def turns (log : List (RotationEvent ι T)) : List (Turn ι T) :=
  log.filterMap fun
    | .served turn => some turn
    | .failed _ => none
    | .pruned _ _ => none

/-- A turn of a log is one of its events. -/
theorem mem_turns {log : List (RotationEvent ι T)} {turn : Turn ι T} :
    turn ∈ turns log ↔ .served turn ∈ log := by
  rw [turns, List.mem_filterMap]
  constructor
  · rintro ⟨event, member, shown⟩
    cases event with
    | served other =>
      cases shown
      exact member
    | failed _ => contradiction
    | pruned _ _ => contradiction
  · exact fun member => ⟨.served turn, member, rfl⟩

/-- The turns of two logs in a row. -/
theorem turns_append (front back : List (RotationEvent ι T)) :
    turns (front ++ back) = turns front ++ turns back := List.filterMap_append

/-- A prune finds nothing stale; other events always pass. -/
def RotationEvent.Fresh : RotationEvent ι T → Prop
  | .served _ => True
  | .failed _ => True
  | .pruned _ removed => removed = []

instance [DecidableEq ι] (event : RotationEvent ι T) : Decidable event.Fresh :=
  match event with
  | .served _ => inferInstanceAs (Decidable True)
  | .failed _ => inferInstanceAs (Decidable True)
  | .pruned _ removed => inferInstanceAs (Decidable (removed = []))

/-- In a log, one person is served at two turns while another waits at every turn from the
first to the second and is served at none of them. -/
structure Starves (log earlier : List (RotationEvent ι T)) (first : Turn ι T)
    (between : List (RotationEvent ι T)) (second : Turn ι T) (p q : ι) : Prop where
  /-- Where the two turns stand in the log. -/
  cut : ∃ later, log = earlier ++ .served first :: (between ++ .served second :: later)
  /-- One person is served at both. -/
  favoured : p ∈ first.chosen ∧ p ∈ second.chosen
  /-- The other one waits and is passed over. -/
  passed_over : ∀ turn ∈ first :: (turns between ++ [second]),
    q ∈ turn.pending ∧ q ∉ turn.chosen

/-- What distinguishes one rotation from another. -/
structure RotationRules (T : Type) where
  /-- Most people served in one turn. -/
  capacity : Nat
  /-- The level of somebody never served. -/
  never : WithBot T
  /-- Whether a level is stale at a time. -/
  stale : T → T → Prop

variable [LinearOrder T]

/-- A log whose turns follow the clock and whose prunes find nothing stale. -/
structure Steady (log : List (RotationEvent ι T)) : Prop where
  /-- No turn is taken before an earlier one. -/
  ordered : ((turns log).map Turn.time).Pairwise (· ≤ ·)
  /-- No prune finds anything stale. -/
  fresh : ∀ event ∈ log, event.Fresh

/-- A turn that serves the least levels, as many as there is room for. -/
structure Turn.Fair (turn : Turn ι T) (capacity : Nat) (level : ι → WithBot T) : Prop where
  /-- Only those who wait are served. -/
  inside : turn.chosen ⊆ turn.pending
  /-- Nobody is served twice. -/
  distinct : turn.chosen.Nodup
  /-- The room is used. -/
  full : turn.chosen.length = min capacity turn.pending.length
  /-- Nobody left waiting has a lower level than somebody served. -/
  ranked : ∀ c ∈ turn.chosen, ∀ r ∈ turn.pending, r ∉ turn.chosen → level c ≤ level r

/-- When somebody is left waiting, the turn is full. -/
theorem Turn.Fair.length_eq {turn : Turn ι T} {capacity : Nat} {level : ι → WithBot T}
    (fair : turn.Fair capacity level) {id : ι} (waiting : id ∈ turn.pending)
    (left : id ∉ turn.chosen) : turn.chosen.length = capacity := by
  have full := fair.full
  by_contra short
  have all := (List.subperm_of_subset fair.distinct fair.inside).perm_of_length_le (by omega)
  exact left (all.mem_iff.mpr waiting)

/-- Taking the first entries of a ranking by a key that follows the levels is fair. -/
theorem Turn.fair_of_take {α κ : Type} [LinearOrder κ] {key : α → κ} {person : α → ι}
    {level : ι → WithBot T} (time : T) (capacity : Nat) {arranged items : List α}
    (follows : ∀ a b, key a ≤ key b → level (person a) ≤ level (person b))
    (same : arranged.Perm items) (distinct : (items.map person).Nodup) :
    Turn.Fair ⟨time, items.map person, ((sortByKey key arranged).take capacity).map person⟩
      capacity level where
  inside := by
    intro id member
    obtain ⟨a, chosen, rfl⟩ := List.mem_map.mp member
    exact List.mem_map_of_mem (same.mem_iff.mp (mem_of_mem_take_sortByKey chosen))
  distinct := nodup_map_take_sortByKey key capacity arranged person
    ((same.map person).nodup_iff.mpr distinct)
  full := by
    rw [List.length_map, List.length_map, length_take_sortByKey, same.length_eq]
  ranked := by
    intro c chosen r waiting left
    obtain ⟨a, inside, rfl⟩ := List.mem_map.mp chosen
    obtain ⟨b, candidate, rfl⟩ := List.mem_map.mp waiting
    exact follows a b (key_le_of_not_mem_take inside (same.mem_iff.mpr candidate)
      fun member => left (List.mem_map_of_mem member))

namespace RotationRules

variable [DecidableEq ι] (rules : RotationRules T)

/-- The levels before and after one event. -/
def Step (level : ι → WithBot T) (event : RotationEvent ι T) (next : ι → WithBot T) : Prop :=
  match event with
  | .served turn => turn.Fair rules.capacity level ∧
      ∀ id, next id = if id ∈ turn.chosen then (turn.time : WithBot T) else level id
  | .failed failing => ∀ id, next id = if id = failing then rules.never else level id
  | .pruned now removed =>
    (∀ id ∈ removed, ∃ time : T, level id = time ∧ rules.stale now time) ∧
      ∀ id, next id = if id ∈ removed then rules.never else level id

/-- The levels before and after a list of events. -/
def Run (level : ι → WithBot T) : List (RotationEvent ι T) → (ι → WithBot T) → Prop
  | [], last => last = level
  | event :: log, last => ∃ next, rules.Step level event next ∧ Run next log last

variable {rules} {level last : ι → WithBot T} {log : List (RotationEvent ι T)}

/-- A run over two logs goes through the levels between them. -/
theorem run_append (front back : List (RotationEvent ι T)) :
    rules.Run level (front ++ back) last ↔
      ∃ next, rules.Run level front next ∧ rules.Run next back last := by
  induction front generalizing level with
  | nil => exact ⟨fun run => ⟨level, rfl, run⟩, fun ⟨_, same, run⟩ => same ▸ run⟩
  | cons event front ih =>
    constructor
    · rintro ⟨next, step, run⟩
      obtain ⟨between, first, second⟩ := ih.mp run
      exact ⟨between, ⟨next, step, first⟩, second⟩
    · rintro ⟨between, ⟨next, step, first⟩, second⟩
      exact ⟨next, step, ih.mpr ⟨between, first, second⟩⟩

/-- The last event of a log is a step of its own. -/
theorem run_concat (event : RotationEvent ι T) : rules.Run level (log ++ [event]) last ↔
    ∃ next, rules.Run level log next ∧ rules.Step next event last := by
  rw [run_append]
  constructor
  · rintro ⟨next, run, _, step, same⟩
    exact ⟨next, run, same ▸ step⟩
  · exact fun ⟨next, run, step⟩ => ⟨next, run, last, step, rfl⟩

/-- The turns of a run serve only those who wait. -/
theorem Run.chosen_subset (run : rules.Run level log last) {turn : Turn ι T}
    (member : turn ∈ turns log) : turn.chosen ⊆ turn.pending := by
  obtain ⟨front, back, rfl⟩ := List.append_of_mem (mem_turns.mp member)
  obtain ⟨_, _, _, served, _⟩ := run_append _ _ |>.mp run
  exact served.1.inside

/-- A level is forgotten, untouched or the time of a turn that served its owner. -/
theorem Run.level_cases (run : rules.Run level log last) (id : ι) :
    last id = rules.never ∨ last id = level id ∨
      ∃ turn ∈ turns log, id ∈ turn.chosen ∧ last id = turn.time := by
  induction log using List.reverseRecOn generalizing last with
  | nil => exact Or.inr (Or.inl (congrFun run id))
  | append_singleton log event ih =>
    obtain ⟨next, run, step⟩ := run_concat event |>.mp run
    rw [turns_append]
    have known := ih run
    cases event with
    | served turn =>
      rw [step.2 id]
      split
      · rename_i chosen
        exact Or.inr (Or.inr ⟨turn, List.mem_append_right _ List.mem_cons_self, chosen, rfl⟩)
      · exact known.imp_right fun rest => rest.imp_right fun ⟨turn, member, both⟩ =>
          ⟨turn, List.mem_append_left _ member, both⟩
    | failed failing =>
      rw [step id]
      split
      · exact Or.inl rfl
      · simpa [turns] using known
    | pruned now removed =>
      rw [step.2 id]
      split
      · exact Or.inl rfl
      · simpa [turns] using known

/-- The level of somebody not served is forgotten or untouched. -/
theorem Run.level_of_not_served (run : rules.Run level log last) {id : ι}
    (left : ∀ turn ∈ turns log, id ∉ turn.chosen) :
    last id = rules.never ∨ last id = level id := by
  rcases run.level_cases id with gone | same | ⟨turn, member, chosen, _⟩
  · exact Or.inl gone
  · exact Or.inr same
  · exact absurd chosen (left turn member)

/-- A level that is not forgotten never falls below an earlier time. -/
theorem Run.le_level (run : rules.Run level log last) {id : ι} {bound : WithBot T}
    (start : bound ≤ level id) (later : ∀ turn ∈ turns log, bound ≤ turn.time)
    (succeeded : .failed id ∉ log) (fresh : ∀ now removed, .pruned now removed ∈ log →
      id ∉ removed) : bound ≤ last id := by
  induction log generalizing level with
  | nil => exact start.trans_eq (congrFun run id).symm
  | cons event log ih =>
    obtain ⟨next, step, rest⟩ := run
    have tail (turn : Turn ι T) (member : turn ∈ turns log) : bound ≤ turn.time :=
      later turn (mem_turns.mpr (List.mem_cons_of_mem event (mem_turns.mp member)))
    refine ih rest ?_ tail (fun member => succeeded (List.mem_cons_of_mem event member))
      fun now removed member => fresh now removed (List.mem_cons_of_mem event member)
    cases event with
    | served turn =>
      rw [step.2 id]
      split
      · exact later turn (mem_turns.mpr List.mem_cons_self)
      · exact start
    | failed failing =>
      have other : id ≠ failing := fun same => succeeded (same ▸ List.mem_cons_self)
      rw [step id, if_neg other]
      exact start
    | pruned now removed =>
      rw [step.2 id, if_neg (fresh now removed List.mem_cons_self)]
      exact start

/-- Somebody passed over from one turn to another that both serve the same other person was
at or above the time of the first turn before it, unless a level was forgotten in between. -/
theorem Run.time_le_level {between : List (RotationEvent ι T)} {first second : Turn ι T}
    {before after again : ι → WithBot T} {p q : ι}
    (served : rules.Step before (.served first) after) (through : rules.Run after between again)
    (fair : second.Fair rules.capacity again) (known : rules.never < first.time)
    (favoured : p ∈ first.chosen ∧ p ∈ second.chosen)
    (passed : ∀ turn ∈ first :: (turns between ++ [second]),
      q ∈ turn.pending ∧ q ∉ turn.chosen)
    (later : ∀ turn ∈ turns between, (first.time : WithBot T) ≤ turn.time)
    (succeeded : .failed p ∉ between)
    (fresh : ∀ now removed, .pruned now removed ∈ between → p ∉ removed) :
    (first.time : WithBot T) ≤ before q := by
  have lower : (first.time : WithBot T) ≤ again p := by
    refine through.le_level ?_ later succeeded fresh
    rw [served.2 p, if_pos favoured.1]
  have upper : again p ≤ again q := by
    have waiting := passed second (by simp)
    exact fair.ranked p favoured.2 q waiting.1 waiting.2
  have untouched : after q = before q := by
    rw [served.2 q, if_neg (passed first List.mem_cons_self).2]
  have left (turn : Turn ι T) (member : turn ∈ turns between) : q ∉ turn.chosen :=
    (passed turn (List.mem_cons_of_mem _ (List.mem_append_left _ member))).2
  rcases through.level_of_not_served left with gone | same
  · exact absurd (gone ▸ lower.trans upper) known.not_ge
  · exact (same.trans untouched) ▸ lower.trans upper

/-- Somebody who starves behind another person was served before, at the time of the first
turn, unless the other person's level was forgotten between the two turns. -/
theorem Run.served_at_first {earlier between : List (RotationEvent ι T)}
    {first second : Turn ι T} {p q : ι} (start : ∀ id, level id = rules.never)
    (run : rules.Run level log last) (starves : Starves log earlier first between second p q)
    (steady : Steady log) (known : rules.never < first.time)
    (succeeded : .failed p ∉ between) :
    ∃ turn ∈ turns earlier, q ∈ turn.chosen ∧ turn.time = first.time := by
  obtain ⟨⟨later, rfl⟩, favoured, passed⟩ := starves
  obtain ⟨before, upTo, after, served, onward⟩ := run_append _ _ |>.mp run
  obtain ⟨again, through, _, fair, _⟩ := run_append _ _ |>.mp onward
  have ordered := steady.ordered
  rw [turns_append, List.map_append, List.pairwise_append] at ordered
  obtain ⟨_, behind, split⟩ := ordered
  have beyond (turn : Turn ι T) (member : turn ∈ turns between) :
      (first.time : WithBot T) ≤ turn.time := by
    change ((first :: turns (between ++ .served second :: later)).map Turn.time).Pairwise
      (· ≤ ·) at behind
    rw [turns_append] at behind
    exact WithBot.coe_le_coe.mpr ((List.pairwise_cons.mp behind).1 _
      (List.mem_map_of_mem (List.mem_append_left _ member)))
  have fresh (now : T) (removed : List ι) (member : .pruned now removed ∈ between) :
      p ∉ removed := by
    have nothing : removed = [] := steady.fresh (.pruned now removed) (by simp [member])
    rw [nothing]
    exact List.not_mem_nil
  have reach := Run.time_le_level served through fair.1 known favoured passed beyond succeeded
    fresh
  -- before the first turn, only an earlier turn can have lifted the level that high
  rcases upTo.level_cases q with gone | gone | ⟨turn, member, chosen, time⟩
  · exact absurd (gone ▸ reach) known.not_ge
  · exact absurd ((gone.trans (start q)) ▸ reach) known.not_ge
  · rw [time] at reach
    have past : turn.time ≤ first.time :=
      split _ (List.mem_map_of_mem member) _ (List.mem_map_of_mem (by simp [turns]))
    exact ⟨turn, member, chosen, le_antisymm past (WithBot.coe_le_coe.mp reach)⟩

/-- Before its last turn, a log forgets nobody it has served. -/
structure Undisturbed (rules : RotationRules T) (log : List (RotationEvent ι T)) : Prop where
  /-- Nobody served fails before a later turn. -/
  succeeded : ∀ front id back, log = front ++ .failed id :: back → turns back ≠ [] →
    ∀ turn ∈ turns front, id ∉ turn.chosen
  /-- No turn is stale at a prune before a later turn. -/
  fresh : ∀ front now removed back, log = front ++ .pruned now removed :: back →
    turns back ≠ [] → ∀ turn ∈ turns front, ¬ rules.stale now turn.time

omit [LinearOrder T] [DecidableEq ι] in
/-- The front of an undisturbed log is undisturbed. -/
theorem Undisturbed.front {front back : List (RotationEvent ι T)}
    (calm : rules.Undisturbed (front ++ back)) : rules.Undisturbed front where
  succeeded before id after split later turn member := by
    refine calm.succeeded before id (after ++ back) ?_ ?_ turn member
    · rw [split, List.append_assoc, List.cons_append]
    · rw [turns_append]
      exact List.append_ne_nil_of_left_ne_nil later _
  fresh before now removed after split later turn member := by
    refine calm.fresh before now removed (after ++ back) ?_ ?_ turn member
    · rw [split, List.append_assoc, List.cons_append]
    · rw [turns_append]
      exact List.append_ne_nil_of_left_ne_nil later _

/-- In front of a turn of an undisturbed log, the level of anybody served is the time of a
turn. -/
theorem Run.level_of_served {front back : List (RotationEvent ι T)} {turn : Turn ι T}
    (calm : rules.Undisturbed (front ++ back)) (follows : turns back ≠ [])
    (run : rules.Run level front last) {id : ι} (member : turn ∈ turns front)
    (chosen : id ∈ turn.chosen) : ∃ latest ∈ turns front, last id = latest.time := by
  induction front using List.reverseRecOn generalizing last back turn with
  | nil => contradiction
  | append_singleton front event ih =>
    obtain ⟨next, before, step⟩ := run_concat event |>.mp run
    rw [List.append_assoc] at calm
    have known {old : Turn ι T} (earlier : old ∈ turns front) (named : id ∈ old.chosen) :
        ∃ latest ∈ turns front, next id = latest.time := by
      refine ih calm ?_ before earlier named
      rw [turns_append]
      exact List.append_ne_nil_of_right_ne_nil _ follows
    rw [turns_append] at member ⊢
    cases event with
    | served new =>
      rw [step.2 id]
      by_cases now : id ∈ new.chosen
      · exact ⟨new, List.mem_append_right _ List.mem_cons_self, if_pos now⟩
      · rw [if_neg now]
        rcases List.mem_append.mp member with old | last
        · obtain ⟨latest, inside, time⟩ := known old chosen
          exact ⟨latest, List.mem_append_left _ inside, time⟩
        · rw [List.mem_singleton.mp last] at chosen
          contradiction
    | failed failing =>
      have old : turn ∈ turns front := by simpa [turns] using member
      have other : id ≠ failing := by
        rintro rfl
        exact calm.succeeded front id back rfl follows turn old chosen
      rw [step id, if_neg other]
      simpa [turns] using known old chosen
    | pruned now removed =>
      have old : turn ∈ turns front := by simpa [turns] using member
      obtain ⟨latest, inside, time⟩ := known old chosen
      have kept : id ∉ removed := by
        intro gone
        obtain ⟨stored, same, stale⟩ := step.1 id gone
        have equal : stored = latest.time := WithBot.coe_inj.mp (same.symm.trans time)
        exact calm.fresh front now removed back rfl follows latest inside (equal ▸ stale)
      rw [step.2 id, if_neg kept]
      exact ⟨latest, by simpa [turns] using inside, time⟩

/-- While somebody waits and is left out at every turn, the turns serve different people
and are full. -/
theorem Run.served_nodup (calm : rules.Undisturbed log) (run : rules.Run level log last)
    (below : ∀ turn ∈ turns log, rules.never < turn.time ∧ ∀ id, level id < turn.time)
    {q : ι} (waiting : ∀ turn ∈ turns log, q ∈ turn.pending)
    (left : ∀ turn ∈ turns log, q ∉ turn.chosen) :
    ((turns log).flatMap Turn.chosen).Nodup ∧
      ((turns log).flatMap Turn.chosen).length = rules.capacity * (turns log).length := by
  induction log using List.reverseRecOn generalizing last with
  | nil => exact ⟨List.nodup_nil, rfl⟩
  | append_singleton log event ih =>
    obtain ⟨next, before, step⟩ := run_concat event |>.mp run
    rw [turns_append] at below waiting left ⊢
    obtain ⟨distinct, count⟩ := ih calm.front before
      (fun turn member => below turn (List.mem_append_left _ member))
      (fun turn member => waiting turn (List.mem_append_left _ member))
      (fun turn member => left turn (List.mem_append_left _ member))
    cases event with
    | failed failing => simpa [turns] using And.intro distinct count
    | pruned now removed => simpa [turns] using And.intro distinct count
    | served turn =>
      have last_turn : turn ∈ turns log ++ turns [.served turn] :=
        List.mem_append_right _ List.mem_cons_self
      have full := step.1.length_eq (waiting turn last_turn) (left turn last_turn)
      change ((turns log ++ [turn]).flatMap Turn.chosen).Nodup ∧
        ((turns log ++ [turn]).flatMap Turn.chosen).length =
          rules.capacity * (turns log ++ [turn]).length
      simp only [List.flatMap_append, List.flatMap_cons, List.flatMap_nil, List.append_nil,
        List.length_append, List.length_singleton, full, count]
      refine ⟨List.nodup_append'.mpr ⟨distinct, step.1.distinct, ?_⟩, (Nat.mul_succ _ _).symm⟩
      -- somebody served before would rank above the one who waits
      intro id earlier again
      obtain ⟨old, member, chosen⟩ := List.mem_flatMap.mp earlier
      have follows : turns [RotationEvent.served turn] ≠ [] := List.cons_ne_nil _ _
      obtain ⟨latest, inside, time⟩ := before.level_of_served calm follows member chosen
      have rank := step.1.ranked id again q (waiting turn last_turn) (left turn last_turn)
      have bound := below latest (List.mem_append_left _ inside)
      rw [time] at rank
      rcases before.level_of_not_served
        (fun other listed => left other (List.mem_append_left _ listed)) with gone | same
      · exact absurd (gone ▸ rank) bound.1.not_ge
      · exact absurd (same ▸ rank) (bound.2 q).not_ge

/-- Turns later than all levels, enough of them to serve everybody once, serve everybody who
waits at all of them. -/
theorem Run.everyone_served (calm : rules.Undisturbed log) (run : rules.Run level log last)
    (below : ∀ turn ∈ turns log, rules.never < turn.time ∧ ∀ id, level id < turn.time)
    {people : Finset ι} (inside : ∀ turn ∈ turns log, ∀ id ∈ turn.pending, id ∈ people)
    (enough : people.card ≤ rules.capacity * (turns log).length) {q : ι} (member : q ∈ people)
    (waiting : ∀ turn ∈ turns log, q ∈ turn.pending) :
    ∃ turn ∈ turns log, q ∈ turn.chosen := by
  by_contra none_serves
  simp only [not_exists, not_and] at none_serves
  obtain ⟨distinct, count⟩ := run.served_nodup calm below waiting none_serves
  have others : ((turns log).flatMap Turn.chosen).toFinset ⊆ people.erase q := by
    intro id listed
    obtain ⟨turn, taken, chosen⟩ := List.mem_flatMap.mp (List.mem_toFinset.mp listed)
    refine Finset.mem_erase.mpr ⟨?_, inside turn taken id (run.chosen_subset taken chosen)⟩
    rintro rfl
    exact none_serves turn taken chosen
  have size := Finset.card_le_card others
  rw [List.toFinset_card_of_nodup distinct, count, Finset.card_erase_of_mem member] at size
  have positive := Finset.card_pos.mpr ⟨q, member⟩
  omega

/-- A machine whose every step runs the rotation through its events runs it as a whole. -/
theorem run_trace {σ ε ο : Type} {m : Machine σ ε ο} {levels : σ → ι → WithBot T}
    {events : Transition σ ε ο → List (RotationEvent ι T)} {holds : σ → Prop}
    (preserved : ∀ s e, holds s → holds (m.step s e).1)
    (follows : ∀ s e, holds s → rules.Run (levels s)
      (events ⟨s, e, (m.step s e).2, (m.step s e).1⟩) (levels (m.step s e).1))
    {s : σ} (initial : holds s) (inputs : List ε) :
    rules.Run (levels s) ((m.trace s inputs).flatMap events) (levels (m.run s inputs)) := by
  induction inputs generalizing s with
  | nil => rfl
  | cons e inputs ih =>
    rw [Machine.trace_cons, List.flatMap_cons, Machine.run_cons]
    exact run_append _ _ |>.mpr ⟨_, follows s e initial, ih (preserved s e initial)⟩

end RotationRules

section Round

variable {T : Type} [LinearOrder T] [AddCommGroup T]

/-- A stretch of a log with as many turns as a set of people needs to be served once, all of
them later than a given history. -/
structure Stretch (history : ι → WithBot T) (capacity : Nat) (span : T)
    (log front body : List (RotationEvent ι T)) (people : Finset ι) : Prop where
  /-- Where the stretch stands in the log. -/
  cut : ∃ back, log = front ++ (body ++ back)
  /-- The number of turns is that of the people by the capacity, rounded up. -/
  count : (turns body).length = (people.card + capacity - 1) / capacity
  /-- Every turn is later than the history. -/
  later : ∀ turn ∈ turns body, ∀ id, history id < turn.time
  /-- Only the people wait. -/
  inside : ∀ turn ∈ turns body, ∀ id ∈ turn.pending, id ∈ people
  /-- Nobody fails after a turn of the stretch. -/
  succeeded : ∀ upTo id rest, body = upTo ++ .failed id :: rest →
    ∀ turn ∈ turns upTo, id ∉ turn.chosen
  /-- No two turns are further apart than the span. -/
  short : ∀ first ∈ turns body, ∀ last ∈ turns body, last.time - first.time ≤ span
  /-- A prune does not read the clock ahead of a later turn. -/
  clocked : ∀ upTo now removed rest, body = upTo ++ .pruned now removed :: rest →
    ∀ turn ∈ turns rest, now ≤ turn.time

/-- A stretch whose turns are also later than all turns in front of it. -/
structure Round (history : ι → WithBot T) (capacity : Nat) (span : T)
    (log front body : List (RotationEvent ι T)) (people : Finset ι) : Prop
    extends Stretch history capacity span log front body people where
  /-- Every turn is later than the turns in front. -/
  after : ∀ turn ∈ turns body, ∀ old ∈ turns front, old.time < turn.time

variable [IsOrderedAddMonoid T] {rules : RotationRules T} {level last : ι → WithBot T}
  {history : ι → WithBot T} {span : T} {log front body : List (RotationEvent ι T)}
  {people : Finset ι}

/-- When nothing within the span is stale, a round is undisturbed. -/
theorem Round.undisturbed {capacity : Nat}
    (round : Round history capacity span log front body people)
    (stale : ∀ now time, rules.stale now time → span < now - time) :
    rules.Undisturbed body where
  succeeded upTo id rest split _ := round.succeeded upTo id rest split
  fresh upTo now removed rest split follows turn member := by
    intro old
    obtain ⟨next, ahead⟩ := List.exists_mem_of_ne_nil _ follows
    have both : turns body = turns upTo ++ turns rest := by
      rw [split, turns_append]
      rfl
    have first : turn ∈ turns body := both ▸ List.mem_append_left _ member
    have second : next ∈ turns body := both ▸ List.mem_append_right _ ahead
    have within := round.short turn first next second
    have reading := round.clocked upTo now removed rest split next ahead
    have beyond := stale now turn.time old
    exact absurd (beyond.trans_le ((sub_le_sub_right reading _).trans within)) (lt_irrefl span)

/-- In a round, whoever waits at every turn is served at some turn. -/
theorem Round.everyone_served [DecidableEq ι]
    (round : Round history rules.capacity span log front body people)
    (run : rules.Run level log last) (room : 1 ≤ rules.capacity)
    (stale : ∀ now time, rules.stale now time → span < now - time)
    (start : ∀ id, level id = rules.never ∨ level id = history id)
    (known : ∀ turn ∈ turns body, rules.never < turn.time) {q : ι} (member : q ∈ people)
    (waiting : ∀ turn ∈ turns body, q ∈ turn.pending) :
    ∃ turn ∈ turns body, q ∈ turn.chosen := by
  obtain ⟨back, cut⟩ := round.cut
  subst cut
  obtain ⟨before, upTo, onward⟩ := RotationRules.run_append _ _ |>.mp run
  obtain ⟨_, through, _⟩ := RotationRules.run_append _ _ |>.mp onward
  have below (turn : Turn ι T) (taken : turn ∈ turns body) :
      rules.never < turn.time ∧ ∀ id, before id < turn.time := by
    refine ⟨known turn taken, fun id => ?_⟩
    rcases upTo.level_cases id with gone | same | ⟨old, earlier, _, time⟩
    · exact gone ▸ known turn taken
    · rcases start id with gone | stored
      · exact (same.trans gone) ▸ known turn taken
      · exact (same.trans stored) ▸ round.later turn taken id
    · exact time ▸ WithBot.coe_lt_coe.mpr (round.after turn taken old earlier)
  have enough : people.card ≤ rules.capacity * (turns body).length := by
    rw [round.count]
    have division := Nat.div_add_mod (people.card + rules.capacity - 1) rules.capacity
    have rest := Nat.mod_lt (people.card + rules.capacity - 1) room
    omega
  exact through.everyone_served (round.undisturbed stale) below round.inside enough member
    waiting

end Round

end BossWorker
