import Mathlib.Data.List.Induction

/-!
# Machines, their runs and simulations

A machine answers each event with a new state and an output. A run folds a list of
events; its trace records every transition in order. The rules here are the only
inductions over runs: an invariant needs one step lemma, a fact about the events so
far needs one step lemma at the end of a run, a fact that has stood since some event
needs one lemma on what can cause it, and agreement of two machines needs one lemma
about related states.
-/

namespace BossWorker

/-- One step of a machine as an observer sees it. -/
structure Transition (σ ε ο : Type) where
  /-- State in which the event arrives. -/
  before : σ
  /-- The event. -/
  event : ε
  /-- What the machine answers. -/
  output : ο
  /-- State the event leaves behind. -/
  after : σ

/-- Some entry of a list begins a matter and every later one lets it stand. -/
def Since {α : Type} (begun stands : α → Prop) (entries : List α) : Prop :=
  ∃ earlier entry later, entries = earlier ++ entry :: later ∧ begun entry ∧
    ∀ other ∈ later, stands other

/-- A deterministic machine with outputs. -/
structure Machine (σ ε ο : Type) where
  /-- The new state and the output at one event. -/
  step : σ → ε → σ × ο

namespace Machine

variable {σ ε ο : Type} (m : Machine σ ε ο)

/-- State after a list of events. -/
def run (s : σ) (events : List ε) : σ := events.foldl (fun s e => (m.step s e).1) s

/-- Every transition of a run, in order. -/
def trace (s : σ) : List ε → List (Transition σ ε ο)
  | [] => []
  | e :: events =>
    ⟨s, e, (m.step s e).2, (m.step s e).1⟩ :: trace (m.step s e).1 events

/-- The outputs of a run, in order. -/
def outputs (s : σ) (events : List ε) : List ο := (m.trace s events).map Transition.output

@[simp] theorem run_nil (s : σ) : m.run s [] = s := rfl

@[simp] theorem run_cons (s : σ) (e : ε) (events : List ε) :
    m.run s (e :: events) = m.run (m.step s e).1 events := rfl

@[simp] theorem trace_nil (s : σ) : m.trace s [] = [] := rfl

@[simp] theorem trace_cons (s : σ) (e : ε) (events : List ε) :
    m.trace s (e :: events) =
      ⟨s, e, (m.step s e).2, (m.step s e).1⟩ :: m.trace (m.step s e).1 events := rfl

/-- A run over two lists runs the second from where the first ends. -/
theorem run_append (s : σ) (first second : List ε) :
    m.run s (first ++ second) = m.run (m.run s first) second := by
  simp only [run, List.foldl_append]

/-- The last event of a run steps the state before it. -/
@[simp] theorem run_concat (s : σ) (events : List ε) (e : ε) :
    m.run s (events ++ [e]) = (m.step (m.run s events) e).1 := by
  rw [run_append, run_cons, run_nil]

/-- A trace over two lists is the two traces in order. -/
theorem trace_append (s : σ) (first second : List ε) :
    m.trace s (first ++ second) = m.trace s first ++ m.trace (m.run s first) second := by
  induction first generalizing s with
  | nil => rfl
  | cons e first ih => rw [List.cons_append, trace_cons, ih, trace_cons, run_cons,
      List.cons_append]

/-- The last event of a run adds one transition. -/
theorem trace_concat (s : σ) (events : List ε) (e : ε) :
    m.trace s (events ++ [e]) = m.trace s events ++
      [⟨m.run s events, e, (m.step (m.run s events) e).2, (m.step (m.run s events) e).1⟩] := by
  rw [trace_append, trace_cons, trace_nil]

/-- The outputs over two lists are the two lists of outputs in order. -/
theorem outputs_append (s : σ) (first second : List ε) :
    m.outputs s (first ++ second) = m.outputs s first ++ m.outputs (m.run s first) second := by
  rw [outputs, trace_append, List.map_append, outputs, outputs]

/-- The last event of a run adds its own output. -/
theorem outputs_concat (s : σ) (events : List ε) (e : ε) :
    m.outputs s (events ++ [e]) = m.outputs s events ++ [(m.step (m.run s events) e).2] := by
  rw [outputs, trace_concat, List.map_append, List.map_singleton, outputs]

/-- An output of a run is the output of one of its steps. -/
theorem exists_of_outputs_eq {s : σ} {events : List ε} {earlier later : List ο} {output : ο}
    (shown : m.outputs s events = earlier ++ output :: later) :
    ∃ first e rest, events = first ++ e :: rest ∧ m.outputs s first = earlier ∧
      (m.step (m.run s first) e).2 = output := by
  induction events generalizing s earlier with
  | nil => exact absurd shown.symm (List.append_ne_nil_of_right_ne_nil _ (List.cons_ne_nil _ _))
  | cons e events ih =>
    have split : m.outputs s (e :: events) =
        (m.step s e).2 :: m.outputs (m.step s e).1 events := rfl
    rw [split] at shown
    cases earlier with
    | nil => exact ⟨[], e, events, rfl, rfl, (List.cons.inj shown).1⟩
    | cons before earlier =>
      obtain ⟨same, rest⟩ := List.cons.inj shown
      obtain ⟨first, event, last, found, seen, answer⟩ := ih rest
      refine ⟨e :: first, event, last, by rw [found, List.cons_append], ?_, answer⟩
      have head : m.outputs s (e :: first) =
          (m.step s e).2 :: m.outputs (m.step s e).1 first := rfl
      rw [head, seen, same]

/-- What one step preserves, a run preserves. -/
theorem run_invariant {holds : σ → Prop} (preserved : ∀ s e, holds s → holds (m.step s e).1)
    {s : σ} (initial : holds s) (events : List ε) : holds (m.run s events) := by
  induction events generalizing s with
  | nil => exact initial
  | cons e events ih => exact ih (preserved s e initial)

/-- A transition of a trace is a step of the machine. -/
theorem step_of_mem_trace {s : σ} {events : List ε} {t : Transition σ ε ο}
    (member : t ∈ m.trace s events) : m.step t.before t.event = (t.after, t.output) := by
  induction events generalizing s with
  | nil => exact absurd member List.not_mem_nil
  | cons e events ih =>
    rcases List.mem_cons.mp member with rfl | later
    · rfl
    · exact ih later

/-- What every admitted step preserves holds around every transition of a trace of admitted
steps. -/
theorem trace_invariant {holds : σ → Prop} {admitted : σ → ε → Prop}
    (preserved : ∀ s e, holds s → admitted s e → holds (m.step s e).1) {s : σ}
    (initial : holds s) (events : List ε)
    (legal : ∀ t ∈ m.trace s events, admitted t.before t.event) :
    ∀ t ∈ m.trace s events, holds t.before ∧ holds t.after := by
  induction events generalizing s with
  | nil => exact fun t member => absurd member List.not_mem_nil
  | cons e events ih =>
    rw [trace_cons, List.forall_mem_cons] at legal
    have next := preserved s e initial legal.1
    rw [trace_cons, List.forall_mem_cons]
    exact ⟨⟨initial, next⟩, ih next legal.2⟩

/-- A fact that only some steps begin and only some let stand was begun by a step of the run
and has stood since. -/
theorem run_since {fact : σ → Prop} {begun stands : Transition σ ε ο → Prop}
    (caused : ∀ s e, fact (m.step s e).1 →
      begun ⟨s, e, (m.step s e).2, (m.step s e).1⟩ ∨
        (fact s ∧ stands ⟨s, e, (m.step s e).2, (m.step s e).1⟩)) {s : σ}
    (initial : ¬ fact s) (events : List ε) (reached : fact (m.run s events)) :
    Since begun stands (m.trace s events) := by
  induction events using List.reverseRecOn with
  | nil => exact absurd reached initial
  | append_singleton events e ih =>
    rw [run_concat] at reached
    rw [trace_concat]
    rcases caused _ e reached with first | ⟨before, still⟩
    · exact ⟨_, _, [], rfl, first, fun later none => absurd none List.not_mem_nil⟩
    · obtain ⟨earlier, step, later, split, began, rest⟩ := ih before
      let last : Transition σ ε ο :=
        ⟨m.run s events, e, (m.step (m.run s events) e).2, (m.step (m.run s events) e).1⟩
      refine ⟨earlier, step, later ++ [last], ?_, began, ?_⟩
      · rw [split, List.append_assoc, List.cons_append]
      · rw [List.forall_mem_append, List.forall_mem_singleton]
        exact ⟨rest, still⟩

/-- A fact about a run, its events and its trace, carried along from the first event on. -/
theorem run_history (holds : List ε → σ → List (Transition σ ε ο) → Prop) {s : σ}
    (initial : holds [] s [])
    (extended : ∀ events e, holds events (m.run s events) (m.trace s events) →
      holds (events ++ [e]) (m.step (m.run s events) e).1
        (m.trace s events ++
          [⟨m.run s events, e, (m.step (m.run s events) e).2, (m.step (m.run s events) e).1⟩]))
    (events : List ε) : holds events (m.run s events) (m.trace s events) := by
  induction events using List.reverseRecOn with
  | nil => exact initial
  | append_singleton events e ih =>
    rw [run_concat, trace_concat]
    exact extended events e ih

end Machine

section Simulation

variable {σ τ ε ο : Type}

/-- Two machines answer every admitted event alike in related states and stay related. -/
structure Simulation (left : Machine σ ε ο) (right : Machine τ ε ο)
    (admitted : ε → Prop) where
  /-- The correspondence of states. -/
  related : σ → τ → Prop
  /-- Related states answer alike. -/
  answers : ∀ s t e, related s t → admitted e → (left.step s e).2 = (right.step t e).2
  /-- Related states stay related. -/
  steps : ∀ s t e, related s t → admitted e → related (left.step s e).1 (right.step t e).1

namespace Simulation

variable {left : Machine σ ε ο} {right : Machine τ ε ο} {admitted : ε → Prop}

/-- Related states stay related along a run of admitted events. -/
theorem run_related (sim : Simulation left right admitted) {s : σ} {t : τ}
    (start : sim.related s t) (events : List ε) (legal : ∀ e ∈ events, admitted e) :
    sim.related (left.run s events) (right.run t events) := by
  induction events generalizing s t with
  | nil => exact start
  | cons e events ih =>
    have first := legal e List.mem_cons_self
    exact ih (sim.steps s t e start first) fun later member =>
      legal later (List.mem_cons_of_mem e member)

/-- Related states give the same outputs along a run of admitted events. -/
theorem outputs_eq (sim : Simulation left right admitted) {s : σ} {t : τ}
    (start : sim.related s t) (events : List ε) (legal : ∀ e ∈ events, admitted e) :
    left.outputs s events = right.outputs t events := by
  induction events generalizing s t with
  | nil => rfl
  | cons e events ih =>
    have first := legal e List.mem_cons_self
    have rest := ih (sim.steps s t e start first) fun later member =>
      legal later (List.mem_cons_of_mem e member)
    simp only [Machine.outputs, Machine.trace_cons, List.map_cons] at rest ⊢
    rw [sim.answers s t e start first, rest]

end Simulation

end Simulation

end BossWorker
