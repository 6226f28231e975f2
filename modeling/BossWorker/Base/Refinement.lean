import BossWorker.Base.Machine

/-!
# Refinement and termination of machines

A fine machine refines a coarse one when every step of it is explained by steps of the
coarse machine: by none where the coarse machine sees nothing, by several where it would
take longer. Then a whole run is explained too, and what is known of every coarse run is
known of the images of fine runs. A kind of step that lowers a number, and of which one is
due until the number is zero, comes to an end in whatever order the steps are taken.
-/

namespace BossWorker

/-- An explanation of a fine machine by a coarse one, among the states that satisfy an
invariant. -/
structure Refinement {σ ε ο τ δ ω : Type} (fine : Machine σ ε ο) (coarse : Machine τ δ ω)
    (β : Type) where
  /-- The invariant of the fine states. -/
  holds : σ → Prop
  /-- The coarse state that a fine state stands for. -/
  image : σ → τ
  /-- The coarse events that explain a fine event. -/
  explain : σ → ε → List δ
  /-- What an output of the fine machine shows. -/
  shown : ο → List β
  /-- What an output of the coarse machine shows. -/
  seen : ω → List β
  /-- Every step keeps the invariant. -/
  preserved : ∀ s e, holds s → holds (fine.step s e).1
  /-- The image follows the explanation. -/
  steps : ∀ s e, holds s → image (fine.step s e).1 = coarse.run (image s) (explain s e)
  /-- The explanation shows what the step shows. -/
  answers : ∀ s e, holds s →
    shown (fine.step s e).2 = (coarse.outputs (image s) (explain s e)).flatMap seen

namespace Refinement

variable {σ ε ο τ δ ω β : Type} {fine : Machine σ ε ο} {coarse : Machine τ δ ω}
  (refined : Refinement fine coarse β)

/-- The coarse events that explain a run. -/
def explained (s : σ) : List ε → List δ
  | [] => []
  | e :: events => refined.explain s e ++ explained (fine.step s e).1 events

/-- The image of a run is the run of its explanation. -/
theorem image_run {s : σ} (initial : refined.holds s) (events : List ε) :
    refined.image (fine.run s events) =
      coarse.run (refined.image s) (refined.explained s events) := by
  induction events generalizing s with
  | nil => rfl
  | cons e events ih =>
    rw [Machine.run_cons, ih (refined.preserved s e initial), explained, Machine.run_append,
      refined.steps s e initial]

/-- A run shows what its explanation shows. -/
theorem shown_outputs {s : σ} (initial : refined.holds s) (events : List ε) :
    (fine.outputs s events).flatMap refined.shown =
      (coarse.outputs (refined.image s) (refined.explained s events)).flatMap refined.seen := by
  induction events generalizing s with
  | nil => rfl
  | cons e events ih =>
    have rest := ih (refined.preserved s e initial)
    rw [refined.steps s e initial] at rest
    rw [explained, Machine.outputs_append, List.flatMap_append, ← refined.answers s e initial,
      ← rest]
    rfl

/-- A part of the explanation that can be read off every single event can be read off the
events of a run. -/
theorem filterMap_explained {γ : Type} {read : δ → Option γ} {given : ε → Option γ}
    (each : ∀ s e, refined.holds s →
      (refined.explain s e).filterMap read = (given e).toList)
    {s : σ} (initial : refined.holds s) (events : List ε) :
    (refined.explained s events).filterMap read = events.filterMap given := by
  induction events generalizing s with
  | nil => rfl
  | cons e events ih =>
    rw [explained, List.filterMap_append, each s e initial,
      ih (refined.preserved s e initial), List.filterMap_cons]
    cases given e with
    | none => rfl
    | some found => rfl

/-- What the coarse events that are read off the fine ones satisfy, and all others, all
coarse events of an explanation satisfy. -/
theorem forall_mem_explained (admitted : δ → Prop) {γ : Type} {read : δ → Option γ}
    {given : ε → Option γ}
    (each : ∀ s e, refined.holds s →
      (refined.explain s e).filterMap read = (given e).toList)
    {s : σ} (initial : refined.holds s) (events : List ε)
    (silent : ∀ d, read d = none → admitted d)
    (fed : ∀ e ∈ events, ∀ found, given e = some found → ∀ d, read d = some found → admitted d) :
    ∀ d ∈ refined.explained s events, admitted d := by
  intro d member
  cases seen : read d with
  | none => exact silent d seen
  | some found =>
    have listed : found ∈ (refined.explained s events).filterMap read :=
      List.mem_filterMap.mpr ⟨d, member, seen⟩
    rw [refined.filterMap_explained each initial events] at listed
    obtain ⟨e, present, same⟩ := List.mem_filterMap.mp listed
    exact fed e present found same d seen

end Refinement

/-- Steps of one kind that come to an end: each lowers a number, and one is due unless the
number is zero. -/
structure Descent {σ ε ο : Type} (m : Machine σ ε ο) (due : σ → ε → Prop) where
  /-- The invariant of the states. -/
  holds : σ → Prop
  /-- Steps that are left at most. -/
  left : σ → Nat
  /-- A due step keeps the invariant. -/
  preserved : ∀ s e, holds s → due s e → holds (m.step s e).1
  /-- A due step lowers the number. -/
  lowers : ∀ s e, holds s → due s e → left (m.step s e).1 < left s
  /-- Above zero a step is due. -/
  waits : ∀ s, holds s → 0 < left s → ∃ e, due s e

namespace Descent

variable {σ ε ο : Type} {m : Machine σ ε ο} {due : σ → ε → Prop} (descent : Descent m due)

/-- Due steps keep the invariant. -/
theorem holds_run {s : σ} (initial : descent.holds s) {events : List ε}
    (taken : ∀ t ∈ m.trace s events, due t.before t.event) : descent.holds (m.run s events) := by
  induction events generalizing s with
  | nil => exact initial
  | cons e events ih =>
    rw [Machine.trace_cons, List.forall_mem_cons] at taken
    exact ih (descent.preserved s e initial taken.1) taken.2

/-- Every due step is paid for. -/
theorem left_run_add_length_le {s : σ} (initial : descent.holds s) {events : List ε}
    (taken : ∀ t ∈ m.trace s events, due t.before t.event) :
    descent.left (m.run s events) + events.length ≤ descent.left s := by
  induction events generalizing s with
  | nil => exact Nat.le_refl _
  | cons e events ih =>
    rw [Machine.trace_cons, List.forall_mem_cons] at taken
    have later := ih (descent.preserved s e initial taken.1) taken.2
    have first := descent.lowers s e initial taken.1
    rw [Machine.run_cons, List.length_cons]
    omega

/-- Due steps that cannot be continued have used everything up. -/
theorem left_eq_zero {s : σ} (initial : descent.holds s) {events : List ε}
    (taken : ∀ t ∈ m.trace s events, due t.before t.event)
    (stuck : ∀ e, ¬ due (m.run s events) e) : descent.left (m.run s events) = 0 := by
  by_contra remaining
  have positive : 0 < descent.left (m.run s events) := by omega
  have kept := descent.holds_run initial taken
  cases descent.waits _ kept positive with
  | intro e next => exact stuck e next

/-- From every state due steps lead to the end. -/
theorem exists_run_left_eq_zero {s : σ} (initial : descent.holds s) :
    ∃ events, (∀ t ∈ m.trace s events, due t.before t.event) ∧
      descent.left (m.run s events) = 0 := by
  induction bound : descent.left s using Nat.strongRecOn generalizing s with
  | ind number ih =>
    by_cases done : number = 0
    · exact ⟨[], fun t member => absurd member List.not_mem_nil, bound.trans done⟩
    · have positive : 0 < descent.left s := by omega
      obtain ⟨e, next⟩ := descent.waits s initial positive
      have lower := descent.lowers s e initial next
      rw [bound] at lower
      obtain ⟨events, taken, ended⟩ :=
        ih _ lower (descent.preserved s e initial next) rfl
      refine ⟨e :: events, ?_, ended⟩
      rw [Machine.trace_cons, List.forall_mem_cons]
      exact ⟨next, taken⟩

/-- After any run that keeps the invariant, at most a known number of due steps follows, in any
order; when none is due any more, and in some order that is reached, the end is reached that
having no step left stands for. -/
theorem ends {s : σ} {events : List ε} (initial : descent.holds (m.run s events))
    (ended : List ε → σ → Prop)
    (done : ∀ steps, (∀ t ∈ m.trace (m.run s events) steps, due t.before t.event) →
      descent.holds (m.run s (events ++ steps)) → descent.left (m.run s (events ++ steps)) = 0 →
        ended (events ++ steps) (m.run s (events ++ steps))) :
    (∀ steps, (∀ t ∈ m.trace (m.run s events) steps, due t.before t.event) →
      steps.length ≤ descent.left (m.run s events) ∧
        ((∀ e, ¬ due (m.run (m.run s events) steps) e) →
          ended (events ++ steps) (m.run (m.run s events) steps))) ∧
      ∃ steps, (∀ t ∈ m.trace (m.run s events) steps, due t.before t.event) ∧
        ended (events ++ steps) (m.run (m.run s events) steps) := by
  simp only [m.run_append] at done
  constructor
  · intro steps taken
    have paid := descent.left_run_add_length_le initial taken
    constructor
    · omega
    · intro stuck
      have kept := descent.holds_run initial taken
      exact done steps taken kept (descent.left_eq_zero initial taken stuck)
  · obtain ⟨steps, taken, nothing⟩ := descent.exists_run_left_eq_zero initial
    have kept := descent.holds_run initial taken
    exact ⟨steps, taken, done steps taken kept nothing⟩

end Descent

end BossWorker
