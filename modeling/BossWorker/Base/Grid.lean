import Mathlib.Data.List.Induction

/-!
# Two-dimensional arrays and the loops that fill them

A grid has a shape and a cell for every pair of positions; cells outside the shape are
never read. `sweep` is the double loop over two enumerated lists. A loop body that touches
its own cell only leaves every cell with what its one visit made of it.
-/

namespace BossWorker

/-- A two-dimensional array. -/
structure Grid (α : Type) where
  /-- Number of rows. -/
  rows : Nat
  /-- Number of columns. -/
  cols : Nat
  /-- The cell of a row and a column. -/
  cell : Nat → Nat → α

namespace Grid

variable {α : Type}

/-- The array with one value everywhere. -/
def fromElem (rows cols : Nat) (value : α) : Grid α := ⟨rows, cols, fun _ _ => value⟩

/-- Assignment to one cell. -/
def set (grid : Grid α) (row col : Nat) (value : α) : Grid α :=
  { grid with cell := fun r c => if r = row ∧ c = col then value else grid.cell r c }

@[simp] theorem rows_set (grid : Grid α) (row col : Nat) (value : α) :
    (grid.set row col value).rows = grid.rows := rfl

@[simp] theorem cols_set (grid : Grid α) (row col : Nat) (value : α) :
    (grid.set row col value).cols = grid.cols := rfl

@[simp] theorem cell_set (grid : Grid α) (row col r c : Nat) (value : α) :
    (grid.set row col value).cell r c = if r = row ∧ c = col then value else grid.cell r c :=
  rfl

end Grid

section Sweep

variable {σ α β γ : Type}

/-- The inner loop of a sweep, over the columns of one row. -/
def sweepRow (body : σ → Nat → Nat → α → β → σ) (state : σ) (row : α × Nat) (cols : List β) :
    σ :=
  cols.zipIdx.foldl (fun state col => body state row.2 col.2 row.1 col.1) state

/-- The double loop over two enumerated lists. -/
def sweep (body : σ → Nat → Nat → α → β → σ) (state : σ) (rows : List α) (cols : List β) : σ :=
  rows.zipIdx.foldl (fun state row => sweepRow body state row cols) state

/-- A loop body that changes its own cell only, as seen by a reader of cells. -/
def TouchesOwnCell (body : σ → Nat → Nat → α → β → σ) (look : σ → Nat → Nat → γ)
    (update : α → β → γ → γ) : Prop :=
  ∀ state row col a b r c, look (body state row col a b) r c =
    if r = row ∧ c = col then update a b (look state r c) else look state r c

variable {body : σ → Nat → Nat → α → β → σ} {look : σ → Nat → Nat → γ}
  {update : α → β → γ → γ}

/-- The inner loop updates the cells of its row. -/
theorem look_sweepRow (own : TouchesOwnCell body look update) (state : σ) (row : α × Nat)
    (cols : List β) (r c : Nat) :
    look (sweepRow body state row cols) r c =
      match cols[c]? with
      | some b => if r = row.2 then update row.1 b (look state r c) else look state r c
      | none => look state r c := by
  induction cols using List.reverseRecOn with
  | nil => rfl
  | append_singleton cols last ih =>
    simp only [sweepRow, List.zipIdx_append, List.foldl_append, List.zipIdx_singleton,
      List.foldl_cons, List.foldl_nil, Nat.zero_add] at ih ⊢
    rw [own, ih]
    rcases Nat.lt_trichotomy c cols.length with inside | rfl | outside
    · have other : ¬ (r = row.2 ∧ c = cols.length) := by omega
      rw [if_neg other, List.getElem?_append_left inside]
    · have absent : cols[cols.length]? = none := List.getElem?_eq_none (Nat.le_refl _)
      rw [List.getElem?_concat_length, absent]
      by_cases same : r = row.2
      · simp [same]
      · simp [same]
    · have other : ¬ (r = row.2 ∧ c = cols.length) := by omega
      have absent : cols[c]? = none := List.getElem?_eq_none (Nat.le_of_lt outside)
      have beyond : (cols ++ [last])[c]? = none := by
        apply List.getElem?_eq_none
        rw [List.length_append, List.length_singleton]
        omega
      rw [if_neg other, absent, beyond]

/-- A sweep updates every cell that both lists reach, once. -/
theorem look_sweep (own : TouchesOwnCell body look update) (state : σ) (rows : List α)
    (cols : List β) (r c : Nat) :
    look (sweep body state rows cols) r c =
      match rows[r]?, cols[c]? with
      | some a, some b => update a b (look state r c)
      | _, _ => look state r c := by
  induction rows using List.reverseRecOn with
  | nil => rfl
  | append_singleton rows last ih =>
    simp only [sweep, List.zipIdx_append, List.foldl_append, List.zipIdx_singleton,
      List.foldl_cons, List.foldl_nil, Nat.zero_add] at ih ⊢
    rw [look_sweepRow own, ih]
    rcases Nat.lt_trichotomy r rows.length with inside | rfl | outside
    · rw [List.getElem?_append_left inside]
      cases cols[c]? with
      | none => simp
      | some b => simp [Nat.ne_of_lt inside]
    · have absent : rows[rows.length]? = none := List.getElem?_eq_none (Nat.le_refl _)
      rw [List.getElem?_concat_length, absent]
      cases cols[c]? with
      | none => simp
      | some b => simp
    · have absent : rows[r]? = none := List.getElem?_eq_none (Nat.le_of_lt outside)
      have beyond : (rows ++ [last])[r]? = none := by
        apply List.getElem?_eq_none
        rw [List.length_append, List.length_singleton]
        omega
      rw [absent, beyond]
      cases cols[c]? with
      | none => simp
      | some b => simp [Nat.ne_of_gt outside]

end Sweep

end BossWorker
