import Mathlib.Data.List.Basic

/-!
# Statements in a transaction

A statement runs or not, as the engine pleases, and may break a constraint; either way it
fails and leaves the tables alone. A program decides for each statement whether it looks.
-/

namespace GpgFrontend

universe u v

/-- The tables as a transaction sees them, and whether a statement has failed in it. -/
structure Transaction (σ : Type u) where
  tables : σ
  failed : Bool := false

namespace Transaction

variable {σ : Type u} {α : Type v}

/-- One statement. `runs` is the engine's part; `none` is a constraint that would break. -/
def exec (runs : Bool) (change : σ → Option σ) (t : Transaction σ) : Bool × Transaction σ :=
  match (if runs then change t.tables else none) with
  | some tables => (true, { t with tables })
  | none => (false, { t with failed := true })

/-- A statement for each element, numbered from `i`, until one fails. -/
def execEach (runs : Nat → Bool) (change : α → σ → Option σ) :
    List α → Nat → Transaction σ → Bool × Transaction σ
  | [], _, t => (true, t)
  | x :: xs, i, t =>
    match t.exec (runs i) (change x) with
    | (false, t) => (false, t)
    | (true, t) => execEach runs change xs (i + 1) t

/-- What all the statements make of the tables, unless one breaks a constraint. -/
def changeEach (change : α → σ → Option σ) (xs : List α) (tables : σ) : Option σ :=
  xs.foldlM (fun tables x => change x tables) tables

/-- The engine runs all of them. -/
def Runs (runs : Nat → Bool) (i n : Nat) : Prop := ∀ j < n, runs (i + j) = true

variable {runs : Nat → Bool} {run : Bool} {change : α → σ → Option σ} {op : σ → Option σ}
  {t : Transaction σ} {tables : σ} {xs : List α} {x : α} {i : Nat}

@[simp] theorem exec_false : t.exec false op = (false, { t with failed := true }) := rfl

theorem exec_of_some (h : op t.tables = some tables) :
    t.exec true op = (true, { t with tables }) := by
  rw [exec, if_pos rfl, h]

theorem exec_of_none (h : op t.tables = none) :
    t.exec run op = (false, { t with failed := true }) := by
  cases run with
  | false => rfl
  | true => rw [exec, if_pos rfl, h]

theorem runs_zero : Runs runs i 0 := fun _ h => absurd h (Nat.not_lt_zero _)

theorem runs_succ {n : Nat} : Runs runs i (n + 1) ↔ runs i = true ∧ Runs runs (i + 1) n := by
  constructor
  · intro h
    refine ⟨h 0 (Nat.succ_pos n), fun j hj => ?_⟩
    rw [Nat.add_right_comm]
    exact h (j + 1) (Nat.succ_lt_succ hj)
  · rintro ⟨hfirst, hrest⟩ j hj
    cases j with
    | zero => exact hfirst
    | succ j =>
      have := hrest j (Nat.lt_of_succ_lt_succ hj)
      rwa [Nat.add_right_comm] at this

theorem changeEach_cons :
    changeEach change (x :: xs) tables = (change x tables).bind (changeEach change xs) := rfl

/-- All the statements run and no constraint breaks. -/
theorem execEach_of_runs (hruns : Runs runs i xs.length)
    (h : changeEach change xs t.tables = some tables) :
    t.execEach runs change xs i = (true, { t with tables }) := by
  induction xs generalizing t i with
  | nil =>
    obtain rfl := Option.some.inj h
    rfl
  | cons x xs ih =>
    obtain ⟨hfirst, hrest⟩ := runs_succ.mp hruns
    rw [changeEach_cons] at h
    obtain ⟨next, hnext, h⟩ := Option.bind_eq_some_iff.mp h
    rw [execEach, hfirst, exec_of_some hnext]
    exact ih (t := { t with tables := next }) hrest h

/-- One of them fails, and the loop says so. -/
theorem execEach_of_not_runs (runs : Nat → Bool) (change : α → σ → Option σ) (xs : List α)
    (i : Nat) (t : Transaction σ)
    (h : ¬ (Runs runs i xs.length ∧ (changeEach change xs t.tables).isSome = true)) :
    ∃ t', t.execEach runs change xs i = (false, t') ∧ t'.failed = true := by
  induction xs generalizing t i with
  | nil => exact absurd ⟨runs_zero, rfl⟩ h
  | cons x xs ih =>
    rw [execEach]
    cases hrun : runs i with
    | false => exact ⟨_, rfl, rfl⟩
    | true =>
      cases hnext : change x t.tables with
      | none =>
        rw [exec_of_none hnext]
        exact ⟨_, rfl, rfl⟩
      | some next =>
        rw [exec_of_some hnext]
        refine ih _ _ fun hrest => h ⟨runs_succ.mpr ⟨hrun, hrest.1⟩, ?_⟩
        rw [changeEach_cons, hnext]
        exact hrest.2

end Transaction

end GpgFrontend
