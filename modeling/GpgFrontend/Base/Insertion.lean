import Mathlib.Data.List.Forall2

/-!
# Lists with members inserted

`Inserted bad l l'`: `l'` is `l` with any number of members put in anywhere, each of which
satisfies `bad`. A reader that filters by a test no such member passes sees the same list.

- `Inserted.filter_eq`, `Inserted.any_eq`: the two readers.
-/

namespace GpgFrontend

section

variable {α β : Type}

/-- `l'` is `l` with members satisfying `bad` inserted. -/
inductive Inserted (bad : α → Prop) : List α → List α → Prop
  | nil : Inserted bad [] []
  | keep {l l' : List α} (a : α) : Inserted bad l l' → Inserted bad (a :: l) (a :: l')
  | extra {l l' : List α} (a : α) : bad a → Inserted bad l l' → Inserted bad l (a :: l')

variable {l l' : List α}

variable {bad : α → Prop}

theorem Inserted.append {m m' : List α} (h : Inserted bad l l') (hm : Inserted bad m m') :
    Inserted bad (l ++ m) (l' ++ m') := by
  induction h with
  | nil => exact hm
  | keep a _ ih => exact .keep a ih
  | extra a ha _ ih => exact .extra a ha ih

variable {p : α → Bool}

/-- **A filter no inserted member passes does not see the insertion.** -/
theorem Inserted.filter_eq (hbad : ∀ a, bad a → p a = false) (h : Inserted bad l l') :
    l'.filter p = l.filter p := by
  induction h with
  | nil => rfl
  | keep a _ ih =>
    by_cases ha : p a
    · simp [ha, ih]
    · simp [ha, ih]
  | extra a ha _ ih => simp [hbad a ha, ih]

theorem Inserted.any_eq (hbad : ∀ a, bad a → p a = false) (h : Inserted bad l l') :
    l'.any p = l.any p := by
  induction h with
  | nil => rfl
  | keep a _ ih => simp [ih]
  | extra a ha _ ih => simp [hbad a ha, ih]

/-! ## Reading member by member -/

variable {R : α → α → Prop}

theorem filter_map_congr {f : α → β} (hp : ∀ a a', R a a' → p a' = p a)
    (hf : ∀ a a', R a a' → f a' = f a) (h : List.Forall₂ R l l') :
    (l'.filter p).map f = (l.filter p).map f := by
  induction h with
  | nil => rfl
  | cons hR _ ih =>
    rename_i a a' l l' _
    by_cases ha : p a
    · simp [hp a a' hR, ha, hf a a' hR, ih]
    · simp [hp a a' hR, ha, ih]

theorem map_forall₂_congr {f g : α → β} (hf : ∀ a a', R a a' → g a' = f a)
    (h : List.Forall₂ R l l') : l'.map g = l.map f := by
  induction h with
  | nil => rfl
  | cons hR _ ih => simp only [List.map_cons, hf _ _ hR, ih]

theorem zipIdx_filterMap_congr {f : α × Nat → Option β}
    (hf : ∀ a a' i, R a a' → f (a', i) = f (a, i)) (h : List.Forall₂ R l l') :
    ∀ start : Nat, (l'.zipIdx start).filterMap f = (l.zipIdx start).filterMap f := by
  induction h with
  | nil => intro start; rfl
  | cons hR _ ih =>
    intro start
    simp only [List.zipIdx_cons, List.filterMap_cons, hf _ _ start hR, ih (start + 1)]

/-- Members that satisfy `p`, paired with members they are related to. -/
theorem forall₂_of_forall_mem {p : α → Prop} {R S : α → β → Prop} {l' : List β}
    (h : List.Forall₂ R l l') (hp : ∀ a ∈ l, p a) (hS : ∀ a b, p a → R a b → S a b) :
    List.Forall₂ S l l' :=
  ((List.forall₂_and_left l l').2 ⟨hp, h⟩).imp fun a b hab => hS a b hab.1 hab.2

end

end GpgFrontend
