import Mathlib.Data.List.Basic

/-!
# What stands in a list of calls

`StandsAt undo l before c`: `c` comes after `before` in `l`, and no later element undoes it.
`Standing did undo l`: something that was done stands.

- `StandsAt.last`, `StandsAt.snoc`: what one more call does to it.
- `Standing.of_did`, `Standing.snoc`, `Standing.of_snoc`: the same, of what stands.
-/

namespace GpgFrontend

variable {α : Type} {did undo : α → Prop} {l before : List α} {c d : α}

def StandsAt (undo : α → Prop) (l before : List α) (c : α) : Prop :=
  ∃ after, l = before ++ c :: after ∧ ∀ c' ∈ after, ¬ undo c'

theorem StandsAt.last : StandsAt undo (l ++ [c]) l c :=
  ⟨[], rfl, fun _ hc => absurd hc List.not_mem_nil⟩

theorem StandsAt.snoc (h : StandsAt undo l before c) (hd : ¬ undo d) :
    StandsAt undo (l ++ [d]) before c := by
  obtain ⟨after, rfl, hafter⟩ := h
  refine ⟨after ++ [d], by simp, fun c' hc' => ?_⟩
  rcases List.mem_append.mp hc' with hc' | hc'
  · exact hafter c' hc'
  · rwa [List.mem_singleton.mp hc']

theorem StandsAt.of_snoc (h : StandsAt undo (l ++ [d]) before c) :
    (l = before ∧ d = c) ∨ (StandsAt undo l before c ∧ ¬ undo d) := by
  obtain ⟨after, heq, hafter⟩ := h
  rcases List.eq_nil_or_concat after with rfl | ⟨after', c', rfl⟩
  · exact Or.inl (by simpa using List.append_inj' heq rfl)
  · rw [List.concat_eq_append, ← List.cons_append, ← List.append_assoc] at heq
    obtain ⟨rfl, rfl⟩ : l = before ++ c :: after' ∧ d = c' := by
      simpa using List.append_inj' heq rfl
    refine Or.inr ⟨⟨after', rfl, fun x hx => hafter x ?_⟩, hafter d ?_⟩ <;> simp_all

theorem StandsAt.mem (h : StandsAt undo l before c) : c ∈ l := by
  obtain ⟨after, rfl, -⟩ := h
  simp

/-- Something was done, and nothing after it undoes it. -/
def Standing (did undo : α → Prop) (l : List α) : Prop :=
  ∃ before c, StandsAt undo l before c ∧ did c

theorem Standing.of_did (h : did c) : Standing did undo (l ++ [c]) := ⟨l, c, .last, h⟩

theorem Standing.snoc (h : Standing did undo l) (hc : ¬ undo c) : Standing did undo (l ++ [c]) := by
  obtain ⟨before, d, hstands, hd⟩ := h
  exact ⟨before, d, hstands.snoc hc, hd⟩

theorem Standing.of_snoc (h : Standing did undo (l ++ [c])) (hc : ¬ did c) :
    Standing did undo l ∧ ¬ undo c := by
  obtain ⟨before, d, hstands, hd⟩ := h
  rcases hstands.of_snoc with ⟨-, rfl⟩ | ⟨hstands, hundo⟩
  · exact absurd hd hc
  · exact ⟨⟨before, d, hstands, hd⟩, hundo⟩

end GpgFrontend
