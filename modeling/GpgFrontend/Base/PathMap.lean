import Mathlib.Data.List.Infix

/-!
# Maps from paths to values

- `PathMap.HasBelow M p`: a value lies at the path or below it.
-/

namespace GpgFrontend

/-- A value, or none, for every path. -/
abbrev PathMap (σ β : Type) := List σ → Option β

namespace PathMap

variable {σ β : Type} [DecidableEq σ] (M : PathMap σ β) (p q : List σ)

def set (v : β) : PathMap σ β := Function.update M p (some v)

def removeBelow : PathMap σ β := fun q => if p <+: q then none else M q

omit [DecidableEq σ] in
/-- There is something to remove at the path. -/
def HasBelow : Prop := ∃ q, p <+: q ∧ M q ≠ none

variable {M p q}

theorem set_apply (v : β) : M.set p v q = if q = p then some v else M q :=
  Function.update_apply M p (some v) q

/-- Removing where nothing is changes nothing. -/
theorem removeBelow_of_not_hasBelow (h : ¬M.HasBelow p) : M.removeBelow p = M := by
  funext q
  unfold removeBelow
  split
  · next hq =>
    by_contra hne
    exact h ⟨q, hq, fun hnone => hne hnone.symm⟩
  · rfl

end PathMap

end GpgFrontend
