import Mathlib.Data.List.Nodup

/-!
# Merging into a capped list

Items are known by a key. `mergeCapped` adds to a list the items of another that it lacks:
exempt ones whenever they are admitted, the others while the list is below its cap.
`dedupFrom` keeps the first item of each key.
-/

namespace GpgFrontend

section

variable {α κ : Type} [DecidableEq κ] (key : α → κ)

/-! ## Without duplicates -/

/-- Keeps the first item of each key not seen before. -/
def dedupFrom (seen : List κ) : List α → List α
  | [] => []
  | a :: l => if key a ∈ seen then dedupFrom seen l else a :: dedupFrom (key a :: seen) l

/-! ## The merge -/

variable (exempt accepts : α → Bool) (cap : Nat)

/-- Adds one item. -/
def addCapped (dst : List α) (a : α) : List α :=
  if dst.any fun b => decide (key b = key a) then dst
  else if exempt a && !accepts a then dst
  else if !exempt a && decide (cap ≤ dst.length) then dst
  else dst ++ [a]

/-- Adds the items of `src`, in order. -/
def mergeCapped (dst src : List α) : List α := src.foldl (addCapped key exempt accepts cap) dst

variable {key exempt accepts cap}

/-- One of each key is kept. -/
theorem dedupFrom_holds {l : List α} {a : α} {seen : List κ} (ha : a ∈ l) (hseen : key a ∉ seen) :
    ∃ b ∈ dedupFrom key seen l, key b = key a := by
  induction l generalizing seen with
  | nil => cases ha
  | cons c l ih =>
    rw [dedupFrom]
    rcases List.mem_cons.1 ha with rfl | ha
    · rw [if_neg hseen]
      exact ⟨a, .head _, rfl⟩
    · split
      · exact ih ha hseen
      · by_cases hkey : key a = key c
        · exact ⟨c, .head _, hkey.symm⟩
        · have hseen' : key a ∉ key c :: seen := by simp [hkey, hseen]
          obtain ⟨b, hb, hba⟩ := ih ha hseen'
          exact ⟨b, .tail _ hb, hba⟩

theorem prefix_addCapped (dst : List α) (a : α) :
    dst <+: addCapped key exempt accepts cap dst a := by
  unfold addCapped
  repeat' split
  all_goals first | exact List.prefix_rfl | exact List.prefix_append _ _

/-- Nothing is lost. -/
theorem prefix_mergeCapped (dst src : List α) :
    dst <+: mergeCapped key exempt accepts cap dst src := by
  induction src generalizing dst with
  | nil => exact List.prefix_rfl
  | cons a src ih => exact (prefix_addCapped dst a).trans (ih _)

/-- What is exempt and accepted gets in, whatever stands before it. -/
theorem mergeCapped_holds {src : List α} {a : α} (ha : a ∈ src) (hexempt : exempt a = true)
    (haccepts : accepts a = true) (dst : List α) :
    ∃ b ∈ mergeCapped key exempt accepts cap dst src, key b = key a := by
  induction src generalizing dst with
  | nil => cases ha
  | cons c src ih =>
    rcases List.mem_cons.1 ha with rfl | ha
    · have hin : ∃ b ∈ addCapped key exempt accepts cap dst a, key b = key a := by
        unfold addCapped
        split
        · next hany => simpa using hany
        · exact ⟨a, by simp [hexempt, haccepts], rfl⟩
      obtain ⟨b, hb, hkey⟩ := hin
      exact ⟨b, (prefix_mergeCapped _ src).subset hb, hkey⟩
    · exact ih ha _

end

end GpgFrontend
