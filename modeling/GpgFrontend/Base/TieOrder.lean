import Mathlib.Data.List.Perm.Basic
import Mathlib.Data.Set.Function

/-!
# Lists whose ties end alike

A reader that takes the greatest or the least member by a key meets ties. It takes the last of
the greatest or the first of the least, so what it finds depends on the order of the list only
through the ends of the classes of equal keys.

- `SameTieEnds key l l'`: in each class both lists end with the same member, and in the least
  one they begin with the same member too.
-/

namespace GpgFrontend

section

variable {α β : Type} [DecidableEq β] (key : α → β)

/-- The members whose key is `k`, in order. -/
def tieClass (k : β) (l : List α) : List α := l.filter fun a => decide (key a = k)

/-- In each class of equal keys the two lists end with the same member. -/
def SameLasts (l l' : List α) : Prop :=
  ∀ k, (tieClass key k l).getLast? = (tieClass key k l').getLast?

/-- And in the class of the least key they begin with the same member. -/
structure SameTieEnds [LE β] (l l' : List α) : Prop where
  lasts : SameLasts key l l'
  first : ∀ k, (∀ a ∈ l, k ≤ key a) → (tieClass key k l).head? = (tieClass key k l').head?

variable {key} {l l' : List α}

theorem mem_tieClass {k : β} {a : α} : a ∈ tieClass key k l ↔ a ∈ l ∧ key a = k := by
  simp [tieClass]

namespace SameLasts

/-- Both lists have the same keys. -/
theorem exists_key (h : SameLasts key l l') {b : α} (hb : b ∈ l') : ∃ a ∈ l, key a = key b := by
  have hne : tieClass key (key b) l' ≠ [] := List.ne_nil_of_mem (mem_tieClass.2 ⟨hb, rfl⟩)
  cases hl : (tieClass key (key b) l).getLast? with
  | none =>
    rw [h (key b), List.getLast?_eq_none_iff] at hl
    exact absurd hl hne
  | some a => exact ⟨a, mem_tieClass.1 (List.mem_of_getLast? hl)⟩

theorem eq_nil (h : SameLasts key [] l') : l' = [] := by
  refine List.eq_nil_iff_forall_not_mem.2 fun b hb => ?_
  obtain ⟨a, ha, -⟩ := h.exists_key hb
  exact absurd ha List.not_mem_nil

/-- A filter that looks at the key alone keeps a class whole or drops it whole. -/
theorem filter_key (h : SameLasts key l l') (p : β → Bool) :
    SameLasts key (l.filter fun a => p (key a)) (l'.filter fun a => p (key a)) := by
  have hclass : ∀ (k : β) (m : List α),
      tieClass key k (m.filter fun a => p (key a)) = if p k then tieClass key k m else [] := by
    intro k m
    rw [tieClass, List.filter_filter]
    by_cases hk : p k
    · rw [if_pos hk]
      refine List.filter_congr fun a _ => ?_
      by_cases ha : key a = k
      · simp [ha, hk]
      · simp [ha]
    · rw [if_neg hk, List.filter_eq_nil_iff]
      intro a _
      by_cases ha : key a = k
      · simp [ha, hk]
      · simp [ha]
  intro k
  rw [hclass, hclass]
  by_cases hk : p k
  · simpa only [if_pos hk] using h k
  · simp only [if_neg hk]

end SameLasts

namespace SameTieEnds

variable [LE β]

/-- **Without ties, no reordering is seen.** -/
theorem of_perm (h : l.Perm l') (hties : Set.InjOn key {a | a ∈ l}) : SameTieEnds key l l' := by
  have hclass : ∀ k, tieClass key k l = tieClass key k l' := by
    intro k
    have hperm : (tieClass key k l').Perm (tieClass key k l) :=
      (h.filter fun a => decide (key a = k)).symm
    cases hl : tieClass key k l with
    | nil =>
      rw [hl] at hperm
      exact (List.perm_nil.1 hperm).symm
    | cons a rest =>
      -- Every member of the class is `a`, however often it stands there.
      have ha : a ∈ tieClass key k l := by simp [hl]
      have hall : ∀ b ∈ tieClass key k l, b = a := fun b hb =>
        hties (mem_tieClass.1 hb).1 (mem_tieClass.1 ha).1
          ((mem_tieClass.1 hb).2.trans (mem_tieClass.1 ha).2.symm)
      have hl' : tieClass key k l' = List.replicate (tieClass key k l').length a :=
        List.eq_replicate_of_mem fun b hb => hall b (hperm.mem_iff.1 hb)
      have hrep : tieClass key k l = List.replicate (tieClass key k l).length a :=
        List.eq_replicate_of_mem hall
      rw [← hl, hl', hperm.length_eq, ← hrep]
  exact ⟨fun k => by rw [hclass], fun k _ => by rw [hclass]⟩

end SameTieEnds

end

end GpgFrontend
