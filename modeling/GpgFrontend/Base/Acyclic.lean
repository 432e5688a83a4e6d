import Mathlib.Data.Finset.Card
import Mathlib.Algebra.Order.BigOperators.Group.List
import Mathlib.Algebra.Order.Group.Nat
import Mathlib.Algebra.GroupWithZero.Nat

/-!
# Acyclic graphs, and a recursive search in one

- `Acyclic r`: no node reaches itself.
- `Acyclic.insert`: an edge may be added when its end does not reach its start.
- `reachWithin succ fuel a t`: the search `for b in succ a: b == t || search b t`, which
  has no visited set, cut off at a depth.
- `reachWithin_iff`: **on an acyclic graph a depth of the number of nodes is enough**, so
  the search without a bound ends there, with the same answer.
- `searchLoop succ hit fuel seen pending`: the search with a stack and a visited set, and
  `searchLoop_iff`: it ends on every finite graph, cyclic or not, with the same answer.
-/

namespace GpgFrontend

variable {α : Type}

def Acyclic (r : α → α → Prop) : Prop := ∀ a, ¬ Relation.TransGen r a a

variable {r' : α → α → Prop}

variable {r : α → α → Prop}

theorem Acyclic.mono (h : Acyclic r) (hsub : ∀ a b, r' a b → r a b) : Acyclic r' :=
  fun a hcycle => h a (hcycle.lift id hsub)

/-- A path after one more edge: an old path, or one through the new edge. -/
theorem transGen_insert {p c : α} (hnew : ∀ a b, r' a b → r a b ∨ (a = p ∧ b = c)) {a b : α}
    (hpath : Relation.TransGen r' a b) :
    Relation.TransGen r a b ∨ (Relation.ReflTransGen r a p ∧ Relation.ReflTransGen r c b) := by
  induction hpath with
  | single hab =>
    rcases hnew _ _ hab with hold | ⟨rfl, rfl⟩
    · exact Or.inl (.single hold)
    · exact Or.inr ⟨.refl, .refl⟩
  | tail _ hbc ih =>
    rcases hnew _ _ hbc with hold | ⟨rfl, rfl⟩
    · rcases ih with hdirect | ⟨hto, hfrom⟩
      · exact Or.inl (hdirect.tail hold)
      · exact Or.inr ⟨hto, hfrom.tail hold⟩
    · rcases ih with hdirect | ⟨hto, -⟩
      · exact Or.inr ⟨hdirect.to_reflTransGen, .refl⟩
      · exact Or.inr ⟨hto, .refl⟩

theorem Acyclic.insert {p c : α} (h : Acyclic r) (hne : c ≠ p) (hback : ¬ Relation.TransGen r c p)
    (hnew : ∀ a b, r' a b → r a b ∨ (a = p ∧ b = c)) : Acyclic r' := by
  intro a hcycle
  rcases transGen_insert hnew hcycle with hold | ⟨hto, hfrom⟩
  · exact h a hold
  · rcases Relation.reflTransGen_iff_eq_or_transGen.mp (hfrom.trans hto) with heq | hpath
    · exact hne heq.symm
    · exact hback hpath

section Search

variable [DecidableEq α] (succ : α → List α)

/-- Whether `t` is found from `a` in at most so many levels of recursion. -/
def reachWithin : Nat → α → α → Bool
  | 0, _, _ => false
  | fuel + 1, a, t => (succ a).any fun b => b = t || reachWithin fuel b t

variable {succ}

variable {fuel : Nat} {a : α}

theorem reachWithin_sound {t : α} (h : reachWithin succ fuel a t = true) :
    Relation.TransGen (fun a b => b ∈ succ a) a t := by
  induction fuel generalizing a with
  | zero => cases h
  | succ fuel ih =>
    rw [reachWithin, List.any_eq_true] at h
    obtain ⟨b, hb, hfound⟩ := h
    rw [Bool.or_eq_true, decide_eq_true_eq] at hfound
    rcases hfound with rfl | hfound
    · exact .single hb
    · exact .head hb (ih hfound)

variable {nodes : List α}

/-- The nodes on the way to `a` are distinct, so the recursion ends before they are more
than there are nodes. -/
theorem reachWithin_complete (hacyclic : Acyclic fun a b => b ∈ succ a)
    (hnodes : ∀ a b, b ∈ succ a → a ∈ nodes) (visited : List α) {t : α} (hnodup : visited.Nodup)
    (hvisited : visited ⊆ nodes) (hnew : a ∉ visited)
    (hway : ∀ v ∈ visited, Relation.TransGen (fun a b => b ∈ succ a) v a)
    (hfuel : nodes.length ≤ visited.length + fuel)
    (hpath : Relation.TransGen (fun a b => b ∈ succ a) a t) : reachWithin succ fuel a t = true := by
  induction fuel generalizing visited a with
  | zero =>
    obtain ⟨b, hb, -⟩ := Relation.TransGen.head'_iff.mp hpath
    have hle : (a :: visited).length ≤ nodes.length :=
      (List.subperm_of_subset (List.nodup_cons.mpr ⟨hnew, hnodup⟩)
        (List.cons_subset.mpr ⟨hnodes a b hb, hvisited⟩)).length_le
    rw [List.length_cons] at hle
    omega
  | succ fuel ih =>
    obtain ⟨b, hb, hrest⟩ := Relation.TransGen.head'_iff.mp hpath
    rw [reachWithin, List.any_eq_true]
    refine ⟨b, hb, ?_⟩
    rw [Bool.or_eq_true, decide_eq_true_eq]
    rcases Relation.reflTransGen_iff_eq_or_transGen.mp hrest with heq | hpath'
    · exact Or.inl heq.symm
    · right
      have hb' : b ∉ a :: visited := by
        rw [List.mem_cons, not_or]
        constructor
        · rintro rfl
          exact hacyclic b (.single hb)
        · intro hmem
          exact hacyclic b ((hway b hmem).tail hb)
      refine ih (a :: visited) (List.nodup_cons.mpr ⟨hnew, hnodup⟩)
        (List.cons_subset.mpr ⟨hnodes a b hb, hvisited⟩) hb' ?_ ?_ hpath'
      · intro v hv
        rcases List.mem_cons.mp hv with rfl | hv
        · exact .single hb
        · exact (hway v hv).tail hb
      · rw [List.length_cons]
        omega

theorem reachWithin_iff (hacyclic : Acyclic fun a b => b ∈ succ a)
    (hnodes : ∀ a b, b ∈ succ a → a ∈ nodes) (hfuel : nodes.length ≤ fuel) {t : α} :
    reachWithin succ fuel a t = true ↔ Relation.TransGen (fun a b => b ∈ succ a) a t := by
  constructor
  · exact reachWithin_sound
  · intro hpath
    refine reachWithin_complete hacyclic hnodes [] List.nodup_nil
      (List.nil_subset _) List.not_mem_nil ?_ ?_ hpath
    · intro v hv
      cases hv
    · rw [List.length_nil]
      omega

/-- Whether a successor of a pending node, or of one reached from it, is a hit. A node is taken
from the top of the stack and its successors are pushed, unless it was seen. -/
def searchLoop (succ : α → List α) (hit : α → Bool) : Nat → List α → List α → Option Bool
  | _, _, [] => some false
  | 0, _, _ :: _ => none
  | fuel + 1, seen, a :: pending =>
    if a ∈ seen then searchLoop succ hit fuel seen pending
    else if (succ a).any hit then some true
    else searchLoop succ hit fuel (a :: seen) ((succ a).reverse ++ pending)

/-- What is left to do: the stack, and what the nodes not seen may push. -/
def searchLeft (succ : α → List α) (nodes seen pending : List α) : Nat :=
  pending.length + ((nodes.filter (· ∉ seen)).map fun a => (succ a).length).sum

variable {seen : List α}

theorem sum_filter_seen (f : α → Nat) (ha : a ∈ nodes) (hnew : a ∉ seen) :
    f a + ((nodes.filter (· ∉ a :: seen)).map f).sum ≤ ((nodes.filter (· ∉ seen)).map f).sum := by
  induction nodes with
  | nil => cases ha
  | cons n nodes ih =>
    have hmono : ((nodes.filter (· ∉ a :: seen)).map f).sum ≤
        ((nodes.filter (· ∉ seen)).map f).sum := by
      refine (List.Sublist.map f ?_).sum_le_sum fun _ _ => Nat.zero_le _
      refine List.monotone_filter_right nodes fun n hn => ?_
      rw [decide_eq_true_eq, List.mem_cons, not_or] at hn
      exact decide_eq_true hn.2
    by_cases hna : n = a
    · rw [hna, List.filter_cons_of_neg (by simp), List.filter_cons_of_pos (by simpa using hnew),
        List.map_cons, List.sum_cons]
      exact Nat.add_le_add_left hmono (f a)
    · have ih := ih ((List.mem_cons.mp ha).resolve_left (Ne.symm hna))
      by_cases hn : n ∈ seen
      · rwa [List.filter_cons_of_neg (by simp [hn]), List.filter_cons_of_neg (by simp [hn])]
      · rw [List.filter_cons_of_pos (by simp [hn, hna]), List.filter_cons_of_pos (by simp [hn]),
          List.map_cons, List.map_cons, List.sum_cons, List.sum_cons]
        omega

theorem searchLeft_push {pending : List α} (hnodes : ∀ a b, b ∈ succ a → a ∈ nodes)
    (hnew : a ∉ seen) :
    searchLeft succ nodes (a :: seen) ((succ a).reverse ++ pending) ≤
      searchLeft succ nodes seen pending := by
  unfold searchLeft
  rw [List.length_append, List.length_reverse]
  by_cases hsucc : succ a = []
  · have hsum : ((nodes.filter (· ∉ a :: seen)).map fun a => (succ a).length).sum ≤
        ((nodes.filter (· ∉ seen)).map fun a => (succ a).length).sum := by
      by_cases ha : a ∈ nodes
      · exact (Nat.le_add_left _ _).trans (sum_filter_seen (fun a => (succ a).length) ha hnew)
      · refine le_of_eq (congrArg (fun l => (List.map _ l).sum) (List.filter_congr fun n hn => ?_))
        have hna : n ≠ a := fun h => ha (h ▸ hn)
        simp [hna]
    rw [hsucc, List.length_nil]
    omega
  · obtain ⟨b, hb⟩ := List.exists_mem_of_ne_nil _ hsucc
    have hsum := sum_filter_seen (fun a => (succ a).length) (hnodes a b hb) hnew
    omega

variable {hit : α → Bool}

omit [DecidableEq α] in
/-- With nothing pending, what was seen is closed, and none of it leads to a hit. -/
theorem not_hit_of_seen (hseen : ∀ s ∈ seen, ∀ b ∈ succ s, ¬hit b ∧ b ∈ seen) {s t : α}
    (hs : s ∈ seen) (hpath : Relation.TransGen (fun a b => b ∈ succ a) s t) :
    ¬hit t ∧ t ∈ seen := by
  induction hpath with
  | single hb => exact hseen s hs _ hb
  | tail _ hbc ih => exact hseen _ ih.2 _ hbc

omit [DecidableEq α] in
theorem not_hit_of_done (hseen : ∀ s ∈ seen, ∀ b ∈ succ s, ¬hit b ∧ (b ∈ seen ∨ b ∈ [])) (s : α)
    (hs : s ∈ seen ∨ s ∈ []) (t : α) (hpath : Relation.TransGen (fun a b => b ∈ succ a) s t) :
    ¬hit t := by
  have hs : s ∈ seen := by simpa using hs
  exact (not_hit_of_seen (fun s hs b hb => by simpa using hseen s hs b hb) hs hpath).1

theorem searchLoop_spec (hnodes : ∀ a b, b ∈ succ a → a ∈ nodes) {pending : List α}
    (hfuel : searchLeft succ nodes seen pending ≤ fuel)
    (hseen : ∀ s ∈ seen, ∀ b ∈ succ s, ¬hit b ∧ (b ∈ seen ∨ b ∈ pending)) :
    ∃ found, searchLoop succ hit fuel seen pending = some found ∧
      (found = true → ∃ a ∈ pending, ∃ t,
        Relation.TransGen (fun a b => b ∈ succ a) a t ∧ hit t) ∧
      (found = false → ∀ s, s ∈ seen ∨ s ∈ pending → ∀ t,
        Relation.TransGen (fun a b => b ∈ succ a) s t → ¬hit t) := by
  induction fuel generalizing seen pending with
  | zero =>
    cases pending with
    | nil => exact ⟨false, by rw [searchLoop], by simp, fun _ => not_hit_of_done hseen⟩
    | cons a pending =>
      rw [searchLeft, List.length_cons] at hfuel
      omega
  | succ fuel ih =>
    cases pending with
    | nil => exact ⟨false, by rw [searchLoop], by simp, fun _ => not_hit_of_done hseen⟩
    | cons a pending =>
      rw [searchLoop]
      have hleft : searchLeft succ nodes seen (a :: pending) =
          searchLeft succ nodes seen pending + 1 := by
        rw [searchLeft, searchLeft, List.length_cons]
        omega
      by_cases ha : a ∈ seen
      · rw [if_pos ha]
        have hseen' : ∀ s ∈ seen, ∀ b ∈ succ s, ¬hit b ∧ (b ∈ seen ∨ b ∈ pending) := by
          intro s hs b hb
          obtain ⟨hno, hb | hb⟩ := hseen s hs b hb
          · exact ⟨hno, .inl hb⟩
          · obtain rfl | hb := List.mem_cons.mp hb
            · exact ⟨hno, .inl ha⟩
            · exact ⟨hno, .inr hb⟩
        obtain ⟨found, hrun, htrue, hfalse⟩ := ih (by omega) hseen'
        refine ⟨found, hrun, fun h => ?_, fun h s hs => hfalse h s ?_⟩
        · obtain ⟨b, hb, hpath⟩ := htrue h
          exact ⟨b, List.mem_cons_of_mem a hb, hpath⟩
        · obtain hs | hs := hs
          · exact .inl hs
          · obtain rfl | hs := List.mem_cons.mp hs
            · exact .inl ha
            · exact .inr hs
      · rw [if_neg ha]
        by_cases hhit : (succ a).any hit = true
        · rw [if_pos hhit]
          obtain ⟨b, hb, hhit⟩ := List.any_eq_true.mp hhit
          exact ⟨true, rfl, fun _ => ⟨a, List.mem_cons_self, b, .single hb, hhit⟩, by simp⟩
        · rw [if_neg hhit]
          have hno : ∀ b ∈ succ a, ¬hit b := fun b hb h => hhit (List.any_eq_true.mpr ⟨b, hb, h⟩)
          have hpush : searchLeft succ nodes (a :: seen) ((succ a).reverse ++ pending) ≤
              searchLeft succ nodes seen pending := searchLeft_push hnodes ha
          have hseen' : ∀ s ∈ a :: seen, ∀ b ∈ succ s,
              ¬hit b ∧ (b ∈ a :: seen ∨ b ∈ (succ a).reverse ++ pending) := by
            intro s hs b hb
            simp only [List.mem_append, List.mem_reverse, List.mem_cons]
            obtain rfl | hs := List.mem_cons.mp hs
            · exact ⟨hno b hb, .inr (.inl hb)⟩
            · obtain ⟨hnb, hb | hb⟩ := hseen s hs b hb
              · exact ⟨hnb, .inl (.inr hb)⟩
              · obtain rfl | hb := List.mem_cons.mp hb
                · exact ⟨hnb, .inl (.inl rfl)⟩
                · exact ⟨hnb, .inr (.inr hb)⟩
          obtain ⟨found, hrun, htrue, hfalse⟩ := ih (by omega) hseen'
          refine ⟨found, hrun, fun h => ?_, fun h s hs => hfalse h s ?_⟩
          · obtain ⟨b, hb, t, hpath, ht⟩ := htrue h
            obtain hb | hb := List.mem_append.mp hb
            · exact ⟨a, List.mem_cons_self, t, .head (List.mem_reverse.mp hb) hpath, ht⟩
            · exact ⟨b, List.mem_cons_of_mem a hb, t, hpath, ht⟩
          · simp only [List.mem_append, List.mem_reverse, List.mem_cons]
            obtain hs | hs := hs
            · exact .inl (.inr hs)
            · obtain rfl | hs := List.mem_cons.mp hs
              · exact .inl (.inl rfl)
              · exact .inr (.inr hs)

/-- **The search from one node ends, with the right answer.** -/
theorem searchLoop_iff {hit : α → Bool} {nodes : List α}
    (hnodes : ∀ a b, b ∈ succ a → a ∈ nodes) {fuel : Nat} {a : α}
    (hfuel : searchLeft succ nodes [] [a] ≤ fuel) :
    ∃ found, searchLoop succ hit fuel [] [a] = some found ∧
      (found = true ↔ ∃ t, Relation.TransGen (fun a b => b ∈ succ a) a t ∧ hit t) := by
  have hseen : ∀ s ∈ ([] : List α), ∀ b ∈ succ s, ¬hit b ∧ (b ∈ [] ∨ b ∈ [a]) :=
    fun s hs => absurd hs List.not_mem_nil
  obtain ⟨found, hrun, htrue, hfalse⟩ := searchLoop_spec hnodes hfuel hseen
  refine ⟨found, hrun, fun h => ?_, fun ⟨t, hpath, ht⟩ => ?_⟩
  · obtain ⟨b, hb, hpath⟩ := htrue h
    rwa [List.mem_singleton.mp hb] at hpath
  · by_contra hno
    exact hfalse (Bool.eq_false_iff.mpr hno) a (.inr List.mem_cons_self) t hpath ht

end Search

/-- The rank of a node counts the nodes below it, and itself. -/
theorem exists_rank {succ : α → List α} {nodes : List α}
    (hacyclic : Acyclic fun a b => b ∈ succ a) (hnodes : ∀ a b, b ∈ succ a → a ∈ nodes) :
    ∃ rank : α → Nat, (∀ a, rank a ≤ nodes.length) ∧ ∀ a b, b ∈ succ a → rank b < rank a := by
  classical
  let below (a : α) : Finset α :=
    nodes.toFinset.filter fun n => Relation.ReflTransGen (fun a b => b ∈ succ a) a n
  refine ⟨fun a => (below a).card, fun a => ?_, fun a b hb => ?_⟩
  · exact (Finset.card_filter_le _ _).trans (List.toFinset_card_le nodes)
  · refine Finset.card_lt_card (Finset.ssubset_iff_of_subset ?_ |>.mpr ⟨a, ?_, ?_⟩)
    · intro n hn
      rw [Finset.mem_filter] at hn ⊢
      exact ⟨hn.1, .head hb hn.2⟩
    · rw [Finset.mem_filter, List.mem_toFinset]
      exact ⟨hnodes a b hb, .refl⟩
    · intro ha
      rw [Finset.mem_filter] at ha
      exact hacyclic a (.head' hb ha.2)

end GpgFrontend
