import Mathlib.Data.List.Basic

/-!
# Backtracking regular expressions

- `Regex.runs r xs`: every way to match `r` at the start of `xs`, the preferred one first, each
  with what its groups captured and with what is left.
- `Regex.match? r xs`: the way a backtracking engine finds, anchored at the start.
-/

namespace GpgFrontend

/-- `lazyStar p` is `[p]*?`, `star p` is `[p]*`, `opt r` is `(?:r)?`, `group n r` is a numbered
group, and `atEnd nl` is `$`, which also stands before a line feed that ends the text. -/
inductive Regex (α : Type) where
  | item (p : α → Bool)
  | lazyStar (p : α → Bool)
  | star (p : α → Bool)
  | seq (r s : Regex α)
  | opt (r : Regex α)
  | group (n : Nat) (r : Regex α)
  | atEnd (nl : α → Bool)

namespace Regex

variable {α : Type}

/-- What the groups captured, and what is left of the text. -/
abbrev Found (α : Type) := List (Nat × List α) × List α

/-- What is left after any number of items, few of them first. -/
def fewest (p : α → Bool) : List α → List (List α)
  | [] => [[]]
  | x :: xs => (x :: xs) :: if p x then fewest p xs else []

/-- What is left after any number of items, many of them first. -/
def most (p : α → Bool) (xs : List α) : List (List α) := (fewest p xs).reverse

def runs : Regex α → List α → List (Found α)
  | item _, [] => []
  | item p, x :: xs => if p x then [([], xs)] else []
  | lazyStar p, xs => (fewest p xs).map fun rest => ([], rest)
  | star p, xs => (most p xs).map fun rest => ([], rest)
  | seq r s, xs =>
    (runs r xs).flatMap fun found =>
      (runs s found.2).map fun next => (found.1 ++ next.1, next.2)
  | opt r, xs => runs r xs ++ [([], xs)]
  | group n r, xs =>
    (runs r xs).map fun found =>
      ((n, xs.take (xs.length - found.2.length)) :: found.1, found.2)
  | atEnd nl, xs =>
    match xs with
    | [] => [([], [])]
    | [x] => if nl x then [([], [x])] else []
    | _ => []

/-- The groups of the match at the start of the text. -/
def match? (r : Regex α) (xs : List α) : Option (List (Nat × List α)) :=
  (runs r xs).head?.map (·.1)

/-- What a group captured, nothing if it did not take part. -/
def captured (groups : List (Nat × List α)) (n : Nat) : List α :=
  (groups.lookup n).getD []

attribute [local simp] fewest runs

variable {p nl : α → Bool} {r s : Regex α} {xs ys w : List α}

/-! ### Stars -/

theorem fewest_append (hw : ∀ x ∈ w, p x = true) (ys : List α) :
    ∃ before, fewest p (w ++ ys) = before ++ fewest p ys ∧
      ∀ rest ∈ before, ∃ u, u ≠ [] ∧ u <:+ w ∧ rest = u ++ ys := by
  induction w with
  | nil => exact ⟨[], rfl, by simp⟩
  | cons x w ih =>
    obtain ⟨before, heq, hbefore⟩ := ih fun y hy => hw y (List.mem_cons_of_mem _ hy)
    refine ⟨(x :: w ++ ys) :: before, ?_, ?_⟩
    · rw [List.cons_append, fewest, if_pos (hw x (List.mem_cons_self ..)), heq]
      rfl
    · intro rest hrest
      rcases List.mem_cons.mp hrest with rfl | hrest
      · exact ⟨x :: w, by simp, List.suffix_rfl, rfl⟩
      · obtain ⟨u, hne, hsuffix, rfl⟩ := hbefore rest hrest
        exact ⟨u, hne, hsuffix.trans (List.suffix_cons x w), rfl⟩

theorem fewest_head (p : α → Bool) (xs : List α) : ∃ after, fewest p xs = xs :: after := by
  cases xs with
  | nil => exact ⟨[], rfl⟩
  | cons x xs => exact ⟨_, rfl⟩

theorem fewest_stop {x : α} (hx : p x = false) (ys : List α) :
    fewest p (x :: ys) = [x :: ys] := by
  rw [fewest, if_neg (by simp [hx])]

theorem mem_fewest {rest : List α} (h : rest ∈ fewest p xs) :
    ∃ w, xs = w ++ rest ∧ ∀ x ∈ w, p x = true := by
  induction xs with
  | nil =>
    rw [fewest, List.mem_singleton] at h
    exact ⟨[], by simp [h], by simp⟩
  | cons x xs ih =>
    rw [fewest] at h
    rcases List.mem_cons.mp h with rfl | h
    · exact ⟨[], rfl, by simp⟩
    · split at h
      · next hx =>
        obtain ⟨w, rfl, hw⟩ := ih h
        refine ⟨x :: w, rfl, fun y hy => ?_⟩
        rcases List.mem_cons.mp hy with rfl | hy
        · exact hx
        · exact hw y hy
      · cases h

/-! ### The preferred way -/

/-- The way that is tried first. -/
def First (r : Regex α) (xs : List α) (found : Found α) : Prop :=
  ∃ others, runs r xs = found :: others

theorem First.match? {found : Found α} (h : First r xs found) : r.match? xs = some found.1 := by
  obtain ⟨others, h⟩ := h
  rw [Regex.match?, h]
  rfl

/-- The ways of `r` after which `s` fails are passed over. -/
theorem First.seq {before after : List (Found α)} {found next : Found α}
    (hr : runs r xs = before ++ found :: after) (hbefore : ∀ f ∈ before, runs s f.2 = [])
    (hs : First s found.2 next) : First (.seq r s) xs (found.1 ++ next.1, next.2) := by
  obtain ⟨others, hs⟩ := hs
  have hnil : before.flatMap (fun f => (runs s f.2).map fun g => (f.1 ++ g.1, g.2)) = [] := by
    rw [List.flatMap_eq_nil_iff]
    intro f hf
    rw [hbefore f hf]
    rfl
  unfold First
  rw [runs, hr, List.flatMap_append, hnil, List.nil_append, List.flatMap_cons, hs]
  exact ⟨_, rfl⟩

theorem First.seq_first {found next : Found α} (hr : First r xs found)
    (hs : First s found.2 next) : First (.seq r s) xs (found.1 ++ next.1, next.2) := by
  obtain ⟨after, hr⟩ := hr
  have hr : runs r xs = [] ++ found :: after := hr
  exact First.seq hr (fun f hf => absurd hf List.not_mem_nil) hs

theorem First.opt {found : Found α} (h : First r xs found) : First (.opt r) xs found := by
  obtain ⟨others, h⟩ := h
  exact ⟨others ++ [([], xs)], by rw [runs, h]; rfl⟩

theorem runs_opt_nil (h : runs r xs = []) : runs (.opt r) xs = [([], xs)] := by
  rw [runs, h]
  rfl

theorem runs_seq_nil (h : ∀ f ∈ runs r xs, runs s f.2 = []) : runs (.seq r s) xs = [] := by
  rw [runs, List.flatMap_eq_nil_iff]
  intro f hf
  rw [h f hf]
  rfl

/-- A lazy group first captures what stands before a text, unless it can stop earlier. -/
theorem runs_group_lazyStar (n : Nat) (hw : ∀ x ∈ w, p x = true) (ys : List α) :
    ∃ before after, runs (.group n (.lazyStar p)) (w ++ ys) = before ++ ([(n, w)], ys) :: after ∧
      ∀ f ∈ before, ∃ u, u ≠ [] ∧ u <:+ w ∧ f.2 = u ++ ys := by
  obtain ⟨before, heq, hbefore⟩ := fewest_append hw ys
  obtain ⟨after, hafter⟩ := fewest_head p ys
  let captures : List α → Found α := fun rest =>
    ([(n, (w ++ ys).take ((w ++ ys).length - rest.length))], rest)
  have hw' : captures ys = ([(n, w)], ys) := by
    simp only [captures, List.length_append, Nat.add_sub_cancel, List.take_left]
  refine ⟨before.map captures, after.map captures, ?_, ?_⟩
  · rw [runs, runs, heq, hafter, List.map_map, List.map_append, List.map_cons, ← hw']
    rfl
  · intro f hf
    obtain ⟨rest, hrest, rfl⟩ := List.mem_map.mp hf
    exact hbefore rest hrest

/-! ### A bracketed group -/

/-- `ws*`, an opening item, a lazy group and a closing item. -/
def bracketed (ws opens dot closes : α → Bool) (n : Nat) : Regex α :=
  .seq (.star ws) (.seq (.item opens) (.seq (.group n (.lazyStar dot)) (.item closes)))

variable {ws opens dot closes : α → Bool} {n : Nat}

theorem runs_bracketed_nil
    (h : ∀ (v : List α) (y : α) (t : List α), xs = v ++ y :: t → (∀ x ∈ v, ws x = true) →
      opens y = false) : runs (bracketed ws opens dot closes n) xs = [] := by
  refine runs_seq_nil fun f hf => ?_
  rw [runs, List.mem_map] at hf
  obtain ⟨rest, hrest, rfl⟩ := hf
  obtain ⟨v, hxs, hv⟩ := mem_fewest (List.mem_reverse.mp hrest)
  refine runs_seq_nil fun g hg => ?_
  cases rest with
  | nil => cases hg
  | cons y t =>
    rw [runs, if_neg (by simp [h v y t hxs hv])] at hg
    cases hg

theorem first_bracketed {x z : α} {v : List α} (hv : ∀ y ∈ v, ws y = true) (hx : ws x = false)
    (hopens : opens x = true) (hdot : ∀ y ∈ w, dot y = true) (hclosed : ∀ y ∈ w, closes y = false)
    (hcloses : closes z = true) (ys : List α) :
    First (bracketed ws opens dot closes n) (v ++ x :: (w ++ z :: ys)) ([(n, w)], ys) := by
  have hstar : First (.star ws) (v ++ x :: (w ++ z :: ys)) ([], x :: (w ++ z :: ys)) := by
    obtain ⟨before, heq, -⟩ := fewest_append hv (x :: (w ++ z :: ys))
    rw [fewest_stop hx] at heq
    refine ⟨before.reverse.map fun rest => ([], rest), ?_⟩
    rw [runs, most, heq, List.reverse_append]
    rfl
  have hitem : First (.item opens) (x :: (w ++ z :: ys)) ([], w ++ z :: ys) :=
    ⟨[], by rw [runs, if_pos hopens]⟩
  obtain ⟨before, after, hgroup, hbefore⟩ := runs_group_lazyStar n hdot (z :: ys)
  have hclose : First (.item closes) (z :: ys) ([], ys) := ⟨[], by rw [runs, if_pos hcloses]⟩
  have hcontent : First (.seq (.group n (.lazyStar dot)) (.item closes)) (w ++ z :: ys)
      ([(n, w)], ys) := by
    refine First.seq hgroup (fun f hf => ?_) hclose
    obtain ⟨u, hne, hsuffix, hu⟩ := hbefore f hf
    rw [hu]
    cases u with
    | nil => exact absurd rfl hne
    | cons y u =>
      have hy : closes y = false := hclosed y (hsuffix.subset (List.mem_cons_self ..))
      rw [List.cons_append, runs, if_neg (by simp [hy])]
  exact hstar.seq_first (hitem.seq_first hcontent)

end Regex

end GpgFrontend
