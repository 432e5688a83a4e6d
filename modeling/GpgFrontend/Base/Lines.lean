import Mathlib.Data.List.DropRight

/-!
# A text cut after every delimiter

- `splitInclusive d l`: the pieces of `l`, each with the delimiter that ends it.
- `joinLines d cs last`: the text whose ended lines hold `cs` and whose unended line holds `last`.
- `splitInclusive_joinLines`: cutting gives the lines back.
- `rdropWhile_eq`: what is cut from the end of a line, read off its parts.
-/

namespace GpgFrontend

section Lines

variable {α : Type} [DecidableEq α] (d : α)

/-- The pieces of a list, each up to and with a delimiter, the last one perhaps without. -/
def splitInclusive : List α → List (List α)
  | [] => []
  | a :: as =>
    if a = d then [a] :: splitInclusive as
    else
      match splitInclusive as with
      | [] => [[a]]
      | piece :: pieces => (a :: piece) :: pieces

/-- Lines that hold `cs`, each ended by the delimiter, then one that holds `last` and is not. -/
def joinLines (cs : List (List α)) (last : List α) : List α := cs.flatMap (· ++ [d]) ++ last

variable {d}

omit [DecidableEq α] in
@[simp] theorem joinLines_nil (last : List α) : joinLines d [] last = last := rfl

omit [DecidableEq α] in
@[simp] theorem joinLines_cons (c : List α) (cs : List (List α)) (last : List α) :
    joinLines d (c :: cs) last = c ++ d :: joinLines d cs last := by
  simp [joinLines]

theorem splitInclusive_of_free {l : List α} (h : d ∉ l) :
    splitInclusive d l = if l = [] then [] else [l] := by
  induction l with
  | nil => rfl
  | cons a as ih =>
    rw [List.mem_cons, not_or] at h
    obtain rfl | hne := eq_or_ne as []
    · simp [splitInclusive, Ne.symm h.1]
    · rw [splitInclusive, if_neg (Ne.symm h.1), ih h.2, if_neg hne, if_neg (List.cons_ne_nil _ _)]

theorem splitInclusive_append_delim {c : List α} (h : d ∉ c) (rest : List α) :
    splitInclusive d (c ++ d :: rest) = (c ++ [d]) :: splitInclusive d rest := by
  induction c with
  | nil => simp [splitInclusive]
  | cons a as ih =>
    rw [List.mem_cons, not_or] at h
    rw [List.cons_append, splitInclusive, if_neg (Ne.symm h.1), ih h.2]
    rfl

variable {cs : List (List α)}

theorem splitInclusive_joinLines {last : List α} (hcs : ∀ c ∈ cs, d ∉ c) (hlast : d ∉ last) :
    splitInclusive d (joinLines d cs last)
      = cs.map (· ++ [d]) ++ if last = [] then [] else [last] := by
  induction cs with
  | nil => exact splitInclusive_of_free hlast
  | cons c cs ih =>
    rw [joinLines_cons, splitInclusive_append_delim (hcs c List.mem_cons_self),
      ih fun c' hc' => hcs c' (List.mem_cons_of_mem c hc')]
    rfl

theorem splitInclusive_append_ended (rest : List α) (hcs : ∀ c ∈ cs, d ∉ c) :
    splitInclusive d (cs.flatMap (· ++ [d]) ++ rest)
      = cs.map (· ++ [d]) ++ splitInclusive d rest := by
  induction cs with
  | nil => rfl
  | cons c cs ih =>
    rw [List.flatMap_cons, List.append_assoc, List.append_assoc, List.singleton_append,
      splitInclusive_append_delim (hcs c List.mem_cons_self),
      ih fun c' hc' => hcs c' (List.mem_cons_of_mem c hc')]
    rfl

theorem flatten_splitInclusive (l : List α) : (splitInclusive d l).flatten = l := by
  induction l with
  | nil => rfl
  | cons a as ih =>
    rw [splitInclusive]
    split
    · next h => rw [List.flatten_cons, ih]; rfl
    · split
      · next hnil => rw [hnil] at ih; rw [← ih]; rfl
      · next piece pieces hpieces => rw [hpieces] at ih; rw [← ih]; rfl

omit [DecidableEq α] in
/-- Every text is lines without the delimiter, joined. -/
theorem exists_joinLines (d : α) (l : List α) :
    ∃ cs last, (∀ c ∈ cs, d ∉ c) ∧ d ∉ last ∧ l = joinLines d cs last := by
  induction l with
  | nil => exact ⟨[], [], by simp, by simp, rfl⟩
  | cons a as ih =>
    obtain ⟨cs, last, hcs, hlast, rfl⟩ := ih
    obtain rfl | hne := eq_or_ne d a
    · exact ⟨[] :: cs, last, by simpa using hcs, hlast, by simp⟩
    · cases cs with
      | nil => exact ⟨[], a :: last, by simp, by simp [hne, hlast], rfl⟩
      | cons c cs =>
        refine ⟨(a :: c) :: cs, last, ?_, hlast, by simp⟩
        intro c' hc'
        obtain rfl | hc' := List.mem_cons.mp hc'
        · simpa [hne] using hcs c List.mem_cons_self
        · exact hcs c' (List.mem_cons_of_mem c hc')

/-- Cutting goes through a text that ends where a line ends. -/
theorem splitInclusive_append {front : List α} (rest : List α)
    (h : front = [] ∨ front.getLast? = some d) :
    splitInclusive d (front ++ rest) = splitInclusive d front ++ splitInclusive d rest := by
  obtain rfl | h := h
  · rfl
  · obtain ⟨cs, last, hcs, hlast, rfl⟩ := exists_joinLines d front
    obtain rfl : last = [] := by
      by_contra hne
      rw [joinLines, List.getLast?_append_of_ne_nil _ hne] at h
      exact hlast (List.mem_of_getLast? h)
    rw [splitInclusive_joinLines hcs hlast, joinLines, List.append_nil,
      splitInclusive_append_ended rest hcs]
    simp

/-- What a text starts with, its first line starts with. -/
theorem splitInclusive_prefix {m : List α} (rest : List α) (hm : m ≠ []) (h : d ∉ m) :
    ∃ line lines, splitInclusive d (m ++ rest) = line :: lines ∧ m <+: line := by
  obtain ⟨cs, last, hcs, hlast, rfl⟩ := exists_joinLines d rest
  cases cs with
  | nil =>
    refine ⟨m ++ last, [], ?_, List.prefix_append m last⟩
    rw [joinLines_nil, splitInclusive_of_free (by simp [h, hlast])]
    simp [hm]
  | cons c cs =>
    refine ⟨m ++ c ++ [d], splitInclusive d (joinLines d cs last), ?_, by simp⟩
    have hc : d ∉ m ++ c := by simp [h, hcs c List.mem_cons_self]
    rw [joinLines_cons, ← List.append_assoc, splitInclusive_append_delim hc]

/-- The contents of the lines are read off the text. -/
theorem joinLines_inj {cs' : List (List α)} {last last' : List α} (hcs : ∀ c ∈ cs, d ∉ c)
    (hcs' : ∀ c ∈ cs', d ∉ c) (hlast : d ∉ last) (hlast' : d ∉ last')
    (h : joinLines d cs last = joinLines d cs' last') : cs = cs' ∧ last = last' := by
  have hpieces := congrArg (splitInclusive d) h
  rw [splitInclusive_joinLines hcs hlast, splitInclusive_joinLines hcs' hlast'] at hpieces
  induction cs generalizing cs' with
  | nil =>
    cases cs' with
    | nil => exact ⟨rfl, h⟩
    | cons c cs' =>
      refine absurd ?_ hlast
      rw [show last = c ++ d :: joinLines d cs' last' by simpa using h]
      simp
  | cons c cs ih =>
    cases cs' with
    | nil =>
      refine absurd ?_ hlast'
      rw [show last' = c ++ d :: joinLines d cs last by simpa using h.symm]
      simp
    | cons c' cs' =>
      rw [List.map_cons, List.map_cons, List.cons_append, List.cons_append] at hpieces
      obtain ⟨hhead, htail⟩ := List.cons.inj hpieces
      obtain rfl : c = c' := List.append_cancel_right hhead
      have hrest : joinLines d cs last = joinLines d cs' last' := by simpa using h
      obtain ⟨rfl, hl⟩ := ih (fun x hx => hcs x (List.mem_cons_of_mem c hx))
        (fun x hx => hcs' x (List.mem_cons_of_mem c hx)) hrest htail
      exact ⟨rfl, hl⟩

/-- A text edited line by line, when every ended line keeps its delimiter. -/
theorem flatMap_splitInclusive {f g : List α → List α} {last : List α} (hcs : ∀ c ∈ cs, d ∉ c)
    (hlast : d ∉ last) (hf : ∀ c ∈ cs, f (c ++ [d]) = g c ++ [d]) (hnil : f [] = []) :
    (splitInclusive d (joinLines d cs last)).flatMap f = joinLines d (cs.map g) (f last) := by
  have hlines : (cs.map (· ++ [d])).flatMap f = (cs.map g).flatMap (· ++ [d]) := by
    rw [List.flatMap_map, List.flatMap_map]
    exact List.flatMap_congr hf
  rw [splitInclusive_joinLines hcs hlast, List.flatMap_append, hlines, joinLines]
  split
  · simp [*]
  · simp

end Lines

/-! ## The end of a line -/

section Trim

variable {α : Type} {p : α → Bool} {l t : List α}

theorem rdropWhile_append (ht : ∀ x ∈ t, p x) : (l ++ t).rdropWhile p = l.rdropWhile p := by
  induction t using List.reverseRecOn with
  | nil => rw [List.append_nil]
  | append_singleton t x ih =>
    rw [← List.append_assoc, List.rdropWhile_concat_pos p _ _ (ht x (by simp))]
    exact ih fun y hy => ht y (List.mem_append_left _ hy)

theorem rdropWhile_eq (ht : ∀ x ∈ t, p x) (hl : ∀ h : l ≠ [], ¬p (l.getLast h)) :
    (l ++ t).rdropWhile p = l :=
  (rdropWhile_append ht).trans (List.rdropWhile_eq_self_iff.mpr hl)

theorem rdropWhile_congr {q : α → Bool} (h : ∀ x ∈ l, p x = q x) :
    l.rdropWhile p = l.rdropWhile q := by
  induction l using List.reverseRecOn with
  | nil => rfl
  | append_singleton l x ih =>
    rw [List.rdropWhile_concat, List.rdropWhile_concat, h x (by simp),
      ih fun y hy => h y (List.mem_append_left _ hy)]

theorem prefix_rdropWhile {m : List α} (hm : m.rdropWhile p = m) (h : m <+: l) :
    m <+: l.rdropWhile p := by
  obtain ⟨t, rfl⟩ := h
  induction t using List.reverseRecOn with
  | nil =>
    have hkept : (m ++ []).rdropWhile p = m := by rw [List.append_nil, hm]
    exact hkept.symm ▸ List.prefix_rfl
  | append_singleton t x ih =>
    rw [← List.append_assoc, List.rdropWhile_concat]
    split
    · exact ih
    · rw [List.append_assoc]
      exact List.prefix_append m _

/-- What is cut from both ends of a line does not depend on what is cut from its end. -/
theorem trim_append (ht : ∀ x ∈ t, p x) :
    ((l ++ t).dropWhile p).rdropWhile p = (l.dropWhile p).rdropWhile p := by
  rw [List.dropWhile_append]
  split
  · next hnil =>
    rw [List.isEmpty_iff] at hnil
    rw [hnil, List.dropWhile_eq_nil_iff.mpr ht]
  · exact rdropWhile_append ht

theorem trim_eq_nil_iff : (l.dropWhile p).rdropWhile p = [] ↔ ∀ x ∈ l, p x := by
  rw [List.rdropWhile_eq_nil_iff]
  constructor
  · intro h x hx
    rw [← List.takeWhile_append_dropWhile (p := p) (l := l)] at hx
    obtain hx | hx := List.mem_append.mp hx
    · exact List.mem_takeWhile_imp hx
    · exact h x hx
  · intro h x hx
    exact h x ((List.dropWhile_suffix _).subset hx)

theorem trim_idempotent (p : α → Bool) (l : List α) :
    (((l.dropWhile p).rdropWhile p).dropWhile p).rdropWhile p = (l.dropWhile p).rdropWhile p := by
  have hhead : ((l.dropWhile p).rdropWhile p).dropWhile p = (l.dropWhile p).rdropWhile p := by
    have hprefix := List.rdropWhile_prefix p (l.dropWhile p)
    cases hcut : (l.dropWhile p).rdropWhile p with
    | nil => rfl
    | cons x rest =>
      rw [hcut] at hprefix
      obtain ⟨tail, htail⟩ := hprefix
      have hx : p x = false := by
        have hnot := List.head_dropWhile_not p (l := l) (by rw [← htail]; simp)
        simpa only [← htail, List.cons_append, List.head_cons] using hnot
      rw [List.dropWhile_cons_of_neg (by simp [hx])]
  rw [hhead, List.rdropWhile_idempotent]

end Trim

section Marker

variable {α : Type} {marker a b : List α} {d : α}

/-- A marker without the delimiter is found in the content of a line. -/
theorem prefix_concat_of_not_mem (hd : d ∉ marker) : marker <+: a ++ [d] ↔ marker <+: a := by
  rw [List.prefix_concat_iff]
  refine or_iff_right fun h => hd ?_
  rw [h]
  simp

theorem infix_append_cons (hd : d ∉ marker) :
    marker <:+: a ++ d :: b ↔ marker <:+: a ∨ marker <:+: b := by
  constructor
  · rintro ⟨s, t, h⟩
    rw [List.append_assoc] at h
    obtain ⟨w, rfl, hw⟩ | ⟨w, rfl, hw⟩ := List.append_eq_append_iff.mp h
    · obtain ⟨v, rfl, -⟩ | ⟨v, rfl, hv⟩ := List.append_eq_append_iff.mp hw
      · exact .inl ⟨s, v, by simp⟩
      · cases v with
        | nil => exact .inl ⟨s, [], by simp⟩
        | cons x v =>
          obtain ⟨rfl, -⟩ := List.cons.inj hv
          exact absurd (by simp) hd
    · cases w with
      | nil =>
        cases marker with
        | nil => exact .inl (List.nil_infix)
        | cons m marker =>
          obtain ⟨rfl, -⟩ := List.cons.inj hw
          exact absurd (by simp) hd
      | cons x w =>
        obtain ⟨-, rfl⟩ := List.cons.inj hw
        exact .inr ⟨w, t, by simp⟩
  · rintro (h | h)
    · exact h.trans (List.infix_append' [] a _)
    · exact h.trans ((List.suffix_cons d b).trans (List.suffix_append a _)).isInfix

end Marker

end GpgFrontend
