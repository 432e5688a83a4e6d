import Mathlib.Data.List.Basic

/-!
# Dot segments

A path as the list of its names, where one name stands for here and one for the folder above.

- `resolveDots_append`: where no step up follows, what was resolved stays at the front.
-/

namespace GpgFrontend

variable {γ : Type} {dot dotDot : γ}

/-- Steps up at the front, and then names. -/
def DotsResolved (dot dotDot : γ) (parts : List γ) : Prop :=
  ∃ n names, parts = List.replicate n dotDot ++ names ∧ dot ∉ names ∧ dotDot ∉ names

theorem DotsResolved.dot_notMem {parts : List γ} (hne : dot ≠ dotDot)
    (h : DotsResolved dot dotDot parts) : dot ∉ parts := by
  obtain ⟨n, names, rfl, hdot, -⟩ := h
  intro hmem
  rcases List.mem_append.1 hmem with hrep | hmem
  · exact hne (List.eq_of_mem_replicate hrep)
  · exact hdot hmem

/-- Behind a name there is no step up. -/
theorem DotsResolved.of_append {front rest : List γ} (h : DotsResolved dot dotDot (front ++ rest))
    (hfront : front ≠ []) (hup : dotDot ∉ front) : dotDot ∉ rest := by
  obtain ⟨n, names, heq, -, hnames⟩ := h
  cases n with
  | zero =>
    rw [List.replicate_zero, List.nil_append] at heq
    rw [← heq, List.mem_append, not_or] at hnames
    exact hnames.2
  | succ n =>
    cases front with
    | nil => exact absurd rfl hfront
    | cons first front =>
      obtain ⟨rfl, -⟩ := List.cons.inj heq
      exact absurd List.mem_cons_self hup

variable [DecidableEq γ]

/-- One more name, onto those so far, the last of them first. -/
def resolveStep (dot dotDot : γ) (above : List γ) (part : γ) : List γ :=
  if part = dot then above
  else if part = dotDot then
    match above with
    | [] => [dotDot]
    | top :: rest => if top = dotDot then dotDot :: above else rest
  else part :: above

/-- A path without `.`, and with each `..` taken away with the name before it. -/
def resolveDots (dot dotDot : γ) (parts : List γ) : List γ :=
  (parts.foldl (resolveStep dot dotDot) []).reverse

/-- One step keeps the form, the names last first. -/
theorem resolveStep_form (hne : dot ≠ dotDot) {above : List γ} {part : γ}
    (h : DotsResolved dot dotDot above.reverse) :
    DotsResolved dot dotDot (resolveStep dot dotDot above part).reverse := by
  unfold resolveStep
  split
  · exact h
  next hdot =>
  split
  · next hup =>
    cases above with
    | nil => exact ⟨1, [], rfl, List.not_mem_nil, List.not_mem_nil⟩
    | cons top rest =>
      obtain ⟨n, names, heq, hnodot, hnoup⟩ := h
      rw [List.reverse_cons] at heq
      dsimp only
      split
      · next htop =>
        -- a step up on top: there is no name at all
        subst htop
        have hnil : names = [] := by
          rcases List.eq_nil_or_concat names with hnil | ⟨front, last, rfl⟩
          · exact hnil
          · rw [List.concat_eq_append, ← List.append_assoc] at heq
            obtain ⟨-, hlast⟩ := List.append_inj' heq rfl
            rw [(List.cons.inj hlast).1, List.concat_eq_append] at hnoup
            exact absurd (List.mem_append_right _ List.mem_cons_self) hnoup
        refine ⟨n + 1, [], ?_, List.not_mem_nil, List.not_mem_nil⟩
        rw [List.reverse_cons, List.reverse_cons, heq, hnil, List.append_nil, List.append_nil,
          List.replicate_succ']
      · next htop =>
        rcases List.eq_nil_or_concat names with rfl | ⟨front, last, rfl⟩
        · rw [List.append_nil] at heq
          have hmem : top ∈ List.replicate n dotDot := by
            rw [← heq]
            exact List.mem_append_right _ List.mem_cons_self
          exact absurd (List.eq_of_mem_replicate hmem) htop
        · rw [List.concat_eq_append, ← List.append_assoc] at heq
          obtain ⟨hrest, -⟩ := List.append_inj' heq rfl
          rw [List.concat_eq_append, List.mem_append, not_or] at hnodot hnoup
          exact ⟨n, front, hrest, hnodot.1, hnoup.1⟩
  · next hup =>
    obtain ⟨n, names, heq, hnodot, hnoup⟩ := h
    refine ⟨n, names ++ [part], ?_, ?_, ?_⟩
    · rw [List.reverse_cons, heq, List.append_assoc]
    · rw [List.mem_append, List.mem_singleton, not_or]
      exact ⟨hnodot, Ne.symm hdot⟩
    · rw [List.mem_append, List.mem_singleton, not_or]
      exact ⟨hnoup, Ne.symm hup⟩

theorem resolved_resolveDots (hne : dot ≠ dotDot) (parts : List γ) :
    DotsResolved dot dotDot (resolveDots dot dotDot parts) := by
  have hfold : ∀ above : List γ, DotsResolved dot dotDot above.reverse →
      DotsResolved dot dotDot (parts.foldl (resolveStep dot dotDot) above).reverse := by
    induction parts with
    | nil => exact fun _ h => h
    | cons part rest ih => exact fun above h => ih _ (resolveStep_form hne h)
  exact hfold [] ⟨0, [], rfl, List.not_mem_nil, List.not_mem_nil⟩

/-- Names without a step up go onto what is there. -/
theorem foldl_resolveStep {above later : List γ} (hup : dotDot ∉ later) :
    later.foldl (resolveStep dot dotDot) above
      = (later.filter fun part => part ≠ dot).reverse ++ above := by
  induction later generalizing above with
  | nil => rfl
  | cons part rest ih =>
    rw [List.mem_cons, not_or] at hup
    rw [List.foldl_cons, ih hup.2]
    unfold resolveStep
    by_cases hdot : part = dot
    · rw [if_pos hdot, List.filter_cons_of_neg (by simpa using hdot)]
    · rw [if_neg hdot, if_neg (Ne.symm hup.1), List.filter_cons_of_pos (by simpa using hdot),
        List.reverse_cons, List.append_assoc]
      rfl

theorem resolveDots_append {front later : List γ} (hup : dotDot ∉ later) :
    resolveDots dot dotDot (front ++ later)
      = resolveDots dot dotDot front ++ later.filter fun part => part ≠ dot := by
  rw [resolveDots, resolveDots, List.foldl_append, foldl_resolveStep hup, List.reverse_append,
    List.reverse_reverse]

theorem foldl_replicate_up (hne : dot ≠ dotDot) (n : Nat) :
    (List.replicate n dotDot).foldl (resolveStep dot dotDot) [] = List.replicate n dotDot := by
  have hstep : ∀ m, resolveStep dot dotDot (List.replicate m dotDot) dotDot
      = List.replicate (m + 1) dotDot := by
    intro m
    unfold resolveStep
    rw [if_neg hne.symm, if_pos rfl]
    cases m with
    | zero => rfl
    | succ m => exact if_pos rfl
  induction n with
  | zero => rfl
  | succ n ih => rw [List.replicate_succ', List.foldl_append, ih, ← List.replicate_succ',
      List.foldl_cons, List.foldl_nil, hstep]

/-- What is resolved stays as it is. -/
theorem resolveDots_of_resolved (hne : dot ≠ dotDot) {parts : List γ}
    (h : DotsResolved dot dotDot parts) : resolveDots dot dotDot parts = parts := by
  obtain ⟨n, names, rfl, hdot, hup⟩ := h
  have hkept : names.filter (fun part => part ≠ dot) = names :=
    List.filter_eq_self.2 fun part hpart => decide_eq_true fun heq => hdot (heq ▸ hpart)
  rw [resolveDots_append hup, hkept, resolveDots, foldl_replicate_up hne, List.reverse_replicate]

/-- What comes first may be resolved first. -/
theorem resolveDots_resolve_append (hne : dot ≠ dotDot) (front later : List γ) :
    resolveDots dot dotDot (resolveDots dot dotDot front ++ later)
      = resolveDots dot dotDot (front ++ later) := by
  have hfront := resolveDots_of_resolved hne (resolved_resolveDots hne front)
  have hstack : (resolveDots dot dotDot front).foldl (resolveStep dot dotDot) []
      = front.foldl (resolveStep dot dotDot) [] :=
    List.reverse_injective hfront
  calc resolveDots dot dotDot (resolveDots dot dotDot front ++ later)
      = (later.foldl (resolveStep dot dotDot) ((resolveDots dot dotDot front).foldl
          (resolveStep dot dotDot) [])).reverse := by rw [← List.foldl_append]; rfl
    _ = (later.foldl (resolveStep dot dotDot) (front.foldl (resolveStep dot dotDot) [])).reverse := by
      rw [hstack]
    _ = resolveDots dot dotDot (front ++ later) := by rw [← List.foldl_append]; rfl

theorem mem_resolveStep {above : List γ} {part other : γ}
    (h : other ∈ resolveStep dot dotDot above part) : other = part ∨ other ∈ above := by
  unfold resolveStep at h
  split at h
  · exact .inr h
  next hdot =>
  split at h
  · next hup =>
    cases above with
    | nil => exact .inl ((List.mem_singleton.1 h).trans hup.symm)
    | cons top rest =>
      dsimp only at h
      split at h
      · rcases List.mem_cons.1 h with heq | hmem
        · exact .inl (heq.trans hup.symm)
        · exact .inr hmem
      · exact .inr (List.mem_cons_of_mem _ h)
  · exact List.mem_cons.1 h

/-- Each name of the resolved path is one of the path. -/
theorem mem_of_mem_resolveDots {part : γ} {parts : List γ}
    (h : part ∈ resolveDots dot dotDot parts) : part ∈ parts := by
  have hfold : ∀ above : List γ, part ∈ parts.foldl (resolveStep dot dotDot) above →
      part ∈ parts ∨ part ∈ above := by
    clear h
    induction parts with
    | nil => exact fun above h => .inr h
    | cons first rest ih =>
      intro above h
      rcases ih _ h with hrest | habove
      · exact .inl (List.mem_cons_of_mem _ hrest)
      · rcases mem_resolveStep habove with rfl | habove
        · exact .inl List.mem_cons_self
        · exact .inr habove
  exact (hfold [] (List.mem_reverse.1 h)).resolve_right List.not_mem_nil

end GpgFrontend
