import GpgFrontend.Base.Lines

/-!
# Rewriting a text line by line

A `LineMachine` rewrites a text a line at a time and keeps a state from one line to the next. It
sees a line with its delimiter, which it hands on unchanged, so what it does is settled by the
contents of the lines.

- `run_append_delim`, `run_of_free`: a run, one line at a time.
- `run_sublist`, `filter_run`: what holds of every line holds of the text.
-/

namespace GpgFrontend

/-- `step s line` is the state after a line and what is written for it. -/
structure LineMachine (α σ : Type) (d : α) where
  step : σ → List α → σ × List α
  ended : ∀ s c, d ∉ c → step s (c ++ [d]) = ((step s c).1, (step s c).2 ++ [d])
  step_nil : ∀ s, (step s []).2 = []
  free : ∀ s c, d ∉ c → d ∉ (step s c).2

namespace LineMachine

variable {α σ : Type} {d : α} (M : LineMachine α σ d)

def after (s : σ) (lines : List (List α)) : σ := lines.foldl (fun s line => (M.step s line).1) s

def runLines : σ → List (List α) → List (List α)
  | _, [] => []
  | s, line :: lines => (M.step s line).2 :: runLines (M.step s line).1 lines

@[simp] theorem after_nil (s : σ) : M.after s [] = s := rfl

@[simp] theorem after_cons (s : σ) (line : List α) (lines : List (List α)) :
    M.after s (line :: lines) = M.after (M.step s line).1 lines := rfl

@[simp] theorem runLines_nil (s : σ) : M.runLines s [] = [] := rfl

@[simp] theorem runLines_cons (s : σ) (line : List α) (lines : List (List α)) :
    M.runLines s (line :: lines) = (M.step s line).2 :: M.runLines (M.step s line).1 lines := rfl

@[simp] theorem length_runLines (s : σ) (lines : List (List α)) :
    (M.runLines s lines).length = lines.length := by
  induction lines generalizing s with
  | nil => rfl
  | cons line lines ih => rw [runLines_cons, List.length_cons, ih, List.length_cons]

theorem runLines_append (s : σ) (ls ls' : List (List α)) :
    M.runLines s (ls ++ ls') = M.runLines s ls ++ M.runLines (M.after s ls) ls' := by
  induction ls generalizing s with
  | nil => rfl
  | cons line ls ih => rw [List.cons_append, runLines_cons, ih, runLines_cons, after_cons]; rfl

theorem after_append (s : σ) (ls ls' : List (List α)) :
    M.after s (ls ++ ls') = M.after (M.after s ls) ls' := List.foldl_append

/-- While the machine stays in a state, every line is rewritten in the same way. -/
theorem runLines_map {s : σ} {f : List α → List α} (lines : List (List α))
    (h : ∀ line ∈ lines, M.step s line = (s, f line)) :
    M.runLines s lines = lines.map f ∧ M.after s lines = s := by
  induction lines with
  | nil => exact ⟨rfl, rfl⟩
  | cons line lines ih =>
    have hrest := ih fun l hl => h l (List.mem_cons_of_mem line hl)
    rw [runLines_cons, after_cons, h line List.mem_cons_self, hrest.1, hrest.2]
    exact ⟨rfl, rfl⟩

theorem runLines_idle {s : σ} (lines : List (List α))
    (h : ∀ line ∈ lines, M.step s line = (s, line)) :
    M.runLines s lines = lines ∧ M.after s lines = s := by
  have hmap := M.runLines_map (f := id) lines h
  rwa [List.map_id] at hmap

variable [DecidableEq α]

def run (s : σ) (text : List α) : List α := (M.runLines s (splitInclusive d text)).flatten

theorem run_append_delim {c : List α} (s : σ) (rest : List α) (h : d ∉ c) :
    M.run s (c ++ d :: rest) = (M.step s c).2 ++ d :: M.run (M.step s c).1 rest := by
  rw [run, splitInclusive_append_delim h, runLines_cons, M.ended s c h, List.flatten_cons,
    List.append_assoc]
  rfl

theorem run_of_free {c : List α} (s : σ) (h : d ∉ c) : M.run s c = (M.step s c).2 := by
  rw [run, splitInclusive_of_free h]
  split
  · next hnil => rw [hnil, M.step_nil]; rfl
  · rw [runLines_cons, runLines_nil, List.flatten_singleton]

/-- The lines of what was written are what was written for the lines, but for a last line that
went. -/
theorem splitInclusive_run (s : σ) (text : List α) :
    splitInclusive d (M.run s text)
      = (M.runLines s (splitInclusive d text)).filter fun line => !line.isEmpty := by
  obtain ⟨cs, last, hcs, hlast, rfl⟩ := exists_joinLines d text
  induction cs generalizing s with
  | nil =>
    rw [joinLines_nil, M.run_of_free s hlast, splitInclusive_of_free (M.free s last hlast),
      splitInclusive_of_free hlast]
    split_ifs with hwritten hnil
    · rfl
    · simp [hwritten]
    · rename_i hnil
      exact absurd (by rw [hnil, M.step_nil]) hwritten
    · simp [hwritten]
  | cons c cs ih =>
    have hc : d ∉ c := hcs c List.mem_cons_self
    rw [joinLines_cons, M.run_append_delim s _ hc, splitInclusive_append_delim (M.free s c hc),
      splitInclusive_append_delim hc, runLines_cons, M.ended s c hc,
      ih _ fun c' hc' => hcs c' (List.mem_cons_of_mem c hc'),
      List.filter_cons_of_pos (by simp)]

/-- A second run changes nothing when a second step on what was written for a line changes
nothing. -/
theorem run_idempotent (hidem : ∀ s c, d ∉ c → M.step s (M.step s c).2 = M.step s c) (s : σ)
    (text : List α) : M.run s (M.run s text) = M.run s text := by
  obtain ⟨cs, last, hcs, hlast, rfl⟩ := exists_joinLines d text
  induction cs generalizing s with
  | nil =>
    rw [joinLines_nil, M.run_of_free s hlast, M.run_of_free s (M.free s last hlast),
      hidem s last hlast]
  | cons c cs ih =>
    have hc : d ∉ c := hcs c List.mem_cons_self
    rw [joinLines_cons, M.run_append_delim s _ hc, M.run_append_delim s _ (M.free s c hc),
      hidem s c hc, ih _ fun c' hc' => hcs c' (List.mem_cons_of_mem c hc')]

omit [DecidableEq α] in
theorem runLines_flatten_sublist (h : ∀ s line, (M.step s line).2.Sublist line) (s : σ)
    (lines : List (List α)) : (M.runLines s lines).flatten.Sublist lines.flatten := by
  induction lines generalizing s with
  | nil => exact List.Sublist.refl _
  | cons line lines ih =>
    rw [runLines_cons, List.flatten_cons, List.flatten_cons]
    exact (h s line).append (ih _)

omit [DecidableEq α] in
theorem filter_runLines {p : α → Bool} (h : ∀ s line, (M.step s line).2.filter p = line.filter p)
    (s : σ) (lines : List (List α)) :
    (M.runLines s lines).flatten.filter p = lines.flatten.filter p := by
  induction lines generalizing s with
  | nil => rfl
  | cons line lines ih =>
    rw [runLines_cons, List.flatten_cons, List.flatten_cons, List.filter_append,
      List.filter_append, h, ih]

theorem run_sublist (h : ∀ s line, (M.step s line).2.Sublist line) (s : σ) (text : List α) :
    (M.run s text).Sublist text := by
  have hlines := M.runLines_flatten_sublist h s (splitInclusive d text)
  rwa [flatten_splitInclusive] at hlines

theorem filter_run {p : α → Bool} (h : ∀ s line, (M.step s line).2.filter p = line.filter p)
    (s : σ) (text : List α) : (M.run s text).filter p = text.filter p := by
  rw [run, M.filter_runLines h, flatten_splitInclusive]

end LineMachine

end GpgFrontend
