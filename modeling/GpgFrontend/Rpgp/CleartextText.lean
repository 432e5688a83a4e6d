import GpgFrontend.Base.Lines

/-!
# The text of a cleartext signature

- `trimTrailingWhitespace`: `trim_trailing_whitespace` of `sign.rs`, which prepares the text the
  signer hashes.
- `Interleaved line`: carriage returns with white space on both sides right before the line
  ending. The code cuts what follows them and stops.
- `TrimsWell text`: what cleartext signing needs of the trimming of one text.
-/

namespace GpgFrontend.Cleartext

def isBlank (c : Char) : Bool := c == ' ' || c == '\t'

def isCR (c : Char) : Bool := c == '\r'

def isTrailing (c : Char) : Bool := c == ' ' || c == '\t' || c == '\r'

/-- One line of the text, with its line feed if it has one. -/
def trimLine (line : List Char) : List Char :=
  if line.getLast? ≠ some '\n' then
    line.rdropWhile isTrailing
  else
    let body := line.rdropWhile fun c => c == '\r' || c == '\n'
    let ending := line.drop body.length
    body.rdropWhile isBlank ++ ending

def trimTrailingWhitespace (text : List Char) : List Char :=
  (splitInclusive '\n' text).flatMap trimLine

/-! ## What a verifier reads -/

/-- A line without the LF or the CRLF that ends it. -/
def lineText (line : List Char) : List Char :=
  if line.getLast? = some '\n' then
    if line.dropLast.getLast? = some '\r' then line.dropLast.dropLast else line.dropLast
  else line

/-- A line after a verifier has removed the spaces and tabs at its end. -/
def verifierLine (line : List Char) : List Char :=
  (lineText line).rdropWhile isBlank ++ line.drop (lineText line).length

/-- What a verifier hashes of the text between the header and the signature. The line ending
before the signature is not part of the text. -/
def verifierText (doc : List Char) : List Char :=
  let lines := splitInclusive '\n' doc
  lines.dropLast.flatMap verifierLine ++ (lineText (lines.getLastD [])).rdropWhile isBlank

/-! ## What is asked of the trimming -/

/-- A line that the trimming shortened: what it kept, what it removed and the line ending. -/
structure Cut where
  kept : List Char
  removed : List Char
  ending : List Char

def Cut.whole (cut : Cut) : List Char := cut.kept ++ cut.removed ++ cut.ending

def Cut.short (cut : Cut) : List Char := cut.kept ++ cut.ending

/-- Only spaces, tabs and carriage returns were removed, and each right before a line ending. -/
structure Cut.Trailing (cut : Cut) : Prop where
  kept_free : '\n' ∉ cut.kept
  removed_blank : ∀ c ∈ cut.removed, isTrailing c
  ending_eq : ∃ n, cut.ending = List.replicate n '\r' ++ ['\n']

/-- `short` is `text` without some of the white space that trails in its lines. -/
def OnlyTrailingRemoved (text short : List Char) : Prop :=
  ∃ (cuts : List Cut) (kept removed : List Char),
    (∀ cut ∈ cuts, cut.Trailing) ∧ '\n' ∉ kept ∧
    (∀ c ∈ removed, isTrailing c) ∧
    text = cuts.flatMap Cut.whole ++ (kept ++ removed) ∧
    short = cuts.flatMap Cut.short ++ kept

/-- No line ends in a space or a tab, and an unended last line does not end in a carriage
return either. -/
def NoneTrails (text : List Char) : Prop :=
  ∀ line ∈ splitInclusive '\n' text, ∀ c ∈ (lineText line).getLast?,
    c ≠ ' ' ∧ c ≠ '\t' ∧ (line.getLast? ≠ some '\n' → c ≠ '\r')

structure TrimsWell (text : List Char) : Prop where
  noneTrails : NoneTrails (trimTrailingWhitespace text)
  idempotent :
    trimTrailingWhitespace (trimTrailingWhitespace text) = trimTrailingWhitespace text
  onlyTrailing : OnlyTrailingRemoved text (trimTrailingWhitespace text)
  /-- The armor writer follows the text with a line break. -/
  hashedAlike :
    verifierText (trimTrailingWhitespace text ++ ['\n']) = trimTrailingWhitespace text

/-- White space, carriage returns, white space, and only then the line ending. -/
def Interleaved (line : List Char) : Prop :=
  ∃ before w crs blanks n,
    line = before ++ w :: (crs ++ blanks) ++ (List.replicate n '\r' ++ ['\n']) ∧
    isBlank w ∧ crs ≠ [] ∧ (∀ c ∈ crs, isCR c) ∧ blanks ≠ [] ∧ ∀ c ∈ blanks, isBlank c

/-! ## One line -/

theorem rtakeWhile_cr (c : List Char) :
    c.rtakeWhile isCR = List.replicate (c.rtakeWhile isCR).length '\r' :=
  List.eq_replicate_iff.mpr ⟨rfl, fun x hx => by
    simpa [isCR] using List.mem_rtakeWhile_imp hx⟩

/-- What the trimming leaves of the content of a line that a line feed ends. -/
def trimContent (c : List Char) : List Char :=
  (c.rdropWhile isCR).rdropWhile isBlank ++ c.rtakeWhile isCR

variable {c : List Char}

theorem trimLine_ended (h : '\n' ∉ c) : trimLine (c ++ ['\n']) = trimContent c ++ ['\n'] := by
  have hbody : (c ++ ['\n']).rdropWhile (fun x => x == '\r' || x == '\n') = c.rdropWhile isCR := by
    rw [List.rdropWhile_concat_pos _ _ _ (by decide)]
    refine rdropWhile_congr fun x hx => ?_
    have hne : x ≠ '\n' := fun hx' => h (hx' ▸ hx)
    simp [isCR, hne]
  have hending : (c ++ ['\n']).drop (c.rdropWhile isCR).length = c.rtakeWhile isCR ++ ['\n'] := by
    calc (c ++ ['\n']).drop (c.rdropWhile isCR).length
        = ((c.rdropWhile isCR ++ c.rtakeWhile isCR) ++ ['\n']).drop (c.rdropWhile isCR).length := by
          rw [List.rdropWhile_append_rtakeWhile]
      _ = c.rtakeWhile isCR ++ ['\n'] := by rw [List.append_assoc, List.drop_left]
  rw [trimLine, if_neg (by simp)]
  simp only [hbody, hending, trimContent, List.append_assoc]

variable {last : List Char}

theorem trimLine_unended (h : '\n' ∉ last) : trimLine last = last.rdropWhile isTrailing :=
  if_pos fun hlast => h (List.mem_of_getLast? hlast)

theorem not_mem_trimContent (h : '\n' ∉ c) : '\n' ∉ trimContent c := by
  intro hmem
  obtain hmem | hmem := List.mem_append.mp hmem
  · exact h ((List.rdropWhile_prefix _ _).subset ((List.rdropWhile_prefix _ _).subset hmem))
  · exact h ((List.rtakeWhile_suffix _ _).subset hmem)

/-- Trimming again changes nothing when no white space is left before the carriage returns. -/
theorem trimContent_eq_self_iff :
    trimContent c = c ↔ (c.rdropWhile isCR).rdropWhile isBlank = c.rdropWhile isCR := by
  constructor
  · intro h
    rw [trimContent] at h
    conv_rhs at h => rw [← List.rdropWhile_append_rtakeWhile (p := isCR) (l := c)]
    exact List.append_cancel_right h
  · intro h
    rw [trimContent, h, List.rdropWhile_append_rtakeWhile]

theorem rdropWhile_trimContent (c : List Char) :
    (trimContent c).rdropWhile isCR = ((c.rdropWhile isCR).rdropWhile isBlank).rdropWhile isCR :=
  rdropWhile_append fun _ hx => List.mem_rtakeWhile_imp hx

theorem isBlank_of_isCR {c : Char} (h : isCR c) : ¬isBlank c := by
  rw [isCR, beq_iff_eq] at h
  rw [h]
  decide

theorem getLast_append_of {α : Type} {p : α → Prop} {l t : List α} (hne : t ≠ [])
    (ht : ∀ x ∈ t, p x) (h : l ++ t ≠ []) : p ((l ++ t).getLast h) := by
  rw [List.getLast_append_of_ne_nil _ hne]
  exact ht _ (List.getLast_mem hne)

/-- Interleaved white space survives one trimming: what is left ends in a blank before its
carriage returns. -/
theorem rdropWhile_of_interleaved (h : Interleaved (c ++ ['\n'])) :
    ∃ before w, isBlank w ∧ ((c.rdropWhile isCR).rdropWhile isBlank).rdropWhile isCR = before ++ [w] := by
  obtain ⟨before, w, crs, blanks, n, hline, hw, hcrs, hcr, hblanks, hblank⟩ := h
  have hc : c = (before ++ [w] ++ crs ++ blanks) ++ List.replicate n '\r' := by
    have hended : c ++ ['\n'] = (before ++ [w] ++ crs ++ blanks) ++ List.replicate n '\r' ++ ['\n'] := by
      rw [hline]
      simp
    exact List.append_cancel_right hended
  have hreturns : ∀ x ∈ List.replicate n '\r', isCR x := by
    intro x hx
    rw [List.eq_of_mem_replicate hx]
    rfl
  have hfirst : c.rdropWhile isCR = before ++ [w] ++ crs ++ blanks := by
    rw [hc]
    refine rdropWhile_eq hreturns fun hne => ?_
    exact getLast_append_of hblanks (fun x hx hcr' => isBlank_of_isCR hcr' (hblank x hx)) hne
  have hsecond : (c.rdropWhile isCR).rdropWhile isBlank = before ++ [w] ++ crs := by
    rw [hfirst]
    refine rdropWhile_eq hblank fun hne => ?_
    exact getLast_append_of hcrs (fun x hx => isBlank_of_isCR (hcr x hx)) hne
  refine ⟨before, w, hw, ?_⟩
  rw [hsecond]
  refine rdropWhile_eq hcr fun hne => ?_
  rw [List.getLast_append_singleton]
  exact fun hcr' => isBlank_of_isCR hcr' hw

theorem interleaved_of_rdropWhile {before : List Char} {w : Char} (hw : isBlank w)
    (h : ((c.rdropWhile isCR).rdropWhile isBlank).rdropWhile isCR = before ++ [w]) :
    Interleaved (c ++ ['\n']) := by
  set y := c.rdropWhile isCR with hy
  set b := y.rdropWhile isBlank with hb
  have hbCut : before ++ [w] ++ b.rtakeWhile isCR = b := by
    rw [← h]
    exact List.rdropWhile_append_rtakeWhile
  have hyCut : b ++ y.rtakeWhile isBlank = y := List.rdropWhile_append_rtakeWhile
  have hcCut : y ++ c.rtakeWhile isCR = c := List.rdropWhile_append_rtakeWhile
  have hcrs : b.rtakeWhile isCR ≠ [] := by
    -- else `b` would end in the blank `w`, and it was cut at its blanks
    intro hnil
    have hbw : b = before ++ [w] := by rw [← hbCut, hnil, List.append_nil]
    have hstable : b.rdropWhile isBlank = b := List.rdropWhile_idempotent _ _
    refine List.rdropWhile_eq_self_iff.mp hstable (by simp [hbw]) ?_
    simp only [hbw, List.getLast_append_singleton]
    exact hw
  have hblanks : y.rtakeWhile isBlank ≠ [] := by
    -- else `y` would end in a carriage return, and it was cut at those
    intro hnil
    have hyb : y = b := by rw [← hyCut, hnil, List.append_nil]
    have hstable : y.rdropWhile isCR = y := List.rdropWhile_idempotent _ _
    refine hcrs (List.rtakeWhile_eq_nil_iff.mpr ?_)
    rw [← hyb]
    exact List.rdropWhile_eq_self_iff.mp hstable
  refine ⟨before, w, b.rtakeWhile isCR, y.rtakeWhile isBlank, (c.rtakeWhile isCR).length, ?_, hw,
    hcrs, fun x hx => List.mem_rtakeWhile_imp hx, hblanks, fun x hx => List.mem_rtakeWhile_imp hx⟩
  rw [← rtakeWhile_cr]
  calc c ++ ['\n'] = y ++ c.rtakeWhile isCR ++ ['\n'] := by rw [hcCut]
    _ = b ++ y.rtakeWhile isBlank ++ c.rtakeWhile isCR ++ ['\n'] := by rw [hyCut]
    _ = before ++ [w] ++ b.rtakeWhile isCR ++ y.rtakeWhile isBlank ++ c.rtakeWhile isCR
          ++ ['\n'] := by rw [hbCut]
    _ = _ := by simp

/-- Trimming a trimmed line again changes nothing exactly when nothing was interleaved. -/
theorem trimContent_idempotent_iff (c : List Char) :
    trimContent (trimContent c) = trimContent c ↔ ¬Interleaved (c ++ ['\n']) := by
  rw [trimContent_eq_self_iff, rdropWhile_trimContent, List.rdropWhile_eq_self_iff]
  constructor
  · intro h hinter
    obtain ⟨before, w, hw, heq⟩ := rdropWhile_of_interleaved hinter
    refine h (by simp [heq]) ?_
    simp only [heq, List.getLast_append_singleton]
    exact hw
  · intro h hne hblank
    exact h (interleaved_of_rdropWhile hblank (List.dropLast_append_getLast hne).symm)

/-! ## The whole text -/

variable {cs : List (List Char)}

theorem trim_joinLines (hcs : ∀ c ∈ cs, '\n' ∉ c) (hlast : '\n' ∉ last) :
    trimTrailingWhitespace (joinLines '\n' cs last)
      = joinLines '\n' (cs.map trimContent) (last.rdropWhile isTrailing) := by
  rw [← trimLine_unended hlast]
  exact flatMap_splitInclusive hcs hlast (fun c hc => trimLine_ended (hcs c hc)) rfl

theorem free_trimmed (hcs : ∀ c ∈ cs, '\n' ∉ c) : ∀ c ∈ cs.map trimContent, '\n' ∉ c := by
  intro c hc
  obtain ⟨c', hc', rfl⟩ := List.mem_map.mp hc
  exact not_mem_trimContent (hcs c' hc')

theorem free_trimmed_last (hlast : '\n' ∉ last) : '\n' ∉ last.rdropWhile isTrailing :=
  fun h => hlast ((List.rdropWhile_prefix _ _).subset h)

/-- Whatever the text, only trailing white space goes. -/
theorem onlyTrailingRemoved_trim (hcs : ∀ c ∈ cs, '\n' ∉ c) (hlast : '\n' ∉ last) :
    OnlyTrailingRemoved (joinLines '\n' cs last)
      (trimTrailingWhitespace (joinLines '\n' cs last)) := by
  let cutOf (c : List Char) : Cut :=
    { kept := (c.rdropWhile isCR).rdropWhile isBlank
      removed := (c.rdropWhile isCR).rtakeWhile isBlank
      ending := c.rtakeWhile isCR ++ ['\n'] }
  have hwhole (c : List Char) : (cutOf c).whole = c ++ ['\n'] := by
    rw [Cut.whole, List.rdropWhile_append_rtakeWhile, ← List.append_assoc,
      List.rdropWhile_append_rtakeWhile]
  have hshort (c : List Char) : (cutOf c).short = trimContent c ++ ['\n'] := by
    rw [Cut.short, trimContent, List.append_assoc]
  refine ⟨cs.map cutOf, last.rdropWhile isTrailing, last.rtakeWhile isTrailing, ?_,
    free_trimmed_last hlast, fun c hc => List.mem_rtakeWhile_imp hc, ?_, ?_⟩
  · intro cut hcut
    obtain ⟨c, hc, rfl⟩ := List.mem_map.mp hcut
    refine ⟨fun h => ?_, fun x hx => ?_, _, by rw [← rtakeWhile_cr]⟩
    · exact not_mem_trimContent (hcs c hc) (List.mem_append_left _ h)
    · have hblank : isBlank x := List.mem_rtakeWhile_imp hx
      rw [isTrailing, ← isBlank, hblank]
      rfl
  · rw [List.flatMap_map, List.rdropWhile_append_rtakeWhile, joinLines]
    simp only [hwhole]
  · rw [trim_joinLines hcs hlast, joinLines, List.flatMap_map, List.flatMap_map]
    simp only [hshort]

/-! ## A verifier reads what was hashed -/

theorem lineText_ended (c : List Char) :
    lineText (c ++ ['\n']) = if c.getLast? = some '\r' then c.dropLast else c := by
  simp [lineText]

theorem lineText_unended {line : List Char} (h : '\n' ∉ line) : lineText line = line :=
  if_neg fun hlast => h (List.mem_of_getLast? hlast)

theorem lineText_prefix (line : List Char) : lineText line <+: line := by
  unfold lineText
  split
  · split
    · exact (List.dropLast_prefix _).trans (List.dropLast_prefix _)
    · exact List.dropLast_prefix _
  · exact List.prefix_rfl

/-- White space before the carriage returns is what a second trimming would remove. -/
theorem not_stable_of_blank {before t : List Char} {w : Char} (hw : isBlank w)
    (ht : ∀ x ∈ t, isCR x) : trimContent (before ++ [w] ++ t) ≠ before ++ [w] ++ t := by
  have hcut : (before ++ [w] ++ t).rdropWhile isCR = before ++ [w] := by
    refine rdropWhile_eq ht fun hne => ?_
    rw [List.getLast_append_singleton]
    exact fun hcr => isBlank_of_isCR hcr hw
  rw [ne_eq, trimContent_eq_self_iff, hcut, List.rdropWhile_eq_self_iff]
  intro h
  refine h (by simp) ?_
  rw [List.getLast_append_singleton]
  exact hw

theorem not_blank_of_stable (h : trimContent c = c) :
    ∀ x ∈ (lineText (c ++ ['\n'])).getLast?, ¬isBlank x := by
  intro x hx hblank
  rw [lineText_ended] at hx
  split at hx
  · next hcr =>
    have hcut : c = c.dropLast ++ ['\r'] := (List.dropLast_append_getLast? _ hcr).symm
    have hbefore : c.dropLast = c.dropLast.dropLast ++ [x] :=
      (List.dropLast_append_getLast? _ hx).symm
    rw [hbefore] at hcut
    rw [hcut] at h
    refine not_stable_of_blank hblank (fun y hy => ?_) h
    rw [List.mem_singleton.mp hy]
    rfl
  · have hcut : c = c.dropLast ++ [x] ++ [] := by
      rw [List.append_nil]
      exact (List.dropLast_append_getLast? _ hx).symm
    rw [hcut] at h
    exact not_stable_of_blank hblank (by simp) h

theorem rdropWhile_blank_eq_self {l : List Char} (h : ∀ x ∈ l.getLast?, ¬isBlank x) :
    l.rdropWhile isBlank = l :=
  List.rdropWhile_eq_self_iff.mpr fun hne => h _ (List.getLast?_eq_getLast_of_ne_nil hne)

theorem verifierLine_eq_self {line : List Char} (h : ∀ x ∈ (lineText line).getLast?, ¬isBlank x) :
    verifierLine line = line := by
  obtain ⟨ending, hline⟩ := lineText_prefix line
  rw [verifierLine, rdropWhile_blank_eq_self h]
  conv_lhs => arg 2; arg 2; rw [← hline]
  rw [List.drop_left, hline]

theorem not_trailing_last : ∀ x ∈ (last.rdropWhile isTrailing).getLast?, ¬isTrailing x := by
  intro x hx
  have hstable := List.rdropWhile_idempotent isTrailing last
  rw [List.rdropWhile_eq_self_iff] at hstable
  have hne : last.rdropWhile isTrailing ≠ [] := by
    intro hnil
    rw [hnil] at hx
    cases hx
  rw [List.getLast?_eq_getLast_of_ne_nil hne] at hx
  obtain rfl := Option.mem_some.mp hx
  exact hstable hne

theorem verifierText_stable (hcs : ∀ c ∈ cs, '\n' ∉ c) (hstable : ∀ c ∈ cs, trimContent c = c)
    (hlast : '\n' ∉ last) (htrail : ∀ x ∈ last.getLast?, ¬isTrailing x) :
    verifierText (joinLines '\n' cs last ++ ['\n']) = joinLines '\n' cs last := by
  have hdoc : joinLines '\n' cs last ++ ['\n'] = joinLines '\n' (cs ++ [last]) [] := by
    simp [joinLines]
  have hfree : ∀ c ∈ cs ++ [last], '\n' ∉ c := by
    intro c hc
    obtain hc | hc := List.mem_append.mp hc
    · exact hcs c hc
    · rwa [List.mem_singleton.mp hc]
  have hlines : splitInclusive '\n' (joinLines '\n' cs last ++ ['\n'])
      = cs.map (· ++ ['\n']) ++ [last ++ ['\n']] := by
    rw [hdoc, splitInclusive_joinLines hfree (by simp)]
    simp
  have hended : (cs.map (· ++ ['\n'])).flatMap verifierLine = cs.flatMap (· ++ ['\n']) := by
    rw [List.flatMap_map]
    exact List.flatMap_congr fun c hc => verifierLine_eq_self (not_blank_of_stable (hstable c hc))
  have hnoCR : last.getLast? ≠ some '\r' := fun h => htrail _ h (by decide)
  have hnoBlank : ∀ x ∈ last.getLast?, ¬isBlank x := by
    intro x hx hblank
    refine htrail x hx ?_
    rw [isTrailing, ← isBlank, hblank]
    rfl
  rw [verifierText, hlines]
  simp only [List.dropLast_concat, List.getLastD_concat, hended, lineText_ended, if_neg hnoCR,
    rdropWhile_blank_eq_self hnoBlank, joinLines]

theorem noneTrails_stable (hcs : ∀ c ∈ cs, '\n' ∉ c) (hstable : ∀ c ∈ cs, trimContent c = c)
    (hlast : '\n' ∉ last) (htrail : ∀ x ∈ last.getLast?, ¬isTrailing x) :
    NoneTrails (joinLines '\n' cs last) := by
  intro line hline x hx
  rw [splitInclusive_joinLines hcs hlast, List.mem_append] at hline
  obtain hline | hline := hline
  · obtain ⟨c, hc, rfl⟩ := List.mem_map.mp hline
    have hblank : ¬isBlank x := not_blank_of_stable (hstable c hc) x hx
    rw [isBlank, Bool.or_eq_true, beq_iff_eq, beq_iff_eq, not_or] at hblank
    exact ⟨hblank.1, hblank.2, fun h => absurd List.getLast?_concat h⟩
  · obtain rfl : line = last := by
      split at hline
      · cases hline
      · exact List.mem_singleton.mp hline
    rw [lineText_unended hlast] at hx
    have htr : ¬isTrailing x := htrail x hx
    rw [isTrailing, Bool.or_eq_true, Bool.or_eq_true, beq_iff_eq, beq_iff_eq, beq_iff_eq, not_or,
      not_or] at htr
    exact ⟨htr.1.1, htr.1.2, fun _ => htr.2⟩

theorem interleaved_lines_iff (hcs : ∀ c ∈ cs, '\n' ∉ c) (hlast : '\n' ∉ last) :
    (∀ line ∈ splitInclusive '\n' (joinLines '\n' cs last), ¬Interleaved line) ↔
      ∀ c ∈ cs, trimContent (trimContent c) = trimContent c := by
  simp only [trimContent_idempotent_iff, splitInclusive_joinLines hcs hlast, List.mem_append]
  constructor
  · intro h c hc
    exact h _ (.inl (List.mem_map_of_mem hc))
  · rintro h line (hline | hline)
    · obtain ⟨c, hc, rfl⟩ := List.mem_map.mp hline
      exact h c hc
    · obtain rfl : line = last := by
        split at hline
        · cases hline
        · exact List.mem_singleton.mp hline
      rintro ⟨before, w, crs, blanks, n, rfl, -⟩
      exact hlast (by simp)

/-- The trimming serves cleartext signing on a text exactly when none of its lines has white
space on both sides of carriage returns before its line ending. -/
theorem trimsWell_iff (text : List Char) :
    TrimsWell text ↔ ∀ line ∈ splitInclusive '\n' text, ¬Interleaved line := by
  obtain ⟨cs, last, hcs, hlast, rfl⟩ := exists_joinLines '\n' text
  rw [interleaved_lines_iff hcs hlast]
  have hfree := free_trimmed hcs
  have hfreeLast := free_trimmed_last hlast
  constructor
  · intro h c hc
    have hidem := h.idempotent
    rw [trim_joinLines hcs hlast, trim_joinLines hfree hfreeLast] at hidem
    have hmap := (joinLines_inj (free_trimmed hfree) hfree (free_trimmed_last hfreeLast) hfreeLast
      hidem).1
    rw [List.map_map, List.map_inj_left] at hmap
    exact hmap c hc
  · intro hstable
    have hstable' : ∀ c ∈ cs.map trimContent, trimContent c = c := by
      intro c hc
      obtain ⟨c', hc', rfl⟩ := List.mem_map.mp hc
      exact hstable c' hc'
    constructor
    · rw [trim_joinLines hcs hlast]
      exact noneTrails_stable hfree hstable' hfreeLast not_trailing_last
    · rw [trim_joinLines hcs hlast, trim_joinLines hfree hfreeLast, List.rdropWhile_idempotent]
      congr 1
      exact (List.map_congr_left hstable').trans (List.map_id' _)
    · exact onlyTrailingRemoved_trim hcs hlast
    · rw [trim_joinLines hcs hlast]
      exact verifierText_stable hfree hstable' hfreeLast not_trailing_last

/-- A carriage return between a space and a space: what is left is a line that ends in a space,
and the verifier hashes it without. -/
theorem interleaved_line_not_trimmed : ¬TrimsWell "a \r \n".toList := by
  intro h
  exact absurd h.hashedAlike (by decide)

end GpgFrontend.Cleartext
