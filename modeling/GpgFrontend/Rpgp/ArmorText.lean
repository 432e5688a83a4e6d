import GpgFrontend.Base.LineMachine
import GpgFrontend.Rpgp.Attribution

/-!
# The white space of armored text

- `stripArmorWhitespace_idempotent`: normalised text is left alone.
-/

namespace GpgFrontend.Rpgp

def isBreak (c : Char) : Bool := c == '\r' || c == '\n'

/-- `str::trim`. -/
def trim (s : List Char) : List Char := (s.dropWhile isWhiteSpace).rdropWhile isWhiteSpace

def signedBegin : List Char := "-----BEGIN PGP SIGNED MESSAGE-----".toList
def signatureBegin : List Char := "-----BEGIN PGP SIGNATURE-----".toList
def armorBegin : List Char := "-----BEGIN PGP ".toList
def armorEnd : List Char := "-----END PGP ".toList

inductive ArmorState where
  | outside
  | headers
  | body
  | cleartext
  deriving DecidableEq

/-- What is written for a line before its ending. -/
def stripContent (state : ArmorState) (content : List Char) : ArmorState × List Char :=
  let trimmed := trim content
  match state with
  | .cleartext =>
    if signatureBegin <+: trimmed then (.headers, trimmed) else (.cleartext, content)
  | .outside =>
    if signedBegin <+: trimmed then (.cleartext, trimmed)
    else if armorBegin <+: trimmed then (.headers, trimmed)
    else (.outside, content)
  | .headers => if trimmed.isEmpty then (.body, []) else (.headers, trimmed)
  | .body =>
    if armorEnd <+: trimmed then (.outside, trimmed)
    else (.body, content.filter fun c => c != ' ' && c != '\t')

def stripLine (state : ArmorState) (line : List Char) : ArmorState × List Char :=
  let content := line.rdropWhile isBreak
  let ending := line.drop content.length
  let (state, written) := stripContent state content
  (state, written ++ ending)

/-! ## One line -/

theorem stripLine_append (state : ArmorState) {content ending : List Char}
    (hcontent : content.rdropWhile isBreak = content) (hending : ∀ c ∈ ending, isBreak c) :
    stripLine state (content ++ ending)
      = ((stripContent state content).1, (stripContent state content).2 ++ ending) := by
  rw [stripLine]
  simp only [rdropWhile_append hending, hcontent, List.drop_left]

theorem stripLine_eq (state : ArmorState) (line : List Char) :
    stripLine state line
      = ((stripContent state (line.rdropWhile isBreak)).1,
          (stripContent state (line.rdropWhile isBreak)).2 ++ line.rtakeWhile isBreak) := by
  conv_lhs => rw [← List.rdropWhile_append_rtakeWhile (p := isBreak) (l := line)]
  exact stripLine_append state (List.rdropWhile_idempotent _ _) fun _ => List.mem_rtakeWhile_imp

theorem trim_sublist (s : List Char) : (trim s).Sublist s :=
  (List.rdropWhile_prefix _ _).sublist.trans (List.dropWhile_sublist _)

/-- A line is written as it is, trimmed, or without its spaces and tabs. -/
theorem stripContent_written (state : ArmorState) (content : List Char) :
    (stripContent state content).2 = content ∨ (stripContent state content).2 = trim content ∨
      (stripContent state content).2 = content.filter fun c => c != ' ' && c != '\t' := by
  cases state with
  | cleartext =>
    rw [stripContent]
    split
    · exact .inr (.inl rfl)
    · exact .inl rfl
  | outside =>
    rw [stripContent]
    split_ifs
    · exact .inr (.inl rfl)
    · exact .inr (.inl rfl)
    · exact .inl rfl
  | headers =>
    rw [stripContent]
    split
    · next hempty => exact .inr (.inl (List.isEmpty_iff.mp hempty).symm)
    · exact .inr (.inl rfl)
  | body =>
    rw [stripContent]
    split
    · exact .inr (.inl rfl)
    · exact .inr (.inr rfl)

theorem stripContent_sublist (state : ArmorState) (content : List Char) :
    (stripContent state content).2.Sublist content := by
  obtain h | h | h := stripContent_written state content
  · rw [h]
  · rw [h]
    exact trim_sublist content
  · rw [h]
    exact List.filter_sublist

theorem filter_trim (s : List Char) :
    (trim s).filter (fun c => !isWhiteSpace c) = s.filter fun c => !isWhiteSpace c := by
  have hdrop : (s.takeWhile isWhiteSpace).filter (fun c => !isWhiteSpace c) = [] :=
    List.filter_eq_nil_iff.mpr fun c hc => by simp [List.mem_takeWhile_imp hc]
  have htail : ((s.dropWhile isWhiteSpace).rtakeWhile isWhiteSpace).filter
      (fun c => !isWhiteSpace c) = [] :=
    List.filter_eq_nil_iff.mpr fun c hc => by simp [List.mem_rtakeWhile_imp hc]
  conv_rhs =>
    rw [← List.takeWhile_append_dropWhile (p := isWhiteSpace) (l := s), List.filter_append, hdrop,
      ← List.rdropWhile_append_rtakeWhile (p := isWhiteSpace) (l := s.dropWhile isWhiteSpace),
      List.filter_append, htail]
  simp [trim]

theorem filter_stripContent (state : ArmorState) (content : List Char) :
    (stripContent state content).2.filter (fun c => !isWhiteSpace c)
      = content.filter fun c => !isWhiteSpace c := by
  obtain h | h | h := stripContent_written state content
  · rw [h]
  · rw [h, filter_trim]
  · rw [h, List.filter_filter]
    refine List.filter_congr fun c _ => ?_
    -- spaces and tabs are white space
    have hspace : isWhiteSpace ' ' = true := by decide
    have htab : isWhiteSpace '\t' = true := by decide
    by_cases hwhite : isWhiteSpace c
    · rw [hwhite]
      rfl
    · have hne : c ≠ ' ' := fun h => hwhite (h ▸ hspace)
      have hne' : c ≠ '\t' := fun h => hwhite (h ▸ htab)
      simp [hne, hne']

theorem isWhiteSpace_of_isBreak {c : Char} (h : isBreak c) : isWhiteSpace c := by
  rw [isBreak, Bool.or_eq_true, beq_iff_eq, beq_iff_eq] at h
  obtain rfl | rfl := h <;> decide

/-- A trimmed line has no line break at its end. -/
theorem rdropWhile_trim (s : List Char) : (trim s).rdropWhile isBreak = trim s := by
  rw [List.rdropWhile_eq_self_iff]
  intro hne hbreak
  have hself : (trim s).rdropWhile isWhiteSpace = trim s := List.rdropWhile_idempotent _ _
  exact List.rdropWhile_eq_self_iff.mp hself hne (isWhiteSpace_of_isBreak hbreak)

theorem trim_trim (s : List Char) : trim (trim s) = trim s := trim_idempotent isWhiteSpace s

/-- What is written for a line and read again, without the line breaks at its end, is written
again, and the state is the same. -/
theorem stripContent_again (state : ArmorState) {content : List Char}
    (hcontent : content.rdropWhile isBreak = content) :
    stripContent state ((stripContent state content).2.rdropWhile isBreak)
      = ((stripContent state content).1, (stripContent state content).2.rdropWhile isBreak) := by
  cases state with
  | cleartext =>
    by_cases hsig : signatureBegin <+: trim content
    · simp [stripContent, hsig, rdropWhile_trim, trim_trim]
    · simp [stripContent, hsig, hcontent]
  | outside =>
    by_cases hsigned : signedBegin <+: trim content
    · simp [stripContent, hsigned, rdropWhile_trim, trim_trim]
    · by_cases hbegin : armorBegin <+: trim content
      · simp [stripContent, hsigned, hbegin, rdropWhile_trim, trim_trim]
      · simp [stripContent, hsigned, hbegin, hcontent]
  | headers =>
    by_cases hempty : trim content = []
    · have hstep : stripContent .headers content = (.body, []) := if_pos (by rw [hempty]; rfl)
      rw [hstep]
      rfl
    · simp [stripContent, hempty, rdropWhile_trim, trim_trim]
  | body =>
    by_cases hend : armorEnd <+: trim content
    · simp [stripContent, hend, rdropWhile_trim, trim_trim]
    · -- the marker holds a space, and none is left
      have hfree : ∀ c ∈ (content.filter fun c => c != ' ' && c != '\t').rdropWhile isBreak,
          (c != ' ' && c != '\t') = true := fun c hc =>
        (List.mem_filter.mp ((List.rdropWhile_prefix _ _).subset hc)).2
      have hnot : ¬armorEnd <+: trim
          ((content.filter fun c => c != ' ' && c != '\t').rdropWhile isBreak) := fun h =>
        absurd (hfree ' ' ((trim_sublist _).subset (h.subset (by decide)))) (by decide)
      have hstep : stripContent .body content
          = (.body, content.filter fun c => c != ' ' && c != '\t') := if_neg hend
      rw [hstep, stripContent]
      simp only [hnot, if_false, List.filter_eq_self.mpr hfree]

theorem stripLine_sublist (state : ArmorState) (line : List Char) :
    (stripLine state line).2.Sublist line := by
  rw [stripLine_eq]
  have hsub := (stripContent_sublist state (line.rdropWhile isBreak)).append_right
    (line.rtakeWhile isBreak)
  rwa [List.rdropWhile_append_rtakeWhile] at hsub

/-- `strip_armor_whitespace`, a line at a time. -/
def stripMachine : LineMachine Char ArmorState '\n' where
  step := stripLine
  ended state c _ := by
    rw [stripLine_eq state c, stripLine_eq, List.rdropWhile_concat_pos _ _ _ (by decide),
      List.rtakeWhile_concat_pos _ _ _ (by decide), List.append_assoc]
  step_nil state := by cases state <;> decide
  free state c hc hmem := hc ((stripLine_sublist state c).subset hmem)

def stripArmorWhitespace (text : List Char) : List Char := stripMachine.run .outside text

theorem filter_stripLine (state : ArmorState) (line : List Char) :
    (stripLine state line).2.filter (fun c => !isWhiteSpace c)
      = line.filter fun c => !isWhiteSpace c := by
  rw [stripLine_eq, List.filter_append, filter_stripContent, ← List.filter_append,
    List.rdropWhile_append_rtakeWhile]

theorem stripLine_again (state : ArmorState) (line : List Char) :
    stripLine state (stripLine state line).2 = stripLine state line := by
  have hcontent : (line.rdropWhile isBreak).rdropWhile isBreak = line.rdropWhile isBreak :=
    List.rdropWhile_idempotent _ _
  have hagain := stripContent_again state hcontent
  rw [stripLine_eq state line]
  set written := (stripContent state (line.rdropWhile isBreak)).2 with hwritten
  have hsplit : written ++ line.rtakeWhile isBreak
      = written.rdropWhile isBreak ++ (written.rtakeWhile isBreak ++ line.rtakeWhile isBreak) := by
    rw [← List.append_assoc, List.rdropWhile_append_rtakeWhile]
  have hending : ∀ c ∈ written.rtakeWhile isBreak ++ line.rtakeWhile isBreak, isBreak c := by
    intro c hc
    obtain hc | hc := List.mem_append.mp hc
    · exact List.mem_rtakeWhile_imp hc
    · exact List.mem_rtakeWhile_imp hc
  rw [hsplit, stripLine_append state (List.rdropWhile_idempotent _ _) hending, hagain]

theorem stripArmorWhitespace_idempotent (text : List Char) :
    stripArmorWhitespace (stripArmorWhitespace text) = stripArmorWhitespace text :=
  stripMachine.run_idempotent (fun state line _ => stripLine_again state line) .outside text

/-! ## A cleartext-signed text -/

/-- The line does not open a signature, not even once it is trimmed. -/
def keptInCleartext (line : List Char) : Bool := decide ¬signatureBegin <+: trim line

variable {line : List Char}

theorem keptInCleartext_iff :
    keptInCleartext line = true ↔ ¬signatureBegin <+: trim line := decide_eq_true_iff

theorem keptInCleartext_eq_false_iff :
    keptInCleartext line = false ↔ signatureBegin <+: trim line := by
  rw [← Bool.not_eq_true, keptInCleartext_iff, not_not]

theorem trim_rdropWhile_isBreak (line : List Char) : trim (line.rdropWhile isBreak) = trim line := by
  conv_rhs => rw [← List.rdropWhile_append_rtakeWhile (p := isBreak) (l := line)]
  exact (trim_append fun c hc => isWhiteSpace_of_isBreak (List.mem_rtakeWhile_imp hc)).symm

theorem stripLine_cleartext_kept (h : keptInCleartext line) :
    stripLine .cleartext line = (.cleartext, line) := by
  rw [stripLine_eq, stripContent]
  simp only [trim_rdropWhile_isBreak, if_neg (keptInCleartext_iff.mp h),
    List.rdropWhile_append_rtakeWhile]

theorem stripLine_cleartext_signature (h : signatureBegin <+: trim line) :
    (stripLine .cleartext line).1 = .headers ∧
      (stripLine .cleartext line).2 = trim line ++ line.rtakeWhile isBreak := by
  rw [stripLine_eq, stripContent]
  simp only [trim_rdropWhile_isBreak, if_pos h, and_self]

/-- Lines are kept up to the first one that opens a signature once it is trimmed. -/
theorem stripLines_cleartext (lines : List (List Char)) :
    stripMachine.runLines .cleartext lines
      = lines.takeWhile keptInCleartext ++
        stripMachine.runLines .cleartext (lines.dropWhile keptInCleartext) := by
  have hkept : ∀ line ∈ lines.takeWhile keptInCleartext,
      stripMachine.step .cleartext line = (.cleartext, line) := fun line hline =>
    stripLine_cleartext_kept (List.mem_takeWhile_imp hline)
  have hidle := stripMachine.runLines_idle _ hkept
  conv_lhs =>
    rw [← List.takeWhile_append_dropWhile (p := keptInCleartext) (l := lines),
      LineMachine.runLines_append, hidle.1, hidle.2]

/-- The line that ends the text is written trimmed, so it does open a signature. -/
theorem stripLines_signature (lines : List (List Char)) (h : signatureBegin <+: trim line) :
    ∃ written rest, stripMachine.runLines .cleartext (line :: lines) = written :: rest ∧
      signatureBegin <+: written := by
  refine ⟨_, _, stripMachine.runLines_cons .cleartext line lines, ?_⟩
  have hwritten : (stripMachine.step .cleartext line).2 = trim line ++ line.rtakeWhile isBreak :=
    (stripLine_cleartext_signature h).2
  rw [hwritten]
  exact h.trans (List.prefix_append _ _)

/-- What stands at column 0 and is not white space is not trimmed off. -/
theorem prefix_trim {m : List Char} (hm : trim m = m) (hne : m ≠ []) (h : m <+: line) :
    m <+: trim line := by
  obtain ⟨x, m, rfl⟩ := List.exists_cons_of_ne_nil hne
  obtain ⟨rest, rfl⟩ := h
  have hx : isWhiteSpace x = false := by
    by_contra hwhite
    rw [Bool.not_eq_false] at hwhite
    have hlength := congrArg List.length hm
    have hshort := ((List.rdropWhile_prefix isWhiteSpace (m.dropWhile isWhiteSpace)).sublist.trans
      (List.dropWhile_sublist _)).length_le
    rw [trim, List.dropWhile_cons_of_pos hwhite, List.length_cons] at hlength
    omega
  rw [trim, List.dropWhile_cons_of_neg (by simp [hx])] at hm
  rw [trim, List.cons_append, List.dropWhile_cons_of_neg (by simp [hx])]
  exact prefix_rdropWhile hm (List.prefix_append _ _)

theorem trim_isPrefix (h : ∀ c ∈ line.head?, isWhiteSpace c = false) : trim line <+: line := by
  have hdrop : line.dropWhile isWhiteSpace = line := by
    cases line with
    | nil => rfl
    | cons c rest => rw [List.dropWhile_cons_of_neg (by simp [h c rfl])]
  rw [trim, hdrop]
  exact List.rdropWhile_prefix _ _

end GpgFrontend.Rpgp
