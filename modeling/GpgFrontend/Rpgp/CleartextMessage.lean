import GpgFrontend.Rpgp.ArmorText
import GpgFrontend.Rpgp.CleartextText

/-!
# A cleartext message, from the signer to the verifier

- `dashEscape`, `SignedText.armored`: the message as the OpenPGP library writes it (RFC 9580 §7).
- `dashEscapeFromLines`, `stripCleartextHashHeaders`, `SignedText.signed`: what `sign.rs` makes of
  it before it hands it out.
- `IndentedSignature line`: the line opens a signature once the white space at its start is cut.
  Such a line is not dash-escaped, and the normaliser takes it for the end of the text.
-/

namespace GpgFrontend.Rpgp

open Cleartext

def dash : List Char := "- ".toList

def hashHeader : List Char := "Hash: ".toList

def fromMarker : List Char := "From ".toList

/-- The library escapes the lines that start with a dash. -/
def escapeLine (line : List Char) : List Char := if ['-'] <+: line then dash ++ line else line

def dashEscape (text : List Char) : List Char := (splitInclusive '\n' text).flatMap escapeLine

/-! ## The signer -/

/-- Where `dash_escape_from_lines` is: before the blank line, in the text, in the signature. -/
inductive MessagePart where
  | head
  | text
  | signature

def dashStep (part : MessagePart) (line : List Char) : MessagePart × List Char :=
  match part with
  | .head => if (line.rdropWhile isBreak).isEmpty then (.text, line) else (.head, line)
  | .text =>
    if signatureBegin <+: line then (.signature, line)
    else if fromMarker <+: line then (.text, dash ++ line)
    else (.text, line)
  | .signature => (.signature, line)

def dashMachine : LineMachine Char MessagePart '\n' where
  step := dashStep
  ended part c _ := by
    have hsig : signatureBegin <+: c ++ ['\n'] ↔ signatureBegin <+: c :=
      prefix_concat_of_not_mem (by decide)
    have hfrom : fromMarker <+: c ++ ['\n'] ↔ fromMarker <+: c :=
      prefix_concat_of_not_mem (by decide)
    cases part with
    | head =>
      rw [dashStep, dashStep, List.rdropWhile_concat_pos _ _ _ (by decide)]
      split <;> rfl
    | text =>
      rw [dashStep, dashStep]
      simp only [hsig, hfrom]
      split_ifs <;> simp
    | signature => rfl
  step_nil part := by cases part <;> decide
  free part c hc := by
    have hdash : '\n' ∉ dash := by decide
    cases part with
    | head => rw [dashStep]; split <;> exact hc
    | text =>
      rw [dashStep]
      split_ifs
      · exact hc
      · simp [hdash, hc]
      · exact hc
    | signature => exact hc

def dashEscapeFromLines (armored : List Char) : List Char := dashMachine.run .head armored

/-- The lines after the first one, while the headers go on. -/
def dropHashHeaders : List (List Char) → List (List Char)
  | [] => []
  | line :: lines =>
    if (line.rdropWhile isBreak).isEmpty then line :: lines
    else if hashHeader <+: line then dropHashHeaders lines
    else line :: dropHashHeaders lines

def stripCleartextHashHeaders (armored : List Char) : List Char :=
  match splitInclusive '\n' armored with
  | [] => []
  | opening :: lines => opening ++ (dropHashHeaders lines).flatten

/-- A text to sign, and what the library adds: the names of the digests and all that follows the
opening marker of the signature. -/
structure SignedText where
  data : List Char
  hashes : List (List Char)
  hashes_free : ∀ hash ∈ hashes, '\n' ∉ hash
  allV6 : Bool
  signature : List Char

namespace SignedText

variable (m : SignedText)

/-- What the signature covers. -/
def text : List Char := trimTrailingWhitespace m.data

/-- `CleartextSignedMessage::to_armored_string`. -/
def armored : List Char :=
  (signedBegin :: m.hashes.map (hashHeader ++ ·) ++ [[]]).flatMap (· ++ ['\n']) ++
    (dashEscape m.text ++ '\n' :: (signatureBegin ++ m.signature))

def signed : List Char :=
  let armored := dashEscapeFromLines m.armored
  if m.allV6 then stripCleartextHashHeaders armored else armored

/-- `verify_internal`: white space before the message goes, and the armor is normalised. -/
def normalized : List Char := stripArmorWhitespace (m.signed.dropWhile isWhiteSpace)

end SignedText

/-! ## The reader -/

/-- The lines between the blank line after the headers and the signature. -/
def bodyLines (message : List Char) : List (List Char) :=
  (((splitInclusive '\n' message).dropWhile fun line => !(line.rdropWhile isBreak).isEmpty).drop 1)
    |>.takeWhile fun line => decide ¬signatureBegin <+: line

def unescapeLine (line : List Char) : List Char :=
  if dash <+: line then line.drop dash.length else line

/-- The text the lines hold. The ending of the last one belongs to the signature. -/
def dashUnescape (lines : List (List Char)) : List Char :=
  lines.dropLast.flatMap unescapeLine ++ lineText (unescapeLine (lines.getLastD []))

/-- The verifier reads the lines the signer wrote, and from them the text that was signed. -/
structure Survives (m : SignedText) : Prop where
  lines : bodyLines m.normalized = bodyLines m.signed
  text : dashUnescape (bodyLines m.normalized) = m.text

/-- The line opens a signature once it is trimmed, and not before. -/
def IndentedSignature (line : List Char) : Prop :=
  signatureBegin <+: trim line ∧ ¬signatureBegin <+: line

instance (line : List Char) : Decidable (IndentedSignature line) :=
  inferInstanceAs (Decidable (_ ∧ _))

/-! ## A line of the text in the message -/

/-- A line of the text as the message shows it. -/
def shownLine (c : List Char) : List Char :=
  if fromMarker <+: escapeLine c then dash ++ escapeLine c else escapeLine c

variable {line : List Char}

/-- A line cannot start with two markers neither of which starts with the other. -/
theorem not_prefix_of_prefix {m m' : List Char} (h : m <+: line) (hm : ¬m <+: m' ∧ ¬m' <+: m) :
    ¬m' <+: line := fun h' =>
  (List.prefix_or_prefix_of_prefix h h').elim hm.1 hm.2

theorem shownLine_cases (c : List Char) :
    (shownLine c = dash ++ c ∧ (['-'] <+: c ∨ fromMarker <+: c)) ∨
      (shownLine c = c ∧ ¬['-'] <+: c ∧ ¬fromMarker <+: c) := by
  by_cases hdash : ['-'] <+: c
  · have hescape : escapeLine c = dash ++ c := if_pos hdash
    have hfrom : ¬fromMarker <+: dash ++ c :=
      not_prefix_of_prefix (List.prefix_append dash c) (by decide)
    refine .inl ⟨?_, .inl hdash⟩
    rw [shownLine, hescape, if_neg hfrom]
  · have hescape : escapeLine c = c := if_neg hdash
    rw [shownLine, hescape]
    by_cases hfrom : fromMarker <+: c
    · exact .inl ⟨if_pos hfrom, .inr hfrom⟩
    · exact .inr ⟨if_neg hfrom, hdash, hfrom⟩

theorem shownLine_free {c : List Char} (h : '\n' ∉ c) : '\n' ∉ shownLine c := by
  have hdash : '\n' ∉ dash := by decide
  obtain ⟨hshown, -⟩ | ⟨hshown, -⟩ := shownLine_cases c
  · rw [hshown]
    simp [hdash, h]
  · rwa [hshown]

theorem not_signature_of_dash (c : List Char) : ¬signatureBegin <+: dash ++ c :=
  not_prefix_of_prefix (List.prefix_append dash c) (by decide)

theorem shownLine_not_signature (c : List Char) : ¬signatureBegin <+: shownLine c := by
  obtain ⟨hshown, -⟩ | ⟨hshown, hdash, -⟩ := shownLine_cases c
  · rw [hshown]
    exact not_signature_of_dash c
  · rw [hshown]
    exact fun h => hdash (List.IsPrefix.trans (by decide) h)

theorem trim_concat_break (c : List Char) : trim (c ++ ['\n']) = trim c := trim_append (List.forall_mem_singleton.2 rfl)

/-- The normaliser keeps a line of the message exactly when the line of the text is not an indented
signature line. -/
theorem kept_shownLine_iff (c : List Char) :
    keptInCleartext (shownLine c ++ ['\n']) ↔ ¬IndentedSignature c := by
  rw [keptInCleartext_iff, trim_concat_break, not_iff_not, IndentedSignature]
  obtain ⟨hshown, hstart⟩ | ⟨hshown, hdash, -⟩ := shownLine_cases c
  · -- an escaped line starts with the escape, and its text starts with no white space
    have hescaped : ¬signatureBegin <+: trim (dash ++ c) := fun h =>
      not_signature_of_dash c (h.trans (trim_isPrefix (by intro x hx; cases hx; decide)))
    have htrim : trim c <+: c := by
      refine trim_isPrefix fun x hx => ?_
      obtain ⟨t, rfl⟩ | ⟨t, rfl⟩ := hstart
      · cases hx
        decide
      · cases hx
        decide
    rw [hshown]
    exact iff_of_false hescaped fun h => h.2 (h.1.trans htrim)
  · have hcolumn : ¬signatureBegin <+: c := fun h => hdash (List.IsPrefix.trans (by decide) h)
    rw [hshown]
    exact (and_iff_left hcolumn).symm

theorem unescape_shownLine (c : List Char) : unescapeLine (shownLine c ++ ['\n']) = c ++ ['\n'] := by
  obtain ⟨hshown, -⟩ | ⟨hshown, hdash, -⟩ := shownLine_cases c
  · rw [hshown, List.append_assoc, unescapeLine, if_pos (List.prefix_append _ _), List.drop_left]
  · have hplain : ¬dash <+: c ++ ['\n'] := fun h =>
      hdash (List.IsPrefix.trans (by decide)
        ((prefix_concat_of_not_mem (by decide : '\n' ∉ dash)).mp h))
    rw [hshown, unescapeLine, if_neg hplain]

/-! ## The message -/

/-- Header lines, a blank line, the lines of the body, and the rest. -/
def message (heads body : List (List Char)) (rest : List Char) : List Char :=
  (heads ++ [] :: body).flatMap (· ++ ['\n']) ++ rest

/-- Header lines hold something, so none of them is taken for the blank line. -/
def HeadLine (line : List Char) : Prop := '\n' ∉ line ∧ line.rdropWhile isBreak ≠ []

variable {body : List (List Char)}

theorem message_lines {heads : List (List Char)} (rest : List Char) (hheads : ∀ h ∈ heads, '\n' ∉ h)
    (hbody : ∀ b ∈ body, '\n' ∉ b) :
    splitInclusive '\n' (message heads body rest)
      = heads.map (· ++ ['\n']) ++ ['\n'] :: (body.map (· ++ ['\n']) ++
          splitInclusive '\n' rest) := by
  have hfree : ∀ line ∈ heads ++ [] :: body, '\n' ∉ line := by
    intro line hline
    obtain hline | hline := List.mem_append.mp hline
    · exact hheads line hline
    · obtain rfl | hline := List.mem_cons.mp hline
      · exact List.not_mem_nil
      · exact hbody line hline
  rw [message, splitInclusive_append_ended rest hfree]
  simp

theorem headLine_content (h : HeadLine line) :
    ((line ++ ['\n']).rdropWhile isBreak).isEmpty = false := by
  rw [List.rdropWhile_concat_pos _ _ _ (by decide), List.isEmpty_eq_false_iff]
  exact h.2

variable {rest : List Char}

theorem bodyLines_message {heads : List (List Char)} (hheads : ∀ h ∈ heads, HeadLine h)
    (hbody : ∀ b ∈ body, '\n' ∉ b ∧ ¬signatureBegin <+: b) (hrest : signatureBegin <+: rest) :
    bodyLines (message heads body rest) = body.map (· ++ ['\n']) := by
  obtain ⟨rest, rfl⟩ := hrest
  obtain ⟨first, lines, hlines, hfirst⟩ :=
    splitInclusive_prefix (d := '\n') rest (by decide : signatureBegin ≠ []) (by decide)
  have hskip : ∀ line ∈ heads.map (· ++ ['\n']),
      (!(line.rdropWhile isBreak).isEmpty) = true := by
    intro line hline
    obtain ⟨h, hh, rfl⟩ := List.mem_map.mp hline
    rw [headLine_content (hheads h hh)]
    rfl
  have hkeep : ∀ line ∈ body.map (· ++ ['\n']), decide (¬signatureBegin <+: line) = true := by
    intro line hline
    obtain ⟨b, hb, rfl⟩ := List.mem_map.mp hline
    rw [decide_eq_true_eq, prefix_concat_of_not_mem (by decide)]
    exact (hbody b hb).2
  rw [bodyLines, message_lines _ (fun h hh => (hheads h hh).1) (fun b hb => (hbody b hb).1), hlines,
    List.dropWhile_append_of_pos hskip, List.dropWhile_cons_of_neg (by decide), List.drop_one,
    List.tail_cons, List.takeWhile_append_of_pos hkeep,
    List.takeWhile_cons_of_neg (by simpa using hfirst),
    List.append_nil]

/-! ## What the signer hands out -/

variable {cs : List (List Char)} {last : List Char}

theorem dashEscape_joinLines (hcs : ∀ c ∈ cs, '\n' ∉ c) (hlast : '\n' ∉ last) :
    dashEscape (joinLines '\n' cs last) = joinLines '\n' (cs.map escapeLine) (escapeLine last) := by
  refine flatMap_splitInclusive hcs hlast (fun c _ => ?_) (by decide)
  rw [escapeLine, escapeLine]
  simp only [prefix_concat_of_not_mem (by decide : '\n' ∉ ['-'])]
  split
  · rw [List.append_assoc]
  · rfl

/-- The header lines of the message that is handed out. -/
def SignedText.heads (m : SignedText) : List (List Char) :=
  signedBegin :: if m.allV6 then [] else m.hashes.map (hashHeader ++ ·)

theorem headLine_hash {hash : List Char} (h : '\n' ∉ hash) : HeadLine (hashHeader ++ hash) := by
  have hfree : '\n' ∉ hashHeader := by decide
  refine ⟨by simp [hfree, h], fun hnil => ?_⟩
  have hbreak := List.rdropWhile_eq_nil_iff.mp hnil 'H' (List.mem_append_left _ (by decide))
  exact absurd hbreak (by decide)

theorem headLine_signedBegin : HeadLine signedBegin := by
  constructor <;> decide

variable {hashes : List (List Char)}

theorem headLine_hashes (hhashes : ∀ h ∈ hashes, '\n' ∉ h) :
    ∀ h ∈ signedBegin :: hashes.map (hashHeader ++ ·), HeadLine h := by
  intro h hh
  obtain rfl | hh := List.mem_cons.mp hh
  · exact headLine_signedBegin
  · obtain ⟨hash, hmem, rfl⟩ := List.mem_map.mp hh
    exact headLine_hash (hhashes hash hmem)

theorem headLine_heads {m : SignedText} : ∀ h ∈ m.heads, HeadLine h := by
  intro h hh
  refine headLine_hashes m.hashes_free h ?_
  obtain rfl | hh := List.mem_cons.mp hh
  · exact List.mem_cons_self
  · split at hh
    · cases hh
    · exact List.mem_cons_of_mem _ hh

theorem escapeLine_free {c : List Char} (h : '\n' ∉ c) : '\n' ∉ escapeLine c := by
  have hdash : '\n' ∉ dash := by decide
  rw [escapeLine]
  split
  · simp [hdash, h]
  · exact h

/-- An escaped line ends neither the text nor anything else, and may be escaped once more. -/
theorem dashStep_escapeLine (c : List Char) :
    dashStep .text (escapeLine c ++ ['\n']) = (.text, shownLine c ++ ['\n']) := by
  have hsig : ¬signatureBegin <+: escapeLine c := by
    rw [escapeLine]
    split
    · exact not_signature_of_dash c
    · next hdash => exact fun h => hdash (List.IsPrefix.trans (by decide) h)
  rw [dashStep, shownLine]
  simp only [prefix_concat_of_not_mem (by decide : '\n' ∉ signatureBegin), hsig, if_false,
    prefix_concat_of_not_mem (by decide : '\n' ∉ fromMarker)]
  split
  · rw [List.append_assoc]
  · rfl

/-- Lines that start with "From " are escaped between the blank line and the signature. -/
theorem dashEscapeFromLines_message {heads : List (List Char)} (hheads : ∀ h ∈ heads, HeadLine h)
    (hbody : ∀ b ∈ body, '\n' ∉ b) (hrest : signatureBegin <+: rest) :
    dashEscapeFromLines (message heads (body.map escapeLine) rest)
      = message heads (body.map shownLine) rest := by
  have hescaped : ∀ b ∈ body.map escapeLine, '\n' ∉ b := by
    intro b hb
    obtain ⟨c, hc, rfl⟩ := List.mem_map.mp hb
    exact escapeLine_free (hbody c hc)
  have hhead := dashMachine.runLines_idle (s := .head) (heads.map (· ++ ['\n'])) (by
    intro line hline
    obtain ⟨h, hh, rfl⟩ := List.mem_map.mp hline
    exact if_neg (by rw [headLine_content (hheads h hh)]; exact Bool.false_ne_true))
  have hblank : dashMachine.step .head ['\n'] = (.text, ['\n']) := rfl
  -- the text, each line escaped for its dash already
  have htext (lines : List (List Char)) :
      dashMachine.runLines .text ((body.map escapeLine).map (· ++ ['\n']) ++ lines)
        = (body.map shownLine).map (· ++ ['\n']) ++ dashMachine.runLines .text lines := by
    induction body with
    | nil => rfl
    | cons c body ih =>
      have hstep : dashMachine.step .text (escapeLine c ++ ['\n'])
          = (.text, shownLine c ++ ['\n']) := dashStep_escapeLine c
      rw [List.map_cons, List.map_cons, List.cons_append, LineMachine.runLines_cons, hstep]
      exact congrArg _ (ih (fun b hb => hbody b (List.mem_cons_of_mem c hb))
        fun b hb => hescaped b (List.mem_cons_of_mem _ hb))
  obtain ⟨rest, rfl⟩ := hrest
  obtain ⟨first, lines, hlines, hfirst⟩ :=
    splitInclusive_prefix (d := '\n') rest (by decide : signatureBegin ≠ []) (by decide)
  have hsignature : dashMachine.runLines .text (first :: lines) = first :: lines := by
    have hstep : dashMachine.step .text first = (.signature, first) := if_pos hfirst
    rw [LineMachine.runLines_cons, hstep,
      (dashMachine.runLines_idle (s := .signature) lines fun _ _ => rfl).1]
  rw [dashEscapeFromLines, LineMachine.run,
    message_lines _ (fun h hh => (hheads h hh).1) hescaped, LineMachine.runLines_append, hhead.1,
    hhead.2, LineMachine.runLines_cons, hblank, htext, hlines, hsignature, ← hlines,
    message]
  simp [flatten_splitInclusive, List.flatMap]

theorem dropHashHeaders_hashes (lines : List (List Char)) (hhashes : ∀ h ∈ hashes, '\n' ∉ h) :
    dropHashHeaders ((hashes.map (hashHeader ++ ·)).map (· ++ ['\n']) ++ ['\n'] :: lines)
      = ['\n'] :: lines := by
  induction hashes with
  | nil => rfl
  | cons hash hashes ih =>
    have hhead := headLine_content (headLine_hash (hhashes hash List.mem_cons_self))
    rw [List.map_cons, List.map_cons, List.cons_append, dropHashHeaders, hhead,
      if_neg Bool.false_ne_true, if_pos (by rw [List.append_assoc]; exact List.prefix_append _ _)]
    exact ih fun h hh => hhashes h (List.mem_cons_of_mem hash hh)

theorem stripCleartextHashHeaders_message (rest : List Char) (hhashes : ∀ h ∈ hashes, '\n' ∉ h)
    (hbody : ∀ b ∈ body, '\n' ∉ b) :
    stripCleartextHashHeaders (message (signedBegin :: hashes.map (hashHeader ++ ·)) body rest)
      = message [signedBegin] body rest := by
  have hheads : ∀ h ∈ signedBegin :: hashes.map (hashHeader ++ ·), '\n' ∉ h := fun h hh =>
    (headLine_hashes hhashes h hh).1
  rw [stripCleartextHashHeaders, message_lines rest hheads hbody, List.map_cons, List.cons_append]
  simp only [dropHashHeaders_hashes _ hhashes]
  simp [message, flatten_splitInclusive, List.flatMap]

/-- What the signer hands out: its headers, the lines of the text as shown, and the signature. -/
theorem SignedText.signed_eq {m : SignedText} (htext : m.text = joinLines '\n' cs last)
    (hcs : ∀ c ∈ cs, '\n' ∉ c) (hlast : '\n' ∉ last) :
    m.signed = message m.heads ((cs ++ [last]).map shownLine) (signatureBegin ++ m.signature) := by
  have hlines : ∀ c ∈ cs ++ [last], '\n' ∉ c := by
    intro c hc
    obtain hc | hc := List.mem_append.mp hc
    · exact hcs c hc
    · rwa [List.mem_singleton.mp hc]
  have harmored : m.armored = message (signedBegin :: m.hashes.map (hashHeader ++ ·))
      ((cs ++ [last]).map escapeLine) (signatureBegin ++ m.signature) := by
    rw [SignedText.armored, htext, dashEscape_joinLines hcs hlast, message, joinLines]
    simp [List.flatMap]
  have hshown : ∀ b ∈ (cs ++ [last]).map shownLine, '\n' ∉ b := by
    intro b hb
    obtain ⟨c, hc, rfl⟩ := List.mem_map.mp hb
    exact shownLine_free (hlines c hc)
  rw [SignedText.signed, harmored,
    dashEscapeFromLines_message (headLine_hashes m.hashes_free) hlines (List.prefix_append _ _),
    SignedText.heads]
  cases m.allV6 with
  | false => rfl
  | true => exact stripCleartextHashHeaders_message _ m.hashes_free hshown

/-! ## What the verifier reads -/

theorem kept_headLine {heads : List (List Char)}
    (h : ∀ head ∈ heads, ∃ hash, head = hashHeader ++ hash) :
    ∀ line ∈ heads.map (· ++ ['\n']), keptInCleartext line := by
  intro line hline
  obtain ⟨head, hhead, rfl⟩ := List.mem_map.mp hline
  obtain ⟨hash, rfl⟩ := h head hhead
  rw [keptInCleartext_iff, trim_concat_break]
  intro hsig
  have htrim : trim (hashHeader ++ hash) <+: hashHeader ++ hash :=
    trim_isPrefix (by intro c hc; cases hc; decide)
  exact not_prefix_of_prefix (List.prefix_append hashHeader hash) (by decide) (hsig.trans htrim)

/-- The normaliser keeps the message up to the first line of the text that it takes for the
opening of the signature. -/
theorem normalized_message (hashes : List (List Char)) (hheads : ∀ h ∈ hashes, HeadLine h)
    (hhash : ∀ h ∈ hashes, ∃ hash, h = hashHeader ++ hash) (hbody : ∀ b ∈ body, '\n' ∉ b)
    (hrest : signatureBegin <+: rest) :
    ∃ rest', signatureBegin <+: rest' ∧
      stripArmorWhitespace (message (signedBegin :: hashes) body rest)
        = message (signedBegin :: hashes)
            (body.takeWhile fun b => keptInCleartext (b ++ ['\n'])) rest' := by
  obtain ⟨rest, rfl⟩ := hrest
  obtain ⟨first, lines, hlines, hfirst⟩ :=
    splitInclusive_prefix (d := '\n') rest (by decide : signatureBegin ≠ []) (by decide)
  have hopens : signatureBegin <+: trim first := prefix_trim (by decide) (by decide) hfirst
  have hfree : ∀ h ∈ signedBegin :: hashes, '\n' ∉ h := by
    intro h hh
    obtain rfl | hh := List.mem_cons.mp hh
    · exact headLine_signedBegin.1
    · exact (hheads h hh).1
  have hstart : stripMachine.step .outside (signedBegin ++ ['\n'])
      = (.cleartext, signedBegin ++ ['\n']) := by decide
  have hblank : keptInCleartext ['\n'] = true := by decide
  have hfirstNot : ¬keptInCleartext first = true := by
    rw [Bool.not_eq_true]
    exact keptInCleartext_eq_false_iff.mpr hopens
  -- the first line that is not kept is one of the text, or the one that opens the signature
  have hne : (body.map (· ++ ['\n']) ++ first :: lines).dropWhile keptInCleartext ≠ [] := by
    rw [ne_eq, List.dropWhile_eq_nil_iff]
    exact fun hall => hfirstNot (hall first (List.mem_append_right _ List.mem_cons_self))
  have hhead := List.head_dropWhile_not keptInCleartext hne
  obtain ⟨line, later, hdrop⟩ := List.exists_cons_of_ne_nil hne
  have hline : signatureBegin <+: trim line := by
    simp only [hdrop, List.head_cons] at hhead
    exact keptInCleartext_eq_false_iff.mp hhead
  have htake : (body.map (· ++ ['\n']) ++ first :: lines).takeWhile keptInCleartext
      = (body.takeWhile fun b => keptInCleartext (b ++ ['\n'])).map (· ++ ['\n']) := by
    have hcut : (body.map (· ++ ['\n'])).takeWhile keptInCleartext
        = (body.takeWhile fun b => keptInCleartext (b ++ ['\n'])).map (· ++ ['\n']) :=
      List.takeWhile_map
    rw [List.takeWhile_append, List.takeWhile_cons_of_neg hfirstNot, List.append_nil, ← hcut]
    split
    · next hall => exact ((List.takeWhile_prefix _).eq_of_length hall).symm
    · rfl
  obtain ⟨written, others, hrun, hwritten⟩ := stripLines_signature later hline
  refine ⟨(written :: others).flatten, ?_, ?_⟩
  · rw [List.flatten_cons]
    exact hwritten.trans (List.prefix_append _ _)
  · rw [stripArmorWhitespace, LineMachine.run, message_lines _ hfree hbody, List.map_cons,
      List.cons_append, LineMachine.runLines_cons, hstart, stripLines_cleartext,
      List.takeWhile_append_of_pos (kept_headLine hhash),
      List.dropWhile_append_of_pos (kept_headLine hhash), List.takeWhile_cons_of_pos hblank,
      List.dropWhile_cons_of_pos hblank, hlines, htake, hdrop, hrun, message]
    simp [List.flatMap]

/-- The last line of a trimmed text does not end in a carriage return, which a reader would take
for a part of the line ending that follows. -/
theorem text_lines (m : SignedText) :
    ∃ cs last, (∀ c ∈ cs, '\n' ∉ c) ∧ '\n' ∉ last ∧ last.getLast? ≠ some '\r' ∧
      m.text = joinLines '\n' cs last := by
  obtain ⟨cs, last, hcs, hlast, hdata⟩ := exists_joinLines '\n' m.data
  refine ⟨_, _, free_trimmed hcs, free_trimmed_last hlast, ?_, ?_⟩
  · exact fun h => not_trailing_last _ h (by decide)
  · rw [SignedText.text, hdata, trim_joinLines hcs hlast]

theorem dashUnescape_shown (hlast : last.getLast? ≠ some '\r') :
    dashUnescape (((cs ++ [last]).map shownLine).map (· ++ ['\n'])) = joinLines '\n' cs last := by
  have hlines : ((cs.map shownLine).map (· ++ ['\n'])).flatMap unescapeLine
      = cs.flatMap (· ++ ['\n']) := by
    rw [List.flatMap_map, List.flatMap_map]
    exact List.flatMap_congr fun c _ => unescape_shownLine c
  rw [dashUnescape]
  simp only [List.map_append, List.map_cons, List.map_nil, List.dropLast_concat,
    List.getLastD_concat, hlines, unescape_shownLine, lineText_ended, if_neg hlast, joinLines]

/-- The text that is cut into lines holds an indented signature line when one of its lines does. -/
theorem indented_lines_iff (hcs : ∀ c ∈ cs, '\n' ∉ c) (hlast : '\n' ∉ last) :
    (∀ line ∈ splitInclusive '\n' (joinLines '\n' cs last), ¬IndentedSignature line) ↔
      ∀ c ∈ cs ++ [last], ¬IndentedSignature c := by
  have hended (c : List Char) : IndentedSignature (c ++ ['\n']) ↔ IndentedSignature c := by
    rw [IndentedSignature, IndentedSignature, trim_concat_break,
      prefix_concat_of_not_mem (by decide)]
  have hnil : ¬IndentedSignature [] := by decide
  rw [splitInclusive_joinLines hcs hlast]
  by_cases hempty : last = []
  · simp only [hempty, if_true, List.append_nil, List.forall_mem_map, hended, List.forall_mem_append,
      List.forall_mem_singleton, hnil, not_false_eq_true, and_true]
  · simp only [hempty, if_false, List.forall_mem_append, List.forall_mem_map, hended]

theorem survives_iff (m : SignedText) :
    Survives m ↔ ∀ line ∈ splitInclusive '\n' m.text, ¬IndentedSignature line := by
  obtain ⟨cs, last, hcs, hlast, hreturn, htext⟩ := text_lines m
  rw [htext, indented_lines_iff hcs hlast]
  have hlines : ∀ c ∈ cs ++ [last], '\n' ∉ c := List.forall_mem_append.mpr
    ⟨hcs, List.forall_mem_singleton.mpr hlast⟩
  have hbody : ∀ b ∈ (cs ++ [last]).map shownLine, '\n' ∉ b ∧ ¬signatureBegin <+: b :=
    List.forall_mem_map.mpr fun c hc => ⟨shownLine_free (hlines c hc), shownLine_not_signature c⟩
  have hsigned := m.signed_eq htext hcs hlast
  have hhash : ∀ h ∈ m.heads.tail, ∃ hash, h = hashHeader ++ hash := by
    intro h hh
    rw [SignedText.heads, List.tail_cons] at hh
    split at hh
    · cases hh
    · obtain ⟨hash, -, rfl⟩ := List.mem_map.mp hh
      exact ⟨hash, rfl⟩
  obtain ⟨rest, hrest, hnormal⟩ := normalized_message m.heads.tail
    (fun h hh => headLine_heads h (List.mem_of_mem_tail hh)) hhash (fun b hb => (hbody b hb).1)
    (List.prefix_append signatureBegin m.signature)
  have hnormalized : m.normalized = message m.heads
      (((cs ++ [last]).map shownLine).takeWhile fun b => keptInCleartext (b ++ ['\n'])) rest := by
    have hstart : m.signed.dropWhile isWhiteSpace = m.signed := by
      rw [hsigned]
      rfl
    rw [SignedText.normalized, hstart, hsigned]
    exact hnormal
  have hread : bodyLines m.normalized = (((cs ++ [last]).map shownLine).takeWhile fun b =>
      keptInCleartext (b ++ ['\n'])).map (· ++ ['\n']) := by
    rw [hnormalized]
    exact bodyLines_message headLine_heads
      (fun b hb => hbody b ((List.takeWhile_prefix _).subset hb)) hrest
  have hwrote : bodyLines m.signed = ((cs ++ [last]).map shownLine).map (· ++ ['\n']) := by
    rw [hsigned]
    exact bodyLines_message headLine_heads hbody (List.prefix_append _ _)
  constructor
  · intro h c hc
    have hlength := congrArg List.length h.lines
    rw [hread, hwrote, List.length_map, List.length_map] at hlength
    have hall := List.takeWhile_eq_self_iff.mp ((List.takeWhile_prefix _).eq_of_length hlength)
    exact (kept_shownLine_iff c).mp (hall _ (List.mem_map_of_mem hc))
  · intro h
    have hall : ((cs ++ [last]).map shownLine).takeWhile (fun b => keptInCleartext (b ++ ['\n']))
        = (cs ++ [last]).map shownLine :=
      List.takeWhile_eq_self_iff.mpr (List.forall_mem_map.mpr fun c hc =>
        (kept_shownLine_iff c).mpr (h c hc))
    rw [hall] at hread
    refine ⟨hread.trans hwrote.symm, ?_⟩
    rw [hread, htext]
    exact dashUnescape_shown hreturn

/-! ## Any text -/

theorem stripLine_outside_signed (h : signedBegin <+: trim line) :
    (stripLine .outside line).1 = .cleartext := by
  rw [stripLine_eq, stripContent]
  simp only [trim_rdropWhile_isBreak, if_pos h]

/-- The lines of a cleartext-signed text are kept exactly when none of them is an indented
signature line. -/
theorem runLines_body_iff {before : List (List Char)} {opening : List Char}
    (tail : List (List Char)) (hbefore : stripMachine.after .outside before = .outside)
    (hopening : signedBegin <+: trim opening) (hbody : ∀ line ∈ body, ¬signatureBegin <+: line) :
    ((stripMachine.runLines .outside (before ++ opening :: (body ++ tail))).drop
        (before.length + 1)).take body.length = body ↔
      ∀ line ∈ body, ¬IndentedSignature line := by
  have hstate : (stripMachine.step .outside opening).1 = .cleartext :=
    stripLine_outside_signed hopening
  have hskip : (stripMachine.runLines .outside (before ++ opening :: (body ++ tail))).drop
      (before.length + 1) = stripMachine.runLines .cleartext (body ++ tail) := by
    rw [LineMachine.runLines_append, hbefore, LineMachine.runLines_cons, hstate,
      List.append_cons, List.drop_left' (by simp)]
  have hlength := stripMachine.length_runLines .cleartext body
  have htake : (stripMachine.runLines .cleartext (body ++ tail)).take body.length
      = stripMachine.runLines .cleartext body := by
    rw [LineMachine.runLines_append, List.take_left' hlength]
  have hkept : (∀ line ∈ body, ¬IndentedSignature line) ↔ ∀ line ∈ body, keptInCleartext line := by
    refine forall₂_congr fun line hline => ?_
    rw [keptInCleartext_iff, not_iff_not, IndentedSignature]
    exact and_iff_left (hbody line hline)
  rw [hskip, htake, hkept]
  constructor
  · intro h
    rw [stripLines_cleartext] at h
    by_contra hnot
    have hne : body.dropWhile keptInCleartext ≠ [] := by
      rwa [ne_eq, List.dropWhile_eq_nil_iff]
    have hhead := List.head_dropWhile_not keptInCleartext hne
    obtain ⟨line, later, hdrop⟩ := List.exists_cons_of_ne_nil hne
    simp only [hdrop, List.head_cons] at hhead
    obtain ⟨written, rest, hrun, hwritten⟩ :=
      stripLines_signature later (keptInCleartext_eq_false_iff.mp hhead)
    -- what is written in its place does open a signature, and no line of the body does
    rw [hdrop, hrun] at h
    exact hbody written (by rw [← h]; simp) hwritten
  · intro h
    exact (stripMachine.runLines_idle (s := .cleartext) _ fun line hline =>
        stripLine_cleartext_kept (h line hline)).1

/-- A cleartext message survives the normaliser exactly when no line of the text is an indented
signature line. Whatever the text, normalising it again changes nothing, only white space is
removed, and a cleartext-signed body is kept under the same condition. -/
theorem cleartext_survives_iff (text : List Char) :
    (∀ m : SignedText, Survives m ↔ ∀ line ∈ splitInclusive '\n' m.text, ¬IndentedSignature line) ∧
      stripArmorWhitespace (stripArmorWhitespace text) = stripArmorWhitespace text ∧
      (stripArmorWhitespace text).Sublist text ∧
      (stripArmorWhitespace text).filter (fun c => !isWhiteSpace c)
        = text.filter (fun c => !isWhiteSpace c) ∧
      ∀ before opening body tail,
        splitInclusive '\n' text = before ++ opening :: (body ++ tail) →
        stripMachine.after .outside before = .outside → signedBegin <+: trim opening →
        (∀ line ∈ body, ¬signatureBegin <+: line) →
        (((stripMachine.runLines .outside (splitInclusive '\n' text)).drop
            (before.length + 1)).take body.length = body ↔
          ∀ line ∈ body, ¬IndentedSignature line) := by
  refine ⟨survives_iff, stripArmorWhitespace_idempotent text,
    stripMachine.run_sublist stripLine_sublist .outside text,
    stripMachine.filter_run filter_stripLine .outside text, ?_⟩
  intro before opening body tail hlines hbefore hopening hbody
  rw [hlines]
  exact runLines_body_iff tail hbefore hopening hbody

/-- A text that quotes the opening of a signature behind a space: the verifier's text ends there. -/
theorem quoted_signature_line_lost :
    ∃ m : SignedText, ¬Survives m := by
  refine ⟨⟨" -----BEGIN PGP SIGNATURE-----".toList, [], by simp, true, []⟩, fun h => ?_⟩
  exact (survives_iff _).mp h " -----BEGIN PGP SIGNATURE-----".toList (by decide) (by decide)

end GpgFrontend.Rpgp
