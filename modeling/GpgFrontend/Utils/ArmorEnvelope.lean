import Mathlib.Data.List.Infix
import GpgFrontend.Base.Lines
import GpgFrontend.Base.SecretStream

/-!
# Text outside a signed armor block

- `ArmorEnvelopeCheck`: the class of `CommonUtils.cpp` that reads a text a line at a time;
  `hasTextOutsideSignedArmor`, `hasTextOutsideSignedArmorInFile`: its two callers.
- `Inside k lines`: what the answer `false` is to mean. Everything but blank lines is one region of
  kind `k`, from its opening line to its own closing line.
- `Enveloped k lines`: what the check asks of the lines instead. `Exact k lines` is what it leaves
  out: that the lines it takes for armor lines hold the armor marker and nothing else.
- `ReadAlike data`: the pieces of at most 64 KiB that a file is read in and the lines of the same
  bytes look alike to the check.
-/

namespace GpgFrontend.ArmorEnvelope

/-- The bytes of a literal of the source, all of them ASCII. -/
def ascii (s : String) : Bytes := s.toList.map fun c => UInt8.ofNat c.toNat

def kPgpMessageBegin : Bytes := ascii "-----BEGIN PGP MESSAGE-----"
def kPgpMessageEnd : Bytes := ascii "-----END PGP MESSAGE-----"
def kPgpSignedBegin : Bytes := ascii "-----BEGIN PGP SIGNED MESSAGE-----"
def kPgpSignatureBegin : Bytes := ascii "-----BEGIN PGP SIGNATURE-----"
def kPgpSignatureEnd : Bytes := ascii "-----END PGP SIGNATURE-----"

def kArmorBegin : Bytes := ascii "-----BEGIN PGP "
def kArmorEnd : Bytes := ascii "-----END PGP "

/-- The white space that `QByteArray::trimmed` cuts. -/
def isSpace (c : UInt8) : Bool := (9 ≤ c && c ≤ 13) || c == 32

def trimmed (line : Bytes) : Bytes := (line.dropWhile isSpace).rdropWhile isSpace

structure ArmorEnvelopeCheck where
  first : Bytes := []
  last : Bytes := []
  begins : Nat := 0
  ends : Nat := 0
  anyArmor : Bool := false

namespace ArmorEnvelopeCheck

def line (c : ArmorEnvelopeCheck) (raw : Bytes) : ArmorEnvelopeCheck :=
  let c := if kArmorBegin <+: raw then { c with begins := c.begins + 1 } else c
  let c := if kArmorEnd <+: raw then { c with ends := c.ends + 1 } else c
  let c := if kArmorBegin <:+: raw then { c with anyArmor := true } else c
  let line := trimmed raw
  if line.isEmpty then c
  else { c with first := if c.first.isEmpty then line else c.first, last := line }

def outside (c : ArmorEnvelopeCheck) : Bool :=
  if !c.anyArmor then false
  else
    let cleartext : Bool := decide (kPgpSignedBegin <+: c.first)
    if !cleartext && !decide (kPgpMessageBegin <+: c.first) then true
    else if ¬(if cleartext then kPgpSignatureEnd else kPgpMessageEnd) <:+ c.last then true
    -- two openings (message, signature) for cleartext, one otherwise
    else c.begins != (if cleartext then 2 else 1) || c.ends != 1

def read (lines : List Bytes) : ArmorEnvelopeCheck := lines.foldl line {}

end ArmorEnvelopeCheck

open ArmorEnvelopeCheck

def hasTextOutsideSignedArmor (data : Bytes) : Bool := (read (data.splitOn 10)).outside

def kMaxLine : Nat := 64 * 1024

/-- `QIODevice::readLine`: up to and with a line feed, and at most `maxSize` bytes. -/
def readLine : Nat → Bytes → Bytes
  | 0, _ => []
  | _ + 1, [] => []
  | maxSize + 1, c :: cs => if c = 10 then [c] else c :: readLine maxSize cs

variable {data : Bytes}

theorem readLine_ne_nil {n : Nat} (hn : 0 < n) (h : data ≠ []) : readLine n data ≠ [] := by
  obtain ⟨n, rfl⟩ := Nat.exists_eq_succ_of_ne_zero hn.ne'
  obtain ⟨c, cs, rfl⟩ := List.exists_cons_of_ne_nil h
  rw [readLine]
  split <;> simp

/-- What the loop over a file hands to the check. -/
def fileLines (data : Bytes) : List Bytes :=
  if _h : data = [] then []
  else readLine kMaxLine data :: fileLines (data.drop (readLine kMaxLine data).length)
termination_by data.length
decreasing_by
  have hpos := List.length_pos_iff.mpr _h
  have hline := List.length_pos_iff.mpr (readLine_ne_nil (by decide : 0 < kMaxLine) _h)
  rw [List.length_drop]
  omega

/-- What the file gives: it does not open, it fails after some of its bytes, or all of it. -/
inductive FileReading where
  | unopened
  | failed (before : Bytes)
  | whole (data : Bytes)

def hasTextOutsideSignedArmorInFile : FileReading → Bool
  | .unopened => false
  | .failed _ => false
  | .whole data => (read (fileLines data)).outside

/-! ## What the answer is to mean -/

inductive ArmorKind where
  | cleartext
  | message

def ArmorKind.opening : ArmorKind → Bytes
  | .cleartext => kPgpSignedBegin
  | .message => kPgpMessageBegin

def ArmorKind.closing : ArmorKind → Bytes
  | .cleartext => kPgpSignatureEnd
  | .message => kPgpMessageEnd

/-- How many lines of a region of this kind open an armor. -/
def ArmorKind.openings : ArmorKind → Nat
  | .cleartext => 2
  | .message => 1

/-- The line is the marker, with at most white space after it. -/
def IsArmorLine (marker line : Bytes) : Prop :=
  marker <+: line ∧ ∀ c ∈ line.drop marker.length, isSpace c

/-- The line is of the text or the data between two armor lines. -/
def Plain (line : Bytes) : Prop := ¬kArmorBegin <+: line ∧ ¬kArmorEnd <+: line

/-- What stands between the opening and the closing line of a region. -/
def ArmorKind.Body : ArmorKind → List Bytes → Prop
  | .cleartext, body => ∃ text opening signature, body = text ++ opening :: signature ∧
      IsArmorLine kPgpSignatureBegin opening ∧ ∀ line ∈ text ++ signature, Plain line
  | .message, body => ∀ line ∈ body, Plain line

def Inside (k : ArmorKind) (lines : List Bytes) : Prop :=
  ∃ before opening body closing after, lines = before ++ opening :: (body ++ closing :: after) ∧
    (∀ line ∈ before ++ after, trimmed line = []) ∧
    IsArmorLine k.opening opening ∧ IsArmorLine k.closing closing ∧ k.Body body

/-! ## What the check asks -/

def nonBlank (lines : List Bytes) : List Bytes := lines.filter fun line => trimmed line ≠ []

def shown (lines : List Bytes) : List Bytes := (nonBlank lines).map trimmed

def ShowsArmor (lines : List Bytes) : Prop := ∃ line ∈ lines, kArmorBegin <:+: line

structure Enveloped (k : ArmorKind) (lines : List Bytes) : Prop where
  opens : k.opening <+: (shown lines).headD []
  closes : k.closing <:+ (shown lines).getLastD []
  begins : lines.countP (kArmorBegin <+: ·) = k.openings
  ends : lines.countP (kArmorEnd <+: ·) = 1

structure Exact (k : ArmorKind) (lines : List Bytes) : Prop where
  opening : ∀ line ∈ (nonBlank lines).head?, IsArmorLine k.opening line
  closing : ∀ line ∈ (nonBlank lines).getLast?, IsArmorLine k.closing line
  /-- The second opening of a cleartext message is the one of its signature. -/
  signature : k = .cleartext →
    ∀ line ∈ (lines.filter (kArmorBegin <+: ·))[1]?, IsArmorLine kPgpSignatureBegin line

def ReadAlike (data : Bytes) : Prop :=
  (ShowsArmor (data.splitOn 10) → ShowsArmor (fileLines data)) ∧
  ((∃ k, Enveloped k (data.splitOn 10)) ↔ ∃ k, Enveloped k (fileLines data))

/-! ## Lines -/

theorem trimmed_eq_nil_iff {line : Bytes} : trimmed line = [] ↔ ∀ c ∈ line, isSpace c :=
  trim_eq_nil_iff

/-- A line that starts with a dash is not blank. -/
theorem trimmed_ne_nil {marker line : Bytes} (hdash : 45 ∈ marker) (h : marker <+: line) :
    trimmed line ≠ [] :=
  fun hblank => absurd (trimmed_eq_nil_iff.mp hblank 45 (h.subset hdash)) (by decide)

theorem IsArmorLine.trimmed_eq {marker line : Bytes} (h : IsArmorLine marker line)
    (hends : trimmed marker = marker) : trimmed line = marker := by
  obtain ⟨⟨space, rfl⟩, hspace⟩ := h
  rw [List.drop_left] at hspace
  rw [trimmed, trim_append hspace]
  exact hends

/-! ## What the check has read -/

@[simp] theorem shown_nil : shown [] = [] := rfl

theorem shown_append (ls ls' : List Bytes) : shown (ls ++ ls') = shown ls ++ shown ls' := by
  rw [shown, nonBlank, List.filter_append, List.map_append]
  rfl

theorem shown_singleton (line : Bytes) :
    shown [line] = if trimmed line = [] then [] else [trimmed line] := by
  rw [shown, nonBlank, List.filter_cons]
  split <;> simp_all

variable {lines : List Bytes}

theorem ne_nil_of_mem_shown {line : Bytes} (h : line ∈ shown lines) : line ≠ [] := by
  obtain ⟨raw, hraw, rfl⟩ := List.mem_map.mp h
  simpa using (List.mem_filter.mp hraw).2

/-- One pass over the lines: the first and the last one that is not blank, and how many start as an
armor line does. -/
theorem read_eq (lines : List Bytes) :
    read lines = {
      first := (shown lines).headD []
      last := (shown lines).getLastD []
      begins := lines.countP (kArmorBegin <+: ·)
      ends := lines.countP (kArmorEnd <+: ·)
      anyArmor := lines.any (kArmorBegin <:+: ·) } := by
  induction lines using List.reverseRecOn with
  | nil => rfl
  | append_singleton lines raw ih =>
    have hstep : read (lines ++ [raw]) = (read lines).line raw := by
      rw [ArmorEnvelopeCheck.read, List.foldl_append]
      rfl
    have hfirst : (shown (lines ++ [raw])).headD []
        = if trimmed raw = [] then (shown lines).headD []
          else if (shown lines).headD [] = [] then trimmed raw else (shown lines).headD [] := by
      rw [shown_append, shown_singleton]
      split
      · rw [List.append_nil]
      · cases hshown : shown lines with
        | nil => rfl
        | cons line rest =>
          have hne : line ≠ [] := ne_nil_of_mem_shown (by rw [hshown]; exact List.mem_cons_self)
          simp [hne]
    have hlast : (shown (lines ++ [raw])).getLastD []
        = if trimmed raw = [] then (shown lines).getLastD [] else trimmed raw := by
      rw [shown_append, shown_singleton]
      split <;> simp
    rw [hstep, ih, hfirst, hlast, List.countP_append, List.countP_append, List.any_append]
    simp only [ArmorEnvelopeCheck.line, List.countP_singleton, List.any_cons, List.any_nil,
      Bool.or_false, List.isEmpty_iff]
    split_ifs <;> simp_all

/-- What the markers are spelled with. -/
theorem markers_spelled :
    kArmorBegin = [45, 45, 45, 45, 45, 66, 69, 71, 73, 78, 32, 80, 71, 80, 32] ∧
      kArmorEnd = [45, 45, 45, 45, 45, 69, 78, 68, 32, 80, 71, 80, 32] ∧
      kArmorBegin <+: kPgpSignatureBegin := by
  decide +kernel

theorem kArmorBegin_ne_nil : kArmorBegin ≠ [] := by
  rw [markers_spelled.1]
  exact List.cons_ne_nil _ _

theorem kArmorEnd_ne_nil : kArmorEnd ≠ [] := by
  rw [markers_spelled.2.1]
  exact List.cons_ne_nil _ _

theorem lineFeed_not_mem_kArmorBegin : 10 ∉ kArmorBegin := by
  rw [markers_spelled.1]
  decide

theorem lineFeed_not_mem_kArmorEnd : 10 ∉ kArmorEnd := by
  rw [markers_spelled.2.1]
  decide

variable {k : ArmorKind}

theorem opening_injective {k' : ArmorKind} {text : Bytes} (h : k.opening <+: text)
    (h' : k'.opening <+: text) : k = k' := by
  have hprefix := List.prefix_or_prefix_of_prefix h h'
  cases k <;> cases k' <;> first | rfl | exact absurd hprefix (by decide +kernel)

theorem ArmorEnvelopeCheck.outside_eq_false_iff (c : ArmorEnvelopeCheck) :
    c.outside = false ↔ c.anyArmor = false ∨ ∃ k : ArmorKind,
      k.opening <+: c.first ∧ k.closing <:+ c.last ∧ c.begins = k.openings ∧ c.ends = 1 := by
  rw [outside]
  cases harmor : c.anyArmor with
  | false => simp
  | true =>
    by_cases hclear : kPgpSignedBegin <+: c.first
    · constructor
      · intro h
        simp [hclear] at h
        exact .inr ⟨.cleartext, hclear, h.1, h.2.1, h.2.2⟩
      · rintro (h | ⟨k, hopens, hcloses, hbegins, hends⟩)
        · cases h
        · obtain rfl : k = .cleartext := opening_injective hopens hclear
          rw [ArmorKind.closing] at hcloses
          simp [hclear, hcloses, hbegins, hends, ArmorKind.openings]
    · by_cases hmessage : kPgpMessageBegin <+: c.first
      · constructor
        · intro h
          simp [hclear, hmessage] at h
          exact .inr ⟨.message, hmessage, h.1, h.2.1, h.2.2⟩
        · rintro (h | ⟨k, hopens, hcloses, hbegins, hends⟩)
          · cases h
          · obtain rfl : k = .message := opening_injective hopens hmessage
            rw [ArmorKind.closing] at hcloses
            simp [hclear, hmessage, hcloses, hbegins, hends, ArmorKind.openings]
      · constructor
        · intro h
          simp [hclear, hmessage] at h
        · rintro (h | ⟨k, hopens, -⟩)
          · cases h
          · cases k with
            | cleartext => exact absurd hopens hclear
            | message => exact absurd hopens hmessage

/-- The check answers `false` on a text without armor and on an enveloped one. -/
theorem outside_read_iff (lines : List Bytes) :
    (ArmorEnvelopeCheck.read lines).outside = false ↔
      ¬ShowsArmor lines ∨ ∃ k, Enveloped k lines := by
  have harmor : lines.any (kArmorBegin <:+: ·) = false ↔ ¬ShowsArmor lines := by
    simp [ShowsArmor]
  rw [outside_eq_false_iff, read_eq, harmor]
  refine or_congr Iff.rfl (exists_congr fun k => ?_)
  constructor
  · exact fun h => ⟨h.1, h.2.1, h.2.2.1, h.2.2.2⟩
  · exact fun h => ⟨h.opens, h.closes, h.begins, h.ends⟩

/-! ## One region, read off the armor lines -/

theorem ArmorKind.marked (k : ArmorKind) :
    (45 ∈ k.opening ∧ 45 ∈ k.closing) ∧
      (trimmed k.opening = k.opening ∧ trimmed k.closing = k.closing) ∧
      kArmorBegin <+: k.opening ∧ kArmorEnd <+: k.closing := by
  cases k <;> decide +kernel

theorem ArmorKind.dash_opening (k : ArmorKind) : 45 ∈ k.opening := k.marked.1.1

theorem ArmorKind.dash_closing (k : ArmorKind) : 45 ∈ k.closing := k.marked.1.2

theorem ArmorKind.trimmed_opening (k : ArmorKind) : trimmed k.opening = k.opening := k.marked.2.1.1

theorem ArmorKind.begin_opening (k : ArmorKind) : kArmorBegin <+: k.opening := k.marked.2.2.1

theorem ArmorKind.end_closing (k : ArmorKind) : kArmorEnd <+: k.closing := k.marked.2.2.2

/-- No line both opens and closes an armor. -/
theorem not_end_of_begin {line : Bytes} (h : kArmorBegin <+: line) : ¬kArmorEnd <+: line := by
  intro hend
  have hprefix := List.prefix_or_prefix_of_prefix h hend
  rw [markers_spelled.1, markers_spelled.2.1] at hprefix
  exact absurd hprefix (by decide)

theorem Plain.of_blank {line : Bytes} (h : trimmed line = []) : Plain line :=
  ⟨fun hbegin => trimmed_ne_nil (markers_spelled.1 ▸ List.mem_cons_self) hbegin h,
    fun hend => trimmed_ne_nil (markers_spelled.2.1 ▸ List.mem_cons_self) hend h⟩

theorem filter_begin_plain (h : ∀ line ∈ lines, Plain line) :
    lines.filter (kArmorBegin <+: ·) = [] :=
  List.filter_eq_nil_iff.mpr fun line hline => by simpa using (h line hline).1

theorem nonBlank_blank (h : ∀ line ∈ lines, trimmed line = []) : nonBlank lines = [] :=
  List.filter_eq_nil_iff.mpr fun line hline => by simpa using h line hline

theorem nonBlank_cons {line : Bytes} (h : trimmed line ≠ []) :
    nonBlank (line :: lines) = line :: nonBlank lines :=
  List.filter_cons_of_pos (by simpa using h)

theorem nonBlank_append (ls ls' : List Bytes) :
    nonBlank (ls ++ ls') = nonBlank ls ++ nonBlank ls' := List.filter_append ls ls'

/-- The first and the last line of a region are the ones the check looks at. -/
theorem nonBlank_region {before after : List Bytes} {opening closing : Bytes} (body : List Bytes)
    (hblank : ∀ line ∈ before ++ after, trimmed line = []) (ho : IsArmorLine k.opening opening)
    (hc : IsArmorLine k.closing closing) :
    nonBlank (before ++ opening :: (body ++ closing :: after))
      = opening :: (nonBlank body ++ [closing]) := by
  have hbefore : nonBlank before = [] :=
    nonBlank_blank fun line hline => hblank line (List.mem_append_left _ hline)
  have hafter : nonBlank after = [] :=
    nonBlank_blank fun line hline => hblank line (List.mem_append_right _ hline)
  rw [nonBlank_append, hbefore, List.nil_append,
    nonBlank_cons (trimmed_ne_nil k.dash_opening ho.1), nonBlank_append,
    nonBlank_cons (trimmed_ne_nil k.dash_closing hc.1), hafter]

theorem filter_begin_region {before after : List Bytes} {opening closing : Bytes}
    (body : List Bytes) (hblank : ∀ line ∈ before ++ after, trimmed line = [])
    (ho : IsArmorLine k.opening opening) (hc : IsArmorLine k.closing closing) :
    (before ++ opening :: (body ++ closing :: after)).filter (kArmorBegin <+: ·)
      = opening :: body.filter (kArmorBegin <+: ·) := by
  have hopens : kArmorBegin <+: opening := k.begin_opening.trans ho.1
  have hcloses : ¬kArmorBegin <+: closing := fun h =>
    not_end_of_begin h (k.end_closing.trans hc.1)
  rw [List.filter_append, List.filter_cons_of_pos (by simpa using hopens), List.filter_append,
    List.filter_cons_of_neg (by simpa using hcloses),
    filter_begin_plain fun l hl => Plain.of_blank (hblank l (List.mem_append_left _ hl)),
    filter_begin_plain fun l hl => Plain.of_blank (hblank l (List.mem_append_right _ hl)),
    List.nil_append, List.append_nil]

theorem Inside.exact {k : ArmorKind} {lines : List Bytes} (h : Inside k lines) : Exact k lines := by
  obtain ⟨before, opening, body, closing, after, rfl, hblank, ho, hc, hbody⟩ := h
  have hnonBlank := nonBlank_region body hblank ho hc
  constructor
  · intro line hline
    rw [hnonBlank] at hline
    obtain rfl := Option.some.inj hline
    exact ho
  · intro line hline
    rw [hnonBlank, ← List.cons_append, List.getLast?_concat] at hline
    obtain rfl := Option.some.inj hline
    exact hc
  · rintro rfl line hline
    obtain ⟨text, inner, signature, rfl, hinner, hplain⟩ := hbody
    have hbegin : kArmorBegin <+: inner := markers_spelled.2.2.trans hinner.1
    have hmiddle : (text ++ inner :: signature).filter (kArmorBegin <+: ·) = [inner] := by
      rw [List.filter_append, List.filter_cons_of_pos (by simpa using hbegin),
        filter_begin_plain fun l hl => hplain l (List.mem_append_left _ hl),
        filter_begin_plain fun l hl => hplain l (List.mem_append_right _ hl), List.nil_append]
    rw [filter_begin_region _ hblank ho hc, hmiddle] at hline
    obtain rfl := Option.some.inj hline
    exact hinner

/-- A text the check takes for enveloped is one region of the kind it opens with. -/
theorem Inside.kind_eq {k' : ArmorKind} (h : Inside k lines) (henv : Enveloped k' lines) :
    k' = k := by
  obtain ⟨before, opening, body, closing, after, rfl, hblank, ho, hc, -⟩ := h
  have hfirst : (shown (before ++ opening :: (body ++ closing :: after))).headD [] = k.opening := by
    rw [shown, nonBlank_region _ hblank ho hc, List.map_cons, List.headD_cons,
      ho.trimmed_eq k.trimmed_opening]
  exact opening_injective henv.opens (hfirst.symm ▸ List.prefix_rfl)

/-- The non-blank lines of an enveloped text start with its opening line and end with its closing
line, which is another one. -/
theorem Enveloped.split (henv : Enveloped k lines) (hexact : Exact k lines) :
    ∃ opening middle closing, nonBlank lines = opening :: (middle ++ [closing]) ∧
      IsArmorLine k.opening opening ∧ IsArmorLine k.closing closing := by
  have hne : nonBlank lines ≠ [] := by
    intro hnil
    have hopens := henv.opens
    rw [shown, hnil, List.map_nil, List.headD_nil] at hopens
    have hdash := hopens.subset k.dash_opening
    cases hdash
  obtain ⟨opening, rest, hcons⟩ := List.exists_cons_of_ne_nil hne
  have ho : IsArmorLine k.opening opening := hexact.opening opening (by rw [hcons]; rfl)
  have hc := hexact.closing
  rw [hcons] at hc
  obtain rfl | ⟨middle, closing, rfl⟩ := List.eq_nil_or_concat' rest
  · -- one line cannot both open and close the armor
    refine absurd (k.end_closing.trans (hc opening rfl).1) (not_end_of_begin ?_)
    exact k.begin_opening.trans ho.1
  · refine ⟨opening, middle, closing, hcons, ho, hc closing ?_⟩
    rw [← List.cons_append, List.getLast?_concat]
    rfl

/-- What the counts leave for the lines in between. -/
theorem Enveloped.body {k : ArmorKind} {before body after : List Bytes} {opening closing : Bytes}
    (hblank : ∀ line ∈ before ++ after, trimmed line = []) (ho : IsArmorLine k.opening opening)
    (hc : IsArmorLine k.closing closing)
    (henv : Enveloped k (before ++ opening :: (body ++ closing :: after)))
    (hexact : Exact k (before ++ opening :: (body ++ closing :: after))) : k.Body body := by
  have hfilter := filter_begin_region body hblank ho hc
  have hbegins : (body.filter (kArmorBegin <+: ·)).length + 1 = k.openings := by
    rw [← henv.begins, List.countP_eq_length_filter, hfilter, List.length_cons]
  have hends : ∀ line ∈ body, ¬kArmorEnd <+: line := by
    have hcount := henv.ends
    have hcloses : kArmorEnd <+: closing := k.end_closing.trans hc.1
    rw [List.countP_append, List.countP_cons, List.countP_append, List.countP_cons] at hcount
    simp only [hcloses, decide_true, if_true] at hcount
    have hzero : body.countP (kArmorEnd <+: ·) = 0 := by omega
    simpa using List.countP_eq_zero.mp hzero
  cases k with
  | message =>
    have hnone : body.filter (kArmorBegin <+: ·) = [] :=
      List.length_eq_zero_iff.mp (Nat.succ_injective hbegins)
    intro line hline
    exact ⟨by simpa using List.filter_eq_nil_iff.mp hnone line hline, hends line hline⟩
  | cleartext =>
    obtain ⟨inner, hone⟩ := List.length_eq_one_iff.mp (Nat.succ_injective hbegins)
    obtain ⟨text, signature, rfl, htext, -, hsignature⟩ := List.filter_eq_cons_iff.mp hone
    refine ⟨text, inner, signature, rfl, ?_, ?_⟩
    · refine hexact.signature rfl inner ?_
      rw [hfilter, hone]
      rfl
    · intro line hline
      have hmem : line ∈ text ++ inner :: signature := by
        obtain hline | hline := List.mem_append.mp hline
        · exact List.mem_append_left _ hline
        · exact List.mem_append_right _ (List.mem_cons_of_mem _ hline)
      refine ⟨?_, hends line hmem⟩
      obtain hline | hline := List.mem_append.mp hline
      · simpa using htext line hline
      · simpa using List.filter_eq_nil_iff.mp hsignature line hline

theorem Inside.of_exact (henv : Enveloped k lines) (hexact : Exact k lines) : Inside k lines := by
  obtain ⟨opening, middle, closing, hsplit, ho, hc⟩ := henv.split hexact
  obtain ⟨before, rest, rfl, hbefore, -, hrest⟩ := List.filter_eq_cons_iff.mp hsplit
  obtain ⟨body, tail, rfl, -, htail⟩ := List.filter_eq_append_iff.mp hrest
  obtain ⟨inside, after, rfl, -, -, hafter⟩ := List.filter_eq_cons_iff.mp htail
  have hblank : ∀ line ∈ before ++ after, trimmed line = [] := by
    intro line hline
    obtain hline | hline := List.mem_append.mp hline
    · simpa using hbefore line hline
    · simpa using List.filter_eq_nil_iff.mp hafter line hline
  rw [← List.append_assoc body] at henv hexact ⊢
  exact ⟨before, opening, body ++ inside, closing, after, rfl, hblank, ho, hc,
    henv.body hblank ho hc hexact⟩

/-! ## A file, a piece at a time -/

theorem readLine_ended {n : Nat} {c : Bytes} (rest : Bytes) (hfree : 10 ∉ c) (hlt : c.length < n) :
    readLine n (c ++ 10 :: rest) = c ++ [10] := by
  induction c generalizing n with
  | nil =>
    obtain ⟨n, rfl⟩ := Nat.exists_eq_succ_of_ne_zero (Nat.ne_of_gt hlt)
    rfl
  | cons x c ih =>
    rw [List.length_cons] at hlt
    obtain ⟨n, rfl⟩ := Nat.exists_eq_succ_of_ne_zero (Nat.ne_of_gt (Nat.zero_lt_of_lt hlt))
    rw [List.mem_cons, not_or] at hfree
    rw [List.cons_append, readLine, if_neg (Ne.symm hfree.1),
      ih hfree.2 (Nat.lt_of_succ_lt_succ hlt)]
    rfl

theorem readLine_cut {n : Nat} {c : Bytes} (rest : Bytes) (hfree : 10 ∉ c) (hle : n ≤ c.length) :
    readLine n (c ++ rest) = c.take n := by
  induction c generalizing n with
  | nil =>
    obtain rfl : n = 0 := Nat.le_zero.mp hle
    rfl
  | cons x c ih =>
    cases n with
    | zero => rfl
    | succ n =>
      rw [List.mem_cons, not_or] at hfree
      rw [List.cons_append, readLine, if_neg (Ne.symm hfree.1),
        ih hfree.2 (Nat.le_of_succ_le_succ hle), List.take_succ_cons]

theorem readLine_unended {n : Nat} {c : Bytes} (hfree : 10 ∉ c) (hle : c.length ≤ n) :
    readLine n c = c := by
  induction c generalizing n with
  | nil => cases n <;> rfl
  | cons x c ih =>
    obtain ⟨n, rfl⟩ := Nat.exists_eq_succ_of_ne_zero (Nat.ne_of_gt (Nat.zero_lt_of_lt hle))
    rw [List.mem_cons, not_or] at hfree
    rw [readLine, if_neg (Ne.symm hfree.1), ih hfree.2 (Nat.le_of_succ_le_succ hle)]

/-- One turn of the loop: a whole line, or as much of a line as fits. -/
theorem readLine_cases (n : Nat) (data : Bytes) :
    ∃ c others, data.splitOn 10 = c :: others ∧
      ((c.length < n ∧ readLine n data = c ++ [10] ∧
          (data.drop (readLine n data).length).splitOn 10 = others) ∨
        (others = [] ∧ readLine n data = c ∧ data.drop (readLine n data).length = []) ∨
        (n ≤ c.length ∧ readLine n data = c.take n ∧
          (data.drop (readLine n data).length).splitOn 10 = c.drop n :: others)) := by
  obtain ⟨cs, last, hcs, hlast, rfl⟩ := exists_joinLines 10 data
  cases cs with
  | nil =>
    refine ⟨last, [], List.splitOn_eq_singleton hlast, ?_⟩
    obtain hlt | hle := Nat.lt_or_ge n last.length
    · have hcut := readLine_cut [] hlast hlt.le
      rw [List.append_nil] at hcut
      rw [joinLines_nil, hcut, List.length_take_of_le hlt.le]
      refine .inr (.inr ⟨hlt.le, rfl, ?_⟩)
      exact List.splitOn_eq_singleton fun h => hlast ((List.drop_suffix n last).subset h)
    · rw [joinLines_nil, readLine_unended hlast hle]
      exact .inr (.inl ⟨rfl, rfl, List.drop_length⟩)
  | cons c cs =>
    have hc : 10 ∉ c := hcs c List.mem_cons_self
    rw [joinLines_cons, List.splitOn_append_cons_self_of_not_mem hc]
    refine ⟨c, _, rfl, ?_⟩
    obtain hlt | hle := Nat.lt_or_ge c.length n
    · rw [readLine_ended _ hc hlt]
      refine .inl ⟨hlt, rfl, ?_⟩
      have hdata : c ++ 10 :: joinLines 10 cs last = c ++ [10] ++ joinLines 10 cs last := by simp
      rw [hdata, List.drop_left]
    · rw [readLine_cut _ hc hle, List.length_take_of_le hle, List.drop_append_of_le_length hle]
      refine .inr (.inr ⟨hle, rfl, ?_⟩)
      exact List.splitOn_append_cons_self_of_not_mem
        (fun h => hc ((List.drop_suffix n c).subset h)) _

theorem line_concat (check : ArmorEnvelopeCheck) (raw : Bytes) :
    check.line (raw ++ [10]) = check.line raw := by
  have hinfix : kArmorBegin <:+: raw ++ [10] ↔ kArmorBegin <:+: raw := by
    rw [infix_append_cons lineFeed_not_mem_kArmorBegin, List.infix_nil]
    exact or_iff_left kArmorBegin_ne_nil
  have hbegin : kArmorBegin <+: raw ++ [10] ↔ kArmorBegin <+: raw :=
    prefix_concat_of_not_mem lineFeed_not_mem_kArmorBegin
  have hend : kArmorEnd <+: raw ++ [10] ↔ kArmorEnd <+: raw :=
    prefix_concat_of_not_mem lineFeed_not_mem_kArmorEnd
  have htrim : trimmed (raw ++ [10]) = trimmed raw :=
    trim_append (List.forall_mem_singleton.2 rfl)
  simp only [ArmorEnvelopeCheck.line, hinfix, hbegin, hend, htrim]

theorem line_nil (check : ArmorEnvelopeCheck) : check.line [] = check := by
  have hbegin : ¬kArmorBegin <+: [] := fun h => kArmorBegin_ne_nil (List.prefix_nil.mp h)
  have hend : ¬kArmorEnd <+: [] := fun h => kArmorEnd_ne_nil (List.prefix_nil.mp h)
  have hinfix : ¬kArmorBegin <:+: [] := fun h => kArmorBegin_ne_nil (List.infix_nil.mp h)
  simp only [ArmorEnvelopeCheck.line, hbegin, hend, hinfix, if_false]
  rfl

/-- A file whose lines all fit is read as its bytes are. -/
theorem foldl_fileLines (hshort : ∀ line ∈ data.splitOn 10, line.length ≤ kMaxLine)
    (check : ArmorEnvelopeCheck) :
    (fileLines data).foldl ArmorEnvelopeCheck.line check
      = (data.splitOn 10).foldl ArmorEnvelopeCheck.line check := by
  fun_induction fileLines data generalizing check with
  | case1 => exact (line_nil check).symm
  | case2 data hne ih =>
    obtain ⟨c, others, hlines, hturn⟩ := readLine_cases kMaxLine data
    rw [hlines] at hshort ⊢
    rw [List.foldl_cons, List.foldl_cons]
    obtain ⟨-, hline, hrest⟩ | ⟨rfl, hline, hrest⟩ | ⟨hle, hline, hrest⟩ := hturn
    · rw [hrest] at ih
      rw [ih fun l hl => hshort l (List.mem_cons_of_mem c hl), hline, line_concat]
    · rw [hrest, hline, fileLines, dif_pos rfl]
    · -- the line fills the buffer, and only its line feed is left for the next turn
      have hfull : c.length = kMaxLine := Nat.le_antisymm (hshort c List.mem_cons_self) hle
      rw [List.take_of_length_le hfull.le] at hline
      rw [hrest, List.drop_eq_nil_of_le hfull.le] at ih
      rw [ih, hline, List.foldl_cons, line_nil]
      intro l hl
      obtain rfl | hl := List.mem_cons.mp hl
      · exact Nat.zero_le _
      · exact hshort l (List.mem_cons_of_mem c hl)

theorem readLine_isPrefix (n : Nat) (data : Bytes) : readLine n data <+: data := by
  fun_induction readLine n data with
  | case1 => exact List.nil_prefix
  | case2 => exact List.nil_prefix
  | case3 n cs => exact List.cons_prefix_cons.mpr ⟨rfl, List.nil_prefix⟩
  | case4 n c cs _ ih => exact List.cons_prefix_cons.mpr ⟨rfl, ih⟩

theorem fileLines_isInfix {line : Bytes} (h : line ∈ fileLines data) : line <:+: data := by
  fun_induction fileLines data with
  | case1 => cases h
  | case2 data _ ih =>
    obtain rfl | h := List.mem_cons.mp h
    · exact (readLine_isPrefix _ _).isInfix
    · exact (ih h).trans (List.drop_suffix _ _).isInfix

theorem showsArmor_iff (data : Bytes) : ShowsArmor (data.splitOn 10) ↔ kArmorBegin <:+: data := by
  obtain ⟨cs, last, hcs, hlast, rfl⟩ := exists_joinLines 10 data
  induction cs with
  | nil => simp [ShowsArmor, List.splitOn_eq_singleton hlast]
  | cons c cs ih =>
    have hrest := ih fun c' hc' => hcs c' (List.mem_cons_of_mem c hc')
    rw [joinLines_cons, List.splitOn_append_cons_self_of_not_mem (hcs c List.mem_cons_self),
      infix_append_cons lineFeed_not_mem_kArmorBegin, ← hrest]
    simp [ShowsArmor]

theorem showsArmor_of_fileLines (h : ShowsArmor (fileLines data)) :
    ShowsArmor (data.splitOn 10) := by
  obtain ⟨line, hline, harmor⟩ := h
  exact (showsArmor_iff data).mpr (harmor.trans (fileLines_isInfix hline))

/-- A line that opens an armor still does when the file is read in pieces. -/
theorem fileLines_begin (h : ∃ line ∈ data.splitOn 10, kArmorBegin <+: line) :
    ∃ line ∈ fileLines data, kArmorBegin <+: line := by
  fun_induction fileLines data with
  | case1 =>
    obtain ⟨line, hline, hbegin⟩ := h
    rw [List.splitOn_nil, List.mem_singleton] at hline
    rw [hline] at hbegin
    exact absurd (List.prefix_nil.mp hbegin) kArmorBegin_ne_nil
  | case2 data _ ih =>
    obtain ⟨c, others, hlines, hturn⟩ := readLine_cases kMaxLine data
    obtain ⟨line, hmem, hbegin⟩ := h
    rw [hlines, List.mem_cons] at hmem
    obtain rfl | hmem := hmem
    · refine ⟨readLine kMaxLine data, List.mem_cons_self, ?_⟩
      obtain ⟨-, hline, -⟩ | ⟨-, hline, -⟩ | ⟨-, hline, -⟩ := hturn
      · rw [hline]
        exact hbegin.trans (List.prefix_append _ _)
      · rw [hline]
        exact hbegin
      · rw [hline]
        exact List.prefix_take_iff.mpr ⟨hbegin, markers_spelled.1 ▸ by decide⟩
    · have hlater : ∃ l ∈ (data.drop (readLine kMaxLine data).length).splitOn 10,
          kArmorBegin <+: l := by
        obtain ⟨-, -, hrest⟩ | ⟨rfl, -, -⟩ | ⟨-, -, hrest⟩ := hturn
        · exact ⟨line, hrest ▸ hmem, hbegin⟩
        · cases hmem
        · exact ⟨line, hrest ▸ List.mem_cons_of_mem _ hmem, hbegin⟩
      obtain ⟨l, hl, hb⟩ := ih hlater
      exact ⟨l, List.mem_cons_of_mem _ hl, hb⟩

theorem Enveloped.exists_begin (h : Enveloped k lines) : ∃ line ∈ lines, kArmorBegin <+: line := by
  have hpos : 0 < lines.countP (kArmorBegin <+: ·) := by
    rw [h.begins]
    cases k <;> decide
  simpa using List.countP_pos_iff.mp hpos

theorem showsArmor_of_begin (h : ∃ line ∈ lines, kArmorBegin <+: line) : ShowsArmor lines := by
  obtain ⟨line, hline, hbegin⟩ := h
  exact ⟨line, hline, hbegin.isInfix⟩

theorem same_answer_iff (data : Bytes) :
    hasTextOutsideSignedArmorInFile (.whole data) = hasTextOutsideSignedArmor data ↔
      ReadAlike data := by
  have hfile := outside_read_iff (fileLines data)
  have hmemory := outside_read_iff (data.splitOn 10)
  have hpieces : ShowsArmor (fileLines data) → ShowsArmor (data.splitOn 10) :=
    showsArmor_of_fileLines
  have hlines : (∃ k, Enveloped k (data.splitOn 10)) → ShowsArmor (fileLines data) :=
    fun ⟨_, hk⟩ => showsArmor_of_begin (fileLines_begin hk.exists_begin)
  have henveloped : (∃ k, Enveloped k (fileLines data)) → ShowsArmor (fileLines data) :=
    fun ⟨_, hk⟩ => showsArmor_of_begin hk.exists_begin
  have hanswers (a b : Bool) : a = b ↔ (a = false ↔ b = false) := by
    cases a <;> cases b <;> simp
  rw [hasTextOutsideSignedArmorInFile, hasTextOutsideSignedArmor, hanswers, hfile, hmemory,
    ReadAlike]
  grind

/-- A file none of whose lines is longer than the buffer is read as its bytes are. -/
theorem readAlike_of_short (hshort : ∀ line ∈ data.splitOn 10, line.length ≤ kMaxLine) :
    ReadAlike data := by
  rw [← same_answer_iff]
  exact congrArg outside (foldl_fileLines hshort {})

/-! ## What the answer is worth -/

/-- Nothing lies outside an armor the check passes exactly when the lines it takes for armor lines
are armor lines, and a file is judged as its bytes are exactly when it is read alike, as it is when
no line exceeds the buffer. -/
theorem armor_envelope_exact (data : Bytes) :
    (((kArmorBegin <:+: data → hasTextOutsideSignedArmor data = false →
          ∃ k, Inside k (data.splitOn 10)) ∧
        hasTextOutsideSignedArmorInFile (.whole data) = hasTextOutsideSignedArmor data) ↔
      (∀ k, Enveloped k (data.splitOn 10) → Exact k (data.splitOn 10)) ∧ ReadAlike data) ∧
    ((∀ line ∈ data.splitOn 10, line.length ≤ kMaxLine) → ReadAlike data) := by
  refine ⟨?_, readAlike_of_short⟩
  rw [same_answer_iff, hasTextOutsideSignedArmor, outside_read_iff, ← showsArmor_iff]
  refine and_congr_left fun _ => ?_
  constructor
  · intro h k hk
    have harmor := showsArmor_of_begin hk.exists_begin
    obtain ⟨k', hinside⟩ := h harmor (.inr ⟨k, hk⟩)
    rw [hinside.kind_eq hk]
    exact hinside.exact
  · rintro h harmor (hnone | ⟨k, hk⟩)
    · exact absurd harmor hnone
    · exact ⟨k, Inside.of_exact hk (h k hk)⟩

/-- A message with another line after its end. The line ends as an armor does but does not start
as one, so it is neither counted nor reported. -/
theorem text_before_closing_marker :
    ∃ data : Bytes, kArmorBegin <:+: data ∧ hasTextOutsideSignedArmor data = false ∧
      ¬∃ k, Inside k (data.splitOn 10) := by
  let data := kPgpMessageBegin ++ ascii "\n\nAAAA\n" ++ kPgpMessageEnd ++ ascii "\nPay Eve. " ++
    kPgpMessageEnd
  have henv : Enveloped .message (data.splitOn 10) := by
    constructor <;> decide +kernel
  have harmor := showsArmor_of_begin henv.exists_begin
  refine ⟨data, (showsArmor_iff data).mp harmor, (outside_read_iff _).mpr (.inr ⟨_, henv⟩), ?_⟩
  rintro ⟨k, hinside⟩
  obtain rfl := hinside.kind_eq henv
  have hline : ascii "Pay Eve. " ++ kPgpMessageEnd ∈ (nonBlank (data.splitOn 10)).getLast? := by
    decide +kernel
  have hclosing := (hinside.exact.closing _ hline).1
  exact absurd hclosing (by decide +kernel)

end GpgFrontend.ArmorEnvelope
