import GpgFrontend.Rpgp.ArmorText
import Mathlib.Data.List.Flatten

/-!
# Armor blocks in a text

- `findArmorRegions`: `find_armor_regions` of `inspect.rs`, a loop over the lines with the block
  that is open, if any.
- `Undisturbed before b after`: what precedes and follows the block leaves it to itself.

Positions count characters, not bytes; they are only used to cut the text they were found in.
-/

namespace GpgFrontend.Rpgp

def dashes : List Char := "-----".toList
def beginMark : List Char := "-----BEGIN ".toList
def endMark : List Char := "-----END ".toList

inductive ArmorMark where
  | opening (cleartext : Bool)
  | closing

/-- What a line is to the loop. -/
def armorMark (line : List Char) : Option ArmorMark :=
  let trimmed := trim line
  if ¬dashes <+: trimmed ∨ ¬dashes <:+ trimmed then none
  else if beginMark <+: trimmed then
    some (.opening ("PGP SIGNED MESSAGE".toList.isPrefixOf (trimmed.drop beginMark.length)))
  else if endMark <+: trimmed then some .closing
  else none

structure Region where
  start : Nat
  stop : Nat
  cleartext : Bool

structure RegionScan where
  offset : Nat
  opened : Option (Nat × Bool)
  regions : List Region

namespace RegionScan

def line (s : RegionScan) (raw : List Char) : RegionScan :=
  let line := raw.rdropWhile isBreak
  let next := { s with offset := s.offset + raw.length }
  match armorMark line with
  | some (.opening cleartext) =>
    -- a block that is open stays open
    { next with opened := s.opened.or (some (s.offset, cleartext)) }
  | some .closing =>
    match s.opened with
    | some (start, cleartext) =>
      { next with
        opened := none
        regions := s.regions ++ [⟨start, s.offset + line.length, cleartext⟩] }
    | none => next
  | none => next

/-- An unterminated block reaches to the end of the text. -/
def finish (s : RegionScan) (length : Nat) : List Region :=
  match s.opened with
  | some (start, cleartext) => s.regions ++ [⟨start, length, cleartext⟩]
  | none => s.regions

def scan (s : RegionScan) (lines : List (List Char)) : RegionScan := lines.foldl line s

end RegionScan

open RegionScan

def findArmorRegions (text : List Char) : List Region :=
  (scan ⟨0, none, []⟩ (splitInclusive '\n' text)).finish text.length

def regionText (text : List Char) (region : Region) : List Char :=
  (text.take region.stop).drop region.start

section

variable {Packet : Type} (packetsIn : List Char → List Packet)

/-- The packets written out, or `none` where the input itself is handed back. -/
def dearmorAll (text : List Char) : Option (List Packet) :=
  let text := stripArmorWhitespace text
  let blocks := (findArmorRegions text).filter fun region => !region.cleartext
  if blocks.isEmpty then none
  else some (blocks.flatMap fun region => packetsIn (regionText text region))

end

/-! ## The regions of any text -/

structure RegionsOrdered (regions : List Region) (length : Nat) : Prop where
  disjoint : regions.Pairwise fun r r' => r.stop ≤ r'.start
  within : ∀ r ∈ regions, r.start ≤ r.stop ∧ r.stop ≤ length

/-- The regions so far lie before the block that is open and before what is still to be read. -/
structure RegionScan.Ordered (s : RegionScan) : Prop where
  regions : RegionsOrdered s.regions s.offset
  opened : ∀ o ∈ s.opened, o.1 ≤ s.offset ∧ ∀ r ∈ s.regions, r.stop ≤ o.1

theorem RegionsOrdered.mono {regions : List Region} {n m : Nat} (h : RegionsOrdered regions n)
    (hle : n ≤ m) : RegionsOrdered regions m :=
  ⟨h.disjoint, fun r hr => ⟨(h.within r hr).1, (h.within r hr).2.trans hle⟩⟩

theorem RegionsOrdered.concat {regions : List Region} {n : Nat} {region : Region}
    (h : RegionsOrdered regions n) (hbefore : ∀ r ∈ regions, r.stop ≤ region.start)
    (hregion : region.start ≤ region.stop ∧ region.stop ≤ n) :
    RegionsOrdered (regions ++ [region]) n := by
  constructor
  · rw [List.pairwise_append]
    refine ⟨h.disjoint, List.pairwise_singleton _ _, fun r hr r' hr' => ?_⟩
    rw [List.mem_singleton.mp hr']
    exact hbefore r hr
  · intro r hr
    obtain hr | hr := List.mem_append.mp hr
    · exact h.within r hr
    · rw [List.mem_singleton.mp hr]
      exact hregion

variable {s : RegionScan}

theorem RegionScan.Ordered.line (h : s.Ordered) (raw : List Char) : (s.line raw).Ordered := by
  have hraw : s.offset ≤ s.offset + raw.length := Nat.le_add_right _ _
  have hnext : Ordered { s with offset := s.offset + raw.length } :=
    ⟨h.regions.mono hraw, fun o ho => ⟨(h.opened o ho).1.trans hraw, (h.opened o ho).2⟩⟩
  rw [RegionScan.line]
  cases armorMark (raw.rdropWhile isBreak) with
  | none => exact hnext
  | some mark =>
    cases mark with
    | opening cleartext =>
      refine ⟨hnext.regions, fun o ho => ?_⟩
      obtain ho | ⟨-, ho⟩ := Option.or_eq_some_iff.mp ho
      · exact hnext.opened o ho
      · obtain rfl := Option.some.inj ho
        exact ⟨hraw, fun r hr => (h.regions.within r hr).2⟩
    | closing =>
      cases hopen : s.opened with
      | none =>
        rw [hopen] at hnext
        exact hnext
      | some o =>
        obtain ⟨hstart, hbefore⟩ := h.opened o hopen
        have hcontent : (raw.rdropWhile isBreak).length ≤ raw.length :=
          (List.rdropWhile_prefix _ _).length_le
        refine ⟨hnext.regions.concat hbefore ⟨?_, ?_⟩, fun o ho => by cases ho⟩
        · show o.1 ≤ s.offset + _
          omega
        · show s.offset + _ ≤ s.offset + raw.length
          omega

theorem RegionScan.Ordered.scan (h : s.Ordered) (lines : List (List Char)) :
    (s.scan lines).Ordered := by
  induction lines generalizing s with
  | nil => exact h
  | cons raw lines ih => exact ih (h.line raw)

theorem offset_line (s : RegionScan) (raw : List Char) :
    (s.line raw).offset = s.offset + raw.length := by
  rw [RegionScan.line]
  cases armorMark (raw.rdropWhile isBreak) with
  | none => rfl
  | some mark =>
    cases mark with
    | opening cleartext => rfl
    | closing => cases s.opened <;> rfl

theorem offset_scan (s : RegionScan) (lines : List (List Char)) :
    (s.scan lines).offset = s.offset + lines.flatten.length := by
  induction lines generalizing s with
  | nil => rfl
  | cons raw lines ih =>
    rw [scan, List.foldl_cons, ← scan, ih, offset_line, List.flatten_cons, List.length_append]
    omega

theorem findArmorRegions_ordered (text : List Char) :
    RegionsOrdered (findArmorRegions text) text.length := by
  have hstart : Ordered ⟨0, none, []⟩ :=
    ⟨⟨List.Pairwise.nil, fun r hr => by cases hr⟩, fun o ho => by cases ho⟩
  have hscan := hstart.scan (splitInclusive '\n' text)
  have hlength : (scan ⟨0, none, []⟩ (splitInclusive '\n' text)).offset = text.length := by
    rw [offset_scan, flatten_splitInclusive, Nat.zero_add]
  rw [findArmorRegions, finish]
  rw [← hlength]
  split
  · next start cleartext hopen =>
    obtain ⟨hle, hbefore⟩ := hscan.opened _ hopen
    exact hscan.regions.concat hbefore ⟨hle, Nat.le_refl _⟩
  · exact hscan.regions

/-! ## An intact block -/

/-- An armored block as it should be: white space may stand around its lines and in its body, and no
line between the first and the last one starts with dashes. -/
structure IntactBlock where
  kind : List Char
  opening : List Char
  headers : List (List Char)
  blank : List Char
  body : List (List Char)
  closing : List Char
  /-- Whether a line break follows the last line. -/
  ended : Bool
  kind_plain : ¬"SIGNED MESSAGE".toList <+: kind ++ dashes
  opening_eq : trim opening = armorBegin ++ kind ++ dashes
  headers_plain : ∀ h ∈ headers, trim h ≠ [] ∧ ¬dashes <+: trim h
  blank_eq : trim blank = []
  body_plain : ∀ b ∈ body, ¬dashes <+: trim b
  closing_eq : trim closing = armorEnd ++ kind ++ dashes
  free : ∀ line ∈ opening :: (headers ++ blank :: (body ++ [closing])), '\n' ∉ line

namespace IntactBlock

variable (b : IntactBlock)

def ending : List Char := if b.ended then ['\n'] else []

/-- All its lines but the last one. -/
def front : List (List Char) :=
  (b.opening :: (b.headers ++ b.blank :: b.body)).map (· ++ ['\n'])

def lines : List (List Char) := b.front ++ [b.closing ++ b.ending]

def text : List Char := b.lines.flatten

/-- The lines as the normaliser writes them when the block stands alone. -/
def written : List (List Char) := stripMachine.runLines .outside b.lines

/-- The block as the reader gets it, without the line break at its end. -/
def region : List Char :=
  (stripMachine.runLines .outside b.front).flatten ++
    (trim b.closing)

end IntactBlock

theorem trim_ended {line ending : List Char} (h : ∀ c ∈ ending, isBreak c) :
    trim (line ++ ending) = trim line :=
  trim_append fun c hc => isWhiteSpace_of_isBreak (h c hc)

theorem armorMark_congr {line line' : List Char} (h : trim line = trim line') :
    armorMark line = armorMark line' := by
  rw [armorMark, armorMark, h]

theorem armorMark_rdropWhile (line : List Char) :
    armorMark (line.rdropWhile isBreak) = armorMark line :=
  armorMark_congr (trim_rdropWhile_isBreak line)

theorem armorMark_plain {line : List Char} (h : ¬dashes <+: trim line) : armorMark line = none :=
  if_pos (.inl h)

/-- The marks of the loop hold spaces, and no line of a body does once it is written. -/
theorem armorMark_spaceless {line : List Char} (h : ' ' ∉ line) : armorMark line = none := by
  have hnot {mark : List Char} (hspace : ' ' ∈ mark) : ¬mark <+: trim line := fun hmark =>
    h ((trim_sublist line).subset (hmark.subset hspace))
  rw [armorMark]
  simp only [hnot (by decide : ' ' ∈ beginMark), hnot (by decide : ' ' ∈ endMark), if_false,
    ite_self]

theorem armorMark_opening {line : List Char} {kind : List Char}
    (hplain : ¬"SIGNED MESSAGE".toList <+: kind ++ dashes)
    (h : trim line = armorBegin ++ kind ++ dashes) :
    armorMark line = some (.opening false) := by
  have hfirst : dashes <+: trim line := by
    rw [h, List.append_assoc]
    exact List.IsPrefix.trans (by decide) (List.prefix_append armorBegin _)
  have hlast : dashes <:+ trim line := by
    rw [h]
    exact List.suffix_append _ _
  have hsplit : trim line = beginMark ++ ("PGP ".toList ++ (kind ++ dashes)) := by
    rw [h, List.append_assoc, ← List.append_assoc beginMark]
    rfl
  have hkind : "PGP SIGNED MESSAGE".toList.isPrefixOf ("PGP ".toList ++ (kind ++ dashes))
      = false := by
    rw [Bool.eq_false_iff, ne_eq, List.isPrefixOf_iff_prefix]
    have hmarker : "PGP SIGNED MESSAGE".toList = "PGP ".toList ++ "SIGNED MESSAGE".toList := rfl
    rw [hmarker, List.prefix_append_right_inj]
    exact hplain
  have hbegin : beginMark <+: trim line := by
    rw [hsplit]
    exact List.prefix_append _ _
  rw [armorMark]
  simp only [hfirst, hlast, not_true, or_self, if_false, hbegin, if_true]
  rw [hsplit, List.drop_left, hkind]

theorem armorMark_closing {line kind : List Char} (h : trim line = armorEnd ++ kind ++ dashes) :
    armorMark line = some .closing := by
  have hfirst : dashes <+: trim line := by
    rw [h, List.append_assoc]
    exact List.IsPrefix.trans (by decide) (List.prefix_append armorEnd _)
  have hlast : dashes <:+ trim line := by
    rw [h]
    exact List.suffix_append _ _
  have hend : endMark <+: trim line := by
    rw [h, List.append_assoc]
    exact List.IsPrefix.trans (by decide) (List.prefix_append armorEnd _)
  have hbegin : ¬beginMark <+: trim line := fun hbegin =>
    (List.prefix_or_prefix_of_prefix hbegin hend).elim (by decide) (by decide)
  rw [armorMark]
  simp only [hfirst, hlast, not_true, or_self, if_false, hbegin, hend, if_true]

/-! ## The loop over an intact block -/

theorem line_of_mark_none {raw : List Char} (h : armorMark raw = none) :
    s.line raw = { s with offset := s.offset + raw.length } := by
  rw [RegionScan.line, armorMark_rdropWhile, h]

theorem scan_quiet {lines : List (List Char)} (h : ∀ raw ∈ lines, armorMark raw = none) :
    s.scan lines = { s with offset := s.offset + lines.flatten.length } := by
  induction lines generalizing s with
  | nil => rfl
  | cons raw lines ih =>
    have hrest := ih (s := s.line raw) fun l hl => h l (List.mem_cons_of_mem raw hl)
    rw [scan, List.foldl_cons, ← scan, hrest, line_of_mark_none (h raw List.mem_cons_self),
      List.flatten_cons, List.length_append, Nat.add_assoc]

theorem stripLine_headers {line : List Char} (h : trim line ≠ []) :
    stripLine .headers line = (.headers, trim line ++ line.rtakeWhile isBreak) := by
  rw [stripLine_eq, stripContent]
  simp only [trim_rdropWhile_isBreak, List.isEmpty_iff, h, if_false]

theorem stripLine_blank {line : List Char} (h : trim line = []) :
    stripLine .headers line = (.body, line.rtakeWhile isBreak) := by
  rw [stripLine_eq, stripContent]
  simp only [trim_rdropWhile_isBreak, List.isEmpty_iff, h, if_true, List.nil_append]

theorem stripLine_body {line : List Char} (h : ¬armorEnd <+: trim line) :
    stripLine .body line
      = (.body, (line.rdropWhile isBreak).filter (fun c => c != ' ' && c != '\t') ++
          line.rtakeWhile isBreak) := by
  rw [stripLine_eq, stripContent]
  simp only [trim_rdropWhile_isBreak, h, if_false]

theorem stripLine_closing {line : List Char} (h : armorEnd <+: trim line) :
    stripLine .body line = (.outside, trim line ++ line.rtakeWhile isBreak) := by
  rw [stripLine_eq, stripContent]
  simp only [trim_rdropWhile_isBreak, h, if_true]

theorem stripLine_opening {line : List Char} (hsigned : ¬signedBegin <+: trim line)
    (h : armorBegin <+: trim line) :
    stripLine .outside line = (.headers, trim line ++ line.rtakeWhile isBreak) := by
  rw [stripLine_eq, stripContent]
  simp only [trim_rdropWhile_isBreak, hsigned, h, if_false, if_true]

/-- A line written trimmed is to the loop what it was. -/
theorem armorMark_trimmed (line : List Char) :
    armorMark (trim line ++ line.rtakeWhile isBreak) = armorMark line :=
  armorMark_congr ((trim_ended fun _ => List.mem_rtakeWhile_imp).trans (trim_trim line))

theorem armorMark_filtered (line : List Char) :
    armorMark ((line.rdropWhile isBreak).filter (fun c => c != ' ' && c != '\t') ++
      line.rtakeWhile isBreak) = none := by
  refine armorMark_spaceless fun hspace => ?_
  obtain hspace | hspace := List.mem_append.mp hspace
  · exact absurd (List.mem_filter.mp hspace).2 (by decide)
  · exact absurd (List.mem_rtakeWhile_imp hspace) (by decide)

namespace IntactBlock

variable (b : IntactBlock)

theorem ending_break : ∀ c ∈ b.ending, isBreak c := by
  intro c hc
  rw [ending] at hc
  split at hc
  · rw [List.mem_singleton.mp hc]
    decide
  · cases hc

/-- What is written for the lines before the last one: a line that opens the block, and lines that
are nothing to the loop. -/
theorem front_written :
    ∃ first quiet, stripMachine.runLines .outside b.front = first :: quiet ∧
      armorMark first = some (.opening false) ∧ (∀ raw ∈ quiet, armorMark raw = none) ∧
      stripMachine.after .outside b.front = .body := by
  have hbreak : ∀ c ∈ ['\n'], isBreak c := List.forall_mem_singleton.2 rfl
  have hended (line : List Char) : trim (line ++ ['\n']) = trim line := trim_ended hbreak
  have hsigned : ¬signedBegin <+: trim (b.opening ++ ['\n']) := by
    rw [hended, b.opening_eq, List.append_assoc]
    have hmarker : signedBegin = armorBegin ++ "SIGNED MESSAGE-----".toList := rfl
    rw [hmarker, List.prefix_append_right_inj]
    exact fun h => b.kind_plain (List.IsPrefix.trans (by decide) h)
  have hopens : armorBegin <+: trim (b.opening ++ ['\n']) := by
    rw [hended, b.opening_eq, List.append_assoc]
    exact List.prefix_append _ _
  have hopening : stripMachine.step .outside (b.opening ++ ['\n']) = _ :=
    stripLine_opening hsigned hopens
  have hheaders := stripMachine.runLines_map (s := .headers)
    (f := fun line => trim line ++ line.rtakeWhile isBreak)
    (b.headers.map (· ++ ['\n'])) (by
      rw [List.forall_mem_map]
      intro h hh
      exact stripLine_headers (by rw [hended]; exact (b.headers_plain h hh).1))
  have hblank : stripMachine.step .headers (b.blank ++ ['\n']) = _ :=
    stripLine_blank (by rw [hended]; exact b.blank_eq)
  have hnotEnd (c : List Char) (hc : c ∈ b.body) : ¬armorEnd <+: trim (c ++ ['\n']) := by
    rw [hended]
    exact fun h => b.body_plain c hc (List.IsPrefix.trans (by decide) h)
  have hbody := stripMachine.runLines_map (s := .body)
    (f := fun line => (line.rdropWhile isBreak).filter (fun c => c != ' ' && c != '\t') ++
      line.rtakeWhile isBreak)
    (b.body.map (· ++ ['\n'])) (by
      rw [List.forall_mem_map]
      exact fun c hc => stripLine_body (hnotEnd c hc))
  rw [front, List.map_cons, List.map_append, List.map_cons, LineMachine.runLines_cons,
    LineMachine.after_cons, hopening, LineMachine.runLines_append, LineMachine.after_append,
    hheaders.1, hheaders.2, LineMachine.runLines_cons, LineMachine.after_cons, hblank, hbody.1,
    hbody.2]
  refine ⟨_, _, rfl, ?_, ?_, rfl⟩
  · rw [armorMark_trimmed]
    exact armorMark_opening b.kind_plain ((hended _).trans b.opening_eq)
  · rw [List.forall_mem_append, List.forall_mem_cons, List.forall_mem_map, List.forall_mem_map,
      List.forall_mem_map, List.forall_mem_map]
    refine ⟨fun h hh => ?_, ?_, fun c _ => armorMark_filtered _⟩
    · rw [armorMark_trimmed]
      exact armorMark_plain (by rw [hended]; exact (b.headers_plain h hh).2)
    · exact armorMark_spaceless fun hspace =>
        absurd (List.mem_rtakeWhile_imp hspace) (by decide)

theorem closing_written :
    ∃ breaks, (∀ c ∈ breaks, isBreak c) ∧
      stripMachine.step .body (b.closing ++ b.ending) = (.outside, trim b.closing ++ breaks) := by
  have htrim : trim (b.closing ++ b.ending) = trim b.closing := trim_ended b.ending_break
  have hend : armorEnd <+: trim (b.closing ++ b.ending) := by
    rw [htrim, b.closing_eq, List.append_assoc]
    exact List.prefix_append _ _
  refine ⟨(b.closing ++ b.ending).rtakeWhile isBreak, fun c hc => List.mem_rtakeWhile_imp hc, ?_⟩
  rw [← htrim]
  exact stripLine_closing hend

theorem written_eq :
    ∃ breaks, (∀ c ∈ breaks, isBreak c) ∧
      b.written = stripMachine.runLines .outside b.front ++ [trim b.closing ++ breaks] := by
  obtain ⟨first, quiet, -, -, -, hafter⟩ := b.front_written
  obtain ⟨breaks, hbreaks, hclosing⟩ := b.closing_written
  refine ⟨breaks, hbreaks, ?_⟩
  rw [written, lines, LineMachine.runLines_append, hafter, LineMachine.runLines_cons, hclosing]
  rfl

/-- What is written for the block is what the reader gets, and line breaks. -/
theorem flatten_written : ∃ breaks, b.written.flatten = b.region ++ breaks := by
  obtain ⟨breaks, -, hwritten⟩ := b.written_eq
  refine ⟨breaks, ?_⟩
  rw [hwritten, region, List.flatten_append, List.flatten_singleton, List.append_assoc]

/-- Where no block is open, the loop finds the block. -/
theorem scan_written (offset : Nat) (regions : List Region) :
    scan ⟨offset, none, regions⟩ b.written
      = ⟨offset + b.written.flatten.length, none,
          regions ++ [⟨offset, offset + b.region.length, false⟩]⟩ := by
  obtain ⟨first, quiet, hfront, hfirst, hquiet, -⟩ := b.front_written
  obtain ⟨breaks, hbreaks, hwritten⟩ := b.written_eq
  have hopening : line ⟨offset, none, regions⟩ first
      = ⟨offset + first.length, some (offset, false), regions⟩ := by
    rw [line, armorMark_rdropWhile, hfirst]
    rfl
  have hclosing (s : RegionScan) (hopen : s.opened = some (offset, false)) :
      s.line (trim b.closing ++ breaks)
        = ⟨s.offset + (trim b.closing ++ breaks).length, none,
            s.regions ++ [⟨offset, s.offset + (trim b.closing).length, false⟩]⟩ := by
    have hmark : armorMark (trim b.closing ++ breaks) = some .closing :=
      armorMark_closing (((trim_ended hbreaks).trans (trim_trim _)).trans b.closing_eq)
    rw [line, armorMark_rdropWhile, hmark]
    simp only [hopen, rdropWhile_append hbreaks, rdropWhile_trim]
  have hoffset := offset_scan ⟨offset, none, regions⟩ b.written
  have hscan : scan ⟨offset, none, regions⟩ b.written
      = line (scan (line ⟨offset, none, regions⟩ first) quiet) (trim b.closing ++ breaks) := by
    rw [hwritten, hfront, scan, List.foldl_append]
    rfl
  rw [hscan, hopening, scan_quiet hquiet, hclosing _ rfl] at hoffset ⊢
  rw [RegionScan.mk.injEq]
  refine ⟨hoffset, rfl, ?_⟩
  rw [region, hfront, List.flatten_cons, List.length_append, List.length_append]
  simp only [Nat.add_assoc]

theorem closing_ne_nil : b.closing ≠ [] := by
  intro hnil
  have h := b.closing_eq
  rw [hnil] at h
  have hlength := congrArg List.length h
  rw [List.length_append, List.length_append] at hlength
  exact absurd hlength (by
    have hdash : dashes.length = 5 := rfl
    have hempty : (trim []).length = 0 := rfl
    omega)

theorem text_ne_nil : b.text ≠ [] := by
  rw [text, lines, List.flatten_append, List.flatten_singleton]
  simp [b.closing_ne_nil]

/-- The block is cut into its lines, with what follows it when a line break does. -/
theorem splitInclusive_text {rest : List Char} (h : b.ended = true ∨ rest = []) :
    splitInclusive '\n' (b.text ++ rest) = b.lines ++ splitInclusive '\n' rest := by
  have hfree : ∀ line ∈ b.opening :: (b.headers ++ b.blank :: b.body), '\n' ∉ line := by
    intro line hline
    refine b.free line ?_
    simp only [List.mem_cons, List.mem_append] at hline ⊢
    tauto
  have hclosing : '\n' ∉ b.closing := b.free _ (by simp)
  have htext : b.text ++ rest
      = (b.opening :: (b.headers ++ b.blank :: b.body)).flatMap (· ++ ['\n']) ++
          (b.closing ++ b.ending ++ rest) := by
    rw [text, lines, front, List.flatten_append, List.flatten_singleton, List.append_assoc,
      List.flatMap]
  have hlast : splitInclusive '\n' (b.closing ++ b.ending ++ rest)
      = (b.closing ++ b.ending) :: splitInclusive '\n' rest := by
    rw [ending]
    split
    · rw [List.append_assoc, List.singleton_append, splitInclusive_append_delim hclosing]
    · next hended =>
      obtain rfl := h.resolve_left hended
      rw [List.append_nil, List.append_nil, splitInclusive_of_free hclosing,
        if_neg b.closing_ne_nil]
      rfl
  rw [htext, splitInclusive_append_ended _ hfree, hlast, lines, front, List.append_assoc]
  rfl

end IntactBlock

/-! ## The loop in parts -/

/-- The regions found are only added to. -/
theorem line_regions (s : RegionScan) (raw : List Char) :
    ∃ found, (s.line raw).regions = s.regions ++ found := by
  rw [line]
  cases armorMark (raw.rdropWhile isBreak) with
  | none => exact ⟨[], (List.append_nil _).symm⟩
  | some mark =>
    cases mark with
    | opening cleartext => exact ⟨[], (List.append_nil _).symm⟩
    | closing =>
      cases s.opened with
      | none => exact ⟨[], (List.append_nil _).symm⟩
      | some o => exact ⟨_, rfl⟩

theorem scan_regions (s : RegionScan) (lines : List (List Char)) :
    ∃ found, (s.scan lines).regions = s.regions ++ found := by
  induction lines generalizing s with
  | nil => exact ⟨[], (List.append_nil _).symm⟩
  | cons raw lines ih =>
    obtain ⟨here, hhere⟩ := line_regions s raw
    obtain ⟨later, hlater⟩ := ih (s.line raw)
    rw [hhere, List.append_assoc] at hlater
    exact ⟨_, hlater⟩

theorem scan_append (s : RegionScan) (ls ls' : List (List Char)) :
    s.scan (ls ++ ls') = (s.scan ls).scan ls' := List.foldl_append

theorem scan_filter (s : RegionScan) (lines : List (List Char)) :
    s.scan (lines.filter fun line => !line.isEmpty) = s.scan lines := by
  induction lines generalizing s with
  | nil => rfl
  | cons raw lines ih =>
    cases raw with
    | nil =>
      have hnil : s.line [] = s := line_of_mark_none (by decide)
      rw [List.filter_cons_of_neg (by simp), ih, scan, scan, List.foldl_cons, hnil]
    | cons c raw =>
      rw [List.filter_cons_of_pos (by simp), scan, List.foldl_cons, ← scan, ih]
      rfl

/-- The lines of a normalised text, as they were written. -/
def normalizedLines (text : List Char) : List (List Char) :=
  stripMachine.runLines .outside (splitInclusive '\n' text)

def stateAfter (text : List Char) : ArmorState :=
  stripMachine.after .outside (splitInclusive '\n' text)

/-- Where the loop over a normalised text is at its end. -/
def scanText (text : List Char) : RegionScan := scan ⟨0, none, []⟩ (normalizedLines text)

theorem findArmorRegions_normalized (text : List Char) :
    findArmorRegions (stripArmorWhitespace text)
      = (scanText text).finish (stripArmorWhitespace text).length := by
  rw [findArmorRegions, stripArmorWhitespace, LineMachine.splitInclusive_run, scan_filter]
  rfl

theorem scanText_offset (text : List Char) :
    (scanText text).offset = (stripArmorWhitespace text).length := by
  rw [scanText, offset_scan, Nat.zero_add]
  rfl

/-- The text so far ends where a line ends. -/
def Aligned (text : List Char) : Prop := text = [] ∨ text.getLast? = some '\n'

theorem normalizedLines_append {front : List Char} (rest : List Char) (h : Aligned front) :
    normalizedLines (front ++ rest)
      = normalizedLines front ++
        stripMachine.runLines (stateAfter front) (splitInclusive '\n' rest) := by
  rw [normalizedLines, splitInclusive_append rest h, LineMachine.runLines_append]
  rfl

/-! ## Intact blocks among others -/

/-- Intact blocks, each after arbitrary text, and arbitrary text after the last one. -/
def concatenation : List (List Char × IntactBlock) → List Char → List Char
  | [], tail => tail
  | (damaged, b) :: blocks, tail => damaged ++ (b.text ++ concatenation blocks tail)

/-- What stands around an intact block leaves it to itself: the block starts and ends on lines of
its own, no block is open where it starts, and the normaliser writes it as it would alone. -/
structure Undisturbed (before : List Char) (b : IntactBlock) (after : List Char) : Prop where
  aligned : Aligned before
  closed : (scanText before).opened = none
  written : stripMachine.runLines (stateAfter before) b.lines = b.written
  ended : b.ended = true ∨ after = []

/-- A normaliser that is outside of armor or among its headers writes a block as it would alone. -/
theorem IntactBlock.written_of_state (b : IntactBlock) {state : ArmorState}
    (h : state = .outside ∨ state = .headers) : stripMachine.runLines state b.lines = b.written := by
  obtain rfl | rfl := h
  · rfl
  · have htrim : trim (b.opening ++ ['\n']) = armorBegin ++ b.kind ++ dashes :=
      (trim_ended (List.forall_mem_singleton.2 rfl)).trans b.opening_eq
    have hsigned : ¬signedBegin <+: trim (b.opening ++ ['\n']) := by
      have hmarker : signedBegin = armorBegin ++ "SIGNED MESSAGE-----".toList := rfl
      rw [htrim, List.append_assoc, hmarker, List.prefix_append_right_inj]
      exact fun h => b.kind_plain (List.IsPrefix.trans (by decide) h)
    have hopens : armorBegin <+: trim (b.opening ++ ['\n']) := by
      rw [htrim, List.append_assoc]
      exact List.prefix_append _ _
    have hne : trim (b.opening ++ ['\n']) ≠ [] := by
      intro hnil
      rw [hnil, List.prefix_nil] at hopens
      exact absurd hopens (by decide)
    have hstep : stripMachine.step .headers (b.opening ++ ['\n'])
        = stripMachine.step .outside (b.opening ++ ['\n']) :=
      (stripLine_headers hne).trans (stripLine_opening hsigned hopens).symm
    rw [written, lines, front, List.map_cons, List.cons_append, LineMachine.runLines_cons, hstep]
    rfl

theorem regionText_append (front block rest : List Char) (cleartext : Bool) :
    regionText (front ++ (block ++ rest)) ⟨front.length, front.length + block.length, cleartext⟩
      = block := by
  rw [regionText, ← List.append_assoc, List.take_left' List.length_append, List.drop_left]

section

variable {before rest : List Char} {b : IntactBlock}

theorem normalizedLines_block (h : Undisturbed before b rest) :
    normalizedLines (before ++ b.text) = normalizedLines before ++ b.written := by
  have hlines : splitInclusive '\n' (b.text ++ []) = _ := b.splitInclusive_text (.inr rfl)
  rw [List.append_nil, splitInclusive, List.append_nil] at hlines
  rw [normalizedLines_append b.text h.aligned, hlines, h.written]

theorem scanText_block (h : Undisturbed before b rest) :
    scanText (before ++ b.text)
      = ⟨(stripArmorWhitespace before).length + b.written.flatten.length, none,
          (scanText before).regions ++ [⟨(stripArmorWhitespace before).length,
            (stripArmorWhitespace before).length + b.region.length, false⟩]⟩ := by
  have hbefore : scanText before
      = ⟨(stripArmorWhitespace before).length, none, (scanText before).regions⟩ := by
    rw [← scanText_offset, ← h.closed]
  have hscan : scanText (before ++ b.text) = (scanText before).scan b.written := by
    rw [scanText, normalizedLines_block h, scan_append]
    rfl
  rw [hscan, hbefore, b.scan_written]

/-- The normalised text holds what the reader gets of the block, where the loop finds it. -/
theorem regionText_block (h : Undisturbed before b rest) :
    regionText (stripArmorWhitespace (before ++ (b.text ++ rest)))
        ⟨(stripArmorWhitespace before).length,
          (stripArmorWhitespace before).length + b.region.length, false⟩
      = b.region := by
  obtain ⟨breaks, hwritten⟩ := b.flatten_written
  have hlines := normalizedLines_append (b.text ++ rest) h.aligned
  rw [b.splitInclusive_text h.ended, LineMachine.runLines_append, h.written] at hlines
  have htext : stripArmorWhitespace (before ++ (b.text ++ rest))
      = (normalizedLines (before ++ (b.text ++ rest))).flatten := rfl
  rw [htext, hlines, List.flatten_append, List.flatten_append, hwritten, List.append_assoc]
  exact regionText_append _ _ _ _

end

theorem regions_append {front : List Char} (rest : List Char) (h : Aligned front) :
    ∃ closed, (scanText (front ++ rest)).regions = (scanText front).regions ++ closed := by
  rw [scanText, normalizedLines_append rest h, scan_append]
  exact scan_regions _ _

theorem finish_of_closed (h : s.opened = none) (length : Nat) : s.finish length = s.regions := by
  rw [finish, h]

theorem concatenation_ne_nil {blocks : List (List Char × IntactBlock)} {tail : List Char}
    (h : concatenation blocks tail = []) : blocks = [] := by
  cases blocks with
  | nil => rfl
  | cons entry blocks =>
    obtain ⟨-, h⟩ := List.append_eq_nil_iff.mp h
    exact absurd (List.append_eq_nil_iff.mp h).1 entry.2.text_ne_nil

/-- The blocks of a text are among the regions found after those of the text before them. -/
theorem blocks_found (blocks : List (List Char × IntactBlock)) (tail front : List Char)
    (hfront : Aligned front)
    (h : ∀ earlier damaged b later, blocks = earlier ++ (damaged, b) :: later →
      Undisturbed (front ++ concatenation earlier damaged) b (concatenation later tail)) :
    ∃ found, findArmorRegions (stripArmorWhitespace (front ++ concatenation blocks tail))
        = (scanText front).regions ++ found ∧
      (blocks.map fun entry => entry.2.region).Sublist
        ((found.filter fun region => !region.cleartext).map
          (regionText (stripArmorWhitespace (front ++ concatenation blocks tail)))) := by
  induction blocks generalizing front with
  | nil =>
    obtain ⟨closed, hclosed⟩ := regions_append tail hfront
    rw [concatenation, findArmorRegions_normalized, finish]
    cases (scanText (front ++ tail)).opened with
    | none => exact ⟨closed, hclosed, List.nil_sublist _⟩
    | some o =>
      refine ⟨closed ++ [⟨o.1, (stripArmorWhitespace (front ++ tail)).length, o.2⟩], ?_,
        List.nil_sublist _⟩
      simp only [hclosed, List.append_assoc]
  | cons entry blocks ih =>
    obtain ⟨damaged, b⟩ := entry
    have hblock : Undisturbed (front ++ damaged) b (concatenation blocks tail) :=
      h [] damaged b blocks rfl
    obtain ⟨closed, hclosed⟩ := regions_append damaged hfront
    have htext : front ++ concatenation ((damaged, b) :: blocks) tail
        = front ++ damaged ++ b.text ++ concatenation blocks tail := by
      rw [concatenation]
      simp only [List.append_assoc]
    -- what follows the block
    have hlater : ∃ found, findArmorRegions (stripArmorWhitespace
          (front ++ damaged ++ b.text ++ concatenation blocks tail))
        = (scanText (front ++ damaged ++ b.text)).regions ++ found ∧
        (blocks.map fun entry => entry.2.region).Sublist
          ((found.filter fun region => !region.cleartext).map (regionText (stripArmorWhitespace
            (front ++ damaged ++ b.text ++ concatenation blocks tail)))) := by
      obtain hended | hnil := hblock.ended
      · refine ih (front ++ damaged ++ b.text) (.inr ?_) fun earlier damaged' b' later heq => ?_
        · rw [IntactBlock.text, IntactBlock.lines, List.flatten_append, IntactBlock.ending, hended]
          simp
        · have hnext := h ((damaged, b) :: earlier) damaged' b' later (by rw [heq]; rfl)
          rw [concatenation, ← List.append_assoc, ← List.append_assoc] at hnext
          exact hnext
      · obtain rfl := concatenation_ne_nil hnil
        refine ⟨[], ?_, List.nil_sublist _⟩
        rw [hnil, List.append_nil, List.append_nil, findArmorRegions_normalized]
        exact finish_of_closed (by rw [scanText_block hblock]) _
    obtain ⟨found, hfound, hsub⟩ := hlater
    have hregion := regionText_block hblock
    rw [← List.append_assoc (front ++ damaged)] at hregion
    rw [scanText_block hblock, hclosed] at hfound
    rw [htext]
    refine ⟨closed ++ _ :: found, by rw [hfound]; simp only [List.append_assoc]; rfl, ?_⟩
    rw [List.filter_append, List.filter_cons_of_pos rfl, List.map_append, List.map_cons,
      List.map_cons, hregion]
    exact (hsub.cons_cons _).trans (List.sublist_append_right _ _)

section

variable {Packet : Type} (packetsIn : List Char → List Packet)

theorem getD_dearmorAll (text : List Char) :
    (dearmorAll packetsIn text).getD []
      = ((findArmorRegions (stripArmorWhitespace text)).filter fun region =>
          !region.cleartext).flatMap fun region =>
            packetsIn (regionText (stripArmorWhitespace text) region) := by
  rw [dearmorAll]
  split
  · next hempty =>
    rw [List.isEmpty_iff.mp hempty]
    rfl
  · rfl

/-- A block alone gives the packets of its text. -/
theorem dearmorAll_alone (b : IntactBlock) :
    dearmorAll packetsIn b.text = some (packetsIn b.region) := by
  have halone : Undisturbed [] b [] := ⟨.inl rfl, rfl, rfl, .inr rfl⟩
  have hscan := scanText_block halone
  have hregion := regionText_block halone
  rw [List.append_nil] at hregion
  have hregions : findArmorRegions (stripArmorWhitespace b.text) = [⟨0, b.region.length, false⟩] := by
    rw [List.nil_append] at hscan
    rw [findArmorRegions_normalized, hscan]
    exact congrArg (fun n => [Region.mk 0 n false]) (Nat.zero_add _)
  have hstart : regionText (stripArmorWhitespace b.text) ⟨0, b.region.length, false⟩ = b.region := by
    rw [← Nat.zero_add b.region.length]
    exact hregion
  rw [dearmorAll]
  simp only [hregions]
  rw [List.filter_cons_of_pos rfl]
  simp only [List.filter_nil, List.isEmpty_cons, Bool.false_eq_true, if_false, List.flatMap_cons,
    hstart, List.flatMap_nil, List.append_nil]

end

/-- The regions of any text are disjoint, in order and within it. Every intact block that what
stands around it leaves to itself gives the packets it gives alone, in order. -/
theorem intact_blocks_dearmored {Packet : Type} (packetsIn : List Char → List Packet)
    (blocks : List (List Char × IntactBlock)) (tail : List Char) :
    (∀ text, RegionsOrdered (findArmorRegions text) text.length) ∧
      ((∀ earlier damaged b later, blocks = earlier ++ (damaged, b) :: later →
        Undisturbed (concatenation earlier damaged) b (concatenation later tail)) →
      (blocks.flatMap fun entry => (dearmorAll packetsIn entry.2.text).getD []).Sublist
        ((dearmorAll packetsIn (concatenation blocks tail)).getD [])) := by
  refine ⟨findArmorRegions_ordered, fun h => ?_⟩
  obtain ⟨found, hfound, hsub⟩ := blocks_found blocks tail [] (.inl rfl) h
  rw [List.nil_append] at hfound hsub
  have hnone : (scanText []).regions = [] := rfl
  rw [hnone, List.nil_append] at hfound
  have halone : (blocks.flatMap fun entry => (dearmorAll packetsIn entry.2.text).getD [])
      = (blocks.map fun entry => entry.2.region).flatMap packetsIn := by
    rw [List.flatMap_map]
    exact List.flatMap_congr fun entry _ => by rw [dearmorAll_alone, Option.getD_some]
  rw [halone, getD_dearmorAll, hfound]
  have hpackets := hsub.flatMap packetsIn
  simpa only [List.flatMap_map] using hpackets

/-! ## Two damaged blocks -/

/-- A block of one Marker packet. -/
def messageBlock : IntactBlock where
  kind := "MESSAGE".toList
  opening := "-----BEGIN PGP MESSAGE-----".toList
  headers := []
  blank := []
  body := ["ygNQR1A=".toList]
  closing := "-----END PGP MESSAGE-----".toList
  ended := true
  kind_plain := by decide
  opening_eq := by decide
  headers_plain := by simp
  blank_eq := by decide
  body_plain := by decide
  closing_eq := by decide
  free := by decide

/-- The Marker packet in the region of that block. No other region of the two texts below
decodes to a packet: a `#` or a dash is no base64. -/
def markerPackets (text : List Char) : List (List UInt8) :=
  if text = messageBlock.region then [[0xCA, 3, 0x50, 0x47, 0x50]] else []

/-- A corrupted body between the two lines of its armor costs the next block nothing. -/
theorem corrupted_block_costs_nothing :
    [[0xCA, 3, 0x50, 0x47, 0x50]].Sublist ((dearmorAll markerPackets (concatenation
      [("-----BEGIN PGP MESSAGE-----\n\n#\n-----END PGP MESSAGE-----\n".toList, messageBlock)]
      [])).getD []) := by
  have hpackets : [[0xCA, 3, 0x50, 0x47, 0x50]] =
      (dearmorAll markerPackets messageBlock.text).getD [] := by decide +kernel
  rw [hpackets]
  refine (intact_blocks_dearmored markerPackets [(_, messageBlock)] []).2
    fun earlier damaged b later h => ?_
  cases earlier with
  | nil =>
    obtain ⟨hentry, rfl⟩ := List.cons.inj h
    obtain ⟨rfl, rfl⟩ := Prod.mk.inj hentry
    exact ⟨.inr (by decide +kernel), by decide +kernel,
      messageBlock.written_of_state (.inl (by decide +kernel)), .inl rfl⟩
  | cons entry earlier => exact absurd (congrArg List.length h) (by simp)

/-- A block that was cut after its headers takes the next one with it: the line that opens the next
one is normalised as a line of the body. -/
theorem truncated_block_costs_next :
    (dearmorAll markerPackets messageBlock.text).getD [] = [[0xCA, 3, 0x50, 0x47, 0x50]] ∧
      ¬([(messageBlock.text.take 29, messageBlock)].flatMap fun entry =>
          (dearmorAll markerPackets entry.2.text).getD []).Sublist
        ((dearmorAll markerPackets
          (concatenation [(messageBlock.text.take 29, messageBlock)] [])).getD []) := by
  decide +kernel

end GpgFrontend.Rpgp
