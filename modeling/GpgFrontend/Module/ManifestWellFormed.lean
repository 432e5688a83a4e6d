import GpgFrontend.Function.ArchiveEntryPaths
import GpgFrontend.Module.ManifestRoundTrip
import GpgFrontend.Module.ModuleDescriptorExact

/-!
# The names in an accepted manifest

The ids of a manifest become keys of registries and prefixes of namespaces. Two checks let
other texts through: `$` of a regular expression allows a line feed behind an id, and an event
id is only compared with itself in upper case.

- `ModuleManifest.WellFormed`: what the reader is there to refuse anything else than.
- `manifest_wellFormed_iff`: **an accepted manifest is well formed exactly if it was read from
  a plain document.**
-/

namespace GpgFrontend

/-! ## Well-formed names -/

/-- `[a-z][a-z0-9_]*`. -/
def IsLabel (label : List Char) : Prop :=
  (∃ c, label.head? = some c ∧ isLowerLetter c) ∧ ∀ c ∈ label, isLowerWord c

/-- Labels with dots between them, and nothing else. -/
def IsDottedId (id : String) : Prop :=
  ∃ labels : List (List Char), 2 ≤ labels.length ∧ (∀ label ∈ labels, IsLabel label) ∧
    id.toList = ['.'].intercalate labels

/-- The owner's id, a dot and a name. -/
def IsCommandOf (owner id : String) : Prop :=
  ∃ name, id.toList = owner.toList ++ '.' :: name ∧ name ≠ [] ∧ ∀ c ∈ name, isLowerWord c

def isUpperLetter (c : Char) : Bool := 'A' ≤ c && c ≤ 'Z'

/-- What comes after the first character of a name. -/
def isNameTail (isLetter : Char → Bool) (c : Char) : Bool :=
  isLetter c || ('0' ≤ c && c ≤ '9') || c = '_'

/-- A letter, and then letters, digits and underscores. -/
def IsNameOf (isLetter : Char → Bool) (s : String) : Prop :=
  (∃ c, s.toList.head? = some c ∧ isLetter c) ∧ ∀ c ∈ s.toList, isNameTail isLetter c

/-- `[A-Z][A-Z0-9_]*`. -/
def IsUpperIdentifier (s : String) : Prop := IsNameOf isUpperLetter s

/-- `[a-z][a-z0-9_]{0,63}`, and not the prefix of a library. -/
def IsLogicalName (s : String) : Prop :=
  IsLabel s.toList ∧ utf16Length s.toList ≤ 64 ∧ ¬"lib".toList <+: s.toList

/-- `ui.custom` extends `ui`, and what needs a widget extends `ui.custom`. -/
def ImpliedPresent (capabilities : List String) : Prop :=
  ("ui.custom" ∈ capabilities → "ui" ∈ capabilities) ∧
    ∀ name ∈ ["html.view", "html.provider", "web.editor", "web.editor.provider"],
      name ∈ capabilities → "ui.custom" ∈ capabilities

structure ModuleManifest.WellFormed (m : ModuleManifest) : Prop where
  id : IsDottedId m.id
  commands : ∀ command ∈ m.commands, IsCommandOf m.id command
  commands_nodup : m.commands.Nodup
  events : ∀ event ∈ m.events, IsUpperIdentifier event
  events_nodup : m.events.Nodup
  known : ∀ name ∈ m.capabilities, moduleCapabilityKindOf name ≠ .unknown
  implied : ImpliedPresent m.capabilities
  entryName : IsLogicalName m.entryNative.name
  knownOs : (moduleEntryVerificationModeFor m.platformOs).knownOs = true
  mode : ∀ verification, m.entryNative.verification = some verification →
    (moduleEntryVerificationModeFor m.platformOs).mode = some verification.mode

/-! ## Loops -/

section Loops

variable {α : Type} {take : List α → JsonValue → Except String α}

variable {items : List JsonValue}

/-- What each turn keeps holds of what a loop has taken. -/
theorem takeEach_induction {I : List α → Prop}
    (hturn : ∀ taken item a, I taken → take taken item = .ok a → I (taken ++ [a]))
    {taken out : List α} (h : takeEach take items taken = .ok out) (hstart : I taken) : I out := by
  induction items generalizing taken with
  | nil =>
    obtain rfl := Except.ok.inj h
    exact hstart
  | cons item rest ih =>
    rw [takeEach, bind_eq_ok] at h
    obtain ⟨a, ha, hrest⟩ := h
    exact ih hrest (hturn taken item a hstart ha)

/-- A loop that takes texts takes those of the array, in their order. -/
theorem takeEach_texts {take : List String → JsonValue → Except String String}
    (htext : ∀ taken item a, take taken item = .ok a → item.toText = some a)
    {taken out : List String} (h : takeEach take items taken = .ok out) :
    out = taken ++ items.filterMap JsonValue.toText := by
  induction items generalizing taken with
  | nil =>
    obtain rfl := Except.ok.inj h
    exact (List.append_nil _).symm
  | cons item rest ih =>
    rw [takeEach, bind_eq_ok] at h
    obtain ⟨a, ha, hrest⟩ := h
    rw [ih hrest, List.filterMap_cons_some (htext taken item a ha), List.append_assoc]
    rfl

/-- Names that are each checked, and each of which is new. -/
theorem takeEach_names {take : List String → JsonValue → Except String String} {P : String → Prop}
    (hname : ∀ taken item a, take taken item = .ok a → P a ∧ a ∉ taken) {out : List String}
    (h : takeEach take items [] = .ok out) : (∀ a ∈ out, P a) ∧ out.Nodup := by
  refine takeEach_induction (I := fun names => (∀ a ∈ names, P a) ∧ names.Nodup) ?_ h
    ⟨List.forall_mem_nil _, List.nodup_nil⟩
  rintro taken item a ⟨hall, hnodup⟩ ha
  obtain ⟨hP, hnew⟩ := hname taken item a ha
  refine ⟨fun b hb => ?_, List.nodup_append.2 ⟨hnodup, List.nodup_singleton a, ?_⟩⟩
  · obtain hb | hb := List.mem_append.1 hb
    · exact hall b hb
    · exact List.mem_singleton.1 hb ▸ hP
  · rintro b hb c hc rfl
    exact hnew (List.mem_singleton.1 hc ▸ hb)

end Loops

theorem takeItem_ok {list text : String} {item : JsonValue} (h : takeItem list item = .ok text) :
    item.toText = some text := by
  unfold takeItem at h
  split at h
  · cases h
  · next htext => rw [htext, Except.ok.inj h]

/-- The texts of an array of the document. -/
def textsAt (root : JsonObject) (key : String) : List String :=
  match root.value key with
  | some (.array items) => items.filterMap JsonValue.toText
  | _ => []

theorem textsAt_takeArray {root : JsonObject} {key : String} {items : List JsonValue}
    (h : takeArray root key = .ok items) : textsAt root key = items.filterMap JsonValue.toText := by
  unfold takeArray at h
  split at h
  · cases h
  · next heq => rw [textsAt, heq, Except.ok.inj h]
  · cases h

/-! ## Line feeds -/

/-- The text ends in the line feed that `$` lets pass. -/
def EndsInLineFeed (s : List Char) : Prop := s.getLast? = some '\n'

instance (s : List Char) : Decidable (EndsInLineFeed s) := inferInstanceAs (Decidable (_ = _))

theorem dropLineFeed_eq {s : List Char} (h : ¬EndsInLineFeed s) : dropLineFeed s = s := if_neg h

theorem isLowerWord_lineFeed : isLowerWord '\n' = false := by decide

/-- A part of word characters does not end in a line feed. -/
theorem not_endsInLineFeed {s : List Char} (h : ∀ c ∈ s, isLowerWord c = true ∨ c = '.') :
    ¬EndsInLineFeed s := by
  intro hend
  obtain hword | hdot := h '\n' (List.mem_of_mem_getLast? hend)
  · exact absurd hword (by rw [isLowerWord_lineFeed]; exact Bool.false_ne_true)
  · exact absurd hdot (by decide)

theorem isLabel_of_all {label : List Char}
    (h : (label.head?.any isLowerLetter && label.all isLowerWord) = true) : IsLabel label := by
  rw [Bool.and_eq_true, Option.any_eq_true, List.all_eq_true] at h
  exact h

/-- **An accepted id is dotted labels exactly if it does not end in a line feed.** -/
theorem isDottedId_iff {id : String} (h : isValidModuleId id = true) :
    IsDottedId id ↔ ¬EndsInLineFeed id.toList := by
  constructor
  · rintro ⟨labels, -, hlabels, hid⟩
    refine not_endsInLineFeed fun c hc => ?_
    rw [hid] at hc
    obtain hdot | ⟨label, hlabel, hc⟩ := mem_of_mem_intercalate hc
    · exact .inr (List.mem_singleton.1 hdot)
    · exact .inl ((hlabels label hlabel).2 c hc)
  · intro hplain
    rw [isValidModuleId, dropLineFeed_eq hplain, Bool.and_eq_true, Bool.and_eq_true,
      decide_eq_true_eq, decide_eq_true_eq, List.all_eq_true] at h
    obtain ⟨⟨-, hcount⟩, hparts⟩ := h
    refine ⟨dottedParts id.toList, hcount, fun label hlabel => isLabel_of_all (hparts label hlabel),
      ?_⟩
    rw [dottedParts, ← List.splitOn_eq_splitOnP, List.intercalate_splitOn]

/-- **So is an accepted command.** -/
theorem isCommandOf_iff {owner id : String} (h : isOwnedName owner id = true) :
    IsCommandOf owner id ↔ ¬EndsInLineFeed id.toList := by
  simp only [isOwnedName, Bool.and_eq_true, List.isPrefixOf_iff_prefix, List.all_eq_true,
    Bool.not_eq_true', List.isEmpty_eq_false_iff] at h
  obtain ⟨⟨⟨-, rest, hid⟩, hne⟩, hword⟩ := h
  have hrest : id.toList.drop (owner.toList ++ ['.']).length = rest := by
    rw [← hid, List.drop_left]
  rw [hrest] at hne hword
  have hlast : EndsInLineFeed id.toList ↔ EndsInLineFeed rest := by
    have hrest_ne : rest ≠ [] := by
      rintro rfl
      exact hne rfl
    rw [EndsInLineFeed, EndsInLineFeed, ← hid, List.getLast?_append_of_ne_nil _ hrest_ne]
  rw [hlast]
  constructor
  · rintro ⟨name, hname, -, hall⟩
    rw [← hid, List.append_assoc] at hname
    obtain rfl : rest = name := (List.cons.inj (List.append_cancel_left hname)).2
    exact not_endsInLineFeed fun c hc => .inl (hall c hc)
  · intro hplain
    rw [dropLineFeed_eq hplain] at hne hword
    exact ⟨rest, by rw [← hid, List.append_assoc]; rfl, hne, hword⟩

/-! ## Upper case -/

def isLetter (c : Char) : Bool := isUpperLetter c || isLowerLetter c

/-- An ASCII text is put in upper case letter by letter. -/
def UpperCasesAscii (strings : QtStrings) : Prop :=
  ∀ s : String, (∀ c ∈ s.toList, c.val < 128) →
    strings.toUpper s = String.ofList (s.toList.map Char.toUpper)

theorem isNameTail_ascii {c : Char} (h : isNameTail isLetter c = true) : c.val < 128 := by
  simp only [isNameTail, isLetter, isUpperLetter, isLowerLetter, Bool.or_eq_true, Bool.and_eq_true,
    decide_eq_true_eq, Char.le_def, UInt32.le_iff_toNat_le] at h
  rw [UInt32.lt_iff_toNat_lt]
  obtain ((h | h) | h) | rfl := h
  · exact lt_of_le_of_lt h.2 (by decide)
  · exact lt_of_le_of_lt h.2 (by decide)
  · exact lt_of_le_of_lt h.2 (by decide)
  · decide

theorem toUpper_ne {c : Char} (h : isLowerLetter c = true) : c.toUpper ≠ c := by
  simp only [isLowerLetter, Bool.and_eq_true, decide_eq_true_eq, Char.le_def] at h
  have hupper : c.toUpper = _ := dif_pos h
  rw [hupper]
  intro heq
  have hval := congrArg (fun d : Char => d.val.toNat) heq
  have hlow := UInt32.le_iff_toNat_le.1 h.1
  have hhigh := UInt32.le_iff_toNat_le.1 h.2
  simp at hval hlow hhigh
  omega

/-- **An event that is its own upper case is an identifier exactly if it is a name.** -/
theorem isUpperIdentifier_iff {strings : QtStrings} (hupper : UpperCasesAscii strings) {id : String}
    (h : id = strings.toUpper id) : IsUpperIdentifier id ↔ IsNameOf isLetter id := by
  constructor
  · rintro ⟨⟨c, hc, hletter⟩, htail⟩
    refine ⟨⟨c, hc, by rw [isLetter, hletter, Bool.true_or]⟩, fun d hd => ?_⟩
    have hd' := htail d hd
    rw [isNameTail, Bool.or_assoc, Bool.or_eq_true] at hd' ⊢
    exact hd'.imp_left fun hletter => by rw [isLetter, hletter, Bool.true_or]
  · rintro ⟨⟨c, hc, hletter⟩, htail⟩
    rw [hupper id fun d hd => isNameTail_ascii (htail d hd)] at h
    have hmap : id.toList = id.toList.map Char.toUpper := by
      conv_lhs => rw [h, String.toList_ofList]
    have hlower : ∀ d ∈ id.toList, isLowerLetter d = false := by
      intro d hd
      have hfixed : d.toUpper = d := map_eq_self_iff.1 hmap.symm d hd
      by_contra hne
      exact toUpper_ne (Bool.not_eq_false _ ▸ hne) hfixed
    have hcase : ∀ d ∈ id.toList, isLetter d = isUpperLetter d := by
      intro d hd
      rw [isLetter, hlower d hd, Bool.or_false]
    refine ⟨⟨c, hc, hcase c (List.mem_of_mem_head? hc) ▸ hletter⟩, fun d hd => ?_⟩
    have hd' := htail d hd
    rw [isNameTail, hcase d hd] at hd'
    exact hd'

/-! ## Sections -/

section Sections

variable {strings : QtStrings} {root : JsonObject} {m : ModuleManifest}

theorem takeString_value {key text : String} (h : takeString root key = .ok text) :
    root.value key = some (.string text) := by
  unfold takeString at h
  split at h
  · cases h
  next v hv =>
  split at h
  · cases h
  next found hfound =>
  split at h
  · cases h
  obtain rfl := Except.ok.inj h
  cases v with
  | string s => rw [hv, ← Option.some.inj hfound]
  | _ => cases hfound

theorem takeManifest_id {schemaVersion : Int} (h : takeManifest strings root schemaVersion = .ok m) :
    isValidModuleId m.id = true := by
  unfold takeManifest at h
  simp only [bind_eq_ok, require_eq_ok, pure_eq_ok] at h
  obtain ⟨id, -, -, hid, h⟩ := h
  obtain ⟨_, -, _, -, _, -, _, -, -, -, _, -, _, -, _, -, _, -, _, -, _, -, _, -, _, -, _, -, _, -,
    _, -, _, -, _, -, _, -, _, -, rfl⟩ := h
  exact hid

theorem takeCapabilities_ok {capabilities : List String}
    (h : takeCapabilities root = .ok capabilities) :
    (∀ name ∈ capabilities, moduleCapabilityKindOf name ≠ .unknown) ∧
      ImpliedPresent capabilities := by
  unfold takeCapabilities requireWith at h
  simp only [bind_eq_ok, require_eq_ok, pure_eq_ok, List.contains_iff_mem] at h
  obtain ⟨items, -, names, hnames, -, hcustom, -, hview, -, hprovider, -, heditor, -, hweb, rfl⟩ := h
  refine ⟨takeEach_induction (I := fun names => ∀ name ∈ names,
    moduleCapabilityKindOf name ≠ .unknown) ?_ hnames (List.forall_mem_nil _), hcustom, ?_⟩
  · intro taken item a hall ha name hname
    simp only [takeCapability, bind_eq_ok, require_eq_ok, pure_eq_ok] at ha
    obtain ⟨a, -, -, hknown, rfl⟩ := ha
    obtain hmem | hmem := List.mem_append.1 hname
    · exact hall name hmem
    · exact List.mem_singleton.1 hmem ▸ hknown
  · simp only [List.forall_mem_cons]
    exact ⟨hview, hprovider, heditor, hweb, List.forall_mem_nil _⟩

/-- The texts of `events`: each its own upper case, and no two alike. -/
theorem takeEvents_ok {events : List String} (h : takeEvents strings root = .ok events) :
    events = textsAt root "events" ∧ (∀ event ∈ events, event = strings.toUpper event) ∧
      events.Nodup := by
  simp only [takeEvents, bind_eq_ok] at h
  obtain ⟨items, hitems, heach⟩ := h
  have hevent : ∀ taken item a, takeEvent strings taken item = .ok a →
      item.toText = some a ∧ a = strings.toUpper a ∧ a ∉ taken := by
    intro taken item a ha
    simp only [takeEvent, bind_eq_ok, require_eq_ok, pure_eq_ok] at ha
    obtain ⟨a, hitem, -, -, -, hupper, -, hnew, rfl⟩ := ha
    exact ⟨takeItem_ok hitem, hupper, hnew⟩
  refine ⟨?_, takeEach_names (fun taken item a ha => (hevent taken item a ha).2) heach⟩
  rw [textsAt_takeArray hitems]
  exact takeEach_texts (fun taken item a ha => (hevent taken item a ha).1) heach

/-- The texts of `commands`: each a name of the module's, and no two alike. -/
theorem takeCommands_ok {moduleId : String} {commands : List String}
    (h : takeCommands moduleId root = .ok commands) :
    commands = textsAt root "commands" ∧
      (∀ command ∈ commands, isOwnedName moduleId command = true) ∧ commands.Nodup := by
  unfold takeCommands at h
  split at h
  · next hnone =>
    obtain rfl := Except.ok.inj h
    refine ⟨?_, List.forall_mem_nil _, List.nodup_nil⟩
    rw [textsAt, hnone]
  · simp only [bind_eq_ok] at h
    obtain ⟨items, hitems, heach⟩ := h
    have hcommand : ∀ taken item a, takeCommand moduleId taken item = .ok a →
        item.toText = some a ∧ isOwnedName moduleId a = true ∧ a ∉ taken := by
      intro taken item a ha
      simp only [takeCommand, bind_eq_ok, require_eq_ok, pure_eq_ok] at ha
      obtain ⟨a, hitem, -, -, -, howned, -, hnew, rfl⟩ := ha
      exact ⟨takeItem_ok hitem, howned, hnew⟩
    refine ⟨?_, takeEach_names (fun taken item a ha => (hcommand taken item a ha).2) heach⟩
    rw [textsAt_takeArray hitems]
    exact takeEach_texts (fun taken item a ha => (hcommand taken item a ha).1) heach

theorem isLogicalName_of_check {name : String} (h : isLogicalNativeName name = true) :
    IsLogicalName name := by
  simp only [isLogicalNativeName, Bool.and_eq_true, Option.any_eq_true, decide_eq_true_eq,
    List.all_eq_true, Bool.not_eq_true', ← Bool.not_eq_true, List.isPrefixOf_iff_prefix] at h
  obtain ⟨⟨⟨hhead, hlength⟩, hall⟩, hlib⟩ := h
  exact ⟨⟨hhead, hall⟩, hlength, hlib⟩

theorem takeEntryNative_ok {platformOs : String} {entryNative : ModuleEntryNative}
    (h : takeEntryNative root platformOs = .ok entryNative) :
    IsLogicalName entryNative.name ∧
      (moduleEntryVerificationModeFor platformOs).knownOs = true ∧
      ∀ verification, entryNative.verification = some verification →
        (moduleEntryVerificationModeFor platformOs).mode = some verification.mode := by
  simp only [takeEntryNative, bind_eq_ok, require_eq_ok, pure_eq_ok] at h
  obtain ⟨entry, -, name, -, -, hname, -, hos, verification, hverification, rfl⟩ := h
  refine ⟨isLogicalName_of_check hname, hos, ?_⟩
  rintro given rfl
  unfold takeEntryVerification at hverification
  split at hverification
  · simp only [bind_eq_ok, pure_eq_ok] at hverification
    obtain ⟨-, -, hnone⟩ := hverification
    cases hnone
  · next object _ =>
    cases hmode : (moduleEntryVerificationModeFor platformOs).mode with
    | none =>
      rw [hmode] at hverification
      cases hverification
    | some mode =>
      rw [hmode] at hverification
      dsimp only at hverification
      cases htake : takeVerification mode platformOs entry object with
      | error why =>
        rw [htake] at hverification
        cases hverification
      | ok taken =>
        rw [htake] at hverification
        obtain rfl := Option.some.inj (Except.ok.inj hverification)
        simp only [takeVerification, bind_eq_ok, pure_eq_ok] at htake
        obtain ⟨_, -, _, -, -, -, -, -, _, -, rfl⟩ := htake
        rfl
  · cases hverification

end Sections

/-! ## Accepted manifests -/

/-- No id ends in a line feed, and event ids are names of ASCII. -/
structure PlainDocument (root : JsonObject) : Prop where
  id : ∀ id, root.value "id" = some (.string id) → ¬EndsInLineFeed id.toList
  commands : ∀ command ∈ textsAt root "commands", ¬EndsInLineFeed command.toList
  events : ∀ event ∈ textsAt root "events", IsNameOf isLetter event

theorem takeManifest_of_parse {strings : QtStrings} {fromJson : Bytes → Except String JsonValue}
    {bytes : Bytes} {root : JsonObject} {m : ModuleManifest}
    (hjson : fromJson bytes = .ok (.object root))
    (h : parseModuleManifest strings fromJson bytes = .ok m) :
    ∃ schemaVersion, takeManifest strings root schemaVersion = .ok m := by
  rw [parseModuleManifest, hjson] at h
  simp only [readModuleManifest] at h
  split at h
  · cases h
  next schemaVersion _ =>
  split at h
  · cases h
  split at h
  · cases h
  refine ⟨schemaVersion, ?_⟩
  cases htake : takeManifest strings root schemaVersion with
  | error why =>
    rw [htake] at h
    cases h
  | ok taken =>
    rw [htake] at h
    rw [Except.ok.inj h]

/-- **An accepted manifest is well formed exactly if its document is plain.** -/
theorem manifest_wellFormed_iff {strings : QtStrings} (hupper : UpperCasesAscii strings)
    {fromJson : Bytes → Except String JsonValue} {bytes : Bytes} {root : JsonObject}
    {m : ModuleManifest} (hjson : fromJson bytes = .ok (.object root))
    (h : parseModuleManifest strings fromJson bytes = .ok m) :
    m.WellFormed ↔ PlainDocument root := by
  obtain ⟨schemaVersion, htake⟩ := takeManifest_of_parse hjson h
  have hvalid := takeManifest_id htake
  obtain ⟨root', hroot', hof⟩ := parseModuleManifest_ok h
  obtain rfl : root' = root := JsonValue.object.inj (Except.ok.inj (hroot'.symm.trans hjson))
  obtain ⟨hknown, himplied⟩ := takeCapabilities_ok hof.capabilities
  obtain ⟨hevents, hupper_case, hevents_nodup⟩ := takeEvents_ok hof.events
  obtain ⟨hcommands, howned, hcommands_nodup⟩ := takeCommands_ok hof.commands
  obtain ⟨hname, hos, hmode⟩ := takeEntryNative_ok hof.entryNative
  have hid : JsonObject.value root' "id" = some (.string m.id) := takeString_value hof.id
  constructor
  · intro hm
    refine ⟨fun id hat => ?_, ?_, ?_⟩
    · obtain rfl := JsonValue.string.inj (Option.some.inj (hat.symm.trans hid))
      exact (isDottedId_iff hvalid).1 hm.id
    · rw [← hcommands]
      exact fun command hmem => (isCommandOf_iff (howned command hmem)).1 (hm.commands command hmem)
    · rw [← hevents]
      exact fun event hmem =>
        (isUpperIdentifier_iff hupper (hupper_case event hmem)).1 (hm.events event hmem)
  · rintro ⟨hplain_id, hplain_commands, hplain_events⟩
    rw [← hcommands] at hplain_commands
    rw [← hevents] at hplain_events
    exact {
      id := (isDottedId_iff hvalid).2 (hplain_id m.id hid)
      commands := fun command hmem =>
        (isCommandOf_iff (howned command hmem)).2 (hplain_commands command hmem)
      commands_nodup := hcommands_nodup
      events := fun event hmem =>
        (isUpperIdentifier_iff hupper (hupper_case event hmem)).2 (hplain_events event hmem)
      events_nodup := hevents_nodup
      known := hknown
      implied := himplied
      entryName := hname
      knownOs := hos
      mode := hmode }

/-! ## Manifests with names -/

/-- The sample manifest under an id, with a command and an event. -/
def namedDocument (id command event : String) : JsonObject :=
  ((sampleRoot.put "id" (.string id)).put "commands" (.array [.string command])).put "events"
    (.array [.string event])

/-- The reader of one document. -/
def readsOnly (root : JsonObject) (bytes : Bytes) : Except String JsonValue :=
  if bytes = [3] then .ok (.object root) else .error "illegal value"

theorem upperCasesAscii_plainStrings : UpperCasesAscii plainStrings := fun _ _ => rfl

/-- The names of an accepted document, where it is accepted. -/
def acceptedNames (root : JsonObject) : Option (String × List String × List String) :=
  (parseModuleManifest plainStrings (readsOnly root) [3]).toOption.map fun m =>
    (m.id, m.commands, m.events)

theorem acceptedNames_some {root : JsonObject} {names : String × List String × List String}
    (h : acceptedNames root = some names) :
    ∃ m, parseModuleManifest plainStrings (readsOnly root) [3] = .ok m ∧
      (m.id, m.commands, m.events) = names := by
  unfold acceptedNames at h
  cases hparse : parseModuleManifest plainStrings (readsOnly root) [3] with
  | error why =>
    rw [hparse] at h
    cases h
  | ok m =>
    rw [hparse] at h
    exact ⟨m, rfl, Option.some.inj h⟩

/-- An accepted manifest with names of every kind is well formed. -/
theorem manifest_wellFormed_sample :
    ∃ m, parseModuleManifest plainStrings
        (readsOnly (namedDocument "org.sample" "org.sample.run" "KEY_ADDED")) [3] = .ok m ∧
      m.WellFormed := by
  obtain ⟨m, hparse, -⟩ := acceptedNames_some (by decide +kernel :
    acceptedNames (namedDocument "org.sample" "org.sample.run" "KEY_ADDED")
      = some ("org.sample", ["org.sample.run"], ["KEY_ADDED"]))
  refine ⟨m, hparse, (manifest_wellFormed_iff upperCasesAscii_plainStrings rfl hparse).2 ?_⟩
  refine ⟨fun id hid => ?_, ?_, ?_⟩
  · obtain rfl : "org.sample" = id := JsonValue.string.inj (Option.some.inj hid)
    exact fun hend => absurd hend (by decide)
  · rintro command (_ | ⟨_, ⟨⟩⟩)
    exact fun hend => absurd hend (by decide)
  · rintro event (_ | ⟨_, ⟨⟩⟩)
    exact ⟨⟨'K', rfl, rfl⟩, List.all_eq_true.1 rfl⟩

/-- The id of the manifest ends in a line feed. -/
theorem line_feed_in_module_id :
    ¬∀ (strings : QtStrings) (fromJson : Bytes → Except String JsonValue) (bytes : Bytes)
        (m : ModuleManifest), UpperCasesAscii strings →
      parseModuleManifest strings fromJson bytes = .ok m → m.WellFormed := by
  intro h
  let root : JsonObject := sampleRoot.put "id" (.string "org.sample\n")
  obtain ⟨m, hparse, hnames⟩ := acceptedNames_some (by decide +kernel :
    acceptedNames root = some ("org.sample\n", [], []))
  have hm := h plainStrings (readsOnly root) [3] m upperCasesAscii_plainStrings hparse
  obtain ⟨schemaVersion, htake⟩ := takeManifest_of_parse rfl hparse
  have hplain := (isDottedId_iff (takeManifest_id htake)).1 hm.id
  rw [(Prod.mk.inj hnames).1] at hplain
  exact hplain (by decide)

end GpgFrontend
