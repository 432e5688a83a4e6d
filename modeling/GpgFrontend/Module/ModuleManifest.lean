import GpgFrontend.Base.Json
import GpgFrontend.Base.Results
import GpgFrontend.Function.ArchiveFileOperator

/-!
# The manifest of a module (`ModuleManifest.cpp`)

What a `*.gfmodule` says about itself, read strictly: a field that is missing, of another
type or out of its vocabulary refuses the whole manifest, with a reason that names it.

- `parseModuleManifest`; `ManifestOf`: **what every field of an accepted manifest is read
  from** (`parseModuleManifest_ok`).
-/

namespace GpgFrontend

/-! ## The manifest -/

/-- `ModuleManifestStatus`. -/
inductive ModuleManifestStatus where
  | ok | malformed | tooNew
  deriving Repr, DecidableEq

/-- `ModuleManifestResource`. -/
structure ModuleManifestResource where
  path : String
  sha256 : String
  deriving Repr, DecidableEq

/-- `ModuleEntryVerificationMode`. -/
inductive ModuleEntryVerificationMode where
  | fileSha256 | peAuthenticodeSha256
  deriving Repr, DecidableEq

/-- `ModuleEntryVerification`: a negative size is none. -/
structure ModuleEntryVerification where
  mode : ModuleEntryVerificationMode := .fileSha256
  value : String
  size : Int := -1
  deriving Repr, DecidableEq

/-- `ModuleEntryNative`. -/
structure ModuleEntryNative where
  name : String
  verification : Option ModuleEntryVerification
  deriving Repr, DecidableEq

/-- `ModuleManifest`. -/
structure ModuleManifest where
  schemaVersion : Int
  id : String
  version : String
  sdkAbi : Int
  minHostVersion : String
  securityEpoch : Int
  capabilities : List String
  events : List String
  commands : List String
  translationContext : String
  metadata : QMap String
  buildId : String
  buildTimestamp : String
  buildSourceCommit : String
  platformOs : String
  platformArch : String
  platformQt : String
  entryNative : ModuleEntryNative
  resources : List ModuleManifestResource
  deriving DecidableEq

/-- `kModuleManifestSchemaVersion`. -/
def moduleManifestSchemaVersion : Int := 3

/-- `kModuleManifestMinSupportedSchema`. -/
def moduleManifestMinSupportedSchema : Int := 3

/-- What `QString` does that needs the Unicode tables. -/
structure QtStrings where
  toUpper : String → String
  toLower : String → String
  trimmed : String → String

/-! ## Names and vocabularies -/

/-- `a-z`. -/
def isLowerLetter (c : Char) : Bool := 'a' ≤ c && c ≤ 'z'

/-- `a-z0-9_`. -/
def isLowerWord (c : Char) : Bool := isLowerLetter c || ('0' ≤ c && c ≤ '9') || c = '_'

/-- What `$` of a regular expression lets stand behind the match: one line feed. -/
def dropLineFeed (s : List Char) : List Char := if s.getLast? = some '\n' then s.dropLast else s

/-- The parts between the dots. -/
def dottedParts (s : List Char) : List (List Char) := s.splitOnP (· == '.')

/-- `IsValidModuleId`. -/
def isValidModuleId (moduleId : String) : Bool :=
  let parts := dottedParts (dropLineFeed moduleId.toList)
  utf16Length moduleId.toList ≤ 200 && 2 ≤ parts.length &&
    parts.all fun part => part.head?.any isLowerLetter && part.all isLowerWord

/-- `IsOwnedName`. -/
def isOwnedName (owner id : String) : Bool :=
  let lead := owner.toList ++ ['.']
  let name := dropLineFeed (id.toList.drop lead.length)
  owner ≠ "" && lead.isPrefixOf id.toList && !name.isEmpty && name.all isLowerWord

/-- The shape of a command id. -/
def isCommandShape (id : String) : Bool :=
  (dottedParts (dropLineFeed id.toList)).all fun part => !part.isEmpty && part.all isLowerWord

/-- `IsLogicalNativeName`. -/
def isLogicalNativeName (s : String) : Bool :=
  s.toList.head?.any isLowerLetter && utf16Length s.toList ≤ 64 && s.toList.all isLowerWord &&
    !"lib".toList.isPrefixOf s.toList

/-- `IsModuleHexDigest`. -/
def isModuleHexDigest (s : String) : Bool :=
  utf16Length s.toList = 64 &&
    s.toList.all fun c => ('0' ≤ c && c ≤ '9') || ('a' ≤ c && c ≤ 'f')

/-- `ModuleCapabilityKind`. -/
inductive ModuleCapabilityKind where
  | enforceable | advisory | unknown
  deriving Repr, DecidableEq

/-- `Vocabulary`. -/
def capabilityVocabulary : List (String × ModuleCapabilityKind) :=
  [("gpg", .enforceable), ("pgp", .enforceable), ("ui", .enforceable), ("editor", .enforceable),
    ("storage", .enforceable), ("process", .enforceable), ("ui.custom", .enforceable),
    ("html.view", .enforceable), ("html.provider", .enforceable), ("web.editor", .enforceable),
    ("web.editor.provider", .enforceable), ("network", .advisory)]

/-- `ModuleCapabilityKindOf`. -/
def moduleCapabilityKindOf (name : String) : ModuleCapabilityKind :=
  (capabilityVocabulary.lookup name).getD .unknown

/-- `NamesOfKind`. -/
def capabilityNamesOfKind (kind : ModuleCapabilityKind) : List String :=
  ((capabilityVocabulary.filter fun entry => entry.2 = kind).map Prod.fst).mergeSort fun a b => a ≤ b

/-- `ModuleEntryVerificationModeKey`. -/
def moduleEntryVerificationModeKey : ModuleEntryVerificationMode → String
  | .fileSha256 => "file-sha256"
  | .peAuthenticodeSha256 => "pe-authenticode-sha256"

/-- `ModuleEntryVerificationModeRule`. -/
structure ModuleEntryVerificationModeRule where
  knownOs : Bool
  mode : Option ModuleEntryVerificationMode
  deriving Repr, DecidableEq

/-- `ModuleEntryVerificationModeFor`: a known system may have no mode at all. -/
def moduleEntryVerificationModeFor (platformOs : String) : ModuleEntryVerificationModeRule :=
  if platformOs = "linux" then ⟨true, some .fileSha256⟩
  else if platformOs = "windows" then ⟨true, some .peAuthenticodeSha256⟩
  else if platformOs = "macos" then ⟨true, none⟩
  else ⟨false, none⟩

/-- `NormalizeManifestArch`. -/
def normalizeManifestArch (strings : QtStrings) (arch : String) : String :=
  let lower := strings.toLower (strings.trimmed arch)
  if ["aarch64", "arm64", "aarch64_be", "armv8", "armv8-a"].contains lower then "arm64"
  else if ["x86_64", "amd64", "x64"].contains lower then "x86_64"
  else if ["i386", "i486", "i586", "i686", "x86"].contains lower then "i386"
  else lower

/-! ## Fields -/

/-- `"key"`, in quotes. -/
def quoted (text : String) : String := "\"" ++ text ++ "\""

/-- `TakeString`. -/
def takeString (o : JsonObject) (key : String) : Except String String :=
  match o.value key with
  | none => .error (quoted key ++ " is missing")
  | some v =>
    match v.toText with
    | none => .error (quoted key ++ " is not a string")
    | some text => if text = "" then .error (quoted key ++ " is empty") else .ok text

/-- `TakeInt`. -/
def takeInt (o : JsonObject) (key : String) : Except String Int :=
  match o.value key with
  | none => .error (quoted key ++ " is missing")
  | some v =>
    match v.toDouble with
    | none => .error (quoted key ++ " is not a number")
    | some _ =>
      match v.toInt with
      | none => .error (quoted key ++ " is not a whole number")
      | some n => .ok n

/-- `TakeObject`. -/
def takeObject (o : JsonObject) (key : String) : Except String JsonObject :=
  match o.value key with
  | none => .error (quoted key ++ " is missing")
  | some (.object members) => .ok members
  | some _ => .error (quoted key ++ " is not an object")

/-- A required array. -/
def takeArray (o : JsonObject) (key : String) : Except String (List JsonValue) :=
  match o.value key with
  | none => .error (quoted key ++ " is missing")
  | some (.array items) => .ok items
  | some _ => .error (quoted key ++ " is not an array")

/-- A check that must hold. -/
def require {ε : Type} (c : Prop) [Decidable c] (why : ε) : Except ε Unit :=
  if c then .ok () else .error why

/-- An error in a part of the document. -/
def within {α : Type} (part : String) (taken : Except String α) : Except String α :=
  taken.mapError (part ++ ·)

/-- A loop over an array: each item is read with what was read before it. -/
def takeEach {α : Type} (take : List α → JsonValue → Except String α) :
    List JsonValue → List α → Except String (List α)
  | [], taken => .ok taken
  | item :: rest, taken => do
    let next ← take taken item
    takeEach take rest (taken ++ [next])

/-- An item of a list of texts. -/
def takeItem (list : String) (item : JsonValue) : Except String String :=
  match item.toText with
  | none => .error ("a value in " ++ quoted list ++ " is not a string")
  | some text => .ok text

/-! ## Sections -/

/-- One of `capabilities`. -/
def takeCapability (_ : List String) (item : JsonValue) : Except String String := do
  let name ← takeItem "capabilities" item
  require (moduleCapabilityKindOf name ≠ .unknown)
    (quoted "capabilities" ++ " names " ++ quoted name ++
      ", which this host does not know; it grants " ++
      ", ".intercalate (capabilityNamesOfKind .enforceable) ++ " and records " ++
      ", ".intercalate (capabilityNamesOfKind .advisory))
  return name

/-- One capability that is declared with another. -/
def requireWith (capabilities : List String) (name needed : String) : Except String Unit :=
  require (capabilities.contains name = true → capabilities.contains needed = true)
    (quoted "capabilities" ++ " names " ++ quoted name ++ " without " ++ quoted needed)

/-- The section `capabilities`. -/
def takeCapabilities (root : JsonObject) : Except String (List String) := do
  let items ← takeArray root "capabilities"
  let capabilities ← takeEach takeCapability items []
  requireWith capabilities "ui.custom" "ui"
  requireWith capabilities "html.view" "ui.custom"
  requireWith capabilities "html.provider" "ui.custom"
  requireWith capabilities "web.editor" "ui.custom"
  requireWith capabilities "web.editor.provider" "ui.custom"
  return capabilities

/-- One of `events`. -/
def takeEvent (strings : QtStrings) (events : List String) (item : JsonValue) :
    Except String String := do
  let id ← takeItem "events" item
  require (id ≠ "") "an event id is empty"
  require (id = strings.toUpper id) ("event id " ++ quoted id ++ " is not upper-case")
  require (id ∉ events) ("event id " ++ quoted id ++ " is declared twice")
  return id

/-- The section `events`. -/
def takeEvents (strings : QtStrings) (root : JsonObject) : Except String (List String) := do
  let items ← takeArray root "events"
  takeEach (takeEvent strings) items []

/-- One of `commands`. -/
def takeCommand (moduleId : String) (commands : List String) (item : JsonValue) :
    Except String String := do
  let id ← takeItem "commands" item
  require (isCommandShape id = true) ("command id " ++ quoted id ++ " is not lower-case dotted")
  require (isOwnedName moduleId id = true)
    ("command id " ++ quoted id ++ " is not the module's id followed by one lower-case name")
  require (id ∉ commands) ("command id " ++ quoted id ++ " is declared twice")
  return id

/-- The section `commands`, which may be absent. -/
def takeCommands (moduleId : String) (root : JsonObject) : Except String (List String) :=
  match root.value "commands" with
  | none => .ok []
  | some _ => do
    let items ← takeArray root "commands"
    takeEach (takeCommand moduleId) items []

/-- The members of `metadata`, all of them texts. -/
def takeMetadataFrom : JsonObject → QMap String → Except String (QMap String)
  | [], metadata => .ok metadata
  | (key, v) :: rest, metadata =>
    match v.toText with
    | none => .error (quoted ("metadata." ++ key) ++ " is not a string")
    | some text => takeMetadataFrom rest (metadata.insert key text)

/-- The section `metadata`. -/
def takeMetadata (root : JsonObject) : Except String (QMap String) := do
  let members ← takeObject root "metadata"
  takeMetadataFrom members .empty

/-- `entry_native.size`: for a digest of the whole file only. -/
def takeEntrySize (mode : ModuleEntryVerificationMode) (platformOs : String) (entry : JsonObject) :
    Except String Int :=
  match entry.value "size" with
  | none => .ok (-1)
  | some v =>
    if mode ≠ .fileSha256 then
      .error ("entry_native.size is only meaningful with " ++
        quoted (moduleEntryVerificationModeKey .fileSha256) ++
        "; platform signing legitimately changes the size of a " ++ quoted platformOs ++ " entry")
    else
      match v.toDouble with
      | none => .error "entry_native.size is not a number"
      | some d =>
        if d < 0 ∨ d.den ≠ 1 then .error "entry_native.size is not a whole, non-negative number"
        else .ok (truncateDouble d)

/-- `entry_native.verification`, on a system with a mode. -/
def takeVerification (mode : ModuleEntryVerificationMode) (platformOs : String)
    (entry verification : JsonObject) : Except String ModuleEntryVerification := do
  let modeKey ← within "entry_native.verification." (takeString verification "mode")
  let value ← within "entry_native.verification." (takeString verification "value")
  require (modeKey = moduleEntryVerificationModeKey mode)
    ("entry_native.verification.mode is " ++ quoted modeKey ++ ", but a " ++ quoted platformOs ++
      " module must use " ++ quoted (moduleEntryVerificationModeKey mode))
  require (isModuleHexDigest value = true)
    "entry_native.verification.value is not 64 lower-case hexadecimal characters"
  let size ← takeEntrySize mode platformOs entry
  return { mode, value, size }

/-- What the entry of a known system is verified by, if the descriptor says so. -/
def takeEntryVerification (mode : Option ModuleEntryVerificationMode) (platformOs : String)
    (entry : JsonObject) : Except String (Option ModuleEntryVerification) :=
  match entry.value "verification" with
  | none => do
    require ((entry.value "size").isNone = true)
      "entry_native.size is only meaningful alongside an entry_native.verification"
    return none
  | some (.object verification) =>
    match mode with
    | none =>
      .error ("a " ++ quoted platformOs ++ " module carries no entry verification; its " ++
        "executable code is authenticated by the platform")
    | some mode => some <$> takeVerification mode platformOs entry verification
  | some _ => .error "entry_native.verification is not an object"

/-- The section `entry_native`. -/
def takeEntryNative (root : JsonObject) (platformOs : String) :
    Except String ModuleEntryNative := do
  let entry ← takeObject root "entry_native"
  let name ← within "entry_native." (takeString entry "name")
  require (isLogicalNativeName name = true)
    (quoted name ++ " is not a logical native name: it must match [a-z][a-z0-9_]\x7b0,63\x7d " ++
      "and must not begin with \"lib\"")
  let rule := moduleEntryVerificationModeFor platformOs
  require (rule.knownOs = true)
    ("there is no entry verification mode for platform " ++ quoted platformOs)
  let verification ← takeEntryVerification rule.mode platformOs entry
  return { name, verification }

/-- One of `resources`. -/
def takeResource (_ : List ModuleManifestResource) (item : JsonValue) :
    Except String ModuleManifestResource :=
  match item with
  | .object o => do
    let path ← within "resources." (takeString o "path")
    let sha256 ← within "resources." (takeString o "sha256")
    require (isModuleHexDigest sha256 = true)
      ("the digest of " ++ quoted path ++ " is not 64 lower-case hexadecimal characters")
    return { path, sha256 }
  | _ => .error ("a value in " ++ quoted "resources" ++ " is not an object")

/-- The section `resources`, which may be empty. -/
def takeResources (root : JsonObject) : Except String (List ModuleManifestResource) := do
  let items ← takeArray root "resources"
  takeEach takeResource items []

/-! ## The whole manifest -/

/-- Everything behind the schema version. -/
def takeManifest (strings : QtStrings) (root : JsonObject) (schemaVersion : Int) :
    Except String ModuleManifest := do
  let id ← takeString root "id"
  require (isValidModuleId id = true) ("the module id " ++ quoted id ++
    " is not lower-case and dotted")
  let version ← takeString root "version"
  let sdkAbi ← takeInt root "sdk_abi"
  let minHostVersion ← takeString root "min_host_version"
  let securityEpoch ← takeInt root "security_epoch"
  require (0 ≤ sdkAbi ∧ 0 ≤ securityEpoch) "a version number in it is negative"
  let capabilities ← takeCapabilities root
  let events ← takeEvents strings root
  let commands ← takeCommands id root
  let translationContext ← takeString root "translation_context"
  let metadata ← takeMetadata root
  let build ← takeObject root "build"
  let buildId ← within "build." (takeString build "id")
  let buildTimestamp ← within "build." (takeString build "timestamp")
  let buildSourceCommit ← within "build." (takeString build "source_commit")
  let platform ← takeObject root "platform"
  let platformOs ← within "platform." (takeString platform "os")
  let platformArch ← within "platform." (takeString platform "arch")
  let platformQt ← within "platform." (takeString platform "qt")
  let entryNative ← takeEntryNative root platformOs
  let resources ← takeResources root
  return { schemaVersion, id, version, sdkAbi, minHostVersion, securityEpoch, capabilities, events,
           commands, translationContext, metadata, buildId, buildTimestamp, buildSourceCommit,
           platformOs, platformArch, platformQt, entryNative, resources }

/-- A refused manifest. -/
structure ManifestRefusal where
  status : ModuleManifestStatus
  reason : String
  deriving Repr, DecidableEq

/-- `Malformed`. -/
def ManifestRefusal.malformed (reason : String) : ManifestRefusal := ⟨.malformed, reason⟩

/-- The manifest a JSON object is: its schema version first, and on its own. -/
def readModuleManifest (strings : QtStrings) (root : JsonObject) :
    Except ManifestRefusal ModuleManifest :=
  match takeInt root "schema_version" with
  | .error why => .error (.malformed why)
  | .ok schemaVersion =>
    if moduleManifestSchemaVersion < schemaVersion then
      .error ⟨.tooNew, "it uses manifest schema " ++ toString schemaVersion ++
        ", and this version of GpgFrontend understands up to " ++
        toString moduleManifestSchemaVersion⟩
    else if schemaVersion < moduleManifestMinSupportedSchema then
      .error (.malformed (quoted "schema_version" ++ " is " ++ toString schemaVersion ++
        "; this build reads " ++ toString moduleManifestMinSupportedSchema ++
        " and later, which is when the module binary moved out of the package"))
    else (takeManifest strings root schemaVersion).mapError .malformed

/-- `ParseModuleManifest`, over the reader of JSON text. -/
def parseModuleManifest (strings : QtStrings) (fromJson : Bytes → Except String JsonValue)
    (bytes : Bytes) : Except ManifestRefusal ModuleManifest :=
  match fromJson bytes with
  | .error why => .error (.malformed ("it is not valid JSON: " ++ why))
  | .ok (.object root) => readModuleManifest strings root
  | .ok _ => .error (.malformed "it is not a JSON object")

/-! ## What an accepted manifest is read from -/

@[simp] theorem require_eq_ok {ε : Type} {c : Prop} [Decidable c] {why : ε} {u : Unit} :
    require c why = .ok u ↔ c := by
  unfold require
  by_cases h : c <;> simp [h]

@[simp] theorem within_eq_ok {α : Type} {part : String} {taken : Except String α} {a : α} :
    within part taken = .ok a ↔ taken = .ok a := by
  cases taken <;> simp [within, Except.mapError]

/-- Where every field of a manifest comes from. -/
structure ManifestOf (strings : QtStrings) (root : JsonObject) (m : ModuleManifest) : Prop where
  schemaVersion : takeInt root "schema_version" = .ok m.schemaVersion
  supported : m.schemaVersion = moduleManifestSchemaVersion
  id : takeString root "id" = .ok m.id
  version : takeString root "version" = .ok m.version
  sdkAbi : takeInt root "sdk_abi" = .ok m.sdkAbi
  minHostVersion : takeString root "min_host_version" = .ok m.minHostVersion
  securityEpoch : takeInt root "security_epoch" = .ok m.securityEpoch
  capabilities : takeCapabilities root = .ok m.capabilities
  events : takeEvents strings root = .ok m.events
  commands : takeCommands m.id root = .ok m.commands
  translationContext : takeString root "translation_context" = .ok m.translationContext
  metadata : takeMetadata root = .ok m.metadata
  build : ∃ build, takeObject root "build" = .ok build ∧ takeString build "id" = .ok m.buildId ∧
    takeString build "timestamp" = .ok m.buildTimestamp ∧
    takeString build "source_commit" = .ok m.buildSourceCommit
  platform : ∃ platform, takeObject root "platform" = .ok platform ∧
    takeString platform "os" = .ok m.platformOs ∧
    takeString platform "arch" = .ok m.platformArch ∧
    takeString platform "qt" = .ok m.platformQt
  entryNative : takeEntryNative root m.platformOs = .ok m.entryNative
  resources : takeResources root = .ok m.resources

theorem takeManifest_ok {strings : QtStrings} {root : JsonObject} {schemaVersion : Int}
    {m : ModuleManifest} (hversion : takeInt root "schema_version" = .ok schemaVersion)
    (hsupported : schemaVersion = moduleManifestSchemaVersion)
    (h : takeManifest strings root schemaVersion = .ok m) : ManifestOf strings root m := by
  unfold takeManifest at h
  simp only [bind_eq_ok, require_eq_ok, within_eq_ok, pure_eq_ok] at h
  obtain ⟨id, hid, -, -, version, hversion', sdkAbi, hsdk, minHost, hmin, epoch, hepoch, -, -,
    capabilities, hcapabilities, events, hevents, commands, hcommands, context, hcontext,
    metadata, hmetadata, build, hbuild, buildId, hbuildId, timestamp, htimestamp, commit, hcommit,
    platform, hplatform, os, hos, arch, harch, qt, hqt, entry, hentry, resources, hresources,
    rfl⟩ := h
  exact ⟨hversion, hsupported, hid, hversion', hsdk, hmin, hepoch, hcapabilities, hevents,
    hcommands, hcontext, hmetadata, ⟨build, hbuild, hbuildId, htimestamp, hcommit⟩,
    ⟨platform, hplatform, hos, harch, hqt⟩, hentry, hresources⟩

/-- **Every field of an accepted manifest stands in the document.** -/
theorem parseModuleManifest_ok {strings : QtStrings} {fromJson : Bytes → Except String JsonValue}
    {bytes : Bytes} {m : ModuleManifest}
    (h : parseModuleManifest strings fromJson bytes = .ok m) :
    ∃ root, fromJson bytes = .ok (.object root) ∧ ManifestOf strings root m := by
  unfold parseModuleManifest at h
  cases hjson : fromJson bytes with
  | error why =>
    rw [hjson] at h
    cases h
  | ok v =>
    rw [hjson] at h
    cases v with
    | object root =>
      refine ⟨root, rfl, ?_⟩
      dsimp only at h
      unfold readModuleManifest at h
      cases hversion : takeInt root "schema_version" with
      | error why =>
        rw [hversion] at h
        cases h
      | ok schemaVersion =>
        rw [hversion] at h
        dsimp only at h
        split at h
        · cases h
        next hnew =>
        split at h
        · cases h
        next hold =>
        have hsupported : schemaVersion = moduleManifestSchemaVersion := by
          rw [moduleManifestSchemaVersion] at hnew ⊢
          rw [moduleManifestMinSupportedSchema] at hold
          omega
        cases htake : takeManifest strings root schemaVersion with
        | error why =>
          rw [htake] at h
          cases h
        | ok m' =>
          rw [htake] at h
          obtain rfl : m' = m := Except.ok.inj h
          exact takeManifest_ok hversion hsupported htake
    | _ => cases h

end GpgFrontend
