import GpgFrontend.Base.JsonTree
import GpgFrontend.Module.ModuleDescriptorAgreement
import Mathlib.Data.List.Sort

/-!
# Externalizing a module (`ModuleExternalize.cpp`)

An integrated module is verified, rebuilt under a publisher's key, verified again and checked
against a contract that says of every field of the manifest what may become of it.
-/

namespace GpgFrontend

/-! ## The contract -/

/-- `ModuleExternalizeDisposition`. -/
inductive ExternalizeDisposition where
  | preserve | change | structural
  deriving Repr, DecidableEq

/-- `kContract`. -/
def externalizeContract : List (String × ExternalizeDisposition) :=
  [("schema_version", .preserve), ("id", .preserve), ("version", .preserve), ("sdk_abi", .preserve),
    ("min_host_version", .preserve), ("security_epoch", .preserve), ("capabilities", .preserve),
    ("events", .preserve), ("commands", .preserve), ("translation_context", .preserve),
    ("build", .structural), ("build.id", .preserve), ("build.timestamp", .preserve),
    ("build.source_commit", .preserve),
    ("platform", .structural), ("platform.os", .preserve), ("platform.arch", .preserve),
    ("platform.qt", .preserve),
    ("resources", .structural), ("resources[].path", .preserve), ("resources[].sha256", .preserve),
    ("entry_native", .structural), ("entry_native.name", .preserve),
    ("entry_native.verification", .structural), ("entry_native.verification.mode", .preserve),
    ("entry_native.verification.value", .preserve), ("entry_native.size", .preserve),
    ("metadata", .structural), ("metadata.Publisher", .change), ("metadata.PublisherUrl", .change),
    ("metadata.*", .preserve)]

/-- Whether a row that ends in `.*` covers a path. -/
def coversBelow (pattern path : String) : Bool :=
  let above := pattern.toList.dropLast
  ".*".toList.isSuffixOf pattern.toList && above.length < path.toList.length &&
    above.isPrefixOf path.toList

/-- `RuleFor`: the exact rows first. -/
def ruleFor (path : String) : Option ExternalizeDisposition :=
  match externalizeContract.find? fun row => row.1 = path with
  | some row => some row.2
  | none => (externalizeContract.find? fun row => coversBelow row.1 path).map Prod.snd

/-! ## Paths -/

/-- A member under a path. -/
def childPath (above key : String) : String := if above = "" then key else above ++ "." ++ key

mutual

/-- `Walk`. -/
def walkMembers : List (String × JsonValue) → String → List String
  | [], _ => []
  | (key, v) :: rest, above =>
    childPath above key :: (walkValue v (childPath above key) ++ walkMembers rest above)

/-- What a member is looked into for. -/
def walkValue : JsonValue → String → List String
  | .object members, path => walkMembers members path
  | .array items, path => walkItems items (path ++ "[]")
  | _, _ => []

/-- The objects in an array. -/
def walkItems : List JsonValue → String → List String
  | [], _ => []
  | .object members :: rest, path => walkMembers members path ++ walkItems rest path
  | _ :: rest, path => walkItems rest path

end

/-- Sorted, each path once. -/
def sortedPaths (paths : List String) : List String := paths.dedup.insertionSort (· ≤ ·)

/-- `KeyPaths`. -/
def keyPaths (manifest : JsonObject) : List String := sortedPaths (walkMembers manifest "")

/-- One segment of a path, taken in every value reached so far. -/
def stepInto (values : List JsonValue) (segment : List Char) : List JsonValue :=
  let expand := "[]".toList.isSuffixOf segment
  let key := String.ofList (if expand then segment.take (segment.length - 2) else segment)
  values.flatMap fun v =>
    match v.toObject.value key with
    | none => []
    | some found => if expand then found.toArray else [found]

/-- `ValuesAt`. -/
def valuesAt (root : JsonObject) (path : String) : List JsonValue :=
  (dottedParts path.toList).foldl stepInto [.object root]

/-! ## The checks -/

/-- `kModuleMetadataPublisher`, `kModuleMetadataPublisherUrl`. -/
def moduleMetadataPublisher : String := "Publisher"
def moduleMetadataPublisherUrl : String := "PublisherUrl"

/-- The members of `metadata`, if it is an object. -/
def metadataOf (manifest : JsonObject) : JsonObject :=
  ((manifest.value "metadata").map JsonValue.toObject).getD []

/-- Checks made one after the other. -/
def requireEach {α : Type} (check : α → Except String Unit) : List α → Except String Unit
  | [] => .ok ()
  | a :: rest => do
    check a
    requireEach check rest

/-- `CheckContractCoverage`. -/
def checkContractCoverage (manifest : JsonObject) (side : String) : Except String Unit := do
  requireEach (fun path => require ((ruleFor path).isSome = true)
    ("manifest field " ++ quoted path ++ " in the " ++ side ++ " has no externalization decision"))
    (keyPaths manifest)
  requireEach (fun (member : String × JsonValue) =>
    require ('.' ∉ member.1.toList ∧ '[' ∉ member.1.toList)
      ("metadata key " ++ quoted member.1 ++ " cannot be tracked by the externalization contract"))
    (metadataOf manifest)

/-- `ModuleExternalizeSpec`. -/
structure ModuleExternalizeSpec where
  input : String
  publisherSeed : Bytes
  outputRoot : String
  publisherName : String
  publisherUrl : String

/-- `changes`. -/
def externalizeChanges (spec : ModuleExternalizeSpec) : List (String × String) :=
  [("metadata." ++ moduleMetadataPublisher, spec.publisherName),
    ("metadata." ++ moduleMetadataPublisherUrl, spec.publisherUrl)]

/-- One row of `CheckPreserved`. -/
def checkPath (input output : JsonObject) (spec : ModuleExternalizeSpec) (path : String) :
    Except String Unit :=
  let before := valuesAt input path
  let after := valuesAt output path
  match ruleFor path with
  | none => .error ("manifest field " ++ quoted path ++ " has no externalization decision")
  | some .preserve => require (before = after) (quoted path ++ " changed during externalization")
  | some .structural =>
    require (before.isEmpty = after.isEmpty) (quoted path ++ " was " ++
      (if before.isEmpty then "added" else "removed") ++ " during externalization")
  | some .change =>
    let expected := ((externalizeChanges spec).lookup path).getD ""
    require (before = [] ∧ after = if expected = "" then [] else [.string expected])
      (quoted path ++ " is not what externalization was asked to set")

/-- `CheckPreserved`. -/
def checkPreserved (input output : JsonObject) (spec : ModuleExternalizeSpec) :
    Except String Unit :=
  requireEach (checkPath input output spec)
    (sortedPaths (keyPaths input ++ keyPaths output ++ (externalizeChanges spec).map Prod.fst))

/-! ## The transformation -/

/-- `ModuleDescriptorStatusToString`. -/
def ModuleDescriptorStatus.toText : ModuleDescriptorStatus → String
  | ok => "ok"
  | notAPackage => "not a module package"
  | tooNew => "written by a newer version"
  | malformed => "malformed"
  | untrustedBuildKey => "not signed by this build"
  | wrongBuild => "built for a different build of this application"
  | resourceDigestMismatch => "a file in it has changed"
  | undeclaredResource => "it carries a file nothing vouches for"
  | missingDeclaredResource => "a file it promises is not there"
  | wrongPlatform => "built for a different system"
  | incompatibleAbi => "built against a different sdk"
  | ioFailed => "it could not be read"

/-- `ModuleEntryStatus`, of an entry that is refused. -/
inductive ModuleEntryStatus where
  | badEntryName | nativePathEscape | missingEntryNative | badNativeFileType
  | entryVerificationMismatch | entryBindingAbsent | ioFailed
  deriving Repr, DecidableEq

/-- `ModuleEntryStatusToString`. -/
def ModuleEntryStatus.toText : ModuleEntryStatus → String
  | badEntryName => "its entry name is not a usable one"
  | nativePathEscape => "its entry resolved outside the module native directory"
  | missingEntryNative => "the library it names is not installed"
  | badNativeFileType => "what it names is not a loadable library"
  | entryVerificationMismatch => "the library it names is not the one it was signed for"
  | entryBindingAbsent => "its descriptor binds no library, and one was required"
  | ioFailed => "the library it names could not be read"

/-- `VerifiedNativeEntry`. -/
inductive VerifiedNativeEntry where
  | refused (status : ModuleEntryStatus) (reason : String)
  | resolved (path : String)
  deriving Repr, DecidableEq

/-- The two directories an entry native is looked for in. -/
inductive NativeRoot where
  | input | staged
  deriving Repr, DecidableEq

/-- What the machine answers while a module is externalized. -/
structure ExternalizeMachine where
  builder : ModuleBuilder
  inputExists : Bool
  /-- The name of the input, where it is a file. -/
  inputFile : Option String
  /-- The name of the namespace directory, and the descriptor in it. -/
  namespaceName : String
  descriptor : PackageFile
  /-- `ModuleDirectoryKey`. -/
  directoryKey : String → String
  /-- `ResolveAndVerifyNativeEntry`, with the binding required. -/
  resolveEntry : ModuleManifest → NativeRoot → ModuleOrigin → VerifiedNativeEntry
  helpers : List String
  /-- Whether the output is inside the input, by its path and once it exists. -/
  insideByPath : Bool
  makesRoot : Bool
  insideOnDisk : Bool
  finalExists : Bool
  stagingExists : Bool
  makesStaging : Bool
  copiesNative : Bool
  /-- The canonical output root, the copied native and the staged descriptor. -/
  outputRoot : String
  stagedNative : String
  stagedDescriptor : String
  /-- Whether the staged descriptor can be read back. -/
  rereads : Bool
  publishes : Bool

/-- `ReadModuleDescriptorResources`: the members outside `META-INF`. -/
def readModuleDescriptorResources (host : ModuleHost) (file : PackageFile) :
    Except String (QMap Bytes) :=
  match file with
  | .content bytes =>
    let read := readArchiveMembers host.steps modulePackagePolicy (host.readArchive bytes)
      (fun path member (out : QMap Bytes) =>
        (true, if isMetaPath path then out else out.insert path member)) .empty
    if read.ok then .ok read.sink
    else .error (if read.reason = "" then "its members could not be read" else read.reason)
  | _ => .error "it could not be read"

/-- `VerifyModuleNamespace`, with the binding required: the descriptor's verdict and the entry. -/
def verifyModuleNamespace (E : ExternalizeMachine) :
    Except String (ModuleDescriptorVerification × ModuleManifest × String) := do
  require (E.descriptor ≠ .missing) "it holds no module.gfmodule"
  let verified := verifyModuleDescriptor E.builder.host E.descriptor
  let refusal := "its descriptor was refused: " ++ verified.reason ++ " (" ++
    verified.status.toText ++ ")"
  require (verified.ok = true) refusal
  match verified.manifest with
  | none => .error refusal
  | some m =>
    require (E.namespaceName = E.directoryKey m.id) ("it declares " ++ quoted m.id ++
      ", whose namespace is " ++ quoted (E.directoryKey m.id))
    match E.resolveEntry m .input .integrated with
    | .resolved path => return (verified, m, path)
    | .refused status reason =>
      .error ("its entry native was refused: " ++ reason ++ " (" ++ status.toText ++ ")" ++
        if status = .entryBindingAbsent then
          "; build with GPGFRONTEND_INTEGRATED_MODULE_NATIVE_BINDING=REQUIRED so the " ++
            "integrated descriptor binds its native"
        else "")

/-- A claim of the publisher, where one is made. -/
def insertClaim (metadata : QMap String) (key text : String) : QMap String :=
  if text = "" then metadata else metadata.insert key text

/-- The resources, in declared order. -/
def declaredSources (resources : QMap Bytes) :
    List ModuleManifestResource → Except String (List ModuleResourceSource)
  | [] => .ok []
  | declared :: rest =>
    match resources.value declared.path with
    | none => .error ("its resource " ++ quoted declared.path ++ " could not be read back")
    | some bytes =>
      match declaredSources resources rest with
      | .error why => .error why
      | .ok sources => .ok ({ archivePath := declared.path, bytes } :: sources)

theorem fitsInt_zero : JsonValue.FitsInt 0 := by decide

/-- A number in a field of type `int`. -/
def intField (n : Int) : {n : Int // JsonValue.FitsInt n} :=
  if h : JsonValue.FitsInt n then ⟨n, h⟩ else ⟨0, fitsInt_zero⟩

/-- What the external descriptor is built from, field by field. -/
def externalBuildSpec (E : ExternalizeMachine) (spec : ModuleExternalizeSpec) (input : ModuleManifest)
    (sources : List ModuleResourceSource) : ModuleDescriptorBuildSpec where
  origin := .external
  moduleId := input.id
  version := input.version
  sdkAbi := intField input.sdkAbi
  minHostVersion := input.minHostVersion
  securityEpoch := intField input.securityEpoch
  capabilities := input.capabilities
  events := input.events
  commands := input.commands
  translationContext := input.translationContext
  metadata := insertClaim (insertClaim input.metadata moduleMetadataPublisher spec.publisherName)
    moduleMetadataPublisherUrl spec.publisherUrl
  buildId := input.buildId
  buildTimestamp := input.buildTimestamp
  buildSourceCommit := input.buildSourceCommit
  platformOs := input.platformOs
  platformArch := input.platformArch
  platformQt := input.platformQt
  resources := sources
  entryNativeName := input.entryNative.name
  entryNativeFile := E.stagedNative
  entryBinding := .required
  signingSeed := spec.publisherSeed
  outputPath := E.stagedDescriptor

/-- `QJsonDocument::fromJson(...).object()`. -/
def jsonObject (host : ModuleHost) (bytes : Bytes) : JsonObject :=
  match host.fromJson bytes with
  | .ok v => v.toObject
  | .error _ => []

/-- `ModuleExternalizeResult`, with the descriptor that was published. -/
structure ExternalizedModule where
  outputNamespace : String
  publisherKey : Bytes
  manifest : ModuleManifest
  descriptor : Bytes

/-- `ModulePublisherPublicKeyFromSeed`. -/
def publisherPublicKey (B : ModuleBuilder) (seed : Bytes) : Option Bytes :=
  if seed.length = signSeedBytes ∧ B.host.sodiumReady = true then
    (B.seedKeypair seed).map Prod.fst else none

/-- The input, verified, and the path of its entry. -/
def externalizeInput (E : ExternalizeMachine) (spec : ModuleExternalizeSpec) :
    Except String (Bytes × ModuleManifest) := do
  let host := E.builder.host
  require (E.inputExists = true) (quoted spec.input ++ " does not exist")
  require (E.inputFile = none ∨ E.inputFile = some "module.gfmodule")
    (quoted spec.input ++ " is not a module namespace or its module.gfmodule")
  let checked ← within "the input is not a verified integrated module: " (verifyModuleNamespace E)
  let input := checked.2.1
  require ((moduleEntryVerificationModeFor input.platformOs).mode.isSome = true)
    (quoted input.platformOs ++ " modules cannot be externalized: the platform has no entry " ++
      "binding mode, and the Host refuses external modules there")
  require (E.helpers = []) ("its native directory holds files the descriptor does not bind (" ++
    ", ".intercalate E.helpers ++ "); an external module ships only its entry native")
  checkContractCoverage (jsonObject host checked.1.manifestBytes) "input"
  requireEach (fun key => require ((input.metadata.value key).isNone = true)
    ("the input already declares " ++ quoted key ++ "; only externalization sets it"))
    [moduleMetadataPublisher, moduleMetadataPublisherUrl]
  return (checked.1.manifestBytes, input)

/-- The output directory and the staging directory in it. -/
def externalizeStaging (E : ExternalizeMachine) (spec : ModuleExternalizeSpec) (key : String) :
    Except String Unit := do
  let finalDir := E.outputRoot ++ "/" ++ key
  let stagingDir := E.outputRoot ++ "/." ++ key ++ ".staging"
  require (E.insideByPath = false) "the output directory is inside the input namespace"
  require (E.makesRoot = true) (quoted spec.outputRoot ++ " could not be created")
  require (E.insideOnDisk = false) "the output directory is inside the input namespace"
  require (E.finalExists = false)
    (quoted finalDir ++ " already exists; an external module is never overwritten")
  require (E.stagingExists = false)
    (quoted stagingDir ++ " is left over from an earlier run; remove it first")
  require (E.makesStaging = true) (quoted stagingDir ++ " could not be created")

/-- The descriptor that was staged, as it is read back. -/
def stagedFile (E : ExternalizeMachine) (built : BuiltDescriptor) : PackageFile :=
  if E.rereads then .content built.file else .unreadable

/-- The check of what was built, by the verifiers of the host and by the contract. -/
def externalizeSelfCheck (E : ExternalizeMachine) (spec : ModuleExternalizeSpec)
    (publisherKey inputManifest : Bytes) (resources : QMap Bytes) (built : BuiltDescriptor) :
    Except String ModuleManifest := do
  let host := E.builder.host
  let file := stagedFile E built
  let external := verifyExternalModuleDescriptor host file
  require (external.ok = true)
    ("the external descriptor this produced does not verify: " ++ external.reason)
  require (external.signerPublicKey = publisherKey)
    "the external descriptor names a key other than the publisher's"
  require ((verifyModuleDescriptor host file).ok = false)
    "the external descriptor this produced verifies as integrated"
  match external.manifest with
  | none => .error "the external descriptor this produced does not verify: "
  | some m =>
    match E.resolveEntry m .staged .external with
    | .refused _ reason =>
      .error ("the external descriptor does not bind the shipped entry native: " ++ reason)
    | .resolved _ =>
      let inputJson := jsonObject host inputManifest
      let outputJson := jsonObject host external.manifestBytes
      checkContractCoverage outputJson "output"
      checkPreserved inputJson outputJson spec
      let carried := (readModuleDescriptorResources host file).toOption
      require (carried = some resources)
        "the external descriptor does not carry the input's resources"
      return m

/-- `ExternalizeModule`. -/
def externalizeModule (E : ExternalizeMachine) (spec : ModuleExternalizeSpec) :
    Except String ExternalizedModule := do
  require (E.builder.host.sodiumReady = true) "the cryptography library could not be started"
  match publisherPublicKey E.builder spec.publisherSeed with
  | none => .error "no usable publisher key was given"
  | some publisherKey =>
    require (publisherKey ≠ E.builder.host.buildPublicKey) ("the publisher key is this build's " ++
      "own module-build key, which is never a publisher identity")
    require (spec.outputRoot ≠ "") "no output directory was given"
    let (inputManifest, input) ← externalizeInput E spec
    let key := E.directoryKey input.id
    externalizeStaging E spec key
    let resources ← within "its resources could not be read: "
      (readModuleDescriptorResources E.builder.host E.descriptor)
    require (E.copiesNative = true) "the entry native could not be copied"
    match E.resolveEntry input .staged .integrated with
    | .refused _ reason =>
      .error ("the copied entry native is not the one the integrated descriptor binds: " ++ reason)
    | .resolved _ =>
      let sources ← declaredSources resources input.resources
      let built ← buildModuleDescriptor E.builder (externalBuildSpec E spec input sources)
      let m ← externalizeSelfCheck E spec publisherKey inputManifest resources built
      require (E.publishes = true) (quoted (E.outputRoot ++ "/" ++ key) ++ " could not be published")
      return { outputNamespace := E.outputRoot ++ "/" ++ key
               publisherKey := publisherKey
               manifest := m
               descriptor := built.file }

end GpgFrontend
