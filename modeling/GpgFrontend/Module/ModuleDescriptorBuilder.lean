import GpgFrontend.Module.CanonicalJson
import GpgFrontend.Module.ModuleDescriptor

/-!
# Building a module descriptor (`ModuleDescriptorBuilder.cpp`)

Files are read as they stand: none of them changes while a descriptor is built.
-/

namespace GpgFrontend

/-- `ModuleResourceSource`. -/
structure ModuleResourceSource where
  archivePath : String
  sourceFile : String := ""
  bytes : Bytes := []
  deriving DecidableEq

/-- `ModuleBindingRequirement`. -/
inductive ModuleBindingRequirement where
  | notRequired | required
  deriving Repr, DecidableEq

/-- `ModuleDescriptorBuildSpec`. The two numbers are of type `int`. -/
structure ModuleDescriptorBuildSpec where
  moduleId : String
  version : String
  sdkAbi : {n : Int // JsonValue.FitsInt n}
  minHostVersion : String
  securityEpoch : {n : Int // JsonValue.FitsInt n}
  capabilities : List String
  events : List String
  commands : List String
  translationContext : String
  metadata : QMap String
  buildId : String
  buildTimestamp : String
  buildSourceCommit : String
  platformOs : String
  platformArch : String
  platformQt : String
  resources : List ModuleResourceSource
  entryNativeName : String
  entryNativeFile : String
  entryBinding : ModuleBindingRequirement := .required
  origin : ModuleOrigin := .integrated
  signingSeed : Bytes
  outputPath : String

/-- The host a descriptor is built on. -/
structure ModuleBuilder where
  host : ModuleHost
  /-- What the files on the disk hold. -/
  files : String → Option Bytes
  /-- `PeAuthenticodeDigestOfFile`: the digest, or why there is none. -/
  peDigest : String → Except String String
  /-- `crypto_sign_seed_keypair`: the public key and the secret one. -/
  seedKeypair : Bytes → Option (Bytes × Bytes)
  /-- `crypto_sign_detached`: message, secret key. -/
  signDetached : Bytes → Bytes → Option Bytes
  /-- `NewArchiveFromMembersToSink`, as a store-only zip. -/
  writeArchive : List ArchiveMember → Option Bytes
  opensOutput : Bool
  commits : Bool

/-! ## Resources -/

/-- The policy names are checked by: `naming`. -/
def namingPolicy : ArchiveExtractPolicy := { rejectDuplicatePaths := true }

/-- `Sha256HexOfFile`. -/
def sha256HexOfFile (B : ModuleBuilder) (path : String) : String :=
  ((B.files path).map B.host.sha256Hex).getD ""

/-- What a resource holds. -/
def sourceBytes (B : ModuleBuilder) (source : ModuleResourceSource) : Bytes :=
  if source.sourceFile = "" then source.bytes else (B.files source.sourceFile).getD []

/-- The digest of a resource: `HashBytes`, `HashFile`. -/
def sourceDigest (B : ModuleBuilder) (source : ModuleResourceSource) : String :=
  if source.sourceFile = "" then B.host.sha256Hex source.bytes
  else sha256HexOfFile B source.sourceFile

/-- A resource as it is packed: its normalised name, its digest, its bytes. -/
structure StagedResource where
  path : String
  digest : String
  bytes : Bytes
  deriving DecidableEq

/-- The name a resource is packed under. -/
def stagedPath (B : ModuleBuilder) (source : ModuleResourceSource) : String :=
  joinParts (validateArchiveEntryPath B.host.steps.unicode namingPolicy
    source.archivePath.toList).2

/-- The loop over `spec.resources`, with the folded names seen so far. -/
def stageResources (B : ModuleBuilder) :
    List ModuleResourceSource → List String → Except String (List StagedResource)
  | [], _ => .ok []
  | source :: rest, seen =>
    let verdict := (validateArchiveEntryPath B.host.steps.unicode namingPolicy
      source.archivePath.toList).1
    let normalised := stagedPath B source
    let folded := B.host.steps.unicode.toCaseFolded normalised
    if verdict ≠ .accept then
      .error (quoted source.archivePath ++ " is not a usable name inside a package: " ++
        verdict.toText)
    else if isMetaPath normalised then .error (quoted normalised ++ " is reserved")
    else if folded ∈ seen then
      .error (quoted normalised ++ " is packaged more than once, or differs from another entry " ++
        "only by case")
    else if sourceDigest B source = "" then
      .error (quoted (if source.sourceFile = "" then normalised else source.sourceFile) ++
        " could not be read")
    else
      match stageResources B rest (folded :: seen) with
      | .error why => .error why
      | .ok staged => .ok (⟨normalised, sourceDigest B source, sourceBytes B source⟩ :: staged)

/-! ## The manifest -/

/-- `platform_os`: that of this machine by default. -/
def builtOs (B : ModuleBuilder) (spec : ModuleDescriptorBuildSpec) : String :=
  if spec.platformOs = "" then B.host.osName else spec.platformOs

/-- `platform_arch`, normalised. -/
def builtArch (B : ModuleBuilder) (spec : ModuleDescriptorBuildSpec) : String :=
  normalizeManifestArch B.host.strings
    (if spec.platformArch = "" then B.host.cpuArchitecture else spec.platformArch)

/-- `QJsonArray::fromStringList`. -/
def stringArray (texts : List String) : JsonValue := .array (texts.map .string)

/-- An object of texts. -/
def textObject (members : List (String × String)) : JsonObject :=
  objectOf (members.map fun member => (member.1, .string member.2))

/-- `ComputeEntryVerificationValue`. -/
def computeEntryVerificationValue (B : ModuleBuilder) (mode : ModuleEntryVerificationMode)
    (path : String) : Except String String :=
  match mode with
  | .fileSha256 =>
    if sha256HexOfFile B path = "" then .error (quoted path ++ " could not be read")
    else .ok (sha256HexOfFile B path)
  | .peAuthenticodeSha256 => B.peDigest path

/-- The size of the entry native. -/
def entryFileSize (B : ModuleBuilder) (spec : ModuleDescriptorBuildSpec) : Int :=
  ((B.files spec.entryNativeFile).getD []).length

/-- The object `entry_native`, with its binding when one is required. -/
def entryObject (B : ModuleBuilder) (spec : ModuleDescriptorBuildSpec) :
    Except String JsonObject :=
  let rule := moduleEntryVerificationModeFor (builtOs B spec)
  let entry := textObject [("name", spec.entryNativeName)]
  if !rule.knownOs then
    .error ("there is no entry verification mode for platform " ++ quoted (builtOs B spec))
  else
    match spec.entryBinding, rule.mode with
    | .notRequired, _ => .ok entry
    | .required, none =>
      .error ("a " ++ quoted (builtOs B spec) ++ " descriptor cannot bind its entry native: this " ++
        "platform has no binding mode, because Apple code signing authenticates the " ++
        "executable instead")
    | .required, some mode =>
      match computeEntryVerificationValue B mode spec.entryNativeFile with
      | .error why => .error why
      | .ok value =>
        let bound := entry.put "verification" (.object
          (textObject [("mode", moduleEntryVerificationModeKey mode), ("value", value)]))
        .ok (if mode = .fileSha256 then
          bound.put "size" (.number (roundToDouble (entryFileSize B spec))) else bound)

/-- The manifest as it is written. -/
def moduleManifestObject (B : ModuleBuilder) (spec : ModuleDescriptorBuildSpec)
    (staged : List StagedResource) (entry : JsonObject) : JsonObject :=
  let manifest := objectOf [
    ("schema_version", .number moduleManifestSchemaVersion),
    ("id", .string spec.moduleId),
    ("version", .string spec.version),
    ("sdk_abi", .number spec.sdkAbi.1),
    ("min_host_version", .string spec.minHostVersion),
    ("security_epoch", .number spec.securityEpoch.1),
    ("capabilities", stringArray spec.capabilities),
    ("metadata", .object (textObject spec.metadata.entries)),
    ("build", .object (textObject [("id", spec.buildId), ("timestamp", spec.buildTimestamp),
      ("source_commit", spec.buildSourceCommit)])),
    ("platform", .object (textObject [("os", builtOs B spec), ("arch", builtArch B spec),
      ("qt", spec.platformQt)])),
    ("resources", .array (staged.map fun resource =>
      .object (textObject [("path", resource.path), ("sha256", resource.digest)]))),
    ("events", stringArray spec.events)]
  let manifest := if spec.commands = [] then manifest
    else manifest.put "commands" (stringArray spec.commands)
  let manifest := manifest.put "translation_context" (.string spec.translationContext)
  manifest.put "entry_native" (.object entry)

/-! ## The descriptor -/

/-- `ModuleDescriptorBuildResult`, with the file at the output path. -/
structure BuiltDescriptor where
  signerPublicKey : Bytes
  manifestBytes : Bytes
  file : Bytes
  deriving DecidableEq

/-- The members of a descriptor, in order. -/
def descriptorMembers (origin : ModuleOrigin) (manifestBytes signature publicKey : Bytes)
    (staged : List StagedResource) : List ArchiveMember :=
  { relativePath := moduleDescriptorManifestPath, bytes := manifestBytes } ::
    { relativePath := moduleDescriptorSignaturePath, bytes := signature } ::
    ((if origin = .external then
        [{ relativePath := moduleDescriptorPublisherKeyPath, bytes := publicKey }] else []) ++
      staged.map fun resource => { relativePath := resource.path, bytes := resource.bytes })

/-- The key the seed derives, for the domain the descriptor is of. -/
def signingKey (B : ModuleBuilder) (spec : ModuleDescriptorBuildSpec) :
    Except String (Bytes × Bytes) := do
  require (spec.signingSeed.length = signSeedBytes)
    (match spec.origin with
      | .external => "no publisher signing seed was given"
      | .integrated => "no module-build signing seed was given")
  match B.seedKeypair spec.signingSeed with
  | none => .error "the signing seed could not be used"
  | some key =>
    match spec.origin with
    | .integrated =>
      require (key.1 = B.host.buildPublicKey)
        ("the signing seed does not derive this build's module-build key; a descriptor signed " ++
          "with it could not be loaded by the Host it was built alongside")
    | .external =>
      require (key.1 ≠ B.host.buildPublicKey)
        ("the publisher seed derives this build's module-build key; the build key is never a " ++
          "publisher identity")
    return key

/-- What is asked of a specification before anything is read. -/
def checkSpec (B : ModuleBuilder) (spec : ModuleDescriptorBuildSpec) : Except String Unit := do
  require (B.host.sodiumReady = true) "the cryptography library could not be started"
  require (spec.outputPath ≠ "") "no output path was given"
  require (spec.entryNativeName ≠ "") "a descriptor that binds no entry native is not one"
  require (spec.entryNativeFile ≠ "") "no entry native file was given to verify against"
  require (spec.origin = .external → spec.entryBinding = .required)
    "an external descriptor must bind its entry native"

/-- The manifest a specification is signed with, and its staged resources. -/
def buildManifest (B : ModuleBuilder) (spec : ModuleDescriptorBuildSpec) :
    Except String (List StagedResource × Bytes) := do
  let staged ← stageResources B spec.resources []
  let entry ← entryObject B spec
  match canonicalJson (.object (moduleManifestObject B spec staged entry)) with
  | none => .error "this manifest cannot be written in canonical form"
  | some manifestBytes =>
    -- what this build's own verifier would not accept is not signed
    match parseModuleManifest B.host.strings B.host.fromJson manifestBytes with
    | .error refused => .error ("the manifest this produced is not valid: " ++ refused.reason)
    | .ok _ => .ok (staged, manifestBytes)

/-- The signed members on the disk. -/
def writeDescriptor (B : ModuleBuilder) (spec : ModuleDescriptorBuildSpec)
    (members : List ArchiveMember) : Except String Bytes := do
  let unwritten := quoted spec.outputPath ++ " could not be written"
  require (B.opensOutput = true) unwritten
  match B.writeArchive members with
  | none => .error unwritten
  | some file =>
    require (B.commits = true) unwritten
    return file

/-- `BuildModuleDescriptor`. -/
def buildModuleDescriptor (B : ModuleBuilder) (spec : ModuleDescriptorBuildSpec) :
    Except String BuiltDescriptor := do
  checkSpec B spec
  let (staged, manifestBytes) ← buildManifest B spec
  let (publicKey, secretKey) ← signingKey B spec
  match B.signDetached manifestBytes secretKey with
  | none => .error "the manifest could not be signed"
  | some signature =>
    let file ← writeDescriptor B spec
      (descriptorMembers spec.origin manifestBytes signature publicKey staged)
    return { signerPublicKey := publicKey, manifestBytes, file }

end GpgFrontend
