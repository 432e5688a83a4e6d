import GpgFrontend.Function.ArchiveMembers
import GpgFrontend.Module.ModuleManifest

/-!
# Verifying a module descriptor (`ModuleDescriptor.cpp`)

A `*.gfmodule` is read once, whole, and judged from that one snapshot.
-/

namespace GpgFrontend

/-- `ModuleOrigin`. -/
inductive ModuleOrigin where
  | integrated | external
  deriving Repr, DecidableEq

/-- `ModuleDescriptorStatus`. -/
inductive ModuleDescriptorStatus where
  | ok | notAPackage | tooNew | malformed | untrustedBuildKey | wrongBuild
  | resourceDigestMismatch | undeclaredResource | missingDeclaredResource | wrongPlatform
  | incompatibleAbi | ioFailed
  deriving Repr, DecidableEq

/-- What this build was made with, what the machine is and what the libraries answer. -/
structure ModuleHost where
  strings : QtStrings
  steps : ExtractionSteps
  fromJson : Bytes → Except String JsonValue
  readArchive : Bytes → ArchiveStream
  /-- `GFBufferFactory::Sha256Hex`: no text when it fails. -/
  sha256Hex : Bytes → String
  /-- `EnsureSodiumInit`. -/
  sodiumReady : Bool
  /-- `crypto_sign_verify_detached`: signature, message, key. -/
  verifyDetached : Bytes → Bytes → Bytes → Bool
  /-- `ModuleBuildPublicKey`, `ModuleBuildId`. -/
  buildPublicKey : Bytes
  buildId : String
  /-- `ManifestHostOsName`, `QSysInfo::currentCpuArchitecture`. -/
  osName : String
  cpuArchitecture : String
  sdkAbiVersion : Int
  sdkAbiMinSupported : Int
  projectVersion : String
  projectVersionCore : String

def moduleDescriptorManifestPath : String := "META-INF/manifest.json"

def moduleDescriptorSignaturePath : String := "META-INF/manifest.sig"

def moduleDescriptorPublisherKeyPath : String := "META-INF/publisher.pub"

def moduleDescriptorLegacyBuildKeyPath : String := "META-INF/build-key.pub"

/-- `crypto_sign_PUBLICKEYBYTES`, `crypto_sign_BYTES`, `crypto_sign_SEEDBYTES`. -/
def signPublicKeyBytes : Nat := 32
def signBytes : Nat := 64
def signSeedBytes : Nat := 32

def maxPackageEntryBytes : Int := 512 * 1024 * 1024
def maxPackageTotalBytes : Int := 1024 * 1024 * 1024
def maxPackageEntries : Int := 4096

/-- `PackagePolicy`. -/
def modulePackagePolicy : ArchiveExtractPolicy :=
  { ArchiveExtractPolicy.strict maxPackageTotalBytes maxPackageEntries with
    maxEntryBytes := maxPackageEntryBytes
    rejectDuplicatePaths := true
    rejectCaseCollidingPaths := true
    requireUtf8Paths := true
    maxCompressionRatio := 200
    requireEmptyDestination := false }

/-! ## The walk -/

/-- What the walk over a package keeps. -/
structure PackageWalk where
  manifestBytes : Bytes := []
  signatureBytes : Bytes := []
  publicKeyBytes : Bytes := []
  manifestCount : Nat := 0
  signatureCount : Nat := 0
  publicKeyCount : Nat := 0
  unknownMeta : List String := []
  actualDigests : QMap String := .empty
  hashFailed : Bool := false

/-- `path.startsWith("META-INF/")`. -/
def isMetaPath (path : String) : Bool := "META-INF/".toList.isPrefixOf path.toList

/-- The sink of the walk. -/
def readMember (host : ModuleHost) (path : String) (bytes : Bytes) (walk : PackageWalk) :
    Bool × PackageWalk :=
  if path = moduleDescriptorManifestPath then
    (true, { walk with manifestCount := walk.manifestCount + 1, manifestBytes := bytes })
  else if path = moduleDescriptorSignaturePath then
    (true, { walk with signatureCount := walk.signatureCount + 1, signatureBytes := bytes })
  else if path = moduleDescriptorPublisherKeyPath then
    (true, { walk with publicKeyCount := walk.publicKeyCount + 1, publicKeyBytes := bytes })
  else if isMetaPath path then (true, { walk with unknownMeta := walk.unknownMeta ++ [path] })
  else
    let digest := host.sha256Hex bytes
    if digest = "" then (false, { walk with hashFailed := true })
    else (true, { walk with actualDigests := walk.actualDigests.insert path digest })

/-! ## Authentication -/

/-- `Refuse`. -/
structure DescriptorRefusal where
  status : ModuleDescriptorStatus
  reason : String
  deriving Repr, DecidableEq

/-- One manifest, one signature, and a key exactly where one belongs. -/
def checkShape (host : ModuleHost) (origin : ModuleOrigin) (walk : PackageWalk) :
    Except DescriptorRefusal Unit := do
  require (walk.manifestCount = 1 ∧ walk.signatureCount = 1) (⟨.malformed,
    "it does not carry exactly one manifest and one signature"⟩ : DescriptorRefusal)
  match origin with
  | .integrated =>
    require (walk.publicKeyCount = 0) (⟨.malformed, "it carries a signing key inside itself; " ++
      "the trust root belongs to the Host that loads it, not to the package"⟩ : DescriptorRefusal)
  | .external =>
    require (walk.publicKeyCount = 1) (⟨.malformed, "an external module must carry exactly one " ++
      "publisher key, so there is something to show you before you trust it"⟩ : DescriptorRefusal)
    require (walk.publicKeyBytes.length = signPublicKeyBytes)
      (⟨.malformed, "the publisher key it carries is the wrong size"⟩ : DescriptorRefusal)
    require (walk.publicKeyBytes ≠ host.buildPublicKey) (⟨.malformed, "the key it carries is this " ++
      "build's own module-build key, which is never a publisher identity"⟩ : DescriptorRefusal)

/-- `expected_public_key`. -/
def expectedPublicKey (host : ModuleHost) (origin : ModuleOrigin) (walk : PackageWalk) : Bytes :=
  match origin with
  | .integrated => host.buildPublicKey
  | .external => walk.publicKeyBytes

/-- The signature, over the bytes as stored. -/
def checkSignature (host : ModuleHost) (origin : ModuleOrigin) (walk : PackageWalk) :
    Except DescriptorRefusal Unit := do
  let key := expectedPublicKey host origin walk
  require (walk.signatureBytes.length = signBytes)
    (⟨.malformed, "its signature is the wrong size"⟩ : DescriptorRefusal)
  require (key.length = signPublicKeyBytes)
    (⟨.malformed, "no usable verification key was supplied"⟩ : DescriptorRefusal)
  require (host.verifyDetached walk.signatureBytes walk.manifestBytes key = true)
    (⟨.untrustedBuildKey,
      match origin with
      | .integrated => "it was not signed by this build of GpgFrontend"
      | .external => "its signature does not match the publisher key it carries, so it is " ++
          "damaged or forged"⟩ : DescriptorRefusal)

/-- The loop over the declared resources. -/
def checkDeclared (actual : QMap String) :
    List ModuleManifestResource → Except DescriptorRefusal Unit
  | [] => .ok ()
  | declared :: rest =>
    match actual.value declared.path with
    | none => .error ⟨.missingDeclaredResource,
        "it promises " ++ quoted declared.path ++ " and does not carry it"⟩
    | some digest =>
      if digest ≠ declared.sha256 then .error ⟨.resourceDigestMismatch,
        quoted declared.path ++ " is not the file this package was signed for"⟩
      else checkDeclared actual rest

/-- The look for a member nothing declares, where the numbers differ. -/
def checkUndeclared (actual : QMap String) (resources : List ModuleManifestResource) :
    Except DescriptorRefusal Unit :=
  if actual.size ≠ resources.length then
    match actual.keys.find? fun path => !(resources.map (·.path)).contains path with
    | some path => .error ⟨.undeclaredResource,
        "it carries " ++ quoted path ++ ", which nothing in it vouches for"⟩
    | none => .ok ()
  else .ok ()

/-- The first stage: who signed the package, and that it is intact. -/
def authenticate (host : ModuleHost) (origin : ModuleOrigin) (walk : PackageWalk) :
    Except DescriptorRefusal ModuleManifest := do
  checkShape host origin walk
  checkSignature host origin walk
  let m ← (parseModuleManifest host.strings host.fromJson walk.manifestBytes).mapError fun refused =>
    (⟨if refused.status = .tooNew then .tooNew else .malformed, refused.reason⟩ : DescriptorRefusal)
  checkDeclared walk.actualDigests m.resources
  checkUndeclared walk.actualDigests m.resources
  return m

/-! ## Admission -/

/-- `QString::toInt`: what is no `int` is zero. -/
def textToInt (text : List Char) : Int :=
  let trimmed := ((text.dropWhile Char.isWhitespace).reverse.dropWhile Char.isWhitespace).reverse
  let digits (s : List Char) : Int :=
    if s ≠ [] ∧ s.all Char.isDigit then
      s.foldl (fun (n : Int) c => 10 * n + (c.toNat - '0'.toNat : Nat)) 0
    else 0
  let n := match trimmed with
    | '-' :: rest => -digits rest
    | '+' :: rest => digits rest
    | s => digits s
  if JsonValue.FitsInt n then n else 0

/-- The loop of `GFCompareSoftwareVersion`, and what the lengths decide behind it. -/
def compareVersionParts : List (List Char) → List (List Char) → Int
  | a :: as, b :: bs =>
    if textToInt a ≠ textToInt b then if textToInt b < textToInt a then 1 else -1
    else compareVersionParts as bs
  | [], [] => 0
  | _ :: _, [] => 1
  | [], _ :: _ => -1

/-- `GFCompareSoftwareVersion`. -/
def compareSoftwareVersion (a b : String) : Int :=
  let parts (version : String) : List (List Char) :=
    dottedParts (if version.toList.head? = some 'v' then version.toList.tail else version.toList)
  compareVersionParts (parts a) (parts b)

/-- `SdkAbiRejection`. -/
def sdkAbiRejection (host : ModuleHost) (abi : Int) : Option String :=
  if host.sdkAbiMinSupported ≤ abi ∧ abi ≤ host.sdkAbiVersion then none
  else some ("it was built against sdk abi " ++ toString abi ++
    ", and this version of GpgFrontend supports " ++ toString host.sdkAbiMinSupported ++ " to " ++
    toString host.sdkAbiVersion)

/-- The second stage: whether the package is for this host. -/
def admission (host : ModuleHost) (origin : ModuleOrigin) (m : ModuleManifest) :
    Option DescriptorRefusal :=
  let hostArch := normalizeManifestArch host.strings host.cpuArchitecture
  if origin = .integrated ∧ m.buildId ≠ host.buildId then
    some ⟨.wrongBuild, "it was built for " ++ m.buildId ++ ", and this is " ++ host.buildId⟩
  else if m.platformOs ≠ host.osName ∨
      normalizeManifestArch host.strings m.platformArch ≠ hostArch then
    some ⟨.wrongPlatform, "it was built for " ++ m.platformOs ++ "/" ++ m.platformArch ++
      ", and this is " ++ host.osName ++ "/" ++ hostArch⟩
  else
    match sdkAbiRejection host m.sdkAbi with
    | some why => some ⟨.incompatibleAbi, why⟩
    | none =>
      if 0 < compareSoftwareVersion m.minHostVersion host.projectVersionCore then
        some ⟨.incompatibleAbi, "it needs GpgFrontend " ++ m.minHostVersion ++
          " or newer, and this is " ++ host.projectVersion⟩
      else none

/-! ## The verdict -/

/-- `ModuleDescriptorVerification`: the manifest, its bytes and the key are there once the
package is authenticated. -/
structure ModuleDescriptorVerification where
  ok : Bool := false
  status : ModuleDescriptorStatus
  reason : String := ""
  authenticated : Bool := false
  manifest : Option ModuleManifest := none
  manifestBytes : Bytes := []
  signerPublicKey : Bytes := []
  deriving DecidableEq

/-- `Refuse`. -/
def DescriptorRefusal.verdict (refused : DescriptorRefusal) : ModuleDescriptorVerification :=
  { status := refused.status, reason := refused.reason }

/-- `ConcludeVerification`. -/
def concludeVerification (host : ModuleHost) (origin : ModuleOrigin) (walk : PackageWalk) :
    ModuleDescriptorVerification :=
  match authenticate host origin walk with
  | .error refused => refused.verdict
  | .ok m =>
    let v : ModuleDescriptorVerification :=
      { status := .ok
        authenticated := true
        manifest := some m
        manifestBytes := walk.manifestBytes
        signerPublicKey := expectedPublicKey host origin walk }
    match admission host origin m with
    | some refused => { v with status := refused.status, reason := refused.reason }
    | none => { v with ok := true }

/-- The file at the path of a package. -/
inductive PackageFile where
  | missing
  | unreadable
  | content (bytes : Bytes)
  deriving DecidableEq

/-- The walk of `ReadPackage`. -/
def walkPackage (host : ModuleHost) (bytes : Bytes) : ExtractionResult PackageWalk :=
  readArchiveMembers host.steps modulePackagePolicy (host.readArchive bytes) (readMember host) {}

/-- `ReadPackage` once the file is held. -/
def readPackageBytes (host : ModuleHost) (origin : ModuleOrigin) (bytes : Bytes) :
    ModuleDescriptorVerification :=
  if maxPackageTotalBytes < bytes.length then
    { status := .malformed, reason := "this file is too large to be a module package" }
  else if bytes = [] then { status := .notAPackage, reason := "this file is empty" }
  else
    let walked := walkPackage host bytes
    let walk := walked.sink
    if !walked.ok then
      { status := .notAPackage
        reason := if walked.reason = "" then "this file is not a module package"
          else walked.reason }
    else if walk.hashFailed then
      { status := .ioFailed, reason := "a file in it could not be read" }
    else if walk.unknownMeta ≠ [] then
      { status := .malformed
        reason := if walk.unknownMeta.contains moduleDescriptorLegacyBuildKeyPath then
            "it carries " ++ quoted moduleDescriptorLegacyBuildKeyPath ++ ", the key member of " ++
              "an older format; an external descriptor now carries " ++
              quoted moduleDescriptorPublisherKeyPath
          else "it carries " ++ quoted (walk.unknownMeta.headD "") ++
            ", which is not part of the descriptor format" }
    else concludeVerification host origin walk

/-- `ReadPackage`. -/
def readPackage (host : ModuleHost) (origin : ModuleOrigin) (file : PackageFile) :
    ModuleDescriptorVerification :=
  if !host.sodiumReady then
    { status := .ioFailed, reason := "the cryptography library could not be started" }
  else
    match file with
    | .missing => { status := .ioFailed, reason := "this file does not exist" }
    | .unreadable => { status := .ioFailed, reason := "this file could not be read" }
    | .content bytes => readPackageBytes host origin bytes

/-- `VerifyModuleDescriptor`. -/
def verifyModuleDescriptor (host : ModuleHost) : PackageFile → ModuleDescriptorVerification :=
  readPackage host .integrated

/-- `VerifyExternalModuleDescriptor`. -/
def verifyExternalModuleDescriptor (host : ModuleHost) :
    PackageFile → ModuleDescriptorVerification :=
  readPackage host .external

end GpgFrontend
