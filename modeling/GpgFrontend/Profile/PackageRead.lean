import GpgFrontend.Function.AESCryptoHelper
import GpgFrontend.Function.ArchiveFileOperator
import GpgFrontend.Profile.PackageFeeder
import GpgFrontend.Profile.PackageManifest

/-!
# Reading a package (`ReadProfilePackage`)

The routing header decides how the body is opened: a streamed body chunk by chunk
while it is unpacked, a body of the first format whole. What was unpacked is believed
only once the sealed manifest in it has been compared with the header.
-/

namespace GpgFrontend

/-- `ProfilePackageReadStatus`. -/
inductive ProfilePackageReadStatus where
  | ok | notAPackage | tooNew | badPassphrase | tampered | malformed | noSpace | tooLarge | ioFailed
  deriving Repr, DecidableEq

/-- `ProfilePackageReadResult`. -/
structure ProfilePackageReadResult where
  status : ProfilePackageReadStatus
  detail : String := ""
  header : ProfilePackageHeader := {}
  manifest : ProfilePackageManifest := {}

/-- What a reader takes from its libraries and its build. -/
structure PackageReading (S : SecretStream) where
  pwhash : Bytes → Bytes → Option Bytes
  hash : Bytes → Block 32
  sodium : Sodium
  codec : HeaderCodec
  manifestCodec : ManifestCodec
  castOutside : CastOutside
  unarchive : Bytes → ArchiveStream
  formattedDataSize : Nat → String
  payloadCap : Nat

/-- What the steps of one read do. -/
structure ReadSteps where
  opens : Bool
  headReads : Bool
  readsWhole : Bool
  bodyOpens : Bool
  bodyReads : Nat → Bool
  pipe : Nat → PipeWrite
  extraction : ExtractionSteps
  manifestReads : Bool
  /-- What `RemoveDirectoryQuietly` leaves of the staging directory. -/
  removeStaging : FsNode Bytes → Option (FsNode Bytes)

/-- `ProfileExtractionRouting`: the directories held elsewhere, and the store for the
entries below them. -/
structure ProfileExtractionRouting (τ : Type) where
  residentDirs : List String
  store : String → Bytes → τ → Bool × τ

/-- `path.section('/', 1)`. -/
def pathBelowTop (path : String) : String :=
  String.ofList ((path.toList.dropWhile (· ≠ '/')).drop 1)

/-- `path.split('/', Qt::SkipEmptyParts)`. -/
def pathParts (path : String) : List (List Char) :=
  (path.toList.splitOnP (· == '/')).filter fun part => !part.isEmpty

namespace ProfileExtractionRouting

variable {τ : Type} (routing : ProfileExtractionRouting τ)

/-- `divert`. -/
def claims (path : String) : Bool :=
  match pathParts path with
  | top :: dir :: _ =>
    String.ofList top == "profile" && routing.residentDirs.contains (String.ofList dir)
  | _ => false

/-- `divert` and `sink`, when the routing is active. -/
def diversion : Option (Diversion τ) :=
  if routing.residentDirs.isEmpty then none
  else some ⟨routing.claims, fun path bytes s => routing.store (pathBelowTop path) bytes s⟩

end ProfileExtractionRouting

/-- `kProfilePackageStreamedFrom`. -/
def profilePackageStreamedFrom : Int := 2

section Read

variable {S : SecretStream} {τ : Type} (R : PackageReading S) (steps : ReadSteps)
  (routing : ProfileExtractionRouting τ)

/-- What a refused header is reported as. -/
def headerRefusal (view : ProfilePackageHeaderView) : ProfilePackageReadResult :=
  { status := match view.status with
      | .tooNew => .tooNew
      | .notAPackage => .notAPackage
      | _ => .malformed
    detail := view.detail }

/-- The block that opens a body of the first format whole. -/
def legacyPayload (view : ProfilePackageHeaderView) (passphrase file : Bytes) :
    Except ProfilePackageReadResult Bytes :=
  if R.payloadCap < file.length then
    .error {
      status := .tooLarge
      detail := R.formattedDataSize file.length ++ " / " ++ R.formattedDataSize R.payloadCap
      header := view.header }
  else if !steps.readsWhole then
    .error { status := .ioFailed, detail := "this file could not be read", header := view.header }
  else if view.header.protection = .pin then
    match AESCryptoHelper.sodiumDecryptImpl R.sodium false passphrase (file.drop view.bodyOffset) with
    | none =>
      .error {
        status := .badPassphrase
        detail := "the passphrase does not open this package"
        header := view.header }
    | some payload => .ok payload
  else .ok (file.drop view.bodyOffset)

/-- The feeder thread: whether the body is good, and the bytes that went into the
pipe. -/
def deliverBody (view : ProfilePackageHeaderView) (passphrase file : Bytes)
    (payload : Option Bytes) : Bool × Bytes :=
  match payload with
  | some payload => (true, (steps.pipe 0).queued payload)
  | none =>
    let f := feed S R.pwhash steps.pipe steps.bodyOpens
      ⟨file.drop view.bodyOffset, 0, steps.bodyReads⟩ passphrase
      (view.header.protection = .pin)
    (f.bodyOk, f.fed)

/-- The policy of a package: what the file weighs decides how much it may unpack to. -/
def packagePolicy (fileBytes : Nat) : ArchiveExtractPolicy :=
  .strict (max (64 * 1024 * 1024) (fileBytes * 100 : Nat)) 200000

/-- The extraction of what came through the pipe. -/
def unpackBody (file delivered : Bytes) (staging : Option (FsNode Bytes)) (sink : τ) :
    ExtractionResult τ :=
  extractArchive steps.extraction (packagePolicy file.length) routing.diversion true
    (R.unarchive delivered) staging sink

/-- `ReadWholeFile` of the manifest. -/
def readManifestFile (children : List (String × FsNode Bytes)) : Option Bytes :=
  match (FsNode.find "manifest.json" children).bind FsNode.content with
  | none => none
  | some bytes =>
    if !steps.manifestReads then none
    else if maxHeaderLength * 16 < bytes.length then none
    else some bytes

/-- What is checked once everything is unpacked. -/
def checkUnpacked (view : ProfilePackageHeaderView) (children : List (String × FsNode Bytes)) :
    ProfilePackageReadResult :=
  match (readManifestFile steps children).bind
    (parseProfilePackageManifest R.manifestCodec R.castOutside) with
  | none =>
    { status := .malformed, detail := "the package does not describe itself", header := view.header }
  | some manifest =>
    let mismatch := checkPackageHeaderAgainstManifest R.hash view.header view.headerBytes manifest
    if mismatch ≠ "" then { status := .tampered, detail := mismatch, header := view.header }
    else if (FsNode.find "profile" children).isNone then
      { status := .malformed, detail := "the package carries no profile", header := view.header }
    else { status := .ok, header := view.header, manifest := manifest }

/-- What a read returns, and where it leaves the staging directory and the storage. -/
structure PackageRead (τ : Type) where
  result : ProfilePackageReadResult
  staging : Option (FsNode Bytes)
  sink : τ

/-- `ReadProfilePackage` from the feeder on. -/
def readPackageBody (view : ProfilePackageHeaderView) (passphrase file : Bytes) (payload : Option Bytes)
    (staging : Option (FsNode Bytes)) (sink : τ) : PackageRead τ :=
  let delivered := deliverBody R steps view passphrase file payload
  let unpacked := unpackBody R steps routing file delivered.2 staging sink
  let abandon (result : ProfilePackageReadResult) : PackageRead τ :=
    ⟨result, unpacked.destination.bind steps.removeStaging, unpacked.sink⟩
  if !delivered.1 then
    abandon {
      status := .badPassphrase
      detail := "the passphrase does not open this package"
      header := view.header }
  else if !unpacked.ok then
    abandon {
      status := .malformed
      detail := if unpacked.reason = "" then "the package's contents could not be unpacked"
        else "the package's contents could not be unpacked: " ++ unpacked.reason
      header := view.header }
  else
    let children := match unpacked.destination with
      | some (.dir children) => children
      | _ => []
    let result := checkUnpacked R steps view children
    if result.status = .ok then ⟨result, unpacked.destination, unpacked.sink⟩
    else abandon result

/-- `ReadProfilePackage` of a file that holds `file`. -/
def readProfilePackage (passphrase file : Bytes) (staging : Option (FsNode Bytes)) (sink : τ) :
    PackageRead τ :=
  if !steps.opens then
    ⟨{ status := .ioFailed, detail := "this file could not be read" }, staging, sink⟩
  else
    let head := if steps.headReads then
      file.take (profilePackageMagicLength + 4 + maxHeaderLength) else []
    let view := parseProfilePackageHeader R.codec head
    if view.status ≠ .ok then ⟨headerRefusal view, staging, sink⟩
    else if profilePackageStreamedFrom ≤ view.header.formatVersion then
      readPackageBody R steps routing view passphrase file none staging sink
    else
      match legacyPayload R steps view passphrase file with
      | .error result => ⟨result, staging, sink⟩
      | .ok payload => readPackageBody R steps routing view passphrase file (some payload) staging sink

end Read

end GpgFrontend
