import GpgFrontend.Function.ArchiveFileOperator
import GpgFrontend.Profile.PackageManifest
import GpgFrontend.Profile.PackageWrite

/-!
# Exporting a profile (`ExportProfilePackage`)

An export fixes the header, fills the manifest in from it, and hands the members of
the package, the manifest first, to the archive that `WriteProfilePackage` seals.
-/

namespace GpgFrontend

/-- `ProfileMember`; a member that is a file on the disk comes with what the file
holds. -/
structure ProfileMember where
  path : String
  directory : Bool := false
  bytes : Bytes := []
  deriving Repr, DecidableEq

/-- What `TreeMemberSource` finds: why it cannot be walked, or its size, its members
in order and what it leaves out. -/
structure TreeWalk where
  error : String := ""
  bytes : Int := 0
  members : List ProfileMember := []
  skipped : List String := []

/-- `ProfileExportRequest`. `settingsIni` is what `RenderSettingsIni` makes of the
settings, and `walk` what the tree holds beside the members named. -/
structure ProfileExportRequest where
  fileName : String
  includeWorkspace : Bool := false
  protection : ProfilePackageProtection := .pin
  secureMembers : List ProfileMember
  dataObjectMembers : List ProfileMember := []
  passphrase : Bytes
  settingsIni : Option Bytes
  manifest : ProfilePackageManifest
  walk : List String → TreeWalk

/-- What an export draws at random and takes from its build and its libraries.
`pack` is `NewArchiveFromMembersToSink`. -/
structure PackageExport (S : SecretStream) where
  pwhash : Bytes → Bytes → Option Bytes
  hash : Bytes → Block 32
  codec : HeaderCodec
  manifestCodec : ManifestCodec
  pack : List ArchiveMember → ArchiveOutput
  projectVersion : String
  isStableBuild : Bool
  nowIso : String
  packageUuid : String
  temporaryUuid : String
  backupUuid : String
  salt : Block packageSaltLen
  streamHeader : Block SecretStream.headerBytes

section Export

variable {S : SecretStream} (E : PackageExport S) (request : ProfileExportRequest)

/-- `synthesised`, once the settings are rendered. -/
def synthesisedMembers (settingsIni : Bytes) : List ProfileMember :=
  request.secureMembers ++ { path := "config/config.ini", bytes := settingsIni } ::
    request.dataObjectMembers.filter fun member => member.path ≠ ""

/-- The header of an export. -/
def exportHeader : ProfilePackageHeader where
  writer := E.projectVersion
  writerStable := E.isStableBuild
  created := E.nowIso
  protection := request.protection

/-- The manifest: the identity fields of the request, and the rest filled in. -/
def exportManifest (unpacked : Int) : ProfilePackageManifest :=
  let header := exportHeader E request
  { request.manifest with
    uncompressedBytes := unpacked
    formatVersion := header.formatVersion
    minReader := header.minReader
    protection := header.protection.toText
    headerDigest := profilePackageHeaderDigest E.hash (encodeProfilePackageHeader E.codec header)
    writerVersion := header.writer
    created := header.created
    workspaceIncluded := request.includeWorkspace
    appKeyProtection := "none"
    packageId := if request.manifest.packageId = "" then E.packageUuid
      else request.manifest.packageId }

/-- The path of a member in the archive. -/
def memberPath (member : ProfileMember) : String := "profile/" ++ member.path

/-- A member of the tree. -/
def treeMember (member : ProfileMember) : ArchiveMember where
  relativePath := memberPath member
  directory := member.directory
  bytes := member.bytes

/-- A member named in the request: always a file. -/
def extraMember (member : ProfileMember) : ArchiveMember where
  relativePath := memberPath member
  bytes := member.bytes

/-- The members of the archive in order. -/
def exportMembers (manifestBytes : Bytes) (synthesised : List ProfileMember) (tree : TreeWalk) :
    List ArchiveMember :=
  { relativePath := "manifest.json", bytes := manifestBytes } ::
    (synthesised.map extraMember ++ tree.members.map treeMember)

/-- What an export packs: the manifest, and the members behind it. -/
structure ExportContent where
  manifest : ProfilePackageManifest
  members : List ArchiveMember

/-- `ExportProfilePackage` up to the write. -/
def exportContent : Except String ExportContent :=
  if request.protection = .pin ∧ request.passphrase = [] then
    .error "a protected package cannot be written without a passphrase"
  else if request.secureMembers = [] then
    .error "the application key could not be written into the package"
  else
    match request.settingsIni with
    | none => .error "the settings could not be written into the package"
    | some settingsIni =>
      let synthesised := synthesisedMembers request settingsIni
      let tree := request.walk (synthesised.map ProfileMember.path)
      if tree.error ≠ "" then .error tree.error
      else
        let unpacked := tree.bytes + (synthesised.map fun member => (member.bytes.length : Int)).sum
        let manifest := exportManifest E request unpacked
        .ok {
          manifest := manifest
          members := exportMembers (encodeProfilePackageManifest E.manifestCodec manifest)
            synthesised tree }

/-- The write an export makes. -/
def exportJob (content : ExportContent) : PackageWriteJob S where
  pwhash := E.pwhash
  codec := E.codec
  header := exportHeader E request
  passphrase := request.passphrase
  fileName := request.fileName
  temporaryUuid := E.temporaryUuid
  backupUuid := E.backupUuid
  salt := E.salt
  streamHeader := E.streamHeader
  archive := E.pack content.members

/-- `ExportProfilePackage`. -/
def exportProfilePackage (env : PackageWriteOutcomes) :
    CrashM PackageDisk ProfilePackageWriteResult :=
  match exportContent E request with
  | .error why => pure (.failed why)
  | .ok content => writeProfilePackage (exportJob E request content) env

end Export

end GpgFrontend
