import GpgFrontend.Base.Hex
import GpgFrontend.Base.Json
import GpgFrontend.Profile.PackageHeader

/-!
# The manifest of a package (`ProfilePackage.cpp`)

The manifest travels inside the sealed body and repeats what the plaintext header
claims, with a digest of the header's very bytes.
-/

namespace GpgFrontend

/-- `ProfilePackageKeyDatabaseEntry`. -/
structure ProfilePackageKeyDatabaseEntry where
  name : String := ""
  storedPath : String := ""
  backendType : String := ""
  external : Bool := false
  deriving Repr, DecidableEq

/-- `ProfilePackageManifest`, with the defaults of the declaration. -/
structure ProfilePackageManifest where
  manifestVersion : Int := 1
  formatVersion : Int := 2
  minReader : Int := 2
  protection : String := ""
  headerDigest : String := ""
  schemaVersion : Int := 0
  minReaderVersion : Int := 0
  appProfile : String := ""
  displayName : String := ""
  profileId : String := ""
  writerVersion : String := ""
  created : String := ""
  packageId : String := ""
  appKeyProtection : String := "none"
  workspaceIncluded : Bool := false
  uncompressedBytes : Int := 0
  selfContained : Bool := false
  keyDatabases : List ProfilePackageKeyDatabaseEntry := []
  unknownFields : JsonObject := []

/-- The members of the manifest's JSON object that this build knows, each missing
when it is absent or of another type, and all the others. -/
structure ManifestDocument where
  manifestVersion : Option Int
  formatVersion : Option Int
  minReader : Option Int
  protection : Option String
  headerDigest : Option String
  schemaVersion : Option Int
  minReaderVersion : Option Int
  appProfile : Option String
  displayName : Option String
  profileId : Option String
  writerVersion : Option String
  created : Option String
  packageId : Option String
  appKeyProtection : Option String
  workspaceIncluded : Option Bool
  uncompressedBytes : Option ℚ
  selfContained : Option Bool
  keyDatabases : List (Option String × Option String × Option String × Option Bool)
  others : JsonObject

/-- `QJsonDocument`, on this one kind of object. -/
structure ManifestCodec where
  toJson : ManifestDocument → Bytes
  fromJson : Bytes → Option ManifestDocument

/-- `kKnown`. -/
def knownManifestKeys : List String :=
  ["manifest_version", "format_version", "min_reader", "protection", "header_digest",
    "schema_version", "min_reader_version", "app_profile", "display_name", "profile_id",
    "writer_version", "created", "package_id", "app_key_protection", "workspace_included",
    "uncompressed_bytes", "self_contained", "key_databases"]

/-- The document a manifest is written as: what this build knows is always written from
the struct. -/
def manifestDocument (manifest : ProfilePackageManifest) : ManifestDocument where
  manifestVersion := some manifest.manifestVersion
  formatVersion := some manifest.formatVersion
  minReader := some manifest.minReader
  protection := some manifest.protection
  headerDigest := some manifest.headerDigest
  schemaVersion := some manifest.schemaVersion
  minReaderVersion := some manifest.minReaderVersion
  appProfile := some manifest.appProfile
  displayName := some manifest.displayName
  profileId := some manifest.profileId
  writerVersion := some manifest.writerVersion
  created := some manifest.created
  packageId := some manifest.packageId
  appKeyProtection := some manifest.appKeyProtection
  workspaceIncluded := some manifest.workspaceIncluded
  uncompressedBytes := some (roundToDouble manifest.uncompressedBytes)
  selfContained := some manifest.selfContained
  keyDatabases := manifest.keyDatabases.map fun entry =>
    (some entry.name, some entry.storedPath, some entry.backendType, some entry.external)
  others := manifest.unknownFields.filter fun member => !knownManifestKeys.contains member.1

/-- `EncodeProfilePackageManifest`. -/
def encodeProfilePackageManifest (codec : ManifestCodec) (manifest : ProfilePackageManifest) :
    Bytes :=
  codec.toJson (manifestDocument manifest)

/-- `ParseProfilePackageManifest`. -/
def parseProfilePackageManifest (codec : ManifestCodec) (outside : CastOutside) (bytes : Bytes) :
    Option ProfilePackageManifest :=
  (codec.fromJson bytes).map fun document => {
    manifestVersion := document.manifestVersion.getD 1
    formatVersion := document.formatVersion.getD 0
    minReader := document.minReader.getD 0
    protection := document.protection.getD ""
    headerDigest := document.headerDigest.getD ""
    schemaVersion := document.schemaVersion.getD 0
    minReaderVersion := document.minReaderVersion.getD 0
    appProfile := document.appProfile.getD ""
    displayName := document.displayName.getD ""
    profileId := document.profileId.getD ""
    writerVersion := document.writerVersion.getD ""
    created := document.created.getD ""
    packageId := document.packageId.getD ""
    appKeyProtection := document.appKeyProtection.getD "none"
    workspaceIncluded := document.workspaceIncluded.getD false
    -- no declared size is zero, and so is a negative one
    uncompressedBytes := max 0 (castQInt64 outside (document.uncompressedBytes.getD 0))
    selfContained := document.selfContained.getD false
    keyDatabases := document.keyDatabases.map fun (name, storedPath, backendType, external) =>
      { name := name.getD ""
        storedPath := storedPath.getD ""
        backendType := backendType.getD ""
        external := external.getD false }
    unknownFields := document.others }

/-- The JSON reader gives back this manifest's document. -/
def ManifestCodec.Keeps (codec : ManifestCodec) (manifest : ProfilePackageManifest) : Prop :=
  codec.fromJson (codec.toJson (manifestDocument manifest)) = some (manifestDocument manifest)

/-- A manifest read back is the one written, up to the precision of the declared
size and the unknown fields that a known one overwrote. -/
theorem parse_encode {codec : ManifestCodec} {outside : CastOutside}
    {manifest : ProfilePackageManifest} (hcodec : codec.Keeps manifest) :
    parseProfilePackageManifest codec outside (encodeProfilePackageManifest codec manifest) =
      some { manifest with
        uncompressedBytes :=
          max 0 (castQInt64 outside (roundToDouble manifest.uncompressedBytes))
        unknownFields :=
          manifest.unknownFields.filter fun member => !knownManifestKeys.contains member.1 } := by
  rw [parseProfilePackageManifest, encodeProfilePackageManifest, hcodec, Option.map_some]
  simp only [manifestDocument, Option.getD_some, List.map_map, Function.comp_def, List.map_id']

/-! ## The digest -/

/-- `ProfilePackageHeaderDigest`, over the unkeyed hash. -/
def profilePackageHeaderDigest (hash : Bytes → Block 32) (headerBytes : Bytes) : String :=
  String.ofList (toHex (hash headerBytes).1)

/-- Equal digests are of equal hashes. -/
theorem profilePackageHeaderDigest_inj {hash : Bytes → Block 32} {a b : Bytes}
    (h : profilePackageHeaderDigest hash a = profilePackageHeaderDigest hash b) : hash a = hash b :=
  Subtype.ext (toHex_inj (String.ofList_injective h))

theorem profilePackageHeaderDigest_ne_empty (hash : Bytes → Block 32) (a : Bytes) :
    profilePackageHeaderDigest hash a ≠ "" := by
  intro h
  have hlen := (hash a).2
  have hnil : toHex (hash a).1 = toHex [] := String.ofList_injective h
  rw [toHex_inj hnil] at hlen
  cases hlen

/-- `CheckPackageHeaderAgainstManifest`: why they disagree, or nothing. -/
def checkPackageHeaderAgainstManifest (hash : Bytes → Block 32) (header : ProfilePackageHeader)
    (headerBytes : Bytes) (manifest : ProfilePackageManifest) : String :=
  if manifest.formatVersion ≠ header.formatVersion ∨ manifest.minReader ≠ header.minReader then
    "the package's version does not match what its header claims"
  else if manifest.protection ≠ header.protection.toText then
    "the package's protection does not match what its header claims"
  else if manifest.headerDigest ≠ "" ∧
      manifest.headerDigest ≠ profilePackageHeaderDigest hash headerBytes then
    "the package's header has been altered since it was written"
  else ""

end GpgFrontend
