import GpgFrontend.Profile.PackageManifest

/-!
# The two codecs of a package, down to the JSON object (`ProfilePackage.cpp`)

`PackageHeader` and `PackageManifest` take the members of a document as they are read.
Here they are put into a `QJsonObject` and taken out of it, one by one.

- `headerCodec`, `manifestCodec`: the codecs of both over one `QJsonDocument`.
- `readHeader_headerObject`, `readManifest_manifestObject`: what is put in comes out.
- `package_codecs_round_trip`: **a header is read back with the length it was written with,
  a plain manifest is read back whole, and so is every manifest that was ever read.**
-/

namespace GpgFrontend

/-! ## The header -/

/-- The object of `EncodeProfilePackageHeader`. -/
def headerObject (document : HeaderDocument) : JsonObject :=
  let json : JsonObject := []
  let json := json.put "format" (.string document.format)
  let json := json.put "format_version" (.number document.formatVersion)
  let json := json.put "min_reader" (.number document.minReader)
  let json := json.put "writer" (.string document.writer)
  let json := json.put "writer_stable" (.bool document.writerStable)
  let json := json.put "created" (.string document.created)
  let json := json.put "protection" (.string document.protection)
  json.put "container" (.string document.container)

/-- The members `ParseProfilePackageHeader` reads. -/
def readHeader (json : JsonObject) : HeaderDocument where
  format := (json.text "format").getD ""
  formatVersion := (json.int "format_version").getD 0
  minReader := (json.int "min_reader").getD 0
  writer := (json.text "writer").getD ""
  writerStable := (json.bool "writer_stable").getD false
  created := (json.text "created").getD ""
  protection := (json.text "protection").getD ""
  container := (json.text "container").getD ""

def QJsonDocument.headerCodec (qt : QJsonDocument) : HeaderCodec where
  toJson document := qt.toJson .compact (headerObject document)
  fromJson bytes := (qt.fromJson bytes).map readHeader

/-- The two versions are `int`s. -/
structure ProfilePackageHeader.Fits (header : ProfilePackageHeader) : Prop where
  formatVersion : JsonValue.FitsInt header.formatVersion
  minReader : JsonValue.FitsInt header.minReader

theorem readHeader_headerObject {document : HeaderDocument}
    (hversion : JsonValue.FitsInt document.formatVersion)
    (hreader : JsonValue.FitsInt document.minReader) :
    readHeader (headerObject document) = document := by
  simp [readHeader, headerObject, JsonObject.text, JsonObject.int, JsonObject.bool,
    JsonValue.toText, JsonValue.toBool, JsonValue.toInt_intCast, hversion, hreader]

variable {qt : QJsonDocument}

theorem headerCodec_keeps {header : ProfilePackageHeader} (hfits : header.Fits)
    (hkeeps : qt.Keeps .compact (headerObject (headerDocument header))) :
    qt.headerCodec.Keeps header := by
  show (qt.fromJson (qt.toJson .compact (headerObject (headerDocument header)))).map readHeader =
    some (headerDocument header)
  rw [hkeeps, Option.map_some, readHeader_headerObject hfits.formatVersion hfits.minReader]

/-! ## The manifest -/

/-- The object of one entry of `key_databases`. -/
def keyDatabaseObject : Option String × Option String × Option String × Option Bool → JsonObject
  | (name, storedPath, backendType, external) =>
    let item : JsonObject := []
    let item := item.putSome "name" (name.map .string)
    let item := item.putSome "stored_path" (storedPath.map .string)
    let item := item.putSome "backend_type" (backendType.map .string)
    item.putSome "external" (external.map .bool)

/-- The object of `EncodeProfilePackageManifest`, over what this build did not
understand. -/
def manifestObject (document : ManifestDocument) : JsonObject :=
  let json : JsonObject := document.others
  let json := json.putSome "manifest_version" (document.manifestVersion.map (.number ·))
  let json := json.putSome "format_version" (document.formatVersion.map (.number ·))
  let json := json.putSome "min_reader" (document.minReader.map (.number ·))
  let json := json.putSome "protection" (document.protection.map .string)
  let json := json.putSome "header_digest" (document.headerDigest.map .string)
  let json := json.putSome "schema_version" (document.schemaVersion.map (.number ·))
  let json := json.putSome "min_reader_version" (document.minReaderVersion.map (.number ·))
  let json := json.putSome "app_profile" (document.appProfile.map .string)
  let json := json.putSome "display_name" (document.displayName.map .string)
  let json := json.putSome "profile_id" (document.profileId.map .string)
  let json := json.putSome "writer_version" (document.writerVersion.map .string)
  let json := json.putSome "created" (document.created.map .string)
  let json := json.putSome "package_id" (document.packageId.map .string)
  let json := json.putSome "app_key_protection" (document.appKeyProtection.map .string)
  let json := json.putSome "workspace_included" (document.workspaceIncluded.map .bool)
  let json := json.putSome "uncompressed_bytes" (document.uncompressedBytes.map .number)
  let json := json.putSome "self_contained" (document.selfContained.map .bool)
  json.put "key_databases"
    (.array (document.keyDatabases.map fun entry => .object (keyDatabaseObject entry)))

/-- The members of an entry of `key_databases`. -/
def readKeyDatabase (item : JsonValue) :
    Option String × Option String × Option String × Option Bool :=
  let object := item.toObject
  (object.text "name", object.text "stored_path", object.text "backend_type",
    object.bool "external")

/-- The members `ParseProfilePackageManifest` reads, and those that are not known. -/
def readManifest (json : JsonObject) : ManifestDocument where
  manifestVersion := json.int "manifest_version"
  formatVersion := json.int "format_version"
  minReader := json.int "min_reader"
  protection := json.text "protection"
  headerDigest := json.text "header_digest"
  schemaVersion := json.int "schema_version"
  minReaderVersion := json.int "min_reader_version"
  appProfile := json.text "app_profile"
  displayName := json.text "display_name"
  profileId := json.text "profile_id"
  writerVersion := json.text "writer_version"
  created := json.text "created"
  packageId := json.text "package_id"
  appKeyProtection := json.text "app_key_protection"
  workspaceIncluded := json.bool "workspace_included"
  uncompressedBytes := json.double "uncompressed_bytes"
  selfContained := json.bool "self_contained"
  keyDatabases := (json.array "key_databases").map readKeyDatabase
  others := json.filter fun member => !knownManifestKeys.contains member.1

def QJsonDocument.manifestCodec (qt : QJsonDocument) : ManifestCodec where
  toJson document := qt.toJson .indented (manifestObject document)
  fromJson bytes := (qt.fromJson bytes).map readManifest

/-- The five versions are `int`s. -/
structure ProfilePackageManifest.Fits (manifest : ProfilePackageManifest) : Prop where
  manifestVersion : JsonValue.FitsInt manifest.manifestVersion
  formatVersion : JsonValue.FitsInt manifest.formatVersion
  minReader : JsonValue.FitsInt manifest.minReader
  schemaVersion : JsonValue.FitsInt manifest.schemaVersion
  minReaderVersion : JsonValue.FitsInt manifest.minReaderVersion

theorem readKeyDatabase_object (entry : ProfilePackageKeyDatabaseEntry) :
    readKeyDatabase (.object (keyDatabaseObject
      (some entry.name, some entry.storedPath, some entry.backendType, some entry.external))) =
        (some entry.name, some entry.storedPath, some entry.backendType, some entry.external) := by
  simp [readKeyDatabase, keyDatabaseObject, JsonObject.putSome, JsonObject.text, JsonObject.bool,
    JsonValue.toText, JsonValue.toBool, JsonValue.toObject]

/-- What is written over the unknown fields is known. -/
theorem others_manifestObject (document : ManifestDocument) :
    (readManifest (manifestObject document)).others =
      document.others.filter fun member => !knownManifestKeys.contains member.1 := by
  have hput {o : JsonObject} {key : String} {v : Option JsonValue}
      (h : (!knownManifestKeys.contains key) = false) :=
    JsonObject.filter_putSome (o := o) (v := v) (p := fun key => !knownManifestKeys.contains key) h
  unfold readManifest manifestObject
  dsimp only
  rw [JsonObject.filter_put (p := fun key => !knownManifestKeys.contains key) (by decide),
    hput (by decide), hput (by decide), hput (by decide), hput (by decide), hput (by decide),
    hput (by decide), hput (by decide), hput (by decide), hput (by decide), hput (by decide),
    hput (by decide), hput (by decide), hput (by decide), hput (by decide), hput (by decide),
    hput (by decide), hput (by decide)]

theorem ManifestDocument.eq_of_others {a b : ManifestDocument} (hothers : a.others = b.others)
    (hmembers : { a with others := b.others } = b) : a = b := by
  rw [← hothers] at hmembers
  exact hmembers

variable {manifest : ProfilePackageManifest}

theorem readManifest_manifestObject (hfits : manifest.Fits) :
    readManifest (manifestObject (manifestDocument manifest)) = manifestDocument manifest := by
  obtain ⟨hmanifest, hformat, hreader, hschema, hversion⟩ := hfits
  obtain ⟨size, hround, hagain⟩ := roundToDouble_round manifest.uncompressedBytes
  refine ManifestDocument.eq_of_others ?_ ?_
  · rw [others_manifestObject, manifestDocument, List.filter_filter]
    simp only [Bool.and_self]
  · simp only [readManifest, manifestObject, manifestDocument, JsonObject.putSome,
      JsonObject.text, JsonObject.int, JsonObject.bool, JsonObject.double, JsonObject.array,
      Option.map_some, Option.elim_some]
    simp [JsonValue.toText, JsonValue.toBool, JsonValue.toInt_intCast, JsonValue.toDouble,
      JsonValue.toArray, readKeyDatabase_object, hmanifest, hformat, hreader, hschema, hversion,
      hround, hagain]

theorem manifestCodec_keeps (hfits : manifest.Fits)
    (hkeeps : qt.Keeps .indented (manifestObject (manifestDocument manifest))) :
    qt.manifestCodec.Keeps manifest := by
  show (qt.fromJson (qt.toJson .indented (manifestObject (manifestDocument manifest)))).map
    readManifest = some (manifestDocument manifest)
  rw [hkeeps, Option.map_some, readManifest_manifestObject hfits]

/-- What a manifest needs to be read back whole: `unknown_fields` holds what this build
did not recognise, never a name it knows. -/
structure ProfilePackageManifest.Plain (outside : CastOutside) (manifest : ProfilePackageManifest) :
    Prop extends manifest.Fits where
  size : max 0 (castQInt64 outside (roundToDouble manifest.uncompressedBytes)) =
    manifest.uncompressedBytes
  unknown : ∀ member ∈ manifest.unknownFields, member.1 ∉ knownManifestKeys

variable {outside : CastOutside}

theorem parse_encode_of_plain (hplain : manifest.Plain outside)
    (hkeeps : qt.Keeps .indented (manifestObject (manifestDocument manifest))) :
    parseProfilePackageManifest qt.manifestCodec outside
      (encodeProfilePackageManifest qt.manifestCodec manifest) = some manifest := by
  rw [parse_encode (manifestCodec_keeps hplain.toFits hkeeps), hplain.size,
    List.filter_eq_self.mpr]
  intro member hmember
  rw [Bool.not_eq_true', List.contains_eq_mem, decide_eq_false_iff_not]
  exact hplain.unknown member hmember

/-! ## What was read is plain -/

/-- What is read of a number that a document can hold is whole once it is truncated. -/
theorem roundToDouble_of_read {o : JsonObject} {key : String}
    (hstored : ∀ v, o.value key = some v → v.Stored) :
    roundToDouble (truncateDouble ((o.double key).getD 0)) =
      truncateDouble ((o.double key).getD 0) := by
  cases h : o.double key with
  | none => exact roundToDouble_of_lt (by decide)
  | some x =>
    obtain ⟨v, hvalue, hv⟩ := Option.bind_eq_some_iff.mp h
    cases v with
    | number q =>
      obtain rfl := Option.some.inj hv
      rw [Option.getD_some]
      by_cases hden : q.den = 1
      · obtain ⟨m, hround, hagain⟩ := roundToDouble_round q.num
        rw [if_pos hden, hround, truncateDouble_intCast, hagain]
      · rw [if_neg hden]
        exact roundToDouble_truncate (fun h => absurd h hden) (hstored _ hvalue)
    | null => cases hv
    | bool value => cases hv
    | string value => cases hv
    | array items => cases hv
    | object members => cases hv

theorem plain_of_parse {bytes : Bytes}
    (hstored : ∀ o, qt.fromJson bytes = some o →
      ∀ v, o.value "uncompressed_bytes" = some v → v.Stored)
    (hparse : parseProfilePackageManifest qt.manifestCodec outside bytes = some manifest) :
    manifest.Plain outside := by
  obtain ⟨document, hdocument, rfl⟩ := Option.map_eq_some_iff.mp hparse
  obtain ⟨o, hread, rfl⟩ := Option.map_eq_some_iff.mp hdocument
  refine ⟨⟨?_, ?_, ?_, ?_, ?_⟩, ?_, ?_⟩
  · exact JsonObject.fitsInt_of_int (by decide)
  · exact JsonObject.fitsInt_of_int (by decide)
  · exact JsonObject.fitsInt_of_int (by decide)
  · exact JsonObject.fitsInt_of_int (by decide)
  · exact JsonObject.fitsInt_of_int (by decide)
  · exact castQInt64_again (roundToDouble_of_read (hstored o hread))
  · intro member hmember
    have hkept := (List.mem_filter.mp hmember).2
    rwa [Bool.not_eq_true', List.contains_eq_mem, decide_eq_false_iff_not] at hkept

/-! ## Round trips -/

/-- Whatever stands behind a header, and whether or not this build may read the rest. -/
theorem header_view {header : ProfilePackageHeader} (rest : Bytes) (hfits : header.Fits)
    (hkeeps : qt.Keeps .compact (headerObject (headerDocument header)))
    (hlimit : (qt.toJson .compact (headerObject (headerDocument header))).length ≤ maxHeaderLength) :
    parseProfilePackageHeader qt.headerCodec
        (encodeProfilePackageHeader qt.headerCodec header ++ rest) =
      if profilePackageFormatVersion < header.minReader then
        ⟨.tooNew, tooNewDetail header.writer, header,
          encodeProfilePackageHeader qt.headerCodec header⟩
      else ⟨.ok, "", header, encodeProfilePackageHeader qt.headerCodec header⟩ := by
  set json := qt.toJson .compact (headerObject (headerDocument header)) with hjson
  have hlen : (encodeProfilePackageHeader qt.headerCodec header).length =
      profilePackageMagicLength + 4 + json.length := by
    have hshape : encodeProfilePackageHeader qt.headerCodec header =
        profilePackageMagic ++ (bigEndian32 json.length ++ json) := rfl
    rw [hshape, List.length_append, List.length_append, length_bigEndian32,
      length_profilePackageMagic]
    omega
  have hpos : 0 < json.length := List.length_pos_iff.mpr hkeeps.ne_nil
  have hn : (encodeProfilePackageHeader qt.headerCodec header).length ≤
      (encodeProfilePackageHeader qt.headerCodec header ++ rest).length := by
    rw [List.length_append]
    exact Nat.le_add_right _ _
  have hread := parse_encode_header (b := rest) (headerCodec_keeps hfits hkeeps) (by omega)
    (by omega) hn
  rwa [List.take_length] at hread

/-- **Both codecs read back what they wrote**, and a manifest that was ever accepted is
accepted again as it is, whatever the machine makes of a size no `qint64` holds. A header
that asks for a later reader is read back as well, and refused. -/
theorem package_codecs_round_trip (qt : QJsonDocument) (outside : CastOutside) :
    (∀ (header : ProfilePackageHeader) (rest : Bytes), header.Fits →
      qt.Keeps .compact (headerObject (headerDocument header)) →
      (qt.toJson .compact (headerObject (headerDocument header))).length ≤ maxHeaderLength →
      let encoded := encodeProfilePackageHeader qt.headerCodec header
      let view := parseProfilePackageHeader qt.headerCodec (encoded ++ rest)
      view.header = header ∧ view.headerBytes = encoded ∧ view.bodyOffset = encoded.length ∧
        view.status = if profilePackageFormatVersion < header.minReader then .tooNew else .ok) ∧
    (∀ manifest : ProfilePackageManifest, manifest.Fits →
      0 ≤ manifest.uncompressedBytes → manifest.uncompressedBytes < 2 ^ 53 →
      (∀ member ∈ manifest.unknownFields, member.1 ∉ knownManifestKeys) →
      qt.Keeps .indented (manifestObject (manifestDocument manifest)) →
      parseProfilePackageManifest qt.manifestCodec outside
        (encodeProfilePackageManifest qt.manifestCodec manifest) = some manifest) ∧
    (∀ (accepted : Bytes) (manifest : ProfilePackageManifest),
      (∀ o, qt.fromJson accepted = some o →
        ∀ v, o.value "uncompressed_bytes" = some v → v.Stored) →
      parseProfilePackageManifest qt.manifestCodec outside accepted = some manifest →
      qt.Keeps .indented (manifestObject (manifestDocument manifest)) →
      parseProfilePackageManifest qt.manifestCodec outside
        (encodeProfilePackageManifest qt.manifestCodec manifest) = some manifest) := by
  refine ⟨?_, ?_, ?_⟩
  · intro header rest hfits hkeeps hlimit encoded view
    have hview : view = _ := header_view rest hfits hkeeps hlimit
    rw [hview, ProfilePackageHeaderView.bodyOffset]
    split
    · exact ⟨rfl, rfl, rfl, rfl⟩
    · exact ⟨rfl, rfl, rfl, rfl⟩
  · intro manifest hfits hnonneg hlt hunknown hkeeps
    have hsmall : manifest.uncompressedBytes.natAbs < 9007199254740992 := by omega
    refine parse_encode_of_plain ⟨hfits, ?_, hunknown⟩ hkeeps
    rw [roundToDouble_of_lt hsmall, castQInt64_intCast (by omega) (by omega), max_eq_right hnonneg]
  · intro accepted manifest hstored hparse hkeeps
    exact parse_encode_of_plain (plain_of_parse hstored hparse) hkeeps

section Sample

def sampleRoutingHeader : ProfilePackageHeader where
  writer := "2.2.0"
  created := "2026-01-01T00:00:00Z"

/-- One key database and one field of a later build. -/
def sampleCodecManifest : ProfilePackageManifest where
  protection := "pin"
  displayName := "work"
  uncompressedBytes := 4096
  keyDatabases := [{ name := "DEFAULT", storedPath := "@profile/keys", backendType := "rpgp" }]
  unknownFields := [("tags", .array [.string "a", .null])]

def sampleJson (manifest : ProfilePackageManifest) : QJsonDocument :=
  labelJson (headerObject (headerDocument sampleRoutingHeader))
    (manifestObject (manifestDocument manifest))

theorem package_codecs_round_trip_sample :
    (parseProfilePackageHeader (sampleJson sampleCodecManifest).headerCodec
      (encodeProfilePackageHeader (sampleJson sampleCodecManifest).headerCodec sampleRoutingHeader ++
        [7])).header = sampleRoutingHeader ∧
    parseProfilePackageManifest (sampleJson sampleCodecManifest).manifestCodec .nearest
      (encodeProfilePackageManifest (sampleJson sampleCodecManifest).manifestCodec
        sampleCodecManifest) = some sampleCodecManifest := by
  obtain ⟨hheader, hmanifest, hagain⟩ := package_codecs_round_trip (sampleJson sampleCodecManifest) .nearest
  have hfits : sampleCodecManifest.Fits :=
    ⟨by decide, by decide, by decide, by decide, by decide⟩
  have hunknown : ∀ member ∈ sampleCodecManifest.unknownFields, member.1 ∉ knownManifestKeys := by
    intro member hmember
    obtain rfl := List.mem_singleton.mp hmember
    decide
  have hparse := hmanifest sampleCodecManifest hfits (by decide) (by decide) hunknown rfl
  refine ⟨(hheader sampleRoutingHeader [7] ⟨by decide, by decide⟩ rfl (by decide)).1,
    hagain [2] sampleCodecManifest ?_ hparse rfl⟩
  intro o ho v hv
  obtain rfl := Option.some.inj ho
  simp [manifestObject, manifestDocument, JsonObject.putSome, sampleCodecManifest,
    roundToDouble] at hv
  rw [← hv]
  exact fun hden => absurd rfl hden

end Sample

end GpgFrontend
