import GpgFrontend.Profile.Registry

/-!
# The marker as a JSON document (`ProfileMarker.cpp`)

`Registry` takes a marker file for what is parsed from it. Here is the document itself: the
members `ParseProfileMarkerFile` takes out of it and the ones `WriteProfileMarker` puts
into the next one.

- `readMarker`, `markerObject`, `QJsonDocument.markerCodec`.
- `marker_rewrite_keeps_iff`: **a marker survives being read and written back, with the
  members this build does not know, exactly when no reason stands beside a rung that was not
  skipped, and `policy` and `migrations` hold known members only.** Both are written anew
  from typed fields.
-/

namespace GpgFrontend

/-! ## Reading and writing -/

/-- `kKnown`. -/
def knownMarkerKeys : List String :=
  ["schema_version", "min_reader_version", "profile", "last_writer_version",
    "last_writer_stable", "profile_uuid", "profile_id", "display_name", "created",
    "created_by_version", "kind", "last_opened", "package_id", "credential_account", "policy",
    "deployment", "migrations"]

/-- The members of an entry of `migrations`. -/
def knownMigrationKeys : List String :=
  ["from", "to", "name", "at", "by", "skipped", "reason"]

/-- One round of the loop over `migrations`. -/
def readMigration (entry : JsonValue) : ProfileMigrationRecord :=
  let e := entry.toObject
  { fromVersion := (e.int "from").getD 0
    toVersion := (e.int "to").getD 0
    name := (e.text "name").getD ""
    recordedAt := (e.text "at").getD ""
    recordedBy := (e.text "by").getD ""
    skipped := (e.bool "skipped").getD false
    reason := (e.text "reason").getD "" }

/-- The marker `ParseProfileMarkerFile` makes of a document. -/
def readMarker (obj : JsonObject) : StoredProfileMarker where
  schemaVersion := (obj.int "schema_version").getD 0
  minReaderVersion := (obj.int "min_reader_version").getD 0
  profile := (obj.text "profile").getD ""
  lastWriterVersion := (obj.text "last_writer_version").getD ""
  lastWriterStable := (obj.bool "last_writer_stable").getD false
  profileUuid := (obj.text "profile_uuid").getD ""
  profileId := (obj.text "profile_id").getD ""
  displayName := (obj.text "display_name").getD ""
  created := (obj.text "created").getD ""
  createdByVersion := (obj.text "created_by_version").getD ""
  kind := (obj.text "kind").getD ""
  lastOpened := (obj.text "last_opened").getD ""
  packageId := (obj.text "package_id").getD ""
  credentialAccount := (obj.text "credential_account").getD ""
  selfContained := ((obj.object "policy").bool "self_contained").getD false
  deployment := obj.object "deployment"
  migrations := (obj.array "migrations").map readMigration
  unknownFields := obj.filter fun member => !knownMarkerKeys.contains member.1

/-- `put`: an empty text is not written. -/
def JsonObject.putText (o : JsonObject) (key value : String) : JsonObject :=
  if value = "" then o else o.put key (.string value)

/-- The object of one entry of `migrations`. -/
def migrationObject (record : ProfileMigrationRecord) : JsonObject :=
  let e : JsonObject := []
  let e := e.put "from" (.number record.fromVersion)
  let e := e.put "to" (.number record.toVersion)
  let e := e.put "name" (.string record.name)
  let e := e.put "at" (.string record.recordedAt)
  let e := e.put "by" (.string record.recordedBy)
  if record.skipped then (e.put "skipped" (.bool true)).put "reason" (.string record.reason)
  else e

/-- The object of `policy`. -/
def policyObject (selfContained : Bool) : JsonObject :=
  JsonObject.put [] "self_contained" (.bool selfContained)

/-- The document `WriteProfileMarker` writes: unknown members first, so that a known one
wins a collision. -/
def markerObject (marker : StoredProfileMarker) : JsonObject :=
  let obj : JsonObject := marker.unknownFields
  let obj := obj.put "schema_version" (.number marker.schemaVersion)
  let obj := obj.put "min_reader_version" (.number marker.minReaderVersion)
  let obj := obj.put "profile" (.string marker.profile)
  let obj := obj.put "last_writer_version" (.string marker.lastWriterVersion)
  let obj := obj.put "last_writer_stable" (.bool marker.lastWriterStable)
  let obj := obj.putText "profile_uuid" marker.profileUuid
  let obj := obj.putText "profile_id" marker.profileId
  let obj := obj.putText "display_name" marker.displayName
  let obj := obj.putText "created" marker.created
  let obj := obj.putText "created_by_version" marker.createdByVersion
  let obj := obj.putText "kind" marker.kind
  let obj := obj.putText "last_opened" marker.lastOpened
  let obj := obj.putText "package_id" marker.packageId
  let obj := obj.putText "credential_account" marker.credentialAccount
  let obj := obj.put "policy" (.object (policyObject marker.selfContained))
  -- no empty scaffolding: what is absent stays absent
  let obj := obj.putSome "deployment"
    (if marker.deployment.isEmpty then none else some (.object marker.deployment))
  obj.putSome "migrations" (if marker.migrations.isEmpty then none
    else some (.array (marker.migrations.map fun record => .object (migrationObject record))))

namespace QJsonDocument

def markerCodec (qt : QJsonDocument) : MarkerCodec (List UInt8) where
  parse bytes := (qt.fromJson bytes).map readMarker
  serialise marker := qt.toJson .indented (markerObject marker)

/-- The document under one of the marker's two names. -/
def documentIn (qt : QJsonDocument) (folder : Folder (List UInt8)) (name : String) :
    Option JsonObject :=
  ((folder.lookup name).bind FsNode.content).bind qt.fromJson

/-- The document that `ReadProfileMarker` takes the marker from. -/
def markerDocument (qt : QJsonDocument) (folder : Folder (List UInt8)) : Option JsonObject :=
  match qt.documentIn folder profileMarkerName with
  | some doc => some doc
  | none =>
    if !folder.has profileMarkerName then none else qt.documentIn folder markerBackupName

variable {qt : QJsonDocument} {folder : Folder (List UInt8)}

theorem parse_documentIn (name : String) :
    qt.markerCodec.parseProfileMarkerFile folder name = (qt.documentIn folder name).map readMarker := by
  rw [MarkerCodec.parseProfileMarkerFile, documentIn]
  cases (folder.lookup name).bind FsNode.content with
  | none => rfl
  | some bytes => rfl

theorem readProfileMarker_eq :
    qt.markerCodec.readProfileMarker folder = (qt.markerDocument folder).map readMarker := by
  rw [MarkerCodec.readProfileMarker, markerDocument, parse_documentIn, parse_documentIn]
  cases qt.documentIn folder profileMarkerName with
  | some doc => rfl
  | none =>
    rw [Option.map_none]
    dsimp only
    split
    · rfl
    · rfl

/-- What is written is the document read next. -/
theorem markerDocument_write {marker : StoredProfileMarker} (keepsCopy : Bool)
    (hkeeps : qt.Keeps .indented (markerObject marker)) :
    qt.markerDocument (qt.markerCodec.writeProfileMarker true keepsCopy marker folder).2 =
      some (markerObject marker) := by
  have hlookup : (qt.markerCodec.writeProfileMarker true keepsCopy marker folder).2.lookup
      profileMarkerName = some (.file (qt.toJson .indented (markerObject marker))) := by
    have hne : profileMarkerName ≠ markerBackupName := by decide
    rw [MarkerCodec.writeProfileMarker, if_neg (by decide)]
    dsimp only
    split
    · rw [AList.lookup_insert_ne hne, AList.lookup_insert]
      rfl
    · rw [AList.lookup_insert]
      rfl
  have hdocument : qt.documentIn (qt.markerCodec.writeProfileMarker true keepsCopy marker folder).2
      profileMarkerName = some (markerObject marker) := by
    rw [documentIn, hlookup]
    exact hkeeps
  rw [markerDocument, hdocument]

end QJsonDocument

/-! ## What is read back -/

namespace JsonObject

variable {o : JsonObject} {key other text : String} {v : Option JsonValue}

theorem value_putText_ne (h : other ≠ key) : value (putText o key text) other = value o other := by
  unfold putText
  split
  · rfl
  · exact value_put_ne h

theorem value_putSome_ne (h : other ≠ key) : value (putSome o key v) other = value o other := by
  cases v with
  | none => rfl
  | some v => exact value_put_ne h

/-- An empty text that is not written is read as empty. -/
theorem toText_putText (h : value o key = none) :
    ((value (putText o key text) key).bind JsonValue.toText).getD "" = text := by
  unfold putText
  split
  · next hempty =>
    rw [h, hempty]
    rfl
  · rw [value_put_self]
    rfl

theorem toObject_putSome {members : JsonObject} (h : value o key = none) :
    ((value (putSome o key (if members.isEmpty then none else some (.object members))) key).map
      JsonValue.toObject).getD [] = members := by
  cases members with
  | nil =>
    show ((value o key).map JsonValue.toObject).getD [] = []
    rw [h]
    rfl
  | cons member members =>
    show ((value (put o key (.object (member :: members))) key).map JsonValue.toObject).getD [] = _
    rw [value_put_self]
    rfl

theorem toArray_putSome {α : Type} {items : List α} {f : α → JsonValue} (h : value o key = none) :
    ((value (putSome o key (if items.isEmpty then none else some (.array (items.map f)))) key).map
      JsonValue.toArray).getD [] = items.map f := by
  cases items with
  | nil =>
    show ((value o key).map JsonValue.toArray).getD [] = []
    rw [h]
    rfl
  | cons item items =>
    show ((value (put o key (.array ((item :: items).map f))) key).map JsonValue.toArray).getD [] = _
    rw [value_put_self]
    rfl

/-- What is found under a key that was free is what was put there. -/
theorem eq_of_value_putSome {c : Prop} [Decidable c] {w x : JsonValue} (h : value o key = none)
    (hx : value (putSome o key (if c then none else some w)) key = some x) : x = w := by
  split at hx
  · rw [show value (putSome o key none) key = value o key from rfl, h] at hx
    cases hx
  · rw [show value (putSome o key (some w)) key = some w from value_put_self o key w] at hx
    exact (Option.some.inj hx).symm

theorem filter_putText {p : String → Bool} (h : p key = false) :
    (putText o key text).filter (fun member => p member.1) = o.filter fun member => p member.1 := by
  unfold putText
  split
  · rfl
  · exact filter_put h

end JsonObject

/-- What of a record is written: the reason stands beside `skipped` only. -/
def ProfileMigrationRecord.written (record : ProfileMigrationRecord) : ProfileMigrationRecord :=
  if record.skipped then record else { record with reason := "" }

variable {record : ProfileMigrationRecord}

theorem readMigration_object (hfrom : JsonValue.FitsInt record.fromVersion)
    (hto : JsonValue.FitsInt record.toVersion) :
    readMigration (.object (migrationObject record)) = record.written := by
  obtain ⟨fromVersion, toVersion, name, recordedAt, recordedBy, skipped, reason⟩ := record
  cases skipped with
  | true =>
    simp [migrationObject, ProfileMigrationRecord.written, readMigration, JsonValue.toObject,
      JsonObject.int, JsonObject.text, JsonObject.bool, JsonValue.toText, JsonValue.toBool,
      JsonValue.toInt_intCast, hfrom, hto]
  | false =>
    simp [migrationObject, ProfileMigrationRecord.written, readMigration, JsonValue.toObject,
      JsonObject.int, JsonObject.text, JsonObject.bool, JsonValue.toText,
      JsonValue.toInt_intCast, hfrom, hto]

/-- What the reader makes of any document. -/
structure StoredProfileMarker.Readable (marker : StoredProfileMarker) : Prop where
  schemaVersion : JsonValue.FitsInt marker.schemaVersion
  minReaderVersion : JsonValue.FitsInt marker.minReaderVersion
  migrations : ∀ record ∈ marker.migrations,
    JsonValue.FitsInt record.fromVersion ∧ JsonValue.FitsInt record.toVersion
  unknown : ∀ member ∈ marker.unknownFields, member.1 ∉ knownMarkerKeys

theorem readable_readMarker (doc : JsonObject) : (readMarker doc).Readable where
  schemaVersion := JsonObject.fitsInt_of_int (by decide)
  minReaderVersion := JsonObject.fitsInt_of_int (by decide)
  migrations record hrecord := by
    obtain ⟨entry, -, rfl⟩ := List.mem_map.mp hrecord
    exact ⟨JsonObject.fitsInt_of_int (by decide), JsonObject.fitsInt_of_int (by decide)⟩
  unknown member hmember := by
    have hkept := (List.mem_filter.mp hmember).2
    rwa [Bool.not_eq_true', List.contains_eq_mem, decide_eq_false_iff_not] at hkept

theorem StoredProfileMarker.Readable.value_unknown {marker : StoredProfileMarker}
    (h : marker.Readable) (key : String) (hkey : key ∈ knownMarkerKeys) :
    marker.unknownFields.value key = none := by
  cases hvalue : marker.unknownFields.value key with
  | none => rfl
  | some v =>
    obtain ⟨front, back, hmember, -⟩ := List.lookup_eq_some_iff.mp hvalue
    refine absurd hkey (h.unknown (key, v) ?_)
    rw [hmember]
    exact List.mem_append_right front List.mem_cons_self

theorem StoredProfileMarker.eq_of_unknown {a b : StoredProfileMarker}
    (hunknown : a.unknownFields = b.unknownFields)
    (hmembers : { a with unknownFields := b.unknownFields } = b) : a = b := by
  rw [← hunknown] at hmembers
  exact hmembers

/-- What is written over the unknown members is known. -/
theorem unknownFields_markerObject {marker : StoredProfileMarker} (h : marker.Readable) :
    (readMarker (markerObject marker)).unknownFields = marker.unknownFields := by
  have hput {o : JsonObject} {key : String} {v : JsonValue}
      (h : (!knownMarkerKeys.contains key) = false) :=
    JsonObject.filter_put (o := o) (v := v) (p := fun key => !knownMarkerKeys.contains key) h
  have hsome {o : JsonObject} {key : String} {v : Option JsonValue}
      (h : (!knownMarkerKeys.contains key) = false) :=
    JsonObject.filter_putSome (o := o) (v := v) (p := fun key => !knownMarkerKeys.contains key) h
  have htext {o : JsonObject} {key t : String} (h : (!knownMarkerKeys.contains key) = false) :
      (o.putText key t).filter (fun member => !knownMarkerKeys.contains member.1) =
        o.filter fun member => !knownMarkerKeys.contains member.1 :=
    JsonObject.filter_putText (p := fun key => !knownMarkerKeys.contains key) h
  unfold readMarker markerObject
  dsimp only
  rw [hsome (by decide), hsome (by decide), hput (by decide), htext (by decide),
    htext (by decide), htext (by decide), htext (by decide), htext (by decide), htext (by decide),
    htext (by decide), htext (by decide), htext (by decide), hput (by decide), hput (by decide),
    hput (by decide), hput (by decide), hput (by decide), List.filter_eq_self]
  intro member hmember
  rw [Bool.not_eq_true', List.contains_eq_mem, decide_eq_false_iff_not]
  exact h.unknown member hmember

/-- A marker comes back with its records as they were written. -/
theorem readMarker_markerObject {marker : StoredProfileMarker} (h : marker.Readable) :
    readMarker (markerObject marker) =
      { marker with migrations := marker.migrations.map ProfileMigrationRecord.written } := by
  have hmigrations : (marker.migrations.map fun record =>
      JsonValue.object (migrationObject record)).map readMigration =
        marker.migrations.map ProfileMigrationRecord.written := by
    rw [List.map_map]
    exact List.map_congr_left fun record hrecord =>
      readMigration_object (h.migrations record hrecord).1 (h.migrations record hrecord).2
  have hschema := h.schemaVersion
  have hreader := h.minReaderVersion
  have hmissing : ∀ key ∈ knownMarkerKeys, marker.unknownFields.value key = none :=
    h.value_unknown
  refine StoredProfileMarker.eq_of_unknown (unknownFields_markerObject h) ?_
  simp only [readMarker, markerObject, JsonObject.int, JsonObject.text, JsonObject.bool,
    JsonObject.object, JsonObject.array, JsonObject.value_put_self, JsonObject.value_put_ne,
    JsonObject.value_putText_ne, JsonObject.value_putSome_ne, JsonObject.toText_putText,
    JsonObject.toObject_putSome, JsonObject.toArray_putSome, ne_eq, String.reduceEq,
    not_false_eq_true, hmissing "profile_uuid" (by decide), hmissing "profile_id" (by decide),
    hmissing "display_name" (by decide), hmissing "created" (by decide),
    hmissing "created_by_version" (by decide), hmissing "kind" (by decide),
    hmissing "last_opened" (by decide), hmissing "package_id" (by decide),
    hmissing "credential_account" (by decide), hmissing "deployment" (by decide),
    hmissing "migrations" (by decide), hmigrations, policyObject, Option.bind_some,
    Option.map_some, Option.getD_some, JsonValue.toText, JsonValue.toBool, JsonValue.toObject,
    JsonValue.toInt_intCast hschema, JsonValue.toInt_intCast hreader]

/-! ## Members this build does not know -/

/-- A path to a member that `ParseProfileMarkerFile` does not look at, at the top level or
below `policy` or `migrations`. -/
inductive Uninterpreted : List JsonStep → Prop where
  | top {name : String} (h : name ∉ knownMarkerKeys) : Uninterpreted [.key name]
  | policy {path : List JsonStep} {name : String} (h : ¬ (path = [] ∧ name = "self_contained")) :
      Uninterpreted (.key "policy" :: (path ++ [.key name]))
  | migrations {path : List JsonStep} {name : String}
      (h : ¬ ((∃ i, path = [.index i]) ∧ name ∈ knownMigrationKeys)) :
      Uninterpreted (.key "migrations" :: (path ++ [.key name]))

/-- Every member of `policy` is `self_contained`, and every member below `migrations` is
one of an entry's seven. -/
structure KnownMembersOnly (doc : JsonObject) : Prop where
  policy : ∀ ⦃v path name⦄, doc.value "policy" = some v →
    v.at? (path ++ [.key name]) ≠ none → path = [] ∧ name = "self_contained"
  migrations : ∀ ⦃v path name⦄, doc.value "migrations" = some v →
    v.at? (path ++ [.key name]) ≠ none →
      (∃ i, path = [.index i]) ∧ name ∈ knownMigrationKeys

theorem KnownMembersOnly.none_of_uninterpreted {doc : JsonObject} (h : KnownMembersOnly doc)
    {path : List JsonStep} (hpath : Uninterpreted path) {v : JsonValue}
    (hv : JsonValue.at? path (.object doc) = some v) :
    ∃ name, name ∉ knownMarkerKeys ∧ path = [.key name] := by
  cases hpath with
  | top hname => exact ⟨_, hname, rfl⟩
  | policy hnested =>
    obtain ⟨w, hw, hinner⟩ := Option.bind_eq_some_iff.mp hv
    exact absurd (h.policy hw (by rw [hinner]; exact Option.some_ne_none v)) hnested
  | migrations hnested =>
    obtain ⟨w, hw, hinner⟩ := Option.bind_eq_some_iff.mp hv
    exact absurd (h.migrations hw (by rw [hinner]; exact Option.some_ne_none v)) hnested

/-- No reason stands beside a rung that was not skipped. -/
def ReasonsOfSkipped (doc : JsonObject) : Prop :=
  ∀ entry ∈ doc.array "migrations", (readMigration entry).skipped = false →
    (readMigration entry).reason = ""

theorem flat_policyObject (selfContained : Bool) : (policyObject selfContained).Flat :=
  JsonObject.Flat.nil.put _ _ trivial

theorem flat_migrationObject (record : ProfileMigrationRecord) : (migrationObject record).Flat := by
  have hcommon := ((((JsonObject.Flat.nil.put "from" (.number record.fromVersion) trivial).put
    "to" (.number record.toVersion) trivial).put "name" (.string record.name) trivial).put
    "at" (.string record.recordedAt) trivial).put "by" (.string record.recordedBy) trivial
  unfold migrationObject
  dsimp only
  split
  · exact (hcommon.put "skipped" (.bool true) trivial).put "reason" (.string record.reason) trivial
  · exact hcommon

theorem value_migrationObject_none {name : String} (h : name ∉ knownMigrationKeys) :
    (migrationObject record).value name = none := by
  simp only [knownMigrationKeys, List.mem_cons, List.not_mem_nil, or_false, not_or] at h
  obtain ⟨hfrom, hto, hname, hat, hby, hskipped, hreason⟩ := h
  unfold migrationObject
  dsimp only
  split
  · rw [JsonObject.value_put_ne hreason, JsonObject.value_put_ne hskipped,
      JsonObject.value_put_ne hby, JsonObject.value_put_ne hat, JsonObject.value_put_ne hname,
      JsonObject.value_put_ne hto, JsonObject.value_put_ne hfrom, JsonObject.value_nil]
  · rw [JsonObject.value_put_ne hby, JsonObject.value_put_ne hat, JsonObject.value_put_ne hname,
      JsonObject.value_put_ne hto, JsonObject.value_put_ne hfrom, JsonObject.value_nil]

section Written

variable {marker : StoredProfileMarker}

theorem value_markerObject_policy :
    (markerObject marker).value "policy" = some (.object (policyObject marker.selfContained)) := by
  simp only [markerObject, JsonObject.value_put_self, JsonObject.value_putSome_ne, ne_eq,
    String.reduceEq, not_false_eq_true]

theorem value_markerObject_migrations (h : marker.Readable) {v : JsonValue}
    (hv : (markerObject marker).value "migrations" = some v) :
    v = .array (marker.migrations.map fun record => .object (migrationObject record)) := by
  have hmissing := h.value_unknown "migrations" (by decide)
  refine JsonObject.eq_of_value_putSome ?_ hv
  simp only [JsonObject.value_put_ne, JsonObject.value_putText_ne, JsonObject.value_putSome_ne,
    ne_eq, String.reduceEq, not_false_eq_true, hmissing]

/-- Members this build does not know are written as they were read. -/
theorem value_markerObject_unknown (h : marker.Readable) {name : String}
    (hname : name ∉ knownMarkerKeys) :
    (markerObject marker).value name = marker.unknownFields.value name := by
  have hkeep : (!knownMarkerKeys.contains name) = true := by
    rw [Bool.not_eq_true', List.contains_eq_mem, decide_eq_false_iff_not]
    exact hname
  rw [← unknownFields_markerObject h]
  exact (JsonObject.value_filter (p := fun key => !knownMarkerKeys.contains key) hkeep).symm

/-- Below `policy` and `migrations` nothing is written that this build does not know. -/
theorem knownMembersOnly_markerObject (h : marker.Readable) :
    KnownMembersOnly (markerObject marker) where
  policy v path name hv hsome := by
    rw [value_markerObject_policy] at hv
    obtain rfl := Option.some.inj hv
    obtain ⟨hpath, hvalue⟩ := JsonValue.at?_flat (flat_policyObject _) hsome
    refine ⟨hpath, by_contra fun hname => hvalue ?_⟩
    exact JsonObject.value_put_ne hname
  migrations v path name hv hsome := by
    obtain rfl := value_markerObject_migrations h hv
    cases path with
    | nil => exact absurd rfl hsome
    | cons step path =>
      cases step with
      | key k => exact absurd rfl hsome
      | index i =>
        rw [List.cons_append, JsonValue.at?, List.getElem?_map] at hsome
        cases hrecord : marker.migrations[i]? with
        | none =>
          rw [hrecord] at hsome
          exact absurd rfl hsome
        | some record =>
          rw [hrecord] at hsome
          obtain ⟨rfl, hvalue⟩ := JsonValue.at?_flat (flat_migrationObject record) hsome
          refine ⟨⟨i, rfl⟩, by_contra fun hname => hvalue ?_⟩
          exact value_migrationObject_none hname

end Written

/-! ## Reading and writing back -/

theorem ProfileMigrationRecord.written_eq_iff :
    record.written = record ↔ (record.skipped = false → record.reason = "") := by
  obtain ⟨fromVersion, toVersion, name, recordedAt, recordedBy, skipped, reason⟩ := record
  cases skipped with
  | true => exact iff_of_true rfl fun h => Bool.noConfusion h
  | false =>
    constructor
    · exact fun h _ => (congrArg ProfileMigrationRecord.reason h).symm
    · intro h
      have hreason : reason = "" := h rfl
      rw [hreason]
      rfl

/-- The marker itself comes back exactly when every reason does. -/
theorem readMarker_again_iff {doc : JsonObject} :
    readMarker (markerObject (readMarker doc)) = readMarker doc ↔ ReasonsOfSkipped doc := by
  rw [readMarker_markerObject (readable_readMarker doc)]
  have hrecords : ((readMarker doc).migrations.map ProfileMigrationRecord.written =
      (readMarker doc).migrations) ↔ ReasonsOfSkipped doc := by
    show ((doc.array "migrations").map readMigration).map ProfileMigrationRecord.written =
      (doc.array "migrations").map readMigration ↔ _
    rw [List.map_map, List.map_inj_left]
    exact forall₂_congr fun entry _ => ProfileMigrationRecord.written_eq_iff
  rw [← hrecords]
  constructor
  · exact fun h => congrArg (fun marker => marker.migrations) h
  · intro h
    rw [h]

/-- **What a rewrite of the marker keeps.** -/
theorem marker_rewrite_keeps_iff {qt : QJsonDocument} {folder : Folder (List UInt8)}
    {doc : JsonObject} {marker : StoredProfileMarker} (keepsCopy : Bool)
    (hdoc : qt.markerDocument folder = some doc)
    (hread : qt.markerCodec.readProfileMarker folder = some marker)
    (hkeeps : qt.Keeps .indented (markerObject marker)) :
    (let rewritten := (qt.markerCodec.writeProfileMarker true keepsCopy marker folder).2
     qt.markerCodec.readProfileMarker rewritten = some marker ∧
      ∃ doc', qt.markerDocument rewritten = some doc' ∧
        ∀ path v, Uninterpreted path → JsonValue.at? path (.object doc) = some v →
          JsonValue.at? path (.object doc') = some v) ↔
      ReasonsOfSkipped doc ∧ KnownMembersOnly doc := by
  rw [QJsonDocument.readProfileMarker_eq, hdoc] at hread
  obtain rfl := Option.some.inj hread
  have hreadable := readable_readMarker doc
  dsimp only
  rw [QJsonDocument.readProfileMarker_eq, QJsonDocument.markerDocument_write keepsCopy hkeeps,
    Option.map_some, Option.some.injEq, readMarker_again_iff]
  refine and_congr_right fun _ => ⟨?_, ?_⟩
  · rintro ⟨doc', hdoc', hkept⟩
    obtain rfl := Option.some.inj hdoc'
    -- what is nested and not known would have been written, and is not
    have hnone : ∀ {path : List JsonStep}, Uninterpreted path →
        JsonValue.at? path (.object doc) ≠ none →
          ∃ name, name ∉ knownMarkerKeys ∧ path = [.key name] := by
      intro path hpath hsome
      obtain ⟨v, hv⟩ := Option.ne_none_iff_exists'.mp hsome
      exact (knownMembersOnly_markerObject hreadable).none_of_uninterpreted hpath
        (hkept path v hpath hv)
    constructor
    · intro v path name hv hsome
      by_contra hunknown
      obtain ⟨top, -, htop⟩ := hnone (.policy hunknown) (by
        rw [JsonValue.at?, hv]
        exact hsome)
      simp at htop
    · intro v path name hv hsome
      by_contra hunknown
      obtain ⟨top, -, htop⟩ := hnone (.migrations hunknown) (by
        rw [JsonValue.at?, hv]
        exact hsome)
      simp at htop
  · intro hknown
    refine ⟨_, rfl, fun path v hpath hv => ?_⟩
    obtain ⟨name, hname, rfl⟩ := hknown.none_of_uninterpreted hpath hv
    have hkeep : (!knownMarkerKeys.contains name) = true := by
      rw [Bool.not_eq_true', List.contains_eq_mem, decide_eq_false_iff_not]
      exact hname
    rw [JsonValue.at?, value_markerObject_unknown hreadable hname,
      show (readMarker doc).unknownFields.value name = doc.value name from
        JsonObject.value_filter (p := fun key => !knownMarkerKeys.contains key) hkeep]
    exact hv

section Sample

/-- A marker with a rung that was skipped and a member of a later build. -/
def sampleStoredMarker : StoredProfileMarker where
  schemaVersion := 2
  profile := "work"
  selfContained := true
  migrations := [⟨1, 2, "ini", "", "2.2.0", true, "no settings"⟩]
  unknownFields := [("theme", .string "dark")]

def sampleMarkerFolder : Folder (List UInt8) := AList.singleton profileMarkerName (.file [1])

theorem readable_sampleStoredMarker : sampleStoredMarker.Readable where
  schemaVersion := by decide
  minReaderVersion := by decide
  migrations record hrecord := by
    obtain rfl := List.mem_singleton.mp hrecord
    exact ⟨by decide, by decide⟩
  unknown member hmember := by
    obtain rfl := List.mem_singleton.mp hmember
    decide

theorem readMarker_sample : readMarker (markerObject sampleStoredMarker) = sampleStoredMarker :=
  readMarker_markerObject readable_sampleStoredMarker

theorem marker_rewrite_keeps_iff_sample :
    let doc := markerObject sampleStoredMarker
    let qt := labelJson doc doc
    let rewritten := (qt.markerCodec.writeProfileMarker true false sampleStoredMarker
      sampleMarkerFolder).2
    qt.markerCodec.readProfileMarker rewritten = some sampleStoredMarker := by
  intro doc qt rewritten
  have hdoc : qt.markerDocument sampleMarkerFolder = some doc := rfl
  have hread : qt.markerCodec.readProfileMarker sampleMarkerFolder = some sampleStoredMarker :=
    congrArg some readMarker_sample
  have hreasons : ReasonsOfSkipped doc := by
    rw [← readMarker_again_iff, readMarker_sample, readMarker_sample]
  exact ((marker_rewrite_keeps_iff false hdoc hread rfl).mpr
    ⟨hreasons, knownMembersOnly_markerObject readable_sampleStoredMarker⟩).1

/-- The same marker, with a member of a later build inside `policy`. -/
def sampleNestedDocument : JsonObject :=
  (markerObject sampleStoredMarker).put "policy"
    (.object [("expires", .number 30), ("self_contained", .bool true)])

/-- A member that a later build keeps inside `policy` does not survive. -/
theorem nested_member_is_lost :
    ∃ (doc : JsonObject) (marker : StoredProfileMarker) (path : List JsonStep),
      let qt := labelJson doc (markerObject marker)
      let rewritten := (qt.markerCodec.writeProfileMarker true true marker sampleMarkerFolder).2
      qt.markerDocument sampleMarkerFolder = some doc ∧
        qt.markerCodec.readProfileMarker sampleMarkerFolder = some marker ∧
        qt.Keeps .indented (markerObject marker) ∧ Uninterpreted path ∧
        JsonValue.at? path (.object doc) = some (.number 30) ∧
        qt.markerDocument rewritten = some (markerObject marker) ∧
        JsonValue.at? path (.object (markerObject marker)) = none := by
  refine ⟨sampleNestedDocument, readMarker sampleNestedDocument,
    [.key "policy", .key "expires"], ?_⟩
  intro qt rewritten
  have hkeeps : qt.Keeps .indented (markerObject (readMarker sampleNestedDocument)) := rfl
  have hpath : Uninterpreted (.key "policy" :: ([] ++ [.key "expires"])) := .policy (by decide)
  refine ⟨rfl, rfl, hkeeps, hpath, ?_,
    QJsonDocument.markerDocument_write true hkeeps, ?_⟩
  · rw [JsonValue.at?, sampleNestedDocument, JsonObject.value_put_self]
    rfl
  · rw [JsonValue.at?, value_markerObject_policy]
    rfl

end Sample

end GpgFrontend
