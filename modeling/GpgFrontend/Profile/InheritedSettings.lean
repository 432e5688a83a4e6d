import GpgFrontend.Base.Base64
import GpgFrontend.Base.JsonTree
import GpgFrontend.Base.QVariant
import GpgFrontend.Function.SettingCatalog
import GpgFrontend.Module.CanonicalJson

/-!
# What a new profile starts with (`core/profile/Profile.cpp`)

The settings a window hands to a profile it makes, as one argument on a command line: the
allow-list, the snapshot, the token and its reader.

- `inherited_of_decoded`: no text at all is read as a setting outside the allow-list.
-/

namespace GpgFrontend

/-! ## The allow-list -/

/-- `SettingInheritedByNewProfile`. -/
def settingInheritedByNewProfile (key : String) : Bool :=
  (findSetting key).any fun item => item.inheritable && !item.secret

/-- A key is on the list when its entry says so and holds no secret. -/
theorem settingInheritedByNewProfile_iff (key : String) :
    settingInheritedByNewProfile key = true ↔
      ∃ item ∈ settingItems, item.key = key ∧ item.inheritable = true ∧ item.secret = false := by
  rw [settingInheritedByNewProfile]
  constructor
  · intro h
    cases hitem : findSetting key with
    | none => rw [hitem] at h; cases h
    | some item =>
      obtain ⟨hmem, hkey⟩ := mem_of_findSetting hitem
      rw [hitem] at h
      exact ⟨item, hmem, hkey, by simpa using h⟩
  · rintro ⟨item, hmem, rfl, hinherit, hsecret⟩
    rw [findSetting_of_mem hmem, Option.any_some, hinherit, hsecret]
    rfl

/-- The loop body of `SnapshotInheritedSettings`. -/
def snapshotSetting (settings : QMap QVariant) (groups : List SettingGroup)
    (snapshot : QMap QVariant) (item : SettingMeta) : QMap QVariant :=
  if item.group ∉ groups then snapshot
  else if settingInheritedByNewProfile item.key = false then snapshot
  else
    match settings.value item.key with
    | none => snapshot
    | some v => snapshot.insert item.key v

/-- `SnapshotInheritedSettings`. -/
def snapshotInheritedSettings (settings : QMap QVariant) (groups : List SettingGroup) :
    QMap QVariant :=
  settingItems.foldl (snapshotSetting settings groups) QMap.empty

/-! ## The token -/

/-- `QString::toLatin1`: what has no place there is a question mark. -/
def toLatin1 (text : String) : List Char :=
  text.toList.map fun c => if c.toNat < 256 then c else '?'

/-- `EncodeInheritedSettings`. -/
def encodeInheritedSettings (qt : QJsonDocument) (settings : QMap QVariant) : String :=
  if settings.entries = [] then ""
  else String.ofList
    (Base64.encode (qt.toJson .compact (JsonValue.fromMembers settings.entries)))

/-- The loop body of `DecodeInheritedSettings`. -/
def keepInherited (settings : QMap QVariant) (member : String × JsonValue) : QMap QVariant :=
  if settingInheritedByNewProfile member.1 = false then settings
  -- only plain values
  else if member.2.isObject || member.2.isArray then settings
  else settings.insert member.1 member.2.toVariant

/-- `DecodeInheritedSettings`. -/
def decodeInheritedSettings (qt : QJsonDocument) (token : String) : QMap QVariant :=
  if token = "" then QMap.empty
  else
    match Base64.decode (toLatin1 token) with
    | none => QMap.empty
    | some decoded =>
      match qt.fromJson decoded with
      | none => QMap.empty
      | some object => object.foldl keepInherited QMap.empty

/-! ## No key outside the allow-list -/

section Filter

variable {settings : QMap QVariant} {key : String} {member : String × JsonValue}

theorem inherited_keepInherited (h : key ∈ (keepInherited settings member).keys) :
    key ∈ settings.keys ∨ settingInheritedByNewProfile key = true := by
  unfold keepInherited at h
  split at h
  · exact .inl h
  · next hkey =>
    split at h
    · exact .inl h
    · rcases QMap.mem_keys_insert.1 h with rfl | hold
      · exact .inr (by simpa using hkey)
      · exact .inl hold

/-- By induction on the members: each of them adds a key of the allow-list, or none. -/
theorem inherited_foldl {object : JsonObject} (h : key ∈ (object.foldl keepInherited settings).keys) :
    key ∈ settings.keys ∨ settingInheritedByNewProfile key = true := by
  induction object generalizing settings with
  | nil => exact .inl h
  | cons member rest ih =>
    rcases ih h with hfirst | hinherited
    · exact inherited_keepInherited hfirst
    · exact .inr hinherited

theorem inherited_of_decoded {qt : QJsonDocument} {token : String}
    (h : key ∈ (decodeInheritedSettings qt token).keys) :
    settingInheritedByNewProfile key = true := by
  have hnone : key ∉ (QMap.empty : QMap QVariant).keys := by simp
  unfold decodeInheritedSettings at h
  split at h
  · exact (hnone h).elim
  split at h
  · exact (hnone h).elim
  split at h
  · exact (hnone h).elim
  · exact (inherited_foldl h).resolve_left hnone

end Filter

/-! ## Through a token and back -/

section RoundTrip

variable {settings : QMap QVariant} {key : String} {member : String × JsonValue}

/-- What `keepInherited` takes from a member. -/
def inheritedValue (key : String) (v : JsonValue) : Option QVariant :=
  if settingInheritedByNewProfile key = false then none
  else if v.isObject || v.isArray then none
  else some v.toVariant

theorem value_keepInherited_self {v : JsonValue} :
    (keepInherited settings (key, v)).value key = (inheritedValue key v).or (settings.value key) := by
  rw [keepInherited, inheritedValue]
  split
  · rfl
  split
  · rfl
  · exact QMap.value_insert_self

theorem value_keepInherited_ne (h : key ≠ member.1) :
    (keepInherited settings member).value key = settings.value key := by
  rw [keepInherited]
  split
  · rfl
  split
  · rfl
  · exact QMap.value_insert_ne h

/-- By induction on the members, of which none has the name of another. -/
theorem value_foldl {object : JsonObject} (hnodup : (object.map Prod.fst).Nodup) :
    (object.foldl keepInherited settings).value key
      = ((object.value key).bind (inheritedValue key)).or (settings.value key) := by
  induction object generalizing settings with
  | nil => rfl
  | cons member rest ih =>
    obtain ⟨name, v⟩ := member
    obtain ⟨hnew, hrest⟩ := List.nodup_cons.1 hnodup
    rw [List.foldl_cons, ih hrest, JsonObject.value, JsonObject.value, List.lookup_cons]
    by_cases hkey : key = name
    · subst hkey
      have hlater : rest.lookup key = none :=
        List.lookup_eq_none_iff.2 fun member hmember =>
          bne_iff_ne.2 fun heq => hnew (List.mem_map.2 ⟨member, hmember, heq.symm⟩)
      rw [hlater, value_keepInherited_self, beq_self_eq_true]
      rfl
    · rw [beq_false_of_ne hkey, value_keepInherited_ne hkey]

theorem toLatin1_encode (bytes : List UInt8) :
    toLatin1 (String.ofList (Base64.encode bytes)) = Base64.encode bytes := by
  rw [toLatin1, String.toList_ofList]
  refine (List.map_congr_left fun c hc => ?_).trans (List.map_id _)
  obtain ⟨n, hn, rfl⟩ := Base64.mem_encode hc
  exact if_pos (Base64.toNat_digit_lt hn)

theorem inheritedValue_fromVariant {v : QVariant} :
    inheritedValue key (JsonValue.fromVariant v)
      = if settingInheritedByNewProfile key then v.carried else none := by
  rw [inheritedValue, QVariant.carried_eq]
  cases settingInheritedByNewProfile key <;> rfl

/-- What comes out of a token is what may be inherited of what went in, as JSON carries it. -/
theorem decode_encodeInheritedSettings {qt : QJsonDocument}
    (h : qt.Keeps .compact (JsonValue.fromMembers settings.entries)) :
    (decodeInheritedSettings qt (encodeInheritedSettings qt settings)).value key
      = if settingInheritedByNewProfile key then (settings.value key).bind QVariant.carried
        else none := by
  by_cases hempty : settings.entries = []
  · rw [encodeInheritedSettings, if_pos hempty, QMap.value, QMap.value, hempty]
    exact (ite_self _).symm
  · have hread : decodeInheritedSettings qt (encodeInheritedSettings qt settings)
        = (JsonValue.fromMembers settings.entries).foldl keepInherited QMap.empty := by
      rw [encodeInheritedSettings, if_neg hempty, decodeInheritedSettings, if_neg, toLatin1_encode,
        Base64.decode_encode]
      · dsimp only
        rw [h]
      · -- a document is no empty text
        intro htext
        have hdecode := Base64.decode_encode
          (qt.toJson .compact (JsonValue.fromMembers settings.entries))
        rw [String.ofList_eq_empty_iff.1 htext] at hdecode
        exact h.ne_nil (Option.some.inj hdecode).symm
    have hnodup : ((JsonValue.fromMembers settings.entries).map Prod.fst).Nodup := by
      rw [JsonValue.fromMembers_eq_map, List.map_map]
      exact settings.nodup_keys
    have hvalue : JsonObject.value (JsonValue.fromMembers settings.entries) key
        = (settings.value key).map JsonValue.fromVariant := JsonValue.value_fromMembers _ _
    rw [hread, value_foldl hnodup, hvalue]
    cases settings.value key with
    | none => exact (ite_self _).symm
    | some v =>
      show (inheritedValue key (JsonValue.fromVariant v)).or none = _
      rw [Option.or_none, inheritedValue_fromVariant]
      rfl

end RoundTrip

/-! ## The snapshot -/

section Snapshot

variable {settings snapshot : QMap QVariant} {groups : List SettingGroup} {key : String}

theorem value_snapshotSetting_ne {item : SettingMeta} (h : key ≠ item.key) :
    (snapshotSetting settings groups snapshot item).value key = snapshot.value key := by
  rw [snapshotSetting]
  split
  · rfl
  split
  · rfl
  cases settings.value item.key with
  | none => rfl
  | some v => exact QMap.value_insert_ne h

theorem value_snapshotSetting_self {item : SettingMeta} :
    (snapshotSetting settings groups snapshot item).value item.key
      = if item.group ∈ groups ∧ settingInheritedByNewProfile item.key = true then
          (settings.value item.key).or (snapshot.value item.key)
        else snapshot.value item.key := by
  rw [snapshotSetting]
  split
  · next hgroup => exact (if_neg fun h => hgroup h.1).symm
  next hgroup =>
  split
  · next hkey => exact (if_neg fun h => by rw [hkey] at h; cases h.2).symm
  next hkey =>
  rw [if_pos ⟨not_not.1 hgroup, by simpa using hkey⟩]
  cases settings.value item.key with
  | none => rfl
  | some v => exact QMap.value_insert_self

/-- By induction on the catalog: an entry of the key, in one of the groups, takes its value. -/
theorem value_foldl_snapshot {items : List SettingMeta} :
    (items.foldl (snapshotSetting settings groups) snapshot).value key
      = if (∃ item ∈ items, item.key = key ∧ item.group ∈ groups) ∧
          settingInheritedByNewProfile key = true then
          (settings.value key).or (snapshot.value key)
        else snapshot.value key := by
  induction items generalizing snapshot with
  | nil => exact (if_neg fun h => by simp at h).symm
  | cons item rest ih =>
    rw [List.foldl_cons, ih]
    simp only [List.exists_mem_cons_iff]
    by_cases hkey : key = item.key
    · subst hkey
      rw [value_snapshotSetting_self]
      by_cases hinherited : settingInheritedByNewProfile item.key = true
      · by_cases hgroup : item.group ∈ groups
        · simp only [hgroup, hinherited, and_true, if_true, true_or]
          split
          · rw [← Option.or_assoc, Option.or_self]
          · rfl
        · simp only [hgroup, hinherited, and_true, and_false, if_false, false_or]
      · simp [hinherited]
    · rw [value_snapshotSetting_ne hkey]
      simp only [Ne.symm hkey, false_and, false_or]

/-- A setting is taken when it is set, may be inherited and is of a group that is taken. -/
theorem value_snapshotInheritedSettings :
    (snapshotInheritedSettings settings groups).value key
      = if (∃ item ∈ settingItems, item.key = key ∧ item.group ∈ groups) ∧
          settingInheritedByNewProfile key = true then settings.value key
        else none := by
  rw [snapshotInheritedSettings, value_foldl_snapshot]
  split
  · exact Option.or_none
  · rfl

/-- With every group taken, a new profile starts with all that may be inherited. -/
theorem decode_encode_snapshot {qt : QJsonDocument}
    (h : qt.Keeps .compact (JsonValue.fromMembers
      (snapshotInheritedSettings settings inheritableSettingGroups).entries)) :
    (decodeInheritedSettings qt (encodeInheritedSettings qt
        (snapshotInheritedSettings settings inheritableSettingGroups))).value key
      = if settingInheritedByNewProfile key then (settings.value key).bind QVariant.carried
        else none := by
  rw [decode_encodeInheritedSettings h, value_snapshotInheritedSettings]
  by_cases hinherited : settingInheritedByNewProfile key = true
  · obtain ⟨item, hitem, hallowed⟩ := (settingInheritedByNewProfile_iff key).1 hinherited
    have hgroup : ∃ item ∈ settingItems, item.key = key ∧ item.group ∈ inheritableSettingGroups :=
      ⟨item, hitem, hallowed.1, mem_inheritableSettingGroups hitem hallowed.2.1⟩
    rw [if_pos hinherited, if_pos hinherited, if_pos ⟨hgroup, hinherited⟩]
  · rw [if_neg hinherited, if_neg hinherited]

end Snapshot

/-! ## What is inherited, exactly -/

/-- Of any settings, what comes out of their token is the settings that may be inherited, each
with its value as JSON carries it; and of any text, nothing but settings that may be. -/
theorem inherited_settings_exact (qt : QJsonDocument) :
    (∀ settings : QMap QVariant, qt.Keeps .compact (JsonValue.fromMembers settings.entries) →
      ∀ key, (decodeInheritedSettings qt (encodeInheritedSettings qt settings)).value key
        = if settingInheritedByNewProfile key then (settings.value key).bind QVariant.carried
          else none) ∧
    ∀ token key, key ∈ (decodeInheritedSettings qt token).keys →
      settingInheritedByNewProfile key = true :=
  ⟨fun _ h _ => decode_encodeInheritedSettings h, fun _ _ h => inherited_of_decoded h⟩

section Sample

/-- A writer and a reader that know whole numbers and ASCII text. -/
def asciiDocument : QJsonDocument where
  toJson _ object := utf8 ((canonicalValue (.object object)).getD [])
  fromJson bytes :=
    if bytes.all (fun byte => byte.toNat < 128) then
      (readJson (bytes.map fun byte => Char.ofNat byte.toNat)).bind fun
        | .object object => some object
        | _ => none
    else none
  fromJson_nil := by decide

def sampleSettings : QMap QVariant :=
  QMap.empty.insertAll [("basic/default_engine", .string "GNUPG"),
    ("keys/expiring_soon_days", .integer 30), ("basic/confirm_import_keys", .bool true),
    ("workspace/path", .string "/home/x")]

theorem keeps_sampleSettings :
    asciiDocument.Keeps .compact (JsonValue.fromMembers sampleSettings.entries) := by
  rw [QJsonDocument.Keeps]
  decide +kernel

theorem sampleSettings_inherited :
    (∀ key, (decodeInheritedSettings asciiDocument
          (encodeInheritedSettings asciiDocument sampleSettings)).value key
        = if settingInheritedByNewProfile key then
            (sampleSettings.value key).bind QVariant.carried
          else none) ∧
    settingInheritedByNewProfile "workspace/path" = false :=
  ⟨(inherited_settings_exact asciiDocument).1 sampleSettings keeps_sampleSettings, by decide +kernel⟩

/-- A setting that may be inherited arrives as it was set, the workspace path does not. -/
theorem decode_encode_snapshot_days :
    let decoded := decodeInheritedSettings asciiDocument (encodeInheritedSettings asciiDocument
      (snapshotInheritedSettings sampleSettings inheritableSettingGroups))
    decoded.value "keys/expiring_soon_days" = some (.integer 30) ∧
      decoded.value "workspace/path" = none := by
  have hkeeps : asciiDocument.Keeps .compact (JsonValue.fromMembers
      (snapshotInheritedSettings sampleSettings inheritableSettingGroups).entries) := by
    rw [QJsonDocument.Keeps]
    decide +kernel
  have hread (key : String) := @decode_encode_snapshot sampleSettings key asciiDocument hkeeps
  constructor
  · exact (hread _).trans (if_pos (by decide +kernel))
  · exact (hread _).trans (if_neg (by decide +kernel))

/-- `lang=de, en` of a settings file, which is read as a list of texts. -/
def listedLanguage : QMap QVariant := QMap.empty.insert "basic/lang" (.stringList ["de", "en"])

/-- A setting that may be inherited, and whose value is a list, stays behind. -/
theorem listed_setting_stays_behind :
    asciiDocument.Keeps .compact (JsonValue.fromMembers listedLanguage.entries) ∧
    ¬ ∀ key, settingInheritedByNewProfile key = true →
      (decodeInheritedSettings asciiDocument
        (encodeInheritedSettings asciiDocument listedLanguage)).value key
          = listedLanguage.value key := by
  have hkeeps : asciiDocument.Keeps .compact (JsonValue.fromMembers listedLanguage.entries) := by
    rw [QJsonDocument.Keeps]
    decide +kernel
  refine ⟨hkeeps, fun h => ?_⟩
  have hlang := h "basic/lang" (by decide +kernel)
  rw [decode_encodeInheritedSettings hkeeps, if_pos (by decide +kernel)] at hlang
  cases hlang

end Sample

end GpgFrontend
