import GpgFrontend.Base.FsTree
import GpgFrontend.Base.Json
import GpgFrontend.Profile.Loader
import GpgFrontend.Profile.Migration

/-!
# The profiles on this machine (`ProfileRegistry.cpp`, `ProfileMarker.cpp`)

A directory under the profiles root is a profile when its name is a profile id and
it holds a marker; nothing else is recorded about which profiles exist.
-/

namespace GpgFrontend

variable {β : Type}

/-! ## The marker -/

/-- `ProfileMarker`, every field of it. -/
structure StoredProfileMarker extends ProfileMarker where
  lastWriterStable : Bool := false
  profileId : String := ""
  displayName : String := ""
  kind : String := ""
  packageId : String := ""
  credentialAccount : String := ""
  selfContained : Bool := false
  deployment : JsonObject := []
  unknownFields : JsonObject := []

/-- The JSON of a marker file: nothing is parsed from a file that does not open or
is not a JSON object. -/
structure MarkerCodec (β : Type) where
  parse : β → Option StoredProfileMarker
  serialise : StoredProfileMarker → β

/-- The name under `ProfileMarkerPathFor`. -/
def profileMarkerName : String := "profile.json"

/-- The name under `BackupPathFor`. -/
def markerBackupName : String := "profile.json.bak"

/-- The name of the copy kept of damaged bytes, `stamp` being the time. -/
def corruptMarkerName (stamp : String) : String := profileMarkerName ++ ".corrupt-" ++ stamp

namespace MarkerCodec

variable (codec : MarkerCodec β)

/-- `ParseProfileMarkerFile`. -/
def parseProfileMarkerFile (folder : Folder β) (name : String) :
    Option StoredProfileMarker :=
  ((folder.lookup name).bind FsNode.content).bind codec.parse

/-- The copy `ReadProfileMarker` makes, of a marker file that opens and is no marker. -/
def corruptCopy (copies : Bool) (folder : Folder β) : Option (FsNode β) :=
  ((folder.lookup profileMarkerName).bind FsNode.content).bind fun content =>
    if (codec.parse content).isNone && copies then some (.file content) else none

/-- What `ReadProfileMarker` leaves in the folder: no copy is put over what is there. -/
def keepCorruptMarker (copies : Bool) (stamp : String) (folder : Folder β) : Folder β :=
  match codec.corruptCopy copies folder with
  | none => folder
  | some copy =>
    if folder.has (corruptMarkerName stamp) then folder
    else folder.insert (corruptMarkerName stamp) copy

/-- What `ReadProfileMarker` returns: an unreadable marker gives way to the last good
copy, a missing one does not. -/
def readProfileMarker (folder : Folder β) : Option StoredProfileMarker :=
  match codec.parseProfileMarkerFile folder profileMarkerName with
  | some marker => some marker
  | none =>
    if !folder.has profileMarkerName then none
    else codec.parseProfileMarkerFile folder markerBackupName

/-- `WriteProfileMarker`; a file is replaced whole or not at all. -/
def writeProfileMarker (writes keepsCopy : Bool) (marker : StoredProfileMarker)
    (folder : Folder β) : Bool × Folder β :=
  if !writes then (false, folder)
  else
    let written := folder.insert profileMarkerName (.file (codec.serialise marker))
    (true, if keepsCopy then written.insert markerBackupName (.file (codec.serialise marker))
      else written)

variable {codec} {folder : Folder β}

theorem ne_corruptMarkerName (name : String) (h : name.length < 21) (stamp : String) :
    name ≠ corruptMarkerName stamp := by
  rintro rfl
  rw [corruptMarkerName, String.length_append] at h
  exact absurd (Nat.le_add_right 21 stamp.length) (Nat.not_le.mpr h)

variable {copies : Bool} {stamp : String}

theorem lookup_keepCorruptMarker_ne {name : String} (h : name ≠ corruptMarkerName stamp) :
    (codec.keepCorruptMarker copies stamp folder).lookup name = folder.lookup name := by
  unfold keepCorruptMarker
  split
  · rfl
  · split
    · rfl
    · exact AList.lookup_insert_ne h

theorem lookup_keepCorruptMarker_self :
    (codec.keepCorruptMarker copies stamp folder).lookup (corruptMarkerName stamp) =
      (folder.lookup (corruptMarkerName stamp)).or (codec.corruptCopy copies folder) := by
  unfold keepCorruptMarker
  cases codec.corruptCopy copies folder with
  | none => rw [Option.or_none]
  | some copy =>
    dsimp only
    split
    · next hhas =>
      obtain ⟨node, hnode⟩ := Option.isSome_iff_exists.mp hhas
      rw [hnode, Option.some_or]
    · next hhas =>
      rw [AList.lookup_insert, Folder.has_eq_false.mp (Bool.eq_false_iff.mpr hhas), Option.none_or]

/-- The copy is not read: neither the marker nor its last good copy has its name. -/
theorem parse_keepCorruptMarker {name : String} (h : name.length < 21) :
    codec.parseProfileMarkerFile (codec.keepCorruptMarker copies stamp folder) name =
      codec.parseProfileMarkerFile folder name := by
  rw [parseProfileMarkerFile, lookup_keepCorruptMarker_ne (ne_corruptMarkerName name h stamp),
    parseProfileMarkerFile]

theorem has_keepCorruptMarker :
    (codec.keepCorruptMarker copies stamp folder).has profileMarkerName =
      folder.has profileMarkerName := by
  rw [Folder.has, lookup_keepCorruptMarker_ne (ne_corruptMarkerName _ (by decide) stamp), Folder.has]

theorem readProfileMarker_keepCorruptMarker :
    codec.readProfileMarker (codec.keepCorruptMarker copies stamp folder) =
      codec.readProfileMarker folder := by
  rw [readProfileMarker, parse_keepCorruptMarker (by decide), parse_keepCorruptMarker (by decide),
    has_keepCorruptMarker, readProfileMarker]

theorem readProfileMarker_of_parse {marker : StoredProfileMarker}
    (h : codec.parseProfileMarkerFile folder profileMarkerName = some marker) :
    codec.readProfileMarker folder = some marker := by
  rw [readProfileMarker, h]

theorem readProfileMarker_of_unreadable (hhas : folder.has profileMarkerName = true)
    (h : codec.parseProfileMarkerFile folder profileMarkerName = none) :
    codec.readProfileMarker folder = codec.parseProfileMarkerFile folder markerBackupName := by
  rw [readProfileMarker, h, hhas]
  rfl

end MarkerCodec

/-! ## The scan -/

/-- `IsWindowsDeviceName`. -/
def isWindowsDeviceName (id : String) : Bool :=
  ["con", "prn", "aux", "nul", "com1", "com2", "com3", "com4", "com5", "com6", "com7", "com8",
    "com9", "lpt1", "lpt2", "lpt3", "lpt4", "lpt5", "lpt6", "lpt7", "lpt8", "lpt9"].contains
    (String.ofList (id.toList.map Char.toLower))

/-- The class `[a-z0-9_-]`. -/
def isProfileIdChar (c : Char) : Bool := c.isLower || c.isDigit || c == '_' || c == '-'

/-- `^[a-z0-9_-]+$`, where `$` also stands before a line feed at the very end. -/
def matchesProfileIdPattern (id : List Char) : Bool :=
  let body := if id.getLast? = some '\n' then id.dropLast else id
  !body.isEmpty && body.all isProfileIdChar

/-- `IsValidProfileId`. -/
def isValidProfileId (id : String) : Bool :=
  if id = "" ∨ 64 < id.length then false
  else if isWindowsDeviceName id then false
  else if !matchesProfileIdPattern id.toList then false
  else !(id.toList.head? == some '-')

/-- An entry of the profiles root: a directory with its contents, or something
else. -/
inductive RootEntry (β : Type) where
  | directory (contents : Folder β)
  | other

/-- The profiles root; one that does not exist lists nothing. -/
structure ProfilesRoot (β : Type) where
  path : String
  entries : AList fun _ : String => RootEntry β

/-- `ProfileKindFromString`. -/
def ProfileKind.ofText (value : String) : ProfileKind :=
  if value = "portable" then portableRoot
  else if value = "named" then persist
  else if value = "package_linked" then packaged
  else if value = "ephemeral" then ephemeral
  else installedRoot

/-- `ProfileRegistryEntry`. -/
structure ProfileRegistryEntry where
  id : String
  root : String
  name : String := ""
  lastOpened : String := ""
  kind : ProfileKind := .persist
  packageId : String := ""
  isImplicit : Bool := false
  deriving Repr, DecidableEq

/-- What a directory with a marker is listed as. -/
def registryEntry (path id : String) (marker : Option StoredProfileMarker) :
    ProfileRegistryEntry :=
  match marker with
  | none => { id := id, root := path ++ "/" ++ id, name := id }
  | some marker =>
    { id := id
      root := path ++ "/" ++ id
      name := if marker.displayName = "" then id else marker.displayName
      kind := if marker.kind = "" then .persist else .ofText marker.kind
      lastOpened := marker.lastOpened
      packageId := marker.packageId }

@[simp] theorem registryEntry_id (path id : String) (marker : Option StoredProfileMarker) :
    (registryEntry path id marker).id = id := by
  cases marker <;> rfl

/-- The names `ScanProfilesRoot` looks into. -/
def isListedName (id : String) : Bool := !(id.toList.head? == some '.') && isValidProfileId id

namespace ProfilesRoot

variable (codec : MarkerCodec β) (root : ProfilesRoot β)

/-- The body of the loop of `ScanProfilesRoot`, on one directory. -/
def scanDirectory (path id : String) (contents : Folder β) : Option ProfileRegistryEntry :=
  if !isListedName id then none
  else if !contents.has profileMarkerName then none
  else some (registryEntry path id (codec.readProfileMarker contents))

/-- The same, on any entry of the root: only directories are looked into. -/
def scanEntry (path id : String) : RootEntry β → Option ProfileRegistryEntry
  | .other => none
  | .directory contents => scanDirectory codec path id contents

/-- `ScanProfilesRoot`. -/
def scanProfilesRoot : List ProfileRegistryEntry :=
  root.entries.entries.filterMap fun e => scanEntry codec root.path e.1 e.2

/-- `MintProfileDirectoryId`: the first of sixteen draws that is a valid id nothing
is named by. -/
def mintProfileDirectoryId (draws : List String) : Option String :=
  (draws.take 16).find? fun id => isValidProfileId id && (root.entries.lookup id).isNone

/-- The root with one directory's contents replaced. -/
def set (id : String) (contents : Folder β) : ProfilesRoot β :=
  { root with entries := root.entries.insert id (.directory contents) }

variable {codec root}

variable {path id : String} {contents : Folder β}

theorem scanDirectory_of_unlisted (h : isListedName id = false) :
    scanDirectory codec path id contents = none := by
  rw [scanDirectory, h]
  rfl

theorem scanDirectory_of_unmarked (h : contents.has profileMarkerName = false) :
    scanDirectory codec path id contents = none := by
  rw [scanDirectory, h]
  split <;> rfl

theorem scanDirectory_of_marked (hlisted : isListedName id = true)
    (h : contents.has profileMarkerName = true) :
    scanDirectory codec path id contents =
      some (registryEntry path id (codec.readProfileMarker contents)) := by
  rw [scanDirectory, hlisted, h]
  rfl

theorem scanDirectory_keepCorruptMarker {copies : Bool} {stamp : String} :
    scanDirectory codec path id (codec.keepCorruptMarker copies stamp contents) =
      scanDirectory codec path id contents := by
  unfold scanDirectory
  rw [MarkerCodec.has_keepCorruptMarker, MarkerCodec.readProfileMarker_keepCorruptMarker]

variable {e : ProfileRegistryEntry}

theorem scanDirectory_id (h : scanDirectory codec path id contents = some e) : e.id = id := by
  unfold scanDirectory at h
  split at h
  · cases h
  split at h
  · cases h
  · rw [← Option.some.inj h, registryEntry_id]

theorem scanEntry_id {entry : RootEntry β} (h : scanEntry codec path id entry = some e) :
    e.id = id := by
  cases entry with
  | other => cases h
  | directory contents => exact scanDirectory_id h

theorem mem_scanProfilesRoot :
    e ∈ root.scanProfilesRoot codec ↔
      (root.entries.lookup e.id).bind (scanEntry codec root.path e.id) = some e := by
  rw [scanProfilesRoot, List.mem_filterMap, Option.bind_eq_some_iff]
  constructor
  · rintro ⟨⟨id, entry⟩, hmem, hscan⟩
    obtain rfl : e.id = id := scanEntry_id hscan
    exact ⟨entry, AList.mem_lookup_iff.mpr hmem, hscan⟩
  · rintro ⟨entry, hlookup, hscan⟩
    exact ⟨⟨e.id, entry⟩, AList.mem_lookup_iff.mp hlookup, hscan⟩

/-- Replacing one directory changes what a scan finds exactly when that directory
is listed differently. -/
theorem scanProfilesRoot_set_iff :
    (∀ e, e ∈ (root.set id contents).scanProfilesRoot codec ↔ e ∈ root.scanProfilesRoot codec) ↔
      scanDirectory codec root.path id contents =
        (root.entries.lookup id).bind (scanEntry codec root.path id) := by
  have hat : ∀ e : ProfileRegistryEntry, e.id = id →
      (e ∈ (root.set id contents).scanProfilesRoot codec ↔
        scanDirectory codec root.path id contents = some e) := by
    rintro e rfl
    rw [mem_scanProfilesRoot, set, AList.lookup_insert]
    rfl
  have hbefore : ∀ e : ProfileRegistryEntry, e.id = id →
      (e ∈ root.scanProfilesRoot codec ↔
        (root.entries.lookup id).bind (scanEntry codec root.path id) = some e) := by
    rintro e rfl
    exact mem_scanProfilesRoot
  constructor
  · intro h
    apply Option.ext
    intro e
    constructor
    · intro he
      have hid : e.id = id := scanDirectory_id he
      exact (hbefore e hid).mp ((h e).mp ((hat e hid).mpr he))
    · intro he
      obtain ⟨entry, -, hscan⟩ := Option.bind_eq_some_iff.mp he
      have hid : e.id = id := scanEntry_id hscan
      exact (hat e hid).mp ((h e).mpr ((hbefore e hid).mpr he))
  · intro h e
    by_cases hid : e.id = id
    · rw [hat e hid, hbefore e hid, h]
    · rw [mem_scanProfilesRoot, mem_scanProfilesRoot, set, AList.lookup_insert_ne hid]

end ProfilesRoot

end GpgFrontend
