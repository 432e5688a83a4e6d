import GpgFrontend.Profile.PackageManifest
import GpgFrontend.Profile.Registry

/-!
# Adopting an unpacked package (`AdoptExtractedProfile`, `AdoptProfilePackage`)

An unpacked package is moved into a profile's folder entry by entry, and its marker
is then rewritten under a new identity. Every filesystem step may fail.

- `moveTreeAcrossFilesystems_whole`: a move that reports success moved everything.
-/

namespace GpgFrontend

variable {β : Type}

/-! ## Moving a tree -/

/-- What the filesystem calls of a move do, by the path of the entry they are about. -/
structure MoveFaults (β : Type) where
  renames : String → Bool
  makesDir : List String → Bool
  copies : List String → Bool
  /-- What a failed `QFile::copy` leaves at its destination. -/
  torn : List String → Option β
  /-- What the removal of a half-made copy leaves of it. -/
  remains : String → FsNode β → Option (FsNode β)

namespace MoveFaults

variable (env : MoveFaults β)

mutual

/-- `CopyTreeAcross`: the verdict, and what is at the destination. -/
def copyTreeAcross (path : List String) : FsNode β → Bool × Option (FsNode β)
  | .link _ => (false, none)  -- a package carries no links, by design
  | .file content =>
    if env.copies path then (true, some (.file content))
    else (false, (env.torn path).map .file)
  | .dir children =>
    if env.makesDir path then
      ((copyChildren path children).1, some (.dir (copyChildren path children).2))
    else (false, none)

/-- The loop of `CopyTreeAcross` over a directory. -/
def copyChildren (path : List String) : List (String × FsNode β) → Bool × List (String × FsNode β)
  | [] => (true, [])
  | (name, node) :: rest =>
    let copied := copyTreeAcross (path ++ [name]) node
    let kept := (copied.2.map fun left => (name, left)).toList
    if copied.1 then ((copyChildren path rest).1, kept ++ (copyChildren path rest).2)
    else (false, kept)

end

end MoveFaults

/-- What a move reports, and what is at its destination afterwards. -/
structure MoveOutcome (β : Type) where
  ok : Bool
  left : Option (FsNode β)

/-- `MoveTreeAcrossFilesystems`, of an entry onto a name in the destination folder
that holds `existing`. -/
def moveTreeAcrossFilesystems (env : MoveFaults β) (existing : Option (FsNode β))
    (name : String) (source : FsNode β) : MoveOutcome β :=
  if existing.isSome then ⟨false, existing⟩
  else if env.renames name then ⟨true, some source⟩
  else
    let copied := env.copyTreeAcross [name] source
    if copied.1 then ⟨true, copied.2⟩
    -- neither removal is checked
    else ⟨false, copied.2.bind (env.remains name)⟩

/-! ## Adopting -/

/-- `ProfileTreeMover`, onto a name that is free. -/
abbrev ProfileTreeMover (β : Type) : Type := String → FsNode β → MoveOutcome β

/-- What an adoption reads off its build and clock, and what its filesystem calls do. -/
structure AdoptionSteps (β : Type) where
  nowIso : String
  projectVersion : String
  makesRoot : Bool
  move : ProfileTreeMover β
  /-- Whether a damaged marker can be copied, and the time in the name of the copy. -/
  copiesCorrupt : Bool
  stamp : String
  writesMarker : Bool
  keepsMarkerCopy : Bool
  /-- The folder once `none` is written to `config/config.ini` as the key protection. -/
  writesSettings : Folder β → Folder β

/-- `kProfilePackageTreePrefix`. -/
def profilePackageTreePrefix : String := "profile"

/-- The loop of `AdoptExtractedProfile`: the error, and the folder. -/
def adoptEntries (move : ProfileTreeMover β) :
    List (Sigma fun _ : String => FsNode β) → Folder β → String × Folder β
  | [], folder => ("", folder)
  | ⟨name, node⟩ :: rest, folder =>
    if folder.has name then (name ++ " is already there", folder)
    else if (move name node).ok then
      adoptEntries move rest (folder.land name (move name node).left)
    else (name ++ " could not be unpacked", folder.land name (move name node).left)

/-- The marker an adopted profile gets: a new identity, the rest of it kept. -/
def adoptedMarker (env : AdoptionSteps β) (id displayName : String)
    (manifest : ProfilePackageManifest) (found : Option StoredProfileMarker) :
    StoredProfileMarker :=
  let marker := found.getD {}
  let marker := if marker.schemaVersion = 0 then
    { marker with
      schemaVersion := manifest.schemaVersion
      minReaderVersion := manifest.minReaderVersion
      profile := manifest.appProfile }
    else marker
  { marker with
    profileUuid := id
    credentialAccount := ""
    profileId := id
    displayName := displayName
    kind := "named"
    packageId := manifest.packageId
    selfContained := manifest.selfContained
    created := env.nowIso
    createdByVersion := env.projectVersion }

section Adopt

variable (codec : MarkerCodec β) (env : AdoptionSteps β)

/-- `AdoptExtractedProfile`, once there is a folder to move into. -/
def adoptIntoFolder (tree : FsNode β) (folder : Folder β) (id displayName : String)
    (manifest : ProfilePackageManifest) : String × Folder β :=
  let moved := adoptEntries env.move tree.listing.entries folder
  if moved.1 ≠ "" then moved
  else
    let marker := adoptedMarker env id displayName manifest (codec.readProfileMarker moved.2)
    let kept := codec.keepCorruptMarker env.copiesCorrupt env.stamp moved.2
    let written := codec.writeProfileMarker env.writesMarker env.keepsMarkerCopy marker kept
    if !written.1 then ("the profile could not be recorded", written.2)
    else ("", env.writesSettings written.2)

/-- `QDir::mkpath`: the folder that is there afterwards. -/
def makePath (makes : Bool) : Option (RootEntry β) → Option (Folder β)
  | some (.directory contents) => some contents
  | some .other => none
  | none => if makes then some ∅ else none

/-- `AdoptExtractedProfile` into the directory `name` of a profiles root. -/
def adoptExtractedProfile (staging : Folder β) (root : ProfilesRoot β) (name id : String)
    (displayName : String) (manifest : ProfilePackageManifest) : String × ProfilesRoot β :=
  match staging.lookup profilePackageTreePrefix with
  | none => ("the package carries no profile", root)
  | some tree =>
    match makePath env.makesRoot (root.entries.lookup name) with
    | none => ("the profile folder could not be created", root)
    | some folder =>
      let adopted := adoptIntoFolder codec env tree folder id displayName manifest
      (adopted.1, root.set name adopted.2)

/-- `AdoptedProfile`. -/
structure AdoptedProfile where
  id : String := ""
  error : String := ""
  deriving Repr, DecidableEq

/-- `AdoptProfilePackage`, which moves with `MoveTreeAcrossFilesystems`. -/
def adoptProfilePackage (faults : MoveFaults β) (draws : List String) (staging : Folder β)
    (root : ProfilesRoot β) (displayName : String) (manifest : ProfilePackageManifest) :
    AdoptedProfile × ProfilesRoot β :=
  match root.mintProfileDirectoryId draws with
  | none => ({ error := "The profile could not be created." }, root)
  | some id =>
    let env := { env with move := moveTreeAcrossFilesystems faults none }
    let adopted := adoptExtractedProfile codec env staging root id id displayName manifest
    if adopted.1 = "" then ({ id := id }, adopted.2) else ({ error := adopted.1 }, adopted.2)

end Adopt

/-! ## A move that succeeds is whole -/

namespace MoveFaults

variable (env : MoveFaults β)

mutual

theorem copyTreeAcross_whole (path : List String) :
    ∀ node : FsNode β, (env.copyTreeAcross path node).1 = true →
      (env.copyTreeAcross path node).2 = some node
  | .link _, h => by cases h
  | .file content, h => by
    rw [copyTreeAcross] at h ⊢
    split at h
    · rw [if_pos ‹_›]
    · cases h
  | .dir children, h => by
    rw [copyTreeAcross] at h ⊢
    split at h
    · rw [if_pos ‹_›, copyChildren_whole path children h]
    · cases h

theorem copyChildren_whole (path : List String) :
    ∀ children : List (String × FsNode β), (env.copyChildren path children).1 = true →
      (env.copyChildren path children).2 = children
  | [], _ => rfl
  | (name, node) :: rest, h => by
    rw [copyChildren] at h ⊢
    split at h
    · next hcopied =>
      rw [if_pos hcopied, copyTreeAcross_whole (path ++ [name]) node hcopied,
        copyChildren_whole path rest h]
      rfl
    · cases h

end

end MoveFaults

theorem moveTreeAcrossFilesystems_whole {env : MoveFaults β} {existing : Option (FsNode β)}
    {name : String} {source : FsNode β}
    (h : (moveTreeAcrossFilesystems env existing name source).ok = true) :
    (moveTreeAcrossFilesystems env existing name source).left = some source := by
  unfold moveTreeAcrossFilesystems at h ⊢
  split at h
  · cases h
  rw [if_neg ‹_›]
  split at h
  · rw [if_pos ‹_›]
  rw [if_neg ‹_›]
  simp only at h ⊢
  split at h
  · next hcopied =>
    rw [if_pos hcopied]
    exact env.copyTreeAcross_whole [name] source hcopied
  · cases h

end GpgFrontend
