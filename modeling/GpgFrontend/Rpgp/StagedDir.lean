import GpgFrontend.Base.FsTree
import GpgFrontend.Rpgp.Packets

/-!
# Committing an extracted archive (`rust/src/crypto/staging.rs`, `rust/src/crypto/decrypt.rs`)

An archive is decrypted and unpacked in a stage beside the output directory. The stage is then
renamed to the output, or merged into it when it exists, and removed in any case.

A step that fails is a flag of `MergeFaults` or `ArchiveSteps`. The stage is known by its name
alone; what it holds meanwhile is not followed. Decryption and unpacking are outcomes.
-/

namespace GpgFrontend

namespace Rpgp

variable {β : Type}

/-! ## The merge -/

/-- Which steps of a merge fail, by the path below the two directories. -/
structure MergeFaults where
  /-- `fs::read_dir` on the directory. -/
  readDir : List String → Bool
  /-- The listing does not give the entry. -/
  entry : List String → Bool
  /-- The listing of the directory fails after its last entry. -/
  listEnd : List String → Bool
  /-- `fs::symlink_metadata` on the target of the entry, which is then no directory. -/
  metadata : List String → Bool
  /-- `file_type()` of the entry. -/
  fileType : List String → Bool
  /-- `fs::rename` of the entry. -/
  rename : List String → Bool

/-- A directory is renamed to a free name or over an empty directory, anything else over
anything but a directory. -/
def renameAllowed : FsNode β → Option (FsNode β) → Bool
  | .dir _, some (.dir inside) => inside.isEmpty
  | .dir _, target => target.isNone
  | _, some (.dir _) => false
  | _, _ => true

section

variable (F : MergeFaults)

/-- `fs::rename` of an entry to its name in the target directory. -/
def renameInto (path : List String) (name : String) (node : FsNode β)
    (dst : List (String × FsNode β)) : Bool × List (String × FsNode β) :=
  if F.rename path || !renameAllowed node (FsNode.find name dst) then (false, dst)
  else (true, FsNode.put name node dst)

mutual

/-- The loop of `merge_into`, and whether it came to its end. -/
def mergeEntries (path : List String) :
    List (String × FsNode β) → List (String × FsNode β) → Bool × List (String × FsNode β)
  | [], dst => (!F.listEnd path, dst)
  | entry :: rest, dst =>
    let moved := mergeEntry path entry dst
    if moved.1 then mergeEntries path rest moved.2 else moved

/-- Its body. -/
def mergeEntry (path : List String) :
    String × FsNode β → List (String × FsNode β) → Bool × List (String × FsNode β)
  | (name, node), dst =>
    if F.entry (path ++ [name]) || F.fileType (path ++ [name]) then (false, dst)
    else mergeNode (path ++ [name]) name node dst

/-- A directory over a directory is merged, the rest is renamed. -/
def mergeNode (path : List String) (name : String) :
    FsNode β → List (String × FsNode β) → Bool × List (String × FsNode β)
  | .dir inside, dst =>
    match if F.metadata path then none else FsNode.find name dst with
    | some (.dir old) =>
      if F.readDir path then (false, dst)
      else
        let merged := mergeEntries path inside old
        (merged.1, FsNode.put name (.dir merged.2) dst)
    | _ => renameInto F path name (.dir inside) dst
  | .file content, dst => renameInto F path name (.file content) dst
  | .link content, dst => renameInto F path name (.link content) dst

end

/-- `merge_into` at the output directory. -/
def mergeInto (src dst : List (String × FsNode β)) : Bool × List (String × FsNode β) :=
  if F.readDir [] then (false, dst) else mergeEntries F [] src dst

end

/-! ## The operation -/

/-- What was unpacked. A directory lists no name twice. -/
structure StagedTree (β : Type) where
  entries : List (String × FsNode β)
  unique : FsNode.UniqueNames entries

/-- Where the output goes: its parent directory, if there is one, its name there, and the name
the stage is made under, which is new. -/
structure ExtractionSite (β : Type) where
  parent : Option (Folder β)
  dest : String
  stage : String
  stage_ne_dest : stage ≠ dest
  stage_new : (parent.getD ∅).lookup stage = none

/-- The outcomes of the steps. `removeStage` is what the removal of the stage leaves of it. -/
structure ArchiveSteps (β Result : Type) where
  openFails : Bool
  createParentFails : Bool
  createStageFails : Bool
  createTreeFails : Bool
  createTempFails : Bool
  decrypt : Except GfrStatus Result
  seekFails : Bool
  unpack : Option (StagedTree β)
  metadataFails : Bool
  renameTreeFails : Bool
  merge : MergeFaults
  removeStage : Option (List (String × FsNode β))

section

variable {Result : Type} (site : ExtractionSite β) (steps : ArchiveSteps β Result)

/-- `StagedDir::commit`. -/
def commit (tree : StagedTree β) (parent : Folder β) : Bool × Folder β :=
  if steps.metadataFails then (false, parent)
  else
    match parent.lookup site.dest with
    | none =>
      if steps.renameTreeFails then (false, parent)
      else (true, parent.insert site.dest (.dir tree.entries))
    | some (.dir old) =>
      let merged := mergeInto steps.merge tree.entries old
      (merged.1, parent.insert site.dest (.dir merged.2))
    | some _ => (false, parent)

/-- The steps that the stage lives through. -/
def decryptIntoStage (parent : Folder β) : Except GfrStatus Result × Folder β :=
  if steps.createTreeFails || steps.createTempFails then (.error .errorIo, parent)
  else
    match steps.decrypt with
    | .error status => (.error status, parent)
    | .ok result =>
      if steps.seekFails then (.error .errorIo, parent)
      else
        match steps.unpack with
        | none => (.error .errorInvalidData, parent)
        | some tree =>
          let committed := commit site steps tree parent
          (if committed.1 then .ok result else .error .errorIo, committed.2)

/-- The stage is dropped. -/
def dropStage (parent : Folder β) : Folder β :=
  match steps.removeStage with
  | none => parent.erase site.stage
  | some left => parent.insert site.stage (.dir left)

/-- `decrypt_archive_staged`, with the parent directory it leaves. -/
def decryptArchiveStaged : Except GfrStatus Result × Option (Folder β) :=
  if steps.openFails then (.error .errorInvalidInput, site.parent)
  else if steps.createParentFails then (.error .errorIo, site.parent)
  else
    let parent := site.parent.getD ∅
    if steps.createStageFails then (.error .errorIo, some parent)
    else
      let staged := decryptIntoStage site steps (parent.insert site.stage (.dir []))
      (staged.1, some (dropStage site steps staged.2))

end

end Rpgp

end GpgFrontend
