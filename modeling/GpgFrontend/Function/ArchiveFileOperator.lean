import GpgFrontend.Base.FsTree
import GpgFrontend.Base.SecretStream

/-!
# Unpacking an archive (`ArchiveFileOperator`)

The reader of the archive library hands over headers and data blocks; everything that
decides what becomes of them is modelled: the policy, the validation of names, the
limits, the diversion of entries into memory and the writing of the others.

The counters are whole numbers; sizes in the source are 64 bits wide.
-/

namespace GpgFrontend

/-- `ArchiveExtractPolicy`, with the defaults of the declaration: `-1` is no limit. -/
structure ArchiveExtractPolicy where
  allowSymlinks : Bool := true
  allowHardlinks : Bool := true
  maxTotalBytes : Int := -1
  maxEntryBytes : Int := -1
  maxEntries : Int := -1
  maxPathLength : Int := 4096
  maxDepth : Int := 64
  requireEmptyDestination : Bool := false
  rejectDuplicatePaths : Bool := false
  rejectCaseCollidingPaths : Bool := false
  requireUtf8Paths : Bool := false
  maxCompressionRatio : Int := -1
  deriving Repr, DecidableEq

namespace ArchiveExtractPolicy

/-- `Permissive`. -/
def permissive : ArchiveExtractPolicy := {}

/-- `Strict`. -/
def strict (maxTotalBytes maxEntries : Int) : ArchiveExtractPolicy where
  allowSymlinks := false
  allowHardlinks := false
  maxTotalBytes := maxTotalBytes
  maxEntryBytes := maxTotalBytes
  maxEntries := maxEntries
  maxPathLength := 1024
  maxDepth := 32
  requireEmptyDestination := true

end ArchiveExtractPolicy

/-! ## Names -/

/-- What Qt's Unicode tables say. -/
structure QtUnicode where
  isLetter : Char → Bool
  toCaseFolded : String → String

/-- `QString::length`: UTF-16 units. -/
def utf16Length (chars : List Char) : Nat :=
  (chars.map fun c => if 0xFFFF < c.toNat then 2 else 1).sum

/-- `ArchiveEntryVerdict`. -/
inductive ArchiveEntryVerdict where
  | accept | rejectAbsolute | rejectDotdot | rejectEmpty | rejectPathTooLong | rejectTooDeep
  deriving Repr, DecidableEq

/-- `ArchiveEntryVerdictToString`. -/
def ArchiveEntryVerdict.toText : ArchiveEntryVerdict → String
  | accept => "accepted"
  | rejectAbsolute => "absolute path"
  | rejectDotdot => "path escapes the destination"
  | rejectEmpty => "empty path"
  | rejectPathTooLong => "path too long"
  | rejectTooDeep => "path too deep"

/-- The loop over the parts of a path: those kept, or nothing at a `..`. -/
def keepParts : List (List Char) → Option (List (List Char))
  | [] => some []
  | part :: rest =>
    if part = ['.'] then keepParts rest
    else if part = ['.', '.'] then none
    else (keepParts rest).map (part :: ·)

/-- `C:` and the like. -/
def hasDrivePrefix (unicode : QtUnicode) : List Char → Bool
  | first :: ':' :: _ => first.toNat ≤ 0xFFFF && unicode.isLetter first
  | _ => false

/-- `ValidateArchiveEntryPath`: the verdict, and the parts of the normalised path. -/
def validateArchiveEntryPath (unicode : QtUnicode) (policy : ArchiveExtractPolicy)
    (pathName : List Char) : ArchiveEntryVerdict × List (List Char) :=
  if pathName.isEmpty then (.rejectEmpty, [])
  else if 0 ≤ policy.maxPathLength ∧ policy.maxPathLength < utf16Length pathName then
    (.rejectPathTooLong, [])
  else
    let path := pathName.map fun c => if c = '\\' then '/' else c
    if path.head? = some '/' then (.rejectAbsolute, [])
    else if hasDrivePrefix unicode path then (.rejectAbsolute, [])
    else
      match keepParts ((path.splitOnP (· == '/')).filter fun part => !part.isEmpty) with
      | none => (.rejectDotdot, [])
      | some kept =>
        if kept.isEmpty then (.rejectEmpty, [])
        else if 0 ≤ policy.maxDepth ∧ policy.maxDepth < kept.length then (.rejectTooDeep, [])
        else (.accept, kept)

/-- `kept.join('/')`. -/
def joinParts (parts : List (List Char)) : String :=
  String.ofList (List.intercalate ['/'] parts)

/-! ## What the library delivers and does -/

/-- `ArchiveMemberEntry`: what an archive is made from. A member that is a file on the
disk comes with what the file holds. -/
structure ArchiveMember where
  relativePath : String
  directory : Bool := false
  bytes : Bytes := []
  deriving Repr, DecidableEq

/-- `archive_entry_filetype`. -/
inductive ArchiveFileType where
  | regular | directory | symlink | other
  deriving Repr, DecidableEq

/-- One block from `archive_read_data_block`. -/
structure ArchiveBlock where
  offset : Nat
  bytes : Bytes
  deriving Repr, DecidableEq

/-- One entry: its header, and its data blocks up to the end or an error. -/
structure ArchiveEntry where
  pathName : List Char
  isUtf8 : Bool := true
  fileType : ArchiveFileType := .regular
  hardlink : Option (List Char) := none
  /-- `archive_entry_size`, when it is set. -/
  declared : Option Int := none
  /-- `archive_filter_bytes` once the header is read. -/
  consumed : Int := 0
  blocks : List ArchiveBlock := []
  readsToEnd : Bool := true
  deriving Repr, DecidableEq

/-- What `archive_read_next_header` delivers, up to the end or an error. -/
structure ArchiveStream where
  opens : Bool := true
  entries : List ArchiveEntry
  readsToEnd : Bool := true
  errorText : String := ""
  /-- `archive_filter_bytes` at the end. -/
  consumed : Int := 0

/-- `archive_write_header` on a disk: done, done with a warning, or not done. -/
inductive DiskVerdict where
  | ok | warn | failed
  deriving Repr, DecidableEq

/-- What the steps of one extraction do that may fail for reasons of the machine.
Headers written to the disk are numbered, and so are the blocks of each. -/
structure ExtractionSteps where
  unicode : QtUnicode
  makesDestination : Bool
  header : Nat → DiskVerdict
  block : Nat → Nat → Bool
  frees : Bool
  closes : Bool
  errorText : String
  /-- What `removeRecursively` leaves of the destination. -/
  removeDestination : List (String × FsNode Bytes) → Option (FsNode Bytes)

/-- The entries a caller claims, and the sink their bytes go to. -/
structure Diversion (τ : Type) where
  claims : String → Bool
  take : String → Bytes → τ → Bool × τ

/-! ## The data of an entry -/

/-- The loop of `CopyData` and `CollectData`: `place` puts the next block into what
was gathered so far. Returns the verdict, the bytes counted and what was gathered. -/
def takeBlocks (maxEntryBytes remaining : Int) (place : Nat → Bytes → ArchiveBlock → Option Bytes) :
    Nat → List ArchiveBlock → Int → Bytes → Bool × Int × Bytes
  | _, [], written, gathered => (true, written, gathered)
  | i, block :: rest, written, gathered =>
    let written := written + block.bytes.length
    if 0 ≤ maxEntryBytes ∧ maxEntryBytes < written then (false, written, gathered)
    else if 0 ≤ remaining ∧ remaining < written then (false, written, gathered)
    else
      match place i gathered block with
      | none => (false, written, gathered)
      | some gathered => takeBlocks maxEntryBytes remaining place (i + 1) rest written gathered

/-- What is in a file after a block is written at its offset. One without bytes is not
written at all. -/
def writeAtOffset (content : Bytes) (block : ArchiveBlock) : Bytes :=
  if block.bytes = [] then content
  else (content ++ List.replicate (block.offset - content.length) 0).take block.offset ++
    (block.bytes ++ content.drop (block.offset + block.bytes.length))

/-- `CopyData`, into the file the header made, which holds `content`. -/
def copyData (steps : ExtractionSteps) (headers : Nat) (maxEntryBytes remaining : Int)
    (entry : ArchiveEntry) (content : Bytes) : Bool × Int × Bytes :=
  let copied := takeBlocks maxEntryBytes remaining
    (fun i content block => if steps.block headers i then some (writeAtOffset content block) else none)
    0 entry.blocks 0 content
  (copied.1 && entry.readsToEnd, copied.2)

/-- `CollectData`: the blocks one after the other, or nothing. -/
def collectData (maxEntryBytes remaining : Int) (entry : ArchiveEntry) : Bool × Int × Bytes :=
  let collected := takeBlocks maxEntryBytes remaining
    (fun _ content block => some (content ++ block.bytes)) 0 entry.blocks 0 []
  if collected.1 && entry.readsToEnd then collected else (false, collected.2.1, [])

/-! ## The walk -/

/-- Where a walk stands. -/
structure Extraction (τ : Type) where
  totalWritten : Int := 0
  entryCount : Int := 0
  seenPaths : List String := []
  seenPathsFolded : List String := []
  extractedFiles : List String := []
  headers : Nat := 0
  /-- What is under the destination. -/
  tree : List (String × FsNode Bytes)
  sink : τ
  reason : String := ""

namespace Extraction

variable {τ : Type}

/-- `note`: only the first reason is kept. -/
def note (x : Extraction τ) (text : String) : Extraction τ :=
  { x with reason := if x.reason = "" then text else x.reason }

/-- A refusal: the note, and the end of the walk. -/
def refuse (x : Extraction τ) (text : String) : Bool × Extraction τ := (false, x.note text)

end Extraction

section Walk

variable {τ : Type} (steps : ExtractionSteps) (policy : ArchiveExtractPolicy)

/-- `ratio_exceeded`. -/
def ratioExceeded (totalWritten consumed : Int) : Bool :=
  if policy.maxCompressionRatio < 0 then false
  else if consumed ≤ 0 ∨ totalWritten < 64 * 1024 then false
  else policy.maxCompressionRatio < totalWritten.tdiv consumed

/-- The checks on a header before anything is done with the entry: the reason it is
refused, or the walk with the entry counted and the parts of its path. -/
def admitEntry (x : Extraction τ) (entry : ArchiveEntry) :
    Except String (Extraction τ × List (List Char)) :=
  let name := String.ofList entry.pathName
  let x := if 0 ≤ policy.maxEntries then { x with entryCount := x.entryCount + 1 } else x
  if 0 ≤ policy.maxEntries ∧ policy.maxEntries < x.entryCount then
    .error ("it holds more than " ++ toString policy.maxEntries ++ " entries")
  else if ratioExceeded policy x.totalWritten entry.consumed then
    .error "it unpacks to far more than it takes up"
  else if policy.requireUtf8Paths ∧ !entry.isUtf8 then
    .error "an entry in it is named in something other than UTF-8"
  else
    match validateArchiveEntryPath steps.unicode policy entry.pathName with
    | (.accept, parts) =>
      let path := joinParts parts
      let folded := steps.unicode.toCaseFolded path
      if policy.rejectDuplicatePaths ∧ x.seenPaths.contains path then
        .error ("entry \"" ++ path ++ "\" appears more than once")
      else if policy.rejectCaseCollidingPaths ∧ x.seenPathsFolded.contains folded then
        .error ("entry \"" ++ path ++ "\" differs from an earlier one only by case")
      else if entry.fileType = .other then
        .error ("entry \"" ++ name ++ "\" is of a kind a profile never carries")
      else if entry.fileType = .symlink ∧ !policy.allowSymlinks then
        .error ("entry \"" ++ name ++ "\" is a symbolic link")
      else if entry.hardlink.isSome ∧ !policy.allowHardlinks then
        .error ("entry \"" ++ name ++ "\" is a hard link")
      else if 0 ≤ entry.declared.getD (-1) ∧ 0 ≤ policy.maxEntryBytes ∧
          policy.maxEntryBytes < entry.declared.getD (-1) then
        .error ("entry \"" ++ name ++ "\" is larger than a single entry may be")
      else if 0 ≤ entry.declared.getD (-1) ∧ 0 ≤ policy.maxTotalBytes ∧
          policy.maxTotalBytes - x.totalWritten < entry.declared.getD (-1) then
        .error ("it unpacks to more than this package declared, starting at entry \"" ++ name ++ "\"")
      else
        .ok ({ x with
          seenPaths := if policy.rejectDuplicatePaths then path :: x.seenPaths else x.seenPaths
          seenPathsFolded := if policy.rejectCaseCollidingPaths then folded :: x.seenPathsFolded
            else x.seenPathsFolded }, parts)
    | (verdict, _) => .error ("entry \"" ++ name ++ "\" was refused: " ++ verdict.toText)

/-- `remaining`. -/
def remainingBytes (x : Extraction τ) : Int :=
  if policy.maxTotalBytes < 0 then -1 else policy.maxTotalBytes - x.totalWritten

/-- An entry the caller claimed: its body goes to the sink. -/
def divertEntry (diversion : Diversion τ) (x : Extraction τ) (entry : ArchiveEntry)
    (path : String) : Bool × Extraction τ :=
  let name := String.ofList entry.pathName
  if entry.fileType = .directory then (true, x)
  else if entry.fileType = .symlink ∨ entry.hardlink.isSome then
    x.refuse ("entry \"" ++ name ++ "\" is a link where bytes were expected")
  else
    let collected := collectData policy.maxEntryBytes (remainingBytes policy x) entry
    let x := { x with totalWritten := x.totalWritten + collected.2.1 }
    if !collected.1 then
      x.refuse ("entry \"" ++ name ++ "\" could not be read out of the archive")
    else
      let taken := diversion.take path collected.2.2 x.sink
      -- a sink that declines leaves no reason behind
      (taken.1, { x with sink := taken.2 })

/-- The parts of a path as names. -/
def partNames (parts : List (List Char)) : List String := parts.map String.ofList

/-- The file a hard link names: one this walk extracted, or a refusal. -/
def hardlinkTarget (x : Extraction τ) (entry : ArchiveEntry) :
    Except String (Option (List (List Char))) :=
  match entry.hardlink with
  | none => .ok none
  | some raw =>
    let target := validateArchiveEntryPath steps.unicode policy raw
    if target.1 = .accept ∧ x.extractedFiles.contains (joinParts target.2) then .ok (some target.2)
    else .error ("entry \"" ++ String.ofList entry.pathName ++ "\" links to \"" ++ String.ofList raw ++
      "\", which is not a file from this archive")

/-- What a header makes on the disk. The writer belongs to the library: here a hard link starts as a
copy, and a body that comes with one is not shared. -/
def leafOf (x : Extraction τ) (entry : ArchiveEntry) (target : Option (List (List Char))) :
    FsNode Bytes :=
  match target with
  | some target =>
    .file (((FsNode.findPath (partNames target) x.tree).bind FsNode.content).getD [])
  | none =>
    match entry.fileType with
    | .directory => .dir []
    | .symlink => .link none
    | _ => .file []

/-- A hard link is made to what is a file by then, and another one. -/
def linkable (x : Extraction τ) (parts : List (List Char)) : Option (List (List Char)) → Bool
  | none => true
  | some target => target ≠ parts &&
    match FsNode.findPath (partNames target) x.tree with
    | some (.file _) => true
    | _ => false

/-- The destination with what a header makes, if it can be made there. -/
def placeEntry (x : Extraction τ) (leaf : FsNode Bytes) (target : Option (List (List Char)))
    (parts : List (List Char)) : Option (List (String × FsNode Bytes)) :=
  if linkable x parts target then FsNode.place leaf (partNames parts) x.tree else none

/-- The walk once a header was written, for better or worse. -/
def markWritten (x : Extraction τ) (entry : ArchiveEntry) (path : String) : Extraction τ :=
  { x with
    headers := x.headers + 1
    extractedFiles := if entry.hardlink.isSome ∨ entry.fileType = .regular then
      path :: x.extractedFiles else x.extractedFiles.filter (· ≠ path) }

/-- The data of an entry whose header made `leaf`, the `headers`-th header of the walk. -/
def fillEntry (headers : Nat) (x : Extraction τ) (entry : ArchiveEntry) (parts : List (List Char))
    (leaf : FsNode Bytes) (tree : List (String × FsNode Bytes)) : Bool × Extraction τ :=
  let copied := copyData steps headers policy.maxEntryBytes (remainingBytes policy x) entry
    (leaf.content.getD [])
  let x := { x with
    totalWritten := x.totalWritten + copied.2.1
    tree := if leaf.content.isSome then
      (FsNode.place (.file copied.2.2) (partNames parts) tree).getD tree else tree }
  if copied.1 then (true, x)
  else x.refuse ("entry \"" ++ String.ofList entry.pathName ++ "\" could not be written here: " ++
    steps.errorText)

/-- An entry that goes to the disk. -/
def writeEntry (x : Extraction τ) (entry : ArchiveEntry) (parts : List (List Char)) :
    Bool × Extraction τ :=
  let path := joinParts parts
  match hardlinkTarget steps policy x entry with
  | .error why => x.refuse why
  | .ok target =>
    let leaf := leafOf x entry target
    match placeEntry x leaf target parts, steps.header x.headers with
    | none, _ | _, .failed =>
      (markWritten x entry path).refuse
        ("entry \"" ++ path ++ "\" could not be created here: " ++ steps.errorText)
    | some tree, .warn => (true, { markWritten x entry path with tree := tree })
    | some tree, .ok =>
      fillEntry steps policy x.headers (markWritten x entry path) entry parts leaf tree

variable (diversion : Option (Diversion τ)) (toDisk : Bool)

/-- The body of the loop of `ExtractArchiveSync`: whether to go on. -/
def extractEntry (x : Extraction τ) (entry : ArchiveEntry) : Bool × Extraction τ :=
  match admitEntry steps policy x entry with
  | .error why => x.refuse why
  | .ok (x, parts) =>
    let path := joinParts parts
    match diversion.filter (·.claims path) with
    | some diversion => divertEntry policy diversion x entry path
    | none =>
      if !toDisk then
        x.refuse ("entry \"" ++ path ++ "\" was not claimed, and there is nowhere to put it")
      else writeEntry steps policy x entry parts

/-- The loop of `ExtractArchiveSync`. -/
def extractLoop : List ArchiveEntry → Extraction τ → Bool × Extraction τ
  | [], x => (true, x)
  | entry :: rest, x =>
    let step := extractEntry steps policy diversion toDisk x entry
    if step.1 then extractLoop rest step.2 else step

/-- The loop with what follows the last entry. -/
def walkArchive (stream : ArchiveStream) (x : Extraction τ) : Bool × Extraction τ :=
  let walked := extractLoop steps policy diversion toDisk stream.entries x
  if !walked.1 then walked
  else if !stream.readsToEnd then
    walked.2.refuse ("the archive could not be read past entry " ++ toString walked.2.entryCount ++
      ": " ++ stream.errorText)
  else if ratioExceeded policy walked.2.totalWritten stream.consumed then
    walked.2.refuse "it unpacks to far more than it takes up"
  else walked

/-- What an extraction returns and leaves. -/
structure ExtractionResult (τ : Type) where
  ok : Bool
  reason : String
  destination : Option (FsNode Bytes)
  sink : τ

/-- The tree an extraction starts from, or nothing when it refuses to start. -/
def startTree (destination : Option (FsNode Bytes)) : Option (List (String × FsNode Bytes)) :=
  if toDisk && policy.requireEmptyDestination then
    match destination with
    | none => if steps.makesDestination then some [] else none
    | some (.dir []) => some []
    | _ => none
  else
    match destination with
    | some (.dir children) => some children
    | _ => some []

/-- `ExtractArchiveSync`. -/
def extractArchive (stream : ArchiveStream) (destination : Option (FsNode Bytes)) (sink : τ) :
    ExtractionResult τ :=
  match startTree steps policy toDisk destination with
  | none => ⟨false, "", destination, sink⟩
  | some tree =>
    let left (x : Extraction τ) : Option (FsNode Bytes) :=
      if toDisk then some (.dir x.tree) else destination
    let fail (x : Extraction τ) : ExtractionResult τ :=
      ⟨false, x.reason,
        if toDisk && policy.requireEmptyDestination then steps.removeDestination x.tree else left x,
        x.sink⟩
    let start : Extraction τ := { tree := tree, sink := sink }
    if !stream.opens then fail start
    else
      let walked := walkArchive steps policy diversion toDisk stream start
      if !walked.1 then fail walked.2
      else
        let closed := !toDisk || steps.closes
        let x := if closed then walked.2
          else walked.2.note ("the last entries could not be finished: " ++ steps.errorText)
        ⟨steps.frees && closed, x.reason, left x, x.sink⟩

end Walk

end GpgFrontend
