import GpgFrontend.Profile.PackageHeader
import GpgFrontend.Profile.PackageRoundTrip

/-!
# Writing a package file (`WriteProfilePackage`)

A package is written under a temporary name beside its destination, read back,
and only then moved into place; a package that stood there before is moved aside
first and restored if the move fails. Every filesystem call may fail, and the
process may die after any of them.

`QFile::rename` refuses an existing target and leaves both names as they were
when it fails. `QFile::write` only fills a buffer, whose last part is flushed
without a check, so what a closed file holds is some front part of what was
written (`flushKeeps`).
-/

namespace GpgFrontend

/-- The directory of the destination: what each name holds, and how many writes
have been made. -/
structure PackageDisk where
  files : String → Option Bytes
  writes : Nat

/-- What the filesystem calls of one run do. -/
structure PackageWriteOutcomes where
  temporaryOpens : Bool
  writeOk : Nat → Bool
  /-- How much of its data a failed write leaves behind. -/
  shortWrite : Nat → Nat
  /-- How much of the temporary is there once it is closed. -/
  flushKeeps : Nat
  reopens : Bool
  headReads : Bool
  seeks : Bool
  readOk : Nat → Bool
  removesTemporary : Bool
  movesAside : Bool
  movesIntoPlace : Bool
  movesBack : Bool
  removesBackup : Bool

/-- What the archive producer delivers: blocks, and its verdict. -/
structure ArchiveOutput where
  blocks : List Bytes
  error : Nat

/-- `ProfilePackageWriteResult`. -/
structure ProfilePackageWriteResult where
  ok : Bool
  error : String
  bytes : Nat
  deriving Repr, DecidableEq

def ProfilePackageWriteResult.failed (why : String) : ProfilePackageWriteResult :=
  ⟨false, why, 0⟩

/-! ## The filesystem -/

namespace PackageDisk

def set (s : PackageDisk) (name : String) (content : Option Bytes) : PackageDisk :=
  { s with files := Function.update s.files name content }

/-- Append to a file that is open for writing. -/
def append (s : PackageDisk) (name : String) (d : Bytes) : PackageDisk :=
  s.set name (some ((s.files name).getD [] ++ d))

@[simp] theorem set_files_self (s : PackageDisk) (name : String) (content : Option Bytes) :
    (s.set name content).files name = content :=
  Function.update_self ..

theorem set_files_of_ne (s : PackageDisk) {name p : String} (content : Option Bytes)
    (h : p ≠ name) : (s.set name content).files p = s.files p :=
  Function.update_of_ne h ..

/-- `QFile::open(WriteOnly)`: a new, empty file. -/
def create (opens : Bool) (name : String) : CrashM PackageDisk Bool :=
  CrashM.step fun s => if opens then (s.set name (some []), true) else (s, false)

/-- `QFile::write`, as the sink of a stream writer. -/
def write (env : PackageWriteOutcomes) (name : String) (d : Bytes) : CrashM PackageDisk Bool :=
  CrashM.step fun s =>
    if env.writeOk s.writes then ({ s.append name d with writes := s.writes + 1 }, true)
    else ({ s.append name (d.take (env.shortWrite s.writes)) with writes := s.writes + 1 }, false)

/-- `flush`, `FlushToDisk` and `close`, none of them checked. -/
def close (env : PackageWriteOutcomes) (name : String) : CrashM PackageDisk Unit :=
  CrashM.step fun s => (s.set name ((s.files name).map (·.take env.flushKeeps)), ())

/-- `QFile::remove`. -/
def remove (removes : Bool) (name : String) : CrashM PackageDisk Bool :=
  CrashM.step fun s => if removes then (s.set name none, true) else (s, false)

/-- `QFile::rename`: refused when the target exists. -/
def rename (moves : Bool) (source target : String) : CrashM PackageDisk Bool :=
  CrashM.step fun s =>
    if moves ∧ (s.files target).isNone ∧ (s.files source).isSome then
      ((s.set target (s.files source)).set source none, true)
    else (s, false)

end PackageDisk

/-! ## The function -/

/-- The arguments of `WriteProfilePackage` with what it draws at random. -/
structure PackageWriteJob (S : SecretStream) where
  pwhash : Bytes → Bytes → Option Bytes
  codec : HeaderCodec
  header : ProfilePackageHeader
  passphrase : Bytes
  fileName : String
  temporaryUuid : String
  backupUuid : String
  salt : Block packageSaltLen
  streamHeader : Block SecretStream.headerBytes
  archive : ArchiveOutput

namespace PackageWriteJob

variable {S : SecretStream}

/-- `temporary_path`, relative to the destination's directory. -/
def temporaryPath (job : PackageWriteJob S) : String :=
  "." ++ job.fileName ++ ".tmp-" ++ job.temporaryUuid

/-- `backup_path`. -/
def backupPath (job : PackageWriteJob S) : String :=
  "." ++ job.fileName ++ ".bak-" ++ job.backupUuid

def headerBytes (job : PackageWriteJob S) : Bytes :=
  encodeProfilePackageHeader job.codec job.header

def isProtected (job : PackageWriteJob S) : Bool := job.header.protection = .pin

/-- Everything the archive producer handed over. -/
def payload (job : PackageWriteJob S) : Bytes := job.archive.blocks.flatten

/-- `abandon`: remove the temporary, whether or not that works. -/
def abandon {α : Type} (job : PackageWriteJob S) (env : PackageWriteOutcomes) (why : String) :
    CrashM PackageDisk (Except String α) := do
  let _ ← PackageDisk.remove env.removesTemporary job.temporaryPath
  pure (.error why)

/-- The first block: fill the temporary. Returns `payload_bytes`. -/
def writeTemporary (job : PackageWriteJob S) (env : PackageWriteOutcomes) :
    CrashM PackageDisk (Except String Nat) := do
  let sink := PackageDisk.write env job.temporaryPath
  if !(← PackageDisk.create env.temporaryOpens job.temporaryPath) then
    pure (.error "the package file could not be created")
  else if !(← sink job.headerBytes) then
    job.abandon env "the package could not be written"
  else
    let (begun, w) ← PackageStreamWriter.begin job.pwhash sink job.salt job.streamHeader
      (.mk' S job.passphrase job.isProtected)
    if !begun then job.abandon env "the package could not be encrypted"
    else
      let (kept, w) ← w.writes sink job.archive.blocks
      if !kept then job.abandon env "the package could not be written"
      else if job.archive.error ≠ 0 ∨ job.payload.length = 0 then
        job.abandon env "the profile could not be packed"
      else
        let (finished, _) ← w.finish sink
        if !finished then job.abandon env "the package could not be written"
        else
          PackageDisk.close env job.temporaryPath
          pure (.ok job.payload.length)

/-- The read-back loop: how many bytes the body holds, if it reads to its end. -/
def verifyLoop (r : PackageStreamReader S) (verified : Nat) : Option Nat :=
  match _h : r.next with
  | (false, _, _) => none
  | (true, chunk, r') =>
    if chunk = [] ∧ r'.complete = false then some verified
    else if _hc : r'.complete = true then some (verified + chunk.length)
    else verifyLoop r' (verified + chunk.length)
termination_by r.source.rest.length
decreasing_by exact PackageStreamReader.next_rest_lt _h (by simpa using _hc)

/-- The read-back of the body, which `rest` holds. -/
def verifyBody (job : PackageWriteJob S) (env : PackageWriteOutcomes) (payloadBytes : Nat)
    (rest : Bytes) : Except String Unit :=
  match (PackageStreamReader.mk' S ⟨rest, 0, env.readOk⟩ job.passphrase job.isProtected).begin
    job.pwhash with
  | (false, _) => .error "the package was written but cannot be decrypted"
  | (true, r) =>
    match verifyLoop r 0 with
    | none => .error "the package was written but cannot be decrypted"
    | some verified =>
      if verified ≠ payloadBytes then
        .error "the package was written but does not read back correctly"
      else .ok ()

/-- The checks of the second block on what the temporary holds. -/
def verifyContent (job : PackageWriteJob S) (env : PackageWriteOutcomes) (payloadBytes : Nat)
    (content : Option Bytes) : Except String Unit :=
  match content with
  | none => .error "the package could not be read back"
  | some content =>
    if !env.reopens then .error "the package could not be read back"
    else
      let head := if env.headReads then
        content.take (profilePackageMagicLength + 4 + maxHeaderLength) else []
      let view := parseProfilePackageHeader job.codec head
      if view.status ≠ .ok ∨ view.headerBytes ≠ job.headerBytes then
        .error "the package was written but does not read back correctly"
      else if !env.seeks then .error "the package could not be read back"
      else job.verifyBody env payloadBytes (content.drop view.bodyOffset)

/-- The second block: read the temporary back. -/
def verifyTemporary (job : PackageWriteJob S) (env : PackageWriteOutcomes)
    (payloadBytes : Nat) : CrashM PackageDisk (Except String Unit) := do
  let content ← CrashM.read (·.files job.temporaryPath)
  match job.verifyContent env payloadBytes content with
  | .error why => job.abandon env why
  | .ok () => pure (.ok ())

/-- `abandon`, as the result of the function. -/
def abandonResult (job : PackageWriteJob S) (env : PackageWriteOutcomes) (why : String) :
    CrashM PackageDisk ProfilePackageWriteResult := do
  let _ ← PackageDisk.remove env.removesTemporary job.temporaryPath
  pure (.failed why)

/-- The second half of the last block: the temporary takes the destination's
name; `aside` says whether a previous package was moved to the backup. -/
def moveIntoPlace (job : PackageWriteJob S) (env : PackageWriteOutcomes) (aside : Bool) :
    CrashM PackageDisk ProfilePackageWriteResult := do
  let stranded := "the package could not be moved into place; the new package is at " ++
    job.temporaryPath ++ " and the previous one at " ++ job.backupPath
  let success : ProfilePackageWriteResult :=
    ⟨true, "", job.headerBytes.length + job.payload.length⟩
  if !(← PackageDisk.rename env.movesIntoPlace job.temporaryPath job.fileName) then
    if !aside then job.abandonResult env "the package could not be moved into place"
    else if ← PackageDisk.rename env.movesBack job.backupPath job.fileName then
      job.abandonResult env "the package could not be moved into place"
    else pure (.failed stranded)
  else if !aside then pure success
  else
    let _ ← PackageDisk.remove env.removesBackup job.backupPath
    pure success

/-- The last block: move a previous package aside, then the new one in. -/
def installTemporary (job : PackageWriteJob S) (env : PackageWriteOutcomes) :
    CrashM PackageDisk ProfilePackageWriteResult := do
  let existing ← CrashM.read (·.files job.fileName)
  if existing.isNone then job.moveIntoPlace env false
  else if ← PackageDisk.rename env.movesAside job.fileName job.backupPath then
    job.moveIntoPlace env true
  else job.abandonResult env "the existing package could not be replaced"

end PackageWriteJob

/-- `WriteProfilePackage`. -/
def writeProfilePackage {S : SecretStream} (job : PackageWriteJob S)
    (env : PackageWriteOutcomes) : CrashM PackageDisk ProfilePackageWriteResult := do
  match ← job.writeTemporary env with
  | .error why => pure (.failed why)
  | .ok payloadBytes =>
    match ← job.verifyTemporary env payloadBytes with
    | .error why => pure (.failed why)
    | .ok () => job.installTemporary env

end GpgFrontend
