import GpgFrontend.Base.Crash
import GpgFrontend.Base.SecretStream

/-!
# The package body stream (`ProfilePackageStream.cpp`)

The body of a protected package, after the routing header, is

    Argon2id salt | secretstream header | [u32 length | chunk] ...

with every chunk sealed on its own and the last one carrying the stream's FINAL
tag. An unprotected body is the payload itself.
-/

namespace GpgFrontend

/-- Plaintext chunk size: 1 MiB. -/
def profilePackageChunkBytes : Nat := 1 * 1024 * 1024

/-- How much of a chunk header a reader must see before it can size the read. -/
def profilePackageChunkPrefixBytes : Nat := 4

/-- `crypto_pwhash_SALTBYTES`. -/
def packageSaltLen : Nat := 16

/-- A chunk claiming more than this is malformed or hostile. -/
def maxChunkBytes : Nat := profilePackageChunkBytes + SecretStream.abytes + 64

theorem profilePackageChunkBytes_pos : 0 < profilePackageChunkBytes := by decide

/-! ## The writer -/

/-- `ProfilePackageStreamWriter::Impl`, less the sink. -/
structure PackageStreamWriter (S : SecretStream) where
  passphrase : Bytes
  isProtected : Bool
  state : S.State
  pending : Bytes
  pending_lt : pending.length < profilePackageChunkBytes
  begun : Bool
  finished : Bool

namespace PackageStreamWriter

variable {S : SecretStream} {σ : Type}

/-- A writer that has not begun. -/
def mk' (S : SecretStream) (passphrase : Bytes) (isProtected : Bool) :
    PackageStreamWriter S where
  passphrase := passphrase
  isProtected := isProtected
  state := S.zeroed
  pending := []
  pending_lt := profilePackageChunkBytes_pos
  begun := false
  finished := false

/-- Drop the plaintext waiting to be sealed. -/
def forgetPending (w : PackageStreamWriter S) : PackageStreamWriter S :=
  { w with pending := [], pending_lt := profilePackageChunkBytes_pos }

/-- `Begin`: the salt and the stream header, for a protected package only. -/
def begin (pwhash : Bytes → Bytes → Option Bytes) (sink : Bytes → CrashM σ Bool)
    (salt : Block packageSaltLen) (header : Block SecretStream.headerBytes)
    (w : PackageStreamWriter S) : CrashM σ (Bool × PackageStreamWriter S) :=
  if w.begun then pure (false, w)
  else
    let w := { w with begun := true }
    if !w.isProtected then pure (true, w)
    else if w.passphrase = [] then pure (false, w)
    else
      match pwhash w.passphrase salt.1 with
      | none => pure (false, w)
      | some key =>
        match S.initPush key header.1 with
        | none => pure (false, w)
        | some st => do
          let w := { w with state := st }
          if ← sink salt.1 then
            let ok ← sink header.1
            pure (ok, w)
          else pure (false, w)

/-- `FlushChunk`: seal `chunk` (the pending plaintext) and append its length and
its ciphertext. The plaintext is forgotten on every path but the idle one. -/
def flushChunk (sink : Bytes → CrashM σ Bool) (w : PackageStreamWriter S)
    (chunk : Bytes) (finalChunk : Bool) : CrashM σ (Bool × PackageStreamWriter S) :=
  if chunk = [] ∧ finalChunk = false then pure (true, w)
  else
    let w := w.forgetPending
    let tag := if finalChunk then SecretStream.tagFinal else SecretStream.tagMessage
    match S.push w.state chunk tag with
    | none => pure (false, w)
    | some (cipher, st) => do
      let w := { w with state := st }
      if ← sink (bigEndian32 cipher.length) then
        let ok ← sink cipher
        pure (ok, w)
      else pure (false, w)

/-- The loop of `Write`: fill the pending chunk, flush it when it is whole. -/
def writeLoop (sink : Bytes → CrashM σ Bool) (w : PackageStreamWriter S)
    (data : Bytes) : CrashM σ (Bool × PackageStreamWriter S) :=
  if data = [] then pure (true, w)
  else
    let take := min (profilePackageChunkBytes - w.pending.length) data.length
    let filled := w.pending ++ data.take take
    if hfull : profilePackageChunkBytes ≤ filled.length then do
      let (ok, w') ← flushChunk sink w filled false
      if ok then writeLoop sink w' (data.drop take) else pure (false, w')
    else
      writeLoop sink { w with pending := filled, pending_lt := Nat.lt_of_not_le hfull }
        (data.drop take)
termination_by data.length
decreasing_by
  all_goals
    have hlen := List.length_pos_iff.mpr ‹¬data = []›
    have hroom := w.pending_lt
    simp only [List.length_drop]
    omega

/-- `Write`. -/
def write (sink : Bytes → CrashM σ Bool) (w : PackageStreamWriter S) (data : Bytes) :
    CrashM σ (Bool × PackageStreamWriter S) :=
  if !w.begun || w.finished then pure (false, w)
  else if data = [] then pure (true, w)
  else if !w.isProtected then do
    let ok ← sink data
    pure (ok, w)
  else writeLoop sink w data

/-- `Finish`: the last chunk is always emitted, even for an empty payload. -/
def finish (sink : Bytes → CrashM σ Bool) (w : PackageStreamWriter S) :
    CrashM σ (Bool × PackageStreamWriter S) :=
  if !w.begun || w.finished then pure (false, w)
  else
    let w := { w with finished := true }
    if !w.isProtected then pure (true, w)
    else flushChunk sink w w.pending true

/-- Several `Write` calls, given up at the first that fails. -/
def writes (sink : Bytes → CrashM σ Bool) (w : PackageStreamWriter S) :
    List Bytes → CrashM σ (Bool × PackageStreamWriter S)
  | [] => pure (true, w)
  | data :: rest => do
    let (ok, w) ← write sink w data
    if ok then writes sink w rest else pure (false, w)

end PackageStreamWriter

/-! ## The reader -/

/-- A file read from front to back; `readOk` says which reads the device serves. -/
structure Source where
  rest : Bytes
  reads : Nat
  readOk : Nat → Bool

namespace Source

/-- An open file whose every read is served. -/
def ofBytes (b : Bytes) : Source := ⟨b, 0, fun _ => true⟩

/-- `QFile::read`: up to `n` bytes, fewer only at the end; nothing on an error. -/
def read (s : Source) (n : Nat) : Option Bytes × Source :=
  if s.readOk s.reads then
    (some (s.rest.take n), { s with rest := s.rest.drop n, reads := s.reads + 1 })
  else (none, { s with reads := s.reads + 1 })

end Source

/-- `ProfilePackageStreamReader::Impl`. -/
structure PackageStreamReader (S : SecretStream) where
  source : Source
  passphrase : Bytes
  isProtected : Bool
  state : S.State
  begun : Bool
  complete : Bool

namespace PackageStreamReader

variable {S : SecretStream}

/-- A reader that has not begun. -/
def mk' (S : SecretStream) (source : Source) (passphrase : Bytes) (isProtected : Bool) :
    PackageStreamReader S where
  source := source
  passphrase := passphrase
  isProtected := isProtected
  state := S.zeroed
  begun := false
  complete := false

/-- `Begin`: read salt and stream header, and derive the key. -/
def begin (pwhash : Bytes → Bytes → Option Bytes) (r : PackageStreamReader S) :
    Bool × PackageStreamReader S :=
  if r.begun then (false, r)
  else
    let r := { r with begun := true }
    if !r.isProtected then (true, r)
    else if r.passphrase = [] then (false, r)
    else
      match r.source.read packageSaltLen with
      | (none, s) => (false, { r with source := s })
      | (some salt, s) =>
        let r := { r with source := s }
        if salt.length ≠ packageSaltLen then (false, r)
        else
          match r.source.read SecretStream.headerBytes with
          | (none, s) => (false, { r with source := s })
          | (some header, s) =>
            let r := { r with source := s }
            if header.length ≠ SecretStream.headerBytes then (false, r)
            else
              match pwhash r.passphrase salt with
              | none => (false, r)
              | some key =>
                match S.initPull header key with
                | none => (false, r)
                | some st => (true, { r with state := st })

/-- The unprotected half of `Next`: the body is the payload. -/
def nextPlain (r : PackageStreamReader S) : Bool × Bytes × PackageStreamReader S :=
  match r.source.read profilePackageChunkBytes with
  | (none, s) => (false, [], { r with source := s })
  | (some data, s) =>
    if data = [] then (true, [], { r with source := s, complete := true })
    else (true, data, { r with source := s })

/-- The protected half of `Next`: one length-prefixed sealed chunk. -/
def nextSealed (r : PackageStreamReader S) : Bool × Bytes × PackageStreamReader S :=
  match r.source.read profilePackageChunkPrefixBytes with
  | (none, s) => (false, [], { r with source := s })
  | (some lengthBytes, s) =>
    let r := { r with source := s }
    if lengthBytes.length ≠ profilePackageChunkPrefixBytes then (false, [], r)
    else
      let cipherLen := ofBigEndian32 lengthBytes
      if cipherLen < SecretStream.abytes ∨ maxChunkBytes < cipherLen then (false, [], r)
      else
        match r.source.read cipherLen with
        | (none, s) => (false, [], { r with source := s })
        | (some cipher, s) =>
          let r := { r with source := s }
          if cipher.length ≠ cipherLen then (false, [], r)
          else
            match S.pull r.state cipher with
            | none => (false, [], r)
            | some (plain, tag, st) =>
              (true, plain, { r with
                state := st, complete := r.complete || tag == SecretStream.tagFinal })

/-- `Next`: the verdict, the chunk handed out, and the reader afterwards. -/
def next (r : PackageStreamReader S) : Bool × Bytes × PackageStreamReader S :=
  if !r.begun then (false, [], r)
  else if !r.isProtected then r.nextPlain
  else if r.complete then (true, [], r)
  else r.nextSealed

end PackageStreamReader

/-! ## The layout of a sealed body -/

/-- The tagged messages a payload is cut into: whole chunks, then what is left
of it (possibly nothing) under the FINAL tag. -/
def chunkMessages (payload : Bytes) : List (Bytes × UInt8) :=
  if payload.length < profilePackageChunkBytes then [(payload, SecretStream.tagFinal)]
  else (payload.take profilePackageChunkBytes, SecretStream.tagMessage) ::
    chunkMessages (payload.drop profilePackageChunkBytes)
termination_by payload.length
decreasing_by
  have := profilePackageChunkBytes_pos
  simp only [List.length_drop]
  omega

/-- Sealed frames as they lie in the file, each behind its length. -/
def framed (frames : List Bytes) : Bytes :=
  (frames.map fun c => bigEndian32 c.length ++ c).flatten

end GpgFrontend
