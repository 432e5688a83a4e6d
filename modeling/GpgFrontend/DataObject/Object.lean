import GpgFrontend.Profile.SecureKey
import Mathlib.Data.List.AList

/-!
# Sealed data objects (`DataObjectOperator`)

A stored object is the id of the key that sealed it, followed by a container under
a key derived from that key and the object's reference.

- `deriveObjectKey`, `sealObject`, `readDecrObject`.
- `isValidRefHex`, `checkDataObjectByRef`: what the collector makes of a file.
-/

namespace GpgFrontend

open AESCryptoHelper (Draw)

namespace DataObjectOperator

/-- `kObjectKeyDeriveDomain`: "GpgFrontend.DataObject.v2". -/
def objectKeyDeriveDomain : Bytes :=
  [0x47, 0x70, 0x67, 0x46, 0x72, 0x6f, 0x6e, 0x74, 0x65, 0x6e, 0x64, 0x2e, 0x44,
   0x61, 0x74, 0x61, 0x4f, 0x62, 0x6a, 0x65, 0x63, 0x74, 0x2e, 0x76, 0x32]

/-- `crypto_generichash_KEYBYTES`, and the length of a key id. -/
def keyIdLen : Nat := 32

variable (S : Sodium)

def deriveObjectKey (key context : Bytes) : Option Bytes :=
  if key.isEmpty || context.isEmpty then none
  else do
    let normalizedKey ← if key.length = 32 then some key else S.generichash key []
    S.generichash (objectKeyDeriveDomain ++ context) normalizedKey

/-- `seal_object`. -/
def sealObject (draw : Draw) (session : KeySession) (ref value : Bytes) : Option Bytes := do
  let drvKey ← deriveObjectKey S session.activeKey ref
  let encrypted ← GFBufferFactory.encryptLite S draw drvKey value
  some (session.activeKeyId ++ encrypted)

/-- `read_decr_object`, past the file system. -/
def readDecrObject (session : KeySession) (ref data : Bytes) : Option Bytes :=
  let keyId := data.take keyIdLen
  let key := session.keyById keyId
  if key.isEmpty then none
  else
    let encrypted := data.drop keyId.length
    if encrypted.isEmpty then none
    else do
      let drvKey ← deriveObjectKey S key ref
      GFBufferFactory.decryptLite S drvKey encrypted

variable {S}

/-- What `sealObject` writes, taken apart: the active key's id, and a container
that opens under the key derived for the reference. -/
theorem sealObject_inv (hS : S.Inverts) {draw : Draw} {session : KeySession}
    {ref value data : Bytes} (h : sealObject S draw session ref value = some data) :
    ∃ drvKey encrypted, deriveObjectKey S session.activeKey ref = some drvKey ∧
      GFBufferFactory.decryptLite S drvKey encrypted = some value ∧
      data = session.activeKeyId ++ encrypted := by
  obtain ⟨drvKey, hdrv, h⟩ := Option.bind_eq_some_iff.mp h
  obtain ⟨encrypted, henc, h⟩ := Option.bind_eq_some_iff.mp h
  exact ⟨drvKey, encrypted, hdrv, GFBufferFactory.decryptLite_encryptLite hS henc,
    (Option.some.inj h).symm⟩

theorem deriveObjectKey_ne_nil {key context drvKey : Bytes}
    (h : deriveObjectKey S key context = some drvKey) : key ≠ [] := by
  rintro rfl
  cases h

theorem decryptLite_ne_nil {secret buffer plain : Bytes}
    (h : GFBufferFactory.decryptLite S secret buffer = some plain) : buffer ≠ [] := by
  rintro rfl
  cases h

/-- A session that files the sealing key under the id the object names reads it. -/
theorem readDecrObject_of_key {session : KeySession} {keyId key ref drvKey encrypted value : Bytes}
    (hlen : keyId.length = keyIdLen) (hkey : session.keyById keyId = key) (hne : key ≠ [])
    (hdrv : deriveObjectKey S key ref = some drvKey)
    (hopen : GFBufferFactory.decryptLite S drvKey encrypted = some value) :
    readDecrObject S session ref (keyId ++ encrypted) = some value := by
  have htake : (keyId ++ encrypted).take keyIdLen = keyId := by
    rw [← hlen, List.take_left]
  unfold readDecrObject
  dsimp only
  rw [htake, hkey, if_neg (by simpa using hne), List.drop_left,
    if_neg (by simpa using decryptLite_ne_nil hopen), hdrv]
  exact hopen

/-! ## What the collector makes of a stored object -/

/-- A `QString` used as a file name, by its UTF-16 code units. -/
abbrev FileName : Type := List UInt16

/-- A moment of `QDateTime`, in milliseconds of UTC. -/
abbrev QDateTime : Type := Nat

/-- A directory: its files by name. -/
abbrev Dir (β : Type) : Type := AList fun _ : FileName => β

/-- A file beside the objects, with `lastModified` when it is valid. -/
structure ObjectFile where
  content : Bytes
  lastModified : Option QDateTime
  deriving DecidableEq

/-- The two directories a path of the collector may lie in. -/
inductive ObjectDir
  | objects
  | quarantine
  deriving DecidableEq

structure ObjectPath where
  dir : ObjectDir
  name : FileName
  deriving DecidableEq

def hexDigit (c : UInt16) : Option UInt8 :=
  if 0x30 ≤ c ∧ c ≤ 0x39 then some (c - 0x30).toUInt8
  else if 0x41 ≤ c ∧ c ≤ 0x46 then some (c - 0x37).toUInt8
  else if 0x61 ≤ c ∧ c ≤ 0x66 then some (c - 0x57).toUInt8
  else none

def pairDigits : List UInt8 → Bytes
  | high :: low :: rest => (high <<< 4 ||| low) :: pairDigits rest
  | _ => []

/-- `QByteArray::fromHex`: what is no digit is skipped, and an odd number of digits
reads as if a zero stood before them. -/
def fromHex (s : FileName) : Bytes :=
  let digits := s.filterMap hexDigit
  pairDigits (if digits.length % 2 = 1 then 0 :: digits else digits)

def isValidRefHex (s : FileName) : Bool := s.length == 64 && (fromHex s).length == 32

inductive DataObjectHealth
  | ok
  | invalidFileName
  | fileTooSmall
  | readFailed
  | missingKey
  | decryptFailed
  | invalidJson
  deriving DecidableEq

structure DataObjectCheckResult where
  refHex : FileName
  path : Option ObjectPath := none
  health : DataObjectHealth
  keyIdHex : Bytes := []
  size : Nat := 0
  lastModified : Option QDateTime := none
  deriving DecidableEq

variable (S) in
/-- `CheckDataObjectByRef`. `reads` says whether the file can be read, `jsonParses`
is the JSON parser's answer. -/
def checkDataObjectByRef (session : KeySession) (dir : Dir ObjectFile) (reads : FileName → Bool)
    (jsonParses : Bytes → Bool) (refHex : FileName) (expectJson : Bool) :
    DataObjectCheckResult :=
  if !isValidRefHex refHex then { refHex, health := .invalidFileName }
  else
    let fi := dir.lookup refHex
    let r : DataObjectCheckResult :=
      { refHex, path := some ⟨.objects, refHex⟩, health := .ok
        size := (fi.map (·.content.length)).getD 0
        lastModified := fi.bind (·.lastModified) }
    match fi with
    | none => { r with health := .readFailed }
    | some file =>
      if !reads refHex then { r with health := .readFailed }
      else
        let data := file.content
        if data.length ≤ 32 then { r with health := .fileTooSmall }
        else
          let keyId := data.take keyIdLen
          let r := { r with keyIdHex := keyId }
          let key := session.keyById keyId
          if key.isEmpty then { r with health := .missingKey }
          else
            let encrypted := data.drop keyId.length
            if encrypted.isEmpty then { r with health := .fileTooSmall }
            else
              match deriveObjectKey S key (fromHex refHex) with
              | none => { r with health := .decryptFailed }
              | some drvKey =>
                match GFBufferFactory.decryptLite S drvKey encrypted with
                | none => { r with health := .decryptFailed }
                | some plaintext =>
                  if expectJson && !jsonParses plaintext then { r with health := .invalidJson }
                  else r

/-- A well-named object is checked under its own name and path, whatever comes out. -/
theorem checkDataObjectByRef_names {session : KeySession} {dir : Dir ObjectFile}
    {reads : FileName → Bool} {jsonParses : Bytes → Bool} {refHex : FileName} {expectJson : Bool}
    (h : isValidRefHex refHex = true) :
    (checkDataObjectByRef S session dir reads jsonParses refHex expectJson).refHex = refHex ∧
      (checkDataObjectByRef S session dir reads jsonParses refHex expectJson).path =
        some ⟨.objects, refHex⟩ := by
  unfold checkDataObjectByRef
  rw [if_neg (by simp [h])]
  dsimp only
  repeat' split
  all_goals exact ⟨rfl, rfl⟩

end DataObjectOperator

end GpgFrontend
