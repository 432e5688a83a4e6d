import GpgFrontend.DataObject.Object

/-!
# The collector's check and the program's reader (`DataObjectOperator`)

Two decoders walk a stored object: `CheckDataObjectByRef`, on whose word the collector
quarantines it, and `read_decr_object`, by which the program reads it.
-/

namespace GpgFrontend

namespace DataObjectOperator

/-! ## References and the names of their files -/

/-- `get_object_ref`. An object without a name gets the reference of a random text. -/
def getObjectRef (S : Sodium) (logicalKey random objName : Bytes) : Bytes :=
  (S.hmacSha256 logicalKey (if objName.isEmpty then random else objName)).getD []

/-- What an object is stored and looked up by. -/
abbrev ObjectRef : Type := { ref : Bytes // ref.length = 32 }

/-- A digit of `QByteArray::toHex`, as a code unit. -/
def hexCodeUnit (n : Nat) : UInt16 := if n < 10 then .ofNat (0x30 + n) else .ofNat (0x57 + n)

/-- `ref.ConvertToQByteArray().toHex()`, as a file name. -/
def refHexName (ref : Bytes) : FileName :=
  ref.flatMap fun b => [hexCodeUnit (b.toNat / 16), hexCodeUnit (b.toNat % 16)]

theorem hexDigit_hexCodeUnit : ∀ n < 16, hexDigit (hexCodeUnit n) = some (.ofNat n) := by
  decide

theorem join_nibbles :
    ∀ n < 256, UInt8.ofNat (n / 16) <<< 4 ||| UInt8.ofNat (n % 16) = UInt8.ofNat n := by
  decide +kernel

/-- The digits of a reference, two a byte. -/
def refNibbles (ref : Bytes) : List UInt8 :=
  ref.flatMap fun b => [UInt8.ofNat (b.toNat / 16), UInt8.ofNat (b.toNat % 16)]

theorem filterMap_refHexName (ref : Bytes) :
    (refHexName ref).filterMap hexDigit = refNibbles ref := by
  induction ref with
  | nil => rfl
  | cons b ref ih =>
    have hb := b.toNat_lt
    have hhigh := hexDigit_hexCodeUnit (b.toNat / 16) (by omega)
    have hlow := hexDigit_hexCodeUnit (b.toNat % 16) (by omega)
    show List.filterMap hexDigit (hexCodeUnit _ :: hexCodeUnit _ :: refHexName ref) =
      UInt8.ofNat _ :: UInt8.ofNat _ :: refNibbles ref
    rw [List.filterMap_cons_some hhigh, List.filterMap_cons_some hlow, ih]

theorem length_refNibbles (ref : Bytes) : (refNibbles ref).length = 2 * ref.length := by
  induction ref with
  | nil => rfl
  | cons b ref ih =>
    show (refNibbles ref).length + 1 + 1 = 2 * (ref.length + 1)
    omega

theorem length_refHexName (ref : Bytes) : (refHexName ref).length = 2 * ref.length := by
  induction ref with
  | nil => rfl
  | cons b ref ih =>
    show (refHexName ref).length + 1 + 1 = 2 * (ref.length + 1)
    omega

theorem pairDigits_refNibbles (ref : Bytes) : pairDigits (refNibbles ref) = ref := by
  induction ref with
  | nil => rfl
  | cons b ref ih =>
    have hb := join_nibbles b.toNat b.toNat_lt
    show (UInt8.ofNat (b.toNat / 16) <<< 4 ||| UInt8.ofNat (b.toNat % 16)) ::
      pairDigits (refNibbles ref) = b :: ref
    rw [hb, ih, UInt8.ofNat_toNat]

/-- A file name is read back as the reference it was written for. -/
theorem fromHex_refHexName (ref : Bytes) : fromHex (refHexName ref) = ref := by
  have heven : ¬ (refNibbles ref).length % 2 = 1 := by
    rw [length_refNibbles]
    omega
  rw [fromHex, filterMap_refHexName, if_neg heven, pairDigits_refNibbles]

theorem isValidRefHex_refHexName (ref : ObjectRef) : isValidRefHex (refHexName ref) = true := by
  rw [isValidRefHex, length_refHexName, fromHex_refHexName, ref.2]
  rfl

/-! ## The two decoders -/

variable (S : Sodium)

/-- `read_decr_object`, with its files: `reads` says whether one can be read. -/
def readStoredObject (session : KeySession) (dir : Dir ObjectFile) (reads : FileName → Bool)
    (ref : Bytes) : Option Bytes :=
  let refHex := refHexName ref
  match dir.lookup refHex with
  | none => none
  | some file => if !reads refHex then none else readDecrObject S session ref file.content

variable {S}

/-- A file of no more than a key id holds nothing to decrypt, whatever the registry
files under it. -/
theorem readDecrObject_short {session : KeySession} {ref data : Bytes} (h : data.length ≤ 32) :
    readDecrObject S session ref data = none := by
  have hdrop : data.drop (data.take keyIdLen).length = [] := by
    rw [List.length_take, keyIdLen, Nat.min_eq_right h, List.drop_length]
  unfold readDecrObject
  dsimp only
  rw [hdrop]
  split
  · rfl
  · rfl

/-- Under any name, what the check calls good is a file that its own name's reference
decrypts, and that parses where JSON was expected. -/
theorem check_health_ok_iff {session : KeySession} {dir : Dir ObjectFile}
    {reads : FileName → Bool} {jsonParses : Bytes → Bool} {refHex : FileName} {expectJson : Bool} :
    (checkDataObjectByRef S session dir reads jsonParses refHex expectJson).health = .ok ↔
      isValidRefHex refHex = true ∧ ∃ file, dir.lookup refHex = some file ∧
        reads refHex = true ∧ ∃ value,
          readDecrObject S session (fromHex refHex) file.content = some value ∧
            (expectJson = true → jsonParses value = true) := by
  unfold checkDataObjectByRef
  cases hvalid : isValidRefHex refHex with
  | false => simp
  | true =>
    cases hfile : dir.lookup refHex with
    | none => simp
    | some file =>
      cases hreads : reads refHex with
      | false => simp
      | true =>
        by_cases hshort : file.content.length ≤ 32
        · -- The check has a guard here the reader lacks.
          simp [hshort, readDecrObject_short hshort]
        · simp only [Option.some.injEq, exists_eq_left', true_and]
          unfold readDecrObject
          dsimp only
          generalize (session.keyById (file.content.take keyIdLen)).isEmpty = noKey
          generalize file.content.drop (file.content.take keyIdLen).length = encrypted
          generalize deriveObjectKey S (session.keyById (file.content.take keyIdLen))
            (fromHex refHex) = derived
          cases noKey with
          | true => simp [hshort]
          | false =>
            cases encrypted with
            | nil => simp [hshort]
            | cons first rest =>
              cases derived with
              | none => simp [hshort]
              | some drvKey =>
                cases hopen : GFBufferFactory.decryptLite S drvKey (first :: rest) with
                | none => simp [hshort, hopen]
                | some value =>
                  cases expectJson with
                  | false => simp [hshort, hopen]
                  | true =>
                    cases hjson : jsonParses value with
                    | true => simp [hshort, hopen, hjson]
                    | false => simp [hshort, hopen, hjson]

theorem readStoredObject_eq_some_iff {session : KeySession} {dir : Dir ObjectFile}
    {reads : FileName → Bool} {ref value : Bytes} :
    readStoredObject S session dir reads ref = some value ↔
      ∃ file, dir.lookup (refHexName ref) = some file ∧ reads (refHexName ref) = true ∧
        readDecrObject S session ref file.content = some value := by
  unfold readStoredObject
  dsimp only
  cases hfile : dir.lookup (refHexName ref) with
  | none => simp
  | some file =>
    cases hreads : reads (refHexName ref) with
    | false => simp
    | true => simp

/-- **The check calls an object good exactly when the reader returns a value for it**, one
that is JSON where JSON is asked for. Neither of the collector's two calls asks for it. -/
theorem collector_agrees_with_reader (S : Sodium) (session : KeySession) (dir : Dir ObjectFile)
    (reads : FileName → Bool) (jsonParses : Bytes → Bool) (ref : ObjectRef) (expectJson : Bool) :
    (checkDataObjectByRef S session dir reads jsonParses (refHexName ref) expectJson).health = .ok ↔
      ∃ value, readStoredObject S session dir reads ref = some value ∧
        (expectJson = true → jsonParses value = true) := by
  rw [check_health_ok_iff, fromHex_refHexName]
  constructor
  · rintro ⟨-, file, hfile, hreads, value, hvalue, hjson⟩
    exact ⟨value, readStoredObject_eq_some_iff.mpr ⟨file, hfile, hreads, hvalue⟩, hjson⟩
  · rintro ⟨value, hread, hjson⟩
    obtain ⟨file, hfile, hreads, hvalue⟩ := readStoredObject_eq_some_iff.mp hread
    exact ⟨isValidRefHex_refHexName ref, file, hfile, hreads, value, hvalue, hjson⟩

end DataObjectOperator

end GpgFrontend
