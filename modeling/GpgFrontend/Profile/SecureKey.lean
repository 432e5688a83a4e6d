import GpgFrontend.Profile.Protection

/-!
# The key set of a session (`ProfileSecureKeyManager::Load`)

A session's keys are rebuilt from the secure area each time: the profile's own
key from its file, and, when the session rotates its keys, the key of the current
period and every older one that still opens.

- `calculateKeyId`, `registerKeyIds`: a key's identity, and the registry it is
  filed in.

The registry is a `QMap` that is only inserted into and looked up in: a list of
pairs, newest first.
-/

namespace GpgFrontend

open AESCryptoHelper (Draw)

/-- `ProfileKeyLoadStatus`. -/
inductive ProfileKeyLoadStatus where
  | ok | readFailed | decryptFailed | writeFailed | generateFailed
  deriving Repr, DecidableEq

/-- `ProfileKeyLoadResult`. -/
structure ProfileKeyLoadResult where
  status : ProfileKeyLoadStatus
  detail : String
  deriving Repr, DecidableEq

/-- `ProfileKeyMode`. -/
inductive ProfileKeyMode where
  | single | rotating
  deriving Repr, DecidableEq

/-- Keys by id, newest first. -/
abbrev KeyRegistry : Type := List (Bytes × Bytes)

/-- The key set of one session. -/
structure KeySession where
  keys : KeyRegistry
  activeKeyId : Bytes
  rootKeyId : Bytes
  mode : ProfileKeyMode
  deriving DecidableEq

namespace KeySession

def keyById (session : KeySession) (id : Bytes) : Bytes := (session.keys.lookup id).getD []

def activeKey (session : KeySession) : Bytes := session.keyById session.activeKeyId

def rootKey (session : KeySession) : Bytes := session.keyById session.rootKeyId

end KeySession

/-- What the clock, the random source and the secure area do in one load. -/
structure LoadOutcomes where
  location : String
  rootKeySource : Option RootKey
  rootDraw : Draw
  rootWrites : Bool
  rootReads : Bool
  /-- Seconds since the epoch. -/
  now : Int
  rotatedDraw : Draw
  rotatedWrites : Bool
  rotatedReads : String → Bool

namespace ProfileSecureKeyManager

/-- `kEmptyPinLabel`: "GpgFrontend". -/
def emptyPinLabel : Bytes :=
  [0x47, 0x70, 0x67, 0x46, 0x72, 0x6f, 0x6e, 0x74, 0x65, 0x6e, 0x64]

/-- `kRotatingKeySaltPrefix`: "GF_ROT_KEY". -/
def rotatingKeySalt : Bytes := [0x47, 0x46, 0x5f, 0x52, 0x4f, 0x54, 0x5f, 0x4b, 0x45, 0x59]

/-- `kRotationPeriodSecs`: a week. -/
def rotationPeriodSecs : Int := 60 * 60 * 24 * 7

/-- `QString::number`, as bytes. -/
def decimal (n : Int) : Bytes :=
  let digits := (Nat.toDigits 10 n.natAbs).map fun c => UInt8.ofNat c.toNat
  if n < 0 then 0x2d :: digits else digits

/-- `toHex().left(16)` of an id, and the extension. -/
def rotatedKeyName (keyId : Bytes) : String :=
  let hex (b : UInt8) : List Char :=
    [(Nat.digitChar (b.toNat / 16)), (Nat.digitChar (b.toNat % 16))]
  String.ofList ((keyId.flatMap hex).take 16) ++ ".key"

variable (S : Sodium)

def calculateKeyId (pin key : Bytes) : Bytes :=
  (GFBufferFactory.toHMACSha256 S (if pin.isEmpty then emptyPinLabel else pin) key).getD []

/-- `RegisterKeyIds`: the stable id, and the id a profile from before the split
filed its objects under. Returns the stable one. -/
def registerKeyIds (keys : KeyRegistry) (pin key : Bytes) : KeyRegistry × Bytes :=
  let stableId := calculateKeyId S [] key
  let keys := (stableId, key) :: keys
  (if !pin.isEmpty then (calculateKeyId S pin key, key) :: keys else keys, stableId)

/-! ## The profile's own key -/

/-- `new_root_key`. -/
def newRootKey (env : LoadOutcomes) (pin wrap : Bytes) :
    CrashM KeyWorld (ProfileKeyLoadResult × Bytes) := do
  match env.rootKeySource with
  | none => pure (⟨.ok, ""⟩, [])
  | some plainKey =>
    match sealKey S env.rootDraw pin wrap plainKey.bytes with
    | none =>
      pure (⟨.writeFailed,
        "The secure key could not be encrypted, so it was not saved to disk."⟩, plainKey.bytes)
    | some sealed =>
      let written ← CrashM.step fun w =>
        if env.rootWrites then (w.setKeyFile sealed, true) else (w, false)
      pure (if written then ⟨.ok, ""⟩ else ⟨.writeFailed, env.location⟩, plainKey.bytes)

/-- The session with the profile's own key registered and active. -/
def rootSession (pin rootKey : Bytes) : KeySession :=
  let (keys, rootKeyId) := registerKeyIds S [] pin rootKey
  { keys, activeKeyId := rootKeyId, rootKeyId, mode := .single }

/-- `init_root_key`. -/
def initRootKey (env : LoadOutcomes) (pin wrap : Bytes) :
    CrashM KeyWorld (Except ProfileKeyLoadResult KeySession) := do
  match ← CrashM.read KeyWorld.keyFile with
  | none =>
    let (result, rootKey) ← newRootKey S env pin wrap
    pure (if rootKey.isEmpty then .error ⟨.generateFailed, env.location⟩
      else if result.status ≠ .ok then .error result
      else .ok (rootSession S pin rootKey))
  | some stored =>
    if !env.rootReads then pure (.error ⟨.readFailed, env.location⟩)
    else
      pure (match unsealKey S pin wrap stored with
        | none => .error ⟨.decryptFailed, env.location⟩
        | some rootKey => .ok (rootSession S pin rootKey))

/-! ## Rotation -/

/-- `DeriveRotatedKey`; empty when the library fails. -/
def deriveRotatedKey (appKey : Bytes) (period : Int) : Bytes :=
  ((GFBufferFactory.toSha256 S (rotatingKeySalt ++ decimal period)).bind fun salt =>
    GFBufferFactory.toHMACSha256 S appKey salt).getD []

/-- `fetch_time_related_key`: the key of the period with its id, written beside
the others unless a file of its name is there. That the write may fail changes
nothing here. -/
def fetchTimeRelatedKey (env : LoadOutcomes) (appKey : Bytes) :
    CrashM KeyWorld (Option (Bytes × Bytes)) := do
  let key := deriveRotatedKey S appKey (env.now.tdiv rotationPeriodSecs)
  let keyId := calculateKeyId S [] key
  if key.isEmpty || keyId.isEmpty then pure none
  else
    let keyName := rotatedKeyName keyId
    if ← CrashM.read fun w => w.rotatedKeys.any (·.1 == keyName) then pure (some (key, keyId))
    else
      match GFBufferFactory.encryptLite S env.rotatedDraw appKey key with
      | none => pure (some (key, keyId))
      | some eKey =>
        CrashM.step fun w =>
          (if env.rotatedWrites then { w with rotatedKeys := w.rotatedKeys ++ [(keyName, eKey)] }
            else w, ())
        pure (some (key, keyId))

/-- Trial decryption of a key file: the way rotated keys are written now, then the
way they once were. -/
def openRotatedKey (pin appKey stored : Bytes) : Option Bytes :=
  match GFBufferFactory.decryptLite S appKey stored with
  | some key => some key
  | none => if !pin.isEmpty then GFBufferFactory.decrypt S pin stored else none

/-- The loop over the key files; `none` when one does not read. -/
def registerRotatedKeys (env : LoadOutcomes) (pin appKey : Bytes) :
    List (String × Bytes) → KeyRegistry → Option KeyRegistry
  | [], keys => some keys
  | (name, stored) :: rest, keys =>
    if !env.rotatedReads name then none
    else
      match openRotatedKey S pin appKey stored with
      | some key => registerRotatedKeys env pin appKey rest (registerKeyIds S keys pin key).1
      | none => registerRotatedKeys env pin appKey rest keys

/-- `Load`. -/
def load (env : LoadOutcomes) (pin wrap : Bytes) (rotating : Bool) :
    CrashM KeyWorld (Except ProfileKeyLoadResult KeySession) := do
  match ← initRootKey S env pin wrap with
  | .error result => pure (.error result)
  | .ok session =>
    if !rotating then pure (.ok { session with mode := .single })
    else
      match ← fetchTimeRelatedKey S env session.rootKey with
      | none => pure (.error ⟨.generateFailed, env.location⟩)
      | some (tKey, keyId) =>
        let files ← CrashM.read KeyWorld.rotatedKeys
        let keys := (registerKeyIds S session.keys pin tKey).1
        pure (match registerRotatedKeys S env pin session.rootKey files keys with
          | none => .error ⟨.readFailed, env.location⟩
          | some keys => .ok { session with keys, activeKeyId := keyId, mode := .rotating })

/-! ## Ids and the registry -/

variable {S}

theorem length_calculateKeyId (hS : S.Inverts) {key : Bytes} (hne : key ≠ []) :
    (calculateKeyId S [] key).length = 32 := by
  obtain ⟨digest, hdigest, hlen⟩ := hS.hmacSha256_some emptyPinLabel key
  have hid : calculateKeyId S [] key = digest := by
    cases key with
    | nil => exact absurd rfl hne
    | cons b rest =>
      show (S.hmacSha256 emptyPinLabel (b :: rest)).getD [] = digest
      rw [hdigest]
      rfl
  rw [hid]
  exact hlen

theorem registerKeyIds_mem (keys : KeyRegistry) (pin key : Bytes) :
    (calculateKeyId S [] key, key) ∈ (registerKeyIds S keys pin key).1 := by
  unfold registerKeyIds
  dsimp only
  split
  · exact List.mem_cons_of_mem _ List.mem_cons_self
  · exact List.mem_cons_self

theorem registerKeyIds_subset (keys : KeyRegistry) (pin key : Bytes) :
    keys ⊆ (registerKeyIds S keys pin key).1 := by
  intro e he
  unfold registerKeyIds
  dsimp only
  split
  · exact List.mem_cons_of_mem _ (List.mem_cons_of_mem _ he)
  · exact List.mem_cons_of_mem _ he

/-- The profile's own key is found again whatever its ids are. -/
theorem rootSession_rootKey (pin key : Bytes) : (rootSession S pin key).rootKey = key := by
  unfold rootSession registerKeyIds KeySession.rootKey KeySession.keyById
  dsimp only
  split
  · by_cases hid : calculateKeyId S [] key = calculateKeyId S pin key
    · simp [hid]
    · have hne : (calculateKeyId S [] key == calculateKeyId S pin key) = false := by
        simpa using hid
      simp [List.lookup_cons, hne]
  · simp

end ProfileSecureKeyManager

end GpgFrontend
