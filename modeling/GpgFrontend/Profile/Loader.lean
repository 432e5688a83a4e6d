import GpgFrontend.Profile.SecureKey

/-!
# Opening a profile's key (`ProfileLoader`)

The loader decides from the recorded protection which secret to obtain, obtains it
from the credential store or from the user, and loads the keys with it.

The prompt for a PIN repeats until an answer ends it: `asking` is where the loader
is when the answers run out.
-/

namespace GpgFrontend

open AESCryptoHelper (isEncryptedBuffer)
open ProfileSecureKeyManager

/-- `ProfileKind`. -/
inductive ProfileKind where
  | installedRoot | portableRoot | persist | packaged | ephemeral
  deriving Repr, DecidableEq

/-- `ProfileLoadFailure`, as far as keys go. -/
inductive ProfileLoadFailure where
  | cancelled | keyReadFailed | keyDecryptFailed | keyWriteFailed | keyGenerateFailed
  | keyLockedOut | keyIoFailed
  deriving Repr, DecidableEq

/-- `ProfileLoadNotice`. -/
inductive ProfileLoadNotice where
  | keychainUnavailable | pinSetButKeyPlaintext | keyWasReset
  deriving Repr, DecidableEq

/-- `ProfileKeyResetReason`, as far as the loader gives one. -/
inductive ProfileKeyResetReason where
  | keychainSecretLost | keyFileMissing
  deriving Repr, DecidableEq

/-- `AppKeyPinAnswer`. -/
inductive AppKeyPinAnswer where
  | quit
  | usePin (pin : Bytes)
  | resetKey
  deriving Repr, DecidableEq

/-- A call to the delegate. -/
inductive LoaderCall where
  | askAppKeyPin (creating : Bool) (failures : Nat)
  | confirmKeyReset (reason : ProfileKeyResetReason)
  | note (notice : ProfileLoadNotice) (detail : String)
  | report (failure : ProfileLoadFailure) (subject detail : String)
  deriving Repr, DecidableEq

/-- `ProfileLoaderDelegate`: what the user answers. -/
structure ProfileLoaderDelegate where
  pinAnswers : List AppKeyPinAnswer
  confirmsReset : Bool

/-- What the loader works on. -/
structure LoaderState where
  keys : KeyWorld
  setting : AppKeyProtection
  calls : List LoaderCall

namespace LoaderState

def call (st : LoaderState) (c : LoaderCall) : LoaderState := { st with calls := st.calls ++ [c] }

/-- `turn_protection_off`. -/
def turnProtectionOff (st : LoaderState) : LoaderState := { st with setting := .none }

end LoaderState

/-- The profile, and what the machine does while it is opened. -/
structure LoaderEnv where
  kind : ProfileKind
  passphrase : Bytes
  keychainAllowed : Bool
  /-- `KeyDir`, empty for an area held in memory. -/
  keyDir : String
  account : String
  /-- Whether `data_objs` holds sealed objects. -/
  sealedObjects : Bool
  store : Option SystemSecretStore
  outcomes : ProtectionOutcomes
  load : LoadOutcomes
  removesKeyFile : Bool
  sweeps : String → Bool

namespace LoaderEnv

/-- `key_path`. -/
def keyPath (env : LoaderEnv) : String := env.keyDir ++ "/app.key"

end LoaderEnv

/-- How resolving the secret ends. -/
inductive SecretResolution where
  | secret (pin wrap : Bytes)
  | refused
  | asking
  deriving Repr, DecidableEq

/-- How opening the keys ends. -/
inductive KeysOpening where
  | loaded (session : KeySession)
  | refused
  | asking
  deriving DecidableEq

namespace ProfileLoader

/-- `FailureFor`. -/
def failureFor : ProfileKeyLoadStatus → ProfileLoadFailure
  | .readFailed => .keyReadFailed
  | .decryptFailed => .keyDecryptFailed
  | .writeFailed => .keyWriteFailed
  | .generateFailed => .keyGenerateFailed
  | .ok => .keyReadFailed

/-- `ApplyProfilePortabilityRule`. -/
def applyProfilePortabilityRule (resolved : AppKeyProtection) (keychainAllowed : Bool) :
    AppKeyProtection :=
  if !keychainAllowed ∧ resolved = .keychain then .none else resolved

/-- `reset_key_storage` with `ResetKeyStorage`: the key file, the other key files,
the store's entry and the setting. -/
def resetKeyStorage (env : LoaderEnv) (st : LoaderState) : Bool × LoaderState :=
  if env.keyDir.isEmpty then (false, st)
  else if st.keys.keyFile.isSome && !env.removesKeyFile then (false, st)
  else
    let entries :=
      if env.store.any (·.removes) then Function.update st.keys.entries env.account none
      else st.keys.entries
    let keys : KeyWorld :=
      { keyFile := none,
        rotatedKeys := st.keys.rotatedKeys.filter fun file => !env.sweeps file.1,
        entries }
    (true, ({ st with keys }.turnProtectionOff).call (.note .keyWasReset env.keyDir))

/-- Report and stop. -/
def refuse (st : LoaderState) (failure : ProfileLoadFailure) (subject detail : String) :
    SecretResolution × LoaderState :=
  (.refused, st.call (.report failure subject detail))

/-- Discard the key, with nothing to open the next one with. -/
def resetAndContinue (env : LoaderEnv) (st : LoaderState) : SecretResolution × LoaderState :=
  match resetKeyStorage env st with
  | (false, st) => refuse st .keyIoFailed env.keyPath ""
  | (true, st) => (.secret [] [], st)

variable (S : Sodium)

/-- The branch of `resolve_secret` for everything but a PIN. -/
def resolveStored (env : LoaderEnv) (user : ProfileLoaderDelegate) (protection : AppKeyProtection)
    (st : LoaderState) : SecretResolution × LoaderState :=
  let m := resolveWrapSecret S env.outcomes env.keyPath env.store (protection = .keychain)
    env.account
  let result := m.value st.keys
  let st := { st with keys := m.final st.keys }
  match result.status with
  | .notWrapped | .wrapped | .justEnabled | .justDisabled => (.secret [] result.secret, st)
  | .storeUnavailable =>
    (.secret [] [], st.turnProtectionOff.call (.note .keychainUnavailable result.detail))
  | .ioFailed => refuse st .keyIoFailed result.detail ""
  | .lockedOut =>
    let st := st.call (.confirmKeyReset .keychainSecretLost)
    if !user.confirmsReset then refuse st .keyLockedOut env.keyPath result.detail
    else resetAndContinue env st

/-- The loop of `resolve_secret`: one prompt after the other. -/
def askPin (env : LoaderEnv) (onDisk : Bytes) :
    List AppKeyPinAnswer → Nat → LoaderState → SecretResolution × LoaderState
  | [], failures, st => (.asking, st.call (.askAppKeyPin false failures))
  | answer :: rest, failures, st =>
    let st := st.call (.askAppKeyPin false failures)
    match answer with
    | .quit => refuse st .cancelled env.keyPath ""
    | .resetKey => resetAndContinue env st
    | .usePin pin =>
      if (unsealKey S pin [] onDisk).isSome then (.secret pin [], st)
      else askPin env onDisk rest (failures + 1) st

/-- The branch of `resolve_secret` for a PIN. -/
def resolvePin (env : LoaderEnv) (user : ProfileLoaderDelegate) (st : LoaderState) :
    SecretResolution × LoaderState :=
  match st.keys.keyFile with
  | none =>
    -- a fresh profile that opted into a PIN before a key existed
    let st := st.call (.askAppKeyPin true 0)
    match user.pinAnswers with
    | .usePin pin :: _ => (.secret pin [], st)
    | [] => (.asking, st)
    | _ => refuse st .cancelled env.keyPath ""
  | some onDisk =>
    if !env.load.rootReads then refuse st .keyReadFailed env.keyPath ""
    else if !isEncryptedBuffer onDisk then
      -- the setting and the file disagree: the key is intact, so go on without
      (.secret [] [],
        st.turnProtectionOff.call (.note .pinSetButKeyPlaintext env.keyPath))
    else askPin S env onDisk user.pinAnswers 0 st

/-- `resolve_secret`. -/
def resolveSecret (env : LoaderEnv) (user : ProfileLoaderDelegate) (protection : AppKeyProtection)
    (st : LoaderState) : SecretResolution × LoaderState :=
  if env.kind = .ephemeral then (.secret [] [], st)
  else if env.kind = .packaged then
    match st.keys.keyFile with
    | some stored =>
      if env.load.rootReads && isEncryptedBuffer stored then (.secret env.passphrase [], st)
      else (.secret [] [], st)
    | none => (.secret [] [], st)
  else if protection ≠ .pin then resolveStored S env user protection st
  else resolvePin S env user st

/-- `Open`, from the check for sealed data to the loaded keys. -/
def openKeys (env : LoaderEnv) (user : ProfileLoaderDelegate) (rotating : Bool)
    (st : LoaderState) : KeysOpening × LoaderState :=
  let orphans := st.keys.keyFile.isNone && env.sealedObjects
  let asked := if orphans then st.call (.confirmKeyReset .keyFileMissing) else st
  if orphans && !user.confirmsReset then
    (.refused, asked.call (.report .keyLockedOut env.keyPath ""))
  else
    let protection := applyProfilePortabilityRule asked.setting env.keychainAllowed
    match resolveSecret S env user protection asked with
    | (.refused, st) => (.refused, st)
    | (.asking, st) => (.asking, st)
    | (.secret pin wrap, st) =>
      let m := ProfileSecureKeyManager.load S env.load pin wrap rotating
      let st' := { st with keys := m.final st.keys }
      match m.value st.keys with
      | .ok session => (.loaded session, st')
      | .error result => (.refused, st'.call (.report (failureFor result.status) result.detail ""))

end ProfileLoader

end GpgFrontend
