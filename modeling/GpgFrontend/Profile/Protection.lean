import GpgFrontend.Base.Crash
import GpgFrontend.Function.AESCryptoHelper

/-!
# At-rest protection of the profile key

The profile's key is kept in one file, as plaintext or sealed in a container
whose secret is a PIN or an entry of the system credential store. Two functions
move it from one form to another: `resolveWrapSecret` at start-up, which
reconciles the file with the requested keychain protection, and
`changeProtection`, which reseals the key at the user's request.

The key file is written through `QSaveFile`: it is replaced in one step, or a
failure is reported and it is as it was.
-/

namespace GpgFrontend

open AESCryptoHelper (Draw isEncryptedBuffer)

/-- `AppKeyProtection`. -/
inductive AppKeyProtection where
  | none
  | keychain
  | pin
  deriving Repr, DecidableEq

/-- `AppKeyProtectionToString`. -/
def AppKeyProtection.toString : AppKeyProtection → String
  | .keychain => "keychain"
  | .pin => "pin"
  | .none => "none"

/-- `AppKeyProtectionStatus`. -/
inductive AppKeyProtectionStatus where
  | ok | unchanged | badPin | storeUnavailable | sealFailed | ioFailed
  deriving Repr, DecidableEq

/-- `AppKeyProtectionResult`. -/
structure AppKeyProtectionResult where
  status : AppKeyProtectionStatus
  detail : String
  deriving Repr, DecidableEq

/-- `AppKeyWrapStatus`. -/
inductive AppKeyWrapStatus where
  | notWrapped | wrapped | justEnabled | justDisabled | storeUnavailable | lockedOut | ioFailed
  deriving Repr, DecidableEq

/-- `AppKeyWrapResult`. -/
structure AppKeyWrapResult where
  status : AppKeyWrapStatus
  secret : Bytes
  detail : String
  deriving Repr, DecidableEq

/-- `AppKeyWrapResult::Usable`. -/
def AppKeyWrapResult.usable (r : AppKeyWrapResult) : Bool :=
  r.status ≠ .lockedOut && r.status ≠ .ioFailed

/-- Raw key material: "an encrypted container carries a magic prefix, a raw key
never does". -/
structure RootKey where
  bytes : Bytes
  raw : isEncryptedBuffer bytes = false

/-- What outlives the process: the key file, the other key files beside it, by
name, and the credential store's entries. -/
structure KeyWorld where
  keyFile : Option Bytes
  rotatedKeys : List (String × Bytes)
  entries : String → Option Bytes

namespace KeyWorld

def setEntry (w : KeyWorld) (account : String) (entry : Option Bytes) : KeyWorld :=
  { w with entries := Function.update w.entries account entry }

def setKeyFile (w : KeyWorld) (content : Bytes) : KeyWorld :=
  { w with keyFile := some content }

@[simp] theorem setEntry_keyFile (w : KeyWorld) (account : String) (entry : Option Bytes) :
    (w.setEntry account entry).keyFile = w.keyFile := rfl

@[simp] theorem setEntry_entries_self (w : KeyWorld) (account : String) (entry : Option Bytes) :
    (w.setEntry account entry).entries account = entry :=
  Function.update_self ..

@[simp] theorem setKeyFile_keyFile (w : KeyWorld) (content : Bytes) :
    (w.setKeyFile content).keyFile = some content := rfl

@[simp] theorem setKeyFile_entries (w : KeyWorld) (content : Bytes) :
    (w.setKeyFile content).entries = w.entries := rfl

end KeyWorld

/-- Length of the secret that protects the key file at rest. -/
def wrapSecretLen : Nat := 32

/-- An installed credential store, with what its calls do in one run. -/
structure SystemSecretStore where
  name : String
  isAvailable : Bool
  /-- Whether the first `Read` finds the store open. -/
  reads : Bool
  unlocks : Bool
  /-- Whether the `Read` after `Unlock` finds the store open. -/
  readsAgain : Bool
  /-- What `Write` reports. -/
  writes : Bool
  /-- What the entry holds after `Write`, whatever it reported. -/
  entryAfterWrite : Option Bytes
  /-- Whether the `Read` after `Write` finds the store open. -/
  readsBack : Bool
  removes : Bool

namespace SystemSecretStore

/-- `Read`: the entry, or nothing when it is absent or the store stays shut. -/
def read (answers : Bool) (account : String) : CrashM KeyWorld (Option Bytes) :=
  CrashM.read fun w => if answers then w.entries account else none

/-- `Read`, and once more after `Unlock`: a store that was never opened answers
with nothing rather than with a locked entry. -/
def readUnlocking (store : SystemSecretStore) (account : String) :
    CrashM KeyWorld (Option Bytes) := do
  let secret ← read store.reads account
  if secret.isNone && store.unlocks then read store.readsAgain account else pure secret

/-- `Write`. -/
def write (store : SystemSecretStore) (account : String) : CrashM KeyWorld Bool :=
  CrashM.step fun w => (w.setEntry account store.entryAfterWrite, store.writes)

/-- `Remove`; its report is not looked at. -/
def remove (store : SystemSecretStore) (account : String) : CrashM KeyWorld Unit :=
  CrashM.step fun w => (if store.removes then w.setEntry account none else w, ())

end SystemSecretStore

/-- `backend`: the name of the store, for the log and any dialog. -/
def backendName (store : Option SystemSecretStore) : String :=
  (store.map (·.name)).getD "none"

/-- What the random source and the key file do in one run. -/
structure ProtectionOutcomes where
  generated : Option (Block wrapSecretLen)
  draw : Draw
  fileReads : Bool
  fileWrites : Bool

/-- `AppKeySink`: where a re-sealed key goes. `write` may not be set. -/
structure AppKeySink where
  write : Bool
  location : String

/-- `GFBufferFactory::ToFile`, or the sink of a session: an atomic replacement. -/
def writeKeyFile (env : ProtectionOutcomes) (content : Bytes) : CrashM KeyWorld Bool :=
  CrashM.step fun w => if env.fileWrites then (w.setKeyFile content, true) else (w, false)

namespace ProfileSecureKeyManager

variable (S : Sodium)

/-- `SealKey`: the derivation follows from whichever secret is set. -/
def sealKey (draw : Draw) (pin wrap plain : Bytes) : Option Bytes :=
  if !wrap.isEmpty then GFBufferFactory.encryptLite S draw wrap plain
  else if !pin.isEmpty then GFBufferFactory.encrypt S draw pin plain
  else some plain

/-- `UnsealKey`. -/
def unsealKey (pin wrap stored : Bytes) : Option Bytes :=
  if !wrap.isEmpty then GFBufferFactory.decryptLite S wrap stored
  else if !pin.isEmpty then GFBufferFactory.decrypt S pin stored
  else some stored

/-- What was sealed unseals with the same secrets. -/
theorem unsealKey_sealKey {S : Sodium} (hS : S.Inverts) {draw : Draw} {pin wrap plain sealed : Bytes}
    (h : sealKey S draw pin wrap plain = some sealed) :
    unsealKey S pin wrap sealed = some plain := by
  cases wrap with
  | cons b rest => exact GFBufferFactory.decryptLite_encryptLite hS h
  | nil =>
    cases pin with
    | cons b rest => exact GFBufferFactory.decrypt_encrypt hS h
    | nil => exact congrArg some (Option.some.inj h).symm

/-- The block both functions open with: draw a secret, store it, and read it back
before anything depends on it. `none` is "the store cannot be used". -/
def provisionWrapSecret (env : ProtectionOutcomes) (store : SystemSecretStore) (account : String) :
    CrashM KeyWorld (Option Bytes) := do
  match env.generated with
  | none => pure none
  | some generated =>
    if !(← store.write account) then pure none
    else
      let verify ← SystemSecretStore.read store.readsBack account
      if verify ≠ some generated.1 then
        store.remove account
        pure none
      else pure (some generated.1)

/-- Where replacing the key file went wrong. -/
inductive ReplaceFailure where
  | seal | roundTrip | write
  deriving Repr, DecidableEq

/-- The block both functions close with: seal the key, prove in memory that the
container opens again, and only then replace the file. -/
def replaceKeyFile (env : ProtectionOutcomes) (pin wrap plain : Bytes) :
    CrashM KeyWorld (Option ReplaceFailure) := do
  match sealKey S env.draw pin wrap plain with
  | none => pure (some .seal)
  | some sealed =>
    if unsealKey S pin wrap sealed ≠ some plain then pure (some .roundTrip)
    else if !(← writeKeyFile env sealed) then pure (some .write)
    else pure none

/-! ## Start-up -/

/-- The branch of `ResolveWrapSecret` for a file that is a container. -/
def resolveWrapped (env : ProtectionOutcomes) (keyPath : String) (store : Option SystemSecretStore)
    (intentEnabled : Bool) (account : String) (onDisk : Bytes) :
    CrashM KeyWorld AppKeyWrapResult := do
  match store with
  | none => pure ⟨.lockedOut, [], backendName none⟩
  | some st =>
    match ← st.readUnlocking account with
    | none => pure ⟨.lockedOut, [], st.name⟩
    | some secret =>
      match unsealKey S [] secret onDisk with
      | none => pure ⟨.lockedOut, [], st.name⟩
      | some plain =>
        if intentEnabled then pure ⟨.wrapped, secret, st.name⟩
        -- the plaintext goes back first, the entry only once the file no longer needs it
        else if !(← writeKeyFile env plain) then pure ⟨.ioFailed, [], keyPath⟩
        else
          st.remove account
          pure ⟨.justDisabled, [], st.name⟩

/-- The branch of `ResolveWrapSecret` for protection that is asked for and not
there yet. -/
def resolveUnwrapped (env : ProtectionOutcomes) (keyPath : String)
    (store : Option SystemSecretStore) (account : String) (onDisk : Option Bytes) :
    CrashM KeyWorld AppKeyWrapResult := do
  match store with
  | none => pure ⟨.storeUnavailable, [], backendName none⟩
  | some st =>
    if !st.isAvailable then pure ⟨.storeUnavailable, [], st.name⟩
    else
      match ← provisionWrapSecret env st account with
      | none => pure ⟨.storeUnavailable, [], st.name⟩
      | some secret =>
        match onDisk with
        | none => pure ⟨.justEnabled, secret, st.name⟩
        | some plain =>
          match ← replaceKeyFile S env [] secret plain with
          | some _ =>
            st.remove account
            pure ⟨.ioFailed, [], keyPath⟩
          | none => pure ⟨.justEnabled, secret, st.name⟩

/-- `ResolveWrapSecret`: the file describes its own state. -/
def resolveWrapSecret (env : ProtectionOutcomes) (keyPath : String)
    (store : Option SystemSecretStore) (intentEnabled : Bool) (account : String) :
    CrashM KeyWorld AppKeyWrapResult := do
  let onDisk ← CrashM.read KeyWorld.keyFile
  if onDisk.isSome && !env.fileReads then pure ⟨.ioFailed, [], keyPath⟩
  else
    match onDisk with
    | some stored =>
      if isEncryptedBuffer stored then
        resolveWrapped S env keyPath store intentEnabled account stored
      else if !intentEnabled then pure ⟨.notWrapped, [], ""⟩
      else resolveUnwrapped S env keyPath store account (some stored)
    | none =>
      if !intentEnabled then pure ⟨.notWrapped, [], ""⟩
      else resolveUnwrapped S env keyPath store account none

/-! ## Changing the protection -/

/-- `rollback`: undoes the store entry and nothing else. -/
def rollback (store : Option SystemSecretStore) (toMode : AppKeyProtection) (account : String) :
    CrashM KeyWorld Unit :=
  match store with
  | some st => if toMode = .keychain then st.remove account else pure ()
  | none => pure ()

/-- The secret of the new form: provisioned for the keychain, none otherwise. -/
def newSecret (env : ProtectionOutcomes) (store : Option SystemSecretStore)
    (toMode : AppKeyProtection) (account : String) : CrashM KeyWorld (Option Bytes) :=
  match store with
  | some st => if toMode = .keychain then provisionWrapSecret env st account else pure (some [])
  | none => pure (some [])

/-- The old form's entry goes last: until the file was replaced it was all that
could open it. -/
def releaseOldEntry (store : Option SystemSecretStore) (fromMode toMode : AppKeyProtection)
    (account : String) : CrashM KeyWorld Unit :=
  match store with
  | some st =>
    if fromMode = .keychain ∧ toMode ≠ .keychain then st.remove account else pure ()
  | none => pure ()

/-- `ChangeProtection` past its refusals. -/
def reseal (env : ProtectionOutcomes) (sink : AppKeySink) (store : Option SystemSecretStore)
    (plainKey : Bytes) (fromMode toMode : AppKeyProtection) (newPin : Bytes) (account : String) :
    CrashM KeyWorld AppKeyProtectionResult := do
  match ← newSecret env store toMode account with
  | none => pure ⟨.storeUnavailable, backendName store⟩
  | some secret =>
    match ← replaceKeyFile S env (if toMode = .pin then newPin else []) secret plainKey with
    | some failure =>
      rollback store toMode account
      pure ⟨if failure = .seal then .sealFailed else .ioFailed, sink.location⟩
    | none =>
      releaseOldEntry store fromMode toMode account
      pure ⟨.ok, if toMode = .keychain then backendName store else toMode.toString⟩

/-- `ChangeProtection`. -/
def changeProtection (env : ProtectionOutcomes) (sink : AppKeySink)
    (store : Option SystemSecretStore) (plainKey : Bytes) (fromMode toMode : AppKeyProtection)
    (newPin : Bytes) (account : String) : CrashM KeyWorld AppKeyProtectionResult :=
  if !sink.write then pure ⟨.ioFailed, sink.location⟩
  -- a fresh PIN is the one same-mode change that still has work to do
  else if fromMode = toMode ∧ toMode ≠ .pin then pure ⟨.unchanged, ""⟩
  else if plainKey.isEmpty then pure ⟨.sealFailed, sink.location⟩
  else if toMode = .pin ∧ newPin.isEmpty then pure ⟨.badPin, ""⟩
  else if toMode = .keychain ∧ !(store.any (·.isAvailable)) then
    pure ⟨.storeUnavailable, backendName store⟩
  else reseal S env sink store plainKey fromMode toMode newPin account

end ProfileSecureKeyManager

end GpgFrontend
