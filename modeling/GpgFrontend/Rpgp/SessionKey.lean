import GpgFrontend.Base.SecretStream
import GpgFrontend.Rpgp.Packets

/-!
# The session key of an encrypted message (`rust/src/crypto/decrypt.rs`)

A message names its recipients in session-key packets. The host is asked for the secret
certificate of each, and every certificate is tried once, with one passphrase.

The packet library is `KeyRing`: what unlocks a component, and what a component opens. Each call
that concerns a passphrase is recorded. The texts of the errors are left out.
-/

namespace GpgFrontend

namespace Rpgp

/-! ## Session-key packets -/

inductive PublicKeyAlgorithm
  | rsa | ecdh | x25519 | x448 | mlKem768X25519 | mlKem1024X448
  | other
deriving DecidableEq, Repr

/-- `key_size()`. -/
def SymmetricKeyAlgorithm.keySize : SymmetricKeyAlgorithm → Nat
  | .plaintext | .other _ => 0
  | .idea | .cast5 | .blowfish | .aes128 | .camellia128 => 16
  | .tripleDes | .aes192 | .camellia192 => 24
  | .aes256 | .twofish | .camellia256 => 32

inductive PlainSessionKey
  | v3_4 (symAlg : SymmetricKeyAlgorithm) (key : Bytes)
  | v5 (key : Bytes)
  | v6 (key : Bytes)
deriving DecidableEq, Repr

inductive PkeskVersion
  | v3 | v6
  | other (n : UInt8)
deriving DecidableEq, Repr

inductive EskType
  | v3_4 | v6
deriving DecidableEq, Repr

/-- A public-key session-key packet. `id` and `fingerprint` are what `id()` and `fingerprint()`
name, `pubAlgo` is the display name of `algorithm`, and `values` is absent where it cannot be
read. -/
structure Pkesk where
  version : PkeskVersion
  id : Option String
  fingerprint : Option String
  algorithm : Option PublicKeyAlgorithm
  pubAlgo : String
  values : Option Bytes
deriving DecidableEq, Repr

inductive Esk
  | publicKeyEncryptedSessionKey (pkesk : Pkesk)
  | symKeyEncryptedSessionKey
deriving DecidableEq, Repr

/-- A parsed message, as far as its envelope goes. -/
inductive Message
  | encrypted (esk : List Esk) (symEncryptedData : Bool)
  | other
deriving DecidableEq, Repr

inductive GfrRecipientStatus
  | success | noKey | error
deriving DecidableEq, Repr

structure RecipientResultInternal where
  keyId : String
  pubAlgo : String
  status : GfrRecipientStatus
deriving DecidableEq, Repr

/-- The recipient a session-key packet is listed as. A hidden one of version 6 has no name. -/
def eskRecipient : Esk → Option RecipientResultInternal
  | .symKeyEncryptedSessionKey => none
  | .publicKeyEncryptedSessionKey pkesk =>
    (pkesk.id.or pkesk.fingerprint).map fun keyId => ⟨keyId, pkesk.pubAlgo, .noKey⟩

def Esk.isPkesk : Esk → Bool
  | .publicKeyEncryptedSessionKey _ => true
  | .symKeyEncryptedSessionKey => false

/-- `analyze_encrypted_envelope`. -/
def analyzeEncryptedEnvelope :
    Message → Except GfrStatus (Bool × Bool × List RecipientResultInternal)
  | .encrypted esk symEncryptedData =>
    if symEncryptedData then .error .errorUnsupportedFeature
    else
      .ok (esk.any Esk.isPkesk, esk.any fun e => !e.isPkesk, esk.filterMap eskRecipient)
  | .other => .error .errorInvalidData

/-- Why a session key is refused. -/
inductive SessionKeyProblem
  | notAes (symAlg : SymmetricKeyAlgorithm)
  | wrongLength (length : Nat) (symAlg : SymmetricKeyAlgorithm)
deriving DecidableEq, Repr

/-- `v3_session_key_problem`. -/
def v3SessionKeyProblem (pkesk : Pkesk) : PlainSessionKey → Option SessionKeyProblem
  | .v3_4 symAlg key =>
    let aesOnly := match pkesk.algorithm with
      | some .x25519 | some .x448 | some .mlKem768X25519 | some .mlKem1024X448 => true
      | _ => false
    let isAes := match symAlg with
      | .aes128 | .aes192 | .aes256 => true
      | _ => false
    if aesOnly && !isAes then some (.notAes symAlg)
    else if key.length ≠ symAlg.keySize then some (.wrongLength key.length symAlg)
    else none
  | _ => none

/-! ## One certificate -/

/-- A component key with its secret part. -/
structure SecretComponent where
  key : PublicKey
  secretParams : Bytes
deriving DecidableEq, Repr

def SignedSecretKey.primaryComponent (skey : SignedSecretKey) : SecretComponent :=
  ⟨skey.primaryKey, skey.secretParams⟩

def SignedSecretSubKey.component (subkey : SignedSecretSubKey) : SecretComponent :=
  ⟨subkey.key, subkey.secretParams⟩

/-- The primary key, and then the secret subkeys. -/
def SignedSecretKey.components (skey : SignedSecretKey) : List SecretComponent :=
  skey.primaryComponent :: skey.secretSubkeys.map SignedSecretSubKey.component

/-- The packet library. `decrypt` of a component first unlocks it, and then opens the values of
a packet with it. -/
structure KeyRing where
  /-- `secret_params()` is `Encrypted`. -/
  isEncrypted : SecretComponent → Bool
  /-- The passphrase unlocks the component. -/
  unlocks : SecretComponent → Bytes → Bool
  /-- The session key the unlocked component finds in the values. -/
  opens : SecretComponent → Bytes → EskType → Option PlainSessionKey
  /-- `match_identity`. -/
  matchIdentity : Pkesk → PublicKey → Bool

/-- A call that concerns the passphrase of a component. -/
inductive PassphraseCall
  /-- `fetch_password_with_cache`. -/
  | fetch (component : String)
  /-- `PASSWORD_CACHE.remove_by_fpr`. -/
  | remove (component : String)
deriving DecidableEq, Repr

def isAnonymous (id : String) : Bool := id == "0000000000000000"

/-- `eq_ignore_ascii_case`. -/
def eqIgnoreAsciiCase (a b : String) : Bool :=
  a.toList.map Char.toLower == b.toList.map Char.toLower

/-- Does the recipient identifier name the component. -/
def idMatches (rec : String) (key : PublicKey) : Bool :=
  isAnonymous rec || eqIgnoreAsciiCase rec key.legacyKeyId || eqIgnoreAsciiCase rec key.fingerprint

/-- A packet to be opened, with a component it is addressed to. -/
structure EskCandidate where
  pkesk : Pkesk
  values : Bytes
  typ : EskType
  key : SecretComponent
deriving DecidableEq, Repr

def PkeskVersion.eskType : PkeskVersion → Option EskType
  | .v3 => some .v3_4
  | .v6 => some .v6
  | .other _ => none

/-- How the trial of the packets with one passphrase ends. -/
inductive TrialEnd
  | opened (sessionKey : PlainSessionKey)
  | locked
  | exhausted (refused : Option SessionKeyProblem) (lastErr : Bool)
deriving DecidableEq, Repr

section

variable (R : KeyRing)

/-- The candidates of a packet: the components that it is addressed to. -/
def eskCandidates (skey : SignedSecretKey) : Esk → List EskCandidate
  | .symKeyEncryptedSessionKey => []
  | .publicKeyEncryptedSessionKey pkesk =>
    match pkesk.version.eskType, pkesk.values with
    | some typ, some values =>
      (skey.components.filter fun key => R.matchIdentity pkesk key.key).map fun key =>
        ⟨pkesk, values, typ, key⟩
    | _, _ => []

/-- The two nested loops of `pkesk_session_key_with`, over the packets and their candidates. -/
def tryCandidates (pwd : Bytes) (refused : Option SessionKeyProblem) (lastErr : Bool) :
    List EskCandidate → TrialEnd
  | [] => .exhausted refused lastErr
  | c :: rest =>
    if !R.unlocks c.key pwd then .locked
    else
      match R.opens c.key c.values c.typ with
      | none => tryCandidates pwd refused true rest
      | some sessionKey =>
        match v3SessionKeyProblem c.pkesk sessionKey with
        | none => .opened sessionKey
        | some problem => tryCandidates pwd (some problem) lastErr rest

/-- The component whose passphrase is asked for: the primary key if the recipient names it and
it is locked, else the first locked subkey the recipient names. -/
def passwordTarget (skey : SignedSecretKey) (matchedRecipientId : String) : Option String :=
  if idMatches matchedRecipientId skey.primaryKey && R.isEncrypted skey.primaryComponent then
    some skey.primaryKey.fingerprint
  else
    (skey.secretSubkeys.find? fun subkey =>
      idMatches matchedRecipientId subkey.key && R.isEncrypted subkey.component).map fun subkey =>
        subkey.key.fingerprint

/-- The status a trial ends in. -/
def TrialEnd.result : TrialEnd → Except GfrStatus PlainSessionKey
  | .opened sessionKey => .ok sessionKey
  | .locked => .error .errorBadPassphrase
  | .exhausted (some _) _ => .error .errorInvalidData
  | .exhausted none true => .error .errorDecryptionFailed
  | .exhausted none false => .error .errorNoKey

-- What `fetch_password_with_cache` answers for a component: the cached passphrase, or the one
-- the user gives.
variable (fetchPassword : String → Except GfrStatus Bytes)

/-- `pkesk_session_key_with`. A passphrase that does not unlock a component is evicted. -/
def pkeskSessionKeyWith (esks : List Esk) (skey : SignedSecretKey) (matchedRecipientId : String) :
    Except GfrStatus PlainSessionKey × List PassphraseCall :=
  let candidates := esks.flatMap (eskCandidates R skey)
  match passwordTarget R skey matchedRecipientId with
  | none => ((tryCandidates R [] none false candidates).result, [])
  | some target =>
    let asked := PassphraseCall.fetch target
    match fetchPassword target with
    | .error status => (.error status, [asked])
    | .ok pwd =>
      let trial := tryCandidates R pwd none false candidates
      (trial.result, if trial = .locked then [asked, .remove target] else [asked])

/-! ## All certificates -/

/-- `more_telling_failure`. -/
def moreTellingFailure : Option GfrStatus → GfrStatus → GfrStatus
  | some .errorBadPassphrase, _ => .errorBadPassphrase
  | some .errorDecryptionFailed, .errorNoKey => .errorDecryptionFailed
  | some .errorInvalidData, .errorNoKey => .errorInvalidData
  | _, next => next

/-- `CString::new(..).unwrap_or_default()`. -/
def cString (s : String) : String := if s.toList.contains '\x00' then "" else s

-- The certificate that the host returns for a recipient, where it returns one that parses.
variable (fetchSeckey : String → Option SignedSecretKey)

/-- The loop of `pkesk_session_key`, from what it has tried and how that failed. The key comes
with the recipient it was found for and the certificate. -/
def searchRecipients (esks : List Esk) (tried : List String) (failure : Option GfrStatus) :
    List RecipientResultInternal →
      Except GfrStatus (PlainSessionKey × String × SignedSecretKey) × List PassphraseCall
  | [] => (.error (failure.getD .errorNoKey), [])
  | rec :: recipients =>
    match fetchSeckey (cString rec.keyId) with
    | none => searchRecipients esks tried failure recipients
    | some skey =>
      let fpr := skey.primaryKey.fingerprint
      if tried.contains fpr then searchRecipients esks tried failure recipients
      else
        let (result, calls) := pkeskSessionKeyWith R fetchPassword esks skey rec.keyId
        match result with
        | .ok sessionKey => (.ok (sessionKey, rec.keyId, skey), calls)
        | .error .errorCanceled => (.error .errorCanceled, calls)
        | .error status =>
          let later := searchRecipients esks (tried ++ [fpr])
            (some (moreTellingFailure failure status)) recipients
          (later.1, calls ++ later.2)

end

/-- `pkesk_session_key`. The ciphers that the certificate accepts are read from it, by
`acceptedCiphers`. -/
def pkeskSessionKey {Ciphers : Type} (R : KeyRing) (acceptedCiphers : SignedPublicKey → Ciphers)
    (fetchPassword : String → Except GfrStatus Bytes)
    (fetchSeckeyCb : Option (String → Option SignedSecretKey)) (esks : List Esk)
    (recipients : List RecipientResultInternal) :
    Except GfrStatus (PlainSessionKey × String × Ciphers) × List PassphraseCall :=
  match fetchSeckeyCb with
  | none => (.error .errorNoKey, [])
  | some fetchSeckey =>
    let found := searchRecipients R fetchPassword fetchSeckey esks [] none recipients
    (found.1.map fun (sessionKey, keyId, skey) => (sessionKey, keyId, acceptedCiphers skey.toPublic),
      found.2)

end Rpgp

end GpgFrontend
