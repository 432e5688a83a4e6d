import GpgFrontend.Rpgp.SigningVerdict

/-!
# The listed metadata of a key (`rust/src/key.rs`)

What the key list is filled from: `build_public_metadata` and `build_secret_metadata`, as of
a clock value. The armored blocks they also carry are the packets themselves and are left
out.
-/

namespace GpgFrontend

namespace Rpgp

structure ExtractUserId where
  userId : String
  isPrimary : Bool
  isRevoked : Bool
deriving DecidableEq, Repr

/-- (sign, encrypt, auth, certify). -/
structure Capabilities where
  sign : Bool
  encrypt : Bool
  auth : Bool
  certify : Bool
deriving DecidableEq, Repr

structure ExtractedSubkey where
  ver : GfrOpenPGPKeyVersion
  fpr : String
  keyId : String
  algo : GfrKeyAlgo
  keyLength : UInt32
  createdAt : UInt32
  /-- Absolute, zero for never. -/
  expiresAt : UInt32
  hasSecret : Bool
  isRevoked : Bool
  caps : Capabilities
deriving DecidableEq, Repr

structure ExtractedMetadata where
  ver : GfrOpenPGPKeyVersion
  fpr : String
  keyId : String
  algo : GfrKeyAlgo
  keyLength : UInt32
  createdAt : UInt32
  /-- Absolute, zero for never. -/
  expiresAt : UInt32
  hasSecret : Bool
  isRevoked : Bool
  caps : Capabilities
  userIds : List ExtractUserId
  subkeys : List ExtractedSubkey
deriving DecidableEq, Repr

/-- `extract_capabilities`, of the signature in force if there is one. -/
def extractCapabilities (sig : Option Signature) : Capabilities :=
  match sig with
  | none => ⟨false, false, false, false⟩
  | some s =>
    ⟨s.keyFlags.sign, s.keyFlags.encryptComms || s.keyFlags.encryptStorage,
      s.keyFlags.authentication, s.keyFlags.certify⟩

/-- `usable_capabilities`. -/
def usableCapabilities (caps : Capabilities) (params primaryParams : PublicParams) :
    Capabilities :=
  if keyForbidden primaryParams then ⟨false, false, false, false⟩
  else
    let maySign := !keyForbidden params
    ⟨caps.sign && maySign, caps.encrypt && engineCanEncryptTo params, caps.auth && maySign,
      caps.certify && maySign⟩

@[simp] theorem usableCapabilities_sign (caps : Capabilities) (params primaryParams : PublicParams) :
    (usableCapabilities caps params primaryParams).sign
      = (!keyForbidden primaryParams && (caps.sign && !keyForbidden params)) := by
  rw [usableCapabilities]
  by_cases h : keyForbidden primaryParams <;> simp [h]

section

variable (V : Verifier)

/-- `subkey_binding_signature`: the binding in force now. -/
def subkeyBindingSignature (primary : PublicKey) (subkey : PublicSubkey)
    (signatures : List Signature) (now : UInt32) : Option Signature :=
  subkeyBindingInForce V primary subkey signatures none now

/-- `primary_key_expires_at`. -/
def primaryKeyExpiresAt (primary : PublicKey) (details : SignedKeyDetails) (now : UInt32) :
    UInt32 :=
  expiryOf (primarySigInForce V primary details none now) primary.createdAt

/-- `subkey_expires_at`. -/
def subkeyExpiresAt (primary : PublicKey) (subkey : PublicSubkey) (signatures : List Signature)
    (now : UInt32) : UInt32 :=
  expiryOf (subkeyBindingSignature V primary subkey signatures now) subkey.createdAt

/-- `has_verified_uid_certification`. -/
def hasVerifiedUidCertification (primary : PublicKey) (user : SignedUser) : Bool :=
  (verifiedUidSelfSigs V primary user).any fun sig =>
    match sig.typ with
    | some .certGeneric | some .certPersona | some .certCasual | some .certPositive => true
    | _ => false

/-- `primary_user_index`: the User ID whose certification is in force now, and whether that
certification marks it primary. -/
def primaryUserIndex (primary : PublicKey) (details : SignedKeyDetails) (now : UInt32) :
    Nat × Bool :=
  match indexedUidCertificationInForce V primary details none now with
  | none => (0, false)
  | some (idx, inForce) => (idx, inForce.isPrimary)

/-- The certified User IDs in packet order, each with its index in the certificate. -/
def certifiedUserIds (primary : PublicKey) (details : SignedKeyDetails) (now : UInt32) :
    List (Nat × ExtractUserId) :=
  let (primaryIdx, primaryMarked) := primaryUserIndex V primary details now
  details.users.zipIdx.filterMap fun (u, i) =>
    if hasVerifiedUidCertification V primary u then
      let isRevoked := isUserIdRevoked V primary u
      some (i, ⟨u.id.text, !isRevoked && primaryMarked && decide (i = primaryIdx), isRevoked⟩)
    else none

/-- Takes the entry at `pos` out and puts it first. -/
def moveToFront {α : Type} (l : List α) (pos : Nat) : List α :=
  match l[pos]? with
  | some x => x :: l.eraseIdx pos
  | none => l

/-- `listed_user_ids`. -/
def listedUserIds (primary : PublicKey) (details : SignedKeyDetails) (now : UInt32) :
    List ExtractUserId :=
  let listed := certifiedUserIds V primary details now
  let userIds := listed.map Prod.snd
  match listed.findIdx? fun entry => entry.1 == (primaryUserIndex V primary details now).1 with
  | some pos => if pos ≠ 0 then moveToFront userIds pos else userIds
  | none => userIds

/-- `subkey_is_bound`: bound now, or revoked by the primary key. -/
def subkeyIsBound (primary : PublicKey) (subkey : PublicSubkey) (signatures : List Signature)
    (now : UInt32) : Bool :=
  (subkeyBindingSignature V primary subkey signatures now).isSome
    || isSubkeyRevoked V primary subkey signatures

/-- `public_subkey_metadata`, and the body of the loop over `secret_subkeys` in
`build_secret_metadata`: they differ in `has_secret` only. -/
def subkeyMetadata (primary : PublicKey) (subkey : PublicSubkey) (signatures : List Signature)
    (hasSecret : Bool) (now : UInt32) : ExtractedSubkey where
  ver := GfrOpenPGPKeyVersion.ofKeyVersion subkey.version
  fpr := subkey.fingerprint
  keyId := subkey.legacyKeyId
  algo := determineAlgo subkey.publicParams
  keyLength := (extractKeyLength subkey.publicParams).getD 0
  createdAt := subkey.createdAt
  expiresAt := subkeyExpiresAt V primary subkey signatures now
  hasSecret := hasSecret
  isRevoked := isSubkeyRevoked V primary subkey signatures
  caps :=
    usableCapabilities
      (extractCapabilities (subkeyBindingSignature V primary subkey signatures now))
      subkey.publicParams primary.publicParams

/-- `public_subkey_metadata`. -/
def publicSubkeyMetadata (primary : PublicKey) (sub : SignedPublicSubKey) (now : UInt32) :
    ExtractedSubkey :=
  subkeyMetadata V primary sub.key sub.signatures false now

/-- The entry of a secret subkey in `build_secret_metadata`. -/
def secretSubkeyMetadata (primary : PublicKey) (sub : SignedSecretSubKey) (now : UInt32) :
    ExtractedSubkey :=
  subkeyMetadata V primary sub.key sub.signatures true now

/-- The entries of the subkeys whose secret part is not held. -/
def publicSubkeyEntries (primary : PublicKey) (subs : List SignedPublicSubKey) (now : UInt32) :
    List ExtractedSubkey :=
  (subs.filter fun sub => subkeyIsBound V primary sub.key sub.signatures now).map fun sub =>
    publicSubkeyMetadata V primary sub now

/-- The entries of the secret subkeys. -/
def secretSubkeyEntries (primary : PublicKey) (subs : List SignedSecretSubKey) (now : UInt32) :
    List ExtractedSubkey :=
  (subs.filter fun sub => subkeyIsBound V primary sub.key sub.signatures now).map fun sub =>
    secretSubkeyMetadata V primary sub now

/-- The part of a record that is about the primary key and the User IDs, the same in
`build_public_metadata` and `build_secret_metadata`. -/
def primaryMetadata (primary : PublicKey) (details : SignedKeyDetails) (hasSecret : Bool)
    (subkeys : List ExtractedSubkey) (now : UInt32) : ExtractedMetadata where
  ver := GfrOpenPGPKeyVersion.ofKeyVersion primary.version
  fpr := primary.fingerprint
  keyId := primary.legacyKeyId
  algo := determineAlgo primary.publicParams
  keyLength := (extractKeyLength primary.publicParams).getD 0
  createdAt := primary.createdAt
  expiresAt := primaryKeyExpiresAt V primary details now
  hasSecret := hasSecret
  isRevoked :=
    isPrimaryKeyRevoked V primary details.revocationSignatures
      || isPrimaryKeyRevoked V primary details.directSignatures
  caps :=
    usableCapabilities (extractCapabilities (primarySigInForce V primary details none now))
      primary.publicParams primary.publicParams
  userIds := listedUserIds V primary details now
  subkeys := subkeys

/-- `build_public_metadata`. -/
def buildPublicMetadata (pk : SignedPublicKey) (now : UInt32) : ExtractedMetadata :=
  primaryMetadata V pk.primaryKey pk.details false
    (publicSubkeyEntries V pk.primaryKey pk.publicSubkeys now) now

/-- `build_secret_metadata`: the public-only subkeys precede the secret ones. -/
def buildSecretMetadata (sk : SignedSecretKey) (now : UInt32) : ExtractedMetadata :=
  primaryMetadata V sk.primaryKey sk.details true
    (publicSubkeyEntries V sk.primaryKey sk.publicSubkeys now
      ++ secretSubkeyEntries V sk.primaryKey sk.secretSubkeys now) now

end

/-! ## Reading an expiry -/

/-- `expires_at != 0 && expires_at < now`. -/
def listedExpired (expiresAt now : UInt32) : Bool := decide (expiresAt ≠ 0) && decide (expiresAt < now)

/-- `GpgSubKey::IsExpired`. -/
def ExtractedSubkey.isExpired (sub : ExtractedSubkey) (now : UInt32) : Bool :=
  listedExpired sub.expiresAt now

/-- `GpgKey::IsExpired`. -/
def ExtractedMetadata.isExpired (m : ExtractedMetadata) (now : UInt32) : Bool :=
  listedExpired m.expiresAt now

end Rpgp

end GpgFrontend
