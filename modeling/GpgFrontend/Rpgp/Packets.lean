import Mathlib.Data.List.Basic

/-!
# OpenPGP packets as the Rust engine reads them (`rust/src/key.rs`, `rust/src/utils.rs`)

The engine sees a certificate through the packet library: a signature answers accessors
(`typ()`, `created()`, `key_flags()`, …), a key answers its version, its dates and its public
parameters. A record here has one field per accessor the engine calls.

- `SignedPublicKey` / `SignedSecretKey`: a certificate, with the signatures kept where the
  packet parser puts them.

Seconds are `UInt32`, as in the code; `saturatingAdd` is Rust's.
-/

namespace GpgFrontend

namespace Rpgp

/-- The errors of the engine (`types.rs`). -/
inductive GfrStatus
  | errorInvalidInput | errorInternal | errorPanic
  | errorKeygenFailed | errorPasswordFailed | errorNoKey | errorFetchPasswordFailed
  | errorWrongPassword | errorPasswordMismatch
  | errorArmorFailed | errorInvalidData | errorDataCorrupted | errorUnsupportedAlgorithm
  | errorIo | errorDecryptionFailed
  | errorCanceled | errorNoPublicKey | errorNoSecretKey | errorBadSignature | errorExpiredKey
  | errorRevokedKey | errorUnusableKey | errorUnsupportedFeature | errorNoData | errorBadArmor
  | errorBadPassphrase
deriving DecidableEq, Repr

/-- `u32::saturating_add`. -/
def saturatingAdd (a b : UInt32) : UInt32 :=
  if a.toNat + b.toNat < UInt32.size then a + b else UInt32.ofNat (UInt32.size - 1)

theorem saturatingAdd_toNat (a b : UInt32) :
    (saturatingAdd a b).toNat = min (a.toNat + b.toNat) (UInt32.size - 1) := by
  unfold saturatingAdd
  split
  · next h =>
    rw [UInt32.toNat_add, Nat.mod_eq_of_lt h]
    omega
  · next h =>
    have hlast : (UInt32.ofNat (UInt32.size - 1)).toNat = UInt32.size - 1 := rfl
    rw [hlast]
    omega

/-! ## Keys -/

inductive KeyVersion
  | v2 | v3 | v4 | v5 | v6
  | other (n : UInt8)
deriving DecidableEq, Repr

inductive GfrOpenPGPKeyVersion
  | unknown | v4 | v5 | v6
deriving DecidableEq, Repr

/-- `impl From<KeyVersion> for GfrOpenPGPKeyVersion`. -/
def GfrOpenPGPKeyVersion.ofKeyVersion : KeyVersion → GfrOpenPGPKeyVersion
  | .v4 => .v4
  | .v5 => .v5
  | .v6 => .v6
  | _ => .unknown

inductive ECCCurve
  | curve25519Legacy | p256 | p384 | p521 | secp256k1
  | other
deriving DecidableEq, Repr

/-- The public parameters of a key. RSA and DSA carry the size of their modulus in bits, the
curve keys their curve and its `nbits()`. -/
inductive PublicParams
  | rsa (bits : UInt32)
  | dsa (bits : UInt32)
  | ecdh (curve : ECCCurve) (nbits : UInt32)
  | ecdsa (curve : ECCCurve) (nbits : UInt32)
  | eddsaLegacy | ed25519 | ed448 | x25519 | x448
  | mlKem768X25519 | mlKem1024X448
  | mlDsa65Ed25519 | mlDsa87Ed448
  | slhDsaShake128s | slhDsaShake128f | slhDsaShake256s
  | other
deriving DecidableEq, Repr

inductive GfrKeyAlgo
  | unknown
  | rsa1024 | rsa2048 | rsa3072 | rsa4096
  | dsa1024 | dsa2048 | dsa3072
  | ed25519 | ed25519Legacy | ed448 | cv25519 | x448
  | nistp256 | nistp384 | nistp521 | secp256k1
  | kyber768X25519 | kyber1024X448
  | mldsa65Ed25519 | mldsa87Ed448
  | slhdsaShake128s | slhdsaShake128f | slhdsaShake256s
deriving DecidableEq, Repr

/-- `determine_algo`: sizes are bucketed downwards. -/
def determineAlgo : PublicParams → GfrKeyAlgo
  | .rsa bits =>
    if 4096 ≤ bits then .rsa4096
    else if 3072 ≤ bits then .rsa3072
    else if 2048 ≤ bits then .rsa2048
    else .rsa1024
  | .dsa bits =>
    if 3072 ≤ bits then .dsa3072
    else if 2048 ≤ bits then .dsa2048
    else .dsa1024
  | .ed25519 => .ed25519
  | .x25519 => .cv25519
  | .ed448 => .ed448
  | .x448 => .x448
  | .ecdh curve _ =>
    match curve with
    | .curve25519Legacy => .cv25519
    | .p256 => .nistp256
    | .p384 => .nistp384
    | .p521 => .nistp521
    | .secp256k1 => .secp256k1
    | .other => .unknown
  | .ecdsa curve _ =>
    match curve with
    | .p256 => .nistp256
    | .p384 => .nistp384
    | .p521 => .nistp521
    | .secp256k1 => .secp256k1
    | _ => .unknown
  | .eddsaLegacy => .ed25519Legacy
  | .mlKem768X25519 => .kyber768X25519
  | .mlKem1024X448 => .kyber1024X448
  | .mlDsa65Ed25519 => .mldsa65Ed25519
  | .mlDsa87Ed448 => .mldsa87Ed448
  | .slhDsaShake128s => .slhdsaShake128s
  | .slhDsaShake128f => .slhdsaShake128f
  | .slhDsaShake256s => .slhdsaShake256s
  | .other => .unknown

/-- `extract_key_length`. -/
def extractKeyLength : PublicParams → Option UInt32
  | .rsa bits => some bits
  | .dsa bits => some bits
  | .ed25519 => some 255
  | .ed448 => some 448
  | .x448 => some 448
  | .ecdh _ nbits => some nbits
  | .ecdsa _ nbits => some nbits
  | .eddsaLegacy => some 255
  | .x25519 => some 255
  | .mlKem768X25519 => some 768
  | .mlKem1024X448 => some 1024
  | .mlDsa65Ed25519 => some 65
  | .mlDsa87Ed448 => some 87
  | .slhDsaShake128s => some 128
  | .slhDsaShake128f => some 128
  | .slhDsaShake256s => some 256
  | .other => none

/-- `engine_can_encrypt_to` (`crypto/encrypt.rs`). -/
def engineCanEncryptTo : PublicParams → Bool
  | .rsa _ | .x25519 | .x448 | .mlKem768X25519 | .mlKem1024X448 => true
  | .ecdh .curve25519Legacy _ | .ecdh .p256 _ | .ecdh .p384 _ | .ecdh .p521 _ => true
  | _ => false

/-- `rsa_key_too_small`. -/
def rsaKeyTooSmall : PublicParams → Bool
  | .rsa bits => decide (((extractKeyLength (.rsa bits)).getD 0) < 2048)
  | _ => false

/-- `key_forbidden`: a key that may not be used at all. -/
def keyForbidden (params : PublicParams) : Bool :=
  rsaKeyTooSmall params || (match params with | .dsa _ => true | _ => false)

/-- A public key or public subkey packet. `algorithmCanSign` and `algorithmIsPqc` are the
answers of `algorithm().can_sign()` and `algorithm().is_pqc()`. -/
structure PublicKey where
  version : KeyVersion
  fingerprint : String
  legacyKeyId : String
  createdAt : UInt32
  algorithmCanSign : Bool
  algorithmIsPqc : Bool
  publicParams : PublicParams
deriving DecidableEq, Repr

abbrev PublicSubkey := PublicKey

/-! ## Signatures -/

inductive SignatureType
  | binary | text | standalone
  | certGeneric | certPersona | certCasual | certPositive
  | subkeyBinding | keyBinding | key
  | keyRevocation | subkeyRevocation | certRevocation
  | timestamp | thirdParty
  | undefined (n : UInt8)
deriving DecidableEq, Repr

inductive HashAlgorithm
  | none | md5 | sha1 | ripemd160
  | sha256 | sha384 | sha512 | sha224 | sha3_256 | sha3_512
  | other (n : UInt8)
deriving DecidableEq, Repr

inductive SymmetricKeyAlgorithm
  | plaintext | idea | tripleDes | cast5 | blowfish
  | aes128 | aes192 | aes256 | twofish
  | camellia128 | camellia192 | camellia256
  | other (n : UInt8)
deriving DecidableEq, Repr

inductive RevocationCode
  | noReason | keySuperseded | keyCompromised | keyRetired | certUserIdInvalid
  | other (n : UInt8)
deriving DecidableEq, Repr

structure KeyFlags where
  certify : Bool
  sign : Bool
  encryptComms : Bool
  encryptStorage : Bool
  authentication : Bool
deriving DecidableEq, Repr

/-- Kind of a hashed subpacket, as far as the engine tells them apart. -/
inductive SubpacketData
  | notationData | experimental | policyURI | regularExpression | trustSignature | signatureTarget
  | keyFlags
  | other
deriving DecidableEq, Repr

structure Subpacket where
  isCritical : Bool
  data : SubpacketData
deriving DecidableEq, Repr

/-- What is read from a signature embedded in another: its packet, its type, its date and its
digest. `typ` and `hashAlg` are `none` for a version the library does not know. -/
structure SignatureCore where
  bytes : List UInt8
  typ : Option SignatureType
  created : Option UInt32
  hashAlg : Option HashAlgorithm
deriving DecidableEq, Repr

/-- A signature packet, one field per accessor. `config` is the list of hashed subpackets, when
the version is known. -/
structure Signature extends SignatureCore where
  config : Option (List Subpacket)
  signatureExpirationTime : Option UInt32
  keyExpirationTime : Option UInt32
  isPrimary : Bool
  keyFlags : KeyFlags
  revocationReasonCode : Option RevocationCode
  issuerFingerprint : List String
  issuerKeyId : List String
  embeddedSignature : Option SignatureCore
deriving DecidableEq, Repr

/-- `created_secs`: no Signature Creation Time counts as the epoch. -/
def createdSecs (sig : SignatureCore) : UInt32 := sig.created.getD 0

/-- `has_critical_unsupported_subpacket` (`crypto/mod.rs`). -/
def hasCriticalUnsupportedSubpacket (sig : Signature) : Bool :=
  match sig.config with
  | none => false
  | some hashed => hashed.any fun sp =>
      sp.isCritical && (match sp.data with
        | .notationData | .experimental | .policyURI | .regularExpression | .trustSignature
        | .signatureTarget => true
        | _ => false)

/-! ## Certificates -/

/-- A User ID packet: its octets, and the text `String::from_utf8_lossy` reads in them. -/
structure UserId where
  id : List UInt8
  text : String
deriving DecidableEq, Repr

structure SignedUser where
  id : UserId
  signatures : List Signature
deriving DecidableEq, Repr

/-- A User Attribute packet (a photo ID) with its signatures, known by its octets. -/
structure SignedUserAttribute where
  attr : List UInt8
  signatures : List Signature
deriving DecidableEq, Repr

structure SignedKeyDetails where
  revocationSignatures : List Signature
  directSignatures : List Signature
  users : List SignedUser
  userAttributes : List SignedUserAttribute
deriving DecidableEq, Repr

structure SignedPublicSubKey where
  key : PublicSubkey
  signatures : List Signature
deriving DecidableEq, Repr

structure SignedPublicKey where
  primaryKey : PublicKey
  details : SignedKeyDetails
  publicSubkeys : List SignedPublicSubKey
deriving DecidableEq, Repr

/-- A subkey with its secret part, which nothing here looks into. -/
structure SignedSecretSubKey where
  key : PublicSubkey
  secretParams : List UInt8
  signatures : List Signature
deriving DecidableEq, Repr

/-- A transferable secret key. `publicSubkeys` are the subkeys whose secret part is elsewhere. -/
structure SignedSecretKey where
  primaryKey : PublicKey
  secretParams : List UInt8
  details : SignedKeyDetails
  publicSubkeys : List SignedPublicSubKey
  secretSubkeys : List SignedSecretSubKey
deriving DecidableEq, Repr

/-- `SignedPublicSubKey::from(SignedSecretSubKey)`: the secret part is dropped. -/
def SignedSecretSubKey.toPublic (sub : SignedSecretSubKey) : SignedPublicSubKey :=
  ⟨sub.key, sub.signatures⟩

/-- `SignedPublicKey::from(SignedSecretKey)`. -/
def SignedSecretKey.toPublic (sk : SignedSecretKey) : SignedPublicKey where
  primaryKey := sk.primaryKey
  details := sk.details
  publicSubkeys := sk.publicSubkeys ++ sk.secretSubkeys.map SignedSecretSubKey.toPublic

/-! ## The cryptographic checks -/

/-- The packet library's verification, `is_ok()` of each call. -/
structure Verifier where
  /-- `sig.verify_key(primary)`: a signature over the primary key itself. -/
  verifyKey : Signature → PublicKey → Bool
  /-- `sig.verify_certification(primary, Tag::UserId, id)`. -/
  verifyCertification : Signature → PublicKey → UserId → Bool
  /-- `sig.verify_certification(primary, Tag::UserAttribute, attr)`. -/
  verifyAttribute : Signature → PublicKey → List UInt8 → Bool
  /-- `sig.verify_subkey_binding(primary, subkey)`. -/
  verifySubkeyBinding : Signature → PublicKey → PublicSubkey → Bool
  /-- `back.verify_primary_key_binding(subkey, primary)`, of an embedded back-signature. -/
  verifyPrimaryKeyBinding : SignatureCore → PublicSubkey → PublicKey → Bool

end Rpgp

end GpgFrontend
