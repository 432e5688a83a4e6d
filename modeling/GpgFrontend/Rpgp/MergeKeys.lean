import GpgFrontend.Base.CappedMerge
import GpgFrontend.Base.KeyedMerge
import GpgFrontend.Rpgp.Metadata

/-!
# Merging two copies of a key (`rust/src/key.rs`)

An import of a key that is already stored merges the two copies, component by component.

Signatures are compared by their serialized packets. The two armored blocks are taken as
parsed, and the result is the key that is exported.
-/

namespace GpgFrontend

namespace Rpgp

/-- `MAX_MERGED_SIGNATURES`. -/
def maxMergedSignatures : Nat := 256

/-- `names_primary_as_issuer`. -/
def namesPrimaryAsIssuer (sig : Signature) (primary : PublicKey) : Bool :=
  sig.issuerFingerprint.any (fun f => f == primary.fingerprint)
    || sig.issuerKeyId.any fun id => id == primary.legacyKeyId

/-- `merge_checked_signatures`. The set `seen` of the code holds at each step the packets of
`dst`. -/
def mergeCheckedSignatures (dst src : List Signature) (primary : Option PublicKey)
    (verifies : Signature → Bool) : List Signature :=
  mergeCapped (fun sig : Signature => sig.bytes)
    (fun sig => primary.any fun p => namesPrimaryAsIssuer sig p) verifies maxMergedSignatures
    dst src

/-- `merge_signatures`. -/
def mergeSignatures (dst src : List Signature) : List Signature :=
  mergeCheckedSignatures dst src none fun _ => true

/-- `dedup_signatures_in_place`. -/
def dedupSignaturesInPlace (sigs : List Signature) : List Signature :=
  dedupFrom (fun sig : Signature => sig.bytes) [] sigs

section

variable (V : Verifier)

/-- What `merge_users` does to a User ID both copies have. -/
def mergeUser (primary : PublicKey) (dstUser srcUser : SignedUser) : SignedUser :=
  { dstUser with
    signatures := mergeCheckedSignatures dstUser.signatures srcUser.signatures (some primary)
      fun sig => V.verifyCertification sig primary dstUser.id }

/-- What `merge_users` does with a User ID the stored copy lacks. -/
def newUser (primary : PublicKey) (srcUser : SignedUser) : Option SignedUser :=
  if hasVerifiedUidCertification V primary srcUser then some srcUser else none

/-- `merge_users`. -/
def mergeUsers (primary : PublicKey) (dst src : List SignedUser) : List SignedUser :=
  mergeKeyed (fun u => u.id.text) (fun u => u.id.text) (mergeUser V primary) (newUser V primary)
    dst src

/-- What `merge_user_attributes` does to an attribute both copies have. -/
def mergeUserAttribute (primary : PublicKey) (dstAttr srcAttr : SignedUserAttribute) :
    SignedUserAttribute :=
  { dstAttr with
    signatures := mergeCheckedSignatures dstAttr.signatures srcAttr.signatures (some primary)
      fun sig => V.verifyAttribute sig primary dstAttr.attr }

/-- What `merge_user_attributes` does with an attribute the stored copy lacks. -/
def newUserAttribute (primary : PublicKey) (srcAttr : SignedUserAttribute) :
    Option SignedUserAttribute :=
  if srcAttr.signatures.any fun sig =>
      namesPrimaryAsIssuer sig primary && !decide (sig.typ = some .certRevocation)
        && V.verifyAttribute sig primary srcAttr.attr
  then some srcAttr else none

/-- `merge_user_attributes`. -/
def mergeUserAttributes (primary : PublicKey) (dst src : List SignedUserAttribute) :
    List SignedUserAttribute :=
  mergeKeyed (fun a => a.attr) (fun a => a.attr) (mergeUserAttribute V primary)
    (newUserAttribute V primary) dst src

/-- What `merge_public_subkeys` does to a subkey both copies have. -/
def mergePublicSubkey (dstSub srcSub : SignedPublicSubKey) : SignedPublicSubKey :=
  { dstSub with signatures := mergeSignatures dstSub.signatures srcSub.signatures }

/-- `merge_public_subkeys`. -/
def mergePublicSubkeys (dst src : List SignedPublicSubKey) : List SignedPublicSubKey :=
  mergeKeyed (fun s => s.key.fingerprint) (fun s => s.key.fingerprint) mergePublicSubkey some
    dst src

/-- What `merge_secret_subkeys` does to a subkey both copies have. -/
def mergeSecretSubkey (dstSub srcSub : SignedSecretSubKey) : SignedSecretSubKey :=
  { dstSub with signatures := mergeSignatures dstSub.signatures srcSub.signatures }

/-- `merge_secret_subkeys`. -/
def mergeSecretSubkeys (dst src : List SignedSecretSubKey) : List SignedSecretSubKey :=
  mergeKeyed (fun s => s.key.fingerprint) (fun s => s.key.fingerprint) mergeSecretSubkey some
    dst src

/-- `merge_key_components`. -/
def mergeKeyComponents (primary : PublicKey) (base incoming : SignedKeyDetails) :
    SignedKeyDetails where
  directSignatures :=
    dedupSignaturesInPlace
      (mergeCheckedSignatures base.directSignatures incoming.directSignatures (some primary)
        fun sig => V.verifyKey sig primary)
  revocationSignatures :=
    dedupSignaturesInPlace
      (mergeCheckedSignatures base.revocationSignatures incoming.revocationSignatures
        (some primary) fun sig => V.verifyKey sig primary)
  users := mergeUsers V primary base.users incoming.users
  userAttributes := mergeUserAttributes V primary base.userAttributes incoming.userAttributes

/-- What `merge_subkeys_into_secret` does to a subkey held with its secret part. -/
def mergeSubkeyIntoSecret (dstSub : SignedSecretSubKey) (srcSub : SignedPublicSubKey) :
    SignedSecretSubKey :=
  { dstSub with signatures := mergeSignatures dstSub.signatures srcSub.signatures }

/-- The two lists of subkeys of a secret key. -/
structure SecretSubkeys where
  secret : List SignedSecretSubKey
  public_ : List SignedPublicSubKey
deriving DecidableEq, Repr

/-- The body of the loop of `merge_subkeys_into_secret`: onto the secret subkey, else among the
public ones. -/
def mergeSubkeyInto (target : SecretSubkeys) (incoming : SignedPublicSubKey) : SecretSubkeys :=
  if target.secret.any fun s => decide (s.key.fingerprint = incoming.key.fingerprint) then
    { target with
      secret := updateFirst (fun s => s.key.fingerprint) (fun s => s.key.fingerprint)
        mergeSubkeyIntoSecret incoming target.secret }
  else { target with public_ := mergePublicSubkeys target.public_ [incoming] }

/-- `merge_subkeys_into_secret`. -/
def mergeSubkeysIntoSecret (target : SecretSubkeys) (incoming : List SignedPublicSubKey) :
    SecretSubkeys :=
  incoming.foldl mergeSubkeyInto target

/-- Is this subkey among the secret ones. -/
def isSecretIn (secret : List SignedSecretSubKey) (sub : SignedPublicSubKey) : Bool :=
  secret.any fun s => decide (s.key.fingerprint = sub.key.fingerprint)

/-- The subkeys of `merge_sk_into_sk`: a public-only subkey of the target that the source holds
with its secret part is demoted onto the secret copy. -/
def mergeSkSubkeys (target source : SecretSubkeys) : SecretSubkeys :=
  let secret := mergeSecretSubkeys target.secret source.secret
  let demoted := target.public_.filter (isSecretIn secret)
  let kept := target.public_.filter fun p => !isSecretIn secret p
  mergeSubkeysIntoSecret (mergeSubkeysIntoSecret ⟨secret, kept⟩ demoted) source.public_

/-- The subkeys of a secret key, both lists. -/
def SignedSecretKey.subkeys (sk : SignedSecretKey) : SecretSubkeys :=
  ⟨sk.secretSubkeys, sk.publicSubkeys⟩

/-- The key with these subkeys. -/
def SignedSecretKey.withSubkeys (sk : SignedSecretKey) (details : SignedKeyDetails)
    (subs : SecretSubkeys) : SignedSecretKey :=
  { sk with details := details, secretSubkeys := subs.secret, publicSubkeys := subs.public_ }

/-- `merge_sk_into_sk`. -/
def mergeSkIntoSk (target source : SignedSecretKey) : SignedSecretKey :=
  target.withSubkeys (mergeKeyComponents V target.primaryKey target.details source.details)
    (mergeSkSubkeys target.subkeys source.subkeys)

/-- `merge_pk_into_sk`. -/
def mergePkIntoSk (target : SignedSecretKey) (source : SignedPublicKey) : SignedSecretKey :=
  target.withSubkeys (mergeKeyComponents V target.primaryKey target.details source.details)
    (mergeSubkeysIntoSecret target.subkeys source.publicSubkeys)

/-- The merge of two public keys. -/
def mergePkIntoPk (target other : SignedPublicKey) : SignedPublicKey where
  primaryKey := target.primaryKey
  details := mergeKeyComponents V target.primaryKey target.details other.details
  publicSubkeys := mergePublicSubkeys target.publicSubkeys other.publicSubkeys

/-- A key with or without its secret part. -/
inductive KeyBlock
  | secret (sk : SignedSecretKey)
  | public_ (pk : SignedPublicKey)
deriving DecidableEq, Repr

/-- `merge_key_block_internal`, once both blocks are parsed, each as a secret and as a public
key. -/
def mergeKeyBlockInternal (baseSk : Option SignedSecretKey) (basePk : Option SignedPublicKey)
    (incSk : Option SignedSecretKey) (incPk : Option SignedPublicKey) : Except GfrStatus KeyBlock :=
  match baseSk, incSk with
  | some targetSk, some otherSk =>
    if targetSk.primaryKey.fingerprint ≠ otherSk.primaryKey.fingerprint then
      .error .errorInvalidInput
    else .ok (.secret (mergeSkIntoSk V targetSk otherSk))
  | some targetSk, none =>
    match incPk with
    | some otherPk =>
      if targetSk.primaryKey.fingerprint ≠ otherPk.primaryKey.fingerprint then
        .error .errorInvalidInput
      else .ok (.secret (mergePkIntoSk V targetSk otherPk))
    | none => .ok (.secret targetSk)
  | none, some targetSk =>
    match basePk with
    | some otherPk =>
      if targetSk.primaryKey.fingerprint ≠ otherPk.primaryKey.fingerprint then
        .error .errorInvalidInput
      else .ok (.secret (mergePkIntoSk V targetSk otherPk))
    | none => .ok (.secret targetSk)
  | none, none =>
    match basePk, incPk with
    | some targetPk, some otherPk =>
      if targetPk.primaryKey.fingerprint ≠ otherPk.primaryKey.fingerprint then
        .error .errorInvalidInput
      else .ok (.public_ (mergePkIntoPk V targetPk otherPk))
    | _, _ => .error .errorInvalidInput

/-- What a block parses as. -/
def KeyBlock.asSecret : KeyBlock → Option SignedSecretKey
  | .secret sk => some sk
  | .public_ _ => none

def KeyBlock.asPublic : KeyBlock → Option SignedPublicKey
  | .secret _ => none
  | .public_ pk => some pk

/-- `merge_key_block_internal` on two blocks that hold a key each. -/
def mergeKeyBlock (base incoming : KeyBlock) : Except GfrStatus KeyBlock :=
  mergeKeyBlockInternal V base.asSecret base.asPublic incoming.asSecret incoming.asPublic

end

end Rpgp

end GpgFrontend
