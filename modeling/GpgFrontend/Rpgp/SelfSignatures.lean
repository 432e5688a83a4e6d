import GpgFrontend.Rpgp.Packets

/-!
# Which self-signatures speak (`rust/src/key.rs`)

Every list of signatures in a certificate may hold packets anyone put there. A reader first
collects the ones that verify under the primary key, then the one in force.

An instant is `Option UInt32`, `none` being now; `now` is the clock (`Timestamp::now()`).
-/

namespace GpgFrontend

namespace Rpgp

/-! ## What a self-signature must satisfy -/

/-- `WEAK_CERTIFICATION_HASH_CUTOFF`: 2023-02-01T00:00Z. -/
def weakCertificationHashCutoff : UInt32 := 1675209600

/-- `certification_hash_acceptable`. -/
def certificationHashAcceptable (sig : SignatureCore) : Bool :=
  match sig.hashAlg with
  | none | some .none | some .md5 => false
  | some .sha1 | some .ripemd160 => decide (createdSecs sig < weakCertificationHashCutoff)
  | some _ => true

/-- `evaluable_self_sig`: revocations are exempt from the critical-subpacket rule. -/
def evaluableSelfSig (sig : Signature) : Bool :=
  (match sig.typ with
    | some .keyRevocation | some .subkeyRevocation | some .certRevocation => true
    | _ => false)
    || !hasCriticalUnsupportedSubpacket sig

/-- `pq_binding_hash_forbidden`: no date cutoff for a binding over a post-quantum subkey. -/
def pqBindingHashForbidden (subkey : PublicSubkey) (sig : Signature) : Bool :=
  subkey.algorithmIsPqc
    && decide (sig.typ = some .subkeyBinding)
    && (match sig.hashAlg with
      | some .md5 | some .sha1 | some .ripemd160 => true
      | _ => false)

section

variable (V : Verifier)

/-- `verified_primary_self_sigs`. -/
def verifiedPrimarySelfSigs (primary : PublicKey) (signatures : List Signature) :
    List Signature :=
  signatures.filter fun sig =>
    V.verifyKey sig primary && certificationHashAcceptable sig.toSignatureCore
      && evaluableSelfSig sig

/-- `verified_uid_self_sigs`. -/
def verifiedUidSelfSigs (primary : PublicKey) (user : SignedUser) : List Signature :=
  user.signatures.filter fun sig =>
    V.verifyCertification sig primary user.id
      && certificationHashAcceptable sig.toSignatureCore && evaluableSelfSig sig

/-- `verified_subkey_self_sigs`. -/
def verifiedSubkeySelfSigs (primary : PublicKey) (subkey : PublicSubkey)
    (signatures : List Signature) : List Signature :=
  signatures.filter fun sig =>
    V.verifySubkeyBinding sig primary subkey
      && certificationHashAcceptable sig.toSignatureCore && evaluableSelfSig sig
      && !pqBindingHashForbidden subkey sig

end

/-! ## The signature in force -/

/-- `Iterator::max_by_key`: of several maxima, the last. -/
def maxByKey {α : Type} (key : α → UInt32) : List α → Option α
  | [] => none
  | a :: l =>
    match maxByKey key l with
    | none => some a
    | some b => if key b < key a then some a else some b

/-- `Iterator::min_by_key`: of several minima, the first. -/
def minByKey {α : Type} (key : α → UInt32) : List α → Option α
  | [] => none
  | a :: l =>
    match minByKey key l with
    | none => some a
    | some b => if key b < key a then some b else some a

/-- `newest_sig`. -/
def newestSig (sigs : List Signature) : Option Signature :=
  maxByKey (fun sig => createdSecs sig.toSignatureCore) sigs

/-- `sig_alive_at`: false once the Signature Expiration Time has passed at `t`. -/
def sigAliveAt (sig : Signature) (t : UInt32) : Bool :=
  match sig.signatureExpirationTime with
  | some secs =>
    if secs = 0 then true
    else decide (t < saturatingAdd (createdSecs sig.toSignatureCore) secs)
  | none => true

/-- The choice `sig_in_force` makes before it looks at the signature's own expiry: now, the
newest of all; at a given instant, the newest made by then, else the oldest. -/
def chosenSig (sigs : List Signature) : Option UInt32 → Option Signature
  | none => newestSig sigs
  | some t =>
    (newestSig (sigs.filter fun sig => decide (createdSecs sig.toSignatureCore ≤ t))).or
      (minByKey (fun sig => createdSecs sig.toSignatureCore) sigs)

/-- `sig_in_force`. -/
def sigInForce (sigs : List Signature) (asOf : Option UInt32) (now : UInt32) :
    Option Signature :=
  (chosenSig sigs asOf).filter fun sig => sigAliveAt sig (asOf.getD now)

section

variable (V : Verifier)

/-- `user_id_revoked_at`: a valid certification revocation made by `asOf` (`none`: ever). -/
def userIdRevokedAt (primary : PublicKey) (user : SignedUser) (asOf : Option UInt32) : Bool :=
  user.signatures.any fun sig =>
    decide (sig.typ = some .certRevocation)
      && (match asOf with
        | none => true
        | some t => decide (createdSecs sig.toSignatureCore ≤ t))
      && V.verifyCertification sig primary user.id

/-- `is_user_id_revoked`. -/
def isUserIdRevoked (primary : PublicKey) (user : SignedUser) : Bool :=
  userIdRevokedAt V primary user none

/-- The self-certification of `user` in force, unless the user ID is revoked. -/
def userCertification (primary : PublicKey) (asOf : Option UInt32) (now : UInt32)
    (user : SignedUser) : Option Signature :=
  if userIdRevokedAt V primary user asOf then none
  else
    sigInForce
      ((verifiedUidSelfSigs V primary user).filter fun sig =>
        !decide (sig.typ = some .certRevocation))
      asOf now

/-- The self-certifications in force, each with the index of its User ID. The code tells the
user IDs apart by the address of the signature. -/
def userCertifications (primary : PublicKey) (details : SignedKeyDetails)
    (asOf : Option UInt32) (now : UInt32) : List (Nat × Signature) :=
  details.users.zipIdx.filterMap fun (user, i) =>
    (userCertification V primary asOf now user).map fun sig => (i, sig)

/-- `uid_certification_in_force`, with the index of the User ID it is on: the newest among
those marked primary, else the newest. -/
def indexedUidCertificationInForce (primary : PublicKey) (details : SignedKeyDetails)
    (asOf : Option UInt32) (now : UInt32) : Option (Nat × Signature) :=
  let uidSigs := userCertifications V primary details asOf now
  let created := fun (entry : Nat × Signature) => createdSecs entry.2.toSignatureCore
  (maxByKey created (uidSigs.filter fun entry => entry.2.isPrimary)).or
    (maxByKey created uidSigs)

/-- `uid_certification_in_force`. -/
def uidCertificationInForce (primary : PublicKey) (details : SignedKeyDetails)
    (asOf : Option UInt32) (now : UInt32) : Option Signature :=
  (indexedUidCertificationInForce V primary details asOf now).map Prod.snd

/-- The Direct Key signature in force. -/
def directKeyInForce (primary : PublicKey) (details : SignedKeyDetails)
    (asOf : Option UInt32) (now : UInt32) : Option Signature :=
  sigInForce
    ((verifiedPrimarySelfSigs V primary details.directSignatures).filter fun sig =>
      decide (sig.typ = some .key))
    asOf now

/-- `primary_sig_in_force`: a v6 key needs its Direct Key signature; a v4 key speaks through
its user IDs first. -/
def primarySigInForce (primary : PublicKey) (details : SignedKeyDetails)
    (asOf : Option UInt32) (now : UInt32) : Option Signature :=
  if primary.version = .v6 then directKeyInForce V primary details asOf now
  else
    (uidCertificationInForce V primary details asOf now).or
      (directKeyInForce V primary details asOf now)

/-- `subkey_binding_in_force`. -/
def subkeyBindingInForce (primary : PublicKey) (subkey : PublicSubkey)
    (signatures : List Signature) (asOf : Option UInt32) (now : UInt32) : Option Signature :=
  sigInForce
    ((verifiedSubkeySelfSigs V primary subkey signatures).filter fun sig =>
      decide (sig.typ = some .subkeyBinding))
    asOf now

/-! ## Revocations -/

/-- `is_primary_key_revoked`. -/
def isPrimaryKeyRevoked (primary : PublicKey) (signatures : List Signature) : Bool :=
  signatures.any fun sig => decide (sig.typ = some .keyRevocation) && V.verifyKey sig primary

/-- `is_subkey_revoked`. -/
def isSubkeyRevoked (primary : PublicKey) (subkey : PublicSubkey)
    (signatures : List Signature) : Bool :=
  signatures.any fun sig =>
    decide (sig.typ = some .subkeyRevocation) && V.verifySubkeyBinding sig primary subkey

end

/-- How a key stands with respect to its verified revocations. -/
inductive RevocationState
  | notRevoked
  /-- Superseded or retired: invalid from the earliest such date on. -/
  | soft (since : UInt32)
  | hard
deriving DecidableEq, Repr

/-- The reasons that leave older signatures standing. -/
def RevocationCode.isSoft : RevocationCode → Bool
  | .keySuperseded | .keyRetired => true
  | _ => false

/-- The loop of `RevocationState::of`, from the state reached so far. -/
def RevocationState.ofFrom (state : RevocationState) : List Signature → RevocationState
  | [] => state
  | sig :: rest =>
    if sig.revocationReasonCode.any RevocationCode.isSoft then
      let since := createdSecs sig.toSignatureCore
      match state with
      | .soft s => RevocationState.ofFrom (.soft (if since < s then since else s)) rest
      | _ => RevocationState.ofFrom (.soft since) rest
    else .hard

/-- `RevocationState::of`. -/
def RevocationState.of (revocations : List Signature) : RevocationState :=
  RevocationState.ofFrom .notRevoked revocations

/-- `RevocationState::revoked_at`. -/
def RevocationState.revokedAt (state : RevocationState) (t : UInt32) : Bool :=
  match state with
  | .notRevoked => false
  | .soft since => decide (since ≤ t)
  | .hard => true

section

variable (V : Verifier)

/-- The verified key revocations, wherever they are stored. -/
def primaryRevocations (primary : PublicKey) (details : SignedKeyDetails) : List Signature :=
  (details.revocationSignatures ++ details.directSignatures).filter fun sig =>
    decide (sig.typ = some .keyRevocation) && V.verifyKey sig primary

/-- `primary_revocation_state`. -/
def primaryRevocationState (primary : PublicKey) (details : SignedKeyDetails) :
    RevocationState :=
  RevocationState.of (primaryRevocations V primary details)

/-- The verified revocations of a subkey. -/
def subkeyRevocations (primary : PublicKey) (subkey : PublicSubkey)
    (signatures : List Signature) : List Signature :=
  signatures.filter fun sig =>
    decide (sig.typ = some .subkeyRevocation) && V.verifySubkeyBinding sig primary subkey

/-- `subkey_revocation_state`. -/
def subkeyRevocationState (primary : PublicKey) (subkey : PublicSubkey)
    (signatures : List Signature) : RevocationState :=
  RevocationState.of (subkeyRevocations V primary subkey signatures)

end

end Rpgp

end GpgFrontend
