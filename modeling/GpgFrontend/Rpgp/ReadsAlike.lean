import GpgFrontend.Base.Insertion
import GpgFrontend.Rpgp.Metadata

/-!
# Copies of a certificate that read alike

Two copies of a certificate read alike when, on every component, the same signature is in force
at every instant and the same revocations count. The rest of what a reader makes of a
certificate follows from these.

- `ReadsAlike`, `SecretReadsAlike`: component by component.
- `ReadsAlike.signingVerdicts_eq`: the same verdicts.
-/

namespace GpgFrontend

namespace Rpgp

section

variable (V : Verifier)

/-- The verdicts on the primary key and on every subkey, in the order of the certificate. -/
def signingVerdicts (pk : SignedPublicKey) (t : UInt32) : List KeyVerdict :=
  primarySigningVerdict V pk.primaryKey pk.details t ::
    pk.publicSubkeys.map fun sub =>
      subkeySigningVerdict V pk.primaryKey pk.details sub.key sub.signatures t

structure UserReadsAlike (primary : PublicKey) (user user' : SignedUser) : Prop where
  id : user'.id = user.id
  revoked : ∀ asOf, userIdRevokedAt V primary user' asOf = userIdRevokedAt V primary user asOf
  inForce : ∀ asOf now,
    userCertification V primary asOf now user' = userCertification V primary asOf now user
  certified :
    hasVerifiedUidCertification V primary user' = hasVerifiedUidCertification V primary user

structure DetailsReadAlike (primary : PublicKey) (details details' : SignedKeyDetails) :
    Prop where
  users : List.Forall₂ (UserReadsAlike V primary) details.users details'.users
  inForce : ∀ asOf now,
    directKeyInForce V primary details' asOf now = directKeyInForce V primary details asOf now
  revokedAt : ∀ t,
    (primaryRevocationState V primary details').revokedAt t
      = (primaryRevocationState V primary details).revokedAt t
  revoked :
    (isPrimaryKeyRevoked V primary details'.revocationSignatures
        || isPrimaryKeyRevoked V primary details'.directSignatures)
      = (isPrimaryKeyRevoked V primary details.revocationSignatures
        || isPrimaryKeyRevoked V primary details.directSignatures)

/-- The signatures of two copies of a subkey. -/
structure BindingsReadAlike (primary : PublicKey) (subkey : PublicSubkey)
    (l l' : List Signature) : Prop where
  inForce : ∀ asOf now,
    subkeyBindingInForce V primary subkey l' asOf now
      = subkeyBindingInForce V primary subkey l asOf now
  revokedAt : ∀ t,
    (subkeyRevocationState V primary subkey l').revokedAt t
      = (subkeyRevocationState V primary subkey l).revokedAt t
  revoked : isSubkeyRevoked V primary subkey l' = isSubkeyRevoked V primary subkey l

structure SubKeyReadsAlike (primary : PublicKey) (sub sub' : SignedPublicSubKey) : Prop where
  key : sub'.key = sub.key
  signatures : BindingsReadAlike V primary sub.key sub.signatures sub'.signatures

structure SecretSubKeyReadsAlike (primary : PublicKey) (sub sub' : SignedSecretSubKey) :
    Prop where
  key : sub'.key = sub.key
  signatures : BindingsReadAlike V primary sub.key sub.signatures sub'.signatures

structure ReadsAlike (pk pk' : SignedPublicKey) : Prop where
  primaryKey : pk'.primaryKey = pk.primaryKey
  details : DetailsReadAlike V pk.primaryKey pk.details pk'.details
  publicSubkeys :
    List.Forall₂ (SubKeyReadsAlike V pk.primaryKey) pk.publicSubkeys pk'.publicSubkeys

structure SecretReadsAlike (sk sk' : SignedSecretKey) : Prop where
  primaryKey : sk'.primaryKey = sk.primaryKey
  details : DetailsReadAlike V sk.primaryKey sk.details sk'.details
  publicSubkeys :
    List.Forall₂ (SubKeyReadsAlike V sk.primaryKey) sk.publicSubkeys sk'.publicSubkeys
  secretSubkeys :
    List.Forall₂ (SecretSubKeyReadsAlike V sk.primaryKey) sk.secretSubkeys sk'.secretSubkeys

end

/-! ## The primary key and the user IDs -/

namespace DetailsReadAlike

variable {V : Verifier} {primary : PublicKey} {details details' : SignedKeyDetails}

theorem userCertifications_eq (h : DetailsReadAlike V primary details details')
    (asOf : Option UInt32) (now : UInt32) :
    userCertifications V primary details' asOf now
      = userCertifications V primary details asOf now :=
  zipIdx_filterMap_congr (fun u u' i hu => by simp only [hu.inForce asOf now]) h.users 0

theorem indexedUidCertificationInForce_eq (h : DetailsReadAlike V primary details details')
    (asOf : Option UInt32) (now : UInt32) :
    indexedUidCertificationInForce V primary details' asOf now
      = indexedUidCertificationInForce V primary details asOf now := by
  rw [indexedUidCertificationInForce, indexedUidCertificationInForce,
    h.userCertifications_eq asOf now]

theorem primarySigInForce_eq (h : DetailsReadAlike V primary details details')
    (asOf : Option UInt32) (now : UInt32) :
    primarySigInForce V primary details' asOf now
      = primarySigInForce V primary details asOf now := by
  rw [primarySigInForce, primarySigInForce, uidCertificationInForce, uidCertificationInForce,
    h.indexedUidCertificationInForce_eq asOf now, h.inForce asOf now]

theorem primaryVerdict_eq (h : DetailsReadAlike V primary details details') (t : UInt32) :
    primaryVerdict V primary details' t = primaryVerdict V primary details t := by
  rw [primaryVerdict, primaryVerdict, h.revokedAt, h.primarySigInForce_eq]

theorem primarySigningVerdict_eq (h : DetailsReadAlike V primary details details')
    (t : UInt32) :
    primarySigningVerdict V primary details' t = primarySigningVerdict V primary details t := by
  rw [primarySigningVerdict, primarySigningVerdict, h.primaryVerdict_eq, h.primarySigInForce_eq]

theorem primaryUserIndex_eq (h : DetailsReadAlike V primary details details') (now : UInt32) :
    primaryUserIndex V primary details' now = primaryUserIndex V primary details now := by
  rw [primaryUserIndex, primaryUserIndex, h.indexedUidCertificationInForce_eq none now]

theorem listedUserIds_eq (h : DetailsReadAlike V primary details details') (now : UInt32) :
    listedUserIds V primary details' now = listedUserIds V primary details now := by
  have hcertified :
      certifiedUserIds V primary details' now = certifiedUserIds V primary details now := by
    rw [certifiedUserIds, certifiedUserIds, h.primaryUserIndex_eq]
    refine zipIdx_filterMap_congr (fun u u' i hu => ?_) h.users 0
    simp only [hu.certified, hu.id, isUserIdRevoked, hu.revoked]
  rw [listedUserIds, listedUserIds, hcertified, h.primaryUserIndex_eq]

theorem primaryMetadata_eq (h : DetailsReadAlike V primary details details') (hasSecret : Bool)
    (subkeys : List ExtractedSubkey) (now : UInt32) :
    primaryMetadata V primary details' hasSecret subkeys now
      = primaryMetadata V primary details hasSecret subkeys now := by
  simp only [primaryMetadata, primaryKeyExpiresAt, h.primarySigInForce_eq, h.revoked,
    h.listedUserIds_eq]

end DetailsReadAlike

/-! ## Subkeys -/

section

variable {V : Verifier} {primary : PublicKey} {subkey : PublicSubkey} {l l' : List Signature}

theorem BindingsReadAlike.subkeyIsBound_eq (h : BindingsReadAlike V primary subkey l l')
    (now : UInt32) :
    subkeyIsBound V primary subkey l' now = subkeyIsBound V primary subkey l now := by
  rw [subkeyIsBound, subkeyIsBound, subkeyBindingSignature, subkeyBindingSignature, h.inForce,
    h.revoked]

theorem BindingsReadAlike.subkeyMetadata_eq (h : BindingsReadAlike V primary subkey l l')
    (hasSecret : Bool) (now : UInt32) :
    subkeyMetadata V primary subkey l' hasSecret now
      = subkeyMetadata V primary subkey l hasSecret now := by
  simp only [subkeyMetadata, subkeyExpiresAt, subkeyBindingSignature, h.inForce, h.revoked]

theorem BindingsReadAlike.subkeySigningVerdict_eq {details details' : SignedKeyDetails}
    (hd : DetailsReadAlike V primary details details')
    (h : BindingsReadAlike V primary subkey l l') (t : UInt32) :
    subkeySigningVerdict V primary details' subkey l' t
      = subkeySigningVerdict V primary details subkey l t := by
  rw [subkeySigningVerdict, subkeySigningVerdict, hd.primaryVerdict_eq, h.revokedAt, h.inForce]

theorem publicSubkeyEntries_alike {subs subs' : List SignedPublicSubKey}
    (h : List.Forall₂ (SubKeyReadsAlike V primary) subs subs') (now : UInt32) :
    publicSubkeyEntries V primary subs' now = publicSubkeyEntries V primary subs now := by
  refine filter_map_congr (fun sub sub' hs => ?_) (fun sub sub' hs => ?_) h
  · rw [hs.key, hs.signatures.subkeyIsBound_eq]
  · rw [publicSubkeyMetadata, publicSubkeyMetadata, hs.key, hs.signatures.subkeyMetadata_eq]

theorem secretSubkeyEntries_alike {subs subs' : List SignedSecretSubKey}
    (h : List.Forall₂ (SecretSubKeyReadsAlike V primary) subs subs') (now : UInt32) :
    secretSubkeyEntries V primary subs' now = secretSubkeyEntries V primary subs now := by
  refine filter_map_congr (fun sub sub' hs => ?_) (fun sub sub' hs => ?_) h
  · rw [hs.key, hs.signatures.subkeyIsBound_eq]
  · rw [secretSubkeyMetadata, secretSubkeyMetadata, hs.key, hs.signatures.subkeyMetadata_eq]

end

/-! ## The whole certificate -/

section

variable {V : Verifier}

theorem ReadsAlike.signingVerdicts_eq {pk pk' : SignedPublicKey} (h : ReadsAlike V pk pk')
    (t : UInt32) : signingVerdicts V pk' t = signingVerdicts V pk t := by
  rw [signingVerdicts, signingVerdicts, h.primaryKey, h.details.primarySigningVerdict_eq]
  congr 1
  refine map_forall₂_congr (fun sub sub' hsub => ?_) h.publicSubkeys
  rw [hsub.key]
  exact hsub.signatures.subkeySigningVerdict_eq h.details t

theorem ReadsAlike.buildPublicMetadata_eq {pk pk' : SignedPublicKey} (h : ReadsAlike V pk pk')
    (now : UInt32) : buildPublicMetadata V pk' now = buildPublicMetadata V pk now := by
  rw [buildPublicMetadata, buildPublicMetadata, h.primaryKey,
    publicSubkeyEntries_alike h.publicSubkeys, h.details.primaryMetadata_eq]

theorem SecretReadsAlike.toPublic {sk sk' : SignedSecretKey} (h : SecretReadsAlike V sk sk') :
    ReadsAlike V sk.toPublic sk'.toPublic where
  primaryKey := h.primaryKey
  details := h.details
  publicSubkeys := by
    have hsecret : List.Forall₂ (SubKeyReadsAlike V sk.primaryKey)
        (sk.secretSubkeys.map SignedSecretSubKey.toPublic)
        (sk'.secretSubkeys.map SignedSecretSubKey.toPublic) := by
      rw [List.forall₂_map_left_iff, List.forall₂_map_right_iff]
      exact h.secretSubkeys.imp fun sub sub' hs => ⟨hs.key, hs.signatures⟩
    exact List.rel_append h.publicSubkeys hsecret

theorem SecretReadsAlike.buildSecretMetadata_eq {sk sk' : SignedSecretKey}
    (h : SecretReadsAlike V sk sk') (now : UInt32) :
    buildSecretMetadata V sk' now = buildSecretMetadata V sk now := by
  rw [buildSecretMetadata, buildSecretMetadata, h.primaryKey,
    publicSubkeyEntries_alike h.publicSubkeys, secretSubkeyEntries_alike h.secretSubkeys,
    h.details.primaryMetadata_eq]

end

end Rpgp

end GpgFrontend
