import GpgFrontend.Rpgp.ReadsAlike

/-!
# Unverified signatures carry no authority

Anyone may add signature packets to a copy of someone's certificate. `Tampered V pk pk'` says
`pk'` is `pk` with such packets inserted anywhere in the lists of its primary key, its user IDs
and its subkeys, none of which verifies under the primary key.
-/

namespace GpgFrontend

namespace Rpgp

section

variable (V : Verifier)

/-- The same User ID, with certifications inserted that do not verify under `primary`. -/
structure TamperedUser (primary : PublicKey) (user user' : SignedUser) : Prop where
  id : user'.id = user.id
  signatures :
    Inserted (fun sig => V.verifyCertification sig primary user.id = false) user.signatures
      user'.signatures

/-- The same primary-key signatures and User IDs, with signatures inserted that do not verify
under `primary`. Photo IDs take no part in what is read here, and may differ. -/
structure TamperedDetails (primary : PublicKey) (details details' : SignedKeyDetails) :
    Prop where
  revocationSignatures :
    Inserted (fun sig => V.verifyKey sig primary = false) details.revocationSignatures
      details'.revocationSignatures
  directSignatures :
    Inserted (fun sig => V.verifyKey sig primary = false) details.directSignatures
      details'.directSignatures
  users : List.Forall₂ (TamperedUser V primary) details.users details'.users

/-- The same subkey, with signatures inserted that do not verify under `primary`. -/
structure TamperedSubKey (primary : PublicKey) (sub sub' : SignedPublicSubKey) : Prop where
  key : sub'.key = sub.key
  signatures :
    Inserted (fun sig => V.verifySubkeyBinding sig primary sub.key = false) sub.signatures
      sub'.signatures

/-- The same certificate, with signatures inserted that do not verify. -/
structure Tampered (pk pk' : SignedPublicKey) : Prop where
  primaryKey : pk'.primaryKey = pk.primaryKey
  details : TamperedDetails V pk.primaryKey pk.details pk'.details
  publicSubkeys :
    List.Forall₂ (TamperedSubKey V pk.primaryKey) pk.publicSubkeys pk'.publicSubkeys

/-- The same for a secret subkey. -/
structure TamperedSecretSubKey (primary : PublicKey) (sub sub' : SignedSecretSubKey) :
    Prop where
  key : sub'.key = sub.key
  signatures :
    Inserted (fun sig => V.verifySubkeyBinding sig primary sub.key = false) sub.signatures
      sub'.signatures

/-- The same for a certificate held with its secret part. -/
structure TamperedSecret (sk sk' : SignedSecretKey) : Prop where
  primaryKey : sk'.primaryKey = sk.primaryKey
  details : TamperedDetails V sk.primaryKey sk.details sk'.details
  publicSubkeys :
    List.Forall₂ (TamperedSubKey V sk.primaryKey) sk.publicSubkeys sk'.publicSubkeys
  secretSubkeys :
    List.Forall₂ (TamperedSecretSubKey V sk.primaryKey) sk.secretSubkeys sk'.secretSubkeys

end

/-! ## Every reader filters -/

section

variable {V : Verifier} {primary : PublicKey}

theorem isPrimaryKeyRevoked_inserted {l l' : List Signature}
    (h : Inserted (fun sig => V.verifyKey sig primary = false) l l') :
    isPrimaryKeyRevoked V primary l' = isPrimaryKeyRevoked V primary l :=
  h.any_eq fun sig hsig => by simp [hsig]

namespace TamperedUser

variable {user user' : SignedUser}

theorem verifiedUidSelfSigs_eq (h : TamperedUser V primary user user') :
    verifiedUidSelfSigs V primary user' = verifiedUidSelfSigs V primary user := by
  rw [verifiedUidSelfSigs, verifiedUidSelfSigs, h.id]
  exact h.signatures.filter_eq fun sig hsig => by simp [hsig]

theorem userIdRevokedAt_eq (h : TamperedUser V primary user user') (asOf : Option UInt32) :
    userIdRevokedAt V primary user' asOf = userIdRevokedAt V primary user asOf := by
  rw [userIdRevokedAt, userIdRevokedAt, h.id]
  exact h.signatures.any_eq fun sig hsig => by simp [hsig]

theorem readsAlike (h : TamperedUser V primary user user') :
    UserReadsAlike V primary user user' where
  id := h.id
  revoked := h.userIdRevokedAt_eq
  inForce asOf now := by
    rw [userCertification, userCertification, h.userIdRevokedAt_eq, h.verifiedUidSelfSigs_eq]
  certified := by
    rw [hasVerifiedUidCertification, hasVerifiedUidCertification, h.verifiedUidSelfSigs_eq]

end TamperedUser

theorem TamperedDetails.readAlike {details details' : SignedKeyDetails}
    (h : TamperedDetails V primary details details') :
    DetailsReadAlike V primary details details' where
  users := h.users.imp fun _ _ => TamperedUser.readsAlike
  inForce asOf now := by
    have hdirect : verifiedPrimarySelfSigs V primary details'.directSignatures
        = verifiedPrimarySelfSigs V primary details.directSignatures :=
      h.directSignatures.filter_eq fun sig hsig => by simp [hsig]
    rw [directKeyInForce, directKeyInForce, hdirect]
  revokedAt t := by
    have hrevs : primaryRevocations V primary details' = primaryRevocations V primary details :=
      (h.revocationSignatures.append h.directSignatures).filter_eq fun sig hsig => by
        simp [hsig]
    rw [primaryRevocationState, primaryRevocationState, hrevs]
  revoked := by
    rw [isPrimaryKeyRevoked_inserted h.revocationSignatures,
      isPrimaryKeyRevoked_inserted h.directSignatures]

theorem bindingsReadAlike_of_inserted {subkey : PublicSubkey} {l l' : List Signature}
    (h : Inserted (fun sig => V.verifySubkeyBinding sig primary subkey = false) l l') :
    BindingsReadAlike V primary subkey l l' where
  inForce asOf now := by
    have hverified : verifiedSubkeySelfSigs V primary subkey l'
        = verifiedSubkeySelfSigs V primary subkey l :=
      h.filter_eq fun sig hsig => by simp [hsig]
    rw [subkeyBindingInForce, subkeyBindingInForce, hverified]
  revokedAt t := by
    have hrevs : subkeyRevocations V primary subkey l' = subkeyRevocations V primary subkey l :=
      h.filter_eq fun sig hsig => by simp [hsig]
    rw [subkeyRevocationState, subkeyRevocationState, hrevs]
  revoked := h.any_eq fun sig hsig => by simp [hsig]

theorem TamperedSubKey.readsAlike {sub sub' : SignedPublicSubKey}
    (h : TamperedSubKey V primary sub sub') : SubKeyReadsAlike V primary sub sub' :=
  ⟨h.key, bindingsReadAlike_of_inserted h.signatures⟩

end

theorem Tampered.readsAlike {V : Verifier} {pk pk' : SignedPublicKey} (h : Tampered V pk pk') :
    ReadsAlike V pk pk' where
  primaryKey := h.primaryKey
  details := h.details.readAlike
  publicSubkeys := h.publicSubkeys.imp fun _ _ => TamperedSubKey.readsAlike

theorem TamperedSecret.readsAlike {V : Verifier} {sk sk' : SignedSecretKey}
    (h : TamperedSecret V sk sk') : SecretReadsAlike V sk sk' where
  primaryKey := h.primaryKey
  details := h.details.readAlike
  publicSubkeys := h.publicSubkeys.imp fun _ _ => TamperedSubKey.readsAlike
  secretSubkeys :=
    h.secretSubkeys.imp fun _ _ hs => ⟨hs.key, bindingsReadAlike_of_inserted hs.signatures⟩

/-! ## What a verified revocation does -/

/-- The revocation leaves what was made before it standing. -/
def softRevocation (sig : Signature) : Bool := sig.revocationReasonCode.any RevocationCode.isSoft

namespace RevocationState

/-- One hard revocation decides, whatever precedes it. -/
theorem ofFrom_hard {l : List Signature} (h : ∃ r ∈ l, softRevocation r = false) :
    ∀ state : RevocationState, ofFrom state l = .hard := by
  induction l with
  | nil => simp at h
  | cons sig l ih =>
    intro state
    rw [ofFrom]
    by_cases hs : sig.revocationReasonCode.any RevocationCode.isSoft
    · have hrest : ∃ r ∈ l, softRevocation r = false := by
        obtain ⟨r, hr, hsoft⟩ := h
        rcases List.mem_cons.1 hr with rfl | hr
        · simp [softRevocation, hs] at hsoft
        · exact ⟨r, hr, hsoft⟩
      cases state <;> simp [hs, ih hrest]
    · simp [hs]

/-- Soft revocations keep the earliest of their dates. -/
theorem ofFrom_soft {l : List Signature} (h : ∀ r ∈ l, softRevocation r = true) :
    ∀ s t : UInt32, (ofFrom (.soft s) l).revokedAt t = true ↔
      s ≤ t ∨ ∃ r ∈ l, createdSecs r.toSignatureCore ≤ t := by
  induction l with
  | nil => intro s t; simp [ofFrom, revokedAt]
  | cons sig l ih =>
    intro s t
    have hsig : sig.revocationReasonCode.any RevocationCode.isSoft = true := h sig (by simp)
    have hl : ∀ r ∈ l, softRevocation r = true := fun r hr => h r (List.mem_cons_of_mem sig hr)
    rw [ofFrom]
    simp only [hsig, if_true, ih hl, List.exists_mem_cons_iff]
    have hmin : (if createdSecs sig.toSignatureCore < s then createdSecs sig.toSignatureCore else s) ≤ t
        ↔ s ≤ t ∨ createdSecs sig.toSignatureCore ≤ t := by
      split <;> simp only [UInt32.le_iff_toNat_le, UInt32.lt_iff_toNat_lt] at * <;> omega
    rw [hmin, or_assoc]

/-- **A key is revoked at `t` when one of its revocations is hard or was made by `t`.** -/
theorem of_revokedAt_iff (revs : List Signature) (t : UInt32) :
    (of revs).revokedAt t = true ↔
      ∃ r ∈ revs, softRevocation r = false ∨ createdSecs r.toSignatureCore ≤ t := by
  by_cases hhard : ∃ r ∈ revs, softRevocation r = false
  · rw [of, ofFrom_hard hhard]
    obtain ⟨r, hr, hsoft⟩ := hhard
    exact ⟨fun _ => ⟨r, hr, .inl hsoft⟩, fun _ => rfl⟩
  · have hsoft : ∀ r ∈ revs, softRevocation r = true := by simpa using hhard
    cases revs with
    | nil => simp [of, ofFrom, revokedAt]
    | cons sig l =>
      have hsig : sig.revocationReasonCode.any RevocationCode.isSoft = true := hsoft sig (by simp)
      have hl : ∀ r ∈ l, softRevocation r = true := fun r hr => hsoft r (List.mem_cons_of_mem sig hr)
      rw [of, ofFrom]
      simp only [hsig, if_true, ofFrom_soft hl]
      constructor
      · rintro (ht | ⟨r, hr, ht⟩)
        · exact ⟨sig, by simp, .inr ht⟩
        · exact ⟨r, List.mem_cons_of_mem sig hr, .inr ht⟩
      · rintro ⟨r, hr, hh⟩
        have ht : createdSecs r.toSignatureCore ≤ t := by
          rcases hh with hh | ht
          · simp [hsoft r hr] at hh
          · exact ht
        rcases List.mem_cons.1 hr with rfl | hr
        · exact .inl ht
        · exact .inr ⟨r, hr, ht⟩

/-- From the earliest of its dates on, and not before, for soft revocations alone. -/
theorem of_revokedAt_earliest {revs : List Signature} {earliest : Signature}
    (hmem : earliest ∈ revs) (hsoft : ∀ r ∈ revs, softRevocation r = true)
    (hmin : ∀ r ∈ revs,
      createdSecs earliest.toSignatureCore ≤ createdSecs r.toSignatureCore) (t : UInt32) :
    (of revs).revokedAt t = true ↔ createdSecs earliest.toSignatureCore ≤ t := by
  rw [of_revokedAt_iff]
  constructor
  · rintro ⟨r, hr, hh⟩
    rcases hh with hh | ht
    · simp [hsoft r hr] at hh
    · exact UInt32.le_trans (hmin r hr) ht
  · intro ht
    exact ⟨earliest, hmem, .inr ht⟩

end RevocationState

/-- What revocations do to a verdict. Where they count it is `Revoked`, unless the key was
refused on another ground already; elsewhere it is what it is without them. -/
def RevocationOutcome (revoked : Bool) (verdict without : KeyVerdict) : Prop :=
  (revoked = true ∧ (verdict = .revoked ∨ (verdict ≠ .authorized ∧ verdict = without))) ∨
    (revoked = false ∧ verdict = without)

theorem RevocationOutcome.not_authorized {verdict without : KeyVerdict}
    (h : RevocationOutcome true verdict without) : verdict ≠ .authorized := by
  rcases h with ⟨-, rfl | ⟨hv, -⟩⟩ | ⟨hfalse, -⟩
  · simp
  · exact hv
  · simp at hfalse

/-- What asks more of an authorized key passes a refusal on. -/
theorem RevocationOutcome.refused {revoked : Bool} {verdict without more : KeyVerdict}
    (h : RevocationOutcome revoked verdict without) :
    RevocationOutcome revoked (if verdict ≠ .authorized then verdict else more)
      (if without ≠ .authorized then without else more) := by
  rcases h with ⟨hr, hv | ⟨hv, heq⟩⟩ | ⟨hr, heq⟩
  · exact .inl ⟨hr, .inl (by simp [hv])⟩
  · refine .inl ⟨hr, .inr ?_⟩
    rw [← heq]
    simp [hv]
  · exact .inr ⟨hr, by rw [heq]⟩

@[simp] theorem RevocationState.notRevoked_revokedAt (t : UInt32) :
    RevocationState.notRevoked.revokedAt t = false := rfl

section

variable (V : Verifier)

/-- The primary key's signatures less its verified revocations. -/
def withoutRevocations (primary : PublicKey) (details : SignedKeyDetails) : SignedKeyDetails :=
  let other := fun (sig : Signature) =>
    !(decide (sig.typ = some .keyRevocation) && V.verifyKey sig primary)
  { details with
    revocationSignatures := details.revocationSignatures.filter other
    directSignatures := details.directSignatures.filter other }

/-- A subkey's signatures less its verified revocations. -/
def withoutSubkeyRevocations (primary : PublicKey) (subkey : PublicSubkey)
    (signatures : List Signature) : List Signature :=
  signatures.filter fun sig =>
    !(decide (sig.typ = some .subkeyRevocation) && V.verifySubkeyBinding sig primary subkey)

end

section

variable (V : Verifier) (primary : PublicKey) (details : SignedKeyDetails)

theorem primaryRevocationState_withoutRevocations :
    primaryRevocationState V primary (withoutRevocations V primary details) = .notRevoked := by
  have hnone : primaryRevocations V primary (withoutRevocations V primary details) = [] := by
    rw [primaryRevocations, withoutRevocations, ← List.filter_append, List.filter_filter,
      List.filter_eq_nil_iff]
    intro sig _
    simp
  rw [primaryRevocationState, hnone]
  rfl

/-- A revocation is no self-signature that speaks for the key. -/
theorem primarySigInForce_withoutRevocations (asOf : Option UInt32) (now : UInt32) :
    primarySigInForce V primary (withoutRevocations V primary details) asOf now
      = primarySigInForce V primary details asOf now := by
  have hdirect :
      directKeyInForce V primary (withoutRevocations V primary details) asOf now
        = directKeyInForce V primary details asOf now := by
    rw [directKeyInForce, directKeyInForce, verifiedPrimarySelfSigs, verifiedPrimarySelfSigs,
      withoutRevocations]
    simp only [List.filter_filter]
    congr 2
    funext sig
    by_cases hkey : sig.typ = some .key <;> simp [hkey]
  rw [primarySigInForce, primarySigInForce, hdirect]
  rfl

/-- What the primary key's revocations do to the conditions all keys inherit. -/
theorem primaryVerdict_revocations (t : UInt32) :
    RevocationOutcome ((primaryRevocationState V primary details).revokedAt t)
      (primaryVerdict V primary details t)
      (primaryVerdict V primary (withoutRevocations V primary details) t) := by
  rw [primaryVerdict, primaryVerdict, primaryRevocationState_withoutRevocations,
    primarySigInForce_withoutRevocations]
  by_cases hf : (keyForbidden primary.publicParams || decide (t < primary.createdAt)) = true
  · by_cases hr : (primaryRevocationState V primary details).revokedAt t <;>
      simp [RevocationOutcome, hf, hr]
  · by_cases hr : (primaryRevocationState V primary details).revokedAt t <;>
      simp [RevocationOutcome, hf, hr]

theorem primarySigningVerdict_revocations (t : UInt32) :
    RevocationOutcome ((primaryRevocationState V primary details).revokedAt t)
      (primarySigningVerdict V primary details t)
      (primarySigningVerdict V primary (withoutRevocations V primary details) t) := by
  rw [primarySigningVerdict, primarySigningVerdict, primarySigInForce_withoutRevocations]
  exact (primaryVerdict_revocations V primary details t).refused

/-- A subkey inherits what the primary key's revocations do. -/
theorem subkeySigningVerdict_primary_revocations (subkey : PublicSubkey)
    (signatures : List Signature) (t : UInt32) :
    RevocationOutcome ((primaryRevocationState V primary details).revokedAt t)
      (subkeySigningVerdict V primary details subkey signatures t)
      (subkeySigningVerdict V primary (withoutRevocations V primary details) subkey
        signatures t) := by
  rw [subkeySigningVerdict, subkeySigningVerdict]
  exact (primaryVerdict_revocations V primary details t).refused

theorem subkeyRevocationState_withoutSubkeyRevocations (subkey : PublicSubkey)
    (signatures : List Signature) :
    subkeyRevocationState V primary subkey (withoutSubkeyRevocations V primary subkey signatures)
      = .notRevoked := by
  have hnone : subkeyRevocations V primary subkey
      (withoutSubkeyRevocations V primary subkey signatures) = [] := by
    rw [subkeyRevocations, withoutSubkeyRevocations, List.filter_filter, List.filter_eq_nil_iff]
    intro sig _
    simp
  rw [subkeyRevocationState, hnone]
  rfl

theorem subkeyBindingInForce_withoutSubkeyRevocations (subkey : PublicSubkey)
    (signatures : List Signature) (asOf : Option UInt32) (now : UInt32) :
    subkeyBindingInForce V primary subkey (withoutSubkeyRevocations V primary subkey signatures)
        asOf now
      = subkeyBindingInForce V primary subkey signatures asOf now := by
  rw [subkeyBindingInForce, subkeyBindingInForce, verifiedSubkeySelfSigs,
    verifiedSubkeySelfSigs, withoutSubkeyRevocations]
  simp only [List.filter_filter]
  congr 2
  funext sig
  by_cases hkey : sig.typ = some .subkeyBinding <;> simp [hkey]

/-- What a subkey's own revocations do. -/
theorem subkeySigningVerdict_revocations (subkey : PublicSubkey) (signatures : List Signature)
    (t : UInt32) :
    RevocationOutcome ((subkeyRevocationState V primary subkey signatures).revokedAt t)
      (subkeySigningVerdict V primary details subkey signatures t)
      (subkeySigningVerdict V primary details subkey
        (withoutSubkeyRevocations V primary subkey signatures) t) := by
  rw [subkeySigningVerdict, subkeySigningVerdict,
    subkeyRevocationState_withoutSubkeyRevocations, subkeyBindingInForce_withoutSubkeyRevocations]
  by_cases hp : primaryVerdict V primary details t = .authorized
  case neg =>
    by_cases hr : (subkeyRevocationState V primary subkey signatures).revokedAt t <;>
      simp [RevocationOutcome, hp, hr]
  by_cases hf : (keyForbidden subkey.publicParams || decide (t < subkey.createdAt)) = true
  · by_cases hr : (subkeyRevocationState V primary subkey signatures).revokedAt t <;>
      simp [RevocationOutcome, hp, hf, hr]
  · by_cases hr : (subkeyRevocationState V primary subkey signatures).revokedAt t <;>
      simp [RevocationOutcome, hp, hf, hr]

end

/-! ## The result -/

/-- `since` is the earliest date of the revocations, all of them soft. -/
def EarliestSoft (revs : List Signature) (since : UInt32) : Prop :=
  (∀ r ∈ revs, softRevocation r = true) ∧
    (∃ r ∈ revs, createdSecs r.toSignatureCore = since) ∧
    ∀ r ∈ revs, since ≤ createdSecs r.toSignatureCore

theorem EarliestSoft.revokedAt {revs : List Signature} {since : UInt32}
    (h : EarliestSoft revs since) (t : UInt32) :
    (RevocationState.of revs).revokedAt t = decide (since ≤ t) := by
  obtain ⟨hsoft, ⟨earliest, hmem, rfl⟩, hmin⟩ := h
  rw [Bool.eq_iff_iff, decide_eq_true_iff]
  exact RevocationState.of_revokedAt_earliest hmem hsoft hmin t

theorem revokedAt_of_hard {revs : List Signature}
    (h : ∃ r ∈ revs, softRevocation r = false) (t : UInt32) :
    (RevocationState.of revs).revokedAt t = true := by
  obtain ⟨r, hr, hhard⟩ := h
  exact (RevocationState.of_revokedAt_iff revs t).2 ⟨r, hr, .inl hhard⟩

/-- **Unverified signatures carry no authority.** Inserted anywhere, they change neither a
verdict at any instant nor the listed metadata. A verified hard revocation withdraws authority
at every instant, and verified soft ones exactly from the earliest of their dates on. -/
theorem unverified_signatures_carry_no_authority (V : Verifier) {pk pk' : SignedPublicKey}
    (h : Tampered V pk pk') {sk sk' : SignedSecretKey} (hs : TamperedSecret V sk sk') :
    (∀ t, signingVerdicts V pk' t = signingVerdicts V pk t) ∧
    (∀ now, buildPublicMetadata V pk' now = buildPublicMetadata V pk now) ∧
    (∀ t, signingVerdicts V sk'.toPublic t = signingVerdicts V sk.toPublic t) ∧
    (∀ now, buildSecretMetadata V sk' now = buildSecretMetadata V sk now) ∧
    ((∃ r ∈ primaryRevocations V pk.primaryKey pk.details, softRevocation r = false) →
      ∀ t, .authorized ∉ signingVerdicts V pk t) ∧
    (∀ sub ∈ pk.publicSubkeys,
      (∃ r ∈ subkeyRevocations V pk.primaryKey sub.key sub.signatures,
        softRevocation r = false) →
      ∀ t, subkeySigningVerdict V pk.primaryKey pk.details sub.key sub.signatures t
        ≠ .authorized) ∧
    (∀ since, EarliestSoft (primaryRevocations V pk.primaryKey pk.details) since → ∀ t,
      RevocationOutcome (decide (since ≤ t)) (primarySigningVerdict V pk.primaryKey pk.details t)
        (primarySigningVerdict V pk.primaryKey (withoutRevocations V pk.primaryKey pk.details) t) ∧
      ∀ sub ∈ pk.publicSubkeys,
        RevocationOutcome (decide (since ≤ t))
          (subkeySigningVerdict V pk.primaryKey pk.details sub.key sub.signatures t)
          (subkeySigningVerdict V pk.primaryKey
            (withoutRevocations V pk.primaryKey pk.details) sub.key sub.signatures t)) ∧
    (∀ sub ∈ pk.publicSubkeys, ∀ since,
      EarliestSoft (subkeyRevocations V pk.primaryKey sub.key sub.signatures) since → ∀ t,
        RevocationOutcome (decide (since ≤ t))
          (subkeySigningVerdict V pk.primaryKey pk.details sub.key sub.signatures t)
          (subkeySigningVerdict V pk.primaryKey pk.details sub.key
            (withoutSubkeyRevocations V pk.primaryKey sub.key sub.signatures) t)) := by
  refine ⟨h.readsAlike.signingVerdicts_eq, h.readsAlike.buildPublicMetadata_eq,
    hs.readsAlike.toPublic.signingVerdicts_eq, hs.readsAlike.buildSecretMetadata_eq, ?hard,
    ?hardSub, ?soft, ?softSub⟩
  case hard =>
    intro hhard t hmem
    have hrev : (primaryRevocationState V pk.primaryKey pk.details).revokedAt t = true :=
      revokedAt_of_hard hhard t
    rcases List.mem_cons.1 hmem with hprimary | hsub
    · have houtcome := primarySigningVerdict_revocations V pk.primaryKey pk.details t
      rw [hrev] at houtcome
      exact houtcome.not_authorized hprimary.symm
    · obtain ⟨sub, -, hsub⟩ := List.mem_map.1 hsub
      have houtcome := subkeySigningVerdict_primary_revocations V pk.primaryKey pk.details
        sub.key sub.signatures t
      rw [hrev] at houtcome
      exact houtcome.not_authorized hsub
  case hardSub =>
    intro sub _ hhard t
    have houtcome := subkeySigningVerdict_revocations V pk.primaryKey pk.details sub.key
      sub.signatures t
    rw [subkeyRevocationState, revokedAt_of_hard hhard t] at houtcome
    exact houtcome.not_authorized
  case soft =>
    intro since hsince t
    have hrev : (primaryRevocationState V pk.primaryKey pk.details).revokedAt t
        = decide (since ≤ t) := hsince.revokedAt t
    rw [← hrev]
    exact ⟨primarySigningVerdict_revocations V pk.primaryKey pk.details t, fun sub _ =>
      subkeySigningVerdict_primary_revocations V pk.primaryKey pk.details sub.key sub.signatures t⟩
  case softSub =>
    intro sub _ since hsince t
    have hrev : (subkeyRevocationState V pk.primaryKey sub.key sub.signatures).revokedAt t
        = decide (since ≤ t) := hsince.revokedAt t
    rw [← hrev]
    exact subkeySigningVerdict_revocations V pk.primaryKey pk.details sub.key sub.signatures t

/-! ## An instance -/

/-- Verifies the packets whose octets are `[1]`. -/
def tagVerifier : Verifier where
  verifyKey sig _ := sig.bytes == [1]
  verifyCertification sig _ _ := sig.bytes == [1]
  verifyAttribute sig _ _ := sig.bytes == [1]
  verifySubkeyBinding sig _ _ := sig.bytes == [1]
  verifyPrimaryKeyBinding back _ _ := back.bytes == [1]

/-- A SHA-256 signature with no subpackets but its date and the flags of a signing key. -/
def plainSignature (tag : UInt8) (typ : SignatureType) (created : UInt32) : Signature where
  bytes := [tag]
  typ := some typ
  created := some created
  hashAlg := some .sha256
  config := some [⟨false, .keyFlags⟩]
  signatureExpirationTime := none
  keyExpirationTime := none
  isPrimary := false
  keyFlags := ⟨true, true, false, false, false⟩
  revocationReasonCode := none
  issuerFingerprint := []
  issuerKeyId := []
  embeddedSignature := some ⟨[1], some .keyBinding, some created, some .sha256⟩

def sampleKey (fingerprint : String) : PublicKey where
  version := .v4
  fingerprint := fingerprint
  legacyKeyId := fingerprint
  createdAt := 100
  algorithmCanSign := true
  algorithmIsPqc := false
  publicParams := .ed25519

/-- A User ID, its certification, and a signing subkey. -/
def sampleDetails (extra : List Signature) : SignedKeyDetails where
  revocationSignatures := extra
  directSignatures := []
  users := [⟨⟨[97], "a"⟩, extra ++ [plainSignature 1 .certPositive 100]⟩]
  userAttributes := []

def sampleSubkey (extra : List Signature) : SignedPublicSubKey where
  key := sampleKey "B"
  signatures := plainSignature 1 .subkeyBinding 100 :: extra

def sampleCert (extra : List Signature) : SignedPublicKey :=
  ⟨sampleKey "A", sampleDetails extra, [sampleSubkey extra]⟩

def sampleSecret (extra : List Signature) : SignedSecretKey :=
  ⟨sampleKey "A", [], sampleDetails extra, [sampleSubkey extra], []⟩

/-- A forged revocation, dated at the epoch and without a reason. -/
def forgedRevocation : Signature := plainSignature 0 .keyRevocation 0

theorem sampleDetails_tampered :
    TamperedDetails tagVerifier (sampleKey "A") (sampleDetails [])
      (sampleDetails [forgedRevocation]) where
  revocationSignatures := .extra _ (by decide) .nil
  directSignatures := .nil
  users := .cons ⟨rfl, .extra _ (by decide) (.keep _ .nil)⟩ .nil

theorem sampleSubkey_tampered :
    List.Forall₂ (TamperedSubKey tagVerifier (sampleKey "A")) [sampleSubkey []]
      [sampleSubkey [forgedRevocation]] :=
  .cons ⟨rfl, .keep _ (.extra _ (by decide) .nil)⟩ .nil

theorem unverified_signatures_carry_no_authority_sample :
    signingVerdicts tagVerifier (sampleCert [forgedRevocation]) 200
        = [.authorized, .authorized] ∧
      (buildPublicMetadata tagVerifier (sampleCert [forgedRevocation]) 200).isRevoked = false ∧
      (buildSecretMetadata tagVerifier (sampleSecret [forgedRevocation]) 200).isRevoked
        = false := by
  have hpublic : Tampered tagVerifier (sampleCert []) (sampleCert [forgedRevocation]) :=
    ⟨rfl, sampleDetails_tampered, sampleSubkey_tampered⟩
  have hsecret : TamperedSecret tagVerifier (sampleSecret []) (sampleSecret [forgedRevocation]) :=
    ⟨rfl, sampleDetails_tampered, sampleSubkey_tampered, .nil⟩
  have h := unverified_signatures_carry_no_authority tagVerifier hpublic hsecret
  rw [h.1 200, h.2.1 200, h.2.2.2.1 200]
  decide

end Rpgp

end GpgFrontend
