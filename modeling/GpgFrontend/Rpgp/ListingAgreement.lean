import GpgFrontend.Rpgp.UnverifiedSignatures

/-!
# The key list against the engine

The key list offers a key for signing by its flags, its revocation and its expiry. The engine
asks the signing verdict. Both read the same signatures, through separately written rules: the
list takes the newest signature of any date, where the verdict takes the one in force as of now,
and it does not ask for Key Flags, for the day a key was made, or for the signature by which a
subkey agrees to its binding.

- `DatedByNow`: nothing that is read is dated later than now.
- `DatedByNow.primarySigInForce_eq`: then the newest self-signature is the one in force.
- `SpeaksPlainly`: the rest of what the two rules read differently, for one key.
- `listing_agrees_iff`: **on a certificate that is dated by now, the list and the engine agree
  exactly if every key speaks plainly**.
-/

namespace GpgFrontend

namespace Rpgp

/-! ## What the list says -/

/-- The primary key is listed as able to sign, not revoked and not expired. -/
def listedForSigning (key : ExtractedMetadata) (now : UInt32) : Bool :=
  key.caps.sign && !key.isRevoked && !key.isExpired now

/-- A subkey is, with its primary key neither revoked nor expired. -/
def subkeyListedForSigning (key : ExtractedMetadata) (sub : ExtractedSubkey) (now : UInt32) :
    Bool :=
  sub.caps.sign && !sub.isRevoked && !sub.isExpired now && !key.isRevoked && !key.isExpired now

section

variable (V : Verifier)

/-- The list and the verdict agree on the primary key and every subkey of a public key. A
subkey without a binding has no entry at all. -/
def ListingAgrees (pk : SignedPublicKey) (now : UInt32) : Prop :=
  (listedForSigning (buildPublicMetadata V pk now) now = true ↔
    primarySigningVerdict V pk.primaryKey pk.details now = .authorized) ∧
  ∀ sub ∈ pk.publicSubkeys,
    ((subkeyIsBound V pk.primaryKey sub.key sub.signatures now = true ∧
      subkeyListedForSigning (buildPublicMetadata V pk now)
        (publicSubkeyMetadata V pk.primaryKey sub now) now = true) ↔
      subkeySigningVerdict V pk.primaryKey pk.details sub.key sub.signatures now = .authorized)

/-- The same for a key held with its secret part. -/
def SecretListingAgrees (sk : SignedSecretKey) (now : UInt32) : Prop :=
  (listedForSigning (buildSecretMetadata V sk now) now = true ↔
    primarySigningVerdict V sk.primaryKey sk.details now = .authorized) ∧
  (∀ sub ∈ sk.publicSubkeys,
    ((subkeyIsBound V sk.primaryKey sub.key sub.signatures now = true ∧
      subkeyListedForSigning (buildSecretMetadata V sk now)
        (publicSubkeyMetadata V sk.primaryKey sub now) now = true) ↔
      subkeySigningVerdict V sk.primaryKey sk.details sub.key sub.signatures now
        = .authorized)) ∧
  ∀ sub ∈ sk.secretSubkeys,
    ((subkeyIsBound V sk.primaryKey sub.key sub.signatures now = true ∧
      subkeyListedForSigning (buildSecretMetadata V sk now)
        (secretSubkeyMetadata V sk.primaryKey sub now) now = true) ↔
      subkeySigningVerdict V sk.primaryKey sk.details sub.key sub.signatures now = .authorized)

end

/-! ## What the two rules read differently -/

/-- The Key Flags are there, or the algorithm allows just what the missing flags say. -/
def FlagsReadAlike (key : PublicKey) (sig : Signature) : Prop :=
  hasKeyFlags sig = true ∨ sig.keyFlags.sign = key.algorithmCanSign

/-- The list still takes a key for live in the second of its expiry, the engine does not. -/
def lastSecond (expiresAt now : UInt32) : Bool := decide (expiresAt ≠ 0) && decide (expiresAt = now)

/-- The signature says the same of a key by the rules of the list and by those of the engine.
`backed` is what only the engine asks besides. -/
structure SpeaksPlainly (key : PublicKey) (sig : Signature) (now : UInt32) (backed : Prop) :
    Prop where
  /-- What is offered was made by now, is not in its last second, and is backed. -/
  offered : sig.keyFlags.sign = true →
    listedExpired (expiryOf (some sig) key.createdAt) now = false →
      ¬ now < key.createdAt ∧ lastSecond (expiryOf (some sig) key.createdAt) now = false ∧ backed
  /-- A key that could sign has Key Flags, or needs none. -/
  flagged : ¬ now < key.createdAt → expiredAt (some sig) key.createdAt now = false → backed →
    FlagsReadAlike key sig

section

variable (V : Verifier)

/-- No signature that verifies, and counts from its date on, is dated later than now. -/
structure DatedByNow (pk : SignedPublicKey) (now : UInt32) : Prop where
  directKeys : ∀ sig ∈ verifiedPrimarySelfSigs V pk.primaryKey pk.details.directSignatures,
    sig.typ = some .key → createdSecs sig.toSignatureCore ≤ now
  certifications : ∀ user ∈ pk.details.users, ∀ sig ∈ verifiedUidSelfSigs V pk.primaryKey user,
    createdSecs sig.toSignatureCore ≤ now
  userRevocations : ∀ user ∈ pk.details.users, ∀ sig ∈ user.signatures,
    sig.typ = some .certRevocation → V.verifyCertification sig pk.primaryKey user.id = true →
      createdSecs sig.toSignatureCore ≤ now
  revocations : ∀ sig ∈ primaryRevocations V pk.primaryKey pk.details,
    softRevocation sig = true → createdSecs sig.toSignatureCore ≤ now
  bindings : ∀ sub ∈ pk.publicSubkeys,
    ∀ sig ∈ verifiedSubkeySelfSigs V pk.primaryKey sub.key sub.signatures,
      sig.typ = some .subkeyBinding → createdSecs sig.toSignatureCore ≤ now
  bindingRevocations : ∀ sub ∈ pk.publicSubkeys,
    ∀ sig ∈ subkeyRevocations V pk.primaryKey sub.key sub.signatures,
      softRevocation sig = true → createdSecs sig.toSignatureCore ≤ now

/-- The primary key was made by now, and a self-signature that is in force keeps it live. -/
def PrimaryStands (pk : SignedPublicKey) (now : UInt32) : Prop :=
  ¬ now < pk.primaryKey.createdAt ∧
    ∃ sig, primarySigInForce V pk.primaryKey pk.details (some now) now = some sig ∧
      expiredAt (some sig) pk.primaryKey.createdAt now = false

/-- Every key that may be used and is not revoked speaks plainly. For a subkey only the engine
asks that the primary key stands and that the subkey agrees to be bound; where the primary key
is listed as expired no subkey is asked about. -/
structure Plain (pk : SignedPublicKey) (now : UInt32) : Prop where
  primary : keyForbidden pk.primaryKey.publicParams = false →
    primaryRevocations V pk.primaryKey pk.details = [] →
      ∀ sig, primarySigInForce V pk.primaryKey pk.details (some now) now = some sig →
        SpeaksPlainly pk.primaryKey sig now True
  subkeys : ∀ sub ∈ pk.publicSubkeys, keyForbidden pk.primaryKey.publicParams = false →
    primaryRevocations V pk.primaryKey pk.details = [] →
    (∀ sig, primarySigInForce V pk.primaryKey pk.details (some now) now = some sig →
      listedExpired (expiryOf (some sig) pk.primaryKey.createdAt) now = false) →
    keyForbidden sub.key.publicParams = false →
    subkeyRevocations V pk.primaryKey sub.key sub.signatures = [] →
      ∀ sig, subkeyBindingInForce V pk.primaryKey sub.key sub.signatures (some now) now = some sig →
        SpeaksPlainly sub.key sig now
          (PrimaryStands V pk now ∧ backsigOk V pk.primaryKey sub.key sig = true)

/-- A certificate as it is usually made: every key by now, with Key Flags and not in its last
second, the primary key vouched for, and every binding agreed to. -/
structure Settled (pk : SignedPublicKey) (now : UInt32) : Prop where
  stands : PrimaryStands V pk now
  primary : ∀ sig, primarySigInForce V pk.primaryKey pk.details (some now) now = some sig →
    hasKeyFlags sig = true
  subkeys : ∀ sub ∈ pk.publicSubkeys, ¬ now < sub.key.createdAt ∧
    ∀ sig, subkeyBindingInForce V pk.primaryKey sub.key sub.signatures (some now) now = some sig →
      hasKeyFlags sig = true ∧ backsigOk V pk.primaryKey sub.key sig = true ∧
        lastSecond (expiryOf (some sig) sub.key.createdAt) now = false

end

/-! ## One key -/

section

variable {key : PublicKey} {sig : Signature} {now : UInt32} {backed : Prop}

theorem expiredAt_eq (sig : Option Signature) (createdAt now : UInt32) :
    expiredAt sig createdAt now =
      (listedExpired (expiryOf sig createdAt) now || lastSecond (expiryOf sig createdAt) now) := by
  have hle : decide (expiryOf sig createdAt ≤ now) =
      (decide (expiryOf sig createdAt < now) || decide (expiryOf sig createdAt = now)) := by
    rw [← Bool.decide_or]
    exact decide_eq_decide.2 UInt32.le_iff_lt_or_eq
  rw [expiredAt, listedExpired, lastSecond, hle, Bool.and_or_distrib_left]

theorem FlagsReadAlike.flagsAllowSigning_eq (h : FlagsReadAlike key sig) :
    flagsAllowSigning (some sig) key.algorithmCanSign = sig.keyFlags.sign := by
  rw [flagsAllowSigning]
  rcases h with hflags | halgorithm
  · rw [if_pos hflags]
  · rw [← halgorithm, ite_self]

/-- A key that the list offers and the engine accepts, or neither, and what it takes. -/
theorem speaksPlainly_iff :
    ((sig.keyFlags.sign = true ∧
        listedExpired (expiryOf (some sig) key.createdAt) now = false) ↔
      (¬ now < key.createdAt ∧ flagsAllowSigning (some sig) key.algorithmCanSign = true ∧ backed ∧
        expiredAt (some sig) key.createdAt now = false)) ↔
      SpeaksPlainly key sig now backed := by
  constructor
  · intro h
    refine ⟨fun hsign hruns => ?_, fun hcreated hexpired hbacked => ?_⟩
    · obtain ⟨hcreated, -, hbacked, hexpired⟩ := h.1 ⟨hsign, hruns⟩
      rw [expiredAt_eq, Bool.or_eq_false_iff] at hexpired
      exact ⟨hcreated, hexpired.2, hbacked⟩
    · by_cases hflags : hasKeyFlags sig = true
      · exact .inl hflags
      have hallow : flagsAllowSigning (some sig) key.algorithmCanSign = key.algorithmCanSign :=
        if_neg hflags
      rw [hallow] at h
      have hruns := (Bool.or_eq_false_iff.1 (expiredAt_eq (some sig) key.createdAt now ▸ hexpired)).1
      refine .inr (Bool.eq_iff_iff.2 ⟨fun hsign => (h.1 ⟨hsign, hruns⟩).2.1, fun hcan => ?_⟩)
      exact (h.2 ⟨hcreated, hcan, hbacked, hexpired⟩).1
  · rintro ⟨hoffered, hflagged⟩
    constructor
    · rintro ⟨hsign, hruns⟩
      obtain ⟨hcreated, hsecond, hbacked⟩ := hoffered hsign hruns
      have hexpired : expiredAt (some sig) key.createdAt now = false := by
        rw [expiredAt_eq, hruns, hsecond]
        rfl
      exact ⟨hcreated, (hflagged hcreated hexpired hbacked).flagsAllowSigning_eq.trans hsign,
        hbacked, hexpired⟩
    · rintro ⟨hcreated, hallow, hbacked, hexpired⟩
      rw [(hflagged hcreated hexpired hbacked).flagsAllowSigning_eq] at hallow
      rw [expiredAt_eq, Bool.or_eq_false_iff] at hexpired
      exact ⟨hallow, hexpired.1⟩

theorem SpeaksPlainly.of_flags (hcreated : ¬ now < key.createdAt) (hflags : hasKeyFlags sig = true)
    (hsecond : lastSecond (expiryOf (some sig) key.createdAt) now = false) (hbacked : backed) :
    SpeaksPlainly key sig now backed :=
  ⟨fun _ _ => ⟨hcreated, hsecond, hbacked⟩, fun _ _ _ => .inl hflags⟩

end

/-! ## The newest signature and the one in force -/

/-- Of signatures dated by now, the newest is the one in force. -/
theorem sigInForce_none_eq {sigs : List Signature} {now : UInt32}
    (h : ∀ sig ∈ sigs, createdSecs sig.toSignatureCore ≤ now) :
    sigInForce sigs none now = sigInForce sigs (some now) now := by
  have hall : (sigs.filter fun sig => decide (createdSecs sig.toSignatureCore ≤ now)) = sigs :=
    List.filter_eq_self.2 fun sig hsig => decide_eq_true (h sig hsig)
  have hchosen : chosenSig sigs none = chosenSig sigs (some now) := by
    rw [chosenSig, chosenSig, hall]
    cases sigs with
    | nil => rfl
    | cons sig rest =>
      obtain ⟨newest, hnewest⟩ : ∃ newest, newestSig (sig :: rest) = some newest := by
        rw [newestSig, maxByKey]
        split
        · exact ⟨_, rfl⟩
        · split <;> exact ⟨_, rfl⟩
      rw [hnewest, Option.some_or]
  rw [sigInForce, sigInForce, hchosen]
  rfl

/-- Where soft revocations are dated by now, any revocation counts. -/
theorem RevocationState.of_revokedAt_eq_false_iff {revs : List Signature} {now : UInt32}
    (h : ∀ sig ∈ revs, softRevocation sig = true → createdSecs sig.toSignatureCore ≤ now) :
    (RevocationState.of revs).revokedAt now = false ↔ revs = [] := by
  rw [← Bool.not_eq_true, RevocationState.of_revokedAt_iff, List.eq_nil_iff_forall_not_mem]
  refine ⟨fun hnone sig hsig => hnone ⟨sig, hsig, ?_⟩, fun hnone ⟨sig, hsig, _⟩ => hnone sig hsig⟩
  cases hsoft : softRevocation sig with
  | false => exact .inl rfl
  | true => exact .inr (h sig hsig hsoft)

namespace DatedByNow

variable {V : Verifier} {pk : SignedPublicKey} {now : UInt32}

theorem userCertification_eq (h : DatedByNow V pk now) {user : SignedUser}
    (huser : user ∈ pk.details.users) :
    userCertification V pk.primaryKey none now user
      = userCertification V pk.primaryKey (some now) now user := by
  have hrevoked : userIdRevokedAt V pk.primaryKey user none
      = userIdRevokedAt V pk.primaryKey user (some now) := by
    rw [userIdRevokedAt, userIdRevokedAt, Bool.eq_iff_iff, List.any_eq_true, List.any_eq_true]
    refine exists_congr fun sig => and_congr_right fun hsig => ?_
    simp only [Bool.and_eq_true, decide_eq_true_eq]
    constructor
    · rintro ⟨⟨htyp, -⟩, hverified⟩
      exact ⟨⟨htyp, h.userRevocations user huser sig hsig htyp hverified⟩, hverified⟩
    · rintro ⟨⟨htyp, -⟩, hverified⟩
      exact ⟨⟨htyp, trivial⟩, hverified⟩
  rw [userCertification, userCertification, hrevoked]
  congr 1
  exact sigInForce_none_eq fun sig hsig =>
    h.certifications user huser sig (List.mem_filter.1 hsig).1

/-- **The newest self-signature of the primary key is the one in force.** -/
theorem primarySigInForce_eq (h : DatedByNow V pk now) :
    primarySigInForce V pk.primaryKey pk.details none now
      = primarySigInForce V pk.primaryKey pk.details (some now) now := by
  have hdirect : directKeyInForce V pk.primaryKey pk.details none now
      = directKeyInForce V pk.primaryKey pk.details (some now) now :=
    sigInForce_none_eq fun sig hsig => by
      obtain ⟨hverified, htyp⟩ := List.mem_filter.1 hsig
      exact h.directKeys sig hverified (of_decide_eq_true htyp)
  have husers : userCertifications V pk.primaryKey pk.details none now
      = userCertifications V pk.primaryKey pk.details (some now) now := by
    rw [userCertifications, userCertifications]
    refine List.filterMap_congr fun (user, i) hentry => ?_
    have huser : user ∈ pk.details.users := List.fst_mem_of_mem_zipIdx hentry
    simp only [h.userCertification_eq huser]
  rw [primarySigInForce, primarySigInForce, hdirect, uidCertificationInForce,
    uidCertificationInForce, indexedUidCertificationInForce, indexedUidCertificationInForce, husers]

/-- So is the newest binding of a subkey. -/
theorem subkeyBindingInForce_eq (h : DatedByNow V pk now) {sub : SignedPublicSubKey}
    (hsub : sub ∈ pk.publicSubkeys) :
    subkeyBindingInForce V pk.primaryKey sub.key sub.signatures none now
      = subkeyBindingInForce V pk.primaryKey sub.key sub.signatures (some now) now :=
  sigInForce_none_eq fun sig hsig => by
    obtain ⟨hverified, htyp⟩ := List.mem_filter.1 hsig
    exact h.bindings sub hsub sig hverified (of_decide_eq_true htyp)

theorem primaryRevoked_iff (h : DatedByNow V pk now) :
    (primaryRevocationState V pk.primaryKey pk.details).revokedAt now = false ↔
      primaryRevocations V pk.primaryKey pk.details = [] :=
  RevocationState.of_revokedAt_eq_false_iff h.revocations

theorem subkeyRevoked_iff (h : DatedByNow V pk now) {sub : SignedPublicSubKey}
    (hsub : sub ∈ pk.publicSubkeys) :
    (subkeyRevocationState V pk.primaryKey sub.key sub.signatures).revokedAt now = false ↔
      subkeyRevocations V pk.primaryKey sub.key sub.signatures = [] :=
  RevocationState.of_revokedAt_eq_false_iff (h.bindingRevocations sub hsub)

end DatedByNow

/-! ## Each side, by its rules -/

section

variable (V : Verifier) (primary : PublicKey) (details : SignedKeyDetails) (now : UInt32)

/-- The two lists of the primary key, asked one after the other. -/
theorem isPrimaryKeyRevoked_false_iff :
    (isPrimaryKeyRevoked V primary details.revocationSignatures
      || isPrimaryKeyRevoked V primary details.directSignatures) = false ↔
      primaryRevocations V primary details = [] := by
  rw [primaryRevocations, List.filter_eq_nil_iff, isPrimaryKeyRevoked, isPrimaryKeyRevoked,
    ← List.any_append, List.any_eq_false]

theorem isSubkeyRevoked_false_iff (subkey : PublicSubkey) (signatures : List Signature) :
    isSubkeyRevoked V primary subkey signatures = false ↔
      subkeyRevocations V primary subkey signatures = [] := by
  rw [subkeyRevocations, List.filter_eq_nil_iff, isSubkeyRevoked, List.any_eq_false]

/-- When the list offers the primary key. The newest self-signature counts. -/
theorem listedForSigning_iff (hasSecret : Bool) (subkeys : List ExtractedSubkey) :
    listedForSigning (primaryMetadata V primary details hasSecret subkeys now) now = true ↔
      keyForbidden primary.publicParams = false ∧ primaryRevocations V primary details = [] ∧
      ∃ sig, primarySigInForce V primary details none now = some sig ∧
        sig.keyFlags.sign = true ∧
          listedExpired (expiryOf (some sig) primary.createdAt) now = false := by
  simp only [listedForSigning, primaryMetadata, ExtractedMetadata.isExpired, primaryKeyExpiresAt,
    usableCapabilities_sign, Bool.and_eq_true, Bool.not_eq_true', isPrimaryKeyRevoked_false_iff]
  cases primarySigInForce V primary details none now with
  | none => simp [extractCapabilities]
  | some sig =>
    simp only [extractCapabilities, Option.some.injEq, exists_eq_left']
    tauto

/-- When the list offers a subkey. -/
theorem subkeyListedForSigning_iff (hasSecret subHasSecret : Bool) (subkeys : List ExtractedSubkey)
    (subkey : PublicSubkey) (signatures : List Signature) :
    (subkeyIsBound V primary subkey signatures now = true ∧
      subkeyListedForSigning (primaryMetadata V primary details hasSecret subkeys now)
        (subkeyMetadata V primary subkey signatures subHasSecret now) now = true) ↔
      (keyForbidden primary.publicParams = false ∧ primaryRevocations V primary details = [] ∧
        listedExpired (primaryKeyExpiresAt V primary details now) now = false) ∧
      keyForbidden subkey.publicParams = false ∧ subkeyRevocations V primary subkey signatures = [] ∧
      ∃ sig, subkeyBindingInForce V primary subkey signatures none now = some sig ∧
        sig.keyFlags.sign = true ∧
          listedExpired (expiryOf (some sig) subkey.createdAt) now = false := by
  simp only [subkeyListedForSigning, primaryMetadata, subkeyMetadata, ExtractedMetadata.isExpired,
    ExtractedSubkey.isExpired, subkeyExpiresAt, usableCapabilities_sign, Bool.and_eq_true,
    Bool.not_eq_true', isPrimaryKeyRevoked_false_iff, isSubkeyRevoked_false_iff, subkeyIsBound,
    subkeyBindingSignature]
  cases subkeyBindingInForce V primary subkey signatures none now with
  | none => simp [extractCapabilities]
  | some sig =>
    simp only [extractCapabilities, Option.some.injEq, exists_eq_left', Option.isSome_some,
      Bool.true_or, true_and]
    tauto

end

/-! ## The result -/

section

variable {V : Verifier} {pk : SignedPublicKey} {now : UInt32}

/-- The primary key of a certificate that is dated by now. -/
theorem DatedByNow.primary_agrees_iff (h : DatedByNow V pk now) (hasSecret : Bool)
    (subkeys : List ExtractedSubkey) :
    (listedForSigning (primaryMetadata V pk.primaryKey pk.details hasSecret subkeys now) now = true ↔
      primarySigningVerdict V pk.primaryKey pk.details now = .authorized) ↔
      (keyForbidden pk.primaryKey.publicParams = false →
        primaryRevocations V pk.primaryKey pk.details = [] →
          ∀ sig, primarySigInForce V pk.primaryKey pk.details (some now) now = some sig →
            SpeaksPlainly pk.primaryKey sig now True) := by
  rw [listedForSigning_iff, primarySigningVerdict_authorized_iff, primaryVerdict_authorized_iff,
    h.primarySigInForce_eq, h.primaryRevoked_iff]
  by_cases hallowed : keyForbidden pk.primaryKey.publicParams = false
  case neg => simp [hallowed]
  by_cases hunrevoked : primaryRevocations V pk.primaryKey pk.details = []
  case neg => simp [hunrevoked]
  cases hsig : primarySigInForce V pk.primaryKey pk.details (some now) now with
  | none => simp
  | some sig =>
    simp only [hallowed, hunrevoked, true_and, forall_const, Option.some.injEq, exists_eq_left',
      forall_eq']
    rw [← speaksPlainly_iff]
    simp only [true_and]
    tauto

/-- A subkey of a certificate that is dated by now. -/
theorem DatedByNow.subkey_agrees_iff (h : DatedByNow V pk now) {sub : SignedPublicSubKey}
    (hsub : sub ∈ pk.publicSubkeys) (hasSecret subHasSecret : Bool)
    (subkeys : List ExtractedSubkey) :
    ((subkeyIsBound V pk.primaryKey sub.key sub.signatures now = true ∧
      subkeyListedForSigning (primaryMetadata V pk.primaryKey pk.details hasSecret subkeys now)
        (subkeyMetadata V pk.primaryKey sub.key sub.signatures subHasSecret now) now = true) ↔
      subkeySigningVerdict V pk.primaryKey pk.details sub.key sub.signatures now = .authorized) ↔
      (keyForbidden pk.primaryKey.publicParams = false →
        primaryRevocations V pk.primaryKey pk.details = [] →
        (∀ sig, primarySigInForce V pk.primaryKey pk.details (some now) now = some sig →
          listedExpired (expiryOf (some sig) pk.primaryKey.createdAt) now = false) →
        keyForbidden sub.key.publicParams = false →
        subkeyRevocations V pk.primaryKey sub.key sub.signatures = [] →
          ∀ sig, subkeyBindingInForce V pk.primaryKey sub.key sub.signatures (some now) now
              = some sig →
            SpeaksPlainly sub.key sig now
              (PrimaryStands V pk now ∧ backsigOk V pk.primaryKey sub.key sig = true)) := by
  have hruns : listedExpired (primaryKeyExpiresAt V pk.primaryKey pk.details now) now = false ↔
      ∀ sig, primarySigInForce V pk.primaryKey pk.details (some now) now = some sig →
        listedExpired (expiryOf (some sig) pk.primaryKey.createdAt) now = false := by
    rw [primaryKeyExpiresAt, h.primarySigInForce_eq]
    cases primarySigInForce V pk.primaryKey pk.details (some now) now with
    | none => simp [expiryOf, listedExpired]
    | some sig => simp
  have hstands : PrimaryStands V pk now →
      listedExpired (primaryKeyExpiresAt V pk.primaryKey pk.details now) now = false := by
    rintro ⟨-, sig, hsig, hexpired⟩
    rw [expiredAt_eq, Bool.or_eq_false_iff] at hexpired
    rw [primaryKeyExpiresAt, h.primarySigInForce_eq, hsig]
    exact hexpired.1
  rw [subkeyListedForSigning_iff, subkeySigningVerdict_authorized_iff,
    primaryVerdict_authorized_iff, h.subkeyBindingInForce_eq hsub, h.primaryRevoked_iff,
    h.subkeyRevoked_iff hsub, ← hruns]
  by_cases hallowed : keyForbidden pk.primaryKey.publicParams = false
  case neg => simp [hallowed]
  by_cases hunrevoked : primaryRevocations V pk.primaryKey pk.details = []
  case neg => simp [hunrevoked]
  by_cases hsubAllowed : keyForbidden sub.key.publicParams = false
  case neg => simp [hsubAllowed]
  by_cases hsubUnrevoked : subkeyRevocations V pk.primaryKey sub.key sub.signatures = []
  case neg => simp [hsubUnrevoked]
  simp only [hallowed, hunrevoked, hsubAllowed, hsubUnrevoked, true_and, forall_const]
  rw [← PrimaryStands]
  cases hsig : subkeyBindingInForce V pk.primaryKey sub.key sub.signatures (some now) now with
  | none => simp
  | some sig =>
    simp only [Option.some.injEq, exists_eq_left', forall_eq']
    rw [← speaksPlainly_iff]
    by_cases hlive : listedExpired (primaryKeyExpiresAt V pk.primaryKey pk.details now) now = false
    · simp only [hlive, true_and, forall_const]
      refine iff_congr Iff.rfl ?_
      constructor
      · rintro ⟨hs, hcreated, hallow, hback, hexpired⟩
        exact ⟨hcreated, hallow, ⟨hs, hback⟩, hexpired⟩
      · rintro ⟨hcreated, hallow, ⟨hs, hback⟩, hexpired⟩
        exact ⟨hs, hcreated, hallow, hback, hexpired⟩
    · simp [hlive, mt hstands hlive]

theorem DatedByNow.listingAgrees_iff (h : DatedByNow V pk now) :
    ListingAgrees V pk now ↔ Plain V pk now := by
  rw [ListingAgrees, buildPublicMetadata, h.primary_agrees_iff]
  constructor
  · rintro ⟨hprimary, hsubs⟩
    exact ⟨hprimary, fun sub hsub => (h.subkey_agrees_iff hsub _ _ _).1 (hsubs sub hsub)⟩
  · rintro ⟨hprimary, hsubs⟩
    exact ⟨hprimary, fun sub hsub => (h.subkey_agrees_iff hsub _ _ _).2 (hsubs sub hsub)⟩

theorem DatedByNow.secretListingAgrees_iff {sk : SignedSecretKey}
    (h : DatedByNow V sk.toPublic now) :
    SecretListingAgrees V sk now ↔ Plain V sk.toPublic now := by
  have hprimary := h.primary_agrees_iff true (publicSubkeyEntries V sk.primaryKey sk.publicSubkeys now
    ++ secretSubkeyEntries V sk.primaryKey sk.secretSubkeys now)
  constructor
  · rintro ⟨hagrees, hpublic, hsecret⟩
    refine ⟨hprimary.1 hagrees, fun sub hsub => ?_⟩
    rcases List.mem_append.1 hsub with hmem | hmem
    · exact (h.subkey_agrees_iff hsub _ _ _).1 (hpublic sub hmem)
    · obtain ⟨secret, hsec, rfl⟩ := List.mem_map.1 hmem
      exact (h.subkey_agrees_iff hsub _ _ _).1 (hsecret secret hsec)
  · rintro ⟨hplain, hsubs⟩
    refine ⟨hprimary.2 hplain, fun sub hmem => ?_, fun sub hmem => ?_⟩
    · have hsub : sub ∈ sk.toPublic.publicSubkeys := List.mem_append_left _ hmem
      exact (h.subkey_agrees_iff hsub _ _ _).2 (hsubs sub hsub)
    · have hsub : sub.toPublic ∈ sk.toPublic.publicSubkeys :=
        List.mem_append_right _ (List.mem_map_of_mem hmem)
      exact (h.subkey_agrees_iff hsub _ _ _).2 (hsubs sub.toPublic hsub)

theorem Settled.plain (h : Settled V pk now) : Plain V pk now where
  primary _ _ sig hsig := by
    obtain ⟨hcreated, sig', hsig', hexpired⟩ := h.stands
    obtain rfl : sig' = sig := Option.some.inj (hsig'.symm.trans hsig)
    rw [expiredAt_eq, Bool.or_eq_false_iff] at hexpired
    exact .of_flags hcreated (h.primary sig' hsig) hexpired.2 trivial
  subkeys sub hsub _ _ _ _ _ sig hsig := by
    obtain ⟨hcreated, hbinding⟩ := h.subkeys sub hsub
    obtain ⟨hflags, hback, hsecond⟩ := hbinding sig hsig
    exact .of_flags hcreated hflags hsecond ⟨h.stands, hback⟩

variable (V)

/-- **When the list agrees with the engine.** On a certificate with nothing dated later than now,
exactly if every key speaks plainly, for a key held with or without its secret part and at every
clock value; in particular if the certificate is settled. -/
theorem listing_agrees_iff (pk : SignedPublicKey) (sk : SignedSecretKey) (now : UInt32) :
    (DatedByNow V pk now →
      (ListingAgrees V pk now ↔ Plain V pk now) ∧ (Settled V pk now → ListingAgrees V pk now)) ∧
    (DatedByNow V sk.toPublic now →
      (SecretListingAgrees V sk now ↔ Plain V sk.toPublic now) ∧
        (Settled V sk.toPublic now → SecretListingAgrees V sk now)) := by
  refine ⟨fun h => ⟨h.listingAgrees_iff, fun hsettled => ?_⟩,
    fun h => ⟨h.secretListingAgrees_iff, fun hsettled => ?_⟩⟩
  · exact h.listingAgrees_iff.2 hsettled.plain
  · exact h.secretListingAgrees_iff.2 hsettled.plain

end

/-- A certificate that was made at 100, read at 200. -/
theorem sampleCert_datedByNow : DatedByNow tagVerifier (sampleCert []) 200 where
  directKeys := by decide
  certifications := by decide
  userRevocations := by decide
  revocations := by decide
  bindings := by decide
  bindingRevocations := by decide

theorem sampleCert_settled : Settled tagVerifier (sampleCert []) 200 where
  stands := ⟨by decide, plainSignature 1 .certPositive 100, by decide, by decide⟩
  primary sig hsig := by
    have hfound : primarySigInForce tagVerifier (sampleKey "A") (sampleDetails []) (some 200) 200
        = some (plainSignature 1 .certPositive 100) := by decide
    obtain rfl := Option.some.inj (hfound.symm.trans hsig)
    rfl
  subkeys sub hsub := by
    obtain rfl := List.mem_singleton.1 hsub
    refine ⟨by decide, fun sig hsig => ?_⟩
    have hfound : subkeyBindingInForce tagVerifier (sampleKey "A") (sampleKey "B")
        [plainSignature 1 .subkeyBinding 100] (some 200) 200
          = some (plainSignature 1 .subkeyBinding 100) := by decide
    obtain rfl := Option.some.inj (hfound.symm.trans hsig)
    decide

/-- Its list agrees with the engine, for the public and for the secret key. -/
theorem sampleCert_listing_agrees :
    ListingAgrees tagVerifier (sampleCert []) 200 ∧
      SecretListingAgrees tagVerifier (sampleSecret []) 200 := by
  obtain ⟨hpublic, hsecret⟩ :=
    listing_agrees_iff tagVerifier (sampleCert []) (sampleSecret []) 200
  exact ⟨(hpublic sampleCert_datedByNow).2 sampleCert_settled,
    (hsecret sampleCert_datedByNow).2 sampleCert_settled⟩

/-- A certificate whose subkey binding carries no back-signature: anyone can bind someone else's
signing subkey this way. -/
def unbackedCert : SignedPublicKey where
  primaryKey := sampleKey "A"
  details := sampleDetails []
  publicSubkeys :=
    [⟨sampleKey "B",
      [{ plainSignature 1 .subkeyBinding 100 with embeddedSignature := none }]⟩]

/-- It is listed as able to sign, and every verifier refuses it. -/
theorem unbacked_subkey_listed : ¬ ListingAgrees tagVerifier unbackedCert 200 := by
  intro h
  have hlisted := (h.2 _ (List.mem_singleton.2 rfl)).1 (by decide)
  exact absurd hlisted (by decide)

end Rpgp

end GpgFrontend
