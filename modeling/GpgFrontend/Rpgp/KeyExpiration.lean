import GpgFrontend.Base.Results
import GpgFrontend.Rpgp.Reissue

/-!
# Changing an expiration (`rust/src/key.rs`)

The user gives an absolute time of 64 bits. OpenPGP keeps a duration of 32 bits from the
creation of the key, and the key list shows an absolute time of 32 bits again.

- `updated_expiration_reads_iff`: **when they do.**
-/

namespace GpgFrontend

namespace Rpgp

/-- `expiration_duration`: zero is never; the duration must be positive and fit 32 bits. -/
def expirationDuration (createdAt : UInt32) (expirationEpochSecs : UInt64) :
    Except GfrStatus (Option UInt32) :=
  if expirationEpochSecs = 0 then .ok none
  else if expirationEpochSecs ≤ createdAt.toUInt64 then .error .errorInvalidInput
  else if (expirationEpochSecs - createdAt.toUInt64).toNat < UInt32.size then
    .ok (some (expirationEpochSecs - createdAt.toUInt64).toUInt32)
  else .error .errorInvalidInput

/-- The subpackets an expiry update does not carry over. -/
def expirationDropped : SubpacketContent → Bool
  | .signatureCreationTime _ | .issuerFingerprint _ | .issuerKeyId _ | .keyExpirationTime _
  | .signatureExpirationTime _ => true
  | _ => false

section

variable {V : Verifier} {R : PacketReader} {primary : PublicKey} (S : Signer V R primary)

/-- `build_expiration_sig_config`. -/
def buildExpirationSigConfig (template : Signature) (duration : Option UInt32) (now : UInt32) :
    Except GfrStatus SignatureConfig := do
  let some cfg := R.configOf template | .error .errorInternal
  let refreshed ← refreshReissuedConfig S cfg
  .ok (stampConfig expirationDropped primary now
    (duration.toList.map SubpacketContent.keyExpirationTime) refreshed)

/-- The loop of `update_primary_expiration` over the user IDs from number `i` on, with whether it
updated any. `now` is the clock, read once a user ID. -/
def updateUserExpirations (duration : Option UInt32) (now : Nat → UInt32) :
    Nat → List SignedUser → Except GfrStatus (List SignedUser × Bool)
  | _, [] => .ok ([], false)
  | i, user :: users =>
    if isUserIdRevoked V primary user then do
      let (updated, any) ← updateUserExpirations duration now (i + 1) users
      .ok (user :: updated, any)
    else
      match uidReissueTemplate V primary user with
      | none => do
        let (updated, any) ← updateUserExpirations duration now (i + 1) users
        .ok (user :: updated, any)
      | some template => do
        let cfg ← buildExpirationSigConfig S template duration (now i)
        let newSig ← S.signCertification cfg user.id
        let (updated, _) ← updateUserExpirations duration now (i + 1) users
        .ok ({ user with signatures := retireSelfSigs primary user.signatures ++ [newSig] }
          :: updated, true)

/-- `update_primary_expiration`: a version 6 key has its expiry in the direct-key signature, an
older one in the certification of each user ID. -/
def updatePrimaryExpiration (details : SignedKeyDetails) (duration : Option UInt32)
    (now : Nat → UInt32) : Except GfrStatus SignedKeyDetails :=
  if primary.version = .v6 then do
    let some template := directReissueTemplate V primary details.directSignatures
      | .error .errorInvalidData
    let cfg ← buildExpirationSigConfig S template duration (now 0)
    let newSig ← S.signKey cfg
    .ok { details with
      directSignatures := retireSelfSigs primary details.directSignatures ++ [newSig] }
  else do
    let (users, any) ← updateUserExpirations S duration now 0 details.users
    if any then .ok { details with users := users } else .error .errorInvalidData

end

/-- The signatures of a subkey that a new binding leaves: not the bindings that name the primary
key. -/
def retireBindings (primary : PublicKey) (signatures : List Signature) : List Signature :=
  signatures.filter fun sig =>
    !(namesPrimaryAsIssuer sig primary && decide (sig.typ = some .subkeyBinding))

section

variable {V : Verifier} {R : PacketReader} {primary : PublicKey} (S : Signer V R primary)

/-- The new signatures of a subkey, in `update_subkey_expiration`. -/
def updateBinding (subkey : PublicSubkey) (signatures : List Signature)
    (duration : Option UInt32) (now : UInt32) : Except GfrStatus (List Signature) := do
  let some template := bindingReissueTemplate V primary subkey signatures
    | .error .errorInvalidData
  let cfg ← buildExpirationSigConfig S template duration now
  let newSig ← S.signSubkeyBinding cfg subkey
  .ok (retireBindings primary signatures ++ [newSig])

end

/-- Changes the first element `p` holds of. -/
def changeFirst {α : Type} (p : α → Bool) (f : α → Except GfrStatus α) :
    List α → Except GfrStatus (List α)
  | [] => .ok []
  | a :: l =>
    if p a then do
      let changed ← f a
      .ok (changed :: l)
    else do
      let rest ← changeFirst p f l
      .ok (a :: rest)

section

variable (toUppercase : String → String) (sk : SignedSecretKey)

/-- Whether the update is of the primary key: no target, an empty one, or its own fingerprint. -/
def isPrimaryTarget (target : Option String) : Bool :=
  match target.map toUppercase with
  | none => true
  | some fpr => fpr == "" || fpr == toUppercase sk.primaryKey.fingerprint

/-- The fingerprint a subkey is looked for by. -/
def targetFingerprint (target : Option String) : String := (target.map toUppercase).getD ""

/-- `subkey_entry_mut`: of the secret subkeys first. -/
def subkeyEntry (fpr : String) : Option (PublicSubkey × List Signature) :=
  ((sk.secretSubkeys.find? fun sub => toUppercase sub.key.fingerprint == fpr).map fun sub =>
      (sub.key, sub.signatures)).or
    ((sk.publicSubkeys.find? fun sub => toUppercase sub.key.fingerprint == fpr).map fun sub =>
      (sub.key, sub.signatures))

variable {V : Verifier} {R : PacketReader} (S : Signer V R sk.primaryKey)

/-- `update_subkey_expiration`, on the entry `subkey_entry_mut` finds. -/
def updateSubkeyExpiration (fpr : String) (duration : Option UInt32) (now : UInt32) :
    Except GfrStatus SignedSecretKey :=
  if sk.secretSubkeys.any fun sub => toUppercase sub.key.fingerprint == fpr then do
    let subkeys ← changeFirst (fun sub => toUppercase sub.key.fingerprint == fpr)
      (fun sub : SignedSecretSubKey => do
        let signatures ← updateBinding S sub.key sub.signatures duration now
        .ok { sub with signatures := signatures }) sk.secretSubkeys
    .ok { sk with secretSubkeys := subkeys }
  else if sk.publicSubkeys.any fun sub => toUppercase sub.key.fingerprint == fpr then do
    let subkeys ← changeFirst (fun sub => toUppercase sub.key.fingerprint == fpr)
      (fun sub : SignedPublicSubKey => do
        let signatures ← updateBinding S sub.key sub.signatures duration now
        .ok { sub with signatures := signatures }) sk.publicSubkeys
    .ok { sk with publicSubkeys := subkeys }
  else .error .errorInvalidInput

/-- `update_key_expiration_internal`, of a parsed key. `passphrase` is the outcome of asking for the
passphrase and trying it, for a key that has one. -/
def updateKeyExpirationInternal (target : Option String) (expirationEpochSecs : UInt64)
    (passphrase : Except GfrStatus Unit) (now : Nat → UInt32) :
    Except GfrStatus SignedSecretKey :=
  if keyForbidden sk.primaryKey.publicParams then .error .errorUnusableKey
  else do
    passphrase
    if isPrimaryTarget toUppercase sk target then do
      let duration ← expirationDuration sk.primaryKey.createdAt expirationEpochSecs
      let details ← updatePrimaryExpiration S sk.details duration now
      .ok { sk with details := details }
    else
      match subkeyEntry toUppercase sk (targetFingerprint toUppercase target) with
      | none => .error .errorInvalidInput
      | some (subkey, _) => do
        let duration ← expirationDuration subkey.createdAt expirationEpochSecs
        updateSubkeyExpiration toUppercase sk S (targetFingerprint toUppercase target) duration
          (now 0)

end

/-! ## The duration -/

/-- What the key list reads from a duration is the time it was made from, unless that lies beyond
32 bits. -/
theorem expiryOf_of_duration {createdAt : UInt32} {expirationEpochSecs : UInt64}
    {duration : Option UInt32}
    (h : expirationDuration createdAt expirationEpochSecs = .ok duration) {sig : Signature}
    (hsig : sig.keyExpirationTime = duration) :
    (expiryOf (some sig) createdAt).toNat
      = min expirationEpochSecs.toNat (UInt32.size - 1) := by
  have hread : expiryOf (some sig) createdAt
      = (duration.map fun secs => if secs = 0 then 0 else saturatingAdd createdAt secs).getD 0 := by
    have hbind : (some sig).bind Signature.keyExpirationTime = duration := hsig
    rw [expiryOf, hbind]
    cases duration <;> rfl
  rw [hread]
  unfold expirationDuration at h
  split at h
  · next hzero =>
    cases h
    simp [hzero]
  · next hpos =>
    split at h
    · cases h
    · next hlate =>
      split at h
      · next hfits =>
        cases h
        have hlt : createdAt.toNat < expirationEpochSecs.toNat := by
          rw [UInt64.le_iff_toNat_le, UInt32.toNat_toUInt64] at hlate
          omega
        have hsub : (expirationEpochSecs - createdAt.toUInt64).toNat
            = expirationEpochSecs.toNat - createdAt.toNat := by
          rw [UInt64.toNat_sub_of_le _ _ (UInt64.le_iff_toNat_le.2 (by
            rw [UInt32.toNat_toUInt64]
            omega)), UInt32.toNat_toUInt64]
        have hsecs : (expirationEpochSecs - createdAt.toUInt64).toUInt32.toNat
            = expirationEpochSecs.toNat - createdAt.toNat := by
          rw [UInt64.toNat_toUInt32, hsub]
          rw [hsub] at hfits
          exact Nat.mod_eq_of_lt hfits
        have hne : (expirationEpochSecs - createdAt.toUInt64).toUInt32 ≠ 0 := by
          intro hzero
          rw [hzero] at hsecs
          simp only [UInt32.toNat_zero] at hsecs
          omega
        simp only [Option.map_some, Option.getD_some, hne, if_false, saturatingAdd_toNat, hsecs]
        omega
      · cases h

/-! ## The re-issued signature -/

/-- A signature an update made: it counts, it names the primary key and has the new duration. -/
structure ReissuedWith (primary : PublicKey) (duration : Option UInt32) (sig : Signature) :
    Prop where
  keyExpiration : sig.keyExpirationTime = duration
  neverEnds : sig.signatureExpirationTime = none
  property : isPropertySelfSig sig = true
  issuer : namesPrimaryAsIssuer sig primary = true
  hash : certificationHashAcceptable sig.toSignatureCore = true
  evaluable : evaluableSelfSig sig = true
  bindingHash : ∀ subkey, pqBindingHashForbidden subkey sig = false

section

variable {V : Verifier} {R : PacketReader} {primary : PublicKey} {S : Signer V R primary}
  {template sig : Signature} {duration : Option UInt32} {now : UInt32} {cfg : SignatureConfig}

theorem buildExpirationSigConfig_ok
    (h : buildExpirationSigConfig S template duration now = .ok cfg) :
    ∃ old refreshed, R.configOf template = some old ∧ Refreshed S old refreshed ∧
      cfg = stampConfig expirationDropped primary now
        (duration.toList.map SubpacketContent.keyExpirationTime) refreshed := by
  unfold buildExpirationSigConfig at h
  cases hread : R.configOf template with
  | none =>
    rw [hread] at h
    cases h
  | some old =>
    rw [hread] at h
    obtain ⟨refreshed, hrefresh, hcfg⟩ := bind_eq_ok.1 h
    cases hcfg
    exact ⟨old, refreshed, rfl, refreshed_of_ok S hrefresh, rfl⟩

theorem reissuedWith_of_build
    (h : buildExpirationSigConfig S template duration now = .ok cfg) (hmade : MadeFrom R cfg sig)
    (hhash : certificationHashAcceptable template.toSignatureCore = true)
    (heval : evaluableSelfSig template = true) (hproperty : isPropertySelfSig template = true) :
    ReissuedWith primary duration sig ∧ sig.typ = template.typ := by
  obtain ⟨old, refreshed, hread, hrefreshed, rfl⟩ := buildExpirationSigConfig_ok h
  obtain ⟨bytes, rfl⟩ : ∃ bytes, sig = SignatureConfig.toSignature _ bytes :=
    ⟨_, R.configOf_reads hmade.configOf_eq⟩
  have hsound : SoundConfig (stampConfig expirationDropped primary now
      (duration.toList.map SubpacketContent.keyExpirationTime) refreshed) :=
    (hrefreshed.sound S hread hhash heval).stamp expirationDropped now _
  have htyp : (SignatureConfig.toSignature (stampConfig expirationDropped primary now
      (duration.toList.map SubpacketContent.keyExpirationTime) refreshed) bytes).typ
        = template.typ := by
    rw [R.configOf_reads hread]
    exact congrArg some
      ((stampConfig_fields refreshed expirationDropped primary now _).1.trans hrefreshed.typ)
  refine ⟨⟨?_, ?_, ?_, ?_, hsound.hashAcceptable bytes, hsound.evaluable bytes,
    hsound.bindingHashAllowed bytes⟩, htyp⟩
  · refine (firstHashed_stampConfig SubpacketContent.keyLifetime refreshed expirationDropped primary
      now _).trans ?_
    rw [firstHashed_strip_none]
    · cases duration <;> rfl
    · rintro (_ | _) hsome <;> first | rfl | cases hsome
  · refine (firstHashed_stampConfig SubpacketContent.signatureLifetime refreshed expirationDropped
      primary now _).trans ?_
    rw [firstHashed_strip_none]
    · cases duration <;> rfl
    · rintro (_ | _) hsome <;> first | rfl | cases hsome
  · unfold isPropertySelfSig at hproperty ⊢
    rw [htyp]
    exact hproperty
  · exact stampConfig_namesPrimary refreshed expirationDropped primary now _ bytes

end

/-! ## The user IDs -/

section

variable {V : Verifier} {R : PacketReader} {primary : PublicKey} {duration : Option UInt32}

/-- What an update does to a user ID: nothing to a revoked one or one nobody certified, else its
certifications make way for a re-issued one. -/
inductive UserReissued (V : Verifier) (primary : PublicKey) (duration : Option UInt32) :
    SignedUser → SignedUser → Prop
  | kept {user : SignedUser} :
    isUserIdRevoked V primary user = true ∨ uidReissueTemplate V primary user = none →
      UserReissued V primary duration user user
  | reissued {user : SignedUser} {sig : Signature} :
    ReissuedWith primary duration sig → V.verifyCertification sig primary user.id = true →
      UserReissued V primary duration user
        { user with signatures := retireSelfSigs primary user.signatures ++ [sig] }

/-- A user ID that now has a re-issued certification in force. -/
def HasReissued (V : Verifier) (primary : PublicKey) (duration : Option UInt32)
    (user : SignedUser) : Prop :=
  isUserIdRevoked V primary user = false ∧
    ∃ sig ∈ verifiedUidSelfSigs V primary user, ReissuedWith primary duration sig

theorem ReissuedWith.mem_verified {user : SignedUser} {sig : Signature}
    (h : ReissuedWith primary duration sig)
    (hverify : V.verifyCertification sig primary user.id = true) :
    sig ∈ verifiedUidSelfSigs V primary
      { user with signatures := retireSelfSigs primary user.signatures ++ [sig] } :=
  mem_verifiedUidSelfSigs.2 ⟨List.mem_append_right _ (List.mem_singleton.2 rfl), hverify, h.hash,
    h.evaluable⟩

/-- The loop, by induction on the user IDs. -/
theorem updateUserExpirations_ok {S : Signer V R primary} {now : Nat → UInt32}
    {users users' : List SignedUser} {updated : Bool} {i : Nat}
    (h : updateUserExpirations S duration now i users = .ok (users', updated)) :
    List.Forall₂ (UserReissued V primary duration) users users' ∧
      (updated = true → ∃ user ∈ users', HasReissued V primary duration user) := by
  induction users generalizing i users' updated with
  | nil =>
    cases h
    exact ⟨.nil, fun h => by cases h⟩
  | cons user users ih =>
    have hkeep : ∀ {rest : List SignedUser} {any : Bool},
        (isUserIdRevoked V primary user = true ∨ uidReissueTemplate V primary user = none) →
        updateUserExpirations S duration now (i + 1) users = .ok (rest, any) →
        List.Forall₂ (UserReissued V primary duration) (user :: users) (user :: rest) ∧
          (any = true → ∃ u ∈ user :: rest, HasReissued V primary duration u) := by
      intro rest any hwhy hrest
      obtain ⟨hall, hany⟩ := ih hrest
      refine ⟨.cons (.kept hwhy) hall, fun h => ?_⟩
      obtain ⟨u, hu, hhas⟩ := hany h
      exact ⟨u, List.mem_cons_of_mem _ hu, hhas⟩
    rw [updateUserExpirations] at h
    split at h
    · next hrevoked =>
      obtain ⟨⟨rest, any⟩, hrest, hpair⟩ := bind_eq_ok.1 h
      cases hpair
      exact hkeep (Or.inl hrevoked) hrest
    · next hlive =>
      split at h
      · next htemplate =>
        obtain ⟨⟨rest, any⟩, hrest, hpair⟩ := bind_eq_ok.1 h
        cases hpair
        exact hkeep (Or.inr htemplate) hrest
      · next template htemplate =>
        obtain ⟨cfg, hcfg, h⟩ := bind_eq_ok.1 h
        obtain ⟨sig, hsign, h⟩ := bind_eq_ok.1 h
        obtain ⟨⟨rest, any⟩, hrest, hpair⟩ := bind_eq_ok.1 h
        cases hpair
        obtain ⟨hmem, hproperty⟩ := chooseTemplateSelfSig_some htemplate
        obtain ⟨-, -, hhash, heval⟩ := mem_verifiedUidSelfSigs.1 hmem
        obtain ⟨hmade, hverify⟩ := S.signCertification_ok hsign
        have hsig := (reissuedWith_of_build hcfg hmade hhash heval hproperty).1
        refine ⟨.cons (.reissued hsig hverify) (ih hrest).1, fun _ => ⟨_, List.mem_cons_self, ?_⟩⟩
        exact ⟨(isUserIdRevoked_reissued hsig.property).trans (by simpa using hlive), sig,
          hsig.mem_verified hverify, hsig⟩

/-- A verified self-signature an update replaces. -/
def Replaceable (primary : PublicKey) (sig : Signature) : Prop :=
  isPropertySelfSig sig = true ∧ namesPrimaryAsIssuer sig primary = true

/-- Of the signatures an update replaces, only the re-issued one is left. -/
theorem UserReissued.only {user user' : SignedUser} (h : UserReissued V primary duration user user')
    (hlive : isUserIdRevoked V primary user' = false) {sig : Signature}
    (hsig : sig ∈ verifiedUidSelfSigs V primary user') (hreplaceable : Replaceable primary sig) :
    ReissuedWith primary duration sig := by
  cases h with
  | kept hwhy =>
    rcases hwhy with hrevoked | hnone
    · simp [hrevoked] at hlive
    · have := chooseTemplateSelfSig_none hnone sig hsig
      simp [hreplaceable.1] at this
  | reissued hnew hverify =>
    rcases List.mem_append.1 (mem_verifiedUidSelfSigs.1 hsig).1 with hold | hold
    · have hkept := (List.mem_filter.1 hold).2
      simp [hreplaceable.1, hreplaceable.2] at hkept
    · cases List.mem_singleton.1 hold
      exact hnew

/-- Every verified certification of a user ID names the primary key. -/
def UserNamesIssuer (V : Verifier) (primary : PublicKey) (user : SignedUser) : Prop :=
  ∀ sig ∈ verifiedUidSelfSigs V primary user, sig.typ ≠ some .certRevocation →
    Replaceable primary sig

theorem UserReissued.namesIssuer {user user' : SignedUser}
    (h : UserReissued V primary duration user user') (hnames : UserNamesIssuer V primary user) :
    UserNamesIssuer V primary user' := by
  cases h with
  | kept _ => exact hnames
  | reissued hnew hverify =>
    intro sig hsig htyp
    obtain ⟨hmem, hrest⟩ := mem_verifiedUidSelfSigs.1 hsig
    rcases List.mem_append.1 hmem with hold | hold
    · exact hnames sig (mem_verifiedUidSelfSigs.2 ⟨(List.mem_filter.1 hold).1, hrest⟩) htyp
    · cases List.mem_singleton.1 hold
      exact ⟨hnew.property, hnew.issuer⟩

end

/-! ## What is read afterwards -/

section

variable {V : Verifier} {primary : PublicKey} {duration : Option UInt32}
  {users users' : List SignedUser} {details : SignedKeyDetails} {t : UInt32}

/-- The property self-signatures of the primary key that name it and speak for it: those on the key
itself in version 6, else those on the user IDs that are not revoked. -/
def primarySelfSigs (V : Verifier) (primary : PublicKey) (details : SignedKeyDetails) :
    List Signature :=
  (if primary.version = .v6 then
    (verifiedPrimarySelfSigs V primary details.directSignatures).filter fun sig =>
      decide (sig.typ = some .key)
  else
    (details.users.filter fun user => !isUserIdRevoked V primary user).flatMap
      (verifiedUidSelfSigs V primary)).filter fun sig =>
    isPropertySelfSig sig && namesPrimaryAsIssuer sig primary

/-- The bindings of a subkey that name the primary key. -/
def bindingSelfSigs (V : Verifier) (primary : PublicKey) (subkey : PublicSubkey)
    (signatures : List Signature) : List Signature :=
  (verifiedSubkeySelfSigs V primary subkey signatures).filter fun sig =>
    decide (sig.typ = some .subkeyBinding) && namesPrimaryAsIssuer sig primary

/-- The self-signatures that speak for the primary key name it. -/
structure PrimaryNamesIssuer (V : Verifier) (primary : PublicKey) (details : SignedKeyDetails) :
    Prop where
  direct : ∀ sig ∈ verifiedPrimarySelfSigs V primary details.directSignatures,
    sig.typ = some .key → namesPrimaryAsIssuer sig primary = true
  users : ∀ user ∈ details.users, UserNamesIssuer V primary user

/-- The bindings of a subkey name the primary key. -/
def BindingsNameIssuer (V : Verifier) (primary : PublicKey) (subkey : PublicSubkey)
    (signatures : List Signature) : Prop :=
  ∀ sig ∈ verifiedSubkeySelfSigs V primary subkey signatures,
    sig.typ = some .subkeyBinding → namesPrimaryAsIssuer sig primary = true

variable {sig : Signature}

theorem ReissuedWith.alive (h : ReissuedWith primary duration sig) : sigAliveAt sig t = true := by
  rw [sigAliveAt, h.neverEnds]

variable {sigs : List Signature}

theorem mem_verifiedPrimarySelfSigs :
    sig ∈ verifiedPrimarySelfSigs V primary sigs ↔ sig ∈ sigs ∧
      V.verifyKey sig primary = true ∧ certificationHashAcceptable sig.toSignatureCore = true ∧
        evaluableSelfSig sig = true := by
  rw [verifiedPrimarySelfSigs, List.mem_filter, Bool.and_eq_true, Bool.and_eq_true, and_assoc]

theorem mem_verifiedSubkeySelfSigs {subkey : PublicSubkey} :
    sig ∈ verifiedSubkeySelfSigs V primary subkey sigs ↔ sig ∈ sigs ∧
      V.verifySubkeyBinding sig primary subkey = true ∧
        certificationHashAcceptable sig.toSignatureCore = true ∧ evaluableSelfSig sig = true ∧
          pqBindingHashForbidden subkey sig = false := by
  simp only [verifiedSubkeySelfSigs, List.mem_filter, Bool.and_eq_true, Bool.not_eq_true', and_assoc]

/-- What an update leaves, and makes, for one component: everything it replaces is re-issued, at
least one signature is, and where all self-signatures name their issuer one of these is in force. -/
structure ComponentReissued (primary : PublicKey) (duration : Option UInt32)
    (selfSigs : List Signature) (named : Prop) (inForce : UInt32 → Option Signature) : Prop where
  all : ∀ sig ∈ selfSigs, ReissuedWith primary duration sig
  nonempty : ∃ sig, sig ∈ selfSigs
  speaks : named → ∀ t, ∃ sig, inForce t = some sig ∧ ReissuedWith primary duration sig

theorem sigInForce_reissued (hsig : sig ∈ sigs) (hall : ∀ s ∈ sigs, ReissuedWith primary duration s)
    (t : UInt32) : ∃ s, sigInForce sigs none t = some s ∧ ReissuedWith primary duration s := by
  obtain ⟨s, hs⟩ := sigInForce_exists (t := t) hsig fun s hs => (hall s hs).alive
  exact ⟨s, hs, hall s (sigInForce_mem hs)⟩

theorem isPropertySelfSig_of_key (h : sig.typ = some .key) : isPropertySelfSig sig = true := by
  rw [isPropertySelfSig, h]

/-- Version 6: the direct-key signature. -/
theorem direct_reissued {newSig : Signature} (hv6 : primary.version = .v6)
    (hnew : ReissuedWith primary duration newSig) (htyp : newSig.typ = some .key)
    (hverify : V.verifyKey newSig primary = true) :
    ComponentReissued primary duration
      (primarySelfSigs V primary { details with
        directSignatures := retireSelfSigs primary details.directSignatures ++ [newSig] })
      (PrimaryNamesIssuer V primary details)
      (primarySigInForce V primary { details with
        directSignatures := retireSelfSigs primary details.directSignatures ++ [newSig] } none) := by
  have hmem : newSig ∈ verifiedPrimarySelfSigs V primary
      (retireSelfSigs primary details.directSignatures ++ [newSig]) :=
    mem_verifiedPrimarySelfSigs.2 ⟨List.mem_append_right _ (List.mem_singleton.2 rfl), hverify,
      hnew.hash, hnew.evaluable⟩
  constructor
  · intro sig hsig
    rw [primarySelfSigs, if_pos hv6] at hsig
    obtain ⟨hsig, hreplaceable⟩ := List.mem_filter.1 hsig
    rw [Bool.and_eq_true] at hreplaceable
    have hsig := (mem_verifiedPrimarySelfSigs.1 (List.mem_filter.1 hsig).1).1
    rw [mem_retired hsig hreplaceable.1 hreplaceable.2]
    exact hnew
  · refine ⟨newSig, ?_⟩
    rw [primarySelfSigs, if_pos hv6]
    exact List.mem_filter.2 ⟨List.mem_filter.2 ⟨hmem, by simpa using htyp⟩,
      by simp [hnew.property, hnew.issuer]⟩
  · intro hnamed t
    rw [primarySigInForce, if_pos hv6]
    refine sigInForce_reissued (List.mem_filter.2 ⟨hmem, by simpa using htyp⟩) ?_ t
    intro sig hsig
    obtain ⟨hsig, hkey⟩ := List.mem_filter.1 hsig
    have hkey : sig.typ = some .key := by simpa using hkey
    obtain ⟨hsig, hverified⟩ := mem_verifiedPrimarySelfSigs.1 hsig
    rcases List.mem_append.1 hsig with hold | hlast
    · have hold := List.mem_filter.1 hold
      have hnames := hnamed.direct sig (mem_verifiedPrimarySelfSigs.2 ⟨hold.1, hverified⟩) hkey
      simp [isPropertySelfSig_of_key hkey, hnames] at hold
    · rw [List.mem_singleton.1 hlast]
      exact hnew

/-- Version 4: the certifications of the user IDs. -/
theorem users_reissued (hv4 : primary.version ≠ .v6)
    (hall : List.Forall₂ (UserReissued V primary duration) details.users users')
    (hsome : ∃ user ∈ users', HasReissued V primary duration user) :
    ComponentReissued primary duration (primarySelfSigs V primary { details with users := users' })
      (PrimaryNamesIssuer V primary details)
      (primarySigInForce V primary { details with users := users' } none) := by
  have hsource : ∀ user' ∈ users', ∃ user ∈ details.users,
      UserReissued V primary duration user user' := by
    intro user' huser'
    obtain ⟨hlen, hget⟩ := List.forall₂_iff_get.1 hall
    obtain ⟨i, hi⟩ := List.getElem?_of_mem huser'
    obtain ⟨hlt, rfl⟩ := List.getElem?_eq_some_iff.1 hi
    exact ⟨_, List.get_mem details.users ⟨i, hlen ▸ hlt⟩, hget i (hlen ▸ hlt) hlt⟩
  constructor
  · intro sig hsig
    rw [primarySelfSigs, if_neg hv4] at hsig
    obtain ⟨hsig, hreplaceable⟩ := List.mem_filter.1 hsig
    rw [Bool.and_eq_true] at hreplaceable
    obtain ⟨user', huser', hsig⟩ := List.mem_flatMap.1 hsig
    obtain ⟨huser', hlive⟩ := List.mem_filter.1 huser'
    obtain ⟨user, -, hrel⟩ := hsource user' huser'
    exact hrel.only (by simpa using hlive) hsig hreplaceable
  · obtain ⟨user, huser, hlive, sig, hsig, hnew⟩ := hsome
    refine ⟨sig, ?_⟩
    rw [primarySelfSigs, if_neg hv4]
    exact List.mem_filter.2 ⟨List.mem_flatMap.2 ⟨user,
      List.mem_filter.2 ⟨huser, by simpa using hlive⟩, hsig⟩, by simp [hnew.property, hnew.issuer]⟩
  · intro hnamed t
    have hcertified : ∀ user' ∈ users', isUserIdRevoked V primary user' = false →
        ∀ sig ∈ verifiedUidSelfSigs V primary user', sig.typ ≠ some .certRevocation →
          ReissuedWith primary duration sig := by
      intro user' huser' hlive sig hsig htyp
      obtain ⟨user, huser, hrel⟩ := hsource user' huser'
      exact hrel.only hlive hsig (hrel.namesIssuer (hnamed.users user huser) sig hsig htyp)
    obtain ⟨user, huser, hlive, newSig, hnewSig, hnew⟩ := hsome
    have htyp : newSig.typ ≠ some .certRevocation := by
      intro htyp
      have hproperty := hnew.property
      simp [isPropertySelfSig, htyp] at hproperty
    have hcandidate : newSig ∈ (verifiedUidSelfSigs V primary user).filter fun sig =>
        !decide (sig.typ = some .certRevocation) :=
      List.mem_filter.2 ⟨hnewSig, by simpa using htyp⟩
    obtain ⟨cert, hcert, -⟩ := sigInForce_reissued hcandidate
      (fun s hs => hcertified user huser hlive s (List.mem_filter.1 hs).1
        (by simpa using (List.mem_filter.1 hs).2)) t
    have huserCert : userCertification V primary none t user = some cert := by
      have hrevoked : userIdRevokedAt V primary user none = false := hlive
      rw [userCertification, hrevoked]
      exact hcert
    have hmem : user ∈ ({ details with users := users' } : SignedKeyDetails).users := huser
    obtain ⟨sig, hsig⟩ := uidCertificationInForce_exists hmem huserCert
    obtain ⟨speaker, hspeaker, hof⟩ := uidCertificationInForce_some hsig
    obtain ⟨hspeakerLive, hmem, hnot⟩ := userCertification_some hof
    refine ⟨sig, ?_, hcertified speaker hspeaker hspeakerLive sig hmem hnot⟩
    rw [primarySigInForce, if_neg hv4, hsig]
    rfl

/-- A subkey: its binding. -/
theorem binding_reissued {subkey : PublicSubkey} {newSig : Signature}
    (hnew : ReissuedWith primary duration newSig) (htyp : newSig.typ = some .subkeyBinding)
    (hverify : V.verifySubkeyBinding newSig primary subkey = true) :
    ComponentReissued primary duration
      (bindingSelfSigs V primary subkey (retireBindings primary sigs ++ [newSig]))
      (BindingsNameIssuer V primary subkey sigs)
      (subkeyBindingSignature V primary subkey (retireBindings primary sigs ++ [newSig])) := by
  have hmem : newSig ∈ verifiedSubkeySelfSigs V primary subkey
      (retireBindings primary sigs ++ [newSig]) :=
    mem_verifiedSubkeySelfSigs.2 ⟨List.mem_append_right _ (List.mem_singleton.2 rfl), hverify,
      hnew.hash, hnew.evaluable, hnew.bindingHash subkey⟩
  have hlast : ∀ sig ∈ retireBindings primary sigs ++ [newSig], sig.typ = some .subkeyBinding →
      namesPrimaryAsIssuer sig primary = true → ReissuedWith primary duration sig := by
    intro sig hsig hbinding hnames
    rcases List.mem_append.1 hsig with hold | hlast
    · have hkept := (List.mem_filter.1 hold).2
      simp [hbinding, hnames] at hkept
    · rw [List.mem_singleton.1 hlast]
      exact hnew
  constructor
  · intro sig hsig
    obtain ⟨hsig, hnames⟩ := List.mem_filter.1 hsig
    rw [Bool.and_eq_true] at hnames
    exact hlast sig (mem_verifiedSubkeySelfSigs.1 hsig).1 (by simpa using hnames.1) hnames.2
  · exact ⟨newSig, List.mem_filter.2 ⟨hmem, by simp [htyp, hnew.issuer]⟩⟩
  · intro hnamed t
    refine sigInForce_reissued (List.mem_filter.2 ⟨hmem, by simpa using htyp⟩) ?_ t
    intro sig hsig
    obtain ⟨hsig, hbinding⟩ := List.mem_filter.1 hsig
    have hbinding : sig.typ = some .subkeyBinding := by simpa using hbinding
    obtain ⟨hsig, hverified⟩ := mem_verifiedSubkeySelfSigs.1 hsig
    rcases List.mem_append.1 hsig with hold | hnewest
    · have hold := List.mem_filter.1 hold
      have hnames := hnamed sig (mem_verifiedSubkeySelfSigs.2 ⟨hold.1, hverified⟩) hbinding
      simp [hbinding, hnames] at hold
    · rw [List.mem_singleton.1 hnewest]
      exact hnew

end

/-! ## The component an update is of -/

section

variable (V : Verifier) (toUppercase : String → String) (sk : SignedSecretKey)
  (target : Option String)

/-- The subkey an update is of. -/
def targetSubkey : Option (PublicSubkey × List Signature) :=
  subkeyEntry toUppercase sk (targetFingerprint toUppercase target)

/-- When the component was created. -/
def componentCreatedAt : UInt32 :=
  if isPrimaryTarget toUppercase sk target then sk.primaryKey.createdAt
  else ((targetSubkey toUppercase sk target).map fun entry => entry.1.createdAt).getD 0

/-- The self-signatures of the component that name their issuer. -/
def componentSelfSigs : List Signature :=
  if isPrimaryTarget toUppercase sk target then primarySelfSigs V sk.primaryKey sk.details
  else ((targetSubkey toUppercase sk target).map fun entry =>
    bindingSelfSigs V sk.primaryKey entry.1 entry.2).getD []

/-- Every self-signature that may speak for the component names its issuer. -/
def SelfSigsNameIssuer : Prop :=
  if isPrimaryTarget toUppercase sk target then PrimaryNamesIssuer V sk.primaryKey sk.details
  else ∀ entry ∈ targetSubkey toUppercase sk target,
    BindingsNameIssuer V sk.primaryKey entry.1 entry.2

/-- The expiration the key list shows for the component. -/
def listedExpiration (t : UInt32) : UInt32 :=
  if isPrimaryTarget toUppercase sk target then primaryKeyExpiresAt V sk.primaryKey sk.details t
  else ((targetSubkey toUppercase sk target).map fun entry =>
    subkeyExpiresAt V sk.primaryKey entry.1 entry.2 t).getD 0

end

/-- The expiration set is the one read, in `sk'`: from every re-issued self-signature, and in the key
list where the self-signatures of the key as it was name their issuer. -/
structure ExpirationReads (V : Verifier) (toUppercase : String → String)
    (sk sk' : SignedSecretKey) (target : Option String) (expirationEpochSecs : UInt64) : Prop where
  reissued : ∀ sig ∈ componentSelfSigs V toUppercase sk' target,
    (expiryOf (some sig) (componentCreatedAt toUppercase sk' target)).toNat
      = expirationEpochSecs.toNat
  listed : SelfSigsNameIssuer V toUppercase sk target → ∀ t,
    (listedExpiration V toUppercase sk' target t).toNat = expirationEpochSecs.toNat

section

variable {V : Verifier} {R : PacketReader} {toUppercase : String → String} {sk sk' : SignedSecretKey}
  {S : Signer V R sk.primaryKey} {duration : Option UInt32}

theorem changeFirst_find {α : Type} {p : α → Bool} {f : α → Except GfrStatus α} {l l' : List α}
    (h : changeFirst p f l = .ok l') {a : α} (ha : l.find? p = some a) :
    ∃ b, f a = .ok b ∧ (p b = true → l'.find? p = some b) := by
  induction l generalizing l' with
  | nil => cases ha
  | cons x l ih =>
    rw [changeFirst] at h
    by_cases hx : p x = true
    · rw [if_pos hx] at h
      rw [List.find?_cons_of_pos hx] at ha
      cases ha
      obtain ⟨b, hb, hl'⟩ := bind_eq_ok.1 h
      cases hl'
      exact ⟨b, hb, fun hpb => List.find?_cons_of_pos hpb⟩
    · rw [if_neg hx] at h
      rw [List.find?_cons_of_neg hx] at ha
      obtain ⟨rest, hrest, hl'⟩ := bind_eq_ok.1 h
      cases hl'
      obtain ⟨b, hb, hfind⟩ := ih hrest ha
      exact ⟨b, hb, fun hpb => (List.find?_cons_of_neg hx).trans (hfind hpb)⟩

/-- The binding an update makes. -/
theorem updateBinding_ok {subkey : PublicSubkey} {sigs sigs' : List Signature} {now : UInt32}
    (h : updateBinding S subkey sigs duration now = .ok sigs') :
    ∃ newSig, ReissuedWith sk.primaryKey duration newSig ∧ newSig.typ = some .subkeyBinding ∧
      V.verifySubkeyBinding newSig sk.primaryKey subkey = true ∧
      sigs' = retireBindings sk.primaryKey sigs ++ [newSig] := by
  unfold updateBinding at h
  cases htemplate : bindingReissueTemplate V sk.primaryKey subkey sigs with
  | none =>
    rw [htemplate] at h
    cases h
  | some template =>
    rw [htemplate] at h
    obtain ⟨cfg, hcfg, h⟩ := bind_eq_ok.1 h
    obtain ⟨newSig, hsign, h⟩ := bind_eq_ok.1 h
    cases h
    obtain ⟨hmem, hproperty⟩ := chooseTemplateSelfSig_some htemplate
    obtain ⟨hmem, hbinding⟩ := List.mem_filter.1 hmem
    obtain ⟨-, -, hhash, heval, -⟩ := mem_verifiedSubkeySelfSigs.1 hmem
    obtain ⟨hmade, hverify⟩ := S.signSubkeyBinding_ok hsign
    obtain ⟨hnew, htyp⟩ := reissuedWith_of_build hcfg hmade hhash heval hproperty
    exact ⟨newSig, hnew, htyp.trans (by simpa using hbinding), hverify, rfl⟩

/-- The self-signatures of the primary key an update makes. -/
theorem updatePrimaryExpiration_ok {details : SignedKeyDetails} {now : Nat → UInt32}
    (h : updatePrimaryExpiration S sk.details duration now = .ok details) :
    ComponentReissued sk.primaryKey duration (primarySelfSigs V sk.primaryKey details)
      (PrimaryNamesIssuer V sk.primaryKey sk.details)
      (primarySigInForce V sk.primaryKey details none) := by
  unfold updatePrimaryExpiration at h
  by_cases hv6 : sk.primaryKey.version = .v6
  · rw [if_pos hv6] at h
    cases htemplate : directReissueTemplate V sk.primaryKey sk.details.directSignatures with
    | none =>
      rw [htemplate] at h
      cases h
    | some template =>
      rw [htemplate] at h
      obtain ⟨cfg, hcfg, h⟩ := bind_eq_ok.1 h
      obtain ⟨newSig, hsign, h⟩ := bind_eq_ok.1 h
      cases h
      obtain ⟨hmem, hproperty⟩ := chooseTemplateSelfSig_some htemplate
      obtain ⟨hmem, hkey⟩ := List.mem_filter.1 hmem
      obtain ⟨-, -, hhash, heval⟩ := mem_verifiedPrimarySelfSigs.1 hmem
      obtain ⟨hmade, hverify⟩ := S.signKey_ok hsign
      obtain ⟨hnew, htyp⟩ := reissuedWith_of_build hcfg hmade hhash heval hproperty
      exact direct_reissued hv6 hnew (htyp.trans (by simpa using hkey)) hverify
  · rw [if_neg hv6] at h
    obtain ⟨⟨users, any⟩, husers, h⟩ := bind_eq_ok.1 h
    cases any with
    | false => cases h
    | true =>
      cases h
      obtain ⟨hall, hsome⟩ := updateUserExpirations_ok husers
      exact users_reissued hv6 hall (hsome rfl)

/-- The subkey that is found again has the binding an update made. -/
theorem updateSubkeyExpiration_ok {fpr : String} {subkey : PublicSubkey} {sigs : List Signature}
    {now : UInt32} (hentry : subkeyEntry toUppercase sk fpr = some (subkey, sigs))
    (h : updateSubkeyExpiration toUppercase sk S fpr duration now = .ok sk') :
    sk'.primaryKey = sk.primaryKey ∧ ∃ sigs', updateBinding S subkey sigs duration now = .ok sigs' ∧
      subkeyEntry toUppercase sk' fpr = some (subkey, sigs') := by
  unfold updateSubkeyExpiration at h
  unfold subkeyEntry at hentry
  cases hsecret : sk.secretSubkeys.find? fun sub => toUppercase sub.key.fingerprint == fpr with
  | some sub =>
    have hkey : (toUppercase sub.key.fingerprint == fpr) = true := by
      have hfound := List.find?_some hsecret
      exact hfound
    have hany : (sk.secretSubkeys.any fun sub => toUppercase sub.key.fingerprint == fpr) = true :=
      List.any_eq_true.2 ⟨sub, List.mem_of_find?_eq_some hsecret, hkey⟩
    rw [if_pos hany] at h
    rw [hsecret] at hentry
    cases hentry
    obtain ⟨subkeys, hsubkeys, h⟩ := bind_eq_ok.1 h
    cases h
    obtain ⟨changed, hchanged, hfind⟩ := changeFirst_find hsubkeys hsecret
    obtain ⟨sigs', hsigs', hpair⟩ := bind_eq_ok.1 hchanged
    cases hpair
    refine ⟨rfl, sigs', hsigs', ?_⟩
    rw [subkeyEntry, hfind hkey]
    rfl
  | none =>
    have hany : ¬(sk.secretSubkeys.any fun sub => toUppercase sub.key.fingerprint == fpr) = true := by
      simpa using hsecret
    rw [if_neg hany] at h
    rw [hsecret] at hentry
    obtain ⟨sub, hpublic, hpair⟩ := Option.map_eq_some_iff.1 hentry
    cases hpair
    have hkey : (toUppercase sub.key.fingerprint == fpr) = true := by
      have hfound := List.find?_some hpublic
      exact hfound
    have hanyPublic :
        (sk.publicSubkeys.any fun sub => toUppercase sub.key.fingerprint == fpr) = true :=
      List.any_eq_true.2 ⟨sub, List.mem_of_find?_eq_some hpublic, hkey⟩
    rw [if_pos hanyPublic] at h
    obtain ⟨subkeys, hsubkeys, h⟩ := bind_eq_ok.1 h
    cases h
    obtain ⟨changed, hchanged, hfind⟩ := changeFirst_find hsubkeys hpublic
    obtain ⟨sigs', hsigs', hpair⟩ := bind_eq_ok.1 hchanged
    cases hpair
    refine ⟨rfl, sigs', hsigs', ?_⟩
    rw [subkeyEntry, hsecret, hfind hkey]
    rfl

/-- An accepted update re-issues what speaks for the component, with the duration of the time that
was given. -/
theorem updateKeyExpirationInternal_ok {target : Option String} {expirationEpochSecs : UInt64}
    {passphrase : Except GfrStatus Unit} {now : Nat → UInt32}
    (h : updateKeyExpirationInternal toUppercase sk S target expirationEpochSecs passphrase now
      = .ok sk') :
    ∃ (duration : Option UInt32) (inForce : UInt32 → Option Signature),
      expirationDuration (componentCreatedAt toUppercase sk' target) expirationEpochSecs
        = .ok duration ∧
      ComponentReissued sk.primaryKey duration (componentSelfSigs V toUppercase sk' target)
        (SelfSigsNameIssuer V toUppercase sk target) inForce ∧
      ∀ t, listedExpiration V toUppercase sk' target t
        = expiryOf (inForce t) (componentCreatedAt toUppercase sk' target) := by
  unfold updateKeyExpirationInternal at h
  split at h
  · cases h
  · obtain ⟨-, -, h⟩ := bind_eq_ok.1 h
    by_cases hprimary : isPrimaryTarget toUppercase sk target = true
    · rw [if_pos hprimary] at h
      obtain ⟨duration, hduration, h⟩ := bind_eq_ok.1 h
      obtain ⟨details, hdetails, h⟩ := bind_eq_ok.1 h
      cases h
      have hprimary' : isPrimaryTarget toUppercase { sk with details := details } target = true :=
        hprimary
      unfold componentCreatedAt componentSelfSigs SelfSigsNameIssuer listedExpiration
      simp only [if_pos hprimary, if_pos hprimary']
      exact ⟨duration, _, hduration, updatePrimaryExpiration_ok hdetails, fun t => rfl⟩
    · rw [if_neg hprimary] at h
      split at h
      · cases h
      · next subkey sigs hentry =>
        obtain ⟨duration, hduration, h⟩ := bind_eq_ok.1 h
        obtain ⟨hkey, sigs', hsigs', hentry'⟩ := updateSubkeyExpiration_ok hentry h
        obtain ⟨newSig, hnew, htyp, hverify, rfl⟩ := updateBinding_ok hsigs'
        have hprimary' : ¬isPrimaryTarget toUppercase sk' target = true := by
          rwa [isPrimaryTarget, hkey]
        have htarget : targetSubkey toUppercase sk target = some (subkey, sigs) := hentry
        have htarget' : targetSubkey toUppercase sk' target
            = some (subkey, retireBindings sk.primaryKey sigs ++ [newSig]) := hentry'
        unfold componentCreatedAt componentSelfSigs SelfSigsNameIssuer listedExpiration
        simp only [if_neg hprimary, if_neg hprimary', htarget, htarget', hkey, Option.map_some,
          Option.getD_some, Option.mem_some_iff, forall_eq']
        exact ⟨duration, _, hduration, binding_reissued hnew htyp hverify, fun t => rfl⟩

end

/-- **An accepted expiration is the one read afterwards exactly when it lies within 32 bits**: a
later one fits as a duration, and is read as the last second there is. -/
theorem updated_expiration_reads_iff {V : Verifier} {R : PacketReader}
    {toUppercase : String → String} {sk sk' : SignedSecretKey} {S : Signer V R sk.primaryKey}
    {target : Option String} {expirationEpochSecs : UInt64} {passphrase : Except GfrStatus Unit}
    {now : Nat → UInt32}
    (h : updateKeyExpirationInternal toUppercase sk S target expirationEpochSecs passphrase now
      = .ok sk') :
    ExpirationReads V toUppercase sk sk' target expirationEpochSecs ↔
      expirationEpochSecs.toNat < UInt32.size := by
  obtain ⟨duration, inForce, hduration, hcomponent, hlisted⟩ := updateKeyExpirationInternal_ok h
  have hread : ∀ sig, ReissuedWith sk.primaryKey duration sig →
      (expiryOf (some sig) (componentCreatedAt toUppercase sk' target)).toNat
        = min expirationEpochSecs.toNat (UInt32.size - 1) :=
    fun sig hsig => expiryOf_of_duration hduration hsig.keyExpiration
  constructor
  · intro hreads
    obtain ⟨sig, hsig⟩ := hcomponent.nonempty
    have hsame := hreads.reissued sig hsig
    rw [hread sig (hcomponent.all sig hsig)] at hsame
    simp only [UInt32.size] at hsame ⊢
    omega
  · intro hlt
    have hmin : min expirationEpochSecs.toNat (UInt32.size - 1) = expirationEpochSecs.toNat := by
      omega
    refine ⟨fun sig hsig => (hread sig (hcomponent.all sig hsig)).trans hmin, fun hnamed t => ?_⟩
    obtain ⟨sig, hsig, hnew⟩ := hcomponent.speaks hnamed t
    rw [hlisted t, hsig]
    exact (hread sig hnew).trans hmin

/-- A certification of the sample key, made when the key was. -/
def firstCertification : SignatureConfig where
  typ := .certPositive
  hashAlg := .sha256
  versionSpecific := .v4
  hashedSubpackets := [.regular (.issuerFingerprint "A"),
    .regular (.signatureCreationTime 1700000000), .regular (.keyFlags ⟨true, true, false, false, false⟩)]
  unhashedSubpackets := []

/-- The same, re-issued with an expiration. -/
def extendedCertification (secs : UInt32) : SignatureConfig :=
  { firstCertification with
    hashedSubpackets := [.regular (.keyFlags ⟨true, true, false, false, false⟩),
      .regular (.issuerFingerprint "A"), .regular (.signatureCreationTime 1750000000),
      .regular (.keyExpirationTime secs)]
    unhashedSubpackets := [.regular (.issuerKeyId "A")] }

def certifiedKey (cfg : SignatureConfig) : SignedSecretKey where
  primaryKey := { sampleKey "A" with createdAt := 1700000000 }
  secretParams := []
  details := ⟨[], [], [⟨⟨[97], "a"⟩, [cfg.toSignature [1]]⟩], []⟩
  publicSubkeys := []
  secretSubkeys := []

/-- Both signed by the key. -/
def expirationSigner (secs : UInt32) :
    Signer tagVerifier (tableReader [firstCertification, extendedCertification secs])
      (certifiedKey firstCertification).primaryKey :=
  tableSigner _ _

theorem extended_key_ok :
    updateKeyExpirationInternal id (certifiedKey firstCertification) (expirationSigner 100000000)
      none 1800000000 (.ok ()) (fun _ => 1750000000)
        = .ok (certifiedKey (extendedCertification 100000000)) := by
  rfl

theorem extended_expiration_reads :
    ExpirationReads tagVerifier id (certifiedKey firstCertification)
      (certifiedKey (extendedCertification 100000000)) none 1800000000 :=
  (updated_expiration_reads_iff extended_key_ok).2 (by decide)

/-- The first second beyond 32 bits is accepted, and read as the one before. -/
theorem late_expiration_reads_earlier :
    ¬∀ (V : Verifier) (R : PacketReader) (toUppercase : String → String)
      (sk sk' : SignedSecretKey) (S : Signer V R sk.primaryKey) (target : Option String)
      (expirationEpochSecs : UInt64) (passphrase : Except GfrStatus Unit) (now : Nat → UInt32),
      updateKeyExpirationInternal toUppercase sk S target expirationEpochSecs passphrase now
        = .ok sk' → ExpirationReads V toUppercase sk sk' target expirationEpochSecs := by
  intro h
  have hreads := h tagVerifier _ id (certifiedKey firstCertification)
    (certifiedKey (extendedCertification 2594967296)) (expirationSigner 2594967296) none 4294967296
    (.ok ()) (fun _ => 1750000000) rfl
  have hsame := hreads.reissued ((extendedCertification 2594967296).toSignature [1]) (by decide)
  exact absurd hsame (by decide)

end Rpgp

end GpgFrontend
