import GpgFrontend.Base.Results
import GpgFrontend.Rpgp.Reissue

/-!
# Adding, replacing and choosing user IDs (`rust/src/user_id.rs`)

Each edit signs a new certification over a user ID, made from the certification that speaks for the
key now or from that user ID's own.

The armored block is taken as parsed, and the result is the key that is exported. `passphrase` is the
outcome of asking for the passphrase and trying it.
-/

namespace GpgFrontend

namespace Rpgp

/-- The packet `UserId::from_str` makes. -/
def UserId.ofStr (s : String) : UserId := ⟨s.toUTF8.data.toList, s⟩

/-! ## The new certification -/

/-- The subpackets a new certification does not take over. -/
def certificationDropped : SubpacketContent → Bool
  | .signatureCreationTime _ | .issuerFingerprint _ | .issuerKeyId _ | .isPrimary _
  | .signatureExpirationTime _ => true
  | _ => false

section

variable {V : Verifier} {R : PacketReader} {primary : PublicKey} (S : Signer V R primary)

/-- `build_fallback`: a bare certification, in the version of the key. -/
def buildFallback : Except GfrStatus SignatureConfig :=
  if primary.version = .v6 then
    match S.saltLen .sha512 with
    | none => .error .errorInternal
    | some len => .ok ⟨.certPositive, .sha512, .v6 (S.freshSalt len), [], []⟩
  else .ok ⟨.certPositive, .sha512, .v4, [], []⟩

/-- The configuration a new certification starts from. -/
def baseConfig (template : Option Signature) : Except GfrStatus SignatureConfig :=
  match template.bind R.configOf with
  | some cfg => refreshReissuedConfig S cfg
  | none => buildFallback S

/-- `build_updated_self_sig_config`. -/
def buildUpdatedSelfSigConfig (template : Option Signature) (makePrimary : Bool) (now : UInt32) :
    Except GfrStatus SignatureConfig := do
  let cfg ← baseConfig S template
  .ok (stampConfig certificationDropped primary now
    (if makePrimary then [.isPrimary true] else []) cfg)

end

/-! ## Edits -/

section

variable {R : PacketReader} {V : Verifier} (sk : SignedSecretKey) (S : Signer V R sk.primaryKey)
  (passphrase : Except GfrStatus Unit)

/-- `add_user_id_internal`. -/
def addUserIdInternal (newUid : String) (now : UInt32) : Except GfrStatus SignedSecretKey :=
  if keyForbidden sk.primaryKey.publicParams then .error .errorUnusableKey
  else do
    passphrase
    let template := uidCertificationInForce V sk.primaryKey sk.details none now
    let cfg ← buildUpdatedSelfSigConfig S template false now
    let newSig ← S.signCertification cfg (UserId.ofStr newUid)
    .ok { sk with details := { sk.details with
      users := sk.details.users ++ [⟨UserId.ofStr newUid, [newSig]⟩] } }

/-- `delete_user_id_internal`, of a secret key: every user ID with this text goes, but not the last
of a version 4 key. -/
def deleteUserIdInternal (targetUid : String) : Except GfrStatus SignedSecretKey :=
  let users := sk.details.users.filter fun u => decide (u.id.text ≠ targetUid)
  if users.length = sk.details.users.length then .error .errorInvalidInput
  else if sk.primaryKey.version = .v4 ∧ users.isEmpty then .error .errorInvalidInput
  else .ok { sk with details := { sk.details with users := users } }

/-- `update_user_id_internal`: the new one is added, then the old one deleted. -/
def updateUserIdInternal (oldUid newUid : String) (now : UInt32) :
    Except GfrStatus SignedSecretKey :=
  if oldUid = newUid then
    if sk.details.users.any fun u => decide (u.id.id = (UserId.ofStr oldUid).id) then .ok sk
    else .error .errorInvalidInput
  else do
    let withNew ← addUserIdInternal sk S passphrase newUid now
    deleteUserIdInternal withNew oldUid

/-- Whether the newest certification of `user` marks it primary, in `set_primary_user_id_internal`. -/
def markedPrimary (V : Verifier) (primary : PublicKey) (user : SignedUser) : Bool :=
  (uidReissueTemplate V primary user).any fun sig => sig.isPrimary

/-- The new signatures of one user ID, in `set_primary_user_id_internal`. -/
def remarkUser (inForce : Option Signature) (isTarget : Bool) (now : UInt32) (user : SignedUser) :
    Except GfrStatus SignedUser :=
  if isUserIdRevoked V sk.primaryKey user
      || (!isTarget && !markedPrimary V sk.primaryKey user) then .ok user
  else do
    let own := uidReissueTemplate V sk.primaryKey user
    let template := if isTarget then own.or inForce else own
    let cfg ← buildUpdatedSelfSigConfig S template isTarget now
    let newSig ← S.signCertification cfg user.id
    .ok { user with signatures := retireSelfSigs sk.primaryKey user.signatures ++ [newSig] }

/-- The loop of `set_primary_user_id_internal`, from user ID number `i` on. `now` is the clock, read
once a user ID. -/
def remarkUsers (inForce : Option Signature) (targetIdx : Nat) (now : Nat → UInt32) :
    Nat → List SignedUser → Except GfrStatus (List SignedUser)
  | _, [] => .ok []
  | i, user :: users => do
    let remarked ← remarkUser sk S inForce (decide (i = targetIdx)) (now i) user
    let rest ← remarkUsers inForce targetIdx now (i + 1) users
    .ok (remarked :: rest)

/-- `set_primary_user_id_internal`. `clock` is read for the certification in force. -/
def setPrimaryUserIdInternal (targetUid : String) (clock : UInt32) (now : Nat → UInt32) :
    Except GfrStatus SignedSecretKey :=
  if keyForbidden sk.primaryKey.publicParams then .error .errorUnusableKey
  else
    match sk.details.users.findIdx? fun u => decide (u.id.text = targetUid) with
    | none => .error .errorInvalidInput
    | some targetIdx => do
      passphrase
      let inForce := uidCertificationInForce V sk.primaryKey sk.details none clock
      if sk.details.users[targetIdx]?.any fun user => isUserIdRevoked V sk.primaryKey user then
        .error .errorInvalidInput
      else do
        let users ← remarkUsers sk S inForce targetIdx now 0 sk.details.users
        .ok { sk with details := { sk.details with users := moveToFront users targetIdx } }

end

/-! ## What a certification says of the key -/

/-- The Key Flags, the expiration and the algorithm preferences of a key. -/
structure Properties where
  keyFlags : Option KeyFlags
  keyExpirationTime : Option UInt32
  symmetric : List SymmetricKeyAlgorithm
  hash : List HashAlgorithm
  compression : List UInt8
  aead : List (SymmetricKeyAlgorithm × AeadAlgorithm)
deriving DecidableEq, Repr

def SignatureConfig.properties (cfg : SignatureConfig) : Properties where
  keyFlags := cfg.firstHashed SubpacketContent.flags
  keyExpirationTime := cfg.keyExpirationTime
  symmetric := cfg.preferredSymmetricAlgs
  hash := cfg.preferredHashAlgs
  compression := cfg.preferredCompressionAlgs
  aead := cfg.preferredAeadAlgs

/-- Those of a key nothing speaks for. -/
def noProperties : Properties := ⟨none, none, [], [], [], []⟩

/-- What `sig` says, as its accessors answer: nothing in an unknown version. -/
def propertiesOf (R : PacketReader) (sig : Option Signature) : Properties :=
  ((sig.bind R.configOf).map SignatureConfig.properties).getD noProperties

/-- What is known of a certification an edit made from `template`. -/
structure NewCertification (R : PacketReader) (primary : PublicKey) (template : Option Signature)
    (makePrimary : Bool) (now : UInt32) (sig : Signature) : Prop where
  created : sig.created = some now
  neverEnds : sig.signatureExpirationTime = none
  isPrimary : sig.isPrimary = makePrimary
  issuer : namesPrimaryAsIssuer sig primary = true
  typ : sig.typ = some .certPositive ∨ ∃ t, template = some t ∧ sig.typ = t.typ
  hash : certificationHashAcceptable sig.toSignatureCore = true
  evaluable : evaluableSelfSig sig = true
  properties : propertiesOf R (some sig) = propertiesOf R template

/-- Two configurations that answer alike, but for what a new certification does not take over, say
the same of the key. -/
theorem properties_congr {cfg cfg' : SignatureConfig}
    (h : ∀ {α : Type} (select : SubpacketContent → Option α),
      (∀ content, (select content).isSome → certificationDropped content = false) →
        select .revocationKey = none → cfg.firstHashed select = cfg'.firstHashed select) :
    cfg.properties = cfg'.properties := by
  have hflags := h SubpacketContent.flags
    (by rintro (_ | _) hsome <;> first | rfl | cases hsome) rfl
  have hlifetime := h SubpacketContent.keyLifetime
    (by rintro (_ | _) hsome <;> first | rfl | cases hsome) rfl
  have hsymmetric := h SubpacketContent.symmetricAlgs
    (by rintro (_ | _) hsome <;> first | rfl | cases hsome) rfl
  have hhash := h SubpacketContent.hashAlgs
    (by rintro (_ | _) hsome <;> first | rfl | cases hsome) rfl
  have hcompression := h SubpacketContent.compressionAlgs
    (by rintro (_ | _) hsome <;> first | rfl | cases hsome) rfl
  have haead := h SubpacketContent.aeadAlgs
    (by rintro (_ | _) hsome <;> first | rfl | cases hsome) rfl
  simp only [SignatureConfig.properties, SignatureConfig.keyExpirationTime,
    SignatureConfig.preferredSymmetricAlgs, SignatureConfig.preferredHashAlgs,
    SignatureConfig.preferredCompressionAlgs, SignatureConfig.preferredAeadAlgs, hflags, hlifetime,
    hsymmetric, hhash, hcompression, haead]

section

variable {V : Verifier} {R : PacketReader} {primary : PublicKey} {S : Signer V R primary}
  {template : Option Signature} {makePrimary : Bool} {now : UInt32} {cfg base : SignatureConfig}

theorem buildFallback_ok (h : buildFallback S = .ok base) :
    base.typ = .certPositive ∧ base.hashAlg = .sha512 ∧ base.hashedSubpackets = [] := by
  unfold buildFallback at h
  split at h
  · split at h
    · cases h
    · cases h
      exact ⟨rfl, rfl, rfl⟩
  · cases h
    exact ⟨rfl, rfl, rfl⟩

/-- What is stamped is sound, says what the template says, and is of its type or a positive
certification. -/
theorem baseConfig_ok (h : baseConfig S template = .ok base)
    (htemplate : ∀ t, template = some t →
      certificationHashAcceptable t.toSignatureCore = true ∧ evaluableSelfSig t = true) :
    SoundConfig base ∧ base.properties = propertiesOf R template ∧
      (base.typ = .certPositive ∨ ∃ t, template = some t ∧ some base.typ = t.typ) := by
  unfold baseConfig at h
  cases hread : template.bind R.configOf with
  | none =>
    rw [hread] at h
    obtain ⟨htyp, hhash, hhashed⟩ := buildFallback_ok h
    refine ⟨⟨by rw [hhash]; decide, fun bytes => ?_⟩, ?_, Or.inl htyp⟩
    · rw [evaluable_iff, hhashed]
      exact Or.inr fun sp hsp => by cases hsp
    · have hbare : base.properties = SignatureConfig.properties ⟨.certPositive, .sha512, .v4, [], []⟩ :=
        properties_congr fun select _ _ => by rw [SignatureConfig.firstHashed, hhashed]; rfl
      rw [propertiesOf, hread, hbare]
      rfl
  | some old =>
    rw [hread] at h
    obtain ⟨t, rfl, hold⟩ := Option.bind_eq_some_iff.1 hread
    have hrefreshed := refreshed_of_ok S h
    obtain ⟨hhash, heval⟩ := htemplate t rfl
    refine ⟨hrefreshed.sound S hold hhash heval, ?_, Or.inr ⟨t, rfl, ?_⟩⟩
    · rw [propertiesOf, hread]
      exact properties_congr fun select _ hrevocationKey =>
        hrefreshed.firstHashed_eq S hrevocationKey
    · rw [R.configOf_reads hold, hrefreshed.typ]
      rfl

/-- The subpackets a new certification takes over are read as in what it starts from. -/
theorem firstHashed_certification {α : Type} {select : SubpacketContent → Option α}
    (hkeep : ∀ content, (select content).isSome → certificationDropped content = false) :
    (stampConfig certificationDropped primary now
      (if makePrimary then [.isPrimary true] else []) base).firstHashed select
        = base.firstHashed select := by
  have hpushed : (SubpacketContent.issuerFingerprint primary.fingerprint ::
      .signatureCreationTime now :: (if makePrimary then [.isPrimary true] else [])).findSome? select
        = none := by
    refine List.findSome?_eq_none_iff.2 fun content hmem => ?_
    by_contra hsome
    have hkept := hkeep content (Option.isSome_iff_ne_none.2 hsome)
    have hdropped : certificationDropped content = true := by
      rcases List.mem_cons.1 hmem with rfl | hmem
      · rfl
      · rcases List.mem_cons.1 hmem with rfl | hmem
        · rfl
        · split at hmem
          · cases List.mem_singleton.1 hmem
            rfl
          · cases hmem
    simp [hkept] at hdropped
  rw [firstHashed_stampConfig, hpushed, firstHashed_strip_same _ _ _ hkeep, Option.or_none]

theorem newCertification_of_build {sig : Signature}
    (h : buildUpdatedSelfSigConfig S template makePrimary now = .ok cfg)
    (hmade : MadeFrom R cfg sig)
    (htemplate : ∀ t, template = some t →
      certificationHashAcceptable t.toSignatureCore = true ∧ evaluableSelfSig t = true) :
    NewCertification R primary template makePrimary now sig := by
  obtain ⟨base, hbase, hcfg⟩ := bind_eq_ok.1 h
  cases hcfg
  obtain ⟨hsound, hproperties, htyp⟩ := baseConfig_ok hbase htemplate
  generalize hextra : (if makePrimary then [SubpacketContent.isPrimary true] else []) = extra at hmade
  have hstamped : SoundConfig (stampConfig certificationDropped primary now extra base) :=
    hsound.stamp certificationDropped now extra
  obtain ⟨hconfig, hversion⟩ := hmade
  obtain ⟨bytes, rfl⟩ : ∃ bytes, sig = SignatureConfig.toSignature _ bytes :=
    ⟨_, R.configOf_reads hconfig⟩
  have hdropped : ∀ {α : Type} (select : SubpacketContent → Option α),
      (∀ content, (select content).isSome → certificationDropped content = true) →
      (stampConfig certificationDropped primary now extra base).firstHashed select
        = (.issuerFingerprint primary.fingerprint :: .signatureCreationTime now :: extra).findSome?
            select := by
    intro α select hdrop
    rw [firstHashed_stampConfig, firstHashed_strip_none _ _ _ hdrop, Option.none_or]
  refine ⟨?_, ?_, ?_, stampConfig_namesPrimary base certificationDropped primary now extra bytes,
    ?_, hstamped.hashAcceptable bytes, hstamped.evaluable bytes, ?_⟩
  · have hcreated : (stampConfig certificationDropped primary now extra base).created
        = (stampConfig certificationDropped primary now extra base).firstHashed
            SubpacketContent.creationSecs := by
      unfold SignatureConfig.created
      rcases hversion with hversion | ⟨salt, hversion⟩ <;> rw [hversion]
    refine hcreated.trans (hdropped _ ?_)
    rintro (_ | _) hsome <;> first | rfl | cases hsome
  · refine (hdropped SubpacketContent.signatureLifetime ?_).trans ?_
    · rintro (_ | _) hsome <;> first | rfl | cases hsome
    · rw [← hextra]
      cases makePrimary <;> rfl
  · have hmark : (stampConfig certificationDropped primary now extra base).firstHashed
        SubpacketContent.primaryMark = if makePrimary then some true else none := by
      refine (hdropped SubpacketContent.primaryMark ?_).trans ?_
      · rintro (_ | _) hsome <;> first | rfl | cases hsome
      · rw [← hextra]
        cases makePrimary <;> rfl
    show ((stampConfig certificationDropped primary now extra base).firstHashed
      SubpacketContent.primaryMark).getD false = makePrimary
    rw [hmark]
    cases makePrimary <;> rfl
  · have htypes : (stampConfig certificationDropped primary now extra base).typ = base.typ :=
      (stampConfig_fields base certificationDropped primary now extra).1
    rcases htyp with htyp | ⟨t, ht, htyp⟩
    · exact Or.inl (congrArg some (htypes.trans htyp))
    · exact Or.inr ⟨t, ht, (congrArg some htypes).trans htyp⟩
  · rw [← hproperties, propertiesOf, Option.bind_some, hconfig]
    refine properties_congr fun select hkeep _ => ?_
    rw [← hextra]
    exact firstHashed_certification hkeep

end

end Rpgp

end GpgFrontend
