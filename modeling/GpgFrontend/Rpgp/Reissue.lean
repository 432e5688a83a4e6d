import GpgFrontend.Rpgp.PacketOrder

/-!
# Re-issuing a self-signature (`rust/src/utils.rs`, `rust/src/key.rs`)

An edit of a key signs one of its self-signatures anew. The configuration of the newest verified
one is the template: some subpackets are taken out, others pushed, and the primary key signs it.

- `SignatureConfig`: what a signature is made from, its subpackets in two areas.
- `Refreshed.sound`: what is made from a template that counts, counts.
-/

namespace GpgFrontend

namespace Rpgp

/-! ## Signature configurations -/

inductive AeadAlgorithm
  | eax | ocb | gcm
  | other (n : UInt8)
deriving DecidableEq, Repr

/-- The Features subpacket, as far as the engine reads it. -/
structure Features where
  seipdV1 : Bool
  seipdV2 : Bool
deriving DecidableEq, Repr

/-- The content of a subpacket. -/
inductive SubpacketContent
  | signatureCreationTime (secs : UInt32)
  | signatureExpirationTime (secs : UInt32)
  | keyExpirationTime (secs : UInt32)
  | issuerFingerprint (fpr : String)
  | issuerKeyId (id : String)
  | isPrimary (marked : Bool)
  | keyFlags (flags : KeyFlags)
  | preferredSymmetricAlgorithms (algs : List SymmetricKeyAlgorithm)
  | preferredHashAlgorithms (algs : List HashAlgorithm)
  | preferredCompressionAlgorithms (algs : List UInt8)
  | preferredAeadAlgorithms (algs : List (SymmetricKeyAlgorithm × AeadAlgorithm))
  | features (f : Features)
  | revocationReason (code : RevocationCode)
  | embeddedSignature (core : SignatureCore)
  | revocationKey
  | notationData | experimental | policyURI | regularExpression | trustSignature | signatureTarget
  | other (kind : UInt8)
deriving DecidableEq, Repr

/-- The kind a subpacket is listed under in `Signature.config`. -/
def SubpacketContent.kind : SubpacketContent → SubpacketData
  | .keyFlags _ => .keyFlags
  | .notationData => .notationData
  | .experimental => .experimental
  | .policyURI => .policyURI
  | .regularExpression => .regularExpression
  | .trustSignature => .trustSignature
  | .signatureTarget => .signatureTarget
  | _ => .other

namespace SubpacketContent

def creationSecs : SubpacketContent → Option UInt32
  | .signatureCreationTime secs => some secs
  | _ => none

def signatureLifetime : SubpacketContent → Option UInt32
  | .signatureExpirationTime secs => some secs
  | _ => none

def keyLifetime : SubpacketContent → Option UInt32
  | .keyExpirationTime secs => some secs
  | _ => none

def primaryMark : SubpacketContent → Option Bool
  | .isPrimary marked => some marked
  | _ => none

def flags : SubpacketContent → Option KeyFlags
  | .keyFlags flags => some flags
  | _ => none

def symmetricAlgs : SubpacketContent → Option (List SymmetricKeyAlgorithm)
  | .preferredSymmetricAlgorithms algs => some algs
  | _ => none

def hashAlgs : SubpacketContent → Option (List HashAlgorithm)
  | .preferredHashAlgorithms algs => some algs
  | _ => none

def compressionAlgs : SubpacketContent → Option (List UInt8)
  | .preferredCompressionAlgorithms algs => some algs
  | _ => none

def aeadAlgs : SubpacketContent → Option (List (SymmetricKeyAlgorithm × AeadAlgorithm))
  | .preferredAeadAlgorithms algs => some algs
  | _ => none

def featureFlags : SubpacketContent → Option Features
  | .features f => some f
  | _ => none

def reasonCode : SubpacketContent → Option RevocationCode
  | .revocationReason code => some code
  | _ => none

def issuerFpr : SubpacketContent → Option String
  | .issuerFingerprint fpr => some fpr
  | _ => none

def issuerId : SubpacketContent → Option String
  | .issuerKeyId id => some id
  | _ => none

def embedded : SubpacketContent → Option SignatureCore
  | .embeddedSignature core => some core
  | _ => none

end SubpacketContent

structure ConfigSubpacket where
  isCritical : Bool
  content : SubpacketContent
deriving DecidableEq, Repr

/-- `Subpacket::regular`. -/
def ConfigSubpacket.regular (content : SubpacketContent) : ConfigSubpacket := ⟨false, content⟩

/-- Version 3 packets and older carry their date and issuer outside the subpackets. -/
inductive SignatureVersionSpecific
  | v2 (created : UInt32) (issuerKeyId : String)
  | v3 (created : UInt32) (issuerKeyId : String)
  | v4
  | v6 (salt : List UInt8)
deriving DecidableEq, Repr

structure SignatureConfig where
  typ : SignatureType
  hashAlg : HashAlgorithm
  versionSpecific : SignatureVersionSpecific
  hashedSubpackets : List ConfigSubpacket
  unhashedSubpackets : List ConfigSubpacket
deriving DecidableEq, Repr

namespace SignatureConfig

variable (cfg : SignatureConfig)

/-- The first hashed subpacket that answers. -/
def firstHashed {α : Type} (select : SubpacketContent → Option α) : Option α :=
  cfg.hashedSubpackets.findSome? fun sp => select sp.content

/-- Every subpacket that answers, of both areas. -/
def allSelected {α : Type} (select : SubpacketContent → Option α) : List α :=
  (cfg.hashedSubpackets ++ cfg.unhashedSubpackets).filterMap fun sp => select sp.content

def created : Option UInt32 :=
  match cfg.versionSpecific with
  | .v2 secs _ | .v3 secs _ => some secs
  | _ => cfg.firstHashed SubpacketContent.creationSecs

def signatureExpirationTime : Option UInt32 :=
  cfg.firstHashed SubpacketContent.signatureLifetime

def keyExpirationTime : Option UInt32 :=
  cfg.firstHashed SubpacketContent.keyLifetime

def isPrimary : Bool :=
  (cfg.firstHashed SubpacketContent.primaryMark).getD false

def keyFlags : KeyFlags :=
  (cfg.firstHashed SubpacketContent.flags).getD
    ⟨false, false, false, false, false⟩

def preferredSymmetricAlgs : List SymmetricKeyAlgorithm :=
  (cfg.firstHashed SubpacketContent.symmetricAlgs).getD []

def preferredHashAlgs : List HashAlgorithm :=
  (cfg.firstHashed SubpacketContent.hashAlgs).getD []

def preferredCompressionAlgs : List UInt8 :=
  (cfg.firstHashed SubpacketContent.compressionAlgs).getD []

def preferredAeadAlgs : List (SymmetricKeyAlgorithm × AeadAlgorithm) :=
  (cfg.firstHashed SubpacketContent.aeadAlgs).getD []

def features : Option Features :=
  cfg.firstHashed SubpacketContent.featureFlags

def revocationReasonCode : Option RevocationCode :=
  cfg.firstHashed SubpacketContent.reasonCode

def issuerFingerprint : List String :=
  cfg.allSelected SubpacketContent.issuerFpr

def issuerKeyId : List String :=
  match cfg.versionSpecific with
  | .v2 _ id | .v3 _ id => [id]
  | _ => cfg.allSelected SubpacketContent.issuerId

/-- An embedded signature speaks for itself, so either area may hold it. -/
def embeddedSignature : Option SignatureCore :=
  (cfg.allSelected SubpacketContent.embedded).head?

/-- The packet made from this configuration, by its octets. -/
def toSignature (bytes : List UInt8) : Signature where
  bytes := bytes
  typ := some cfg.typ
  created := cfg.created
  hashAlg := some cfg.hashAlg
  config := some (cfg.hashedSubpackets.map fun sp => ⟨sp.isCritical, sp.content.kind⟩)
  signatureExpirationTime := cfg.signatureExpirationTime
  keyExpirationTime := cfg.keyExpirationTime
  isPrimary := cfg.isPrimary
  keyFlags := cfg.keyFlags
  revocationReasonCode := cfg.revocationReasonCode
  issuerFingerprint := cfg.issuerFingerprint
  issuerKeyId := cfg.issuerKeyId
  embeddedSignature := cfg.embeddedSignature

/-- Both areas without the subpackets `drop` names. -/
def strip (drop : SubpacketContent → Bool) : SignatureConfig :=
  { cfg with
    hashedSubpackets := cfg.hashedSubpackets.filter fun sp => !drop sp.content
    unhashedSubpackets := cfg.unhashedSubpackets.filter fun sp => !drop sp.content }

def pushHashed (content : SubpacketContent) : SignatureConfig :=
  { cfg with hashedSubpackets := cfg.hashedSubpackets ++ [.regular content] }

def pushUnhashed (content : SubpacketContent) : SignatureConfig :=
  { cfg with unhashedSubpackets := cfg.unhashedSubpackets ++ [.regular content] }

end SignatureConfig

/-! ## The packet library -/

/-- `sig.config()`: `none` for a version the library does not know. -/
structure PacketReader where
  configOf : Signature → Option SignatureConfig
  configOf_reads : ∀ {sig : Signature} {cfg : SignatureConfig},
    configOf sig = some cfg → sig = cfg.toSignature sig.bytes

/-- What is known of a signature made from `cfg`: its configuration, and that it is of a version
the library still makes. -/
structure MadeFrom (R : PacketReader) (cfg : SignatureConfig) (sig : Signature) : Prop where
  configOf_eq : R.configOf sig = some cfg
  version : cfg.versionSpecific = .v4 ∨ ∃ salt, cfg.versionSpecific = .v6 salt

/-- The primary key, unlocked: `SigningKey::hash_alg`, the salts the library draws and the three
ways to sign. What it signs verifies. -/
structure Signer (V : Verifier) (R : PacketReader) (primary : PublicKey) where
  hashAlg : HashAlgorithm
  hashAlg_strong : hashAlg ∉ [HashAlgorithm.none, .md5, .sha1, .ripemd160]
  saltLen : HashAlgorithm → Option Nat
  freshSalt : Nat → List UInt8
  signKey : SignatureConfig → Except GfrStatus Signature
  signCertification : SignatureConfig → UserId → Except GfrStatus Signature
  signSubkeyBinding : SignatureConfig → PublicSubkey → Except GfrStatus Signature
  signKey_ok : ∀ {cfg : SignatureConfig} {sig : Signature}, signKey cfg = .ok sig →
    MadeFrom R cfg sig ∧ V.verifyKey sig primary = true
  signCertification_ok : ∀ {cfg : SignatureConfig} {id : UserId} {sig : Signature},
    signCertification cfg id = .ok sig →
      MadeFrom R cfg sig ∧ V.verifyCertification sig primary id = true
  signSubkeyBinding_ok : ∀ {cfg : SignatureConfig} {subkey : PublicSubkey} {sig : Signature},
    signSubkeyBinding cfg subkey = .ok sig →
      MadeFrom R cfg sig ∧ V.verifySubkeyBinding sig primary subkey = true

/-! ## Templates -/

/-- `is_property_self_sig`: the types that carry a key's properties, not its revocations. -/
def isPropertySelfSig (sig : Signature) : Bool :=
  match sig.typ with
  | some .certGeneric | some .certPersona | some .certCasual | some .certPositive
  | some .subkeyBinding | some .key => true
  | _ => false

/-- `choose_template_self_sig`: the newest, of several the last. -/
def chooseTemplateSelfSig (selfSigs : List Signature) : Option Signature :=
  maxByKey sigSecs (selfSigs.filter isPropertySelfSig)

section

variable (V : Verifier)

/-- `uid_reissue_template`. -/
def uidReissueTemplate (primary : PublicKey) (user : SignedUser) : Option Signature :=
  chooseTemplateSelfSig (verifiedUidSelfSigs V primary user)

/-- `direct_reissue_template`. -/
def directReissueTemplate (primary : PublicKey) (signatures : List Signature) :
    Option Signature :=
  chooseTemplateSelfSig ((verifiedPrimarySelfSigs V primary signatures).filter fun sig =>
    decide (sig.typ = some .key))

/-- `binding_reissue_template`. -/
def bindingReissueTemplate (primary : PublicKey) (subkey : PublicSubkey)
    (signatures : List Signature) : Option Signature :=
  chooseTemplateSelfSig ((verifiedSubkeySelfSigs V primary subkey signatures).filter fun sig =>
    decide (sig.typ = some .subkeyBinding))

end

/-! ## What a re-issue does to its template -/

section

variable {V : Verifier} {R : PacketReader} {primary : PublicKey} (S : Signer V R primary)

/-- The hashes nothing new is signed with. -/
def weakSignatureHash : HashAlgorithm → Bool
  | .md5 | .sha1 | .ripemd160 => true
  | _ => false

/-- `refresh_reissued_config`: a weak hash is replaced, a Revocation Key dropped, and a version 6
salt drawn anew for the hash. -/
def refreshReissuedConfig (cfg : SignatureConfig) : Except GfrStatus SignatureConfig :=
  let hash := if weakSignatureHash cfg.hashAlg then S.hashAlg else cfg.hashAlg
  let rehashed : SignatureConfig := { cfg with hashAlg := hash }
  let refreshed := rehashed.strip fun content => decide (content = .revocationKey)
  match refreshed.versionSpecific with
  | .v6 _ =>
    match S.saltLen hash with
    | none => .error .errorInternal
    | some len => .ok { refreshed with versionSpecific := .v6 (S.freshSalt len) }
  | _ => .ok refreshed

end

/-- `push_issuer`. -/
def pushIssuer (cfg : SignatureConfig) (primary : PublicKey) : SignatureConfig :=
  let named := cfg.pushHashed (.issuerFingerprint primary.fingerprint)
  match cfg.versionSpecific with
  | .v4 => named.pushUnhashed (.issuerKeyId primary.legacyKeyId)
  | _ => named

/-- The end of every re-issue: the subpackets `drop` names are taken out, and the issuer, the
date and then `extra` pushed. -/
def stampConfig (drop : SubpacketContent → Bool) (primary : PublicKey) (now : UInt32)
    (extra : List SubpacketContent) (cfg : SignatureConfig) : SignatureConfig :=
  extra.foldl SignatureConfig.pushHashed
    ((pushIssuer (cfg.strip drop) primary).pushHashed (.signatureCreationTime now))

/-- The signatures an edit keeps: not those that name the primary key and are of a type the
re-issued one replaces. -/
def retireSelfSigs (primary : PublicKey) (signatures : List Signature) : List Signature :=
  signatures.filter fun sig => !(namesPrimaryAsIssuer sig primary && isPropertySelfSig sig)

/-! ## Reading a re-issued signature -/

section

variable {α : Type} (select : SubpacketContent → Option α) (cfg : SignatureConfig)

theorem pushIssuer_hashed (primary : PublicKey) :
    (pushIssuer cfg primary).hashedSubpackets
      = cfg.hashedSubpackets ++ [.regular (.issuerFingerprint primary.fingerprint)] := by
  unfold pushIssuer
  split <;> rfl

theorem pushIssuer_fields (primary : PublicKey) :
    (pushIssuer cfg primary).typ = cfg.typ ∧ (pushIssuer cfg primary).hashAlg = cfg.hashAlg ∧
      (pushIssuer cfg primary).versionSpecific = cfg.versionSpecific := by
  unfold pushIssuer
  split <;> exact ⟨rfl, rfl, rfl⟩

/-- Pushing touches the hashed area only, at its end. -/
theorem foldl_pushHashed (extra : List SubpacketContent) :
    extra.foldl SignatureConfig.pushHashed cfg
      = { cfg with hashedSubpackets := cfg.hashedSubpackets ++ extra.map .regular } := by
  induction extra generalizing cfg with
  | nil => simp
  | cons content extra ih =>
    rw [List.foldl_cons, ih]
    simp [SignatureConfig.pushHashed]

variable (drop : SubpacketContent → Bool) (primary : PublicKey) (now : UInt32)
  (extra : List SubpacketContent)

theorem stampConfig_hashed :
    (stampConfig drop primary now extra cfg).hashedSubpackets
      = (cfg.hashedSubpackets.filter fun sp => !drop sp.content)
        ++ (.issuerFingerprint primary.fingerprint :: .signatureCreationTime now :: extra).map
          .regular := by
  simp [stampConfig, foldl_pushHashed, SignatureConfig.pushHashed, pushIssuer_hashed,
    SignatureConfig.strip]

theorem stampConfig_fields :
    (stampConfig drop primary now extra cfg).typ = cfg.typ ∧
      (stampConfig drop primary now extra cfg).hashAlg = cfg.hashAlg ∧
      (stampConfig drop primary now extra cfg).versionSpecific = cfg.versionSpecific := by
  rw [stampConfig, foldl_pushHashed]
  exact pushIssuer_fields (cfg.strip drop) primary

/-- A stamped configuration answers as its template does, or else as what was pushed does. -/
theorem firstHashed_stampConfig :
    (stampConfig drop primary now extra cfg).firstHashed select
      = ((cfg.strip drop).firstHashed select).or
        ((.issuerFingerprint primary.fingerprint :: .signatureCreationTime now :: extra).findSome?
          select) := by
  rw [SignatureConfig.firstHashed, stampConfig_hashed, List.findSome?_append, List.findSome?_map]
  rfl

theorem stampConfig_namesPrimary (bytes : List UInt8) :
    namesPrimaryAsIssuer ((stampConfig drop primary now extra cfg).toSignature bytes) primary
      = true := by
  have hmem : primary.fingerprint ∈ (stampConfig drop primary now extra cfg).issuerFingerprint := by
    refine List.mem_filterMap.2 ⟨.regular (.issuerFingerprint primary.fingerprint), ?_, rfl⟩
    rw [stampConfig_hashed]
    simp
  refine Bool.or_eq_true_iff.2 (Or.inl (List.any_eq_true.2 ⟨_, hmem, ?_⟩))
  exact beq_self_eq_true _

theorem firstHashed_strip_none (hdrop : ∀ content, (select content).isSome → drop content = true) :
    (cfg.strip drop).firstHashed select = none := by
  refine List.findSome?_eq_none_iff.2 fun sp hsp => ?_
  have hkept : drop sp.content = false := by simpa using (List.mem_filter.1 hsp).2
  by_contra hno
  have := hdrop sp.content (Option.isSome_iff_ne_none.2 hno)
  simp [hkept] at this

theorem firstHashed_strip_same
    (hkeep : ∀ content, (select content).isSome → drop content = false) :
    (cfg.strip drop).firstHashed select = cfg.firstHashed select := by
  unfold SignatureConfig.firstHashed SignatureConfig.strip
  induction cfg.hashedSubpackets with
  | nil => rfl
  | cons sp l ih =>
    cases hsel : select sp.content with
    | none =>
      cases hdrop : drop sp.content <;> simp [hdrop, hsel, ih]
    | some a =>
      have hkept : drop sp.content = false := hkeep _ (by simp [hsel])
      simp [hkept, hsel]

end

/-! ## A re-issued signature counts -/

/-- What a configuration needs for its signature to count: a hash that is not weak, and, but for a
revocation, no critical subpacket the engine does not evaluate. -/
structure SoundConfig (cfg : SignatureConfig) : Prop where
  hash : cfg.hashAlg ∉ [HashAlgorithm.none, .md5, .sha1, .ripemd160]
  evaluable : ∀ bytes, evaluableSelfSig (cfg.toSignature bytes) = true

namespace SoundConfig

variable {cfg : SignatureConfig} (h : SoundConfig cfg) (bytes : List UInt8)

include h

theorem hashAcceptable :
    certificationHashAcceptable (cfg.toSignature bytes).toSignatureCore = true := by
  have hhash := h.hash
  simp only [List.mem_cons, List.not_mem_nil, or_false, not_or] at hhash
  unfold certificationHashAcceptable SignatureConfig.toSignature
  cases halg : cfg.hashAlg <;> simp_all

theorem bindingHashAllowed (subkey : PublicSubkey) :
    pqBindingHashForbidden subkey (cfg.toSignature bytes) = false := by
  have hhash := h.hash
  simp only [List.mem_cons, List.not_mem_nil, or_false, not_or] at hhash
  unfold pqBindingHashForbidden SignatureConfig.toSignature
  cases halg : cfg.hashAlg <;> simp_all

end SoundConfig

/-- The critical subpackets the engine does not evaluate. -/
def SubpacketData.isUnsupported : SubpacketData → Bool
  | .notationData | .experimental | .policyURI | .regularExpression | .trustSignature
  | .signatureTarget => true
  | _ => false

/-- The types that are exempt from the rule on critical subpackets. -/
def SignatureType.isRevocation : SignatureType → Bool
  | .keyRevocation | .subkeyRevocation | .certRevocation => true
  | _ => false

theorem evaluable_iff (cfg : SignatureConfig) (bytes : List UInt8) :
    evaluableSelfSig (cfg.toSignature bytes) = true ↔ cfg.typ.isRevocation = true ∨
      ∀ sp ∈ cfg.hashedSubpackets, sp.isCritical = true → sp.content.kind.isUnsupported = false := by
  have hnoCritical : hasCriticalUnsupportedSubpacket (cfg.toSignature bytes) = false ↔
      ∀ sp ∈ cfg.hashedSubpackets, sp.isCritical = true → sp.content.kind.isUnsupported = false := by
    unfold hasCriticalUnsupportedSubpacket SignatureConfig.toSignature
    simp only [List.any_map, List.any_eq_false, Function.comp_apply, Bool.and_eq_true, not_and,
      Bool.not_eq_true]
    refine forall₂_congr fun sp _ => ?_
    cases sp.content.kind <;> exact Iff.rfl
  have htyp : (cfg.toSignature bytes).typ = some cfg.typ := rfl
  unfold evaluableSelfSig
  rw [Bool.or_eq_true, Bool.not_eq_true', hnoCritical, htyp]
  cases cfg.typ <;> exact Iff.rfl

section

variable {V : Verifier} {R : PacketReader} {primary : PublicKey} (S : Signer V R primary)
  {cfg refreshed : SignatureConfig}

/-- All that refreshing may change. -/
structure Refreshed (cfg refreshed : SignatureConfig) : Prop where
  typ : refreshed.typ = cfg.typ
  hashAlg : refreshed.hashAlg = if weakSignatureHash cfg.hashAlg then S.hashAlg else cfg.hashAlg
  hashed : refreshed.hashedSubpackets
    = cfg.hashedSubpackets.filter fun sp => !decide (sp.content = .revocationKey)

theorem refreshed_of_ok (h : refreshReissuedConfig S cfg = .ok refreshed) :
    Refreshed S cfg refreshed := by
  unfold refreshReissuedConfig at h
  simp only at h
  split at h
  · split at h
    · cases h
    · cases h
      exact ⟨rfl, rfl, rfl⟩
  · cases h
    exact ⟨rfl, rfl, rfl⟩

theorem Refreshed.firstHashed_eq {α : Type} {select : SubpacketContent → Option α}
    (h : Refreshed S cfg refreshed) (hkey : select .revocationKey = none) :
    refreshed.firstHashed select = cfg.firstHashed select := by
  have hstrip : refreshed.firstHashed select
      = (cfg.strip fun content => decide (content = .revocationKey)).firstHashed select := by
    unfold SignatureConfig.firstHashed
    rw [h.hashed]
    rfl
  rw [hstrip]
  refine firstHashed_strip_same select cfg _ fun content hsome => ?_
  rw [decide_eq_false_iff_not]
  rintro rfl
  simp [hkey] at hsome

/-- A template that counts gives a sound configuration. -/
theorem Refreshed.sound {template : Signature} (h : Refreshed S cfg refreshed)
    (hread : R.configOf template = some cfg)
    (hhash : certificationHashAcceptable template.toSignatureCore = true)
    (heval : evaluableSelfSig template = true) : SoundConfig refreshed := by
  obtain ⟨bytes, rfl⟩ : ∃ bytes, template = cfg.toSignature bytes :=
    ⟨_, R.configOf_reads hread⟩
  constructor
  · rw [h.hashAlg]
    split
    · exact S.hashAlg_strong
    · next hweak =>
      unfold certificationHashAcceptable SignatureConfig.toSignature at hhash
      unfold weakSignatureHash at hweak
      cases halg : cfg.hashAlg <;> simp_all
  · intro bytes'
    rw [evaluable_iff] at heval ⊢
    rw [h.typ, h.hashed]
    exact heval.imp_right fun hnone sp hsp => hnone sp (List.mem_filter.1 hsp).1

theorem SoundConfig.stamp (h : SoundConfig cfg) (drop : SubpacketContent → Bool)
    (now : UInt32) (extra : List SubpacketContent) :
    SoundConfig (stampConfig drop primary now extra cfg) := by
  constructor
  · rw [(stampConfig_fields cfg drop primary now extra).2.1]
    exact h.hash
  · intro bytes
    have heval := (evaluable_iff cfg bytes).1 (h.evaluable bytes)
    rw [evaluable_iff, stampConfig_hashed, (stampConfig_fields cfg drop primary now extra).1]
    refine heval.imp_right fun hnone sp hsp hcritical => ?_
    rcases List.mem_append.1 hsp with hsp | hsp
    · exact hnone sp (List.mem_filter.1 hsp).1 hcritical
    · obtain ⟨content, -, rfl⟩ := List.mem_map.1 hsp
      cases hcritical

end

/-! ## Where a signature in force comes from -/

theorem maxByKey_mem {α : Type} {key : α → UInt32} {l : List α} {a : α}
    (h : maxByKey key l = some a) : a ∈ l :=
  (mem_tieClass.1 (List.mem_of_getLast? (maxByKey_spec h).2)).1

theorem maxByKey_exists {α : Type} (key : α → UInt32) {l : List α} {a : α} (h : a ∈ l) :
    ∃ b, maxByKey key l = some b := by
  cases hmax : maxByKey key l with
  | none =>
    rw [maxByKey_eq_none hmax] at h
    cases h
  | some b => exact ⟨b, rfl⟩

variable {sigs : List Signature}

theorem chooseTemplateSelfSig_some {template : Signature}
    (h : chooseTemplateSelfSig sigs = some template) :
    template ∈ sigs ∧ isPropertySelfSig template = true :=
  List.mem_filter.1 (maxByKey_mem h)

theorem chooseTemplateSelfSig_none (h : chooseTemplateSelfSig sigs = none) :
    ∀ sig ∈ sigs, isPropertySelfSig sig = false := by
  intro sig hsig
  have hnil := maxByKey_eq_none h
  simpa using List.filter_eq_nil_iff.1 hnil sig hsig

theorem sigInForce_mem {sig : Signature} {t : UInt32} (h : sigInForce sigs none t = some sig) :
    sig ∈ sigs :=
  maxByKey_mem (Option.filter_eq_some_iff.1 h).1

theorem sigInForce_exists {sig : Signature} {t : UInt32} (hsig : sig ∈ sigs)
    (halive : ∀ s ∈ sigs, sigAliveAt s t = true) : ∃ s, sigInForce sigs none t = some s := by
  obtain ⟨s, hs⟩ := maxByKey_exists sigSecs hsig
  exact ⟨s, Option.filter_eq_some_iff.2 ⟨hs, halive s (maxByKey_mem hs)⟩⟩

section

variable {V : Verifier} {primary : PublicKey} {details : SignedKeyDetails} {user : SignedUser}
  {sig : Signature} {t : UInt32}

theorem mem_verifiedUidSelfSigs : sig ∈ verifiedUidSelfSigs V primary user ↔
    sig ∈ user.signatures ∧ V.verifyCertification sig primary user.id = true ∧
      certificationHashAcceptable sig.toSignatureCore = true ∧ evaluableSelfSig sig = true := by
  rw [verifiedUidSelfSigs, List.mem_filter, Bool.and_eq_true, Bool.and_eq_true, and_assoc]

theorem userCertification_some (h : userCertification V primary none t user = some sig) :
    isUserIdRevoked V primary user = false ∧ sig ∈ verifiedUidSelfSigs V primary user ∧
      sig.typ ≠ some .certRevocation := by
  unfold userCertification at h
  split at h
  · cases h
  · next hlive =>
    obtain ⟨hmem, htyp⟩ := List.mem_filter.1 (sigInForce_mem h)
    exact ⟨by simpa [isUserIdRevoked] using hlive, hmem, by simpa using htyp⟩

theorem mem_userCertifications {i : Nat} :
    (i, sig) ∈ userCertifications V primary details none t ↔
      ∃ user, details.users[i]? = some user ∧ userCertification V primary none t user = some sig := by
  rw [userCertifications, List.mem_filterMap]
  constructor
  · rintro ⟨⟨user, j⟩, hmem, hsome⟩
    obtain ⟨found, hfound, hpair⟩ := Option.map_eq_some_iff.1 hsome
    cases hpair
    exact ⟨user, List.mem_zipIdx_iff_getElem?.1 hmem, hfound⟩
  · rintro ⟨user, huser, hcert⟩
    exact ⟨(user, i), List.mem_zipIdx_iff_getElem?.2 huser, by simp [hcert]⟩

theorem indexedUidCertificationInForce_some {i : Nat}
    (h : indexedUidCertificationInForce V primary details none t = some (i, sig)) :
    ∃ user, details.users[i]? = some user ∧ userCertification V primary none t user = some sig := by
  refine mem_userCertifications.1 ?_
  rcases Option.or_eq_some_iff.1 h with hmarked | ⟨-, hany⟩
  · exact (List.mem_filter.1 (maxByKey_mem hmarked)).1
  · exact maxByKey_mem hany

theorem uidCertificationInForce_some
    (h : uidCertificationInForce V primary details none t = some sig) :
    ∃ user ∈ details.users, userCertification V primary none t user = some sig := by
  obtain ⟨⟨i, found⟩, hfound, rfl⟩ := Option.map_eq_some_iff.1 h
  obtain ⟨user, huser, hcert⟩ := indexedUidCertificationInForce_some hfound
  exact ⟨user, List.mem_of_getElem? huser, hcert⟩

theorem uidCertificationInForce_exists (huser : user ∈ details.users)
    (hcert : userCertification V primary none t user = some sig) :
    ∃ s, uidCertificationInForce V primary details none t = some s := by
  obtain ⟨i, hi⟩ := List.getElem?_of_mem huser
  have hmem := mem_userCertifications.2 ⟨user, hi, hcert⟩
  obtain ⟨last, hlast⟩ := maxByKey_exists
    (fun entry : Nat × Signature => createdSecs entry.2.toSignatureCore) hmem
  unfold uidCertificationInForce indexedUidCertificationInForce
  simp only [hlast]
  cases maxByKey (fun entry : Nat × Signature => createdSecs entry.2.toSignatureCore)
      ((userCertifications V primary details none t).filter fun entry => entry.2.isPrimary) with
  | none => exact ⟨last.2, rfl⟩
  | some marked => exact ⟨marked.2, rfl⟩

theorem isUserIdRevoked_reissued {user : SignedUser} {sig : Signature}
    (hsig : isPropertySelfSig sig = true) :
    isUserIdRevoked V primary
        { user with signatures := retireSelfSigs primary user.signatures ++ [sig] }
      = isUserIdRevoked V primary user := by
  have hrevocation : ∀ s : Signature, isPropertySelfSig s = true →
      decide (s.typ = some .certRevocation) = false := by
    intro s hs
    rw [decide_eq_false_iff_not]
    intro htyp
    simp [isPropertySelfSig, htyp] at hs
  unfold isUserIdRevoked userIdRevokedAt
  simp only [List.any_append, List.any_cons, List.any_nil, hrevocation sig hsig, Bool.false_and,
    Bool.or_false, Bool.and_true]
  rw [retireSelfSigs, List.any_filter, Bool.eq_iff_iff, List.any_eq_true, List.any_eq_true]
  refine exists_congr fun s => and_congr_right fun _ => ?_
  cases hs : isPropertySelfSig s with
  | true => simp [hrevocation s hs]
  | false => simp

theorem mem_retired {sigs : List Signature} {newSig sig : Signature}
    (h : sig ∈ retireSelfSigs primary sigs ++ [newSig]) (hproperty : isPropertySelfSig sig = true)
    (hnames : namesPrimaryAsIssuer sig primary = true) : sig = newSig := by
  rcases List.mem_append.1 h with hold | hnew
  · have hkept := (List.mem_filter.1 hold).2
    simp [hproperty, hnames] at hkept
  · exact List.mem_singleton.1 hnew

end

/-! ## An instance -/

/-- Knows the configurations of the signatures made from `cfgs`. -/
def tableReader (cfgs : List SignatureConfig) : PacketReader where
  configOf sig := cfgs.find? fun cfg => decide (sig = cfg.toSignature sig.bytes)
  configOf_reads h := by
    have hfound := List.find?_some h
    exact of_decide_eq_true hfound

/-- The versions that are still made. -/
def SignatureVersionSpecific.isCurrent : SignatureVersionSpecific → Bool
  | .v4 | .v6 _ => true
  | .v2 _ _ | .v3 _ _ => false

/-- Signs `cfg` if it is known. -/
def tableSign (cfgs : List SignatureConfig) (cfg : SignatureConfig) : Except GfrStatus Signature :=
  if (tableReader cfgs).configOf (cfg.toSignature [1]) = some cfg
      ∧ cfg.versionSpecific.isCurrent = true then .ok (cfg.toSignature [1])
  else .error .errorInternal

theorem tableSign_ok {cfgs : List SignatureConfig} {cfg : SignatureConfig} {sig : Signature}
    (h : tableSign cfgs cfg = .ok sig) : MadeFrom (tableReader cfgs) cfg sig ∧ sig.bytes = [1] := by
  unfold tableSign at h
  split at h
  · next hknown =>
    cases h
    refine ⟨⟨hknown.1, ?_⟩, rfl⟩
    have hcurrent := hknown.2
    cases hversion : cfg.versionSpecific with
    | v4 => exact Or.inl rfl
    | v6 salt => exact Or.inr ⟨salt, rfl⟩
    | v2 created id => simp [hversion, SignatureVersionSpecific.isCurrent] at hcurrent
    | v3 created id => simp [hversion, SignatureVersionSpecific.isCurrent] at hcurrent
  · cases h

/-- A key whose signatures have the octets `[1]`. -/
def tableSigner (cfgs : List SignatureConfig) (primary : PublicKey) :
    Signer tagVerifier (tableReader cfgs) primary where
  hashAlg := .sha256
  hashAlg_strong := by decide
  saltLen _ := some 16
  freshSalt n := List.replicate n 0
  signKey := tableSign cfgs
  signCertification cfg _ := tableSign cfgs cfg
  signSubkeyBinding cfg _ := tableSign cfgs cfg
  signKey_ok h := ⟨(tableSign_ok h).1, beq_iff_eq.2 (tableSign_ok h).2⟩
  signCertification_ok h := ⟨(tableSign_ok h).1, beq_iff_eq.2 (tableSign_ok h).2⟩
  signSubkeyBinding_ok h := ⟨(tableSign_ok h).1, beq_iff_eq.2 (tableSign_ok h).2⟩

end Rpgp

end GpgFrontend
