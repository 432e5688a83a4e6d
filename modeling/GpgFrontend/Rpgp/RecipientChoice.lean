import GpgFrontend.Base.Results
import GpgFrontend.Rpgp.Attribution
import GpgFrontend.Rpgp.Reissue

/-!
# To which key, in which format (`rust/src/crypto/encrypt.rs`)

Every recipient is a certificate, perhaps with one of its keys pinned. The engine picks the key
that gets the session key, then one container that all the recipients can read.

- `UsableCertificate`, `UsableSubkey`, `TargetFits`: what a chosen key must be.
- `encryption_plan_fits`: **every plan fits, and there is one unless the recipients share no
  format.**

`clock` is what the engine reads when it looks for the self-signature in force; `now` is the time it
compares expiries with.
-/

namespace GpgFrontend

namespace Rpgp

/-! ## The key -/

/-- What the engine asks of a key beyond its public parameters: `algorithm().can_encrypt()`, whether
that is Elgamal, and the hash of an ECDH key's KDF. -/
structure KeyReader where
  canEncrypt : PublicKey → Bool
  isElgamal : PublicKey → Bool
  ecdhKdfHash : PublicKey → Option HashAlgorithm

/-- `EncryptionTarget`. -/
inductive EncryptionTarget
  | sub (i : Nat)
  | primary
deriving DecidableEq, Repr

/-- `has_expired`. -/
def hasExpired (expiresAt now : UInt32) : Bool := decide (expiresAt ≠ 0) && decide (expiresAt ≤ now)

/-- `flags_allow_encryption`: without Key Flags, the algorithm decides. -/
def flagsAllowEncryption (sig : Signature) : Bool :=
  !hasKeyFlags sig || sig.keyFlags.encryptComms || sig.keyFlags.encryptStorage

/-- `ecdh_kdf_hash_is_weak`. -/
def ecdhKdfHashIsWeak (K : KeyReader) (key : PublicKey) : Bool :=
  (K.ecdhKdfHash key).any weakSignatureHash

/-- `encryption_algorithm_problem`. -/
def encryptionAlgorithmProblem (K : KeyReader) (key : PublicKey) : Option String :=
  if !engineCanEncryptTo key.publicParams then
    some ("an algorithm this engine cannot encrypt to (ElGamal, or ECDH over a Brainpool or " ++
      "other unsupported curve)")
  else if ecdhKdfHashIsWeak K key then
    some "an ECDH key whose KDF uses MD5, SHA-1 or RIPEMD-160 (RFC 9580 §9.5)"
  else none

/-- The checks of a key's algorithm that `encryption_subkey_problem` and
`encryption_primary_problem` begin with. -/
def encryptionKeyProblem (K : KeyReader) (key : PublicKey) : Option String :=
  if !K.canEncrypt key then some "not encryption-capable"
  else if rsaKeyTooSmall key.publicParams then
    some "an RSA key under 2048 bits (RFC 9580 §12.4)"
  else encryptionAlgorithmProblem K key

section

-- `toUppercase` is `str::to_uppercase`.
variable (V : Verifier) (K : KeyReader) (toUppercase : List Char → List Char)

/-- `encryption_subkey_problem`. -/
def encryptionSubkeyProblem (cert : SignedPublicKey) (subkey : SignedPublicSubKey)
    (clock now : UInt32) : Option String :=
  match encryptionKeyProblem K subkey.key with
  | some problem => some problem
  | none =>
    if isSubkeyRevoked V cert.primaryKey subkey.key subkey.signatures then some "revoked"
    else
      match subkeyBindingSignature V cert.primaryKey subkey.key subkey.signatures clock with
      | none => some "not validly bound to its primary key"
      | some binding =>
        if !flagsAllowEncryption binding then some "not flagged for encryption"
        else if hasExpired
            (subkeyExpiresAt V cert.primaryKey subkey.key subkey.signatures clock) now then
          some "expired"
        else none

/-- `encryption_primary_problem`. -/
def encryptionPrimaryProblem (cert : SignedPublicKey) (pref : Signature) : Option String :=
  match encryptionKeyProblem K cert.primaryKey with
  | some problem => some problem
  | none => if !flagsAllowEncryption pref then some "not flagged for encryption" else none

/-- The newest usable subkey so far, and the loop of `choose_encryption_target` over the rest. -/
def newestUsable (cert : SignedPublicKey) (clock now : UInt32) :
    Option (Nat × UInt32) → List (SignedPublicSubKey × Nat) → Option (Nat × UInt32)
  | newest, [] => newest
  | newest, (subkey, i) :: rest =>
    match encryptionSubkeyProblem V K cert subkey clock now with
    | none =>
      if newest.all fun best => decide (best.2 ≤ subkey.key.createdAt) then
        newestUsable cert clock now (some (i, subkey.key.createdAt)) rest
      else newestUsable cert clock now newest rest
    | some _ => newestUsable cert clock now newest rest

/-- `choose_encryption_target`. -/
def chooseEncryptionTarget (cert : SignedPublicKey) (pref : Signature)
    (target : Option String) (clock now : UInt32) :
    Except GfrStatus EncryptionTarget :=
  match target with
  | some target =>
    match cert.publicSubkeys.zipIdx.find? fun (sub, _) =>
        keyIdentifierMatches toUppercase sub.key.fingerprint sub.key.legacyKeyId target with
    | some (subkey, i) =>
      if (encryptionSubkeyProblem V K cert subkey clock now).isSome then .error .errorNoKey
      else .ok (.sub i)
    | none =>
      if keyIdentifierMatches toUppercase cert.primaryKey.fingerprint cert.primaryKey.legacyKeyId
          target then
        if (encryptionPrimaryProblem K cert pref).isSome then .error .errorNoKey else .ok .primary
      else .error .errorNoKey
  | none =>
    match newestUsable V K cert clock now none cert.publicSubkeys.zipIdx with
    | some (i, _) => .ok (.sub i)
    | none =>
      if (encryptionPrimaryProblem K cert pref).isNone then .ok .primary else .error .errorNoKey

/-- `preference_self_signature`. -/
def preferenceSelfSignature (cert : SignedPublicKey) (clock : UInt32) : Option Signature :=
  primarySigInForce V cert.primaryKey cert.details none clock

/-- `validate_recipient`. -/
def validateRecipient (cert : SignedPublicKey) (target : Option String) (clock now : UInt32) :
    Except GfrStatus EncryptionTarget :=
  if keyForbidden cert.primaryKey.publicParams then .error .errorUnusableKey
  else
    match preferenceSelfSignature V cert clock with
    | none => .error .errorUnusableKey
    | some pref =>
      if isPrimaryKeyRevoked V cert.primaryKey cert.details.revocationSignatures
          || isPrimaryKeyRevoked V cert.primaryKey cert.details.directSignatures then
        .error .errorRevokedKey
      else if hasExpired (primaryKeyExpiresAt V cert.primaryKey cert.details clock) now then
        .error .errorExpiredKey
      else chooseEncryptionTarget V K toUppercase cert pref target clock now

end

/-! ## The container -/

/-- `SYMMETRIC_RANKING`. -/
def symmetricRanking : List SymmetricKeyAlgorithm := [.aes256, .aes192, .aes128]

/-- `AEAD_RANKING`. -/
def aeadRanking : List (SymmetricKeyAlgorithm × AeadAlgorithm) :=
  [(.aes256, .ocb), (.aes256, .gcm), (.aes256, .eax), (.aes192, .ocb), (.aes192, .gcm),
    (.aes192, .eax), (.aes128, .ocb), (.aes128, .gcm), (.aes128, .eax)]

/-- `if !list.contains(&x) { list.push(x) }`. -/
def pushMissing {α : Type} [DecidableEq α] (l : List α) (a : α) : List α :=
  if a ∈ l then l else l ++ [a]

/-- `RecipientCaps`. -/
structure RecipientCaps where
  seipdV1 : Bool
  seipdV2 : Bool
  symmetric : List SymmetricKeyAlgorithm
  aead : List (SymmetricKeyAlgorithm × AeadAlgorithm)
deriving DecidableEq, Repr

section

variable (V : Verifier) (R : PacketReader) (K : KeyReader)

/-- The Features of the self-signature that speaks for `cert`, if there is one. -/
def featuresInForce (cert : SignedPublicKey) (clock : UInt32) : Option (Option Features) :=
  (preferenceSelfSignature V cert clock).map fun sig =>
    (R.configOf sig).bind SignatureConfig.features

/-- `cert_supports_seipd_v2`. -/
def certSupportsSeipdV2 (cert : SignedPublicKey) (clock : UInt32) : Bool :=
  match featuresInForce V R cert clock with
  | none => false
  | some (some features) => features.seipdV2
  | some none => decide (cert.primaryKey.version = .v6)

/-- `cert_supports_seipd_v1`. -/
def certSupportsSeipdV1 (cert : SignedPublicKey) (clock : UInt32) : Bool :=
  match featuresInForce V R cert clock with
  | none => false
  | some (some features) => features.seipdV1
  | some none => true

/-- A post-quantum key among those of the certificate, its bound subkeys included. -/
def hasPqKey (cert : SignedPublicKey) (clock : UInt32) : Bool :=
  cert.primaryKey.algorithmIsPqc || cert.publicSubkeys.any fun sk =>
    sk.key.algorithmIsPqc
      && (subkeyBindingSignature V cert.primaryKey sk.key sk.signatures clock).isSome

/-- `accepted_ciphers`: the explicit preferences, then AES-256 with a post-quantum key, then
AES-128. -/
def acceptedCiphers (cert : SignedPublicKey) (clock : UInt32) :
    List SymmetricKeyAlgorithm × List (SymmetricKeyAlgorithm × AeadAlgorithm) :=
  let pref := (preferenceSelfSignature V cert clock).bind R.configOf
  let symmetric := (pref.map SignatureConfig.preferredSymmetricAlgs).getD []
  let aead := (pref.map SignatureConfig.preferredAeadAlgs).getD []
  if hasPqKey V cert clock then
    (pushMissing (pushMissing symmetric .aes256) .aes128,
      pushMissing (pushMissing aead (.aes256, .ocb)) (.aes128, .ocb))
  else (pushMissing symmetric .aes128, pushMissing aead (.aes128, .ocb))

/-- The key `target` names, in `target_algorithm`. -/
def targetKey (cert : SignedPublicKey) : EncryptionTarget → Option PublicKey
  | .sub i => cert.publicSubkeys[i]?.map SignedPublicSubKey.key
  | .primary => some cert.primaryKey

/-- `v6_pkesk_can_address`. -/
def v6PkeskCanAddress (key : PublicKey) : Bool := !K.isElgamal key

/-- `RecipientCaps::of`. -/
def RecipientCaps.of (cert : SignedPublicKey) (target : EncryptionTarget) (clock : UInt32) :
    RecipientCaps where
  seipdV1 := certSupportsSeipdV1 V R cert clock
  seipdV2 := certSupportsSeipdV2 V R cert clock
    && (targetKey cert target).any (v6PkeskCanAddress K)
  symmetric := (acceptedCiphers V R cert clock).1
  aead := (acceptedCiphers V R cert clock).2

end

/-- `Container`. -/
inductive Container
  | seipdV1 (sym : SymmetricKeyAlgorithm)
  | seipdV2 (sym : SymmetricKeyAlgorithm) (aead : AeadAlgorithm)
deriving DecidableEq, Repr

/-- `select_container`. -/
def selectContainer (recipients : List RecipientCaps) : Except GfrStatus Container :=
  let v1 : Except GfrStatus Container :=
    if recipients.all RecipientCaps.seipdV1 then
      match symmetricRanking.find? fun alg => recipients.all fun r => decide (alg ∈ r.symmetric) with
      | some sym => .ok (.seipdV1 sym)
      | none => .error .errorUnsupportedFeature
    else .error .errorUnsupportedFeature
  if recipients.isEmpty then .error .errorInvalidInput
  else if recipients.all RecipientCaps.seipdV2 then
    match aeadRanking.find? fun suite => recipients.all fun r => decide (suite ∈ r.aead) with
    | some (sym, aead) => .ok (.seipdV2 sym aead)
    | none => v1
  else v1

/-! ## A list of recipients -/

/-- What an encryption is made with, and the recipients its result reports as invalid. -/
structure EncryptionPlan where
  recipients : List (SignedPublicKey × EncryptionTarget)
  invalid : List (String × GfrStatus)
  container : Container

section

-- A recipient's certificate, if its block is one, and the pin in front of the block.
variable (V : Verifier) (R : PacketReader) (K : KeyReader) (toUppercase : List Char → List Char)
  (blocks : List (Option (SignedPublicKey × Option String))) (clock now : UInt32)

/-- The usable recipients, in `encrypt_and_sign_stream_internal`. -/
def encryptionTargets : List (SignedPublicKey × EncryptionTarget) :=
  blocks.filterMap fun block => do
    let (cert, pin) ← block
    match validateRecipient V K toUppercase cert pin clock now with
    | .ok target => some (cert, target)
    | .error _ => none

/-- The recipients that are refused, by fingerprint. -/
def invalidRecipients : List (String × GfrStatus) :=
  blocks.filterMap fun
    | none => some ("Unknown", .errorInvalidData)
    | some (cert, pin) =>
      match validateRecipient V K toUppercase cert pin clock now with
      | .ok _ => none
      | .error reason => some (cert.primaryKey.fingerprint, reason)

/-- What the recipients read, each with the key that was picked. -/
def recipientCaps (recipients : List (SignedPublicKey × EncryptionTarget)) : List RecipientCaps :=
  recipients.map fun recipient => RecipientCaps.of V R K recipient.1 recipient.2 clock

/-- `encrypt_and_sign_stream_internal`, up to the choice of the container. -/
def planEncryption : Except GfrStatus EncryptionPlan :=
  let targets := encryptionTargets V K toUppercase blocks clock now
  let invalid := invalidRecipients V K toUppercase blocks clock now
  if targets.isEmpty && !invalid.isEmpty then .error .errorUnusableKey
  else do
    let container ← selectContainer (recipientCaps V R K clock targets)
    .ok ⟨targets, invalid, container⟩

end

/-! ## What a chosen key must be -/

section

variable (V : Verifier) (K : KeyReader) (toUppercase : List Char → List Char)

/-- A primary key one may encrypt to: allowed, with a self-signature in force, not revoked, not
expired. -/
structure UsableCertificate (cert : SignedPublicKey) (pref : Signature) (clock now : UInt32) :
    Prop where
  allowed : keyForbidden cert.primaryKey.publicParams = false
  speaks : preferenceSelfSignature V cert clock = some pref
  unrevoked : ∀ sig ∈ cert.details.revocationSignatures ++ cert.details.directSignatures,
    sig.typ = some .keyRevocation → V.verifyKey sig cert.primaryKey = false
  unexpired : hasExpired (primaryKeyExpiresAt V cert.primaryKey cert.details clock) now = false

/-- A key of an algorithm the engine encrypts to. -/
structure UsableAlgorithm (key : PublicKey) : Prop where
  capable : K.canEncrypt key = true
  bigEnough : rsaKeyTooSmall key.publicParams = false
  offered : engineCanEncryptTo key.publicParams = true
  kdf : ecdhKdfHashIsWeak K key = false

structure UsableSubkey (cert : SignedPublicKey) (subkey : SignedPublicSubKey)
    (clock now : UInt32) : Prop where
  algorithm : UsableAlgorithm K subkey.key
  unrevoked : ∀ sig ∈ subkey.signatures, sig.typ = some .subkeyRevocation →
    V.verifySubkeyBinding sig cert.primaryKey subkey.key = false
  bound : ∃ binding, subkeyBindingSignature V cert.primaryKey subkey.key subkey.signatures clock
    = some binding ∧ flagsAllowEncryption binding = true
  unexpired : hasExpired
    (subkeyExpiresAt V cert.primaryKey subkey.key subkey.signatures clock) now = false

/-- `i` is the newest usable subkey, of several the last. -/
def IsNewestUsable (cert : SignedPublicKey) (clock now : UInt32) (i : Nat) : Prop :=
  ∃ subkey, cert.publicSubkeys[i]? = some subkey ∧ UsableSubkey V K cert subkey clock now ∧
    ∀ (j : Nat) (other : SignedPublicSubKey), cert.publicSubkeys[j]? = some other →
      UsableSubkey V K cert other clock now →
        other.key.createdAt < subkey.key.createdAt ∨
          (other.key.createdAt = subkey.key.createdAt ∧ j ≤ i)

/-- What the choice must be: the pinned key if there is a pin, else the newest usable subkey, else
the primary key. -/
inductive TargetFits (cert : SignedPublicKey) (pref : Signature) (clock now : UInt32) :
    Option String → EncryptionTarget → Prop
  | pinnedSub {i : Nat} {subkey : SignedPublicSubKey} {pin : String} :
    cert.publicSubkeys[i]? = some subkey →
    keyIdentifierMatches toUppercase subkey.key.fingerprint subkey.key.legacyKeyId pin = true →
    UsableSubkey V K cert subkey clock now → TargetFits cert pref clock now (some pin) (.sub i)
  | pinnedPrimary {pin : String} :
    keyIdentifierMatches toUppercase cert.primaryKey.fingerprint cert.primaryKey.legacyKeyId pin
      = true →
    UsableAlgorithm K cert.primaryKey → flagsAllowEncryption pref = true →
      TargetFits cert pref clock now (some pin) .primary
  | newest {i : Nat} : IsNewestUsable V K cert clock now i →
    TargetFits cert pref clock now none (.sub i)
  | onlyPrimary :
    (∀ subkey ∈ cert.publicSubkeys, ¬UsableSubkey V K cert subkey clock now) →
    UsableAlgorithm K cert.primaryKey → flagsAllowEncryption pref = true →
      TargetFits cert pref clock now none .primary

end

section

variable {V : Verifier} {K : KeyReader} {toUppercase : List Char → List Char}
  {cert : SignedPublicKey} {clock now : UInt32}

theorem encryptionKeyProblem_none_iff {key : PublicKey} :
    encryptionKeyProblem K key = none ↔ UsableAlgorithm K key := by
  unfold encryptionKeyProblem encryptionAlgorithmProblem
  constructor
  · intro h
    split at h
    · cases h
    · next hcapable =>
      split at h
      · cases h
      · next hbig =>
        split at h
        · cases h
        · next hoffered =>
          split at h
          · cases h
          · next hkdf => exact ⟨by simpa using hcapable, by simpa using hbig, by simpa using hoffered,
              by simpa using hkdf⟩
  · rintro ⟨hcapable, hbig, hoffered, hkdf⟩
    simp [hcapable, hbig, hoffered, hkdf]

theorem encryptionSubkeyProblem_none_iff {subkey : SignedPublicSubKey} :
    encryptionSubkeyProblem V K cert subkey clock now = none ↔
      UsableSubkey V K cert subkey clock now := by
  have hrevoked : isSubkeyRevoked V cert.primaryKey subkey.key subkey.signatures = false ↔
      ∀ sig ∈ subkey.signatures, sig.typ = some .subkeyRevocation →
        V.verifySubkeyBinding sig cert.primaryKey subkey.key = false := by
    simp [isSubkeyRevoked]
  unfold encryptionSubkeyProblem
  constructor
  · intro h
    split at h
    · cases h
    · next halgorithm =>
      split at h
      · cases h
      · next hlive =>
        split at h
        · cases h
        · next binding hbinding =>
          split at h
          · cases h
          · next hflags =>
            split at h
            · cases h
            · next hexpired => exact ⟨encryptionKeyProblem_none_iff.1 halgorithm,
                hrevoked.1 (by simpa using hlive), ⟨binding, hbinding, by simpa using hflags⟩,
                by simpa using hexpired⟩
  · rintro ⟨halgorithm, hlive, ⟨binding, hbinding, hflags⟩, hexpired⟩
    simp [encryptionKeyProblem_none_iff.2 halgorithm, hrevoked.2 hlive, hbinding, hflags, hexpired]

theorem encryptionPrimaryProblem_none_iff {pref : Signature} :
    encryptionPrimaryProblem K cert pref = none ↔
      UsableAlgorithm K cert.primaryKey ∧ flagsAllowEncryption pref = true := by
  rw [← encryptionKeyProblem_none_iff]
  unfold encryptionPrimaryProblem
  cases encryptionKeyProblem K cert.primaryKey with
  | some problem => simp
  | none => cases flagsAllowEncryption pref <;> simp

end

/-! ## The newest usable subkey -/

section

variable {V : Verifier} {K : KeyReader} {cert : SignedPublicKey} {clock now : UInt32}
  {newest : Option (Nat × UInt32)} {subs : List SignedPublicSubKey} {n : Nat}

/-- The loop keeps what it has unless something later is at least as new. -/
theorem newestUsable_cons {sub : SignedPublicSubKey} {rest : List (SignedPublicSubKey × Nat)} :
    newestUsable V K cert clock now newest ((sub, n) :: rest) =
        newestUsable V K cert clock now (some (n, sub.key.createdAt)) rest ∧
          UsableSubkey V K cert sub clock now ∧
          (∀ best, newest = some best → best.2 ≤ sub.key.createdAt) ∨
      newestUsable V K cert clock now newest ((sub, n) :: rest) =
          newestUsable V K cert clock now newest rest ∧
        (UsableSubkey V K cert sub clock now →
          ∃ best, newest = some best ∧ sub.key.createdAt < best.2) := by
  rw [newestUsable]
  split
  · next hnone =>
    have husable := encryptionSubkeyProblem_none_iff.1 hnone
    cases newest with
    | none => exact Or.inl ⟨rfl, husable, fun best h => by cases h⟩
    | some best =>
      by_cases hle : best.2 ≤ sub.key.createdAt
      · refine Or.inl ⟨by simp [hle], husable, fun b hb => ?_⟩
        cases hb
        exact hle
      · exact Or.inr ⟨by simp [hle], fun _ => ⟨best, rfl, UInt32.not_le.1 hle⟩⟩
  · next problem hsome =>
    refine Or.inr ⟨rfl, fun husable => ?_⟩
    rw [encryptionSubkeyProblem_none_iff.2 husable] at hsome
    cases hsome

theorem newestUsable_none
    (h : newestUsable V K cert clock now newest (subs.zipIdx n) = none) :
    newest = none ∧ ∀ sub ∈ subs, ¬UsableSubkey V K cert sub clock now := by
  induction subs generalizing newest n with
  | nil => exact ⟨h, fun sub hsub => by cases hsub⟩
  | cons sub subs ih =>
    rw [List.zipIdx_cons] at h
    have hcons := @newestUsable_cons V K cert clock now newest n sub (subs.zipIdx (n + 1))
    rcases hcons with ⟨heq, -, -⟩ | ⟨heq, hnew⟩
    · cases (ih (heq ▸ h)).1
    · obtain ⟨rfl, hrest⟩ := ih (heq ▸ h)
      refine ⟨rfl, List.forall_mem_cons.2 ⟨fun husable => ?_, hrest⟩⟩
      obtain ⟨best, hbest, -⟩ := hnew husable
      cases hbest

/-- By induction on the subkeys, from any index and anything found before. -/
theorem newestUsable_some {i : Nat} {created : UInt32}
    (h : newestUsable V K cert clock now newest (subs.zipIdx n) = some (i, created)) :
    (newest = some (i, created) ∧ ∀ sub ∈ subs, UsableSubkey V K cert sub clock now →
        sub.key.createdAt < created) ∨
      ∃ (j : Nat) (sub : SignedPublicSubKey), subs[j]? = some sub ∧ i = n + j ∧
        UsableSubkey V K cert sub clock now ∧ sub.key.createdAt = created ∧
        (∀ best, newest = some best → best.2 ≤ created) ∧
        ∀ (k : Nat) (other : SignedPublicSubKey), subs[k]? = some other →
          UsableSubkey V K cert other clock now →
            other.key.createdAt < created ∨ (other.key.createdAt = created ∧ k ≤ j) := by
  induction subs generalizing newest n with
  | nil => exact Or.inl ⟨h, fun sub hsub => by cases hsub⟩
  | cons sub subs ih =>
    rw [List.zipIdx_cons] at h
    have hcons := @newestUsable_cons V K cert clock now newest n sub (subs.zipIdx (n + 1))
    rcases hcons with ⟨heq, husable, hbest⟩ | ⟨heq, hnew⟩
    · rcases ih (heq ▸ h) with ⟨hfound, hrest⟩ | ⟨j, found, hj, rfl, hfound, rfl, hle, hrest⟩
      · cases hfound
        refine Or.inr ⟨0, sub, rfl, rfl, husable, rfl, hbest, fun k other hk hother => ?_⟩
        cases k with
        | zero =>
          cases hk
          exact Or.inr ⟨rfl, le_refl _⟩
        | succ k => exact Or.inl (hrest other (List.mem_of_getElem? hk) hother)
      · have hsub : sub.key.createdAt ≤ found.key.createdAt := hle _ rfl
        refine Or.inr ⟨j + 1, found, hj, by omega, hfound, rfl,
          fun best h => UInt32.le_trans (hbest best h) hsub, fun k other hk hother => ?_⟩
        cases k with
        | zero =>
          cases hk
          rcases UInt32.lt_or_eq_of_le hsub with hlt | heq
          · exact Or.inl hlt
          · exact Or.inr ⟨heq, Nat.zero_le _⟩
        | succ k =>
          exact (hrest k other hk hother).imp_right fun ⟨heq, hk⟩ => ⟨heq, Nat.succ_le_succ hk⟩
    · rcases ih (heq ▸ h) with ⟨hfound, hrest⟩ | ⟨j, found, hj, rfl, hfound, rfl, hle, hrest⟩
      · refine Or.inl ⟨hfound, List.forall_mem_cons.2 ⟨fun husable => ?_, hrest⟩⟩
        obtain ⟨best, hbest, hlt⟩ := hnew husable
        cases hfound.symm.trans hbest
        exact hlt
      · refine Or.inr ⟨j + 1, found, hj, by omega, hfound, rfl, hle, fun k other hk hother => ?_⟩
        cases k with
        | zero =>
          cases hk
          obtain ⟨best, hbest, hlt⟩ := hnew hother
          exact Or.inl (UInt32.lt_of_lt_of_le hlt (hle best hbest))
        | succ k =>
          exact (hrest k other hk hother).imp_right fun ⟨heq, hk⟩ => ⟨heq, Nat.succ_le_succ hk⟩

theorem isNewestUsable_of_some {i : Nat} {created : UInt32}
    (h : newestUsable V K cert clock now none cert.publicSubkeys.zipIdx = some (i, created)) :
    IsNewestUsable V K cert clock now i := by
  rcases newestUsable_some h with ⟨hnone, -⟩ | ⟨j, sub, hj, rfl, husable, rfl, -, hrest⟩
  · cases hnone
  · rw [Nat.zero_add]
    exact ⟨sub, hj, husable, hrest⟩

end

section

variable {V : Verifier} {K : KeyReader} {toUppercase : List Char → List Char}
  {cert : SignedPublicKey} {pin : Option String} {clock now : UInt32} {target : EncryptionTarget}

theorem chooseEncryptionTarget_fits {pref : Signature}
    (h : chooseEncryptionTarget V K toUppercase cert pref pin clock now = .ok target) :
    TargetFits V K toUppercase cert pref clock now pin target := by
  unfold chooseEncryptionTarget at h
  split at h
  · next pin =>
    split at h
    · next subkey i hfind =>
      split at h
      · cases h
      · next hproblem =>
        cases h
        have hmem := List.mem_zipIdx_iff_getElem?.1 (List.mem_of_find?_eq_some hfind)
        have hmatches := List.find?_some hfind
        exact .pinnedSub hmem hmatches
          (encryptionSubkeyProblem_none_iff.1 (by simpa using hproblem))
    · split at h
      · next hmatches =>
        split at h
        · cases h
        · next hproblem =>
          cases h
          have husable := encryptionPrimaryProblem_none_iff.1
            (Option.not_isSome_iff_eq_none.1 hproblem)
          exact .pinnedPrimary hmatches husable.1 husable.2
      · cases h
  · split at h
    · next i created hnewest =>
      cases h
      exact .newest (isNewestUsable_of_some hnewest)
    · next hnone =>
      split at h
      · next hproblem =>
        cases h
        have husable := encryptionPrimaryProblem_none_iff.1 (Option.isNone_iff_eq_none.1 hproblem)
        exact .onlyPrimary (newestUsable_none hnone).2 husable.1 husable.2
      · cases h

/-- Every key the engine picks may be encrypted to, and is the one that was pinned or the newest
there is. -/
theorem validateRecipient_fits
    (h : validateRecipient V K toUppercase cert pin clock now = .ok target) :
    ∃ pref, UsableCertificate V cert pref clock now ∧
      TargetFits V K toUppercase cert pref clock now pin target := by
  unfold validateRecipient at h
  split at h
  · cases h
  · next hallowed =>
    split at h
    · cases h
    · next pref hpref =>
      split at h
      · cases h
      · next hrevoked =>
        split at h
        · cases h
        · next hexpired =>
          have hunrevoked : ∀ sig ∈ cert.details.revocationSignatures ++ cert.details.directSignatures,
              sig.typ = some .keyRevocation → V.verifyKey sig cert.primaryKey = false := by
            rw [isPrimaryKeyRevoked, isPrimaryKeyRevoked, ← List.any_append] at hrevoked
            intro sig hsig htyp
            by_contra hverify
            exact hrevoked (List.any_eq_true.2 ⟨sig, hsig, by simpa [htyp] using hverify⟩)
          exact ⟨pref, ⟨by simpa using hallowed, hpref, hunrevoked, by simpa using hexpired⟩,
            chooseEncryptionTarget_fits h⟩

end

/-! ## What a chosen container must be -/

/-- A recipient reads a container of a format and with ciphers it states. -/
def Container.ReadableBy (recipient : RecipientCaps) : Container → Prop
  | .seipdV1 sym => recipient.seipdV1 = true ∧ sym ∈ recipient.symmetric
  | .seipdV2 sym aead => recipient.seipdV2 = true ∧ (sym, aead) ∈ recipient.aead

/-- A format all the recipients read. -/
def CommonFormat (recipients : List RecipientCaps) (container : Container) : Prop :=
  ∀ r ∈ recipients, container.ReadableBy r

/-- The containers of the same format, the best first. -/
def Container.ranking : Container → List Container
  | .seipdV1 _ => symmetricRanking.map .seipdV1
  | .seipdV2 _ _ => aeadRanking.map fun suite => .seipdV2 suite.1 suite.2

/-- What the container for these recipients must be: readable by all, the best such of its format,
and of the second format if they have one of that in common. -/
structure SuitsAll (recipients : List RecipientCaps) (container : Container) : Prop where
  common : CommonFormat recipients container
  best : ∃ better worse, container.ranking = better ++ container :: worse ∧
    ∀ other ∈ better, ¬CommonFormat recipients other
  prefersV2 : (∃ sym aead, CommonFormat recipients (.seipdV2 sym aead)) →
    ∃ sym aead, container = .seipdV2 sym aead

/-- The ciphers every certificate accepts, listed or not. -/
structure Implicit (recipient : RecipientCaps) : Prop where
  symmetric : .aes128 ∈ recipient.symmetric
  aead : (.aes128, .ocb) ∈ recipient.aead

theorem mem_pushMissing {α : Type} [DecidableEq α] (l : List α) (a : α) : a ∈ pushMissing l a := by
  unfold pushMissing
  split
  · next h => exact h
  · exact List.mem_append_right _ (List.mem_singleton.2 rfl)

theorem implicit_of (V : Verifier) (R : PacketReader) (K : KeyReader) (cert : SignedPublicKey)
    (target : EncryptionTarget) (clock : UInt32) :
    Implicit (RecipientCaps.of V R K cert target clock) := by
  unfold RecipientCaps.of acceptedCiphers
  constructor
  · split <;> exact mem_pushMissing _ _
  · split <;> exact mem_pushMissing _ _

section

variable {recipients : List RecipientCaps}

theorem find_ranked {α : Type} {ranking : List α} {p : α → Bool} {a : α}
    (container : α → Container) (h : ranking.find? p = some a)
    (hp : ∀ b, CommonFormat recipients (container b) → p b = true) :
    ∃ better worse, ranking.map container = better ++ container a :: worse ∧
      ∀ other ∈ better, ¬CommonFormat recipients other := by
  obtain ⟨-, better, worse, hsplit, hbetter⟩ := List.find?_eq_some_iff_append.1 h
  refine ⟨better.map container, worse.map container, by rw [hsplit]; simp, ?_⟩
  rintro _ hother hcommon
  obtain ⟨b, hb, rfl⟩ := List.mem_map.1 hother
  have := hbetter b hb
  simp [hp b hcommon] at this

theorem common_of_v2 {sym : SymmetricKeyAlgorithm} {aead : AeadAlgorithm}
    (hv2 : recipients.all RecipientCaps.seipdV2 = true)
    (h : (aeadRanking.find? fun suite => recipients.all fun r => decide (suite ∈ r.aead))
      = some (sym, aead)) : CommonFormat recipients (.seipdV2 sym aead) := by
  have hall := List.find?_some h
  exact fun r hr => ⟨List.all_eq_true.1 hv2 r hr, by simpa using List.all_eq_true.1 hall r hr⟩

theorem common_of_v1 {sym : SymmetricKeyAlgorithm}
    (hv1 : recipients.all RecipientCaps.seipdV1 = true)
    (h : (symmetricRanking.find? fun alg => recipients.all fun r => decide (alg ∈ r.symmetric))
      = some sym) : CommonFormat recipients (.seipdV1 sym) := by
  have hall := List.find?_some h
  exact fun r hr => ⟨List.all_eq_true.1 hv1 r hr, by simpa using List.all_eq_true.1 hall r hr⟩

variable (himplicit : ∀ r ∈ recipients, Implicit r)

include himplicit

theorem aead_found : ∃ sym aead,
    (aeadRanking.find? fun suite => recipients.all fun r => decide (suite ∈ r.aead))
      = some (sym, aead) := by
  have hsome : (aeadRanking.find? fun suite =>
      recipients.all fun r => decide (suite ∈ r.aead)).isSome = true :=
    List.find?_isSome.2 ⟨(.aes128, .ocb), by decide,
      List.all_eq_true.2 fun r hr => decide_eq_true (himplicit r hr).aead⟩
  obtain ⟨suite, hsuite⟩ := Option.isSome_iff_exists.1 hsome
  exact ⟨suite.1, suite.2, hsuite⟩

theorem symmetric_found : ∃ sym,
    (symmetricRanking.find? fun alg => recipients.all fun r => decide (alg ∈ r.symmetric))
      = some sym := by
  have hsome : (symmetricRanking.find? fun alg =>
      recipients.all fun r => decide (alg ∈ r.symmetric)).isSome = true :=
    List.find?_isSome.2 ⟨.aes128, by decide,
      List.all_eq_true.2 fun r hr => decide_eq_true (himplicit r hr).symmetric⟩
  exact Option.isSome_iff_exists.1 hsome

/-- The three ways a selection can go. -/
theorem selectContainer_cases :
    (recipients = [] ∧ selectContainer recipients = .error .errorInvalidInput) ∨
    (recipients ≠ [] ∧ recipients.all RecipientCaps.seipdV2 = true ∧
      ∃ sym aead, selectContainer recipients = .ok (.seipdV2 sym aead) ∧
        SuitsAll recipients (.seipdV2 sym aead)) ∨
    (recipients ≠ [] ∧ recipients.all RecipientCaps.seipdV2 = false ∧
      ((recipients.all RecipientCaps.seipdV1 = true ∧
        ∃ sym, selectContainer recipients = .ok (.seipdV1 sym) ∧
          SuitsAll recipients (.seipdV1 sym)) ∨
      (recipients.all RecipientCaps.seipdV1 = false ∧
        selectContainer recipients = .error .errorUnsupportedFeature))) := by
  obtain ⟨sym2, aead, haead⟩ := aead_found himplicit
  obtain ⟨sym1, hsymmetric⟩ := symmetric_found himplicit
  cases hempty : recipients.isEmpty with
  | true =>
    rw [List.isEmpty_iff.1 hempty]
    exact Or.inl ⟨rfl, rfl⟩
  | false =>
    have hne : recipients ≠ [] := by
      rintro rfl
      cases hempty
    refine Or.inr ?_
    cases hv2 : recipients.all RecipientCaps.seipdV2 with
    | true =>
      refine Or.inl ⟨hne, rfl, sym2, aead, ?_, common_of_v2 hv2 haead, ?_, fun _ => ⟨_, _, rfl⟩⟩
      · unfold selectContainer
        simp only [hempty, hv2, haead, Bool.false_eq_true, if_false, if_true]
      · refine find_ranked (fun suite => .seipdV2 suite.1 suite.2) haead fun suite hcommon => ?_
        exact List.all_eq_true.2 fun r hr => decide_eq_true (hcommon r hr).2
    | false =>
      refine Or.inr ⟨hne, rfl, ?_⟩
      have hnone : ¬∃ sym aead, CommonFormat recipients (.seipdV2 sym aead) := by
        rintro ⟨sym, aead, hcommon⟩
        have hall : recipients.all RecipientCaps.seipdV2 = true :=
          List.all_eq_true.2 fun r hr => (hcommon r hr).1
        simp [hall] at hv2
      cases hv1 : recipients.all RecipientCaps.seipdV1 with
      | true =>
        refine Or.inl ⟨rfl, sym1, ?_, common_of_v1 hv1 hsymmetric, ?_, fun h => absurd h hnone⟩
        · unfold selectContainer
          simp only [hempty, hv2, hv1, hsymmetric, Bool.false_eq_true, if_false, if_true]
        · refine find_ranked .seipdV1 hsymmetric fun alg hcommon => ?_
          exact List.all_eq_true.2 fun r hr => decide_eq_true (hcommon r hr).2
      | false =>
        refine Or.inr ⟨rfl, ?_⟩
        unfold selectContainer
        simp only [hempty, hv2, hv1, Bool.false_eq_true, if_false]

theorem selectContainer_suits {container : Container}
    (h : selectContainer recipients = .ok container) : SuitsAll recipients container := by
  rcases selectContainer_cases himplicit with ⟨-, hsel⟩ | ⟨-, -, sym, aead, hsel, hsuits⟩ |
    ⟨-, -, ⟨-, sym, hsel, hsuits⟩ | ⟨-, hsel⟩⟩
  · rw [hsel] at h
    cases h
  · rw [hsel] at h
    cases h
    exact hsuits
  · rw [hsel] at h
    cases h
    exact hsuits
  · rw [hsel] at h
    cases h

theorem selectContainer_ok_iff : (∃ container, selectContainer recipients = .ok container) ↔
    recipients ≠ [] ∧ ∃ container, CommonFormat recipients container := by
  rcases selectContainer_cases himplicit with ⟨hnil, hsel⟩ | ⟨hne, -, sym, aead, hsel, hsuits⟩ |
    ⟨hne, hv2, ⟨-, sym, hsel, hsuits⟩ | ⟨hv1, hsel⟩⟩
  · refine iff_of_false ?_ fun h => h.1 hnil
    rintro ⟨container, h⟩
    rw [hsel] at h
    cases h
  · exact iff_of_true ⟨_, hsel⟩ ⟨hne, _, hsuits.common⟩
  · exact iff_of_true ⟨_, hsel⟩ ⟨hne, _, hsuits.common⟩
  · refine iff_of_false ?_ ?_
    · rintro ⟨container, h⟩
      rw [hsel] at h
      cases h
    · rintro ⟨-, container, hcommon⟩
      cases container with
      | seipdV1 sym =>
        have hall : recipients.all RecipientCaps.seipdV1 = true :=
          List.all_eq_true.2 fun r hr => (hcommon r hr).1
        simp [hall] at hv1
      | seipdV2 sym aead =>
        have hall : recipients.all RecipientCaps.seipdV2 = true :=
          List.all_eq_true.2 fun r hr => (hcommon r hr).1
        simp [hall] at hv2

end

/-! ## The plan -/

section

variable (V : Verifier) (R : PacketReader) (K : KeyReader) (toUppercase : List Char → List Char)
  (clock now : UInt32)

theorem implicit_recipientCaps (recipients : List (SignedPublicKey × EncryptionTarget)) :
    ∀ r ∈ recipientCaps V R K clock recipients, Implicit r := by
  intro r hr
  obtain ⟨recipient, -, rfl⟩ := List.mem_map.1 hr
  exact implicit_of V R K recipient.1 recipient.2 clock

/-- What may become of one recipient: a key to encrypt to, or a refusal. -/
inductive Answers : Option (SignedPublicKey × Option String) →
    (SignedPublicKey × EncryptionTarget) ⊕ (String × GfrStatus) → Prop
  | unreadable : Answers none (.inr ("Unknown", .errorInvalidData))
  | refused {cert : SignedPublicKey} {pin : Option String} {reason : GfrStatus} :
    validateRecipient V K toUppercase cert pin clock now = .error reason →
      Answers (some (cert, pin)) (.inr (cert.primaryKey.fingerprint, reason))
  | target {cert : SignedPublicKey} {pin : Option String} {target : EncryptionTarget}
    {pref : Signature} : UsableCertificate V cert pref clock now →
      TargetFits V K toUppercase cert pref clock now pin target →
        Answers (some (cert, pin)) (.inl (cert, target))

/-- Every block has an answer of its own, and the two lists are those answers. -/
theorem exists_answers (blocks : List (Option (SignedPublicKey × Option String))) :
    ∃ answers, List.Forall₂ (Answers V K toUppercase clock now) blocks answers ∧
      encryptionTargets V K toUppercase blocks clock now = answers.filterMap Sum.getLeft? ∧
      invalidRecipients V K toUppercase blocks clock now = answers.filterMap Sum.getRight? := by
  induction blocks with
  | nil => exact ⟨[], .nil, rfl, rfl⟩
  | cons block rest ih =>
    obtain ⟨answers, hanswers, htargets, hinvalid⟩ := ih
    unfold encryptionTargets at htargets ⊢
    unfold invalidRecipients at hinvalid ⊢
    rcases block with _ | ⟨cert, pin⟩
    · refine ⟨_, .cons .unreadable hanswers, ?_, ?_⟩
      · simpa [List.filterMap_cons] using htargets
      · simpa using hinvalid
    · cases hvalidate : validateRecipient V K toUppercase cert pin clock now with
      | error reason =>
        refine ⟨_, .cons (.refused hvalidate) hanswers, ?_, ?_⟩
        · simpa [hvalidate, List.filterMap_cons] using htargets
        · simpa [hvalidate, List.filterMap_cons] using hinvalid
      | ok target =>
        obtain ⟨pref, husable, hfits⟩ := validateRecipient_fits hvalidate
        refine ⟨_, .cons (.target husable hfits) hanswers, ?_, ?_⟩
        · simpa [hvalidate, List.filterMap_cons] using htargets
        · simpa [hvalidate, List.filterMap_cons] using hinvalid

/-- **Every recipient is encrypted to or reported**, in an encryption whose plan goes through:
block by block it is one or the other, and what is planned fits the block. -/
theorem planEncryption_fits (blocks : List (Option (SignedPublicKey × Option String)))
    {plan : EncryptionPlan} (h : planEncryption V R K toUppercase blocks clock now = .ok plan) :
    (∃ answers, List.Forall₂ (Answers V K toUppercase clock now) blocks answers ∧
      plan.recipients = answers.filterMap Sum.getLeft? ∧
      plan.invalid = answers.filterMap Sum.getRight?) ∧
    SuitsAll (recipientCaps V R K clock plan.recipients) plan.container := by
  unfold planEncryption at h
  simp only at h
  split at h
  · cases h
  · obtain ⟨container, hselected, hplan⟩ := bind_eq_ok.1 h
    cases hplan
    exact ⟨exists_answers V K toUppercase clock now blocks,
      selectContainer_suits (implicit_recipientCaps V R K clock _) hselected⟩

/-- **Encryption never reaches an unusable key, and is in a format that all its recipients read**:
there is one unless they share none, or there is no recipient. -/
theorem encryption_plan_fits :
    (∀ (cert : SignedPublicKey) (pin : Option String) (target : EncryptionTarget),
      validateRecipient V K toUppercase cert pin clock now = .ok target →
        ∃ pref, UsableCertificate V cert pref clock now ∧
          TargetFits V K toUppercase cert pref clock now pin target) ∧
    ∀ recipients : List (SignedPublicKey × EncryptionTarget),
      (∀ container, selectContainer (recipientCaps V R K clock recipients) = .ok container →
        SuitsAll (recipientCaps V R K clock recipients) container) ∧
      ((∃ container, selectContainer (recipientCaps V R K clock recipients) = .ok container) ↔
        recipients ≠ [] ∧
          ∃ container, CommonFormat (recipientCaps V R K clock recipients) container) := by
  refine ⟨fun cert pin target => validateRecipient_fits, fun recipients => ?_⟩
  have himplicit := implicit_recipientCaps V R K clock recipients
  refine ⟨fun container => selectContainer_suits himplicit, ?_⟩
  rw [selectContainer_ok_iff himplicit, recipientCaps, Ne, List.map_eq_nil_iff]

end

/-- A certificate with an X25519 subkey, bound for encryption. -/
def encryptionCert : SignedPublicKey :=
  ⟨sampleKey "A", sampleDetails [], [⟨{ sampleKey "B" with publicParams := .x25519 },
    [{ plainSignature 1 .subkeyBinding 100 with keyFlags := ⟨false, false, true, true, false⟩ }]⟩]⟩

def sampleKeyReader : KeyReader where
  canEncrypt key := engineCanEncryptTo key.publicParams
  isElgamal _ := false
  ecdhKdfHash _ := none

/-- A block that is no certificate, and one that is encrypted to. -/
theorem planEncryption_fits_one :
    ∃ plan, planEncryption tagVerifier (tableReader []) sampleKeyReader (List.map Char.toUpper)
        [none, some (encryptionCert, none)] 300 300 = .ok plan ∧
      plan.recipients = [(encryptionCert, .sub 0)] ∧
      plan.invalid = [("Unknown", .errorInvalidData)] ∧
      SuitsAll (recipientCaps tagVerifier (tableReader []) sampleKeyReader 300 plan.recipients)
        plan.container := by
  have hplan : planEncryption tagVerifier (tableReader []) sampleKeyReader (List.map Char.toUpper)
      [none, some (encryptionCert, none)] 300 300 =
        .ok ⟨[(encryptionCert, .sub 0)], [("Unknown", .errorInvalidData)], .seipdV1 .aes128⟩ := by
    rfl
  exact ⟨_, hplan, rfl, rfl, (planEncryption_fits tagVerifier (tableReader []) sampleKeyReader
    (List.map Char.toUpper) 300 300 _ hplan).2⟩

/-- Of no recipients at all, every format is read by all; nothing is selected. -/
theorem no_recipient_no_container :
    ¬∀ (V : Verifier) (R : PacketReader) (K : KeyReader) (clock : UInt32)
      (recipients : List (SignedPublicKey × EncryptionTarget)),
      (∃ container, selectContainer (recipientCaps V R K clock recipients) = .ok container) ↔
        ∃ container, CommonFormat (recipientCaps V R K clock recipients) container := by
  intro h
  have hread : ∀ {sig : Signature} {cfg : SignatureConfig},
      (none : Option SignatureConfig) = some cfg → sig = cfg.toSignature sig.bytes :=
    fun h => by cases h
  obtain ⟨container, hselected⟩ := (h tagVerifier ⟨fun _ => none, hread⟩
    ⟨fun _ => true, fun _ => false, fun _ => none⟩ 0 []).2
      ⟨.seipdV1 .aes128, fun r hr => by cases hr⟩
  cases hselected

end Rpgp

end GpgFrontend
