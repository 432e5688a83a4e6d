import GpgFrontend.Rpgp.SigningVerdict

/-!
# Attributing the signatures of a message (`rust/src/crypto/mod.rs`)

A message carries any number of signature packets. The engine makes one result entry for each,
fetches certificates by the issuers they name, and decides every entry on its own.

`verifies i cert key` stands for the cryptographic check of signature `i` under the primary key
(`none`) or a subkey of `cert`.
-/

namespace GpgFrontend

namespace Rpgp

/-! ## Matching an issuer -/

/-- `char::is_whitespace`: the Unicode property White_Space. -/
def isWhiteSpace (c : Char) : Bool :=
  let n := c.toNat
  (9 ≤ n && n ≤ 13) || n == 32 || n == 0x85 || n == 0xA0 || n == 0x1680
    || (0x2000 ≤ n && n ≤ 0x200A) || n == 0x2028 || n == 0x2029 || n == 0x202F || n == 0x205F
    || n == 0x3000

section

-- `str::to_uppercase`.
variable (toUppercase : List Char → List Char)

/-- `normalize_key_identifier`. -/
def normalizeKeyIdentifier (s : String) : List Char :=
  toUppercase (s.toList.filter fun c => !isWhiteSpace c)

/-- `key_identifier_matches`: the fingerprint, the key ID, or a suffix of either. -/
def keyIdentifierMatches (fpr keyId target : String) : Bool :=
  let fpr := normalizeKeyIdentifier toUppercase fpr
  let keyId := normalizeKeyIdentifier toUppercase keyId
  let target := normalizeKeyIdentifier toUppercase target
  if target.isEmpty then false
  else if fpr = target then true
  else if keyId = target then true
  else target.isSuffixOf fpr || target.isSuffixOf keyId

/-- `cert_contains_issuer`. -/
def certContainsIssuer (cert : SignedPublicKey) (issuer : String) : Bool :=
  keyIdentifierMatches toUppercase cert.primaryKey.fingerprint cert.primaryKey.legacyKeyId issuer
    || cert.publicSubkeys.any fun subkey =>
      keyIdentifierMatches toUppercase subkey.key.fingerprint subkey.key.legacyKeyId issuer

end

/-! ## The verdict of a certificate -/

section

variable (V : Verifier)

/-- The loop of `cert_verdict` over the subkeys, which stops at the first authorized one. -/
def certVerdictLoop (cert : SignedPublicKey) (t : UInt32)
    (verifies : Option SignedPublicSubKey → Bool) (best : KeyVerdict) :
    List SignedPublicSubKey → KeyVerdict
  | [] => best
  | sk :: rest =>
    if best = .authorized then best
    else if verifies (some sk) then
      certVerdictLoop cert t verifies
        (best.max (subkeySigningVerdict V cert.primaryKey cert.details sk.key sk.signatures t)) rest
    else certVerdictLoop cert t verifies best rest

/-- `cert_verdict`: `verifies none` asks about the primary key. -/
def certVerdict (cert : SignedPublicKey) (t : UInt32)
    (verifies : Option SignedPublicSubKey → Bool) : KeyVerdict :=
  let best :=
    if verifies none then
      KeyVerdict.noMatch.max (primarySigningVerdict V cert.primaryKey cert.details t)
    else .noMatch
  certVerdictLoop V cert t verifies best cert.publicSubkeys

/-- `Iterator::max` over verdicts. -/
def maxVerdict : List KeyVerdict → Option KeyVerdict
  | [] => none
  | v :: rest =>
    match maxVerdict rest with
    | none => some v
    | some w => some (v.max w)

end

/-! ## Entries -/

inductive GfrSignatureStatus
  | valid | badSignature | noKey | unknownError | keyRevoked | keyExpired | keyNotAuthorized
  | signatureExpired | weakHash | keyExpiredSince | keyRevokedSince
deriving DecidableEq, Repr

inductive GfrSignMode
  | inline | clearText | detached
deriving DecidableEq, Repr

/-- `SignatureResultInternal`. -/
structure SignatureResultInternal where
  /-- The issuer named by the packet, empty if it names none. -/
  fpr : String
  status : GfrSignatureStatus
  createdAt : UInt32
  /-- Absolute, zero for never. -/
  expiresAt : UInt32
  pubAlgo : String
  hashAlgo : String
  sigType : GfrSignMode
deriving DecidableEq, Repr

/-- `sig_hash_algo_is_weak`. -/
def sigHashAlgoIsWeak (hashAlgo : String) : Bool :=
  hashAlgo == "MD5" || hashAlgo == "SHA1" || hashAlgo == "RIPEMD160"

/-- `signature_result_expired`, at the clock reading `now`. -/
def signatureResultExpired (sig : SignatureResultInternal) (now : UInt64) : Bool :=
  if sig.expiresAt = 0 then false else decide (sig.expiresAt.toUInt64 < now)

/-- `apply_signature_gate`: the entry, and whether it sets `is_verified`. -/
def applySignatureGate (sig : SignatureResultInternal) (verdict : KeyVerdict) (now : UInt64) :
    SignatureResultInternal × Bool :=
  match verdict with
  | .authorized =>
    -- Refused, but for what they are: neither is a sign of tampering.
    if sigHashAlgoIsWeak sig.hashAlgo then ({ sig with status := .weakHash }, false)
    else if signatureResultExpired sig now then ({ sig with status := .signatureExpired }, false)
    else ({ sig with status := .valid }, true)
  | .revoked => ({ sig with status := .keyRevoked }, false)
  | .expired => ({ sig with status := .keyExpired }, false)
  | .notAuthorized => ({ sig with status := .keyNotAuthorized }, false)
  | .noMatch =>
    if sig.status = .noKey then
      if sigHashAlgoIsWeak sig.hashAlgo then ({ sig with status := .weakHash }, false)
      else ({ sig with status := .badSignature }, false)
    else (sig, false)

/-- The two clock readings made while an entry is decided: one for its own expiry, one for what
became of its key since. -/
structure ClockReadings where
  gate : UInt64
  since : UInt64

section

variable (V : Verifier) (toUppercase : List Char → List Char)

/-- The best verdict among the matching certificates, `unwrap_or(NoMatch)`. -/
def bestVerdict (verifies : SignedPublicKey → Option SignedPublicSubKey → Bool)
    (matching : List SignedPublicKey) (t : UInt32) : KeyVerdict :=
  (maxVerdict (matching.map fun cert => certVerdict V cert t (verifies cert))).getD .noMatch

/-- The body of the loop of `attribute_entries`: the entry, and whether it sets `is_verified`. -/
def attributeEntry (verifies : SignedPublicKey → Option SignedPublicSubKey → Bool)
    (certs : List SignedPublicKey) (readings : ClockReadings) (entry : SignatureResultInternal) :
    SignatureResultInternal × Bool :=
  let matching := certs.filter fun cert => certContainsIssuer toUppercase cert entry.fpr
  if matching.isEmpty then (entry, false)
  else
    let gated := applySignatureGate entry (bestVerdict V verifies matching entry.createdAt)
      readings.gate
    if gated.1.status = .valid then
      -- Valid as of its creation time, which the signer chose: what is it now?
      match bestVerdict V verifies matching readings.since.toUInt32 with
      | .revoked => ({ gated.1 with status := .keyRevokedSince }, gated.2)
      | .expired => ({ gated.1 with status := .keyExpiredSince }, gated.2)
      | _ => ({ gated.1 with status := .valid }, gated.2)
    else gated

/-- `attribute_entries` from index `i` on, with the flag `is_verified`. -/
def attributeFrom (verifies : Nat → SignedPublicKey → Option SignedPublicSubKey → Bool)
    (certs : List SignedPublicKey) (clock : Nat → ClockReadings) :
    Nat → List SignatureResultInternal → Bool → List SignatureResultInternal × Bool
  | _, [], isVerified => ([], isVerified)
  | i, entry :: rest, isVerified =>
    let decided := attributeEntry V toUppercase (verifies i) certs (clock i) entry
    let others := attributeFrom verifies certs clock (i + 1) rest (isVerified || decided.2)
    (decided.1 :: others.1, others.2)

/-- `attribute_entries`. -/
def attributeEntries (verifies : Nat → SignedPublicKey → Option SignedPublicSubKey → Bool)
    (certs : List SignedPublicKey) (clock : Nat → ClockReadings)
    (entries : List SignatureResultInternal) (isVerified : Bool) :
    List SignatureResultInternal × Bool :=
  attributeFrom V toUppercase verifies certs clock 0 entries isVerified

end

/-! ## From packets to entries -/

/-- `is_document_signature`. -/
def isDocumentSignature (sig : Signature) : Bool :=
  decide (sig.typ = some .binary) || decide (sig.typ = some .text)

/-- `signature_is_evaluable`. -/
def signatureIsEvaluable (sig : Signature) : Bool :=
  isDocumentSignature sig && !hasCriticalUnsupportedSubpacket sig

/-- `signature_absolute_expiry`. -/
def signatureAbsoluteExpiry (sig : Signature) : UInt32 :=
  match sig.created, sig.signatureExpirationTime with
  | some created, some dur => saturatingAdd created dur
  | _, _ => 0

/-- `sig_entry_from_packet`. `describe` gives the names the library prints for the digest and the
public-key algorithm. -/
def sigEntryFromPacket (describe : Signature → String × String) (mode : GfrSignMode)
    (sig : Signature) : SignatureResultInternal where
  fpr := (sig.issuerFingerprint.head?.or sig.issuerKeyId.head?).getD ""
  status := .noKey
  createdAt := sig.created.getD 0
  expiresAt := signatureAbsoluteExpiry sig
  pubAlgo := if sig.config.isSome then (describe sig).2 else ""
  hashAlgo := if sig.config.isSome then (describe sig).1 else ""
  sigType := mode

/-- The check of `signature_verdict`: `verify sig key` is `sig.verify(key, data).is_ok()`. -/
def packetVerifies (verify : Signature → PublicKey → Bool) (sig : Signature)
    (cert : SignedPublicKey) (key : Option SignedPublicSubKey) : Bool :=
  signatureIsEvaluable sig &&
    match key with
    | none => verify sig cert.primaryKey
    | some sk => verify sig sk.key

/-- `verify_internal` on a detached or cleartext signature, once the packets are parsed and the
certificates fetched. -/
def verifyPackets (V : Verifier) (toUppercase : List Char → List Char)
    (describe : Signature → String × String) (verify : Signature → PublicKey → Bool)
    (mode : GfrSignMode) (sigPackets : List Signature) (certs : List SignedPublicKey)
    (clock : Nat → ClockReadings) : List SignatureResultInternal × Bool :=
  attributeEntries V toUppercase
    (fun i => match sigPackets[i]? with
      | some sig => packetVerifies verify sig
      | none => fun _ _ => false)
    certs clock (sigPackets.map (sigEntryFromPacket describe mode)) false

end Rpgp

end GpgFrontend
