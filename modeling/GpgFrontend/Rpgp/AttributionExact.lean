import GpgFrontend.Rpgp.Attribution
import GpgFrontend.Rpgp.UnverifiedSignatures

/-!
# Attribution is exact per signature

- `certVerdict_authorized_iff`, `bestVerdict_authorized_iff`: a certificate vouches exactly when
  one of its keys verifies the signature and is authorized at its creation time.
-/

namespace GpgFrontend

namespace Rpgp

/-! ## Verdicts -/

theorem KeyVerdict.max_authorized_iff (v w : KeyVerdict) :
    v.max w = .authorized ↔ v = .authorized ∨ w = .authorized := by
  cases v <;> cases w <;> simp [KeyVerdict.max, KeyVerdict.rank]

theorem KeyVerdict.rank_max (v w : KeyVerdict) : (v.max w).rank = Nat.max v.rank w.rank := by
  cases v <;> cases w <;> rfl

section

variable (V : Verifier)

/-- Some key of the certificate verifies the signature and may vouch for one made at `t`. -/
def HasAuthorizedKey (cert : SignedPublicKey) (t : UInt32)
    (verifies : Option SignedPublicSubKey → Bool) : Prop :=
  (verifies none = true ∧ primarySigningVerdict V cert.primaryKey cert.details t = .authorized) ∨
    ∃ sk ∈ cert.publicSubkeys, verifies (some sk) = true ∧
      subkeySigningVerdict V cert.primaryKey cert.details sk.key sk.signatures t = .authorized

theorem certVerdictLoop_authorized_iff (cert : SignedPublicKey) (t : UInt32)
    (verifies : Option SignedPublicSubKey → Bool) (subs : List SignedPublicSubKey) :
    ∀ best : KeyVerdict, certVerdictLoop V cert t verifies best subs = .authorized ↔
      best = .authorized ∨ ∃ sk ∈ subs, verifies (some sk) = true ∧
        subkeySigningVerdict V cert.primaryKey cert.details sk.key sk.signatures t
          = .authorized := by
  induction subs with
  | nil => intro best; simp [certVerdictLoop]
  | cons sk rest ih =>
    intro best
    rw [certVerdictLoop]
    by_cases hbest : best = .authorized
    · simp [hbest]
    · by_cases hv : verifies (some sk) = true
      · simp only [hbest, hv, if_true, if_false, ih, KeyVerdict.max_authorized_iff, false_or,
          List.exists_mem_cons_iff, true_and]
      · simp [hbest, hv, ih]

/-- **A certificate vouches exactly through a key that verifies and is authorized.** -/
theorem certVerdict_authorized_iff (cert : SignedPublicKey) (t : UInt32)
    (verifies : Option SignedPublicSubKey → Bool) :
    certVerdict V cert t verifies = .authorized ↔ HasAuthorizedKey V cert t verifies := by
  rw [certVerdict, certVerdictLoop_authorized_iff, HasAuthorizedKey]
  by_cases hv : verifies none = true
  · simp [hv, KeyVerdict.max_authorized_iff]
  · simp [hv]

end

/-! ## The best verdict -/

theorem maxVerdict_eq_none_iff (l : List KeyVerdict) : maxVerdict l = none ↔ l = [] := by
  cases l with
  | nil => simp [maxVerdict]
  | cons v rest =>
    rw [maxVerdict]
    cases maxVerdict rest <;> simp

/-- The maximum is a member, and no member ranks above it. -/
theorem maxVerdict_spec {l : List KeyVerdict} :
    ∀ {best : KeyVerdict}, maxVerdict l = some best → best ∈ l ∧ ∀ v ∈ l, v.rank ≤ best.rank := by
  induction l with
  | nil => intro best h; simp [maxVerdict] at h
  | cons v rest ih =>
    intro best h
    rw [maxVerdict] at h
    cases hrest : maxVerdict rest with
    | none =>
      rw [hrest] at h
      obtain rfl : v = best := by simpa using h
      obtain rfl := (maxVerdict_eq_none_iff rest).1 hrest
      simp
    | some w =>
      rw [hrest] at h
      obtain rfl : v.max w = best := by simpa using h
      obtain ⟨hmem, hle⟩ := ih hrest
      refine ⟨?_, fun u hu => ?_⟩
      · by_cases hwv : w.rank < v.rank
        · simp [KeyVerdict.max, hwv]
        · simp [KeyVerdict.max, hwv, hmem]
      · rw [KeyVerdict.rank_max]
        rcases List.mem_cons.1 hu with rfl | hu
        · exact Nat.le_max_left _ _
        · exact Nat.le_trans (hle u hu) (Nat.le_max_right _ _)

/-- The maximum depends on the set of verdicts only. -/
theorem maxVerdict_congr {l l' : List KeyVerdict} (h : ∀ v, v ∈ l ↔ v ∈ l') :
    maxVerdict l = maxVerdict l' := by
  cases hl : maxVerdict l with
  | none =>
    obtain rfl := (maxVerdict_eq_none_iff l).1 hl
    have hnil : l' = [] := List.eq_nil_iff_forall_not_mem.2 fun v hv => by simpa using (h v).2 hv
    rw [hnil, maxVerdict]
  | some best =>
    cases hl' : maxVerdict l' with
    | none =>
      obtain rfl := (maxVerdict_eq_none_iff l').1 hl'
      have hmem := (h best).1 (maxVerdict_spec hl).1
      simp at hmem
    | some best' =>
      obtain ⟨hmem, hle⟩ := maxVerdict_spec hl
      obtain ⟨hmem', hle'⟩ := maxVerdict_spec hl'
      congr 1
      exact KeyVerdict.rank_injective
        (Nat.le_antisymm (hle' best ((h best).1 hmem)) (hle best' ((h best').2 hmem')))

theorem maxVerdict_authorized_iff (l : List KeyVerdict) :
    (maxVerdict l).getD .noMatch = .authorized ↔ .authorized ∈ l := by
  induction l with
  | nil => simp [maxVerdict]
  | cons v rest ih =>
    rw [maxVerdict]
    cases hrest : maxVerdict rest with
    | none =>
      obtain rfl := (maxVerdict_eq_none_iff rest).1 hrest
      simp [eq_comm]
    | some w =>
      rw [hrest] at ih
      simp only [Option.getD_some] at ih ⊢
      rw [KeyVerdict.max_authorized_iff, ih, List.mem_cons, eq_comm]

section

variable (V : Verifier)

theorem bestVerdict_authorized_iff
    (verifies : SignedPublicKey → Option SignedPublicSubKey → Bool)
    (matching : List SignedPublicKey) (t : UInt32) :
    bestVerdict V verifies matching t = .authorized ↔
      ∃ cert ∈ matching, HasAuthorizedKey V cert t (verifies cert) := by
  rw [bestVerdict, maxVerdict_authorized_iff, List.mem_map]
  simp only [certVerdict_authorized_iff]

/-- The best verdict is about the set of certificates, and about how their keys verify. -/
theorem bestVerdict_congr {verifies verifies' : SignedPublicKey → Option SignedPublicSubKey → Bool}
    {matching matching' : List SignedPublicKey} (hmem : ∀ cert, cert ∈ matching ↔ cert ∈ matching')
    (hverifies : ∀ cert ∈ matching, verifies cert = verifies' cert) (t : UInt32) :
    bestVerdict V verifies matching t = bestVerdict V verifies' matching' t := by
  rw [bestVerdict, bestVerdict]
  congr 1
  refine maxVerdict_congr fun v => ?_
  simp only [List.mem_map]
  constructor
  · rintro ⟨cert, hcert, rfl⟩
    exact ⟨cert, (hmem cert).1 hcert, by rw [hverifies cert hcert]⟩
  · rintro ⟨cert, hcert, rfl⟩
    exact ⟨cert, (hmem cert).2 hcert, by rw [hverifies cert ((hmem cert).2 hcert)]⟩

end

/-! ## One entry -/

/-- Valid, plainly or with the key revoked or expired since. -/
def GfrSignatureStatus.isValid : GfrSignatureStatus → Bool
  | .valid | .keyRevokedSince | .keyExpiredSince => true
  | _ => false

/-- From `NoKey`, the gate ends at `Valid` exactly for an authorized key, a strong digest and a
live signature. -/
theorem applySignatureGate_valid_iff {entry : SignatureResultInternal}
    (hnew : entry.status = .noKey) (verdict : KeyVerdict) (now : UInt64) :
    (applySignatureGate entry verdict now).1.status = .valid ↔
      verdict = .authorized ∧ sigHashAlgoIsWeak entry.hashAlgo = false ∧
        signatureResultExpired entry now = false := by
  by_cases hweak : sigHashAlgoIsWeak entry.hashAlgo = true <;>
    by_cases hexpired : signatureResultExpired entry now = true <;>
    cases verdict <;> simp [applySignatureGate, hnew, hweak, hexpired]

/-- It never ends at one of the two statuses told apart afterwards. -/
theorem applySignatureGate_not_since {entry : SignatureResultInternal}
    (hnew : entry.status = .noKey) (verdict : KeyVerdict) (now : UInt64) :
    (applySignatureGate entry verdict now).1.status ≠ .keyRevokedSince ∧
      (applySignatureGate entry verdict now).1.status ≠ .keyExpiredSince := by
  by_cases hweak : sigHashAlgoIsWeak entry.hashAlgo = true <;>
    by_cases hexpired : signatureResultExpired entry now = true <;>
    cases verdict <;> simp [applySignatureGate, hnew, hweak, hexpired]

section

variable (V : Verifier) (toUppercase : List Char → List Char)

/-- The certificates an entry is decided by. -/
def matchingCerts (certs : List SignedPublicKey) (issuer : String) : List SignedPublicKey :=
  certs.filter fun cert => certContainsIssuer toUppercase cert issuer

variable {entry : SignatureResultInternal}

theorem attributeEntry_unmatched {verifies : SignedPublicKey → Option SignedPublicSubKey → Bool}
    {certs : List SignedPublicKey} {readings : ClockReadings}
    (h : ∀ cert ∈ certs, certContainsIssuer toUppercase cert entry.fpr = false) :
    attributeEntry V toUppercase verifies certs readings entry = (entry, false) := by
  have hnone : certs.filter (fun cert => certContainsIssuer toUppercase cert entry.fpr) = [] :=
    List.filter_eq_nil_iff.2 fun cert hcert => by simp [h cert hcert]
  simp [attributeEntry, hnone]

/-- An entry ends as valid exactly when its gate does. -/
theorem attributeEntry_isValid_iff (verifies : SignedPublicKey → Option SignedPublicSubKey → Bool)
    (certs : List SignedPublicKey) (readings : ClockReadings) (hnew : entry.status = .noKey) :
    (attributeEntry V toUppercase verifies certs readings entry).1.status.isValid = true ↔
      (∃ cert ∈ certs, certContainsIssuer toUppercase cert entry.fpr = true ∧
          HasAuthorizedKey V cert entry.createdAt (verifies cert)) ∧
        sigHashAlgoIsWeak entry.hashAlgo = false ∧
        signatureResultExpired entry readings.gate = false := by
  have hbest : bestVerdict V verifies (matchingCerts toUppercase certs entry.fpr) entry.createdAt
      = .authorized ↔ ∃ cert ∈ certs, certContainsIssuer toUppercase cert entry.fpr = true ∧
        HasAuthorizedKey V cert entry.createdAt (verifies cert) := by
    rw [bestVerdict_authorized_iff]
    simp only [matchingCerts, List.mem_filter, and_assoc]
  by_cases hempty : matchingCerts toUppercase certs entry.fpr = []
  · have hunmatched : ∀ cert ∈ certs, certContainsIssuer toUppercase cert entry.fpr = false := by
      simpa [matchingCerts, List.filter_eq_nil_iff] using hempty
    rw [attributeEntry_unmatched V toUppercase hunmatched]
    constructor
    · intro h
      simp [hnew, GfrSignatureStatus.isValid] at h
    · rintro ⟨⟨cert, hcert, hmatch, -⟩, -⟩
      simp [hunmatched cert hcert] at hmatch
  · rw [← hbest, ← applySignatureGate_valid_iff hnew, attributeEntry]
    have hnonempty : (certs.filter fun cert =>
        certContainsIssuer toUppercase cert entry.fpr).isEmpty = false := by
      simpa [matchingCerts] using hempty
    simp only [hnonempty, Bool.false_eq_true, if_false]
    have hsince := applySignatureGate_not_since hnew
      (bestVerdict V verifies (matchingCerts toUppercase certs entry.fpr) entry.createdAt)
      readings.gate
    simp only [matchingCerts] at hsince ⊢
    split
    case isTrue hvalid =>
      simp only [hvalid, iff_true]
      split <;> rfl
    case isFalse hinvalid =>
      simp only [hinvalid, iff_false]
      intro h
      cases hs : (applySignatureGate entry (bestVerdict V verifies
        (certs.filter fun cert => certContainsIssuer toUppercase cert entry.fpr) entry.createdAt)
        readings.gate).1.status <;> simp_all [GfrSignatureStatus.isValid]

/-- **An entry sees the fetched certificates through those that name its issuer.** -/
theorem attributeEntry_congr
    {verifies verifies' : SignedPublicKey → Option SignedPublicSubKey → Bool}
    {certs certs' : List SignedPublicKey}
    (hcerts : ∀ cert, certContainsIssuer toUppercase cert entry.fpr = true →
      (cert ∈ certs ↔ cert ∈ certs'))
    (hverifies : ∀ cert, certContainsIssuer toUppercase cert entry.fpr = true →
      verifies cert = verifies' cert) (readings : ClockReadings) :
    attributeEntry V toUppercase verifies certs readings entry
      = attributeEntry V toUppercase verifies' certs' readings entry := by
  have hmem : ∀ cert, cert ∈ matchingCerts toUppercase certs entry.fpr ↔
      cert ∈ matchingCerts toUppercase certs' entry.fpr := by
    intro cert
    simp only [matchingCerts, List.mem_filter]
    constructor
    · rintro ⟨hcert, hmatch⟩
      exact ⟨(hcerts cert hmatch).1 hcert, hmatch⟩
    · rintro ⟨hcert, hmatch⟩
      exact ⟨(hcerts cert hmatch).2 hcert, hmatch⟩
  have hbest : ∀ t, bestVerdict V verifies (matchingCerts toUppercase certs entry.fpr) t
      = bestVerdict V verifies' (matchingCerts toUppercase certs' entry.fpr) t :=
    bestVerdict_congr V hmem fun cert hcert => hverifies cert (List.mem_filter.1 hcert).2
  have hempty : (matchingCerts toUppercase certs entry.fpr).isEmpty
      = (matchingCerts toUppercase certs' entry.fpr).isEmpty := by
    rw [Bool.eq_iff_iff, List.isEmpty_iff, List.isEmpty_iff, List.eq_nil_iff_forall_not_mem,
      List.eq_nil_iff_forall_not_mem]
    exact forall_congr' fun cert => not_congr (hmem cert)
  simp only [matchingCerts] at hbest hempty
  simp only [attributeEntry, hempty, hbest]

/-! ## All entries -/

theorem attributeFrom_getElem? (verifies : Nat → SignedPublicKey → Option SignedPublicSubKey → Bool)
    (certs : List SignedPublicKey) (clock : Nat → ClockReadings)
    (entries : List SignatureResultInternal) :
    ∀ (i : Nat) (isVerified : Bool) (k : Nat),
      (attributeFrom V toUppercase verifies certs clock i entries isVerified).1[k]?
        = entries[k]?.map fun entry =>
          (attributeEntry V toUppercase (verifies (i + k)) certs (clock (i + k)) entry).1 := by
  induction entries with
  | nil => intro i isVerified k; simp [attributeFrom]
  | cons entry rest ih =>
    intro i isVerified k
    rw [attributeFrom]
    cases k with
    | zero => simp
    | succ k =>
      rw [List.getElem?_cons_succ, List.getElem?_cons_succ, ih, show i + 1 + k = i + (k + 1) by omega]

/-- **The loop decides every entry on its own.** -/
theorem attributeEntries_getElem?
    (verifies : Nat → SignedPublicKey → Option SignedPublicSubKey → Bool)
    (certs : List SignedPublicKey) (clock : Nat → ClockReadings)
    (entries : List SignatureResultInternal) (isVerified : Bool) (i : Nat) :
    (attributeEntries V toUppercase verifies certs clock entries isVerified).1[i]?
      = entries[i]?.map fun entry =>
        (attributeEntry V toUppercase (verifies i) certs (clock i) entry).1 := by
  rw [attributeEntries, attributeFrom_getElem?, Nat.zero_add]

/-- **Attribution is exact per signature.** Entry `i` ends as valid exactly when some fetched
certificate that holds its issuer has a key that verifies signature `i` and is authorized at its
creation time, the digest is acceptable and the signature has not expired. With no such
certificate it is left as it was. And its result is the same in any other list, at any other
place, with any other fetched certificates, as long as those that name its issuer are the same. -/
theorem attribution_exact (verifies : Nat → SignedPublicKey → Option SignedPublicSubKey → Bool)
    (certs : List SignedPublicKey) (clock : Nat → ClockReadings)
    (entries : List SignatureResultInternal) (isVerified : Bool)
    (hnew : ∀ entry ∈ entries, entry.status = .noKey) (i : Nat) (entry : SignatureResultInternal)
    (hentry : entries[i]? = some entry) :
    ∃ result, (attributeEntries V toUppercase verifies certs clock entries isVerified).1[i]?
        = some result ∧
      (result.status.isValid = true ↔
        (∃ cert ∈ certs, certContainsIssuer toUppercase cert entry.fpr = true ∧
            HasAuthorizedKey V cert entry.createdAt (verifies i cert)) ∧
          sigHashAlgoIsWeak entry.hashAlgo = false ∧
          signatureResultExpired entry (clock i).gate = false) ∧
      ((∀ cert ∈ certs, certContainsIssuer toUppercase cert entry.fpr = false) →
        result = entry ∧ result.status = .noKey) ∧
      ∀ (verifies' : Nat → SignedPublicKey → Option SignedPublicSubKey → Bool)
        (certs' : List SignedPublicKey) (clock' : Nat → ClockReadings)
        (entries' : List SignatureResultInternal) (isVerified' : Bool) (j : Nat),
        entries'[j]? = some entry → clock' j = clock i →
        (∀ cert, certContainsIssuer toUppercase cert entry.fpr = true →
          verifies' j cert = verifies i cert) →
        (∀ cert, certContainsIssuer toUppercase cert entry.fpr = true →
          (cert ∈ certs' ↔ cert ∈ certs)) →
        (attributeEntries V toUppercase verifies' certs' clock' entries' isVerified').1[j]?
          = some result := by
  have hstatus : entry.status = .noKey := hnew entry (List.mem_of_getElem? hentry)
  refine ⟨(attributeEntry V toUppercase (verifies i) certs (clock i) entry).1, ?_, ?_, ?_, ?_⟩
  · rw [attributeEntries_getElem?, hentry]
    rfl
  · exact attributeEntry_isValid_iff V toUppercase (verifies i) certs (clock i) hstatus
  · intro hunmatched
    rw [attributeEntry_unmatched V toUppercase hunmatched]
    exact ⟨rfl, hstatus⟩
  · intro verifies' certs' clock' entries' isVerified' j hentry' hclock hverifies hcerts
    rw [attributeEntries_getElem?, hentry', hclock]
    rw [Option.map_some, attributeEntry_congr V toUppercase hcerts hverifies]

end

/-! ## A Signature Expiration Time of zero -/

/-- A Signature Expiration Time of zero never expires, and is recorded as expiring when the
signature was made. -/
theorem zero_expiration_reads_expired (describe : Signature → String × String)
    (mode : GfrSignMode) {sig : Signature} {created : UInt32} (hcreated : sig.created = some created)
    (hzero : sig.signatureExpirationTime = some 0) (now : UInt64) :
    (∀ t, sigAliveAt sig t = true) ∧
      (signatureResultExpired (sigEntryFromPacket describe mode sig) now = true ↔
        created ≠ 0 ∧ created.toUInt64 < now) := by
  have hexpiry : signatureAbsoluteExpiry sig = created := by
    have hlt := created.toNat_lt
    simp only [signatureAbsoluteExpiry, hcreated, hzero, saturatingAdd]
    simp [UInt32.size, hlt]
  constructor
  · intro t
    simp [sigAliveAt, hzero]
  · by_cases hc : created = 0 <;>
      simp [signatureResultExpired, sigEntryFromPacket, hexpiry, hc]

/-! ## From the packets -/

/-- **The verdict on packet `i` is exact**: the document checks, the keys that verify it, and its
own digest and dates, but for one that never expires, which reads as expired at its creation. -/
theorem verifyPackets_isValid_iff (V : Verifier) (toUppercase : List Char → List Char)
    (describe : Signature → String × String) (verify : Signature → PublicKey → Bool)
    (mode : GfrSignMode) (sigPackets : List Signature) (certs : List SignedPublicKey)
    (clock : Nat → ClockReadings) {i : Nat} {sig : Signature} (hsig : sigPackets[i]? = some sig) :
    ∃ result, (verifyPackets V toUppercase describe verify mode sigPackets certs clock).1[i]?
        = some result ∧
      (result.status.isValid = true ↔
        (∃ cert ∈ certs,
          certContainsIssuer toUppercase cert (sigEntryFromPacket describe mode sig).fpr = true ∧
            HasAuthorizedKey V cert (createdSecs sig.toSignatureCore)
              (packetVerifies verify sig cert)) ∧
          sigHashAlgoIsWeak (sigEntryFromPacket describe mode sig).hashAlgo = false ∧
          signatureResultExpired (sigEntryFromPacket describe mode sig) (clock i).gate = false) ∧
      ∀ created, sig.created = some created → sig.signatureExpirationTime = some 0 →
        created ≠ 0 → created.toUInt64 < (clock i).gate →
        (∀ t, sigAliveAt sig t = true) ∧ result.status.isValid = false := by
  have hentry : (sigPackets.map (sigEntryFromPacket describe mode))[i]?
      = some (sigEntryFromPacket describe mode sig) := by
    rw [List.getElem?_map, hsig]
    rfl
  have hvalid := attributeEntry_isValid_iff V toUppercase (packetVerifies verify sig) certs
    (clock i) (show (sigEntryFromPacket describe mode sig).status = .noKey from rfl)
  refine ⟨_, ?_, hvalid, fun created hcreated hzero hne hlt => ?_⟩
  · rw [verifyPackets, attributeEntries_getElem?, hentry, Option.map_some, hsig]
  · obtain ⟨halive, hexpired⟩ := zero_expiration_reads_expired describe mode hcreated hzero
      (clock i).gate
    refine ⟨halive, Bool.eq_false_iff.2 fun h => ?_⟩
    rw [hexpired.2 ⟨hne, hlt⟩] at hvalid
    exact absurd (hvalid.1 h).2.2 nofun

/-- A signature of the subkey `B`, made at 150. -/
def subkeySignature (expiration : Option UInt32) : Signature :=
  { plainSignature 1 .binary 150 with
    issuerFingerprint := ["B"]
    signatureExpirationTime := expiration }

/-- Two signatures under one key, read at 300: the second one is to last for ever. -/
theorem verifyPackets_isValid_zero :
    let read := (verifyPackets tagVerifier (List.map Char.toUpper) (fun _ => ("SHA256", ""))
      (fun _ key => key.fingerprint == "B") .detached [subkeySignature none, subkeySignature (some 0)]
      [sampleCert []] fun _ => ⟨300, 300⟩).1
    (∃ result, read[0]? = some result ∧ result.status.isValid = true) ∧
      ∃ result, read[1]? = some result ∧ result.status.isValid = false := by
  have hread (i : Nat) (sig : Signature)
      (hsig : [subkeySignature none, subkeySignature (some 0)][i]? = some sig) :=
    verifyPackets_isValid_iff tagVerifier (List.map Char.toUpper) (fun _ => ("SHA256", ""))
      (fun _ key => key.fingerprint == "B") .detached _ [sampleCert []] (fun _ => ⟨300, 300⟩) hsig
  obtain ⟨valid, hvalid, hiff, -⟩ := hread 0 _ rfl
  obtain ⟨expired, hexpired, -, hzero⟩ := hread 1 _ rfl
  refine ⟨⟨valid, hvalid, hiff.2 ⟨⟨sampleCert [], by simp, by decide, ?_⟩, by decide, by decide⟩⟩,
    expired, hexpired, (hzero 150 rfl rfl (by decide) (by decide)).2⟩
  exact .inr ⟨sampleSubkey [], by simp [sampleCert], rfl, by decide⟩

/-! ## Instances -/

/-- A SHA-256 signature by `issuer`, made at 150. -/
def sampleEntry (issuer : String) : SignatureResultInternal :=
  ⟨issuer, .noKey, 150, 0, "EdDSALegacy", "SHA256", .detached⟩

/-- The first of two signatures verifies under the subkey `B`, the second under nothing. -/
def sampleVerifies (i : Nat) (_ : SignedPublicKey) (key : Option SignedPublicSubKey) : Bool :=
  match key with
  | none => false
  | some sk => i == 0 && sk.key.fingerprint == "B"

theorem attribution_exact_sample :
    ∃ result, (attributeEntries tagVerifier (List.map Char.toUpper) sampleVerifies
        [sampleCert []] (fun _ => ⟨300, 300⟩) [sampleEntry "B", sampleEntry "B"] false).1[0]?
        = some result ∧ result.status.isValid = true := by
  obtain ⟨result, hresult, hvalid, -⟩ := attribution_exact tagVerifier (List.map Char.toUpper)
    sampleVerifies [sampleCert []] (fun _ => ⟨300, 300⟩) [sampleEntry "B", sampleEntry "B"] false
    (by decide) 0 (sampleEntry "B") rfl
  refine ⟨result, hresult, hvalid.2 ⟨⟨sampleCert [], by simp, ?_, ?_⟩, by decide, by decide⟩⟩
  · decide
  · exact .inr ⟨sampleSubkey [], by simp [sampleCert], rfl, by decide⟩

end Rpgp

end GpgFrontend
