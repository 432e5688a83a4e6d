import GpgFrontend.Base.TieOrder
import GpgFrontend.Rpgp.MergeKeys
import GpgFrontend.Rpgp.UnverifiedSignatures

/-!
# The order of the signature packets

`Reordered pk pk'` says that `pk'` is `pk` with the signatures of each component in another
order. Revocations do not see the order. The signature in force is chosen by its date, and of
several made in the newest second the last is taken, of several made in the oldest the first.
So two orders read alike when the self-signatures a component is chosen from end alike in each
second (`TiesEndAlike`), and in particular when no two of them share a second (`NoTies`).
-/

namespace GpgFrontend

namespace Rpgp

/-- The key the self-signatures are compared by. -/
def sigSecs (sig : Signature) : UInt32 := createdSecs sig.toSignatureCore

/-! ## Choosing by date -/

section

attribute [local simp] maxByKey minByKey

variable {α : Type} {key : α → UInt32} {l l' : List α}

theorem maxByKey_eq_none {l : List α} (h : maxByKey key l = none) : l = [] := by
  cases l with
  | nil => rfl
  | cons x l =>
    rw [maxByKey] at h
    cases hl : maxByKey key l with
    | none => simp [hl] at h
    | some b => by_cases hb : key b < key x <;> simp [hl, hb] at h

theorem minByKey_eq_none {l : List α} (h : minByKey key l = none) : l = [] := by
  cases l with
  | nil => rfl
  | cons x l =>
    rw [minByKey] at h
    cases hl : minByKey key l with
    | none => simp [hl] at h
    | some b => by_cases hb : key b < key x <;> simp [hl, hb] at h

/-- The greatest, and of its class the last. -/
theorem maxByKey_spec : ∀ {l : List α} {a : α}, maxByKey key l = some a →
    (∀ b ∈ l, key b ≤ key a) ∧ (tieClass key (key a) l).getLast? = some a := by
  intro l
  induction l with
  | nil => intro a h; cases h
  | cons x l ih =>
    intro a h
    rw [maxByKey] at h
    cases hl : maxByKey key l with
    | none =>
      rw [maxByKey_eq_none hl]
      obtain rfl : x = a := by simpa [hl] using h
      simp [tieClass]
    | some b =>
      obtain ⟨hle, hlast⟩ := ih hl
      simp only [hl] at h
      by_cases hb : key b < key x
      · obtain rfl : x = a := by simpa [hb] using h
        have hlt : ∀ c ∈ l, key c < key x := fun c hc => UInt32.lt_of_le_of_lt (hle c hc) hb
        have hnone : tieClass key (key x) l = [] := by
          refine List.filter_eq_nil_iff.2 fun c hc => ?_
          simpa using UInt32.ne_of_lt (hlt c hc)
        refine ⟨fun c hc => ?_, ?_⟩
        · rcases List.mem_cons.1 hc with rfl | hc
          · exact UInt32.le_refl _
          · exact UInt32.le_of_lt (hlt c hc)
        · rw [tieClass, List.filter_cons_of_pos (by simp), ← tieClass, hnone]
          rfl
      · obtain rfl : b = a := by simpa [hb] using h
        refine ⟨fun c hc => ?_, ?_⟩
        · rcases List.mem_cons.1 hc with rfl | hc
          · exact UInt32.not_lt.1 hb
          · exact hle c hc
        · by_cases hx : key x = key b
          · rw [tieClass, List.filter_cons_of_pos (by simpa using hx), ← tieClass,
              List.getLast?_cons, hlast]
            rfl
          · rw [tieClass, List.filter_cons_of_neg (by simpa using hx), ← tieClass, hlast]

/-- The least, and of its class the first. -/
theorem minByKey_spec : ∀ {l : List α} {a : α}, minByKey key l = some a →
    (∀ b ∈ l, key a ≤ key b) ∧ (tieClass key (key a) l).head? = some a := by
  intro l
  induction l with
  | nil => intro a h; cases h
  | cons x l ih =>
    intro a h
    rw [minByKey] at h
    cases hl : minByKey key l with
    | none =>
      rw [minByKey_eq_none hl]
      obtain rfl : x = a := by simpa [hl] using h
      simp [tieClass]
    | some b =>
      obtain ⟨hle, hfirst⟩ := ih hl
      simp only [hl] at h
      by_cases hb : key b < key x
      · obtain rfl : b = a := by simpa [hb] using h
        refine ⟨fun c hc => ?_, ?_⟩
        · rcases List.mem_cons.1 hc with rfl | hc
          · exact UInt32.le_of_lt hb
          · exact hle c hc
        · have hx : key x ≠ key b := (UInt32.ne_of_lt hb).symm
          rw [tieClass, List.filter_cons_of_neg (by simpa using hx), ← tieClass, hfirst]
      · obtain rfl : x = a := by simpa [hb] using h
        refine ⟨fun c hc => ?_, ?_⟩
        · rcases List.mem_cons.1 hc with rfl | hc
          · exact UInt32.le_refl _
          · exact UInt32.le_trans (UInt32.not_lt.1 hb) (hle c hc)
        · rw [tieClass, List.filter_cons_of_pos (by simp)]
          rfl

theorem maxByKey_congr (h : SameLasts key l l') : maxByKey key l = maxByKey key l' := by
  cases hl : maxByKey key l with
  | none =>
    obtain rfl := maxByKey_eq_none hl
    rw [h.eq_nil]
    rfl
  | some a =>
    obtain ⟨hle, hlast⟩ := maxByKey_spec hl
    have ha' : a ∈ l' := (mem_tieClass.1 (List.mem_of_getLast? (h (key a) ▸ hlast))).1
    cases hl' : maxByKey key l' with
    | none =>
      rw [maxByKey_eq_none hl'] at ha'
      exact absurd ha' List.not_mem_nil
    | some b =>
      obtain ⟨hle', hlast'⟩ := maxByKey_spec hl'
      obtain ⟨c, hc, hcb⟩ := h.exists_key
        (mem_tieClass.1 (List.mem_of_getLast? hlast')).1
      have hkey : key a = key b := UInt32.le_antisymm (hle' a ha') (hcb ▸ hle c hc)
      rw [← hlast, h (key a), hkey, hlast']

theorem minByKey_congr (h : SameTieEnds key l l') : minByKey key l = minByKey key l' := by
  cases hl : minByKey key l with
  | none =>
    obtain rfl := minByKey_eq_none hl
    rw [h.lasts.eq_nil]
    rfl
  | some a =>
    obtain ⟨hle, hfirst⟩ := minByKey_spec hl
    have hfirst' := h.first (key a) hle ▸ hfirst
    have ha' : a ∈ l' := (mem_tieClass.1 (List.mem_of_head? hfirst')).1
    cases hl' : minByKey key l' with
    | none =>
      rw [minByKey_eq_none hl'] at ha'
      exact absurd ha' List.not_mem_nil
    | some b =>
      obtain ⟨hle', hb'⟩ := minByKey_spec hl'
      obtain ⟨c, hc, hcb⟩ := h.lasts.exists_key (mem_tieClass.1 (List.mem_of_head? hb')).1
      have hkey : key a = key b := UInt32.le_antisymm (hcb ▸ hle c hc) (hle' a ha')
      rw [← hfirst', hkey, hb']

end

/-- **The choice sees the ends of each second.** -/
theorem chosenSig_congr {l l' : List Signature} (h : SameTieEnds sigSecs l l')
    (asOf : Option UInt32) : chosenSig l asOf = chosenSig l' asOf := by
  cases asOf with
  | none => exact maxByKey_congr h.lasts
  | some t =>
    have hmax := maxByKey_congr (h.lasts.filter_key fun secs => decide (secs ≤ t))
    have hmin := minByKey_congr h
    exact congrArg₂ Option.or hmax hmin

theorem sigInForce_congr {l l' : List Signature} (h : SameTieEnds sigSecs l l')
    (asOf : Option UInt32) (now : UInt32) : sigInForce l asOf now = sigInForce l' asOf now := by
  rw [sigInForce, sigInForce, chosenSig_congr h]

/-! ## Revocations do not see the order -/

theorem RevocationState.revokedAt_perm {l l' : List Signature} (h : l.Perm l') (t : UInt32) :
    (RevocationState.of l').revokedAt t = (RevocationState.of l).revokedAt t := by
  rw [Bool.eq_iff_iff, of_revokedAt_iff, of_revokedAt_iff]
  constructor
  · rintro ⟨r, hr, hcounts⟩
    exact ⟨r, h.mem_iff.2 hr, hcounts⟩
  · rintro ⟨r, hr, hcounts⟩
    exact ⟨r, h.mem_iff.1 hr, hcounts⟩

/-! ## Two orders of one certificate -/

structure ReorderedUser (user user' : SignedUser) : Prop where
  id : user'.id = user.id
  signatures : user.signatures.Perm user'.signatures

structure ReorderedDetails (details details' : SignedKeyDetails) : Prop where
  revocationSignatures : details.revocationSignatures.Perm details'.revocationSignatures
  directSignatures : details.directSignatures.Perm details'.directSignatures
  users : List.Forall₂ ReorderedUser details.users details'.users

structure ReorderedSubKey (sub sub' : SignedPublicSubKey) : Prop where
  key : sub'.key = sub.key
  signatures : sub.signatures.Perm sub'.signatures

/-- The same certificate with the signatures of each component in another order. Photo IDs are
not read here, and may differ. -/
structure Reordered (pk pk' : SignedPublicKey) : Prop where
  primaryKey : pk'.primaryKey = pk.primaryKey
  details : ReorderedDetails pk.details pk'.details
  publicSubkeys : List.Forall₂ ReorderedSubKey pk.publicSubkeys pk'.publicSubkeys

structure ReorderedSecretSubKey (sub sub' : SignedSecretSubKey) : Prop where
  key : sub'.key = sub.key
  signatures : sub.signatures.Perm sub'.signatures

/-- The same for a certificate held with its secret part. -/
structure SecretReordered (sk sk' : SignedSecretKey) : Prop where
  primaryKey : sk'.primaryKey = sk.primaryKey
  details : ReorderedDetails sk.details sk'.details
  publicSubkeys : List.Forall₂ ReorderedSubKey sk.publicSubkeys sk'.publicSubkeys
  secretSubkeys : List.Forall₂ ReorderedSecretSubKey sk.secretSubkeys sk'.secretSubkeys

/-! ## Ties -/

/-- No two different signatures of the list were made in the same second. -/
def Untied (sigs : List Signature) : Prop := Set.InjOn sigSecs {sig | sig ∈ sigs}

section

variable (V : Verifier) (primary : PublicKey)

/-- The self-certifications a User ID's is chosen from. -/
def uidCandidates (user : SignedUser) : List Signature :=
  (verifiedUidSelfSigs V primary user).filter fun sig =>
    !decide (sig.typ = some .certRevocation)

/-- The Direct Key signatures the primary key's is chosen from. -/
def directKeyCandidates (details : SignedKeyDetails) : List Signature :=
  (verifiedPrimarySelfSigs V primary details.directSignatures).filter fun sig =>
    decide (sig.typ = some .key)

/-- The bindings a subkey's is chosen from. -/
def bindingCandidates (subkey : PublicSubkey) (signatures : List Signature) : List Signature :=
  (verifiedSubkeySelfSigs V primary subkey signatures).filter fun sig =>
    decide (sig.typ = some .subkeyBinding)

/-- Of the candidates made in one second the same comes last in both orders, and of those made
in the oldest second the same comes first. -/
structure DetailsTiesEndAlike (details details' : SignedKeyDetails) : Prop where
  directKey :
    SameTieEnds sigSecs (directKeyCandidates V primary details)
      (directKeyCandidates V primary details')
  users :
    List.Forall₂
      (fun user user' =>
        SameTieEnds sigSecs (uidCandidates V primary user) (uidCandidates V primary user'))
      details.users details'.users

def SubKeyTiesEndAlike (sub sub' : SignedPublicSubKey) : Prop :=
  SameTieEnds sigSecs (bindingCandidates V primary sub.key sub.signatures)
    (bindingCandidates V primary sub.key sub'.signatures)

def SecretSubKeyTiesEndAlike (sub sub' : SignedSecretSubKey) : Prop :=
  SameTieEnds sigSecs (bindingCandidates V primary sub.key sub.signatures)
    (bindingCandidates V primary sub.key sub'.signatures)

structure TiesEndAlike (pk pk' : SignedPublicKey) : Prop where
  details : DetailsTiesEndAlike V pk.primaryKey pk.details pk'.details
  publicSubkeys :
    List.Forall₂ (SubKeyTiesEndAlike V pk.primaryKey) pk.publicSubkeys pk'.publicSubkeys

structure SecretTiesEndAlike (sk sk' : SignedSecretKey) : Prop where
  details : DetailsTiesEndAlike V sk.primaryKey sk.details sk'.details
  publicSubkeys :
    List.Forall₂ (SubKeyTiesEndAlike V sk.primaryKey) sk.publicSubkeys sk'.publicSubkeys
  secretSubkeys :
    List.Forall₂ (SecretSubKeyTiesEndAlike V sk.primaryKey) sk.secretSubkeys sk'.secretSubkeys

/-- No component of the certificate is chosen from two signatures of one second. -/
structure NoTies (pk : SignedPublicKey) : Prop where
  directKey : Untied (directKeyCandidates V pk.primaryKey pk.details)
  users : ∀ user ∈ pk.details.users, Untied (uidCandidates V pk.primaryKey user)
  subkeys : ∀ sub ∈ pk.publicSubkeys,
    Untied (bindingCandidates V pk.primaryKey sub.key sub.signatures)

end

/-! ## Two orders that read alike -/

section

variable {V : Verifier} {primary : PublicKey}

theorem ReorderedUser.readsAlike {user user' : SignedUser} (h : ReorderedUser user user')
    (hties : SameTieEnds sigSecs (uidCandidates V primary user) (uidCandidates V primary user')) :
    UserReadsAlike V primary user user' := by
  have hrevoked : ∀ asOf,
      userIdRevokedAt V primary user' asOf = userIdRevokedAt V primary user asOf := by
    intro asOf
    rw [userIdRevokedAt, userIdRevokedAt, h.id]
    exact h.signatures.any_eq.symm
  refine ⟨h.id, hrevoked, fun asOf now => ?inForce, ?certified⟩
  case inForce =>
    rw [userCertification, userCertification, hrevoked]
    congr 1
    exact (sigInForce_congr hties asOf now).symm
  case certified =>
    have hverified : (verifiedUidSelfSigs V primary user).Perm
        (verifiedUidSelfSigs V primary user') := by
      rw [verifiedUidSelfSigs, verifiedUidSelfSigs, h.id]
      exact h.signatures.filter _
    exact hverified.any_eq.symm

theorem isPrimaryKeyRevoked_perm {l l' : List Signature} (h : l.Perm l') :
    isPrimaryKeyRevoked V primary l' = isPrimaryKeyRevoked V primary l :=
  h.any_eq.symm

variable {details details' : SignedKeyDetails}

theorem ReorderedDetails.revokedAt (h : ReorderedDetails details details') (t : UInt32) :
    (primaryRevocationState V primary details').revokedAt t
      = (primaryRevocationState V primary details).revokedAt t :=
  RevocationState.revokedAt_perm
    ((h.revocationSignatures.append h.directSignatures).filter _) t

theorem ReorderedDetails.readAlike (h : ReorderedDetails details details')
    (hties : DetailsTiesEndAlike V primary details details') :
    DetailsReadAlike V primary details details' where
  users := h.users.mp (fun _ _ huser => huser.readsAlike) hties.users
  inForce asOf now := (sigInForce_congr hties.directKey asOf now).symm
  revokedAt := h.revokedAt
  revoked := by
    rw [isPrimaryKeyRevoked_perm h.revocationSignatures, isPrimaryKeyRevoked_perm h.directSignatures]

variable {subkey : PublicSubkey}

theorem subkeyRevokedAt_perm {l l' : List Signature} (h : l.Perm l') (t : UInt32) :
    (subkeyRevocationState V primary subkey l').revokedAt t
      = (subkeyRevocationState V primary subkey l).revokedAt t :=
  RevocationState.revokedAt_perm (h.filter _) t

theorem bindingsReadAlike_of_perm {l l' : List Signature} (h : l.Perm l')
    (hties : SameTieEnds sigSecs (bindingCandidates V primary subkey l)
      (bindingCandidates V primary subkey l')) :
    BindingsReadAlike V primary subkey l l' where
  inForce asOf now := (sigInForce_congr hties asOf now).symm
  revokedAt := subkeyRevokedAt_perm h
  revoked := h.any_eq.symm

theorem ReorderedSubKey.readsAlike {sub sub' : SignedPublicSubKey} (h : ReorderedSubKey sub sub')
    (hties : SubKeyTiesEndAlike V primary sub sub') : SubKeyReadsAlike V primary sub sub' :=
  ⟨h.key, bindingsReadAlike_of_perm h.signatures hties⟩

theorem ReorderedSecretSubKey.readsAlike {sub sub' : SignedSecretSubKey}
    (h : ReorderedSecretSubKey sub sub') (hties : SecretSubKeyTiesEndAlike V primary sub sub') :
    SecretSubKeyReadsAlike V primary sub sub' :=
  ⟨h.key, bindingsReadAlike_of_perm h.signatures hties⟩

theorem Reordered.readsAlike {pk pk' : SignedPublicKey} (h : Reordered pk pk')
    (hties : TiesEndAlike V pk pk') : ReadsAlike V pk pk' where
  primaryKey := h.primaryKey
  details := h.details.readAlike hties.details
  publicSubkeys := h.publicSubkeys.mp (fun _ _ hsub => hsub.readsAlike) hties.publicSubkeys

theorem SecretReordered.readsAlike {sk sk' : SignedSecretKey} (h : SecretReordered sk sk')
    (hties : SecretTiesEndAlike V sk sk') : SecretReadsAlike V sk sk' where
  primaryKey := h.primaryKey
  details := h.details.readAlike hties.details
  publicSubkeys := h.publicSubkeys.mp (fun _ _ hsub => hsub.readsAlike) hties.publicSubkeys
  secretSubkeys := h.secretSubkeys.mp (fun _ _ hsub => hsub.readsAlike) hties.secretSubkeys

/-! ## Without ties -/

theorem ReorderedUser.tiesEndAlike {user user' : SignedUser} (h : ReorderedUser user user')
    (huntied : Untied (uidCandidates V primary user)) :
    SameTieEnds sigSecs (uidCandidates V primary user) (uidCandidates V primary user') := by
  refine SameTieEnds.of_perm ?_ huntied
  rw [uidCandidates, uidCandidates, verifiedUidSelfSigs, verifiedUidSelfSigs, h.id]
  exact (h.signatures.filter _).filter _

theorem bindings_tiesEndAlike {l l' : List Signature} (h : l.Perm l')
    (huntied : Untied (bindingCandidates V primary subkey l)) :
    SameTieEnds sigSecs (bindingCandidates V primary subkey l)
      (bindingCandidates V primary subkey l') :=
  SameTieEnds.of_perm ((h.filter _).filter _) huntied

theorem ReorderedDetails.tiesEndAlike (h : ReorderedDetails details details')
    (hdirect : Untied (directKeyCandidates V primary details))
    (husers : ∀ user ∈ details.users, Untied (uidCandidates V primary user)) :
    DetailsTiesEndAlike V primary details details' where
  directKey := SameTieEnds.of_perm ((h.directSignatures.filter _).filter _) hdirect
  users := forall₂_of_forall_mem h.users husers fun _ _ huntied huser =>
    huser.tiesEndAlike huntied

theorem Reordered.tiesEndAlike {pk pk' : SignedPublicKey} (h : Reordered pk pk')
    (hties : NoTies V pk) : TiesEndAlike V pk pk' where
  details := h.details.tiesEndAlike hties.directKey hties.users
  publicSubkeys := forall₂_of_forall_mem h.publicSubkeys hties.subkeys fun _ _ huntied hsub =>
    bindings_tiesEndAlike hsub.signatures huntied

theorem SecretReordered.tiesEndAlike {sk sk' : SignedSecretKey} (h : SecretReordered sk sk')
    (hties : NoTies V sk.toPublic) : SecretTiesEndAlike V sk sk' where
  details := h.details.tiesEndAlike hties.directKey hties.users
  publicSubkeys :=
    forall₂_of_forall_mem h.publicSubkeys
      (fun sub hsub => hties.subkeys sub (List.mem_append_left _ hsub)) fun _ _ huntied hsub =>
      bindings_tiesEndAlike hsub.signatures huntied
  secretSubkeys :=
    forall₂_of_forall_mem (p := fun sub : SignedSecretSubKey =>
        Untied (bindingCandidates V sk.primaryKey sub.key sub.signatures)) h.secretSubkeys
      (fun sub hsub => hties.subkeys sub.toPublic
        (List.mem_append_right _ (List.mem_map_of_mem hsub))) fun _ _ huntied hsub =>
      bindings_tiesEndAlike hsub.signatures huntied

end

/-! ## The result -/

/-- **The order of the packets matters through ties alone.** Two orders of the signatures of a
certificate give the same revocations. They give the same verdict at every instant and the same
entry in the key list (expiry, capabilities and primary user ID) when ties end alike in both,
and so for every order of a certificate without ties. -/
theorem packet_order (V : Verifier) {pk pk' : SignedPublicKey} (h : Reordered pk pk')
    {sk sk' : SignedSecretKey} (hs : SecretReordered sk sk') :
    (TiesEndAlike V pk pk' →
      (∀ t, signingVerdicts V pk' t = signingVerdicts V pk t) ∧
      ∀ now, buildPublicMetadata V pk' now = buildPublicMetadata V pk now) ∧
    (SecretTiesEndAlike V sk sk' →
      (∀ t, signingVerdicts V sk'.toPublic t = signingVerdicts V sk.toPublic t) ∧
      ∀ now, buildSecretMetadata V sk' now = buildSecretMetadata V sk now) ∧
    (NoTies V pk → TiesEndAlike V pk pk') ∧
    (NoTies V sk.toPublic → SecretTiesEndAlike V sk sk') ∧
    (∀ t, (primaryRevocationState V pk'.primaryKey pk'.details).revokedAt t
        = (primaryRevocationState V pk.primaryKey pk.details).revokedAt t) ∧
    List.Forall₂
      (fun sub sub' => ∀ t,
        (subkeyRevocationState V pk'.primaryKey sub'.key sub'.signatures).revokedAt t
          = (subkeyRevocationState V pk.primaryKey sub.key sub.signatures).revokedAt t)
      pk.publicSubkeys pk'.publicSubkeys := by
  refine ⟨fun hties => ?_, fun hties => ?_, h.tiesEndAlike, hs.tiesEndAlike, fun t => ?_, ?_⟩
  · have halike := h.readsAlike hties
    exact ⟨halike.signingVerdicts_eq, halike.buildPublicMetadata_eq⟩
  · have halike := hs.readsAlike hties
    exact ⟨halike.toPublic.signingVerdicts_eq, halike.buildSecretMetadata_eq⟩
  · rw [h.primaryKey]
    exact h.details.revokedAt t
  · refine h.publicSubkeys.imp fun sub sub' hsub t => ?_
    rw [h.primaryKey, hsub.key]
    exact subkeyRevokedAt_perm hsub.signatures t

/-! ## A tie -/

/-- Every signature is the key holder's. -/
def genuine : Verifier where
  verifyKey _ _ := true
  verifyCertification _ _ _ := true
  verifyAttribute _ _ _ := true
  verifySubkeyBinding _ _ _ := true
  verifyPrimaryKeyBinding _ _ _ := true

/-- A self-certification that marks its User ID primary. -/
def markedCertification : Signature :=
  { plainSignature 1 .certPositive 100 with isPrimary := true, issuerFingerprint := ["A"] }

/-- One of the same second that does not, and lets the key expire at 150. -/
def plainCertification : Signature :=
  { plainSignature 2 .certPositive 100 with
    keyExpirationTime := some 50, issuerFingerprint := ["A"] }

/-- The certification of the other User ID, by which the key expires at 160 and does not sign. -/
def otherCertification : Signature :=
  { plainSignature 3 .certPositive 101 with
    keyExpirationTime := some 60, keyFlags := ⟨true, false, false, false, false⟩,
    issuerFingerprint := ["A"] }

/-- Two User IDs, the first with these certifications. -/
def tiedCert (sigs : List Signature) : SignedPublicKey where
  primaryKey := sampleKey "A"
  details :=
    { revocationSignatures := []
      directSignatures := []
      users := [⟨⟨[97], "a"⟩, sigs⟩, ⟨⟨[98], "b"⟩, [otherCertification]⟩]
      userAttributes := [] }
  publicSubkeys := []

def tiedSecret (sigs : List Signature) : SignedSecretKey :=
  ⟨sampleKey "A", [], (tiedCert sigs).details, [], []⟩

theorem tiedCert_reordered {sigs sigs' : List Signature} (h : sigs.Perm sigs') :
    Reordered (tiedCert sigs) (tiedCert sigs') where
  primaryKey := rfl
  details := ⟨.refl _, .refl _, .cons ⟨rfl, h⟩ (.cons ⟨rfl, .refl _⟩ .nil)⟩
  publicSubkeys := .nil

theorem tiedSecret_reordered {sigs sigs' : List Signature} (h : sigs.Perm sigs') :
    SecretReordered (tiedSecret sigs) (tiedSecret sigs') where
  primaryKey := rfl
  details := (tiedCert_reordered h).details
  publicSubkeys := .nil
  secretSubkeys := .nil

/-- Two copies of one certificate, each holding one of two certifications of one second, become
two certificates that are told apart, by the order in which they are merged. -/
theorem tied_certifications_disagree :
    Reordered (tiedCert [markedCertification, plainCertification])
        (tiedCert [plainCertification, markedCertification]) ∧
      mergePkIntoPk genuine (tiedCert [markedCertification]) (tiedCert [plainCertification])
        = tiedCert [markedCertification, plainCertification] ∧
      mergePkIntoPk genuine (tiedCert [plainCertification]) (tiedCert [markedCertification])
        = tiedCert [plainCertification, markedCertification] ∧
      signingVerdicts genuine (tiedCert [markedCertification, plainCertification]) 200
        = [.expired] ∧
      signingVerdicts genuine (tiedCert [plainCertification, markedCertification]) 200
        = [.authorized] ∧
      (let listed := buildPublicMetadata genuine
          (tiedCert [markedCertification, plainCertification]) 200
       (listed.expiresAt, listed.caps.sign, listed.userIds.head?.map (·.userId))
        = (160, false, some "b")) ∧
      (let listed := buildPublicMetadata genuine
          (tiedCert [plainCertification, markedCertification]) 200
       (listed.expiresAt, listed.caps.sign, listed.userIds.head?.map (·.userId))
        = (0, true, some "a")) := by
  refine ⟨tiedCert_reordered (.swap _ _ _), ?_, ?_, ?_, ?_, ?_, ?_⟩ <;> decide

/-- The certification without the mark, made a second earlier. -/
def olderCertification : Signature := { plainCertification with created := some 99 }

theorem untiedCert_noTies :
    NoTies genuine (tiedCert [olderCertification, markedCertification]) where
  directKey := fun a ha => absurd ha List.not_mem_nil
  users := by
    have huntied : ∀ user ∈ (tiedCert [olderCertification, markedCertification]).details.users,
        ∀ a ∈ uidCandidates genuine (sampleKey "A") user,
        ∀ b ∈ uidCandidates genuine (sampleKey "A") user, sigSecs a = sigSecs b → a = b := by
      decide
    exact fun user huser a ha b hb => huntied user huser a ha b hb
  subkeys := fun sub hsub => absurd hsub List.not_mem_nil

theorem packet_order_untied :
    signingVerdicts genuine (tiedCert [markedCertification, olderCertification]) 200
        = [.authorized] ∧
      (buildSecretMetadata genuine (tiedSecret [markedCertification, olderCertification])
        200).expiresAt = 0 := by
  have hperm : [olderCertification, markedCertification].Perm
      [markedCertification, olderCertification] := .swap _ _ _
  obtain ⟨hpublic, hsecret, huntied, huntiedSecret, -⟩ :=
    packet_order genuine (tiedCert_reordered hperm) (tiedSecret_reordered hperm)
  rw [(hpublic (huntied untiedCert_noTies)).1 200,
    (hsecret (huntiedSecret untiedCert_noTies)).2 200]
  decide

end Rpgp

end GpgFrontend
