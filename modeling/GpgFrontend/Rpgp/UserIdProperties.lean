import GpgFrontend.Rpgp.UserIdEdits

/-!
# What an edit of the user IDs does to the key

The Key Flags, the expiration and the preferences of a key are those of the signature that speaks for
it. In version 4 that is a certification of a user ID, and a new one is newer than the rest.

- `edits_keep_properties_iff`: **exactly then the properties of the key stay.**
-/

namespace GpgFrontend

namespace Rpgp

/-! ## The certification in force, by its signature -/

section

variable {α β : Type}

theorem maxByKey_map (key : β → UInt32) (f : α → β) (l : List α) :
    maxByKey key (l.map f) = (maxByKey (fun a => key (f a)) l).map f := by
  induction l with
  | nil => rfl
  | cons a l ih =>
    rw [List.map_cons, maxByKey, maxByKey, ih]
    cases maxByKey (fun a => key (f a)) l with
    | none => rfl
    | some b =>
      by_cases hlt : key (f b) < key (f a) <;> simp [hlt]

/-- A last element wins unless something before it is greater. -/
theorem maxByKey_append_singleton (key : α → UInt32) (l : List α) (a : α) :
    maxByKey key (l ++ [a]) = match maxByKey key l with
      | none => some a
      | some b => if key a < key b then some b else some a := by
  induction l with
  | nil => rfl
  | cons x l ih =>
    rw [List.cons_append, maxByKey, maxByKey, ih]
    cases maxByKey key l with
    | none => rfl
    | some b =>
      by_cases hab : key a < key b
      · by_cases hbx : key b < key x
        · have hax : key a < key x := UInt32.lt_trans hab hbx
          simp [hab, hbx, hax]
        · simp [hab, hbx]
      · by_cases hbx : key b < key x
        · simp [hab, hbx]
        · have hax : ¬key a < key x := fun h =>
            hbx (UInt32.lt_of_le_of_lt (UInt32.not_lt.1 hab) h)
          simp [hab, hbx, hax]

end

section

variable (V : Verifier) (primary : PublicKey) (details : SignedKeyDetails) (now : UInt32)

/-- The certifications in force, one a user ID. -/
def certificationsInForce : List Signature :=
  details.users.filterMap (userCertification V primary none now)

theorem userCertifications_snd :
    (userCertifications V primary details none now).map Prod.snd
      = certificationsInForce V primary details now := by
  have hzip : ∀ (users : List SignedUser) (n : Nat),
      ((users.zipIdx n).filterMap fun entry =>
        (userCertification V primary none now entry.1).map fun sig => (entry.2, sig)).map Prod.snd
          = users.filterMap (userCertification V primary none now) := by
    intro users
    induction users with
    | nil => exact fun n => rfl
    | cons user users ih =>
      intro n
      rw [List.zipIdx_cons, List.filterMap_cons, List.filterMap_cons]
      cases hcert : userCertification V primary none now user with
      | none => simpa only [hcert, Option.map_none] using ih (n + 1)
      | some sig =>
        simp only [Option.map_some, List.map_cons]
        exact congrArg (sig :: ·) (ih (n + 1))
  exact hzip details.users 0

theorem uidCertificationInForce_eq :
    uidCertificationInForce V primary details none now
      = (maxByKey sigSecs ((certificationsInForce V primary details now).filter fun sig =>
            sig.isPrimary)).or
          (maxByKey sigSecs (certificationsInForce V primary details now)) := by
  have hfilter : (certificationsInForce V primary details now).filter (fun sig => sig.isPrimary)
      = ((userCertifications V primary details none now).filter fun entry =>
          entry.2.isPrimary).map Prod.snd := by
    rw [← userCertifications_snd, List.filter_map]
    rfl
  rw [hfilter, ← userCertifications_snd, maxByKey_map, maxByKey_map, ← Option.map_or]
  rfl

end

/-! ## A new user ID -/

/-- The details after an edit that keeps some user IDs and adds one. -/
def editedDetails (details : SignedKeyDetails) (keep : SignedUser → Bool) (newUser : SignedUser) :
    SignedKeyDetails :=
  { details with users := details.users.filter keep ++ [newUser] }

/-- What the key says of itself. -/
def propertiesInForce (V : Verifier) (R : PacketReader) (primary : PublicKey)
    (details : SignedKeyDetails) (now : UInt32) : Properties :=
  propertiesOf R (primarySigInForce V primary details none now)

/-- An edit that keeps the user IDs of `keep` and adds one leaves the properties alone: in version 6
always; where no user ID speaks for the key, if nothing else says anything of it; and else if the
certification that speaks among the user IDs that are left, should it be marked primary or dated later
than now, says what the one that speaks now says. -/
def PropertiesKept (V : Verifier) (R : PacketReader) (primary : PublicKey)
    (details : SignedKeyDetails) (keep : SignedUser → Bool) (now : UInt32) : Prop :=
  primary.version = .v6 ∨
    match uidCertificationInForce V primary details none now with
    | none => propertiesOf R (directKeyInForce V primary details none now) = noProperties
    | some template =>
      ∀ left, uidCertificationInForce V primary
          { details with users := details.users.filter keep } none now = some left →
        left.isPrimary = true ∨ now < sigSecs left →
          propertiesOf R (some left) = propertiesOf R (some template)

section

variable {V : Verifier} {R : PacketReader} {primary : PublicKey} {details : SignedKeyDetails}
  {keep : SignedUser → Bool} {id : UserId} {sig : Signature} {template : Option Signature}
  {now : UInt32}

/-- The new certification is in force on its user ID. -/
theorem userCertification_new (hnew : NewCertification R primary template false now sig)
    (hverify : V.verifyCertification sig primary id = true)
    (htyp : sig.typ ≠ some .certRevocation) :
    userCertification V primary none now ⟨id, [sig]⟩ = some sig := by
  have hlive : userIdRevokedAt V primary ⟨id, [sig]⟩ none = false := by
    simp [userIdRevokedAt, htyp]
  have hverified : verifiedUidSelfSigs V primary ⟨id, [sig]⟩ = [sig] := by
    simp [verifiedUidSelfSigs, hverify, hnew.hash, hnew.evaluable]
  rw [userCertification, hlive, hverified]
  have hcandidates : ([sig].filter fun s => !decide (s.typ = some .certRevocation)) = [sig] := by
    simp [htyp]
  simp only [Bool.false_eq_true, if_false, hcandidates]
  have halive : sigAliveAt sig now = true := by rw [sigAliveAt, hnew.neverEnds]
  exact Option.filter_eq_some_iff.2 ⟨rfl, halive⟩

/-- What speaks after the edit: the certification left, if it is marked or of a later date, else the
new one. -/
theorem uidCertificationInForce_edited (hnew : NewCertification R primary template false now sig)
    (hverify : V.verifyCertification sig primary id = true)
    (htyp : sig.typ ≠ some .certRevocation) :
    uidCertificationInForce V primary (editedDetails details keep ⟨id, [sig]⟩) none now
      = match uidCertificationInForce V primary
            { details with users := details.users.filter keep } none now with
        | none => some sig
        | some left =>
          if left.isPrimary = true ∨ now < sigSecs left then some left else some sig := by
  have hcertifications : certificationsInForce V primary (editedDetails details keep ⟨id, [sig]⟩) now
      = certificationsInForce V primary { details with users := details.users.filter keep } now
          ++ [sig] := by
    unfold certificationsInForce editedDetails
    rw [List.filterMap_append]
    simp [userCertification_new hnew hverify htyp]
  have hsecs : sigSecs sig = now := by rw [sigSecs, createdSecs, hnew.created, Option.getD_some]
  rw [uidCertificationInForce_eq, uidCertificationInForce_eq, hcertifications, List.filter_append]
  have hunmarked : [sig].filter (fun s => s.isPrimary) = [] := by simp [hnew.isPrimary]
  rw [hunmarked, List.append_nil, maxByKey_append_singleton, hsecs]
  cases hmarked : maxByKey sigSecs ((certificationsInForce V primary
      { details with users := details.users.filter keep } now).filter fun s => s.isPrimary) with
  | some marked =>
    have hprimary : marked.isPrimary = true := (List.mem_filter.1 (maxByKey_mem hmarked)).2
    simp [hprimary]
  | none =>
    cases hleft : maxByKey sigSecs (certificationsInForce V primary
        { details with users := details.users.filter keep } now) with
    | none => rfl
    | some left =>
      have hnot : left.isPrimary = false := by
        have hnil := maxByKey_eq_none hmarked
        simpa using List.filter_eq_nil_iff.1 hnil left (maxByKey_mem hleft)
      simp [hnot]

/-- No user ID speaks among those that are left if none did before. -/
theorem uidCertificationInForce_filter_none
    (h : uidCertificationInForce V primary details none now = none) :
    uidCertificationInForce V primary { details with users := details.users.filter keep } none now
      = none := by
  cases hleft : uidCertificationInForce V primary
      { details with users := details.users.filter keep } none now with
  | none => rfl
  | some left =>
    obtain ⟨user, huser, hcert⟩ := uidCertificationInForce_some hleft
    obtain ⟨s, hs⟩ := uidCertificationInForce_exists (List.mem_filter.1 huser).1 hcert
    rw [h] at hs
    cases hs

/-- One edit, from the new certification it makes. -/
theorem propertiesInForce_edited_iff
    (hnew : NewCertification R primary
      (uidCertificationInForce V primary details none now) false now sig)
    (hverify : V.verifyCertification sig primary id = true)
    (htyp : sig.typ ≠ some .certRevocation) :
    propertiesInForce V R primary (editedDetails details keep ⟨id, [sig]⟩) now
        = propertiesInForce V R primary details now ↔
      PropertiesKept V R primary details keep now := by
  unfold propertiesInForce PropertiesKept
  by_cases hv6 : primary.version = .v6
  · refine iff_of_true ?_ (Or.inl hv6)
    rw [primarySigInForce, primarySigInForce, if_pos hv6, if_pos hv6]
    rfl
  · have hedited : uidCertificationInForce V primary (editedDetails details keep ⟨id, [sig]⟩) none now
        = _ := uidCertificationInForce_edited hnew hverify htyp
    rw [primarySigInForce, primarySigInForce, if_neg hv6, if_neg hv6, hedited, or_iff_right hv6]
    cases htemplate : uidCertificationInForce V primary details none now with
    | none =>
      rw [uidCertificationInForce_filter_none htemplate]
      rw [htemplate] at hnew
      have hbare : propertiesOf R (some sig) = noProperties := hnew.properties
      simp only [Option.some_or, Option.none_or, hbare]
      exact eq_comm
    | some t =>
      rw [htemplate] at hnew
      cases hleft : uidCertificationInForce V primary
          { details with users := details.users.filter keep } none now with
      | none =>
        exact iff_of_true hnew.properties fun left h => by cases h
      | some left =>
        simp only [Option.some.injEq, forall_eq']
        by_cases hspeaks : left.isPrimary = true ∨ now < sigSecs left
        · simp only [hspeaks, if_true, Option.some_or, true_imp_iff]
        · simp only [hspeaks, if_false, Option.some_or, false_imp_iff, iff_true]
          exact hnew.properties

end

section

variable {V : Verifier} {R : PacketReader} {sk sk' : SignedSecretKey} {S : Signer V R sk.primaryKey}
  {passphrase : Except GfrStatus Unit} {now : UInt32} {newUid : String}

/-- The certification of a user ID that was added. -/
theorem addUserIdInternal_ok (h : addUserIdInternal sk S passphrase newUid now = .ok sk') :
    ∃ sig, NewCertification R sk.primaryKey
        (uidCertificationInForce V sk.primaryKey sk.details none now) false now sig ∧
      V.verifyCertification sig sk.primaryKey (UserId.ofStr newUid) = true ∧
      sig.typ ≠ some .certRevocation ∧
      sk' = { sk with details := { sk.details with
        users := sk.details.users ++ [⟨UserId.ofStr newUid, [sig]⟩] } } := by
  unfold addUserIdInternal at h
  split at h
  · cases h
  · obtain ⟨-, -, h⟩ := bind_eq_ok.1 h
    obtain ⟨cfg, hcfg, h⟩ := bind_eq_ok.1 h
    obtain ⟨sig, hsign, h⟩ := bind_eq_ok.1 h
    cases h
    obtain ⟨hmade, hverify⟩ := S.signCertification_ok hsign
    have hsource : ∀ t, uidCertificationInForce V sk.primaryKey sk.details none now = some t →
        certificationHashAcceptable t.toSignatureCore = true ∧ evaluableSelfSig t = true ∧
          t.typ ≠ some .certRevocation := by
      intro t ht
      obtain ⟨user, -, hcert⟩ := uidCertificationInForce_some ht
      obtain ⟨-, hmem, htyp⟩ := userCertification_some hcert
      obtain ⟨-, -, hhash, heval⟩ := mem_verifiedUidSelfSigs.1 hmem
      exact ⟨hhash, heval, htyp⟩
    have hnew := newCertification_of_build hcfg hmade fun t ht =>
      ⟨(hsource t ht).1, (hsource t ht).2.1⟩
    refine ⟨sig, hnew, hverify, ?_, rfl⟩
    rcases hnew.typ with htyp | ⟨t, ht, htyp⟩
    · rw [htyp]
      decide
    · rw [htyp]
      exact (hsource t ht).2.2

end

/-- **An edit of the user IDs leaves the flags, the expiration and the preferences of the key alone
exactly under this condition.** -/
theorem edits_keep_properties_iff (V : Verifier) (R : PacketReader) (sk : SignedSecretKey)
    (S : Signer V R sk.primaryKey) (passphrase : Except GfrStatus Unit) (now : UInt32) :
    (∀ (newUid : String) (sk' : SignedSecretKey),
      addUserIdInternal sk S passphrase newUid now = .ok sk' →
        (propertiesInForce V R sk.primaryKey sk'.details now
            = propertiesInForce V R sk.primaryKey sk.details now ↔
          PropertiesKept V R sk.primaryKey sk.details (fun _ => true) now)) ∧
    ∀ (oldUid newUid : String) (sk' : SignedSecretKey),
      updateUserIdInternal sk S passphrase oldUid newUid now = .ok sk' →
        (propertiesInForce V R sk.primaryKey sk'.details now
            = propertiesInForce V R sk.primaryKey sk.details now ↔
          oldUid = newUid ∨ PropertiesKept V R sk.primaryKey sk.details
            (fun user => decide (user.id.text ≠ oldUid)) now) := by
  constructor
  · intro newUid sk' h
    obtain ⟨sig, hnew, hverify, htyp, rfl⟩ := addUserIdInternal_ok h
    have hedited : propertiesInForce V R sk.primaryKey
        (editedDetails sk.details (fun _ => true) ⟨UserId.ofStr newUid, [sig]⟩) now = _ ↔ _ :=
      propertiesInForce_edited_iff hnew hverify htyp
    rw [editedDetails, List.filter_true] at hedited
    exact hedited
  · intro oldUid newUid sk' h
    unfold updateUserIdInternal at h
    split at h
    · next hsame =>
      split at h
      · cases h
        exact iff_of_true rfl (Or.inl hsame)
      · cases h
    · next hdifferent =>
      obtain ⟨withNew, hadd, hdelete⟩ := bind_eq_ok.1 h
      obtain ⟨sig, hnew, hverify, htyp, rfl⟩ := addUserIdInternal_ok hadd
      unfold deleteUserIdInternal at hdelete
      simp only at hdelete
      split at hdelete
      · cases hdelete
      · split at hdelete
        · cases hdelete
        · cases hdelete
          have hkept : ([⟨UserId.ofStr newUid, [sig]⟩] : List SignedUser).filter
              (fun user => decide (user.id.text ≠ oldUid)) = [⟨UserId.ofStr newUid, [sig]⟩] :=
            List.filter_cons_of_pos (decide_eq_true (Ne.symm hdifferent))
          rw [or_iff_right hdifferent, ← propertiesInForce_edited_iff hnew hverify htyp,
            editedDetails, List.filter_append, hkept]

/-! ## An instance -/

/-- A signature of the key over itself or a user ID, with the flags of a signing key. -/
def flagged (typ : SignatureType) : SignatureConfig where
  typ := typ
  hashAlg := .sha256
  versionSpecific := .v4
  hashedSubpackets := [.regular (.keyFlags ⟨true, true, false, false, false⟩),
    .regular (.issuerFingerprint "A"), .regular (.signatureCreationTime 100)]
  unhashedSubpackets := [.regular (.issuerKeyId "A")]

/-- The same, made from it by an edit. -/
def flaggedAgain : SignatureConfig :=
  { flagged .certPositive with
    hashedSubpackets := [.regular (.keyFlags ⟨true, true, false, false, false⟩),
      .regular (.issuerFingerprint "A"), .regular (.signatureCreationTime 200)] }

/-- What an edit makes from nothing. -/
def bareCertification : SignatureConfig where
  typ := .certPositive
  hashAlg := .sha512
  versionSpecific := .v4
  hashedSubpackets := [.regular (.issuerFingerprint "A"), .regular (.signatureCreationTime 200)]
  unhashedSubpackets := [.regular (.issuerKeyId "A")]

/-- A version 4 key with these signatures on itself and these user IDs. -/
def keyWith (direct : List SignatureConfig) (users : List SignedUser) : SignedSecretKey where
  primaryKey := sampleKey "A"
  secretParams := []
  details := ⟨[], direct.map fun cfg => cfg.toSignature [1], users, []⟩
  publicSubkeys := []
  secretSubkeys := []

def firstUser : SignedUser := ⟨⟨[97], "a"⟩, [(flagged .certPositive).toSignature [1]]⟩

theorem added_user_id_keeps_flags :
    propertiesInForce tagVerifier (tableReader [flagged .certPositive, flaggedAgain]) (sampleKey "A")
        (keyWith [] [firstUser, ⟨UserId.ofStr "b", [flaggedAgain.toSignature [1]]⟩]).details 200
      = propertiesInForce tagVerifier (tableReader [flagged .certPositive, flaggedAgain])
          (sampleKey "A") (keyWith [] [firstUser]).details 200 := by
  refine ((edits_keep_properties_iff tagVerifier _ (keyWith [] [firstUser])
    (tableSigner [flagged .certPositive, flaggedAgain] (sampleKey "A")) (.ok ()) 200).1 "b" _ rfl).2
      (Or.inr ?_)
  intro left hleft
  cases hleft
  decide

/-- A version 4 key whose flags are in a direct-key signature has none once it has a user ID. -/
theorem added_user_id_loses_flags :
    ¬∀ (V : Verifier) (R : PacketReader) (sk sk' : SignedSecretKey) (S : Signer V R sk.primaryKey)
      (passphrase : Except GfrStatus Unit) (oldUid newUid : String) (now : UInt32),
      addUserIdInternal sk S passphrase newUid now = .ok sk' ∨
        updateUserIdInternal sk S passphrase oldUid newUid now = .ok sk' →
      propertiesInForce V R sk.primaryKey sk'.details now
        = propertiesInForce V R sk.primaryKey sk.details now := by
  intro h
  have hsame := h tagVerifier _ (keyWith [flagged .key] [])
    (keyWith [flagged .key] [⟨UserId.ofStr "b", [bareCertification.toSignature [1]]⟩])
    (tableSigner [flagged .key, bareCertification] (sampleKey "A")) (.ok ()) "a" "b" 200 (Or.inl rfl)
  exact absurd hsame (by decide)

end Rpgp

end GpgFrontend
