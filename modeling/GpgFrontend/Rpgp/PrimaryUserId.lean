import GpgFrontend.Rpgp.UserIdEdits

/-!
# Choosing the primary user ID (`rust/src/user_id.rs`)

The chosen user ID gets a new certification with the mark, and every other one whose newest
certification is marked gets a new one without it. The reader takes the newest marked certification
in force.

- `set_primary_user_id_exact`: **it does, and nothing does.**
-/

namespace GpgFrontend

namespace Rpgp

/-- The certifications of a user ID. -/
def isUidCertification (sig : Signature) : Bool :=
  match sig.typ with
  | some .certGeneric | some .certPersona | some .certCasual | some .certPositive => true
  | _ => false

/-- What verifies over a user ID certifies or revokes it, and a certification names the primary
key. -/
def UidSelfSigs (V : Verifier) (primary : PublicKey) (user : SignedUser) : Prop :=
  ∀ sig ∈ user.signatures, V.verifyCertification sig primary user.id = true →
    sig.typ = some .certRevocation ∨
      (isUidCertification sig = true ∧ namesPrimaryAsIssuer sig primary = true)

section

variable {V : Verifier} {primary : PublicKey} {user : SignedUser} {sig : Signature}

theorem isPropertySelfSig_of_certification (h : isUidCertification sig = true) :
    isPropertySelfSig sig = true := by
  unfold isUidCertification at h
  unfold isPropertySelfSig
  split at h <;> simp_all

/-- The certifications of a user ID are the signatures that may be a template. -/
theorem UidSelfSigs.property_iff (h : UidSelfSigs V primary user)
    (hsig : sig ∈ verifiedUidSelfSigs V primary user) :
    isPropertySelfSig sig = true ↔ sig.typ ≠ some .certRevocation := by
  obtain ⟨hmem, hverify, -⟩ := mem_verifiedUidSelfSigs.1 hsig
  constructor
  · intro hproperty htyp
    simp [isPropertySelfSig, htyp] at hproperty
  · intro htyp
    rcases h sig hmem hverify with hrevocation | ⟨hcertification, -⟩
    · exact absurd hrevocation htyp
    · exact isPropertySelfSig_of_certification hcertification

/-- The certification in force is the template, if that is still alive. -/
theorem UidSelfSigs.userCertification_eq (h : UidSelfSigs V primary user)
    (hlive : isUserIdRevoked V primary user = false) (t : UInt32) :
    userCertification V primary none t user
      = (uidReissueTemplate V primary user).filter fun sig => sigAliveAt sig t := by
  have hrevoked : userIdRevokedAt V primary user none = false := hlive
  have hsame : (verifiedUidSelfSigs V primary user).filter (fun sig =>
      !decide (sig.typ = some .certRevocation))
        = (verifiedUidSelfSigs V primary user).filter isPropertySelfSig := by
    refine List.filter_congr fun sig hsig => ?_
    rw [Bool.eq_iff_iff, h.property_iff hsig]
    simp
  rw [userCertification, hrevoked, hsame]
  rfl

end

/-! ## One user ID -/

/-- What happens to a user ID: nothing to a revoked one, nor to one that is neither chosen nor marked;
else its certifications make way for a new one, with the mark if it is chosen. -/
inductive Remarked (V : Verifier) (primary : PublicKey) (isTarget : Bool) :
    SignedUser → SignedUser → Prop
  | kept {user : SignedUser} :
    isUserIdRevoked V primary user = true ∨
        (isTarget = false ∧ markedPrimary V primary user = false) →
      Remarked V primary isTarget user user
  | remarked {user : SignedUser} {sig : Signature} :
    isUserIdRevoked V primary user = false →
    (isTarget = true ∨ markedPrimary V primary user = true) →
    V.verifyCertification sig primary user.id = true → isUidCertification sig = true →
    sig.isPrimary = isTarget → sig.signatureExpirationTime = none →
    certificationHashAcceptable sig.toSignatureCore = true → evaluableSelfSig sig = true →
    namesPrimaryAsIssuer sig primary = true →
      Remarked V primary isTarget user
        { user with signatures := retireSelfSigs primary user.signatures ++ [sig] }

section

variable {V : Verifier} {R : PacketReader} {sk : SignedSecretKey} {S : Signer V R sk.primaryKey}

/-- Every template is a verified certification. -/
theorem certification_of_template {user : SignedUser} {template : Signature}
    (hself : UidSelfSigs V sk.primaryKey user)
    (h : uidReissueTemplate V sk.primaryKey user = some template) :
    isUidCertification template = true ∧
      certificationHashAcceptable template.toSignatureCore = true ∧
        evaluableSelfSig template = true := by
  obtain ⟨hmem, hproperty⟩ := chooseTemplateSelfSig_some h
  obtain ⟨hsig, hverify, hhash, heval⟩ := mem_verifiedUidSelfSigs.1 hmem
  rcases hself template hsig hverify with hrevocation | ⟨hcertification, -⟩
  · exact absurd hrevocation ((hself.property_iff hmem).1 hproperty)
  · exact ⟨hcertification, hhash, heval⟩

theorem certification_in_force {details : SignedKeyDetails} {template : Signature} {t : UInt32}
    (hself : ∀ user ∈ details.users, UidSelfSigs V sk.primaryKey user)
    (h : uidCertificationInForce V sk.primaryKey details none t = some template) :
    isUidCertification template = true ∧
      certificationHashAcceptable template.toSignatureCore = true ∧
        evaluableSelfSig template = true := by
  obtain ⟨user, huser, hcert⟩ := uidCertificationInForce_some h
  obtain ⟨-, hmem, htyp⟩ := userCertification_some hcert
  obtain ⟨hsig, hverify, hhash, heval⟩ := mem_verifiedUidSelfSigs.1 hmem
  rcases hself user huser template hsig hverify with hrevocation | ⟨hcertification, -⟩
  · exact absurd hrevocation htyp
  · exact ⟨hcertification, hhash, heval⟩

theorem remarkUser_ok {inForce : Option Signature} {isTarget : Bool} {now : UInt32}
    {user user' : SignedUser} (hself : UidSelfSigs V sk.primaryKey user)
    (hinForce : ∀ t, inForce = some t → isUidCertification t = true ∧
      certificationHashAcceptable t.toSignatureCore = true ∧ evaluableSelfSig t = true)
    (h : remarkUser sk S inForce isTarget now user = .ok user') :
    Remarked V sk.primaryKey isTarget user user' := by
  unfold remarkUser at h
  split at h
  · next hkept =>
    cases h
    refine .kept ?_
    simpa using hkept
  · next hremarked =>
    rw [Bool.or_eq_true, not_or, Bool.and_eq_true, not_and_or] at hremarked
    obtain ⟨cfg, hcfg, h⟩ := bind_eq_ok.1 h
    obtain ⟨sig, hsign, h⟩ := bind_eq_ok.1 h
    cases h
    obtain ⟨hmade, hverify⟩ := S.signCertification_ok hsign
    have hsource : ∀ t, (if isTarget then (uidReissueTemplate V sk.primaryKey user).or inForce
          else uidReissueTemplate V sk.primaryKey user) = some t →
        isUidCertification t = true ∧ certificationHashAcceptable t.toSignatureCore = true ∧
          evaluableSelfSig t = true := by
      intro t ht
      split at ht
      · rcases Option.or_eq_some_iff.1 ht with hown | ⟨-, hother⟩
        · exact certification_of_template hself hown
        · exact hinForce t hother
      · exact certification_of_template hself ht
    have hnew := newCertification_of_build hcfg hmade fun t ht => (hsource t ht).2
    have htyp : isUidCertification sig = true := by
      rcases hnew.typ with htyp | ⟨t, ht, htyp⟩
      · rw [isUidCertification, htyp]
      · rw [isUidCertification, htyp]
        exact (hsource t ht).1
    refine .remarked (by simpa using hremarked.1) ?_ hverify htyp hnew.isPrimary hnew.neverEnds
      hnew.hash hnew.evaluable hnew.issuer
    simpa using hremarked.2

/-- The loop, by induction on the user IDs: each one is treated by its number. -/
theorem remarkUsers_ok {inForce : Option Signature} {targetIdx : Nat} {now : Nat → UInt32} {i : Nat}
    {users users' : List SignedUser} (hself : ∀ user ∈ users, UidSelfSigs V sk.primaryKey user)
    (hinForce : ∀ t, inForce = some t → isUidCertification t = true ∧
      certificationHashAcceptable t.toSignatureCore = true ∧ evaluableSelfSig t = true)
    (h : remarkUsers sk S inForce targetIdx now i users = .ok users') :
    users'.length = users.length ∧ ∀ (j : Nat) (user user' : SignedUser), users[j]? = some user →
      users'[j]? = some user' → Remarked V sk.primaryKey (decide (i + j = targetIdx)) user user' := by
  induction users generalizing i users' with
  | nil =>
    cases h
    exact ⟨rfl, fun j user user' h => by cases h⟩
  | cons user users ih =>
    obtain ⟨remarked, hremarked, h⟩ := bind_eq_ok.1 h
    obtain ⟨rest, hrest, h⟩ := bind_eq_ok.1 h
    cases h
    obtain ⟨hlen, hall⟩ := ih (fun u hu => hself u (List.mem_cons_of_mem _ hu)) hrest
    refine ⟨by simp [hlen], fun j u u' hu hu' => ?_⟩
    cases j with
    | zero =>
      cases hu
      cases hu'
      exact remarkUser_ok (hself user List.mem_cons_self) hinForce hremarked
    | succ j =>
      have hstep := hall j u u' hu hu'
      rwa [Nat.add_assoc, Nat.add_comm 1 j] at hstep

end

section

variable {V : Verifier} {primary : PublicKey} {isTarget : Bool} {user user' : SignedUser}

theorem Remarked.id_eq (h : Remarked V primary isTarget user user') : user'.id = user.id := by
  cases h <;> rfl

theorem Remarked.keeps_revocations (h : Remarked V primary isTarget user user') {sig : Signature}
    (hsig : sig ∈ user.signatures) (htyp : sig.typ = some .certRevocation) :
    sig ∈ user'.signatures := by
  cases h with
  | kept _ => exact hsig
  | remarked =>
    refine List.mem_append_left _ (List.mem_filter.2 ⟨hsig, ?_⟩)
    simp [isPropertySelfSig, htyp]

theorem Remarked.isUserIdRevoked_eq (h : Remarked V primary isTarget user user') :
    isUserIdRevoked V primary user' = isUserIdRevoked V primary user := by
  cases h with
  | kept _ => rfl
  | remarked _ _ _ htyp =>
    exact isUserIdRevoked_reissued (isPropertySelfSig_of_certification htyp)

/-- The new certification is the only one left, and is in force at any time. -/
theorem userCertification_remarked {sig : Signature} (hself : UidSelfSigs V primary user)
    (hlive : isUserIdRevoked V primary user = false)
    (hverify : V.verifyCertification sig primary user.id = true)
    (htyp : isUidCertification sig = true) (hends : sig.signatureExpirationTime = none)
    (hhash : certificationHashAcceptable sig.toSignatureCore = true)
    (heval : evaluableSelfSig sig = true) (t : UInt32) :
    userCertification V primary none t
        { user with signatures := retireSelfSigs primary user.signatures ++ [sig] } = some sig := by
  have hrevoked : userIdRevokedAt V primary
      { user with signatures := retireSelfSigs primary user.signatures ++ [sig] } none = false :=
    (isUserIdRevoked_reissued (isPropertySelfSig_of_certification htyp)).trans hlive
  have hnot : sig.typ ≠ some .certRevocation := by
    intro hrevocation
    simp [isUidCertification, hrevocation] at htyp
  have hnone : (retireSelfSigs primary user.signatures).filter (fun s =>
      (V.verifyCertification s primary user.id && certificationHashAcceptable s.toSignatureCore
        && evaluableSelfSig s) && !decide (s.typ = some .certRevocation)) = [] := by
    refine List.filter_eq_nil_iff.2 fun s hs hverified => ?_
    obtain ⟨hmem, hkept⟩ := List.mem_filter.1 hs
    simp only [Bool.and_eq_true, Bool.not_eq_true', decide_eq_false_iff_not] at hverified
    rcases hself s hmem hverified.1.1.1 with hrevocation | ⟨hcertification, hnames⟩
    · exact hverified.2 hrevocation
    · simp [isPropertySelfSig_of_certification hcertification, hnames] at hkept
  have honly : ((verifiedUidSelfSigs V primary
      { user with signatures := retireSelfSigs primary user.signatures ++ [sig] }).filter fun s =>
        !decide (s.typ = some .certRevocation)) = [sig] := by
    rw [verifiedUidSelfSigs, List.filter_filter]
    simp only [Bool.and_comm (!decide _)]
    rw [List.filter_append, hnone]
    simp [hverify, hhash, heval, hnot]
  have halive : sigAliveAt sig t = true := by rw [sigAliveAt, hends]
  rw [userCertification, hrevoked, honly, if_neg Bool.false_ne_true]
  exact Option.filter_eq_some_iff.2 ⟨rfl, halive⟩

/-- The chosen user ID is certified with the mark. -/
theorem Remarked.target (h : Remarked V primary true user user') (hself : UidSelfSigs V primary user)
    (hlive : isUserIdRevoked V primary user = false) (t : UInt32) :
    (∃ sig, userCertification V primary none t user' = some sig ∧ sig.isPrimary = true) ∧
      hasVerifiedUidCertification V primary user' = true := by
  cases h with
  | kept hwhy => simp [hlive] at hwhy
  | @remarked sig _ _ hverify htyp hprimary hends hhash heval _ =>
    refine ⟨⟨sig, userCertification_remarked hself hlive hverify htyp hends hhash heval t,
      hprimary⟩, List.any_eq_true.2 ⟨sig, mem_verifiedUidSelfSigs.2
        ⟨List.mem_append_right _ (List.mem_singleton.2 rfl), hverify, hhash, heval⟩, htyp⟩⟩

/-- No other one is. -/
theorem Remarked.other (h : Remarked V primary false user user')
    (hself : UidSelfSigs V primary user) {sig : Signature} {t : UInt32}
    (hsig : userCertification V primary none t user' = some sig) : sig.isPrimary = false := by
  cases h with
  | kept hwhy =>
    have hlive := (userCertification_some hsig).1
    rcases hwhy with hrevoked | ⟨-, hunmarked⟩
    · simp [hrevoked] at hlive
    · rw [hself.userCertification_eq hlive] at hsig
      have htemplate := (Option.filter_eq_some_iff.1 hsig).1
      simpa [markedPrimary, htemplate] using hunmarked
  | remarked hlive _ hverify htyp hprimary hends hhash heval _ =>
    rw [userCertification_remarked hself hlive hverify htyp hends hhash heval t] at hsig
    cases hsig
    exact hprimary

end

/-! ## The listing -/

section

variable {V : Verifier} {primary : PublicKey} {details : SignedKeyDetails} {user : SignedUser}
  {rest : List SignedUser} {t : UInt32}

/-- Where the first user ID alone is marked, it is the primary one. -/
theorem primaryUserIndex_first (husers : details.users = user :: rest) {sig : Signature}
    (hsig : userCertification V primary none t user = some sig) (hprimary : sig.isPrimary = true)
    (hrest : ∀ other ∈ rest, ∀ s, userCertification V primary none t other = some s →
      s.isPrimary = false) :
    primaryUserIndex V primary details t = (0, true) := by
  have hfirst : details.users[0]? = some user := by rw [husers]; rfl
  have hmem : (0, sig) ∈ (userCertifications V primary details none t).filter fun entry =>
      entry.2.isPrimary :=
    List.mem_filter.2 ⟨mem_userCertifications.2 ⟨user, hfirst, hsig⟩, hprimary⟩
  have honly : ∀ entry ∈ (userCertifications V primary details none t).filter fun entry =>
      entry.2.isPrimary, entry = (0, sig) := by
    rintro ⟨i, s⟩ hentry
    obtain ⟨hcert, hmarked⟩ := List.mem_filter.1 hentry
    obtain ⟨other, hother, hs⟩ := mem_userCertifications.1 hcert
    rw [husers] at hother
    cases i with
    | zero =>
      cases hother
      rw [hsig] at hs
      cases hs
      rfl
    | succ i =>
      have hunmarked := hrest other (List.mem_of_getElem? hother) s hs
      simp [hunmarked] at hmarked
  obtain ⟨entry, hentry⟩ := maxByKey_exists
    (fun entry : Nat × Signature => createdSecs entry.2.toSignatureCore) hmem
  cases honly entry (maxByKey_mem hentry)
  unfold primaryUserIndex indexedUidCertificationInForce
  simp only [hentry, Option.some_or, hprimary]

/-- The entry of user ID number `i`, where the first is primary. -/
def entryOfUser (V : Verifier) (primary : PublicKey) : SignedUser × Nat → Option (Nat × ExtractUserId)
  | (u, i) =>
    if hasVerifiedUidCertification V primary u then
      let isRevoked := isUserIdRevoked V primary u
      some (i, ⟨u.id.text, !isRevoked && true && decide (i = 0), isRevoked⟩)
    else none

theorem entryOfUser_unmarked {u : SignedUser} {i j : Nat} {entry : ExtractUserId}
    (h : entryOfUser V primary (u, i) = some (j, entry)) (hi : i ≠ 0) : entry.isPrimary = false := by
  unfold entryOfUser at h
  simp only at h
  split at h
  · cases h
    simp [hi]
  · cases h

/-- Then it is listed first, and marked, and no other is. -/
theorem listedUserIds_first (husers : details.users = user :: rest)
    (hindex : primaryUserIndex V primary details t = (0, true))
    (hlive : isUserIdRevoked V primary user = false)
    (hcertified : hasVerifiedUidCertification V primary user = true) :
    ∃ others, listedUserIds V primary details t = ⟨user.id.text, true, false⟩ :: others ∧
      ∀ entry ∈ others, entry.isPrimary = false := by
  have hfirst : entryOfUser V primary (user, 0) = some (0, ⟨user.id.text, true, false⟩) := by
    simp [entryOfUser, hcertified, hlive]
  have hlisted : certifiedUserIds V primary details t
      = (0, ⟨user.id.text, true, false⟩) :: (rest.zipIdx 1).filterMap (entryOfUser V primary) := by
    have hentries : certifiedUserIds V primary details t
        = details.users.zipIdx.filterMap (entryOfUser V primary) := by
      rw [certifiedUserIds, hindex]
      rfl
    rw [hentries, husers, List.zipIdx_cons, List.filterMap_cons_some hfirst]
  refine ⟨((rest.zipIdx 1).filterMap (entryOfUser V primary)).map Prod.snd, ?_, ?_⟩
  · rw [listedUserIds, hlisted, hindex]
    rfl
  · intro entry hentry
    obtain ⟨⟨i, e⟩, hmem, rfl⟩ := List.mem_map.1 hentry
    obtain ⟨⟨u, j⟩, huser, hsome⟩ := List.mem_filterMap.1 hmem
    have hpos : 1 ≤ j := List.le_snd_of_mem_zipIdx huser
    exact entryOfUser_unmarked hsome (by omega)

end

/-! ## The choice -/

/-- The chosen user ID is read back, and nothing else changes: it is listed first and it alone is
marked, the user IDs are the same, no revocation is lost, and a user ID that is revoked, or was not
marked and is not chosen, has the signatures it had. -/
structure PrimarySet (V : Verifier) (sk sk' : SignedSecretKey) (targetUid : String) : Prop where
  listed : ∀ t, ∃ first others, listedUserIds V sk.primaryKey sk'.details t = first :: others ∧
    first.userId = targetUid ∧ first.isPrimary = true ∧ ∀ entry ∈ others, entry.isPrimary = false
  sameUsers : (sk'.details.users.map fun user => user.id).Perm
    (sk.details.users.map fun user => user.id)
  revocations : ∀ user ∈ sk.details.users, ∃ user' ∈ sk'.details.users, user'.id = user.id ∧
    ∀ sig ∈ user.signatures, sig.typ = some .certRevocation → sig ∈ user'.signatures
  revoked : ∀ user ∈ sk.details.users, isUserIdRevoked V sk.primaryKey user = true →
    user ∈ sk'.details.users
  unmarked : ∀ user ∈ sk.details.users, user.id.text ≠ targetUid →
    markedPrimary V sk.primaryKey user = false → user ∈ sk'.details.users

section

variable {α : Type} {l : List α} {i : Nat} {a : α}

theorem moveToFront_eq (h : l[i]? = some a) : moveToFront l i = a :: l.eraseIdx i := by
  rw [moveToFront, h]

theorem moveToFront_perm (h : l[i]? = some a) : (moveToFront l i).Perm l := by
  obtain ⟨hlt, rfl⟩ := List.getElem?_eq_some_iff.1 h
  rw [moveToFront_eq h]
  exact List.getElem_cons_eraseIdx_perm hlt

end

section

variable {V : Verifier} {R : PacketReader} {sk sk' : SignedSecretKey} {S : Signer V R sk.primaryKey}
  {passphrase : Except GfrStatus Unit} {targetUid : String} {clock : UInt32} {now : Nat → UInt32}

/-- The user IDs before the chosen one moves to the front, each by its number. -/
theorem setPrimaryUserIdInternal_ok
    (hself : ∀ user ∈ sk.details.users, UidSelfSigs V sk.primaryKey user)
    (h : setPrimaryUserIdInternal sk S passphrase targetUid clock now = .ok sk') :
    ∃ (targetIdx : Nat) (target : SignedUser) (users' : List SignedUser),
      sk.details.users[targetIdx]? = some target ∧ target.id.text = targetUid ∧
      isUserIdRevoked V sk.primaryKey target = false ∧
      users'.length = sk.details.users.length ∧
      (∀ (j : Nat) (user user' : SignedUser), sk.details.users[j]? = some user →
        users'[j]? = some user' → Remarked V sk.primaryKey (decide (j = targetIdx)) user user') ∧
      sk' = { sk with details := { sk.details with users := moveToFront users' targetIdx } } := by
  unfold setPrimaryUserIdInternal at h
  split at h
  · cases h
  · split at h
    · cases h
    · next targetIdx hfind =>
      obtain ⟨hlt, htext, -⟩ := List.findIdx?_eq_some_iff_getElem.1 hfind
      obtain ⟨-, -, h⟩ := bind_eq_ok.1 h
      have htarget : sk.details.users[targetIdx]? = some sk.details.users[targetIdx] :=
        List.getElem?_eq_getElem hlt
      simp only [htarget, Option.any_some] at h
      split at h
      · cases h
      · next hlive =>
        obtain ⟨users', husers', h⟩ := bind_eq_ok.1 h
        cases h
        obtain ⟨hlen, hall⟩ := remarkUsers_ok hself
          (fun t ht => certification_in_force hself ht) husers'
        refine ⟨targetIdx, _, users', htarget, of_decide_eq_true htext, by simpa using hlive, hlen,
          fun j user user' hj hj' => ?_, rfl⟩
        have hremarked := hall j user user' hj hj'
        rwa [Nat.zero_add] at hremarked

end

/-- **The choice of a primary user ID is exact**, on a key whose self-signatures name it. -/
theorem set_primary_user_id_exact {V : Verifier} {R : PacketReader} {sk sk' : SignedSecretKey}
    {S : Signer V R sk.primaryKey} {passphrase : Except GfrStatus Unit} {targetUid : String}
    {clock : UInt32} {now : Nat → UInt32}
    (hself : ∀ user ∈ sk.details.users, UidSelfSigs V sk.primaryKey user)
    (h : setPrimaryUserIdInternal sk S passphrase targetUid clock now = .ok sk') :
    PrimarySet V sk sk' targetUid := by
  obtain ⟨targetIdx, target, users', htarget, htext, hlive, hlen, hall, rfl⟩ :=
    setPrimaryUserIdInternal_ok hself h
  -- the user ID of each number, before and after
  have hafter : ∀ {j : Nat} {user : SignedUser}, sk.details.users[j]? = some user →
      ∃ user', users'[j]? = some user' ∧
        Remarked V sk.primaryKey (decide (j = targetIdx)) user user' := by
    intro j user hj
    have hlt : j < users'.length := hlen ▸ (List.getElem?_eq_some_iff.1 hj).1
    exact ⟨_, List.getElem?_eq_getElem hlt, hall j user _ hj (List.getElem?_eq_getElem hlt)⟩
  have hbefore : ∀ {j : Nat} {user' : SignedUser}, users'[j]? = some user' →
      ∃ user ∈ sk.details.users,
        Remarked V sk.primaryKey (decide (j = targetIdx)) user user' := by
    intro j user' hj
    have hlt : j < sk.details.users.length := hlen ▸ (List.getElem?_eq_some_iff.1 hj).1
    exact ⟨_, List.getElem_mem hlt, hall j _ user' (List.getElem?_eq_getElem hlt) hj⟩
  obtain ⟨target', htarget', hremarked⟩ := hafter htarget
  rw [decide_eq_true rfl] at hremarked
  have hperm := moveToFront_perm htarget'
  have hkept : ∀ user ∈ sk.details.users, (∀ j, sk.details.users[j]? = some user →
      isUserIdRevoked V sk.primaryKey user = true ∨
        (decide (j = targetIdx) = false ∧ markedPrimary V sk.primaryKey user = false)) →
      user ∈ moveToFront users' targetIdx := by
    intro user huser hwhy
    obtain ⟨j, hj⟩ := List.getElem?_of_mem huser
    obtain ⟨user', hj', hrel⟩ := hafter hj
    cases hrel with
    | kept _ => exact hperm.mem_iff.2 (List.mem_of_getElem? hj')
    | remarked hlive hmarked =>
      rcases hwhy j hj with hrevoked | ⟨hother, hunmarked⟩
      · simp [hlive] at hrevoked
      · simp [hother, hunmarked] at hmarked
  have htargetSelf := hself target (List.mem_of_getElem? htarget)
  refine ⟨fun t => ?_, ?_, fun user huser => ?_, fun user huser hrevoked => ?_,
    fun user huser hother hunmarked => ?_⟩
  · obtain ⟨⟨sig, hsig, hprimary⟩, hcertified⟩ := hremarked.target htargetSelf hlive t
    have husers : ({ sk.details with users := moveToFront users' targetIdx } :
        SignedKeyDetails).users = target' :: users'.eraseIdx targetIdx := moveToFront_eq htarget'
    have hindex := primaryUserIndex_first husers hsig hprimary fun other hmem s hs => by
      obtain ⟨j, hne, hj⟩ := List.mem_eraseIdx_iff_getElem?.1 hmem
      obtain ⟨user, huser, hrel⟩ := hbefore hj
      rw [decide_eq_false hne] at hrel
      exact hrel.other (hself user huser) hs
    obtain ⟨others, hlisted, hunmarked⟩ := listedUserIds_first husers hindex
      (hremarked.isUserIdRevoked_eq.trans hlive) hcertified
    exact ⟨_, others, hlisted, (congrArg UserId.text hremarked.id_eq).trans htext, rfl, hunmarked⟩
  · have hids : users'.map (fun user => user.id) = sk.details.users.map fun user => user.id := by
      refine List.ext_getElem? fun j => ?_
      rw [List.getElem?_map, List.getElem?_map]
      cases hj : sk.details.users[j]? with
      | none =>
        rw [List.getElem?_eq_none (hlen ▸ List.getElem?_eq_none_iff.1 hj)]
      | some user =>
        obtain ⟨user', hj', hrel⟩ := hafter hj
        rw [hj']
        exact congrArg some hrel.id_eq
    exact hids ▸ hperm.map _
  · obtain ⟨j, hj⟩ := List.getElem?_of_mem huser
    obtain ⟨user', hj', hrel⟩ := hafter hj
    exact ⟨user', hperm.mem_iff.2 (List.mem_of_getElem? hj'), hrel.id_eq,
      fun sig hsig htyp => hrel.keeps_revocations hsig htyp⟩
  · exact hkept user huser fun j _ => Or.inl hrevoked
  · refine hkept user huser fun j hj => Or.inr ⟨decide_eq_false fun hsame => ?_, hunmarked⟩
    rw [hsame, htarget] at hj
    cases hj
    exact hother htext

/-! ## An instance -/

/-- A certification by the sample key, with the mark or without. -/
def certifiedAt (created : UInt32) (marked : Bool) : SignatureConfig where
  typ := .certPositive
  hashAlg := .sha256
  versionSpecific := .v4
  hashedSubpackets := [.regular (.issuerFingerprint "A"), .regular (.signatureCreationTime created)]
    ++ if marked then [.regular (.isPrimary true)] else []
  unhashedSubpackets := [.regular (.issuerKeyId "A")]

def userAt (name : String) (id : UInt8) (created : UInt32) (marked : Bool) : SignedUser :=
  ⟨⟨[id], name⟩, [(certifiedAt created marked).toSignature [1]]⟩

def keyOf (users : List SignedUser) : SignedSecretKey where
  primaryKey := sampleKey "A"
  secretParams := []
  details := ⟨[], [], users, []⟩
  publicSubkeys := []
  secretSubkeys := []

def markSigner : Signer tagVerifier (tableReader [certifiedAt 200 true, certifiedAt 200 false,
    certifiedAt 100 true, certifiedAt 100 false]) (sampleKey "A") :=
  tableSigner _ _

theorem second_user_id_chosen :
    PrimarySet tagVerifier (keyOf [userAt "a" 97 100 true, userAt "b" 98 100 false])
      (keyOf [userAt "b" 98 200 true, userAt "a" 97 200 false]) "b" := by
  have hchosen : setPrimaryUserIdInternal
      (keyOf [userAt "a" 97 100 true, userAt "b" 98 100 false]) markSigner (.ok ()) "b" 200
        (fun _ => 200) = .ok (keyOf [userAt "b" 98 200 true, userAt "a" 97 200 false]) := rfl
  refine set_primary_user_id_exact (fun user huser => ?_) hchosen
  simp only [keyOf, List.mem_cons, List.not_mem_nil, or_false] at huser
  rcases huser with rfl | rfl
  · intro sig hsig _
    cases List.mem_singleton.1 hsig
    exact Or.inr ⟨rfl, rfl⟩
  · intro sig hsig _
    cases List.mem_singleton.1 hsig
    exact Or.inr ⟨rfl, rfl⟩

end Rpgp

end GpgFrontend
