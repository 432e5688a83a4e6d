import Mathlib.Data.List.Nodup
import GpgFrontend.Rpgp.SessionKey
import GpgFrontend.Rpgp.UnverifiedSignatures

/-!
# When the search finds the session key

A certificate is tried once, with one passphrase, and the first component this passphrase does
not unlock ends the trial. So a component that would open a packet with its own passphrase is
hidden by another component of its certificate that is locked with a different one; and a
component that two certificates hold can be asked for with both of them.

- `searchRecipients_ok_iff`: the loop finds a key exactly if one certificate opens in its trial.
- `Reaches`: which certificates the loop comes to, and what it asks for on the way.
- `session_key_search`: **when the search is complete, and asks for nothing twice**.
-/

namespace GpgFrontend

namespace Rpgp

section

variable (R : KeyRing) (fetchPassword : String → Except GfrStatus Bytes)

/-- The unlocked component opens the packet, and the session key is not refused. -/
def EskCandidate.Yields (c : EskCandidate) : Prop :=
  ∃ sessionKey, R.opens c.key c.values c.typ = some sessionKey ∧
    v3SessionKeyProblem c.pkesk sessionKey = none

/-- One of the candidates yields a session key, and the passphrase unlocks it and every
candidate before it. -/
def OpensInOrder (pwd : Bytes) (candidates : List EskCandidate) : Prop :=
  ∃ before c after, candidates = before ++ c :: after ∧
    (∀ b ∈ before, R.unlocks b.key pwd = true) ∧ R.unlocks c.key pwd = true ∧ c.Yields R

/-- The one passphrase a certificate is tried with. -/
def trialPassphrase (matchedRecipientId : String) (skey : SignedSecretKey) :
    Except GfrStatus Bytes :=
  match passwordTarget R skey matchedRecipientId with
  | none => .ok []
  | some target => fetchPassword target

/-- The passphrase that would be asked for one component. -/
def componentPassphrase (key : SecretComponent) : Except GfrStatus Bytes :=
  if R.isEncrypted key then fetchPassword key.key.fingerprint else .ok []

/-- The certificate, tried for the recipient, opens one of the packets. -/
def CertificateOpens (esks : List Esk) (visit : String × SignedSecretKey) : Prop :=
  ∃ pwd, trialPassphrase R fetchPassword visit.1 visit.2 = .ok pwd ∧
    OpensInOrder R pwd (esks.flatMap (eskCandidates R visit.2))

end

/-! ## One certificate -/

section

variable {R : KeyRing} {fetchPassword : String → Except GfrStatus Bytes}

theorem opensInOrder_cons {pwd : Bytes} {c : EskCandidate} {rest : List EskCandidate} :
    OpensInOrder R pwd (c :: rest) ↔
      R.unlocks c.key pwd = true ∧ (c.Yields R ∨ OpensInOrder R pwd rest) := by
  constructor
  · rintro ⟨before, d, after, heq, hbefore, hd, hyields⟩
    cases before with
    | nil =>
      obtain ⟨rfl, -⟩ := List.cons.inj heq
      exact ⟨hd, .inl hyields⟩
    | cons b before =>
      obtain ⟨rfl, hrest⟩ := List.cons.inj heq
      exact ⟨hbefore c (by simp), .inr ⟨before, d, after, hrest,
        fun x hx => hbefore x (List.mem_cons_of_mem c hx), hd, hyields⟩⟩
  · rintro ⟨hc, hyields | ⟨before, d, after, rfl, hbefore, hd, hyields⟩⟩
    · exact ⟨[], c, rest, rfl, by simp, hc, hyields⟩
    · refine ⟨c :: before, d, after, rfl, fun x hx => ?_, hd, hyields⟩
      rcases List.mem_cons.1 hx with rfl | hx
      · exact hc
      · exact hbefore x hx

/-- What has been refused so far does not matter for what is found. -/
theorem tryCandidates_opened_iff (pwd : Bytes) (candidates : List EskCandidate) :
    ∀ (refused : Option SessionKeyProblem) (lastErr : Bool),
      (∃ sessionKey, tryCandidates R pwd refused lastErr candidates = .opened sessionKey) ↔
        OpensInOrder R pwd candidates := by
  induction candidates with
  | nil =>
    intro refused lastErr
    simp [tryCandidates, OpensInOrder]
  | cons c rest ih =>
    intro refused lastErr
    rw [opensInOrder_cons, tryCandidates]
    by_cases hu : R.unlocks c.key pwd = true
    case neg => simp [hu]
    simp only [hu, Bool.not_true, Bool.false_eq_true, if_false, true_and]
    cases ho : R.opens c.key c.values c.typ with
    | none => simp [ih, EskCandidate.Yields, ho]
    | some sessionKey =>
      cases hp : v3SessionKeyProblem c.pkesk sessionKey with
      | none => simp [EskCandidate.Yields, ho, hp]
      | some problem => simp [ih, EskCandidate.Yields, ho, hp]

theorem TrialEnd.result_ok_iff (trial : TrialEnd) :
    (∃ sessionKey, trial.result = .ok sessionKey) ↔ ∃ sessionKey, trial = .opened sessionKey := by
  cases trial with
  | opened sessionKey => simp [TrialEnd.result]
  | locked => simp [TrialEnd.result]
  | exhausted refused lastErr => cases refused <;> cases lastErr <;> simp [TrialEnd.result]

/-- A trial itself is never cancelled. -/
theorem TrialEnd.result_ne_canceled (trial : TrialEnd) :
    trial.result ≠ .error .errorCanceled := by
  cases trial with
  | opened sessionKey => simp [TrialEnd.result]
  | locked => simp [TrialEnd.result]
  | exhausted refused lastErr => cases refused <;> cases lastErr <;> simp [TrialEnd.result]

/-- The result, by the passphrase the certificate is tried with. -/
theorem pkeskSessionKeyWith_fst (esks : List Esk) (skey : SignedSecretKey) (rec : String) :
    (pkeskSessionKeyWith R fetchPassword esks skey rec).1 =
      match trialPassphrase R fetchPassword rec skey with
      | .error status => .error status
      | .ok pwd => (tryCandidates R pwd none false (esks.flatMap (eskCandidates R skey))).result := by
  rw [pkeskSessionKeyWith, trialPassphrase]
  cases passwordTarget R skey rec with
  | none => rfl
  | some target =>
    cases hfetch : fetchPassword target with
    | error status => simp only [hfetch]
    | ok pwd => simp only [hfetch]

variable (R fetchPassword) in
/-- **What opens one certificate.** -/
theorem pkeskSessionKeyWith_ok_iff (esks : List Esk) (skey : SignedSecretKey) (rec : String) :
    (∃ sessionKey, (pkeskSessionKeyWith R fetchPassword esks skey rec).1 = .ok sessionKey) ↔
      CertificateOpens R fetchPassword esks (rec, skey) := by
  rw [CertificateOpens, pkeskSessionKeyWith_fst]
  cases htrial : trialPassphrase R fetchPassword rec skey with
  | error status => simp
  | ok pwd => simp [TrialEnd.result_ok_iff, tryCandidates_opened_iff]

/-- The components a list of calls asks for. -/
def askedComponents (calls : List PassphraseCall) : List String :=
  calls.filterMap fun
    | .fetch component => some component
    | .remove _ => none

theorem askedComponents_append (l m : List PassphraseCall) :
    askedComponents (l ++ m) = askedComponents l ++ askedComponents m :=
  List.filterMap_append

variable (R fetchPassword) in
/-- For a certificate at most one component is asked for. -/
theorem askedComponents_pkeskSessionKeyWith (esks : List Esk) (skey : SignedSecretKey)
    (rec : String) :
    askedComponents (pkeskSessionKeyWith R fetchPassword esks skey rec).2
      = (passwordTarget R skey rec).toList := by
  rw [pkeskSessionKeyWith]
  cases passwordTarget R skey rec with
  | none => rfl
  | some target =>
    cases hfetch : fetchPassword target with
    | error status =>
      simp only [hfetch]
      rfl
    | ok pwd =>
      simp only [hfetch]
      split <;> rfl

variable (R fetchPassword) in
/-- A certificate is given up as cancelled exactly where its prompt was. -/
theorem pkeskSessionKeyWith_canceled_iff (esks : List Esk) (skey : SignedSecretKey)
    (rec : String) :
    (pkeskSessionKeyWith R fetchPassword esks skey rec).1 = .error .errorCanceled ↔
      trialPassphrase R fetchPassword rec skey = .error .errorCanceled := by
  rw [pkeskSessionKeyWith_fst]
  cases trialPassphrase R fetchPassword rec skey with
  | ok pwd => exact iff_of_false (TrialEnd.result_ne_canceled _) nofun
  | error status => exact ⟨fun h => congrArg _ (Except.error.inj h), fun h =>
      congrArg _ (Except.error.inj h)⟩

theorem trialPassphrase_canceled {skey : SignedSecretKey} {rec : String}
    (h : trialPassphrase R fetchPassword rec skey = .error .errorCanceled) :
    ∃ target, passwordTarget R skey rec = some target ∧
      fetchPassword target = .error .errorCanceled := by
  unfold trialPassphrase at h
  split at h
  · cases h
  · next target htarget => exact ⟨target, htarget, h⟩

end

/-! ## All certificates -/

/-- The certificates that are tried unless one opens before, each with the recipient it was
first returned for. -/
def visitsFrom (fetchSeckey : String → Option SignedSecretKey) (tried : List String) :
    List RecipientResultInternal → List (String × SignedSecretKey)
  | [] => []
  | rec :: recipients =>
    match fetchSeckey (cString rec.keyId) with
    | none => visitsFrom fetchSeckey tried recipients
    | some skey =>
      if tried.contains skey.primaryKey.fingerprint then visitsFrom fetchSeckey tried recipients
      else
        (rec.keyId, skey) :: visitsFrom fetchSeckey (tried ++ [skey.primaryKey.fingerprint]) recipients

section

variable {R : KeyRing} {fetchPassword : String → Except GfrStatus Bytes}
  {fetchSeckey : String → Option SignedSecretKey}

/-- No prompt among these was cancelled. -/
def NotCanceled (fetchPassword : String → Except GfrStatus Bytes) (asked : List String) : Prop :=
  ∀ component ∈ asked, fetchPassword component ≠ .error .errorCanceled

section

variable {esks : List Esk} {tried : List String} {failure : Option GfrStatus}
  {rec : RecipientResultInternal} {recipients : List RecipientResultInternal}

/-- A recipient for which nothing new is returned is passed over. -/
theorem searchRecipients_skip
    (h : ∀ skey, fetchSeckey (cString rec.keyId) = some skey →
      skey.primaryKey.fingerprint ∈ tried) :
    searchRecipients R fetchPassword fetchSeckey esks tried failure (rec :: recipients)
      = searchRecipients R fetchPassword fetchSeckey esks tried failure recipients := by
  rw [searchRecipients]
  cases hfetch : fetchSeckey (cString rec.keyId) with
  | none => rfl
  | some skey =>
    have htried : tried.contains skey.primaryKey.fingerprint = true :=
      List.contains_iff_mem.2 (h skey hfetch)
    simp only [htried, if_true]

theorem visitsFrom_skip
    (h : ∀ skey, fetchSeckey (cString rec.keyId) = some skey →
      skey.primaryKey.fingerprint ∈ tried) :
    visitsFrom fetchSeckey tried (rec :: recipients) = visitsFrom fetchSeckey tried recipients := by
  rw [visitsFrom]
  cases hfetch : fetchSeckey (cString rec.keyId) with
  | none => rfl
  | some skey =>
    have htried : tried.contains skey.primaryKey.fingerprint = true :=
      List.contains_iff_mem.2 (h skey hfetch)
    simp only [htried, if_true]

theorem visitsFrom_cons {skey : SignedSecretKey}
    (hfetch : fetchSeckey (cString rec.keyId) = some skey)
    (hnew : skey.primaryKey.fingerprint ∉ tried) :
    visitsFrom fetchSeckey tried (rec :: recipients)
      = (rec.keyId, skey)
        :: visitsFrom fetchSeckey (tried ++ [skey.primaryKey.fingerprint]) recipients := by
  have htried : ¬ tried.contains skey.primaryKey.fingerprint = true := by simpa using hnew
  simp only [visitsFrom, hfetch, if_neg htried]

variable (failure recipients) in
/-- What the trial of a new certificate decides: it ends the search, or the search goes on. -/
theorem searchRecipients_cons {skey : SignedSecretKey}
    (hfetch : fetchSeckey (cString rec.keyId) = some skey)
    (hnew : skey.primaryKey.fingerprint ∉ tried)
    {result : Except GfrStatus PlainSessionKey} {calls : List PassphraseCall}
    (hattempt : pkeskSessionKeyWith R fetchPassword esks skey rec.keyId = (result, calls)) :
    (∃ sessionKey, result = .ok sessionKey ∧
      searchRecipients R fetchPassword fetchSeckey esks tried failure (rec :: recipients)
        = (.ok (sessionKey, rec.keyId, skey), calls)) ∨
    (result = .error .errorCanceled ∧
      searchRecipients R fetchPassword fetchSeckey esks tried failure (rec :: recipients)
        = (.error .errorCanceled, calls)) ∨
    ∃ status failure', ∃ later, result = .error status ∧ status ≠ .errorCanceled ∧
      searchRecipients R fetchPassword fetchSeckey esks
        (tried ++ [skey.primaryKey.fingerprint]) failure' recipients = later ∧
      searchRecipients R fetchPassword fetchSeckey esks tried failure (rec :: recipients)
        = (later.1, calls ++ later.2) := by
  have htried : ¬ tried.contains skey.primaryKey.fingerprint = true := by simpa using hnew
  simp only [searchRecipients, hfetch, if_neg htried, hattempt]
  cases result with
  | ok sessionKey => exact .inl ⟨sessionKey, rfl, rfl⟩
  | error status =>
    by_cases hstatus : status = .errorCanceled
    · subst hstatus
      exact .inr (.inl ⟨rfl, rfl⟩)
    · refine .inr (.inr ⟨status, some (moreTellingFailure failure status), _, rfl, hstatus, rfl, ?_⟩)
      cases status <;> first
        | exact absurd rfl hstatus
        | rfl

end

/-- **The loop finds a key exactly if one of the certificates it tries opens.** -/
theorem searchRecipients_ok_iff (esks : List Esk) (recipients : List RecipientResultInternal) :
    ∀ (tried : List String) (failure : Option GfrStatus),
      NotCanceled fetchPassword
        (askedComponents
          (searchRecipients R fetchPassword fetchSeckey esks tried failure recipients).2) →
      ((∃ found,
          (searchRecipients R fetchPassword fetchSeckey esks tried failure recipients).1 = .ok found) ↔
        ∃ visit ∈ visitsFrom fetchSeckey tried recipients,
          CertificateOpens R fetchPassword esks visit) := by
  induction recipients with
  | nil =>
    intro tried failure _
    simp [searchRecipients, visitsFrom]
  | cons rec recipients ih =>
    intro tried failure hcancel
    by_cases hskip : ∀ skey, fetchSeckey (cString rec.keyId) = some skey →
        skey.primaryKey.fingerprint ∈ tried
    · rw [searchRecipients_skip hskip] at hcancel ⊢
      rw [visitsFrom_skip hskip]
      exact ih tried failure hcancel
    · push Not at hskip
      obtain ⟨skey, hfetch, hnew⟩ := hskip
      rw [visitsFrom_cons hfetch hnew, List.exists_mem_cons_iff, ← pkeskSessionKeyWith_ok_iff]
      cases hattempt : pkeskSessionKeyWith R fetchPassword esks skey rec.keyId with
      | mk result calls =>
        obtain ⟨sessionKey, rfl, hsearch⟩ | ⟨rfl, hsearch⟩ | ⟨status, failure', later, rfl, -, rfl,
          hsearch⟩ := searchRecipients_cons failure recipients hfetch hnew hattempt
        · simp [hsearch]
        · -- cancelled, against the assumption
          obtain ⟨target, htarget, hprompt⟩ :=
            trialPassphrase_canceled
              ((pkeskSessionKeyWith_canceled_iff R fetchPassword esks skey rec.keyId).1
                (by rw [hattempt]))
          have hcalls := askedComponents_pkeskSessionKeyWith R fetchPassword esks skey
            rec.keyId
          rw [hattempt, htarget] at hcalls
          rw [hsearch, hcalls] at hcancel
          exact absurd hprompt (hcancel target (List.mem_singleton.2 rfl))
        · rw [hsearch, askedComponents_append] at hcancel
          have hih := ih _ failure' fun asked hmem =>
            hcancel asked (List.mem_append_right _ hmem)
          rw [hsearch, hih]
          simp

/-! ## What is asked -/

variable (R fetchPassword) in
/-- The search ends with the trial of this certificate: it opens, or its prompt is cancelled. -/
def EndsSearch (esks : List Esk) (visit : String × SignedSecretKey) : Prop :=
  CertificateOpens R fetchPassword esks visit ∨
    trialPassphrase R fetchPassword visit.1 visit.2 = .error .errorCanceled

variable (R fetchPassword) in
/-- Of the certificates in line the loop comes to the first ones, up to one that ends the search,
and asks for these components. -/
inductive Reaches (esks : List Esk) : List (String × SignedSecretKey) → List String → Prop
  | none : Reaches esks [] []
  | ends {visit : String × SignedSecretKey} {rest : List (String × SignedSecretKey)} :
    EndsSearch R fetchPassword esks visit →
      Reaches esks (visit :: rest) (passwordTarget R visit.2 visit.1).toList
  | goesOn {visit : String × SignedSecretKey} {rest : List (String × SignedSecretKey)}
    {asked : List String} : ¬EndsSearch R fetchPassword esks visit → Reaches esks rest asked →
      Reaches esks (visit :: rest) ((passwordTarget R visit.2 visit.1).toList ++ asked)

theorem searchRecipients_reaches (esks : List Esk) (recipients : List RecipientResultInternal) :
    ∀ (tried : List String) (failure : Option GfrStatus),
      Reaches R fetchPassword esks (visitsFrom fetchSeckey tried recipients) (askedComponents
        (searchRecipients R fetchPassword fetchSeckey esks tried failure recipients).2) := by
  induction recipients with
  | nil => exact fun _ _ => .none
  | cons rec recipients ih =>
    intro tried failure
    by_cases hskip : ∀ skey, fetchSeckey (cString rec.keyId) = some skey →
        skey.primaryKey.fingerprint ∈ tried
    · rw [searchRecipients_skip hskip, visitsFrom_skip hskip]
      exact ih tried failure
    · push Not at hskip
      obtain ⟨skey, hfetch, hnew⟩ := hskip
      have hcalls := askedComponents_pkeskSessionKeyWith R fetchPassword esks skey rec.keyId
      have hopens := pkeskSessionKeyWith_ok_iff R fetchPassword esks skey rec.keyId
      have hcanceled := pkeskSessionKeyWith_canceled_iff R fetchPassword esks skey rec.keyId
      rw [visitsFrom_cons hfetch hnew]
      cases hattempt : pkeskSessionKeyWith R fetchPassword esks skey rec.keyId with
      | mk result calls =>
        rw [hattempt] at hcalls hopens hcanceled
        dsimp only at hcalls hopens hcanceled
        obtain ⟨sessionKey, rfl, hsearch⟩ | ⟨rfl, hsearch⟩ | ⟨status, failure', later, rfl, hstatus,
          rfl, hsearch⟩ := searchRecipients_cons failure recipients hfetch hnew hattempt
        · rw [hsearch, hcalls]
          exact .ends (.inl (hopens.1 ⟨sessionKey, rfl⟩))
        · rw [hsearch, hcalls]
          exact .ends (.inr (hcanceled.1 rfl))
        · rw [hsearch, askedComponents_append, hcalls]
          refine .goesOn ?_ (ih _ failure')
          rintro (hopen | hcancel)
          · obtain ⟨sessionKey, hok⟩ := hopens.2 hopen
            cases hok
          · exact hstatus (Except.error.inj (hcanceled.2 hcancel))

variable {esks : List Esk} {visits : List (String × SignedSecretKey)} {asked : List String}

/-- What is asked for, is asked for a certificate that none before it keeps the loop from. -/
theorem Reaches.mem_iff (h : Reaches R fetchPassword esks visits asked) {target : String} :
    target ∈ asked ↔ ∃ before visit after, visits = before ++ visit :: after ∧
      passwordTarget R visit.2 visit.1 = some target ∧
        ∀ w ∈ before, ¬EndsSearch R fetchPassword esks w := by
  induction h with
  | none => simp
  | @ends visit rest hends =>
    rw [Option.mem_toList]
    constructor
    · exact fun htarget => ⟨[], visit, rest, rfl, htarget, by simp⟩
    · rintro ⟨before, v, after, heq, htarget, hbefore⟩
      cases before with
      | nil =>
        obtain ⟨rfl, -⟩ := List.cons.inj heq
        exact htarget
      | cons w before =>
        obtain ⟨rfl, -⟩ := List.cons.inj heq
        exact absurd hends (hbefore _ List.mem_cons_self)
  | @goesOn visit rest asked hgoes _ ih =>
    rw [List.mem_append, Option.mem_toList, ih]
    constructor
    · rintro (htarget | ⟨before, v, after, rfl, htarget, hbefore⟩)
      · exact ⟨[], visit, rest, rfl, htarget, by simp⟩
      · exact ⟨visit :: before, v, after, rfl, htarget, List.forall_mem_cons.2 ⟨hgoes, hbefore⟩⟩
    · rintro ⟨before, v, after, heq, htarget, hbefore⟩
      cases before with
      | nil =>
        obtain ⟨rfl, -⟩ := List.cons.inj heq
        exact .inl htarget
      | cons w before =>
        obtain ⟨rfl, hrest⟩ := List.cons.inj heq
        exact .inr ⟨before, v, after, hrest, htarget, (List.forall_mem_cons.1 hbefore).2⟩

/-- Without a cancelled prompt, the search is ended by a certificate that opens. -/
theorem Reaches.exists_opens (h : Reaches R fetchPassword esks visits asked)
    (hcancel : NotCanceled fetchPassword asked) {visit : String × SignedSecretKey}
    (hvisit : visit ∈ visits) (hends : EndsSearch R fetchPassword esks visit) :
    ∃ w ∈ visits, CertificateOpens R fetchPassword esks w := by
  induction h with
  | none => cases hvisit
  | @ends w rest hw =>
    rcases hw with hopens | hprompt
    · exact ⟨w, List.mem_cons_self, hopens⟩
    · obtain ⟨target, htarget, hcanceled⟩ := trialPassphrase_canceled hprompt
      exact absurd hcanceled (hcancel target (Option.mem_toList.2 htarget))
  | @goesOn w rest asked hgoes _ ih =>
    rcases List.mem_cons.1 hvisit with rfl | hvisit
    · exact absurd hends hgoes
    · obtain ⟨v, hv, hopens⟩ := ih (fun component hmem =>
        hcancel component (List.mem_append_right _ hmem)) hvisit
      exact ⟨v, List.mem_cons_of_mem w hv, hopens⟩

/-- A cancelled prompt is that of a certificate in line. -/
theorem Reaches.exists_endsSearch (h : Reaches R fetchPassword esks visits asked)
    (hcancel : ¬NotCanceled fetchPassword asked) :
    ∃ visit ∈ visits, EndsSearch R fetchPassword esks visit := by
  unfold NotCanceled at hcancel
  push Not at hcancel
  obtain ⟨target, hmem, hprompt⟩ := hcancel
  obtain ⟨before, visit, after, rfl, htarget, -⟩ := h.mem_iff.1 hmem
  refine ⟨visit, by simp, .inr ?_⟩
  rw [trialPassphrase, htarget]
  exact hprompt

variable (R fetchPassword esks visits) in
/-- A certificate that is asked for by the component of an earlier one is not come to. -/
def AsksApart : Prop :=
  ∀ before visit after, visits = before ++ visit :: after → ∀ earlier ∈ before, ∀ target,
    passwordTarget R earlier.2 earlier.1 = some target →
      passwordTarget R visit.2 visit.1 = some target →
        ∃ w ∈ before, EndsSearch R fetchPassword esks w

theorem Reaches.nodup_iff (h : Reaches R fetchPassword esks visits asked) :
    asked.Nodup ↔ AsksApart R fetchPassword esks visits := by
  induction h with
  | none =>
    refine iff_of_true List.nodup_nil fun before visit after heq => ?_
    cases before <;> cases heq
  | @ends visit rest hends =>
    refine iff_of_true ?_ fun before v after heq earlier hearlier _ _ _ => ?_
    · cases passwordTarget R visit.2 visit.1 with
      | none => exact List.nodup_nil
      | some target => exact List.nodup_singleton target
    · cases before with
      | nil => cases hearlier
      | cons w before =>
        obtain ⟨rfl, -⟩ := List.cons.inj heq
        exact ⟨visit, List.mem_cons_self, hends⟩
  | @goesOn visit rest asked hgoes hrest ih =>
    have hends : ∀ before : List (String × SignedSecretKey),
        (∃ w ∈ visit :: before, EndsSearch R fetchPassword esks w) ↔
          ∃ w ∈ before, EndsSearch R fetchPassword esks w := fun before => by
      rw [List.exists_mem_cons_iff, or_iff_right hgoes]
    have hfirst : ((passwordTarget R visit.2 visit.1).toList ++ asked).Nodup ↔
        (∀ target, passwordTarget R visit.2 visit.1 = some target → target ∉ asked) ∧
          asked.Nodup := by
      cases passwordTarget R visit.2 visit.1 with
      | none => simp
      | some target => simp
    rw [hfirst, ih]
    constructor
    · rintro ⟨hnew, hapart⟩ before v after heq earlier hearlier target hasked hagain
      cases before with
      | nil => cases hearlier
      | cons w before =>
        obtain ⟨rfl, rfl⟩ := List.cons.inj heq
        rw [hends]
        rcases List.mem_cons.1 hearlier with rfl | hearlier
        · by_contra hnone
          push Not at hnone
          exact hnew target hasked (hrest.mem_iff.2 ⟨before, v, after, rfl, hagain, hnone⟩)
        · exact hapart before v after rfl earlier hearlier target hasked hagain
    · intro hapart
      refine ⟨fun target hasked hmem => ?_, fun before v after heq earlier hearlier target hfound
        hagain => ?_⟩
      · obtain ⟨before, v, after, rfl, hagain, hnone⟩ := hrest.mem_iff.1 hmem
        obtain ⟨w, hw, hended⟩ := (hends before).1 (hapart (visit :: before) v after rfl visit
          List.mem_cons_self target hasked hagain)
        exact hnone w hw hended
      · exact (hends before).1 (hapart (visit :: before) v after (by rw [heq, List.cons_append])
          earlier (List.mem_cons_of_mem _ hearlier) target hfound hagain)

/-- Every certificate is tried once. -/
theorem visitsFrom_fingerprints (recipients : List RecipientResultInternal) :
    ∀ tried : List String,
      (∀ visit ∈ visitsFrom fetchSeckey tried recipients,
        visit.2.primaryKey.fingerprint ∉ tried) ∧
      (visitsFrom fetchSeckey tried recipients).Pairwise fun v w =>
        v.2.primaryKey.fingerprint ≠ w.2.primaryKey.fingerprint := by
  induction recipients with
  | nil =>
    intro tried
    simp [visitsFrom]
  | cons rec recipients ih =>
    intro tried
    by_cases hskip : ∀ skey, fetchSeckey (cString rec.keyId) = some skey →
        skey.primaryKey.fingerprint ∈ tried
    · rw [visitsFrom_skip hskip]
      exact ih tried
    · push Not at hskip
      obtain ⟨skey, hfetch, hfirst⟩ := hskip
      rw [visitsFrom_cons hfetch hfirst]
      obtain ⟨hnew, hpairwise⟩ := ih (tried ++ [skey.primaryKey.fingerprint])
      refine ⟨fun visit hvisit => ?_, List.pairwise_cons.2 ⟨fun visit hvisit heq => ?_, hpairwise⟩⟩
      · rcases List.mem_cons.1 hvisit with rfl | hvisit
        · exact hfirst
        · exact fun hmem => hnew visit hvisit (List.mem_append_left _ hmem)
      · exact hnew visit hvisit (List.mem_append_right _ (by simp [← heq]))

end

/-! ## The result -/

section

variable (R : KeyRing) (fetchPassword : String → Except GfrStatus Bytes)
  (fetchSeckeyCb : Option (String → Option SignedSecretKey)) (esks : List Esk)
  (recipients : List RecipientResultInternal)

/-- The packet of the candidate is one of the message's, of a version that is read. -/
structure EskCandidate.Sent (c : EskCandidate) : Prop where
  mem : .publicKeyEncryptedSessionKey c.pkesk ∈ esks
  typ : c.pkesk.version.eskType = some c.typ
  values : c.pkesk.values = some c.values

/-- The host returns the certificate for one of the recipients. -/
def Returned (skey : SignedSecretKey) : Prop :=
  ∃ rec ∈ recipients, (fetchSeckeyCb.bind fun cb => cb (cString rec.keyId)) = some skey

/-- Some packet is opened by some component of a returned certificate, with the passphrase of
that component. -/
def Openable : Prop :=
  ∃ skey, Returned fetchSeckeyCb recipients skey ∧ ∃ c : EskCandidate, c.Sent esks ∧
    c.key ∈ skey.components ∧ ∃ pwd, componentPassphrase R fetchPassword c.key = .ok pwd ∧
      R.unlocks c.key pwd = true ∧ c.Yields R

/-- The certificates in line, each with the recipient it is tried for. -/
def visits : List (String × SignedSecretKey) :=
  match fetchSeckeyCb with
  | none => []
  | some fetchSeckey => visitsFrom fetchSeckey [] recipients

/-- A session key is found if there is one to be found and no prompt is cancelled, and no
component is asked for twice. -/
def SearchComplete {Ciphers : Type} (acceptedCiphers : SignedPublicKey → Ciphers) : Prop :=
  let search := pkeskSessionKey R acceptedCiphers fetchPassword fetchSeckeyCb esks recipients
  (NotCanceled fetchPassword (askedComponents search.2) →
    Openable R fetchPassword fetchSeckeyCb esks recipients → ∃ found, search.1 = .ok found) ∧
      (askedComponents search.2).Nodup

/-- Every certificate has one passphrase, and components of its own. A fingerprint stands for one
certificate, what a packet is opened by it is addressed to, and the passphrase a certificate is
tried with unlocks all its components that packets are addressed to. -/
structure OnePassphraseEach : Prop where
  same : ∀ skey skey', Returned fetchSeckeyCb recipients skey →
    Returned fetchSeckeyCb recipients skey' → ∀ c ∈ skey.components, ∀ c' ∈ skey'.components,
      c.key.fingerprint = c'.key.fingerprint → skey = skey'
  addressed : ∀ c : EskCandidate, c.Sent esks → c.Yields R →
    R.matchIdentity c.pkesk c.key.key = true
  unlocks : ∀ visit ∈ visits fetchSeckeyCb recipients, ∃ pwd,
    trialPassphrase R fetchPassword visit.1 visit.2 = .ok pwd ∧
      ∀ c ∈ esks.flatMap (eskCandidates R visit.2), R.unlocks c.key pwd = true

end

section

variable {R : KeyRing} {fetchPassword : String → Except GfrStatus Bytes}
  {fetchSeckeyCb : Option (String → Option SignedSecretKey)} {esks : List Esk}
  {recipients : List RecipientResultInternal}

theorem mem_candidates {skey : SignedSecretKey} {c : EskCandidate} (hsent : c.Sent esks)
    (hkey : c.key ∈ skey.components) (haddressed : R.matchIdentity c.pkesk c.key.key = true) :
    c ∈ esks.flatMap (eskCandidates R skey) := by
  refine List.mem_flatMap.2 ⟨_, hsent.mem, ?_⟩
  simp only [eskCandidates, hsent.typ, hsent.values]
  exact List.mem_map.2 ⟨c.key, List.mem_filter.2 ⟨hkey, haddressed⟩, rfl⟩

variable {fetchSeckey : String → Option SignedSecretKey}

/-- A returned certificate is tried, or another of its fingerprint was. -/
theorem exists_visitFrom {rec : RecipientResultInternal} {skey : SignedSecretKey}
    (hfetch : fetchSeckey (cString rec.keyId) = some skey) :
    ∀ {recipients : List RecipientResultInternal}, rec ∈ recipients → ∀ tried : List String,
      skey.primaryKey.fingerprint ∈ tried ∨
        ∃ visit ∈ visitsFrom fetchSeckey tried recipients,
          visit.2.primaryKey.fingerprint = skey.primaryKey.fingerprint := by
  intro recipients
  induction recipients with
  | nil => exact fun hrec => absurd hrec List.not_mem_nil
  | cons r recipients ih =>
    intro hrec tried
    by_cases htried : skey.primaryKey.fingerprint ∈ tried
    · exact .inl htried
    refine .inr ?_
    rcases List.mem_cons.1 hrec with rfl | hrec
    · rw [visitsFrom_cons hfetch htried]
      exact ⟨_, List.mem_cons_self, rfl⟩
    · by_cases hskip : ∀ skey', fetchSeckey (cString r.keyId) = some skey' →
          skey'.primaryKey.fingerprint ∈ tried
      · rw [visitsFrom_skip hskip]
        exact (ih hrec tried).resolve_left htried
      · push Not at hskip
        obtain ⟨skey', hfetch', hnew⟩ := hskip
        rw [visitsFrom_cons hfetch' hnew]
        rcases ih hrec (tried ++ [skey'.primaryKey.fingerprint]) with hmem | ⟨visit, hvisit, heq⟩
        · rcases List.mem_append.1 hmem with hmem | hmem
          · exact absurd hmem htried
          · exact ⟨_, List.mem_cons_self, (List.mem_singleton.1 hmem).symm⟩
        · exact ⟨visit, List.mem_cons_of_mem _ hvisit, heq⟩

/-- What is tried was returned. -/
theorem returned_of_mem_visitsFrom :
    ∀ {recipients : List RecipientResultInternal} {tried : List String}
      {visit : String × SignedSecretKey}, visit ∈ visitsFrom fetchSeckey tried recipients →
      ∃ rec ∈ recipients, fetchSeckey (cString rec.keyId) = some visit.2 := by
  intro recipients
  induction recipients with
  | nil => exact fun hvisit => absurd hvisit List.not_mem_nil
  | cons r recipients ih =>
    intro tried visit hvisit
    rw [visitsFrom] at hvisit
    cases hfetch : fetchSeckey (cString r.keyId) with
    | none =>
      simp only [hfetch] at hvisit
      obtain ⟨rec, hrec, heq⟩ := ih hvisit
      exact ⟨rec, List.mem_cons_of_mem r hrec, heq⟩
    | some skey =>
      simp only [hfetch] at hvisit
      split at hvisit
      · obtain ⟨rec, hrec, heq⟩ := ih hvisit
        exact ⟨rec, List.mem_cons_of_mem r hrec, heq⟩
      · rcases List.mem_cons.1 hvisit with rfl | hvisit
        · exact ⟨r, List.mem_cons_self, hfetch⟩
        · obtain ⟨rec, hrec, heq⟩ := ih hvisit
          exact ⟨rec, List.mem_cons_of_mem r hrec, heq⟩

/-- A certificate is asked for by one of its components. -/
theorem exists_component_of_passwordTarget {skey : SignedSecretKey} {rec target : String}
    (h : passwordTarget R skey rec = some target) :
    ∃ c ∈ skey.components, c.key.fingerprint = target := by
  unfold passwordTarget at h
  split at h
  · exact ⟨skey.primaryComponent, List.mem_cons_self, Option.some.inj h⟩
  · obtain ⟨subkey, hfound, hfpr⟩ := Option.map_eq_some_iff.1 h
    exact ⟨subkey.component, List.mem_cons_of_mem _
      (List.mem_map_of_mem (List.mem_of_find?_eq_some hfound)), hfpr⟩

theorem returned_of_mem_visits {visit : String × SignedSecretKey}
    (h : visit ∈ visits fetchSeckeyCb recipients) :
    Returned fetchSeckeyCb recipients visit.2 := by
  cases fetchSeckeyCb with
  | none => exact absurd h List.not_mem_nil
  | some fetchSeckey => exact returned_of_mem_visitsFrom h

/-- With components of its own, every certificate is asked for apart. -/
theorem OnePassphraseEach.asksApart
    (h : OnePassphraseEach R fetchPassword fetchSeckeyCb esks recipients) :
    AsksApart R fetchPassword esks (visits fetchSeckeyCb recipients) := by
  intro before visit after heq earlier hearlier target hasked hagain
  obtain ⟨c, hc, hcfpr⟩ := exists_component_of_passwordTarget hasked
  obtain ⟨c', hc', hcfpr'⟩ := exists_component_of_passwordTarget hagain
  have hsame : earlier.2 = visit.2 :=
    h.same _ _ (returned_of_mem_visits (by rw [heq]; exact List.mem_append_left _ hearlier))
      (returned_of_mem_visits (by rw [heq]; simp)) c hc c' hc' (hcfpr.trans hcfpr'.symm)
  -- but the loop tries a certificate once
  have hpairwise : (visits fetchSeckeyCb recipients).Pairwise fun v w =>
      v.2.primaryKey.fingerprint ≠ w.2.primaryKey.fingerprint := by
    cases fetchSeckeyCb with
    | none => exact List.Pairwise.nil
    | some fetchSeckey => exact (visitsFrom_fingerprints recipients []).2
  rw [heq] at hpairwise
  exact absurd (congrArg (fun skey : SignedSecretKey => skey.primaryKey.fingerprint) hsame)
    ((List.pairwise_append.1 hpairwise).2.2 earlier hearlier visit List.mem_cons_self)

/-- With one passphrase each, what can be opened is opened. -/
theorem OnePassphraseEach.exists_opens
    (h : OnePassphraseEach R fetchPassword fetchSeckeyCb esks recipients)
    (hopen : Openable R fetchPassword fetchSeckeyCb esks recipients) :
    ∃ visit ∈ visits fetchSeckeyCb recipients, CertificateOpens R fetchPassword esks visit := by
  obtain ⟨skey, ⟨rec, hrec, hreturned⟩, c, hsent, hkey, -, -, -, hyields⟩ := hopen
  cases fetchSeckeyCb with
  | none => simp at hreturned
  | some fetchSeckey =>
    obtain ⟨visit, hvisit, heq⟩ :=
      (exists_visitFrom hreturned hrec []).resolve_left List.not_mem_nil
    obtain ⟨rec', hrec', hreturned'⟩ := returned_of_mem_visitsFrom hvisit
    obtain rfl : visit.2 = skey :=
      h.same _ _ ⟨rec', hrec', hreturned'⟩ ⟨rec, hrec, hreturned⟩ visit.2.primaryComponent
        List.mem_cons_self skey.primaryComponent List.mem_cons_self heq
    obtain ⟨pwd, htrial, hunlocks⟩ := h.unlocks visit hvisit
    have hc := mem_candidates hsent hkey (h.addressed c hsent hyields)
    obtain ⟨before, after, hsplit⟩ := List.append_of_mem hc
    refine ⟨visit, hvisit, pwd, htrial, before, c, after, hsplit, fun b hb => ?_, hunlocks c hc, hyields⟩
    exact hunlocks b (by rw [hsplit]; exact List.mem_append_left _ hb)

/-- **When the search for the session key is complete.** A key that can be found is found, where
no prompt is cancelled, exactly if some certificate opens a packet with the one passphrase it is
tried with, before a component that this passphrase does not unlock. Nothing is asked for twice
exactly if no certificate that is come to is asked for by the component of an earlier one. With
one passphrase for each certificate, and components of its own, both always hold. -/
theorem session_key_search {Ciphers : Type} (acceptedCiphers : SignedPublicKey → Ciphers) :
    (SearchComplete R fetchPassword fetchSeckeyCb esks recipients acceptedCiphers ↔
      (Openable R fetchPassword fetchSeckeyCb esks recipients →
        ∃ visit ∈ visits fetchSeckeyCb recipients, EndsSearch R fetchPassword esks visit) ∧
      AsksApart R fetchPassword esks (visits fetchSeckeyCb recipients)) ∧
    (OnePassphraseEach R fetchPassword fetchSeckeyCb esks recipients →
      SearchComplete R fetchPassword fetchSeckeyCb esks recipients acceptedCiphers) := by
  let search := pkeskSessionKey R acceptedCiphers fetchPassword fetchSeckeyCb esks recipients
  have hreaches : Reaches R fetchPassword esks (visits fetchSeckeyCb recipients)
      (askedComponents search.2) := by
    cases fetchSeckeyCb with
    | none => exact .none
    | some fetchSeckey => exact searchRecipients_reaches esks recipients [] none
  have hfound (hcancel : NotCanceled fetchPassword (askedComponents search.2)) :
      (∃ found, search.1 = .ok found) ↔
        ∃ visit ∈ visits fetchSeckeyCb recipients, CertificateOpens R fetchPassword esks visit := by
    cases fetchSeckeyCb with
    | none => simp [search, pkeskSessionKey, visits]
    | some fetchSeckey =>
      rw [visits, ← searchRecipients_ok_iff esks recipients [] none hcancel]
      simp only [search, pkeskSessionKey]
      cases (searchRecipients R fetchPassword fetchSeckey esks [] none recipients).1 with
      | error status => simp [Except.map]
      | ok found => simp [Except.map]
  have hcomplete : SearchComplete R fetchPassword fetchSeckeyCb esks recipients acceptedCiphers ↔
      (Openable R fetchPassword fetchSeckeyCb esks recipients →
        ∃ visit ∈ visits fetchSeckeyCb recipients, EndsSearch R fetchPassword esks visit) ∧
      AsksApart R fetchPassword esks (visits fetchSeckeyCb recipients) := by
    refine and_congr ⟨fun h hopen => ?_, fun h hcancel hopen => ?_⟩ hreaches.nodup_iff
    · by_cases hcancel : NotCanceled fetchPassword (askedComponents search.2)
      · obtain ⟨visit, hvisit, hopens⟩ := (hfound hcancel).1 (h hcancel hopen)
        exact ⟨visit, hvisit, .inl hopens⟩
      · exact hreaches.exists_endsSearch hcancel
    · obtain ⟨visit, hvisit, hends⟩ := h hopen
      exact (hfound hcancel).2 (hreaches.exists_opens hcancel hvisit hends)
  refine ⟨hcomplete, fun hone => hcomplete.2 ⟨fun hopen => ?_, hone.asksApart⟩⟩
  obtain ⟨visit, hvisit, hopens⟩ := hone.exists_opens hopen
  exact ⟨visit, hvisit, .inl hopens⟩

end

/-! ## Two subkeys with passphrases of their own -/

/-- The secret part of a component is the passphrase that locks it, if any, and a packet's values
are the octets of the fingerprint of what opens it. -/
def sampleRing : KeyRing where
  isEncrypted key := key.secretParams != []
  unlocks key pwd := key.secretParams == [] || key.secretParams == pwd
  opens key values _ :=
    if values = key.key.fingerprint.toList.map (fun c => c.toNat.toUInt8) then
      some (.v3_4 .aes128 (List.replicate 16 7))
    else none
  matchIdentity pkesk key := pkesk.id.any isAnonymous || pkesk.id == some key.legacyKeyId

/-- The packet for the subkey of this fingerprint. -/
def samplePkesk (fingerprint : String) (octet : UInt8) : Pkesk where
  version := .v3
  id := some fingerprint
  fingerprint := none
  algorithm := some .x25519
  pubAlgo := "X25519"
  values := some [octet]

/-- A certificate with two subkeys, the second locked with the passphrase `[22]`. -/
def twoSubkeys (first : Bytes) : SignedSecretKey where
  primaryKey := sampleKey "A"
  secretParams := []
  details := sampleDetails []
  publicSubkeys := []
  secretSubkeys := [⟨sampleKey "B", first, []⟩, ⟨sampleKey "C", [22], []⟩]

/-- Packets for both subkeys, in the order of the certificate. -/
def twoEsks : List Esk :=
  [.publicKeyEncryptedSessionKey (samplePkesk "B" 66),
    .publicKeyEncryptedSessionKey (samplePkesk "C" 67)]

def twoRecipients : List RecipientResultInternal :=
  [⟨"B", "X25519", .noKey⟩, ⟨"C", "X25519", .noKey⟩]

/-- The user has forgotten the passphrase of `B`, and knows that of `C`. -/
def rememberedC (fpr : String) : Except GfrStatus Bytes :=
  if fpr = "C" then .ok [22] else .ok [99]

/-- Another certificate that holds the subkey `B`. -/
def otherHolder : SignedSecretKey where
  primaryKey := sampleKey "D"
  secretParams := []
  details := sampleDetails []
  publicSubkeys := []
  secretSubkeys := [⟨sampleKey "B", [11], []⟩]

/-- A packet for `B`, and one for a recipient that is not named. -/
def anonymousEsks : List Esk :=
  [.publicKeyEncryptedSessionKey (samplePkesk "B" 66),
    .publicKeyEncryptedSessionKey (samplePkesk "0000000000000000" 68)]

def anonymousRecipients : List RecipientResultInternal :=
  [⟨"B", "X25519", .noKey⟩, ⟨"0000000000000000", "X25519", .noKey⟩]

/-- The certificate of the two subkeys for `B`, the other one for whom is not named. -/
def holders (id : String) : Option SignedSecretKey :=
  some (if id = "B" then twoSubkeys [11] else otherHolder)

/-- The passphrase of one subkey is not to be had. The other subkey would open its packet, and
is never asked for. And with another certificate that holds it, the locked subkey is asked for
once more. -/
theorem locked_component_hides_another :
    (analyzeEncryptedEnvelope (.encrypted twoEsks false) = .ok (true, false, twoRecipients) ∧
      pkeskSessionKey sampleRing id rememberedC (some fun _ => some (twoSubkeys [11])) twoEsks
          twoRecipients
        = (.error .errorBadPassphrase, [.fetch "B", .remove "B"]) ∧
      ¬ SearchComplete sampleRing rememberedC (some fun _ => some (twoSubkeys [11])) twoEsks
        twoRecipients id) ∧
    analyzeEncryptedEnvelope (.encrypted anonymousEsks false)
        = .ok (true, false, anonymousRecipients) ∧
      pkeskSessionKey sampleRing id rememberedC (some holders) anonymousEsks anonymousRecipients
        = (.error .errorBadPassphrase, [.fetch "B", .remove "B", .fetch "B", .remove "B"]) ∧
      ¬ SearchComplete sampleRing rememberedC (some holders) anonymousEsks anonymousRecipients
        id := by
  have hsearch : pkeskSessionKey sampleRing id rememberedC (some fun _ => some (twoSubkeys [11]))
      twoEsks twoRecipients = (.error .errorBadPassphrase, [.fetch "B", .remove "B"]) := by
    decide
  have hagain : pkeskSessionKey sampleRing id rememberedC (some holders) anonymousEsks
      anonymousRecipients
        = (.error .errorBadPassphrase, [.fetch "B", .remove "B", .fetch "B", .remove "B"]) := by
    decide
  refine ⟨⟨by decide, hsearch, fun hcomplete => ?_⟩, by decide, hagain, fun hcomplete => ?_⟩
  · have hopen : Openable sampleRing rememberedC (some fun _ => some (twoSubkeys [11])) twoEsks
        twoRecipients := by
      refine ⟨twoSubkeys [11], ⟨_, List.mem_cons_self, rfl⟩,
        ⟨samplePkesk "C" 67, [67], .v3_4, sampleKey "C", [22]⟩, ⟨by decide, rfl, rfl⟩, by decide,
        [22], by decide, by decide, _, rfl, by decide⟩
    have hcancel (component : String) : rememberedC component ≠ .error .errorCanceled := by
      unfold rememberedC
      split <;> nofun
    obtain ⟨found, hfound⟩ := hcomplete.1 (fun component _ => hcancel component) hopen
    rw [hsearch] at hfound
    cases hfound
  · have hnodup := hcomplete.2
    rw [hagain] at hnodup
    exact absurd hnodup (by decide)

/-- With the passphrase of both subkeys the same. -/
theorem session_key_search_found :
    SearchComplete sampleRing (fun _ => .ok [22]) (some fun _ => some (twoSubkeys [22])) twoEsks
      twoRecipients id := by
  have hvisits : visits (some fun _ => some (twoSubkeys [22])) twoRecipients
      = [("B", twoSubkeys [22])] := by decide
  refine (session_key_search id).1.2 ⟨fun _ => ⟨("B", twoSubkeys [22]), by decide, .inl ?_⟩, ?_⟩
  · refine ⟨[22], rfl, [], ?_⟩
    exact ⟨⟨samplePkesk "B" 66, [66], .v3_4, sampleKey "B", [22]⟩, _, rfl, by simp, by decide, _,
      rfl, by decide⟩
  · -- the second recipient has the same certificate
    intro before visit after heq earlier hearlier
    rw [hvisits] at heq
    cases before with
    | nil => cases hearlier
    | cons w before => simp at heq

end Rpgp

end GpgFrontend
