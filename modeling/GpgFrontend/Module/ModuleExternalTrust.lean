import GpgFrontend.Base.Hex
import GpgFrontend.Base.KeyedMerge
import GpgFrontend.Base.Runs
import GpgFrontend.Base.Standing

/-!
# The user's decisions about external modules (`ModuleExternalTrust.cpp`)

Two stored lists: the publisher keys that are trusted, and the modules that are enabled,
each under one key. A module may run when its key is trusted and it is enabled.

- `trust_revoked_for_good`: **a module is authorized only with the user's consent**, in every
  run in which no key is trusted again over enablements from before its revocation.
-/

namespace GpgFrontend

/-! ## The stored lists -/

/-- `ModuleTrustedPublisherKeySO`. -/
structure ModuleTrustedPublisherKeySO where
  publisherKey : String
  label : String
  firstTrusted : String
  deriving Repr, DecidableEq

/-- A listed key under another label; the date stays. -/
def ModuleTrustedPublisherKeySO.relabel (k fresh : ModuleTrustedPublisherKeySO) :
    ModuleTrustedPublisherKeySO :=
  { k with label := fresh.label }

/-- `ModuleAuthorizationSO`. -/
structure ModuleAuthorizationSO where
  moduleId : String
  publisherKey : String
  enabled : Bool
  approvedAt : String
  deriving Repr, DecidableEq

/-- What an authorization is found by. -/
def ModuleAuthorizationSO.key (a : ModuleAuthorizationSO) : String × String :=
  (a.moduleId, a.publisherKey)

/-- An authorization decided again. -/
def ModuleAuthorizationSO.redecide (a fresh : ModuleAuthorizationSO) : ModuleAuthorizationSO :=
  { a with enabled := fresh.enabled, approvedAt := fresh.approvedAt }

/-- The data objects `module_trusted_keys` and `module_authorizations`. -/
structure ModuleTrustStore where
  keys : List ModuleTrustedPublisherKeySO := []
  authorizations : List ModuleAuthorizationSO := []
  deriving Repr, DecidableEq

/-- What becomes of the data object a call rewrites. It is `unreadable` when the load fails,
and the call is refused. The write comes with the settings object's end, which looks at no
result: it may be `lost`. -/
inductive SettingsOutcome where
  | unreadable
  | lost
  | stored
  deriving Repr, DecidableEq

/-- `StoreList`. -/
def SettingsOutcome.storeList (outcome : SettingsOutcome) (s s' : ModuleTrustStore) :
    Bool × ModuleTrustStore :=
  match outcome with
  | .unreadable => (false, s)
  | .lost => (true, s)
  | .stored => (true, s')

/-- `KeyText`. -/
def keyText (publisherKey : Bytes) : String :=
  if publisherKey.length ≠ 32 then "" else String.ofList (toHex publisherKey)

/-- `IsModulePublisherKeyTrusted`. -/
def isModulePublisherKeyTrusted (readable : Bool) (publisherKey : Bytes) (s : ModuleTrustStore) :
    Bool :=
  if publisherKey.length ≠ 32 then false
  else if !readable then false
  else s.keys.any fun k => k.publisherKey ≠ "" ∧ k.publisherKey = keyText publisherKey

/-- `TrustModulePublisherKey`: a key that is listed gets the label, and keeps its date. -/
def trustModulePublisherKey (outcome : SettingsOutcome) (now : String) (publisherKey : Bytes)
    (label : String) (s : ModuleTrustStore) : Bool × ModuleTrustStore :=
  if publisherKey.length ≠ 32 then (false, s)
  else
    let fresh : ModuleTrustedPublisherKeySO := ⟨keyText publisherKey, label, now⟩
    outcome.storeList s { s with
      keys := addKeyed ModuleTrustedPublisherKeySO.publisherKey
        ModuleTrustedPublisherKeySO.publisherKey ModuleTrustedPublisherKeySO.relabel some
        s.keys fresh }

/-- `RevokeModulePublisherKey`: the authorizations stay as they are. -/
def revokeModulePublisherKey (outcome : SettingsOutcome) (publisherKey : Bytes)
    (s : ModuleTrustStore) : Bool × ModuleTrustStore :=
  if publisherKey.length ≠ 32 then (false, s)
  else
    outcome.storeList s { s with
      keys := s.keys.filter fun k => k.publisherKey ≠ keyText publisherKey }

/-- `IsExternalModuleEnabled`: the first record of the module under the key says. -/
def isExternalModuleEnabled (readable : Bool) (moduleId : String) (publisherKey : Bytes)
    (s : ModuleTrustStore) : Bool :=
  if moduleId = "" ∨ publisherKey.length ≠ 32 then false
  else if !readable then false
  else
    match lookupKey ModuleAuthorizationSO.key (moduleId, keyText publisherKey) s.authorizations with
    | some a => a.enabled
    | none => false

/-- `SetExternalModuleEnabled`. -/
def setExternalModuleEnabled (outcome : SettingsOutcome) (now : String) (moduleId : String)
    (publisherKey : Bytes) (enabled : Bool) (s : ModuleTrustStore) : Bool × ModuleTrustStore :=
  if moduleId = "" ∨ publisherKey.length ≠ 32 then (false, s)
  else
    let fresh : ModuleAuthorizationSO :=
      ⟨moduleId, keyText publisherKey, enabled, if enabled then now else ""⟩
    outcome.storeList s { s with
      authorizations := addKeyed ModuleAuthorizationSO.key ModuleAuthorizationSO.key
        ModuleAuthorizationSO.redecide some s.authorizations fresh }

/-- `ModuleAuthorizationState`. -/
inductive ModuleAuthorizationState where
  | trustedAndEnabled
  | publisherUntrusted
  | notEnabled
  deriving Repr, DecidableEq

/-- `ExternalModuleAuthorization`; the two objects are read apart, and each may be unreadable. -/
def externalModuleAuthorization (keysReadable authorizationsReadable : Bool) (moduleId : String)
    (publisherKey : Bytes) (s : ModuleTrustStore) : ModuleAuthorizationState :=
  if !isModulePublisherKeyTrusted keysReadable publisherKey s then .publisherUntrusted
  else if !isExternalModuleEnabled authorizationsReadable moduleId publisherKey s then .notEnabled
  else .trustedAndEnabled

/-! ## Calls and runs -/

inductive ModuleTrustCall where
  | trust (publisherKey : Bytes) (label : String)
  | revoke (publisherKey : Bytes)
  | setEnabled (moduleId : String) (publisherKey : Bytes) (enabled : Bool)
  deriving Repr, DecidableEq

/-- A call, what the storage does with it, and the time. -/
structure ModuleTrustInput where
  call : ModuleTrustCall
  outcome : SettingsOutcome := .stored
  now : String := ""

def ModuleTrustInput.apply (i : ModuleTrustInput) (s : ModuleTrustStore) :
    Bool × ModuleTrustStore :=
  match i.call with
  | .trust k label => trustModulePublisherKey i.outcome i.now k label s
  | .revoke k => revokeModulePublisherKey i.outcome k s
  | .setEnabled m k enabled => setExternalModuleEnabled i.outcome i.now m k enabled s

/-- The stored lists, and the calls that returned true, oldest first. -/
structure ModuleTrustRun where
  store : ModuleTrustStore := {}
  calls : List ModuleTrustCall := []

def ModuleTrustRun.step (r : ModuleTrustRun) (i : ModuleTrustInput) : ModuleTrustRun where
  store := (i.apply r.store).2
  calls := if (i.apply r.store).1 then r.calls ++ [i.call] else r.calls

/-! ## What the calls say -/

namespace ModuleTrustCall

variable (m : String) (k : Bytes)

/-- The key is trusted, and was not revoked after that. -/
def TrustStands : List ModuleTrustCall → Prop :=
  Standing (fun c => ∃ label, c = .trust k label) (fun c => c = .revoke k)

/-- The module is enabled under the key, and after that the key was not revoked and the
module not disabled. -/
def EnableStands : List ModuleTrustCall → Prop :=
  Standing (fun c => c = .setEnabled m k true) (fun c => c = .revoke k ∨ c = .setEnabled m k false)

/-- What the calls say the user agreed to. -/
def Consented (calls : List ModuleTrustCall) : Prop :=
  EnableStands m k calls ∧ TrustStands k calls

end ModuleTrustCall

/-! ## What one call does -/

theorem keyText_inj {k k' : Bytes} (hk : k.length = 32) (hk' : k'.length = 32)
    (h : keyText k = keyText k') : k = k' := by
  simp only [keyText, hk, hk', ne_eq, not_true_eq_false, if_false] at h
  exact toHex_inj (String.ofList_injective h)

theorem keyText_ne_empty {k : Bytes} (hk : k.length = 32) : keyText k ≠ "" := by
  intro h
  have hnil : toHex k = [] := by
    simp only [keyText, hk, ne_eq, not_true_eq_false, if_false] at h
    exact String.ofList_injective h
  refine toHex_ne_nil ?_ hnil
  rintro rfl
  cases hk

variable {s : ModuleTrustStore}

theorem isTrusted_iff {readable : Bool} {k : Bytes} :
    isModulePublisherKeyTrusted readable k s = true ↔
      k.length = 32 ∧ readable = true ∧ ∃ d ∈ s.keys, d.publisherKey = keyText k := by
  by_cases hk : k.length = 32
  · cases readable with
    | false => simp [isModulePublisherKeyTrusted, hk]
    | true =>
      simp only [isModulePublisherKeyTrusted, hk, ne_eq, not_true_eq_false, if_false, Bool.not_true,
        Bool.false_eq_true, List.any_eq_true, decide_eq_true_eq, true_and]
      refine exists_congr fun d => and_congr_right fun _ => and_iff_right_of_imp fun hd => ?_
      rw [hd]
      exact keyText_ne_empty hk
  · simp [isModulePublisherKeyTrusted, hk]

theorem isEnabled_iff {readable : Bool} {m : String} {k : Bytes} :
    isExternalModuleEnabled readable m k s = true ↔
      (m ≠ "" ∧ k.length = 32) ∧ readable = true ∧
        ∃ a, lookupKey ModuleAuthorizationSO.key (m, keyText k) s.authorizations = some a ∧
          a.enabled = true := by
  by_cases hbad : m = "" ∨ k.length ≠ 32
  · have hgood : ¬(m ≠ "" ∧ k.length = 32) := by tauto
    simp [isExternalModuleEnabled, hbad, hgood]
  · have hgood : m ≠ "" ∧ k.length = 32 := by tauto
    cases readable with
    | false => simp [isExternalModuleEnabled, hbad]
    | true =>
      simp only [isExternalModuleEnabled, Bool.not_true, Bool.false_eq_true, if_false,
        hgood, ne_eq, not_false_eq_true, true_and]
      cases lookupKey ModuleAuthorizationSO.key (m, keyText k) s.authorizations <;> simp

theorem authorization_iff {kr ar : Bool} {m : String} {k : Bytes} :
    externalModuleAuthorization kr ar m k s = .trustedAndEnabled ↔
      isModulePublisherKeyTrusted kr k s = true ∧ isExternalModuleEnabled ar m k s = true := by
  cases h : isModulePublisherKeyTrusted kr k s <;> cases h' : isExternalModuleEnabled ar m k s <;>
    simp [externalModuleAuthorization, h, h']

/-- The lists as the calls see them when they can be read. -/
abbrev trustedIn (k : Bytes) (s : ModuleTrustStore) : Prop :=
  isModulePublisherKeyTrusted true k s = true

abbrev enabledIn (m : String) (k : Bytes) (s : ModuleTrustStore) : Prop :=
  isExternalModuleEnabled true m k s = true

/-- `Trust` adds its key and no other. -/
theorem trustedIn_trust {k k' : Bytes} {label now : String} (hk' : k'.length = 32) :
    trustedIn k (trustModulePublisherKey .stored now k' label s).2 ↔ trustedIn k s ∨ k = k' := by
  have hkeys : ∀ text, (∃ d ∈ (trustModulePublisherKey .stored now k' label s).2.keys,
      d.publisherKey = text) ↔ (∃ d ∈ s.keys, d.publisherKey = text) ∨ text = keyText k' := by
    intro text
    rw [trustModulePublisherKey, if_neg (not_not_intro hk')]
    exact @exists_key_addKeyed _ _ _ _ ModuleTrustedPublisherKeySO.publisherKey
      ModuleTrustedPublisherKeySO.publisherKey ModuleTrustedPublisherKeySO.relabel some
      (fun _ _ => rfl) (fun _ _ h => congrArg _ (Option.some.inj h).symm) _ rfl _ text
  constructor
  · intro h
    obtain ⟨hk, -, hd⟩ := isTrusted_iff.mp h
    rcases (hkeys _).mp hd with hd | htext
    · exact Or.inl (isTrusted_iff.mpr ⟨hk, rfl, hd⟩)
    · exact Or.inr (keyText_inj hk hk' htext)
  · rintro (h | rfl)
    · obtain ⟨hk, -, hd⟩ := isTrusted_iff.mp h
      exact isTrusted_iff.mpr ⟨hk, rfl, (hkeys _).mpr (Or.inl hd)⟩
    · exact isTrusted_iff.mpr ⟨hk', rfl, (hkeys _).mpr (Or.inr rfl)⟩

/-- `Revoke` takes its key out and no other. -/
theorem trustedIn_revoke {k k' : Bytes} (hk' : k'.length = 32) :
    trustedIn k (revokeModulePublisherKey .stored k' s).2 ↔ trustedIn k s ∧ k ≠ k' := by
  have hkeys : (revokeModulePublisherKey .stored k' s).2.keys
      = s.keys.filter fun d => d.publisherKey ≠ keyText k' := by
    rw [revokeModulePublisherKey, if_neg (not_not_intro hk')]
    rfl
  constructor
  · intro h
    obtain ⟨hk, -, d, hd, htext⟩ := isTrusted_iff.mp h
    rw [hkeys, List.mem_filter, decide_eq_true_eq] at hd
    refine ⟨isTrusted_iff.mpr ⟨hk, rfl, d, hd.1, htext⟩, ?_⟩
    rintro rfl
    exact hd.2 htext
  · rintro ⟨h, hne⟩
    obtain ⟨hk, -, d, hd, htext⟩ := isTrusted_iff.mp h
    refine isTrusted_iff.mpr ⟨hk, rfl, d, ?_, htext⟩
    rw [hkeys, List.mem_filter, decide_eq_true_eq]
    exact ⟨hd, fun h' => hne (keyText_inj hk hk' (htext.symm.trans h'))⟩

/-- `SetExternalModuleEnabled` decides about one module under one key. -/
theorem enabledIn_setEnabled {m m' : String} {k k' : Bytes} {b : Bool} {now : String}
    (hm' : m' ≠ "") (hk' : k'.length = 32) :
    enabledIn m k (setExternalModuleEnabled .stored now m' k' b s).2 ↔
      if m = m' ∧ k = k' then b = true else enabledIn m k s := by
  have hgood : ¬(m' = "" ∨ k'.length ≠ 32) := by tauto
  let fresh : ModuleAuthorizationSO := ⟨m', keyText k', b, if b then now else ""⟩
  have hauths : (setExternalModuleEnabled .stored now m' k' b s).2.authorizations
      = addKeyed ModuleAuthorizationSO.key ModuleAuthorizationSO.key ModuleAuthorizationSO.redecide
        some s.authorizations fresh := by
    rw [setExternalModuleEnabled, if_neg hgood]
    rfl
  have hkeep : ∀ a c, (ModuleAuthorizationSO.redecide a c).key = a.key := fun _ _ => rfl
  have hmake : ∀ a c : ModuleAuthorizationSO, some a = some c → c.key = a.key :=
    fun _ _ h => congrArg _ (Option.some.inj h).symm
  simp only [enabledIn, isEnabled_iff, hauths]
  by_cases hsame : m = m' ∧ k = k'
  · obtain ⟨rfl, rfl⟩ := hsame
    rw [if_pos ⟨rfl, rfl⟩, show (m, keyText k) = fresh.key from rfl,
      lookupKey_addKeyed_self hkeep hmake]
    cases lookupKey ModuleAuthorizationSO.key fresh.key s.authorizations <;>
      simp [hm', hk', fresh, ModuleAuthorizationSO.redecide]
  · rw [if_neg hsame]
    refine and_congr_right fun hk => and_congr_right fun _ => ?_
    have hne : fresh.key ≠ (m, keyText k) := fun heq =>
      hsame ⟨(Prod.mk.inj heq).1.symm, keyText_inj hk.2 hk' (Prod.mk.inj heq).2.symm⟩
    rw [lookupKey_addKeyed_of_ne hkeep hmake hne]

/-! ## What the user agreed to -/

open ModuleTrustCall

/-- The condition on a call, in the state before it. A key is not trusted again while a
module stays enabled under it that was enabled before the key was revoked. And where a write
is lost, it is not the revocation of a trusted key, nor the disabling of a module that may run. -/
def ModuleTrustRun.KeepsConsent (r : ModuleTrustRun) (i : ModuleTrustInput) : Prop :=
  match i.call, i.outcome with
  | .trust k _, .stored =>
    trustedIn k r.store ∨ ∀ m, enabledIn m k r.store → EnableStands m k r.calls
  | .revoke k, .lost => ¬ trustedIn k r.store
  | .setEnabled m k false, .lost => ¬(trustedIn k r.store ∧ enabledIn m k r.store)
  | _, _ => True

/-- A trusted key is trusted by a call that stands, and so is what is enabled under it. -/
structure ConsentInv (r : ModuleTrustRun) : Prop where
  trusted : ∀ k, trustedIn k r.store → TrustStands k r.calls
  enabled : ∀ m k, trustedIn k r.store → enabledIn m k r.store → EnableStands m k r.calls

namespace ModuleTrustRun

variable {r : ModuleTrustRun} {now : String} {outcome : SettingsOutcome}

/-- A call that changes nothing and is not reported as done. -/
theorem step_of_refused {i : ModuleTrustInput} (h : i.apply r.store = (false, r.store)) :
    r.step i = r := by
  rw [step, h]
  rfl

/-- A call whose write is lost is reported as done all the same. -/
theorem step_of_lost {i : ModuleTrustInput} (h : i.apply r.store = (true, r.store)) :
    r.step i = { r with calls := r.calls ++ [i.call] } := by
  rw [step, h]
  rfl

theorem step_of_stored {i : ModuleTrustInput} (h : (i.apply r.store).1 = true) :
    r.step i = ⟨(i.apply r.store).2, r.calls ++ [i.call]⟩ := by
  rw [step, if_pos h]

end ModuleTrustRun

namespace ConsentInv

variable {r : ModuleTrustRun}

/-- A call that leaves both lists, and undoes nothing that may run. -/
theorem of_call (h : ConsentInv r) {c : ModuleTrustCall}
    (hrevoke : ∀ k, c = .revoke k → ¬ trustedIn k r.store)
    (hdisable : ∀ m k, c = .setEnabled m k false → ¬(trustedIn k r.store ∧ enabledIn m k r.store)) :
    ConsentInv { r with calls := r.calls ++ [c] } where
  trusted k hk := (h.trusted k hk).snoc fun hc => hrevoke k hc hk
  enabled m k hk hm := (h.enabled m k hk hm).snoc fun hc => hc.elim
    (fun hc => hrevoke k hc hk) fun hc => hdisable m k hc ⟨hk, hm⟩

theorem trust (h : ConsentInv r) {k : Bytes} {label now : String} (hk : k.length = 32)
    (hC : trustedIn k r.store ∨ ∀ m, enabledIn m k r.store → EnableStands m k r.calls) :
    ConsentInv ⟨(trustModulePublisherKey .stored now k label r.store).2,
      r.calls ++ [.trust k label]⟩ := by
  have hauths : ∀ m k', enabledIn m k' (trustModulePublisherKey .stored now k label r.store).2 ↔
      enabledIn m k' r.store := by
    intro m k'
    rw [trustModulePublisherKey, if_neg (not_not_intro hk)]
    rfl
  constructor
  · intro k' hk'
    by_cases hsame : k' = k
    · rw [hsame]
      exact Standing.of_did ⟨label, rfl⟩
    · have hbefore := ((trustedIn_trust hk).mp hk').resolve_right hsame
      exact (h.trusted k' hbefore).snoc (by simp)
  · intro m k' hk' hm
    rw [hauths] at hm
    refine Standing.snoc ?_ (by simp)
    rcases (trustedIn_trust hk).mp hk' with hbefore | rfl
    · exact h.enabled m k' hbefore hm
    · exact hC.elim (fun hbefore => h.enabled m k' hbefore hm) fun hall => hall m hm

theorem revoke (h : ConsentInv r) {k : Bytes} (hk : k.length = 32) :
    ConsentInv ⟨(revokeModulePublisherKey .stored k r.store).2, r.calls ++ [.revoke k]⟩ := by
  have hauths : ∀ m k', enabledIn m k' (revokeModulePublisherKey .stored k r.store).2 ↔
      enabledIn m k' r.store := by
    intro m k'
    rw [revokeModulePublisherKey, if_neg (not_not_intro hk)]
    rfl
  constructor
  · intro k' hk'
    obtain ⟨hbefore, hne⟩ := (trustedIn_revoke hk).mp hk'
    exact (h.trusted k' hbefore).snoc (by simpa using Ne.symm hne)
  · intro m k' hk' hm
    obtain ⟨hbefore, hne⟩ := (trustedIn_revoke hk).mp hk'
    exact (h.enabled m k' hbefore ((hauths m k').mp hm)).snoc (by simpa using Ne.symm hne)

theorem setEnabled (h : ConsentInv r) {m : String} {k : Bytes} {b : Bool} {now : String}
    (hm : m ≠ "") (hk : k.length = 32) :
    ConsentInv ⟨(setExternalModuleEnabled .stored now m k b r.store).2,
      r.calls ++ [.setEnabled m k b]⟩ := by
  have hkeys : ∀ k', trustedIn k' (setExternalModuleEnabled .stored now m k b r.store).2 ↔
      trustedIn k' r.store := by
    intro k'
    rw [setExternalModuleEnabled, if_neg (by tauto)]
    rfl
  constructor
  · intro k' hk'
    exact (h.trusted k' ((hkeys k').mp hk')).snoc (by simp)
  · intro m' k' hk' hm'
    have hafter := (enabledIn_setEnabled hm hk).mp hm'
    by_cases hsame : m' = m ∧ k' = k
    · obtain ⟨rfl, rfl⟩ := hsame
      rw [if_pos ⟨rfl, rfl⟩] at hafter
      rw [hafter]
      exact Standing.of_did rfl
    · rw [if_neg hsame] at hafter
      refine (h.enabled m' k' ((hkeys k').mp hk') hafter).snoc ?_
      simp only [reduceCtorEq, ModuleTrustCall.setEnabled.injEq, false_or]
      exact fun heq => hsame ⟨heq.1.symm, heq.2.1.symm⟩

/-- **One call keeps the invariant** where it meets the condition. -/
theorem step (h : ConsentInv r) {i : ModuleTrustInput} (hC : r.KeepsConsent i) :
    ConsentInv (r.step i) := by
  obtain ⟨call, outcome, now⟩ := i
  -- a call with bad arguments, or over an object that cannot be read, is refused
  by_cases hrefused : (ModuleTrustInput.mk call outcome now).apply r.store = (false, r.store)
  · rw [ModuleTrustRun.step_of_refused hrefused]
    exact h
  cases call with
  | trust k label =>
    have hk : k.length = 32 := by
      by_contra hk
      exact hrefused (by simp [ModuleTrustInput.apply, trustModulePublisherKey, hk])
    have happly : (ModuleTrustInput.mk (.trust k label) outcome now).apply r.store
        = trustModulePublisherKey outcome now k label r.store := rfl
    cases outcome with
    | unreadable =>
      exact absurd (by simp [happly, trustModulePublisherKey, hk, SettingsOutcome.storeList]) hrefused
    | lost =>
      rw [ModuleTrustRun.step_of_lost
        (by simp [happly, trustModulePublisherKey, hk, SettingsOutcome.storeList])]
      exact h.of_call (by simp) (by simp)
    | stored =>
      rw [ModuleTrustRun.step_of_stored
        (by simp [happly, trustModulePublisherKey, hk, SettingsOutcome.storeList])]
      exact h.trust hk hC
  | revoke k =>
    have hk : k.length = 32 := by
      by_contra hk
      exact hrefused (by simp [ModuleTrustInput.apply, revokeModulePublisherKey, hk])
    have happly : (ModuleTrustInput.mk (.revoke k) outcome now).apply r.store
        = revokeModulePublisherKey outcome k r.store := rfl
    cases outcome with
    | unreadable =>
      exact absurd (by simp [happly, revokeModulePublisherKey, hk, SettingsOutcome.storeList]) hrefused
    | lost =>
      rw [ModuleTrustRun.step_of_lost
        (by simp [happly, revokeModulePublisherKey, hk, SettingsOutcome.storeList])]
      refine h.of_call (fun k' hk' => ?_) (by simp)
      obtain rfl : k = k' := by simpa using hk'
      exact hC
    | stored =>
      rw [ModuleTrustRun.step_of_stored
        (by simp [happly, revokeModulePublisherKey, hk, SettingsOutcome.storeList])]
      exact h.revoke hk
  | setEnabled m k b =>
    have hgood : ¬(m = "" ∨ k.length ≠ 32) := fun hbad =>
      hrefused (by simp [ModuleTrustInput.apply, setExternalModuleEnabled, hbad])
    have happly : (ModuleTrustInput.mk (.setEnabled m k b) outcome now).apply r.store
        = setExternalModuleEnabled outcome now m k b r.store := rfl
    cases outcome with
    | unreadable =>
      exact absurd (by rw [happly, setExternalModuleEnabled, if_neg hgood]; rfl) hrefused
    | lost =>
      rw [ModuleTrustRun.step_of_lost (by rw [happly, setExternalModuleEnabled, if_neg hgood]; rfl)]
      refine h.of_call (by simp) fun m' k' hm' => ?_
      obtain ⟨rfl, rfl, rfl⟩ : m = m' ∧ k = k' ∧ b = false := by simpa using hm'
      exact hC
    | stored =>
      rw [ModuleTrustRun.step_of_stored
        (by rw [happly, setExternalModuleEnabled, if_neg hgood]; rfl)]
      exact h.setEnabled (by tauto) (by tauto)

end ConsentInv

theorem authorized_in {kr ar : Bool} {m : String} {k : Bytes}
    (h : externalModuleAuthorization kr ar m k s = .trustedAndEnabled) :
    trustedIn k s ∧ enabledIn m k s := by
  obtain ⟨hk, hm⟩ := authorization_iff.mp h
  rw [isTrusted_iff] at hk
  rw [isEnabled_iff] at hm
  exact ⟨isTrusted_iff.mpr ⟨hk.1, rfl, hk.2.2⟩, isEnabled_iff.mpr ⟨hm.1, rfl, hm.2.2⟩⟩

/-- The runs from empty lists whose calls each meet the condition. -/
abbrev ConsentRun : ModuleTrustRun → Prop :=
  ReachableUnder ModuleTrustRun.step ModuleTrustRun.KeepsConsent {}

theorem ConsentRun.inv {r : ModuleTrustRun} (h : ConsentRun r) : ConsentInv r := by
  refine ReachableUnder.inv h ⟨fun k hk => ?_, fun m k hk => ?_⟩ fun _ _ hinv hC => hinv.step hC
  · obtain ⟨-, -, d, hd, -⟩ := isTrusted_iff.mp hk
    cases hd
  · obtain ⟨-, -, d, hd, -⟩ := isTrusted_iff.mp hk
    cases hd

/-- **Revoking a publisher key lasts**, in every run whose calls each meet `KeepsConsent`:
a module is authorized only when, after the last revocation of its key, it was enabled (and
not disabled since) and the key was trusted; and a call that trusts a key authorizes only
what was already enabled so. -/
theorem trust_revoked_for_good {r : ModuleTrustRun} (h : ConsentRun r) (m : String) (k : Bytes)
    (kr ar : Bool) :
    (externalModuleAuthorization kr ar m k r.store = .trustedAndEnabled → Consented m k r.calls) ∧
    ∀ label outcome now, r.KeepsConsent ⟨.trust k label, outcome, now⟩ →
      externalModuleAuthorization kr ar m k (r.step ⟨.trust k label, outcome, now⟩).store
        = .trustedAndEnabled → EnableStands m k r.calls := by
  refine ⟨fun hauth => ?_, fun label outcome now hC hauth => ?_⟩
  · obtain ⟨hk, hm⟩ := authorized_in hauth
    exact ⟨h.inv.enabled m k hk hm, h.inv.trusted k hk⟩
  · obtain ⟨hk, hm⟩ := authorized_in hauth
    have hafter := (h.inv.step hC).enabled m k hk hm
    rw [ModuleTrustRun.step] at hafter
    split at hafter
    · exact (Standing.of_snoc hafter (by simp)).1
    · exact hafter

/-- Trusting a key again over enablements from before its revocation authorizes them. -/
theorem retrust_enables {r : ModuleTrustRun} {m : String} {k : Bytes} (label now : String)
    (hk : k.length = 32) (hm : enabledIn m k r.store) (hnone : ¬ EnableStands m k r.calls) :
    externalModuleAuthorization true true m k (r.step ⟨.trust k label, .stored, now⟩).store
        = .trustedAndEnabled ∧
      ¬ Consented m k (r.step ⟨.trust k label, .stored, now⟩).calls := by
  have happly : (ModuleTrustInput.mk (.trust k label) .stored now).apply r.store
      = trustModulePublisherKey .stored now k label r.store := rfl
  have hdone : ((ModuleTrustInput.mk (.trust k label) .stored now).apply r.store).1 = true := by
    simp [happly, trustModulePublisherKey, hk, SettingsOutcome.storeList]
  rw [ModuleTrustRun.step_of_stored hdone]
  refine ⟨authorization_iff.mpr ⟨(trustedIn_trust hk).mpr (Or.inr rfl), ?_⟩, fun hconsent => ?_⟩
  · rw [happly, trustModulePublisherKey, if_neg (not_not_intro hk)]
    exact hm
  · exact hnone (Standing.of_snoc hconsent.1 (by simp)).1

section Sample

/-- A publisher key of 32 bytes. -/
def samplePublisherKey : Bytes := List.replicate 32 7

/-- The key is trusted and a module is enabled under it. -/
def enabledRun : ModuleTrustRun :=
  (ModuleTrustRun.step {} ⟨.trust samplePublisherKey "", .stored, ""⟩).step
    ⟨.setEnabled "m" samplePublisherKey true, .stored, ""⟩

/-- The key is revoked with nothing enabled under it, trusted again, and the module enabled. -/
def retrustedRun : ModuleTrustRun :=
  (((ModuleTrustRun.step {} ⟨.trust samplePublisherKey "", .stored, ""⟩).step
    ⟨.revoke samplePublisherKey, .stored, ""⟩).step ⟨.trust samplePublisherKey "", .stored, ""⟩).step
    ⟨.setEnabled "m" samplePublisherKey true, .stored, ""⟩

theorem retrustedRun_eq : retrustedRun =
    ⟨⟨[⟨keyText samplePublisherKey, "", ""⟩], [⟨"m", keyText samplePublisherKey, true, ""⟩]⟩,
      [.trust samplePublisherKey "", .revoke samplePublisherKey, .trust samplePublisherKey "",
        .setEnabled "m" samplePublisherKey true]⟩ := rfl

theorem trust_revoked_for_good_enabled :
    externalModuleAuthorization true true "m" samplePublisherKey retrustedRun.store
        = .trustedAndEnabled ∧
      Consented "m" samplePublisherKey retrustedRun.calls := by
  have hrun : ConsentRun retrustedRun := by
    refine .next _ (.next _ (.next _ (.next _ .start (Or.inr fun m hm => ?_)) trivial)
      (Or.inr fun m hm => ?_)) trivial
    · obtain ⟨-, -, a, ha, -⟩ := isEnabled_iff.mp hm
      cases ha
    · obtain ⟨-, -, a, ha, -⟩ := isEnabled_iff.mp hm
      cases ha
  have hauth : externalModuleAuthorization true true "m" samplePublisherKey retrustedRun.store
      = .trustedAndEnabled := by
    rw [retrustedRun_eq, authorization_iff, isTrusted_iff, isEnabled_iff]
    exact ⟨⟨rfl, rfl, _, List.mem_singleton_self _, rfl⟩, ⟨by decide, rfl⟩, rfl,
      ⟨"m", keyText samplePublisherKey, true, ""⟩, by simp [lookupKey, ModuleAuthorizationSO.key], rfl⟩
  exact ⟨hauth, (trust_revoked_for_good hrun "m" samplePublisherKey true true).1 hauth⟩

/-- The key is revoked and trusted again: the module, enabled before, is authorized without
being enabled again. -/
theorem revoked_module_returns :
    ¬ ∀ r : ModuleTrustRun, ReachableUnder ModuleTrustRun.step (fun _ _ => True) {} r →
      ∀ m k, externalModuleAuthorization true true m k r.store = .trustedAndEnabled →
        Consented m k r.calls := by
  intro hall
  let revoked := enabledRun.step ⟨.revoke samplePublisherKey, .stored, ""⟩
  have hrevoked : revoked = ⟨⟨[], [⟨"m", keyText samplePublisherKey, true, ""⟩]⟩,
      [.trust samplePublisherKey "", .setEnabled "m" samplePublisherKey true,
        .revoke samplePublisherKey]⟩ := rfl
  have hrun : ReachableUnder ModuleTrustRun.step (fun _ _ => True) {} revoked :=
    .next _ (.next _ (.next _ .start trivial) trivial) trivial
  have hnone : ¬ EnableStands "m" samplePublisherKey revoked.calls := fun hstands =>
    (Standing.of_snoc (l := enabledRun.calls) hstands (by simp)).2 (Or.inl rfl)
  have henabled : enabledIn "m" samplePublisherKey revoked.store := by
    rw [hrevoked]
    exact isEnabled_iff.mpr ⟨⟨by decide, rfl⟩, rfl, ⟨"m", keyText samplePublisherKey, true, ""⟩,
      by simp [lookupKey, ModuleAuthorizationSO.key], rfl⟩
  have hagain := retrust_enables "" "" rfl henabled hnone
  exact hagain.2 (hall _ (.next _ hrun trivial) _ _ hagain.1)

end Sample

end GpgFrontend
