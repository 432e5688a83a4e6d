import GpgFrontend.Profile.Loader
import GpgFrontend.Profile.ProtectionSafety

/-!
# Opening a profile whose protection change was interrupted

Between the replacement of the key file and the writing of the setting, the file
carries the new protection and the setting names the old one. The loader goes by
the setting.

- **`interrupted_change_opens_iff`**: this holds exactly when the change was not to
  a PIN from something else, nor from a PIN to the keychain.
-/

namespace GpgFrontend

open AESCryptoHelper (isEncryptedBuffer)
open GFBufferFactory ProfileSecureKeyManager ProfileLoader

/-- Nothing on the machine fails, and the profile keeps its key on disk. -/
structure Answering (env : LoaderEnv) : Prop where
  notEphemeral : env.kind ≠ .ephemeral
  notPackaged : env.kind ≠ .packaged
  storeReads : ∃ store, env.store = some store ∧ store.reads = true
  salt : env.outcomes.draw.salt.isSome = true
  nonce : env.outcomes.draw.nonce.isSome = true
  fileReads : env.outcomes.fileReads = true
  fileWrites : env.outcomes.fileWrites = true
  rootReads : env.load.rootReads = true
  rotatedReads : ∀ name, env.load.rotatedReads name = true

/-- A user who types this PIN whenever asked and never discards the key. -/
def correctUser (pin : Bytes) (tries : Nat) : ProfileLoaderDelegate where
  pinAnswers := List.replicate (tries + 1) (.usePin pin)
  confirmsReset := false

/-- The key is loaded and registered as the profile's own. -/
def LoadsKey (S : Sodium) (key : RootKey) (opening : KeysOpening) : Prop :=
  ∃ session, opening = .loaded session ∧
    session.rootKeyId = calculateKeyId S [] key.bytes ∧
    (session.rootKeyId, key.bytes) ∈ session.keys

/-- The user was asked for the PIN of the key file. -/
def AskedForPin (st : LoaderState) : Prop := ∃ failures, .askAppKeyPin false failures ∈ st.calls

/-- The profile opens with its key, and asks for the PIN when that seals the file. -/
def OpensInterrupted (S : Sodium) (key : RootKey) (env : LoaderEnv)
    (user : ProfileLoaderDelegate) (rotating : Bool) (fromMode toMode : AppKeyProtection)
    (w : KeyWorld) : Prop :=
  LoadsKey S key (openKeys S env user rotating ⟨w, fromMode, []⟩).1 ∧
    (toMode = .pin → AskedForPin (openKeys S env user rotating ⟨w, fromMode, []⟩).2)

variable {S : Sodium} {key : RootKey} {env : LoaderEnv} {w : KeyWorld}

/-! ## Loading with the right secret -/

theorem registerRotatedKeys_some {outcomes : LoadOutcomes}
    (hreads : ∀ name, outcomes.rotatedReads name = true) (pin appKey : Bytes)
    (files : List (String × Bytes)) :
    ∀ keys, ∃ keys', registerRotatedKeys S outcomes pin appKey files keys = some keys' ∧
      keys ⊆ keys' := by
  induction files with
  | nil => exact fun keys => ⟨keys, rfl, fun _ he => he⟩
  | cons file rest ih =>
    intro keys
    obtain ⟨name, stored⟩ := file
    rw [registerRotatedKeys, hreads name, Bool.not_true, if_neg Bool.false_ne_true]
    cases openRotatedKey S pin appKey stored with
    | none => exact ih keys
    | some opened =>
      obtain ⟨keys', hkeys, hsub⟩ := ih (registerKeyIds S keys pin opened).1
      exact ⟨keys', hkeys, fun e he => hsub (registerKeyIds_subset _ _ _ he)⟩

theorem deriveRotatedKey_ne_nil (hS : S.Works) {appKey : Bytes} (hne : appKey ≠ [])
    (period : Int) : deriveRotatedKey S appKey period ≠ [] := by
  have hinput : rotatingKeySalt ++ decimal period ≠ [] := fun hnil => nomatch hnil
  obtain ⟨salt, hsalt, hsaltNe⟩ := hS.sha256_some hinput
  obtain ⟨digest, hdigest, hlen⟩ := hS.hmacSha256_some appKey salt
  have hkey : deriveRotatedKey S appKey period = digest := by
    have hhash : toSha256 S (rotatingKeySalt ++ decimal period) = some salt := hsalt
    have hmac : toHMACSha256 S appKey salt = some digest := by
      rw [toHMACSha256, if_neg (by simp [hne, hsaltNe]), hdigest]
    rw [deriveRotatedKey, hhash, Option.bind_some, hmac]
    rfl
  rw [hkey]
  rintro rfl
  cases hlen

theorem fetchTimeRelatedKey_some (hS : S.Works) (outcomes : LoadOutcomes) {appKey : Bytes}
    (hne : appKey ≠ []) :
    Triple (fun _ _ => True) (fetchTimeRelatedKey S outcomes appKey) w
      fun r _ => ∃ pair, r = some pair := by
  have htKey := deriveRotatedKey_ne_nil hS hne (outcomes.now.tdiv rotationPeriodSecs)
  have hid : calculateKeyId S [] (deriveRotatedKey S appKey
      (outcomes.now.tdiv rotationPeriodSecs)) ≠ [] := by
    intro hnil
    have hlen := length_calculateKeyId hS.toInverts htKey
    rw [hnil] at hlen
    cases hlen
  unfold fetchTimeRelatedKey
  dsimp only
  refine Triple.ite (fun hempty => ?_) fun _ => ?_
  · rw [Bool.or_eq_true, List.isEmpty_iff, List.isEmpty_iff] at hempty
    rcases hempty with h | h
    · exact absurd h htKey
    · exact absurd h hid
  · refine Triple.bind (R := fun _ _ => True) (Triple.read trivial) fun there w₁ _ => ?_
    refine Triple.guard ⟨_, rfl⟩ fun _ => ?_
    cases encryptLite S outcomes.rotatedDraw appKey
        (deriveRotatedKey S appKey (outcomes.now.tdiv rotationPeriodSecs)) with
    | none => exact Triple.pure ⟨_, rfl⟩
    | some eKey =>
      refine Triple.bind (R := fun _ _ => True) (Triple.step trivial trivial) fun _ w₂ _ => ?_
      exact Triple.pure ⟨_, rfl⟩

variable {pin stored : Bytes}

/-- With the secret that opens the file, and nothing failing, the key loads. -/
theorem load_of_unseal (hS : S.Works) (henv : Answering env) (hne : key.bytes ≠ []) {wrap : Bytes}
    (rotating : Bool) (hfile : w.keyFile = some stored)
    (hopen : unsealKey S pin wrap stored = some key.bytes) :
    ∃ session, (load S env.load pin wrap rotating).value w = .ok session ∧
      session.rootKeyId = calculateKeyId S [] key.bytes ∧
      (session.rootKeyId, key.bytes) ∈ session.keys := by
  have hinit : Triple (fun _ _ => True) (initRootKey S env.load pin wrap) w
      fun r _ => r = .ok (rootSession S pin key.bytes) := by
    unfold initRootKey
    refine Triple.bind (R := fun r _ => r = some stored) (Triple.read hfile) ?_
    rintro r w₁ rfl
    dsimp only
    rw [henv.rootReads, Bool.not_true, if_neg Bool.false_ne_true, hopen]
    exact Triple.pure rfl
  refine (?_ : Triple (fun _ _ => True) (load S env.load pin wrap rotating) w fun r _ =>
    ∃ session, r = .ok session ∧ session.rootKeyId = calculateKeyId S [] key.bytes ∧
      (session.rootKeyId, key.bytes) ∈ session.keys).post
  unfold load
  refine hinit.bind ?_
  rintro r w₁ rfl
  refine Triple.ite (fun _ => ?_) fun _ => ?_
  · exact Triple.pure ⟨_, rfl, rfl, registerKeyIds_mem _ _ _⟩
  · rw [rootSession_rootKey]
    refine (fetchTimeRelatedKey_some hS env.load hne).bind ?_
    rintro r w₂ ⟨⟨tKey, keyId⟩, rfl⟩
    refine Triple.bind (R := fun _ _ => True) (Triple.read trivial) fun files w₃ _ => ?_
    obtain ⟨keys, hkeys, hsub⟩ := registerRotatedKeys_some henv.rotatedReads pin key.bytes files
      (registerKeyIds S (rootSession S pin key.bytes).keys pin tKey).1
    dsimp only
    rw [hkeys]
    refine Triple.pure ⟨_, rfl, rfl, ?_⟩
    exact hsub (registerKeyIds_subset _ _ _ (registerKeyIds_mem _ _ _))

/-! ## Start-up's reconciliation -/

/-- The file can be unsealed with the secret that was handed out. -/
def Resolved (S : Sodium) (key : RootKey) (r : AppKeyWrapResult) (w : KeyWorld) : Prop :=
  r.usable = true ∧ (r.status = .storeUnavailable → r.secret = []) ∧
    ∃ stored, w.keyFile = some stored ∧ unsealKey S [] r.secret stored = some key.bytes

/-- Nothing is known of the steps, only of what holds at the end. -/
theorem replaceKeyFile_works (hS : S.Works) (henv : Answering env) (hne : key.bytes ≠ [])
    {secret : Bytes} (hsecret : secret ≠ []) :
    Triple (fun _ _ => True) (replaceKeyFile S env.outcomes [] secret key.bytes) w
      fun r w' => r = none ∧ ∃ sealed, w'.keyFile = some sealed ∧
        unsealKey S [] secret sealed = some key.bytes := by
  obtain ⟨sealed, hseal⟩ := encryptLite_some hS henv.salt henv.nonce hsecret hne
  have hsealed : sealKey S env.outcomes.draw [] secret key.bytes = some sealed := by
    cases secret with
    | nil => exact absurd rfl hsecret
    | cons b rest => exact hseal
  have hopen := unsealKey_sealKey hS.toInverts hsealed
  unfold replaceKeyFile
  rw [hsealed]
  dsimp only
  rw [if_neg (not_not_intro hopen)]
  refine Triple.bind (R := fun ok w' => ok = true ∧ w'.keyFile = some sealed) ?_ ?_
  · unfold writeKeyFile
    rw [henv.fileWrites]
    exact Triple.step trivial ⟨rfl, rfl⟩
  · rintro ok w₁ ⟨rfl, hfile⟩
    exact Triple.pure ⟨rfl, sealed, hfile, hopen⟩

/-- The entry changes, the file does not. -/
theorem keyFile_rules (account : String) (content : Option Bytes) :
    EntryRules account (fun w => w.keyFile = content) fun _ _ => True where
  freeStay _ := trivial
  entryStep _ _ := trivial
  entryFree _ h := h

/-- A plaintext file resolves under either setting. -/
theorem resolveWrapSecret_plain (hS : S.Works) (henv : Answering env) (hne : key.bytes ≠ [])
    (intentEnabled : Bool) (hfile : w.keyFile = some key.bytes) :
    Triple (fun _ _ => True)
      (resolveWrapSecret S env.outcomes env.keyPath env.store intentEnabled env.account) w
      (Resolved S key) := by
  have hplain : ∀ {detail : String} {status : AppKeyWrapStatus} {w' : KeyWorld},
      (⟨status, [], detail⟩ : AppKeyWrapResult).usable = true → w'.keyFile = some key.bytes →
      Resolved S key ⟨status, [], detail⟩ w' :=
    fun husable hfile => ⟨husable, fun _ => rfl, key.bytes, hfile, rfl⟩
  unfold resolveWrapSecret
  refine Triple.bind (R := fun r w' => r = some key.bytes ∧ w' = w) (Triple.read ⟨hfile, rfl⟩) ?_
  rintro r w₁ ⟨rfl, rfl⟩
  rw [henv.fileReads]
  dsimp only
  rw [key.raw, Bool.not_true, Bool.and_false, if_neg Bool.false_ne_true,
    if_neg Bool.false_ne_true]
  refine Triple.guard (hplain rfl hfile) fun _ => ?_
  unfold resolveUnwrapped
  obtain ⟨store, hstore, -⟩ := henv.storeReads
  rw [hstore]
  refine Triple.guard (hplain rfl hfile) fun _ => ?_
  refine ((keyFile_rules env.account (some key.bytes)).provisionWrapSecret_spec env.outcomes store
    hfile).bind ?_
  rintro r w₂ ⟨hfile₂, hsecret⟩
  cases r with
  | none => exact Triple.pure (hplain rfl hfile₂)
  | some secret =>
    refine (replaceKeyFile_works hS henv hne (hsecret secret rfl).2).bind ?_
    rintro r w₃ ⟨rfl, sealed, hsealed, hopen⟩
    exact Triple.pure ⟨rfl, fun h => (nomatch h), sealed, hsealed, hopen⟩

/-- A file the store's entry opens resolves under either setting. -/
theorem resolveWrapSecret_keychain (henv : Answering env) (intentEnabled : Bool) {secret : Bytes}
    (hfile : w.keyFile = some stored) (hentry : w.entries env.account = some secret)
    (hopen : decryptLite S secret stored = some key.bytes) :
    Triple (fun _ _ => True)
      (resolveWrapSecret S env.outcomes env.keyPath env.store intentEnabled env.account) w
      (Resolved S key) := by
  have hunseal : unsealKey S [] secret stored = some key.bytes := by
    cases secret with
    | nil => exact nomatch (decryptLite_nil stored).symm.trans hopen
    | cons b rest => exact hopen
  unfold resolveWrapSecret
  refine Triple.bind (R := fun r w' => r = some stored ∧ w' = w) (Triple.read ⟨hfile, rfl⟩) ?_
  rintro r w₁ ⟨rfl, rfl⟩
  rw [henv.fileReads]
  dsimp only
  rw [isEncryptedBuffer_of_decryptLite hopen, Bool.not_true, Bool.and_false,
    if_neg Bool.false_ne_true, if_pos rfl]
  unfold resolveWrapped
  obtain ⟨store, hstore, hreads⟩ := henv.storeReads
  rw [hstore]
  refine Triple.bind (R := fun r w' => r = some secret ∧ w' = w₁) ?_ ?_
  · unfold SystemSecretStore.readUnlocking
    rw [hreads]
    refine Triple.bind (R := fun r w' => r = some secret ∧ w' = w₁) (Triple.read ⟨hentry, rfl⟩) ?_
    rintro r w₂ ⟨rfl, rfl⟩
    exact Triple.pure ⟨rfl, rfl⟩
  rintro r w₂ ⟨rfl, rfl⟩
  dsimp only
  rw [hunseal]
  refine Triple.ite (fun _ => ?_) fun _ => ?_
  · exact Triple.pure ⟨rfl, fun h => (nomatch h), stored, hfile, hunseal⟩
  · refine Triple.bind (R := fun ok w' => ok = true ∧ w'.keyFile = some key.bytes) ?_ ?_
    · unfold writeKeyFile
      rw [henv.fileWrites]
      exact Triple.step trivial ⟨rfl, rfl⟩
    · rintro ok w₃ ⟨rfl, hfile₃⟩
      refine ((keyFile_rules env.account (some key.bytes)).remove_spec store hfile₃).bind ?_
      intro _ w₄ hfile₄
      exact Triple.pure ⟨rfl, fun _ => rfl, key.bytes, hfile₄, rfl⟩

/-- A file that a PIN opens is locked out: the store has nothing that opens it. -/
theorem resolveWrapSecret_pin (hsep : S.Separates) (henv : Answering env) (intentEnabled : Bool)
    (hfile : w.keyFile = some stored) (hentry : w.entries env.account ≠ some [])
    (hopen : decrypt S pin stored = some key.bytes) :
    Triple (fun _ _ => True)
      (resolveWrapSecret S env.outcomes env.keyPath env.store intentEnabled env.account) w
      fun r _ => r.status = .lockedOut := by
  unfold resolveWrapSecret
  refine Triple.bind (R := fun r w' => r = some stored ∧ w' = w) (Triple.read ⟨hfile, rfl⟩) ?_
  rintro r w₁ ⟨rfl, rfl⟩
  rw [henv.fileReads]
  dsimp only
  rw [isEncryptedBuffer_of_decrypt hopen, Bool.not_true, Bool.and_false,
    if_neg Bool.false_ne_true, if_pos rfl]
  unfold resolveWrapped
  obtain ⟨store, hstore, -⟩ := henv.storeReads
  rw [hstore]
  refine (readUnlocking_spec store).bind ?_
  rintro r w₂ ⟨rfl, hsecret⟩
  cases r with
  | none => exact Triple.pure rfl
  | some secret =>
    have hnone : unsealKey S [] secret stored = none := by
      cases secret with
      | nil => exact absurd (hsecret [] rfl) hentry
      | cons b rest => exact hsep hopen (b :: rest)
    dsimp only
    rw [hnone]
    exact Triple.pure rfl

/-! ## Opening -/

variable {user : ProfileLoaderDelegate} {setting : AppKeyProtection}

/-- A secret that opens the file opens the profile. -/
theorem openKeys_of_secret (hS : S.Works) (henv : Answering env) (hne : key.bytes ≠ [])
    (rotating : Bool) {st : LoaderState} {wrap : Bytes} (hthere : w.keyFile ≠ none)
    (hresolve : resolveSecret S env user (applyProfilePortabilityRule setting env.keychainAllowed)
      ⟨w, setting, []⟩ = (.secret pin wrap, st)) (hfile : st.keys.keyFile = some stored)
    (hopen : unsealKey S pin wrap stored = some key.bytes) :
    LoadsKey S key (openKeys S env user rotating ⟨w, setting, []⟩).1 ∧
      (openKeys S env user rotating ⟨w, setting, []⟩).2.calls = st.calls := by
  have hnone : w.keyFile.isNone = false := by
    cases h : w.keyFile with
    | none => exact absurd h hthere
    | some _ => rfl
  obtain ⟨session, hload, hid, hmem⟩ := load_of_unseal hS henv hne rotating hfile hopen
  have heq : openKeys S env user rotating ⟨w, setting, []⟩ = (.loaded session,
      { st with keys := (load S env.load pin wrap rotating).final st.keys }) := by
    unfold openKeys
    simp only [hnone, Bool.false_and, Bool.false_eq_true, if_false, hresolve, hload]
  rw [heq]
  exact ⟨⟨session, rfl, hid, hmem⟩, rfl⟩

theorem not_loadsKey_of_resolution (rotating : Bool) {resolution : SecretResolution}
    {st : LoaderState} (hthere : w.keyFile ≠ none)
    (hresolve : resolveSecret S env user (applyProfilePortabilityRule setting env.keychainAllowed)
      ⟨w, setting, []⟩ = (resolution, st))
    (hno : resolution = .refused ∨ resolution = .asking) :
    ¬ LoadsKey S key (openKeys S env user rotating ⟨w, setting, []⟩).1 := by
  have hnone : w.keyFile.isNone = false := by
    cases h : w.keyFile with
    | none => exact absurd h hthere
    | some _ => rfl
  rintro ⟨session, hloaded, -, -⟩
  unfold openKeys at hloaded
  simp only [hnone, Bool.false_and, Bool.false_eq_true, if_false, hresolve] at hloaded
  rcases hno with rfl | rfl
  · cases hloaded
  · cases hloaded

theorem applyProfilePortabilityRule_ne_pin (allowed : Bool) (h : setting ≠ .pin) :
    applyProfilePortabilityRule setting allowed ≠ .pin := by
  unfold applyProfilePortabilityRule
  split
  · exact fun hpin => nomatch hpin
  · exact h

theorem applyProfilePortabilityRule_pin (allowed : Bool) :
    applyProfilePortabilityRule .pin allowed = .pin := by
  unfold applyProfilePortabilityRule
  exact if_neg fun h => nomatch h.2

theorem resolveSecret_stored (henv : Answering env) {protection : AppKeyProtection}
    (hprotection : protection ≠ .pin) (st : LoaderState) :
    resolveSecret S env user protection st = resolveStored S env user protection st := by
  rw [resolveSecret, if_neg henv.notEphemeral, if_neg henv.notPackaged, if_pos hprotection]

theorem resolveSecret_pin (henv : Answering env) (st : LoaderState) :
    resolveSecret S env user .pin st = resolvePin S env user st := by
  rw [resolveSecret, if_neg henv.notEphemeral, if_neg henv.notPackaged,
    if_neg (not_not_intro rfl)]

/-- A usable result of the reconciliation hands its secret on. -/
theorem resolveStored_usable (user : ProfileLoaderDelegate) (st : LoaderState)
    {protection : AppKeyProtection} {r : AppKeyWrapResult}
    (hvalue : (resolveWrapSecret S env.outcomes env.keyPath env.store (protection = .keychain)
      env.account).value st.keys = r)
    (husable : r.usable = true) (hempty : r.status = .storeUnavailable → r.secret = []) :
    ∃ st', resolveStored S env user protection st = (.secret [] r.secret, st') ∧
      st'.keys = (resolveWrapSecret S env.outcomes env.keyPath env.store (protection = .keychain)
        env.account).final st.keys := by
  unfold resolveStored
  dsimp only
  rw [hvalue]
  cases hstatus : r.status with
  | notWrapped => exact ⟨_, rfl, rfl⟩
  | wrapped => exact ⟨_, rfl, rfl⟩
  | justEnabled => exact ⟨_, rfl, rfl⟩
  | justDisabled => exact ⟨_, rfl, rfl⟩
  | storeUnavailable =>
    rw [hempty hstatus]
    exact ⟨_, rfl, rfl⟩
  | ioFailed => simp [AppKeyWrapResult.usable, hstatus] at husable
  | lockedOut => simp [AppKeyWrapResult.usable, hstatus] at husable

/-- Reconciled at start-up, the profile opens. -/
theorem loadsKey_of_resolved (hS : S.Works) (henv : Answering env) (hne : key.bytes ≠ [])
    (rotating : Bool) (hsetting : setting ≠ .pin) (hthere : w.keyFile ≠ none)
    (hresolved : ∀ intentEnabled, Triple (fun _ _ => True)
      (resolveWrapSecret S env.outcomes env.keyPath env.store intentEnabled env.account) w
      (Resolved S key)) :
    LoadsKey S key (openKeys S env user rotating ⟨w, setting, []⟩).1 := by
  have hprotection := applyProfilePortabilityRule_ne_pin env.keychainAllowed hsetting
  obtain ⟨husable, hempty, stored, hfile, hopen⟩ := (hresolved
    (applyProfilePortabilityRule setting env.keychainAllowed = .keychain)).post
  obtain ⟨st, hresolve, hkeys⟩ :=
    resolveStored_usable user ⟨w, setting, []⟩ rfl husable hempty
  rw [← resolveSecret_stored henv hprotection] at hresolve
  rw [← hkeys] at hfile
  exact (openKeys_of_secret hS henv hne rotating hthere hresolve hfile hopen).1

/-- Locked out, and not willing to discard the key, the profile does not open. -/
theorem not_loadsKey_of_lockedOut (henv : Answering env) (rotating : Bool)
    (hsetting : setting ≠ .pin) (hthere : w.keyFile ≠ none) (huser : user.confirmsReset = false)
    (hlocked : ∀ intentEnabled, Triple (fun _ _ => True)
      (resolveWrapSecret S env.outcomes env.keyPath env.store intentEnabled env.account) w
      fun r _ => r.status = .lockedOut) :
    ¬ LoadsKey S key (openKeys S env user rotating ⟨w, setting, []⟩).1 := by
  have hprotection := applyProfilePortabilityRule_ne_pin env.keychainAllowed hsetting
  have hresolve : ∃ st, resolveSecret S env user
      (applyProfilePortabilityRule setting env.keychainAllowed) ⟨w, setting, []⟩ =
        (.refused, st) := by
    rw [resolveSecret_stored henv hprotection]
    unfold resolveStored
    dsimp only
    rw [(hlocked _).post]
    dsimp only
    rw [huser, Bool.not_false, if_pos rfl]
    exact ⟨_, rfl⟩
  obtain ⟨st, hresolve⟩ := hresolve
  exact not_loadsKey_of_resolution rotating hthere hresolve (.inl rfl)

/-! ## The prompt -/

/-- A PIN that never opens the file is asked for for ever. -/
theorem askPin_asking (env : LoaderEnv) {pin onDisk : Bytes} (hwrong : unsealKey S pin [] onDisk = none) :
    ∀ (tries failures : Nat) (st : LoaderState),
      (askPin S env onDisk (List.replicate tries (.usePin pin)) failures st).1 = .asking
  | 0, _, _ => rfl
  | tries + 1, failures, st => by
    rw [List.replicate_succ, askPin, hwrong, Option.isSome_none, if_neg Bool.false_ne_true]
    exact askPin_asking env hwrong tries (failures + 1) _

theorem askPin_secret {onDisk plain : Bytes} (hopen : unsealKey S pin [] onDisk = some plain)
    (rest : List AppKeyPinAnswer) (st : LoaderState) :
    askPin S env onDisk (.usePin pin :: rest) 0 st =
      (.secret pin [], st.call (.askAppKeyPin false 0)) := by
  rw [askPin, hopen, Option.isSome_some, if_pos rfl]

/-- With the setting at PIN, a plaintext file opens as it is. -/
theorem loadsKey_pin_plain (hS : S.Works) (henv : Answering env) (hne : key.bytes ≠ [])
    (rotating : Bool) (hfile : w.keyFile = some key.bytes) :
    LoadsKey S key (openKeys S env user rotating ⟨w, .pin, []⟩).1 := by
  have hresolve : resolveSecret S env user (applyProfilePortabilityRule .pin env.keychainAllowed)
      ⟨w, .pin, []⟩ = (.secret [] [], (LoaderState.turnProtectionOff ⟨w, .pin, []⟩).call
        (.note .pinSetButKeyPlaintext env.keyPath)) := by
    rw [applyProfilePortabilityRule_pin, resolveSecret_pin henv]
    unfold resolvePin
    dsimp only
    rw [hfile]
    dsimp only
    rw [henv.rootReads, Bool.not_true, if_neg Bool.false_ne_true, key.raw, Bool.not_false,
      if_pos rfl]
  have hthere : w.keyFile ≠ none := fun hnone => nomatch hfile.symm.trans hnone
  exact (openKeys_of_secret hS henv hne rotating hthere hresolve hfile rfl).1

/-- With the setting at PIN, a container is asked for by its PIN. -/
theorem resolveSecret_pin_container (user : ProfileLoaderDelegate) (henv : Answering env)
    (hfile : w.keyFile = some stored) (hcontainer : isEncryptedBuffer stored = true) :
    resolveSecret S env user (applyProfilePortabilityRule .pin env.keychainAllowed)
      ⟨w, .pin, []⟩ = askPin S env stored user.pinAnswers 0 ⟨w, .pin, []⟩ := by
  rw [applyProfilePortabilityRule_pin, resolveSecret_pin henv]
  unfold resolvePin
  dsimp only
  rw [hfile]
  dsimp only
  rw [henv.rootReads, Bool.not_true, if_neg Bool.false_ne_true, hcontainer, Bool.not_true,
    if_neg Bool.false_ne_true]

/-! ## The result -/

/-- The file can be opened by the PIN alone when that is what seals it. -/
theorem unsealKey_pin (hpin : pin ≠ []) (stored : Bytes) :
    unsealKey S pin [] stored = decrypt S pin stored := by
  cases pin with
  | nil => exact absurd rfl hpin
  | cons b rest => rfl

theorem opens_fromPin_iff (hS : S.Works) (hsep : S.Separates) (henv : Answering env)
    (hne : key.bytes ≠ []) (hpin : pin ≠ []) (tries : Nat) (rotating : Bool)
    {toMode : AppKeyProtection} (h : InEffect S key env.account pin toMode w) :
    OpensInterrupted S key env (correctUser pin tries) rotating .pin toMode w ↔
      toMode ≠ .keychain := by
  cases toMode with
  | none =>
    refine ⟨fun _ hmode => (nomatch hmode), fun _ => ⟨?_, fun hmode => (nomatch hmode)⟩⟩
    exact loadsKey_pin_plain hS henv hne rotating h
  | keychain =>
    -- no PIN opens what the entry does: the prompt never ends
    obtain ⟨stored, secret, hfile, -, hopen⟩ := h
    have hthere : w.keyFile ≠ none := fun hnone => nomatch hfile.symm.trans hnone
    have hwrong : unsealKey S pin [] stored = none := by
      rw [unsealKey_pin hpin]
      cases hd : decrypt S pin stored with
      | none => rfl
      | some plain => exact nomatch (hsep hd secret).symm.trans hopen
    have hasking := askPin_asking env hwrong (tries + 1) 0 ⟨w, .pin, []⟩
    have hresolve := resolveSecret_pin_container (S := S) (correctUser pin tries) henv hfile
      (isEncryptedBuffer_of_decryptLite hopen)
    refine ⟨fun hopens => absurd hopens.1 ?_, fun hmode => absurd rfl hmode⟩
    exact not_loadsKey_of_resolution rotating hthere (hresolve.trans rfl) (.inr hasking)
  | pin =>
    obtain ⟨stored, hfile, hopen⟩ := h
    have hthere : w.keyFile ≠ none := fun hnone => nomatch hfile.symm.trans hnone
    have hunseal : unsealKey S pin [] stored = some key.bytes := (unsealKey_pin hpin _).trans hopen
    have hresolve := (resolveSecret_pin_container (correctUser pin tries) henv hfile
      (isEncryptedBuffer_of_decrypt hopen)).trans (askPin_secret hunseal _ _)
    obtain ⟨hloads, hcalls⟩ :=
      openKeys_of_secret hS henv hne rotating hthere hresolve hfile hunseal
    refine ⟨fun _ hmode => (nomatch hmode), fun _ => ⟨hloads, fun _ => ⟨0, ?_⟩⟩⟩
    rw [hcalls]
    exact List.mem_singleton_self _

theorem opens_fromStored_iff (hS : S.Works) (hsep : S.Separates) (henv : Answering env)
    (hne : key.bytes ≠ []) (tries : Nat) (rotating : Bool) {fromMode toMode : AppKeyProtection}
    (hfrom : fromMode ≠ .pin) (hentry : w.entries env.account ≠ some [])
    (h : InEffect S key env.account pin toMode w) :
    OpensInterrupted S key env (correctUser pin tries) rotating fromMode toMode w ↔
      toMode ≠ .pin := by
  have hthere : w.keyFile ≠ none := by
    obtain ⟨stored, hfile, -⟩ : Openable S key env.account [pin] w :=
      h.openable List.mem_cons_self
    exact fun hnone => nomatch hfile.symm.trans hnone
  cases toMode with
  | none =>
    refine ⟨fun _ hmode => (nomatch hmode), fun _ => ⟨?_, fun hmode => (nomatch hmode)⟩⟩
    exact loadsKey_of_resolved hS henv hne rotating hfrom hthere fun intentEnabled =>
      resolveWrapSecret_plain hS henv hne intentEnabled h
  | keychain =>
    obtain ⟨stored, secret, hfile, hstored, hopen⟩ := h
    refine ⟨fun _ hmode => (nomatch hmode), fun _ => ⟨?_, fun hmode => (nomatch hmode)⟩⟩
    exact loadsKey_of_resolved hS henv hne rotating hfrom hthere fun intentEnabled =>
      resolveWrapSecret_keychain henv intentEnabled hfile hstored hopen
  | pin =>
    -- the store is asked, the user is not
    obtain ⟨stored, hfile, hopen⟩ := h
    refine ⟨fun hopens => absurd hopens.1 ?_, fun hmode => absurd rfl hmode⟩
    exact not_loadsKey_of_lockedOut henv rotating hfrom hthere rfl fun intentEnabled =>
      resolveWrapSecret_pin hsep henv intentEnabled hfile hentry hopen

/-- **Which interrupted changes open.** With the file already in its new form and
the setting still naming the old one, on a machine where nothing fails and with a
user who types the right PIN whenever asked: the profile opens with its key, and
asks for the PIN if that seals the file, exactly when a PIN is not new and the
keychain did not replace a PIN. -/
theorem interrupted_change_opens_iff (S : Sodium) (hS : S.Works) (hsep : S.Separates)
    (key : RootKey) (hne : key.bytes ≠ []) (env : LoaderEnv) (henv : Answering env)
    (pin : Bytes) (hpin : pin ≠ []) (tries : Nat) (rotating : Bool)
    (fromMode toMode : AppKeyProtection) (w : KeyWorld)
    (hentry : w.entries env.account ≠ some [])
    (h : InEffect S key env.account pin toMode w) :
    OpensInterrupted S key env (correctUser pin tries) rotating fromMode toMode w ↔
      (toMode = .pin → fromMode = .pin) ∧ (toMode = .keychain → fromMode ≠ .pin) := by
  by_cases hfrom : fromMode = .pin
  · subst hfrom
    rw [opens_fromPin_iff hS hsep henv hne hpin tries rotating h]
    exact ⟨fun hto => ⟨fun _ => rfl, fun hmode => absurd hmode hto⟩,
      fun hcond hmode => hcond.2 hmode rfl⟩
  · rw [opens_fromStored_iff hS hsep henv hne tries rotating hfrom hentry h]
    exact ⟨fun hto => ⟨fun hmode => absurd hmode hto, fun _ => hfrom⟩,
      fun hcond hmode => hfrom (hcond.1 hmode)⟩

/-! ## Two interrupted changes -/

def sampleLoaderEnv : LoaderEnv where
  kind := .installedRoot
  passphrase := []
  keychainAllowed := true
  keyDir := "secure"
  account := "app-key-wrap"
  sealedObjects := true
  store := some openStore
  outcomes := sampleOutcomes
  load := {
    location := "secure/app.key"
    rootKeySource := none
    rootDraw := sampleOutcomes.draw
    rootWrites := true
    rootReads := true
    now := 1700000000
    rotatedDraw := sampleOutcomes.draw
    rotatedWrites := true
    rotatedReads := fun _ => true }
  removesKeyFile := true
  sweeps := fun _ => true

theorem sampleLoaderEnv_answering : Answering sampleLoaderEnv where
  notEphemeral h := nomatch h
  notPackaged h := nomatch h
  storeReads := ⟨openStore, rfl, rfl⟩
  salt := rfl
  nonce := rfl
  fileReads := rfl
  fileWrites := rfl
  rootReads := rfl
  rotatedReads _ := rfl

/-- To the keychain, with the setting still at none: start-up puts the plaintext
back and goes on. -/
theorem interrupted_change_opens_iff_to_keychain :
    OpensInterrupted labelSodium sampleRootKey sampleLoaderEnv (correctUser [0x31] 0) true
      .none .keychain sampleKeychainWorld :=
  (interrupted_change_opens_iff labelSodium labelSodium_works labelSodium_separates sampleRootKey
    (fun h => nomatch h) sampleLoaderEnv sampleLoaderEnv_answering [0x31] (fun h => nomatch h) 0
    true .none .keychain sampleKeychainWorld (by decide)
    ⟨_, [5, 5], rfl, rfl, by decide⟩).mpr ⟨fun h => (nomatch h), fun _ h => nomatch h⟩

/-- A change from no protection to a PIN, dead right after the file was replaced. -/
def interruptedToPin : KeyWorld :=
  (changeProtection labelSodium sampleOutcomes ⟨true, "secure/app.key"⟩ (some openStore)
    sampleRootKey.bytes .none .pin [0x31] "app-key-wrap").upTo (some 1)
    ⟨some sampleRootKey.bytes, [], fun _ => none⟩

/-- The file is sealed by the PIN, the setting says nothing of one, and the profile
is locked out without asking for it. -/
theorem not_interrupted_change_opens :
    InEffect labelSodium sampleRootKey "app-key-wrap" [0x31] .pin interruptedToPin ∧
    ¬ OpensInterrupted labelSodium sampleRootKey sampleLoaderEnv (correctUser [0x31] 0) false
      .none .pin interruptedToPin ∧
    (openKeys labelSodium sampleLoaderEnv (correctUser [0x31] 0) false
      ⟨interruptedToPin, .none, []⟩).2.calls =
        [.confirmKeyReset .keychainSecretLost,
         .report .keyLockedOut "secure/app.key" "libsecret"] := by
  have hrefused : (openKeys labelSodium sampleLoaderEnv (correctUser [0x31] 0) false
      ⟨interruptedToPin, .none, []⟩).1 = .refused := by decide
  refine ⟨⟨_, rfl, by decide⟩, ?_, by decide⟩
  rintro ⟨⟨session, hloaded, -, -⟩, -⟩
  exact nomatch hrefused.symm.trans hloaded

end GpgFrontend
