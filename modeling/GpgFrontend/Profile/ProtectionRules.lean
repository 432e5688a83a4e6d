import GpgFrontend.Profile.Protection

/-!
# An invariant of the protection functions, step by step

`changeProtection` and `resolveWrapSecret` are walked through once, for any
invariant of the key file and the credential store.

- one `_spec` per function, up to `changeProtection_spec` and
  `resolveWrapSecret_spec`.

The order of the steps is what makes them go through: an entry is written or
removed in `Free` states only, and a file is replaced only by what has been seen
to open again.
-/

namespace GpgFrontend

open AESCryptoHelper (isEncryptedBuffer)
open ProfileSecureKeyManager

/-- The part of an argument that is about the store's entry alone. -/
structure EntryRules (account : String) (Free : KeyWorld → Prop)
    (G : KeyWorld → KeyWorld → Prop) : Prop where
  freeStay : ∀ {w : KeyWorld}, Free w → G w w
  entryStep : ∀ {w : KeyWorld} (entry : Option Bytes), Free w → G w (w.setEntry account entry)
  entryFree : ∀ {w : KeyWorld} (entry : Option Bytes), Free w → Free (w.setEntry account entry)

/-- What an argument about the two functions supplies. `pinOk` are the PINs it
counts as known. -/
structure ProtectionRules (S : Sodium) (account : String) (key : Bytes) (pinOk : Bytes → Prop)
    (Free Safe : KeyWorld → Prop) (G : KeyWorld → KeyWorld → Prop) : Prop
    extends EntryRules account Free G where
  safe : ∀ {w : KeyWorld}, Free w → Safe w
  stay : ∀ {w : KeyWorld}, Safe w → G w w
  fileStep : ∀ {w : KeyWorld} {content : Bytes}, Safe (w.setKeyFile content) →
    G w (w.setKeyFile content)
  /-- Sealed under a known PIN, or not at all, the key does without the store. -/
  sealedFree : ∀ {w : KeyWorld} {pin sealed : Bytes}, pin = [] ∨ pinOk pin →
    unsealKey S pin [] sealed = some key → Free (w.setKeyFile sealed)
  /-- Sealed under the secret the store holds, the key is safe. -/
  sealedSafe : ∀ {w : KeyWorld} {wrap sealed : Bytes}, w.entries account = some wrap →
    wrap ≠ [] → unsealKey S [] wrap sealed = some key → Safe (w.setKeyFile sealed)

/-- Reading leaves the world alone and returns the entry or nothing. -/
theorem read_spec {G : KeyWorld → KeyWorld → Prop} {account : String} {w : KeyWorld}
    (answers : Bool) :
    Triple G (SystemSecretStore.read answers account) w
      fun r w' => w' = w ∧ ∀ secret, r = some secret → w.entries account = some secret := by
  refine Triple.read ⟨rfl, fun secret hr => ?_⟩
  cases answers with
  | true => exact hr
  | false => cases hr

theorem readUnlocking_spec {G : KeyWorld → KeyWorld → Prop} {account : String} {w : KeyWorld}
    (store : SystemSecretStore) :
    Triple G (store.readUnlocking account) w
      fun r w' => w' = w ∧ ∀ secret, r = some secret → w.entries account = some secret := by
  unfold SystemSecretStore.readUnlocking
  refine (read_spec store.reads).bind ?_
  rintro first w₁ ⟨rfl, hfirst⟩
  exact Triple.ite (fun _ => read_spec store.readsAgain) fun _ => Triple.pure ⟨rfl, hfirst⟩

namespace EntryRules

variable {account : String} {Free : KeyWorld → Prop} {G : KeyWorld → KeyWorld → Prop}
  {w : KeyWorld}

theorem remove_spec (R : EntryRules account Free G)
    (store : SystemSecretStore) (h : Free w) :
    Triple G (store.remove account) w fun _ w' => Free w' := by
  unfold SystemSecretStore.remove
  cases store.removes with
  | true => exact Triple.step (R.entryStep none h) (R.entryFree none h)
  | false => exact Triple.step (R.freeStay h) h

/-- Provisioning touches the entry alone, and a secret it hands out is there. -/
theorem provisionWrapSecret_spec (R : EntryRules account Free G)
    (env : ProtectionOutcomes) (store : SystemSecretStore) (h : Free w) :
    Triple G (provisionWrapSecret env store account) w
      fun r w' => Free w' ∧
        ∀ secret, r = some secret → w'.entries account = some secret ∧ secret ≠ [] := by
  unfold provisionWrapSecret
  cases env.generated with
  | none => exact Triple.pure ⟨h, fun _ hr => nomatch hr⟩
  | some generated =>
    have hwrite : Triple G (store.write account) w fun _ w' => Free w' :=
      Triple.step (R.entryStep _ h) (R.entryFree _ h)
    refine hwrite.bind fun ok w₁ h₁ => ?_
    refine Triple.guard ⟨h₁, fun _ hr => nomatch hr⟩ fun _ => ?_
    refine (read_spec store.readsBack).bind ?_
    rintro verify w₂ ⟨rfl, hverify⟩
    refine Triple.ite (fun _ => ?_) fun hback => ?_
    · refine (R.remove_spec store h₁).bind fun _ w₃ h₃ => ?_
      exact Triple.pure ⟨h₃, fun _ hr => nomatch hr⟩
    · refine Triple.pure ⟨h₁, fun secret hr => ?_⟩
      obtain rfl := Option.some.inj hr
      refine ⟨hverify _ (not_not.mp hback), fun hnil => ?_⟩
      have hlen := generated.2
      rw [hnil] at hlen
      cases hlen

/-- `resolveWrapSecret`, with no key file: the entry is all that changes. -/
theorem resolveWrapSecret_absent {S : Sodium} (R : EntryRules account Free G)
    (env : ProtectionOutcomes) (keyPath : String) (store : Option SystemSecretStore)
    (intentEnabled : Bool) (hfile : w.keyFile = none) (h : Free w) :
    Triple G (resolveWrapSecret S env keyPath store intentEnabled account) w fun _ _ => True := by
  unfold resolveWrapSecret
  refine Triple.bind (R := fun r w' => r = none ∧ w' = w) (Triple.read ⟨hfile, rfl⟩) ?_
  rintro r w₁ ⟨rfl, rfl⟩
  refine Triple.guard trivial fun _ => ?_
  refine Triple.guard trivial fun _ => ?_
  unfold resolveUnwrapped
  cases store with
  | none => exact Triple.pure trivial
  | some st =>
    refine Triple.guard trivial fun _ => ?_
    refine (R.provisionWrapSecret_spec env st h).bind ?_
    rintro r w₂ -
    cases r with
    | none => exact Triple.pure trivial
    | some secret => exact Triple.pure trivial

end EntryRules

namespace ProtectionRules

variable {S : Sodium} {account : String} {key : Bytes} {pinOk : Bytes → Prop}
  {Free Safe : KeyWorld → Prop} {G : KeyWorld → KeyWorld → Prop} {w : KeyWorld}

/-! ## Replacing the file -/

theorem writeKeyFile_spec (R : ProtectionRules S account key pinOk Free Safe G)
    (env : ProtectionOutcomes) {content : Bytes} (h : Safe w)
    (h' : Safe (w.setKeyFile content)) :
    Triple G (writeKeyFile env content) w
      fun ok w' => (ok = true → w' = w.setKeyFile content) ∧ (ok = false → w' = w) := by
  unfold writeKeyFile
  cases env.fileWrites with
  | true => exact Triple.step (R.fileStep h') ⟨fun _ => rfl, fun hok => nomatch hok⟩
  | false => exact Triple.step (R.stay h) ⟨fun hok => (nomatch hok), fun _ => rfl⟩

/-- The file is either as it was or holds what opens again to the key. -/
theorem replaceKeyFile_spec (R : ProtectionRules S account key pinOk Free Safe G)
    (env : ProtectionOutcomes) (pin wrap : Bytes) (h : Safe w)
    (hnew : ∀ sealed, unsealKey S pin wrap sealed = some key → Safe (w.setKeyFile sealed)) :
    Triple G (replaceKeyFile S env pin wrap key) w
      fun r w' => (∀ failure, r = some failure → w' = w) ∧
        (r = none → ∃ sealed, unsealKey S pin wrap sealed = some key ∧
          w' = w.setKeyFile sealed) := by
  unfold replaceKeyFile
  cases sealKey S env.draw pin wrap key with
  | none => exact Triple.pure ⟨fun _ _ => rfl, fun hr => nomatch hr⟩
  | some sealed =>
    refine Triple.guard ⟨fun _ _ => rfl, fun hr => nomatch hr⟩ fun hback => ?_
    have hopen : unsealKey S pin wrap sealed = some key := not_not.mp hback
    refine (R.writeKeyFile_spec env h (hnew sealed hopen)).bind ?_
    rintro ok w₁ ⟨hok, hfail⟩
    cases ok with
    | true => exact Triple.pure ⟨fun _ hr => (nomatch hr), fun _ => ⟨sealed, hopen, hok rfl⟩⟩
    | false => exact Triple.pure ⟨fun _ _ => hfail rfl, fun hr => nomatch hr⟩

/-- Replacing the file by a form that does without the store. -/
theorem replaceKeyFile_free (R : ProtectionRules S account key pinOk Free Safe G)
    (env : ProtectionOutcomes) {pin : Bytes} (h : Safe w) (hpin : pin = [] ∨ pinOk pin) :
    Triple G (replaceKeyFile S env pin [] key) w
      fun r w' => (∀ failure, r = some failure → w' = w) ∧ (r = none → Free w') := by
  have hspec := R.replaceKeyFile_spec env pin [] h fun _ hopen => R.safe (R.sealedFree hpin hopen)
  refine hspec.weaken ?_
  rintro r w' ⟨hfail, hok⟩
  refine ⟨hfail, fun hr => ?_⟩
  obtain ⟨sealed, hopen, rfl⟩ := hok hr
  exact R.sealedFree hpin hopen

/-- Replacing the file by one the store's entry opens: when that fails, the file
still does without the entry. -/
theorem replaceKeyFile_keychain (R : ProtectionRules S account key pinOk Free Safe G)
    (env : ProtectionOutcomes) {secret : Bytes} (h : Free w)
    (hentry : w.entries account = some secret) (hne : secret ≠ []) :
    Triple G (replaceKeyFile S env [] secret key) w
      fun r w' => ∀ failure, r = some failure → Free w' := by
  have hspec := R.replaceKeyFile_spec env [] secret (R.safe h) fun _ hopen =>
    R.sealedSafe hentry hne hopen
  refine hspec.weaken ?_
  rintro r w' ⟨hfail, -⟩ failure hr
  rw [hfail failure hr]
  exact h

/-! ## Changing the protection -/

/-- To the keychain, from a form that does without it: the entry is there before
the file is replaced, and goes again only when the file was not. -/
theorem reseal_toKeychain (R : ProtectionRules S account key pinOk Free Safe G)
    (env : ProtectionOutcomes) (sink : AppKeySink) (store : SystemSecretStore)
    (fromMode : AppKeyProtection) (newPin : Bytes) (h : Free w) :
    Triple G (reseal S env sink (some store) key fromMode .keychain newPin account) w
      fun _ _ => True := by
  unfold reseal
  refine (R.toEntryRules.provisionWrapSecret_spec env store h).bind ?_
  rintro r w₁ ⟨h₁, hentry⟩
  cases r with
  | none => exact Triple.pure trivial
  | some secret =>
    obtain ⟨hstored, hne⟩ := hentry secret rfl
    refine (R.replaceKeyFile_keychain env h₁ hstored hne).bind ?_
    intro failure w₂ hfail
    cases failure with
    | none =>
      show Triple _ (releaseOldEntry (some store) fromMode .keychain account >>= _) _ _
      rw [releaseOldEntry, if_neg fun hmodes => hmodes.2 rfl]
      exact Triple.pure trivial
    | some failure =>
      exact (R.toEntryRules.remove_spec store (hfail failure rfl)).bind fun _ _ _ => Triple.pure trivial

/-- Away from the keychain, or between the two forms that do without it: the
file is replaced first, and by then nothing depends on the entry. -/
theorem reseal_awayFromKeychain (R : ProtectionRules S account key pinOk Free Safe G)
    (env : ProtectionOutcomes) (sink : AppKeySink) (store : Option SystemSecretStore)
    (fromMode : AppKeyProtection) {toMode : AppKeyProtection} {newPin : Bytes}
    (hto : toMode ≠ .keychain) (hpin : pinOk newPin) (h : Safe w) :
    Triple G (reseal S env sink store key fromMode toMode newPin account) w
      fun _ _ => True := by
  have hsecret : newSecret env store toMode account = pure (some []) := by
    cases store with
    | none => rfl
    | some st => exact if_neg hto
  have hrollback : rollback store toMode account = pure () := by
    cases store with
    | none => rfl
    | some st => exact if_neg hto
  have hseal : (if toMode = .pin then newPin else []) = [] ∨
      pinOk (if toMode = .pin then newPin else []) := by
    split
    · exact .inr hpin
    · exact .inl rfl
  unfold reseal
  rw [hsecret]
  refine Triple.bind (Triple.pure (Q := fun r w' => r = some [] ∧ w' = w) ⟨rfl, rfl⟩) ?_
  rintro r w₁ ⟨rfl, rfl⟩
  refine (R.replaceKeyFile_free env h hseal).bind ?_
  rintro failure w₂ ⟨-, hdone⟩
  cases failure with
  | some failure =>
    rw [hrollback]
    exact Triple.pure trivial
  | none =>
    refine Triple.bind (R := fun _ _ => True) ?_ fun _ _ _ => Triple.pure trivial
    unfold releaseOldEntry
    cases store with
    | none => exact Triple.pure trivial
    | some st =>
      refine Triple.ite (fun _ => ?_) fun _ => Triple.pure trivial
      exact (R.toEntryRules.remove_spec st (hdone rfl)).weaken fun _ _ _ => trivial

/-- `changeProtection`, from a mode that does without the store unless it is the
keychain. -/
theorem changeProtection_spec (R : ProtectionRules S account key pinOk Free Safe G)
    (env : ProtectionOutcomes) (sink : AppKeySink) (store : Option SystemSecretStore)
    (fromMode toMode : AppKeyProtection) (newPin : Bytes) (hpin : pinOk newPin) (h : Safe w)
    (hfree : fromMode ≠ .keychain → Free w) :
    Triple G (changeProtection S env sink store key fromMode toMode newPin account) w
      fun _ _ => True := by
  unfold changeProtection
  refine Triple.guard trivial fun _ => ?_
  refine Triple.guard trivial fun hsame => ?_
  refine Triple.guard trivial fun _ => ?_
  refine Triple.guard trivial fun _ => ?_
  refine Triple.guard trivial fun hstore => ?_
  by_cases hto : toMode = .keychain
  · subst hto
    have hfrom : fromMode ≠ .keychain := fun hfrom => hsame ⟨hfrom, fun hpin => nomatch hpin⟩
    cases store with
    | none => exact absurd ⟨rfl, rfl⟩ hstore
    | some st => exact R.reseal_toKeychain env sink st fromMode newPin (hfree hfrom)
  · exact R.reseal_awayFromKeychain env sink store fromMode hto hpin h

/-! ## Start-up -/

/-- A container on disk: whatever the entry opens it to goes back as plaintext,
and only then the entry. -/
theorem resolveWrapped_spec (R : ProtectionRules S account key pinOk Free Safe G)
    (env : ProtectionOutcomes) (keyPath : String) (store : Option SystemSecretStore)
    (intentEnabled : Bool) {stored : Bytes} (h : Safe w)
    (hentry : ∀ secret plain, w.entries account = some secret →
      unsealKey S [] secret stored = some plain → Free (w.setKeyFile plain)) :
    Triple G (resolveWrapped S env keyPath store intentEnabled account stored) w
      fun _ _ => True := by
  unfold resolveWrapped
  cases store with
  | none => exact Triple.pure trivial
  | some st =>
    refine (readUnlocking_spec st).bind ?_
    rintro secret w₁ ⟨rfl, hsecret⟩
    cases secret with
    | none => exact Triple.pure trivial
    | some secret =>
      dsimp only
      cases hopen : unsealKey S [] secret stored with
      | none => exact Triple.pure trivial
      | some plain =>
        refine Triple.guard trivial fun _ => ?_
        have hnew : Free (w₁.setKeyFile plain) := hentry secret plain (hsecret secret rfl) hopen
        refine (R.writeKeyFile_spec env h (R.safe hnew)).bind ?_
        rintro ok w₂ ⟨hok, -⟩
        cases ok with
        | false => exact Triple.pure trivial
        | true =>
          obtain rfl := hok rfl
          exact (R.toEntryRules.remove_spec st hnew).bind fun _ _ _ => Triple.pure trivial

theorem resolveUnwrapped_spec (R : ProtectionRules S account key pinOk Free Safe G)
    (env : ProtectionOutcomes) (keyPath : String) (store : Option SystemSecretStore)
    (h : Free w) :
    Triple G (resolveUnwrapped S env keyPath store account (some key)) w fun _ _ => True := by
  unfold resolveUnwrapped
  cases store with
  | none => exact Triple.pure trivial
  | some st =>
    refine Triple.guard trivial fun _ => ?_
    refine (R.toEntryRules.provisionWrapSecret_spec env st h).bind ?_
    rintro r w₁ ⟨h₁, hentry⟩
    cases r with
    | none => exact Triple.pure trivial
    | some secret =>
      obtain ⟨hstored, hne⟩ := hentry secret rfl
      refine (R.replaceKeyFile_keychain env h₁ hstored hne).bind ?_
      intro failure w₂ hfail
      cases failure with
      | none => exact Triple.pure trivial
      | some failure =>
        exact (R.toEntryRules.remove_spec st (hfail failure rfl)).bind fun _ _ _ => Triple.pure trivial

/-- `resolveWrapSecret`, with a key file there: a container as above, anything
else is the key and does without the store. -/
theorem resolveWrapSecret_spec (R : ProtectionRules S account key pinOk Free Safe G)
    (env : ProtectionOutcomes) (keyPath : String) (store : Option SystemSecretStore)
    (intentEnabled : Bool) {stored : Bytes} (hfile : w.keyFile = some stored) (h : Safe w)
    (hentry : isEncryptedBuffer stored = true → ∀ secret plain,
      w.entries account = some secret → unsealKey S [] secret stored = some plain →
        Free (w.setKeyFile plain))
    (hraw : ¬ isEncryptedBuffer stored = true → stored = key ∧ Free w) :
    Triple G (resolveWrapSecret S env keyPath store intentEnabled account) w fun _ _ => True := by
  unfold resolveWrapSecret
  refine Triple.bind (R := fun r w' => r = some stored ∧ w' = w)
    (Triple.read ⟨hfile, rfl⟩) ?_
  rintro r w₁ ⟨rfl, rfl⟩
  refine Triple.guard trivial fun _ => ?_
  refine Triple.ite (fun hcontainer => ?_) fun hplain => ?_
  · exact R.resolveWrapped_spec env keyPath store intentEnabled h (hentry hcontainer)
  · refine Triple.guard trivial fun _ => ?_
    obtain ⟨rfl, hfree⟩ := hraw hplain
    exact R.resolveUnwrapped_spec env keyPath store hfree

end ProtectionRules

end GpgFrontend
