import GpgFrontend.Profile.ProtectionRules

/-!
# A protection change never loses the key

- **`protection_change_crash_safe`**: in every state that `changeProtection` or
  `resolveWrapSecret` leaves behind, whatever each call does, the key is openable,
  and an entry only ever changes while the file does not depend on it.

The argument is one notion, `Independent`: a file that is the key itself or that a
PIN opens is opened by no entry, so from there the store may do anything. Entries
are written and removed in such states only.
-/

namespace GpgFrontend

open AESCryptoHelper (isEncryptedBuffer)
open GFBufferFactory
open ProfileSecureKeyManager

section Definitions

variable (S : Sodium) (key : RootKey) (account : String)

/-- The file carries the protection of `mode`, under the PIN or the entry. -/
def InEffect (pin : Bytes) (mode : AppKeyProtection) (w : KeyWorld) : Prop :=
  match mode with
  | .none => w.keyFile = some key.bytes
  | .keychain => ∃ stored secret, w.keyFile = some stored ∧ w.entries account = some secret ∧
      decryptLite S secret stored = some key.bytes
  | .pin => ∃ stored, w.keyFile = some stored ∧ decrypt S pin stored = some key.bytes

/-- The key can be got out of the file: it is plaintext, the store's entry opens
it, or one of the PINs does. -/
def Openable (pins : List Bytes) (w : KeyWorld) : Prop :=
  ∃ stored, w.keyFile = some stored ∧
    (stored = key.bytes ∨
      (∃ secret, w.entries account = some secret ∧ decryptLite S secret stored = some key.bytes) ∨
      ∃ pin ∈ pins, decrypt S pin stored = some key.bytes)

/-- The entry opens the file on disk. -/
def DependsOnEntry (w : KeyWorld) : Prop :=
  ∃ stored secret plain, w.keyFile = some stored ∧ w.entries account = some secret ∧
    decryptLite S secret stored = some plain

/-- One step removes or replaces the entry only when the file does not depend on
it, and touches no other account. -/
structure EntryKept (w w' : KeyWorld) : Prop where
  own : w'.entries account ≠ w.entries account →
    w'.keyFile = w.keyFile ∧ ¬ DependsOnEntry S account w
  others : ∀ other, other ≠ account → w'.entries other = w.entries other

/-- What crash safety asks of a run: the key is openable in every state left
behind, and entries go only when nothing depends on them. -/
def CrashSafe {α : Type} (pins : List Bytes) (m : CrashM KeyWorld α) (w : KeyWorld) : Prop :=
  (∀ w' ∈ w :: m.trace w, Openable S key account pins w') ∧
    List.IsChain (EntryKept S account) (w :: m.trace w)

/-- The key can be got out of the file without the store. -/
def Independent (pins : List Bytes) (w : KeyWorld) : Prop :=
  ∃ stored, w.keyFile = some stored ∧
    (stored = key.bytes ∨ ∃ pin ∈ pins, decrypt S pin stored = some key.bytes)

/-- The guarantee every step gives. -/
def KeySafeStep (pins : List Bytes) (w w' : KeyWorld) : Prop :=
  EntryKept S account w w' ∧ Openable S key account pins w'

end Definitions

variable {S : Sodium} {key : RootKey} {account : String} {pins : List Bytes} {w : KeyWorld}

/-! ## What a file opens with -/

theorem RootKey.decryptLite_none (key : RootKey) (secret : Bytes) :
    decryptLite S secret key.bytes = none := by
  cases h : decryptLite S secret key.bytes with
  | none => rfl
  | some plain =>
    have hcontainer := isEncryptedBuffer_of_decryptLite h
    rw [key.raw] at hcontainer
    cases hcontainer

theorem Independent.openable (h : Independent S key pins w) : Openable S key account pins w := by
  obtain ⟨stored, hfile, hraw | hpin⟩ := h
  · exact ⟨stored, hfile, .inl hraw⟩
  · exact ⟨stored, hfile, .inr (.inr hpin)⟩

/-- No entry opens a file that does without. -/
theorem Independent.not_dependsOnEntry (hS : S.Separates) (h : Independent S key pins w) :
    ¬ DependsOnEntry S account w := by
  rintro ⟨stored, secret, plain, hfile, -, hopen⟩
  obtain ⟨stored', hfile', hkey⟩ := h
  obtain rfl : stored' = stored := Option.some.inj (hfile'.symm.trans hfile)
  rcases hkey with rfl | ⟨pin, -, hpin⟩
  · rw [key.decryptLite_none] at hopen
    cases hopen
  · rw [hS hpin secret] at hopen
    cases hopen

theorem Independent.setEntry (h : Independent S key pins w) (entry : Option Bytes) :
    Independent S key pins (w.setEntry account entry) := h

variable {pin : Bytes} {mode : AppKeyProtection}

theorem InEffect.openable (h : InEffect S key account pin mode w) (hpin : pin ∈ pins) :
    Openable S key account pins w := by
  cases mode with
  | none => exact ⟨_, h, .inl rfl⟩
  | keychain =>
    obtain ⟨stored, secret, hfile, hentry, hopen⟩ := h
    exact ⟨stored, hfile, .inr (.inl ⟨secret, hentry, hopen⟩)⟩
  | pin =>
    obtain ⟨stored, hfile, hopen⟩ := h
    exact ⟨stored, hfile, .inr (.inr ⟨pin, hpin, hopen⟩)⟩

/-- Every mode but the keychain's does without the store. -/
theorem InEffect.independent (h : InEffect S key account pin mode w) (hpin : pin ∈ pins)
    (hmode : mode ≠ .keychain) : Independent S key pins w := by
  cases mode with
  | none => exact ⟨_, h, .inl rfl⟩
  | keychain => exact absurd rfl hmode
  | pin =>
    obtain ⟨stored, hfile, hopen⟩ := h
    exact ⟨stored, hfile, .inr ⟨pin, hpin, hopen⟩⟩

/-! ## Steps -/

/-- While the file does without the store, its entry may change in any way. -/
theorem Independent.setEntry_step (hS : S.Separates) (h : Independent S key pins w)
    (entry : Option Bytes) : KeySafeStep S key account pins w (w.setEntry account entry) := by
  refine ⟨⟨fun _ => ⟨rfl, h.not_dependsOnEntry hS⟩, fun other hother => ?_⟩, ?_⟩
  · exact Function.update_of_ne hother ..
  · exact (h.setEntry entry).openable

theorem stay_step (h : Openable S key account pins w) : KeySafeStep S key account pins w w :=
  ⟨⟨fun hne => absurd rfl hne, fun _ _ => rfl⟩, h⟩

/-- Replacing the file touches no entry. -/
theorem setKeyFile_step {content : Bytes}
    (h : Openable S key account pins (w.setKeyFile content)) :
    KeySafeStep S key account pins w (w.setKeyFile content) :=
  ⟨⟨fun hne => absurd rfl hne, fun _ _ => rfl⟩, h⟩

/-- A key sealed under a PIN, or not at all, does without the store. -/
theorem independent_of_unseal {sealed : Bytes} (hpin : pin = [] ∨ pin ∈ pins)
    (h : unsealKey S pin [] sealed = some key.bytes) :
    Independent S key pins (w.setKeyFile sealed) := by
  refine ⟨sealed, rfl, ?_⟩
  rcases hpin with rfl | hpin
  · exact .inl (Option.some.inj h)
  · cases pin with
    | nil => exact .inl (Option.some.inj h)
    | cons b rest => exact .inr ⟨b :: rest, hpin, h⟩

/-- A key sealed under the secret the store holds opens through the store. -/
theorem openable_of_unseal {wrap sealed : Bytes} (hentry : w.entries account = some wrap)
    (hne : wrap ≠ []) (h : unsealKey S [] wrap sealed = some key.bytes) :
    Openable S key account pins (w.setKeyFile sealed) := by
  refine ⟨sealed, rfl, .inr (.inl ⟨wrap, hentry, ?_⟩)⟩
  cases wrap with
  | nil => exact absurd rfl hne
  | cons b rest => exact h

/-- The rules of the walk, for this guarantee. -/
theorem keySafe_rules (hS : S.Separates) (pins : List Bytes) :
    ProtectionRules S account key.bytes (· ∈ pins) (Independent S key pins)
      (Openable S key account pins) (KeySafeStep S key account pins) where
  safe h := h.openable
  stay h := stay_step h
  freeStay h := stay_step h.openable
  entryStep entry h := h.setEntry_step hS entry
  entryFree entry h := h.setEntry entry
  fileStep h := setKeyFile_step h
  sealedFree hpin hopen := independent_of_unseal hpin hopen
  sealedSafe hentry hne hopen := openable_of_unseal hentry hne hopen

/-- With no key file, an entry is all there is to change. -/
theorem noKeyFile_rules (account : String) :
    EntryRules account (fun w => w.keyFile = none) fun _ w' => w'.keyFile = none where
  freeStay h := h
  entryStep _ h := h
  entryFree _ h := h

/-! ## Start-up -/

/-- What the entry makes of a container the profile's key is in: the key itself,
unless the entry is an empty secret, which opens nothing and changes nothing. -/
theorem InEffect.unseal_entry (hS : S.Separates) {stored secret plain : Bytes}
    (h : InEffect S key account pin mode w) (hfile : w.keyFile = some stored)
    (hcontainer : isEncryptedBuffer stored = true) (hentry : w.entries account = some secret)
    (hopen : unsealKey S [] secret stored = some plain) :
    plain = key.bytes ∨ (plain = stored ∧ decrypt S pin stored = some key.bytes) := by
  cases mode with
  | none =>
    obtain rfl : key.bytes = stored := Option.some.inj (h.symm.trans hfile)
    rw [key.raw] at hcontainer
    cases hcontainer
  | keychain =>
    obtain ⟨stored', secret', hfile', hentry', hkey⟩ := h
    obtain rfl : stored' = stored := Option.some.inj (hfile'.symm.trans hfile)
    obtain rfl : secret' = secret := Option.some.inj (hentry'.symm.trans hentry)
    cases secret' with
    | nil => exact nomatch (decryptLite_nil stored').symm.trans hkey
    | cons b rest => exact .inl (Option.some.inj (hopen.symm.trans hkey))
  | pin =>
    obtain ⟨stored', hfile', hkey⟩ := h
    obtain rfl : stored' = stored := Option.some.inj (hfile'.symm.trans hfile)
    cases secret with
    | nil => exact .inr ⟨(Option.some.inj hopen).symm, hkey⟩
    | cons b rest =>
      -- a container the PIN opens is opened by no stored secret
      have hnone : decryptLite S (b :: rest) stored' = none := hS hkey (b :: rest)
      exact nomatch hopen.symm.trans hnone

/-- A file that is no container, yet carries some protection, is the key itself. -/
theorem InEffect.eq_key {stored : Bytes} (h : InEffect S key account pin mode w)
    (hfile : w.keyFile = some stored) (hraw : ¬ isEncryptedBuffer stored = true) :
    stored = key.bytes := by
  cases mode with
  | none => exact Option.some.inj (hfile.symm.trans h)
  | keychain =>
    obtain ⟨stored', secret, hfile', -, hkey⟩ := h
    obtain rfl : stored' = stored := Option.some.inj (hfile'.symm.trans hfile)
    exact absurd (isEncryptedBuffer_of_decryptLite hkey) hraw
  | pin =>
    obtain ⟨stored', hfile', hkey⟩ := h
    obtain rfl : stored' = stored := Option.some.inj (hfile'.symm.trans hfile)
    exact absurd (isEncryptedBuffer_of_decrypt hkey) hraw

/-! ## The result -/

/-- What a triple with the guarantee of a safe step says of a run. -/
theorem crashSafe_of_triple {α : Type} {m : CrashM KeyWorld α} {Q : α → KeyWorld → Prop}
    (h : Triple (KeySafeStep S key account pins) m w Q) (hw : Openable S key account pins w) :
    CrashSafe S key account pins m w := by
  constructor
  · intro w' hmem
    rcases List.mem_cons.mp hmem with rfl | hmem
    · exact hw
    · exact h.forall_trace hw (fun _ _ hstep _ => hstep.2) w' hmem
  · exact h.chain.imp fun _ _ hstep => hstep.1

/-- **A protection change is crash safe.** From a key file that carries the
protection in effect, whatever the credential store, the random source and the
file system do, every state that `changeProtection` to any mode or the start-up's
`resolveWrapSecret` leaves behind has the key openable, as plaintext, through the
entry or with the old or the new PIN; and the entry is removed or replaced only
when the file on disk does not depend on it. Where there is no key file yet,
start-up leaves it so. -/
theorem protection_change_crash_safe (S : Sodium) (hS : S.Separates) (key : RootKey)
    (account : String) (oldPin : Bytes) (fromMode : AppKeyProtection) (w : KeyWorld)
    (h : InEffect S key account oldPin fromMode w) (env : ProtectionOutcomes)
    (store : Option SystemSecretStore) :
    (∀ sink toMode newPin, CrashSafe S key account [oldPin, newPin]
      (changeProtection S env sink store key.bytes fromMode toMode newPin account) w) ∧
    (∀ keyPath intentEnabled, CrashSafe S key account [oldPin]
      (resolveWrapSecret S env keyPath store intentEnabled account) w) ∧
    (∀ keyPath intentEnabled, ∀ w₀ : KeyWorld, w₀.keyFile = none →
      ∀ w' ∈ (resolveWrapSecret S env keyPath store intentEnabled account).trace w₀,
        w'.keyFile = none) := by
  refine ⟨?_, ?_, ?_⟩
  · intro sink toMode newPin
    have hold : oldPin ∈ [oldPin, newPin] := List.mem_cons_self
    have hnew : newPin ∈ [oldPin, newPin] := List.mem_cons_of_mem _ List.mem_cons_self
    have hrun := (keySafe_rules hS [oldPin, newPin]).changeProtection_spec env sink store fromMode
      toMode newPin hnew (h.openable hold) (h.independent hold)
    exact crashSafe_of_triple hrun (h.openable hold)
  · intro keyPath intentEnabled
    have hold : oldPin ∈ [oldPin] := List.mem_cons_self
    obtain ⟨stored, hfile, -⟩ : Openable S key account [oldPin] w := h.openable hold
    have hrun := (keySafe_rules hS [oldPin]).resolveWrapSecret_spec env keyPath store
      intentEnabled hfile (h.openable hold) (fun hcontainer secret plain hentry hopen => ?_)
      fun hraw => ?_
    · exact crashSafe_of_triple hrun (h.openable hold)
    · -- the entry opens the container to the key, or is empty and changes nothing
      rcases h.unseal_entry hS hfile hcontainer hentry hopen with rfl | ⟨rfl, hkey⟩
      · exact ⟨_, rfl, .inl rfl⟩
      · exact ⟨_, rfl, .inr ⟨oldPin, hold, hkey⟩⟩
    · have hkey : stored = key.bytes := h.eq_key hfile hraw
      exact ⟨hkey, stored, hfile, .inl hkey⟩
  · intro keyPath intentEnabled w₀ hw₀
    exact ((noKeyFile_rules account).resolveWrapSecret_absent env keyPath store intentEnabled
      hw₀ hw₀).forall_trace hw₀ fun _ _ hstep _ => hstep

/-! ## A concrete change -/

def sampleRootKey : RootKey := ⟨[11, 12, 13], rfl⟩

def sampleOutcomes : ProtectionOutcomes where
  generated := some ⟨List.replicate 32 9, rfl⟩
  draw := ⟨some ⟨List.replicate 16 3, rfl⟩, some ⟨List.replicate 24 4, rfl⟩⟩
  fileReads := true
  fileWrites := true

/-- A store that is open and keeps what it is given. -/
def openStore : SystemSecretStore where
  name := "libsecret"
  isAvailable := true
  reads := true
  unlocks := true
  readsAgain := true
  writes := true
  entryAfterWrite := some (List.replicate 32 9)
  readsBack := true
  removes := true

/-- A key file sealed by the store's entry. -/
def sampleKeychainWorld : KeyWorld where
  keyFile := encryptLite labelSodium sampleOutcomes.draw [5, 5] [11, 12, 13]
  rotatedKeys := []
  entries account := if account = "app-key-wrap" then some [5, 5] else none

/-- From the keychain to a PIN: the file is replaced, then the entry goes. -/
theorem protection_change_crash_safe_to_pin :
    CrashSafe labelSodium sampleRootKey "app-key-wrap" [[], [0x31]]
      (changeProtection labelSodium sampleOutcomes ⟨true, "app.key"⟩ (some openStore)
        sampleRootKey.bytes .keychain .pin [0x31] "app-key-wrap") sampleKeychainWorld ∧
    ((changeProtection labelSodium sampleOutcomes ⟨true, "app.key"⟩ (some openStore)
        sampleRootKey.bytes .keychain .pin [0x31] "app-key-wrap").trace
          sampleKeychainWorld).map (fun w => (w.keyFile, w.entries "app-key-wrap")) =
      [(encrypt labelSodium sampleOutcomes.draw [0x31] [11, 12, 13], some [5, 5]),
       (encrypt labelSodium sampleOutcomes.draw [0x31] [11, 12, 13], none)] := by
  refine ⟨?_, by decide⟩
  exact (protection_change_crash_safe labelSodium labelSodium_separates sampleRootKey
    "app-key-wrap" [] .keychain sampleKeychainWorld ⟨_, [5, 5], rfl, rfl, by decide⟩
    sampleOutcomes (some openStore)).1 _ _ _

end GpgFrontend
