import GpgFrontend.Profile.ProtectionSafety
import GpgFrontend.DataObject.Object

/-!
# Objects over many sessions

A run of a profile is a list of events: start-up's reconciliation of the key file,
a load with rotation on or off, a protection change, an object stored; the process
may die after any step of the first three.

- `ProfileRun`, `SessionEvent`, `step`, `run`.
- **`stored_objects_stay_readable`**: an object sealed by the profile's own key is
  readable in every later session that loads; one sealed by a rotated key whose
  file is on disk in every later session that loads with rotation on.
-/

namespace GpgFrontend

open AESCryptoHelper (Draw isEncryptedBuffer sodiumDecryptImpl)
open GFBufferFactory ProfileSecureKeyManager DataObjectOperator

/-- A data object on disk, with what was stored, the key that sealed it, and
whether a key file on disk opened to that key at the time. -/
structure StoredObject where
  data : Bytes
  value : Bytes
  sealedBy : Bytes
  keyOnDisk : Bool

/-- A profile across sessions. -/
structure ProfileRun where
  world : KeyWorld
  objects : Bytes → Option StoredObject
  session : Option KeySession

/-- What happens to a profile. -/
inductive SessionEvent where
  | resolve (env : ProtectionOutcomes) (keyPath : String) (store : Option SystemSecretStore)
      (intentEnabled : Bool) (account : String) (cut : Option Nat)
  | load (env : LoadOutcomes) (pin wrap : Bytes) (rotating : Bool) (cut : Option Nat)
  | changeProtection (env : ProtectionOutcomes) (sink : AppKeySink)
      (store : Option SystemSecretStore) (fromMode toMode : AppKeyProtection) (newPin : Bytes)
      (account : String) (cut : Option Nat)
  | store (draw : Draw) (ref value : Bytes) (writes : Bool)

section Definitions

variable (S : Sodium)

/-- `StoreSecDataObj` in an open session. -/
def storeObject (s : ProfileRun) (session : KeySession) (draw : Draw) (ref value : Bytes)
    (writes : Bool) : ProfileRun :=
  match sealObject S draw session ref value with
  | some data =>
    if writes then
      { s with objects := Function.update s.objects ref (some
          { data, value, sealedBy := session.activeKey,
            keyOnDisk := s.world.rotatedKeys.any fun file =>
              decryptLite S session.rootKey file.2 == some session.activeKey }) }
    else s
  | none => s

def step (s : ProfileRun) : SessionEvent → ProfileRun
  | .resolve env keyPath store intentEnabled account cut =>
    { s with
      world := (resolveWrapSecret S env keyPath store intentEnabled account).upTo cut s.world,
      session := none }
  | .load env pin wrap rotating cut =>
    { s with
      world := (load S env pin wrap rotating).upTo cut s.world,
      session := if cut.isNone then ((load S env pin wrap rotating).value s.world).toOption
        else none }
  | .changeProtection env sink store fromMode toMode newPin account cut =>
    match s.session with
    | none => s
    | some session =>
      { s with
        world := (changeProtection S env sink store session.rootKey fromMode toMode newPin
          account).upTo cut s.world,
        session := if cut.isNone then s.session else none }
  | .store draw ref value writes =>
    match s.session with
    | none => s
    | some session => storeObject S s session draw ref value writes

def run (s : ProfileRun) (events : List SessionEvent) : ProfileRun :=
  events.foldl (step S) s

/-- No two keys of a registry share an id. -/
def Consistent (keys : KeyRegistry) : Prop :=
  ∀ e ∈ keys, ∀ e' ∈ keys, e.1 = e'.1 → e.2 = e'.2

instance (keys : KeyRegistry) : Decidable (Consistent keys) :=
  inferInstanceAs (Decidable (∀ e ∈ keys, ∀ e' ∈ keys, e.1 = e'.1 → e.2 = e'.2))

/-- What a load is promised: a sealed key file comes with a secret, which is what
the loader resolves before it, and the ids of the keys registered do not collide. -/
def Admissible (s : ProfileRun) : SessionEvent → Prop
  | .load env pin wrap rotating _ =>
    (∀ stored ∈ s.world.keyFile, isEncryptedBuffer stored = true → pin ≠ [] ∨ wrap ≠ []) ∧
    ∀ session ∈ ((load S env pin wrap rotating).value s.world).toOption, Consistent session.keys
  | _ => True

def AdmissibleRun : ProfileRun → List SessionEvent → Prop
  | _, [] => True
  | s, event :: rest => Admissible S s event ∧ AdmissibleRun (step S s event) rest

/-- The file is the key, or a container of it. -/
def FileHolds (root : RootKey) (w : KeyWorld) : Prop :=
  ∃ stored, w.keyFile = some stored ∧
    (stored = root.bytes ∨ ∃ lite secret, sodiumDecryptImpl S lite secret stored = some root.bytes)

/-- No key yet, or a file that holds one. -/
def Sound (w : KeyWorld) : Prop :=
  w.keyFile = none ∨ ∃ root, FileHolds S root w

/-- What a session of the profile with this key registers. -/
structure GoodSession (root : RootKey) (w : KeyWorld) (session : KeySession) : Prop where
  consistent : Consistent session.keys
  rootKeyId_eq : session.rootKeyId = calculateKeyId S [] root.bytes
  rootKey_mem : (calculateKeyId S [] root.bytes, root.bytes) ∈ session.keys
  active : ∃ key, session.activeKeyId = calculateKeyId S [] key ∧
    (calculateKeyId S [] key, key) ∈ session.keys
  rotated : session.mode = .rotating → ∀ file ∈ w.rotatedKeys, ∀ key,
    decryptLite S root.bytes file.2 = some key → (calculateKeyId S [] key, key) ∈ session.keys

/-- What an object on disk was sealed with. -/
structure GoodObject (root : RootKey) (w : KeyWorld) (ref : Bytes) (obj : StoredObject) :
    Prop where
  sealedBy_ne : obj.sealedBy ≠ []
  opens : ∃ drvKey encrypted, deriveObjectKey S obj.sealedBy ref = some drvKey ∧
    decryptLite S drvKey encrypted = some obj.value ∧
    obj.data = calculateKeyId S [] obj.sealedBy ++ encrypted
  kept : obj.keyOnDisk = true → ∃ file ∈ w.rotatedKeys,
    decryptLite S root.bytes file.2 = some obj.sealedBy

/-- The invariant of a run: there is no key yet and nothing was stored, or the
file, the open session and every object belong to one key. -/
def Inv (s : ProfileRun) : Prop :=
  (s.world.keyFile = none ∧ s.session = none ∧ ∀ ref, s.objects ref = none) ∨
  ∃ root, FileHolds S root s.world ∧
    (∀ session, s.session = some session → GoodSession S root s.world session) ∧
    ∀ ref obj, s.objects ref = some obj → GoodObject S root s.world ref obj

end Definitions

variable {S : Sodium} {w w' : KeyWorld} {root root' : RootKey}

/-! ## The registry -/

theorem lookup_of_mem {keys : KeyRegistry} (hc : Consistent keys) {id key : Bytes}
    (h : (id, key) ∈ keys) : keys.lookup id = some key := by
  induction keys with
  | nil => cases h
  | cons e rest ih =>
    obtain ⟨id', key'⟩ := e
    by_cases hid : id = id'
    · subst hid
      have hkey : key' = key :=
        hc (id, key') List.mem_cons_self (id, key) h rfl
      rw [List.lookup_cons_self, hkey]
    · have hrest : (id, key) ∈ rest := by
        rcases List.mem_cons.mp h with heq | hrest
        · exact absurd (congrArg Prod.fst heq) hid
        · exact hrest
      have hne : (id == id') = false := by simpa using hid
      rw [List.lookup_cons, hne]
      exact ih (fun e he e' he' => hc e (List.mem_cons_of_mem _ he) e' (List.mem_cons_of_mem _ he'))
        hrest

variable {session : KeySession}

theorem keyById_of_mem (hc : Consistent session.keys) {id key : Bytes}
    (h : (id, key) ∈ session.keys) : session.keyById id = key := by
  rw [KeySession.keyById, lookup_of_mem hc h]
  rfl

/-- The loop keeps what is registered and adds every key that opens. -/
theorem registerRotatedKeys_spec {env : LoadOutcomes} {pin appKey : Bytes} :
    ∀ {files : List (String × Bytes)} {keys keys' : KeyRegistry},
      registerRotatedKeys S env pin appKey files keys = some keys' →
      keys ⊆ keys' ∧ ∀ file ∈ files, ∀ key, decryptLite S appKey file.2 = some key →
        (calculateKeyId S [] key, key) ∈ keys'
  | [], keys, keys', h => by
    obtain rfl := Option.some.inj h
    exact ⟨fun _ he => he, fun file hfile => nomatch hfile⟩
  | (name, stored) :: rest, keys, keys', h => by
    unfold registerRotatedKeys at h
    split at h
    · cases h
    · cases hopen : openRotatedKey S pin appKey stored with
      | none =>
        rw [hopen] at h
        obtain ⟨hsub, hrest⟩ := registerRotatedKeys_spec h
        refine ⟨hsub, fun file hfile key hkey => ?_⟩
        rcases List.mem_cons.mp hfile with rfl | hfile
        · rw [openRotatedKey, hkey] at hopen
          cases hopen
        · exact hrest file hfile key hkey
      | some opened =>
        rw [hopen] at h
        obtain ⟨hsub, hrest⟩ := registerRotatedKeys_spec h
        refine ⟨fun e he => hsub (registerKeyIds_subset _ _ _ he), fun file hfile key hkey => ?_⟩
        rcases List.mem_cons.mp hfile with rfl | hfile
        · rw [openRotatedKey, hkey] at hopen
          obtain rfl := Option.some.inj hopen
          exact hsub (registerKeyIds_mem _ _ _)
        · exact hrest file hfile key hkey

/-! ## The key file -/

/-- The file holds one key. -/
theorem FileHolds.unique (hone : S.OpensToOne) (h : FileHolds S root w)
    (h' : FileHolds S root' w) : root = root' := by
  obtain ⟨stored, hfile, hkey⟩ := h
  obtain ⟨stored', hfile', hkey'⟩ := h'
  obtain rfl : stored = stored' := Option.some.inj (hfile.symm.trans hfile')
  have hbytes : root.bytes = root'.bytes := by
    rcases hkey with rfl | ⟨lite, secret, hopen⟩
    · rcases hkey' with hraw | ⟨lite, secret, hopen⟩
      · exact hraw
      · -- a raw key is no container
        have hcontainer := (decryptImpl_inv hopen).1
        rw [root.raw] at hcontainer
        cases hcontainer
    · rcases hkey' with rfl | ⟨lite', secret', hopen'⟩
      · have hcontainer := (decryptImpl_inv hopen).1
        rw [root'.raw] at hcontainer
        cases hcontainer
      · exact hone hopen hopen'
  cases root
  cases root'
  congr

variable {pin wrap : Bytes}

/-- What unsealing with any secret makes of the file: the key, or, with no secret
at all, the file as it is. -/
theorem FileHolds.unseal (hone : S.OpensToOne) {stored plain : Bytes} (h : FileHolds S root w)
    (hfile : w.keyFile = some stored) (hopen : unsealKey S pin wrap stored = some plain) :
    plain = root.bytes ∨ (plain = stored ∧ pin = [] ∧ wrap = [] ∧
      isEncryptedBuffer stored = true) := by
  have hcontainer : ∀ {lite : Bool} {secret : Bytes},
      sodiumDecryptImpl S lite secret stored = some plain → plain = root.bytes := by
    intro lite secret hplain
    obtain ⟨stored', hfile', hkey⟩ := h
    obtain rfl : stored' = stored := Option.some.inj (hfile'.symm.trans hfile)
    rcases hkey with rfl | ⟨lite', secret', hkey⟩
    · have hraw := (decryptImpl_inv hplain).1
      rw [root.raw] at hraw
      cases hraw
    · exact hone hplain hkey
  cases wrap with
  | cons b rest => exact .inl (hcontainer (decryptLite_inv hopen))
  | nil =>
    cases pin with
    | cons b rest => exact .inl (hcontainer (decrypt_inv hopen))
    | nil =>
      obtain rfl : stored = plain := Option.some.inj hopen
      obtain ⟨stored', hfile', hkey⟩ := h
      obtain rfl : stored' = stored := Option.some.inj (hfile'.symm.trans hfile)
      rcases hkey with rfl | ⟨lite, secret, hkey⟩
      · exact .inl rfl
      · exact .inr ⟨rfl, rfl, rfl, (decryptImpl_inv hkey).1⟩

theorem fileHolds_setKeyFile_of_unseal {sealed : Bytes}
    (h : unsealKey S pin wrap sealed = some root.bytes) :
    FileHolds S root (w.setKeyFile sealed) := by
  refine ⟨sealed, rfl, ?_⟩
  cases wrap with
  | cons b rest => exact .inr ⟨true, b :: rest, decryptLite_inv h⟩
  | nil =>
    cases pin with
    | cons b rest => exact .inr ⟨false, b :: rest, decrypt_inv h⟩
    | nil => exact .inl (Option.some.inj h)

/-! ## Protection changes keep the key -/

/-- What a step of a protection change keeps: the key in the file, and the other
key files. -/
def KeepsKey (S : Sodium) (root : RootKey) (w w' : KeyWorld) : Prop :=
  FileHolds S root w' ∧ w'.rotatedKeys = w.rotatedKeys

theorem keepsKey_rules (S : Sodium) (root : RootKey) (account : String) :
    ProtectionRules S account root.bytes (fun _ => True) (FileHolds S root) (FileHolds S root)
      (KeepsKey S root) where
  safe h := h
  stay h := ⟨h, rfl⟩
  freeStay h := ⟨h, rfl⟩
  entryStep _ h := ⟨h, rfl⟩
  entryFree _ h := h
  fileStep h := ⟨h, rfl⟩
  sealedFree _ hopen := fileHolds_setKeyFile_of_unseal hopen
  sealedSafe _ _ hopen := fileHolds_setKeyFile_of_unseal hopen

theorem resolveWrapSecret_keepsKey (hone : S.OpensToOne) (h : FileHolds S root w)
    (env : ProtectionOutcomes) (keyPath : String) (store : Option SystemSecretStore)
    (intentEnabled : Bool) (account : String) :
    Triple (KeepsKey S root) (resolveWrapSecret S env keyPath store intentEnabled account) w
      fun _ _ => True := by
  obtain ⟨stored, hfile, hkey⟩ := id h
  refine (keepsKey_rules S root account).resolveWrapSecret_spec env keyPath store intentEnabled
    hfile h ?_ ?_
  · intro _ secret plain _ hopen
    rcases h.unseal hone hfile hopen with rfl | ⟨rfl, -, -, -⟩
    · exact ⟨_, rfl, .inl rfl⟩
    · exact ⟨_, rfl, hkey⟩
  · intro hraw
    rcases hkey with rfl | ⟨lite, secret, hopen⟩
    · exact ⟨rfl, h⟩
    · exact absurd (decryptImpl_inv hopen).1 hraw

/-! ## Loading -/

/-- What a step of a load keeps. -/
structure LoadStep (S : Sodium) (w w' : KeyWorld) : Prop where
  holds : ∀ root, FileHolds S root w → FileHolds S root w'
  rotated : w.rotatedKeys ⊆ w'.rotatedKeys
  sound : Sound S w'

theorem LoadStep.refl (h : Sound S w) : LoadStep S w w := ⟨fun _ h => h, fun _ he => he, h⟩

theorem LoadStep.trans {a b c : KeyWorld} (hab : LoadStep S a b) (hbc : LoadStep S b c) :
    LoadStep S a c :=
  ⟨fun root h => hbc.holds root (hab.holds root h), fun _ he => hbc.rotated (hab.rotated he),
    hbc.sound⟩

theorem FileHolds.ne_none (h : FileHolds S root w) : w.keyFile ≠ none := by
  obtain ⟨stored, hfile, -⟩ := h
  rw [hfile]
  exact fun hnone => nomatch hnone

theorem newRootKey_spec (hS : S.Inverts) (env : LoadOutcomes) (pin wrap : Bytes)
    (hfile : w.keyFile = none) :
    Triple (LoadStep S) (newRootKey S env pin wrap) w
      fun r w' => Sound S w' ∧ (r.1.status = .ok → r.2 ≠ [] →
        ∃ root : RootKey, root.bytes = r.2 ∧ FileHolds S root w') := by
  unfold newRootKey
  cases env.rootKeySource with
  | none => exact Triple.pure ⟨.inl hfile, fun _ hne => absurd rfl hne⟩
  | some root =>
    dsimp only
    cases hseal : sealKey S env.rootDraw pin wrap root.bytes with
    | none => exact Triple.pure ⟨.inl hfile, fun hok => nomatch hok⟩
    | some sealed =>
      have hholds : FileHolds S root (w.setKeyFile sealed) :=
        fileHolds_setKeyFile_of_unseal (unsealKey_sealKey hS hseal)
      refine Triple.bind (R := fun ok w' => Sound S w' ∧ (ok = true → FileHolds S root w')) ?_ ?_
      · cases env.rootWrites with
        | true =>
          have hsound : Sound S (w.setKeyFile sealed) := .inr ⟨root, hholds⟩
          exact Triple.step ⟨fun _ h => absurd hfile h.ne_none, fun _ he => he, hsound⟩
            ⟨hsound, fun _ => hholds⟩
        | false =>
          exact Triple.step (LoadStep.refl (.inl hfile)) ⟨.inl hfile, fun hok => nomatch hok⟩
      · rintro ok w₁ ⟨hsound, h₁⟩
        cases ok with
        | true => exact Triple.pure ⟨hsound, fun _ _ => ⟨root, rfl, h₁ rfl⟩⟩
        | false => exact Triple.pure ⟨hsound, fun hok => nomatch hok⟩

/-- A successful start of a load has the profile's key and nothing else. -/
theorem initRootKey_spec (hS : S.Inverts) (hone : S.OpensToOne) (env : LoadOutcomes)
    (hsound : Sound S w)
    (hsecret : ∀ stored ∈ w.keyFile, isEncryptedBuffer stored = true → pin ≠ [] ∨ wrap ≠ []) :
    Triple (LoadStep S) (initRootKey S env pin wrap) w
      fun r w' => Sound S w' ∧ ∀ session, r = .ok session →
        ∃ root : RootKey, FileHolds S root w' ∧ session = rootSession S pin root.bytes := by
  unfold initRootKey
  refine Triple.bind (R := fun r w' => r = w.keyFile ∧ w' = w) (Triple.read ⟨rfl, rfl⟩) ?_
  rintro r w₁ ⟨rfl, rfl⟩
  cases hfile : w₁.keyFile with
  | none =>
    refine (newRootKey_spec hS env pin wrap hfile).bind ?_
    rintro ⟨result, rootKey⟩ w₂ ⟨hsound₂, h₂⟩
    refine Triple.pure ⟨hsound₂, fun session hr => ?_⟩
    split at hr
    · cases hr
    · rename_i hne
      split at hr
      · cases hr
      · rename_i hok
        obtain ⟨root, rfl, hholds⟩ := h₂ (not_not.mp hok) (by simpa using hne)
        exact ⟨root, hholds, (Except.ok.inj hr).symm⟩
  | some stored =>
    refine Triple.guard ⟨hsound, fun _ hr => nomatch hr⟩ fun _ => ?_
    refine Triple.pure ⟨hsound, fun session hr => ?_⟩
    cases hopen : unsealKey S pin wrap stored with
    | none =>
      rw [hopen] at hr
      cases hr
    | some rootKey =>
      rw [hopen] at hr
      obtain ⟨root, hholds⟩ : ∃ root, FileHolds S root w₁ := by
        rcases hsound with hnone | hholds
        · exact nomatch hfile.symm.trans hnone
        · exact hholds
      rcases hholds.unseal hone hfile hopen with rfl | ⟨-, hpin, hwrap, hcontainer⟩
      · exact ⟨root, hholds, (Except.ok.inj hr).symm⟩
      · -- a container is never loaded without a secret
        rcases hsecret stored hfile hcontainer with h | h
        · exact absurd hpin h
        · exact absurd hwrap h

theorem fetchTimeRelatedKey_spec (env : LoadOutcomes) (appKey : Bytes) (hsound : Sound S w) :
    Triple (LoadStep S) (fetchTimeRelatedKey S env appKey) w
      fun r w' => w'.keyFile = w.keyFile ∧
        ∀ key keyId, r = some (key, keyId) → keyId = calculateKeyId S [] key := by
  unfold fetchTimeRelatedKey
  dsimp only
  refine Triple.guard ⟨rfl, fun _ _ hr => nomatch hr⟩ fun _ => ?_
  have hpair : ∀ key keyId,
      some (deriveRotatedKey S appKey (env.now.tdiv rotationPeriodSecs),
        calculateKeyId S [] (deriveRotatedKey S appKey (env.now.tdiv rotationPeriodSecs))) =
        some (key, keyId) → keyId = calculateKeyId S [] key := by
    intro key keyId hr
    obtain ⟨rfl, rfl⟩ := Prod.mk.inj (Option.some.inj hr)
    rfl
  refine Triple.bind (R := fun _ w' => w' = w) (Triple.read rfl) ?_
  rintro there w₁ rfl
  refine Triple.guard ⟨rfl, hpair⟩ fun _ => ?_
  cases encryptLite S env.rotatedDraw appKey
      (deriveRotatedKey S appKey (env.now.tdiv rotationPeriodSecs)) with
  | none => exact Triple.pure ⟨rfl, hpair⟩
  | some eKey =>
    refine Triple.bind (R := fun _ w' => w'.keyFile = w₁.keyFile) ?_ ?_
    · cases env.rotatedWrites with
      | true =>
        exact Triple.step ⟨fun _ h => h, fun _ he => List.mem_append_left _ he, hsound⟩ rfl
      | false => exact Triple.step (LoadStep.refl hsound) rfl
    · intro _ w₂ h₂
      exact Triple.pure ⟨h₂, hpair⟩

theorem load_spec (hS : S.Inverts) (hone : S.OpensToOne) (env : LoadOutcomes) (rotating : Bool)
    (hsound : Sound S w)
    (hsecret : ∀ stored ∈ w.keyFile, isEncryptedBuffer stored = true → pin ≠ [] ∨ wrap ≠ []) :
    Triple (LoadStep S) (load S env pin wrap rotating) w
      fun r w' => ∀ session, r = .ok session → Consistent session.keys →
        ∃ root, FileHolds S root w' ∧ GoodSession S root w' session := by
  unfold load
  refine (initRootKey_spec hS hone env hsound hsecret).bind ?_
  rintro r w₁ ⟨hsound₁, hroot⟩
  cases r with
  | error result => exact Triple.pure fun _ hr => nomatch hr
  | ok session =>
    obtain ⟨root, hholds, rfl⟩ := hroot session rfl
    refine Triple.ite (fun _ => Triple.pure fun session hr hc => ?_) fun _ => ?_
    · obtain rfl := Except.ok.inj hr
      refine ⟨root, hholds, ⟨hc, rfl, registerKeyIds_mem _ _ _, ?_, fun hmode => nomatch hmode⟩⟩
      exact ⟨root.bytes, rfl, registerKeyIds_mem _ _ _⟩
    · rw [rootSession_rootKey]
      refine (fetchTimeRelatedKey_spec env root.bytes hsound₁).bind ?_
      rintro fetched w₂ ⟨hfile, hid⟩
      cases fetched with
      | none => exact Triple.pure fun _ hr => nomatch hr
      | some pair =>
        obtain ⟨tKey, keyId⟩ := pair
        obtain rfl := hid tKey keyId rfl
        refine Triple.bind (R := fun files w' => files = w₂.rotatedKeys ∧ w' = w₂)
          (Triple.read ⟨rfl, rfl⟩) ?_
        rintro files w₃ ⟨rfl, rfl⟩
        refine Triple.pure fun session hr hc => ?_
        have hholds₃ : FileHolds S root w₃ := by
          obtain ⟨stored, hstored, hkey⟩ := hholds
          exact ⟨stored, hfile.trans hstored, hkey⟩
        split at hr
        · cases hr
        · rename_i keys hkeys
          obtain rfl := Except.ok.inj hr
          obtain ⟨hsub, hfiles⟩ := registerRotatedKeys_spec hkeys
          refine ⟨root, hholds₃, ⟨hc, rfl, ?_, ?_, fun _ => hfiles⟩⟩
          · exact hsub (registerKeyIds_subset _ _ _ (registerKeyIds_mem _ _ _))
          · exact ⟨tKey, rfl, hsub (registerKeyIds_mem _ _ _)⟩

/-! ## The run -/

theorem GoodObject.mono {ref : Bytes} {obj : StoredObject} (h : GoodObject S root w ref obj)
    (hsub : w.rotatedKeys ⊆ w'.rotatedKeys) : GoodObject S root w' ref obj := by
  refine ⟨h.sealedBy_ne, h.opens, fun hkept => ?_⟩
  obtain ⟨file, hfile, hopen⟩ := h.kept hkept
  exact ⟨file, hsub hfile, hopen⟩

theorem GoodSession.rootKey_eq (h : GoodSession S root w session) :
    session.rootKey = root.bytes := by
  rw [KeySession.rootKey, h.rootKeyId_eq]
  exact keyById_of_mem h.consistent h.rootKey_mem

theorem GoodSession.activeKeyId_eq (h : GoodSession S root w session) :
    session.activeKeyId = calculateKeyId S [] session.activeKey := by
  obtain ⟨key, hid, hmem⟩ := h.active
  rw [KeySession.activeKey, hid, keyById_of_mem h.consistent hmem]

variable {s : ProfileRun}

/-- A protection change, finished or not, leaves the profile's key in the file. -/
theorem Inv.keepsKey {session : Option KeySession} (hfile : FileHolds S root w')
    (hrotated : w'.rotatedKeys = s.world.rotatedKeys)
    (hsession : ∀ sess, session = some sess → GoodSession S root s.world sess)
    (hobjs : ∀ ref obj, s.objects ref = some obj → GoodObject S root s.world ref obj) :
    Inv S { s with world := w', session := session } := by
  refine .inr ⟨root, hfile, fun sess hsess => ?_, fun ref obj hobj => ?_⟩
  · have h := hsession sess hsess
    exact ⟨h.consistent, h.rootKeyId_eq, h.rootKey_mem, h.active, fun hmode file hmem =>
      h.rotated hmode file (hrotated ▸ hmem)⟩
  · exact (hobjs ref obj hobj).mono fun _ he => hrotated.symm ▸ he

theorem inv_resolve (hone : S.OpensToOne) (h : Inv S s) (env : ProtectionOutcomes)
    (keyPath : String) (store : Option SystemSecretStore) (intentEnabled : Bool) (account : String)
    (cut : Option Nat) :
    Inv S (step S s (.resolve env keyPath store intentEnabled account cut)) := by
  rcases h with ⟨hnone, -, hobjs⟩ | ⟨root, hfile, -, hobjs⟩
  · have hrun := (noKeyFile_rules account).resolveWrapSecret_absent (S := S) env keyPath store
      intentEnabled hnone hnone
    exact .inl ⟨hrun.upTo cut hnone fun _ _ hstep _ => hstep, rfl, hobjs⟩
  · have hrun := resolveWrapSecret_keepsKey hone hfile env keyPath store intentEnabled account
    have hkept := hrun.upTo (I := KeepsKey S root s.world) cut ⟨hfile, rfl⟩
      fun _ _ hstep hb => ⟨hstep.1, hstep.2.trans hb.2⟩
    exact Inv.keepsKey hkept.1 hkept.2 (fun _ hsess => nomatch hsess) hobjs

theorem inv_changeProtection (h : Inv S s) (env : ProtectionOutcomes) (sink : AppKeySink)
    (store : Option SystemSecretStore) (fromMode toMode : AppKeyProtection) (newPin : Bytes)
    (account : String) (cut : Option Nat) :
    Inv S (step S s (.changeProtection env sink store fromMode toMode newPin account cut)) := by
  unfold step
  cases hsession : s.session with
  | none => exact h
  | some session =>
    rcases h with ⟨-, hnone, -⟩ | ⟨root, hfile, hgood, hobjs⟩
    · exact nomatch hsession.symm.trans hnone
    · have hkey := (hgood session hsession).rootKey_eq
      have hrun := (keepsKey_rules S root account).changeProtection_spec env sink store fromMode
        toMode newPin trivial hfile fun _ => hfile
      have hkept := hrun.upTo (I := KeepsKey S root s.world) cut ⟨hfile, rfl⟩
        fun _ _ hstep hb => ⟨hstep.1, hstep.2.trans hb.2⟩
      dsimp only
      rw [hkey]
      refine Inv.keepsKey hkept.1 hkept.2 (fun sess hsess => hgood sess ?_) hobjs
      split at hsess
      · rw [hsession]
        exact hsess
      · cases hsess

theorem Inv.sound (h : Inv S s) : Sound S s.world := by
  rcases h with ⟨hnone, -, -⟩ | ⟨root, hfile, -, -⟩
  · exact .inl hnone
  · exact .inr ⟨root, hfile⟩

theorem inv_load (hS : S.Inverts) (hone : S.OpensToOne) (h : Inv S s) (env : LoadOutcomes)
    (pin wrap : Bytes) (rotating : Bool) (cut : Option Nat)
    (hadm : Admissible S s (.load env pin wrap rotating cut)) :
    Inv S (step S s (.load env pin wrap rotating cut)) := by
  have hrun := load_spec hS hone env rotating h.sound hadm.1
  have hstep : LoadStep S s.world ((load S env pin wrap rotating).upTo cut s.world) :=
    hrun.upTo (I := LoadStep S s.world) cut (LoadStep.refl h.sound)
      fun _ _ hab ha => ha.trans hab
  -- an open session belongs to the key in the file it was loaded from
  have hsession : ∀ session, (step S s (.load env pin wrap rotating cut)).session = some session →
      ∃ root, FileHolds S root ((load S env pin wrap rotating).upTo cut s.world) ∧
        GoodSession S root ((load S env pin wrap rotating).upTo cut s.world) session := by
    intro session hsess
    cases cut with
    | some n => cases hsess
    | none =>
      have hsess : ((load S env pin wrap rotating).value s.world).toOption = some session := hsess
      have hvalue : (load S env pin wrap rotating).value s.world = .ok session := by
        cases hv : (load S env pin wrap rotating).value s.world with
        | error result =>
          rw [hv] at hsess
          cases hsess
        | ok session' =>
          rw [hv] at hsess
          rw [Option.some.inj hsess]
      exact hrun.post session hvalue (hadm.2 session hsess)
  rcases h with ⟨-, -, hobjs⟩ | ⟨root, hfile, -, hobjs⟩
  · -- nothing was stored yet, so the first key of the profile is as good as any
    cases hsess : (step S s (.load env pin wrap rotating cut)).session with
    | some session =>
      obtain ⟨root, hfile, hgood⟩ := hsession session hsess
      refine .inr ⟨root, hfile, fun session' hsess' => ?_, fun ref obj hobj => ?_⟩
      · obtain rfl : session = session' := Option.some.inj (hsess.symm.trans hsess')
        exact hgood
      · exact nomatch (hobjs ref).symm.trans hobj
    | none =>
      rcases hstep.sound with hnone | ⟨root, hfile⟩
      · exact .inl ⟨hnone, hsess, hobjs⟩
      · refine .inr ⟨root, hfile, fun session' hsess' => ?_, fun ref obj hobj => ?_⟩
        · exact nomatch hsess.symm.trans hsess'
        · exact nomatch (hobjs ref).symm.trans hobj
  · have hfile' := hstep.holds root hfile
    refine .inr ⟨root, hfile', fun session hsess => ?_, fun ref obj hobj => ?_⟩
    · obtain ⟨root', hfile'', hgood⟩ := hsession session hsess
      rw [hfile'.unique hone hfile'']
      exact hgood
    · exact (hobjs ref obj hobj).mono hstep.rotated

theorem inv_store (hS : S.Inverts) (h : Inv S s) (draw : Draw) (ref value : Bytes) (writes : Bool) :
    Inv S (step S s (.store draw ref value writes)) := by
  unfold step
  cases hsession : s.session with
  | none => exact h
  | some session =>
    rcases h with ⟨-, hnone, -⟩ | ⟨root, hfile, hgood, hobjs⟩
    · exact nomatch hsession.symm.trans hnone
    · dsimp only [storeObject]
      cases hseal : sealObject S draw session ref value with
      | none => exact .inr ⟨root, hfile, hgood, hobjs⟩
      | some data =>
        dsimp only
        split
        · refine .inr ⟨root, hfile, hgood, fun ref' obj hobj => ?_⟩
          dsimp only at hobj
          by_cases href : ref' = ref
          · subst href
            rw [Function.update_self] at hobj
            obtain rfl := Option.some.inj hobj
            have hsess := hgood session hsession
            obtain ⟨drvKey, encrypted, hdrv, hopen, hdata⟩ := sealObject_inv hS hseal
            refine ⟨deriveObjectKey_ne_nil hdrv, ⟨drvKey, encrypted, hdrv, hopen, ?_⟩,
              fun hkept => ?_⟩
            · rw [hdata, hsess.activeKeyId_eq]
            · obtain ⟨file, hmem, hkey⟩ := List.any_eq_true.mp hkept
              refine ⟨file, hmem, ?_⟩
              rw [← hsess.rootKey_eq]
              exact eq_of_beq hkey
          · rw [Function.update_of_ne href] at hobj
            exact hobjs ref' obj hobj
        · exact .inr ⟨root, hfile, hgood, hobjs⟩

theorem inv_step (hS : S.Inverts) (hone : S.OpensToOne) (h : Inv S s) (event : SessionEvent)
    (hadm : Admissible S s event) : Inv S (step S s event) := by
  cases event with
  | resolve env keyPath store intentEnabled account cut =>
    exact inv_resolve hone h env keyPath store intentEnabled account cut
  | load env pin wrap rotating cut => exact inv_load hS hone h env pin wrap rotating cut hadm
  | changeProtection env sink store fromMode toMode newPin account cut =>
    exact inv_changeProtection h env sink store fromMode toMode newPin account cut
  | store draw ref value writes => exact inv_store hS h draw ref value writes

theorem inv_run (hS : S.Inverts) (hone : S.OpensToOne) (h : Inv S s) {events : List SessionEvent}
    (hadm : AdmissibleRun S s events) : Inv S (run S s events) := by
  induction events generalizing s with
  | nil => exact h
  | cons event rest ih =>
    obtain ⟨hevent, hrest⟩ := hadm
    exact ih (inv_step hS hone h event hevent) hrest

/-- A profile before its first session, whatever else lies in its secure area or
in the credential store. -/
def freshProfile (rotatedKeys : List (String × Bytes)) (entries : String → Option Bytes) :
    ProfileRun where
  world := ⟨none, rotatedKeys, entries⟩
  objects := fun _ => none
  session := none

/-- **Stored objects stay readable.** Over every run from a fresh profile, with any
protection changes, clocks, interruptions and failed writes: an object on disk
that the profile's own key sealed is read in every open session, and one that a
rotated key sealed whose file was on disk in every session open with rotation. -/
theorem stored_objects_stay_readable (S : Sodium) (hS : S.Inverts) (hone : S.OpensToOne)
    (rotatedKeys : List (String × Bytes)) (entries : String → Option Bytes)
    (events : List SessionEvent)
    (hadm : AdmissibleRun S (freshProfile rotatedKeys entries) events)
    (ref : Bytes) (obj : StoredObject) (session : KeySession)
    (hobj : (run S (freshProfile rotatedKeys entries) events).objects ref = some obj)
    (hsession : (run S (freshProfile rotatedKeys entries) events).session = some session)
    (hkey : obj.sealedBy = session.rootKey ∨
      (session.mode = .rotating ∧ obj.keyOnDisk = true)) :
    readDecrObject S session ref obj.data = some obj.value := by
  have hinv : Inv S (run S (freshProfile rotatedKeys entries) events) :=
    inv_run hS hone (.inl ⟨rfl, rfl, fun _ => rfl⟩) hadm
  rcases hinv with ⟨-, hnone, -⟩ | ⟨root, -, hgood, hobjs⟩
  · exact nomatch hsession.symm.trans hnone
  · have hsess := hgood session hsession
    have hgoodObj := hobjs ref obj hobj
    -- either way the sealing key is registered under its stable id
    have hmem : (calculateKeyId S [] obj.sealedBy, obj.sealedBy) ∈ session.keys := by
      rcases hkey with hroot | ⟨hmode, hkept⟩
      · rw [hroot, hsess.rootKey_eq]
        exact hsess.rootKey_mem
      · obtain ⟨file, hfile, hopen⟩ := hgoodObj.kept hkept
        exact hsess.rotated hmode file hfile _ hopen
    obtain ⟨drvKey, encrypted, hdrv, hopen, hdata⟩ := hgoodObj.opens
    rw [hdata]
    exact readDecrObject_of_key (length_calculateKeyId hS hgoodObj.sealedBy_ne)
      (keyById_of_mem hsess.consistent hmem) hgoodObj.sealedBy_ne hdrv hopen

/-! ## A concrete profile -/

def sampleLoad : LoadOutcomes where
  location := "secure/app.key"
  rootKeySource := some sampleRootKey
  rootDraw := sampleOutcomes.draw
  rootWrites := true
  rootReads := true
  now := 1700000000
  rotatedDraw := sampleOutcomes.draw
  rotatedWrites := true
  rotatedReads := fun _ => true

/-- Rotation on, an object stored under the period's key, and a later session with
rotation on or off. -/
def rotationEvents (later : Bool) : List SessionEvent :=
  [.load sampleLoad [] [] true none,
   .store sampleOutcomes.draw [21, 22] [31, 32] true,
   .load { sampleLoad with now := 1800000000 } [] [] later none]

/-- The profile after these. -/
def rotationRun (later : Bool) : ProfileRun :=
  run labelSodium (freshProfile [] fun _ => none) (rotationEvents later)

theorem rotationEvents_admissible (later : Bool) :
    AdmissibleRun labelSodium (freshProfile [] fun _ => none) (rotationEvents later) := by
  refine ⟨⟨by decide, by decide⟩, trivial, ?_, trivial⟩
  cases later with
  | true => exact ⟨by decide, by decide⟩
  | false => exact ⟨by decide, by decide⟩

/-- A later session, in another period and with rotation on, reads the object. -/
theorem stored_objects_stay_readable_next_period :
    ∃ obj session, (rotationRun true).objects [21, 22] = some obj ∧
      (rotationRun true).session = some session ∧ obj.sealedBy ≠ session.rootKey ∧
      readDecrObject labelSodium session [21, 22] obj.data = some obj.value := by
  obtain ⟨obj, hobj⟩ : ∃ obj, (rotationRun true).objects [21, 22] = some obj :=
    Option.isSome_iff_exists.mp (by decide)
  obtain ⟨session, hsession⟩ : ∃ session, (rotationRun true).session = some session :=
    Option.isSome_iff_exists.mp (by decide)
  have hfacts : ∀ o ∈ (rotationRun true).objects [21, 22], ∀ sess ∈ (rotationRun true).session,
      o.keyOnDisk = true ∧ sess.mode = .rotating ∧ o.sealedBy ≠ sess.rootKey := by decide
  obtain ⟨hkept, hmode, hne⟩ := hfacts obj hobj session hsession
  refine ⟨obj, session, hobj, hsession, hne, ?_⟩
  exact stored_objects_stay_readable labelSodium labelSodium_inverts labelSodium_opensToOne []
    (fun _ => none) (rotationEvents true) (rotationEvents_admissible true) [21, 22] obj session
    hobj hsession (.inr ⟨hmode, hkept⟩)

/-- With rotation off, the key of the period is not loaded, and what it sealed is
not read. -/
theorem not_every_object_stays_readable :
    ¬ ∀ events, AdmissibleRun labelSodium (freshProfile [] fun _ => none) events →
      ∀ ref obj session,
        (run labelSodium (freshProfile [] fun _ => none) events).objects ref = some obj →
        (run labelSodium (freshProfile [] fun _ => none) events).session = some session →
        readDecrObject labelSodium session ref obj.data = some obj.value := by
  intro h
  obtain ⟨obj, hobj⟩ : ∃ obj, (rotationRun false).objects [21, 22] = some obj :=
    Option.isSome_iff_exists.mp (by decide)
  obtain ⟨session, hsession⟩ : ∃ session, (rotationRun false).session = some session :=
    Option.isSome_iff_exists.mp (by decide)
  have hnone : ∀ o ∈ (rotationRun false).objects [21, 22], ∀ sess ∈ (rotationRun false).session,
      readDecrObject labelSodium sess [21, 22] o.data = none := by decide
  have hread := h (rotationEvents false) (rotationEvents_admissible false) [21, 22] obj session
    hobj hsession
  exact nomatch (hnone obj hobj session hsession).symm.trans hread

end GpgFrontend
