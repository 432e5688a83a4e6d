import GpgFrontend.Utils.KeyDatabasePasses

/-!
# A reconciled list beside the settings dialog

Reading the list of key databases may store it again: what a pass made of it is stored over
the list it was made from, after a check, one such store at a time. The settings dialog
stores the list without that lock.

- `KeyDatabaseListCall`: a read, or a change made in the dialog.
- `KeyDatabaseListThreads.step`: one load, check or store of one call; an interleaving is a
  list of them.
- `dialog_update_kept`: **no change made in the dialog is lost**, in every run in which the
  dialog stores nothing between a read's check and its store.
- `dialog_update_lost`: a run in which it does.
-/

namespace GpgFrontend

/-! ## The stored object -/

structure KeyDatabaseListSO where
  keyDatabases : List KeyDatabaseItemSO := []
  defaultDatabaseId : QString := []
  deriving DecidableEq

/-- The settings object on disk. One that this build has stored holds what `ToJson` gives and
nothing besides (`asWritten`); one from elsewhere may be unreadable. -/
structure StoredKeyDatabaseList where
  list : KeyDatabaseListSO
  asWritten : Bool
  readable : Bool
  deriving DecidableEq

/-- What a `SettingsObject` remembers of its load. -/
structure ListSettings where
  original : KeyDatabaseListSO
  asWritten : Bool
  loadFailed : Bool
  deriving DecidableEq

namespace ListSettings

/-- The constructor. No object at all is no failure. -/
def load : Option StoredKeyDatabaseList → ListSettings
  | none => ⟨{}, false, false⟩
  | some stored =>
    if stored.readable then ⟨stored.list, stored.asWritten, false⟩ else ⟨{}, false, true⟩

/-- Whether the destructor stores: never over what could not be read, unless told to, and
not when nothing changed. -/
def stores (so : ListSettings) (list : KeyDatabaseListSO) (overrides : Bool) : Bool :=
  !(so.loadFailed && !overrides) && !(so.asWritten && so.original = list)

end ListSettings

def loadKeyDatabaseList (disk : Option StoredKeyDatabaseList) : List KeyDatabaseItemSO :=
  (ListSettings.load disk).original.keyDatabases

/-! ## Calls -/

/-- A change to the list: on its own, with the choice of the default database, or the
removal of one database. -/
inductive KeyDatabaseListEdit where
  | persistKeyDatabaseList (databases : List KeyDatabaseItemSO)
  | applySettings (databases : List KeyDatabaseItemSO) (choiceId : QString)
      (replaceUnreadable : Bool)
  | commitRemoval (id : QString)
  deriving DecidableEq

namespace KeyDatabaseListEdit

def apply : KeyDatabaseListEdit → KeyDatabaseListSO → KeyDatabaseListSO
  | persistKeyDatabaseList databases, list => { list with keyDatabases := databases }
  | applySettings databases choiceId _, _ => ⟨databases, choiceId⟩
  | commitRemoval id, list =>
    { keyDatabases := list.keyDatabases.filter fun item => item.id ≠ id
      defaultDatabaseId := if list.defaultDatabaseId = id then [] else list.defaultDatabaseId }

def overrides : KeyDatabaseListEdit → Bool
  | applySettings _ _ replaceUnreadable => replaceUnreadable
  | _ => false

end KeyDatabaseListEdit

inductive KeyDatabaseListCall where
  | getKeyDatabasesBySettings (reader : KeyDatabaseReader)
  | dialog (edit : KeyDatabaseListEdit)

/-- Where a call stands. A read that is past `loaded` has the lock until it returns. -/
inductive KeyDatabaseListPc where
  | entered
  | loaded (loaded reconciled : List KeyDatabaseItemSO)
  | locked (loaded reconciled : List KeyDatabaseItemSO)
  | checked (reconciled : List KeyDatabaseItemSO)
  | storing (so : ListSettings) (list : KeyDatabaseListSO)
  | finished
  | returned
  deriving DecidableEq

structure KeyDatabaseListThread where
  call : KeyDatabaseListCall
  pc : KeyDatabaseListPc := .entered

namespace KeyDatabaseListThread

variable (t : KeyDatabaseListThread)

/-- The read has `g_key_db_list_persist_lock`. -/
def holdsLock : Bool :=
  match t.call, t.pc with
  | .getKeyDatabasesBySettings _, .locked _ _ | .getKeyDatabasesBySettings _, .checked _
  | .getKeyDatabasesBySettings _, .storing _ _ | .getKeyDatabasesBySettings _, .finished => true
  | _, _ => false

/-- The read has found the list as it was loaded, and has not stored yet. -/
def isPastCheck : Bool :=
  match t.call, t.pc with
  | .getKeyDatabasesBySettings _, .checked _ | .getKeyDatabasesBySettings _, .storing _ _ => true
  | _, _ => false

/-- The next step of a dialog's call, if it stores. -/
def dialogStores : Bool :=
  match t.call, t.pc with
  | .dialog edit, .storing so list => so.stores list edit.overrides
  | _, _ => false

/-- What a read is about to store is what its pass makes of the list it has checked. -/
def Agrees (current : List KeyDatabaseItemSO) : Prop :=
  match t.call, t.pc with
  | .getKeyDatabasesBySettings r, .loaded loaded reconciled
  | .getKeyDatabasesBySettings r, .locked loaded reconciled => reconciled = r.reconcile loaded
  | .getKeyDatabasesBySettings r, .checked reconciled => reconciled = r.reconcile current
  | .getKeyDatabasesBySettings r, .storing _ list => list.keyDatabases = r.reconcile current
  | _, _ => True

variable {t}

/-- Before its check a read agrees with any list. -/
theorem Agrees.of_not_past {current current' : List KeyDatabaseItemSO} (h : t.Agrees current)
    (hpast : t.isPastCheck = false) : t.Agrees current' := by
  obtain ⟨call, pc⟩ := t
  cases call with
  | dialog edit => exact trivial
  | getKeyDatabasesBySettings r =>
    cases pc with
    | checked reconciled => cases hpast
    | storing so list => cases hpast
    | entered => exact trivial
    | loaded loaded reconciled => exact h
    | locked loaded reconciled => exact h
    | finished => exact trivial
    | returned => exact trivial

theorem holdsLock_of_past (h : t.isPastCheck = true) : t.holdsLock = true := by
  obtain ⟨call, pc⟩ := t
  cases call with
  | dialog edit => cases h
  | getKeyDatabasesBySettings r => cases pc <;> first | rfl | cases h

end KeyDatabaseListThread

/-! ## Interleavings -/

/-- The object, the lock and its holder, and every call made. `written` is what a call of the
dialog has stored last, `passes` the reads that have stored since. -/
structure KeyDatabaseListThreads where
  disk : Option StoredKeyDatabaseList
  lock : Option Nat := none
  threads : List KeyDatabaseListThread := []
  written : List KeyDatabaseItemSO
  passes : List KeyDatabaseReader := []

/-- A call begins, or one under way takes a step; `succeeds` is for its access to the disk. -/
inductive KeyDatabaseListAction where
  | call (c : KeyDatabaseListCall)
  | step (i : Nat) (succeeds : Bool)

namespace KeyDatabaseListThreads

variable (s : KeyDatabaseListThreads)

def start (disk : Option StoredKeyDatabaseList) : KeyDatabaseListThreads where
  disk := disk
  written := loadKeyDatabaseList disk

def moveTo (i : Nat) (t : KeyDatabaseListThread) (pc : KeyDatabaseListPc) :
    KeyDatabaseListThreads :=
  { s with threads := s.threads.set i { t with pc := pc } }

/-- A step of `GetKeyDatabasesBySettings`. -/
def stepRead (i : Nat) (t : KeyDatabaseListThread) (r : KeyDatabaseReader) (succeeds : Bool) :
    KeyDatabaseListThreads :=
  match t.pc with
  | .entered =>
    let stored := loadKeyDatabaseList s.disk
    if stored = r.reconcile stored then s.moveTo i t .returned
    else s.moveTo i t (.loaded stored (r.reconcile stored))
  | .loaded loaded reconciled =>
    if s.lock = none then { s.moveTo i t (.locked loaded reconciled) with lock := some i } else s
  | .locked loaded reconciled =>
    if loadKeyDatabaseList s.disk = loaded then s.moveTo i t (.checked reconciled)
    else s.moveTo i t .finished
  | .checked reconciled =>
    let so := ListSettings.load s.disk
    s.moveTo i t (.storing so { so.original with keyDatabases := reconciled })
  | .storing so list =>
    if succeeds && so.stores list false then
      { s.moveTo i t .finished with
        disk := some ⟨list, true, true⟩
        passes := s.passes ++ [r] }
    else s.moveTo i t .finished
  | .finished => { s.moveTo i t .returned with lock := none }
  | .returned => s

/-- A step of a change made in the dialog. -/
def stepDialog (i : Nat) (t : KeyDatabaseListThread) (edit : KeyDatabaseListEdit)
    (succeeds : Bool) : KeyDatabaseListThreads :=
  match t.pc with
  | .entered =>
    let so := ListSettings.load s.disk
    s.moveTo i t (.storing so (edit.apply so.original))
  | .storing so list =>
    if succeeds && so.stores list edit.overrides then
      { s.moveTo i t .returned with
        disk := some ⟨list, true, true⟩
        written := list.keyDatabases
        passes := [] }
    else s.moveTo i t .returned
  | _ => s

def stepThread (i : Nat) (t : KeyDatabaseListThread) (succeeds : Bool) : KeyDatabaseListThreads :=
  match t.call with
  | .getKeyDatabasesBySettings r => s.stepRead i t r succeeds
  | .dialog edit => s.stepDialog i t edit succeeds

def step : KeyDatabaseListAction → KeyDatabaseListThreads
  | .call c => { s with threads := s.threads ++ [⟨c, .entered⟩] }
  | .step i succeeds =>
    match s.threads[i]? with
    | none => s
    | some t => s.stepThread i t succeeds

/-- The dialog does not store between a read's check and its store. -/
def StoresOutsideCheck : KeyDatabaseListAction → Prop
  | .call _ => True
  | .step i succeeds => ∀ t ∈ s.threads[i]?, (succeeds && t.dialogStores) = true →
      ∀ u ∈ s.threads, u.isPastCheck = false

instance : ∀ a, Decidable (StoresOutsideCheck s a)
  | .call _ => isTrue trivial
  | .step i succeeds => inferInstanceAs (Decidable (∀ t ∈ s.threads[i]?,
      (succeeds && t.dialogStores) = true → ∀ u ∈ s.threads, u.isPastCheck = false))

/-! ## What is stored -/

/-- The list as a load would find it. -/
def current : List KeyDatabaseItemSO := loadKeyDatabaseList s.disk

/-- The lock has one holder, every read is about to store what its pass makes of the list
that is there, and the list is the dialog's after the passes that were stored. -/
structure ListInv (s : KeyDatabaseListThreads) : Prop where
  lock : ∀ i t, s.threads[i]? = some t → t.holdsLock = true → s.lock = some i
  agrees : ∀ t ∈ s.threads, t.Agrees s.current
  passed : s.current = s.passes.foldl (fun items r => r.reconcile items) s.written

variable {s} {i : Nat} {t : KeyDatabaseListThread}

variable {pc : KeyDatabaseListPc}

/-- A step of one call that leaves the disk alone. -/
theorem ListInv.moveTo (h : ListInv s) {lock : Option Nat}
    (hagrees : KeyDatabaseListThread.Agrees { t with pc := pc } s.current)
    (hself : KeyDatabaseListThread.holdsLock { t with pc := pc } = true → lock = some i)
    (hothers : ∀ j u, j ≠ i → s.threads[j]? = some u → u.holdsLock = true → lock = some j) :
    ListInv { s.moveTo i t pc with lock := lock } where
  lock j u hj hholds := by
    rcases getElem?_set_cases hj with ⟨rfl, rfl⟩ | ⟨hne, hj⟩
    · exact hself hholds
    · exact hothers j u hne hj hholds
  agrees u hu := by
    rcases List.mem_or_eq_of_mem_set hu with hold | rfl
    · exact h.agrees u hold
    · exact hagrees
  passed := h.passed

/-- A step that keeps the lock as it is. -/
theorem ListInv.moveOn (h : ListInv s) (hi : s.threads[i]? = some t)
    (hagrees : KeyDatabaseListThread.Agrees { t with pc := pc } s.current)
    (hself : KeyDatabaseListThread.holdsLock { t with pc := pc } = true → t.holdsLock = true) :
    ListInv (s.moveTo i t pc) := by
  have hmoved : ListInv { s.moveTo i t pc with lock := s.lock } :=
    h.moveTo hagrees (fun hholds => h.lock i t hi (hself hholds))
      fun j u _ hj hholds => h.lock j u hj hholds
  exact hmoved

/-- A store: no other call may be past its check. -/
theorem ListInv.store (h : ListInv s) (hi : s.threads[i]? = some t) {list : KeyDatabaseListSO}
    {written : List KeyDatabaseItemSO} {passes : List KeyDatabaseReader}
    (hothers : ∀ j u, j ≠ i → s.threads[j]? = some u → u.isPastCheck = false)
    (hpast : KeyDatabaseListThread.isPastCheck { t with pc := pc } = false)
    (hagrees : KeyDatabaseListThread.Agrees { t with pc := pc } s.current)
    (hself : KeyDatabaseListThread.holdsLock { t with pc := pc } = true → t.holdsLock = true)
    (hpassed : list.keyDatabases = passes.foldl (fun items r => r.reconcile items) written) :
    ListInv { s.moveTo i t pc with
      disk := some ⟨list, true, true⟩, written := written, passes := passes } where
  lock j u hj hholds := by
    rcases getElem?_set_cases hj with ⟨rfl, rfl⟩ | ⟨hne, hj⟩
    · exact h.lock j t hi (hself hholds)
    · exact h.lock j u hj hholds
  agrees u hu := by
    obtain ⟨j, hj⟩ := List.mem_iff_getElem?.mp hu
    rcases getElem?_set_cases hj with ⟨rfl, rfl⟩ | ⟨hne, hj⟩
    · exact hagrees.of_not_past hpast
    · exact (h.agrees u (List.mem_of_getElem? hj)).of_not_past (hothers j u hne hj)
  passed := hpassed

/-- Nothing else is past its check while a read that has the lock stores. -/
theorem ListInv.alone (h : ListInv s) (hi : s.threads[i]? = some t) (hholds : t.holdsLock = true)
    {j : Nat} {u : KeyDatabaseListThread} (hne : j ≠ i) (hj : s.threads[j]? = some u) :
    u.isPastCheck = false := by
  by_contra hpast
  rw [Bool.not_eq_false] at hpast
  have hlock := h.lock j u hj (KeyDatabaseListThread.holdsLock_of_past hpast)
  rw [h.lock i t hi hholds] at hlock
  exact hne (Option.some.inj hlock).symm

theorem ListInv.stepRead {r : KeyDatabaseReader} (h : ListInv s)
    (hi : s.threads[i]? = some ⟨.getKeyDatabasesBySettings r, pc⟩) (succeeds : Bool) :
    ListInv (s.stepRead i ⟨.getKeyDatabasesBySettings r, pc⟩ r succeeds) := by
  have hagrees := h.agrees _ (List.mem_of_getElem? hi)
  unfold KeyDatabaseListThreads.stepRead
  cases pc with
  | entered =>
    dsimp only
    split
    · exact h.moveOn hi trivial fun h => by cases h
    · exact h.moveOn hi rfl fun h => by cases h
  | loaded loaded reconciled =>
    dsimp only
    split
    · next hfree =>
      refine h.moveTo hagrees (fun _ => rfl) fun j u _ hj hholds => ?_
      have hlock := h.lock j u hj hholds
      rw [hfree] at hlock
      cases hlock
    · exact h
  | locked loaded reconciled =>
    dsimp only
    split
    · next hsame =>
      refine h.moveOn hi ?_ fun _ => rfl
      show reconciled = r.reconcile (loadKeyDatabaseList s.disk)
      rw [hsame]
      exact hagrees
    · exact h.moveOn hi trivial fun _ => rfl
  | checked reconciled => exact h.moveOn hi hagrees fun _ => rfl
  | storing so list =>
    dsimp only
    split
    · refine h.store hi (fun j u hne hj => h.alone hi rfl hne hj) rfl trivial (fun _ => rfl) ?_
      rw [List.foldl_append]
      show list.keyDatabases = r.reconcile (s.passes.foldl _ s.written)
      rw [← h.passed]
      exact hagrees
    · exact h.moveOn hi trivial fun _ => rfl
  | finished =>
    refine h.moveTo trivial (fun h => by cases h) fun j u hne hj hholds => ?_
    have hlock := h.lock j u hj hholds
    rw [h.lock i _ hi rfl] at hlock
    exact absurd (Option.some.inj hlock).symm hne
  | returned => exact h

theorem ListInv.stepDialog {edit : KeyDatabaseListEdit} (h : ListInv s)
    (hi : s.threads[i]? = some ⟨.dialog edit, pc⟩) {succeeds : Bool}
    (houtside : StoresOutsideCheck s (.step i succeeds)) :
    ListInv (s.stepDialog i ⟨.dialog edit, pc⟩ edit succeeds) := by
  unfold KeyDatabaseListThreads.stepDialog
  cases pc with
  | entered => exact h.moveOn hi trivial fun h => by cases h
  | storing so list =>
    dsimp only
    split
    · next hstores =>
      refine h.store hi (fun j u _ hj => ?_) rfl trivial (fun h => by cases h) rfl
      exact houtside _ hi hstores u (List.mem_of_getElem? hj)
    · exact h.moveOn hi trivial fun h => by cases h
  | loaded loaded reconciled => exact h
  | locked loaded reconciled => exact h
  | checked reconciled => exact h
  | finished => exact h
  | returned => exact h

theorem ListInv.call (h : ListInv s) (c : KeyDatabaseListCall) : ListInv (s.step (.call c)) where
  lock j u hj hholds := by
    rcases getElem?_snoc_cases hj with hold | ⟨-, rfl⟩
    · exact h.lock j u hold hholds
    · cases c <;> cases hholds
  agrees u hu := by
    rcases List.mem_append.mp hu with hold | hnew
    · exact h.agrees u hold
    · rw [List.mem_singleton.mp hnew]
      cases c <;> exact trivial
  passed := h.passed

theorem ListInv.step (h : ListInv s) (a : KeyDatabaseListAction)
    (houtside : StoresOutsideCheck s a) : ListInv (s.step a) := by
  cases a with
  | call c => exact h.call c
  | step i succeeds =>
    rw [KeyDatabaseListThreads.step]
    cases hi : s.threads[i]? with
    | none => exact h
    | some t =>
      obtain ⟨call, pc⟩ := t
      cases call with
      | getKeyDatabasesBySettings r => exact h.stepRead hi succeeds
      | dialog edit => exact h.stepDialog hi houtside

theorem ListInv.start (disk : Option StoredKeyDatabaseList) : ListInv (start disk) where
  lock i t hi := by cases hi
  agrees t ht := by cases ht
  passed := rfl

/-! ## What the dialog changed -/

/-- A list honours one that the dialog stored, with the reads that stored behind it: what
was added is there, under its id and its name, what was removed is not, and DEFAULT is on or
off as it was set. A read in the sandbox drops a database whose folder is gone, and always
turns DEFAULT on. -/
structure Honours (written : List KeyDatabaseItemSO) (passes : List KeyDatabaseReader)
    (items : List KeyDatabaseItemSO) : Prop where
  passed : items = passes.foldl (fun items r => r.reconcile items) written
  added : ∀ x, HasOwnIdentity x → HoldsEntry x written →
    (∀ r ∈ passes, r.Finds x.name ∧ r.MintsOther x.id) → HoldsEntry x items
  removed : ∀ id, id ≠ [] → id ≠ defaultKeyDatabaseId → (∀ r ∈ passes, r.MintsOther id) →
    idCount id written = 0 → idCount id items = 0
  builtInOn : HasBuiltIn written → HasBuiltIn items
  builtInOff : (∀ r ∈ passes, r.IsDesktop) → LacksBuiltIn written → LacksBuiltIn items

/-- What every pass keeps, all of them do. -/
theorem foldl_passes {P : List KeyDatabaseItemSO → Prop} {passes : List KeyDatabaseReader}
    {items : List KeyDatabaseItemSO} (hpass : ∀ r ∈ passes, ∀ items, P items → P (r.reconcile items))
    (h : P items) : P (passes.foldl (fun items r => r.reconcile items) items) := by
  induction passes generalizing items with
  | nil => exact h
  | cons r rest ih =>
    refine ih (fun r' hr' => hpass r' (List.mem_cons_of_mem _ hr')) ?_
    exact hpass r List.mem_cons_self items h

theorem honours_passes (written : List KeyDatabaseItemSO) (passes : List KeyDatabaseReader) :
    Honours written passes (passes.foldl (fun items r => r.reconcile items) written) where
  passed := rfl
  added _ hx hholds hreads := foldl_passes
    (fun r hr _ hitems => hitems.reconcile hx (hreads r hr).1 (hreads r hr).2) hholds
  removed id hne hdefault hminted hzero := by
    refine @foldl_passes (fun items => idCount id items = 0) passes written
      (fun r hr items hitems => ?_) hzero
    have hle := idCount_reconcile_le hne hdefault (hminted r hr) items
    rw [hitems] at hle
    exact Nat.le_zero.mp hle
  builtInOn h := foldl_passes (fun r _ _ hitems => hitems.reconcile r) h
  builtInOff hdesktop h := foldl_passes (fun r hr _ hitems => hitems.reconcile (hdesktop r hr)) h

/-- **No change made in the dialog is lost**: whatever reads run beside it, and whichever
call stores last, the stored list honours the one that the dialog stored last, as long as the
dialog stores nothing between the check and the store of a read. -/
theorem dialog_update_kept {disk : Option StoredKeyDatabaseList} {s : KeyDatabaseListThreads}
    (hrun : ReachableUnder step StoresOutsideCheck (start disk) s) :
    Honours s.written s.passes s.current := by
  have hinv : ListInv s := hrun.inv (ListInv.start disk) fun _ a hs houtside => hs.step a houtside
  have hhonours := honours_passes s.written s.passes
  rwa [← hinv.passed] at hhonours

/-! ## Two runs -/

/-- A desktop whose engine names no database. -/
def sampleListReader : KeyDatabaseReader :=
  .desktop ⟨fun path => path, fun _ => false, fun path => path, fun path => path⟩
    ⟨[], false, false⟩ [] [] fun _ => [109]

/-- An entry from a build before there were ids, and one that the dialog adds. -/
def sampleStored : KeyDatabaseItemSO := { name := [97], path := [0x2F, 97], kind := some .external }

def sampleAdded : KeyDatabaseItemSO :=
  { id := [98], name := [98], path := [0x2F, 98], channel := 1, kind := some .external }

def sampleListDisk : Option StoredKeyDatabaseList := some ⟨⟨[sampleStored], []⟩, true, true⟩

theorem sampleAdded_own : HasOwnIdentity sampleAdded :=
  ⟨by decide, by decide, by decide, by decide, by decide⟩

theorem sampleListReader_mintsOther : sampleListReader.MintsOther sampleAdded.id := by
  intro m
  show QString.trimmed [109] ≠ [98]
  decide

/-- A read loads the list, the dialog adds a database to it, and the read gives way. -/
def sampleGivesWay : List KeyDatabaseListAction :=
  [.call (.getKeyDatabasesBySettings sampleListReader), .step 0 true,
    .call (.dialog (.persistKeyDatabaseList [sampleStored, sampleAdded])), .step 1 true, .step 1 true,
    .step 0 true, .step 0 true, .step 0 true]

theorem dialog_update_kept_sample :
    HoldsEntry sampleAdded (sampleGivesWay.foldl step (start sampleListDisk)).current := by
  have hrun : ReachableUnder step StoresOutsideCheck (start sampleListDisk)
      (sampleGivesWay.foldl step (start sampleListDisk)) := .foldl .start (by decide)
  refine (dialog_update_kept hrun).added sampleAdded sampleAdded_own ⟨?_, by decide, by decide⟩ ?_
  · exact ⟨sampleAdded, by decide, rfl, rfl, by decide⟩
  · have hpasses : (sampleGivesWay.foldl step (start sampleListDisk)).passes = [] := rfl
    rw [hpasses]
    exact fun r hr => absurd hr List.not_mem_nil

/-- The read has found the list as it loaded it, the dialog stores its own, and the read
stores over it. -/
def sampleLostUpdate : List KeyDatabaseListAction :=
  [.call (.getKeyDatabasesBySettings sampleListReader), .step 0 true, .step 0 true, .step 0 true,
    .call (.dialog (.persistKeyDatabaseList [sampleStored, sampleAdded])), .step 1 true, .step 1 true,
    .step 0 true, .step 0 true, .step 0 true]

theorem dialog_update_lost :
    let s := sampleLostUpdate.foldl step (start sampleListDisk)
    (∀ t ∈ s.threads, t.pc = .returned) ∧ s.written = [sampleStored, sampleAdded] ∧
      (∀ r ∈ s.passes, r.Finds sampleAdded.name ∧ r.MintsOther sampleAdded.id) ∧
      idCount sampleAdded.id s.current = 0 := by
  refine ⟨by decide, by decide, fun r hr => ?_, by decide⟩
  have hpasses : (sampleLostUpdate.foldl step (start sampleListDisk)).passes = [sampleListReader] := rfl
  rw [hpasses, List.mem_singleton] at hr
  rw [hr]
  exact ⟨trivial, sampleListReader_mintsOther⟩

end KeyDatabaseListThreads

end GpgFrontend
