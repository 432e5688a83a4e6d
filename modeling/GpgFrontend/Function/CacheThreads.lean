import GpgFrontend.Base.Runs
import GpgFrontend.Function.CacheManager

/-!
# A reset of the durable cache beside a flush

A flush reads a value in one lock section and stores it outside of any, so other calls may
run between the two. A `CacheThread` is a call and where it stands between its sections.

- `CacheThreads.step`: one step of one thread; an interleaving is a list of them.
- `ResetInv`: behind a reset, and as long as its key is not inserted again, memory does not
  hold the key; once the object is erased, the disk does not either, and no flush has a
  value of it in hand.
- `reset_not_undone`: **what was reset and not saved again is not on disk**, in every run
  in which no reset erases the object while a flush holds a value of its key.
- `reset_undone_by_flush`: a run in which one does.
-/

namespace GpgFrontend

/-- A call that changes the cache. -/
inductive CacheCall where
  | saveSecDurableCache (key : String) (value : Bytes) (flush : Bool)
  | resetDurableCache (key : String)
  | flushCacheStorage
  deriving Repr, DecidableEq

/-- Where a call stands: what it does next, with what it holds. -/
inductive CachePc where
  | entered
  | lookedUp (newKey : Bool)
  | unequal (newKey : Bool)
  | inserted (newKey : Bool)
  | registered (newKey : Bool)
  | removed
  | unregistered
  | erased
  | flushEntered
  | flushKeys (keys : List String) (registry : Bool)
  | storing (key : String) (value : Bytes) (keys : List String) (registry : Bool)
  | copyRegistry
  | storingRegistry (registry : List String)
  | returned
  deriving Repr, DecidableEq

/-- A call under way. `since` counts the insertions that a reset found behind it. -/
structure CacheThread where
  call : CacheCall
  pc : CachePc := .entered
  since : Nat := 0
  deriving Repr, DecidableEq

namespace CacheThread

variable (t : CacheThread)

/-- One section of the call; `outcome` says whether an access to the disk succeeds. -/
def next (m : CacheManager) (outcome : Bool) : CacheManager × CachePc :=
  match t.pc with
  | .entered =>
    match t.call with
    | .saveSecDurableCache key _ _ => (m, .lookedUp (!m.isRegistered key))
    | .resetDurableCache key => (m.removeCached key, .removed)
    | .flushCacheStorage => (m, .flushEntered)
  | .lookedUp newKey =>
    match t.call with
    | .saveSecDurableCache key value _ =>
      (m, if !newKey && m.cached key = some value then .returned else .unequal newKey)
    | _ => (m, t.pc)
  | .unequal newKey =>
    match t.call with
    | .saveSecDurableCache key value _ => (m.insertCached key value, .inserted newKey)
    | _ => (m, t.pc)
  | .inserted newKey =>
    match t.call with
    | .saveSecDurableCache key _ _ =>
      (if newKey then m.registerKey key else m, .registered newKey)
    | _ => (m, t.pc)
  | .registered newKey =>
    match t.call with
    | .saveSecDurableCache key _ flush =>
      (m.markDirty key newKey, if flush then .flushEntered else .returned)
    | _ => (m, t.pc)
  | .removed =>
    match t.call with
    | .resetDurableCache key => (m.unregisterKey key, .unregistered)
    | _ => (m, t.pc)
  | .unregistered =>
    match t.call with
    | .resetDurableCache key => (m.removeObject key outcome, .erased)
    | _ => (m, t.pc)
  | .erased =>
    match t.call with
    | .resetDurableCache key => (m.markReset key, .flushEntered)
    | _ => (m, t.pc)
  | .flushEntered =>
    if m.dirtyKeys.isEmpty && !m.registryDirty then (m, .returned)
    else (m.takeDirty, .flushKeys m.dirtyKeys m.registryDirty)
  | .flushKeys [] registry => (m, if registry then .copyRegistry else .returned)
  | .flushKeys (key :: keys) registry =>
    match m.cached key with
    | none => (m, .flushKeys keys registry)
    | some value =>
      if value.isEmpty then (m, .flushKeys keys registry)
      else (m, .storing key value keys registry)
  | .storing key value keys registry => (m.storeValue key value outcome, .flushKeys keys registry)
  | .copyRegistry => (m, .storingRegistry m.keyStorage)
  | .storingRegistry registry => (m.storeRegistry registry outcome, .returned)
  | .returned => (m, .returned)

/-- The key whose value the next section inserts in memory. -/
def inserting : Option String :=
  match t.pc, t.call with
  | .unequal _, .saveSecDurableCache key _ _ => some key
  | _, _ => none

/-- The key a value of which the call has read and not stored yet. -/
def holding : Option String :=
  match t.pc with
  | .storing key _ _ _ => some key
  | _ => none

/-- The key of a reset that has taken it out of memory. -/
def resets : Option String :=
  match t.pc, t.call with
  | .entered, _ => none
  | _, .resetDurableCache key => some key
  | _, _ => none

/-- The key of a reset whose next step erases the object. -/
def erasing : Option String :=
  match t.pc, t.call with
  | .unregistered, .resetDurableCache key => some key
  | _, _ => none

/-- Its object has been erased too. -/
def isErased : Bool :=
  match t.pc with
  | .entered | .removed | .unregistered => false
  | _ => true

/-! ## What one section changes -/

variable {t} {m : CacheManager} {key : String} {outcome : Bool}

/-- Only an insertion puts a key back into memory. -/
theorem cached_next (h : m.cached key = none) (hinsert : t.inserting ≠ some key) :
    (t.next m outcome).1.cached key = none := by
  obtain ⟨call, pc, since⟩ := t
  unfold next
  dsimp only
  split
  · split
    · exact h
    · next reset =>
      by_cases heq : key = reset
      · rw [heq, CacheManager.cached_removeCached_self]
      · rw [CacheManager.cached_removeCached_ne heq]
        exact h
    · exact h
  · split <;> exact h
  · split
    · next saved value flush =>
      rw [CacheManager.cached_insertCached_ne fun heq => hinsert (congrArg some heq.symm)]
      exact h
    · exact h
  · split
    · unfold CacheManager.registerKey
      dsimp only
      split
      · split <;> exact h
      · exact h
    · exact h
  · split <;> exact h
  · split <;> exact h
  · split
    · unfold CacheManager.removeObject
      split <;> exact h
    · exact h
  · split <;> exact h
  · split <;> exact h
  · exact h
  · split
    · exact h
    · split <;> exact h
  · unfold CacheManager.storeValue
    split <;> exact h
  · exact h
  · unfold CacheManager.storeRegistry
    split <;> exact h
  · exact h

/-- Only a flush that holds a value of a key puts it back on disk. -/
theorem stored_next (h : m.stored key = none) (hhold : t.holding ≠ some key) :
    (t.next m outcome).1.stored key = none := by
  obtain ⟨call, pc, since⟩ := t
  unfold next
  dsimp only
  split
  · split <;> exact h
  · split <;> exact h
  · split <;> exact h
  · split
    · unfold CacheManager.registerKey
      dsimp only
      split
      · split <;> exact h
      · exact h
    · exact h
  · split <;> exact h
  · split <;> exact h
  · split
    · next reset =>
      by_cases heq : key = reset
      · subst heq
        cases outcome with
        | true => exact CacheManager.stored_removeObject_self
        | false => exact h
      · rw [CacheManager.stored_removeObject_ne heq]
        exact h
    · exact h
  · split <;> exact h
  · split <;> exact h
  · exact h
  · split
    · exact h
    · split <;> exact h
  · rw [CacheManager.stored_storeValue_ne fun heq => hhold (congrArg some heq.symm)]
    exact h
  · exact h
  · rw [CacheManager.stored_storeRegistry]
    exact h
  · exact h

/-- A flush takes a value in hand only from memory. -/
theorem holding_next (h : m.cached key = none) :
    holding { t with pc := (t.next m outcome).2 } ≠ some key := by
  obtain ⟨call, pc, since⟩ := t
  have hnone : none ≠ some key := (Option.some_ne_none key).symm
  unfold next
  dsimp only
  split
  · split <;> exact hnone
  · split
    · split <;> exact hnone
    · exact hnone
  · split <;> exact hnone
  · split <;> exact hnone
  · split
    · split <;> exact hnone
    · exact hnone
  · split <;> exact hnone
  · split <;> exact hnone
  · split <;> exact hnone
  · split <;> exact hnone
  · split <;> exact hnone
  · split
    · exact hnone
    · next first keys registry _ value hvalue =>
      split
      · exact hnone
      · intro heq
        have hfirst : first = key := Option.some.inj heq
        rw [hfirst, h] at hvalue
        cases hvalue
  · exact hnone
  · exact hnone
  · exact hnone
  · exact hnone

/-- A reset that has started has taken its key out of memory. -/
theorem resets_of_call (hcall : t.call = .resetDurableCache key) :
    t.pc = .entered ∨ t.resets = some key := by
  obtain ⟨call, pc, since⟩ := t
  obtain rfl : call = .resetDurableCache key := hcall
  cases pc with
  | entered => exact .inl rfl
  | _ => exact .inr rfl

/-- A reset has erased its object, or does so now. -/
theorem isErased_next (hcall : t.call = .resetDurableCache key)
    (herased : isErased { t with pc := (t.next m outcome).2 } = true) :
    t.isErased = true ∨
      (t.pc = .unregistered ∧ (t.next m outcome).1 = m.removeObject key outcome) := by
  obtain ⟨call, pc, since⟩ := t
  obtain rfl : call = .resetDurableCache key := hcall
  cases pc with
  | entered => cases herased
  | removed => cases herased
  | unregistered => exact .inr ⟨rfl, rfl⟩
  | _ => exact .inl rfl

end CacheThread

/-- The calls over one cache, and the keys that were inserted in memory so far. -/
structure CacheThreads where
  manager : CacheManager
  threads : List CacheThread := []
  inserted : List String := []

namespace CacheThreads

inductive ThreadAction where
  | call (c : CacheCall)
  | step (i : Nat) (outcome : Bool)
  deriving Repr, DecidableEq

/-- One step of a call. -/
def stepThread (s : CacheThreads) (i : Nat) (t : CacheThread) (outcome : Bool) : CacheThreads where
  manager := (t.next s.manager outcome).1
  threads := s.threads.set i { t with
    pc := (t.next s.manager outcome).2
    since := if t.pc = .entered then s.inserted.length else t.since }
  inserted := s.inserted ++ t.inserting.toList

def step (s : CacheThreads) : ThreadAction → CacheThreads
  | .call c => { s with threads := s.threads ++ [{ call := c }] }
  | .step i outcome =>
    match s.threads[i]? with
    | none => s
    | some t => s.stepThread i t outcome

/-! ## Behind a reset -/

/-- No reset erases its object while a flush holds a value of its key, and none fails to. -/
def ErasesWhatIsLeft (s : CacheThreads) : ThreadAction → Prop
  | .call _ => True
  | .step i outcome => ∀ key ∈ s.threads[i]?.bind CacheThread.erasing,
      outcome = true ∧ ∀ t ∈ s.threads, t.holding ≠ some key

instance (s : CacheThreads) : ∀ a, Decidable (ErasesWhatIsLeft s a)
  | .call _ => isTrue trivial
  | .step i outcome => inferInstanceAs (Decidable (∀ key ∈ s.threads[i]?.bind CacheThread.erasing,
      outcome = true ∧ ∀ t ∈ s.threads, t.holding ≠ some key))

variable {s : CacheThreads}

theorem ErasesWhatIsLeft.erases {i : Nat} {t : CacheThread} {key : String} {outcome : Bool}
    (h : ErasesWhatIsLeft s (.step i outcome)) (hi : s.threads[i]? = some t)
    (hcall : t.call = .resetDurableCache key) (hpc : t.pc = .unregistered) :
    outcome = true ∧ ∀ t ∈ s.threads, t.holding ≠ some key := by
  refine h key ?_
  rw [hi, Option.bind_some, CacheThread.erasing, hpc, hcall]
  rfl

/-- What a reset leaves, as long as nothing inserts its key behind it. -/
structure ResetLeaves (s : CacheThreads) (t : CacheThread) (key : String) : Prop where
  cached : t.resets = some key → s.manager.cached key = none
  stored : t.isErased = true → s.manager.stored key = none
  holding : t.isErased = true → ∀ t' ∈ s.threads, t'.holding ≠ some key

structure ResetInv (s : CacheThreads) : Prop where
  since : ∀ t ∈ s.threads, t.since ≤ s.inserted.length
  leaves : ∀ t ∈ s.threads, ∀ key, t.call = .resetDurableCache key →
    key ∉ s.inserted.drop t.since → ResetLeaves s t key

theorem ResetLeaves.cached_of_erased {t : CacheThread} {key : String} (h : ResetLeaves s t key)
    (hcall : t.call = .resetDurableCache key) (herased : t.isErased = true) :
    s.manager.cached key = none := by
  refine h.cached ((CacheThread.resets_of_call hcall).resolve_left fun hentered => ?_)
  rw [CacheThread.isErased, hentered] at herased
  cases herased

/-- What is left behind stays so when another call moves on. -/
theorem ResetLeaves.next {s : CacheThreads} {i : Nat} {t u : CacheThread} {key : String}
    {outcome : Bool} (h : ResetLeaves s u key) (hcall : u.call = .resetDurableCache key)
    (hi : s.threads[i]? = some t) (hinsert : t.inserting ≠ some key) :
    ResetLeaves (s.stepThread i t outcome) u key where
  cached hresets := CacheThread.cached_next (h.cached hresets) hinsert
  stored herased := CacheThread.stored_next (h.stored herased)
    (h.holding herased t (List.mem_of_getElem? hi))
  holding herased v hv := by
    rcases List.mem_or_eq_of_mem_set hv with hold | rfl
    · exact h.holding herased v hold
    · exact CacheThread.holding_next (h.cached_of_erased hcall herased)

/-- And when the reset itself does. -/
theorem ResetLeaves.self {i : Nat} {t : CacheThread} {key : String} {outcome : Bool}
    (hcall : t.call = .resetDurableCache key) (h : t.pc ≠ .entered → ResetLeaves s t key)
    (hi : s.threads[i]? = some t) (hinsert : t.inserting ≠ some key)
    (herases : ErasesWhatIsLeft s (.step i outcome)) {since : Nat} :
    ResetLeaves (s.stepThread i t outcome)
      { t with pc := (t.next s.manager outcome).2, since := since } key := by
  by_cases hentered : t.pc = .entered
  · have hnext : t.next s.manager outcome = (s.manager.removeCached key, .removed) := by
      rw [CacheThread.next, hentered, hcall]
    refine ⟨fun _ => ?_, fun herased => ?_, fun herased => ?_⟩
    · show (t.next s.manager outcome).1.cached key = none
      rw [hnext]
      exact CacheManager.cached_removeCached_self
    · rw [hnext] at herased
      cases herased
    · rw [hnext] at herased
      cases herased
  have hleaves := h hentered
  have hcached := hleaves.cached ((CacheThread.resets_of_call hcall).resolve_left hentered)
  refine ⟨fun _ => CacheThread.cached_next hcached hinsert, fun herased => ?_,
    fun herased v hv => ?_⟩
  · rcases CacheThread.isErased_next hcall herased with hold | ⟨hpc, hnext⟩
    · exact CacheThread.stored_next (hleaves.stored hold)
        (hleaves.holding hold t (List.mem_of_getElem? hi))
    · show (t.next s.manager outcome).1.stored key = none
      rw [hnext, (herases.erases hi hcall hpc).1]
      exact CacheManager.stored_removeObject_self
  · rcases List.mem_or_eq_of_mem_set hv with hmem | rfl
    · rcases CacheThread.isErased_next hcall herased with hold | ⟨hpc, -⟩
      · exact hleaves.holding hold v hmem
      · exact (herases.erases hi hcall hpc).2 v hmem
    · exact CacheThread.holding_next hcached

theorem ResetInv.stepThread {i : Nat} {t : CacheThread} {outcome : Bool} (h : ResetInv s)
    (hi : s.threads[i]? = some t) (herases : ErasesWhatIsLeft s (.step i outcome)) :
    ResetInv (s.stepThread i t outcome) where
  since u hu := by
    have hgrows : s.inserted.length ≤ (s.stepThread i t outcome).inserted.length := by
      show s.inserted.length ≤ (s.inserted ++ t.inserting.toList).length
      rw [List.length_append]
      exact Nat.le_add_right _ _
    rcases List.mem_or_eq_of_mem_set hu with hold | rfl
    · exact Nat.le_trans (h.since u hold) hgrows
    · dsimp only
      split
      · exact hgrows
      · exact Nat.le_trans (h.since t (List.mem_of_getElem? hi)) hgrows
  leaves u hu key hcall hlater := by
    have hparts : ∀ n, n ≤ s.inserted.length → key ∉ (s.inserted ++ t.inserting.toList).drop n →
        key ∉ s.inserted.drop n ∧ t.inserting ≠ some key := by
      intro n hn hdrop
      rw [List.drop_append_of_le_length hn, List.mem_append, not_or] at hdrop
      exact ⟨hdrop.1, fun hinsert => hdrop.2 (Option.mem_toList.mpr hinsert)⟩
    rcases List.mem_or_eq_of_mem_set hu with hold | rfl
    · obtain ⟨hkey, hinsert⟩ := hparts u.since (h.since u hold) hlater
      exact (h.leaves u hold key hcall hkey).next hcall hi hinsert
    · have ht := List.mem_of_getElem? hi
      dsimp only at hlater
      by_cases hentered : t.pc = .entered
      · rw [if_pos hentered] at hlater
        exact ResetLeaves.self (t := t) hcall (absurd hentered) hi
          (hparts _ (Nat.le_refl _) hlater).2 herases
      · rw [if_neg hentered] at hlater
        obtain ⟨hkey, hinsert⟩ := hparts t.since (h.since t ht) hlater
        exact ResetLeaves.self (t := t) hcall (fun _ => h.leaves t ht key hcall hkey) hi hinsert
          herases

theorem ResetInv.call (h : ResetInv s) (c : CacheCall) :
    ResetInv (s.step (.call c)) where
  since u hu := by
    rcases List.mem_append.mp hu with hold | hnew
    · exact h.since u hold
    · rw [List.mem_singleton.mp hnew]
      exact Nat.zero_le _
  leaves u hu key hcall hlater := by
    rcases List.mem_append.mp hu with hold | hnew
    · have hleaves := h.leaves u hold key hcall hlater
      refine ⟨hleaves.cached, hleaves.stored, fun herased v hv => ?_⟩
      rcases List.mem_append.mp hv with hv | hv
      · exact hleaves.holding herased v hv
      · rw [List.mem_singleton.mp hv]
        exact (Option.some_ne_none key).symm
    · rw [List.mem_singleton.mp hnew]
      exact ⟨fun h => (by cases h), fun h => (by cases h), fun h => (by cases h)⟩

theorem ResetInv.step (h : ResetInv s) (a : ThreadAction) (herases : ErasesWhatIsLeft s a) :
    ResetInv (s.step a) := by
  cases a with
  | call c => exact h.call c
  | step i outcome =>
    rw [CacheThreads.step]
    cases hi : s.threads[i]? with
    | none => exact h
    | some t => exact h.stepThread hi herases

/-- **What was reset is not on disk**, once the reset has returned and as long as its key
was not saved again behind it: whatever else runs beside, and whatever flushes are still
pending, as long as no reset erases an object that a flush still holds a value of. -/
theorem reset_not_undone {m : CacheManager} {s : CacheThreads}
    (hrun : ReachableUnder step ErasesWhatIsLeft ⟨m, [], []⟩ s) {t : CacheThread} {key : String}
    (ht : t ∈ s.threads) (hcall : t.call = .resetDurableCache key) (hreturned : t.pc = .returned)
    (hlater : key ∉ s.inserted.drop t.since) : s.manager.stored key = none := by
  have hinv : ResetInv s := hrun.inv ⟨fun _ h => (by cases h), fun _ h => (by cases h)⟩
    fun s a hs herases => hs.step a herases
  refine (hinv.leaves t ht key hcall hlater).stored ?_
  rw [CacheThread.isErased, hreturned]

/-- A key is saved, a flush takes the dirty keys, and the key is reset before the flush has
looked at it. -/
def sampleReset : List ThreadAction :=
  .call (.saveSecDurableCache "k" [1] false) :: List.replicate 5 (.step 0 true) ++
    .call .flushCacheStorage :: List.replicate 2 (.step 1 true) ++
    .call (.resetDurableCache "k") :: List.replicate 8 (.step 2 true)

theorem reset_not_undone_sample :
    (∃ t ∈ (sampleReset.foldl step ⟨{}, [], []⟩).threads,
        t.call = .flushCacheStorage ∧ t.pc ≠ .returned) ∧
      (sampleReset.foldl step ⟨{}, [], []⟩).manager.stored "k" = none := by
  have hrun : ReachableUnder step ErasesWhatIsLeft ⟨{}, [], []⟩
      (sampleReset.foldl step ⟨{}, [], []⟩) := .foldl .start (by decide)
  refine ⟨by decide, ?_⟩
  exact reset_not_undone (t := ⟨.resetDurableCache "k", .returned, 1⟩) hrun (by decide) rfl rfl
    (by decide)

/-- A flush has read the value, the reset runs from its first section to its last, and
then the flush stores what it read. -/
def sampleUndone : List ThreadAction :=
  .call (.saveSecDurableCache "k" [1] false) :: List.replicate 5 (.step 0 true) ++
    .call .flushCacheStorage :: List.replicate 3 (.step 1 true) ++
    .call (.resetDurableCache "k") :: List.replicate 8 (.step 2 true) ++
    List.replicate 4 (.step 1 true)

theorem reset_undone_by_flush :
    let s := sampleUndone.foldl step ⟨{}, [], []⟩
    (∀ t ∈ s.threads, t.pc = .returned) ∧
      (∃ t ∈ s.threads, t.call = .resetDurableCache "k" ∧ "k" ∉ s.inserted.drop t.since) ∧
      s.manager.stored "k" = some [1] := by
  decide

end CacheThreads

end GpgFrontend
