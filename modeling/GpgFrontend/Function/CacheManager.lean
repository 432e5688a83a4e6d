import Mathlib.Data.List.AList
import GpgFrontend.Base.SecretStream

/-!
# The durable cache (`CacheManager.cpp`)

Values are kept in memory and written to encrypted data objects by a flush. Three mutexes
guard the map of values, the registry of keys and the dirty set; no section holds two of
them, and a flush writes outside all three.

- The lock sections of `CacheManager::Impl`, one definition each, and the accesses to the
  data objects between them.
- `stored_slotFlushCacheStorage`: what a flush leaves on disk.
-/

namespace GpgFrontend

/-- A data object the cache keeps: a value, or the registry of keys. -/
inductive CacheObject where
  | buffer (value : Bytes)
  | keys (registry : List String)
  deriving Repr, DecidableEq

/-- `get_data_object_key`. -/
def getDataObjectKey (key : String) : String := "__cache_data_" ++ key

/-- `drk_key_`. -/
def drkKey : String := "__cache_manage_data_register_key_list"

/-- `CacheManager::Impl`, with the objects of its `DataObjectOperator`. -/
structure CacheManager where
  durableCacheStorage : AList fun _ : String => Bytes := ∅
  keyStorage : List String := []
  dirtyKeys : List String := []
  registryDirty : Bool := false
  objects : AList fun _ : String => CacheObject := ∅

namespace CacheManager

variable (c : CacheManager) (key : String)

/-! ## The sections -/

/-- `durable_cache_storage_.get`. -/
def cached : Option Bytes := c.durableCacheStorage.lookup key

/-- `durable_cache_storage_.insert`. -/
def insertCached (value : Bytes) : CacheManager :=
  { c with durableCacheStorage := c.durableCacheStorage.insert key value }

/-- `durable_cache_storage_.remove`. -/
def removeCached : CacheManager :=
  { c with durableCacheStorage := c.durableCacheStorage.erase key }

/-- `key_storage_.contains`. -/
def isRegistered : Bool := c.keyStorage.contains key

/-- The second look at `key_storage_`, before the key is appended. -/
def registerKey : CacheManager :=
  if c.keyStorage.contains key then c else { c with keyStorage := c.keyStorage ++ [key] }

/-- The loop over `key_storage_` that erases a key once. -/
def unregisterKey : CacheManager := { c with keyStorage := c.keyStorage.erase key }

/-- A saved value is dirty, and so is the registry when the key is new. -/
def markDirty (newKey : Bool) : CacheManager :=
  { c with dirtyKeys := c.dirtyKeys.insert key, registryDirty := c.registryDirty || newKey }

/-- Nothing is left to write for a key that was reset. -/
def markReset : CacheManager :=
  { c with dirtyKeys := c.dirtyKeys.filter (· ≠ key), registryDirty := true }

/-- A flush takes what is dirty. -/
def takeDirty : CacheManager := { c with dirtyKeys := [], registryDirty := false }

/-- `GetSecDataObject` under a key's name. -/
def stored : Option Bytes :=
  match c.objects.lookup (getDataObjectKey key) with
  | some (.buffer value) => some value
  | _ => none

/-- `StoreSecDataObj`: an object is replaced whole or not at all. -/
def storeValue (value : Bytes) (stores : Bool) : CacheManager :=
  if stores then { c with objects := c.objects.insert (getDataObjectKey key) (.buffer value) }
  else c

/-- `StoreDataObj` of the registry. -/
def storeRegistry (registry : List String) (stores : Bool) : CacheManager :=
  if stores then { c with objects := c.objects.insert drkKey (.keys registry) } else c

/-- `RemoveDataObj`. -/
def removeObject (removes : Bool) : CacheManager :=
  if removes then { c with objects := c.objects.erase (getDataObjectKey key) } else c

/-! ## The calls -/

/-- Which stores of a flush succeed. -/
structure StoreOutcomes where
  values : String → Bool
  registry : Bool

/-- Every store succeeds. -/
def StoreOutcomes.good : StoreOutcomes := ⟨fun _ => true, true⟩

/-- One round of the loop of `slot_flush_cache_storage`: a value that is gone or empty is
skipped. -/
def flushKey (env : StoreOutcomes) (c : CacheManager) (key : String) : CacheManager :=
  match c.cached key with
  | none => c
  | some value => if value.isEmpty then c else c.storeValue key value (env.values key)

/-- `slot_flush_cache_storage`. What could not be stored is not put back. -/
def slotFlushCacheStorage (env : StoreOutcomes) : CacheManager :=
  if c.dirtyKeys.isEmpty && !c.registryDirty then c
  else
    let flushed := c.dirtyKeys.foldl (flushKey env) c.takeDirty
    if c.registryDirty then flushed.storeRegistry flushed.keyStorage env.registry else flushed

/-- What `SaveSecDurableCache` changes before it flushes. -/
def saveUnflushed (value : Bytes) : CacheManager :=
  let newKey := !c.isRegistered key
  let c := c.insertCached key value
  let c := if newKey then c.registerKey key else c
  c.markDirty key newKey

/-- `SaveSecDurableCache`: a value that is held already is not saved, nor flushed. -/
def saveSecDurableCache (value : Bytes) (flush : Bool) (env : StoreOutcomes) : CacheManager :=
  if c.isRegistered key && c.cached key = some value then c
  else
    let c := c.saveUnflushed key value
    if flush then c.slotFlushCacheStorage env else c

/-- `load_cache_storage`, with no default. -/
def loadCacheStorage : Bytes := (c.stored key).getD []

/-- `LoadSecDurableCache`. -/
def loadSecDurableCache : Bytes × CacheManager :=
  let c := if (c.cached key).isSome then c else c.insertCached key (c.loadCacheStorage key)
  ((c.cached key).getD [], c)

/-- What `ResetDurableCache` changes before it flushes. -/
def resetUnflushed (removes : Bool) : CacheManager :=
  (((c.removeCached key).unregisterKey key).removeObject key removes).markReset key

/-- `ResetDurableCache`. -/
def resetDurableCache (removes : Bool) (env : StoreOutcomes) : Bool × CacheManager :=
  ((c.cached key).isSome, (c.resetUnflushed key removes).slotFlushCacheStorage env)

/-- `load_all_cache_storage`, on a new `CacheManager` over the objects on disk. -/
def loadAllCacheStorage (objects : AList fun _ : String => CacheObject) (stores : Bool) :
    CacheManager :=
  let c : CacheManager := { objects }
  match objects.lookup drkKey with
  | some (.keys registry) =>
    { registry.foldl (fun c key => c.insertCached key (c.loadCacheStorage key)) c with
      keyStorage := registry }
  | _ => c.storeRegistry [] stores

/-! ## What each section leaves as it is -/

theorem getDataObjectKey_inj {a b : String} (h : getDataObjectKey a = getDataObjectKey b) :
    a = b := by
  have hlist := congrArg String.toList h
  rw [getDataObjectKey, getDataObjectKey, String.toList_append, String.toList_append] at hlist
  exact String.toList_inj.mp (List.append_cancel_left hlist)

/-- No value lies under the name of the registry. -/
theorem getDataObjectKey_ne_drkKey (key : String) : getDataObjectKey key ≠ drkKey := by
  intro h
  have hlist := congrArg (fun s => s.toList.take 9) h
  rw [getDataObjectKey, String.toList_append, List.take_append_of_le_length (by decide)] at hlist
  exact absurd hlist (by decide)

variable {c key} {other : String} {value : Bytes} {env : StoreOutcomes}

@[simp] theorem cached_insertCached_self : (c.insertCached key value).cached key = some value :=
  AList.lookup_insert c.durableCacheStorage

theorem cached_insertCached_ne (h : other ≠ key) :
    (c.insertCached key value).cached other = c.cached other :=
  AList.lookup_insert_ne h

@[simp] theorem cached_removeCached_self : (c.removeCached key).cached key = none :=
  AList.lookup_erase key c.durableCacheStorage

theorem cached_removeCached_ne (h : other ≠ key) :
    (c.removeCached key).cached other = c.cached other :=
  AList.lookup_erase_ne h

theorem stored_congr {c' : CacheManager} (h : c'.objects = c.objects) :
    c'.stored key = c.stored key := by
  rw [stored, stored, h]

theorem stored_storeValue_self : (c.storeValue key value true).stored key = some value := by
  rw [storeValue, if_pos rfl, stored]
  dsimp only
  rw [AList.lookup_insert]

theorem stored_storeValue_ne {stores : Bool} (h : other ≠ key) :
    (c.storeValue key value stores).stored other = c.stored other := by
  unfold storeValue
  split
  · rw [stored, stored]
    dsimp only
    rw [AList.lookup_insert_ne fun heq => h (getDataObjectKey_inj heq)]
  · rfl

theorem stored_storeRegistry {registry : List String} {stores : Bool} :
    (c.storeRegistry registry stores).stored key = c.stored key := by
  unfold storeRegistry
  split
  · rw [stored, stored]
    dsimp only
    rw [AList.lookup_insert_ne (getDataObjectKey_ne_drkKey key)]
  · rfl

theorem stored_removeObject_self : (c.removeObject key true).stored key = none := by
  rw [removeObject, if_pos rfl, stored]
  dsimp only
  rw [AList.lookup_erase]

theorem stored_removeObject_ne {removes : Bool} (h : other ≠ key) :
    (c.removeObject key removes).stored other = c.stored other := by
  unfold removeObject
  split
  · rw [stored, stored]
    dsimp only
    rw [AList.lookup_erase_ne fun heq => h (getDataObjectKey_inj heq)]
  · rfl

/-! ## A flush -/

/-- The value a flush writes for a dirty key. -/
def flushedValue (env : StoreOutcomes) (c : CacheManager) (key : String) : Option Bytes :=
  match c.cached key with
  | none => none
  | some value => if value.isEmpty || !env.values key then none else some value

theorem flushedValue_congr {c' : CacheManager} (h : c'.cached key = c.cached key) :
    flushedValue env c' key = flushedValue env c key := by
  rw [flushedValue, flushedValue, h]

theorem cached_flushKey : (flushKey env c key).cached other = c.cached other := by
  unfold flushKey storeValue
  split
  · rfl
  · split
    · rfl
    · split <;> rfl

theorem stored_flushKey_self :
    (flushKey env c key).stored key = (flushedValue env c key).or (c.stored key) := by
  unfold flushKey flushedValue
  split
  · rfl
  · split
    · next hempty => rw [hempty, Bool.true_or, if_pos rfl, Option.none_or]
    · next hempty =>
      rw [Bool.not_eq_true] at hempty
      rw [hempty, Bool.false_or]
      cases hstores : env.values key with
      | true =>
        rw [stored_storeValue_self]
        rfl
      | false => rfl

theorem stored_flushKey_ne (h : other ≠ key) : (flushKey env c key).stored other = c.stored other := by
  unfold flushKey
  split
  · rfl
  · split
    · rfl
    · exact stored_storeValue_ne h

theorem cached_flushKeys (keys : List String) :
    (keys.foldl (flushKey env) c).cached key = c.cached key := by
  induction keys generalizing c with
  | nil => rfl
  | cons first keys ih => exact ih.trans cached_flushKey

theorem stored_flushKeys (keys : List String) :
    (keys.foldl (flushKey env) c).stored key =
      if key ∈ keys then (flushedValue env c key).or (c.stored key) else c.stored key := by
  induction keys generalizing c with
  | nil => rw [if_neg List.not_mem_nil, List.foldl_nil]
  | cons first keys ih =>
    rw [List.foldl_cons, ih, flushedValue_congr cached_flushKey]
    by_cases hfirst : key = first
    · subst hfirst
      rw [if_pos List.mem_cons_self, stored_flushKey_self]
      split
      · rw [← Option.or_assoc, Option.or_self]
      · rfl
    · rw [stored_flushKey_ne hfirst]
      simp only [List.mem_cons, hfirst, false_or]

theorem cached_slotFlushCacheStorage : (c.slotFlushCacheStorage env).cached key = c.cached key := by
  unfold slotFlushCacheStorage storeRegistry
  split
  · rfl
  · dsimp only
    split
    · split
      · exact cached_flushKeys _
      · exact cached_flushKeys _
    · exact cached_flushKeys _

theorem dirtyKeys_slotFlushCacheStorage : (c.slotFlushCacheStorage env).dirtyKeys = [] := by
  have hkey : ∀ (c : CacheManager) (key : String), (flushKey env c key).dirtyKeys = c.dirtyKeys := by
    intro c key
    unfold flushKey storeValue
    split
    · rfl
    · split
      · rfl
      · split <;> rfl
  have hkeys : ∀ (keys : List String) (c : CacheManager),
      (keys.foldl (flushKey env) c).dirtyKeys = c.dirtyKeys := by
    intro keys
    induction keys with
    | nil => exact fun c => rfl
    | cons first keys ih => exact fun c => (ih _).trans (hkey c first)
  unfold slotFlushCacheStorage storeRegistry
  split
  · next hclean =>
    rw [Bool.and_eq_true, List.isEmpty_iff] at hclean
    exact hclean.1
  · dsimp only
    split
    · split
      · exact hkeys _ _
      · exact hkeys _ _
    · exact hkeys _ _

/-- A flush writes the dirty keys whose value is there, not empty, and stored. -/
theorem stored_slotFlushCacheStorage :
    (c.slotFlushCacheStorage env).stored key =
      if key ∈ c.dirtyKeys then (flushedValue env c key).or (c.stored key) else c.stored key := by
  have htake : flushedValue env c.takeDirty key = flushedValue env c key :=
    flushedValue_congr rfl
  unfold slotFlushCacheStorage
  split
  · next hclean =>
    rw [Bool.and_eq_true, List.isEmpty_iff] at hclean
    rw [hclean.1, if_neg List.not_mem_nil]
  · dsimp only
    split
    · rw [stored_storeRegistry, stored_flushKeys, htake]
      rfl
    · rw [stored_flushKeys, htake]
      rfl

/-! ## A restart -/

theorem cached_loadKeys (keys : List String) {value : Bytes}
    (h : (keys.foldl (fun c key => c.insertCached key (c.loadCacheStorage key)) c).cached key =
      some value) :
    c.cached key = some value ∨ value = c.loadCacheStorage key := by
  induction keys generalizing c with
  | nil => exact .inl h
  | cons first keys ih =>
    rcases ih h with hcached | hvalue
    · by_cases hfirst : key = first
      · subst hfirst
        exact .inr (Option.some.inj (cached_insertCached_self.symm.trans hcached)).symm
      · exact .inl ((cached_insertCached_ne hfirst).symm.trans hcached)
    · exact .inr hvalue

theorem objects_loadKeys (keys : List String) :
    (keys.foldl (fun c key => c.insertCached key (c.loadCacheStorage key)) c).objects =
      c.objects := by
  induction keys generalizing c with
  | nil => rfl
  | cons first keys ih => exact ih

/-- A restart reads what lies on disk, whether or not the key is registered. -/
theorem loadSecDurableCache_restart (stores : Bool) :
    ((loadAllCacheStorage c.objects stores).loadSecDurableCache key).1 = (c.stored key).getD [] := by
  have hload : ∀ m : CacheManager, m.stored key = c.stored key →
      (∀ value, m.cached key = some value → value = (c.stored key).getD []) →
      (m.loadSecDurableCache key).1 = (c.stored key).getD [] := by
    intro m hstored hcached
    unfold loadSecDurableCache
    dsimp only
    cases hm : m.cached key with
    | some value =>
      rw [Option.isSome_some, if_pos rfl, hm, hcached value hm]
      rfl
    | none =>
      rw [Option.isSome_none, if_neg Bool.false_ne_true, cached_insertCached_self,
        loadCacheStorage, hstored]
      rfl
  unfold loadAllCacheStorage
  dsimp only
  split
  · next registry _ =>
    refine hload _ (stored_congr (objects_loadKeys registry)) fun value hvalue => ?_
    rcases cached_loadKeys registry hvalue with hnone | hvalue
    · cases hnone
    · exact hvalue
  · refine hload _ stored_storeRegistry fun value hvalue => ?_
    unfold storeRegistry at hvalue
    split at hvalue
    · cases hvalue
    · cases hvalue

end CacheManager

end GpgFrontend
