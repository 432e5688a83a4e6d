import Mathlib.Data.List.Induction
import GpgFrontend.Function.CacheManager

/-!
# What a restart finds in the durable cache

The calls of a `CacheManager` one after the other, every store and removal succeeding or
failing. A flush takes the dirty set before it stores, and puts nothing back.

- `CacheAction`, `CacheManager.step`, `CacheManager.run`; `lastSaved`: what was saved last.
- `Settled`: memory holds what was saved last, and so does the disk, but for what is dirty
  and not empty.
- `restart_returns_last_saved_iff`: **after every call of a run, a good flush and a restart
  return what was saved last, exactly when every call of the run keeps to that.**
-/

namespace GpgFrontend

namespace CacheManager

/-- A call from outside; `SaveDurableCache` and `LoadDurableCache` are the same calls with
the text of a JSON document. -/
inductive CacheAction where
  | saveSecDurableCache (key : String) (value : Bytes) (flush : Bool) (env : StoreOutcomes)
  | loadSecDurableCache (key : String)
  | resetDurableCache (key : String) (removes : Bool) (env : StoreOutcomes)
  | flushCacheStorage (env : StoreOutcomes)

def step (c : CacheManager) : CacheAction → CacheManager
  | .saveSecDurableCache key value flush env => c.saveSecDurableCache key value flush env
  | .loadSecDurableCache key => (c.loadSecDurableCache key).2
  | .resetDurableCache key removes env => (c.resetDurableCache key removes env).2
  | .flushCacheStorage env => c.slotFlushCacheStorage env

def run (c : CacheManager) (actions : List CacheAction) : CacheManager := actions.foldl step c

/-- The values as they were saved last; nothing reads as the empty value. -/
def CacheAction.saves (last : String → Bytes) : CacheAction → String → Bytes
  | .saveSecDurableCache key value _ _ => Function.update last key value
  | .resetDurableCache key _ _ => Function.update last key []
  | .loadSecDurableCache _ | .flushCacheStorage _ => last

def lastSaved (first : String → Bytes) (actions : List CacheAction) : String → Bytes :=
  actions.foldl CacheAction.saves first

/-- What a restart returns, after a flush whose stores all succeed. -/
def restartedValue (c : CacheManager) (key : String) : Bytes :=
  ((loadAllCacheStorage (c.slotFlushCacheStorage .good).objects true).loadSecDurableCache key).1

variable {c : CacheManager} {last : String → Bytes} {key other : String} {value : Bytes}
  {env : StoreOutcomes}

/-! ## What a state owes the disk -/

/-- Memory holds what was saved last, and every dirty key is held. -/
structure Coherent (c : CacheManager) (last : String → Bytes) : Prop where
  cached : ∀ ⦃key value⦄, c.cached key = some value → value = last key
  dirty : ∀ key ∈ c.dirtyKeys, c.cached key ≠ none

/-- The disk holds what was saved last, but for the dirty keys a flush will write. -/
def OnDisk (c : CacheManager) (last : String → Bytes) : Prop :=
  ∀ key, (key ∈ c.dirtyKeys → last key = []) → (c.stored key).getD [] = last key

structure Settled (c : CacheManager) (last : String → Bytes) : Prop extends Coherent c last where
  onDisk : OnDisk c last

theorem Coherent.cached_of_dirty (h : Coherent c last) (hkey : key ∈ c.dirtyKeys) :
    c.cached key = some (last key) := by
  cases hcached : c.cached key with
  | none => exact absurd hcached (h.dirty key hkey)
  | some value => rw [h.cached hcached]

theorem Coherent.flushedValue_of_dirty (h : Coherent c last) (hkey : key ∈ c.dirtyKeys) :
    flushedValue env c key =
      if (last key).isEmpty || !env.values key then none else some (last key) := by
  rw [flushedValue, h.cached_of_dirty hkey]

theorem restartedValue_eq :
    c.restartedValue key = ((c.slotFlushCacheStorage .good).stored key).getD [] :=
  loadSecDurableCache_restart true

/-- A good flush and a restart return what was saved last exactly from these states. -/
theorem restartedValue_iff (h : Coherent c last) :
    (∀ key, c.restartedValue key = last key) ↔ OnDisk c last := by
  refine forall_congr' fun key => ?_
  rw [restartedValue_eq, stored_slotFlushCacheStorage]
  by_cases hkey : key ∈ c.dirtyKeys
  · rw [if_pos hkey, h.flushedValue_of_dirty hkey]
    cases hlast : last key with
    | nil => exact ⟨fun hstored _ => hstored, fun hstored => hstored fun _ => rfl⟩
    | cons b bytes => exact iff_of_true rfl fun hnil => absurd (hnil hkey) (List.cons_ne_nil b bytes)
  · rw [if_neg hkey]
    exact ⟨fun hstored _ => hstored, fun hstored => hstored fun hdirty => absurd hdirty hkey⟩

/-- A flush stores every value that the disk does not hold. -/
def FlushStores (env : StoreOutcomes) (c : CacheManager) : Prop :=
  ∀ key ∈ c.dirtyKeys, ∀ value, c.cached key = some value → value ≠ [] →
    env.values key = true ∨ c.stored key = some value

/-- A call that loses nothing. -/
def CallKeeps (c : CacheManager) : CacheAction → Prop
  | .saveSecDurableCache key value flush env =>
    (c.isRegistered key && c.cached key = some value) = true ∨
      (value = [] → (c.stored key).getD [] = []) ∧
        (flush = true → FlushStores env (c.saveUnflushed key value))
  | .loadSecDurableCache _ => True
  | .resetDurableCache key removes env =>
    (removes = true ∨ (c.stored key).getD [] = []) ∧ FlushStores env (c.resetUnflushed key removes)
  | .flushCacheStorage env => FlushStores env c

/-! ## What each call does to it -/

theorem coherent_flush (h : Coherent c last) : Coherent (c.slotFlushCacheStorage env) last where
  cached key value hvalue := h.cached (cached_slotFlushCacheStorage.symm.trans hvalue)
  dirty key hkey := by
    rw [dirtyKeys_slotFlushCacheStorage] at hkey
    exact absurd hkey List.not_mem_nil

theorem onDisk_flush_iff (h : Settled c last) :
    OnDisk (c.slotFlushCacheStorage env) last ↔ FlushStores env c := by
  constructor
  · intro hdisk key hkey value hvalue hne
    have hstored := hdisk key fun hdirty => by
      rw [dirtyKeys_slotFlushCacheStorage] at hdirty
      exact absurd hdirty List.not_mem_nil
    have hlast := h.cached hvalue
    cases hstores : env.values key with
    | true => exact .inl rfl
    | false =>
      rw [stored_slotFlushCacheStorage, if_pos hkey, h.flushedValue_of_dirty hkey, hstores,
        Bool.not_false, Bool.or_true, if_pos rfl, Option.none_or, ← hlast] at hstored
      cases hold : c.stored key with
      | none =>
        rw [hold] at hstored
        exact absurd hstored.symm hne
      | some old =>
        rw [hold] at hstored
        exact .inr (congrArg some hstored)
  · intro hstores key _
    rw [stored_slotFlushCacheStorage]
    by_cases hkey : key ∈ c.dirtyKeys
    · rw [if_pos hkey, h.flushedValue_of_dirty hkey]
      by_cases hempty : last key = []
      · rw [hempty]
        exact (h.onDisk key fun _ => hempty).trans hempty
      · rw [List.isEmpty_eq_false_iff.mpr hempty, Bool.false_or]
        rcases hstores key hkey (last key) (h.cached_of_dirty hkey) hempty with hgood | hold
        · rw [hgood]
          rfl
        · rw [hold]
          split <;> rfl
    · rw [if_neg hkey]
      exact h.onDisk key fun hdirty => absurd hdirty hkey

theorem cached_saveUnflushed :
    (c.saveUnflushed key value).cached other = if other = key then some value else c.cached other := by
  have hinsert : (c.insertCached key value).cached other =
      if other = key then some value else c.cached other := by
    split
    · next heq => rw [heq, cached_insertCached_self]
    · next hne => rw [cached_insertCached_ne hne]
  rw [← hinsert]
  unfold saveUnflushed registerKey
  dsimp only
  split
  · split <;> rfl
  · rfl

theorem mem_dirtyKeys_saveUnflushed :
    other ∈ (c.saveUnflushed key value).dirtyKeys ↔ other = key ∨ other ∈ c.dirtyKeys := by
  unfold saveUnflushed registerKey
  dsimp only
  split
  · split <;> exact List.mem_insert_iff
  · exact List.mem_insert_iff

theorem stored_saveUnflushed : (c.saveUnflushed key value).stored other = c.stored other := by
  unfold saveUnflushed registerKey
  dsimp only
  split
  · split <;> rfl
  · rfl

theorem coherent_save (h : Coherent c last) :
    Coherent (c.saveUnflushed key value) (Function.update last key value) where
  cached other w hw := by
    rw [cached_saveUnflushed] at hw
    by_cases heq : other = key
    · subst heq
      rw [if_pos rfl] at hw
      rw [Function.update_self]
      exact (Option.some.inj hw).symm
    · rw [if_neg heq] at hw
      rw [Function.update_of_ne heq]
      exact h.cached hw
  dirty other hother := by
    rw [cached_saveUnflushed]
    split
    · exact Option.some_ne_none value
    · next hne =>
      exact h.dirty other ((mem_dirtyKeys_saveUnflushed.mp hother).resolve_left hne)

theorem onDisk_save_iff (h : OnDisk c last) :
    OnDisk (c.saveUnflushed key value) (Function.update last key value) ↔
      (value = [] → (c.stored key).getD [] = []) := by
  constructor
  · intro hdisk hempty
    have hkey := hdisk key fun _ => by rw [Function.update_self, hempty]
    rwa [stored_saveUnflushed, Function.update_self, hempty] at hkey
  · intro hkey other hother
    rw [stored_saveUnflushed]
    by_cases heq : other = key
    · subst heq
      rw [Function.update_self] at hother ⊢
      have hempty : value = [] := hother (mem_dirtyKeys_saveUnflushed.mpr (.inl rfl))
      rw [hkey hempty, hempty]
    · rw [Function.update_of_ne heq] at hother ⊢
      exact h other fun hdirty => hother (mem_dirtyKeys_saveUnflushed.mpr (.inr hdirty))

variable {removes : Bool}

theorem cached_resetUnflushed :
    (c.resetUnflushed key removes).cached other = if other = key then none else c.cached other := by
  have hremove : (c.removeCached key).cached other = if other = key then none else c.cached other := by
    split
    · next heq => rw [heq, cached_removeCached_self]
    · next hne => rw [cached_removeCached_ne hne]
  rw [← hremove]
  unfold resetUnflushed removeObject
  split <;> rfl

theorem mem_dirtyKeys_resetUnflushed :
    other ∈ (c.resetUnflushed key removes).dirtyKeys ↔ other ∈ c.dirtyKeys ∧ other ≠ key := by
  unfold resetUnflushed removeObject
  split
  · exact List.mem_filter.trans (and_congr_right fun _ => decide_eq_true_iff)
  · exact List.mem_filter.trans (and_congr_right fun _ => decide_eq_true_iff)

theorem stored_resetUnflushed_ne (h : other ≠ key) :
    (c.resetUnflushed key removes).stored other = c.stored other :=
  stored_removeObject_ne (c := (c.removeCached key).unregisterKey key) h

theorem stored_resetUnflushed_self :
    (c.resetUnflushed key removes).stored key = if removes then none else c.stored key := by
  cases removes with
  | true => exact stored_removeObject_self (c := (c.removeCached key).unregisterKey key)
  | false => rfl

theorem coherent_reset (h : Coherent c last) :
    Coherent (c.resetUnflushed key removes) (Function.update last key []) where
  cached other w hw := by
    rw [cached_resetUnflushed] at hw
    split at hw
    · cases hw
    · next hne =>
      rw [Function.update_of_ne hne]
      exact h.cached hw
  dirty other hother := by
    obtain ⟨hdirty, hne⟩ := mem_dirtyKeys_resetUnflushed.mp hother
    rw [cached_resetUnflushed, if_neg hne]
    exact h.dirty other hdirty

theorem onDisk_reset_iff (h : OnDisk c last) :
    OnDisk (c.resetUnflushed key removes) (Function.update last key []) ↔
      removes = true ∨ (c.stored key).getD [] = [] := by
  constructor
  · intro hdisk
    have hkey := hdisk key fun _ => Function.update_self key [] last
    rw [stored_resetUnflushed_self, Function.update_self] at hkey
    cases removes with
    | true => exact .inl rfl
    | false => exact .inr hkey
  · intro hkey other hother
    by_cases heq : other = key
    · subst heq
      rw [stored_resetUnflushed_self, Function.update_self]
      split
      · rfl
      · next hremoves => exact hkey.resolve_left hremoves
    · rw [Function.update_of_ne heq] at hother ⊢
      rw [stored_resetUnflushed_ne heq]
      exact h other fun hdirty => hother (mem_dirtyKeys_resetUnflushed.mpr ⟨hdirty, heq⟩)

/-! ## One call, and a run of them -/

/-- A read keeps in memory what it found. -/
theorem settled_load (h : Settled c last) : Settled (c.loadSecDurableCache key).2 last := by
  unfold loadSecDurableCache
  dsimp only
  cases hkey : c.cached key with
  | some value => exact h
  | none =>
    rw [Option.isSome_none, if_neg Bool.false_ne_true]
    have hclean : key ∉ c.dirtyKeys := fun hdirty => h.dirty key hdirty hkey
    refine ⟨⟨fun other w hw => ?_, fun other hother => ?_⟩, h.onDisk⟩
    · by_cases heq : other = key
      · subst heq
        rw [cached_insertCached_self] at hw
        rw [← Option.some.inj hw, loadCacheStorage]
        exact h.onDisk other fun hdirty => absurd hdirty hclean
      · rw [cached_insertCached_ne heq] at hw
        exact h.cached hw
    · rw [cached_insertCached_ne fun heq : other = key => hclean (heq ▸ hother)]
      exact h.dirty other hother

/-- From a settled state, a call leads to one that can be restarted from exactly when it
keeps what it has to. -/
theorem onDisk_step_iff (h : Settled c last) (a : CacheAction) :
    Coherent (c.step a) (a.saves last) ∧
      (OnDisk (c.step a) (a.saves last) ↔ CallKeeps c a) := by
  cases a with
  | saveSecDurableCache key value flush env =>
    unfold step CallKeeps CacheAction.saves saveSecDurableCache
    dsimp only
    by_cases hheld : (c.isRegistered key && c.cached key = some value) = true
    · have hsame : Function.update last key value = last := by
        rw [Bool.and_eq_true, decide_eq_true_eq] at hheld
        rw [h.cached hheld.2, Function.update_eq_self]
      rw [if_pos hheld, hsame]
      exact ⟨h.toCoherent, iff_of_true h.onDisk (.inl hheld)⟩
    · rw [if_neg hheld]
      have hcoherent : Coherent (c.saveUnflushed key value) (Function.update last key value) :=
        coherent_save h.toCoherent
      have hdisk : OnDisk (c.saveUnflushed key value) (Function.update last key value) ↔
          (value = [] → (c.stored key).getD [] = []) := onDisk_save_iff h.onDisk
      cases flush with
      | false =>
        rw [if_neg Bool.false_ne_true]
        refine ⟨hcoherent, hdisk.trans ⟨fun hempty => .inr ⟨hempty, fun h => by cases h⟩, ?_⟩⟩
        exact fun hkeeps => (hkeeps.resolve_left hheld).1
      | true =>
        rw [if_pos rfl]
        refine ⟨coherent_flush hcoherent, fun hflushed => .inr ?_, fun hkeeps => ?_⟩
        · have hempty : value = [] → (c.stored key).getD [] = [] := fun hempty => by
            have hkey := hflushed key fun hdirty => by
              rw [dirtyKeys_slotFlushCacheStorage] at hdirty
              exact absurd hdirty List.not_mem_nil
            rwa [stored_slotFlushCacheStorage,
              if_pos (mem_dirtyKeys_saveUnflushed.mpr (.inl rfl)),
              hcoherent.flushedValue_of_dirty (mem_dirtyKeys_saveUnflushed.mpr (.inl rfl)),
              Function.update_self, hempty, List.isEmpty_nil, Bool.true_or, if_pos rfl,
              Option.none_or, stored_saveUnflushed] at hkey
          exact ⟨hempty, fun _ => (onDisk_flush_iff ⟨hcoherent, hdisk.mpr hempty⟩).mp hflushed⟩
        · obtain ⟨hempty, hstores⟩ := hkeeps.resolve_left hheld
          exact (onDisk_flush_iff ⟨hcoherent, hdisk.mpr hempty⟩).mpr (hstores rfl)
  | loadSecDurableCache key =>
    have hsettled : Settled (c.loadSecDurableCache key).2 last := settled_load h
    exact ⟨hsettled.toCoherent, iff_of_true hsettled.onDisk trivial⟩
  | resetDurableCache key removes env =>
    unfold step CallKeeps CacheAction.saves resetDurableCache
    dsimp only
    have hcoherent : Coherent (c.resetUnflushed key removes) (Function.update last key []) :=
      coherent_reset h.toCoherent
    have hdisk : OnDisk (c.resetUnflushed key removes) (Function.update last key []) ↔
        removes = true ∨ (c.stored key).getD [] = [] := onDisk_reset_iff h.onDisk
    refine ⟨coherent_flush hcoherent, fun hflushed => ?_, fun hkeeps => ?_⟩
    · have hgone : OnDisk (c.resetUnflushed key removes) (Function.update last key []) := by
        refine hdisk.mpr ?_
        have hkey := hflushed key fun _ => Function.update_self key [] last
        rw [stored_slotFlushCacheStorage, if_neg fun hdirty =>
          (mem_dirtyKeys_resetUnflushed.mp hdirty).2 rfl, stored_resetUnflushed_self,
          Function.update_self] at hkey
        cases removes with
        | true => exact .inl rfl
        | false => exact .inr hkey
      exact ⟨hdisk.mp hgone, (onDisk_flush_iff ⟨hcoherent, hgone⟩).mp hflushed⟩
    · exact (onDisk_flush_iff ⟨hcoherent, hdisk.mpr hkeeps.1⟩).mpr hkeeps.2
  | flushCacheStorage env => exact ⟨coherent_flush h.toCoherent, onDisk_flush_iff h⟩

/-- A new cache holds in memory what it read. -/
theorem settled_start (objects : AList fun _ : String => CacheObject) (stores : Bool) :
    Settled (loadAllCacheStorage objects stores) fun key =>
      ((loadAllCacheStorage objects stores).stored key).getD [] := by
  unfold loadAllCacheStorage
  dsimp only
  split
  · next registry _ =>
    refine ⟨⟨fun key value hvalue => ?_, fun key hkey => ?_⟩, fun key _ => rfl⟩
    · rw [show value = _ from (cached_loadKeys registry hvalue).resolve_left (fun h => by cases h)]
      exact congrArg (Option.getD · []) (stored_congr (objects_loadKeys registry)).symm
    · have hclean : ∀ (keys : List String) (c : CacheManager),
          (keys.foldl (fun c key => c.insertCached key (c.loadCacheStorage key)) c).dirtyKeys =
            c.dirtyKeys := by
        intro keys
        induction keys with
        | nil => exact fun c => rfl
        | cons first keys ih => exact fun c => ih _
      rw [show _ = _ from hclean registry { objects }] at hkey
      cases hkey
  · refine ⟨⟨fun key value hvalue => ?_, fun key hkey => ?_⟩, fun key _ => rfl⟩
    · unfold storeRegistry at hvalue
      split at hvalue
      · cases hvalue
      · cases hvalue
    · unfold storeRegistry at hkey
      split at hkey
      · cases hkey
      · cases hkey

theorem settled_run {actions : List CacheAction} (h : Settled c last)
    (hkeeps : ∀ done a, done ++ [a] <+: actions → CallKeeps (c.run done) a) :
    Settled (c.run actions) (lastSaved last actions) := by
  induction actions using List.reverseRecOn with
  | nil => exact h
  | append_singleton actions a ih =>
    have hactions := ih fun done b hdone => hkeeps done b (hdone.trans (List.prefix_append _ _))
    have hstep := onDisk_step_iff hactions a
    rw [run, lastSaved, List.foldl_append, List.foldl_append]
    exact ⟨hstep.1, hstep.2.mpr (hkeeps actions a (List.prefix_refl _))⟩

/-- **A restart after a good flush returns what was saved last** at every point of a run,
exactly when every call of the run keeps what it has to. -/
theorem restart_returns_last_saved_iff (objects : AList fun _ : String => CacheObject)
    (stores : Bool) (actions : List CacheAction) :
    let start := loadAllCacheStorage objects stores
    let first := fun key => (start.stored key).getD []
    (∀ done, done <+: actions →
        ∀ key, (start.run done).restartedValue key = lastSaved first done key) ↔
      ∀ done a, done ++ [a] <+: actions → CallKeeps (start.run done) a := by
  intro start first
  have hstart : Settled start first := settled_start objects stores
  constructor
  · intro hrestarts
    induction actions using List.reverseRecOn with
    | nil =>
      intro done a hdone
      exact absurd (List.prefix_nil.mp hdone) (by simp)
    | append_singleton actions a ih =>
      have hactions := ih fun done hdone => hrestarts done (hdone.trans (List.prefix_append _ _))
      intro done b hdone
      rcases List.prefix_concat_iff.mp hdone with heq | hfront
      · obtain ⟨rfl, hab⟩ := List.append_inj' heq rfl
        obtain rfl := List.singleton_inj.mp hab
        have hstep := onDisk_step_iff (settled_run hstart hactions) b
        have hlast := hrestarts _ (List.prefix_refl (done ++ [b]))
        rw [run, lastSaved, List.foldl_append, List.foldl_append] at hlast
        exact hstep.2.mp ((restartedValue_iff hstep.1).mp hlast)
      · exact hactions done b hfront
  · intro hkeeps done hdone
    have hsettled := settled_run hstart fun before a hbefore =>
      hkeeps before a (hbefore.trans hdone)
    exact (restartedValue_iff hsettled.toCoherent).mpr hsettled.onDisk

/-- A store that failed is not made again, and an empty value never replaces one on disk. -/
theorem unsaved_values_are_lost :
    let start := loadAllCacheStorage ∅ true
    ((start.run [.saveSecDurableCache "k" [1] true ⟨fun _ => false, true⟩,
        .saveSecDurableCache "k" [1] true .good]).restartedValue "k" = [] ∧
      lastSaved (fun _ => []) [.saveSecDurableCache "k" [1] true ⟨fun _ => false, true⟩,
        .saveSecDurableCache "k" [1] true .good] "k" = [1]) ∧
    ((start.run [.saveSecDurableCache "k" [1] true .good,
        .saveSecDurableCache "k" [] true .good]).restartedValue "k" = [1] ∧
      lastSaved (fun _ => []) [.saveSecDurableCache "k" [1] true .good,
        .saveSecDurableCache "k" [] true .good] "k" = []) := by
  decide

end CacheManager

end GpgFrontend
