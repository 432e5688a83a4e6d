import GpgFrontend.Base.Runs
import GpgFrontend.Base.SecretStream
import GpgFrontend.Base.Standing

/-!
# The passphrase cache (`cache.rs`)

An entry has two deadlines: a sliding one, renewed by every hit, and an absolute one from the
time it was put. The clock counts nanoseconds.

- `PasswordCache.get`, `put`, `remove`, `removeByFpr`, `clear`, `setTtl`: the code.
- `password_cache_valid`: **a hit is of the latest put, within both deadlines.**
-/

namespace GpgFrontend.Rpgp

/-! ## The code -/

def fromSecs (secs : Nat) : Nat := secs * 1000000000

def asSecs (duration : Nat) : Nat := duration / 1000000000

structure PasswordCacheKey where
  scope : String
  fpr : String
  info : String
  deriving Repr, DecidableEq

structure PasswordCacheEntry where
  secret : Bytes
  expiresAt : Nat
  hardExpiresAt : Nat
  deriving Repr, DecidableEq

structure PasswordCache where
  inner : AList fun _ : PasswordCacheKey => PasswordCacheEntry
  ttlSecs : Nat
  maxTtlSecs : Nat

-- `str::to_uppercase`
variable (toUppercase : String → String)

def PasswordCacheKey.fold (key : PasswordCacheKey) : PasswordCacheKey :=
  { key with fpr := toUppercase key.fpr }

namespace PasswordCache

/-- `PasswordCache::new`. -/
def new (ttl maxTtl : Nat) : PasswordCache :=
  ⟨∅, asSecs ttl, max (asSecs maxTtl) (asSecs ttl)⟩

variable (c : PasswordCache)

def ttl : Nat := fromSecs c.ttlSecs

def maxTtl : Nat := fromSecs c.maxTtlSecs

def setTtl (ttl maxTtl : Nat) : PasswordCache :=
  { c with ttlSecs := asSecs ttl, maxTtlSecs := max (asSecs maxTtl) (asSecs ttl) }

def get (key : PasswordCacheKey) (now : Nat) : Option Bytes × PasswordCache :=
  let key := key.fold toUppercase
  match c.inner.lookup key with
  | none => (none, c)
  | some entry =>
    if entry.expiresAt ≤ now ∨ entry.hardExpiresAt ≤ now then
      (none, { c with inner := c.inner.erase key })
    else
      let slid := { entry with expiresAt := min (now + c.ttl) entry.hardExpiresAt }
      (some entry.secret, { c with inner := c.inner.insert key slid })

def put (key : PasswordCacheKey) (value : Bytes) (now : Nat) : PasswordCache :=
  let ttl := min c.ttl c.maxTtl
  { c with inner := c.inner.insert (key.fold toUppercase) ⟨value, now + ttl, now + c.maxTtl⟩ }

def remove (key : PasswordCacheKey) : PasswordCache :=
  { c with inner := c.inner.erase (key.fold toUppercase) }

def removeByFpr (fpr : String) : PasswordCache :=
  { c with inner := AList.keep (fun k _ => k.fpr ≠ toUppercase fpr) c.inner }

def clear : PasswordCache := { c with inner := ∅ }

end PasswordCache

/-! ## Calls and runs -/

inductive PasswordCacheCall where
  | put (key : PasswordCacheKey) (value : Bytes)
  | get (key : PasswordCacheKey)
  | remove (key : PasswordCacheKey)
  | removeByFpr (fpr : String)
  | clear
  | setTtl (ttl maxTtl : Nat)
  deriving Repr, DecidableEq

/-- What a call returns, and what it leaves. -/
def PasswordCacheCall.apply (c : PasswordCache) (now : Nat) :
    PasswordCacheCall → Option Bytes × PasswordCache
  | .put key value => (none, c.put toUppercase key value now)
  | .get key => c.get toUppercase key now
  | .remove key => (none, c.remove toUppercase key)
  | .removeByFpr fpr => (none, c.removeByFpr toUppercase fpr)
  | .clear => (none, c.clear)
  | .setTtl ttl maxTtl => (none, c.setTtl ttl maxTtl)

/-- A call that was made: when, and what it returned. -/
structure PasswordCacheEvent where
  now : Nat
  call : PasswordCacheCall
  result : Option Bytes := none
  deriving Repr, DecidableEq

/-- The cache, and what was done to it, oldest first. -/
structure PasswordCacheRun where
  cache : PasswordCache
  log : List PasswordCacheEvent := []

def PasswordCacheRun.step (r : PasswordCacheRun) (i : Nat × PasswordCacheCall) :
    PasswordCacheRun where
  cache := (i.2.apply toUppercase r.cache i.1).2
  log := r.log ++ [⟨i.1, i.2, (i.2.apply toUppercase r.cache i.1).1⟩]

/-- The clock never goes back. -/
def PasswordCacheRun.ClockOk (r : PasswordCacheRun) (now : Nat) : Prop :=
  ∀ e ∈ r.log, e.now ≤ now

/-! ## What the log says -/

namespace PasswordCacheEvent

/-- Puts `value` under the folded key. -/
def Puts (key : PasswordCacheKey) (value : Bytes) (e : PasswordCacheEvent) : Prop :=
  ∃ k, e.call = .put k value ∧ k.fold toUppercase = key

/-- Ends what was put under the folded key before: another put, or one of the removals. -/
def Covers (key : PasswordCacheKey) (e : PasswordCacheEvent) : Prop :=
  match e.call with
  | .put k _ | .remove k => k.fold toUppercase = key
  | .removeByFpr fpr => toUppercase fpr = key.fpr
  | .clear => True
  | .get _ | .setTtl _ _ => False

/-- Renews the idle window of the folded key: a put, or a hit. -/
def Uses (key : PasswordCacheKey) (e : PasswordCacheEvent) : Prop :=
  match e.call with
  | .put k _ => k.fold toUppercase = key
  | .get k => k.fold toUppercase = key ∧ e.result.isSome = true
  | .remove _ | .removeByFpr _ | .clear | .setTtl _ _ => False

end PasswordCacheEvent

/-- The idle window and the hard maximum in force after the calls, from what the cache was
made with. -/
def ttlsAfter (ttl maxTtl : Nat) (log : List PasswordCacheEvent) : Nat × Nat :=
  log.foldl (fun ttls e =>
    match e.call with
    | .setTtl ttl maxTtl => (fromSecs (asSecs ttl), fromSecs (max (asSecs maxTtl) (asSecs ttl)))
    | _ => ttls) (fromSecs (asSecs ttl), fromSecs (max (asSecs maxTtl) (asSecs ttl)))

/-- `value` is of the latest put under the folded key, which no removal covers; it was put
less than the hard maximum ago, and last put or hit less than the idle window ago, each as
they were in force then. -/
def ValidHit (ttl maxTtl : Nat) (log : List PasswordCacheEvent) (key : PasswordCacheKey)
    (value : Bytes) (now : Nat) : Prop :=
  (∃ before e, StandsAt (PasswordCacheEvent.Covers toUppercase key) log before e ∧
    e.Puts toUppercase key value ∧ e.now ≤ now ∧ now - e.now < (ttlsAfter ttl maxTtl before).2) ∧
  (∃ before e, StandsAt (PasswordCacheEvent.Uses toUppercase key) log before e ∧
    e.Uses toUppercase key ∧ e.now ≤ now ∧ now - e.now < (ttlsAfter ttl maxTtl before).1)

/-! ## Every entry is the log's -/

variable {toUppercase}

variable {log : List PasswordCacheEvent}

theorem ttlsAfter_snoc {ttl maxTtl : Nat} {e : PasswordCacheEvent} (h : ∀ t m, e.call ≠ .setTtl t m) :
    ttlsAfter ttl maxTtl (log ++ [e]) = ttlsAfter ttl maxTtl log := by
  rw [ttlsAfter, List.foldl_append, List.foldl_cons, List.foldl_nil, ← ttlsAfter]
  cases hcall : e.call with
  | setTtl t m => exact absurd hcall (h t m)
  | _ => rfl

/-- An entry of a key: its deadlines are those of the latest put and of the latest use. -/
structure EntryOk (toUppercase : String → String) (ttl maxTtl : Nat)
    (log : List PasswordCacheEvent) (key : PasswordCacheKey) (entry : PasswordCacheEntry) :
    Prop where
  capped : entry.expiresAt ≤ entry.hardExpiresAt
  put : ∃ before e, StandsAt (PasswordCacheEvent.Covers toUppercase key) log before e ∧
    e.Puts toUppercase key entry.secret ∧
    entry.hardExpiresAt = e.now + (ttlsAfter ttl maxTtl before).2
  used : ∃ before e, StandsAt (PasswordCacheEvent.Uses toUppercase key) log before e ∧
    e.Uses toUppercase key ∧ entry.expiresAt ≤ e.now + (ttlsAfter ttl maxTtl before).1

/-- A call that neither ends the entry nor renews it. -/
theorem EntryOk.snoc {ttl maxTtl : Nat} {key : PasswordCacheKey} {entry : PasswordCacheEntry}
    {e : PasswordCacheEvent} (h : EntryOk toUppercase ttl maxTtl log key entry)
    (hcovers : ¬ e.Covers toUppercase key) (huses : ¬ e.Uses toUppercase key) :
    EntryOk toUppercase ttl maxTtl (log ++ [e]) key entry := by
  obtain ⟨hcapped, ⟨before, p, hstands, hputs⟩, ⟨before', u, hstands', husedAt⟩⟩ := h
  exact ⟨hcapped, ⟨before, p, hstands.snoc hcovers, hputs⟩, ⟨before', u, hstands'.snoc huses, husedAt⟩⟩

/-- The lifetimes are the ones in force, and every entry is the log's. -/
structure CacheInv (toUppercase : String → String) (ttl maxTtl : Nat) (r : PasswordCacheRun) :
    Prop where
  ttl_eq : r.cache.ttl = (ttlsAfter ttl maxTtl r.log).1
  maxTtl_eq : r.cache.maxTtl = (ttlsAfter ttl maxTtl r.log).2
  entries : ∀ key entry, r.cache.inner.lookup key = some entry →
    EntryOk toUppercase ttl maxTtl r.log key entry

namespace CacheInv

variable {ttl maxTtl : Nat} {r : PasswordCacheRun} {key : PasswordCacheKey} {now : Nat}

variable {inner : AList fun _ : PasswordCacheKey => PasswordCacheEntry}

/-- A call that keeps the lifetimes, and whose entries are each the log's after it. -/
theorem of_entries (h : CacheInv toUppercase ttl maxTtl r) {e : PasswordCacheEvent}
    (he : ∀ t m, e.call ≠ .setTtl t m)
    (hentries : ∀ key entry, inner.lookup key = some entry →
      EntryOk toUppercase ttl maxTtl (r.log ++ [e]) key entry) :
    CacheInv toUppercase ttl maxTtl ⟨{ r.cache with inner := inner }, r.log ++ [e]⟩ where
  ttl_eq := by
    rw [ttlsAfter_snoc he]
    exact h.ttl_eq
  maxTtl_eq := by
    rw [ttlsAfter_snoc he]
    exact h.maxTtl_eq
  entries := hentries

theorem put (h : CacheInv toUppercase ttl maxTtl r) (key : PasswordCacheKey) (value : Bytes)
    (now : Nat) :
    CacheInv toUppercase ttl maxTtl
      ⟨r.cache.put toUppercase key value now, r.log ++ [⟨now, .put key value, none⟩]⟩ := by
  refine h.of_entries (by simp) fun k entry hk => ?_
  by_cases hkey : k = key.fold toUppercase
  · subst hkey
    rw [AList.lookup_insert, Option.some.injEq] at hk
    subst hk
    refine ⟨Nat.add_le_add_left (min_le_right _ _) now, ?_, ?_⟩
    · exact ⟨r.log, _, .last, ⟨key, rfl, rfl⟩, by rw [← h.maxTtl_eq]⟩
    · refine ⟨r.log, _, .last, rfl, ?_⟩
      rw [← h.ttl_eq]
      exact Nat.add_le_add_left (min_le_left _ _) now
  · rw [AList.lookup_insert_ne hkey] at hk
    exact (h.entries k entry hk).snoc (Ne.symm hkey) (Ne.symm hkey)

theorem get (h : CacheInv toUppercase ttl maxTtl r) (key : PasswordCacheKey) (now : Nat) :
    CacheInv toUppercase ttl maxTtl
      ⟨(r.cache.get toUppercase key now).2,
        r.log ++ [⟨now, .get key, (r.cache.get toUppercase key now).1⟩]⟩ := by
  cases hfind : r.cache.inner.lookup (key.fold toUppercase) with
  | none =>
    have hget : r.cache.get toUppercase key now = (none, r.cache) := by
      simp only [PasswordCache.get, hfind]
    rw [hget]
    exact h.of_entries (by simp) fun k entry hk =>
      (h.entries k entry hk).snoc id (by simp [PasswordCacheEvent.Uses])
  | some entry =>
    by_cases hexpired : entry.expiresAt ≤ now ∨ entry.hardExpiresAt ≤ now
    · have hget : r.cache.get toUppercase key now
          = (none, { r.cache with inner := r.cache.inner.erase (key.fold toUppercase) }) := by
        simp only [PasswordCache.get, hfind, if_pos hexpired]
      rw [hget]
      refine h.of_entries (by simp) fun k entry' hk => ?_
      have hne : k ≠ key.fold toUppercase := by
        rintro rfl
        simp at hk
      rw [AList.lookup_erase_ne hne] at hk
      exact (h.entries k entry' hk).snoc id (by simp [PasswordCacheEvent.Uses])
    · let slid := { entry with expiresAt := min (now + r.cache.ttl) entry.hardExpiresAt }
      have hget : r.cache.get toUppercase key now = (some entry.secret,
          { r.cache with inner := r.cache.inner.insert (key.fold toUppercase) slid }) := by
        simp only [PasswordCache.get, hfind, if_neg hexpired]
        rfl
      rw [hget]
      refine h.of_entries (by simp) fun k entry' hk => ?_
      by_cases hkey : k = key.fold toUppercase
      · subst hkey
        rw [AList.lookup_insert, Option.some.injEq] at hk
        subst hk
        obtain ⟨-, ⟨before, p, hstands, hputs⟩, -⟩ := h.entries _ _ hfind
        -- a hit keeps the put, and is the latest use
        refine ⟨min_le_right _ _, ⟨before, p, hstands.snoc id, hputs⟩, r.log, _, .last, ⟨rfl, rfl⟩, ?_⟩
        rw [← h.ttl_eq]
        exact min_le_left _ _
      · rw [AList.lookup_insert_ne hkey] at hk
        exact (h.entries k entry' hk).snoc id fun huses => hkey huses.1.symm

/-- A call that takes out what it covers, and leaves the rest. -/
theorem remove (h : CacheInv toUppercase ttl maxTtl r) {e : PasswordCacheEvent}
    (he : ∀ t m, e.call ≠ .setTtl t m) (huses : ∀ key, ¬ e.Uses toUppercase key)
    (hinner : ∀ key entry, inner.lookup key = some entry →
      r.cache.inner.lookup key = some entry ∧ ¬ e.Covers toUppercase key) :
    CacheInv toUppercase ttl maxTtl ⟨{ r.cache with inner := inner }, r.log ++ [e]⟩ :=
  h.of_entries he fun key entry hk =>
    (h.entries key entry (hinner key entry hk).1).snoc (hinner key entry hk).2 (huses key)

theorem setTtl (h : CacheInv toUppercase ttl maxTtl r) (t m now : Nat) :
    CacheInv toUppercase ttl maxTtl ⟨r.cache.setTtl t m, r.log ++ [⟨now, .setTtl t m, none⟩]⟩ where
  ttl_eq := by
    rw [ttlsAfter, List.foldl_append]
    rfl
  maxTtl_eq := by
    rw [ttlsAfter, List.foldl_append]
    rfl
  entries key entry hk := (h.entries key entry hk).snoc id id

/-- **Every call keeps the invariant.** -/
theorem step (h : CacheInv toUppercase ttl maxTtl r) (i : Nat × PasswordCacheCall) :
    CacheInv toUppercase ttl maxTtl (r.step toUppercase i) := by
  obtain ⟨now, call⟩ := i
  cases call with
  | put key value => exact h.put key value now
  | get key => exact h.get key now
  | remove key =>
    refine h.remove (by simp) (fun _ => id) fun k entry hk => ?_
    have hne : k ≠ key.fold toUppercase := by
      rintro rfl
      simp at hk
    rw [AList.lookup_erase_ne hne] at hk
    exact ⟨hk, Ne.symm hne⟩
  | removeByFpr fpr =>
    refine h.remove (by simp) (fun _ => id) fun k entry hk => ?_
    obtain ⟨hbefore, hkept⟩ := AList.lookup_keep.mp hk
    exact ⟨hbefore, fun hcovers => of_decide_eq_true hkept hcovers.symm⟩
  | clear => exact h.remove (by simp) (fun _ => id) fun k entry hk => by simp at hk
  | setTtl t m => exact h.setTtl t m now

end CacheInv

/-- The runs from an empty cache; each call comes at a time no earlier than those before. -/
abbrev PasswordCacheReach (toUppercase : String → String) (ttl maxTtl : Nat) :
    PasswordCacheRun → Prop :=
  ReachableUnder (PasswordCacheRun.step toUppercase) (fun r i => r.ClockOk i.1)
    ⟨.new ttl maxTtl, []⟩

theorem PasswordCacheReach.inv {ttl maxTtl : Nat} {r : PasswordCacheRun}
    (h : PasswordCacheReach toUppercase ttl maxTtl r) : CacheInv toUppercase ttl maxTtl r := by
  refine ReachableUnder.inv h ⟨rfl, rfl, fun key entry hk => ?_⟩ fun _ i hinv _ => hinv.step i
  simp [PasswordCache.new] at hk

/-- An entry that is alive is a valid hit. -/
theorem CacheInv.validHit {ttl maxTtl : Nat} {r : PasswordCacheRun}
    (h : CacheInv toUppercase ttl maxTtl r) {key : PasswordCacheKey} {entry : PasswordCacheEntry}
    {now : Nat} (hclock : r.ClockOk now) (hfind : r.cache.inner.lookup key = some entry)
    (halive : now < entry.expiresAt) (hhard : now < entry.hardExpiresAt) :
    ValidHit toUppercase ttl maxTtl r.log key entry.secret now := by
  obtain ⟨-, ⟨before, p, hstands, hputs, heq⟩, before', u, hstands', huses, hle⟩ :=
    h.entries _ _ hfind
  have hput := hclock p hstands.mem
  have hused := hclock u hstands'.mem
  exact ⟨⟨before, p, hstands, hputs, hput, by omega⟩, before', u, hstands', huses, hused, by omega⟩

/-- What a hit says about the entry it found. -/
theorem PasswordCache.get_eq_some {c : PasswordCache} {key : PasswordCacheKey} {now : Nat}
    {value : Bytes} (h : (c.get toUppercase key now).1 = some value) :
    ∃ entry, c.inner.lookup (key.fold toUppercase) = some entry ∧ entry.secret = value ∧
      now < entry.expiresAt ∧ now < entry.hardExpiresAt := by
  simp only [PasswordCache.get] at h
  cases hfind : c.inner.lookup (key.fold toUppercase) with
  | none => simp [hfind] at h
  | some entry =>
    simp only [hfind] at h
    split at h
    · cases h
    · next halive => exact ⟨entry, rfl, Option.some.inj h, by omega, by omega⟩

/-- **A passphrase cache serves nothing outdated.** In every run of calls, on a clock that
never goes back: a hit is the value of the latest put of its scope, case-folded fingerprint
and info that no removal covers, put less than the hard maximum ago and used less than the
idle window ago; and no entry outlives its hard expiry. -/
theorem password_cache_valid {ttl maxTtl : Nat} {r : PasswordCacheRun}
    (h : PasswordCacheReach toUppercase ttl maxTtl r) :
    (∀ key now value, r.ClockOk now → (r.cache.get toUppercase key now).1 = some value →
      ValidHit toUppercase ttl maxTtl r.log (key.fold toUppercase) value now) ∧
    ∀ key entry, r.cache.inner.lookup key = some entry → entry.expiresAt ≤ entry.hardExpiresAt := by
  refine ⟨fun key now value hclock hget => ?_, fun key entry hk => (h.inv.entries key entry hk).capped⟩
  obtain ⟨entry, hfind, rfl, halive, hhard⟩ := PasswordCache.get_eq_some hget
  exact h.inv.validHit hclock hfind halive hhard

section Sample

def sampleCacheKey : PasswordCacheKey := ⟨"channel:0", "DEADBEEF", "DECRYPT"⟩

/-- A passphrase put at time 5 and read one second later. -/
theorem password_cache_valid_hit :
    ValidHit id 600000000000 7200000000000 [⟨5, .put sampleCacheKey [42], none⟩]
      (sampleCacheKey.fold id) [42] 1000000005 := by
  let r := PasswordCacheRun.step id ⟨.new 600000000000 7200000000000, []⟩ (5, .put sampleCacheKey [42])
  have hrun : PasswordCacheReach id 600000000000 7200000000000 r :=
    .next _ .start (fun e he => absurd he List.not_mem_nil)
  have hclock : r.ClockOk 1000000005 := by
    intro e he
    obtain rfl : e = ⟨5, .put sampleCacheKey [42], none⟩ := List.mem_singleton.mp he
    decide
  exact (password_cache_valid hrun).1 sampleCacheKey 1000000005 [42] hclock (by decide)

end Sample

/-! ## The lookup (`utils.rs`) -/

inductive PasswordCachePolicy where
  | default
  | bypass
  | refresh
  deriving Repr, DecidableEq

/-- `channel_scope`: the resource registered for the channel, or the channel number. -/
def channelScope (scopes : Int → Option String) (channel : Int) : String :=
  (scopes channel).getD s!"channel:{channel}"

/-- The key that a fetch looks under. -/
def fetchKey (toUppercase : String → String) (scopes : Int → Option String) (channel : Int)
    (fpr info : String) : PasswordCacheKey :=
  ⟨channelScope scopes channel, toUppercase fpr, toUppercase info⟩

/-- Without a fingerprint there is nothing to look under. -/
def effectivePolicy (toUppercase : String → String) (policy : PasswordCachePolicy) (fpr : String) :
    PasswordCachePolicy :=
  if toUppercase fpr = "" then .bypass else policy

/-- The calls of `fetch_password_with_cache` before the user is asked: a cached passphrase
ends it there. -/
def fetchCached (toUppercase : String → String) (policy : PasswordCachePolicy)
    (key : PasswordCacheKey) (now : Nat) (cache : Option PasswordCache) :
    Option Bytes × Option PasswordCache :=
  match policy, cache with
  | .default, some c => ((c.get toUppercase key now).1, some (c.get toUppercase key now).2)
  | .refresh, some c => (none, some (c.remove toUppercase key))
  | _, cache => (none, cache)

/-- `fetch_password_with_cache`; `fetched` is what the callback gives, and `later` the time it
gives it. -/
def fetchPasswordWithCache {ε : Type} (toUppercase : String → String) (policy : PasswordCachePolicy)
    (scopes : Int → Option String) (channel : Int) (fpr info : String) (now later : Nat)
    (fetched : Except ε Bytes) (cache : Option PasswordCache) :
    Except ε Bytes × Option PasswordCache :=
  let key := fetchKey toUppercase scopes channel fpr info
  let policy := effectivePolicy toUppercase policy fpr
  match fetchCached toUppercase policy key now cache with
  | (some pwd, cache) => (.ok pwd, cache)
  | (none, cache) =>
    match fetched with
    | .error e => (.error e, cache)
    | .ok pwd =>
      (.ok pwd, if policy = .bypass then cache else cache.map fun c => c.put toUppercase key pwd later)

/-- A passphrase is the cache's only under the default policy, and then it is as valid as a
hit is; any other is the one the callback gave. -/
theorem fetch_cached_valid {ε : Type} {ttl maxTtl : Nat} {r : PasswordCacheRun}
    (h : PasswordCacheReach toUppercase ttl maxTtl r) {policy : PasswordCachePolicy}
    {scopes : Int → Option String} {channel : Int} {fpr info : String} {now later : Nat}
    {fetched : Except ε Bytes} {value : Bytes} (hclock : r.ClockOk now)
    (hfetch : (fetchPasswordWithCache toUppercase policy scopes channel fpr info now later fetched
      (some r.cache)).1 = .ok value) :
    fetched = .ok value ∨ (policy = .default ∧ toUppercase fpr ≠ "" ∧
      ValidHit toUppercase ttl maxTtl r.log
        ((fetchKey toUppercase scopes channel fpr info).fold toUppercase) value now) := by
  let key := fetchKey toUppercase scopes channel fpr info
  -- the callback's answer is returned as it is
  have hasked : ∀ policy' cache', fetchCached toUppercase policy' key now (some r.cache) =
      (none, cache') → effectivePolicy toUppercase policy fpr = policy' → fetched = .ok value := by
    intro policy' cache' hcached hpolicy
    simp only [fetchPasswordWithCache, hpolicy, key] at hfetch hcached
    rw [hcached] at hfetch
    cases fetched with
    | error e => cases hfetch
    | ok pwd => exact hfetch
  by_cases hfpr : toUppercase fpr = ""
  · exact Or.inl (hasked .bypass _ rfl (if_pos hfpr))
  · have heffective : effectivePolicy toUppercase policy fpr = policy := if_neg hfpr
    cases policy with
    | bypass => exact Or.inl (hasked .bypass _ rfl heffective)
    | refresh => exact Or.inl (hasked .refresh _ rfl heffective)
    | default =>
      cases hget : (r.cache.get toUppercase key now).1 with
      | none => exact Or.inl (hasked .default _ (by rw [fetchCached, hget]) heffective)
      | some pwd =>
        have hpwd : pwd = value := by
          have hcached : fetchCached toUppercase .default key now (some r.cache)
              = (some pwd, some (r.cache.get toUppercase key now).2) := by rw [fetchCached, hget]
          simp only [fetchPasswordWithCache, heffective] at hfetch
          rw [show fetchKey toUppercase scopes channel fpr info = key from rfl, hcached] at hfetch
          exact Except.ok.inj hfetch
        subst hpwd
        obtain ⟨entry, hfind, rfl, halive, hhard⟩ := PasswordCache.get_eq_some hget
        exact Or.inr ⟨rfl, hfpr, h.inv.validHit hclock hfind halive hhard⟩

/-- The same passphrase, through the lookup: nobody is asked. -/
theorem fetch_cached_valid_hit :
    ValidHit id 600000000000 7200000000000 [⟨5, .put sampleCacheKey [42], none⟩]
      ((fetchKey id (fun _ => none) 0 "DEADBEEF" "DECRYPT").fold id) [42] 1000000005 := by
  let r := PasswordCacheRun.step id ⟨.new 600000000000 7200000000000, []⟩ (5, .put sampleCacheKey [42])
  have hrun : PasswordCacheReach id 600000000000 7200000000000 r :=
    .next _ .start (fun e he => absurd he List.not_mem_nil)
  have hclock : r.ClockOk 1000000005 := by
    intro e he
    obtain rfl : e = ⟨5, .put sampleCacheKey [42], none⟩ := List.mem_singleton.mp he
    decide
  have hfetch : (fetchPasswordWithCache id .default (fun _ => none) 0 "DEADBEEF" "DECRYPT" 1000000005
      0 (.error () : Except Unit Bytes) (some r.cache)).1 = .ok [42] := by decide
  exact ((fetch_cached_valid hrun hclock hfetch).resolve_left nofun).2.2

end GpgFrontend.Rpgp
