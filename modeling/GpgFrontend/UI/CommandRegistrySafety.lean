import GpgFrontend.UI.CommandTables

/-!
# Each call once, between its own parties

- `CommandInv`: the invariant; the locks are held by the frames that took them.
- `calls_delivered_once`: **in every run a `done` starts at most once, and never that of a refused
  `Invoke`; a call is completed by the owner of its provider, or by the registry once that is
  withdrawn, and cancelled by its caller; one that stays in the table is cancelled or served.**
-/

namespace GpgFrontend

variable {τ ρ : Type}

open CommandFrame CommandRegistry

/-! ## Locks -/

namespace CommandFrame

/-- The call whose `delivery` a frame has taken. -/
def holds : CommandFrame ρ → Option Nat
  | deliverErase c _ _ | deliverDecide c _ _ | deliverStart c _ _ | deliverEnd c
  | cancelClear c | cancelErase c => some c
  | _ => none

/-- A frame that may have others above it. -/
def waits : CommandFrame ρ → Bool
  | invokeAsking _ _ _ | running _ | calling _ | deliverEnd _ | invokeReturn _ _ | removeEnd _
  | cancelFind _ _ | deliverLock _ _ _ => true
  | _ => false

end CommandFrame

/-- How often frames have taken the `delivery` of a call. -/
def holdsOf (frames : List (CommandFrame ρ)) (c : Nat) : Nat :=
  frames.countP fun f => f.holds = some c

theorem Grown.delivery (k : PendingCall τ) (delivery : Option (τ × Nat)) :
    Grown k { k with delivery } :=
  ⟨rfl, rfl, rfl, id, id, .inl rfl⟩

theorem unlocked_grown (k : PendingCall τ) : Grown k (unlocked k) := by
  unfold unlocked
  split
  · exact .delivery k _
  · exact .delivery k _

/-- A frame that holds a lock knows the call. -/
theorem CommandFrame.Known.call {r : CommandRegistry τ ρ} {g : CommandFrame ρ} {c : Nat}
    (h : g.Known r) (hholds : g.holds = some c) : ∃ k, r.calls c = some k := by
  cases g with
  | deliverErase call by_ result =>
    obtain rfl := Option.some.inj hholds
    exact h.imp fun _ hk => hk.1
  | deliverDecide call by_ result =>
    obtain rfl := Option.some.inj hholds
    exact h.2.imp fun _ hk => hk.1
  | deliverStart call done result =>
    obtain rfl := Option.some.inj hholds
    exact h.2.imp fun _ hk => hk.1
  | deliverEnd call =>
    obtain rfl := Option.some.inj hholds
    exact h.2
  | cancelClear call =>
    obtain rfl := Option.some.inj hholds
    exact h.imp fun _ hk => hk.1
  | cancelErase call =>
    obtain rfl := Option.some.inj hholds
    exact h.imp fun _ hk => hk.1
  | _ => cases hholds

section Locks

variable [DecidableEq τ] {k k' : PendingCall τ} {t u : τ}

/-- How often a thread has a lock. -/
def depthOf (delivery : Option (τ × Nat)) (u : τ) : Nat :=
  match delivery with
  | none => 0
  | some (holder, depth) => if holder = u then depth else 0

theorem lockedBy_grown (h : lockedBy t k = some k') : Grown k k' := by
  unfold lockedBy at h
  split at h
  · rw [← Option.some.inj h]
    exact .delivery k _
  · split at h
    · rw [← Option.some.inj h]
      exact .delivery k _
    · cases h

/-- Locking adds one for the thread that locks. -/
theorem depthOf_lockedBy (h : lockedBy t k = some k') :
    depthOf k'.delivery u = depthOf k.delivery u + if t = u then 1 else 0 := by
  unfold lockedBy at h
  split at h
  · next hfree =>
    rw [← Option.some.inj h, hfree]
    exact (Nat.zero_add _).symm
  · next holder depth hheld =>
    split at h
    · next hown =>
      subst hown
      rw [← Option.some.inj h, hheld]
      show (if holder = u then depth + 1 else 0)
        = (if holder = u then depth else 0) + if holder = u then 1 else 0
      split <;> rfl
    · cases h

/-- Unlocking takes one from the thread that has the lock. -/
theorem depthOf_unlocked (h : 1 ≤ depthOf k.delivery t) :
    depthOf (unlocked k).delivery u + (if t = u then 1 else 0) = depthOf k.delivery u := by
  unfold unlocked
  split
  · next holder depth hheld =>
    rw [hheld] at h ⊢
    have hholder : holder = t := by
      by_contra hne
      rw [depthOf, if_neg hne] at h
      omega
    subst hholder
    show (if holder = u then depth + 1 else 0) + (if holder = u then 1 else 0)
      = if holder = u then depth + 2 else 0
    split <;> rfl
  · next hnot =>
    cases hheld : k.delivery with
    | none =>
      rw [hheld] at h
      exact absurd h (Nat.not_succ_le_zero 0)
    | some held =>
      obtain ⟨holder, depth⟩ := held
      rw [hheld, depthOf] at h
      split at h
      · next hholder =>
        subst hholder
        obtain rfl : depth = 1 := by
          by_contra hne
          exact hnot holder (depth - 2) (by rw [hheld]; congr 2; omega)
        show 0 + (if holder = u then 1 else 0) = if holder = u then 1 else 0
        exact Nat.zero_add _
      · omega

end Locks

/-! ## What a section does to the invariant -/

section Sections

variable [DecidableEq τ] {t : τ} {depth : Nat} {r r' : CommandRegistry τ ρ} {f : CommandFrame ρ}
  {fs : List (CommandFrame ρ)}

theorem Section.later (h : Section t r f r' fs) (hr : RegistryOk r) (hf : FrameOk r t depth f) :
    Later r r' := by
  cases h with
  | register p allowlist => exact .register p allowlist
  | unregister id owner => exact .unregister id owner
  | reopen module =>
    exact .of_same rfl rfl rfl rfl rfl (fun _ h => h) (fun _ h => h)
      fun _ h => List.mem_cons_of_mem _ h
  | refused hcompleter hstatus => exact .refuse _ _
  | posts q completer p =>
    have henter : Later r (r.enter q completer p) :=
      .enter (fun c k h => hr.bound h) (by rw [hf.mine completer rfl]; exact Option.some_ne_none _)
    exact ⟨henter.calls, henter.fresh, henter.settled, henter.nextCallId, henter.nextSerial,
      henter.nextCompleter, henter.gone, henter.left, henter.history⟩
  | enters q completer p =>
    exact .enter (fun c k h => hr.bound h) (by rw [hf.mine completer rfl]; exact Option.some_ne_none _)
  | answers completer call => exact .log _
  | runs call record hcall => exact .log _
  | locks call by_ result record record' hcall hlock =>
    refine .modify fun k hk => ?_
    rw [hcall] at hk
    exact Option.some.inj hk ▸ lockedBy_grown hlock
  | erases call by_ result => exact .erase call
  | decides call by_ result record hcall hcancelled hfinished =>
    have hmodify : Later r (r.modify call fun record =>
        { record with finished := true, done := none }) :=
      .modify fun k _ => ⟨rfl, rfl, rfl, id, fun _ => rfl, .inr rfl⟩
    exact hmodify.trans (.log _) rfl
  | starts call completer result record hcall => exact .log _
  | delivers call => exact (Later.modify fun k _ => unlocked_grown k).trans (.log _) rfl
  | cancelUnknown call caller record hcall h => exact .log _
  | cancelRefused call caller status hstatus h => exact .log _
  | cancelMarks call caller =>
    have hmodify : Later r (r.modify call fun record => { record with cancelled := true }) :=
      .modify fun k _ => ⟨rfl, rfl, rfl, fun _ => rfl, id, .inl rfl⟩
    exact hmodify.trans (.log _) rfl
  | cancelLocks call record record' hcall hlock =>
    refine .modify fun k hk => ?_
    rw [hcall] at hk
    exact Option.some.inj hk ▸ lockedBy_grown hlock
  | cancelClears call => exact .modify fun k _ => ⟨rfl, rfl, rfl, id, id, .inr rfl⟩
  | cancelErases call =>
    exact ((Later.erase call).trans (Later.modify fun k _ => unlocked_grown k) rfl).trans (.log _) rfl
  | removes module result hmodule => exact .withdraw module
  | removed module => exact .log _
  | _ => exact .refl r

/-- How often a `done` was entered changes as it is entered. -/
theorem Section.starts_eq (h : Section t r f r' fs) (d : Nat) :
    startsOf r'.history d = startsOf r.history d ∨
      ∃ c result, f = .deliverStart c (some d) result := by
  cases h with
  | register p allowlist =>
    refine .inl ?_
    unfold CommandRegistry.register
    split_ifs <;> rfl
  | unregister id owner =>
    refine .inl ?_
    unfold CommandRegistry.unregister
    split
    · rfl
    · split <;> rfl
  | starts call completer result record hcall =>
    by_cases hd : d = completer
    · exact .inr ⟨call, result, by rw [hd]⟩
    · refine .inl (List.countP_cons_of_neg ?_)
      exact fun heq => hd (of_decide_eq_true heq).symm
  | _ => exact .inl rfl

theorem Section.underWay (h : Section t r f r' fs) {d : Nat} (hd : f.completer? ≠ some d) :
    r'.underWay d = r.underWay d := by
  cases h with
  | register p allowlist =>
    unfold CommandRegistry.register
    split_ifs <;> rfl
  | unregister id owner =>
    unfold CommandRegistry.unregister
    split
    · rfl
    · split <;> rfl
  | refused hcompleter hstatus =>
    rw [refuse_underWay, if_neg fun heq => hd (hcompleter.trans (congrArg some heq.symm))]
  | posts q completer p =>
    show (r.enter q completer p).underWay d = r.underWay d
    exact enter_underWay.trans (if_neg fun heq => hd (congrArg some heq.symm))
  | enters q completer p =>
    exact enter_underWay.trans (if_neg fun heq => hd (congrArg some heq.symm))
  | _ => rfl

/-- An `Invoke` that goes on with its completer is alone in what it leaves. -/
theorem Section.completers (h : Section t r f r' fs) {g : CommandFrame ρ} (hg : g ∈ fs) {d : Nat}
    (hd : g.completer? = some d) : fs = [g] ∧ f.completer? = some d ∧ r' = r := by
  cases h with
  | checkedClosed q completer hopen => obtain rfl := List.mem_singleton.1 hg; exact ⟨rfl, hd, rfl⟩
  | lookedUp q completer p hp => obtain rfl := List.mem_singleton.1 hg; exact ⟨rfl, hd, rfl⟩
  | asks q completer p hmay => obtain rfl := List.mem_singleton.1 hg; exact ⟨rfl, hd, rfl⟩
  | admits q completer p hmay => obtain rfl := List.mem_singleton.1 hg; exact ⟨rfl, hd, rfl⟩
  | enabled q completer p => obtain rfl := List.mem_singleton.1 hg; exact ⟨rfl, hd, rfl⟩
  | removes module result hmodule =>
    simp only [List.mem_append, List.mem_map, List.mem_singleton] at hg
    rcases hg with (⟨c, -, rfl⟩ | ⟨c, -, rfl⟩) | rfl <;> cases hd
  | _ =>
    simp only [List.mem_cons, List.not_mem_nil, or_false] at hg <;>
      grind [CommandFrame.completer?]

/-- What a section leaves below what comes next can wait. -/
theorem Section.inner (h : Section t r f r' fs) : ∀ g ∈ fs.tail, g.waits = true := by
  cases h with
  | removes module result hmodule =>
    intro g hg
    have hmem := List.mem_of_mem_tail hg
    simp only [List.mem_append, List.mem_map, List.mem_singleton] at hmem
    rcases hmem with (⟨c, -, rfl⟩ | ⟨c, -, rfl⟩) | rfl <;> rfl
  | enters q completer p =>
    intro g hg
    obtain rfl := List.mem_singleton.1 hg
    rfl
  | starts call completer result record hcall =>
    intro g hg
    obtain rfl := List.mem_singleton.1 hg
    rfl
  | _ => exact List.forall_mem_nil _

theorem holdsOf_nil (c : Nat) : holdsOf ([] : List (CommandFrame ρ)) c = 0 := rfl

theorem holdsOf_cons (g : CommandFrame ρ) (gs : List (CommandFrame ρ)) (c : Nat) :
    holdsOf (g :: gs) c = holdsOf gs c + if g.holds = some c then 1 else 0 := by
  rw [holdsOf, List.countP_cons]
  simp [holdsOf]

theorem holdsOf_append (gs gs' : List (CommandFrame ρ)) (c : Nat) :
    holdsOf (gs ++ gs') c = holdsOf gs c + holdsOf gs' c :=
  List.countP_append

/-- A section that leaves the locks and the frames that hold them. -/
theorem locks_of_same {c : Nat} {k k' : PendingCall τ} {u : τ} (hdelivery : k'.delivery = k.delivery)
    (hholds : holdsOf fs c = if f.holds = some c then 1 else 0) :
    depthOf k'.delivery u + (if t = u then (if f.holds = some c then 1 else 0) else 0)
      = depthOf k.delivery u + if t = u then holdsOf fs c else 0 := by
  rw [hdelivery, hholds]

/-- **The locks change as the frames do.** -/
theorem Section.locks_eq (h : Section t r f r' fs) {c : Nat} {k k' : PendingCall τ}
    (hr : RegistryOk r) (hk : r.calls c = some k) (hk' : r'.calls c = some k')
    (hheld : f.holds = some c → 1 ≤ depthOf k.delivery t) (u : τ) :
    depthOf k'.delivery u + (if t = u then (if f.holds = some c then 1 else 0) else 0)
      = depthOf k.delivery u + if t = u then holdsOf fs c else 0 := by
  -- the sections that change a record come in two kinds: with a lock, or without
  have hmodify : ∀ {call : Nat} {change : PendingCall τ → PendingCall τ},
      r'.calls c = (r.modify call change).calls c → k' = if c = call then change k else k := by
    intro call change heq
    obtain ⟨k₀, hk₀, rfl⟩ := modify_some.1 (heq ▸ hk')
    rw [Option.some.inj (hk.symm.trans hk₀)]
  have hsame : r'.calls c = r.calls c → k'.delivery = k.delivery := by
    intro heq
    rw [Option.some.inj (hk'.symm.trans (heq.trans hk))]
  have hlock : ∀ {call : Nat} {record record' : PendingCall τ} {g : CommandFrame ρ},
      r.calls call = some record → lockedBy t record = some record' →
      r' = r.modify call (fun _ => record') → f.holds = none → g.holds = some call → fs = [g] →
      depthOf k'.delivery u + (if t = u then (if f.holds = some c then 1 else 0) else 0)
        = depthOf k.delivery u + if t = u then holdsOf fs c else 0 := by
    rintro call record record' g hcall hlocked rfl hf hg rfl
    rw [hf, holdsOf_cons, holdsOf_nil, hg, hmodify rfl]
    by_cases hc : c = call
    · subst hc
      obtain rfl := Option.some.inj (hk.symm.trans hcall)
      rw [if_pos rfl, depthOf_lockedBy hlocked]
      simp
    · simp [hc, Ne.symm hc]
  have hunlock : ∀ {call : Nat}, f.holds = some call →
      r'.calls c = (r.modify call unlocked).calls c → fs = [] →
      depthOf k'.delivery u + (if t = u then (if f.holds = some c then 1 else 0) else 0)
        = depthOf k.delivery u + if t = u then holdsOf fs c else 0 := by
    rintro call hf heq rfl
    rw [holdsOf_nil, hmodify heq]
    by_cases hc : c = call
    · subst hc
      rw [if_pos rfl, hf, if_pos rfl, depthOf_unlocked (hheld hf)]
      simp
    · simp [hc, hf, Ne.symm hc]
  cases h with
  | register p allowlist =>
    refine locks_of_same (hsame ?_) rfl
    unfold CommandRegistry.register
    split_ifs <;> rfl
  | unregister id owner =>
    refine locks_of_same (hsame ?_) rfl
    unfold CommandRegistry.unregister
    split
    · rfl
    · split <;> rfl
  | refused hcompleter hstatus =>
    refine locks_of_same (hsame rfl) ?_
    cases f <;> first | rfl | cases hcompleter
  | posts q completer p =>
    refine locks_of_same (hsame ?_) rfl
    exact (enter_calls (d := completer)).trans (if_neg (hr.bound hk).ne)
  | enters q completer p =>
    refine locks_of_same (hsame ?_) rfl
    exact enter_calls.trans (if_neg (hr.bound hk).ne)
  | locks call by_ result record record' hcall hlocked =>
    exact hlock hcall hlocked rfl rfl rfl rfl
  | decides call by_ result record hcall hcancelled hfinished =>
    refine locks_of_same ?_ (by rw [holdsOf_cons, holdsOf_nil, Nat.zero_add]; rfl)
    rw [hmodify rfl]
    split <;> rfl
  | delivers call => exact hunlock rfl rfl rfl
  | cancelMarks call caller =>
    refine locks_of_same ?_ rfl
    rw [hmodify rfl]
    split <;> rfl
  | cancelLocks call record record' hcall hlocked => exact hlock hcall hlocked rfl rfl rfl rfl
  | cancelClears call =>
    refine locks_of_same ?_ (by rw [holdsOf_cons, holdsOf_nil, Nat.zero_add]; rfl)
    rw [hmodify rfl]
    split <;> rfl
  | cancelErases call => exact hunlock rfl rfl rfl
  | removes module result hmodule =>
    refine locks_of_same (hsame rfl) ?_
    refine List.countP_eq_zero.2 fun g hg => ?_
    simp only [List.mem_append, List.mem_map, List.mem_singleton] at hg
    rcases hg with (⟨c, -, rfl⟩ | ⟨c, -, rfl⟩) | rfl <;> exact fun hcontra => by simp [holds] at hcontra
  | _ =>
    exact locks_of_same (hsame rfl) (by simp [holdsOf, holds, List.countP_cons])

/-- **The tables are kept.** -/
theorem Section.registryOk (h : Section t r f r' fs) (hr : RegistryOk r) (hf : FrameOk r t depth f)
    (hfresh : ∀ c d result, f = .deliverStart c (some d) result → startsOf r.history d = 0) :
    RegistryOk r' := by
  have hmine : ∀ {d}, f.completer? = some d → r.underWay d ≠ none := by
    intro d hd
    rw [hf.mine d hd]
    exact Option.some_ne_none _
  cases h with
  | register p allowlist => exact hr.register p allowlist
  | unregister id owner => exact hr.unregister id owner
  | reopen module => exact hr.reopen module
  | refused hcompleter hstatus => exact hr.refuse (hmine hcompleter)
  | posts q completer p =>
    have henter : RegistryOk (r.enter q completer p) := hr.enter (hmine rfl) hf.known
    refine henter.repost fun c hc => ?_
    rcases List.mem_append.1 hc with hold | hnew
    · exact henter.posted hold
    · exact henter.known (List.mem_singleton.1 hnew ▸ List.mem_cons_self)
  | enters q completer p => exact hr.enter (hmine rfl) hf.known
  | answers completer call =>
    obtain ⟨k, hk, rfl⟩ := hf.known
    obtain ⟨hnumber, hunder, -⟩ := hr.completers hk
    exact hr.log ⟨hnumber, hunder, fun hne => absurd rfl hne⟩ fun _ => rfl
  | runs call record hcall => exact hr.log ⟨record, hcall, rfl⟩ fun _ => rfl
  | locks call by_ result record record' hcall hlock =>
    refine hr.modify fun k hk => ?_
    rw [hcall] at hk
    exact Option.some.inj hk ▸ lockedBy_grown hlock
  | erases call by_ result => exact hr.erase call
  | decides call by_ result record hcall hcancelled hfinished =>
    have hmodify : RegistryOk (r.modify call fun record =>
        { record with finished := true, done := none }) :=
      hr.modify fun k _ => ⟨rfl, rfl, rfl, id, fun _ => rfl, .inr rfl⟩
    obtain ⟨-, k, hk, hby⟩ := hf.known
    refine hmodify.log ⟨{ k with finished := true, done := none }, ?_, rfl, ?_⟩ fun _ => rfl
    · exact modify_some.2 ⟨k, hk, (if_pos rfl).symm⟩
    · cases by_ with
      | owner name => exact hby
      | registry => exact hby
  | starts call completer result record hcall =>
    obtain ⟨-, k, hk, hfinished, hdone, by_, hby⟩ := hf.known
    obtain rfl := Option.some.inj (hk.symm.trans hcall)
    exact hr.logStart ⟨k, hk, (hdone completer rfl).symm, rfl, hfinished, by_,
      List.mem_cons_of_mem _ hby⟩ (hfresh call completer result rfl)
  | delivers call =>
    obtain ⟨hout, k, hk⟩ := hf.known
    exact (hr.modify fun k _ => unlocked_grown k).log ⟨hr.bound hk, hout⟩ fun _ => rfl
  | cancelUnknown call caller record hcall h => exact hr.log (fun hok => nomatch hok) fun _ => rfl
  | cancelRefused call caller status hstatus h =>
    exact hr.log (fun hok => absurd hok hstatus) fun _ => rfl
  | cancelMarks call caller =>
    have hmodify : RegistryOk (r.modify call fun record => { record with cancelled := true }) :=
      hr.modify fun k _ => ⟨rfl, rfl, rfl, fun _ => rfl, id, .inl rfl⟩
    obtain ⟨k, hk, hcaller⟩ := hf.known
    refine hmodify.log ⟨{ k with cancelled := true }, ?_, hcaller, rfl⟩ fun _ => rfl
    exact modify_some.2 ⟨k, hk, (if_pos rfl).symm⟩
  | cancelLocks call record record' hcall hlock =>
    refine hr.modify fun k hk => ?_
    rw [hcall] at hk
    exact Option.some.inj hk ▸ lockedBy_grown hlock
  | cancelClears call => exact hr.modify fun k _ => ⟨rfl, rfl, rfl, id, id, .inr rfl⟩
  | cancelErases call =>
    obtain ⟨k, hk, -⟩ := hf.known
    refine ((hr.erase call).modify fun k _ => unlocked_grown k).log (fun _ => ?_) fun _ => rfl
    refine ⟨hr.bound hk, fun hin => ?_⟩
    simpa using (List.mem_filter.1 hin).2
  | removes module result hmodule => exact hr.withdraw module
  | removed module => exact hr.log (e := .removed module) trivial fun _ => rfl
  | _ => exact hr

/-- What a section leaves knows the tables it leaves. -/
theorem Section.known (h : Section t r f r' fs) (hr : RegistryOk r) (hf : FrameOk r t depth f) :
    ∀ g ∈ fs, g.Known r' := by
  have hlater := h.later hr hf
  cases h with
  | lookedUp q completer p hp =>
    exact List.forall_mem_singleton.2 (hr.serials p (lookup_mem hp))
  | asks q completer p hmay => exact List.forall_mem_singleton.2 hf.known
  | admits q completer p hmay => exact List.forall_mem_singleton.2 hf.known
  | enabled q completer p => exact List.forall_mem_singleton.2 hf.known
  | posts q completer p =>
    exact List.forall_mem_singleton.2
      ⟨_, (enter_calls (q := q) (p := p)).trans (if_pos rfl), rfl⟩
  | enters q completer p =>
    have hnew : (r.enter q completer p).calls r.nextCallId = some _ :=
      enter_calls.trans (if_pos rfl)
    exact List.forall_mem_cons.2 ⟨⟨_, hnew⟩, List.forall_mem_singleton.2 ⟨_, hnew, rfl⟩⟩
  | runChecked call => exact List.forall_mem_singleton.2 hf.known
  | runGone call record result hcall hgone =>
    exact List.forall_mem_singleton.2 ⟨record, hcall, rfl, not_mem_of_lookup hr.ids hgone⟩
  | runFound call record hcall hfound => exact List.forall_mem_singleton.2 hf.known
  | runs call record hcall => exact List.forall_mem_singleton.2 hf.known
  | finishFound call by_ result record hcall hpending =>
    refine List.forall_mem_singleton.2 ⟨record, hcall, ?_⟩
    have hknown := hf.known
    cases by_ with
    | owner name => exact hknown
    | registry =>
      obtain ⟨k, hk, -, hgone⟩ := hknown
      rw [Option.some.inj (hcall.symm.trans hk)]
      exact hgone
  | locks call by_ result record record' hcall hlock =>
    have hknown : (deliverErase call by_ result : CommandFrame ρ).Known r := hf.known
    exact List.forall_mem_singleton.2 (hknown.later hr hlater)
  | erases call by_ result =>
    refine List.forall_mem_singleton.2 ⟨fun hin => ?_, hf.known⟩
    simpa using (List.mem_filter.1 hin).2
  | decidesNot call by_ result record hcall hover =>
    exact List.forall_mem_singleton.2 ⟨hf.known.1, record, hcall⟩
  | decides call by_ result record hcall hcancelled hfinished =>
    refine List.forall_mem_singleton.2 ⟨hf.known.1,
      { record with finished := true, done := none }, ?_, rfl, ?_, by_, List.mem_cons_self⟩
    · exact modify_some.2 ⟨record, hcall, (if_pos rfl).symm⟩
    · exact (hr.completers hcall).2.2
  | starts call completer result record hcall =>
    have hknown : (calling call : CommandFrame ρ).Known r := ⟨hf.known.1, record, hcall⟩
    exact List.forall_mem_cons.2 ⟨hknown, List.forall_mem_singleton.2 hknown⟩
  | startsNone call result done =>
    obtain ⟨hout, k, hk, -⟩ := hf.known
    exact List.forall_mem_singleton.2 ⟨hout, k, hk⟩
  | cancelFound call record hcall hpending => exact List.forall_mem_singleton.2 ⟨record, hcall, rfl⟩
  | cancelMarks call caller =>
    obtain ⟨k, hk, -⟩ := hf.known
    exact List.forall_mem_singleton.2
      ⟨{ k with cancelled := true }, modify_some.2 ⟨k, hk, (if_pos rfl).symm⟩, rfl⟩
  | cancelLocks call record record' hcall hlock =>
    have hknown : (cancelClear call : CommandFrame ρ).Known r := hf.known
    exact List.forall_mem_singleton.2 (hknown.later hr hlater)
  | cancelClears call =>
    have hknown : (cancelErase call : CommandFrame ρ).Known r := hf.known
    exact List.forall_mem_singleton.2 (hknown.later hr hlater)
  | removes module result hmodule =>
    intro g hg
    simp only [List.mem_append, List.mem_map, List.mem_singleton] at hg
    rcases hg with (⟨c, -, rfl⟩ | ⟨c, hc, rfl⟩) | rfl
    · exact trivial
    · obtain ⟨-, k, hk, howner⟩ := mem_pendingOf hc
      rw [Bool.and_eq_true, decide_eq_true_iff, decide_eq_true_iff] at howner
      refine ⟨k, hk, fun hin => ?_⟩
      have hkept := (List.mem_filter.1 hin).2
      rw [decide_eq_true_iff] at hkept
      exact hkept howner.2
    · exact trivial
  | checkedClosed q completer hopen => exact List.forall_mem_singleton.2 trivial
  | _ => exact List.forall_mem_nil _

/-! ## Served calls -/

/-- A frame through which a call goes on, to the `run` of its provider or out of the table. -/
def CommandFrame.serves (c : Nat) : CommandFrame ρ → Bool
  | runCheck call | runLookup call | runEnter call | finishFind call _ .registry _
  | deliverLock call .registry _ | deliverErase call .registry _ => call = c
  | _ => false

/-- A call that goes on through a frame goes on through what the frame leaves, or is cancelled,
entered, or out of the table. -/
theorem Section.serves (h : Section t r f r' fs) (hf : FrameOk r t depth f) {c : Nat}
    (hc : f.serves c = true) (hpending : c ∈ r'.pending) :
    (∃ g ∈ fs, g.serves c = true) ∨ (∃ k, r'.calls c = some k ∧ k.cancelled = true) ∨
      ∃ owner, .entered c owner ∈ r'.history := by
  cases h with
  | runDropped call record hcall hcancelled =>
    obtain rfl : call = c := of_decide_eq_true hc
    exact .inr (.inl ⟨record, hcall, hcancelled⟩)
  | runChecked call => exact .inl ⟨_, List.mem_cons_self, hc⟩
  | runGone call record result hcall hgone => exact .inl ⟨_, List.mem_cons_self, hc⟩
  | runFound call record hcall hfound => exact .inl ⟨_, List.mem_cons_self, hc⟩
  | runs call record hcall =>
    obtain rfl : call = c := of_decide_eq_true hc
    exact .inr (.inr ⟨_, List.mem_cons_self⟩)
  | finishRefused call provider by_ result hrefused =>
    cases by_ with
    | owner name => cases hc
    | registry =>
      obtain rfl : call = c := of_decide_eq_true hc
      obtain ⟨k, hk, howner, -⟩ := hf.known
      exact absurd ⟨hpending, howner⟩ (hrefused k hk)
  | finishFound call by_ result record hcall hin =>
    cases by_ with
    | owner name => cases hc
    | registry => exact .inl ⟨_, List.mem_cons_self, hc⟩
  | locks call by_ result record record' hcall hlock =>
    cases by_ with
    | owner name => cases hc
    | registry => exact .inl ⟨_, List.mem_cons_self, hc⟩
  | erases call by_ result =>
    cases by_ with
    | owner name => cases hc
    | registry =>
      obtain rfl : call = c := of_decide_eq_true hc
      exact absurd rfl (of_decide_eq_true (List.mem_filter.1 hpending).2)
  | refused hcompleter hstatus => cases f <;> first | cases hc | cases hcompleter
  | _ => cases hc

theorem Section.posted_subset (h : Section t r f r' fs) : r.posted ⊆ r'.posted := by
  cases h with
  | register p allowlist =>
    unfold CommandRegistry.register
    split_ifs <;> exact fun _ hc => hc
  | unregister id owner =>
    unfold CommandRegistry.unregister
    split
    · exact fun _ hc => hc
    · split <;> exact fun _ hc => hc
  | posts q completer p => exact fun _ hc => List.mem_append_left _ hc
  | _ => exact fun _ hc => hc

/-- A call that enters the table goes on. -/
theorem Section.entered_serves (h : Section t r f r' fs) {c : Nat} (hout : c ∉ r.pending)
    (hin : c ∈ r'.pending) : c ∈ r'.posted ∨ ∃ g ∈ fs, g.serves c = true := by
  cases h with
  | register p allowlist =>
    unfold CommandRegistry.register at hin
    split_ifs at hin <;> exact absurd hin hout
  | unregister id owner =>
    unfold CommandRegistry.unregister at hin
    split at hin
    · exact absurd hin hout
    · split at hin <;> exact absurd hin hout
  | posts q completer p =>
    obtain rfl := (List.mem_cons.1 hin).resolve_right hout
    exact .inl (List.mem_append_right _ List.mem_cons_self)
  | enters q completer p =>
    obtain rfl := (List.mem_cons.1 hin).resolve_right hout
    exact .inr ⟨_, List.mem_cons_self, decide_eq_true rfl⟩
  | erases call by_ result => exact absurd (List.mem_of_mem_filter hin) hout
  | cancelErases call => exact absurd (List.mem_of_mem_filter hin) hout
  | _ => exact absurd hin hout

/-- A record that is new is that of a call as it enters the table. -/
theorem Section.new_call (h : Section t r f r' fs) {c : Nat} {k' : PendingCall τ}
    (hnone : r.calls c = none) (hk' : r'.calls c = some k') :
    c ∈ r'.pending ∧ holdsOf fs c = 0 ∧ ∃ q completer p, f = .invokeEnter q completer p ∧
      k' = { caller := q.caller.module, via := p, completer, done := some completer } := by
  have hmodify : ∀ {call : Nat} {change : PendingCall τ → PendingCall τ},
      (r.modify call change).calls c ≠ some k' := by
    intro call change heq
    obtain ⟨k, hk, -⟩ := modify_some.1 heq
    rw [hnone] at hk
    cases hk
  have hsame : r'.calls c ≠ r.calls c := by
    rw [hk', hnone]
    exact Option.some_ne_none _
  have henter : ∀ {q completer p}, (r.enter q completer p).calls c = some k' →
      c = r.nextCallId ∧
        k' = { caller := q.caller.module, via := p, completer, done := some completer } := by
    intro q completer p heq
    rw [enter_calls] at heq
    split at heq
    · next hc => exact ⟨hc, (Option.some.inj heq).symm⟩
    · rw [hnone] at heq
      cases heq
  cases h with
  | register p allowlist =>
    refine absurd ?_ hsame
    unfold CommandRegistry.register
    split_ifs <;> rfl
  | unregister id owner =>
    refine absurd ?_ hsame
    unfold CommandRegistry.unregister
    split
    · rfl
    · split <;> rfl
  | posts q completer p =>
    obtain ⟨rfl, hrecord⟩ := henter (q := q) (p := p) hk'
    exact ⟨List.mem_cons_self, rfl, q, completer, p, rfl, hrecord⟩
  | enters q completer p =>
    obtain ⟨rfl, hrecord⟩ := henter hk'
    exact ⟨List.mem_cons_self, rfl, q, completer, p, rfl, hrecord⟩
  | locks call by_ result record record' hcall hlock => exact absurd hk' hmodify
  | decides call by_ result record hcall hcancelled hfinished => exact absurd hk' hmodify
  | delivers call => exact absurd hk' hmodify
  | cancelMarks call caller => exact absurd hk' hmodify
  | cancelLocks call record record' hcall hlock => exact absurd hk' hmodify
  | cancelClears call => exact absurd hk' hmodify
  | cancelErases call =>
    have hk : (r.modify call unlocked).calls c = some k' := hk'
    exact absurd hk hmodify
  | _ => exact absurd rfl hsame

/-- A `done` that is about to be entered was not entered before. -/
theorem Section.start_fresh (h : Section t r f r' fs) (hr : RegistryOk r) {c d : Nat}
    {result : RawResult ρ} (hg : .deliverStart c (some d) result ∈ fs) :
    startsOf r'.history d = 0 := by
  cases h with
  | decides call by_ result record hcall hcancelled hfinished =>
    obtain ⟨rfl, hdone, rfl⟩ := CommandFrame.deliverStart.inj (List.mem_singleton.1 hg)
    rw [(hr.completers hcall).2.2 d hdone.symm]
    exact hr.unstarted hcall hfinished
  | removes module result hmodule =>
    simp only [List.mem_append, List.mem_map, List.mem_singleton] at hg
    rcases hg with (⟨c, -, heq⟩ | ⟨c, -, heq⟩) | heq <;> cases heq
  | _ => simp at hg

end Sections

/-! ## The invariant -/

section Invariant

variable [DecidableEq τ] {s : CommandSystem τ ρ} {gui : τ}

/-- A call that goes on, is cancelled, or is being served by its provider. -/
def Served (s : CommandSystem τ ρ) (c : Nat) : Prop :=
  c ∈ s.registry.posted ∨ (∃ t, ∃ g ∈ s.threads t, g.serves c = true) ∨
    (∃ k, s.registry.calls c = some k ∧ k.cancelled = true) ∨
    ∃ owner, .entered c owner ∈ s.registry.history

structure CommandInv (s : CommandSystem τ ρ) : Prop where
  registry : RegistryOk s.registry
  frames : ∀ {t f below}, f :: below <:+ s.threads t → FrameOk s.registry t below.length f
  locks : ∀ {c k} (t : τ), s.registry.calls c = some k →
    depthOf k.delivery t = holdsOf (s.threads t) c
  inner : ∀ {t f}, f ∈ (s.threads t).tail → f.waits = true
  fresh : ∀ {t c d result}, .deliverStart c (some d) result ∈ s.threads t →
    startsOf s.registry.history d = 0
  served : ∀ {c}, c ∈ s.registry.pending → Served s c

variable {g : CommandFrame ρ}

theorem holdsOf_pos {c : Nat} {gs : List (CommandFrame ρ)} (hg : g ∈ gs)
    (hholds : g.holds = some c) : 1 ≤ holdsOf gs c :=
  List.countP_pos_iff.2 ⟨g, hg, decide_eq_true hholds⟩

/-- A lock is in the hands of one thread. -/
theorem CommandInv.holder_unique (h : CommandInv s) {t u : τ} {f : CommandFrame ρ} {c : Nat}
    (hf : f ∈ s.threads t) (hg : g ∈ s.threads u) (hfholds : f.holds = some c)
    (hgholds : g.holds = some c) : t = u := by
  obtain ⟨below, hsuffix⟩ := exists_suffix_of_mem hf
  obtain ⟨k, hk⟩ := (h.frames hsuffix).known.call hfholds
  have ht : 1 ≤ depthOf k.delivery t := (h.locks t hk).symm ▸ holdsOf_pos hf hfholds
  have hu : 1 ≤ depthOf k.delivery u := (h.locks u hk).symm ▸ holdsOf_pos hg hgholds
  cases hheld : k.delivery with
  | none =>
    rw [hheld] at ht
    exact absurd ht (Nat.not_succ_le_zero 0)
  | some held =>
    obtain ⟨holder, depth⟩ := held
    rw [hheld, depthOf] at ht hu
    split at ht
    · next hholder =>
      split at hu
      · next hholder' => exact hholder.symm.trans hholder'
      · omega
    · omega

variable {below : List (CommandFrame ρ)}

/-- A `done` is about to be entered by one frame, on top of its thread. -/
theorem CommandInv.start_unique (h : CommandInv s) {t u : τ} {f : CommandFrame ρ} {c c' d : Nat}
    {result result' : RawResult ρ} (htop : s.threads t = f :: below)
    (hf : f = .deliverStart c (some d) result)
    (hg : .deliverStart c' (some d) result' ∈ if u = t then below else s.threads u) : False := by
  subst hf
  have hmem : .deliverStart c' (some d) result' ∈ s.threads u := by
    split at hg
    · next hu => rw [hu, htop]; exact List.mem_cons_of_mem _ hg
    · exact hg
  obtain ⟨rest, hsuffix⟩ := exists_suffix_of_mem hmem
  obtain ⟨-, k', hk', -, hdone', -⟩ := (h.frames hsuffix).known
  obtain ⟨-, k, hk, -, hdone, -⟩ := (h.frames (t := t) ⟨[], htop.symm⟩).known
  obtain rfl : c = c' := h.registry.distinct hk hk' ((hdone d rfl).symm.trans (hdone' d rfl))
  have htu : t = u := h.holder_unique (htop ▸ List.mem_cons_self) hmem rfl rfl
  rw [if_pos htu.symm] at hg
  have hwaits := h.inner (t := t) (f := .deliverStart c (some d) result') (by rw [htop]; exact hg)
  cases hwaits

theorem put_threads {t u : τ} {r : CommandRegistry τ ρ} {frames : List (CommandFrame ρ)} :
    (s.put t r frames).threads u = if u = t then frames else s.threads u :=
  Function.update_apply _ _ _ _

/-- A frame that was there and still is keeps what holds of it. -/
theorem CommandInv.frame_kept (h : CommandInv s) {t u : τ} {f : CommandFrame ρ}
    {rest fs : List (CommandFrame ρ)} {r' : CommandRegistry τ ρ} (htop : s.threads t = f :: below)
    (hsection : Section t s.registry f r' fs)
    (hg : g :: rest <:+ if u = t then below else s.threads u) : FrameOk r' u rest.length g := by
  have hf : FrameOk s.registry t below.length f := h.frames ⟨[], htop.symm⟩
  have hsuffix : g :: rest <:+ s.threads u := by
    split at hg
    · next hu => rw [hu, htop]; exact hg.trans (List.suffix_cons f below)
    · exact hg
  have hold := h.frames hsuffix
  refine ⟨fun d hd => ?_, hold.known.later h.registry (hsection.later h.registry hf)⟩
  rw [hsection.underWay, hold.mine d hd]
  intro hmine
  have hplace := Option.some.inj ((hold.mine d hd).symm.trans (hf.mine d hmine))
  obtain ⟨rfl, hlength⟩ := Prod.mk.inj hplace
  rw [if_pos rfl] at hg
  have hle := hg.length_le
  rw [List.length_cons] at hle
  omega

/-- A section keeps the invariant. -/
theorem CommandInv.section (h : CommandInv s) {t : τ} {f : CommandFrame ρ}
    {fs : List (CommandFrame ρ)} {r' : CommandRegistry τ ρ} (htop : s.threads t = f :: below)
    (hsection : Section t s.registry f r' fs) : CommandInv (s.put t r' (fs ++ below)) := by
  have hf : FrameOk s.registry t below.length f := h.frames ⟨[], htop.symm⟩
  have hlater := hsection.later h.registry hf
  have hknown := hsection.known h.registry hf
  have hfmem : f ∈ s.threads t := htop ▸ List.mem_cons_self
  refine ⟨?_, fun {u g rest} hg => ?_, fun {c k'} u hk' => ?_, fun {u g} hg => ?_,
    fun {u c d result} hg => ?_, fun {c} hc => ?_⟩
  · refine hsection.registryOk h.registry hf fun c d result heq => ?_
    exact h.fresh (heq ▸ hfmem)
  · rw [put_threads] at hg
    by_cases hu : u = t
    · subst hu
      rw [if_pos rfl] at hg
      rcases suffix_append_cases hg with ⟨pre, mid, rfl, rfl⟩ | hbelow
      · have hmem : g ∈ pre ++ g :: mid := List.mem_append_right _ List.mem_cons_self
        refine ⟨fun d hd => ?_, hknown g hmem⟩
        obtain ⟨hsingle, hmine, hr⟩ := hsection.completers hmem hd
        have hmid : mid = [] := by
          have hlength := congrArg List.length hsingle
          rw [List.length_append, List.length_cons, List.length_singleton] at hlength
          exact List.length_eq_zero_iff.1 (by omega)
        show r'.underWay d = _
        rw [hr, hmid, List.nil_append]
        exact hf.mine d hmine
      · exact h.frame_kept htop hsection (by rw [if_pos rfl]; exact hbelow)
    · rw [if_neg hu] at hg
      exact h.frame_kept htop hsection (by rw [if_neg hu]; exact hg)
  · rw [put_threads]
    cases hk : s.registry.calls c with
    | none =>
      obtain ⟨-, hfs, q, completer, p, -, rfl⟩ := hsection.new_call hk hk'
      have hunheld : ∀ v, holdsOf (s.threads v) c = 0 := by
        refine fun v => List.countP_eq_zero.2 fun g hg hholds => ?_
        obtain ⟨rest, hsuffix⟩ := exists_suffix_of_mem hg
        obtain ⟨k, hk₀⟩ := (h.frames hsuffix).known.call (of_decide_eq_true hholds)
        rw [hk] at hk₀
        cases hk₀
      split
      · have hall := hunheld t
        rw [htop, holdsOf_cons] at hall
        rw [holdsOf_append, hfs]
        show 0 = 0 + holdsOf below c
        omega
      · exact (hunheld u).symm
    | some k =>
      have hheld : f.holds = some c → 1 ≤ depthOf k.delivery t := fun hholds =>
        (h.locks t hk).symm ▸ holdsOf_pos hfmem hholds
      have hchange := hsection.locks_eq h.registry hk hk' hheld u
      by_cases hu : u = t
      · subst hu
        have hbefore := h.locks u hk
        rw [htop, holdsOf_cons] at hbefore
        rw [if_pos rfl] at hchange
        rw [if_pos rfl] at hchange
        rw [if_pos rfl, holdsOf_append]
        omega
      · have hbefore := h.locks u hk
        rw [if_neg (Ne.symm hu)] at hchange
        rw [if_neg (Ne.symm hu)] at hchange
        rw [if_neg hu]
        omega
  · rw [put_threads] at hg
    split at hg
    · have hbelow : ∀ g ∈ below, g.waits = true := fun g hg =>
        h.inner (t := t) (by rw [htop]; exact hg)
      cases fs with
      | nil => exact hbelow g (List.mem_of_mem_tail hg)
      | cons first later =>
        rcases List.mem_append.1 hg with hnew | hold
        · exact hsection.inner g hnew
        · exact hbelow g hold
    · exact h.inner hg
  · have hold : .deliverStart c (some d) result ∈ (if u = t then below else s.threads u) →
        startsOf r'.history d = 0 := by
      intro hold
      rcases hsection.starts_eq d with heq | ⟨c', result', hstart⟩
      · rw [heq]
        split at hold
        · exact h.fresh (t := t) (htop ▸ List.mem_cons_of_mem _ hold)
        · exact h.fresh hold
      · exact (h.start_unique htop hstart hold).elim
    rw [put_threads] at hg
    by_cases hu : u = t
    · rw [if_pos hu] at hg hold
      rcases List.mem_append.1 hg with hnew | hbelow
      · exact hsection.start_fresh h.registry hnew
      · exact hold hbelow
    · rw [if_neg hu] at hg hold
      exact hold hg
  · by_cases hin : c ∈ s.registry.pending
    · rcases h.served hin with hposted | ⟨u, g, hg, hserves⟩ | ⟨k, hk, hcancelled⟩ | ⟨owner, hentered⟩
      · exact .inl (hsection.posted_subset hposted)
      · by_cases hu : u = t
        · subst hu
          rw [htop] at hg
          rcases List.mem_cons.1 hg with rfl | hbelow
          · rcases hsection.serves hf hserves hc with ⟨g', hg', hserves'⟩ | hcancelled | hentered
            · refine .inr (.inl ⟨u, g', ?_, hserves'⟩)
              rw [put_threads, if_pos rfl]
              exact List.mem_append_left _ hg'
            · exact .inr (.inr (.inl hcancelled))
            · exact .inr (.inr (.inr hentered))
          · refine .inr (.inl ⟨u, g, ?_, hserves⟩)
            rw [put_threads, if_pos rfl]
            exact List.mem_append_right _ hbelow
        · refine .inr (.inl ⟨u, g, ?_, hserves⟩)
          rw [put_threads, if_neg hu]
          exact hg
      · obtain ⟨k', hk', hgrown⟩ := hlater.calls hk
        exact .inr (.inr (.inl ⟨k', hk', hgrown.cancelled hcancelled⟩))
      · exact .inr (.inr (.inr ⟨owner, hlater.history hentered⟩))
    · rcases hsection.entered_serves hin hc with hposted | ⟨g, hg, hserves⟩
      · exact .inl hposted
      · refine .inr (.inl ⟨t, g, ?_, hserves⟩)
        rw [put_threads, if_pos rfl]
        exact List.mem_append_left _ hg

/-- What changes as code outside calls the registry, or a posted run begins. -/
structure Entry (s : CommandSystem τ ρ) (t : τ) (r' : CommandRegistry τ ρ) (g : CommandFrame ρ) :
    Prop where
  ok : RegistryOk r'
  later : Later s.registry r'
  calls : r'.calls = s.registry.calls
  history : r'.history = s.registry.history
  pending : r'.pending = s.registry.pending
  underWay : ∀ {d}, s.registry.underWay d ≠ none → r'.underWay d = s.registry.underWay d
  posted : ∀ {c}, c ∈ s.registry.posted → c ∈ r'.posted ∨ g.serves c = true
  frame : FrameOk r' t (s.threads t).length g
  holds : g.holds = none
  start : ∀ c d result, g ≠ .deliverStart c (some d) result

theorem CommandInv.push (h : CommandInv s) {t : τ} {r' : CommandRegistry τ ρ}
    (houtside : s.isOutside t = true) (hentry : Entry s t r' g) :
    CommandInv (s.put t r' (g :: s.threads t)) := by
  refine ⟨hentry.ok, fun {u f rest} hf => ?_, fun {c k} u hk => ?_, fun {u f} hf => ?_,
    fun {u c d result} hf => ?_, fun {c} hc => ?_⟩
  · have hkept : f :: rest <:+ s.threads u → FrameOk r' u rest.length f := by
      intro hold
      have hframe := h.frames hold
      refine ⟨fun d hd => ?_, hframe.known.later h.registry hentry.later⟩
      have hmine := hframe.mine d hd
      rw [hentry.underWay (hmine ▸ Option.some_ne_none _), hmine]
    rw [put_threads] at hf
    split at hf
    · next hu =>
      subst hu
      rcases List.suffix_cons_iff.1 hf with heq | hold
      · obtain ⟨rfl, rfl⟩ := List.cons.inj heq
        exact hentry.frame
      · exact hkept hold
    · exact hkept hf
  · have hold : s.registry.calls c = some k := hentry.calls ▸ hk
    rw [h.locks u hold, put_threads]
    split
    · next hu => rw [hu, holdsOf_cons, hentry.holds, if_neg (Option.some_ne_none c).symm, Nat.add_zero]
    · rfl
  · rw [put_threads] at hf
    split at hf
    · next hu =>
      subst hu
      cases hstack : s.threads u with
      | nil =>
        rw [hstack] at hf
        cases hf
      | cons top below =>
        rw [hstack] at hf
        rcases List.mem_cons.1 hf with rfl | hbelow
        · have htop : f.isOutside = true := by
            rw [CommandSystem.isOutside, hstack] at houtside
            exact houtside
          cases f <;> first | rfl | cases htop
        · exact h.inner (t := u) (by rw [hstack]; exact hbelow)
    · exact h.inner hf
  · show startsOf r'.history d = 0
    rw [hentry.history]
    rw [put_threads] at hf
    split at hf
    · rcases List.mem_cons.1 hf with heq | hold
      · exact absurd heq.symm (hentry.start c d result)
      · exact h.fresh hold
    · exact h.fresh hf
  · have hserved : Served s c := h.served (hentry.pending ▸ hc)
    have hframe : ∀ {u f}, f ∈ s.threads u → f.serves c = true →
        ∃ u, ∃ f ∈ (s.put t r' (g :: s.threads t)).threads u, f.serves c = true := by
      intro u f hf hserves
      refine ⟨u, f, ?_, hserves⟩
      rw [put_threads]
      split
      · next hu => exact List.mem_cons_of_mem _ (hu ▸ hf)
      · exact hf
    rcases hserved with hposted | ⟨u, f, hf, hserves⟩ | ⟨k, hk, hcancelled⟩ | ⟨owner, hentered⟩
    · rcases hentry.posted hposted with hstill | hnow
      · exact .inl hstill
      · refine .inr (.inl ⟨t, g, ?_, hnow⟩)
        rw [put_threads, if_pos rfl]
        exact List.mem_cons_self
    · exact .inr (.inl (hframe hf hserves))
    · exact .inr (.inr (.inl ⟨k, hentry.calls ▸ hk, hcancelled⟩))
    · exact .inr (.inr (.inr ⟨owner, hentry.history ▸ hentered⟩))

omit [DecidableEq τ] in
theorem entry_plain {t : τ} (hr : RegistryOk s.registry) (hcompleter : g.completer? = none)
    (hknown : g.Known s.registry) (hholds : g.holds = none) : Entry s t s.registry g := by
  refine ⟨hr, .refl _, rfl, rfl, rfl, fun _ => rfl, .inl, ⟨fun d hd => ?_, hknown⟩, hholds, ?_⟩
  · rw [hcompleter] at hd
    cases hd
  · rintro c d result rfl
    cases hholds

theorem entry_call (h : CommandInv s) (t : τ) (op : CommandOperation ρ) :
    Entry s t (s.startRegistry t op) (s.startFrame op) := by
  have hr := h.registry
  cases op with
  | invoke q =>
    have hold : ∀ {d}, d ≠ s.registry.nextCompleter →
        (s.startRegistry t (.invoke q)).underWay d = s.registry.underWay d :=
      fun hd => Function.update_of_ne hd _ _
    have hlater : Later s.registry (s.startRegistry t (.invoke q)) :=
      ⟨fun {_ k} h => ⟨k, h, .refl k⟩, fun {_ k} h => .inl ⟨k, h, .refl k⟩,
        fun hd hnone => (hold hd.ne).trans hnone, le_refl _, le_refl _, Nat.le_succ _,
        fun _ h => h, fun _ h => h, fun _ h => h⟩
    refine ⟨⟨hr.serials, hr.ids, hr.vias, hr.bound, hr.known, hr.posted, fun hk => ?_, hr.distinct,
      fun {d} hd => ?_, fun e he => (hr.events e he).later hr hlater, hr.once, hr.unstarted⟩, hlater,
      rfl, rfl, rfl, fun hd => hold (hr.underWay hd).ne, .inl, ⟨fun d hd => ?_, trivial⟩, rfl,
      fun _ _ _ heq => nomatch heq⟩
    · obtain ⟨hnumber, hnone, hdone⟩ := hr.completers hk
      exact ⟨hnumber.trans (Nat.lt_succ_self _), (hold hnumber.ne).trans hnone, hdone⟩
    · by_cases heq : d = s.registry.nextCompleter
      · exact heq ▸ Nat.lt_succ_self _
      · rw [hold heq] at hd
        exact (hr.underWay hd).trans (Nat.lt_succ_self _)
    · obtain rfl := Option.some.inj hd
      exact Function.update_self _ _ _
  | finish call provider result => exact entry_plain hr rfl rfl rfl
  | register p allowlist => exact entry_plain hr rfl trivial rfl
  | unregister id owner => exact entry_plain hr rfl trivial rfl
  | cancel call caller => exact entry_plain hr rfl trivial rfl
  | removeAllFor module => exact entry_plain hr rfl trivial rfl
  | reopen module => exact entry_plain hr rfl trivial rfl

theorem entry_posted (h : CommandInv s) {call : Nat} {later : List Nat}
    (hposted : s.registry.posted = call :: later) :
    Entry s gui { s.registry with posted := later } (.runCheck call) := by
  have hr := h.registry
  obtain ⟨k, hk⟩ := hr.posted (hposted ▸ List.mem_cons_self : call ∈ s.registry.posted)
  refine ⟨hr.repost fun c hc => hr.posted (hposted ▸ List.mem_cons_of_mem _ hc),
    .of_same rfl rfl rfl rfl rfl (fun _ h => h) (fun _ h => h) fun _ h => h, rfl, rfl, rfl,
    fun _ => rfl, fun {c} hc => ?_, ⟨fun d hd => (nomatch hd), k, hk⟩, rfl,
    fun _ _ _ heq => nomatch heq⟩
  rw [hposted] at hc
  rcases List.mem_cons.1 hc with rfl | hc
  · exact .inr (decide_eq_true rfl)
  · exact .inl hc

/-- The step lemma. -/
theorem CommandInv.step (h : CommandInv s) (m : CommandMove τ ρ) : CommandInv (s.step gui m) := by
  rcases step_cases gui s m with heq | ⟨t, f, below, r', fs, htop, -, hsection, heq⟩ |
    ⟨t, op, houtside, heq⟩ | ⟨call, later, hposted, houtside, heq⟩
  · rwa [heq]
  · rw [heq]
    exact h.section htop hsection
  · rw [heq]
    exact h.push houtside (entry_call h t op)
  · rw [heq]
    exact h.push houtside (entry_posted h hposted)

theorem commandInv_start : CommandInv ({} : CommandSystem τ ρ) where
  registry :=
    { serials := List.forall_mem_nil _
      ids := List.nodup_nil
      vias := fun hk => nomatch hk
      bound := fun hk => nomatch hk
      known := fun hc => nomatch hc
      posted := fun hc => nomatch hc
      completers := fun hk => nomatch hk
      distinct := fun hk => nomatch hk
      underWay := fun hd => absurd rfl hd
      events := List.forall_mem_nil _
      once := fun _ => Nat.zero_le _
      unstarted := fun hk => nomatch hk }
  frames := fun hf => by simp at hf
  locks := fun _ hk => nomatch hk
  inner := fun hf => nomatch hf
  fresh := fun hf => nomatch hf
  served := fun hc => nomatch hc

/-- The run lemma. -/
theorem CommandInv.run (h : CommandInv s) (moves : List (CommandMove τ ρ)) :
    CommandInv (moves.foldl (CommandSystem.step gui) s) := by
  induction moves generalizing s with
  | nil => exact h
  | cons m moves ih => exact ih (h.step m)

/-- What has happened of the calls, and where they are. -/
structure DeliveredOnce (s : CommandSystem τ ρ) : Prop where
  /-- The `done` of an `Invoke` is entered at most once, -/
  once : ∀ completer, startsOf s.registry.history completer ≤ 1
  /-- and never if that `Invoke` was refused. -/
  accepted : ∀ completer status call, .answered completer status call ∈ s.registry.history →
    status ≠ .ok → startsOf s.registry.history completer = 0
  /-- What a `done` is entered with is what its own call was completed with, -/
  result : ∀ c completer caller result, .started c completer caller result ∈ s.registry.history →
    ∃ k by_, s.registry.calls c = some k ∧ k.completer = completer ∧ k.caller = caller ∧
      .completed c by_ result ∈ s.registry.history
  /-- by the owner of the provider, or by the registry once that provider was withdrawn. -/
  completedBy : ∀ c by_ result, .completed c by_ result ∈ s.registry.history →
    ∃ k, s.registry.calls c = some k ∧
      (by_ = .owner k.via.provider.owner ∨ by_ = .registry ∧ k.via ∉ s.registry.providers)
  cancelledBy : ∀ c caller, .cancelled c caller ∈ s.registry.history →
    ∃ k, s.registry.calls c = some k ∧ k.caller = caller
  /-- A call in the table is cancelled, on its way to its provider, or served by it: the provider
  was entered, and no completion of the call has come back. -/
  served : ∀ c ∈ s.registry.pending, (∃ k, s.registry.calls c = some k ∧ k.cancelled = true) ∨
    (c ∈ s.registry.posted ∨ ∃ t, ∃ f ∈ s.threads t, f.serves c = true) ∨
    (∃ owner, .entered c owner ∈ s.registry.history) ∧ .delivered c ∉ s.registry.history
  left : ∀ c, (.delivered c ∈ s.registry.history ∨
    ∃ own, .cancelReturned c own .ok ∈ s.registry.history) → c ∉ s.registry.pending

theorem CommandInv.deliveredOnce (h : CommandInv s) : DeliveredOnce s := by
  have hevents := h.registry.events
  have hdelivered : ∀ {c}, .delivered c ∈ s.registry.history → c ∉ s.registry.pending :=
    fun hc => (hevents _ hc).2
  refine ⟨h.registry.once, fun completer status call hanswered hstatus => ?_,
    fun c completer caller result hstarted => ?_, fun c by_ result hcompleted => ?_,
    fun c caller hcancelled => ?_, fun c hc => ?_, fun c hc => ?_⟩
  · obtain ⟨-, -, hrefused⟩ := hevents _ hanswered
    refine List.countP_eq_zero.2 fun e he => ?_
    split
    · next c d caller result =>
      obtain ⟨k, hk, hd, -⟩ := hevents _ he
      exact fun heq => hrefused hstatus c k hk (hd.trans (of_decide_eq_true heq))
    · exact Bool.false_ne_true
  · obtain ⟨k, hk, hcompleter, hcaller, -, by_, hby⟩ := hevents _ hstarted
    exact ⟨k, by_, hk, hcompleter, hcaller, hby⟩
  · obtain ⟨k, hk, -, hby⟩ := hevents _ hcompleted
    refine ⟨k, hk, ?_⟩
    cases by_ with
    | owner name => exact .inl (congrArg CompletedBy.owner hby)
    | registry => exact .inr ⟨rfl, hby⟩
  · obtain ⟨k, hk, hcaller, -⟩ := hevents _ hcancelled
    exact ⟨k, hk, hcaller⟩
  · rcases h.served hc with hposted | hframe | hcancelled | hentered
    · exact .inr (.inl (.inl hposted))
    · exact .inr (.inl (.inr hframe))
    · exact .inl hcancelled
    · exact .inr (.inr ⟨hentered, fun hdone => hdelivered hdone hc⟩)
  · rcases hc with hdone | ⟨own, hreturned⟩
    · exact hdelivered hdone
    · exact (hevents _ hreturned rfl).2

/-- **Each call is delivered at most once, and between its own parties**, whatever the threads do,
in whatever order, and whatever the code outside the registry calls from its callbacks. -/
theorem calls_delivered_once (gui : τ) (moves : List (CommandMove τ ρ)) :
    DeliveredOnce (moves.foldl (CommandSystem.step gui) {}) :=
  (commandInv_start.run moves).deliveredOnce

end Invariant

end GpgFrontend
