import GpgFrontend.UI.CommandRegistry

/-!
# What a section of the registry does

Between two acquisitions of the lock a thread runs one section. `Section` has a constructor for
each way a section can go, and `step_cases` takes a move of the system apart into them; the
invariants are proved from these, and no proof behind this module unfolds `advance`.
-/

namespace GpgFrontend

variable {τ ρ : Type}

/-! ## Reading the tables -/

section Tables

variable {r : CommandRegistry τ ρ} {call c d : Nat} {q : CommandRequest} {p : RegisteredCommand}
  {status : CommandStatus}

theorem modify_calls (change : PendingCall τ → PendingCall τ) :
    (r.modify call change).calls c
      = if c = call then (r.calls call).map change else r.calls c :=
  Function.update_apply _ _ _ _

theorem modify_some {change : PendingCall τ → PendingCall τ} {k' : PendingCall τ} :
    (r.modify call change).calls c = some k' ↔
      ∃ k, r.calls c = some k ∧ k' = if c = call then change k else k := by
  rw [modify_calls]
  by_cases hc : c = call
  · subst hc
    simp [eq_comm]
  · simp [hc, eq_comm]

theorem refuse_underWay :
    (r.refuse d status).underWay c = if c = d then none else r.underWay c :=
  Function.update_apply _ _ _ _

theorem enter_calls : (r.enter q d p).calls c = if c = r.nextCallId then
    some { caller := q.caller.module, via := p, completer := d, done := some d }
    else r.calls c :=
  Function.update_apply _ _ _ _

theorem enter_underWay :
    (r.enter q d p).underWay c = if c = d then none else r.underWay c :=
  Function.update_apply _ _ _ _

theorem mem_pendingOf {p : PendingCall τ → Bool} (h : c ∈ r.pendingOf p) :
    c ∈ r.pending ∧ ∃ k, r.calls c = some k ∧ p k = true := by
  obtain ⟨hc, hp⟩ := List.mem_filter.1 h
  cases hk : r.calls c with
  | none =>
    rw [hk] at hp
    cases hp
  | some k => exact ⟨hc, k, rfl, by simpa [hk] using hp⟩

/-- `Register` refuses, or the module is not closed and there is one provider more. -/
theorem register_cases (r : CommandRegistry τ ρ) (p : CommandProvider)
    (allowlist : Option (List String)) : (r.register p allowlist).2 = r ∨
      ((p.owner ≠ "" → p.owner ∉ r.closed) ∧ r.lookup p.id = none ∧ (r.register p allowlist).2 =
        { r with providers := ⟨r.nextSerial, p⟩ :: r.providers
                 nextSerial := r.nextSerial + 1 }) := by
  unfold CommandRegistry.register
  split_ifs with _ _ _ _ hclosed hfree
  all_goals try exact .inl rfl
  exact .inr ⟨fun howner hin => hclosed ⟨howner, hin⟩, Option.not_isSome_iff_eq_none.1 hfree, rfl⟩

/-- `Unregister` refuses, or there are fewer providers. -/
theorem unregister_cases (r : CommandRegistry τ ρ) (id owner : String) :
    (r.unregister id owner).2 = r ∨ (r.unregister id owner).2 =
      { r with providers := r.providers.filter fun other => other.provider.id ≠ id } := by
  unfold CommandRegistry.unregister
  split
  · exact .inl rfl
  split
  · exact .inl rfl
  · exact .inr rfl

end Tables

/-! ## Stacks -/

/-- A part of a stack whose top gave way: within what is new, or within what was there. -/
theorem suffix_append_cases {α : Type} {f : α} {rest fs below : List α}
    (h : f :: rest <:+ fs ++ below) :
    (∃ pre mid, fs = pre ++ f :: mid ∧ rest = mid ++ below) ∨ f :: rest <:+ below := by
  obtain ⟨pre, hpre⟩ := h
  induction fs generalizing pre with
  | nil => exact .inr ⟨pre, hpre⟩
  | cons first fs ih =>
    cases pre with
    | nil =>
      obtain ⟨rfl, hrest⟩ := List.cons.inj hpre
      exact .inl ⟨[], fs, rfl, hrest⟩
    | cons head pre =>
      obtain ⟨rfl, htail⟩ := List.cons.inj hpre
      rcases ih pre htail with ⟨pre', mid, rfl, hmid⟩ | hbelow
      · exact .inl ⟨head :: pre', mid, rfl, hmid⟩
      · exact .inr hbelow

theorem exists_suffix_of_mem {α : Type} {f : α} {stack : List α} (h : f ∈ stack) :
    ∃ rest, f :: rest <:+ stack := by
  obtain ⟨pre, rest, rfl⟩ := List.append_of_mem h
  exact ⟨rest, pre, rfl⟩

/-! ## Sections -/

namespace CommandFrame

/-- The completer an `Invoke` still has in its hands. -/
def completer? : CommandFrame ρ → Option Nat
  | invokeStart _ completer | invokeLookup _ completer | invokeCheck _ completer _
  | invokeAsking _ completer _ | invokeEnter _ completer _ => some completer
  | _ => none

end CommandFrame

open CommandFrame CommandRegistry

/-- The caller has what the command asks of it. -/
def CommandRequest.mayUse (q : CommandRequest) (p : CommandProvider) : Prop :=
  ¬ (q.caller.isHost = false ∧ (p.flags &&& kHostOnly ≠ 0 ∨
    q.caller.caps &&& p.requiredCaps ≠ p.requiredCaps))

instance (q : CommandRequest) (p : CommandProvider) : Decidable (q.mayUse p) :=
  inferInstanceAs (Decidable (¬ _))

variable [DecidableEq τ]

/-- What a frame of thread `t` can do next, and what it leaves. -/
inductive Section (t : τ) (r : CommandRegistry τ ρ) :
    CommandFrame ρ → CommandRegistry τ ρ → List (CommandFrame ρ) → Prop where
  | register (p) (allowlist) : Section t r (.register p allowlist) (r.register p allowlist).2 []
  | unregister (id owner) : Section t r (.unregister id owner) (r.unregister id owner).2 []
  | reopen (module) : Section t r (.reopen module)
      { r with closed := r.closed.filter fun other => other ≠ module
               history := .reopened module :: r.history } []
  | refused {f} {completer} {status} (hf : f.completer? = some completer) (hstatus : status ≠ .ok) :
      Section t r f (r.refuse completer status) []
  | checkedClosed (q completer) (h : q.caller.module = "" ∨ q.caller.module ∉ r.closed) :
      Section t r (.invokeStart q completer) r [.invokeLookup q completer]
  | lookedUp (q completer p) (h : r.lookup q.id = some p) :
      Section t r (.invokeLookup q completer) r [.invokeCheck q completer p]
  | asks (q completer p) (h : q.mayUse p.provider) :
      Section t r (.invokeCheck q completer p) r [.invokeAsking q completer p]
  | admits (q completer p) (h : q.mayUse p.provider) :
      Section t r (.invokeCheck q completer p) r [.invokeEnter q completer p]
  | enabled (q completer p) :
      Section t r (.invokeAsking q completer p) r [.invokeEnter q completer p]
  | posts (q completer p) : Section t r (.invokeEnter q completer p)
      { r.enter q completer p with posted := r.posted ++ [r.nextCallId] }
      [.invokeReturn completer r.nextCallId]
  | enters (q completer p) : Section t r (.invokeEnter q completer p) (r.enter q completer p)
      [.runCheck r.nextCallId, .invokeReturn completer r.nextCallId]
  | answers (completer call) :
      Section t r (.invokeReturn completer call) (r.log (.answered completer .ok call)) []
  | runDropped (call record) (hcall : r.calls call = some record) (h : record.cancelled = true) :
      Section t r (.runCheck call) r []
  | runChecked (call) : Section t r (.runCheck call) r [.runLookup call]
  | runGone (call record) (result) (hcall : r.calls call = some record)
      (h : r.lookup record.via.provider.id ≠ some record.via) :
      Section t r (.runLookup call) r
        [.finishFind call record.via.provider.owner .registry result]
  | runFound (call record) (hcall : r.calls call = some record)
      (h : r.lookup record.via.provider.id = some record.via) :
      Section t r (.runLookup call) r [.runEnter call]
  | runs (call record) (hcall : r.calls call = some record) : Section t r (.runEnter call)
      (r.log (.entered call record.via.provider.owner)) [.running call]
  | runReturned (call) : Section t r (.running call) r []
  | finishRefused (call provider by_ result) (h : ∀ record, r.calls call = some record →
      ¬ (call ∈ r.pending ∧ record.via.provider.owner = provider)) :
      Section t r (.finishFind call provider by_ result) r []
  | finishFound (call by_ result record) (hcall : r.calls call = some record)
      (hpending : call ∈ r.pending) :
      Section t r (.finishFind call record.via.provider.owner by_ result) r
        [.deliverLock call by_ result]
  | locks (call by_ result record record') (hcall : r.calls call = some record)
      (hlock : lockedBy t record = some record') :
      Section t r (.deliverLock call by_ result) (r.modify call fun _ => record')
        [.deliverErase call by_ result]
  | erases (call by_ result) :
      Section t r (.deliverErase call by_ result) (r.erase call) [.deliverDecide call by_ result]
  | decidesNot (call by_ result record) (hcall : r.calls call = some record)
      (h : record.cancelled = true ∨ record.finished = true) :
      Section t r (.deliverDecide call by_ result) r [.deliverEnd call]
  | decides (call by_ result record) (hcall : r.calls call = some record)
      (hcancelled : record.cancelled = false) (hfinished : record.finished = false) :
      Section t r (.deliverDecide call by_ result)
        ((r.modify call fun record => { record with finished := true, done := none }).log
          (.completed call by_ { result with callId := call }))
        [.deliverStart call record.done { result with callId := call }]
  | starts (call completer result record) (hcall : r.calls call = some record) :
      Section t r (.deliverStart call (some completer) result)
        (r.log (.started call completer record.caller result)) [.calling call, .deliverEnd call]
  | startsNone (call result) (done) :
      Section t r (.deliverStart call done result) r [.deliverEnd call]
  | callReturned (call) : Section t r (.calling call) r []
  | delivers (call) :
      Section t r (.deliverEnd call) ((r.modify call unlocked).log (.delivered call)) []
  | cancelUnknown (call caller record) (hcall : r.calls call = some record)
      (h : call ∉ r.pending) : Section t r (.cancelFind call caller)
        (r.log (.cancelReturned call (record.caller = caller) .unknown)) []
  | cancelRefused (call caller status) (hstatus : status ≠ .ok)
      (h : ∀ record, r.calls call = some record → record.caller ≠ caller) :
      Section t r (.cancelFind call caller) (r.log (.cancelReturned call false status)) []
  | cancelFound (call record) (hcall : r.calls call = some record) (hpending : call ∈ r.pending) :
      Section t r (.cancelFind call record.caller) r [.cancelMark call record.caller]
  | cancelMarks (call caller) : Section t r (.cancelMark call caller)
      ((r.modify call fun record => { record with cancelled := true }).log
        (.cancelled call caller)) [.cancelLock call]
  | cancelLocks (call record record') (hcall : r.calls call = some record)
      (hlock : lockedBy t record = some record') :
      Section t r (.cancelLock call) (r.modify call fun _ => record') [.cancelClear call]
  | cancelClears (call) : Section t r (.cancelClear call)
      (r.modify call fun record => { record with done := none }) [.cancelErase call]
  | cancelErases (call) : Section t r (.cancelErase call)
      (((r.erase call).modify call unlocked).log (.cancelReturned call true .ok)) []
  | removesNothing : Section t r (.removeCollect "") r []
  | removes (module) (result) (hmodule : module ≠ "") :
      Section t r (.removeCollect module) (r.withdraw module)
        ((r.made module).map (.cancelFind · module) ++
          (r.provided module).map (.deliverLock · .registry result) ++ [.removeEnd module])
  | removed (module) : Section t r (.removeEnd module) (r.log (.removed module)) []

section Advance

variable {t : τ} {r r₁ r' : CommandRegistry τ ρ} {f : CommandFrame ρ}
  {fs₁ fs : List (CommandFrame ρ)}

theorem Section.of_eq (hsection : Section t r f r₁ fs₁) (h : (r₁, fs₁) = (r', fs)) :
    Section t r f r' fs := by
  obtain ⟨rfl, rfl⟩ := Prod.mk.inj h
  exact hsection

theorem Section.of_some (hsection : Section t r f r₁ fs₁) (h : some (r₁, fs₁) = some (r', fs)) :
    Section t r f r' fs :=
  hsection.of_eq (Option.some.inj h)

theorem section_of_advance {gui : τ} (h : r.advance gui t f = some (r', fs)) :
    Section t r f r' fs := by
  cases f with
  | register p allowlist => exact .of_some (.register p allowlist) h
  | unregister id owner => exact .of_some (.unregister id owner) h
  | invokeStart q completer =>
    rw [advance] at h
    split at h
    · exact .of_some (.refused rfl (by decide)) h
    · next hopen =>
      refine .of_some (.checkedClosed q completer ?_) h
      by_cases hhost : q.caller.module = ""
      · exact .inl hhost
      · exact .inr fun hclosed => hopen ⟨decide_eq_false hhost, hclosed⟩
  | invokeLookup q completer =>
    rw [advance] at h
    split at h
    · exact .of_some (.refused rfl (by decide)) h
    · next p hp =>
      exact .of_some (.lookedUp q completer p hp) h
  | invokeCheck q completer p =>
    rw [advance] at h
    split at h
    · exact .of_some (.refused rfl (by decide)) h
    next hmay =>
    split at h
    · exact .of_some (.asks q completer p hmay) h
    · exact .of_some (.admits q completer p hmay) h
  | invokeAsking q completer p => cases h
  | invokeEnter q completer p =>
    rw [advance] at h
    split at h
    · exact .of_some (.posts q completer p) h
    · exact .of_some (.enters q completer p) h
  | invokeReturn completer call => exact .of_some (.answers completer call) h
  | runCheck call =>
    rw [advance] at h
    split at h
    · next hcancelled =>
      obtain ⟨rfl, rfl⟩ := Prod.mk.inj (Option.some.inj h)
      cases hcall : r.calls call with
      | none => rw [hcall] at hcancelled; cases hcancelled
      | some record => exact .runDropped call record hcall (by simpa [hcall] using hcancelled)
    · exact .of_some (.runChecked call) h
  | runLookup call =>
    obtain ⟨record, hcall, h⟩ := Option.map_eq_some_iff.1 h
    split at h
    · next hgone => exact .of_eq (.runGone call record _ hcall hgone) h
    · next hfound => exact .of_eq (.runFound call record hcall (not_not.1 hfound)) h
  | runEnter call =>
    obtain ⟨record, hcall, h⟩ := Option.map_eq_some_iff.1 h
    exact .of_eq (.runs call record hcall) h
  | running call => cases h
  | finishFind call provider by_ result =>
    rw [advance] at h
    split at h
    · next record hcall =>
      split at h
      · next hfound =>
        obtain ⟨hpending, rfl⟩ := hfound
        exact .of_some (.finishFound call by_ result record hcall hpending) h
      · next hnot =>
        refine .of_some (.finishRefused call provider by_ result fun other hother => ?_) h
        rwa [Option.some.inj (hother.symm.trans hcall)]
    · next hnone =>
      refine .of_some (.finishRefused call provider by_ result fun other hother => ?_) h
      exact absurd hother (by simp [hnone])
  | deliverLock call by_ result =>
    obtain ⟨record', hbind, h⟩ := Option.map_eq_some_iff.1 h
    obtain ⟨record, hcall, hlock⟩ := Option.bind_eq_some_iff.1 hbind
    exact .of_eq (.locks call by_ result record record' hcall hlock) h
  | deliverErase call by_ result => exact .of_some (.erases call by_ result) h
  | deliverDecide call by_ result =>
    obtain ⟨record, hcall, h⟩ := Option.map_eq_some_iff.1 h
    split at h
    · next hover => exact .of_eq (.decidesNot call by_ result record hcall hover) h
    · next hfree =>
      rw [not_or, Bool.not_eq_true, Bool.not_eq_true] at hfree
      exact .of_eq (.decides call by_ result record hcall hfree.1 hfree.2) h
  | deliverStart call done result =>
    cases done with
    | none =>
      exact .of_some (.startsNone call result none) h
    | some completer =>
      cases hcall : r.calls call with
      | none =>
        simp only [advance, hcall] at h
        exact .of_some (.startsNone call result _) h
      | some record =>
        simp only [advance, hcall] at h
        exact .of_some (.starts call completer result record hcall) h
  | calling call => cases h
  | deliverEnd call => exact .of_some (.delivers call) h
  | cancelFind call caller =>
    rw [advance] at h
    split at h
    · next record hcall =>
      split at h
      · next hout =>
        exact .of_some (.cancelUnknown call caller record hcall hout) h
      next hin =>
      split at h
      · next hother =>
        refine .of_some (.cancelRefused call caller _ (by decide) fun other hcall' => ?_) h
        rwa [Option.some.inj (hcall'.symm.trans hcall)]
      · next hown =>
        obtain rfl := not_not.1 hown
        exact .of_some (.cancelFound call record hcall (not_not.1 hin)) h
    · next hnone =>
      refine .of_some (.cancelRefused call caller _ (by decide) fun other hcall => ?_) h
      exact absurd hcall (by simp [hnone])
  | cancelMark call caller => exact .of_some (.cancelMarks call caller) h
  | cancelLock call =>
    obtain ⟨record', hbind, h⟩ := Option.map_eq_some_iff.1 h
    obtain ⟨record, hcall, hlock⟩ := Option.bind_eq_some_iff.1 hbind
    exact .of_eq (.cancelLocks call record record' hcall hlock) h
  | cancelClear call => exact .of_some (.cancelClears call) h
  | cancelErase call => exact .of_some (.cancelErases call) h
  | removeCollect module =>
    rw [advance] at h
    split at h
    · next hempty =>
      subst hempty
      exact .of_some .removesNothing h
    · next hmodule => exact .of_some (.removes module _ hmodule) h
  | removeEnd module => exact .of_some (.removed module) h
  | reopen module => exact .of_some (.reopen module) h

theorem section_of_returnFrom {s : CommandSystem τ ρ} {enabled : Bool}
    (h : s.returnFrom enabled f = some (r', fs)) : Section t s.registry f r' fs := by
  cases f with
  | invokeAsking q completer p =>
    rw [CommandSystem.returnFrom] at h
    split at h
    · exact .of_some (.enabled q completer p) h
    · exact .of_some (.refused rfl (by decide)) h
  | running call => exact .of_some (.runReturned call) h
  | calling call => exact .of_some (.callReturned call) h
  | _ => cases h

end Advance

/-- Everything a move can do: nothing, a section of one thread, a call from outside, or a run
that was posted. -/
theorem step_cases (gui : τ) (s : CommandSystem τ ρ) (m : CommandMove τ ρ) :
    s.step gui m = s ∨
    (∃ t f below r' fs, s.threads t = f :: below ∧ (m = .go t ∨ f.isOutside = true) ∧
      Section t s.registry f r' fs ∧ s.step gui m = s.put t r' (fs ++ below)) ∨
    (∃ t op, s.isOutside t = true ∧
      s.step gui m = s.put t (s.startRegistry t op) (s.startFrame op :: s.threads t)) ∨
    ∃ call later, s.registry.posted = call :: later ∧ s.isOutside gui = true ∧
      s.step gui m = s.put gui { s.registry with posted := later }
        (.runCheck call :: s.threads gui) := by
  cases m with
  | go t =>
    rw [CommandSystem.step]
    split
    · exact .inl rfl
    · next f below hstack =>
      split
      · exact .inl rfl
      · next r' fs hadvance =>
        exact .inr (.inl ⟨t, f, below, r', fs, hstack, .inl rfl, section_of_advance hadvance, rfl⟩)
  | call t op =>
    rw [CommandSystem.step]
    split
    · next houtside => exact .inr (.inr (.inl ⟨t, op, houtside, rfl⟩))
    · exact .inl rfl
  | «return» t enabled =>
    rw [CommandSystem.step]
    split
    · exact .inl rfl
    · next f below hstack =>
      split
      · exact .inl rfl
      · next r' fs hreturn =>
        refine .inr (.inl ⟨t, f, below, r', fs, hstack, .inr ?_, section_of_returnFrom hreturn, rfl⟩)
        cases f <;> first | rfl | cases hreturn
  | takePosted =>
    rw [CommandSystem.step]
    split
    · next call later hposted =>
      split
      · next houtside => exact .inr (.inr (.inr ⟨call, later, hposted, houtside, rfl⟩))
      · exact .inl rfl
    · exact .inl rfl

end GpgFrontend
