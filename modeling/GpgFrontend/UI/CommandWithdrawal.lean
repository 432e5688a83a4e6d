import GpgFrontend.UI.CommandRegistrySafety
import Mathlib.Data.Fintype.Basic

/-!
# Nothing after a call is cancelled, or a module withdrawn

`Cancel` promises that the `done` of the call never runs after it has returned, `RemoveAllFor` that
no callback enters the module again. Both look a call up in the table, which a delivery has left
before it starts the `done`; and an `Invoke` and a `run` are let in some sections before they come
to the table and to the provider.

- `none_after_withdrawal`: **in a run whose steps are all clear the promise is kept.**
-/

namespace GpgFrontend

variable {τ ρ : Type}

open CommandFrame CommandRegistry

/-! ## The promise -/

/-- A `RemoveAllFor` the module has come back, and no `Reopen` of it came since. -/
def withdrawn (module : String) : List (CommandEvent ρ) → Bool
  | [] => false
  | .removed other :: before => other = module || withdrawn module before
  | .reopened other :: before => other ≠ module && withdrawn module before
  | _ :: before => withdrawn module before

/-- A `Cancel` by the caller of the call has come back. -/
def cancelReturned (call : Nat) (history : List (CommandEvent ρ)) : Bool :=
  history.any fun e =>
    match e with
    | .cancelReturned other own _ => other = call && own
    | _ => false

/-- No `done` starts after its call was cancelled or its caller withdrawn, and no `run` is entered
of an owner that is withdrawn. -/
def Orderly : List (CommandEvent ρ) → Prop
  | [] => True
  | .started call _ caller _ :: before =>
    (cancelReturned call before = false ∧ withdrawn caller before = false) ∧ Orderly before
  | .entered _ owner :: before => withdrawn owner before = false ∧ Orderly before
  | _ :: before => Orderly before

instance Orderly.decidable : ∀ history : List (CommandEvent ρ), Decidable (Orderly history)
  | [] => isTrue trivial
  | .started _ _ _ _ :: before =>
    have := Orderly.decidable before
    inferInstanceAs (Decidable ((_ ∧ _) ∧ Orderly before))
  | .entered _ _ :: before =>
    have := Orderly.decidable before
    inferInstanceAs (Decidable (_ ∧ Orderly before))
  | .answered .. :: before | .completed .. :: before | .delivered .. :: before
  | .cancelled .. :: before | .cancelReturned .. :: before | .removed .. :: before
  | .reopened .. :: before => Orderly.decidable before

/-- The caller of a call. -/
def CommandRegistry.callerOf (r : CommandRegistry τ ρ) (call : Nat) : Option String :=
  (r.calls call).map (·.caller)

/-- What `Cancel` and `RemoveAllFor` promise. -/
structure NoneAfter (s : CommandSystem τ ρ) : Prop where
  orderly : Orderly s.registry.history
  pending : ∀ module, withdrawn module s.registry.history = true →
    s.registry.pendingCallsOf module = 0
  calling : ∀ module, withdrawn module s.registry.history = true → ∀ t call,
    .calling call ∈ s.threads t → s.registry.callerOf call ≠ some module

/-! ## The narrow places -/

namespace CommandFrame

/-- The call whose `done` a frame is about to enter, out of the table as it is. -/
def mayStart (r : CommandRegistry τ ρ) : CommandFrame ρ → Option Nat
  | deliverDecide call _ _ =>
    if (r.calls call).any fun k => !k.cancelled && !k.finished then some call else none
  | deliverStart call (some _) _ => some call
  | _ => none

/-- An `Invoke` that is past the look at the closed modules or has its provider, a `run` that is past
the look at the provider: what lets a module in that is withdrawn meanwhile. -/
def letsIn (r : CommandRegistry τ ρ) (module : String) : CommandFrame ρ → Bool
  | invokeLookup q _ => q.caller.module = module
  | invokeCheck q _ p =>
    q.mayUse p.provider && (q.caller.module = module || p.provider.owner = module)
  | invokeAsking q _ p | invokeEnter q _ p =>
    q.caller.module = module || p.provider.owner = module
  | runEnter call => (r.calls call).any fun k => k.via.provider.owner = module
  | _ => false

/-- The call whose `done` a frame is in. -/
def inDone : CommandFrame ρ → Option Nat
  | calling call => some call
  | _ => none

/-- What no thread is at as a frame goes on:
- `Cancel` looks its call up: about to enter the `done` of that call;
- `RemoveAllFor` closes a module: letting it in, or about to enter a `done` of its;
- `RemoveAllFor` returns: in a `done` of the module;
- `Reopen`: in a `RemoveAllFor` the same module. -/
def Clear (s : CommandSystem τ ρ) : CommandFrame ρ → Prop
  | cancelFind call caller => s.registry.callerOf call = some caller →
    ∀ t, ∀ f ∈ s.threads t, f.mayStart s.registry ≠ some call
  | removeCollect module => module ≠ "" → ∀ t, ∀ f ∈ s.threads t,
    f.letsIn s.registry module = false ∧
      ∀ call ∈ f.mayStart s.registry, s.registry.callerOf call ≠ some module
  | removeEnd module => ∀ t, ∀ f ∈ s.threads t, ∀ call ∈ f.inDone,
    s.registry.callerOf call ≠ some module
  | reopen module => ∀ t, removeEnd module ∉ s.threads t
  | _ => True

instance [Fintype τ] [DecidableEq ρ] (s : CommandSystem τ ρ) : ∀ f : CommandFrame ρ, Decidable (f.Clear s)
  | cancelFind _ _ => inferInstanceAs (Decidable (_ → ∀ t, ∀ f ∈ s.threads t, _))
  | removeCollect _ => inferInstanceAs (Decidable (_ → ∀ t, ∀ f ∈ s.threads t, _ ∧ ∀ _ ∈ _, _))
  | removeEnd _ => inferInstanceAs (Decidable (∀ t, ∀ f ∈ s.threads t, ∀ _ ∈ _, _))
  | reopen module => inferInstanceAs (Decidable (∀ t, removeEnd module ∉ s.threads t))
  | register .. | unregister .. | invokeStart .. | invokeLookup .. | invokeCheck ..
  | invokeAsking .. | invokeEnter .. | invokeReturn .. | runCheck .. | runLookup .. | runEnter ..
  | running .. | finishFind .. | deliverLock .. | deliverErase .. | deliverDecide ..
  | deliverStart .. | calling .. | deliverEnd .. | cancelMark .. | cancelLock .. | cancelClear ..
  | cancelErase .. => isTrue trivial

end CommandFrame

/-- A thread goes on only where it is clear. -/
def CommandSystem.Clear (s : CommandSystem τ ρ) : CommandMove τ ρ → Prop
  | .go t => ∀ f ∈ (s.threads t).head?, f.Clear s
  | _ => True

instance [Fintype τ] [DecidableEq ρ] (s : CommandSystem τ ρ) : ∀ m, Decidable (s.Clear m)
  | .go t => inferInstanceAs (Decidable (∀ f ∈ (s.threads t).head?, f.Clear s))
  | .call .. | .return .. | .takePosted => isTrue trivial

/-! ## The frames of a `RemoveAllFor` under way -/

namespace CommandFrame

/-- A frame of a `Cancel` that a module makes. -/
def cancels (module : String) (call : Nat) : CommandFrame ρ → Prop
  | cancelFind other caller => other = call ∧ caller = module
  | cancelMark other _ | cancelLock other | cancelClear other | cancelErase other => other = call
  | _ => False

/-- A frame of a delivery that takes a call out of the table. -/
def takes (call : Nat) : CommandFrame ρ → Prop
  | deliverLock other _ _ | deliverErase other _ _ => other = call
  | _ => False

end CommandFrame

section Sections

variable [DecidableEq τ] {t : τ} {depth : Nat} {r r' : CommandRegistry τ ρ} {f : CommandFrame ρ}
  {fs : List (CommandFrame ρ)} {c : Nat} {k k' : PendingCall τ} {module : String}

/-- A call that a module cancels goes on to be cancelled, unless it had left the table. -/
theorem Section.cancels (h : Section t r f r' fs) (hf : f.cancels module c)
    (hk : r.calls c = some k) (hcaller : k.caller = module) :
    (∃ g ∈ fs, g.cancels module c) ∨
      (f = .cancelFind c module ∧ c ∉ r.pending ∧ r'.pending = r.pending) ∨
      (f = .cancelErase c ∧ c ∉ r'.pending) := by
  cases h with
  | cancelUnknown call caller record hcall hout =>
    obtain ⟨rfl, rfl⟩ := hf
    exact .inr (.inl ⟨rfl, hout, rfl⟩)
  | cancelRefused call caller status hstatus hother =>
    obtain ⟨rfl, rfl⟩ := hf
    exact absurd hcaller (hother k hk)
  | cancelFound call record hcall hpending =>
    obtain ⟨rfl, -⟩ := hf
    exact .inl ⟨_, List.mem_cons_self, rfl⟩
  | cancelMarks call caller => exact .inl ⟨_, List.mem_cons_self, hf⟩
  | cancelLocks call record record' hcall hlock => exact .inl ⟨_, List.mem_cons_self, hf⟩
  | cancelClears call => exact .inl ⟨_, List.mem_cons_self, hf⟩
  | cancelErases call =>
    obtain rfl : call = c := hf
    refine .inr (.inr ⟨rfl, fun hin => ?_⟩)
    exact of_decide_eq_true (List.mem_filter.1 hin).2 rfl
  | refused hcompleter hstatus => cases f <;> first | exact hf.elim | cases hcompleter
  | _ => cases hf

/-- A call that a delivery takes goes on to leave the table. -/
theorem Section.takes (h : Section t r f r' fs) (hf : f.takes c) :
    (∃ g ∈ fs, g.takes c) ∨ c ∉ r'.pending := by
  cases h with
  | locks call by_ result record record' hcall hlock => exact .inl ⟨_, List.mem_cons_self, hf⟩
  | erases call by_ result =>
    obtain rfl : call = c := hf
    exact .inr fun hin => of_decide_eq_true (List.mem_filter.1 hin).2 rfl
  | refused hcompleter hstatus => cases f <;> first | exact hf.elim | cases hcompleter
  | _ => cases hf

/-- A call leaves the table cancelled, or for a delivery. -/
theorem Section.leaves (h : Section t r f r' fs) (hf : FrameOk r t depth f) (hin : c ∈ r.pending)
    (hout : c ∉ r'.pending) : (∃ by_ result, .deliverDecide c by_ result ∈ fs) ∨
      ∃ k, r.calls c = some k ∧ k.cancelled = true := by
  have herased : ∀ {call : Nat}, c ∉ r.pending.filter (fun other => other ≠ call) → c = call :=
    fun hleft => not_not.1 fun hne => hleft (List.mem_filter.2 ⟨hin, decide_eq_true hne⟩)
  cases h with
  | register p allowlist =>
    refine absurd ?_ hout
    unfold CommandRegistry.register
    split_ifs <;> exact hin
  | unregister id owner =>
    refine absurd ?_ hout
    unfold CommandRegistry.unregister
    split
    · exact hin
    · split <;> exact hin
  | posts q completer p => exact absurd (List.mem_cons_of_mem _ hin) hout
  | enters q completer p => exact absurd (List.mem_cons_of_mem _ hin) hout
  | erases call by_ result =>
    obtain rfl := herased hout
    exact .inl ⟨by_, result, List.mem_cons_self⟩
  | cancelErases call =>
    obtain rfl := herased hout
    exact .inr hf.known
  | _ => exact absurd hin hout

/-- A delivery that was to be decided is decided. -/
theorem Section.decided (h : Section t r f r' fs) {by_ : CompletedBy} {result : RawResult ρ}
    (hf : f = .deliverDecide c by_ result) :
    ∃ k', r'.calls c = some k' ∧ (k'.cancelled = true ∨ k'.finished = true) := by
  cases h with
  | decidesNot call by_ result record hcall hsettled =>
    obtain ⟨rfl, -, -⟩ := CommandFrame.deliverDecide.inj hf
    exact ⟨record, hcall, hsettled⟩
  | decides call by_ result record hcall hcancelled hfinished =>
    obtain ⟨rfl, -, -⟩ := CommandFrame.deliverDecide.inj hf
    exact ⟨_, modify_some.2 ⟨record, hcall, (if_pos rfl).symm⟩, .inr rfl⟩
  | refused hcompleter hstatus => subst hf; cases hcompleter
  | _ => cases hf

/-- A closed module stays closed until it is reopened. -/
theorem Section.closed (h : Section t r f r' fs) (hclosed : module ∈ r.closed)
    (hf : f ≠ .reopen module) : module ∈ r'.closed := by
  cases h with
  | register p allowlist =>
    rcases register_cases r p allowlist with heq | ⟨-, -, heq⟩ <;> (rw [heq]; exact hclosed)
  | unregister id owner =>
    rcases unregister_cases r id owner with heq | heq <;> (rw [heq]; exact hclosed)
  | reopen other =>
    refine List.mem_filter.2 ⟨hclosed, decide_eq_true fun heq => hf ?_⟩
    rw [heq]
  | removes other result hother => exact List.mem_cons_of_mem _ hclosed
  | _ => exact hclosed

/-- A closed module registers nothing. -/
theorem Section.providers (h : Section t r f r' fs) (hnamed : module ≠ "")
    (hclosed : module ∈ r.closed) (hout : ∀ p ∈ r.providers, p.provider.owner ≠ module) :
    ∀ p ∈ r'.providers, p.provider.owner ≠ module := by
  cases h with
  | register p allowlist =>
    rcases register_cases r p allowlist with heq | ⟨hopen, -, heq⟩
    · rw [heq]
      exact hout
    · rw [heq]
      refine List.forall_mem_cons.2 ⟨fun howner => ?_, hout⟩
      have howned : p.owner = module := howner
      exact hopen (howned ▸ hnamed) (howned ▸ hclosed)
  | unregister id owner =>
    rcases unregister_cases r id owner with heq | heq
    · rw [heq]
      exact hout
    · rw [heq]
      exact fun p hp => hout p (List.mem_of_mem_filter hp)
  | removes other result hother => exact fun p hp => hout p (List.mem_of_mem_filter hp)
  | _ => exact hout

/-- A module that is kept out is not let in. -/
theorem Section.letsIn (h : Section t r f r' fs) (hnamed : module ≠ "")
    (hclosed : module ∈ r.closed) (hout : ∀ p ∈ r.providers, p.provider.owner ≠ module)
    (hf : f.letsIn r module = false) : ∀ g ∈ fs, g.letsIn r' module = false := by
  cases h with
  | checkedClosed q completer hopen =>
    refine List.forall_mem_singleton.2 (decide_eq_false fun heq => ?_)
    rcases hopen with hhost | hopen
    · exact hnamed (heq.symm.trans hhost)
    · exact hopen (heq ▸ hclosed)
  | lookedUp q completer p hp =>
    have hcaller : q.caller.module ≠ module := of_decide_eq_false hf
    refine List.forall_mem_singleton.2 ?_
    simp [CommandFrame.letsIn, hcaller, hout p (lookup_mem hp)]
  | asks q completer p hmay =>
    refine List.forall_mem_singleton.2 ?_
    simpa [CommandFrame.letsIn, hmay] using hf
  | admits q completer p hmay =>
    refine List.forall_mem_singleton.2 ?_
    simpa [CommandFrame.letsIn, hmay] using hf
  | enabled q completer p => exact List.forall_mem_singleton.2 hf
  | runFound call record hcall hfound =>
    refine List.forall_mem_singleton.2 ?_
    simp [CommandFrame.letsIn, hcall, hout _ (lookup_mem hfound)]
  | removes other result hother =>
    intro g hg
    simp only [List.mem_append, List.mem_map, List.mem_singleton] at hg
    rcases hg with (⟨c, -, rfl⟩ | ⟨c, -, rfl⟩) | rfl <;> rfl
  | posts q completer p => exact List.forall_mem_singleton.2 rfl
  | enters q completer p =>
    exact List.forall_mem_cons.2 ⟨rfl, List.forall_mem_singleton.2 rfl⟩
  | starts call completer result record hcall =>
    exact List.forall_mem_cons.2 ⟨rfl, List.forall_mem_singleton.2 rfl⟩
  | _ => first | exact List.forall_mem_nil _ | exact List.forall_mem_singleton.2 rfl

omit [DecidableEq τ] in
/-- What lets a module in later let it in before. -/
theorem letsIn_of_later {g : CommandFrame ρ} (hlater : Later r r') (hknown : g.Known r)
    (h : g.letsIn r module = false) : g.letsIn r' module = false := by
  cases g with
  | runEnter call =>
    obtain ⟨k, hk⟩ := hknown
    obtain ⟨k', hk', hgrown⟩ := hlater.calls hk
    simpa [CommandFrame.letsIn, hk, hk', hgrown.via] using h
  | _ => exact h

theorem Section.withdrawn (h : Section t r f r' fs) (hw : withdrawn module r'.history = true) :
    (withdrawn module r.history = true ∧ f ≠ .reopen module) ∨ f = .removeEnd module := by
  cases h with
  | register p allowlist =>
    refine .inl ⟨?_, fun heq => nomatch heq⟩
    rcases register_cases r p allowlist with heq | ⟨-, -, heq⟩ <;> (rw [heq] at hw; exact hw)
  | unregister id owner =>
    refine .inl ⟨?_, fun heq => nomatch heq⟩
    rcases unregister_cases r id owner with heq | heq <;> (rw [heq] at hw; exact hw)
  | reopen other =>
    obtain ⟨hother, hbefore⟩ := (Bool.and_eq_true _ _).mp hw
    exact .inl ⟨hbefore, fun heq => of_decide_eq_true hother (CommandFrame.reopen.inj heq)⟩
  | removed other =>
    rcases (Bool.or_eq_true _ _).mp hw with heq | hbefore
    · exact .inr (congrArg CommandFrame.removeEnd (of_decide_eq_true heq))
    · exact .inl ⟨hbefore, fun heq => nomatch heq⟩
  | refused hcompleter hstatus =>
    refine .inl ⟨hw, fun heq => ?_⟩
    subst heq
    cases hcompleter
  | _ => exact .inl ⟨hw, fun heq => nomatch heq⟩

theorem Section.cancelReturned (h : Section t r f r' fs)
    (hc : cancelReturned c r'.history = true) : cancelReturned c r.history = true ∨
      (∃ caller, f = .cancelFind c caller ∧ r.callerOf c = some caller ∧ c ∉ r.pending) ∨
      f = .cancelErase c := by
  cases h with
  | register p allowlist =>
    refine .inl ?_
    rcases register_cases r p allowlist with heq | ⟨-, -, heq⟩ <;> (rw [heq] at hc; exact hc)
  | unregister id owner =>
    refine .inl ?_
    rcases unregister_cases r id owner with heq | heq <;> (rw [heq] at hc; exact hc)
  | cancelUnknown call caller record hcall hout =>
    rcases (Bool.or_eq_true _ _).mp hc with hnew | hold
    · obtain ⟨hcall', hown⟩ := (Bool.and_eq_true _ _).mp hnew
      obtain rfl := of_decide_eq_true hcall'
      obtain rfl := of_decide_eq_true hown
      exact .inr (.inl ⟨_, rfl, by rw [CommandRegistry.callerOf, hcall]; rfl, hout⟩)
    · exact .inl hold
  | cancelRefused call caller status hstatus hother =>
    rcases (Bool.or_eq_true _ _).mp hc with hnew | hold
    · exact absurd ((Bool.and_eq_true _ _).mp hnew).2 Bool.false_ne_true
    · exact .inl hold
  | cancelErases call =>
    rcases (Bool.or_eq_true _ _).mp hc with hnew | hold
    · exact .inr (.inr (congrArg CommandFrame.cancelErase
        (of_decide_eq_true ((Bool.and_eq_true _ _).mp hnew).1)))
    · exact .inl hold
  | _ => exact .inl hc

/-- A `done` comes to be entered for a call that is neither cancelled nor finished. -/
theorem Section.starting (h : Section t r f r' fs) {d : Nat} {result : RawResult ρ}
    (hg : .deliverStart c (some d) result ∈ fs) :
    ∃ k, r.calls c = some k ∧ k.cancelled = false ∧ k.finished = false := by
  cases h with
  | decides call by_ result record hcall hcancelled hfinished =>
    obtain ⟨rfl, -, -⟩ := CommandFrame.deliverStart.inj (List.mem_singleton.1 hg)
    exact ⟨record, hcall, hcancelled, hfinished⟩
  | removes module result hmodule =>
    simp only [List.mem_append, List.mem_map, List.mem_singleton] at hg
    rcases hg with (⟨c, -, heq⟩ | ⟨c, -, heq⟩) | heq <;> cases heq
  | _ => simp at hg

theorem Section.calling (h : Section t r f r' fs) (hg : .calling c ∈ fs) :
    ∃ d result, f = .deliverStart c (some d) result := by
  cases h with
  | starts call completer result record hcall =>
    rcases List.mem_cons.1 hg with heq | hend
    · obtain rfl := CommandFrame.calling.inj heq
      exact ⟨completer, result, rfl⟩
    · cases List.mem_singleton.1 hend
  | removes module result hmodule =>
    simp only [List.mem_append, List.mem_map, List.mem_singleton] at hg
    rcases hg with (⟨c, -, heq⟩ | ⟨c, -, heq⟩) | heq <;> cases heq
  | _ => simp at hg

/-- A `RemoveAllFor` begins: it has a frame for each call that is left. -/
theorem Section.removing (h : Section t r f r' fs) {pre post : List (CommandFrame ρ)}
    (hfs : fs = pre ++ .removeEnd module :: post) :
    f = .removeCollect module ∧ module ≠ "" ∧ r' = r.withdraw module ∧
      (∀ c ∈ r.made module, .cancelFind c module ∈ pre) ∧
      ∀ c ∈ r.provided module, ∃ g ∈ pre, g.takes c := by
  have hmem : .removeEnd module ∈ fs := hfs ▸ List.mem_append_right _ List.mem_cons_self
  cases h with
  | removes other result hother =>
    have hother' : other = module := by
      simp only [List.mem_append, List.mem_map, List.mem_singleton] at hmem
      rcases hmem with (⟨c, -, heq⟩ | ⟨c, -, heq⟩) | heq
      · cases heq
      · cases heq
      · exact (CommandFrame.removeEnd.inj heq).symm
    subst hother'
    refine ⟨rfl, hother, rfl, ?_⟩
    -- what is before the end of the removal is all there is before its last frame
    rcases List.append_eq_append_iff.1 hfs with ⟨as, hpre, hpost⟩ | ⟨bs, hfirst, hpost⟩
    · have hpost' : as = [] := by
        cases as with
        | nil => rfl
        | cons g as =>
          have := congrArg List.length hpost
          simp at this
      rw [hpost', List.append_nil] at hpre
      rw [hpre]
      exact ⟨fun c hc => List.mem_append_left _ (List.mem_map_of_mem hc),
        fun c hc => ⟨_, List.mem_append_right _ (List.mem_map_of_mem hc), rfl⟩⟩
    · cases bs with
      | nil =>
        rw [List.append_nil] at hfirst
        rw [← hfirst]
        exact ⟨fun c hc => List.mem_append_left _ (List.mem_map_of_mem hc),
          fun c hc => ⟨_, List.mem_append_right _ (List.mem_map_of_mem hc), rfl⟩⟩
      | cons g bs =>
        have hg : .removeEnd other ∈ pre ++ g :: bs := by
          rw [(List.cons.inj hpost).1]
          exact List.mem_append_right _ List.mem_cons_self
        rw [← hfirst] at hg
        simp only [List.mem_append, List.mem_map] at hg
        rcases hg with ⟨c, -, heq⟩ | ⟨c, -, heq⟩ <;> cases heq
  | _ => simp at hmem

end Sections

/-! ## The invariant -/

section Invariant

variable [DecidableEq τ] {s : CommandSystem τ ρ} {gui : τ}

/-- A call whose `done` will not be entered any more. -/
structure CallSettled (s : CommandSystem τ ρ) (c : Nat) : Prop where
  settled : ∃ k, s.registry.calls c = some k ∧ (k.cancelled = true ∨ k.finished = true)
  unstarted : ∀ t d result, .deliverStart c (some d) result ∉ s.threads t

/-- A module that nothing lets in. -/
structure Shut (s : CommandSystem τ ρ) (module : String) : Prop where
  named : module ≠ ""
  closed : module ∈ s.registry.closed
  providers : ∀ p ∈ s.registry.providers, p.provider.owner ≠ module
  letsIn : ∀ t, ∀ f ∈ s.threads t, f.letsIn s.registry module = false

/-- What is left to do for a `RemoveAllFor`, in the frames above its last one. -/
structure Removing (s : CommandSystem τ ρ) (pre : List (CommandFrame ρ)) (module : String) :
    Prop where
  settled : ∀ c k, s.registry.calls c = some k → k.caller = module →
    CallSettled s c ∨ ∃ f ∈ pre, f.cancels module c
  made : ∀ c k, c ∈ s.registry.pending → s.registry.calls c = some k → k.caller = module →
    ∃ f ∈ pre, f.cancels module c
  provided : ∀ c k, c ∈ s.registry.pending → s.registry.calls c = some k → k.caller ≠ module →
    k.via.provider.owner = module → ∃ f ∈ pre, f.takes c

/-- A module that is gone. -/
structure Gone (s : CommandSystem τ ρ) (module : String) : Prop where
  settled : ∀ c k, s.registry.calls c = some k → k.caller = module → CallSettled s c
  pending : ∀ c k, c ∈ s.registry.pending → s.registry.calls c = some k →
    k.caller ≠ module ∧ k.via.provider.owner ≠ module
  calling : ∀ t c, .calling c ∈ s.threads t → s.registry.callerOf c ≠ some module

structure WithdrawalInv (s : CommandSystem τ ρ) : Prop where
  base : CommandInv s
  tracked : ∀ c k, s.registry.calls c = some k → c ∈ s.registry.pending ∨ k.cancelled = true ∨
    k.finished = true ∨ ∃ t by_ result, .deliverDecide c by_ result ∈ s.threads t
  shut : ∀ module, (∃ t, .removeEnd module ∈ s.threads t) ∨
    withdrawn module s.registry.history = true → Shut s module
  removing : ∀ t pre module below, s.threads t = pre ++ .removeEnd module :: below →
    Removing s pre module
  gone : ∀ module, withdrawn module s.registry.history = true → Gone s module
  cancelled : ∀ c, cancelReturned c s.registry.history = true → CallSettled s c
  orderly : Orderly s.registry.history

/-- A call that is out of the table, and that no frame is about to enter the `done` of. -/
theorem WithdrawalInv.settled_of_left (h : WithdrawalInv s) {c : Nat} {k : PendingCall τ}
    (hk : s.registry.calls c = some k) (hout : c ∉ s.registry.pending)
    (hclear : ∀ t, ∀ f ∈ s.threads t, f.mayStart s.registry ≠ some c) : CallSettled s c := by
  refine ⟨⟨k, hk, ?_⟩, fun t d result hf => hclear t _ hf rfl⟩
  rcases h.tracked c k hk with hin | hcancelled | hfinished | ⟨t, by_, result, hf⟩
  · exact absurd hin hout
  · exact .inl hcancelled
  · exact .inr hfinished
  · have hsettled := hclear t _ hf
    rw [mayStart, hk] at hsettled
    cases hcancelled : k.cancelled with
    | true => exact .inl rfl
    | false =>
      cases hfinished : k.finished with
      | true => exact .inr rfl
      | false => simp [hcancelled, hfinished] at hsettled

/-- A `Cancel` that has the lock of a call leaves nothing to start. -/
theorem CommandInv.settled_of_erase (h : CommandInv s) {t : τ} {c : Nat}
    {below : List (CommandFrame ρ)} (htop : s.threads t = .cancelErase c :: below) :
    CallSettled s c := by
  have hmem : .cancelErase c ∈ s.threads t := htop ▸ List.mem_cons_self
  obtain ⟨k, hk, hcancelled⟩ := (h.frames (t := t) ⟨[], htop.symm⟩).known
  refine ⟨⟨k, hk, .inl hcancelled⟩, fun u d result hf => ?_⟩
  obtain rfl : t = u := h.holder_unique hmem hf rfl rfl
  rw [htop] at hf
  rcases List.mem_cons.1 hf with heq | hbelow
  · cases heq
  · have hwaits := h.inner (t := t) (f := .deliverStart c (some d) result)
      (by rw [htop]; exact hbelow)
    cases hwaits

section Step

variable {t : τ} {f : CommandFrame ρ} {below fs : List (CommandFrame ρ)}
  {r' : CommandRegistry τ ρ} {c : Nat} {module : String}

/-- A frame after a section: it was there, or the section left it. -/
theorem mem_put_threads (htop : s.threads t = f :: below) {u : τ} {g : CommandFrame ρ}
    (hg : g ∈ (s.put t r' (fs ++ below)).threads u) : g ∈ s.threads u ∨ u = t ∧ g ∈ fs := by
  rw [put_threads] at hg
  split at hg
  · next hu =>
    rcases List.mem_append.1 hg with hnew | hold
    · exact .inr ⟨hu, hnew⟩
    · exact .inl (by rw [hu, htop]; exact List.mem_cons_of_mem _ hold)
  · exact .inl hg

/-- Another frame that was there still is. -/
theorem mem_put_of_ne (htop : s.threads t = f :: below) {u : τ} {g : CommandFrame ρ}
    (hg : g ∈ s.threads u) (hne : g ≠ f) : g ∈ (s.put t r' (fs ++ below)).threads u := by
  rw [put_threads]
  split
  · next hu =>
    rw [hu, htop] at hg
    exact List.mem_append_right _ ((List.mem_cons.1 hg).resolve_left hne)
  · exact hg

/-- What is settled stays settled. -/
theorem CallSettled.section (h : CallSettled s c) (hinv : CommandInv s) (htop : s.threads t = f :: below)
    (hsection : Section t s.registry f r' fs) : CallSettled (s.put t r' (fs ++ below)) c := by
  have hf : FrameOk s.registry t below.length f := hinv.frames ⟨[], htop.symm⟩
  obtain ⟨k, hk, hsettled⟩ := h.settled
  obtain ⟨k', hk', hgrown⟩ := (hsection.later hinv.registry hf).calls hk
  refine ⟨⟨k', hk', hsettled.imp hgrown.cancelled hgrown.finished⟩, fun u d result hg => ?_⟩
  rcases mem_put_threads htop hg with hold | ⟨-, hnew⟩
  · exact h.unstarted u d result hold
  · obtain ⟨k₀, hk₀, hcancelled, hfinished⟩ := hsection.starting hnew
    obtain rfl := Option.some.inj (hk.symm.trans hk₀)
    rcases hsettled with htrue | htrue
    · exact absurd (htrue.symm.trans hcancelled) (by decide)
    · exact absurd (htrue.symm.trans hfinished) (by decide)

/-- A call that is new is of no module that is shut. -/
theorem Shut.new_call (h : Shut s module) (htop : s.threads t = f :: below)
    (hsection : Section t s.registry f r' fs) {k' : PendingCall τ}
    (hnone : s.registry.calls c = none) (hk' : r'.calls c = some k') :
    k'.caller ≠ module ∧ k'.via.provider.owner ≠ module := by
  obtain ⟨-, -, q, completer, p, rfl, rfl⟩ := hsection.new_call hnone hk'
  have hout := h.letsIn t _ (htop ▸ List.mem_cons_self)
  simpa [CommandFrame.letsIn] using hout

/-- What is shut stays shut until it is reopened. -/
theorem Shut.section (h : Shut s module) (hinv : CommandInv s) (htop : s.threads t = f :: below)
    (hsection : Section t s.registry f r' fs) (hf : f ≠ .reopen module) :
    Shut (s.put t r' (fs ++ below)) module := by
  have hframe : FrameOk s.registry t below.length f := hinv.frames ⟨[], htop.symm⟩
  have hlater := hsection.later hinv.registry hframe
  refine ⟨h.named, hsection.closed h.closed hf,
    hsection.providers h.named h.closed h.providers, fun u g hg => ?_⟩
  rcases mem_put_threads htop hg with hold | ⟨-, hnew⟩
  · obtain ⟨rest, hsuffix⟩ := exists_suffix_of_mem hold
    exact letsIn_of_later hlater (hinv.frames hsuffix).known (h.letsIn u g hold)
  · exact hsection.letsIn h.named h.closed h.providers
      (h.letsIn t f (htop ▸ List.mem_cons_self)) g hnew

/-- A record after a section, of a module that is shut: it was there. -/
theorem Shut.old_call (h : Shut s module) (hinv : CommandInv s) (htop : s.threads t = f :: below)
    (hsection : Section t s.registry f r' fs) {k' : PendingCall τ} (hk' : r'.calls c = some k')
    (hof : k'.caller = module ∨ k'.via.provider.owner = module) :
    ∃ k, s.registry.calls c = some k ∧ Grown k k' := by
  have hframe : FrameOk s.registry t below.length f := hinv.frames ⟨[], htop.symm⟩
  cases hk : s.registry.calls c with
  | none =>
    obtain ⟨hcaller, howner⟩ := h.new_call htop hsection hk hk'
    exact absurd hof (not_or.2 ⟨hcaller, howner⟩)
  | some k =>
    obtain ⟨k₁, hk₁, hgrown⟩ := (hsection.later hinv.registry hframe).calls hk
    obtain rfl := Option.some.inj (hk'.symm.trans hk₁)
    exact ⟨k, rfl, hgrown⟩

/-- And it is in the table only if it was. -/
theorem old_pending (hinv : CommandInv s) (htop : s.threads t = f :: below)
    (hsection : Section t s.registry f r' fs) {k : PendingCall τ}
    (hk : s.registry.calls c = some k) (hin : c ∈ r'.pending) : c ∈ s.registry.pending := by
  have hframe : FrameOk s.registry t below.length f := hinv.frames ⟨[], htop.symm⟩
  by_contra hout
  exact (hsection.later hinv.registry hframe).left (hinv.registry.bound hk) hout hin

/-- What is gone stays gone while it is shut. -/
theorem Gone.section (h : Gone s module) (hshut : Shut s module) (hinv : CommandInv s)
    (htop : s.threads t = f :: below) (hsection : Section t s.registry f r' fs) :
    Gone (s.put t r' (fs ++ below)) module := by
  refine ⟨fun c k' hk' hcaller => ?_, fun c k' hin hk' => ?_, fun u c hg hcaller => ?_⟩
  · obtain ⟨k, hk, hgrown⟩ := hshut.old_call hinv htop hsection hk' (.inl hcaller)
    exact (h.settled c k hk (hgrown.caller.symm.trans hcaller)).section hinv htop hsection
  · rw [← not_or]
    intro hof
    obtain ⟨k, hk, hgrown⟩ := hshut.old_call hinv htop hsection hk' hof
    rw [hgrown.caller, hgrown.via, ← not_not (a := _ ∨ _), not_or] at hof
    exact hof (h.pending c k (old_pending hinv htop hsection hk hin) hk)
  · obtain ⟨k', hk', rfl⟩ := Option.map_eq_some_iff.1 hcaller
    obtain ⟨k, hk, hgrown⟩ := hshut.old_call hinv htop hsection hk' (.inl rfl)
    rcases mem_put_threads htop hg with hold | ⟨-, hnew⟩
    · refine h.calling u c hold ?_
      rw [CommandRegistry.callerOf, hk, hgrown.caller]
      rfl
    · obtain ⟨d, result, rfl⟩ := hsection.calling hnew
      exact (h.settled c k hk hgrown.caller.symm).unstarted t d result
        (htop ▸ List.mem_cons_self)

/-- A call is in the table, over, or out for a delivery. -/
theorem WithdrawalInv.tracked_section (h : WithdrawalInv s) (htop : s.threads t = f :: below)
    (hsection : Section t s.registry f r' fs) {k' : PendingCall τ} (hk' : r'.calls c = some k') :
    c ∈ r'.pending ∨ k'.cancelled = true ∨ k'.finished = true ∨
      ∃ u by_ result, .deliverDecide c by_ result ∈ (s.put t r' (fs ++ below)).threads u := by
  have hframe : FrameOk s.registry t below.length f := h.base.frames ⟨[], htop.symm⟩
  cases hk : s.registry.calls c with
  | none => exact .inl (hsection.new_call hk hk').1
  | some k =>
    obtain ⟨k₁, hk₁, hgrown⟩ := (hsection.later h.base.registry hframe).calls hk
    obtain rfl := Option.some.inj (hk'.symm.trans hk₁)
    by_cases hin' : c ∈ r'.pending
    · exact .inl hin'
    rcases h.tracked c k hk with hin | hcancelled | hfinished | ⟨u, by_, result, hg⟩
    · rcases hsection.leaves hframe hin hin' with ⟨by_, result, hg⟩ | ⟨k₀, hk₀, hcancelled⟩
      · refine .inr (.inr (.inr ⟨t, by_, result, ?_⟩))
        rw [put_threads, if_pos rfl]
        exact List.mem_append_left _ hg
      · obtain rfl := Option.some.inj (hk.symm.trans hk₀)
        exact .inr (.inl (hgrown.cancelled hcancelled))
    · exact .inr (.inl (hgrown.cancelled hcancelled))
    · exact .inr (.inr (.inl (hgrown.finished hfinished)))
    · by_cases hmine : .deliverDecide c by_ result = f
      · obtain ⟨k₂, hk₂, hsettled⟩ := hsection.decided hmine.symm
        obtain rfl := Option.some.inj (hk'.symm.trans hk₂)
        exact .inr (hsettled.imp_right .inl)
      · exact .inr (.inr (.inr ⟨u, by_, result, mem_put_of_ne htop hg hmine⟩))

/-- A module that is withdrawn, or about to be, is shut. -/
theorem WithdrawalInv.shut_section (h : WithdrawalInv s) (hclear : f.Clear s)
    (htop : s.threads t = f :: below) (hsection : Section t s.registry f r' fs)
    (hgoing : (∃ u, .removeEnd module ∈ (s.put t r' (fs ++ below)).threads u) ∨
      withdrawn module r'.history = true) : Shut (s.put t r' (fs ++ below)) module := by
  have hold : ((∃ u, .removeEnd module ∈ s.threads u) ∨
      withdrawn module s.registry.history = true ∧ f ≠ .reopen module) →
      Shut (s.put t r' (fs ++ below)) module := by
    rintro (⟨u, hg⟩ | ⟨hw, hf⟩)
    · refine (h.shut module (.inl ⟨u, hg⟩)).section h.base htop hsection ?_
      rintro rfl
      exact hclear u hg
    · exact (h.shut module (.inr hw)).section h.base htop hsection hf
  rcases hgoing with ⟨u, hg⟩ | hw
  · rcases mem_put_threads htop hg with hg | ⟨-, hnew⟩
    · exact hold (.inl ⟨u, hg⟩)
    obtain ⟨pre, post, hfs⟩ := List.append_of_mem hnew
    obtain ⟨rfl, hnamed, hr', -⟩ := hsection.removing hfs
    have hmade : ∀ g ∈ fs, g.letsIn r' module = false := by
      intro g hgfs
      cases hsection with
      | removes other result hother =>
        simp only [List.mem_append, List.mem_map, List.mem_singleton] at hgfs
        rcases hgfs with (⟨c, -, rfl⟩ | ⟨c, -, rfl⟩) | rfl <;> rfl
      | refused hcompleter hstatus => cases hcompleter
      | removesNothing => cases hgfs
    subst hr'
    refine ⟨hnamed, List.mem_cons_self, fun p hp => ?_, fun v g hg => ?_⟩
    · exact of_decide_eq_true (List.mem_filter.1 hp).2
    · rcases mem_put_threads htop hg with hold | ⟨-, hnew⟩
      · exact (hclear hnamed v g hold).1
      · exact hmade g hnew
  · rcases hsection.withdrawn hw with hbefore | rfl
    · exact hold (.inr hbefore)
    · exact hold (.inl ⟨t, htop ▸ List.mem_cons_self⟩)

/-- A `RemoveAllFor` begins: the calls out of the table are settled, and there is a frame for each
of the others. -/
theorem WithdrawalInv.removing_start (h : WithdrawalInv s)
    (hclear : (CommandFrame.removeCollect module).Clear s)
    (htop : s.threads t = .removeCollect module :: below)
    (hsection : Section t s.registry (.removeCollect module) r' fs)
    {pre post : List (CommandFrame ρ)} (hfs : fs = pre ++ .removeEnd module :: post) :
    Removing (s.put t r' (fs ++ below)) pre module := by
  obtain ⟨-, hnamed, rfl, hmade, hprovided⟩ := hsection.removing hfs
  have hmem : ∀ c k, c ∈ s.registry.pending → s.registry.calls c = some k → k.caller = module →
      .cancelFind c module ∈ pre := by
    refine fun c k hin hk hcaller => hmade c (List.mem_filter.2 ⟨hin, ?_⟩)
    rw [hk]
    exact decide_eq_true hcaller
  refine ⟨fun c k hk hcaller => ?_, fun c k hin hk hcaller => ?_,
    fun c k hin hk hcaller howner => ?_⟩
  · by_cases hin : c ∈ s.registry.pending
    · exact .inr ⟨_, hmem c k hin hk hcaller, rfl, rfl⟩
    · refine .inl (CallSettled.section (h.settled_of_left hk hin fun u g hg hstart => ?_)
        h.base htop hsection)
      refine (hclear hnamed u g hg).2 c hstart ?_
      have hk' : s.registry.calls c = some k := hk
      rw [CommandRegistry.callerOf, hk', ← hcaller]
      rfl
  · exact ⟨_, hmem c k hin hk hcaller, rfl, rfl⟩
  · refine hprovided c (List.mem_filter.2 ⟨hin, ?_⟩)
    have hk' : s.registry.calls c = some k := hk
    rw [hk']
    simp [hcaller, howner]

/-- A `RemoveAllFor` goes on. -/
theorem WithdrawalInv.removing_on (h : WithdrawalInv s) (hclear : f.Clear s)
    (htop : s.threads t = f :: below) (hsection : Section t s.registry f r' fs)
    {pre pre' : List (CommandFrame ρ)} (hshut : Shut s module) (hremoving : Removing s pre module)
    (hpre : ∀ g ∈ pre, g ∈ pre' ∨ g = f ∧ ∀ g' ∈ fs, g' ∈ pre') :
    Removing (s.put t r' (fs ++ below)) pre' module := by
  refine ⟨fun c k' hk' hcaller => ?_, fun c k' hin hk' hcaller => ?_,
    fun c k' hin hk' hcaller howner => ?_⟩
  · obtain ⟨k, hk, hgrown⟩ := hshut.old_call h.base htop hsection hk' (.inl hcaller)
    have hcaller' : k.caller = module := hgrown.caller.symm.trans hcaller
    rcases hremoving.settled c k hk hcaller' with hsettled | ⟨g, hg, hcancels⟩
    · exact .inl (hsettled.section h.base htop hsection)
    rcases hpre g hg with hkept | ⟨rfl, hleft⟩
    · exact .inr ⟨g, hkept, hcancels⟩
    rcases hsection.cancels hcancels hk hcaller' with ⟨g', hg', hcancels'⟩ | ⟨rfl, hout, -⟩ | ⟨rfl, -⟩
    · exact .inr ⟨g', hleft g' hg', hcancels'⟩
    · refine .inl (CallSettled.section (h.settled_of_left hk hout (hclear ?_)) h.base htop hsection)
      rw [CommandRegistry.callerOf, hk, ← hcaller']
      rfl
    · exact .inl ((h.base.settled_of_erase htop).section h.base htop hsection)
  · obtain ⟨k, hk, hgrown⟩ := hshut.old_call h.base htop hsection hk' (.inl hcaller)
    have hcaller' : k.caller = module := hgrown.caller.symm.trans hcaller
    have hbefore := old_pending h.base htop hsection hk hin
    obtain ⟨g, hg, hcancels⟩ := hremoving.made c k hbefore hk hcaller'
    rcases hpre g hg with hkept | ⟨rfl, hleft⟩
    · exact ⟨g, hkept, hcancels⟩
    rcases hsection.cancels hcancels hk hcaller' with ⟨g', hg', hcancels'⟩ | ⟨-, hout, -⟩ | ⟨-, hout⟩
    · exact ⟨g', hleft g' hg', hcancels'⟩
    · exact absurd hbefore hout
    · exact absurd hin hout
  · obtain ⟨k, hk, hgrown⟩ := hshut.old_call h.base htop hsection hk' (.inr howner)
    have hbefore := old_pending h.base htop hsection hk hin
    obtain ⟨g, hg, htakes⟩ := hremoving.provided c k hbefore hk (hgrown.caller ▸ hcaller)
      (hgrown.via ▸ howner)
    rcases hpre g hg with hkept | ⟨rfl, hleft⟩
    · exact ⟨g, hkept, htakes⟩
    rcases hsection.takes htakes with ⟨g', hg', htakes'⟩ | hout
    · exact ⟨g', hleft g' hg', htakes'⟩
    · exact absurd hin hout

/-- A section that is clear keeps the invariant. -/
theorem WithdrawalInv.section (h : WithdrawalInv s) (hclear : f.Clear s)
    (htop : s.threads t = f :: below) (hsection : Section t s.registry f r' fs) :
    WithdrawalInv (s.put t r' (fs ++ below)) := by
  have hshut : ∀ module, withdrawn module r'.history = true →
      Shut (s.put t r' (fs ++ below)) module :=
    fun module hw => h.shut_section hclear htop hsection (.inr hw)
  refine ⟨h.base.section htop hsection, fun c k' hk' => h.tracked_section htop hsection hk',
    fun module => h.shut_section hclear htop hsection, fun u pre module later hstack => ?_,
    fun module hw => ?_, fun c hc => ?_, ?_⟩
  · rw [put_threads] at hstack
    split at hstack
    · rcases suffix_append_cases ⟨pre, hstack.symm⟩ with ⟨pre₁, mid, hfs, hlater⟩ | ⟨pre₁, hbelow⟩
      · obtain rfl : pre = pre₁ := by
          have heq : pre ++ .removeEnd module :: later = pre₁ ++ .removeEnd module :: later := by
            rw [← hstack, hfs, hlater, List.append_assoc, List.cons_append]
          exact List.append_cancel_right heq
        obtain ⟨rfl, -⟩ := hsection.removing hfs
        exact h.removing_start hclear htop hsection hfs
      · obtain rfl : pre = fs ++ pre₁ := by
          rw [← hbelow, ← List.append_assoc] at hstack
          exact (List.append_cancel_right hstack).symm
        have hbefore : s.threads t = (f :: pre₁) ++ .removeEnd module :: later := by
          rw [htop, ← hbelow]
          rfl
        have hmem : .removeEnd module ∈ s.threads t := by
          rw [hbefore]
          exact List.mem_append_right _ List.mem_cons_self
        refine h.removing_on hclear htop hsection (h.shut module (.inl ⟨t, hmem⟩))
          (h.removing t _ module later hbefore) fun g hg => ?_
        rcases List.mem_cons.1 hg with rfl | hg
        · exact .inr ⟨rfl, fun g' hg' => List.mem_append_left _ hg'⟩
        · exact .inl (List.mem_append_right _ hg)
    · have hmem : .removeEnd module ∈ s.threads u := by
        rw [hstack]
        exact List.mem_append_right _ List.mem_cons_self
      exact h.removing_on hclear htop hsection (h.shut module (.inl ⟨u, hmem⟩))
        (h.removing u pre module later hstack) fun g hg => .inl hg
  · rcases hsection.withdrawn hw with ⟨hbefore, -⟩ | rfl
    · exact (h.gone module hbefore).section (h.shut module (.inr hbefore)) h.base htop hsection
    · have hremoving := h.removing t [] module below htop
      have hshut := h.shut module (.inl ⟨t, htop ▸ List.mem_cons_self⟩)
      refine Gone.section ⟨fun c k hk hcaller => ?_, fun c k hin hk => ⟨fun hcaller => ?_,
        fun howner => ?_⟩, fun u c hg => hclear u _ hg c rfl⟩ hshut h.base htop hsection
      · exact (hremoving.settled c k hk hcaller).resolve_right (by simp)
      · simpa using hremoving.made c k hin hk hcaller
      · by_cases hcaller : k.caller = module
        · simpa using hremoving.made c k hin hk hcaller
        · simpa using hremoving.provided c k hin hk hcaller howner
  · rcases hsection.cancelReturned hc with hbefore | ⟨caller, rfl, hcaller, hout⟩ | rfl
    · exact (h.cancelled c hbefore).section h.base htop hsection
    · obtain ⟨k, hk, -⟩ := Option.map_eq_some_iff.1 hcaller
      exact (h.settled_of_left hk hout (hclear hcaller)).section h.base htop hsection
    · exact (h.base.settled_of_erase htop).section h.base htop hsection
  · show Orderly r'.history
    cases hsection with
    | register p allowlist =>
      rcases register_cases s.registry p allowlist with heq | ⟨-, -, heq⟩ <;>
        (rw [heq]; exact h.orderly)
    | unregister id owner =>
      rcases unregister_cases s.registry id owner with heq | heq <;> (rw [heq]; exact h.orderly)
    | runs call record hcall =>
      refine ⟨Bool.eq_false_iff.2 fun hw => ?_, h.orderly⟩
      have hout := (h.shut _ (.inr hw)).letsIn t _ (htop ▸ List.mem_cons_self)
      simp [CommandFrame.letsIn, hcall] at hout
    | starts call completer result record hcall =>
      have hmem : .deliverStart call (some completer) result ∈ s.threads t :=
        htop ▸ List.mem_cons_self
      refine ⟨⟨Bool.eq_false_iff.2 fun hc => ?_, Bool.eq_false_iff.2 fun hw => ?_⟩, h.orderly⟩
      · exact (h.cancelled call hc).unstarted t completer result hmem
      · exact ((h.gone _ hw).settled call record hcall rfl).unstarted t completer result hmem
    | _ => exact h.orderly

end Step

/-- A frame that an operation starts with, or a run that was posted. -/
def CommandFrame.isEntry : CommandFrame ρ → Bool
  | .register _ _ | .unregister _ _ | .invokeStart _ _ | .finishFind _ _ _ _ | .cancelFind _ _
  | .removeCollect _ | .reopen _ | .runCheck _ => true
  | _ => false

omit [DecidableEq τ] in
theorem letsIn_of_isEntry {g : CommandFrame ρ} (hg : g.isEntry = true) (r : CommandRegistry τ ρ)
    (module : String) : g.letsIn r module = false := by
  cases g <;> first | rfl | cases hg

/-- Code outside the registry calls it, or a run that was posted begins. -/
theorem WithdrawalInv.push (h : WithdrawalInv s) {t : τ} {r' : CommandRegistry τ ρ}
    {g : CommandFrame ρ} (hg : g.isEntry = true) (houtside : s.isOutside t = true)
    (hentry : Entry s t r' g) (hclosed : r'.closed = s.registry.closed)
    (hproviders : r'.providers = s.registry.providers) :
    WithdrawalInv (s.put t r' (g :: s.threads t)) := by
  have hbase : CommandInv (s.put t r' (g :: s.threads t)) := h.base.push houtside hentry
  have hkept : ∀ {u f}, f ∈ s.threads u → f ∈ (s.put t r' (g :: s.threads t)).threads u := by
    intro u f hf
    rw [put_threads]
    split
    · next hu => exact List.mem_cons_of_mem _ (hu ▸ hf)
    · exact hf
  have hold : ∀ {u f}, f ∈ (s.put t r' (g :: s.threads t)).threads u → f ≠ g → f ∈ s.threads u := by
    intro u f hf hne
    rw [put_threads] at hf
    split at hf
    · next hu => exact hu ▸ (List.mem_cons.1 hf).resolve_left hne
    · exact hf
  have hsettled : ∀ {c}, CallSettled s c → CallSettled (s.put t r' (g :: s.threads t)) c := by
    intro c hc
    obtain ⟨k, hk, hsettled⟩ := hc.settled
    refine ⟨⟨k, (congrFun hentry.calls c).trans hk, hsettled⟩, fun u d result hf => ?_⟩
    exact hc.unstarted u d result (hold hf fun heq => by rw [← heq] at hg; cases hg)
  have hcall : ∀ {c k}, (s.put t r' (g :: s.threads t)).registry.calls c = some k →
      s.registry.calls c = some k := fun hk => (congrFun hentry.calls _).symm.trans hk
  have hpending : ∀ {c}, c ∈ (s.put t r' (g :: s.threads t)).registry.pending →
      c ∈ s.registry.pending := fun hc => hentry.pending ▸ hc
  have hremoving : ∀ {pre pre' module}, Removing s pre module → pre ⊆ pre' →
      Removing (s.put t r' (g :: s.threads t)) pre' module := by
    intro pre pre' module hr hsubset
    refine ⟨fun c k hk hcaller => ?_, fun c k hin hk hcaller => ?_,
      fun c k hin hk hcaller howner => ?_⟩
    · exact (hr.settled c k (hcall hk) hcaller).imp hsettled
        fun ⟨f, hf, hcancels⟩ => ⟨f, hsubset hf, hcancels⟩
    · obtain ⟨f, hf, hcancels⟩ := hr.made c k (hpending hin) (hcall hk) hcaller
      exact ⟨f, hsubset hf, hcancels⟩
    · obtain ⟨f, hf, htakes⟩ := hr.provided c k (hpending hin) (hcall hk) hcaller howner
      exact ⟨f, hsubset hf, htakes⟩
  refine ⟨hbase, fun c k hk => ?_, fun module hgoing => ?_, fun u pre module below hstack => ?_,
    fun module hw => ?_, fun c hc => ?_, ?_⟩
  · rcases h.tracked c k (hcall hk) with hin | hcancelled | hfinished | ⟨u, by_, result, hf⟩
    · exact .inl (hentry.pending.symm ▸ hin)
    · exact .inr (.inl hcancelled)
    · exact .inr (.inr (.inl hfinished))
    · exact .inr (.inr (.inr ⟨u, by_, result, hkept hf⟩))
  · have hshut : Shut s module := by
      refine h.shut module (hgoing.imp ?_ fun hw => ?_)
      · rintro ⟨u, hf⟩
        exact ⟨u, hold hf fun heq => by rw [← heq] at hg; cases hg⟩
      · exact (congrArg (withdrawn module) hentry.history).symm.trans hw
    refine ⟨hshut.named, ?_, fun p hp => ?_, fun u f hf => ?_⟩
    · show module ∈ r'.closed
      exact hclosed ▸ hshut.closed
    · have hin : p ∈ r'.providers := hp
      exact hshut.providers p (hproviders ▸ hin)
    · by_cases hne : f = g
      · rw [hne]
        exact letsIn_of_isEntry hg _ module
      · have hf' := hold hf hne
        obtain ⟨rest, hsuffix⟩ := exists_suffix_of_mem hf'
        exact letsIn_of_later hentry.later (h.base.frames hsuffix).known (hshut.letsIn u f hf')
  · rw [put_threads] at hstack
    split at hstack
    · cases pre with
      | nil =>
        obtain ⟨rfl, -⟩ := List.cons.inj hstack
        cases hg
      | cons first pre =>
        obtain ⟨rfl, hbelow⟩ := List.cons.inj hstack
        exact hremoving (h.removing t pre module below hbelow) (List.subset_cons_self _ _)
    · exact hremoving (h.removing u pre module below hstack) fun _ hf => hf
  · have hgone := h.gone module ((congrArg (withdrawn module) hentry.history).symm.trans hw)
    refine ⟨fun c k hk hcaller => hsettled (hgone.settled c k (hcall hk) hcaller),
      fun c k hin hk => hgone.pending c k (hpending hin) (hcall hk), fun u c hf => ?_⟩
    have hcaller := hgone.calling u c (hold hf fun heq => by rw [← heq] at hg; cases hg)
    rw [CommandRegistry.callerOf] at hcaller ⊢
    exact fun heq => hcaller ((congrArg _ (congrFun hentry.calls c)).symm.trans heq)
  · exact hsettled (h.cancelled c ((congrArg (cancelReturned c) hentry.history).symm.trans hc))
  · show Orderly r'.history
    rw [hentry.history]
    exact h.orderly

/-- The step lemma. -/
theorem WithdrawalInv.step (h : WithdrawalInv s) (m : CommandMove τ ρ) (hclear : s.Clear m) :
    WithdrawalInv (s.step gui m) := by
  rcases step_cases gui s m with heq | ⟨t, f, below, r', fs, htop, hmove, hsection, heq⟩ |
    ⟨t, op, houtside, heq⟩ | ⟨call, later, hposted, houtside, heq⟩
  · rwa [heq]
  · rw [heq]
    refine h.section ?_ htop hsection
    rcases hmove with rfl | houtside
    · exact hclear f (by rw [htop]; rfl)
    · cases f <;> trivial
  · rw [heq]
    refine h.push ?_ houtside (entry_call h.base t op) ?_ ?_ <;> cases op <;> rfl
  · rw [heq]
    exact h.push rfl houtside (entry_posted h.base hposted) rfl rfl

theorem withdrawalInv_start : WithdrawalInv ({} : CommandSystem τ ρ) where
  base := commandInv_start
  tracked := fun _ _ hk => nomatch hk
  shut := by
    rintro module (⟨t, hf⟩ | hw)
    · cases hf
    · cases hw
  removing := fun t pre module below hstack => by
    have hnil : [] = pre ++ .removeEnd module :: below := hstack
    simp at hnil
  gone := fun _ hw => nomatch hw
  cancelled := fun _ hc => nomatch hc
  orderly := trivial

theorem WithdrawalInv.noneAfter (h : WithdrawalInv s) : NoneAfter s := by
  refine ⟨h.orderly, fun module hw => ?_, fun module hw t call => (h.gone module hw).calling t call⟩
  refine List.length_eq_zero_iff.2 (List.eq_nil_iff_forall_not_mem.2 fun c hc => ?_)
  obtain ⟨hin, k, hk, hof⟩ := mem_pendingOf hc
  obtain ⟨hcaller, howner⟩ := (h.gone module hw).pending c k hin hk
  simp [hcaller, howner] at hof

/-- **Nothing after a call is cancelled, or a module withdrawn**, in a run in which no other
operation is in one of the narrow places as `Cancel`, `RemoveAllFor` and `Reopen` go on. -/
theorem none_after_withdrawal (gui : τ)
    (hrun : ReachableUnder (CommandSystem.step gui) CommandSystem.Clear {} s) : NoneAfter s :=
  (hrun.inv withdrawalInv_start fun _ m hs hclear => hs.step m hclear).noneAfter

end Invariant

/-! ## Runs -/

/-- A command of the host, and a module that calls it: `false` is the GUI thread. -/
def sampleCall : List (CommandMove Bool Unit) :=
  [.call true (.register { id := "org.gpgfrontend.sign", owner := "" } none), .go true,
    .call true (.invoke ⟨"org.gpgfrontend.sign", { module := "m" }⟩)] ++
  List.replicate 7 (.go true) ++ [.return true true, .go true]

/-- The call is cancelled, another is served, and the module is withdrawn. -/
def sampleWithdrawal : List (CommandMove Bool Unit) :=
  sampleCall ++ [.call true (.cancel 1 "m")] ++ List.replicate 5 (.go true) ++
  [.call true (.invoke ⟨"org.gpgfrontend.sign", { module := "m" }⟩)] ++
  List.replicate 7 (.go true) ++ [.call false (.finish 2 "" { status := .ok })] ++
  List.replicate 5 (.go false) ++ [.return false true, .go false] ++
  [.return true true, .go true, .call true (.removeAllFor "m"), .go true, .go true]

theorem none_after_withdrawal_sample :
    let s := sampleWithdrawal.foldl (CommandSystem.step false) {}
    NoneAfter s ∧ cancelReturned 1 s.registry.history = true ∧
      startsOf s.registry.history 1 = 1 ∧ withdrawn "m" s.registry.history = true :=
  ⟨none_after_withdrawal false (ReachableUnder.foldl .start (by decide +kernel)),
    by decide +kernel, by decide +kernel, by decide +kernel⟩

/-- The provider completes the call, and the module cancels it: the delivery has left the table
and has not started the `done`. -/
def sampleCancelRace : List (CommandMove Bool Unit) :=
  sampleCall ++ [.call false (.finish 1 "" { status := .ok })] ++ List.replicate 3 (.go false) ++
  [.call true (.cancel 1 "m"), .go true, .go false, .go false]

/-- The module invokes a command, and is withdrawn after the look at the closed modules. -/
def sampleInvokeRace : List (CommandMove Bool Unit) :=
  sampleCall ++ [.call true (.invoke ⟨"org.gpgfrontend.sign", { module := "m" }⟩), .go true,
    .call false (.removeAllFor "m")] ++ List.replicate 8 (.go false) ++ List.replicate 3 (.go true)

theorem done_after_cancel :
    ¬ NoneAfter (sampleCancelRace.foldl (CommandSystem.step false) {}) ∧
    ¬ NoneAfter (sampleInvokeRace.foldl (CommandSystem.step false) {}) :=
  ⟨fun h => absurd h.orderly (by decide +kernel),
    fun h => absurd (h.pending "m" (by decide +kernel)) (by decide +kernel)⟩

end GpgFrontend
