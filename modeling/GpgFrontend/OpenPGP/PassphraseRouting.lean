import GpgFrontend.OpenPGP.PassphraseService

/-!
# Passphrases reach the requests they were typed for

- `PassphraseSystem.settle_spec` says all that `Settle` can do; the log of settlements has one
  entry per settled request, its outcome (`PassphraseInv.books`).
- `PassphraseInv`, `PassphraseInv.step`: the invariant of all of it.
- `passphrases_routed`: **requests settle once, answers go to the same unlock only, and
  after a close everything is cancelled and nothing is shown**, as long as `ClosePrompts`
  does not come between the registration of a prompt and its signal.
-/

namespace GpgFrontend

/-- Between `RegisterLiveRequest` and `UnregisterLiveRequest`. -/
def CallPhase.isLive : CallPhase → Bool
  | .registered | .connected | .promptRegistered | .waiting | .waited | .promptUnregistered
  | .driven | .released => true
  | _ => false

/-- The phases an owner reaches only with its request settled. -/
def CallPhase.afterSettle : CallPhase → Bool
  | .refusedSettled | .driven | .released | .unregistered | .statusRead _ | .returned _ _ => true
  | _ => false

/-- The phases of a call that has registered nothing. -/
def CallPhase.unregisteredSoFar : CallPhase → Bool
  | .entered | .acquired | .refused | .refusedSettled | .returned _ _ => true
  | _ => false

variable {phase : CallPhase}

theorem CallPhase.unregisteredSoFar_of_isLive (h : phase.isLive = true) :
    phase.unregisteredSoFar = false := by
  cases phase <;> first | rfl | cases h

/-- A passphrase that a call has read, or is about to, was logged for its request. -/
def CallPhase.Truthful (log : List (PassphraseRequestStatus × List UInt8)) : CallPhase → Prop
  | .statusRead status => status = .provided → ∃ passphrase, (.provided, passphrase) ∈ log
  | .returned status passphrase => status = .provided → (.provided, passphrase) ∈ log
  | _ => True

variable {log : List (PassphraseRequestStatus × List UInt8)}

theorem CallPhase.Truthful.mono {log' : List (PassphraseRequestStatus × List UInt8)}
    (h : phase.Truthful log) (hlog : ∀ x ∈ log, x ∈ log') : phase.Truthful log' := by
  cases phase with
  | statusRead status =>
    intro hprovided
    obtain ⟨passphrase, hmem⟩ := h hprovided
    exact ⟨passphrase, hlog _ hmem⟩
  | returned status passphrase => exact fun hprovided => hlog _ (h hprovided)
  | _ => trivial

/-- The phases before anything is read. -/
def CallPhase.unread : CallPhase → Bool
  | .statusRead _ | .returned _ _ => false
  | _ => true

theorem CallPhase.truthful_of_unread (h : phase.unread = true) : phase.Truthful log := by
  cases phase with
  | statusRead status => cases h
  | returned status passphrase => cases h
  | _ => trivial

/-- What the close leaves for a call to return. -/
def CallPhase.cancelledIfReturned : CallPhase → Prop
  | .returned status passphrase => status = .cancelled ∧ passphrase = []
  | _ => True

namespace PassphraseSystem

variable {s s' : PassphraseSystem} {r k : Nat}

def keyOf (s : PassphraseSystem) (r : Nat) : Option InFlightKey := (s.requests[r]?).map (·.key)

/-- What was logged for a request. -/
def logOf (s : PassphraseSystem) (r : Nat) : List (PassphraseRequestStatus × List UInt8) :=
  (s.settlements.filter (·.request = r)).map fun e => (e.status, e.passphrase)

def registeredOn (r : Nat) (call : PassphraseCall) : Bool :=
  call.request = some r && call.phase.isLive

end PassphraseSystem

open PassphraseSystem

/-- What holds of one call. -/
structure CallOk (qt : QtText) (s : PassphraseSystem) (call : PassphraseCall) : Prop where
  /-- The request was made for the same unlock. -/
  key : ∀ r, call.request = some r → s.keyOf r = some (call.key qt)
  noRequest : call.request = none → call.ownsPrompt = false ∧
    (call.phase = .entered ∨ call.phase = .returned .failed [])
  settled : ∀ r, call.request = some r → call.ownsPrompt = true → call.phase.afterSettle = true →
    s.isSettled r = true
  read : ∀ r, call.request = some r → call.phase.Truthful (s.logOf r)
  closed : s.promptsClosed = true → ∀ r, registeredOn r call = true → s.isSettled r = true
  /-- A prompt about to be shown was registered before any close. -/
  open_ : call.phase = .promptRegistered → s.promptsClosed = false
  underClose : call.underClose = true → s.promptsClosed = true ∧
    call.phase.unregisteredSoFar = true ∧
    (call.request ≠ none → call.phase.cancelledIfReturned)

/-- The log of settlements, the lists and the table, without what holds of each call. -/
structure RequestInv (s : PassphraseSystem) : Prop where
  /-- The log has one entry for a settled request, its outcome, and none for another. -/
  books : ∀ (r : Nat) (request : PassphraseRequest), s.requests[r]? = some request →
    s.logOf r = request.outcome.toList
  logged : ∀ e ∈ s.settlements, e.request < s.requests.length
  cancelled : ∀ e ∈ s.settlements, e.closed = true → e.status = .cancelled
  provided : ∀ e ∈ s.settlements, e.status = .provided → ∃ k, e.settledBy = .answer k
  answered : ∀ e ∈ s.settlements, ∀ k, e.settledBy = .answer k →
    ∃ call : PassphraseCall, s.calls[k]? = some call ∧ call.ownsPrompt = true ∧
      call.request = some e.request
  /-- Every registered call has its place in the list of live requests. -/
  live : ∀ r, s.isSettled r = false →
    s.calls.countP (registeredOn r) ≤ s.liveRequests.count r
  inFlight : ∀ key r, s.inFlight.lookup key = some r → s.keyOf r = some key
  shown : ∀ e ∈ s.shown, e.2 = false

structure PassphraseInv (qt : QtText) (s : PassphraseSystem) : Prop extends RequestInv s where
  calls : ∀ call ∈ s.calls, CallOk qt s call

/-! ## Frames -/

/-- Requests are kept and stay settled, and the closed flag is left alone. -/
structure Grows (s s' : PassphraseSystem) : Prop where
  key : ∀ r key, s.keyOf r = some key → s'.keyOf r = some key
  settled : ∀ r, s.isSettled r = true → s'.isSettled r = true
  log : ∀ r, ∀ x ∈ s.logOf r, x ∈ s'.logOf r
  closed : s'.promptsClosed = s.promptsClosed

theorem CallOk.grow {qt : QtText} {s s' : PassphraseSystem} {call : PassphraseCall}
    (h : CallOk qt s call) (hg : Grows s s') : CallOk qt s' call where
  key r hr := hg.key r _ (h.key r hr)
  noRequest := h.noRequest
  settled r hr howns hphase := hg.settled r (h.settled r hr howns hphase)
  read r hr := (h.read r hr).mono (hg.log r)
  closed hclosed r hr := hg.settled r (h.closed (hg.closed.symm.trans hclosed) r hr)
  open_ hphase := hg.closed.trans (h.open_ hphase)
  underClose hunder := by
    obtain ⟨hclosed, hrest⟩ := h.underClose hunder
    exact ⟨hg.closed.trans hclosed, hrest⟩

theorem PassphraseSystem.isSettled_iff {s : PassphraseSystem} {r : Nat} :
    s.isSettled r = true ↔ ∃ request : PassphraseRequest, s.requests[r]? = some request ∧
      request.outcome.isSome = true := by
  unfold isSettled
  rw [Option.any_eq_true]

theorem PassphraseSystem.logOf_extends {s s' : PassphraseSystem} {r : Nat}
    (h : s.settlements <+: s'.settlements) : ∀ x ∈ s.logOf r, x ∈ s'.logOf r := by
  intro x hx
  exact ((h.filter _).map _).subset hx

/-! ## Settling -/

/-- All that `Settle` can do: nothing, or give an unsettled request its outcome. -/
theorem PassphraseSystem.settle_spec (s : PassphraseSystem) (r : Nat)
    (status : PassphraseRequestStatus) (passphrase : List UInt8) (settledBy : SettledBy) :
    (s.settle r status passphrase settledBy).2 = s ∧
      (s.isSettled r = true ∨ s.requests.length ≤ r) ∨
    ∃ request : PassphraseRequest, s.requests[r]? = some request ∧ request.outcome = none ∧
      (s.settle r status passphrase settledBy).2 = { s with
        requests := s.requests.set r { request with outcome := some (status, passphrase) }
        settlements := s.settlements ++ [⟨r, status, passphrase, settledBy, s.promptsClosed⟩] } := by
  unfold settle
  cases hr : s.requests[r]? with
  | none =>
    left
    exact ⟨rfl, Or.inr (List.getElem?_eq_none_iff.mp hr)⟩
  | some request =>
    dsimp only
    split
    · next hsome =>
      left
      exact ⟨rfl, Or.inl (isSettled_iff.mpr ⟨request, hr, hsome⟩)⟩
    · next hnone =>
      right
      exact ⟨request, rfl, by simpa using hnone, rfl⟩

theorem PassphraseSystem.grows_settle (s : PassphraseSystem) (r : Nat)
    (status : PassphraseRequestStatus) (passphrase : List UInt8) (settledBy : SettledBy) :
    Grows s (s.settle r status passphrase settledBy).2 := by
  rcases s.settle_spec r status passphrase settledBy with ⟨heq, -⟩ | ⟨request, hr, hnone, heq⟩
  · rw [heq]
    exact ⟨fun _ _ h => h, fun _ h => h, fun _ _ h => h, rfl⟩
  · rw [heq]
    have hlen := (List.getElem?_eq_some_iff.mp hr).1
    refine ⟨?_, ?_, ?_, rfl⟩
    · intro r' key hkey
      unfold keyOf at hkey ⊢
      by_cases hrr : r' = r
      · rw [hrr, hr] at hkey
        rw [hrr]
        show ((s.requests.set r _)[r]?).map (·.key) = some key
        rw [List.getElem?_set_self hlen]
        exact hkey
      · show ((s.requests.set r _)[r']?).map (·.key) = some key
        rw [List.getElem?_set_ne (Ne.symm hrr)]
        exact hkey
    · intro r' hset
      rw [isSettled_iff] at hset ⊢
      obtain ⟨request', hr', hsome⟩ := hset
      have hrr : r' ≠ r := by
        rintro rfl
        rw [hr] at hr'
        cases hr'
        rw [hnone] at hsome
        cases hsome
      refine ⟨request', ?_, hsome⟩
      show (s.requests.set r _)[r']? = some request'
      rw [List.getElem?_set_ne (Ne.symm hrr)]
      exact hr'
    · exact fun r' => logOf_extends (List.prefix_append _ _)

theorem PassphraseSystem.settle_calls (s : PassphraseSystem) (r : Nat)
    (status : PassphraseRequestStatus) (passphrase : List UInt8) (settledBy : SettledBy) :
    (s.settle r status passphrase settledBy).2.calls = s.calls := by
  rcases s.settle_spec r status passphrase settledBy with ⟨heq, -⟩ | ⟨_, -, -, heq⟩
  · rw [heq]
  · rw [heq]

/-- After `Settle` the request is settled, whoever won. -/
theorem PassphraseSystem.isSettled_settle {s : PassphraseSystem} {r : Nat} {key : InFlightKey}
    (hkey : s.keyOf r = some key) (status : PassphraseRequestStatus) (passphrase : List UInt8)
    (settledBy : SettledBy) :
    (s.settle r status passphrase settledBy).2.isSettled r = true := by
  obtain ⟨request, hr, -⟩ := Option.map_eq_some_iff.mp hkey
  have hlen := (List.getElem?_eq_some_iff.mp hr).1
  rcases s.settle_spec r status passphrase settledBy with ⟨heq, hset | hle⟩ | ⟨request', -, -, heq⟩
  · rw [heq]
    exact hset
  · omega
  · rw [heq, isSettled_iff]
    exact ⟨_, List.getElem?_set_self hlen, rfl⟩

theorem RequestInv.settle {s : PassphraseSystem} {r : Nat} (h : RequestInv s) {status : PassphraseRequestStatus}
    {passphrase : List UInt8} {settledBy : SettledBy}
    (hclosed : s.promptsClosed = true → s.isSettled r = false → status = .cancelled)
    (hprovided : status = .provided → ∃ k, settledBy = .answer k)
    (hanswer : ∀ k, settledBy = .answer k → ∃ call : PassphraseCall, s.calls[k]? = some call ∧
      call.ownsPrompt = true ∧ call.request = some r) :
    RequestInv (s.settle r status passphrase settledBy).2 := by
  have hgrows := s.grows_settle r status passphrase settledBy
  rcases s.settle_spec r status passphrase settledBy with ⟨heq, -⟩ | ⟨request, hr, hnone, heq⟩
  · rw [heq]
    exact h
  · have hlen := (List.getElem?_eq_some_iff.mp hr).1
    have hunsettled : s.isSettled r = false := by
      unfold isSettled
      rw [hr]
      simp [hnone]
    rw [heq] at hgrows ⊢
    refine ⟨?_, ?_, ?_, ?_, ?_, ?_, ?_, h.shown⟩
    · intro r' request' hr'
      have hlog : ∀ r', PassphraseSystem.logOf { s with
          requests := s.requests.set r { request with outcome := some (status, passphrase) }
          settlements := s.settlements ++
            [⟨r, status, passphrase, settledBy, s.promptsClosed⟩] } r' =
          s.logOf r' ++ if r = r' then [(status, passphrase)] else [] := by
        intro r'
        unfold logOf
        rw [List.filter_append, List.map_append]
        congr 1
        by_cases hrr : r = r'
        · simp [hrr]
        · simp [hrr]
      rw [hlog]
      rcases getElem?_set_cases hr' with ⟨rfl, rfl⟩ | ⟨hne, hr'⟩
      · rw [h.books r' request hr, hnone, if_pos rfl]
        rfl
      · rw [h.books r' request' hr', if_neg (Ne.symm hne), List.append_nil]
    · intro e he
      show e.request < (s.requests.set r _).length
      rw [List.length_set]
      rcases List.mem_append.mp he with he | he
      · exact h.logged e he
      · rw [List.mem_singleton.mp he]
        exact hlen
    · intro e he hflag
      rcases List.mem_append.mp he with he | he
      · exact h.cancelled e he hflag
      · rw [List.mem_singleton.mp he] at hflag ⊢
        exact hclosed hflag hunsettled
    · intro e he hstatus
      rcases List.mem_append.mp he with he | he
      · exact h.provided e he hstatus
      · rw [List.mem_singleton.mp he] at hstatus ⊢
        exact hprovided hstatus
    · intro e he k hk
      rcases List.mem_append.mp he with he | he
      · exact h.answered e he k hk
      · rw [List.mem_singleton.mp he] at hk ⊢
        exact hanswer k hk
    · intro r' hr'
      refine h.live r' ?_
      cases hset : s.isSettled r' with
      | false => rfl
      | true =>
        rw [hgrows.settled r' hset] at hr'
        cases hr'
    · intro key r' hr'
      exact hgrows.key r' key (h.inFlight key r' hr')

namespace PassphraseInv

variable {qt : QtText} {s : PassphraseSystem} {k r : Nat} {call : PassphraseCall}

theorem callOk (h : PassphraseInv qt s) (hk : s.calls[k]? = some call) : CallOk qt s call :=
  h.calls call (List.mem_of_getElem? hk)

theorem settle (h : PassphraseInv qt s) {status : PassphraseRequestStatus}
    {passphrase : List UInt8} {settledBy : SettledBy}
    (hclosed : s.promptsClosed = true → s.isSettled r = false → status = .cancelled)
    (hprovided : status = .provided → ∃ k, settledBy = .answer k)
    (hanswer : ∀ k, settledBy = .answer k → ∃ call : PassphraseCall, s.calls[k]? = some call ∧
      call.ownsPrompt = true ∧ call.request = some r) :
    PassphraseInv qt (s.settle r status passphrase settledBy).2 := by
  refine ⟨h.toRequestInv.settle hclosed hprovided hanswer, ?_⟩
  intro call hcall
  rw [settle_calls] at hcall
  exact (h.calls call hcall).grow (s.grows_settle r status passphrase settledBy)

theorem inFlight_release (h : PassphraseInv qt s) (key : InFlightKey) (r : Nat) :
    ∀ key' r', (s.releaseRequest key r).inFlight.lookup key' = some r' →
      s.keyOf r' = some key' := by
  intro key' r' hlook
  unfold releaseRequest at hlook
  dsimp only at hlook
  split at hlook
  · by_cases hkk : key' = key
    · rw [hkk, AList.lookup_erase] at hlook
      cases hlook
    · rw [AList.lookup_erase_ne hkk] at hlook
      exact h.inFlight key' r' hlook
  · exact h.inFlight key' r' hlook

/-- A call moves on: its request and its prompt stay its own, and the lists are brought up
to date. -/
theorem update (h : PassphraseInv qt s) {call' : PassphraseCall}
    {inFlight : AList fun _ : InFlightKey => Nat} {liveRequests livePrompts dismissed : List Nat}
    {shown : List (Nat × Bool)} (hk : s.calls[k]? = some call) (hok : CallOk qt s call')
    (hsame : call.ownsPrompt = true → call'.ownsPrompt = true ∧ call'.request = call.request)
    (hlive : ∀ r, s.isSettled r = false →
      (s.calls.set k call').countP (registeredOn r) ≤ liveRequests.count r)
    (hflight : ∀ key r, inFlight.lookup key = some r → s.keyOf r = some key)
    (hshown : ∀ e ∈ shown, e.2 = false) :
    PassphraseInv qt { s with
      calls := s.calls.set k call'
      inFlight := inFlight
      liveRequests := liveRequests
      livePrompts := livePrompts
      dismissed := dismissed
      shown := shown } where
  books := h.books
  logged := h.logged
  cancelled := h.cancelled
  provided := h.provided
  answered := by
    intro e he j hj
    obtain ⟨owner, howner, howns, hreq⟩ := h.answered e he j hj
    by_cases hjk : j = k
    · rw [hjk, hk] at howner
      cases howner
      obtain ⟨howns', hreq'⟩ := hsame howns
      refine ⟨call', ?_, howns', hreq'.trans hreq⟩
      rw [hjk]
      exact List.getElem?_set_self (List.getElem?_eq_some_iff.mp hk).1
    · refine ⟨owner, ?_, howns, hreq⟩
      show (s.calls.set k call')[j]? = some owner
      rw [List.getElem?_set_ne (Ne.symm hjk)]
      exact howner
  live := hlive
  inFlight := hflight
  shown := hshown
  calls := by
    intro c hc
    have hgrows : Grows s { s with
        calls := s.calls.set k call'
        inFlight := inFlight
        liveRequests := liveRequests
        livePrompts := livePrompts
        dismissed := dismissed
        shown := shown } := ⟨fun _ _ h => h, fun _ h => h, fun _ _ h => h, rfl⟩
    rcases List.mem_or_eq_of_mem_set hc with hc | rfl
    · exact (h.calls c hc).grow hgrows
    · exact hok.grow hgrows

/-- The count of registered calls when one moves between phases that are both live, or both
not. -/
theorem live_same (h : PassphraseInv qt s) {call' : PassphraseCall}
    (hk : s.calls[k]? = some call) (hsub : ∀ r, registeredOn r call' = true →
      registeredOn r call = true) :
    ∀ r, s.isSettled r = false →
      (s.calls.set k call').countP (registeredOn r) ≤ s.liveRequests.count r := by
  intro r hr
  have hcount := countP_set_add (b := call') (p := registeredOn r) hk
  have hlive := h.live r hr
  by_cases hnew : registeredOn r call' = true
  · rw [if_pos hnew, if_pos (hsub r hnew)] at hcount
    omega
  · rw [if_neg hnew] at hcount
    split at hcount <;> omega

end PassphraseInv

/-! ## One step of a call -/

namespace CallOk

variable {qt : QtText} {s : PassphraseSystem} {call : PassphraseCall} {r : Nat}
  {phase : CallPhase}

theorem move (h : CallOk qt s call) (hr : call.request = some r)
    (hsettled : call.ownsPrompt = true → phase.afterSettle = true → s.isSettled r = true)
    (hlive : s.promptsClosed = true → phase.isLive = true → s.isSettled r = true)
    (hread : phase.Truthful (s.logOf r))
    (hopen : phase = .promptRegistered → s.promptsClosed = false)
    (hunder : call.underClose = true → phase.unregisteredSoFar = true ∧ phase.cancelledIfReturned) :
    CallOk qt s { call with phase := phase } where
  key := h.key
  noRequest hnone := by
    rw [show call.request = none from hnone] at hr
    cases hr
  settled r' hr' howns hphase := by
    rw [show call.request = some r' from hr'] at hr
    cases hr
    exact hsettled howns hphase
  read r' hr' := by
    rw [show call.request = some r' from hr'] at hr
    cases hr
    exact hread
  closed hclosed r' hr' := by
    unfold registeredOn at hr'
    rw [Bool.and_eq_true, decide_eq_true_eq] at hr'
    rw [show call.request = some r' from hr'.1] at hr
    cases hr
    exact hlive hclosed hr'.2
  open_ := hopen
  underClose hunder' := by
    obtain ⟨hclosed, -, -⟩ := h.underClose hunder'
    exact ⟨hclosed, (hunder hunder').1, fun _ => (hunder hunder').2⟩

theorem registeredOn_self (hr : call.request = some r) (hphase : call.phase.isLive = true) :
    registeredOn r call = true := by
  unfold registeredOn
  rw [hr, hphase]
  simp

/-- From a phase between registration and its end. -/
theorem moveLive (h : CallOk qt s call) (hr : call.request = some r)
    (hphase : call.phase.isLive = true) (hunread : phase.unread = true)
    (hsettled : call.ownsPrompt = true → phase.afterSettle = true → s.isSettled r = true)
    (hopen : phase = .promptRegistered → s.promptsClosed = false) :
    CallOk qt s { call with phase := phase } := by
  refine h.move hr hsettled ?_ (CallPhase.truthful_of_unread hunread) hopen ?_
  · intro hclosed _
    exact h.closed hclosed r (registeredOn_self hr hphase)
  · intro hunder
    obtain ⟨-, hnot, -⟩ := h.underClose hunder
    rw [CallPhase.unregisteredSoFar_of_isLive hphase] at hnot
    cases hnot

end CallOk

namespace PassphraseInv

variable {qt : QtText} {s : PassphraseSystem} {k r : Nat} {call : PassphraseCall}
  {phase : CallPhase}

/-- A live call moves on without a change to the lists that matter. -/
theorem moveLive (h : PassphraseInv qt s) (hk : s.calls[k]? = some call)
    (hr : call.request = some r) (hphase : call.phase.isLive = true)
    (hunread : phase.unread = true) {livePrompts dismissed : List Nat} {shown : List (Nat × Bool)}
    (hsettled : call.ownsPrompt = true → phase.afterSettle = true → s.isSettled r = true)
    (hopen : phase = .promptRegistered → s.promptsClosed = false)
    (hshown : ∀ e ∈ shown, e.2 = false) :
    PassphraseInv qt { s with
      calls := s.calls.set k { call with phase := phase }
      livePrompts := livePrompts
      dismissed := dismissed
      shown := shown } := by
  refine h.update hk ((h.callOk hk).moveLive hr hphase hunread hsettled hopen) (fun _ => ⟨?_, rfl⟩)
    (h.live_same hk ?_) h.inFlight hshown
  · assumption
  · intro r' hr'
    unfold registeredOn at hr' ⊢
    rw [Bool.and_eq_true] at hr' ⊢
    exact ⟨hr'.1, hphase⟩

theorem acquired (h : PassphraseInv qt s) (hk : s.calls[k]? = some call)
    (hr : call.request = some r) (hphase : call.phase = .acquired) :
    PassphraseInv qt (s.stepRequest qt k call r) := by
  have hok := h.callOk hk
  unfold stepRequest
  rw [hphase]
  dsimp only
  split
  · refine h.update hk (hok.move hr ?_ ?_ trivial ?_ ?_) (fun howns => ⟨howns, rfl⟩) (h.live_same hk ?_)
      h.inFlight h.shown
    · exact fun _ hafter => by cases hafter
    · exact fun _ hlive => by cases hlive
    · exact fun hp => by cases hp
    · exact fun _ => ⟨rfl, trivial⟩
    · intro r' hr'
      simp [registeredOn, CallPhase.isLive] at hr'
  · next hopen =>
    have hopen : s.promptsClosed = false := Bool.eq_false_iff.mpr hopen
    refine h.update hk (hok.move hr ?_ ?_ trivial ?_ ?_) (fun howns => ⟨howns, rfl⟩) ?_ h.inFlight h.shown
    · exact fun _ hafter => by cases hafter
    · intro hclosed
      rw [hopen] at hclosed
      cases hclosed
    · exact fun hp => by cases hp
    · intro hunder
      rw [(hok.underClose hunder).1] at hopen
      cases hopen
    · -- one more registered call, one more place in the list
      intro r' hr'
      have hcount := countP_set_add (b := { call with phase := .registered })
        (p := registeredOn r') hk
      have hold : registeredOn r' call = false := by
        unfold registeredOn
        rw [hphase]
        simp [CallPhase.isLive]
      have hlive := h.live r' hr'
      rw [hold, if_neg (by simp)] at hcount
      rw [List.count_append]
      by_cases hrr : r = r'
      · rw [hrr, List.count_singleton_self]
        split at hcount <;> omega
      · have hnew : registeredOn r' { call with phase := .registered } = false := by
          unfold registeredOn
          rw [hr]
          simp [hrr]
        rw [hnew, if_neg (by simp)] at hcount
        omega

/-- A call that was refused settles its request and gives its place up. -/
theorem refused (h : PassphraseInv qt s) (hk : s.calls[k]? = some call)
    (hr : call.request = some r) (hphase : call.phase = .refused) :
    PassphraseInv qt (s.stepRequest qt k call r) := by
  have hkey := (h.callOk hk).key r hr
  have hs : PassphraseInv qt (s.settle r .cancelled [] .refusal).2 :=
    h.settle (fun _ _ => rfl) (fun hp => by cases hp) fun k hk => by cases hk
  have hset := isSettled_settle hkey .cancelled [] .refusal
  have hk' : (s.settle r .cancelled [] .refusal).2.calls[k]? = some call := by
    rw [settle_calls]
    exact hk
  unfold stepRequest
  rw [hphase]
  revert hs hset hk'
  generalize (s.settle r .cancelled [] .refusal).2 = s₁
  intro hs hset hk'
  refine hs.update hk' ((hs.callOk hk').move hr ?_ ?_ trivial ?_ ?_) (fun howns => ⟨howns, rfl⟩)
    (hs.live_same hk' ?_) hs.inFlight hs.shown
  · exact fun _ _ => hset
  · exact fun _ hlive => by cases hlive
  · exact fun hp => by cases hp
  · exact fun _ => ⟨rfl, trivial⟩
  · intro r' hr'
    simp [registeredOn, CallPhase.isLive] at hr'

theorem refusedSettled (h : PassphraseInv qt s) (hk : s.calls[k]? = some call)
    (hr : call.request = some r) (hphase : call.phase = .refusedSettled) :
    PassphraseInv qt (s.stepRequest qt k call r) := by
  have hok := h.callOk hk
  unfold stepRequest
  rw [hphase]
  have hmove : CallOk qt s { call with phase := .returned .cancelled [] } := by
    refine hok.move hr ?_ ?_ (fun hp => by cases hp) ?_ ?_
    · intro howns _
      exact hok.settled r hr howns (by rw [hphase]; rfl)
    · exact fun _ hlive => by cases hlive
    · exact fun hp => by cases hp
    · exact fun _ => ⟨rfl, rfl, rfl⟩
  have hlive : ∀ r', registeredOn r' { call with phase := .returned .cancelled [] } = true →
      registeredOn r' call = true := by
    intro r' hr'
    simp [registeredOn, CallPhase.isLive] at hr'
  dsimp only
  split
  · exact h.update hk hmove (fun howns => ⟨howns, rfl⟩) (h.live_same hk hlive)
      (h.inFlight_release _ r) h.shown
  · exact h.update hk hmove (fun howns => ⟨howns, rfl⟩) (h.live_same hk hlive) h.inFlight h.shown

/-- The steps of `DrivePrompt` and of the wait. -/
theorem driving (h : PassphraseInv qt s) (hk : s.calls[k]? = some call)
    (hr : call.request = some r) (hphase : call.phase = .registered ∨ call.phase = .connected ∨
      call.phase = .promptRegistered ∨ call.phase = .waiting ∨ call.phase = .waited) :
    PassphraseInv qt (s.stepRequest qt k call r) := by
  have hok := h.callOk hk
  unfold stepRequest
  rcases hphase with hphase | hphase | hphase | hphase | hphase
  · have hlive : call.phase.isLive = true := by rw [hphase]; rfl
    rw [hphase]
    refine h.moveLive hk hr hlive ?_ ?_ ?_ h.shown
    · split <;> rfl
    · intro howns hafter
      rw [howns] at hafter
      cases hafter
    · intro hp
      split at hp <;> cases hp
  · have hlive : call.phase.isLive = true := by rw [hphase]; rfl
    rw [hphase]
    dsimp only
    split
    · next hclosed =>
      refine h.moveLive hk hr hlive rfl ?_ ?_ h.shown
      · intro _ _
        exact hok.closed hclosed r (CallOk.registeredOn_self hr hlive)
      · exact fun hp => by cases hp
    · next hopen =>
      refine h.moveLive hk hr hlive rfl ?_ ?_ h.shown
      · exact fun _ hafter => by cases hafter
      · exact fun _ => Bool.eq_false_iff.mpr hopen
  · have hlive : call.phase.isLive = true := by rw [hphase]; rfl
    have hopen := hok.open_ hphase
    rw [hphase]
    refine h.moveLive hk hr hlive rfl ?_ ?_ ?_
    · exact fun _ hafter => by cases hafter
    · exact fun hp => by cases hp
    · intro e he
      rcases List.mem_append.mp he with he | he
      · exact h.shown e he
      · rw [List.mem_singleton.mp he]
        exact hopen
  · have hlive : call.phase.isLive = true := by rw [hphase]; rfl
    rw [hphase]
    refine h.moveLive hk hr hlive ?_ ?_ ?_ h.shown
    · split <;> rfl
    · intro howns hafter
      rw [howns] at hafter
      cases hafter
    · intro hp
      split at hp <;> cases hp
  · have hlive : call.phase.isLive = true := by rw [hphase]; rfl
    rw [hphase]
    refine h.moveLive hk hr hlive rfl ?_ ?_ h.shown
    · exact fun _ hafter => by cases hafter
    · exact fun hp => by cases hp

/-- The owner gives up: from here its request is settled. -/
theorem promptUnregistered (h : PassphraseInv qt s) (hk : s.calls[k]? = some call)
    (hr : call.request = some r) (hphase : call.phase = .promptUnregistered) :
    PassphraseInv qt (s.stepRequest qt k call r) := by
  have hok := h.callOk hk
  have hlive : call.phase.isLive = true := by rw [hphase]; rfl
  have hs : PassphraseInv qt (s.settle r .failed [] .giveUp).2 := by
    refine h.settle ?_ (fun hp => by cases hp) fun k hk => by cases hk
    intro hclosed hnot
    rw [hok.closed hclosed r (CallOk.registeredOn_self hr hlive)] at hnot
    cases hnot
  have hset := isSettled_settle (hok.key r hr) .failed [] .giveUp
  have hk' : (s.settle r .failed [] .giveUp).2.calls[k]? = some call := by
    rw [settle_calls]
    exact hk
  unfold stepRequest
  rw [hphase]
  dsimp only
  refine hs.moveLive hk' hr hlive rfl ?_ ?_ hs.shown
  · exact fun _ _ => hset
  · exact fun hp => by cases hp

theorem driven (h : PassphraseInv qt s) (hk : s.calls[k]? = some call)
    (hr : call.request = some r) (hphase : call.phase = .driven) :
    PassphraseInv qt (s.stepRequest qt k call r) := by
  have hok := h.callOk hk
  have hlive : call.phase.isLive = true := by rw [hphase]; rfl
  have hmove : CallOk qt s { call with phase := .released } := by
    refine hok.moveLive hr hlive rfl ?_ ?_
    · intro howns _
      exact hok.settled r hr howns (by rw [hphase]; rfl)
    · exact fun hp => by cases hp
  have hsub : ∀ r', registeredOn r' { call with phase := .released } = true →
      registeredOn r' call = true := by
    intro r' hr'
    unfold registeredOn at hr' ⊢
    rw [Bool.and_eq_true] at hr' ⊢
    exact ⟨hr'.1, hlive⟩
  unfold stepRequest
  rw [hphase]
  dsimp only
  split
  · exact h.update hk hmove (fun howns => ⟨howns, rfl⟩) (h.live_same hk hsub)
      (h.inFlight_release _ r) h.shown
  · exact h.update hk hmove (fun howns => ⟨howns, rfl⟩) (h.live_same hk hsub) h.inFlight h.shown

/-- A call leaves the list of live requests: one registered call less, one place less. -/
theorem released (h : PassphraseInv qt s) (hk : s.calls[k]? = some call)
    (hr : call.request = some r) (hphase : call.phase = .released) :
    PassphraseInv qt (s.stepRequest qt k call r) := by
  have hok := h.callOk hk
  have hlive : call.phase.isLive = true := by rw [hphase]; rfl
  have hmove : CallOk qt s { call with phase := .unregistered } := by
    refine hok.moveLive hr hlive rfl ?_ ?_
    · intro howns _
      exact hok.settled r hr howns (by rw [hphase]; rfl)
    · exact fun hp => by cases hp
  unfold stepRequest
  rw [hphase]
  refine h.update hk hmove (fun howns => ⟨howns, rfl⟩) ?_ h.inFlight h.shown
  intro r' hr'
  have hcount := countP_set_add (b := { call with phase := .unregistered })
    (p := registeredOn r') hk
  have hnew : registeredOn r' { call with phase := .unregistered } = false := by
    simp [registeredOn, CallPhase.isLive]
  have hold := h.live r' hr'
  simp only [hnew, Bool.false_eq_true, if_false, Nat.add_zero] at hcount
  by_cases hrr : r = r'
  · subst hrr
    rw [CallOk.registeredOn_self hr hlive, if_pos rfl] at hcount
    rw [List.count_erase_self]
    omega
  · rw [List.count_erase_of_ne (Ne.symm hrr)]
    split at hcount <;> omega

/-- The call reads what it returns. -/
theorem reading (h : PassphraseInv qt s) (hk : s.calls[k]? = some call)
    (hr : call.request = some r) (hafter : call.phase.afterSettle = true)
    (hregistered : call.phase.unregisteredSoFar = false) (hphase : phase.isLive = false)
    (hread : phase.Truthful (s.logOf r)) :
    PassphraseInv qt (s.moveTo k call phase) := by
  have hok := h.callOk hk
  refine h.update hk (hok.move hr ?_ ?_ hread ?_ ?_) (fun howns => ⟨howns, rfl⟩) (h.live_same hk ?_)
    h.inFlight h.shown
  · intro howns _
    exact hok.settled r hr howns hafter
  · intro _ hlive
    rw [hphase] at hlive
    cases hlive
  · intro hp
    rw [hp] at hphase
    cases hphase
  · intro hunder
    obtain ⟨-, hnot, -⟩ := hok.underClose hunder
    rw [hregistered] at hnot
    cases hnot
  · intro r' hr'
    unfold registeredOn at hr'
    rw [Bool.and_eq_true] at hr'
    rw [show phase.isLive = true from hr'.2] at hphase
    cases hphase

/-- A request whose status reads as provided has a passphrase in the log. -/
theorem logOf_of_status (h : PassphraseInv qt s)
    (hstatus : ((s.requests[r]?).map (·.status)).getD .failed = .provided) :
    ∃ passphrase, (.provided, passphrase) ∈ s.logOf r := by
  cases hr : s.requests[r]? with
  | none =>
    rw [hr] at hstatus
    cases hstatus
  | some request =>
    rw [hr] at hstatus
    rw [h.books r request hr]
    replace hstatus : request.status = .provided := hstatus
    unfold PassphraseRequest.status at hstatus
    cases hout : request.outcome with
    | none =>
      rw [hout] at hstatus
      cases hstatus
    | some outcome =>
      rw [hout] at hstatus
      exact ⟨outcome.2, List.mem_singleton.mpr (Prod.ext hstatus.symm rfl)⟩

variable {x : PassphraseRequestStatus × List UInt8}

theorem outcome_of_logOf (h : PassphraseInv qt s) (hmem : x ∈ s.logOf r) :
    ∃ request : PassphraseRequest, s.requests[r]? = some request ∧ request.outcome = some x := by
  have hlt : r < s.requests.length := by
    obtain ⟨e, he, -⟩ := List.mem_map.mp hmem
    obtain ⟨he, hr⟩ := List.mem_filter.mp he
    rw [← of_decide_eq_true hr]
    exact h.logged e he
  refine ⟨_, List.getElem?_eq_getElem hlt, ?_⟩
  rw [h.books r _ (List.getElem?_eq_getElem hlt), Option.mem_toList] at hmem
  exact hmem

theorem logOf_of_outcome (h : PassphraseInv qt s) {request : PassphraseRequest}
    (hr : s.requests[r]? = some request) (hout : request.outcome = some x) : s.logOf r = [x] := by
  rw [h.books r request hr, hout]
  rfl

theorem stepRequest (h : PassphraseInv qt s) (hk : s.calls[k]? = some call)
    (hr : call.request = some r) : PassphraseInv qt (s.stepRequest qt k call r) := by
  cases hphase : call.phase with
  | entered =>
    unfold PassphraseSystem.stepRequest
    rw [hphase]
    exact h
  | acquired => exact h.acquired hk hr hphase
  | refused => exact h.refused hk hr hphase
  | refusedSettled => exact h.refusedSettled hk hr hphase
  | registered => exact h.driving hk hr (Or.inl hphase)
  | connected => exact h.driving hk hr (Or.inr (Or.inl hphase))
  | promptRegistered => exact h.driving hk hr (Or.inr (Or.inr (Or.inl hphase)))
  | waiting => exact h.driving hk hr (Or.inr (Or.inr (Or.inr (Or.inl hphase))))
  | waited => exact h.driving hk hr (Or.inr (Or.inr (Or.inr (Or.inr hphase))))
  | promptUnregistered => exact h.promptUnregistered hk hr hphase
  | driven => exact h.driven hk hr hphase
  | released => exact h.released hk hr hphase
  | unregistered =>
    unfold PassphraseSystem.stepRequest
    rw [hphase]
    refine h.reading hk hr (by rw [hphase]; rfl) (by rw [hphase]; rfl) rfl ?_
    exact h.logOf_of_status
  | statusRead status =>
    unfold PassphraseSystem.stepRequest
    rw [hphase]
    refine h.reading hk hr (by rw [hphase]; rfl) (by rw [hphase]; rfl) rfl ?_
    intro hprovided
    have hread := (h.callOk hk).read r hr
    rw [hphase] at hread
    obtain ⟨passphrase, hmem⟩ := hread hprovided
    obtain ⟨request, hreq, hout⟩ := h.outcome_of_logOf hmem
    have hpass : ((s.requests[r]?).map (·.passphrase)).getD [] = passphrase := by
      rw [hreq]
      show request.passphrase = passphrase
      unfold PassphraseRequest.passphrase
      rw [hout]
      rfl
    rw [hpass]
    exact hmem
  | returned status passphrase =>
    unfold PassphraseSystem.stepRequest
    rw [hphase]
    exact h

/-! ## A new request, or one to join -/

/-- A new request, which nobody waits on yet. -/
theorem append (h : PassphraseInv qt s) (key : InFlightKey) :
    Grows s { s with requests := s.requests ++ [⟨key, none⟩] } ∧
    PassphraseInv qt { s with requests := s.requests ++ [⟨key, none⟩] } := by
  have hold : ∀ (r : Nat) (request : PassphraseRequest), s.requests[r]? = some request →
      (s.requests ++ [⟨key, none⟩])[r]? = some request := by
    intro r request hr
    rw [List.getElem?_append_left (List.getElem?_eq_some_iff.mp hr).1]
    exact hr
  have hgrows : Grows s { s with requests := s.requests ++ [⟨key, none⟩] } := by
    refine ⟨?_, ?_, fun _ _ h => h, rfl⟩
    · intro r key' hkey
      obtain ⟨request, hr, hkey⟩ := Option.map_eq_some_iff.mp hkey
      exact Option.map_eq_some_iff.mpr ⟨request, hold r request hr, hkey⟩
    · intro r hset
      obtain ⟨request, hr, hsome⟩ := isSettled_iff.mp hset
      exact isSettled_iff.mpr ⟨request, hold r request hr, hsome⟩
  refine ⟨hgrows, ⟨?_, ?_, h.cancelled, h.provided, h.answered, ?_, ?_, h.shown⟩, ?_⟩
  · intro r request hr
    show s.logOf r = request.outcome.toList
    rcases getElem?_snoc_cases hr with hr | ⟨hr, rfl⟩
    · exact h.books r request hr
    · show s.logOf r = []
      unfold logOf
      rw [List.map_eq_nil_iff, List.filter_eq_nil_iff]
      intro e he
      have hlt := h.logged e he
      simp only [decide_eq_true_eq]
      omega
  · intro e he
    have hlt := h.logged e he
    show e.request < (s.requests ++ [_]).length
    rw [List.length_append]
    omega
  · intro r hr
    refine h.live r ?_
    cases hset : s.isSettled r with
    | false => rfl
    | true =>
      rw [hgrows.settled r hset] at hr
      cases hr
  · intro key' r hr
    exact hgrows.key r key' (h.inFlight key' r hr)
  · intro c hc
    exact (h.calls c hc).grow hgrows

/-- A call that has entered takes up a request made for its unlock. -/
theorem take (h : PassphraseInv qt s) (hk : s.calls[k]? = some call) (ownsPrompt : Bool)
    (hnone : call.request = none) (hkey : s.keyOf r = some (call.key qt))
    {inFlight : AList fun _ : InFlightKey => Nat}
    (hflight : ∀ key r, inFlight.lookup key = some r → s.keyOf r = some key) :
    PassphraseInv qt { s with
      calls := s.calls.set k { call with
        phase := .acquired, request := some r, ownsPrompt := ownsPrompt }
      inFlight := inFlight } := by
  have hok := h.callOk hk
  refine h.update hk ?_ ?_ (h.live_same hk ?_) hflight h.shown
  · refine ⟨?_, ?_, ?_, ?_, ?_, ?_, ?_⟩
    · intro r' hr'
      cases hr'
      exact hkey
    · exact fun hnone => by cases hnone
    · exact fun _ _ _ hafter => by cases hafter
    · exact fun _ _ => trivial
    · intro _ r' hr'
      simp [registeredOn, CallPhase.isLive] at hr'
    · exact fun hp => by cases hp
    · intro hunder
      exact ⟨(hok.underClose hunder).1, rfl, fun _ => trivial⟩
  · intro howns
    rw [(hok.noRequest hnone).1] at howns
    cases howns
  · intro r' hr'
    simp [registeredOn, CallPhase.isLive] at hr'

theorem acquireRequest (h : PassphraseInv qt s) (hk : s.calls[k]? = some call)
    (hnone : call.request = none) : PassphraseInv qt (s.acquireRequest qt k call) := by
  obtain ⟨-, happend⟩ := h.append (call.key qt)
  have hkey : PassphraseSystem.keyOf { s with requests := s.requests ++ [⟨call.key qt, none⟩] }
      s.requests.length = some (call.key qt) := by
    show ((s.requests ++ [_])[s.requests.length]?).map (·.key) = _
    rw [List.getElem?_append_right (Nat.le_refl _), Nat.sub_self]
    rfl
  unfold PassphraseSystem.acquireRequest
  dsimp only
  split
  · exact happend.take hk true hnone hkey happend.inFlight
  · split
    · next r hfind =>
      rw [Option.filter_eq_some_iff] at hfind
      exact h.take hk call.ownsPrompt hnone (h.inFlight _ r hfind.1) h.inFlight
    · refine happend.take hk true hnone hkey ?_
      intro key r hlook
      by_cases hkk : key = call.key qt
      · rw [hkk, AList.lookup_insert] at hlook
        cases hlook
        rw [hkk]
        exact hkey
      · rw [AList.lookup_insert_ne hkk] at hlook
        exact happend.inFlight key r hlook

theorem stepCall (h : PassphraseInv qt s) (hk : s.calls[k]? = some call) :
    PassphraseInv qt (s.stepCall qt k call) := by
  unfold PassphraseSystem.stepCall
  cases hr : call.request with
  | some r => exact h.stepRequest hk hr
  | none =>
    dsimp only
    split
    · split
      · -- nothing to show: the call returns without a request
        have hok := h.callOk hk
        refine h.update hk ?_ (fun howns => ⟨howns, rfl⟩) (h.live_same hk ?_) h.inFlight h.shown
        · refine ⟨hok.key, ?_, ?_, ?_, ?_, ?_, ?_⟩
          · exact fun hnone => ⟨(hok.noRequest hnone).1, Or.inr rfl⟩
          · intro r' hr'
            rw [show call.request = some r' from hr'] at hr
            cases hr
          · exact fun _ _ hp => by cases hp
          · intro _ r' hr'
            simp [registeredOn, CallPhase.isLive] at hr'
          · exact fun hp => by cases hp
          · intro hunder
            exact ⟨(hok.underClose hunder).1, rfl, fun hsome => absurd hr hsome⟩
        · intro r' hr'
          simp [registeredOn, CallPhase.isLive] at hr'
      · exact h.acquireRequest hk hr
    · exact h

/-! ## The interface -/

theorem request (h : PassphraseInv qt s) (channel : Int) (state : PassphraseState) :
    PassphraseInv qt (s.step qt (.request channel state)) where
  books := h.books
  logged := h.logged
  cancelled := h.cancelled
  provided := h.provided
  answered := by
    intro e he k hk
    obtain ⟨call, hcall, howns, hreq⟩ := h.answered e he k hk
    refine ⟨call, ?_, howns, hreq⟩
    show (s.calls ++ [_])[k]? = some call
    rw [List.getElem?_append_left (List.getElem?_eq_some_iff.mp hcall).1]
    exact hcall
  live := by
    intro r hr
    show (s.calls ++ [_]).countP (registeredOn r) ≤ s.liveRequests.count r
    rw [List.countP_append]
    exact h.live r hr
  inFlight := h.inFlight
  shown := h.shown
  calls := by
    intro call hcall
    have hgrows : Grows s (s.step qt (.request channel state)) :=
      ⟨fun _ _ h => h, fun _ h => h, fun _ _ h => h, rfl⟩
    rcases List.mem_append.mp hcall with hcall | hcall
    · exact (h.calls call hcall).grow hgrows
    · rw [List.mem_singleton.mp hcall]
      refine ⟨?_, ?_, ?_, ?_, ?_, ?_, ?_⟩
      · exact fun _ hr => by cases hr
      · exact fun _ => ⟨rfl, Or.inl rfl⟩
      · exact fun _ hr => by cases hr
      · exact fun _ _ => trivial
      · exact fun _ _ hr => by cases hr
      · exact fun hp => by cases hp
      · exact fun hunder => ⟨hunder, rfl, fun _ => trivial⟩

/-- Only the context of the prompt changes. -/
theorem answer (h : PassphraseInv qt s) (hk : s.calls[k]? = some call) (passphrase : List UInt8)
    (cancelled : Bool) : PassphraseInv qt
      (s.setCall k { call with passphrase := passphrase, cancelled := cancelled }) := by
  have hok := h.callOk hk
  exact h.update hk
    ⟨hok.key, hok.noRequest, hok.settled, hok.read, hok.closed, hok.open_, hok.underClose⟩
    (fun howns => ⟨howns, rfl⟩) (h.live_same hk fun _ hr => hr) h.inFlight h.shown

theorem isLive_of_hasSlot (hslot : hasSlot call = true) :
    call.ownsPrompt = true ∧ call.phase.isLive = true := by
  unfold hasSlot at hslot
  rw [Bool.and_eq_true] at hslot
  refine ⟨hslot.1, ?_⟩
  cases hphase : call.phase <;> rw [hphase] at hslot <;> first | rfl | cases hslot.2

/-- The answer to a prompt: after a close its request is settled already. -/
theorem ready (h : PassphraseInv qt s) (k : Nat) : PassphraseInv qt (s.step qt (.ready k)) := by
  unfold PassphraseSystem.step
  dsimp only
  split
  · exact h
  · next call hk =>
    split
    · exact h
    · next r hr =>
      split
      · next hslot =>
        obtain ⟨howns, hlive⟩ := isLive_of_hasSlot hslot
        refine h.settle ?_ (fun _ => ⟨k, rfl⟩) ?_
        · intro hclosed hnot
          rw [(h.callOk hk).closed hclosed r (CallOk.registeredOn_self hr hlive)] at hnot
          cases hnot
        · intro k' hk'
          cases hk'
          exact ⟨call, hk, howns, hr⟩
      · exact h

/-- Settling a list of requests as cancelled. -/
theorem cancelAll_spec (rs : List Nat) {s : PassphraseSystem} (h : RequestInv s) :
    RequestInv (cancelAll rs s) ∧ Grows s (cancelAll rs s) ∧
    (∀ r ∈ rs, ∀ key, s.keyOf r = some key → (cancelAll rs s).isSettled r = true) ∧
    (cancelAll rs s).calls = s.calls := by
  induction rs generalizing s with
  | nil =>
    refine ⟨h, ⟨fun _ _ h => h, fun _ h => h, fun _ _ h => h, rfl⟩, ?_, rfl⟩
    exact fun r hr => by cases hr
  | cons r rs ih =>
    have hs : RequestInv (s.settle r .cancelled [] .closePrompts).2 :=
      h.settle (fun _ _ => rfl) (fun hp => by cases hp) fun k hk => by cases hk
    have hgrows := s.grows_settle r .cancelled [] .closePrompts
    obtain ⟨hinv, hgrows', hall, hcalls⟩ := ih hs
    refine ⟨hinv, ⟨?_, ?_, ?_, hgrows'.closed.trans hgrows.closed⟩, ?_, ?_⟩
    · exact fun r' key hkey => hgrows'.key r' key (hgrows.key r' key hkey)
    · exact fun r' hset => hgrows'.settled r' (hgrows.settled r' hset)
    · exact fun r' x hx => hgrows'.log r' x (hgrows.log r' x hx)
    · intro r' hr' key hkey
      rcases List.mem_cons.mp hr' with rfl | hr'
      · exact hgrows'.settled r' (isSettled_settle hkey .cancelled [] .closePrompts)
      · exact hall r' hr' key (hgrows.key r' key hkey)
    · exact hcalls.trans (s.settle_calls r .cancelled [] .closePrompts)

theorem markUnderClose_spec (qt : QtText) (call : PassphraseCall) :
    (markUnderClose call).phase = call.phase ∧ (markUnderClose call).request = call.request ∧
    (markUnderClose call).ownsPrompt = call.ownsPrompt ∧
    (markUnderClose call).key qt = call.key qt ∧
    ((markUnderClose call).underClose = true → call.underClose = true ∨
      call.phase = .entered ∨ call.phase = .acquired) := by
  unfold markUnderClose
  split
  · next hphase => exact ⟨rfl, rfl, rfl, rfl, fun _ => Or.inr (Or.inl hphase)⟩
  · next hphase => exact ⟨rfl, rfl, rfl, rfl, fun _ => Or.inr (Or.inr hphase)⟩
  · exact ⟨rfl, rfl, rfl, rfl, Or.inl⟩

theorem registeredOn_markUnderClose (r : Nat) (call : PassphraseCall) :
    registeredOn r (markUnderClose call) = registeredOn r call := by
  unfold markUnderClose
  split <;> rfl

/-- `ClosePrompts`, when no call is about to show its prompt. -/
theorem closePrompts (h : PassphraseInv qt s)
    (hquiet : ∀ call ∈ s.calls, call.phase ≠ .promptRegistered) :
    PassphraseInv qt (s.step qt .closePrompts) := by
  have hbase : RequestInv { s with promptsClosed := true } :=
    ⟨h.books, h.logged, h.cancelled, h.provided, h.answered, h.live, h.inFlight, h.shown⟩
  obtain ⟨hinv, hgrows, hall, hcalls⟩ := cancelAll_spec s.liveRequests hbase
  have hregistered : ∀ call ∈ s.calls, ∀ r, registeredOn r call = true →
      (cancelAll s.liveRequests { s with promptsClosed := true }).isSettled r = true := by
    intro call hcall r hr
    cases hset : s.isSettled r with
    | true => exact hgrows.settled r hset
    | false =>
      have hpos : 0 < s.calls.countP (registeredOn r) := List.countP_pos_iff.mpr ⟨call, hcall, hr⟩
      have hmem : r ∈ s.liveRequests := by
        refine List.count_pos_iff.mp ?_
        have hlive := h.live r hset
        omega
      unfold registeredOn at hr
      rw [Bool.and_eq_true, decide_eq_true_eq] at hr
      exact hall r hmem _ ((h.calls call hcall).key r hr.1)
  unfold PassphraseSystem.step
  revert hinv hgrows hcalls hregistered
  generalize cancelAll s.liveRequests { s with promptsClosed := true } = s₁
  intro hinv hgrows hcalls hregistered
  refine ⟨⟨hinv.books, hinv.logged, hinv.cancelled, hinv.provided, ?_, ?_, hinv.inFlight,
    hinv.shown⟩, ?_⟩
  · intro e he k hk
    obtain ⟨call, hcall, howns, hreq⟩ := hinv.answered e he k hk
    rw [hcalls] at hcall
    obtain ⟨-, hreq', howns', -⟩ := markUnderClose_spec qt call
    refine ⟨markUnderClose call, ?_, howns'.trans howns, hreq'.trans hreq⟩
    show (s.calls.map markUnderClose)[k]? = _
    rw [List.getElem?_map, show s.calls[k]? = some call from hcall]
    rfl
  · intro r hr
    have hzero : (s.calls.map markUnderClose).countP (registeredOn r) = 0 := by
      rw [List.countP_eq_zero]
      intro c hc hreg
      obtain ⟨call, hcall, rfl⟩ := List.mem_map.mp hc
      rw [registeredOn_markUnderClose] at hreg
      have hset := hregistered call hcall r hreg
      rw [show s₁.isSettled r = false from hr] at hset
      cases hset
    show (s.calls.map markUnderClose).countP (registeredOn r) ≤ _
    rw [hzero]
    exact Nat.zero_le _
  · intro c hc
    obtain ⟨call, hcall, rfl⟩ := List.mem_map.mp hc
    have hok := h.calls call hcall
    obtain ⟨hphase, hreq, howns, hkey, hunder⟩ := markUnderClose_spec qt call
    refine ⟨?_, ?_, ?_, ?_, ?_, ?_, ?_⟩
    · intro r hr
      rw [hkey]
      exact hgrows.key r _ (hok.key r (hreq.symm.trans hr))
    · intro hnone
      rw [howns, hphase]
      exact hok.noRequest (hreq.symm.trans hnone)
    · intro r hr howns' hafter
      rw [hphase] at hafter
      exact hgrows.settled r (hok.settled r (hreq.symm.trans hr) (howns.symm.trans howns') hafter)
    · intro r hr
      rw [hphase]
      exact (hok.read r (hreq.symm.trans hr)).mono (hgrows.log r)
    · intro _ r hr
      rw [registeredOn_markUnderClose] at hr
      exact hregistered call hcall r hr
    · intro hp
      rw [hphase] at hp
      exact absurd hp (hquiet call hcall)
    · intro hmark
      refine ⟨hgrows.closed, ?_⟩
      rw [hphase, hreq]
      rcases hunder hmark with hold | hentered | hacquired
      · exact (hok.underClose hold).2
      · rw [hentered]
        exact ⟨rfl, fun _ => trivial⟩
      · rw [hacquired]
        exact ⟨rfl, fun _ => trivial⟩

theorem reopenPrompts (h : PassphraseInv qt s) :
    PassphraseInv qt (s.step qt .reopenPrompts) := by
  refine ⟨⟨h.books, h.logged, h.cancelled, h.provided, ?_, ?_, h.inFlight, h.shown⟩, ?_⟩
  · intro e he k hk
    obtain ⟨call, hcall, howns, hreq⟩ := h.answered e he k hk
    refine ⟨{ call with underClose := false }, ?_, howns, hreq⟩
    show (s.calls.map fun call => { call with underClose := false })[k]? = _
    rw [List.getElem?_map, hcall]
    rfl
  · intro r hr
    show (s.calls.map _).countP (registeredOn r) ≤ s.liveRequests.count r
    rw [List.countP_map]
    exact h.live r hr
  · intro c hc
    obtain ⟨call, hcall, rfl⟩ := List.mem_map.mp hc
    have hok := h.calls call hcall
    refine ⟨hok.key, hok.noRequest, hok.settled, hok.read, ?_, ?_, ?_⟩
    · exact fun hclosed => by cases hclosed
    · exact fun _ => rfl
    · exact fun hunder => by cases hunder

end PassphraseInv

/-! ## Runs -/

/-- `ClosePrompts` does not come between `RegisterLivePrompt` and the signal that asks for
the prompt. -/
def PassphraseAction.WellTimed (s : PassphraseSystem) (action : PassphraseAction) : Prop :=
  action = .closePrompts → ∀ call ∈ s.calls, call.phase ≠ .promptRegistered

instance (s : PassphraseSystem) (action : PassphraseAction) :
    Decidable (action.WellTimed s) :=
  inferInstanceAs (Decidable (action = .closePrompts → _))

theorem PassphraseInv.step {qt : QtText} {s : PassphraseSystem} (h : PassphraseInv qt s)
    (action : PassphraseAction) (htimed : action.WellTimed s) :
    PassphraseInv qt (s.step qt action) := by
  cases action with
  | request channel state => exact h.request channel state
  | step k =>
    unfold PassphraseSystem.step
    dsimp only
    split
    · exact h
    · next call hk => exact h.stepCall hk
  | answer k passphrase =>
    unfold PassphraseSystem.step
    dsimp only
    split
    · exact h
    · next call hk =>
      cases passphrase with
      | some p => exact h.answer hk p call.cancelled
      | none => exact h.answer hk [] true
  | ready k => exact h.ready k
  | closePrompts => exact h.closePrompts (htimed rfl)
  | reopenPrompts => exact h.reopenPrompts

theorem PassphraseInv.start (qt : QtText) : PassphraseInv qt {} where
  books _ _ h := by cases h
  logged _ h := by cases h
  cancelled _ h := by cases h
  provided _ h := by cases h
  answered _ h := by cases h
  live _ _ := Nat.le_refl _
  inFlight _ _ h := by cases h
  shown _ h := by cases h
  calls _ h := by cases h

/-! ## Nothing settled is settled again -/

namespace PassphraseSystem

theorem settlements_settle (s : PassphraseSystem) (r : Nat) (status : PassphraseRequestStatus)
    (passphrase : List UInt8) (settledBy : SettledBy) :
    s.settlements <+: (s.settle r status passphrase settledBy).2.settlements := by
  rcases s.settle_spec r status passphrase settledBy with ⟨heq, -⟩ | ⟨_, -, -, heq⟩
  · rw [heq]
  · rw [heq]
    exact List.prefix_append _ _

theorem settlements_cancelAll (rs : List Nat) (s : PassphraseSystem) :
    s.settlements <+: (cancelAll rs s).settlements := by
  induction rs generalizing s with
  | nil => exact List.prefix_refl _
  | cons r rs ih => exact (s.settlements_settle r .cancelled [] .closePrompts).trans (ih _)

theorem settlements_stepRequest (qt : QtText) (s : PassphraseSystem) (k : Nat)
    (call : PassphraseCall) (r : Nat) :
    s.settlements <+: (s.stepRequest qt k call r).settlements := by
  unfold stepRequest
  cases call.phase with
  | refused => exact s.settlements_settle r .cancelled [] .refusal
  | promptUnregistered => exact s.settlements_settle r .failed [] .giveUp
  | refusedSettled =>
    dsimp only
    split <;> exact List.prefix_refl _
  | driven =>
    dsimp only
    split <;> exact List.prefix_refl _
  | acquired =>
    dsimp only
    split <;> exact List.prefix_refl _
  | connected =>
    dsimp only
    split <;> exact List.prefix_refl _
  | _ => exact List.prefix_refl _

theorem settlements_acquireRequest (qt : QtText) (s : PassphraseSystem) (k : Nat)
    (call : PassphraseCall) : (s.acquireRequest qt k call).settlements = s.settlements := by
  unfold acquireRequest
  dsimp only
  split
  · rfl
  · split <;> rfl

/-- The log only grows. -/
theorem settlements_step (qt : QtText) (s : PassphraseSystem) (action : PassphraseAction) :
    s.settlements <+: (s.step qt action).settlements := by
  cases action with
  | request channel state => exact List.prefix_refl _
  | step k =>
    unfold step
    dsimp only
    split
    · exact List.prefix_refl _
    · next call hk =>
      unfold stepCall
      split
      · exact s.settlements_stepRequest qt k call _
      · split
        · split
          · exact List.prefix_refl _
          · rw [settlements_acquireRequest]
        · exact List.prefix_refl _
  | answer k passphrase =>
    unfold step
    dsimp only
    split
    · exact List.prefix_refl _
    · split <;> exact List.prefix_refl _
  | ready k =>
    unfold step
    dsimp only
    split
    · exact List.prefix_refl _
    · split
      · exact List.prefix_refl _
      · split
        · exact s.settlements_settle _ _ _ _
        · exact List.prefix_refl _
  | closePrompts => exact settlements_cancelAll s.liveRequests { s with promptsClosed := true }
  | reopenPrompts => exact List.prefix_refl _

end PassphraseSystem

/-- What the service promises about its requests, its answers and a close. -/
structure PassphrasesRouted (qt : QtText) (s : PassphraseSystem) : Prop where
  /-- A request has been settled once, as its outcome says, or not at all. -/
  settledOnce : ∀ (r : Nat) (request : PassphraseRequest), s.requests[r]? = some request →
    s.logOf r = request.outcome.toList
  /-- The first settlement wins: no step changes an outcome. -/
  final : ∀ (r : Nat) (request : PassphraseRequest) (x : PassphraseRequestStatus × List UInt8),
    s.requests[r]? = some request → request.outcome = some x →
    ∀ action : PassphraseAction, action.WellTimed s →
      ∃ request' : PassphraseRequest, (s.step qt action).requests[r]? = some request' ∧
        request'.outcome = some x
  /-- The call that made a request does not return without it settled. -/
  exactlyOnce : ∀ call ∈ s.calls, ∀ (r : Nat) (status : PassphraseRequestStatus)
    (passphrase : List UInt8), call.request = some r → call.ownsPrompt = true →
    call.phase = .returned status passphrase → (s.logOf r).length = 1
  /-- A call returns only a passphrase typed into a prompt for its own channel, fingerprint
  and info. -/
  delivered : ∀ call ∈ s.calls, ∀ passphrase, call.phase = .returned .provided passphrase →
    ∃ e ∈ s.settlements, ∃ (k : Nat) (asker : PassphraseCall), s.calls[k]? = some asker ∧
      e.settledBy = .answer k ∧ e.passphrase = passphrase ∧ asker.request = call.request ∧
      asker.key qt = call.key qt
  /-- An answer settles a request of its own unlock. -/
  sameUnlock : ∀ e ∈ s.settlements, ∀ k, e.settledBy = .answer k →
    ∃ asker : PassphraseCall, s.calls[k]? = some asker ∧ s.keyOf e.request = some (asker.key qt) ∧
      ∀ call ∈ s.calls, call.request = some e.request → call.key qt = asker.key qt
  /-- While prompts are closed, only cancellations take effect. -/
  cancelled : ∀ e ∈ s.settlements, e.closed = true → e.status = .cancelled
  /-- While prompts are closed, no registered call waits for anything. -/
  pending : s.promptsClosed = true → ∀ call ∈ s.calls, ∀ r, registeredOn r call = true →
    s.isSettled r = true
  /-- A call made, or not registered yet, while prompts are closed returns as cancelled. -/
  refused : ∀ call ∈ s.calls, call.underClose = true → call.request ≠ none →
    call.phase.cancelledIfReturned
  /-- No prompt is shown while prompts are closed. -/
  shown : ∀ e ∈ s.shown, e.2 = false

theorem PassphraseInv.routed {qt : QtText} {s : PassphraseSystem} (h : PassphraseInv qt s) :
    PassphrasesRouted qt s where
  settledOnce := h.books
  final := by
    intro r request x hr hout action htimed
    have hmem : x ∈ s.logOf r := by
      rw [h.logOf_of_outcome hr hout]
      exact List.mem_singleton_self x
    exact (h.step action htimed).outcome_of_logOf
      (logOf_extends (settlements_step qt s action) x hmem)
  exactlyOnce := by
    intro call hcall r status passphrase hr howns hphase
    have hset := (h.calls call hcall).settled r hr howns (by rw [hphase]; rfl)
    obtain ⟨request, hreq, hsome⟩ := isSettled_iff.mp hset
    obtain ⟨x, hx⟩ := Option.isSome_iff_exists.mp hsome
    rw [h.logOf_of_outcome hreq hx]
    rfl
  delivered := by
    intro call hcall passphrase hphase
    have hok := h.calls call hcall
    cases hreq : call.request with
    | none =>
      rcases (hok.noRequest hreq).2 with hp | hp
      · rw [hp] at hphase
        cases hphase
      · rw [hp] at hphase
        cases hphase
    | some r =>
      have hread := hok.read r hreq
      rw [hphase] at hread
      obtain ⟨e, he, heq⟩ := List.mem_map.mp (hread rfl)
      obtain ⟨he, hr⟩ := List.mem_filter.mp he
      obtain ⟨hstatus, hpass⟩ := Prod.mk.inj heq
      obtain ⟨k, hk⟩ := h.provided e he hstatus
      obtain ⟨asker, hasker, -, hreq'⟩ := h.answered e he k hk
      rw [of_decide_eq_true hr] at hreq'
      refine ⟨e, he, k, asker, hasker, hk, hpass, hreq', ?_⟩
      exact Option.some.inj
        (((h.callOk hasker).key r hreq').symm.trans (hok.key r hreq))
  sameUnlock := by
    intro e he k hk
    obtain ⟨asker, hasker, -, hreq⟩ := h.answered e he k hk
    have hkey := (h.callOk hasker).key _ hreq
    refine ⟨asker, hasker, hkey, ?_⟩
    intro call hcall hr
    exact Option.some.inj (((h.calls call hcall).key _ hr).symm.trans hkey)
  cancelled := h.cancelled
  pending hclosed call hcall r hr := (h.calls call hcall).closed hclosed r hr
  refused call hcall hunder hreq := ((h.calls call hcall).underClose hunder).2.2 hreq
  shown := h.shown

/-- Along every run in which `ClosePrompts` never comes between the registration of a prompt
and the signal that asks for it. -/
theorem passphrases_routed (qt : QtText) {s : PassphraseSystem}
    (h : ReachableUnder (PassphraseSystem.step qt) (fun s action => action.WellTimed s) {} s) :
    PassphrasesRouted qt s := by
  have hinv : PassphraseInv qt s :=
    h.inv (PassphraseInv.start qt) fun s action hs htimed => hs.step action htimed
  exact hinv.routed

/-- The text functions on Latin text. -/
def latinText : QtText where
  trimmed text :=
    let blank : UInt16 → Bool := fun c => c = 32 || (9 ≤ c && c ≤ 13)
    ((text.dropWhile blank).reverse.dropWhile blank).reverse
  toUpper text := text.map fun c => if 97 ≤ c && c ≤ 122 then c - 32 else c

/-- Two operations unlock one key: the second joins the prompt of the first, and both are
given what was typed. -/
def sharedUnlock : List PassphraseAction :=
  [.request 0 { info := [75], fpr := [97, 98] },
   .request 0 { info := [75], fpr := [65, 66, 32] },
   .step 0, .step 1, .step 0, .step 1, .step 0, .step 1, .step 0, .step 0,
   .answer 0 (some [1, 2, 3]), .ready 0,
   .step 1, .step 1, .step 1, .step 1,
   .step 0, .step 0, .step 0, .step 0, .step 0, .step 0, .step 0]

/-- After the close, a third is cancelled. -/
def unlockThenClose : List PassphraseAction :=
  sharedUnlock ++ [.closePrompts, .request 0 { info := [75], fpr := [65, 66] },
    .step 2, .step 2, .step 2, .step 2]

theorem unlockThenClose_routed :
    (((unlockThenClose.foldl (PassphraseSystem.step latinText) {}).calls.map (·.phase)) =
      [.returned .provided [1, 2, 3], .returned .provided [1, 2, 3], .returned .cancelled []]) ∧
    PassphrasesRouted latinText (unlockThenClose.foldl (PassphraseSystem.step latinText) {}) :=
  ⟨by decide, passphrases_routed latinText (.foldl .start (by decide))⟩

/-- A call has registered its prompt; prompts are closed, which tells the interface to close
a prompt it has not been asked for; and then the call asks for it. -/
theorem prompt_shown_after_close :
    ∃ actions : List PassphraseAction,
      ∃ e ∈ (actions.foldl (PassphraseSystem.step latinText) {}).shown, e.2 = true := by
  refine ⟨[.request 0 { info := [75], fpr := [65, 66] }, .step 0, .step 0, .step 0, .step 0,
    .closePrompts, .step 0], (0, true), ?_, rfl⟩
  decide

end GpgFrontend
