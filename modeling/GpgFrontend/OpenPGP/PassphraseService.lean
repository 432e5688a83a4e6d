import GpgFrontend.OpenPGP.KeyGroupRepository

/-!
# Asking the user for a passphrase (`PassphraseService.cpp`)

An operation that needs a passphrase calls `RequestPassphrase` on its own thread and
waits. A call either opens a prompt of its own or joins the prompt already open for the
same unlock; the interface answers a prompt through a broadcast signal, and closes all of
them with `ClosePrompts` when it goes away. The shared state is three mutexes apart: the
table of requests in flight, the lists of live requests and prompts with the closed flag,
and the outcome of each request. Every step below is one section under one of them, or one
signal, so an interleaving of threads is a list of `PassphraseAction`s.

- `PassphraseSystem`: the requests, the calls, the globals, and the history of what was
  settled and what was shown.
-/

namespace GpgFrontend

/-- What is used of `QString`'s text functions. -/
structure QtText where
  trimmed : QString → QString
  toUpper : QString → QString

/-- `PassphraseState`. -/
structure PassphraseState where
  info : QString
  fpr : QString
  retry : Bool := false
  askForNew : Bool := false
  shouldConfirm : Bool := false
  deriving DecidableEq

/-- `PassphraseRequestStatus`. -/
inductive PassphraseRequestStatus
  | provided
  | cancelled
  | failed
  deriving DecidableEq

/-- `InFlightKey`. -/
structure InFlightKey where
  channel : Int
  fpr : QString
  info : QString
  deriving DecidableEq

/-- `PassphraseRequest`, with the unlock it was made for. -/
structure PassphraseRequest where
  key : InFlightKey
  outcome : Option (PassphraseRequestStatus × List UInt8) := none
  deriving DecidableEq

/-- `Status()`: failed until it is settled. -/
def PassphraseRequest.status (request : PassphraseRequest) : PassphraseRequestStatus :=
  (request.outcome.map (·.1)).getD .failed

/-- `Passphrase()`: empty until it is settled. -/
def PassphraseRequest.passphrase (request : PassphraseRequest) : List UInt8 :=
  (request.outcome.map (·.2)).getD []

/-- Where a call of `RequestPassphrase` stands. -/
inductive CallPhase
  | entered
  /-- After `AcquireRequest`. -/
  | acquired
  /-- `RegisterLiveRequest` said no. -/
  | refused
  | refusedSettled
  /-- `RegisterLiveRequest` said yes. -/
  | registered
  /-- `DrivePrompt` has connected the answer of its prompt. -/
  | connected
  /-- `RegisterLivePrompt` said yes; the prompt is about to be asked for. -/
  | promptRegistered
  | waiting
  | waited
  | promptUnregistered
  /-- `DrivePrompt` is about to disconnect. -/
  | driven
  /-- The entry of the table in flight is gone, if it was this call's. -/
  | released
  | unregistered
  | statusRead (status : PassphraseRequestStatus)
  | returned (status : PassphraseRequestStatus) (passphrase : List UInt8)
  deriving DecidableEq

/-- A call of `RequestPassphrase`; `passphrase` and `cancelled` are those of its
`GpgPassphraseContext`, which nothing else has. -/
structure PassphraseCall where
  channel : Int
  state : PassphraseState
  phase : CallPhase := .entered
  request : Option Nat := none
  ownsPrompt : Bool := false
  passphrase : List UInt8 := []
  cancelled : Bool := false
  /-- Prompts have been closed since before this call registered anything. -/
  underClose : Bool := false
  deriving DecidableEq

/-- Who settled a request. -/
inductive SettledBy
  /-- The answer to the prompt of a call. -/
  | answer (call : Nat)
  /-- A call that found prompts closed. -/
  | refusal
  | closePrompts
  /-- The requester, which stopped waiting. -/
  | giveUp
  deriving DecidableEq

/-- A settlement that took effect, and whether prompts were closed then. -/
structure Settlement where
  request : Nat
  status : PassphraseRequestStatus
  passphrase : List UInt8
  settledBy : SettledBy
  closed : Bool
  deriving DecidableEq

structure PassphraseSystem where
  requests : List PassphraseRequest := []
  calls : List PassphraseCall := []
  inFlight : AList fun _ : InFlightKey => Nat := ∅
  liveRequests : List Nat := []
  livePrompts : List Nat := []
  promptsClosed : Bool := false
  settlements : List Settlement := []
  /-- The prompts asked for, by call, and whether prompts were closed then. -/
  shown : List (Nat × Bool) := []
  /-- The prompts told to close. -/
  dismissed : List Nat := []

namespace PassphraseCall

variable (qt : QtText) (call : PassphraseCall)

/-- The fingerprint as the service uses it. -/
def normalizedFpr : QString := qt.toUpper (qt.trimmed call.state.fpr)

def key : InFlightKey := ⟨call.channel, call.normalizedFpr qt, call.state.info⟩

/-- A prompt that has to be answered on its own terms is never shared. -/
def shareable : Bool :=
  call.normalizedFpr qt ≠ [] && !call.state.retry && !call.state.askForNew &&
    !call.state.shouldConfirm

end PassphraseCall

namespace PassphraseSystem

variable (s : PassphraseSystem)

def setCall (k : Nat) (call : PassphraseCall) : PassphraseSystem :=
  { s with calls := s.calls.set k call }

def moveTo (k : Nat) (call : PassphraseCall) (phase : CallPhase) : PassphraseSystem :=
  s.setCall k { call with phase := phase }

/-- `PassphraseRequest::Settle`: the first one wins. -/
def settle (r : Nat) (status : PassphraseRequestStatus) (passphrase : List UInt8)
    (settledBy : SettledBy) : Bool × PassphraseSystem :=
  match s.requests[r]? with
  | none => (false, s)
  | some request =>
    if request.outcome.isSome then (false, s)
    else
      (true, { s with
        requests := s.requests.set r { request with outcome := some (status, passphrase) }
        settlements := s.settlements ++ [⟨r, status, passphrase, settledBy, s.promptsClosed⟩] })

def isSettled (r : Nat) : Bool := (s.requests[r]?).any fun request => request.outcome.isSome

/-- `AcquireRequest`, for the call `k`. -/
def acquireRequest (qt : QtText) (k : Nat) (call : PassphraseCall) : PassphraseSystem :=
  let fresh : PassphraseSystem := { s with requests := s.requests ++ [⟨call.key qt, none⟩] }
  let own := { call with
    phase := .acquired, request := some s.requests.length, ownsPrompt := true }
  if !call.shareable qt then fresh.setCall k own
  else
    match (s.inFlight.lookup (call.key qt)).filter fun r => !s.isSettled r with
    | some r => s.setCall k { call with phase := .acquired, request := some r }
    | none =>
      { fresh.setCall k own with
        inFlight := s.inFlight.insert (call.key qt) s.requests.length }

/-- `ReleaseRequest`. -/
def releaseRequest (key : InFlightKey) (r : Nat) : PassphraseSystem :=
  { s with inFlight := if s.inFlight.lookup key = some r then s.inFlight.erase key else s.inFlight }

/-- The next step of the call `k`, which has its request. -/
def stepRequest (qt : QtText) (k : Nat) (call : PassphraseCall) (r : Nat) : PassphraseSystem :=
  match call.phase with
  | .acquired =>
    if s.promptsClosed then s.moveTo k call .refused
    else { s.moveTo k call .registered with liveRequests := s.liveRequests ++ [r] }
  | .refused => (s.settle r .cancelled [] .refusal).2.moveTo k call .refusedSettled
  | .refusedSettled =>
    (if call.shareable qt && call.ownsPrompt then s.releaseRequest (call.key qt) r else s).moveTo
      k call (.returned .cancelled [])
  | .registered => s.moveTo k call (if call.ownsPrompt then .connected else .waiting)
  | .connected =>
    if s.promptsClosed then s.moveTo k call .driven
    else { s.moveTo k call .promptRegistered with livePrompts := s.livePrompts ++ [k] }
  | .promptRegistered =>
    { s.moveTo k call .waiting with shown := s.shown ++ [(k, s.promptsClosed)] }
  -- the wait ends with an answer, or when the requester has waited long enough
  | .waiting => s.moveTo k call (if call.ownsPrompt then .waited else .released)
  | .waited => { s.moveTo k call .promptUnregistered with livePrompts := s.livePrompts.erase k }
  | .promptUnregistered =>
    let (won, s') := s.settle r .failed [] .giveUp
    { s'.moveTo k call .driven with
      dismissed := if won then s.dismissed ++ [k] else s.dismissed }
  | .driven =>
    (if call.shareable qt then s.releaseRequest (call.key qt) r else s).moveTo k call .released
  | .released => { s.moveTo k call .unregistered with liveRequests := s.liveRequests.erase r }
  | .unregistered =>
    s.moveTo k call (.statusRead (((s.requests[r]?).map (·.status)).getD .failed))
  | .statusRead status =>
    s.moveTo k call (.returned status (((s.requests[r]?).map (·.passphrase)).getD []))
  | .entered | .returned _ _ => s

/-- The next step of the call `k`. -/
def stepCall (qt : QtText) (k : Nat) (call : PassphraseCall) : PassphraseSystem :=
  match call.request with
  | some r => s.stepRequest qt k call r
  | none =>
    match call.phase with
    | .entered =>
      -- nothing to show the user: no request is made
      if !call.state.askForNew && qt.trimmed call.state.info = [] then
        s.moveTo k call (.returned .failed [])
      else s.acquireRequest qt k call
    | _ => s

/-- The slot of the call's prompt is connected. One that still runs after the disconnect
finds its request settled. -/
def hasSlot (call : PassphraseCall) : Bool :=
  call.ownsPrompt &&
    match call.phase with
    | .connected | .promptRegistered | .waiting | .waited | .promptUnregistered | .driven => true
    | _ => false

/-- Settle each live request as cancelled. -/
def cancelAll : List Nat → PassphraseSystem → PassphraseSystem
  | [], s => s
  | r :: rest, s => cancelAll rest (s.settle r .cancelled [] .closePrompts).2

/-- A call that has registered nothing when prompts are closed. -/
def markUnderClose (call : PassphraseCall) : PassphraseCall :=
  match call.phase with
  | .entered | .acquired => { call with underClose := true }
  | _ => call

end PassphraseSystem

inductive PassphraseAction
  | request (channel : Int) (state : PassphraseState)
  | step (k : Nat)
  /-- The interface writes an answer, or a refusal, into the context of a prompt. -/
  | answer (k : Nat) (passphrase : Option (List UInt8))
  /-- `SignalUserInputPassphraseReady` for that context. -/
  | ready (k : Nat)
  | closePrompts
  | reopenPrompts
  deriving DecidableEq

namespace PassphraseSystem

def step (qt : QtText) (s : PassphraseSystem) : PassphraseAction → PassphraseSystem
  | .request channel state =>
    { s with calls := s.calls ++ [{ channel := channel, state := state, underClose := s.promptsClosed }] }
  | .step k =>
    match s.calls[k]? with
    | none => s
    | some call => s.stepCall qt k call
  | .answer k passphrase =>
    match s.calls[k]? with
    | none => s
    | some call =>
      match passphrase with
      | some p => s.setCall k { call with passphrase := p }
      | none => s.setCall k { call with passphrase := [], cancelled := true }
  | .ready k =>
    match s.calls[k]? with
    | none => s
    | some call =>
      match call.request with
      | none => s
      | some r =>
        -- every connected slot runs, and all but the one of this context return at once
        if hasSlot call then
          (s.settle r (if call.cancelled then .cancelled else .provided) call.passphrase
            (.answer k)).2
        else s
  | .closePrompts =>
    { cancelAll s.liveRequests { s with promptsClosed := true } with
      liveRequests := []
      livePrompts := []
      calls := s.calls.map markUnderClose
      dismissed := s.dismissed ++ s.livePrompts }
  | .reopenPrompts =>
    { s with
      promptsClosed := false
      calls := s.calls.map fun call => { call with underClose := false } }

end PassphraseSystem

end GpgFrontend
