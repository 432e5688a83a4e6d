import GpgFrontend.Base.Runs
import GpgFrontend.Module.ModuleManifest

/-!
# Calls of commands (`CommandRegistry.cpp`)

Any thread calls into the registry, and the registry calls back: into a provider's `state` and
`run`, and into the `done` of a call. Each of them may call the registry again.

The texts of the log and the mirror in the register table are left out.
-/

namespace GpgFrontend

/-! ## Providers and calls -/

/-- `CommandProvider`, of whose descriptor only the shape of a codec counts here. -/
structure CommandProvider where
  id : String
  owner : String
  requiredCaps : Nat := 0
  flags : Nat := 0
  ownerCaps : Nat := 0
  codecShaped : Bool := false
  runs : Bool := true
  tellsState : Bool := false
  deriving Repr, DecidableEq

/-- `kNeedsGuiThread`, `kHostOnly`, `kInputDecoder` with `kOutputEncoder`. -/
def kNeedsGuiThread : Nat := 1
def kHostOnly : Nat := 8
def kCodec : Nat := 16 + 32

/-- `GF_HOST_CAP_EDITOR`. -/
def hostCapEditor : Nat := 8

/-- `GF_CMD_OK` and the statuses the registry itself gives. -/
inductive CommandStatus where
  | ok | unknown | denied | badArgs | disabled | unavailable
  deriving Repr, DecidableEq

/-- `CodecRefusal`. -/
def codecRefusal (p : CommandProvider) : Option String :=
  if p.flags &&& kCodec = 0 then none
  else if p.flags &&& kNeedsGuiThread ≠ 0 then some "a codec does not run on the GUI thread"
  else if p.owner ≠ "" ∧ p.ownerCaps &&& hostCapEditor = 0 then
    some "a codec's module needs the editor capability"
  else if !p.codecShaped then some "its args or result are not the codec's"
  else none

/-- A provider that was registered. No two registrations have one serial: it stands for the
pointer the code compares. -/
structure RegisteredCommand where
  serial : Nat
  provider : CommandProvider
  deriving Repr, DecidableEq

/-- `CommandCaller`. -/
structure CommandCaller where
  module : String := ""
  caps : Nat := 0
  deriving Repr, DecidableEq

def CommandCaller.isHost (caller : CommandCaller) : Bool := caller.module = ""

/-- `RawResult`; `body` is what the provider hands over. -/
structure RawResult (ρ : Type) where
  status : CommandStatus
  callId : Nat := 0
  body : Option ρ := none
  error : String := ""
  deriving DecidableEq

/-- `Pending`. `via` is the provider that the closure of the call holds; `completer` names the
`done` it was made with, and `done` is that as long as it was not taken. -/
structure PendingCall (τ : Type) where
  caller : String
  via : RegisteredCommand
  completer : Nat
  cancelled : Bool := false
  finished : Bool := false
  done : Option Nat
  /-- `delivery`: who has it, and how often. -/
  delivery : Option (τ × Nat) := none
  deriving DecidableEq

/-- Who completes a call. -/
inductive CompletedBy where
  | owner (name : String)
  | registry
  deriving Repr, DecidableEq

/-- What has happened, as those outside the registry see it. -/
inductive CommandEvent (ρ : Type) where
  /-- `Invoke` has returned, with a ticket. -/
  | answered (completer : Nat) (status : CommandStatus) (call : Nat)
  /-- The `run` of a provider is entered. -/
  | entered (call : Nat) (owner : String)
  /-- A call is completed, by whom. -/
  | completed (call : Nat) (by_ : CompletedBy) (result : RawResult ρ)
  /-- The `done` of a call is entered. -/
  | started (call completer : Nat) (caller : String) (result : RawResult ρ)
  | delivered (call : Nat)
  | cancelled (call : Nat) (caller : String)
  /-- `Cancel` has returned; `own`: it was the caller of that call who asked. -/
  | cancelReturned (call : Nat) (own : Bool) (status : CommandStatus)
  | removed (module : String)
  | reopened (module : String)
  deriving DecidableEq

/-- The registry. -/
structure CommandRegistry (τ ρ : Type) where
  providers : List RegisteredCommand := []
  pending : List Nat := []
  nextCallId : Nat := 1
  closed : List String := []
  /-- The records of all calls so far. -/
  calls : Nat → Option (PendingCall τ) := fun _ => none
  /-- What was posted to the GUI thread. -/
  posted : List Nat := []
  nextSerial : Nat := 0
  nextCompleter : Nat := 0
  /-- The `Invoke` that still has a completer in its hands: its thread and its depth there. -/
  underWay : Nat → Option (τ × Nat) := fun _ => none
  history : List (CommandEvent ρ) := []

/-- A call of `Invoke`. -/
structure CommandRequest where
  id : String
  caller : CommandCaller
  deriving Repr, DecidableEq

/-- Where an operation stands. `invokeAsking`, `running` and `calling` are code outside the
registry: a provider's `state`, its `run`, and the `done` of a call. -/
inductive CommandFrame (ρ : Type) where
  | register (p : CommandProvider) (allowlist : Option (List String))
  | unregister (id owner : String)
  | invokeStart (q : CommandRequest) (completer : Nat)
  | invokeLookup (q : CommandRequest) (completer : Nat)
  | invokeCheck (q : CommandRequest) (completer : Nat) (p : RegisteredCommand)
  | invokeAsking (q : CommandRequest) (completer : Nat) (p : RegisteredCommand)
  | invokeEnter (q : CommandRequest) (completer : Nat) (p : RegisteredCommand)
  | invokeReturn (completer call : Nat)
  | runCheck (call : Nat)
  | runLookup (call : Nat)
  | runEnter (call : Nat)
  | running (call : Nat)
  | finishFind (call : Nat) (provider : String) (by_ : CompletedBy) (result : RawResult ρ)
  | deliverLock (call : Nat) (by_ : CompletedBy) (result : RawResult ρ)
  | deliverErase (call : Nat) (by_ : CompletedBy) (result : RawResult ρ)
  | deliverDecide (call : Nat) (by_ : CompletedBy) (result : RawResult ρ)
  | deliverStart (call : Nat) (done : Option Nat) (result : RawResult ρ)
  | calling (call : Nat)
  | deliverEnd (call : Nat)
  | cancelFind (call : Nat) (caller : String)
  | cancelMark (call : Nat) (caller : String)
  | cancelLock (call : Nat)
  | cancelClear (call : Nat)
  | cancelErase (call : Nat)
  | removeCollect (module : String)
  | removeEnd (module : String)
  | reopen (module : String)
  deriving DecidableEq

/-- Code outside the registry. -/
def CommandFrame.isOutside {ρ : Type} : CommandFrame ρ → Bool
  | invokeAsking _ _ _ | running _ | calling _ => true
  | _ => false

section

variable {τ ρ : Type} [DecidableEq τ]

namespace CommandRegistry

variable (r : CommandRegistry τ ρ)

/-! ## Reading and changing the tables -/

/-- `Lookup`. -/
def lookup (id : String) : Option RegisteredCommand :=
  r.providers.find? fun registered => registered.provider.id = id

/-- One more event. -/
def log (e : CommandEvent ρ) : CommandRegistry τ ρ := { r with history := e :: r.history }

/-- A change to the record of a call. -/
def modify (call : Nat) (change : PendingCall τ → PendingCall τ) : CommandRegistry τ ρ :=
  { r with calls := Function.update r.calls call ((r.calls call).map change) }

/-- `pending_.erase`. -/
def erase (call : Nat) : CommandRegistry τ ρ :=
  { r with pending := r.pending.filter fun other => other ≠ call }

/-- The calls in the table a module made, or provides. -/
def pendingOf (p : PendingCall τ → Bool) : List Nat :=
  r.pending.filter fun call => (r.calls call).any p

/-- `PendingCallsOf`. -/
def pendingCallsOf (module : String) : Nat :=
  (r.pendingOf fun call => call.caller = module || call.via.provider.owner = module).length

/-- `Register`: the checks before the lock, and the section under it. -/
def register (p : CommandProvider) (allowlist : Option (List String)) :
    CommandStatus × CommandRegistry τ ρ :=
  if p.id = "" ∨ p.runs = false then (.badArgs, r)
  else if p.owner = "" ∧ ("org.gpgfrontend.".toList.isPrefixOf p.id.toList) = false then (.denied, r)
  else if p.owner ≠ "" ∧ (isOwnedName p.owner p.id = false ∨
      (∃ listed, allowlist = some listed ∧ p.id ∉ listed) ∨ p.flags &&& kHostOnly ≠ 0) then
    (.denied, r)
  else if (codecRefusal p).isSome then (.denied, r)
  else if p.owner ≠ "" ∧ p.owner ∈ r.closed then (.unavailable, r)
  else if (r.lookup p.id).isSome then (.denied, r)
  else (.ok, { r with providers := ⟨r.nextSerial, p⟩ :: r.providers
                      nextSerial := r.nextSerial + 1 })

/-- `Unregister`. -/
def unregister (id owner : String) : CommandStatus × CommandRegistry τ ρ :=
  match r.lookup id with
  | none => (.unknown, r)
  | some registered =>
    if registered.provider.owner ≠ owner then (.denied, r)
    else (.ok, { r with providers := r.providers.filter fun other => other.provider.id ≠ id })

/-- `Invoke` returns without a call. -/
def refuse (completer : Nat) (status : CommandStatus) : CommandRegistry τ ρ :=
  { r with underWay := Function.update r.underWay completer none
           history := .answered completer status 0 :: r.history }

/-- The call enters the table. -/
def enter (q : CommandRequest) (completer : Nat) (p : RegisteredCommand) : CommandRegistry τ ρ :=
  { r with
    nextCallId := r.nextCallId + 1
    pending := r.nextCallId :: r.pending
    calls := Function.update r.calls r.nextCallId
      (some { caller := q.caller.module, via := p, completer, done := some completer })
    underWay := Function.update r.underWay completer none }

/-- The calls `RemoveAllFor` cancels, and those it completes. -/
def made (module : String) : List Nat := r.pendingOf fun call => call.caller = module

def provided (module : String) : List Nat :=
  r.pendingOf fun call => call.caller ≠ module && call.via.provider.owner = module

/-- The module is closed, and its commands are withdrawn. -/
def withdraw (module : String) : CommandRegistry τ ρ :=
  { r with
    closed := module :: r.closed
    providers := r.providers.filter fun registered => registered.provider.owner ≠ module }

/-- `delivery.lock()`, where the lock is free or already the thread's own. -/
def lockedBy (t : τ) (call : PendingCall τ) : Option (PendingCall τ) :=
  match call.delivery with
  | none => some { call with delivery := some (t, 1) }
  | some (holder, depth) =>
    if holder = t then some { call with delivery := some (t, depth + 1) } else none

/-- `delivery.unlock()`. -/
def unlocked (call : PendingCall τ) : PendingCall τ :=
  match call.delivery with
  | some (holder, depth + 2) => { call with delivery := some (holder, depth + 1) }
  | _ => { call with delivery := none }

/-- What the registry completes a call with whose provider is gone. -/
def providerGone (text : String) : RawResult ρ := { status := .unavailable, error := text }

/-! ## Lock sections -/

/-- The next section of an operation on thread `t`, and the frames that take its place. There is
none for code outside, and none while another thread has the lock it needs. -/
def advance (gui t : τ) : CommandFrame ρ → Option (CommandRegistry τ ρ × List (CommandFrame ρ))
  | .register p allowlist => some ((r.register p allowlist).2, [])
  | .unregister id owner => some ((r.unregister id owner).2, [])
  | .invokeStart q completer =>
    if q.caller.isHost = false ∧ q.caller.module ∈ r.closed then
      some (r.refuse completer .unavailable, [])
    else some (r, [.invokeLookup q completer])
  | .invokeLookup q completer =>
    match r.lookup q.id with
    | none => some (r.refuse completer .unknown, [])
    | some p => some (r, [.invokeCheck q completer p])
  | .invokeCheck q completer p =>
    if q.caller.isHost = false ∧ (p.provider.flags &&& kHostOnly ≠ 0 ∨
        q.caller.caps &&& p.provider.requiredCaps ≠ p.provider.requiredCaps) then
      some (r.refuse completer .denied, [])
    -- whether it is enabled is asked on the GUI thread only
    else if p.provider.tellsState = true ∧ t = gui then some (r, [.invokeAsking q completer p])
    else some (r, [.invokeEnter q completer p])
  | .invokeEnter q completer p =>
    let call := r.nextCallId
    let entered := r.enter q completer p
    if p.provider.flags &&& kNeedsGuiThread ≠ 0 ∧ t ≠ gui then
      some ({ entered with posted := r.posted ++ [call] }, [.invokeReturn completer call])
    else some (entered, [.runCheck call, .invokeReturn completer call])
  | .invokeReturn completer call => some (r.log (.answered completer .ok call), [])
  | .runCheck call =>
    if (r.calls call).any (·.cancelled) then some (r, []) else some (r, [.runLookup call])
  | .runLookup call =>
    (r.calls call).map fun record =>
      if r.lookup record.via.provider.id ≠ some record.via then
        (r, [.finishFind call record.via.provider.owner .registry
          (providerGone "the command's provider went away")])
      else (r, [.runEnter call])
  | .runEnter call =>
    (r.calls call).map fun record =>
      (r.log (.entered call record.via.provider.owner), [.running call])
  | .finishFind call provider by_ result =>
    match r.calls call with
    | some record =>
      if call ∈ r.pending ∧ record.via.provider.owner = provider then
        some (r, [.deliverLock call by_ result])
      -- `GF_CMD_E_UNKNOWN`, `GF_CMD_E_DENIED`
      else some (r, [])
    | none => some (r, [])
  | .deliverLock call by_ result =>
    ((r.calls call).bind (lockedBy t)).map fun record =>
      (r.modify call fun _ => record, [.deliverErase call by_ result])
  | .deliverErase call by_ result => some (r.erase call, [.deliverDecide call by_ result])
  | .deliverDecide call by_ result =>
    (r.calls call).map fun record =>
      if record.cancelled = true ∨ record.finished = true then (r, [.deliverEnd call])
      else
        let result := { result with callId := call }
        ((r.modify call fun record => { record with finished := true, done := none }).log
          (.completed call by_ result), [.deliverStart call record.done result])
  | .deliverStart call done result =>
    match done, r.calls call with
    | some completer, some record =>
      some (r.log (.started call completer record.caller result), [.calling call, .deliverEnd call])
    | _, _ => some (r, [.deliverEnd call])
  | .deliverEnd call => some ((r.modify call unlocked).log (.delivered call), [])
  | .cancelFind call caller =>
    match r.calls call with
    | some record =>
      if call ∉ r.pending then
        some (r.log (.cancelReturned call (record.caller = caller) .unknown), [])
      else if record.caller ≠ caller then some (r.log (.cancelReturned call false .denied), [])
      else some (r, [.cancelMark call caller])
    | none => some (r.log (.cancelReturned call false .unknown), [])
  | .cancelMark call caller =>
    some ((r.modify call fun record => { record with cancelled := true }).log
      (.cancelled call caller), [.cancelLock call])
  | .cancelLock call =>
    ((r.calls call).bind (lockedBy t)).map fun record =>
      (r.modify call fun _ => record, [.cancelClear call])
  | .cancelClear call =>
    some (r.modify call fun record => { record with done := none }, [.cancelErase call])
  | .cancelErase call =>
    some (((r.erase call).modify call unlocked).log (.cancelReturned call true .ok), [])
  | .removeCollect module =>
    if module = "" then some (r, [])
    else some (r.withdraw module,
      (r.made module).map (.cancelFind · module) ++
      (r.provided module).map (.deliverLock · .registry
        (providerGone "the module providing the command was unloaded")) ++
      [.removeEnd module])
  | .removeEnd module => some (r.log (.removed module), [])
  | .reopen module =>
    some ({ r with closed := r.closed.filter fun other => other ≠ module
                   history := .reopened module :: r.history }, [])
  | .invokeAsking _ _ _ | .running _ | .calling _ => none

end CommandRegistry

/-! ## Threads -/

/-- The registry and the stack of each thread, innermost frame first. -/
structure CommandSystem (τ ρ : Type) where
  registry : CommandRegistry τ ρ := {}
  threads : τ → List (CommandFrame ρ) := fun _ => []

/-- What code outside the registry may call. -/
inductive CommandOperation (ρ : Type) where
  | register (p : CommandProvider) (allowlist : Option (List String))
  | unregister (id owner : String)
  | invoke (q : CommandRequest)
  | finish (call : Nat) (provider : String) (result : RawResult ρ)
  | cancel (call : Nat) (caller : String)
  | removeAllFor (module : String)
  | reopen (module : String)

/-- One move of one thread: the next section, a call of the registry, the return of code outside
(with its answer, where it is a `state`), the next of what was posted. -/
inductive CommandMove (τ ρ : Type) where
  | go (t : τ)
  | call (t : τ) (op : CommandOperation ρ)
  | return (t : τ) (enabled : Bool)
  | takePosted

namespace CommandSystem

variable (s : CommandSystem τ ρ)

/-- Whether code outside the registry is what runs on a thread. -/
def isOutside (t : τ) : Bool := (s.threads t).head?.all CommandFrame.isOutside

/-- The frames of a thread give way to others. -/
def put (t : τ) (registry : CommandRegistry τ ρ) (frames : List (CommandFrame ρ)) :
    CommandSystem τ ρ :=
  { registry, threads := Function.update s.threads t frames }

/-- The frame an operation starts with. -/
def startFrame : CommandOperation ρ → CommandFrame ρ
  | .register p allowlist => .register p allowlist
  | .unregister id owner => .unregister id owner
  | .invoke q => .invokeStart q s.registry.nextCompleter
  | .finish call provider result => .finishFind call provider (.owner provider) result
  | .cancel call caller => .cancelFind call caller
  | .removeAllFor module => .removeCollect module
  | .reopen module => .reopen module

/-- The registry as an operation starts: each `Invoke` comes with a `done` of its own. -/
def startRegistry (t : τ) : CommandOperation ρ → CommandRegistry τ ρ
  | .invoke _ =>
    { s.registry with
      nextCompleter := s.registry.nextCompleter + 1
      underWay := Function.update s.registry.underWay s.registry.nextCompleter
        (some (t, (s.threads t).length)) }
  | _ => s.registry

/-- What code outside leaves as it returns. -/
def returnFrom (enabled : Bool) :
    CommandFrame ρ → Option (CommandRegistry τ ρ × List (CommandFrame ρ))
  | .invokeAsking q completer p =>
    if enabled then some (s.registry, [.invokeEnter q completer p])
    else some (s.registry.refuse completer .disabled, [])
  | .running _ | .calling _ => some (s.registry, [])
  | _ => none

/-- A move that is not possible changes nothing. -/
def step (gui : τ) (s : CommandSystem τ ρ) : CommandMove τ ρ → CommandSystem τ ρ
  | .go t =>
    match s.threads t with
    | [] => s
    | frame :: below =>
      match s.registry.advance gui t frame with
      | none => s
      | some (registry, frames) => s.put t registry (frames ++ below)
  | .call t op =>
    if s.isOutside t then s.put t (s.startRegistry t op) (s.startFrame op :: s.threads t) else s
  | .return t enabled =>
    match s.threads t with
    | [] => s
    | frame :: below =>
      match s.returnFrom enabled frame with
      | none => s
      | some (registry, frames) => s.put t registry (frames ++ below)
  | .takePosted =>
    match s.registry.posted with
    | call :: later =>
      if s.isOutside gui then
        s.put gui { s.registry with posted := later } (.runCheck call :: s.threads gui)
      else s
    | [] => s

end CommandSystem

end

end GpgFrontend
