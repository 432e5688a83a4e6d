import Mathlib.Data.List.AList
import Mathlib.Data.List.Count

/-!
# Channel handles and engine leases (`OpenPGPContext.cpp`)

Every open key database has a channel handle in one process-wide registry. Work
on a database holds a lease on its handle; a handle is retired for good when a
new runtime generation is published, and its context is destroyed by a
*reclaimer* once it is retired and nothing holds it any more.

The registry has one lock. Every function below is one lock section (or, for a
lease that is copied, no lock at all), so an interleaving of threads is a list of
`ChannelAction`s. The reclaimer runs *outside* the lock: taking the decision and
running it are two actions, and anything may happen between them.
-/

namespace GpgFrontend

/-- `ChannelHandleState`. -/
inductive ChannelHandleState where
  | unknown
  | available
  | unavailable
  | retired
  deriving Repr, DecidableEq

/-- `ChannelHandleInfo`. -/
structure ChannelHandleInfo where
  handle : Int := -1
  databaseId : String := ""
  generation : Int := 0
  state : ChannelHandleState := .unknown
  name : String := ""
  path : String := ""
  backendType : String := ""
  order : Int := 0
  leases : Nat := 0
  operations : Nat := 0
  reclaimed : Bool := false
  deriving Repr, DecidableEq

/-- Out of use for good. -/
def ChannelHandleInfo.retire (info : ChannelHandleInfo) : ChannelHandleInfo :=
  { info with state := .retired }

/-- `EngineAccessError`. -/
inductive EngineAccessError where
  | unknown
  | unavailable
  | retired
  deriving Repr, DecidableEq

/-- `ChannelHandleRegistry`. A reclaimer is a function of the program; which one
is installed is all that matters here. -/
structure ChannelHandleRegistry where
  handles : AList fun _ : Int => ChannelHandleInfo := ∅
  reclaimRequested : List Int := []
  highestIssued : Int := -1
  highestGeneration : Int := 1
  currentGeneration : Int := 1
  defaultHandle : Option Int := none
  reclaimer : Option Nat := none

namespace ChannelHandleRegistry

variable (registry : ChannelHandleRegistry)

/-- What the registry knows about a handle. -/
def find (handle : Int) : Option ChannelHandleInfo := registry.handles.lookup handle

/-- Change the record of a handle that is there. -/
def modify (handle : Int) (f : ChannelHandleInfo → ChannelHandleInfo) : ChannelHandleRegistry :=
  match registry.find handle with
  | none => registry
  | some info => { registry with handles := registry.handles.insert handle (f info) }

/-- `TakeReclaimLocked`: whether the handle is due, marking it so it is reclaimed
only once. -/
def takeReclaimLocked (handle : Int) : Bool × ChannelHandleRegistry :=
  match registry.find handle with
  | none => (false, registry)
  | some info =>
    if info.state ≠ .retired then (false, registry)
    else if info.leases > 0 then (false, registry)
    else if handle ∈ registry.reclaimRequested then (false, registry)
    else (true, { registry with reclaimRequested := handle :: registry.reclaimRequested })

/-- `RegisterChannelHandle`. -/
def registerChannelHandle (handle : Int) (databaseId : String) (available : Bool)
    (generation : Int) : Bool × ChannelHandleRegistry :=
  if handle < 0 then (false, registry)
  else
    let slot := (registry.find handle).getD {}
    -- a handle is never reused once retired, and never given to another database
    if slot.state ≠ .unknown ∧ (slot.state = .retired ∨ slot.databaseId ≠ databaseId) then
      (false, registry)
    else
      (true, { registry with
        handles := registry.handles.insert handle { slot with
          handle := handle
          databaseId := databaseId
          generation := generation
          state := if available then .available else .unavailable }
        highestIssued := max registry.highestIssued handle
        highestGeneration := max registry.highestGeneration generation })

/-- `DescribeChannelHandle`. -/
def describeChannelHandle (handle : Int) (name path backendType : String) (order : Int) :
    ChannelHandleRegistry :=
  registry.modify handle fun info =>
    { info with name := name, path := path, backendType := backendType, order := order }

/-- The lock section of `RetireChannelHandle`: whether the handle is there, and
whether its reclaimer is due. -/
def retireChannelHandle (handle : Int) : Bool × Bool × ChannelHandleRegistry :=
  match registry.find handle with
  | none => (false, false, registry)
  | some _ =>
    let (due, registry) :=
      (registry.modify handle ChannelHandleInfo.retire).takeReclaimLocked handle
    (true, due, registry)

/-- `TryAcquireEngineLease`, as far as the registry goes. -/
def tryAcquireEngineLease (handle : Int) (operation : Bool) :
    Except EngineAccessError ChannelHandleRegistry :=
  let state := ((registry.find handle).map (·.state)).getD .unknown
  if state ≠ .available then
    .error (if state = .retired then .retired
      else if state = .unavailable then .unavailable else .unknown)
  else .ok (registry.modify handle fun info =>
    { info with
      leases := info.leases + 1
      operations := if operation then info.operations + 1 else info.operations })

/-- The lock section of `~Token`. -/
def releaseToken (handle : Int) (operation : Bool) : Bool × ChannelHandleRegistry :=
  (registry.modify handle fun info =>
    if info.leases > 0 then
      { info with
        leases := info.leases - 1
        operations := if operation ∧ info.operations > 0 then info.operations - 1
          else info.operations }
    else info).takeReclaimLocked handle

/-- Take the reclaim of each of several handles. -/
def takeReclaims : List Int → ChannelHandleRegistry → List Int × ChannelHandleRegistry
  | [], registry => ([], registry)
  | handle :: rest, registry =>
    let (due, registry) := registry.takeReclaimLocked handle
    let (others, registry) := takeReclaims rest registry
    (if due then handle :: others else others, registry)

/-- `RetireGenerationLocked`: the handles it retires, and those of them that are
due already. -/
def retireGenerationLocked (generation : Int) :
    List Int × List Int × ChannelHandleRegistry :=
  let retired := registry.handles.keys.filter fun handle =>
    (registry.find handle).any fun info =>
      info.generation = generation ∧ info.state ≠ .retired
  let registry := retired.foldl (·.modify · ChannelHandleInfo.retire) registry
  let (due, registry) := takeReclaims retired registry
  (retired, due, registry)

/-- The lock section of `PublishRuntimeGeneration`. -/
def publishRuntimeGeneration (generation defaultHandle : Int) :
    List Int × List Int × ChannelHandleRegistry :=
  let (retired, due, registry) :=
    if registry.currentGeneration ≠ generation then
      registry.retireGenerationLocked registry.currentGeneration
    else ([], [], registry)
  (retired, due, { registry with
    currentGeneration := generation
    highestGeneration := max registry.highestGeneration generation
    defaultHandle := some defaultHandle })

/-- `MarkChannelReclaimed`. -/
def markChannelReclaimed (handle : Int) : ChannelHandleRegistry :=
  registry.modify handle fun info => { info with reclaimed := true }

/-- The lock section of `ReclaimChannelAgainIfReclaimed`: whether the handle was
re-armed, and whether its reclaimer is due again. -/
def reclaimChannelAgainIfReclaimed (handle : Int) : Bool × Bool × ChannelHandleRegistry :=
  match registry.find handle with
  | none => (false, false, registry)
  | some info =>
    if !info.reclaimed then (false, false, registry)
    else
      let registry := registry.modify handle fun info => { info with reclaimed := false }
      let (due, registry) := ({ registry with
        reclaimRequested := registry.reclaimRequested.filter (· ≠ handle) }).takeReclaimLocked
          handle
      (true, due, registry)

end ChannelHandleRegistry

/-! ## The system -/

/-- `EngineLease::Token`, with the number of `EngineLease`s that share it. -/
structure LeaseToken where
  handle : Int
  operation : Bool
  refs : Nat
  deriving Repr, DecidableEq

/-- The registry with everything outside its lock. -/
structure ChannelSystem where
  registry : ChannelHandleRegistry := {}
  tokens : List LeaseToken := []
  /-- Reclaimer runs decided under the lock and not made yet. -/
  pending : List (Int × Option Nat) := []
  /-- The handles the reclaimer was run on, latest first. -/
  ran : List Int := []
  /-- The handles re-armed, latest first. -/
  rearmed : List Int := []

/-- One lock section, one copy of a lease, or one run of the reclaimer. -/
inductive ChannelAction where
  | register (handle : Int) (databaseId : String) (available : Bool) (generation : Int)
  | describe (handle : Int) (name path backendType : String) (order : Int)
  | allocateHandle
  | allocateGeneration
  | setDefault (handle : Int)
  | setReclaimer (reclaimer : Option Nat)
  | acquire (handle : Int) (operation : Bool)
  | copyLease (i : Nat)
  | dropLease (i : Nat)
  | retire (handle : Int)
  | retireGeneration (generation : Int)
  | publish (generation defaultHandle : Int)
  | markReclaimed (handle : Int)
  | reclaimAgain (handle : Int)
  | runReclaimer (i : Nat)
  deriving Repr, DecidableEq

namespace ChannelSystem

/-- Leave the lock with some reclaimer runs to be made. -/
def withDue (s : ChannelSystem) (registry : ChannelHandleRegistry) (due : List Int) :
    ChannelSystem :=
  { s with
    registry := registry
    pending := s.pending ++ due.map fun handle => (handle, registry.reclaimer) }

/-- One action. -/
def step (s : ChannelSystem) : ChannelAction → ChannelSystem
  | .register handle databaseId available generation =>
    { s with
      registry := (s.registry.registerChannelHandle handle databaseId available generation).2 }
  | .describe handle name path backendType order =>
    { s with registry := s.registry.describeChannelHandle handle name path backendType order }
  | .allocateHandle =>
    { s with registry := { s.registry with highestIssued := s.registry.highestIssued + 1 } }
  | .allocateGeneration =>
    { s with
      registry := { s.registry with highestGeneration := s.registry.highestGeneration + 1 } }
  | .setDefault handle => { s with registry := { s.registry with defaultHandle := some handle } }
  | .setReclaimer reclaimer => { s with registry := { s.registry with reclaimer := reclaimer } }
  | .acquire handle operation =>
    match s.registry.tryAcquireEngineLease handle operation with
    | .error _ => s
    | .ok registry =>
      { s with registry := registry, tokens := ⟨handle, operation, 1⟩ :: s.tokens }
  | .copyLease i =>
    { s with tokens := s.tokens.modify i fun token => { token with refs := token.refs + 1 } }
  | .dropLease i =>
    match s.tokens[i]? with
    | none => s
    | some token =>
      -- only the last lease on a token runs its destructor
      if token.refs > 1 then
        { s with tokens := s.tokens.modify i fun token => { token with refs := token.refs - 1 } }
      else
        let (due, registry) := s.registry.releaseToken token.handle token.operation
        { s with tokens := s.tokens.eraseIdx i }.withDue registry
          (if due then [token.handle] else [])
  | .retire handle =>
    let (_, due, registry) := s.registry.retireChannelHandle handle
    s.withDue registry (if due then [handle] else [])
  | .retireGeneration generation =>
    let (_, due, registry) := s.registry.retireGenerationLocked generation
    s.withDue registry due
  | .publish generation defaultHandle =>
    let (_, due, registry) := s.registry.publishRuntimeGeneration generation defaultHandle
    s.withDue registry due
  | .markReclaimed handle => { s with registry := s.registry.markChannelReclaimed handle }
  | .reclaimAgain handle =>
    let (rearmed, due, registry) := s.registry.reclaimChannelAgainIfReclaimed handle
    { s with rearmed := if rearmed then handle :: s.rearmed else s.rearmed }.withDue registry
      (if due then [handle] else [])
  | .runReclaimer i =>
    match s.pending[i]? with
    | none => s
    | some (handle, reclaimer) =>
      -- an empty `std::function` is not called
      { s with
        pending := s.pending.eraseIdx i
        ran := if reclaimer.isSome then handle :: s.ran else s.ran }

/-- A list of actions, one after the other. -/
def run (s : ChannelSystem) (actions : List ChannelAction) : ChannelSystem :=
  actions.foldl step s

end ChannelSystem

end GpgFrontend
