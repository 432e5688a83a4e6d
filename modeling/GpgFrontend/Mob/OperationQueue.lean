/-!
# One operation at a time (`mob/crypto/OperationQueue.cpp`)

The queue calls out while it works: to the runner of an operation, and to whoever listens to its
signals. They may call it again. `todo` is what the calls in progress still have to do, the
innermost first; at a `callback` in it others run, and only there may a call be made. Two signals
with nothing between them are one `callback`. The log's own signals call nothing.
-/

namespace GpgFrontend

inductive OperationSurface
  | text
  | files
  deriving DecidableEq

inductive OperationPhase
  | queued
  | running
  | waitingPassphrase
  | done
  | failed
  | cancelled
  deriving DecidableEq

/-- `Item`, but for the runner: `LogCall.ran` is a call of it. -/
structure OperationItem where
  id : Nat
  owner : Nat
  surface : OperationSurface
  deriving DecidableEq

/-- A call on the log, or of a runner. -/
inductive LogCall
  | added
  | started
  | ran
  | phase (phase : OperationPhase)
  | finished (phase : OperationPhase) (reason : String)
  deriving DecidableEq

structure QueueEvent where
  what : LogCall
  item : OperationItem
  deriving DecidableEq

/-- A statement that a call in progress has not come to yet. -/
inductive QueueTask
  | callback
  | startNext
  | startLoop
  | run (item : OperationItem)
  | promptChanged
  | busyChanged
  | cancelItem (item : OperationItem) (reason : String)
  | forgetRunning (owner : Nat)
  | closeLoop
  deriving DecidableEq

inductive QueueCall
  /-- No owner, or no runner, is refused. -/
  | submit (owner : Option Nat) (surface : OperationSurface) (hasRunner : Bool)
  | complete (id : Nat) (phase : OperationPhase) (reason : String)
  | cancel (id : Nat) (reason : String)
  | forgetOwner (owner : Nat)
  | close
  /-- The application goes to the background. -/
  | suspended
  /-- A prompt comes up or goes away. -/
  | prompt (asking : Bool)

/-- `asking` is that `passphrases_->Current()` is not empty. -/
structure OperationQueue where
  queue : List OperationItem := []
  running : Option OperationItem := none
  nextId : Nat := 1
  starting : Bool := false
  closed : Bool := false
  wasBusy : Bool := false
  suspendedWhileRunning : Bool := false
  asking : Bool := false
  todo : List QueueTask := []
  trace : List QueueEvent := []

namespace OperationQueue

variable (s : OperationQueue)

def emit (what : LogCall) (item : OperationItem) : OperationQueue :=
  { s with trace := s.trace ++ [⟨what, item⟩] }

def push (tasks : List QueueTask) : OperationQueue :=
  { s with todo := tasks ++ s.todo }

def busy : Bool := s.running.isSome || !s.queue.isEmpty

/-- Text before the files still waiting. -/
def insertItem (item : OperationItem) : List OperationItem → List OperationItem
  | [] => [item]
  | waiting :: rest =>
    if item.surface = .text ∧ waiting.surface = .files then item :: waiting :: rest
    else waiting :: insertItem item rest

/-- `Complete`. -/
def complete (id : Nat) (phase : OperationPhase) (reason : String) : OperationQueue :=
  match s.running with
  | none => s
  | some item =>
    if item.id ≠ id then s
    else
      let why := if reason = "" ∧ phase = .cancelled ∧ s.suspendedWhileRunning then "background"
        else reason
      ({ s with running := none, suspendedWhileRunning := false }.emit
        (.finished phase why) item).push [.callback, .startNext, .busyChanged]

/-- `prompt_changed`. -/
def promptChanged : OperationQueue :=
  match s.running with
  | none => s
  | some item => s.emit (.phase (if s.asking then .waitingPassphrase else .running)) item

def exec : QueueTask → OperationQueue
  | .callback => s
  | .startNext => if s.starting then s else { s with starting := true }.push [.startLoop]
  | .startLoop =>
    match s.running, s.queue with
    | none, item :: rest =>
      ({ s with running := some item, queue := rest, suspendedWhileRunning := false }.emit
        .started item).push [.callback, .run item, .callback, .promptChanged, .startLoop]
    | _, _ => { s with starting := false }
  | .run item => s.emit .ran item
  | .promptChanged => s.promptChanged
  | .busyChanged => if s.busy = s.wasBusy then s else { s with wasBusy := s.busy }.push [.callback]
  | .cancelItem item reason => (s.emit (.finished .cancelled reason) item).push [.callback]
  | .forgetRunning owner =>
    match s.running with
    | some item => if item.owner = owner then s.complete item.id .cancelled "closed" else s
    | none => s
  | .closeLoop =>
    match s.queue with
    | [] => s
    | item :: rest => { s with queue := rest }.push [.cancelItem item "closed", .closeLoop]

def call : QueueCall → OperationQueue
  | .submit none _ _ => s
  | .submit (some owner) surface hasRunner =>
    if s.closed || !hasRunner then s
    else
      let item : OperationItem := ⟨s.nextId, owner, surface⟩
      ({ s with nextId := s.nextId + 1, queue := insertItem item s.queue }.emit
        .added item).push [.startNext, .busyChanged]
  | .complete id phase reason => s.complete id phase reason
  | .cancel id reason =>
    match s.queue.find? fun item => item.id = id with
    | none => s
    | some item =>
      { s with queue := s.queue.erase item }.push [.cancelItem item reason, .busyChanged]
  | .forgetOwner owner =>
    let gone := s.queue.filter fun item => item.owner = owner
    push { s with queue := s.queue.filter fun item => !decide (item.owner = owner) }
      (gone.map (fun item => .cancelItem item "closed") ++ [.forgetRunning owner, .busyChanged])
  | .close => { s with closed := true }.push [.closeLoop, .busyChanged]
  | .suspended => { s with suspendedWhileRunning := s.suspendedWhileRunning || s.running.isSome }
  | .prompt asking => { s with asking := asking }.promptChanged

/-- The calls in progress go on, or another is made, where one may be. -/
def step : Option QueueCall → OperationQueue
  | none =>
    match s.todo with
    | [] => s
    | task :: rest => { s with todo := rest }.exec task
  | some c =>
    match s.todo with
    | [] | .callback :: _ => s.call c
    | _ => s

end OperationQueue

end GpgFrontend
