import GpgFrontend.Base.Runs

/-!
# The bounded byte pipe between two threads (GFDataExchanger.cpp)

`GFDataExchanger` hands the bytes of an archive from one thread to another through a
queue of limited size. Every call runs on a thread of its own: it starts, takes the
mutex, goes round its loop, and gives the mutex up only to wait or to return. The
model is a step relation over all calls made so far, with the mutex, the two condition
variables and a log of what was pushed and popped by which call.

- `GFDataExchanger.step`: any call may be made, take its next step, or be woken.
-/

namespace GpgFrontend

/-- A call made on the pipe, with the arguments it was given. -/
inductive PipeCall
  | write (buffer : List UInt8)
  | read (size : Nat)
  | closeWrite
  deriving DecidableEq

/-- Where a call stands. -/
inductive PipePc
  /-- It has not run yet. -/
  | entered
  /-- It asks for `mutex_`. -/
  | locking
  /-- It holds `mutex_`, in front of the checks before its loop. -/
  | locked
  /-- It holds `mutex_`, at the head of its loop. -/
  | looping
  /-- It gave `mutex_` up and waits on its condition variable. -/
  | waiting (notified : Bool)
  | returned (result : Int)
  deriving DecidableEq

/-- A call in progress: `written` of Write, and the part of Read's buffer filled so far. -/
structure PipeThread where
  call : PipeCall
  pc : PipePc
  written : Nat
  filled : List UInt8
  deriving DecidableEq

def PipeThread.new (call : PipeCall) : PipeThread := ⟨call, .entered, 0, []⟩

/-- `notify_all` on the variable this call waits on. -/
def PipeThread.notify (t : PipeThread) : PipeThread :=
  match t.pc with
  | .waiting _ => { t with pc := .waiting true }
  | _ => t

def PipeThread.isWrite (t : PipeThread) : Bool :=
  match t.call with
  | .write _ => true
  | _ => false

def PipeThread.isRead (t : PipeThread) : Bool :=
  match t.call with
  | .read _ => true
  | _ => false

/-- The pipe with every call made on it. `accepted` and `delivered` are the history of
`queue_`: which call pushed, and which popped, what. -/
structure GFDataExchanger where
  queueMaxSize : Int64
  queue : List UInt8
  close : Bool
  mutexOwner : Option Nat
  threads : List PipeThread
  accepted : List (Nat × List UInt8)
  delivered : List (Nat × List UInt8)
  deriving DecidableEq

namespace GFDataExchanger

/-- `GFDataExchanger(ssize_t size)`. -/
def new (size : Int64) : GFDataExchanger where
  queueMaxSize := size
  queue := []
  close := false
  mutexOwner := none
  threads := []
  accepted := []
  delivered := []

variable (s : GFDataExchanger)

/-- The maximum as the code compares with it: cast to an unsigned size. -/
def maxSize : Nat := s.queueMaxSize.toUInt64.toNat

def setThread (k : Nat) (t : PipeThread) : GFDataExchanger :=
  { s with threads := s.threads.set k t }

/-- The call returns, and its `unique_lock` gives the mutex up. -/
def unlockReturn (k : Nat) (t : PipeThread) (result : Int) : GFDataExchanger :=
  { s.setThread k { t with pc := .returned result } with mutexOwner := none }

/-- The call gives the mutex up and waits. -/
def unlockWait (k : Nat) (t : PipeThread) : GFDataExchanger :=
  { s.setThread k { t with pc := .waiting false } with mutexOwner := none }

/-- The call takes the mutex if it is free, and blocks otherwise. -/
def lock (k : Nat) (t : PipeThread) (pc : PipePc) : GFDataExchanger :=
  if s.mutexOwner = none then { s.setThread k { t with pc := pc } with mutexOwner := some k }
  else s

def push (k : Nat) (bytes : List UInt8) : GFDataExchanger :=
  { s with queue := s.queue ++ bytes, accepted := s.accepted ++ [(k, bytes)] }

def pop (k : Nat) (n : Nat) : GFDataExchanger :=
  { s with queue := s.queue.drop n, delivered := s.delivered ++ [(k, s.queue.take n)] }

/-- `not_empty_.notify_all()`: readers wait on it. -/
def notifyNotEmpty : GFDataExchanger :=
  { s with threads := s.threads.map fun t => if t.isRead then t.notify else t }

/-- `not_full_.notify_all()`: writers wait on it. -/
def notifyNotFull : GFDataExchanger :=
  { s with threads := s.threads.map fun t => if t.isWrite then t.notify else t }

/-- One turn of Write's loop. `throwsAt` is the push of this turn that runs out of
memory, if one does: the bytes before it stay pushed, and are not counted. -/
def writeLoop (k : Nat) (t : PipeThread) (buffer : List UInt8) (throwsAt : Option Nat) :
    GFDataExchanger :=
  if t.written < buffer.length then
    if ¬ (s.queue.length < s.maxSize ∨ s.close) then s.unlockWait k t
    else if s.close then s.unlockReturn k t (-1)
    else
      let n := min (s.maxSize - s.queue.length) (buffer.length - t.written)
      let rest := buffer.drop t.written
      match throwsAt.filter (· < n) with
      | some i => (s.push k (rest.take i)).unlockReturn k t t.written
      | none =>
        (s.push k (rest.take n)).setThread k { t with written := t.written + n }
          |>.notifyNotEmpty
  else s.unlockReturn k t t.written

/-- The next step of a call of Write. -/
def stepWrite (k : Nat) (t : PipeThread) (buffer : List UInt8) (throwsAt : Option Nat) :
    GFDataExchanger :=
  match t.pc with
  | .entered =>
    -- the only look at `close_` that is made without the mutex
    if s.close then s.setThread k { t with pc := .returned (-1) }
    else if buffer.length = 0 then s.setThread k { t with pc := .returned 0 }
    else s.setThread k { t with pc := .locking }
  | .locking => s.lock k t .looping
  | .waiting notified => if notified then s.lock k t .looping else s
  | .looping => s.writeLoop k t buffer throwsAt
  | .locked | .returned _ => s

/-- One turn of Read's loop. -/
def readLoop (k : Nat) (t : PipeThread) (size : Nat) : GFDataExchanger :=
  if t.filled.length < size then
    if ¬ (s.queue ≠ [] ∨ s.close) then s.unlockWait k t
    else if s.queue = [] then s.unlockReturn k t t.filled.length
    else
      let n := min s.queue.length (size - t.filled.length)
      (s.pop k n).setThread k { t with filled := t.filled ++ s.queue.take n } |>.notifyNotFull
  else s.unlockReturn k t t.filled.length

/-- The next step of a call of Read. -/
def stepRead (k : Nat) (t : PipeThread) (size : Nat) : GFDataExchanger :=
  match t.pc with
  | .entered => s.setThread k { t with pc := .locking }
  | .locking => s.lock k t .locked
  | .locked =>
    if size = 0 ∨ (s.close ∧ s.queue = []) then s.unlockReturn k t 0
    else s.setThread k { t with pc := .looping }
  | .waiting notified => if notified then s.lock k t .looping else s
  | .looping => s.readLoop k t size
  | .returned _ => s

/-- The next step of a call of CloseWrite. -/
def stepCloseWrite (k : Nat) (t : PipeThread) : GFDataExchanger :=
  match t.pc with
  | .entered => s.setThread k { t with pc := .locking }
  | .locking => s.lock k t .locked
  | .locked => { s with close := true }.notifyNotFull.notifyNotEmpty.unlockReturn k t 0
  | .looping | .waiting _ | .returned _ => s

end GFDataExchanger

/-- What may happen next: a thread makes a call, a call takes its next step, or a wait
ends without a notification. -/
inductive PipeAction
  | call (c : PipeCall)
  | step (k : Nat) (throwsAt : Option Nat)
  | wake (k : Nat)
  deriving DecidableEq

namespace GFDataExchanger

def step (s : GFDataExchanger) : PipeAction → GFDataExchanger
  | .call c => { s with threads := s.threads ++ [PipeThread.new c] }
  | .step k throwsAt =>
    match s.threads[k]? with
    | none => s
    | some t =>
      match t.call with
      | .write buffer => s.stepWrite k t buffer throwsAt
      | .read size => s.stepRead k t size
      | .closeWrite => s.stepCloseWrite k t
  | .wake k =>
    match s.threads[k]? with
    | none => s
    | some t => s.setThread k t.notify

def run (s : GFDataExchanger) (actions : List PipeAction) : GFDataExchanger :=
  actions.foldl step s

end GFDataExchanger

/-- The bytes of a log, in its order. -/
def logBytes (log : List (Nat × List UInt8)) : List UInt8 := log.flatMap (·.2)

/-- The bytes one call moved, in order. -/
def bytesOf (k : Nat) (log : List (Nat × List UInt8)) : List UInt8 :=
  logBytes (log.filter (·.1 = k))

end GpgFrontend
