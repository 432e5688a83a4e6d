import Mathlib.Data.List.Basic

/-!
# One codec stage (`CodecStage.cpp`)

A stage offers its input to the codecs of a list, one at a time. The registry completes a call
on any thread; the answer is posted to the thread of the stage, and a timer waits there for a
codec that does not answer. Answers and timers are processed in any order.

- `Stage`: the `Run` with what its thread has still to process. `calls` and `seen` record the
  calls made and the answers and timers processed, for the statements only.
- `Stage.step`: one thing that happens. An answer may be posted to any call, as often as it
  likes, and also one that was refused.
- `Stage.result`: what the stage has to report, read off the record.

The attempts stay below twice the number of codecs, so the 64-bit counter is a `Nat`. The call
id is left out: it is only used to cancel a call, and here no call is prevented from answering.
-/

namespace GpgFrontend.CodecStage

/-! ## Results -/

/-- `CodecOutcome`; any integer can be decoded as one. -/
inductive CodecOutcome where
  | notHandled | handled | failed
  | other (value : Int)
  deriving Repr, DecidableEq

/-- `CodecResult`. -/
structure CodecResult where
  outcome : CodecOutcome := .notHandled
  output : Option (List UInt8) := none
  error : String := ""
  cards : String := ""
  deriving Repr, DecidableEq

/-- `CodecStageResult::Kind`. -/
inductive Kind where
  | notHandled | handled | failed
  deriving Repr, DecidableEq

/-- `CodecStageResult`. -/
structure CodecStageResult where
  kind : Kind := .notHandled
  output : List UInt8 := []
  error : String := ""
  cards : String := ""
  provider : String := ""
  deriving Repr, DecidableEq

/-- `RawResult`: the status, 0 for `GF_CMD_OK`, and what there is to decode. -/
structure RawAnswer (ρ : Type) where
  status : Int
  result : ρ
  deriving Repr, DecidableEq

/-- `Failed`. -/
def failed (why : String) : CodecStageResult := { kind := .failed, error := why }

/-- `WithSource`. -/
def withSource (r : CodecStageResult) (id cards : String) : CodecStageResult :=
  { r with provider := id, cards := cards }

/-! ## The stage and its thread -/

/-- `Run`, with the ids from `index_` on in the place of both. -/
structure Run where
  rest : List String
  attempt : Nat := 0
  finished : Bool := false
  /-- What `done` was called with, in order. -/
  done : List CodecStageResult := []
  deriving Repr, DecidableEq

/-- A call of `Invoke`, and whether its ticket says `GF_CMD_OK`. -/
structure Call where
  attempt : Nat
  id : String
  accepted : Bool
  deriving Repr, DecidableEq

/-- What was processed: an answer, or the timer. -/
inductive Seen (ρ : Type) where
  | answer (r : RawAnswer ρ)
  | timeout
  deriving Repr, DecidableEq

structure Stage (ρ : Type) where
  run : Run
  /-- The first `Next` is still queued. -/
  queued : Bool := true
  /-- The calls whose ticket `Invoke` has not returned yet. -/
  invoking : List Call := []
  posted : List (Call × RawAnswer ρ) := []
  timers : List Call := []
  calls : List Call := []
  seen : List (Nat × Seen ρ) := []
  deriving Repr, DecidableEq

/-- What the stage is started with, and what is not part of it: which calls the registry
accepts, and `DecodeMap`. -/
structure Env (ρ : Type) where
  required : Bool
  accepts : Nat → String → Bool
  decodeMap : ρ → Option CodecResult

variable {ρ : Type} (env : Env ρ)

/-- `Finish`. -/
def Stage.finish (s : Stage ρ) (result : CodecStageResult) : Stage ρ :=
  if s.run.finished then s
  else { s with run := { s.run with finished := true, done := s.run.done ++ [result] } }

/-- The result when no codec is left. -/
def exhausted : CodecStageResult :=
  if env.required then failed "the encoder could not be used" else {}

/-- One turn of `Next`: the next id is taken and its command invoked. -/
def Stage.call (s : Stage ρ) (id : String) (rest : List String) : Stage ρ :=
  { s with
    run := { s.run with rest := rest, attempt := s.run.attempt + 1 }
    calls := s.calls ++ [⟨s.run.attempt + 1, id, env.accepts (s.run.attempt + 1) id⟩] }

/-- `Next` over the ids that are left: a call that is refused goes on with the next one. -/
def Stage.nextFrom (s : Stage ρ) : List String → Stage ρ
  | [] => s.finish (exhausted env)
  | id :: rest =>
    let called := s.call env id rest
    if env.accepts called.run.attempt id then
      { called with invoking := called.invoking ++ [⟨called.run.attempt, id, true⟩] }
    else Stage.nextFrom called rest

/-- `Next`. -/
def Stage.next (s : Stage ρ) : Stage ρ := s.nextFrom env s.run.rest

def Stage.nextAttempt (s : Stage ρ) : Stage ρ :=
  { s with run := { s.run with attempt := s.run.attempt + 1 } }

/-- `OnAnswer`. -/
def Stage.onAnswer (s : Stage ρ) (attempt : Nat) (id : String) (r : RawAnswer ρ) : Stage ρ :=
  if attempt ≠ s.run.attempt ∨ s.run.finished then s
  else
    let s := s.nextAttempt
    if r.status ≠ 0 then s.next env
    else match env.decodeMap r.result with
      | none => s.next env
      | some result =>
        match result.outcome with
        | .handled =>
          match result.output with
          | none => s.finish (withSource (failed "the codec returned nothing") id result.cards)
          | some output =>
            s.finish (withSource { kind := .handled, output := output } id result.cards)
        | .failed =>
          s.finish (withSource
            (failed (if result.error.isEmpty then "the codec could not handle the input"
              else result.error)) id result.cards)
        | _ => s.next env

/-- The slot of the timer. -/
def Stage.onTimeout (s : Stage ρ) (attempt : Nat) : Stage ρ :=
  if attempt ≠ s.run.attempt ∨ s.run.finished then s else s.nextAttempt.next env

/-! ## What may happen -/

/-- One thing that happens: the queued start runs; `Invoke` returns the ticket of a call; the
registry completes a call; a posted answer or a timer is processed, whichever it is. -/
inductive Event (ρ : Type) where
  | start
  | ticket (n : Nat)
  | complete (n : Nat) (r : RawAnswer ρ)
  | process (n : Nat)
  | timeout (n : Nat)
  deriving Repr, DecidableEq

def Stage.step (s : Stage ρ) : Event ρ → Option (Stage ρ)
  | .start => if s.queued then some ({ s with queued := false }.next env) else none
  | .ticket n =>
    s.invoking[n]?.map fun c =>
      { s with invoking := s.invoking.eraseIdx n, timers := s.timers ++ [c] }
  | .complete n r => s.calls[n]?.map fun c => { s with posted := s.posted ++ [(c, r)] }
  | .process n =>
    s.posted[n]?.map fun p =>
      { s with
        posted := s.posted.eraseIdx n
        seen := s.seen ++ [(p.1.attempt, Seen.answer p.2)] }.onAnswer env p.1.attempt p.1.id p.2
  | .timeout n =>
    s.timers[n]?.map fun c =>
      { s with
        timers := s.timers.eraseIdx n
        seen := s.seen ++ [(c.attempt, Seen.timeout)] }.onTimeout env c.attempt

/-- `RunDecoders` and `RunEncoder`, with the ids they found. -/
def Stage.begin_ (ids : List String) : Stage ρ := { run := { rest := ids } }

/-- What a stage over `ids` can come to. -/
inductive Reachable (ids : List String) : Stage ρ → Prop
  | start : Reachable ids (Stage.begin_ ids)
  | step {s s' : Stage ρ} (e : Event ρ) :
      Reachable ids s → s.step env e = some s' → Reachable ids s'

/-! ## What there is to report -/

/-- What has become of a call. -/
inductive Verdict where
  | waiting | passed
  | ends (result : CodecStageResult)
  deriving Repr, DecidableEq

/-- An answer ends the stage when it says that the codec handled the input or failed at it. -/
def judge (id : String) (r : RawAnswer ρ) : Verdict :=
  match if r.status = 0 then env.decodeMap r.result else none with
  | some ⟨.handled, some output, _, cards⟩ =>
    .ends { kind := .handled, output := output, cards := cards, provider := id }
  | some ⟨.handled, none, _, cards⟩ =>
    .ends { kind := .failed, error := "the codec returned nothing", cards := cards, provider := id }
  | some ⟨.failed, _, error, cards⟩ =>
    let why := if error.isEmpty then "the codec could not handle the input" else error
    .ends { kind := .failed, error := why, cards := cards, provider := id }
  | _ => .passed

/-- Only what is processed first counts: an answer, or the timer. -/
def verdict (seen : List (Nat × Seen ρ)) (c : Call) : Verdict :=
  if c.accepted then
    match seen.find? (·.1 = c.attempt) with
    | none => .waiting
    | some (_, .timeout) => .passed
    | some (_, .answer r) => judge env c.id r
  else .passed

/-- The result of the first call that ends the stage, all those before it being passed over;
and that of an exhausted stage only when no id is left. -/
def resultOf (seen : List (Nat × Seen ρ)) (rest : List String) : List Call → Option CodecStageResult
  | [] => if rest = [] then some (exhausted env) else none
  | c :: cs =>
    match verdict env seen c with
    | .waiting => none
    | .passed => resultOf seen rest cs
    | .ends result => some result

def Stage.result (s : Stage ρ) : Option CodecStageResult :=
  if s.queued then none else resultOf env s.seen s.run.rest s.calls

/-- Nothing is left that the thread of the stage will process by itself. -/
def Stage.Quiet (s : Stage ρ) : Prop := s.queued = false ∧ s.invoking = [] ∧ s.timers = []

end GpgFrontend.CodecStage
