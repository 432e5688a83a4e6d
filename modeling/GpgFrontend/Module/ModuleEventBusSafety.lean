import GpgFrontend.Module.ModuleEventBus
import Mathlib.Data.Finset.Lattice.Lemmas

/-!
# The event bus under every interleaving

Any thread may listen, trigger and answer at any time. Lifecycle calls and deliveries run on
the module runner, one thread; a call may run inside another one while that is in module
code, which may spin an event loop, and nowhere else.

- `event_bus_safety`: **what the three tables guarantee, in every run.**
-/

namespace GpgFrontend

set_option linter.unusedSectionVars false

variable {ModuleId EventId TriggerId : Type} [DecidableEq ModuleId] [DecidableEq EventId]
  [DecidableEq TriggerId]

/-! ## Calls on the runner -/

/-- Where a call on the runner stands. -/
inductive RunnerFrame (ModuleId TriggerId : Type) where
  /-- In `Active()`. -/
  | activating (m : ModuleId)
  /-- In `Deactivate()`. -/
  | deactivating (m : ModuleId)
  /-- Inactive; `fail_awaiting` is about to collect. -/
  | owing (m : ModuleId)
  /-- In the loop of `fail_awaiting`, with the triggers left. -/
  | failing (m : ModuleId) (owed : List TriggerId)
  /-- A delivery, before its gates. -/
  | delivering (tid : TriggerId) (m : ModuleId)
  /-- In `Exec()`. -/
  | executing (tid : TriggerId) (m : ModuleId)
  /-- Before the `FailListener` of a delivery that failed. -/
  | failedDelivery (tid : TriggerId) (m : ModuleId)

namespace RunnerFrame

def inModuleCode : RunnerFrame ModuleId TriggerId → Bool
  | .activating _ | .deactivating _ | .executing _ _ => true
  | _ => false

/-- The module whose state the call owns, and the state. -/
def pins : RunnerFrame ModuleId TriggerId → Option (ModuleId × ModuleLifecycleState)
  | .activating m => some (m, .activating)
  | .deactivating m => some (m, .deactivating)
  | .owing m | .failing m _ => some (m, .inactive)
  | _ => none

/-- The call is still to fail `m`'s answer to the trigger. -/
def Owes (m : ModuleId) (tid : TriggerId) : RunnerFrame ModuleId TriggerId → Prop
  | .owing m' => m = m'
  | .failing m' owed => m = m' ∧ tid ∈ owed
  | _ => False

end RunnerFrame

/-- Another call may start: the runner is idle, or in module code. -/
def runnerFree : List (RunnerFrame ModuleId TriggerId) → Bool
  | [] => true
  | frame :: _ => frame.inModuleCode

/-- The tables; the calls on the runner, the innermost first; deliveries posted; callbacks
claimed and not yet run. `triggered` and `callbacks` log what was triggered and called back;
the listener is none where a trigger found nobody to ask. -/
structure ModuleBus (ModuleId EventId TriggerId : Type) where
  tables : ModuleTables ModuleId EventId TriggerId
  stack : List (RunnerFrame ModuleId TriggerId)
  posted : Multiset (TriggerId × ModuleId)
  inHand : Multiset (TriggerId × Option ModuleId)
  triggered : List TriggerId
  callbacks : List (TriggerId × Option ModuleId)

namespace ModuleBus

def start : ModuleBus ModuleId EventId TriggerId := ⟨⟨∅, ∅, ∅⟩, [], 0, 0, [], []⟩

variable (b : ModuleBus ModuleId EventId TriggerId)

/-- Claims an answer: the callback is then in hand. -/
def claim (tid : TriggerId) (m : ModuleId) : ModuleBus ModuleId EventId TriggerId :=
  { b with
    tables := (b.tables.takeAnswer tid m).2
    inHand :=
      match (b.tables.takeAnswer tid m).1 with
      | some event => (event.triggerId, some m) ::ₘ b.inHand
      | none => b.inHand }

/-- `TriggerEvent`: deliveries are posted, or the callback is told that nobody is asked. -/
def trigger (e : EventReference EventId TriggerId) : ModuleBus ModuleId EventId TriggerId :=
  let targets := (b.tables.triggerEvent e).1
  { b with
    tables := (b.tables.triggerEvent e).2
    posted := b.posted + targets.val.map fun m => (e.triggerId, m)
    inHand := if targets = ∅ then (e.triggerId, none) ::ₘ b.inHand else b.inHand
    triggered := b.triggered ++ [e.triggerId] }

end ModuleBus

open RunnerFrame

/-- One lock section or one callback. The label is the module of a `deactivate_now` that
returns, and what it returns. -/
inductive BusStep (known : EventId → Bool) (b : ModuleBus ModuleId EventId TriggerId) :
    Option (ModuleId × Bool) → ModuleBus ModuleId EventId TriggerId → Prop where
  | registers (m : ModuleId) (manifestEvents : Option (List EventId)) (integrated : Bool) :
      BusStep known b none
        { b with tables := (b.tables.registerNow m manifestEvents integrated).2 }
  | listens (m : ModuleId) (ev : EventId) :
      BusStep known b none { b with tables := (b.tables.listenEvent known m ev).2 }
  | triggers (e : EventReference EventId TriggerId) : BusStep known b none (b.trigger e)
  | answers (tid : TriggerId) (m : ModuleId) : BusStep known b none (b.claim tid m)
  | callsBack {x : TriggerId × Option ModuleId} : x ∈ b.inHand →
      BusStep known b none { b with inHand := b.inHand.erase x, callbacks := b.callbacks ++ [x] }
  | activates {m : ModuleId} {returned : Bool} : runnerFree b.stack = true →
      (b.tables.activateBegin m).1 = some returned →
      BusStep known b none { b with tables := (b.tables.activateBegin m).2 }
  | entersActive {m : ModuleId} : runnerFree b.stack = true →
      (b.tables.activateBegin m).1 = none →
      BusStep known b none
        { b with tables := (b.tables.activateBegin m).2, stack := activating m :: b.stack }
  | leavesActive {m : ModuleId} {stack : List (RunnerFrame ModuleId TriggerId)} (rc : Int) :
      b.stack = activating m :: stack →
      BusStep known b none { b with tables := (b.tables.activateEnd m rc).2, stack := stack }
  | deactivates {m : ModuleId} {returned : Bool} : runnerFree b.stack = true →
      (b.tables.deactivateBegin m).1 = some returned →
      BusStep known b (some (m, returned)) { b with tables := (b.tables.deactivateBegin m).2 }
  | entersDeactivate {m : ModuleId} : runnerFree b.stack = true →
      (b.tables.deactivateBegin m).1 = none →
      BusStep known b none
        { b with tables := (b.tables.deactivateBegin m).2, stack := deactivating m :: b.stack }
  | leavesDeactivate {m : ModuleId} {stack : List (RunnerFrame ModuleId TriggerId)} :
      b.stack = deactivating m :: stack →
      BusStep known b none { b with tables := b.tables.deactivateEnd m, stack := owing m :: stack }
  | collects {m : ModuleId} {stack : List (RunnerFrame ModuleId TriggerId)} :
      b.stack = owing m :: stack →
      BusStep known b none { b with stack := failing m (b.tables.owedBy m) :: stack }
  | failsOwed {m : ModuleId} {tid : TriggerId} {owed : List TriggerId}
      {stack : List (RunnerFrame ModuleId TriggerId)} :
      b.stack = failing m (tid :: owed) :: stack →
      BusStep known b none { b.claim tid m with stack := failing m owed :: stack }
  | returnsDeactivated {m : ModuleId} {stack : List (RunnerFrame ModuleId TriggerId)} :
      b.stack = failing m [] :: stack → BusStep known b (some (m, true)) { b with stack := stack }
  | delivers {tid : TriggerId} {m : ModuleId} : runnerFree b.stack = true → (tid, m) ∈ b.posted →
      BusStep known b none
        { b with posted := b.posted.erase (tid, m), stack := delivering tid m :: b.stack }
  | isNotAdmitted {tid : TriggerId} {m : ModuleId} {stack : List (RunnerFrame ModuleId TriggerId)} :
      b.stack = delivering tid m :: stack →
      BusStep known b none { b with stack := failedDelivery tid m :: stack }
  | entersExec {tid : TriggerId} {m : ModuleId} {stack : List (RunnerFrame ModuleId TriggerId)} :
      b.stack = delivering tid m :: stack →
      BusStep known b none { b with stack := executing tid m :: stack }
  | leavesExec {tid : TriggerId} {m : ModuleId} {stack : List (RunnerFrame ModuleId TriggerId)}
      (rc : Int) : b.stack = executing tid m :: stack →
      BusStep known b none
        { b with stack := if rc < 0 then failedDelivery tid m :: stack else stack }
  | failsDelivery {tid : TriggerId} {m : ModuleId} {stack : List (RunnerFrame ModuleId TriggerId)} :
      b.stack = failedDelivery tid m :: stack →
      BusStep known b none { b.claim tid m with stack := stack }

/-- The runs from empty tables. -/
inductive BusRun (known : EventId → Bool) : ModuleBus ModuleId EventId TriggerId → Prop where
  | start : BusRun known .start
  | next {b b' : ModuleBus ModuleId EventId TriggerId} {label : Option (ModuleId × Bool)} :
      BusRun known b → BusStep known b label b' → BusRun known b'

/-! ## The tables -/

/-- What a listener is subscribed to, its record lists; a record that lists an event is of a
module that is activating or active, and the event is known and declared; every trigger
awaits someone. -/
structure TablesOk (known : EventId → Bool) (t : ModuleTables ModuleId EventId TriggerId) :
    Prop where
  subscribed : ∀ ev m, m ∈ t.listeners ev →
    ∃ rec, t.records.lookup m = some rec ∧ ev ∈ rec.listening
  listening : ∀ (m : ModuleId) (rec : ModuleRecord EventId) (ev : EventId),
    t.records.lookup m = some rec → ev ∈ rec.listening →
      (rec.state = .activating ∨ rec.state = .active) ∧ known ev = true ∧
        ∃ declared, rec.manifestEvents = some declared ∧ ev ∈ declared
  awaited : ∀ (tid : TriggerId) (trigger : EventTrigger ModuleId EventId TriggerId),
    t.triggers.lookup tid = some trigger →
      trigger.awaiting ≠ ∅ ∧ trigger.event.triggerId = tid

namespace TablesOk

variable {known : EventId → Bool} {t : ModuleTables ModuleId EventId TriggerId} {m : ModuleId}
  {ev : EventId} {tid : TriggerId} {rec : ModuleRecord EventId}

theorem registerNow (h : TablesOk known t) (manifestEvents : Option (List EventId))
    (integrated : Bool) : TablesOk known (t.registerNow m manifestEvents integrated).2 := by
  rw [ModuleTables.registerNow]
  split
  · exact h
  · next hnew =>
    have hnone : t.records.lookup m = none := by simpa using hnew
    refine ⟨fun ev' m' hm' => ?_, fun m' rec' ev' hlookup hev' => ?_, h.awaited⟩
    · obtain ⟨rec', hlookup, hev'⟩ := h.subscribed ev' m' hm'
      have hne : m' ≠ m := by
        rintro rfl
        rw [hnone] at hlookup
        cases hlookup
      exact ⟨rec', by rw [AList.lookup_insert_ne hne, hlookup], hev'⟩
    · rw [AList.lookup_insert_ite] at hlookup
      split at hlookup
      · obtain rfl := Option.some.inj hlookup
        cases hev'
      · exact h.listening m' rec' ev' hlookup hev'

theorem listenEvent (h : TablesOk known t) : TablesOk known (t.listenEvent known m ev).2 := by
  rcases ModuleTables.listenEvent_cases known t m ev with
    heq | ⟨rec, declared, hlookup, hknown, hstate, hdeclared, hev, heq⟩
  · rw [heq]
    exact h
  rw [heq]
  refine ⟨fun ev' m' hm' => ?_, fun m' rec' ev' hlookup' hev' => ?_, h.awaited⟩
  · rw [ModuleTables.listeners, AList.lookup_insert_ite] at hm'
    rw [AList.lookup_insert_ite]
    by_cases hm : m' = m
    · rw [if_pos hm]
      refine ⟨_, rfl, ?_⟩
      by_cases heq' : ev' = ev
      · simp [heq']
      · rw [if_neg heq'] at hm'
        obtain ⟨rec', hlookup', hev'⟩ := h.subscribed ev' m' hm'
        rw [hm, hlookup] at hlookup'
        rw [← Option.some.inj hlookup'] at hev'
        exact List.mem_append_left _ hev'
    · rw [if_neg hm]
      refine h.subscribed ev' m' ?_
      by_cases heq' : ev' = ev
      · rw [if_pos heq', Option.getD_some, Finset.mem_insert] at hm'
        rw [heq']
        exact hm'.resolve_left hm
      · rwa [if_neg heq'] at hm'
  · rw [AList.lookup_insert_ite] at hlookup'
    split at hlookup'
    · obtain rfl := Option.some.inj hlookup'
      rcases List.mem_append.mp hev' with hev' | hev'
      · exact h.listening m rec ev' hlookup hev'
      · rw [List.mem_singleton.mp hev']
        exact ⟨hstate, hknown, declared, hdeclared, hev⟩
    · exact h.listening m' rec' ev' hlookup' hev'

theorem triggerEvent (h : TablesOk known t) (e : EventReference EventId TriggerId) :
    TablesOk known (t.triggerEvent e).2 := by
  rw [ModuleTables.triggerEvent]
  split
  · exact h
  · next hsome =>
    refine ⟨h.subscribed, h.listening, fun tid trigger hlookup => ?_⟩
    rw [AList.lookup_insert_ite] at hlookup
    split at hlookup
    · next heq =>
      obtain rfl := Option.some.inj hlookup
      refine ⟨fun hempty => hsome ?_, heq.symm⟩
      exact (Finset.union_eq_empty.mp hempty).2
    · exact h.awaited tid trigger hlookup

theorem takeAnswer (h : TablesOk known t) : TablesOk known (t.takeAnswer tid m).2 := by
  cases hlookup : t.triggers.lookup tid with
  | none =>
    simp only [ModuleTables.takeAnswer, hlookup]
    exact h
  | some trigger =>
    simp only [ModuleTables.takeAnswer, hlookup]
    split
    · exact h
    · refine ⟨h.subscribed, h.listening, fun tid' trigger' hlookup' => ?_⟩
      by_cases hleft : trigger.awaiting.erase m = ∅
      · rw [if_pos hleft, AList.lookup_erase_ite] at hlookup'
        split at hlookup'
        · cases hlookup'
        · exact h.awaited tid' trigger' hlookup'
      · rw [if_neg hleft, AList.lookup_insert_ite] at hlookup'
        split at hlookup'
        · next heq =>
          obtain rfl := Option.some.inj hlookup'
          exact ⟨hleft, by rw [heq, ← (h.awaited tid trigger hlookup).2]⟩
        · exact h.awaited tid' trigger' hlookup'

variable {state : ModuleLifecycleState}

/-- A change of state that keeps a module that listens activating or active. -/
theorem setState (h : TablesOk known t) (hlookup : t.records.lookup m = some rec)
    (hstate : rec.listening = [] ∨ state = .activating ∨ state = .active) :
    TablesOk known (t.setState m rec state) := by
  refine ⟨fun ev' m' hm' => ?_, fun m' rec' ev' hlookup' hev' => ?_, h.awaited⟩
  · obtain ⟨rec', hrec', hev'⟩ := h.subscribed ev' m' hm'
    rw [ModuleTables.setState, AList.lookup_insert_ite]
    split
    · next heq =>
      rw [heq, hlookup] at hrec'
      rw [← Option.some.inj hrec'] at hev'
      exact ⟨_, rfl, hev'⟩
    · exact ⟨rec', hrec', hev'⟩
  · rw [ModuleTables.setState, AList.lookup_insert_ite] at hlookup'
    split at hlookup'
    · obtain rfl := Option.some.inj hlookup'
      have hbefore := h.listening m rec ev' hlookup hev'
      refine ⟨hstate.resolve_left fun hnil => ?_, hbefore.2⟩
      rw [show rec.listening = [] from hnil] at hev'
      cases hev'
    · exact h.listening m' rec' ev' hlookup' hev'

theorem dropListeners (h : TablesOk known t) (hlookup : t.records.lookup m = some rec) :
    TablesOk known (t.dropListeners m rec state) := by
  refine ⟨fun ev' m' hm' => ?_, fun m' rec' ev' hlookup' hev' => ?_, h.awaited⟩
  · rw [ModuleTables.listeners_dropListeners] at hm'
    have hbefore : m' ∈ t.listeners ev' := by
      split at hm'
      · exact Finset.mem_of_mem_erase hm'
      · exact hm'
    obtain ⟨rec', hrec', hev'⟩ := h.subscribed ev' m' hbefore
    -- `m` itself was taken out of every event its record listed
    have hne : m' ≠ m := by
      rintro rfl
      rw [hlookup] at hrec'
      rw [← Option.some.inj hrec'] at hev'
      rw [if_pos hev'] at hm'
      exact Finset.notMem_erase _ _ hm'
    exact ⟨rec', by rw [ModuleTables.dropListeners, AList.lookup_insert_ne hne, hrec'], hev'⟩
  · rw [ModuleTables.dropListeners, AList.lookup_insert_ite] at hlookup'
    split at hlookup'
    · obtain rfl := Option.some.inj hlookup'
      cases hev'
    · exact h.listening m' rec' ev' hlookup' hev'

theorem activateBegin (h : TablesOk known t) : TablesOk known (t.activateBegin m).2 := by
  cases hlookup : t.records.lookup m with
  | none =>
    simp only [ModuleTables.activateBegin, hlookup]
    exact h
  | some rec =>
    simp only [ModuleTables.activateBegin, hlookup]
    split
    · exact h
    · exact h
    · exact h
    · exact h.setState hlookup (Or.inr (Or.inl rfl))

theorem activateEnd (h : TablesOk known t) (rc : Int) : TablesOk known (t.activateEnd m rc).2 := by
  cases hlookup : t.records.lookup m with
  | none =>
    simp only [ModuleTables.activateEnd, hlookup]
    exact h
  | some rec =>
    simp only [ModuleTables.activateEnd, hlookup]
    split
    · exact h.setState hlookup (Or.inr (Or.inr rfl))
    · exact h.dropListeners hlookup

theorem deactivateBegin (h : TablesOk known t) : TablesOk known (t.deactivateBegin m).2 := by
  cases hlookup : t.records.lookup m with
  | none =>
    simp only [ModuleTables.deactivateBegin, hlookup]
    exact h
  | some rec =>
    simp only [ModuleTables.deactivateBegin, hlookup]
    split
    · exact h
    · exact h.dropListeners hlookup

/-- A module being deactivated listens to nothing. -/
theorem deactivateEnd (h : TablesOk known t) (hstate : t.stateOf m = some .deactivating) :
    TablesOk known (t.deactivateEnd m) := by
  obtain ⟨rec, hlookup, hdeactivating⟩ := ModuleTables.stateOf_eq_some.mp hstate
  simp only [ModuleTables.deactivateEnd, hlookup]
  refine h.setState hlookup (Or.inl ?_)
  refine List.eq_nil_iff_forall_not_mem.mpr fun ev hev => ?_
  rcases (h.listening m rec ev hlookup hev).1 with hstate | hstate <;>
    (rw [hdeactivating] at hstate; cases hstate)

end TablesOk

/-! ## The calls under way -/

namespace RunnerFrame

/-- The module whose state the call owns. -/
def owner (f : RunnerFrame ModuleId TriggerId) : Option ModuleId := f.pins.map Prod.fst

variable {f : RunnerFrame ModuleId TriggerId} {m : ModuleId} {st : ModuleLifecycleState}

theorem owner_of_pins (h : f.pins = some (m, st)) : f.owner = some m := by rw [owner, h]; rfl

theorem pins_of_inModuleCode (hcode : f.inModuleCode = true) (h : f.pins = some (m, st)) :
    st = .activating ∨ st = .deactivating := by
  cases f <;> simp_all [inModuleCode, pins]

theorem not_owes_of_inModuleCode {tid : TriggerId} (hcode : f.inModuleCode = true) :
    ¬ f.Owes m tid := by
  cases f <;> simp_all [inModuleCode, Owes]

theorem owner_of_owes {tid : TriggerId} (h : f.Owes m tid) : f.owner = some m := by
  cases f with
  | owing m' =>
    obtain rfl : m = m' := h
    rfl
  | failing m' owed =>
    obtain rfl : m = m' := h.1
    rfl
  | _ => exact h.elim

end RunnerFrame

/-- Active, or being deactivated. -/
def MayOwe (t : ModuleTables ModuleId EventId TriggerId) (m : ModuleId) : Prop :=
  t.stateOf m = some .active ∨ t.stateOf m = some .deactivating

/-- Each call under way owns the state of its module, and all but the innermost are in module
code; and a trigger awaits only modules that may owe an answer, or that the innermost call is
about to fail. -/
structure FramesOk (t : ModuleTables ModuleId EventId TriggerId)
    (stack : List (RunnerFrame ModuleId TriggerId)) : Prop where
  pinned : ∀ f ∈ stack, ∀ m st, f.pins = some (m, st) → t.stateOf m = some st
  distinct : (stack.filterMap owner).Nodup
  inCode : ∀ f ∈ stack.tail, f.inModuleCode = true
  awaits : ∀ tid m, m ∈ t.awaiting tid →
    MayOwe t m ∨ ∃ f, stack.head? = some f ∧ f.Owes m tid

namespace FramesOk

variable {t t' : ModuleTables ModuleId EventId TriggerId}
  {stack : List (RunnerFrame ModuleId TriggerId)} {f f' : RunnerFrame ModuleId TriggerId}

/-- Where another call may start, every call under way is in module code. -/
theorem inCode_of_free (h : FramesOk t stack) (hfree : runnerFree stack = true) :
    ∀ f ∈ stack, f.inModuleCode = true := by
  cases stack with
  | nil => exact fun f hf => absurd hf List.not_mem_nil
  | cons f₀ stack =>
    intro f hf
    rcases List.mem_cons.mp hf with rfl | hf
    · exact hfree
    · exact h.inCode f hf

/-- There, a trigger awaits only modules that may owe. -/
theorem mayOwe_of_free (h : FramesOk t stack) (hfree : runnerFree stack = true) {tid : TriggerId}
    {m : ModuleId} (hm : m ∈ t.awaiting tid) : MayOwe t m := by
  refine (h.awaits tid m hm).resolve_right ?_
  rintro ⟨f, hhead, howes⟩
  exact not_owes_of_inModuleCode (h.inCode_of_free hfree f (List.mem_of_mem_head? hhead)) howes

/-- No call starts or ends, and no known state changes. -/
theorem of_tables (h : FramesOk t stack)
    (hstate : ∀ m st, t.stateOf m = some st → t'.stateOf m = some st)
    (hawait : ∀ tid m, m ∈ t'.awaiting tid → m ∈ t.awaiting tid ∨ t.stateOf m = some .active) :
    FramesOk t' stack where
  pinned f hf m st hpins := hstate m st (h.pinned f hf m st hpins)
  distinct := h.distinct
  inCode := h.inCode
  awaits tid m hm := by
    rcases hawait tid m hm with hm | hactive
    · exact (h.awaits tid m hm).imp_left fun hmay => hmay.imp (hstate m _) (hstate m _)
    · exact Or.inl (Or.inl (hstate m _ hactive))

/-- A call starts. -/
theorem push (h : FramesOk t stack) (hfree : runnerFree stack = true)
    (hstate : ∀ m, f.owner ≠ some m → t'.stateOf m = t.stateOf m)
    (hfresh : ∀ m, f.owner = some m →
      t.stateOf m ≠ some .activating ∧ t.stateOf m ≠ some .deactivating)
    (hpins : ∀ m st, f.pins = some (m, st) → t'.stateOf m = some st)
    (hawait : ∀ tid, t'.awaiting tid = t.awaiting tid)
    (hown : ∀ tid m, f.owner = some m → m ∈ t.awaiting tid → MayOwe t' m) :
    FramesOk t' (f :: stack) := by
  have hcode := h.inCode_of_free hfree
  -- the calls under way own other modules
  have hother : ∀ g ∈ stack, ∀ m, g.owner = some m → f.owner ≠ some m := by
    intro g hg m hgm hfm
    obtain ⟨⟨m', st⟩, hpins', rfl⟩ := Option.map_eq_some_iff.mp hgm
    have hst := h.pinned g hg m' st hpins'
    rcases pins_of_inModuleCode (hcode g hg) hpins' with rfl | rfl
    · exact (hfresh m' hfm).1 hst
    · exact (hfresh m' hfm).2 hst
  refine ⟨fun g hg m st hpins' => ?_, ?_, hcode, fun tid m hm => Or.inl ?_⟩
  · rcases List.mem_cons.mp hg with rfl | hg
    · exact hpins m st hpins'
    · rw [hstate m (hother g hg m (owner_of_pins hpins'))]
      exact h.pinned g hg m st hpins'
  · cases hf : f.owner with
    | none => rw [List.filterMap_cons_none hf]; exact h.distinct
    | some m =>
      rw [List.filterMap_cons_some hf, List.nodup_cons]
      refine ⟨fun hm => ?_, h.distinct⟩
      obtain ⟨g, hg, hgm⟩ := List.mem_filterMap.mp hm
      exact hother g hg m hgm hf
  · rw [hawait] at hm
    by_cases hfm : f.owner = some m
    · exact hown tid m hfm hm
    · rw [MayOwe, hstate m hfm]
      exact h.mayOwe_of_free hfree hm

/-- The innermost call ends. -/
theorem pop (h : FramesOk t (f :: stack))
    (hstate : ∀ m, f.owner ≠ some m → t'.stateOf m = t.stateOf m)
    (hawait : ∀ tid m, m ∈ t'.awaiting tid → m ∈ t.awaiting tid)
    (hown : ∀ tid m, f.owner = some m → m ∈ t'.awaiting tid → MayOwe t' m) :
    FramesOk t' stack := by
  have hother : ∀ g ∈ stack, ∀ m, g.owner = some m → f.owner ≠ some m := by
    intro g hg m hgm hfm
    have hdistinct := h.distinct
    rw [List.filterMap_cons_some hfm, List.nodup_cons] at hdistinct
    exact hdistinct.1 (List.mem_filterMap.mpr ⟨g, hg, hgm⟩)
  refine ⟨fun g hg m st hpins => ?_, ?_, fun g hg => h.inCode g (List.mem_of_mem_tail hg), ?_⟩
  · rw [hstate m (hother g hg m (owner_of_pins hpins))]
    exact h.pinned g (List.mem_cons_of_mem _ hg) m st hpins
  · exact h.distinct.sublist ((List.sublist_cons_self f stack).filterMap owner)
  · intro tid m hm
    refine Or.inl ?_
    by_cases hfm : f.owner = some m
    · exact hown tid m hfm hm
    · rw [MayOwe, hstate m hfm]
      refine (h.awaits tid m (hawait tid m hm)).resolve_right ?_
      rintro ⟨g, hhead, howes⟩
      obtain rfl : f = g := by simpa using hhead
      exact hfm (owner_of_owes howes)

/-- The innermost call moves on. -/
theorem replace (h : FramesOk t (f :: stack)) (howner : f'.owner = f.owner)
    (hstate : ∀ m, f.owner ≠ some m → t'.stateOf m = t.stateOf m)
    (hpins : ∀ m st, f'.pins = some (m, st) → t'.stateOf m = some st)
    (hawait : ∀ tid m, m ∈ t'.awaiting tid → m ∈ t.awaiting tid)
    (hown : ∀ tid m, f.owner = some m → m ∈ t'.awaiting tid → MayOwe t' m ∨ f'.Owes m tid) :
    FramesOk t' (f' :: stack) := by
  have hother : ∀ g ∈ stack, ∀ m, g.owner = some m → f.owner ≠ some m := by
    intro g hg m hgm hfm
    have hdistinct := h.distinct
    rw [List.filterMap_cons_some hfm, List.nodup_cons] at hdistinct
    exact hdistinct.1 (List.mem_filterMap.mpr ⟨g, hg, hgm⟩)
  refine ⟨fun g hg m st hpins' => ?_, ?_, h.inCode, fun tid m hm => ?_⟩
  · rcases List.mem_cons.mp hg with rfl | hg
    · exact hpins m st hpins'
    · rw [hstate m (hother g hg m (owner_of_pins hpins'))]
      exact h.pinned g (List.mem_cons_of_mem _ hg) m st hpins'
  · have hdistinct := h.distinct
    rw [List.filterMap_cons] at hdistinct ⊢
    rwa [howner]
  · by_cases hfm : f.owner = some m
    · exact (hown tid m hfm hm).imp_right fun howes => ⟨f', rfl, howes⟩
    · rw [MayOwe, hstate m hfm]
      refine Or.inl ((h.awaits tid m (hawait tid m hm)).resolve_right ?_)
      rintro ⟨g, hhead, howes⟩
      obtain rfl : f = g := by simpa using hhead
      exact hfm (owner_of_owes howes)

end FramesOk

/-! ## Callbacks -/

/-- Whether a listener still owes its answer. -/
def owedCount (t : ModuleTables ModuleId EventId TriggerId) (tid : TriggerId) :
    Option ModuleId → Nat
  | some m => if m ∈ t.awaiting tid then 1 else 0
  | none => 0

/-- The callbacks run, in hand and owed are no more than the triggers. -/
def CallsOk (b : ModuleBus ModuleId EventId TriggerId) : Prop :=
  ∀ tid listener, b.callbacks.count (tid, listener) + b.inHand.count (tid, listener)
    + owedCount b.tables tid listener ≤ b.triggered.count tid

namespace CallsOk

variable {known : EventId → Bool} {b : ModuleBus ModuleId EventId TriggerId}

/-- Only what is awaited matters of the tables. -/
theorem of_tables (h : CallsOk b) {t : ModuleTables ModuleId EventId TriggerId}
    (hawait : ∀ tid, t.awaiting tid = b.tables.awaiting tid) : CallsOk { b with tables := t } := by
  intro tid listener
  have howed : owedCount t tid listener = owedCount b.tables tid listener := by
    cases listener <;> simp [owedCount, hawait]
  simpa only [howed] using h tid listener

/-- Claiming an answer moves it from the waiting set to the hand. -/
theorem claim (h : CallsOk b) (htables : TablesOk known b.tables) (tid : TriggerId) (m : ModuleId) :
    CallsOk (b.claim tid m) := by
  intro tid' listener
  have hold := h tid' listener
  have hawait : ∀ tid', (b.claim tid m).tables.awaiting tid'
      = if tid' = tid then (b.tables.awaiting tid).erase m else b.tables.awaiting tid' :=
    fun _ => ModuleTables.awaiting_takeAnswer
  cases htake : (b.tables.takeAnswer tid m).1 with
  | none =>
    have hnot : m ∉ b.tables.awaiting tid := fun hm => by
      simpa [htake] using ModuleTables.takeAnswer_isSome.mpr hm
    have hhand : (b.claim tid m).inHand = b.inHand := by simp [ModuleBus.claim, htake]
    have howed : owedCount (b.claim tid m).tables tid' listener
        = owedCount b.tables tid' listener := by
      cases listener with
      | none => rfl
      | some m' =>
        simp only [owedCount, hawait]
        by_cases htid : tid' = tid
        · rw [if_pos htid, htid, Finset.erase_eq_of_notMem hnot]
        · rw [if_neg htid]
    rw [hhand, howed]
    exact hold
  | some event =>
    have hmem : m ∈ b.tables.awaiting tid :=
      ModuleTables.takeAnswer_isSome.mp (by simp [htake])
    have hevent : event.triggerId = tid := by
      obtain ⟨trigger, hlookup, hm⟩ := ModuleTables.mem_awaiting.mp hmem
      simp only [ModuleTables.takeAnswer, hlookup, hm, not_true_eq_false, if_false,
        Option.some.injEq] at htake
      rw [← htake]
      exact (htables.awaited tid trigger hlookup).2
    have hhand : (b.claim tid m).inHand = (tid, some m) ::ₘ b.inHand := by
      simp [ModuleBus.claim, htake, hevent]
    rw [hhand, Multiset.count_cons]
    show b.callbacks.count (tid', listener) + _ + _ ≤ b.triggered.count tid'
    by_cases hsame : (tid', listener) = (tid, some m)
    · obtain ⟨rfl, rfl⟩ := Prod.mk.inj hsame
      have hbefore : owedCount b.tables tid' (some m) = 1 := if_pos hmem
      have hafter : owedCount (b.claim tid' m).tables tid' (some m) = 0 := by
        simp only [owedCount, hawait, if_true]
        exact if_neg (Finset.notMem_erase m _)
      rw [if_pos rfl, hafter]
      omega
    · have howed : owedCount (b.claim tid m).tables tid' listener
          = owedCount b.tables tid' listener := by
        cases listener with
        | none => rfl
        | some m' =>
          simp only [owedCount, hawait]
          by_cases htid : tid' = tid
          · subst htid
            have hne : m' ≠ m := fun heq => hsame (by rw [heq])
            simp [Finset.mem_erase, hne]
          · rw [if_neg htid]
      rw [if_neg hsame, howed, Nat.add_zero]
      exact hold

/-- A trigger adds each listener once, or tells once that there are none. -/
theorem trigger (h : CallsOk b) (e : EventReference EventId TriggerId) : CallsOk (b.trigger e) := by
  intro tid listener
  have hold := h tid listener
  have htriggered : (b.trigger e).triggered.count tid
      = b.triggered.count tid + if tid = e.triggerId then 1 else 0 := by
    simp only [ModuleBus.trigger, List.count_append, List.count_singleton, beq_iff_eq]
    by_cases htid : tid = e.triggerId
    · simp [htid]
    · simp [htid, Ne.symm htid]
  have hawait : (b.trigger e).tables.awaiting tid = if tid = e.triggerId
      then b.tables.awaiting tid ∪ (b.tables.triggerEvent e).1 else b.tables.awaiting tid :=
    ModuleTables.awaiting_triggerEvent e
  rw [htriggered]
  show b.callbacks.count (tid, listener) + _ + _ ≤ _
  cases listener with
  | none =>
    have hhand : (b.trigger e).inHand.count (tid, none)
        ≤ b.inHand.count (tid, none) + if tid = e.triggerId then 1 else 0 := by
      simp only [ModuleBus.trigger]
      split
      · rw [Multiset.count_cons]
        simp
      · omega
    simp only [owedCount] at hold ⊢
    omega
  | some m =>
    have hhand : (b.trigger e).inHand.count (tid, some m) = b.inHand.count (tid, some m) := by
      simp only [ModuleBus.trigger]
      split
      · rw [Multiset.count_cons]
        simp
      · rfl
    have howed : owedCount (b.trigger e).tables tid (some m)
        ≤ owedCount b.tables tid (some m) + if tid = e.triggerId then 1 else 0 := by
      simp only [owedCount, hawait]
      split <;> split <;> omega
    rw [hhand]
    omega

end CallsOk

/-! ## Every run -/

/-- All three. -/
structure BusInv (known : EventId → Bool) (b : ModuleBus ModuleId EventId TriggerId) : Prop where
  tables : TablesOk known b.tables
  frames : FramesOk b.tables b.stack
  calls : CallsOk b

namespace BusInv

variable {known : EventId → Bool} {b : ModuleBus ModuleId EventId TriggerId}

theorem start : BusInv known (ModuleBus.start : ModuleBus ModuleId EventId TriggerId) where
  tables := by
    refine ⟨fun ev m hm => ?_, fun m rec ev hlookup => ?_, fun tid trigger hlookup => ?_⟩
    · simp [ModuleTables.listeners, ModuleBus.start] at hm
    · simp [ModuleBus.start] at hlookup
    · simp [ModuleBus.start] at hlookup
  frames := by
    refine ⟨fun f hf => ?_, List.nodup_nil, fun f hf => ?_, fun tid m hm => ?_⟩
    · cases hf
    · cases hf
    · simp [ModuleTables.awaiting, ModuleBus.start] at hm
  calls tid listener := by
    cases listener <;> simp [ModuleBus.start, owedCount, ModuleTables.awaiting]

variable {tid : TriggerId}

theorem mem_awaiting_of_claim {tid' : TriggerId} {m m' : ModuleId}
    (hm' : m' ∈ (b.claim tid m).tables.awaiting tid') : m' ∈ b.tables.awaiting tid' := by
  have hawait : (b.claim tid m).tables.awaiting tid'
      = if tid' = tid then (b.tables.awaiting tid).erase m else b.tables.awaiting tid' :=
    ModuleTables.awaiting_takeAnswer
  rw [hawait] at hm'
  split at hm'
  · next heq =>
    rw [heq]
    exact Finset.mem_of_mem_erase hm'
  · exact hm'

theorem not_mem_awaiting_claim {m : ModuleId} : m ∉ (b.claim tid m).tables.awaiting tid := by
  have hawait : (b.claim tid m).tables.awaiting tid = (b.tables.awaiting tid).erase m :=
    ModuleTables.awaiting_takeAnswer.trans (if_pos rfl)
  rw [hawait]
  exact Finset.notMem_erase m _

theorem stateOf_claim {m m' : ModuleId} : (b.claim tid m).tables.stateOf m' = b.tables.stateOf m' :=
  ModuleTables.stateOf_takeAnswer

/-- An answer claimed by any thread. -/
theorem claim (h : BusInv known b) (tid : TriggerId) (m : ModuleId) :
    BusInv known (b.claim tid m) where
  tables := h.tables.takeAnswer
  frames := h.frames.of_tables (fun _ _ hst => stateOf_claim.trans hst)
    fun _ _ hm' => Or.inl (mem_awaiting_of_claim hm')
  calls := h.calls.claim h.tables tid m

theorem trigger (h : BusInv known b) (e : EventReference EventId TriggerId) :
    BusInv known (b.trigger e) where
  tables := h.tables.triggerEvent e
  frames := by
    refine h.frames.of_tables (fun m st hst => (ModuleTables.stateOf_triggerEvent e).trans hst)
      fun tid m hm => ?_
    have hawait : (b.trigger e).tables.awaiting tid = if tid = e.triggerId
        then b.tables.awaiting tid ∪ (b.tables.triggerEvent e).1 else b.tables.awaiting tid :=
      ModuleTables.awaiting_triggerEvent e
    rw [hawait] at hm
    split at hm
    · exact (Finset.mem_union.mp hm).imp_right ModuleTables.active_of_mem_targets
    · exact Or.inl hm
  calls := h.calls.trigger e

/-- **Every section keeps the invariant.** -/
theorem step (h : BusInv known b) {b' : ModuleBus ModuleId EventId TriggerId}
    {label : Option (ModuleId × Bool)} (hstep : BusStep known b label b') : BusInv known b' := by
  cases hstep with
  | registers m manifestEvents integrated =>
    have hawait : ∀ tid, (b.tables.registerNow m manifestEvents integrated).2.awaiting tid
        = b.tables.awaiting tid :=
      fun tid => ModuleTables.awaiting_of_triggers (ModuleTables.triggers_registerNow ..)
    exact ⟨h.tables.registerNow manifestEvents integrated,
      h.frames.of_tables (fun _ _ hst => ModuleTables.stateOf_registerNow _ _ hst)
        fun tid _ hm => Or.inl (hawait tid ▸ hm), h.calls.of_tables hawait⟩
  | listens m ev =>
    refine ⟨h.tables.listenEvent, ?_, h.calls.of_tables fun tid => ModuleTables.awaiting_listenEvent _⟩
    have hawait : ∀ tid, (b.tables.listenEvent known m ev).2.awaiting tid = b.tables.awaiting tid :=
      fun _ => ModuleTables.awaiting_listenEvent known
    exact h.frames.of_tables (fun _ _ hst => (ModuleTables.stateOf_listenEvent known).trans hst)
      fun tid _ hm => Or.inl (hawait tid ▸ hm)
  | triggers e => exact h.trigger e
  | answers tid m => exact h.claim tid m
  | @callsBack x hx =>
    refine ⟨h.tables, h.frames, fun tid listener => ?_⟩
    -- one callback leaves the hand and enters the log
    have hold := h.calls tid listener
    have hcount := Multiset.count_pos.mpr hx
    simp only [List.count_append, List.count_singleton, beq_iff_eq]
    by_cases hsame : x = (tid, listener)
    · rw [if_pos hsame, ← hsame, Multiset.count_erase_self]
      rw [← hsame] at hold
      omega
    · rw [if_neg hsame, Multiset.count_erase_of_ne (Ne.symm hsame)]
      omega
  | @activates m returned _ hsome =>
    rw [ModuleTables.activateBegin_some hsome]
    exact h
  | @entersActive m hfree hnone =>
    obtain ⟨hactive, hactivating, hdeactivating, hstate, htriggers⟩ :=
      ModuleTables.activateBegin_none hnone
    refine ⟨h.tables.activateBegin, ?_, h.calls.of_tables fun tid =>
      ModuleTables.awaiting_of_triggers htriggers⟩
    refine h.frames.push hfree (fun m' hm' => ?_) (fun m' hm' => ?_) (fun m' st hpins => ?_)
      (fun tid => ModuleTables.awaiting_of_triggers htriggers) (fun tid m' hm' hawait => ?_)
    · rw [hstate, if_neg fun heq => hm' (by rw [heq]; rfl)]
    · obtain rfl : m = m' := Option.some.inj hm'
      exact ⟨hactivating, hdeactivating⟩
    · obtain ⟨rfl, rfl⟩ : m = m' ∧ .activating = st := by simpa [pins] using hpins
      rw [hstate, if_pos rfl]
    · -- a module that activates owes nothing
      obtain rfl : m = m' := Option.some.inj hm'
      rcases h.frames.mayOwe_of_free hfree hawait with hst | hst
      · exact absurd hst hactive
      · exact absurd hst hdeactivating
  | @leavesActive m stack rc hstack =>
    have hframes := hstack ▸ h.frames
    have hactivating := hframes.pinned _ (List.mem_cons_self ..) m _ rfl
    have hawait : ∀ tid, (b.tables.activateEnd m rc).2.awaiting tid = b.tables.awaiting tid :=
      fun tid => ModuleTables.awaiting_of_triggers (ModuleTables.triggers_activateEnd rc)
    refine ⟨h.tables.activateEnd rc, ?_, h.calls.of_tables hawait⟩
    refine hframes.pop (fun m' hm' => ?_) (fun tid m' hm' => hawait tid ▸ hm')
      (fun tid m' hm' hmem => ?_)
    · rw [ModuleTables.stateOf_activateEnd rc hactivating, if_neg fun heq => hm' (by rw [heq]; rfl)]
    · obtain rfl : m = m' := Option.some.inj hm'
      rw [hawait] at hmem
      rcases hframes.awaits tid m hmem with (hst | hst) | ⟨f, hhead, howes⟩
      · rw [hactivating] at hst
        cases hst
      · rw [hactivating] at hst
        cases hst
      · obtain rfl := Option.some.inj hhead
        exact howes.elim
  | @deactivates m returned _ hsome =>
    rw [(ModuleTables.deactivateBegin_some hsome).1]
    exact h
  | @entersDeactivate m hfree hnone =>
    obtain ⟨hactive, hstate, htriggers⟩ := ModuleTables.deactivateBegin_none hnone
    refine ⟨h.tables.deactivateBegin, ?_, h.calls.of_tables fun tid =>
      ModuleTables.awaiting_of_triggers htriggers⟩
    refine h.frames.push hfree (fun m' hm' => ?_) (fun m' hm' => ?_) (fun m' st hpins => ?_)
      (fun tid => ModuleTables.awaiting_of_triggers htriggers) (fun tid m' hm' _ => ?_)
    · rw [hstate, if_neg fun heq => hm' (by rw [heq]; rfl)]
    · obtain rfl : m = m' := Option.some.inj hm'
      rw [hactive]
      simp
    · obtain ⟨rfl, rfl⟩ : m = m' ∧ .deactivating = st := by simpa [pins] using hpins
      rw [hstate, if_pos rfl]
    · obtain rfl : m = m' := Option.some.inj hm'
      exact Or.inr (by rw [hstate, if_pos rfl])
  | @leavesDeactivate m stack hstack =>
    have hframes := hstack ▸ h.frames
    have hdeactivating := hframes.pinned _ (List.mem_cons_self ..) m _ rfl
    have hawait : ∀ tid, (b.tables.deactivateEnd m).awaiting tid = b.tables.awaiting tid :=
      fun tid => ModuleTables.awaiting_of_triggers ModuleTables.triggers_deactivateEnd
    refine ⟨h.tables.deactivateEnd hdeactivating, ?_, h.calls.of_tables hawait⟩
    refine hframes.replace rfl (fun m' hm' => ?_) (fun m' st hpins => ?_)
      (fun tid m' hm' => hawait tid ▸ hm') (fun tid m' hm' _ => ?_)
    · rw [ModuleTables.stateOf_deactivateEnd hdeactivating, if_neg fun heq => hm' (by rw [heq]; rfl)]
    · obtain ⟨rfl, rfl⟩ : m = m' ∧ .inactive = st := by simpa [pins] using hpins
      rw [ModuleTables.stateOf_deactivateEnd hdeactivating, if_pos rfl]
    · exact Or.inr (Option.some.inj hm').symm
  | @collects m stack hstack =>
    have hframes := hstack ▸ h.frames
    refine ⟨h.tables, ?_, h.calls⟩
    refine hframes.replace rfl (fun _ _ => rfl) (fun m' st hpins => ?_) (fun _ _ => id)
      (fun tid m' hm' hmem => ?_)
    · exact hframes.pinned _ (List.mem_cons_self ..) m' st hpins
    · obtain rfl : m = m' := Option.some.inj hm'
      exact Or.inr ⟨rfl, ModuleTables.mem_owedBy.mpr hmem⟩
  | @failsOwed m tid owed stack hstack =>
    have hframes := hstack ▸ h.frames
    refine ⟨(h.claim tid m).tables, ?_, (h.claim tid m).calls⟩
    refine hframes.replace rfl (fun _ _ => stateOf_claim) (fun m' st hpins => ?_)
      (fun _ _ => mem_awaiting_of_claim) (fun tid' m' hm' hmem => ?_)
    · rw [stateOf_claim]
      exact hframes.pinned _ (List.mem_cons_self ..) m' st hpins
    · obtain rfl : m = m' := Option.some.inj hm'
      rcases hframes.awaits tid' m (mem_awaiting_of_claim hmem) with hmay | ⟨f, hhead, howes⟩
      · exact Or.inl (hmay.imp stateOf_claim.trans stateOf_claim.trans)
      · obtain rfl := Option.some.inj hhead
        refine Or.inr ⟨rfl, (List.mem_cons.mp howes.2).resolve_left ?_⟩
        rintro rfl
        exact not_mem_awaiting_claim hmem
  | @returnsDeactivated m stack hstack =>
    have hframes := hstack ▸ h.frames
    refine ⟨h.tables, ?_, h.calls⟩
    refine hframes.pop (fun _ _ => rfl) (fun _ _ => id) fun tid m' hm' hmem => ?_
    refine (hframes.awaits tid m' hmem).resolve_right ?_
    rintro ⟨f, hhead, howes⟩
    obtain rfl := Option.some.inj hhead
    cases howes.2
  | @delivers tid m hfree _ =>
    refine ⟨h.tables, ?_, h.calls⟩
    exact h.frames.push hfree (fun _ _ => rfl) (fun m' hm' => by cases hm')
      (fun m' st hpins => by cases hpins) (fun _ => rfl) (fun tid m' hm' => by cases hm')
  | @isNotAdmitted tid m stack hstack =>
    have hframes := hstack ▸ h.frames
    exact ⟨h.tables, hframes.replace rfl (fun _ _ => rfl) (fun m' st hpins => by cases hpins)
      (fun _ _ => id) (fun tid m' hm' => by cases hm'), h.calls⟩
  | @entersExec tid m stack hstack =>
    have hframes := hstack ▸ h.frames
    exact ⟨h.tables, hframes.replace rfl (fun _ _ => rfl) (fun m' st hpins => by cases hpins)
      (fun _ _ => id) (fun tid m' hm' => by cases hm'), h.calls⟩
  | @leavesExec tid m stack rc hstack =>
    have hframes := hstack ▸ h.frames
    refine ⟨h.tables, ?_, h.calls⟩
    split
    · exact hframes.replace rfl (fun _ _ => rfl) (fun m' st hpins => by cases hpins)
        (fun _ _ => id) (fun tid m' hm' => by cases hm')
    · exact hframes.pop (fun _ _ => rfl) (fun _ _ => id) (fun tid m' hm' => by cases hm')
  | @failsDelivery tid m stack hstack =>
    have hframes := hstack ▸ h.frames
    refine ⟨(h.claim tid m).tables, ?_, (h.claim tid m).calls⟩
    exact hframes.pop (fun _ _ => stateOf_claim) (fun _ _ => mem_awaiting_of_claim)
      (fun tid m' hm' => by cases hm')

end BusInv

theorem BusRun.inv {known : EventId → Bool} {b : ModuleBus ModuleId EventId TriggerId}
    (h : BusRun known b) : BusInv known b := by
  induction h with
  | start => exact BusInv.start
  | next _ hstep ih => exact ih.step hstep

/-- What a `deactivate_now` that returns true leaves: nothing awaits the module. -/
theorem BusInv.deactivated {known : EventId → Bool} {b b' : ModuleBus ModuleId EventId TriggerId}
    {m : ModuleId} (h : BusInv known b) (hstep : BusStep known b (some (m, true)) b')
    (tid : TriggerId) : m ∉ b'.tables.awaiting tid := by
  intro hmem
  have hmay := ((h.step hstep).frames.awaits tid m hmem)
  cases hstep with
  | deactivates hfree hsome =>
    obtain ⟨heq, hrest⟩ := ModuleTables.deactivateBegin_some hsome
    rw [heq] at hmem
    rcases h.frames.mayOwe_of_free hfree hmem with hst | hst
    · exact (hrest rfl).1 hst
    · exact (hrest rfl).2 hst
  | returnsDeactivated hstack =>
    have hframes := hstack ▸ h.frames
    have hinactive := hframes.pinned _ (List.mem_cons_self ..) m _ rfl
    rcases hframes.awaits tid m hmem with (hst | hst) | ⟨f, hhead, howes⟩
    · rw [hinactive] at hst
      cases hst
    · rw [hinactive] at hst
      cases hst
    · obtain rfl := Option.some.inj hhead
      cases howes.2

/-- **The module event bus.** In every run of the calls, in any interleaving: a trigger calls
back at most once for each listener (and for nobody, where there is none); a listener of an
event is activating or active, and the event is registered and declared in its manifest; no
trigger is kept that awaits nobody; and once a deactivation has returned, none awaits its
module. -/
theorem event_bus_safety {known : EventId → Bool} {b : ModuleBus ModuleId EventId TriggerId}
    (h : BusRun known b) :
    (∀ tid listener, b.callbacks.count (tid, listener) ≤ b.triggered.count tid) ∧
    (∀ ev m, m ∈ b.tables.listeners ev → ∃ rec, b.tables.records.lookup m = some rec ∧
      (rec.state = .activating ∨ rec.state = .active) ∧ known ev = true ∧
      ∃ declared, rec.manifestEvents = some declared ∧ ev ∈ declared) ∧
    (∀ tid trigger, b.tables.triggers.lookup tid = some trigger → trigger.awaiting ≠ ∅) ∧
    (∀ m b', BusStep known b (some (m, true)) b' → ∀ tid, m ∉ b'.tables.awaiting tid) := by
  refine ⟨fun tid listener => ?_, fun ev m hm => ?_, fun tid trigger hlookup => ?_,
    fun m b' hstep tid => h.inv.deactivated hstep tid⟩
  · have hcalls := h.inv.calls tid listener
    omega
  · obtain ⟨rec, hlookup, hev⟩ := h.inv.tables.subscribed ev m hm
    exact ⟨rec, hlookup, h.inv.tables.listening m rec ev hlookup hev⟩
  · exact (h.inv.tables.awaited tid trigger hlookup).1

/-- A module subscribes while it activates, is asked once, and answers once. -/
theorem event_bus_safety_answered :
    ∃ b : ModuleBus Nat Nat Nat, BusRun (fun ev => ev == 5) b ∧ b.callbacks = [(9, some 1)] ∧
      b.callbacks.count (9, some 1) ≤ b.triggered.count 9 := by
  have hstart : BusRun (fun ev => ev == 5) (ModuleBus.start : ModuleBus Nat Nat Nat) := .start
  have hregistered := hstart.next (.registers 1 (some [5]) true)
  have hlistens := (hregistered.next (.entersActive (m := 1) rfl rfl)).next (.listens 1 5)
  have hactive := hlistens.next (.leavesActive 0 rfl)
  have hasked := (hactive.next (.triggers ⟨5, 9⟩)).next
    (.delivers rfl (show (9, 1) ∈ _ from by decide))
  have hanswered := (hasked.next (.entersExec rfl)).next (.answers 9 1)
  have hcalled := hanswered.next (.callsBack (x := (9, some 1)) (by decide))
  exact ⟨_, hcalled, rfl, (event_bus_safety hcalled).1 9 (some 1)⟩

end GpgFrontend
