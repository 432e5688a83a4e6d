import GpgFrontend.Base.Runs
import Mathlib.Data.Finset.Basic

/-!
# Modules, listeners and pending triggers (`ModuleManager.cpp`)

Three tables under one lock. A trigger waits for an answer of each listener it was
delivered to; whoever takes a listener out of the waiting set calls back, outside the lock.

- `stateOf_*`, `awaiting_*`, `listeners_*`: what each section does to what can be read.
-/

namespace GpgFrontend

/-- `ModuleLifecycleState`. -/
inductive ModuleLifecycleState where
  | registered
  | activating
  | active
  | deactivating
  | inactive
  | failed
  deriving Repr, DecidableEq

section

variable {ModuleId EventId TriggerId : Type}

/-- `ModuleRecord`; of the module, the events that its signed manifest declares. -/
structure ModuleRecord (EventId : Type) where
  manifestEvents : Option (List EventId)
  integrated : Bool := false
  state : ModuleLifecycleState := .registered
  listening : List EventId := []

/-- `EventReference`. -/
structure EventReference (EventId TriggerId : Type) where
  identifier : EventId
  triggerId : TriggerId

/-- `Trigger`: an event and the listeners that still owe it an answer. -/
structure EventTrigger (ModuleId EventId TriggerId : Type) where
  event : EventReference EventId TriggerId
  awaiting : Finset ModuleId

/-- `records_`, `events_` and `triggers_`. -/
structure ModuleTables (ModuleId EventId TriggerId : Type) where
  records : AList fun _ : ModuleId => ModuleRecord EventId
  events : AList fun _ : EventId => Finset ModuleId
  triggers : AList fun _ : TriggerId => EventTrigger ModuleId EventId TriggerId

variable [DecidableEq ModuleId] [DecidableEq EventId] [DecidableEq TriggerId]

namespace ModuleTables

variable (t : ModuleTables ModuleId EventId TriggerId)

def stateOf (m : ModuleId) : Option ModuleLifecycleState := (t.records.lookup m).map (·.state)

def listeners (ev : EventId) : Finset ModuleId := (t.events.lookup ev).getD ∅

def awaiting (tid : TriggerId) : Finset ModuleId :=
  ((t.triggers.lookup tid).map (·.awaiting)).getD ∅

/-! ## The lock sections -/

/-- `register_now`. -/
def registerNow (m : ModuleId) (manifestEvents : Option (List EventId)) (integrated : Bool) :
    Bool × ModuleTables ModuleId EventId TriggerId :=
  if (t.records.lookup m).isSome then (false, t)
  else (true, { t with records := t.records.insert m { manifestEvents, integrated } })

/-- `ListenEvent`; `known` is `IsKnownModuleEvent`. -/
def listenEvent (known : EventId → Bool) (m : ModuleId) (ev : EventId) :
    Bool × ModuleTables ModuleId EventId TriggerId :=
  if !known ev then (false, t)
  else
    match t.records.lookup m with
    | none => (false, t)
    | some rec =>
      if rec.state ≠ .activating ∧ rec.state ≠ .active then (false, t)
      else
        match rec.manifestEvents with
        | none => (false, t)
        | some declared =>
          if ev ∉ declared then (false, t)
          else if ev ∈ rec.listening then (true, t)
          else
            let listening := { rec with listening := rec.listening ++ [ev] }
            (true, { t with
              records := t.records.insert m listening
              events := t.events.insert ev (insert m (t.listeners ev)) })

/-- The first section of `TriggerEvent`: the active listeners, now awaited. -/
def triggerEvent (e : EventReference EventId TriggerId) :
    Finset ModuleId × ModuleTables ModuleId EventId TriggerId :=
  let targets := (t.listeners e.identifier).filter fun m => t.stateOf m = some .active
  if targets = ∅ then (∅, t)
  else
    (targets, { t with
      triggers := t.triggers.insert e.triggerId ⟨e, t.awaiting e.triggerId ∪ targets⟩ })

/-- `take_answer`: claims the answer that `m` owes; none when it owes none. -/
def takeAnswer (tid : TriggerId) (m : ModuleId) :
    Option (EventReference EventId TriggerId) × ModuleTables ModuleId EventId TriggerId :=
  match t.triggers.lookup tid with
  | none => (none, t)
  | some trigger =>
    if m ∉ trigger.awaiting then (none, t)
    else
      let left := trigger.awaiting.erase m
      (some trigger.event, { t with
        triggers :=
          if left = ∅ then t.triggers.erase tid
          else t.triggers.insert tid { trigger with awaiting := left } })

/-- One round of the loop of `drop_listeners_locked`. -/
def dropListener (m : ModuleId) (events : AList fun _ : EventId => Finset ModuleId) (ev : EventId) :
    AList fun _ : EventId => Finset ModuleId :=
  match events.lookup ev with
  | none => events
  | some listeners =>
    let left := listeners.erase m
    if left = ∅ then events.erase ev else events.insert ev left

/-- `drop_listeners_locked`, with the state that is set beside it. -/
def dropListeners (m : ModuleId) (rec : ModuleRecord EventId) (state : ModuleLifecycleState) :
    ModuleTables ModuleId EventId TriggerId :=
  let dropped := { rec with state := state, listening := [] }
  { t with
    records := t.records.insert m dropped
    events := rec.listening.foldl (dropListener m) t.events }

def setState (m : ModuleId) (rec : ModuleRecord EventId) (state : ModuleLifecycleState) :
    ModuleTables ModuleId EventId TriggerId :=
  let changed := { rec with state := state }
  { t with records := t.records.insert m changed }

/-- The first section of `activate_now`: what it returns at once, or none to go on. -/
def activateBegin (m : ModuleId) : Option Bool × ModuleTables ModuleId EventId TriggerId :=
  match t.records.lookup m with
  | none => (some false, t)
  | some rec =>
    match rec.state with
    | .active => (some true, t)
    | .activating | .deactivating => (some false, t)
    | _ => (none, t.setState m rec .activating)

/-- The section of `activate_now` after `Active()` has returned `rc`. -/
def activateEnd (m : ModuleId) (rc : Int) : Bool × ModuleTables ModuleId EventId TriggerId :=
  match t.records.lookup m with
  | none => (false, t)
  | some rec =>
    if rc = 0 then (true, t.setState m rec .active) else (false, t.dropListeners m rec .failed)

/-- The first section of `deactivate_now`: what it returns at once, or none to go on. -/
def deactivateBegin (m : ModuleId) : Option Bool × ModuleTables ModuleId EventId TriggerId :=
  match t.records.lookup m with
  | none => (some false, t)
  | some rec =>
    if rec.state ≠ .active then
      (some (rec.state ≠ .activating ∧ rec.state ≠ .deactivating), t)
    else (none, t.dropListeners m rec .deactivating)

/-- The section of `deactivate_now` after `Deactivate()` has returned. -/
def deactivateEnd (m : ModuleId) : ModuleTables ModuleId EventId TriggerId :=
  match t.records.lookup m with
  | none => t
  | some rec => t.setState m rec .inactive

/-- The section of `fail_awaiting`: the triggers that await `m`. -/
def owedBy (m : ModuleId) : List TriggerId :=
  t.triggers.keys.filter fun tid => m ∈ t.awaiting tid

/-! ## What a section does to what can be read -/

set_option linter.unusedSectionVars false

variable {t} {m m' : ModuleId} {ev : EventId} {tid tid' : TriggerId} {rec : ModuleRecord EventId}
  {state : ModuleLifecycleState}

theorem stateOf_eq_some : t.stateOf m = some state ↔
    ∃ rec, t.records.lookup m = some rec ∧ rec.state = state := by
  simp [stateOf]

theorem mem_awaiting : m ∈ t.awaiting tid ↔
    ∃ trigger, t.triggers.lookup tid = some trigger ∧ m ∈ trigger.awaiting := by
  cases h : t.triggers.lookup tid <;> simp [awaiting, h]

theorem stateOf_setState : (t.setState m rec state).stateOf m'
    = if m' = m then some state else t.stateOf m' := by
  rw [stateOf, setState, AList.lookup_insert_ite]
  split <;> rfl

theorem stateOf_dropListeners : (t.dropListeners m rec state).stateOf m'
    = if m' = m then some state else t.stateOf m' := by
  rw [stateOf, dropListeners, AList.lookup_insert_ite]
  split <;> rfl

/-- After the loop over the events, nothing of `m` is left in them. -/
theorem lookup_foldl_dropListener (evs : List EventId)
    (events : AList fun _ : EventId => Finset ModuleId) :
    ((evs.foldl (dropListener m) events).lookup ev).getD ∅
      = if ev ∈ evs then ((events.lookup ev).getD ∅).erase m else (events.lookup ev).getD ∅ := by
  have hone : ∀ (events : AList fun _ : EventId => Finset ModuleId) (d : EventId),
      ((dropListener m events d).lookup ev).getD ∅
        = if ev = d then ((events.lookup ev).getD ∅).erase m else (events.lookup ev).getD ∅ := by
    intro events d
    cases h : events.lookup d with
    | none =>
      simp only [dropListener, h]
      split
      · next heq =>
        rw [heq, h]
        simp
      · rfl
    | some listeners =>
      simp only [dropListener, h]
      by_cases hleft : listeners.erase m = ∅
      · rw [if_pos hleft, AList.lookup_erase_ite]
        split
        · next heq =>
          rw [heq, h]
          simp [hleft]
        · rfl
      · rw [if_neg hleft, AList.lookup_insert_ite]
        split
        · next heq =>
          rw [heq, h]
          simp
        · rfl
  induction evs generalizing events with
  | nil => simp
  | cons d evs ih =>
    rw [List.foldl_cons, ih, hone]
    by_cases hd : ev = d
    · by_cases hev : ev ∈ evs <;> simp [hd]
    · by_cases hev : ev ∈ evs <;> simp [hd, hev]

theorem listeners_dropListeners : (t.dropListeners m rec state).listeners ev
    = if ev ∈ rec.listening then (t.listeners ev).erase m else t.listeners ev :=
  lookup_foldl_dropListener rec.listening t.events

theorem mem_owedBy : tid ∈ t.owedBy m ↔ m ∈ t.awaiting tid := by
  rw [owedBy, List.mem_filter, decide_eq_true_eq]
  refine and_iff_right_of_imp fun h => ?_
  obtain ⟨trigger, hlookup, -⟩ := mem_awaiting.mp h
  exact AList.mem_keys.mpr (AList.lookup_isSome.mp (by simp [hlookup]))

/-- `TriggerEvent` adds the active listeners to those awaited. -/
theorem awaiting_triggerEvent (e : EventReference EventId TriggerId) :
    (t.triggerEvent e).2.awaiting tid
      = if tid = e.triggerId then t.awaiting tid ∪ (t.triggerEvent e).1 else t.awaiting tid := by
  rw [triggerEvent]
  split
  · split <;> simp
  · simp only [awaiting, AList.lookup_insert_ite]
    split
    · next heq =>
      rw [heq]
      rfl
    · rfl

theorem active_of_mem_targets {e : EventReference EventId TriggerId}
    (h : m ∈ (t.triggerEvent e).1) : t.stateOf m = some .active := by
  rw [triggerEvent] at h
  split at h
  · cases h
  · exact (Finset.mem_filter.mp h).2

@[simp] theorem stateOf_triggerEvent (e : EventReference EventId TriggerId) :
    (t.triggerEvent e).2.stateOf m = t.stateOf m := by
  rw [triggerEvent]
  split <;> rfl

/-- `take_answer` takes one listener off one trigger. -/
theorem awaiting_takeAnswer : (t.takeAnswer tid m).2.awaiting tid'
    = if tid' = tid then (t.awaiting tid).erase m else t.awaiting tid' := by
  cases h : t.triggers.lookup tid with
  | none =>
    have hnone : t.awaiting tid = ∅ := by simp [awaiting, h]
    simp only [takeAnswer, h]
    split
    · next heq => simp [heq, hnone]
    · rfl
  | some trigger =>
    have hsome : t.awaiting tid = trigger.awaiting := by simp [awaiting, h]
    simp only [takeAnswer, h, hsome]
    by_cases hm : m ∈ trigger.awaiting
    · simp only [hm, not_true_eq_false, if_false, awaiting]
      by_cases hleft : trigger.awaiting.erase m = ∅
      · rw [if_pos hleft, AList.lookup_erase_ite]
        split
        · simp [hleft]
        · rfl
      · rw [if_neg hleft, AList.lookup_insert_ite]
        split <;> rfl
    · simp only [hm, not_false_eq_true, if_true]
      split
      · next heq => rw [heq, hsome, Finset.erase_eq_of_notMem hm]
      · rfl

theorem takeAnswer_isSome : (t.takeAnswer tid m).1.isSome = true ↔ m ∈ t.awaiting tid := by
  cases h : t.triggers.lookup tid with
  | none => simp [takeAnswer, awaiting, h]
  | some trigger =>
    by_cases hm : m ∈ trigger.awaiting <;> simp [takeAnswer, awaiting, h, hm]

@[simp] theorem stateOf_takeAnswer : (t.takeAnswer tid m').2.stateOf m = t.stateOf m := by
  cases h : t.triggers.lookup tid with
  | none => simp [takeAnswer, h]
  | some trigger =>
    simp only [takeAnswer, h]
    split <;> rfl

/-- What `ListenEvent` checks where it subscribes. -/
theorem listenEvent_cases (known : EventId → Bool) (t : ModuleTables ModuleId EventId TriggerId)
    (m : ModuleId) (ev : EventId) :
    (t.listenEvent known m ev).2 = t ∨
    ∃ rec declared, t.records.lookup m = some rec ∧ known ev = true ∧
      (rec.state = .activating ∨ rec.state = .active) ∧ rec.manifestEvents = some declared ∧
      ev ∈ declared ∧ (t.listenEvent known m ev).2 = { t with
        records := t.records.insert m { rec with listening := rec.listening ++ [ev] }
        events := t.events.insert ev (insert m (t.listeners ev)) } := by
  by_cases hknown : known ev = true
  · cases hlookup : t.records.lookup m with
    | none => exact Or.inl (by simp [listenEvent, hlookup])
    | some rec =>
      by_cases hstate : rec.state ≠ .activating ∧ rec.state ≠ .active
      · exact Or.inl (by simp [listenEvent, hlookup, hstate])
      · cases hdeclared : rec.manifestEvents with
        | none => exact Or.inl (by simp [listenEvent, hlookup, hdeclared])
        | some declared =>
          by_cases hev : ev ∈ declared
          · by_cases hlistening : ev ∈ rec.listening
            · exact Or.inl (by simp [listenEvent, hknown, hlookup, hstate, hdeclared, hev, hlistening])
            · refine Or.inr ⟨rec, declared, rfl, hknown, by tauto, hdeclared, hev, ?_⟩
              simp only [listenEvent, hknown, hlookup, hstate, hdeclared, hev, hlistening,
                Bool.not_true, Bool.false_eq_true, if_false, not_true_eq_false]
          · exact Or.inl (by simp [listenEvent, hlookup, hdeclared, hev])
  · exact Or.inl (by simp [listenEvent, hknown])

theorem stateOf_listenEvent (known : EventId → Bool) :
    (t.listenEvent known m ev).2.stateOf m' = t.stateOf m' := by
  rcases listenEvent_cases known t m ev with h | ⟨rec, -, hlookup, -, -, -, -, h⟩
  · rw [h]
  · rw [h, stateOf, AList.lookup_insert_ite]
    split
    · next heq =>
      rw [heq, stateOf, hlookup]
      rfl
    · rfl

/-- `register_now` leaves the modules that have a record as they are. -/
theorem stateOf_registerNow (manifestEvents : Option (List EventId)) (integrated : Bool)
    (h : t.stateOf m' = some state) :
    (t.registerNow m manifestEvents integrated).2.stateOf m' = some state := by
  rw [registerNow]
  split
  · exact h
  · next hnew =>
    have hne : m' ≠ m := by
      rintro rfl
      obtain ⟨rec, hlookup, -⟩ := stateOf_eq_some.mp h
      exact hnew (by simp [hlookup])
    rw [stateOf, AList.lookup_insert_ne hne]
    exact h

theorem triggers_registerNow (manifestEvents : Option (List EventId)) (integrated : Bool) :
    (t.registerNow m manifestEvents integrated).2.triggers = t.triggers := by
  rw [registerNow]
  split <;> rfl

/-- Where `activate_now` goes on, the module was neither active nor on its way. -/
theorem activateBegin_none (h : (t.activateBegin m).1 = none) :
    t.stateOf m ≠ some .active ∧ t.stateOf m ≠ some .activating ∧ t.stateOf m ≠ some .deactivating ∧
      (∀ m', (t.activateBegin m).2.stateOf m' = if m' = m then some .activating else t.stateOf m') ∧
      (t.activateBegin m).2.triggers = t.triggers := by
  cases hlookup : t.records.lookup m with
  | none => simp [activateBegin, hlookup] at h
  | some rec =>
    simp only [stateOf, hlookup, Option.map_some]
    cases hstate : rec.state <;> simp [activateBegin, hlookup, hstate] at h ⊢
    all_goals exact ⟨fun m' => stateOf_setState, rfl⟩

theorem activateBegin_some {returned : Bool} (h : (t.activateBegin m).1 = some returned) :
    (t.activateBegin m).2 = t := by
  cases hlookup : t.records.lookup m with
  | none => simp [activateBegin, hlookup]
  | some rec => cases hstate : rec.state <;> simp [activateBegin, hlookup, hstate] at h ⊢

theorem stateOf_activateEnd (rc : Int) (h : t.stateOf m = some state) :
    (t.activateEnd m rc).2.stateOf m'
      = if m' = m then some (if rc = 0 then .active else .failed) else t.stateOf m' := by
  obtain ⟨rec, hlookup, -⟩ := stateOf_eq_some.mp h
  simp only [activateEnd, hlookup]
  by_cases hrc : rc = 0
  · rw [if_pos hrc, if_pos hrc]
    exact stateOf_setState
  · rw [if_neg hrc, if_neg hrc]
    exact stateOf_dropListeners

theorem triggers_activateEnd (rc : Int) : (t.activateEnd m rc).2.triggers = t.triggers := by
  rw [activateEnd]
  split
  · rfl
  · split <;> rfl

/-- Where `deactivate_now` goes on, the module was active. -/
theorem deactivateBegin_none (h : (t.deactivateBegin m).1 = none) :
    t.stateOf m = some .active ∧
      (∀ m', (t.deactivateBegin m).2.stateOf m'
        = if m' = m then some .deactivating else t.stateOf m') ∧
      (t.deactivateBegin m).2.triggers = t.triggers := by
  cases hlookup : t.records.lookup m with
  | none => simp [deactivateBegin, hlookup] at h
  | some rec =>
    by_cases hstate : rec.state = .active
    · simp only [deactivateBegin, hlookup, hstate, ne_eq, not_true_eq_false, if_false, stateOf,
        Option.map_some, true_and]
      exact ⟨fun m' => stateOf_dropListeners, rfl⟩
    · simp [deactivateBegin, hlookup, hstate] at h

/-- Where it returns at once, it changes nothing; it says true of a module that is at rest. -/
theorem deactivateBegin_some {returned : Bool} (h : (t.deactivateBegin m).1 = some returned) :
    (t.deactivateBegin m).2 = t ∧ (returned = true → t.stateOf m ≠ some .active ∧
      t.stateOf m ≠ some .deactivating) := by
  cases hlookup : t.records.lookup m with
  | none =>
    refine ⟨by simp [deactivateBegin, hlookup], fun _ => ?_⟩
    simp [stateOf, hlookup]
  | some rec =>
    by_cases hstate : rec.state = .active
    · simp [deactivateBegin, hlookup, hstate] at h
    · refine ⟨by simp [deactivateBegin, hlookup, hstate], fun hreturned => ?_⟩
      subst hreturned
      simp only [deactivateBegin, hlookup, ne_eq, hstate, not_false_eq_true, if_true,
        Option.some.injEq, decide_eq_true_eq] at h
      simp [stateOf, hlookup, hstate, h.2]

theorem stateOf_deactivateEnd (h : t.stateOf m = some state) :
    (t.deactivateEnd m).stateOf m' = if m' = m then some .inactive else t.stateOf m' := by
  obtain ⟨rec, hlookup, -⟩ := stateOf_eq_some.mp h
  simp only [deactivateEnd, hlookup]
  exact stateOf_setState

theorem triggers_deactivateEnd : (t.deactivateEnd m).triggers = t.triggers := by
  rw [deactivateEnd]
  split <;> rfl

theorem awaiting_of_triggers {t' : ModuleTables ModuleId EventId TriggerId}
    (h : t'.triggers = t.triggers) : t'.awaiting tid = t.awaiting tid := by
  rw [awaiting, h, awaiting]

theorem awaiting_listenEvent (known : EventId → Bool) :
    (t.listenEvent known m ev).2.awaiting tid = t.awaiting tid := by
  rcases listenEvent_cases known t m ev with h | ⟨rec, -, -, -, -, -, -, h⟩
  · rw [h]
  · rw [h]
    rfl

end ModuleTables

end

end GpgFrontend
