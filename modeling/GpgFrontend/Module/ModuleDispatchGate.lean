import Mathlib.Algebra.BigOperators.Group.Finset.Piecewise
import Mathlib.Algebra.Order.BigOperators.Group.Finset

/-!
# Module dispatch gates

A gate counts the calls that are inside module code. A thread that unloads a module closes
its gate and waits until no other thread is inside; what the waiting thread holds itself
(`HeldByThisThread`) is discounted.

- `inside log t g`: how many calls of `t` are inside `g`, from the log alone.
-/

namespace GpgFrontend

/-! ## A count made of shares -/

/-- `n` is the sum of what everyone holds; only finitely many hold anything. -/
def SumsTo {α : Type} (f : α → Int) (n : Int) : Prop :=
  ∃ S : Finset α, (∀ a ∉ S, f a = 0) ∧ n = ∑ a ∈ S, f a

namespace SumsTo

variable {α : Type} {f : α → Int} {n : Int}

theorem zero : SumsTo (fun _ : α => 0) 0 := ⟨∅, fun _ _ => rfl, rfl⟩

/-- When one share changes, the count changes by as much. -/
theorem update [DecidableEq α] (h : SumsTo f n) (a : α) (v : Int) :
    SumsTo (Function.update f a v) (n + (v - f a)) := by
  obtain ⟨S, hout, hsum⟩ := h
  refine ⟨insert a S, fun b hb => ?_, ?_⟩
  · rw [Finset.mem_insert, not_or] at hb
    rw [Function.update_of_ne hb.1]
    exact hout b hb.2
  · have hinsert : ∑ b ∈ insert a S, f b = n := by
      rw [hsum]
      refine (Finset.sum_subset (Finset.subset_insert a S) fun b _ hb => hout b hb).symm
    rw [Finset.sum_update_of_mem (Finset.mem_insert_self a S)]
    have hsplit := Finset.add_sum_erase (insert a S) f (Finset.mem_insert_self a S)
    rw [Finset.sdiff_singleton_eq_erase]
    omega

theorem le (h : SumsTo f n) (hf : ∀ a, 0 ≤ f a) (a : α) : f a ≤ n := by
  obtain ⟨S, hout, hsum⟩ := h
  by_cases ha : a ∈ S
  · rw [hsum]
    exact Finset.single_le_sum (fun b _ => hf b) ha
  · rw [hout a ha, hsum]
    exact Finset.sum_nonneg fun b _ => hf b

/-- One share is the whole count: the others are empty. -/
theorem eq_zero_of_le (h : SumsTo f n) (hf : ∀ a, 0 ≤ f a) {a b : α} (hle : n ≤ f a)
    (hb : b ≠ a) : f b = 0 := by
  classical
  have hrest := (h.update a 0).le (fun c => ?_) b
  · rw [Function.update_of_ne hb] at hrest
    have := hf b
    omega
  · by_cases hc : c = a
    · rw [hc, Function.update_self]
    · rw [Function.update_of_ne hc]
      exact hf c

/-- There is more than one share: someone else holds something. -/
theorem exists_of_lt (h : SumsTo f n) {a : α} (hlt : f a < n) (hf : ∀ a, 0 ≤ f a) :
    ∃ b, b ≠ a ∧ 0 < f b := by
  classical
  by_contra hnone
  push Not at hnone
  obtain ⟨S, hout, hsum⟩ := h.update a 0
  have hzero : ∑ b ∈ S, Function.update f a 0 b = 0 := by
    refine Finset.sum_eq_zero fun b _ => ?_
    by_cases hb : b = a
    · rw [hb, Function.update_self]
    · rw [Function.update_of_ne hb]
      exact le_antisymm (hnone b hb) (hf b)
  omega

end SumsTo

/-! ## The gates -/

variable {Gate Thread : Type}

/-- `in_flight_` and `closed_`. -/
structure ModuleDispatchGate where
  inFlight : Int := 0
  closed : Bool := false
  deriving Repr, DecidableEq

/-- The gates, `HeldByThisThread` of each thread, and for a thread asleep in
`WaitQuiescent` the gate and its `own`. -/
structure DispatchGates (Gate Thread : Type) where
  gate : Gate → ModuleDispatchGate
  held : Thread → Gate → Int
  waiting : Thread → Option (Gate × Int)

namespace DispatchGates

variable [DecidableEq Gate] [DecidableEq Thread] (s : DispatchGates Gate Thread) (t : Thread)
  (g : Gate)

/-- Nobody inside, every gate open. -/
def start : DispatchGates Gate Thread where
  gate := fun _ => {}
  held := fun _ _ => 0
  waiting := fun _ => none

def setGate (r : ModuleDispatchGate) : DispatchGates Gate Thread :=
  { s with gate := Function.update s.gate g r }

def setHeld (n : Int) : DispatchGates Gate Thread :=
  { s with held := Function.update s.held t (Function.update (s.held t) g n) }

def setWaiting (w : Option (Gate × Int)) : DispatchGates Gate Thread :=
  { s with waiting := Function.update s.waiting t w }

/-- `TryEnter`. -/
def tryEnter : Bool × DispatchGates Gate Thread :=
  if (s.gate g).closed then (false, s)
  else
    (true, (s.setGate g { s.gate g with inFlight := (s.gate g).inFlight + 1 }).setHeld t g
      (s.held t g + 1))

/-- `Leave`. A count that is no longer positive is taken out of the thread's table, which
then reads it as zero. -/
def leave : DispatchGates Gate Thread :=
  let inFlight := (s.gate g).inFlight
  let left := { s.gate g with inFlight := if inFlight > 0 then inFlight - 1 else inFlight }
  (s.setGate g left).setHeld t g (if s.held t g - 1 ≤ 0 then 0 else s.held t g - 1)

/-- `Close`. -/
def close : DispatchGates Gate Thread := s.setGate g { s.gate g with closed := true }

/-- `Open`. -/
def reopen : DispatchGates Gate Thread := s.setGate g { s.gate g with closed := false }

/-- The head of the loop of `WaitQuiescent`: it returns, or it sleeps on the condition
variable, with the mutex released. -/
def waitTest (own : Int) (expired : Bool) : Option Bool :=
  if (s.gate g).inFlight - own > 0 then if expired then some false else none else some true

end DispatchGates

/-- What a section did. -/
inductive GateEvent (Gate Thread : Type) where
  | entered (t : Thread) (g : Gate)
  | refused (t : Thread) (g : Gate)
  | left (t : Thread) (g : Gate)
  | closed (t : Thread) (g : Gate)
  | opened (t : Thread) (g : Gate)
  | slept (t : Thread) (g : Gate)
  | quiet (t : Thread) (g : Gate)
  | timedOut (t : Thread) (g : Gate)
  deriving Repr, DecidableEq

/-- What the head of the waiting loop did. -/
def GateEvent.ofWait (t : Thread) (g : Gate) : Option Bool → GateEvent Gate Thread
  | some true => .quiet t g
  | some false => .timedOut t g
  | none => .slept t g

section

variable [DecidableEq Gate] [DecidableEq Thread]

/-- The calls of `t` that are inside `g`: those that entered and have not left. -/
def inside (log : List (GateEvent Gate Thread)) (t : Thread) (g : Gate) : Int :=
  log.count (.entered t g) - log.count (.left t g)

open DispatchGates GateEvent

/-- One section. A thread asleep in `WaitQuiescent` does nothing but wake there, as often
as it likes: `quiet_.wait` may return spuriously. `Leave` balances a `TryEnter` of the same
thread that succeeded; the scope object that calls it holds one. -/
inductive GateStep (log : List (GateEvent Gate Thread)) (s : DispatchGates Gate Thread) :
    GateEvent Gate Thread → DispatchGates Gate Thread → Prop where
  | enters {t g} : s.waiting t = none → (s.tryEnter t g).1 = true →
      GateStep log s (entered t g) (s.tryEnter t g).2
  | isRefused {t g} : s.waiting t = none → (s.tryEnter t g).1 = false →
      GateStep log s (refused t g) (s.tryEnter t g).2
  | leaves {t g} : s.waiting t = none → 0 < inside log t g →
      GateStep log s (left t g) (s.leave t g)
  | closes {t g} : s.waiting t = none → GateStep log s (closed t g) (s.close g)
  | opens {t g} : s.waiting t = none → GateStep log s (opened t g) (s.reopen g)
  | waits {t g} (expired : Bool) : s.waiting t = none →
      GateStep log s (ofWait t g (s.waitTest g (s.held t g) expired))
        (s.setWaiting t (if (s.waitTest g (s.held t g) expired).isNone then
          some (g, s.held t g) else none))
  | wakes {t g own} (expired : Bool) : s.waiting t = some (g, own) →
      GateStep log s (ofWait t g (s.waitTest g own expired))
        (s.setWaiting t (if (s.waitTest g own expired).isNone then some (g, own) else none))

/-- The runs from fresh gates: any threads, any order of sections. -/
inductive GateRun : List (GateEvent Gate Thread) → DispatchGates Gate Thread → Prop where
  | start : GateRun [] .start
  | next {log s e s'} : GateRun log s → GateStep log s e s' → GateRun (log ++ [e]) s'

/-! ## What one section does -/

namespace DispatchGates

variable (s : DispatchGates Gate Thread) (t : Thread) (g : Gate)

/-- Both counters of `g` moved by the same amount. -/
def shift (d : Int) : DispatchGates Gate Thread :=
  (s.setGate g { s.gate g with inFlight := (s.gate g).inFlight + d }).setHeld t g (s.held t g + d)

theorem shift_gate (d : Int) (h : Gate) :
    (s.shift t g d).gate h =
      { s.gate h with inFlight := (s.gate h).inFlight + if h = g then d else 0 } := by
  by_cases hh : h = g
  · subst hh
    simp [shift, setGate, setHeld]
  · simp [shift, setGate, setHeld, hh]

theorem shift_held (d : Int) (u : Thread) (h : Gate) :
    (s.shift t g d).held u h = s.held u h + if u = t ∧ h = g then d else 0 := by
  by_cases hu : u = t
  · subst hu
    by_cases hh : h = g
    · subst hh
      simp [shift, setGate, setHeld]
    · simp [shift, setGate, setHeld, hh]
  · simp [shift, setGate, setHeld, hu]

@[simp] theorem shift_waiting (d : Int) : (s.shift t g d).waiting = s.waiting := rfl

omit [DecidableEq Gate] in
theorem setWaiting_waiting (w : Option (Gate × Int)) (u : Thread) :
    (s.setWaiting t w).waiting u = if u = t then w else s.waiting u :=
  Function.update_apply ..

theorem tryEnter_eq (h : (s.tryEnter t g).1 = true) :
    (s.gate g).closed = false ∧ (s.tryEnter t g).2 = s.shift t g 1 := by
  by_cases hclosed : (s.gate g).closed = true
  · simp [tryEnter, hclosed] at h
  · simp [tryEnter, hclosed, shift]

theorem tryEnter_refused (h : (s.tryEnter t g).1 = false) :
    (s.gate g).closed = true ∧ (s.tryEnter t g).2 = s := by
  by_cases hclosed : (s.gate g).closed = true
  · simp [tryEnter, hclosed]
  · simp [tryEnter, hclosed] at h

/-- Where the thread is inside and counted, `Leave` takes one off both counters. -/
theorem leave_eq (hheld : 0 < s.held t g) (hflight : 0 < (s.gate g).inFlight) :
    s.leave t g = s.shift t g (-1) := by
  have hcount : (if s.held t g - 1 ≤ 0 then 0 else s.held t g - 1) = s.held t g + -1 := by
    split <;> omega
  simp only [leave, shift, hcount, if_pos hflight]
  rfl

omit [DecidableEq Gate] [DecidableEq Thread] in
theorem waitTest_eq_true_iff {own : Int} {expired : Bool} :
    s.waitTest g own expired = some true ↔ (s.gate g).inFlight ≤ own := by
  by_cases h : (s.gate g).inFlight - own > 0
  · simp only [waitTest, if_pos h]
    cases expired <;> simp <;> omega
  · simp only [waitTest, if_neg h, true_iff]
    omega

end DispatchGates

/-- What an event adds to the calls of `t` inside `g`. -/
def GateEvent.change (t : Thread) (g : Gate) : GateEvent Gate Thread → Int
  | .entered u h => if t = u ∧ g = h then 1 else 0
  | .left u h => if t = u ∧ g = h then -1 else 0
  | _ => 0

theorem inside_snoc (log : List (GateEvent Gate Thread)) (e : GateEvent Gate Thread) (t : Thread)
    (g : Gate) : inside (log ++ [e]) t g = inside log t g + e.change t g := by
  cases e with
  | entered u h =>
    by_cases heq : t = u ∧ g = h
    · obtain ⟨rfl, rfl⟩ := heq
      simp [inside, GateEvent.change]
      omega
    · have hne : ¬(u = t ∧ h = g) := fun hc => heq ⟨hc.1.symm, hc.2.symm⟩
      simp [inside, GateEvent.change, heq, hne]
  | left u h =>
    by_cases heq : t = u ∧ g = h
    · obtain ⟨rfl, rfl⟩ := heq
      simp [inside, GateEvent.change]
      omega
    · have hne : ¬(u = t ∧ h = g) := fun hc => heq ⟨hc.1.symm, hc.2.symm⟩
      simp [inside, GateEvent.change, heq, hne]
  | _ => simp [inside, GateEvent.change]

@[simp] theorem ofWait_change (t u : Thread) (g h : Gate) (r : Option Bool) :
    (GateEvent.ofWait u h r).change t g = 0 := by
  cases r with
  | none => rfl
  | some b => cases b <;> rfl

/-! ## The invariant -/

/-- The counters are what the log says, the in-flight count is the sum of the held counts,
and a waiting thread's `own` is what it holds. -/
structure GateInv (log : List (GateEvent Gate Thread)) (s : DispatchGates Gate Thread) : Prop where
  held_eq : ∀ t g, s.held t g = inside log t g
  nonneg : ∀ t g, 0 ≤ inside log t g
  counts : ∀ g, SumsTo (fun t => s.held t g) (s.gate g).inFlight
  own_eq : ∀ t g own, s.waiting t = some (g, own) → own = s.held t g

namespace GateInv

variable {log : List (GateEvent Gate Thread)} {s : DispatchGates Gate Thread} {t : Thread}
  {g : Gate}

theorem held_nonneg (h : GateInv log s) (u : Thread) : 0 ≤ s.held u g := by
  rw [h.held_eq]
  exact h.nonneg u g

variable {e : GateEvent Gate Thread}

/-- A section that moves no counter. Any wait it starts is the thread's own. -/
theorem of_frame (h : GateInv log s) {s' : DispatchGates Gate Thread} (he : ∀ t g, e.change t g = 0)
    (hheld : s'.held = s.held) (hgate : ∀ g, (s'.gate g).inFlight = (s.gate g).inFlight)
    (hown : ∀ t g own, s'.waiting t = some (g, own) → own = s.held t g) :
    GateInv (log ++ [e]) s' where
  held_eq t g := by rw [hheld, inside_snoc, he, h.held_eq, add_zero]
  nonneg t g := by
    rw [inside_snoc, he, add_zero]
    exact h.nonneg t g
  counts g := by
    rw [hgate, hheld]
    exact h.counts g
  own_eq t g own hw := by
    rw [hheld]
    exact hown t g own hw

/-- A section that moves both counters of a thread that is not asleep. -/
theorem shift (h : GateInv log s) {d : Int} (hw : s.waiting t = none)
    (he : ∀ u f, e.change u f = if u = t ∧ f = g then d else 0) (hd : 0 ≤ inside log t g + d) :
    GateInv (log ++ [e]) (s.shift t g d) where
  held_eq u f := by rw [DispatchGates.shift_held, inside_snoc, he, h.held_eq]
  nonneg u f := by
    rw [inside_snoc, he]
    by_cases heq : u = t ∧ f = g
    · obtain ⟨rfl, rfl⟩ := heq
      simpa using hd
    · simpa [heq] using h.nonneg u f
  counts f := by
    rw [DispatchGates.shift_gate]
    by_cases hf : f = g
    · subst hf
      have hupdate := (h.counts f).update t (s.held t f + d)
      have hheld : (fun u => (s.shift t f d).held u f)
          = Function.update (fun u => s.held u f) t (s.held t f + d) := by
        funext u
        by_cases hu : u = t
        · subst hu
          simp [DispatchGates.shift_held]
        · simp [DispatchGates.shift_held, hu]
      rw [hheld]
      simpa using hupdate
    · have hheld : (fun u => (s.shift t g d).held u f) = fun u => s.held u f := by
        funext u
        simp [DispatchGates.shift_held, hf]
      rw [hheld]
      simpa [hf] using h.counts f
  own_eq u f own hu := by
    -- the thread that moves its count is not asleep
    have hne : u ≠ t := by
      rintro rfl
      rw [DispatchGates.shift_waiting, hw] at hu
      cases hu
    rw [DispatchGates.shift_held, if_neg fun hc => hne hc.1, add_zero]
    exact h.own_eq u f own hu

theorem setWaiting (h : GateInv log s) {own : Int} (r : Option Bool) (hown : own = s.held t g) :
    GateInv (log ++ [.ofWait t g r]) (s.setWaiting t (if r.isNone then some (g, own) else none)) := by
  refine h.of_frame (fun _ _ => ofWait_change ..) rfl (fun _ => rfl) fun u f o hu => ?_
  rw [DispatchGates.setWaiting_waiting] at hu
  by_cases hut : u = t
  · subst hut
    cases r with
    | none =>
      obtain ⟨rfl, rfl⟩ : g = f ∧ own = o := by simpa using hu
      exact hown
    | some b => simp at hu
  · rw [if_neg hut] at hu
    exact h.own_eq u f o hu

/-- **Every section keeps the invariant.** -/
theorem step {s' : DispatchGates Gate Thread} (h : GateInv log s) (hstep : GateStep log s e s') :
    GateInv (log ++ [e]) s' := by
  cases hstep with
  | @enters t g hw hin =>
    rw [(s.tryEnter_eq t g hin).2]
    have := h.nonneg t g
    exact h.shift hw (fun _ _ => rfl) (by omega)
  | @isRefused t g hw hno =>
    rw [(s.tryEnter_refused t g hno).2]
    exact h.of_frame (fun _ _ => rfl) rfl (fun _ => rfl) h.own_eq
  | @leaves t g hw hin =>
    have hheld : 0 < s.held t g := by rwa [h.held_eq]
    have hflight : 0 < (s.gate g).inFlight :=
      lt_of_lt_of_le hheld ((h.counts g).le (fun u => h.held_nonneg u) t)
    rw [s.leave_eq t g hheld hflight]
    exact h.shift hw (fun _ _ => rfl) (by omega)
  | @closes t g hw =>
    refine h.of_frame (fun _ _ => rfl) rfl (fun f => ?_) h.own_eq
    by_cases hf : f = g
    · subst hf
      simp [DispatchGates.close, DispatchGates.setGate]
    · simp [DispatchGates.close, DispatchGates.setGate, hf]
  | @opens t g hw =>
    refine h.of_frame (fun _ _ => rfl) rfl (fun f => ?_) h.own_eq
    by_cases hf : f = g
    · subst hf
      simp [DispatchGates.reopen, DispatchGates.setGate]
    · simp [DispatchGates.reopen, DispatchGates.setGate, hf]
  | @waits t g expired hw => exact h.setWaiting _ rfl
  | @wakes t g own expired hw => exact h.setWaiting _ (h.own_eq t g own hw)

end GateInv

theorem GateRun.inv {log : List (GateEvent Gate Thread)} {s : DispatchGates Gate Thread}
    (h : GateRun log s) : GateInv log s := by
  induction h with
  | start =>
    exact ⟨fun _ _ => rfl, fun _ _ => le_refl _, fun _ => SumsTo.zero,
      fun _ _ _ hw => by cases hw⟩
  | next _ hstep ih => exact ih.step hstep

/-! ## Moments of a run -/

/-- The last section of a run. -/
theorem GateRun.last {log : List (GateEvent Gate Thread)} {e : GateEvent Gate Thread}
    {s' : DispatchGates Gate Thread} (h : GateRun (log ++ [e]) s') :
    ∃ s, GateRun log s ∧ GateStep log s e s' := by
  generalize hl : log ++ [e] = l at h
  cases h with
  | start => simp at hl
  | @next log' s e' _ hrun hstep =>
    obtain ⟨rfl, rfl⟩ : log = log' ∧ e = e' := by simpa using List.append_inj' hl rfl
    exact ⟨s, hrun, hstep⟩

variable {pre post : List (GateEvent Gate Thread)}

/-- A run up to one of its sections. -/
theorem GateRun.upTo {s : DispatchGates Gate Thread} (h : GateRun (pre ++ post) s) :
    ∃ s₀, GateRun pre s₀ := by
  induction post using List.reverseRecOn generalizing s with
  | nil => exact ⟨s, by simpa using h⟩
  | append_singleton post e ih =>
    rw [← List.append_assoc] at h
    obtain ⟨s₁, hrun, -⟩ := h.last
    exact ih hrun

/-- The section of a run that did `e`. -/
theorem GateRun.at {e : GateEvent Gate Thread} {s : DispatchGates Gate Thread}
    (h : GateRun (pre ++ e :: post) s) : ∃ s₀ s₁, GateRun pre s₀ ∧ GateStep pre s₀ e s₁ := by
  have hsplit : GateRun ((pre ++ [e]) ++ post) s := by rwa [List.append_assoc]
  obtain ⟨s₁, hrun⟩ := hsplit.upTo
  obtain ⟨s₀, hpre, hstep⟩ := hrun.last
  exact ⟨s₀, s₁, hpre, hstep⟩

namespace GateStep

variable {log : List (GateEvent Gate Thread)} {s s' : DispatchGates Gate Thread} {t : Thread}
  {g : Gate}

theorem open_of_entered (h : GateStep log s (.entered t g) s') : (s.gate g).closed = false := by
  generalize he : GateEvent.entered t g = e at h
  cases h with
  | enters _ hin =>
    obtain ⟨rfl, rfl⟩ : t = _ ∧ g = _ := by simpa using he
    exact (s.tryEnter_eq t g hin).1
  | waits expired | wakes expired =>
    revert he
    generalize s.waitTest _ _ expired = r
    rcases r with _ | _ | _ <;> simp [GateEvent.ofWait]
  | _ => cases he

theorem closed_of_closed (h : GateStep log s (.closed t g) s') : (s'.gate g).closed = true := by
  generalize he : GateEvent.closed t g = e at h
  cases h with
  | closes _ =>
    obtain ⟨rfl, rfl⟩ : t = _ ∧ g = _ := by simpa using he
    simp [DispatchGates.close, DispatchGates.setGate]
  | waits expired | wakes expired =>
    revert he
    generalize s.waitTest _ _ expired = r
    rcases r with _ | _ | _ <;> simp [GateEvent.ofWait]
  | _ => cases he

/-- Only `Open` opens a gate. -/
theorem closed_stays {e : GateEvent Gate Thread} (h : GateStep log s e s')
    (hclosed : (s.gate g).closed = true) (he : ∀ v, e ≠ .opened v g) :
    (s'.gate g).closed = true := by
  cases h with
  | @enters u f _ hin =>
    rw [(s.tryEnter_eq u f hin).2, DispatchGates.shift_gate]
    exact hclosed
  | @isRefused u f _ hno =>
    rw [(s.tryEnter_refused u f hno).2]
    exact hclosed
  | @leaves u f =>
    by_cases hf : g = f
    · subst hf
      simpa [DispatchGates.leave, DispatchGates.setHeld, DispatchGates.setGate] using hclosed
    · simpa [DispatchGates.leave, DispatchGates.setHeld, DispatchGates.setGate, hf] using hclosed
  | @closes u f =>
    by_cases hf : g = f
    · subst hf
      simp [DispatchGates.close, DispatchGates.setGate]
    · simpa [DispatchGates.close, DispatchGates.setGate, hf] using hclosed
  | @opens u f =>
    have hf : g ≠ f := by
      rintro rfl
      exact he u rfl
    simpa [DispatchGates.reopen, DispatchGates.setGate, hf] using hclosed
  | waits | wakes => exact hclosed

/-- Where the waiting loop looks at the gate: `own` is what the thread holds now. -/
theorem waitTest_of_ofWait {r : Option Bool} (hinv : GateInv log s)
    (h : GateStep log s (.ofWait t g r) s') :
    ∃ expired, s.waitTest g (s.held t g) expired = r := by
  have hofWait : ∀ {u f r'}, GateEvent.ofWait t g r = GateEvent.ofWait u f r' →
      t = u ∧ g = f ∧ r = r' := by
    intro u f r' heq
    rcases r with _ | _ | _ <;> rcases r' with _ | _ | _ <;> simp_all [GateEvent.ofWait]
  generalize he : GateEvent.ofWait t g r = e at h
  cases h with
  | @waits u f expired _ =>
    obtain ⟨rfl, rfl, rfl⟩ := hofWait he
    exact ⟨expired, rfl⟩
  | @wakes u f own expired hw =>
    obtain ⟨rfl, rfl, rfl⟩ := hofWait he
    exact ⟨expired, by rw [← hinv.own_eq t g own hw]⟩
  | _ => rcases r with _ | _ | _ <;> cases he

end GateStep

theorem GateRun.closed_since {mid : List (GateEvent Gate Thread)} {s : DispatchGates Gate Thread}
    {u : Thread} {g : Gate} (h : GateRun (pre ++ .closed u g :: mid) s)
    (hmid : ∀ v, .opened v g ∉ mid) : (s.gate g).closed = true := by
  -- from the `Close` on, section by section
  induction mid using List.reverseRecOn generalizing s with
  | nil =>
    obtain ⟨s₀, -, hstep⟩ := h.last
    exact hstep.closed_of_closed
  | append_singleton mid e ih =>
    rw [← List.cons_append, ← List.append_assoc] at h
    obtain ⟨s₀, hrun, hstep⟩ := h.last
    have hclosed := ih hrun fun v hv => hmid v (List.mem_append_left _ hv)
    refine hstep.closed_stays hclosed fun v hv => hmid v ?_
    rw [hv]
    exact List.mem_append_right _ (List.mem_singleton_self _)

/-- **Quiescence of a module dispatch gate.** In every run of any threads over any gates:
the in-flight count is the sum of what the threads hold, and each holds what it entered
and did not leave; nothing enters between a `Close` and the next `Open`; and when
`WaitQuiescent` returns true, no other thread is inside. -/
theorem dispatch_gate_quiescence {log : List (GateEvent Gate Thread)}
    {s : DispatchGates Gate Thread} (h : GateRun log s) (g : Gate) :
    (SumsTo (fun t => s.held t g) (s.gate g).inFlight ∧ ∀ t, s.held t g = inside log t g) ∧
    (∀ pre mid post u t, log = pre ++ .closed u g :: mid ++ .entered t g :: post →
      ∃ v, .opened v g ∈ mid) ∧
    (∀ pre post t, log = pre ++ .quiet t g :: post → ∀ u, u ≠ t → inside pre u g = 0) := by
  refine ⟨⟨h.inv.counts g, fun t => h.inv.held_eq t g⟩, ?_, ?_⟩
  · rintro pre mid post u t rfl
    obtain ⟨s₀, s₁, hrun, hstep⟩ := h.at
    by_contra hnone
    push Not at hnone
    have hclosed := hrun.closed_since hnone
    rw [hstep.open_of_entered] at hclosed
    cases hclosed
  · rintro pre post t rfl u hu
    obtain ⟨s₀, s₁, hrun, hstep⟩ := h.at
    have hinv := hrun.inv
    obtain ⟨expired, htest⟩ := GateStep.waitTest_of_ofWait (r := some true) hinv hstep
    rw [DispatchGates.waitTest_eq_true_iff] at htest
    rw [← hinv.held_eq u g]
    exact (hinv.counts g).eq_zero_of_le (fun v => hinv.held_nonneg v) htest hu

/-- Two nested calls of thread 0 are inside when it closes the gate and waits; thread 1 is
refused, and the wait does not count thread 0's own calls. -/
theorem dispatch_gate_quiescence_nested :
    ∃ (log : List (GateEvent Unit (Fin 2))) (s : DispatchGates Unit (Fin 2)),
      GateRun log s ∧ .quiet 0 () ∈ log ∧ (s.gate ()).inFlight = 2 ∧
      (∀ pre post t, log = pre ++ .quiet t () :: post → ∀ u, u ≠ t → inside pre u () = 0) := by
  have hstart : GateRun [] (DispatchGates.start : DispatchGates Unit (Fin 2)) := .start
  have hrun := (((hstart.next
    (.enters (t := 0) (g := ()) rfl rfl)).next (.enters (t := 0) (g := ()) rfl rfl)).next
    (.closes (t := 0) (g := ()) rfl)).next (.isRefused (t := 1) (g := ()) rfl rfl)
  have hquiet := hrun.next (.waits (t := 0) (g := ()) false rfl)
  exact ⟨_, _, hquiet, List.mem_append_right _ (List.mem_singleton_self _), rfl,
    (dispatch_gate_quiescence hquiet ()).2.2⟩

/-- `WaitQuiescent` goes to sleep or gives up only while some other thread is inside. -/
theorem wait_only_for_others {log : List (GateEvent Gate Thread)} {s : DispatchGates Gate Thread}
    (h : GateRun log s) {t : Thread} {g : Gate}
    (hlog : log = pre ++ .slept t g :: post ∨ log = pre ++ .timedOut t g :: post) :
    ∃ u, u ≠ t ∧ 0 < inside pre u g := by
  obtain ⟨r, hr, rfl⟩ : ∃ r, r ≠ some true ∧ log = pre ++ .ofWait t g r :: post := by
    rcases hlog with hlog | hlog
    · exact ⟨none, by simp, hlog⟩
    · exact ⟨some false, by simp, hlog⟩
  obtain ⟨s₀, s₁, hrun, hstep⟩ := h.at
  have hinv := hrun.inv
  obtain ⟨expired, htest⟩ := hstep.waitTest_of_ofWait hinv
  have hlt : s₀.held t g < (s₀.gate g).inFlight := by
    by_contra hle
    rw [(s₀.waitTest_eq_true_iff g).mpr (not_lt.mp hle)] at htest
    exact hr htest.symm
  obtain ⟨u, hu, hpos⟩ := (hinv.counts g).exists_of_lt hlt fun v => hinv.held_nonneg v
  exact ⟨u, hu, by rwa [← hinv.held_eq u g]⟩

/-- Thread 0 waits for thread 1. -/
theorem wait_only_for_others_one :
    ∃ u : Fin 2, u ≠ 0 ∧ 0 < inside [GateEvent.entered (1 : Fin 2) ()] u () := by
  have hstart : GateRun [] (DispatchGates.start : DispatchGates Unit (Fin 2)) := .start
  have hrun := (hstart.next (.enters (t := 1) (g := ()) rfl rfl)).next
    (.waits (t := 0) (g := ()) false rfl)
  exact wait_only_for_others hrun (.inl rfl)

end

end GpgFrontend
