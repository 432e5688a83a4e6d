import GpgFrontend.UI.CodecStage
import Mathlib.Data.List.Nodup

/-!
# A codec stage has exactly one outcome

- `Bounded`: the attempt number tells the calls apart, and nothing was processed for a number
  that is not given out yet.
- `Phase`: a stage is queued, waits for the last call it made, or has ended. In the second case
  every earlier call was passed over; in the third `done` was called, once, with the result.
- `inv_nextFrom`, `inv_step`, `inv_of_reachable`: `Next`, every step, and every run keep both.
-/

namespace GpgFrontend.CodecStage

variable {ρ : Type} {env : Env ρ}

/-! ### Verdicts as the record grows -/

theorem judge_ne_waiting (id : String) (r : RawAnswer ρ) : judge env id r ≠ .waiting := by
  unfold judge
  split <;> simp

variable {seen : List (Nat × Seen ρ)} {c : Call}

theorem verdict_fresh {a : Nat} (hseen : ∀ e ∈ seen, e.1 ≤ a) (ha : a < c.attempt) :
    verdict env seen c = if c.accepted then .waiting else .passed := by
  have hnone : seen.find? (·.1 = c.attempt) = none := by
    rw [List.find?_eq_none]
    intro e he
    have := hseen e he
    simp only [decide_eq_true_eq]
    omega
  simp only [verdict, hnone]

/-- A verdict stands: what is processed later does not change it. -/
theorem verdict_append (l : List (Nat × Seen ρ)) (h : verdict env seen c ≠ .waiting) :
    verdict env (seen ++ l) c = verdict env seen c := by
  unfold verdict at h ⊢
  cases hc : c.accepted with
  | false => simp
  | true =>
    rw [List.find?_append]
    cases hfind : seen.find? (·.1 = c.attempt) with
    | none => simp [hc, hfind] at h
    | some e => rfl

theorem verdict_append_other {e : Nat × Seen ρ} (he : e.1 ≠ c.attempt) :
    verdict env (seen ++ [e]) c = verdict env seen c := by
  unfold verdict
  rw [List.find?_append]
  have hnone : [e].find? (·.1 = c.attempt) = none := by simp [he]
  rw [hnone, Option.or_none]

theorem verdict_waiting (h : verdict env seen c = .waiting) :
    c.accepted = true ∧ seen.find? (·.1 = c.attempt) = none := by
  unfold verdict at h
  split at h
  · next hc =>
    refine ⟨hc, ?_⟩
    split at h
    · assumption
    · cases h
    · exact absurd h (judge_ne_waiting _ _)
  · cases h

/-- What is processed first for a call that is waited for decides it. -/
theorem verdict_append_self (e : Seen ρ) (h : verdict env seen c = .waiting) :
    verdict env (seen ++ [(c.attempt, e)]) c =
      match e with
      | .timeout => .passed
      | .answer r => judge env c.id r := by
  obtain ⟨hc, hnone⟩ := verdict_waiting h
  unfold verdict
  rw [List.find?_append, hnone, if_pos hc]
  cases e <;> simp

variable {rest : List String}

theorem resultOf_append {calls : List Call} {res : CodecStageResult} (l : List (Nat × Seen ρ))
    (h : resultOf env seen rest calls = some res) :
    resultOf env (seen ++ l) rest calls = some res := by
  induction calls with
  | nil => exact h
  | cons c cs ih =>
    rw [resultOf] at h ⊢
    cases hv : verdict env seen c with
    | waiting => simp [hv] at h
    | passed =>
      rw [verdict_append l (by simp [hv]), hv]
      simp only [hv] at h
      exact ih h
    | ends res' =>
      rw [verdict_append l (by simp [hv]), hv]
      simpa [hv] using h

theorem resultOf_passed {pre : List Call} (h : ∀ c ∈ pre, verdict env seen c = .passed)
    (cs : List Call) : resultOf env seen rest (pre ++ cs) = resultOf env seen rest cs := by
  induction pre with
  | nil => rfl
  | cons c pre ih =>
    rw [List.cons_append, resultOf, h c (List.mem_cons_self ..)]
    exact ih fun c hc => h c (List.mem_cons_of_mem _ hc)

theorem mem_eraseIdx_of_ne {α : Type} {l : List α} {n : Nat} {a b : α} (hn : l[n]? = some a)
    (hb : b ∈ l) (hne : b ≠ a) : b ∈ l.eraseIdx n := by
  obtain ⟨i, hi⟩ := List.mem_iff_getElem?.mp hb
  refine List.mem_eraseIdx_iff_getElem?.mpr ⟨i, ?_, hi⟩
  rintro rfl
  rw [hn] at hi
  exact hne (Option.some.inj hi).symm

/-! ### The invariant -/

structure Bounded (ids : List String) (s : Stage ρ) : Prop where
  ordered : s.calls.Pairwise (·.attempt < ·.attempt)
  calls_le : ∀ c ∈ s.calls, c.attempt ≤ s.run.attempt
  seen_le : ∀ e ∈ s.seen, e.1 ≤ s.run.attempt
  posted_called : ∀ p ∈ s.posted, p.1 ∈ s.calls
  timers_called : ∀ c ∈ s.timers, c ∈ s.calls
  invoking_called : ∀ c ∈ s.invoking, c ∈ s.calls
  in_order : s.calls.map (·.id) ++ s.run.rest = ids

/-- The stage has not ended, and `done` was not called. -/
def Open (s : Stage ρ) : Prop := s.run.finished = false ∧ s.run.done = []

/-- Between two calls: every call made was passed over. -/
structure Ready (env : Env ρ) (s : Stage ρ) : Prop where
  started : s.queued = false
  isOpen : Open s
  passed : ∀ c ∈ s.calls, verdict env s.seen c = .passed

/-- The stage waits for the last call it made. -/
structure Waits (env : Env ρ) (s : Stage ρ) (pre : List Call) (c : Call) : Prop where
  started : s.queued = false
  isOpen : Open s
  calls_eq : s.calls = pre ++ [c]
  passed : ∀ c ∈ pre, verdict env s.seen c = .passed
  waiting : verdict env s.seen c = .waiting
  current : c.attempt = s.run.attempt
  pending : c ∈ s.invoking ∨ c ∈ s.timers

structure Ended (env : Env ρ) (s : Stage ρ) (res : CodecStageResult) : Prop where
  started : s.queued = false
  finished : s.run.finished = true
  once : s.run.done = [res]
  result : resultOf env s.seen s.run.rest s.calls = some res

inductive Phase (env : Env ρ) (s : Stage ρ) : Prop
  | queued (hq : s.queued = true) (ho : Open s) (hc : s.calls = [])
  | waits {pre : List Call} {c : Call} (h : Waits env s pre c)
  | ended {res : CodecStageResult} (h : Ended env s res)

variable {ids : List String} {s : Stage ρ}

theorem Bounded.ext_of_attempt (h : Bounded ids s) {d : Call} (hc : c ∈ s.calls) (hd : d ∈ s.calls)
    (heq : c.attempt = d.attempt) : c = d := by
  have hnodup : (s.calls.map (·.attempt)).Nodup :=
    List.pairwise_map.mpr (h.ordered.imp fun hab => Nat.ne_of_lt hab)
  exact List.inj_on_of_nodup_map hnodup hc hd heq

theorem Bounded.mono (h : Bounded ids s) :
    Bounded ids s.nextAttempt where
  __ := h
  calls_le c hc := Nat.le_succ_of_le (h.calls_le c hc)
  seen_le e he := Nat.le_succ_of_le (h.seen_le e he)

theorem Bounded.finish (h : Bounded ids s) (res : CodecStageResult) :
    Bounded ids (s.finish res) := by
  unfold Stage.finish
  split
  · exact h
  · exact { h with }

theorem Bounded.call (h : Bounded ids s) {id : String} (hrest : s.run.rest = id :: rest) :
    Bounded ids (s.call env id rest) where
  ordered := by
    refine List.pairwise_append.mpr ⟨h.ordered, List.pairwise_singleton _ _, ?_⟩
    intro a ha b hb
    rw [List.mem_singleton.mp hb]
    exact Nat.lt_succ_of_le (h.calls_le a ha)
  calls_le c hc := by
    rcases List.mem_append.mp hc with hc | hc
    · exact Nat.le_succ_of_le (h.calls_le c hc)
    · rw [List.mem_singleton.mp hc]
      exact Nat.le_refl _
  seen_le e he := Nat.le_succ_of_le (h.seen_le e he)
  posted_called p hp := List.mem_append_left _ (h.posted_called p hp)
  timers_called c hc := List.mem_append_left _ (h.timers_called c hc)
  invoking_called c hc := List.mem_append_left _ (h.invoking_called c hc)
  in_order := by
    rw [← h.in_order, hrest]
    simp [Stage.call]

/-! ### `Finish` and `Next` -/

theorem ended_finish {res : CodecStageResult} (hq : s.queued = false) (ho : Open s)
    (hres : resultOf env s.seen s.run.rest s.calls = some res) : Ended env (s.finish res) res := by
  obtain ⟨hf, hd⟩ := ho
  unfold Stage.finish
  rw [if_neg (by simp [hf])]
  exact ⟨hq, rfl, by simp [hd], hres⟩

theorem Ready.call (hb : Bounded ids s) (h : Ready env s) {id : String}
    (hrefused : env.accepts (s.run.attempt + 1) id = false) : Ready env (s.call env id rest) where
  started := h.started
  isOpen := h.isOpen
  passed c hc := by
    rcases List.mem_append.mp hc with hc | hc
    · exact h.passed c hc
    · rw [List.mem_singleton.mp hc, hrefused]
      exact verdict_fresh hb.seen_le (Nat.lt_succ_self _)

/-- `Next` comes to wait for a call that was accepted, or ends the stage with every codec
tried. -/
theorem inv_nextFrom (hb : Bounded ids s) (h : Ready env s) (hrest : s.run.rest = rest) :
    Bounded ids (s.nextFrom env rest) ∧ Phase env (s.nextFrom env rest) := by
  induction rest generalizing s with
  | nil =>
    refine ⟨hb.finish _, .ended (ended_finish h.started h.isOpen ?_)⟩
    have hall : resultOf env s.seen s.run.rest (s.calls ++ []) = resultOf env s.seen s.run.rest [] :=
      resultOf_passed h.passed []
    rw [List.append_nil] at hall
    rw [hall, resultOf, if_pos hrest]
  | cons id rest ih =>
    have hcalled : Bounded ids (s.call env id rest) := hb.call hrest
    rw [Stage.nextFrom]
    split
    · next hacc =>
      have hacc : env.accepts (s.run.attempt + 1) id = true := hacc
      constructor
      · refine { hcalled with invoking_called := fun c hc => ?_ }
        rcases List.mem_append.mp hc with hc | hc
        · exact hcalled.invoking_called c hc
        · rw [List.mem_singleton.mp hc]
          simp [Stage.call, hacc]
      · have hcalls : (s.call env id rest).calls = s.calls ++ [⟨s.run.attempt + 1, id, true⟩] := by
          simp [Stage.call, hacc]
        refine .waits ⟨h.started, h.isOpen, hcalls, h.passed, ?_, rfl, ?_⟩
        · exact verdict_fresh hb.seen_le (Nat.lt_succ_self _)
        · exact Or.inl (List.mem_append_right _ (List.mem_singleton.mpr rfl))
    · next hrefused =>
      exact ih hcalled (h.call hb (Bool.eq_false_iff.mpr hrefused)) rfl

/-! ### Answers and timers -/

theorem onAnswer_eq (s : Stage ρ) (attempt : Nat) (id : String) (r : RawAnswer ρ) :
    s.onAnswer env attempt id r =
      if attempt ≠ s.run.attempt ∨ s.run.finished then s
      else match judge env id r with
        | .ends res => s.nextAttempt.finish res
        | _ => s.nextAttempt.next env := by
  unfold Stage.onAnswer judge
  split
  · rfl
  · by_cases hst : r.status = 0
    · rw [if_neg (not_not.mpr hst), if_pos hst]
      cases env.decodeMap r.result with
      | none => rfl
      | some result =>
        obtain ⟨outcome, output, error, cards⟩ := result
        cases outcome with
        | handled => cases output <;> rfl
        | failed => rfl
        | notHandled => rfl
        | other v => rfl
    · rw [if_pos hst, if_neg hst]

/-- What was processed for another call, or after the end, changes no phase. -/
theorem Phase.ignored (h : Phase env s) (posted : List (Call × RawAnswer ρ)) {timers : List Call}
    {e : Nat × Seen ρ} (hstale : e.1 ≠ s.run.attempt ∨ s.run.finished) (hq : s.queued = false)
    (htimers : ∀ c ∈ s.timers, c.attempt = e.1 ∨ c ∈ timers) :
    Phase env { s with posted := posted, timers := timers, seen := s.seen ++ [e] } := by
  cases h with
  | queued hq' => rw [hq] at hq'; cases hq'
  | @waits pre c h =>
    have hother : e.1 ≠ c.attempt := by
      rw [h.current]
      exact hstale.resolve_right (by simp [h.isOpen.1])
    have hwaits : Waits env { s with posted := posted, timers := timers, seen := s.seen ++ [e] }
        pre c := { h with
      passed := fun d hd => by
        rw [← h.passed d hd]
        exact verdict_append _ (by simp [h.passed d hd])
      waiting := by
        rw [← h.waiting]
        exact verdict_append_other hother
      pending := h.pending.imp_right fun hc => (htimers c hc).resolve_left hother.symm }
    exact .waits hwaits
  | ended h => exact .ended { h with result := resultOf_append _ h.result }

/-- The stage waits for the very call that was just processed. -/
theorem Phase.waits_of_current (hb : Bounded ids s) (h : Phase env s) (hc : c ∈ s.calls)
    (hcur : c.attempt = s.run.attempt) (hf : s.run.finished = false) :
    ∃ pre, Waits env s pre c := by
  cases h with
  | queued hq ho hcalls => rw [hcalls] at hc; cases hc
  | @waits pre d h =>
    have hd : d ∈ s.calls := by rw [h.calls_eq]; simp
    have heq : c = d := hb.ext_of_attempt hc hd (hcur.trans h.current.symm)
    exact ⟨pre, heq ▸ h⟩
  | ended h => rw [h.finished] at hf; cases hf

variable {s' : Stage ρ}

/-- What is processed for the call the stage waits for: it goes on, or ends with that. -/
theorem Waits.decided {pre : List Call} (h : Waits env s pre c) {e : Seen ρ} (hb : Bounded ids s')
    (hrun : s'.run = s.run) (hq : s'.queued = s.queued) (hcalls : s'.calls = s.calls)
    (hseen : s'.seen = s.seen ++ [(c.attempt, e)]) :
    (∀ res, verdict env s'.seen c = .ends res → Ended env (s'.nextAttempt.finish res) res) ∧
    (verdict env s'.seen c = .passed →
      Bounded ids (s'.nextAttempt.next env) ∧ Phase env (s'.nextAttempt.next env)) := by
  have hpassed : ∀ d ∈ pre, verdict env s'.seen d = .passed := by
    intro d hd
    rw [hseen, verdict_append _ (by simp [h.passed d hd]), h.passed d hd]
  have hopen : Open s'.nextAttempt := by
    unfold Open Stage.nextAttempt
    rw [hrun]
    exact h.isOpen
  have hstarted : s'.nextAttempt.queued = false := hq.trans h.started
  constructor
  · intro res hres
    refine ended_finish hstarted hopen ?_
    have hall : s'.nextAttempt.calls = pre ++ [c] := hcalls.trans h.calls_eq
    have hrest : resultOf env s'.seen s'.run.rest (pre ++ [c]) =
        resultOf env s'.seen s'.run.rest [c] := resultOf_passed hpassed [c]
    rw [hall]
    refine hrest.trans ?_
    simp only [resultOf, hres]
  · intro hpass
    refine inv_nextFrom hb.mono ⟨hstarted, hopen, ?_⟩ rfl
    intro d hd
    have hd : d ∈ pre ++ [c] := h.calls_eq ▸ hcalls ▸ hd
    rcases List.mem_append.mp hd with hd | hd
    · exact hpassed d hd
    · rw [List.mem_singleton.mp hd]
      exact hpass

/-- A stage that made a call has started. -/
theorem Phase.started_of_call (h : Phase env s) (hc : c ∈ s.calls) : s.queued = false := by
  cases h with
  | queued _ _ hcalls => rw [hcalls] at hc; cases hc
  | waits h => exact h.started
  | ended h => exact h.started

theorem Bounded.seen_append (hb : Bounded ids s) (hc : c ∈ s.calls) (e : Seen ρ) :
    ∀ seen ∈ s.seen ++ [(c.attempt, e)], seen.1 ≤ s.run.attempt := by
  intro seen hseen
  rcases List.mem_append.mp hseen with hseen | hseen
  · exact hb.seen_le seen hseen
  · rw [List.mem_singleton.mp hseen]
    exact hb.calls_le c hc

theorem inv_process (hb : Bounded ids s) (h : Phase env s) {n : Nat}
    (hstep : s.step env (.process n) = some s') : Bounded ids s' ∧ Phase env s' := by
  obtain ⟨⟨c, r⟩, hn, rfl⟩ := Option.map_eq_some_iff.mp hstep
  have hmem : (c, r) ∈ s.posted := List.mem_of_getElem? hn
  have hc : c ∈ s.calls := hb.posted_called _ hmem
  have hb' : Bounded ids { s with
      posted := s.posted.eraseIdx n, seen := s.seen ++ [(c.attempt, .answer r)] } :=
    { hb with
      posted_called := fun p hp => hb.posted_called p (List.mem_of_mem_eraseIdx hp)
      seen_le := hb.seen_append hc (.answer r) }
  rw [onAnswer_eq]
  split
  · next hstale =>
    exact ⟨hb', h.ignored (s.posted.eraseIdx n) hstale (h.started_of_call hc) fun c hc => Or.inr hc⟩
  · next hcur =>
    rw [not_or, not_not, Bool.not_eq_true] at hcur
    obtain ⟨pre, hw⟩ := h.waits_of_current hb hc hcur.1 hcur.2
    obtain ⟨hends, hpass⟩ := hw.decided (e := .answer r) hb' rfl rfl rfl rfl
    have hv := verdict_append_self (.answer r) hw.waiting
    simp only at hv
    cases hj : judge env c.id r with
    | waiting => exact absurd hj (judge_ne_waiting _ _)
    | passed => exact hpass (hv.trans hj)
    | ends res => exact ⟨hb'.mono.finish res, .ended (hends res (hv.trans hj))⟩

theorem inv_timeout (hb : Bounded ids s) (h : Phase env s) {n : Nat}
    (hstep : s.step env (.timeout n) = some s') : Bounded ids s' ∧ Phase env s' := by
  obtain ⟨c, hn, rfl⟩ := Option.map_eq_some_iff.mp hstep
  have hc : c ∈ s.calls := hb.timers_called _ (List.mem_of_getElem? hn)
  have hb' : Bounded ids { s with
      timers := s.timers.eraseIdx n, seen := s.seen ++ [(c.attempt, .timeout)] } :=
    { hb with
      timers_called := fun p hp => hb.timers_called p (List.mem_of_mem_eraseIdx hp)
      seen_le := hb.seen_append hc .timeout }
  unfold Stage.onTimeout
  split
  · next hstale =>
    refine ⟨hb', h.ignored s.posted hstale (h.started_of_call hc) fun d hd => ?_⟩
    -- the timer that was taken out is the one of this call
    by_cases hdc : d = c
    · exact Or.inl (congrArg Call.attempt hdc)
    · exact Or.inr (mem_eraseIdx_of_ne hn hd hdc)
  · next hcur =>
    rw [not_or, not_not, Bool.not_eq_true] at hcur
    obtain ⟨pre, hw⟩ := h.waits_of_current hb hc hcur.1 hcur.2
    exact (hw.decided (e := .timeout) hb' rfl rfl rfl rfl).2
      (verdict_append_self .timeout hw.waiting)

/-- Every step keeps the invariant. -/
theorem inv_step {e : Event ρ} (hb : Bounded ids s) (h : Phase env s)
    (hstep : s.step env e = some s') : Bounded ids s' ∧ Phase env s' := by
  cases e with
  | start =>
    rw [Stage.step, Option.ite_none_right_eq_some] at hstep
    obtain ⟨hq, hs'⟩ := hstep
    rw [← Option.some.inj hs']
    cases h with
    | queued _ ho hcalls =>
      refine inv_nextFrom { hb with } ⟨rfl, ho, ?_⟩ rfl
      intro c hc
      rw [show s.calls = [] from hcalls] at hc
      cases hc
    | waits h => rw [h.started] at hq; cases hq
    | ended h => rw [h.started] at hq; cases hq
  | ticket n =>
    obtain ⟨c, hn, rfl⟩ := Option.map_eq_some_iff.mp hstep
    have hc : c ∈ s.invoking := List.mem_of_getElem? hn
    constructor
    · exact { hb with
        invoking_called := fun d hd => hb.invoking_called d (List.mem_of_mem_eraseIdx hd)
        timers_called := fun d hd => by
          rcases List.mem_append.mp hd with hd | hd
          · exact hb.timers_called d hd
          · rw [List.mem_singleton.mp hd]
            exact hb.invoking_called c hc }
    · cases h with
      | queued hq ho hcalls => exact .queued hq ho hcalls
      | @waits pre d h =>
        have hpending : d ∈ s.invoking.eraseIdx n ∨ d ∈ s.timers ++ [c] := by
          rcases h.pending with hd | hd
          · by_cases hdc : d = c
            · exact Or.inr (List.mem_append_right _ (List.mem_singleton.mpr hdc))
            · exact Or.inl (mem_eraseIdx_of_ne hn hd hdc)
          · exact Or.inr (List.mem_append_left _ hd)
        exact .waits { h with pending := hpending }
      | ended h => exact .ended { h with }
  | complete n r =>
    obtain ⟨c, hn, rfl⟩ := Option.map_eq_some_iff.mp hstep
    constructor
    · refine { hb with posted_called := fun p hp => ?_ }
      rcases List.mem_append.mp hp with hp | hp
      · exact hb.posted_called p hp
      · rw [List.mem_singleton.mp hp]
        exact List.mem_of_getElem? hn
    · cases h with
      | queued hq ho hcalls => exact .queued hq ho hcalls
      | waits h => exact .waits { h with }
      | ended h => exact .ended { h with }
  | process n => exact inv_process hb h hstep
  | timeout n => exact inv_timeout hb h hstep

theorem inv_of_reachable (h : Reachable env ids s) : Bounded ids s ∧ Phase env s := by
  induction h with
  | start =>
    constructor
    · constructor <;> simp [Stage.begin_]
    · exact .queued rfl ⟨rfl, rfl⟩ rfl
  | step e _ hstep ih => exact inv_step ih.1 ih.2 hstep

/-! ### The outcome -/

theorem Waits.result_none {pre : List Call} (h : Waits env s pre c) : s.result env = none := by
  unfold Stage.result
  rw [if_neg (by simp [h.started]), h.calls_eq, resultOf_passed h.passed, resultOf, h.waiting]

/-- `done` was called with the result of the stage, once, if there is one. -/
theorem done_eq_result (h : Phase env s) : s.run.done = (s.result env).toList := by
  cases h with
  | queued hq ho => simp [Stage.result, hq, ho.2]
  | waits h => rw [h.result_none, h.isOpen.2]; rfl
  | ended h => rw [Stage.result, if_neg (by simp [h.started]), h.result, h.once]; rfl

theorem finished_iff_done (h : Phase env s) : s.run.finished = true ↔ s.run.done.length = 1 := by
  cases h with
  | queued hq ho => simp [ho.1, ho.2]
  | waits h => simp [h.isOpen.1, h.isOpen.2]
  | ended h => simp [h.finished, h.once]

/-- A stage that is not finished has its next step before it: the timer of the call it waits
for, or the ticket that starts that timer. -/
theorem finished_of_quiet (h : Phase env s) (hquiet : s.Quiet) : s.run.finished = true := by
  obtain ⟨hq, hinv, htimers⟩ := hquiet
  cases h with
  | queued hq' => rw [hq] at hq'; cases hq'
  | waits h => simpa [hinv, htimers] using h.pending
  | ended h => exact h.finished

/-- An answer that is processed after its codec timed out, or after the end, is not used. -/
theorem late_answer_ignored (hb : Bounded ids s) (h : Phase env s) {n : Nat} {r : RawAnswer ρ}
    (hn : s.posted[n]? = some (c, r))
    (hlate : (c.attempt, .timeout) ∈ s.seen ∨ s.run.finished = true)
    (hstep : s.step env (.process n) = some s') : s'.run = s.run ∧ s'.calls = s.calls := by
  rw [Stage.step, hn] at hstep
  have hs' := Option.some.inj hstep
  have hc : c ∈ s.calls := hb.posted_called _ (List.mem_of_getElem? hn)
  have hstale : c.attempt ≠ s.run.attempt ∨ s.run.finished = true := by
    rcases hlate with hseen | hf
    · by_contra hnot
      rw [not_or, not_not, Bool.not_eq_true] at hnot
      obtain ⟨pre, hw⟩ := h.waits_of_current hb hc hnot.1 hnot.2
      have hnone := (verdict_waiting hw.waiting).2
      rw [List.find?_eq_none] at hnone
      exact hnone _ hseen (by simp)
    · exact Or.inr hf
  simp only at hs'
  rw [Stage.onAnswer, if_pos hstale] at hs'
  rw [← hs']
  exact ⟨rfl, rfl⟩

/-- **One outcome**: the codecs are tried in the order of the list; `done` is called with the
result read off the record, at most once, and has been when the stage is finished; a stage with
nothing left to process is finished; and a late answer changes nothing. -/
theorem one_outcome {ids : List String} {s : Stage ρ} (h : Reachable env ids s) :
    s.calls.map (·.id) ++ s.run.rest = ids ∧
    s.run.done = (s.result env).toList ∧
    (s.run.finished = true ↔ s.run.done.length = 1) ∧
    (s.Quiet → s.run.finished = true) ∧
    (∀ (n : Nat) (c : Call) (r : RawAnswer ρ) (s' : Stage ρ), s.posted[n]? = some (c, r) →
      (c.attempt, .timeout) ∈ s.seen ∨ s.run.finished = true →
      s.step env (.process n) = some s' → s'.run = s.run ∧ s'.calls = s.calls) := by
  obtain ⟨hb, hp⟩ := inv_of_reachable h
  refine ⟨hb.in_order, done_eq_result hp, finished_iff_done hp, finished_of_quiet hp, ?_⟩
  exact fun n c r s' hn hlate hstep => late_answer_ignored hb hp hn hlate hstep

/-! ### A run -/

/-- A registry without the command `gone`; an answer decodes to itself. -/
def sampleEnv : Env CodecResult where
  required := false
  accepts _ id := id ≠ "gone"
  decodeMap := some

/-- The second codec is too slow; it and the third both say they handled the input. -/
def sampleEvents : List (Event CodecResult) :=
  [.start, .ticket 0, .timeout 0, .complete 1 ⟨0, { outcome := .handled, output := some [1] }⟩,
    .complete 2 ⟨0, { outcome := .handled, output := some [2] }⟩, .process 0, .process 0]

def sampleStage : Stage CodecResult :=
  (sampleEvents.foldlM (Stage.step sampleEnv) (Stage.begin_ ["gone", "slow", "good"])).getD
    (Stage.begin_ [])

theorem reachable_of_events {es : List (Event ρ)} (h : Reachable env ids s)
    (hes : es.foldlM (Stage.step env) s = some s') : Reachable env ids s' := by
  induction es generalizing s with
  | nil => exact Option.some.inj hes ▸ h
  | cons e es ih =>
    rw [List.foldlM_cons, Option.bind_eq_bind, Option.bind_eq_some_iff] at hes
    obtain ⟨t, ht, hes⟩ := hes
    exact ih (.step e h ht) hes

theorem reachable_sampleStage :
    Reachable sampleEnv ["gone", "slow", "good"] sampleStage :=
  have h : sampleEvents.foldlM (Stage.step sampleEnv) (Stage.begin_ ["gone", "slow", "good"]) =
      some sampleStage := by decide +kernel
  reachable_of_events .start h

theorem one_outcome_sample :
    sampleStage.run.done = [{ kind := .handled, output := [2], provider := "good" }] ∧
    sampleStage.run.done = (sampleStage.result sampleEnv).toList :=
  ⟨by decide +kernel, (one_outcome reachable_sampleStage).2.1⟩

end GpgFrontend.CodecStage
