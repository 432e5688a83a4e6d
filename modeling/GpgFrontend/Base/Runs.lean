import Mathlib.Algebra.Ring.Nat
import Mathlib.Data.List.AList
import Mathlib.Order.WellFounded

/-!
# Loops that may return early, and runs whose steps meet a condition

- `loopUntil stop body xs s`: the loop `for (x : xs) { if (stop) return; body }`
  over a state, with whether it returned early.
- `BeforeEach stop body C xs s`: `C` holds of the state and the element before
  every body the loop runs. Conditions on a loop are stated with it, on the state
  the body is about to see and never on what it leaves.
- `ReachableUnder step C s₀`: the states reached from `s₀` by steps that each meet
  `C` in the state they start from; with `C` true, everything reachable.
- `AList.lookup_insert_ite`, `AList.lookup_erase_ite`: one change, read at any key.
-/

namespace GpgFrontend

section Loop

variable {σ α : Type} (stop : σ → Bool) (body : σ → α → σ)

/-- Run `body` over the elements, returning before one when `stop` says so. -/
def loopUntil : List α → σ → Bool × σ
  | [], s => (false, s)
  | x :: xs, s => if stop s then (true, s) else loopUntil xs (body s x)

/-- `C` holds before every body that the loop runs. -/
def BeforeEach (C : σ → α → Prop) : List α → σ → Prop
  | [], _ => True
  | x :: xs, s => stop s = false → C s x ∧ BeforeEach C xs (body s x)

instance BeforeEach.decidable (C : σ → α → Prop) [∀ s x, Decidable (C s x)] :
    ∀ (xs : List α) (s : σ), Decidable (BeforeEach stop body C xs s)
  | [], _ => isTrue trivial
  | _ :: xs, s =>
    have := BeforeEach.decidable C xs
    inferInstanceAs (Decidable (stop s = false → _ ∧ _))

variable {stop body}

theorem BeforeEach.trivial (xs : List α) (s : σ) :
    BeforeEach stop body (fun _ _ => True) xs s := by
  induction xs generalizing s with
  | nil => exact True.intro
  | cons x xs ih => exact fun _ => ⟨True.intro, ih _⟩

/-- The rule of the loop: an invariant over the elements still to come and the
state. Where the loop returned early, some of them are left. -/
theorem loopUntil_rule {C : σ → α → Prop} {I : List α → σ → Prop}
    (hbody : ∀ x xs s, I (x :: xs) s → C s x → I xs (body s x)) {xs : List α} {s : σ}
    (hC : BeforeEach stop body C xs s) (hs : I xs s) :
    ∃ left, I left (loopUntil stop body xs s).2 ∧
      ((loopUntil stop body xs s).1 = false → left = []) := by
  induction xs generalizing s with
  | nil => exact ⟨[], hs, fun _ => rfl⟩
  | cons x xs ih =>
    rw [loopUntil]
    split
    · exact ⟨x :: xs, hs, fun h => nomatch h⟩
    · next hstop =>
      obtain ⟨hx, hxs⟩ := hC (Bool.eq_false_iff.mpr hstop)
      exact ih hxs (hbody x xs s hs hx)

end Loop

section Reach

variable {σ ι : Type}

/-- What steps reach from `s₀` when each of them meets `C` where it starts. -/
inductive ReachableUnder (step : σ → ι → σ) (C : σ → ι → Prop) (s₀ : σ) : σ → Prop
  | start : ReachableUnder step C s₀ s₀
  | next {s : σ} (i : ι) : ReachableUnder step C s₀ s → C s i →
      ReachableUnder step C s₀ (step s i)

variable {step : σ → ι → σ}

variable {C : σ → ι → Prop}

theorem ReachableUnder.inv {s₀ s : σ} {I : σ → Prop} (h : ReachableUnder step C s₀ s) (h₀ : I s₀)
    (hstep : ∀ s i, I s → C s i → I (step s i)) : I s := by
  induction h with
  | start => exact h₀
  | next i _ hC ih => exact hstep _ i ih hC

/-- A list of steps, each of which meets the condition where it starts. -/
theorem ReachableUnder.foldl {s₀ s : σ} {is : List ι} (h : ReachableUnder step C s₀ s)
    (hC : BeforeEach (fun _ => false) step C is s) :
    ReachableUnder step C s₀ (is.foldl step s) := by
  induction is generalizing s with
  | nil => exact h
  | cons i is ih =>
    obtain ⟨hi, his⟩ := hC rfl
    exact ih (.next i h hi) his

/-- Where a step keeps what is good exactly when it meets the condition, a run is good
throughout exactly when each of its steps meets it. -/
theorem prefixes_good_iff_beforeEach {I Good : σ → Prop} (hI : ∀ s i, I s → I (step s i))
    (hGood : ∀ s i, I s → Good s → (Good (step s i) ↔ C s i)) {is : List ι} {s : σ} (hs : I s)
    (hgood : Good s) :
    (∀ n, Good ((is.take n).foldl step s)) ↔ BeforeEach (fun _ => false) step C is s := by
  induction is generalizing s with
  | nil =>
    constructor
    · exact fun _ => True.intro
    · intro _ n
      rw [List.take_nil]
      exact hgood
  | cons i is ih =>
    constructor
    · intro h _
      have hnext : Good (step s i) := h 1
      refine ⟨(hGood s i hs hgood).mp hnext, ?_⟩
      exact (ih (hI s i hs) hnext).mp fun n => h (n + 1)
    · intro h n
      obtain ⟨hi, his⟩ := h rfl
      cases n with
      | zero => exact hgood
      | succ n => exact (ih (hI s i hs) ((hGood s i hs hgood).mpr hi)).mpr his n

end Reach

section Keep

variable {α : Type} {β : Type}

theorem AList.lookup_insert_ite [DecidableEq α] (a k : α) (b : β) (m : AList fun _ : α => β) :
    (m.insert a b).lookup k = if k = a then some b else m.lookup k := by
  by_cases hk : k = a
  · rw [if_pos hk, hk, AList.lookup_insert]
  · rw [if_neg hk, AList.lookup_insert_ne hk]

theorem AList.lookup_erase_ite [DecidableEq α] (a k : α) (m : AList fun _ : α => β) :
    (m.erase a).lookup k = if k = a then none else m.lookup k := by
  by_cases hk : k = a
  · rw [if_pos hk, hk, AList.lookup_erase]
  · rw [if_neg hk, AList.lookup_erase_ne hk]

/-- The entries that pass a test. -/
def AList.keep (p : α → β → Bool) (m : AList fun _ : α => β) : AList fun _ : α => β where
  entries := m.entries.filter fun e => p e.1 e.2
  nodupKeys := m.nodupKeys.sublist List.filter_sublist

theorem AList.lookup_keep [DecidableEq α] {p : α → β → Bool} {m : AList fun _ : α => β} {a : α}
    {b : β} : (AList.keep p m).lookup a = some b ↔ m.lookup a = some b ∧ p a b = true := by
  rw [← Option.mem_def, ← Option.mem_def, AList.mem_lookup_iff, AList.mem_lookup_iff]
  exact List.mem_filter

/-- The same keys with other values. -/
def AList.mapValues {γ : Type} (f : α → β → γ) (m : AList fun _ : α => β) :
    AList fun _ : α => γ where
  entries := m.entries.map fun e => ⟨e.1, f e.1 e.2⟩
  nodupKeys := by
    have hkeys : (m.entries.map fun e => (⟨e.1, f e.1 e.2⟩ : Sigma fun _ : α => γ)).keys =
        m.keys := List.map_map
    rw [List.NodupKeys, hkeys]
    exact m.keys_nodup

theorem AList.lookup_mapValues [DecidableEq α] {γ : Type} {f : α → β → γ}
    {m : AList fun _ : α => β} {a : α} {c : γ} :
    (AList.mapValues f m).lookup a = some c ↔ ∃ b, m.lookup a = some b ∧ f a b = c := by
  simp only [← Option.mem_def, AList.mem_lookup_iff, AList.mapValues, List.mem_map]
  constructor
  · rintro ⟨e, he, heq⟩
    obtain ⟨rfl, hc⟩ := Sigma.mk.inj heq
    exact ⟨e.2, he, eq_of_heq hc⟩
  · rintro ⟨b, hb, rfl⟩
    exact ⟨⟨a, b⟩, hb, rfl⟩

/-- Change the value of a key that is there. -/
def AList.modifyAt [DecidableEq α] (a : α) (f : β → β) (m : AList fun _ : α => β) :
    AList fun _ : α => β :=
  match m.lookup a with
  | none => m
  | some b => m.insert a (f b)

theorem AList.lookup_modifyAt [DecidableEq α] (a k : α) (f : β → β) (m : AList fun _ : α => β) :
    (AList.modifyAt a f m).lookup k = if k = a then (m.lookup a).map f else m.lookup k := by
  unfold AList.modifyAt
  cases hfind : m.lookup a with
  | none =>
    by_cases hk : k = a
    · rw [if_pos hk, hk, hfind]
      rfl
    · rw [if_neg hk]
  | some b =>
    by_cases hk : k = a
    · rw [if_pos hk, hk]
      exact AList.lookup_insert _
    · rw [if_neg hk]
      exact AList.lookup_insert_ne hk

end Keep

section Numbered

variable {α : Type} {l : List α} {a b : α} {i j : Nat}

theorem getElem?_snoc_cases (h : (l ++ [a])[j]? = some b) :
    l[j]? = some b ∨ (j = l.length ∧ b = a) := by
  rw [List.getElem?_append] at h
  split at h
  · exact Or.inl h
  · next hj =>
    rw [List.getElem?_singleton] at h
    split at h
    · next h0 => exact Or.inr ⟨by omega, (Option.some.inj h).symm⟩
    · cases h

theorem getElem?_set_cases (h : (l.set i a)[j]? = some b) :
    (j = i ∧ b = a) ∨ (j ≠ i ∧ l[j]? = some b) := by
  by_cases hij : i = j
  · subst hij
    rw [List.getElem?_set_self'] at h
    obtain ⟨_, _, hb⟩ := Option.map_eq_some_iff.mp h
    exact Or.inl ⟨rfl, hb.symm⟩
  · rw [List.getElem?_set_ne hij] at h
    exact Or.inr ⟨Ne.symm hij, h⟩

/-- How many pass a test, after a change to one. -/
theorem countP_set_add {p : α → Bool} (h : l[i]? = some a) :
    (l.set i b).countP p + (if p a then 1 else 0) = l.countP p + (if p b then 1 else 0) := by
  obtain ⟨hi, ha⟩ := List.getElem?_eq_some_iff.mp h
  rw [List.countP_set hi, ha]
  split
  · next hp =>
    have hpos : 0 < l.countP p := List.countP_pos_iff.mpr ⟨a, List.mem_of_getElem? h, hp⟩
    omega
  · omega

/-- The sum of a measure, after a change to one. -/
theorem sum_map_set_add {w : α → Nat} (h : l[i]? = some a) :
    ((l.set i b).map w).sum + w a = (l.map w).sum + w b := by
  induction l generalizing i with
  | nil => cases h
  | cons x l ih =>
    cases i with
    | zero =>
      obtain rfl : x = a := by simpa using h
      simp only [List.set_cons_zero, List.map_cons, List.sum_cons]
      omega
    | succ i =>
      have hrest := ih (i := i) (by simpa using h)
      simp only [List.set_cons_succ, List.map_cons, List.sum_cons]
      omega

end Numbered

/-- A run that goes on while it can, along steps that each lower a measure, comes to a stop. -/
theorem exists_stop {σ β : Type} [LT β] [WellFoundedLT β] {step : σ → σ → Prop} {m : σ → β}
    (hm : ∀ s s', step s s' → m s' < m s) {f : Nat → σ}
    (hf : ∀ n, step (f n) (f (n + 1)) ∨ (∀ s', ¬ step (f n) s') ∧ f (n + 1) = f n) :
    ∃ N, (∀ s', ¬ step (f N) s') ∧ ∀ n, N ≤ n → f n = f N := by
  have hstuck : ∀ (b : β) (n : Nat), m (f n) = b → ∃ N, ∀ s', ¬ step (f N) s' := by
    intro b
    induction b using WellFoundedLT.induction with
    | ind b ih =>
      rintro n rfl
      rcases hf n with hstep | hstop
      · exact ih _ (hm _ _ hstep) (n + 1) rfl
      · exact ⟨n, hstop.1⟩
  obtain ⟨N, hN⟩ := hstuck _ 0 rfl
  refine ⟨N, hN, fun n hn => ?_⟩
  induction n, hn using Nat.le_induction with
  | base => rfl
  | succ n _ ih =>
    rcases hf n with hstep | hstop
    · rw [ih] at hstep
      exact absurd hstep (hN _)
    · rw [hstop.2, ih]

end GpgFrontend
