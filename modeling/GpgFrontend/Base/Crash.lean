import Mathlib.Data.List.Chain

/-!
# Computations that may be interrupted between any two steps

A program that updates persistent storage is judged at every state it leaves
behind, not only at the one it ends in: a crash may happen after any step.

- `CrashM σ α`: a computation over a state `σ` that returns the list of *all*
  states it passes through, in order, together with its value. The final state
  is by construction the last one of the trace, so a trace that forgets where
  it ended cannot be built.
- `Triple G m s Q`: started in `s`, every two consecutive states of `m` are
  related by the guarantee `G`, and the value and final state satisfy `Q`.
  Taking `G := fun _ x => I x` reads "every state on the way satisfies `I`"
  (`Triple.forall_trace`), a relation on both sides says what one step may do.

The rules are one per constructor of a program (`pure`, `bind`, `step`, `read`,
`ite`) plus weakening; programs are verified by following their own text.
-/

namespace GpgFrontend

/-- A computation over `σ` with the trace of states it leaves behind. -/
def CrashM (σ α : Type) : Type := σ → List σ × α

namespace CrashM

variable {σ α β : Type}

/-- The states passed through when started in `s`, in order. -/
def trace (m : CrashM σ α) (s : σ) : List σ := (m s).1

/-- The value returned when started in `s`. -/
def value (m : CrashM σ α) (s : σ) : α := (m s).2

/-- The state left behind: the last of the trace. -/
def final (m : CrashM σ α) (s : σ) : σ := (m.trace s).getLastD s

instance : Monad (CrashM σ) where
  pure a := fun _ => ([], a)
  bind m f := fun s =>
    let rest := f (m.value s) (m.final s)
    (m.trace s ++ rest.1, rest.2)

/-- One atomic update of the state. -/
def step (f : σ → σ × α) : CrashM σ α := fun s => ([(f s).1], (f s).2)

/-- The state a process that runs `m` is found in: at its end, or after the first
`n` steps when it died there. -/
def upTo (m : CrashM σ α) (cut : Option Nat) (s : σ) : σ :=
  match cut with
  | none => m.final s
  | some n => ((m.trace s).take n).getLastD s

/-- Look at the state without touching it. -/
def read (f : σ → α) : CrashM σ α := fun s => ([], f s)

theorem getLastD_append_getLastD (l l' : List σ) (s : σ) :
    (l ++ l').getLastD s = l'.getLastD (l.getLastD s) := by
  induction l generalizing s with
  | nil => rfl
  | cons a l ih => rw [List.cons_append, List.getLastD_cons, List.getLastD_cons, ih]

theorem trace_bind (m : CrashM σ α) (f : α → CrashM σ β) (s : σ) :
    (m >>= f).trace s = m.trace s ++ (f (m.value s)).trace (m.final s) := rfl

theorem value_bind (m : CrashM σ α) (f : α → CrashM σ β) (s : σ) :
    (m >>= f).value s = (f (m.value s)).value (m.final s) := rfl

theorem final_bind (m : CrashM σ α) (f : α → CrashM σ β) (s : σ) :
    (m >>= f).final s = (f (m.value s)).final (m.final s) :=
  getLastD_append_getLastD _ _ _

/-- Wherever a process died, what it left is a state of its trace. -/
theorem upTo_mem (m : CrashM σ α) (cut : Option Nat) (s : σ) :
    m.upTo cut s ∈ s :: m.trace s := by
  cases cut with
  | none => exact List.getLastD_mem_cons
  | some n =>
    rcases List.mem_cons.mp (List.getLastD_mem_cons (l := (m.trace s).take n) (a := s)) with h | h
    · exact List.mem_cons.mpr (.inl h)
    · exact List.mem_cons_of_mem _ (List.mem_of_mem_take h)

end CrashM

/-- The crash triple: started in `s`, consecutive states of `m` are related by
`G`, and `Q` holds of the value and the final state. -/
structure Triple {σ α : Type} (G : σ → σ → Prop) (m : CrashM σ α) (s : σ)
    (Q : α → σ → Prop) : Prop where
  chain : List.IsChain G (s :: m.trace s)
  post : Q (m.value s) (m.final s)

namespace Triple

variable {σ α β : Type} {G : σ → σ → Prop} {s : σ}

variable {Q : α → σ → Prop}

theorem pure {a : α} (h : Q a s) : Triple G (Pure.pure a) s Q :=
  ⟨List.isChain_singleton s, h⟩

theorem read {f : σ → α} (h : Q (f s) s) : Triple G (CrashM.read f) s Q :=
  ⟨List.isChain_singleton s, h⟩

theorem step {f : σ → σ × α} (hG : G s (f s).1) (h : Q (f s).2 (f s).1) :
    Triple G (CrashM.step f) s Q :=
  ⟨List.isChain_cons_cons.mpr ⟨hG, List.isChain_singleton _⟩, h⟩

/-- Two chains that meet in the last state of the first join to one. -/
theorem isChain_append_getLastD {l l' : List σ} (h : List.IsChain G (s :: l))
    (h' : List.IsChain G (l.getLastD s :: l')) : List.IsChain G (s :: (l ++ l')) := by
  induction l generalizing s with
  | nil => exact h'
  | cons a l ih =>
    obtain ⟨hsa, hal⟩ := List.isChain_cons_cons.mp h
    rw [List.getLastD_cons] at h'
    rw [List.cons_append]
    exact List.isChain_cons_cons.mpr ⟨hsa, ih hal h'⟩

variable {m : CrashM σ α}

variable {R : α → σ → Prop}

/-- Sequencing: what the first part establishes starts the second. -/
theorem bind {f : α → CrashM σ β} {Q : β → σ → Prop} (hm : Triple G m s R)
    (hf : ∀ a s', R a s' → Triple G (f a) s' Q) : Triple G (m >>= f) s Q := by
  have h := hf _ _ hm.post
  refine ⟨?_, ?_⟩
  · rw [CrashM.trace_bind]
    exact isChain_append_getLastD hm.chain h.chain
  · rw [CrashM.value_bind, CrashM.final_bind]
    exact h.post

/-- A branch: each side under what chose it. -/
theorem ite {c : Prop} [Decidable c] {m' : CrashM σ α} (hm : c → Triple G m s Q)
    (hm' : ¬ c → Triple G m' s Q) : Triple G (if c then m else m') s Q := by
  split
  · exact hm ‹_›
  · exact hm' ‹_›

/-- A check that returns early. -/
theorem guard {c : Prop} [Decidable c] {a : α} {m' : CrashM σ α} (h : Q a s)
    (hm' : ¬ c → Triple G m' s Q) : Triple G (if c then Pure.pure a else m') s Q :=
  ite (fun _ => pure h) hm'

/-- Weakening of the guarantee and of the postcondition. -/
theorem mono {H : σ → σ → Prop} (h : Triple G m s Q) (hGH : ∀ a b, G a b → H a b)
    (hQR : ∀ a s', Q a s' → R a s') : Triple H m s R :=
  ⟨h.chain.imp hGH, hQR _ _ h.post⟩

theorem weaken (h : Triple G m s Q) (hQR : ∀ a s', Q a s' → R a s') : Triple G m s R :=
  h.mono (fun _ _ hG => hG) hQR

/-- A guarantee that is a preorder relates the first state to the last. -/
theorem and_rel (h : Triple G m s Q) (hrefl : ∀ a, G a a) (htrans : ∀ a b c, G a b → G b c → G a c) :
    Triple G m s fun a s' => Q a s' ∧ G s s' := by
  refine ⟨h.chain, h.post, ?_⟩
  have hlast : ∀ {l : List σ} {s : σ}, List.IsChain G (s :: l) → G s (l.getLastD s) := by
    intro l
    induction l with
    | nil => exact fun _ => hrefl _
    | cons a l ih =>
      intro s hc
      obtain ⟨hsa, hal⟩ := List.isChain_cons_cons.mp hc
      rw [List.getLastD_cons]
      exact htrans _ _ _ hsa (ih hal)
  exact hlast h.chain

variable {I : σ → Prop}

/-- What a relation preserves holds all along its chains. -/
theorem forall_mem_of_isChain {l : List σ} (hc : List.IsChain G (s :: l)) (hs : I s)
    (hI : ∀ a b, G a b → I a → I b) : ∀ x ∈ l, I x := by
  induction l generalizing s with
  | nil => exact fun x hx => nomatch hx
  | cons a l ih =>
    obtain ⟨hsa, hal⟩ := List.isChain_cons_cons.mp hc
    have ha : I a := hI _ _ hsa hs
    intro x hx
    rcases List.mem_cons.mp hx with rfl | hx
    · exact ha
    · exact ih hal ha x hx

/-- An invariant that the guarantee preserves holds of every state left behind. -/
theorem forall_trace (h : Triple G m s Q) (hs : I s) (hI : ∀ a b, G a b → I a → I b) :
    ∀ x ∈ m.trace s, I x :=
  forall_mem_of_isChain h.chain hs hI

/-- The same, for the state an interrupted run leaves. -/
theorem upTo (h : Triple G m s Q) (cut : Option Nat) (hs : I s) (hI : ∀ a b, G a b → I a → I b) :
    I (m.upTo cut s) := by
  rcases List.mem_cons.mp (m.upTo_mem cut s) with heq | hmem
  · rw [heq]
    exact hs
  · exact h.forall_trace hs hI _ hmem

end Triple

end GpgFrontend
