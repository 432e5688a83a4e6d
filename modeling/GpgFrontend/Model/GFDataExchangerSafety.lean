import GpgFrontend.Model.GFDataExchanger

/-!
# The pipe loses nothing and keeps its bound

- `Piped.step`, `Piped.run`: kept by every step of every call, hence over every run.
- `pipe_lossless_bounded`: **bytes come out in the order they went in, the queue keeps
  its bound, and a reader that drains a closed pipe has everything.**
- `no_lost_wakeup`: **a call that waits and was not woken has nothing to do**, as long as
  no push runs out of memory.
-/

namespace GpgFrontend

/-! ## The invariant -/

/-- What the call returned, once it has. -/
def PipePc.result : PipePc → Option Int
  | .returned r => some r
  | _ => none

/-- The call has not reached its loop. -/
def PipePc.beforeLoop : PipePc → Bool
  | .entered | .locking | .locked => true
  | _ => false

/-- A call's own account of its bytes agrees with the log. -/
def Accounted (s : GFDataExchanger) (k : Nat) (t : PipeThread) : Prop :=
  match t.call with
  | .write buffer =>
    bytesOf k s.delivered = [] ∧
      match t.pc.result with
      | some r => bytesOf k s.accepted <+: buffer ∧
          (r = buffer.length → bytesOf k s.accepted = buffer)
      | none => bytesOf k s.accepted = buffer.take t.written
  | .read size =>
    bytesOf k s.accepted = [] ∧ bytesOf k s.delivered = t.filled ∧ t.filled.length ≤ size ∧
      (t.pc.beforeLoop → t.filled = []) ∧
      -- a short read is the end of the stream, and stays it
      ∀ r, t.pc.result = some r → r = t.filled.length ∧
        (t.filled.length < size → s.close = true ∧ s.queue = [])
  | .closeWrite => bytesOf k s.accepted = [] ∧ bytesOf k s.delivered = []

/-- Nothing is lost, repeated or reordered, and the queue keeps its bound. -/
structure Piped (s : GFDataExchanger) : Prop where
  books : logBytes s.accepted = logBytes s.delivered ++ s.queue
  bound : s.queue.length ≤ s.maxSize
  acceptedFrom : ∀ e ∈ s.accepted, e.1 < s.threads.length
  deliveredTo : ∀ e ∈ s.delivered, e.1 < s.threads.length
  accounted : ∀ k t, s.threads[k]? = some t → Accounted s k t

@[simp] theorem logBytes_append (l₁ l₂ : List (Nat × List UInt8)) :
    logBytes (l₁ ++ l₂) = logBytes l₁ ++ logBytes l₂ := List.flatMap_append

@[simp] theorem logBytes_single (e : Nat × List UInt8) : logBytes [e] = e.2 := by
  simp [logBytes]

theorem bytesOf_snoc_self (k : Nat) (l : List (Nat × List UInt8)) (b : List UInt8) :
    bytesOf k (l ++ [(k, b)]) = bytesOf k l ++ b := by
  simp [bytesOf]

theorem bytesOf_snoc_of_ne {j k : Nat} (h : k ≠ j) (l : List (Nat × List UInt8)) (b : List UInt8) :
    bytesOf j (l ++ [(k, b)]) = bytesOf j l := by
  simp [bytesOf, h]

/-- A call that is not in the log moved nothing. -/
theorem bytesOf_eq_nil {k : Nat} {l : List (Nat × List UInt8)} (h : ∀ e ∈ l, e.1 < k) :
    bytesOf k l = [] := by
  have hnone : l.filter (·.1 = k) = [] := by
    rw [List.filter_eq_nil_iff]
    intro e he
    have := h e he
    simp
    omega
  rw [bytesOf, hnone]
  rfl

namespace PipeThread

@[simp] theorem notify_call (t : PipeThread) : t.notify.call = t.call := by
  cases t with
  | mk c pc w f => cases pc <;> rfl

@[simp] theorem notify_filled (t : PipeThread) : t.notify.filled = t.filled := by
  cases t with
  | mk c pc w f => cases pc <;> rfl

@[simp] theorem notify_written (t : PipeThread) : t.notify.written = t.written := by
  cases t with
  | mk c pc w f => cases pc <;> rfl

@[simp] theorem notify_result (t : PipeThread) : t.notify.pc.result = t.pc.result := by
  cases t with
  | mk c pc w f => cases pc <;> rfl

@[simp] theorem notify_beforeLoop (t : PipeThread) :
    t.notify.pc.beforeLoop = t.pc.beforeLoop := by
  cases t with
  | mk c pc w f => cases pc <;> rfl

end PipeThread

theorem accounted_notify {s : GFDataExchanger} {k : Nat} {t : PipeThread} :
    Accounted s k t.notify ↔ Accounted s k t := by
  simp only [Accounted, PipeThread.notify_call, PipeThread.notify_filled,
    PipeThread.notify_written, PipeThread.notify_result, PipeThread.notify_beforeLoop]

/-- An account stands while the log keeps the call's bytes and an end stays an end. -/
theorem Accounted.of_same {s s' : GFDataExchanger} {k : Nat} {t : PipeThread}
    (hacc : bytesOf k s'.accepted = bytesOf k s.accepted)
    (hdel : bytesOf k s'.delivered = bytesOf k s.delivered)
    (hend : s.close = true ∧ s.queue = [] → s'.close = true ∧ s'.queue = [])
    (h : Accounted s k t) : Accounted s' k t := by
  unfold Accounted at h ⊢
  rw [hacc, hdel]
  cases hc : t.call with
  | write buffer =>
    rw [hc] at h
    exact h
  | read size =>
    rw [hc] at h
    obtain ⟨hnone, hfilled, hsize, hbefore, hret⟩ := h
    refine ⟨hnone, hfilled, hsize, hbefore, fun r hr => ?_⟩
    exact ⟨(hret r hr).1, fun hshort => hend ((hret r hr).2 hshort)⟩
  | closeWrite =>
    rw [hc] at h
    exact h

/-! ## What each operation keeps -/

namespace Piped

variable {s : GFDataExchanger} {k : Nat} {t : PipeThread}

theorem new (size : Int64) : Piped (GFDataExchanger.new size) where
  books := rfl
  bound := Nat.zero_le _
  acceptedFrom := by simp [GFDataExchanger.new]
  deliveredTo := by simp [GFDataExchanger.new]
  accounted := by simp [GFDataExchanger.new]

/-- A call that has moved nothing yet. -/
theorem call (h : Piped s) (c : PipeCall) :
    Piped { s with threads := s.threads ++ [PipeThread.new c] } where
  books := h.books
  bound := h.bound
  acceptedFrom := by
    intro e he
    have := h.acceptedFrom e he
    simp
    omega
  deliveredTo := by
    intro e he
    have := h.deliveredTo e he
    simp
    omega
  accounted := by
    intro j u hu
    rcases getElem?_snoc_cases hu with hu | ⟨rfl, rfl⟩
    · exact h.accounted j u hu
    · have hacc : bytesOf s.threads.length s.accepted = [] := bytesOf_eq_nil h.acceptedFrom
      have hdel : bytesOf s.threads.length s.delivered = [] := bytesOf_eq_nil h.deliveredTo
      cases c with
      | write buffer => exact ⟨hdel, hacc⟩
      | read size => exact ⟨hacc, hdel, Nat.zero_le _, fun _ => rfl, fun r hr => by cases hr⟩
      | closeWrite => exact ⟨hacc, hdel⟩

/-- A call moves on, without touching the queue. -/
theorem setThread (h : Piped s) (owner : Option Nat) (ht : Accounted s k t) :
    Piped { s.setThread k t with mutexOwner := owner } where
  books := h.books
  bound := h.bound
  acceptedFrom := by
    intro e he
    show e.1 < (s.threads.set k t).length
    rw [List.length_set]
    exact h.acceptedFrom e he
  deliveredTo := by
    intro e he
    show e.1 < (s.threads.set k t).length
    rw [List.length_set]
    exact h.deliveredTo e he
  accounted := by
    intro j u hu
    rcases getElem?_set_cases hu with ⟨rfl, rfl⟩ | ⟨-, hu⟩
    · exact ht
    · exact h.accounted j u hu

/-- A notification changes no account. -/
theorem notify (h : Piped s) (p : PipeThread → Bool) :
    Piped { s with threads := s.threads.map fun t => if p t then t.notify else t } where
  books := h.books
  bound := h.bound
  acceptedFrom := by simpa using h.acceptedFrom
  deliveredTo := by simpa using h.deliveredTo
  accounted := by
    intro j u hu
    rw [List.getElem?_map] at hu
    obtain ⟨v, hv, rfl⟩ := Option.map_eq_some_iff.mp hu
    show Accounted s j _
    split
    · exact accounted_notify.mpr (h.accounted j v hv)
    · exact h.accounted j v hv

/-- A write pushes into an open pipe, within the room there is. -/
theorem push (h : Piped s) (owner : Option Nat) {t' : PipeThread} {bytes : List UInt8}
    (hk : s.threads[k]? = some t) (hopen : s.close = false)
    (hroom : s.queue.length + bytes.length ≤ s.maxSize) (ht : Accounted (s.push k bytes) k t') :
    Piped { (s.push k bytes).setThread k t' with mutexOwner := owner } where
  books := by
    show logBytes (s.accepted ++ [(k, bytes)]) = logBytes s.delivered ++ (s.queue ++ bytes)
    rw [logBytes_append, h.books, logBytes_single, List.append_assoc]
  bound := by
    show (s.queue ++ bytes).length ≤ s.maxSize
    rw [List.length_append]
    exact hroom
  acceptedFrom := by
    intro e he
    show e.1 < (s.threads.set k t').length
    rw [List.length_set]
    rcases List.mem_append.mp he with he | he
    · exact h.acceptedFrom e he
    · rw [List.mem_singleton.mp he]
      exact (List.getElem?_eq_some_iff.mp hk).1
  deliveredTo := by
    intro e he
    show e.1 < (s.threads.set k t').length
    rw [List.length_set]
    exact h.deliveredTo e he
  accounted := by
    intro j u hu
    rcases getElem?_set_cases hu with ⟨rfl, rfl⟩ | ⟨hj, hu⟩
    · exact ht
    · refine Accounted.of_same (s := s) (bytesOf_snoc_of_ne (Ne.symm hj) _ _) rfl ?_
        (h.accounted j u hu)
      -- a read that came back short saw the pipe closed, and this one is open
      intro hend
      rw [hopen] at hend
      cases hend.1

/-- A read takes from the front of the queue. -/
theorem pop (h : Piped s) {t' : PipeThread} {n : Nat} (hk : s.threads[k]? = some t)
    (ht : Accounted (s.pop k n) k t') : Piped ((s.pop k n).setThread k t') where
  books := by
    show logBytes s.accepted = logBytes (s.delivered ++ [(k, s.queue.take n)]) ++ s.queue.drop n
    rw [logBytes_append, logBytes_single, List.append_assoc, List.take_append_drop]
    exact h.books
  bound := by
    show (s.queue.drop n).length ≤ s.maxSize
    have := h.bound
    rw [List.length_drop]
    omega
  acceptedFrom := by
    intro e he
    show e.1 < (s.threads.set k t').length
    rw [List.length_set]
    exact h.acceptedFrom e he
  deliveredTo := by
    intro e he
    show e.1 < (s.threads.set k t').length
    rw [List.length_set]
    rcases List.mem_append.mp he with he | he
    · exact h.deliveredTo e he
    · rw [List.mem_singleton.mp he]
      exact (List.getElem?_eq_some_iff.mp hk).1
  accounted := by
    intro j u hu
    rcases getElem?_set_cases hu with ⟨rfl, rfl⟩ | ⟨hj, hu⟩
    · exact ht
    · refine Accounted.of_same (s := s) rfl (bytesOf_snoc_of_ne (Ne.symm hj) _ _) ?_
        (h.accounted j u hu)
      intro hend
      refine ⟨hend.1, ?_⟩
      show s.queue.drop n = []
      rw [hend.2, List.drop_nil]

/-- Closing ends no account. -/
theorem close (h : Piped s) : Piped { s with close := true } where
  books := h.books
  bound := h.bound
  acceptedFrom := h.acceptedFrom
  deliveredTo := h.deliveredTo
  accounted := by
    intro j u hu
    refine Accounted.of_same (s := s) rfl rfl ?_ (h.accounted j u hu)
    exact fun hend => ⟨rfl, hend.2⟩

end Piped

/-! ## What a step keeps -/

/-- The clauses of a call's account that do not depend on where it stands. -/
theorem Accounted.setPc {s : GFDataExchanger} {k : Nat} {t : PipeThread} {pc : PipePc}
    (h : Accounted s k t) (hold : t.pc.result = none) (hnew : pc.result = none)
    (hbefore : pc.beforeLoop = true → t.pc.beforeLoop = true) :
    Accounted s k { t with pc := pc } := by
  unfold Accounted at h ⊢
  dsimp only
  rw [hold] at h
  rw [hnew]
  cases hc : t.call with
  | write buffer =>
    rw [hc] at h
    exact h
  | read size =>
    rw [hc] at h
    obtain ⟨hnone, hfilled, hsize, hb, -⟩ := h
    exact ⟨hnone, hfilled, hsize, fun hp => hb (hbefore hp), fun r hr => by cases hr⟩
  | closeWrite =>
    rw [hc] at h
    exact h

/-- The write's own account after a turn of its loop. -/
theorem Accounted.pushed {s : GFDataExchanger} {k n : Nat} {t : PipeThread}
    {buffer : List UInt8} (h : Accounted s k t) (hc : t.call = .write buffer)
    (hold : t.pc.result = none) :
    Accounted (s.push k ((buffer.drop t.written).take n)) k
      { t with written := t.written + n } := by
  unfold Accounted at h ⊢
  dsimp only
  rw [hc, hold] at h
  rw [hc, hold]
  refine ⟨h.1, ?_⟩
  show bytesOf k (s.accepted ++ [(k, _)]) = buffer.take (t.written + n)
  rw [bytesOf_snoc_self, h.2, List.take_add]

/-- The same when a push threw: what it pushed before is there and is not counted. -/
theorem Accounted.pushed_thrown {s : GFDataExchanger} {k i : Nat} {t : PipeThread}
    {buffer : List UInt8} (h : Accounted s k t) (hc : t.call = .write buffer)
    (hold : t.pc.result = none) (hleft : t.written < buffer.length) :
    Accounted (s.push k ((buffer.drop t.written).take i)) k
      { t with pc := .returned t.written } := by
  unfold Accounted at h ⊢
  dsimp only [PipePc.result]
  rw [hc, hold] at h
  rw [hc]
  refine ⟨h.1, ?_, fun hlen => ?_⟩
  · show bytesOf k (s.accepted ++ [(k, _)]) <+: buffer
    rw [bytesOf_snoc_self, h.2, ← List.take_add]
    exact List.take_prefix _ _
  · omega

namespace Piped

variable {s : GFDataExchanger} {k : Nat} {t : PipeThread}

theorem lock (h : Piped s) {pc : PipePc} (ht : Accounted s k { t with pc := pc }) :
    Piped (s.lock k t pc) := by
  unfold GFDataExchanger.lock
  split
  · exact h.setThread _ ht
  · exact h

variable {buffer : List UInt8}

theorem write_accounted (h : Piped s) (hk : s.threads[k]? = some t) (hc : t.call = .write buffer) :
    bytesOf k s.accepted <+: buffer ∧
      (t.pc = .returned buffer.length → bytesOf k s.accepted = buffer) := by
  have ht := h.accounted k t hk
  unfold Accounted at ht
  rw [hc] at ht
  cases hr : t.pc.result with
  | some r =>
    rw [hr] at ht
    refine ⟨ht.2.1, fun hpc => ht.2.2 ?_⟩
    rw [hpc] at hr
    exact (Option.some.inj hr).symm
  | none =>
    rw [hr] at ht
    refine ⟨?_, fun hpc => ?_⟩
    · rw [ht.2]
      exact List.take_prefix _ _
    · rw [hpc] at hr
      cases hr

/-- A write returns: all it was given, or less. -/
theorem writeReturned {r : Int} (h : Piped s) (hk : s.threads[k]? = some t)
    (hc : t.call = .write buffer) (hold : t.pc.result = none)
    (hr : r = buffer.length → buffer.length ≤ t.written) :
    Accounted s k { t with pc := .returned r } := by
  have ht := h.accounted k t hk
  unfold Accounted at ht ⊢
  rw [hc, hold] at ht
  dsimp only [PipePc.result]
  rw [hc]
  obtain ⟨hdel, hacc⟩ := ht
  refine ⟨hdel, ?_, fun hlen => ?_⟩
  · rw [hacc]
    exact List.take_prefix _ _
  · rw [hacc, List.take_of_length_le (hr hlen)]

/-- A read returns what it filled, short only at the end of the stream. -/
theorem readReturned {size : Nat} {r : Int} (h : Piped s)
    (hk : s.threads[k]? = some t) (hc : t.call = .read size) (hr : r = t.filled.length)
    (hend : t.filled.length < size → s.close = true ∧ s.queue = []) :
    Accounted s k { t with pc := .returned r } := by
  have ht := h.accounted k t hk
  unfold Accounted at ht ⊢
  dsimp only
  rw [hc] at ht ⊢
  obtain ⟨hnone, hfilled, hsize, -, -⟩ := ht
  refine ⟨hnone, hfilled, hsize, ?_, ?_⟩
  · intro hp
    cases hp
  · intro r' hr'
    cases hr'
    exact ⟨hr, hend⟩

theorem writeLoop {throwsAt : Option Nat} (h : Piped s) (hk : s.threads[k]? = some t)
    (hc : t.call = .write buffer) (hpc : t.pc = .looping) :
    Piped (s.writeLoop k t buffer throwsAt) := by
  have hold : t.pc.result = none := by rw [hpc]; rfl
  have ht := h.accounted k t hk
  unfold GFDataExchanger.writeLoop
  split
  · next hleft =>
    split
    · exact h.setThread _ (ht.setPc hold rfl fun hp => by cases hp)
    · next hwait =>
      split
      · refine h.setThread _ (h.writeReturned hk hc hold fun hr => ?_)
        omega
      · next hopen =>
        have hopen : s.close = false := Bool.eq_false_iff.mpr hopen
        have hroom : s.queue.length ≤ s.maxSize := h.bound
        -- `n`: the room there is, and no more than is left to write
        generalize hn : min (s.maxSize - s.queue.length) (buffer.length - t.written) = n
        dsimp only
        split
        · next i hi =>
          have hin : i < n := by simpa using (Option.filter_eq_some_iff.mp hi).2
          refine h.push none hk hopen ?_ ?_
          · rw [List.length_take]
            omega
          · exact ht.pushed_thrown hc hold hleft
        · refine Piped.notify (h.push s.mutexOwner hk hopen ?_ ?_) _
          · rw [List.length_take]
            omega
          · exact ht.pushed hc hold
  · next hall =>
    refine h.setThread _ (h.writeReturned hk hc hold fun hr => ?_)
    omega

theorem stepWrite {throwsAt : Option Nat} (h : Piped s) (hk : s.threads[k]? = some t)
    (hc : t.call = .write buffer) : Piped (s.stepWrite k t buffer throwsAt) := by
  have ht := h.accounted k t hk
  unfold GFDataExchanger.stepWrite
  cases hpc : t.pc with
  | entered =>
    have hold : t.pc.result = none := by rw [hpc]; rfl
    dsimp only
    split
    · refine h.setThread s.mutexOwner (h.writeReturned hk hc hold fun hr => ?_)
      omega
    · split
      · refine h.setThread s.mutexOwner (h.writeReturned hk hc hold fun hr => ?_)
        omega
      · exact h.setThread s.mutexOwner (ht.setPc hold rfl fun _ => by rw [hpc]; rfl)
  | locking =>
    exact h.lock (ht.setPc (by rw [hpc]; rfl) rfl fun hp => by cases hp)
  | waiting notified =>
    dsimp only
    split
    · exact h.lock (ht.setPc (by rw [hpc]; rfl) rfl fun hp => by cases hp)
    · exact h
  | looping => exact h.writeLoop hk hc hpc
  | locked => exact h
  | returned r => exact h

theorem readLoop {size : Nat} (h : Piped s) (hk : s.threads[k]? = some t)
    (hc : t.call = .read size) (hpc : t.pc = .looping) : Piped (s.readLoop k t size) := by
  have hold : t.pc.result = none := by rw [hpc]; rfl
  have ht := h.accounted k t hk
  unfold GFDataExchanger.readLoop
  split
  · next hleft =>
    split
    · exact h.setThread _ (ht.setPc hold rfl fun hp => by cases hp)
    · next hwait =>
      split
      · next hempty =>
        have hclosed : s.close = true := by
          by_contra hopen
          exact hwait fun hor => hor.elim (fun hne => hne hempty) hopen
        exact h.setThread _ (h.readReturned hk hc rfl fun _ => ⟨hclosed, hempty⟩)
      · generalize hn : min s.queue.length (size - t.filled.length) = n
        refine Piped.notify (h.pop hk ?_) _
        unfold Accounted at ht ⊢
        dsimp only
        rw [hc] at ht ⊢
        obtain ⟨hnone, hfilled, hsize, -, -⟩ := ht
        refine ⟨hnone, ?_, ?_, ?_, ?_⟩
        · show bytesOf k (s.delivered ++ [(k, _)]) = _
          rw [bytesOf_snoc_self, hfilled]
        · rw [List.length_append, List.length_take]
          omega
        · intro hp
          rw [hpc] at hp
          cases hp
        · intro r hr
          rw [hold] at hr
          cases hr
  · next hfull =>
    exact h.setThread _ (h.readReturned hk hc rfl fun hshort => absurd hshort hfull)

theorem stepRead {size : Nat} (h : Piped s) (hk : s.threads[k]? = some t)
    (hc : t.call = .read size) : Piped (s.stepRead k t size) := by
  have ht := h.accounted k t hk
  unfold GFDataExchanger.stepRead
  cases hpc : t.pc with
  | entered =>
    exact h.setThread s.mutexOwner
      (ht.setPc (by rw [hpc]; rfl) rfl fun _ => by rw [hpc]; rfl)
  | locking =>
    exact h.lock (ht.setPc (by rw [hpc]; rfl) rfl fun _ => by rw [hpc]; rfl)
  | locked =>
    have hfilled : t.filled = [] := by
      unfold Accounted at ht
      rw [hc, hpc] at ht
      exact ht.2.2.2.1 rfl
    dsimp only
    split
    · next hnone =>
      refine h.setThread _ (h.readReturned hk hc (by rw [hfilled]; rfl) fun hshort => ?_)
      rcases hnone with rfl | hend
      · omega
      · exact hend
    · exact h.setThread s.mutexOwner (ht.setPc (by rw [hpc]; rfl) rfl fun hp => by cases hp)
  | waiting notified =>
    dsimp only
    split
    · exact h.lock (ht.setPc (by rw [hpc]; rfl) rfl fun hp => by cases hp)
    · exact h
  | looping => exact h.readLoop hk hc hpc
  | returned r => exact h

theorem stepCloseWrite (h : Piped s) (hk : s.threads[k]? = some t)
    (hc : t.call = .closeWrite) : Piped (s.stepCloseWrite k t) := by
  have ht := h.accounted k t hk
  unfold GFDataExchanger.stepCloseWrite
  cases hpc : t.pc with
  | entered =>
    exact h.setThread s.mutexOwner
      (ht.setPc (by rw [hpc]; rfl) rfl fun _ => by rw [hpc]; rfl)
  | locking =>
    exact h.lock (ht.setPc (by rw [hpc]; rfl) rfl fun _ => by rw [hpc]; rfl)
  | locked =>
    refine Piped.setThread (Piped.notify (Piped.notify h.close _) _) none ?_
    unfold Accounted at ht ⊢
    dsimp only
    rw [hc] at ht ⊢
    exact ht
  | looping => exact h
  | waiting notified => exact h
  | returned r => exact h

/-- **No step loses, repeats or reorders a byte, or overfills the queue.** -/
theorem step (h : Piped s) (a : PipeAction) : Piped (s.step a) := by
  cases a with
  | call c => exact h.call c
  | step k throwsAt =>
    rw [GFDataExchanger.step]
    cases hk : s.threads[k]? with
    | none => exact h
    | some t =>
      dsimp only
      cases hc : t.call with
      | write buffer => exact h.stepWrite hk hc
      | read size => exact h.stepRead hk hc
      | closeWrite => exact h.stepCloseWrite hk hc
  | wake k =>
    rw [GFDataExchanger.step]
    cases hk : s.threads[k]? with
    | none => exact h
    | some t =>
      exact h.setThread s.mutexOwner (accounted_notify.mpr (h.accounted k t hk))

theorem run (h : Piped s) (actions : List PipeAction) : Piped (s.run actions) := by
  induction actions generalizing s with
  | nil => exact h
  | cons a actions ih => exact ih (h.step a)

end Piped

/-! ## A closed pipe -/

namespace GFDataExchanger

variable {s : GFDataExchanger} {k : Nat} {t : PipeThread}

theorem lock_close (pc : PipePc) : (s.lock k t pc).close = s.close := by
  unfold lock
  split <;> rfl

theorem lock_accepted (pc : PipePc) : (s.lock k t pc).accepted = s.accepted := by
  unfold lock
  split <;> rfl

/-- A write looks at `close_` under the mutex before it pushes. -/
theorem writeLoop_closed {buffer : List UInt8} {throwsAt : Option Nat} :
    (s.writeLoop k t buffer throwsAt).close = s.close ∧
      (s.close = true → (s.writeLoop k t buffer throwsAt).accepted = s.accepted) := by
  unfold writeLoop
  split
  · split
    · exact ⟨rfl, fun _ => rfl⟩
    · split
      · exact ⟨rfl, fun _ => rfl⟩
      · next hopen =>
        dsimp only
        split
        · exact ⟨rfl, fun hclosed => absurd hclosed hopen⟩
        · exact ⟨rfl, fun hclosed => absurd hclosed hopen⟩
  · exact ⟨rfl, fun _ => rfl⟩

theorem stepWrite_closed {buffer : List UInt8} {throwsAt : Option Nat} :
    (s.stepWrite k t buffer throwsAt).close = s.close ∧
      (s.close = true → (s.stepWrite k t buffer throwsAt).accepted = s.accepted) := by
  unfold stepWrite
  split
  · split
    · exact ⟨rfl, fun _ => rfl⟩
    · split <;> exact ⟨rfl, fun _ => rfl⟩
  · exact ⟨lock_close _, fun _ => lock_accepted _⟩
  · split
    · exact ⟨lock_close _, fun _ => lock_accepted _⟩
    · exact ⟨rfl, fun _ => rfl⟩
  · exact writeLoop_closed
  · exact ⟨rfl, fun _ => rfl⟩
  · exact ⟨rfl, fun _ => rfl⟩

theorem stepRead_closed {size : Nat} :
    (s.stepRead k t size).close = s.close ∧ (s.stepRead k t size).accepted = s.accepted := by
  unfold stepRead
  split
  · exact ⟨rfl, rfl⟩
  · exact ⟨lock_close _, lock_accepted _⟩
  · split <;> exact ⟨rfl, rfl⟩
  · split
    · exact ⟨lock_close _, lock_accepted _⟩
    · exact ⟨rfl, rfl⟩
  · unfold readLoop
    split
    · split
      · exact ⟨rfl, rfl⟩
      · split <;> exact ⟨rfl, rfl⟩
    · exact ⟨rfl, rfl⟩
  · exact ⟨rfl, rfl⟩

theorem stepCloseWrite_closed :
    (s.close = true → (s.stepCloseWrite k t).close = true) ∧
      (s.stepCloseWrite k t).accepted = s.accepted := by
  unfold stepCloseWrite
  split
  · exact ⟨id, rfl⟩
  · exact ⟨fun h => (lock_close _).trans h, lock_accepted _⟩
  · exact ⟨fun _ => rfl, rfl⟩
  · exact ⟨id, rfl⟩
  · exact ⟨id, rfl⟩
  · exact ⟨id, rfl⟩

/-- A pipe stays closed, and a step that leaves it closed has pushed nothing. -/
theorem step_closed (s : GFDataExchanger) (a : PipeAction) :
    (s.close = true → (s.step a).close = true) ∧
      ((s.step a).close = true → (s.step a).accepted = s.accepted) := by
  cases a with
  | call c => exact ⟨id, fun _ => rfl⟩
  | step k throwsAt =>
    unfold step
    dsimp only
    split
    · exact ⟨id, fun _ => rfl⟩
    · next t _ =>
      split
      · refine ⟨fun h => stepWrite_closed.1.trans h, fun h => stepWrite_closed.2 ?_⟩
        exact stepWrite_closed.1.symm.trans h
      · exact ⟨fun h => stepRead_closed.1.trans h, fun _ => stepRead_closed.2⟩
      · exact ⟨stepCloseWrite_closed.1, fun _ => stepCloseWrite_closed.2⟩
  | wake k =>
    unfold step
    dsimp only
    split <;> exact ⟨id, fun _ => rfl⟩

/-- Nothing enters a closed pipe. -/
theorem run_closed (actions : List PipeAction) (h : s.close = true) :
    (s.run actions).close = true ∧ (s.run actions).accepted = s.accepted := by
  induction actions generalizing s with
  | nil => exact ⟨h, rfl⟩
  | cons a actions ih =>
    have hclosed : (s.step a).close = true := (s.step_closed a).1 h
    obtain ⟨hrun, hacc⟩ := ih hclosed
    exact ⟨hrun, hacc.trans ((s.step_closed a).2 hclosed)⟩

theorem run_append (s : GFDataExchanger) (xs ys : List PipeAction) :
    s.run (xs ++ ys) = (s.run xs).run ys := List.foldl_append

end GFDataExchanger

/-! ## The pipe as a whole -/

/-- A write that returned the size it was given; other calls write nothing. -/
def PipeThread.completed (t : PipeThread) : Bool :=
  match t.call with
  | .write buffer => t.pc = .returned buffer.length
  | _ => true

/-- A read that had a buffer to fill and returned zero. -/
def PipeThread.sawEnd (t : PipeThread) : Bool :=
  match t.call with
  | .read size => 0 < size ∧ t.pc = .returned 0
  | _ => false

namespace Piped

variable {s : GFDataExchanger} {k : Nat} {t : PipeThread}

/-- A read that saw the end saw the pipe closed and empty, and so it still is. -/
theorem drained (h : Piped s) (hk : s.threads[k]? = some t) (hend : t.sawEnd = true) :
    logBytes s.delivered = logBytes s.accepted := by
  have ht := h.accounted k t hk
  unfold Accounted at ht
  unfold PipeThread.sawEnd at hend
  cases hc : t.call with
  | read size =>
    rw [hc] at ht hend
    obtain ⟨hsize, hpc⟩ := of_decide_eq_true hend
    rw [hpc] at ht
    obtain ⟨hlen, hempty⟩ := ht.2.2.2.2 0 rfl
    rw [h.books, (hempty (by omega)).2, List.append_nil]
  | write buffer =>
    rw [hc] at hend
    cases hend
  | closeWrite =>
    rw [hc] at hend
    cases hend

theorem completed {buffer : List UInt8} (h : Piped s) (hk : s.threads[k]? = some t)
    (hc : t.call = .write buffer) (ht : t.completed = true) :
    bytesOf k s.accepted = buffer := by
  refine (h.write_accounted hk hc).2 ?_
  unfold PipeThread.completed at ht
  rw [hc] at ht
  exact of_decide_eq_true ht

end Piped

/-- **The pipe is lossless and bounded.** Over every interleaving of writes, reads and
closes, by any number of threads, with pushes that may run out of memory: the bytes
popped by reads are a prefix of the bytes pushed by writes; each read returned exactly
the bytes it popped, and each write pushed a prefix of its buffer, all of it when it
returned its size; the queue never exceeds its maximum. When every write had completed
before the step that closed the pipe, and a read came back with zero, the bytes read are
the bytes those writes wrote, each buffer in full. -/
theorem pipe_lossless_bounded (size : Int64) (actions : List PipeAction) :
    let s := (GFDataExchanger.new size).run actions
    logBytes s.delivered <+: logBytes s.accepted ∧
    s.queue.length ≤ s.maxSize ∧
    (∀ k t n r, s.threads[k]? = some t → t.call = .read n → t.pc = .returned r →
      bytesOf k s.delivered = t.filled ∧ r = t.filled.length ∧ t.filled.length ≤ n) ∧
    (∀ k t buffer, s.threads[k]? = some t → t.call = .write buffer →
      bytesOf k s.accepted <+: buffer ∧
      (t.pc = .returned buffer.length → bytesOf k s.accepted = buffer)) ∧
    ∀ before a after, actions = before ++ a :: after →
      let open_ := (GFDataExchanger.new size).run before
      open_.close = false → (open_.step a).close = true →
      (∀ t ∈ open_.threads, t.completed = true) → (∃ t ∈ s.threads, t.sawEnd = true) →
      logBytes s.delivered = logBytes s.accepted ∧ s.accepted = open_.accepted ∧
      ∀ k t buffer, open_.threads[k]? = some t → t.call = .write buffer →
        bytesOf k s.accepted = buffer := by
  intro s
  have hs : Piped s := (Piped.new size).run actions
  refine ⟨?_, hs.bound, ?_, ?_, ?_⟩
  · rw [hs.books]
    exact List.prefix_append _ _
  · intro k t n r hk hc hpc
    have ht := hs.accounted k t hk
    unfold Accounted at ht
    rw [hc, hpc] at ht
    exact ⟨ht.2.1, (ht.2.2.2.2 r rfl).1, ht.2.2.1⟩
  · intro k t buffer hk hc
    exact hs.write_accounted hk hc
  · intro before a after hsplit open_ _ hclosed hwritten hdrained
    have hopen : Piped open_ := (Piped.new size).run before
    have hrun : s = (open_.step a).run after := by
      show (GFDataExchanger.new size).run actions = _
      rw [hsplit]
      exact GFDataExchanger.run_append _ before (a :: after)
    have hacc : s.accepted = open_.accepted := by
      rw [hrun, (GFDataExchanger.run_closed after hclosed).2, (open_.step_closed a).2 hclosed]
    obtain ⟨t, ht, hend⟩ := hdrained
    obtain ⟨k, hk⟩ := List.getElem?_of_mem ht
    refine ⟨hs.drained hk hend, hacc, ?_⟩
    intro k t buffer hk hc
    rw [hacc]
    exact hopen.completed hk hc (hwritten t (List.mem_of_getElem? hk))

/-- A write of three bytes through a pipe of two has to wait for the reader. -/
def threeThroughTwo : List PipeAction :=
  [.call (.write [1, 2, 3]), .call (.read 2), .step 0 none, .step 0 none, .step 0 none,
    .step 0 none, .step 1 none, .step 1 none, .step 1 none, .step 1 none, .step 1 none,
    .step 0 none, .step 0 none, .step 0 none, .call .closeWrite, .step 2 none, .step 2 none]

/-- After the close, one read gets the rest and the next one sees the end. -/
def drainTwo : List PipeAction :=
  [.call (.read 2), .step 3 none, .step 3 none, .step 3 none, .step 3 none, .step 3 none,
    .call (.read 2), .step 4 none, .step 4 none, .step 4 none]

theorem threeThroughTwo_read_back :
    (∀ t ∈ ((GFDataExchanger.new 2).run threeThroughTwo).threads, t.completed = true) ∧
    logBytes ((GFDataExchanger.new 2).run (threeThroughTwo ++ .step 2 none :: drainTwo)).delivered =
      [1, 2, 3] := by
  have hwritten : ∀ t ∈ ((GFDataExchanger.new 2).run threeThroughTwo).threads,
      t.completed = true := by decide
  obtain ⟨-, -, -, -, hend⟩ :=
    pipe_lossless_bounded 2 (threeThroughTwo ++ .step 2 none :: drainTwo)
  obtain ⟨hread, -, -⟩ := hend threeThroughTwo (.step 2 none) drainTwo rfl (by decide)
    (by decide) hwritten (by decide)
  exact ⟨hwritten, hread.trans (by decide)⟩

/-! ## Wake-ups -/

/-- The predicate a waiting call waits for is still false. -/
def NothingToDo (s : GFDataExchanger) (t : PipeThread) : Prop :=
  match t.call with
  | .write _ => s.maxSize ≤ s.queue.length ∧ s.close = false
  | .read _ => s.queue = [] ∧ s.close = false
  | .closeWrite => False

/-- Every call that waits unnotified has nothing to do. -/
def NoneForgotten (s : GFDataExchanger) : Prop :=
  ∀ t ∈ s.threads, t.pc = .waiting false → NothingToDo s t

namespace NoneForgotten

variable {s : GFDataExchanger} {k : Nat} {t : PipeThread}

theorem setThread (h : NoneForgotten s) (owner : Option Nat)
    (ht : t.pc = .waiting false → NothingToDo s t) :
    NoneForgotten { s.setThread k t with mutexOwner := owner } := by
  intro u hu hpc
  rcases List.mem_or_eq_of_mem_set hu with hu | rfl
  · exact h u hu hpc
  · exact ht hpc

theorem lock (h : NoneForgotten s) {pc : PipePc} (hpc : pc ≠ .waiting false) :
    NoneForgotten (s.lock k t pc) := by
  unfold GFDataExchanger.lock
  split
  · exact h.setThread _ fun h' => absurd h' hpc
  · exact h

theorem notify_ne (t : PipeThread) : t.notify.pc ≠ .waiting false := by
  cases t with
  | mk c pc w f => cases pc <;> simp [PipeThread.notify]

/-- After a change of the queue, it is enough that the calls left alone have nothing to do. -/
theorem notify {s' : GFDataExchanger} {p : PipeThread → Bool}
    (h : ∀ t ∈ s'.threads, p t = false → t.pc = .waiting false → NothingToDo s' t) :
    NoneForgotten { s' with threads := s'.threads.map fun t => if p t then t.notify else t } := by
  intro u hu hpc
  obtain ⟨v, hv, rfl⟩ := List.mem_map.mp hu
  split at hpc
  · exact absurd hpc (notify_ne v)
  · next hp =>
    rw [if_neg hp]
    exact h v hv (Bool.eq_false_iff.mpr hp) hpc

theorem writeLoop {buffer : List UInt8} (h : NoneForgotten s) (hc : t.call = .write buffer)
    (hpc : t.pc = .looping) : NoneForgotten (s.writeLoop k t buffer none) := by
  unfold GFDataExchanger.writeLoop
  split
  · split
    · next hfull =>
      refine h.setThread _ fun _ => ?_
      unfold NothingToDo
      dsimp only
      rw [hc]
      simp only [not_or, Nat.not_lt, Bool.not_eq_true] at hfull
      exact hfull
    · split
      · exact h.setThread _ fun h' => by cases h'
      · dsimp only [Option.filter]
        -- readers are woken; a writer that found the queue full finds it fuller
        refine notify fun u hu hnot hwait => ?_
        rcases List.mem_or_eq_of_mem_set hu with hu | rfl
        · have hu' := h u hu hwait
          unfold NothingToDo at hu' ⊢
          cases hcu : u.call with
          | write b =>
            rw [hcu] at hu'
            refine ⟨?_, hu'.2⟩
            show s.maxSize ≤ (s.queue ++ _).length
            rw [List.length_append]
            omega
          | read n =>
            unfold PipeThread.isRead at hnot
            rw [hcu] at hnot
            cases hnot
          | closeWrite =>
            rw [hcu] at hu'
            exact hu'
        · rw [hpc] at hwait
          cases hwait
  · exact h.setThread _ fun h' => by cases h'

theorem readLoop {size : Nat} (h : NoneForgotten s) (hc : t.call = .read size)
    (hpc : t.pc = .looping) : NoneForgotten (s.readLoop k t size) := by
  unfold GFDataExchanger.readLoop
  split
  · split
    · next hempty =>
      refine h.setThread _ fun _ => ?_
      unfold NothingToDo
      dsimp only
      rw [hc]
      simp only [not_or, not_not, Bool.not_eq_true] at hempty
      exact hempty
    · split
      · exact h.setThread _ fun h' => by cases h'
      · -- writers are woken; a reader that found the queue empty finds it empty
        refine notify fun u hu hnot hwait => ?_
        rcases List.mem_or_eq_of_mem_set hu with hu | rfl
        · have hu' := h u hu hwait
          unfold NothingToDo at hu' ⊢
          cases hcu : u.call with
          | write b =>
            unfold PipeThread.isWrite at hnot
            rw [hcu] at hnot
            cases hnot
          | read n =>
            rw [hcu] at hu'
            refine ⟨?_, hu'.2⟩
            show s.queue.drop _ = []
            rw [hu'.1, List.drop_nil]
          | closeWrite =>
            rw [hcu] at hu'
            exact hu'
        · rw [hpc] at hwait
          cases hwait
  · exact h.setThread _ fun h' => by cases h'

theorem stepCloseWrite (h : NoneForgotten s) : NoneForgotten (s.stepCloseWrite k t) := by
  unfold GFDataExchanger.stepCloseWrite
  split
  · exact h.setThread s.mutexOwner fun h' => by cases h'
  · exact h.lock (by simp)
  · -- both variables are notified, so no read and no write is left waiting
    refine NoneForgotten.setThread ?_ none fun h' => by cases h'
    refine notify fun u hu hread hwait => ?_
    obtain ⟨v, hv, rfl⟩ := List.mem_map.mp hu
    split at hwait
    · exact absurd hwait (notify_ne v)
    · next hwrite =>
      rw [if_neg hwrite] at hread ⊢
      have hv' := h v hv hwait
      unfold NothingToDo at hv' ⊢
      unfold PipeThread.isRead at hread
      unfold PipeThread.isWrite at hwrite
      cases hcv : v.call with
      | write b =>
        rw [hcv] at hwrite
        exact absurd rfl hwrite
      | read n =>
        rw [hcv] at hread
        cases hread
      | closeWrite =>
        rw [hcv] at hv'
        exact hv'
  · exact h
  · exact h
  · exact h

/-- **No wake-up is missed**: a step that pushes without running out of memory leaves no
call asleep that could go on. -/
theorem step (h : NoneForgotten s) {a : PipeAction} (ha : ∀ k i, a ≠ .step k (some i)) :
    NoneForgotten (s.step a) := by
  cases a with
  | call c =>
    intro u hu hpc
    rcases List.mem_append.mp hu with hu | hu
    · exact h u hu hpc
    · rw [List.mem_singleton.mp hu] at hpc
      cases hpc
  | step k throwsAt =>
    cases throwsAt with
    | some i => exact absurd rfl (ha k i)
    | none =>
      unfold GFDataExchanger.step
      dsimp only
      split
      · exact h
      · split
        · next hc =>
          unfold GFDataExchanger.stepWrite
          split
          · split
            · exact h.setThread s.mutexOwner fun h' => by cases h'
            · split <;> exact h.setThread s.mutexOwner fun h' => by cases h'
          · exact h.lock (by simp)
          · split
            · exact h.lock (by simp)
            · exact h
          · next hpc => exact h.writeLoop hc hpc
          · exact h
          · exact h
        · next hc =>
          unfold GFDataExchanger.stepRead
          split
          · exact h.setThread s.mutexOwner fun h' => by cases h'
          · exact h.lock (by simp)
          · split
            · exact h.setThread none fun h' => by cases h'
            · exact h.setThread s.mutexOwner fun h' => by cases h'
          · split
            · exact h.lock (by simp)
            · exact h
          · next hpc => exact h.readLoop hc hpc
          · exact h
        · exact h.stepCloseWrite
  | wake k =>
    unfold GFDataExchanger.step
    dsimp only
    split
    · exact h
    · next t _ => exact h.setThread s.mutexOwner fun h' => absurd h' (notify_ne t)

end NoneForgotten

theorem no_lost_wakeup (size : Int64) {s : GFDataExchanger}
    (h : ReachableUnder GFDataExchanger.step (fun _ a => ∀ k i, a ≠ .step k (some i))
      (GFDataExchanger.new size) s) : NoneForgotten s :=
  h.inv (fun _ ht => by cases ht) fun _ _ hs ha => hs.step ha

/-- A reader of the empty pipe falls asleep, and the push of a byte notifies it. -/
theorem no_lost_wakeup_reader :
    let asleep := .call (.read 2) :: List.replicate 4 (.step 0 none)
    let s := (GFDataExchanger.new 2).run
      (asleep ++ .call (.write [7]) :: List.replicate 3 (.step 1 none))
    ((GFDataExchanger.new 2).run asleep).threads.map (·.pc) = [.waiting false] ∧
      (s.threads.map (·.pc)).head? = some (.waiting true) ∧ NoneForgotten s :=
  ⟨by decide, by decide,
    no_lost_wakeup 2 (.foldl .start (by simp [BeforeEach, List.replicate]))⟩

end GpgFrontend
