import GpgFrontend.Base.Runs
import GpgFrontend.Mob.OperationQueue

/-!
# What becomes of an operation (`mob/crypto/OperationQueue.cpp`)

- `Operations`: the queue without its code, and `Operations.Step`, all that can happen to it.
- `step_refines`: the code does nothing else, whoever it calls and whatever they call.
- `operations_sound`: **one operation runs at a time, each starts once and ends once, and they
  start in order.** `queue_never_stalls`: **none is forgotten, and none is left after `Close`.**
-/

namespace GpgFrontend

/-! ## Where the operations are -/

def LogCall.isEnd : LogCall → Bool
  | .finished _ _ => true
  | _ => false

/-- The operations with such an entry, in its order. -/
def itemsOf (p : LogCall → Bool) (trace : List QueueEvent) :
    List OperationItem :=
  (trace.filter fun e => p e.what).map (·.item)

theorem itemsOf_snoc (p : LogCall → Bool) (trace : List QueueEvent)
    (what : LogCall) (item : OperationItem) :
    itemsOf p (trace ++ [⟨what, item⟩]) = itemsOf p trace ++ if p what then [item] else [] := by
  rw [itemsOf, List.filter_append, List.map_append, ← itemsOf]
  cases hp : p what <;> simp [hp]

/-- The queue without its code: an operation waits, runs, is about to be recorded as cancelled
(`leaving`), or has ended. The runner of those in `unrun` is yet to be called. -/
structure Operations where
  waiting : List OperationItem
  running : Option OperationItem
  leaving : List OperationItem
  unrun : List OperationItem
  nextId : Nat
  trace : List QueueEvent

namespace Operations

variable {v v' : Operations}

/-- All that can happen to the operations. -/
inductive Step (v : Operations) : Operations → Prop
  | submit (owner : Nat) (surface : OperationSurface) : Step v
      { v with
        waiting := OperationQueue.insertItem ⟨v.nextId, owner, surface⟩ v.waiting
        nextId := v.nextId + 1
        trace := v.trace ++ [⟨.added, v.nextId, owner, surface⟩] }
  | start {item : OperationItem} {rest : List OperationItem} :
      v.running = none → v.waiting = item :: rest → Step v
      { v with
        waiting := rest
        running := some item
        unrun := item :: v.unrun
        trace := v.trace ++ [⟨.started, item⟩] }
  | run {item : OperationItem} {rest : List OperationItem} :
      v.unrun = item :: rest → Step v { v with unrun := rest, trace := v.trace ++ [⟨.ran, item⟩] }
  | phase {item : OperationItem} (p : OperationPhase) :
      v.running = some item → Step v { v with trace := v.trace ++ [⟨.phase p, item⟩] }
  | complete {item : OperationItem} (p : OperationPhase) (reason : String) :
      v.running = some item →
      Step v { v with running := none, trace := v.trace ++ [⟨.finished p reason, item⟩] }
  | take {gone kept : List OperationItem} :
      (gone ++ kept).Perm v.waiting → kept.Sublist v.waiting →
      Step v { v with waiting := kept, leaving := gone ++ v.leaving }
  | cancel {item : OperationItem} {rest : List OperationItem} (reason : String) :
      v.leaving = item :: rest → Step v
      { v with leaving := rest, trace := v.trace ++ [⟨.finished .cancelled reason, item⟩] }

/-- Text goes first, and one surface in the order of submission. -/
def Ahead (x y : OperationItem) : Prop :=
  x.surface = .text ∧ y.surface = .files ∨ x.surface = y.surface ∧ x.id < y.id

/-- After its end, an operation has no entry but a late call of its runner. -/
def EndsThere (e e' : QueueEvent) : Prop :=
  e.what.isEnd = true → e'.item = e.item → e'.what = .ran

variable (v)

def added : List OperationItem := itemsOf (· = .added) v.trace

def started : List OperationItem := itemsOf (· = .started) v.trace

def ran : List OperationItem := itemsOf (· = .ran) v.trace

def finished : List OperationItem := itemsOf LogCall.isEnd v.trace

structure Sound : Prop where
  /-- Every operation is in one place. -/
  placed : (v.waiting ++ v.running.toList ++ v.leaving ++ v.finished).Perm v.added
  ids : v.added.Pairwise fun x y => x.id < y.id
  fresh : ∀ x ∈ v.added, x.id < v.nextId
  /-- Only the one that runs is started and not ended. -/
  started : ∀ x ∈ v.started, x ∈ v.finished ∨ v.running = some x
  running : ∀ x, v.running = some x → x ∈ v.started
  /-- The runner is called once for each start. -/
  ran : (v.ran ++ v.unrun).Perm v.started
  sorted : v.waiting.Pairwise Ahead
  ahead : ∀ x ∈ v.started, ∀ y ∈ v.waiting, x.surface = y.surface → x.id < y.id
  inOrder : v.started.Pairwise fun x y => x.surface = y.surface → x.id < y.id
  final : v.trace.Pairwise EndsThere

variable {v}

theorem insertItem_perm (item : OperationItem) (l : List OperationItem) :
    (OperationQueue.insertItem item l).Perm (item :: l) := by
  induction l with
  | nil => exact .refl _
  | cons waiting rest ih =>
    rw [OperationQueue.insertItem]
    split
    · exact .refl _
    · exact (ih.cons waiting).trans (.swap _ _ _)

/-- The newest operation goes behind those of its surface. -/
theorem insertItem_sorted {item : OperationItem} {l : List OperationItem}
    (h : l.Pairwise Ahead) (hnew : ∀ x ∈ l, x.id < item.id) :
    (OperationQueue.insertItem item l).Pairwise Ahead := by
  induction l with
  | nil => exact List.pairwise_singleton _ _
  | cons waiting rest ih =>
    obtain ⟨hfirst, hrest⟩ := List.pairwise_cons.1 h
    rw [OperationQueue.insertItem]
    split
    · next htext =>
      refine List.pairwise_cons.2 ⟨fun y hy => .inl ⟨htext.1, ?_⟩, h⟩
      rcases List.mem_cons.1 hy with rfl | hy
      · exact htext.2
      · rcases hfirst y hy with ⟨hw, -⟩ | ⟨hw, -⟩
        · rw [htext.2] at hw
          cases hw
        · exact hw ▸ htext.2
    · next hbehind =>
      refine List.pairwise_cons.2 ⟨fun y hy => ?_, ih hrest fun x hx => hnew x (.tail _ hx)⟩
      rcases List.mem_cons.1 ((insertItem_perm item rest).mem_iff.1 hy) with rfl | hy
      · have hid := hnew waiting (.head _)
        unfold Ahead
        cases hw : waiting.surface <;> cases hy : y.surface <;> simp_all
      · exact hfirst y hy

theorem Sound.nodup (h : Sound v) :
    (v.waiting ++ v.running.toList ++ v.leaving ++ v.finished).Nodup :=
  h.placed.nodup_iff.2 (h.ids.imp fun hlt heq => absurd (heq ▸ hlt) (Nat.lt_irrefl _))

theorem Sound.final_snoc (h : Sound v) {what : LogCall} {item : OperationItem}
    (he : item ∈ v.finished → what = .ran) :
    (v.trace ++ [(⟨what, item⟩ : QueueEvent)]).Pairwise EndsThere := by
  refine List.pairwise_append.2 ⟨h.final, List.pairwise_singleton _ _, fun e hmem e' he' => ?_⟩
  obtain rfl := List.mem_singleton.1 he'
  rintro hend rfl
  exact he (List.mem_map.2 ⟨e, List.mem_filter.2 ⟨hmem, hend⟩, rfl⟩)

theorem perm_ended {α : Type} (item : α) (before l ended : List α) :
    (before ++ l ++ (ended ++ [item])).Perm (before ++ item :: (l ++ ended)) := by
  rw [List.append_assoc, ← List.append_assoc l]
  exact (List.perm_append_singleton item _).append_left before

/-- One constructor of `Step` after the other; `first` is for what it leaves alone. -/
theorem Sound.step (h : Sound v) (hstep : Step v v') : Sound v' := by
  have hnodup := h.nodup
  have hknown : ∀ x ∈ v.waiting, x ∈ v.added := fun x hx => h.placed.mem_iff.1 (by simp [hx])
  have hdone : ∀ x ∈ v.finished, x ∈ v.added := fun x hx => h.placed.mem_iff.1 (by simp [hx])
  have hold : ∀ x ∈ v.started, x ∈ v.added := fun x hx =>
    h.placed.mem_iff.1 (by rcases h.started x hx with h | h <;> simp [h])
  have hplaced := h.placed
  have hsorted := h.sorted
  cases hstep <;> constructor <;>
    simp only [Operations.added, Operations.started, Operations.ran, Operations.finished,
      itemsOf_snoc, LogCall.isEnd, reduceCtorEq, decide_false, decide_true, Bool.false_eq_true,
      if_false, if_true, List.append_nil] <;>
    try first
      | exact h.placed | exact h.ids | exact h.fresh | exact h.started | exact h.running
      | exact h.ran | exact h.sorted | exact h.ahead | exact h.inOrder | exact h.final
  case submit.placed owner surface =>
    have hnew := (((insertItem_perm ⟨v.nextId, owner, surface⟩ v.waiting).append_right
      v.running.toList).append_right v.leaving).append_right v.finished
    exact hnew.trans ((hplaced.cons _).trans (List.perm_append_singleton _ v.added).symm)
  case submit.ids owner surface =>
    exact List.pairwise_append.2 ⟨h.ids, List.pairwise_singleton _ _, fun x hx y hy =>
      List.mem_singleton.1 hy ▸ h.fresh x hx⟩
  case submit.fresh owner surface =>
    intro x hx
    rcases List.mem_append.1 hx with hx | hx
    · exact Nat.lt_succ_of_lt (h.fresh x hx)
    · exact List.mem_singleton.1 hx ▸ Nat.lt_succ_self _
  case submit.sorted owner surface =>
    exact insertItem_sorted hsorted fun x hx => h.fresh x (hknown x hx)
  case submit.ahead owner surface =>
    intro x hx y hy hsurface
    rcases List.mem_cons.1 ((insertItem_perm _ _).mem_iff.1 hy) with rfl | hy
    · exact h.fresh x (hold x hx)
    · exact h.ahead x hx y hy hsurface
  case submit.final owner surface =>
    exact h.final_snoc fun hmem => absurd (h.fresh _ (hdone _ hmem)) (Nat.lt_irrefl v.nextId)
  case start.placed item rest hnone hfirst =>
    rw [hnone, hfirst, Option.toList_none, List.append_nil] at hplaced
    exact (((List.perm_append_singleton item rest).append_right _).append_right _).trans hplaced
  case start.started item rest hnone hfirst =>
    intro x hx
    rcases List.mem_append.1 hx with hx | hx
    · exact .inl ((h.started x hx).resolve_right (by simp [hnone]))
    · exact .inr (List.mem_singleton.1 hx ▸ rfl)
  case start.running item rest hnone hfirst =>
    rintro x ⟨⟩
    exact List.mem_append_right _ (.head _)
  case start.ran item rest hnone hfirst =>
    exact (List.perm_middle.trans (h.ran.cons item)).trans (List.perm_append_singleton _ _).symm
  case start.sorted item rest hnone hfirst => exact (List.pairwise_cons.1 (hfirst ▸ hsorted)).2
  case start.ahead item rest hnone hfirst =>
    intro x hx y hy hsurface
    rcases List.mem_append.1 hx with hx | hx
    · exact h.ahead x hx y (hfirst ▸ .tail _ hy) hsurface
    · obtain rfl := List.mem_singleton.1 hx
      -- text that goes ahead of files is of another surface
      rcases (List.pairwise_cons.1 (hfirst ▸ hsorted)).1 y hy with ⟨hx, hy⟩ | ⟨-, hlt⟩
      · rw [hx, hy] at hsurface
        cases hsurface
      · exact hlt
  case start.inOrder item rest hnone hfirst =>
    exact List.pairwise_append.2 ⟨h.inOrder, List.pairwise_singleton _ _, fun x hx y hy hsurface =>
      List.mem_singleton.1 hy ▸ h.ahead x hx y (by simp_all) hsurface⟩
  case start.final item rest hnone hfirst =>
    -- what waits has not ended: it is in one place
    refine h.final_snoc fun hmem => ?_
    simp_all [List.nodup_append]
  case run.ran item rest hrun =>
    have hran := h.ran
    rw [hrun] at hran
    rw [List.append_assoc]
    exact hran
  -- a runner may be called after its operation has ended
  case run.final item rest hrun => exact h.final_snoc fun _ => rfl
  case phase.final item p hrun =>
    refine h.final_snoc fun hmem => ?_
    simp_all [List.nodup_append]
  case complete.placed item p reason hrun =>
    rw [hrun] at hplaced
    refine (perm_ended _ _ _ _).trans ?_
    simpa [Operations.finished, Operations.added] using hplaced
  case complete.started item p reason hrun =>
    intro x hx
    rcases h.started x hx with hend | hend
    · exact .inl (List.mem_append_left _ hend)
    · obtain rfl := Option.some.inj (hend.symm.trans hrun)
      exact .inl (List.mem_append_right _ (.head _))
  case complete.running => exact fun x hx => nomatch hx
  case complete.final item p reason hrun =>
    refine h.final_snoc fun hmem => ?_
    simp_all [List.nodup_append]
  case take.placed gone kept hperm hsub =>
    have hgone : (kept ++ v.running.toList ++ gone).Perm (gone ++ (kept ++ v.running.toList)) :=
      List.perm_append_comm
    have hback := ((hperm.append_right v.running.toList).append_right v.leaving).append_right
      v.finished
    refine List.Perm.trans ?_ (hback.trans hplaced)
    simpa [Operations.finished] using (hgone.append_right v.leaving).append_right v.finished
  case take.sorted gone kept hperm hsub => exact hsorted.sublist hsub
  case take.ahead gone kept hperm hsub => exact fun x hx y hy => h.ahead x hx y (hsub.subset hy)
  case cancel.placed item rest reason hfirst =>
    rw [hfirst] at hplaced
    refine (perm_ended _ _ _ _).trans ?_
    simpa [Operations.finished, Operations.added] using hplaced
  case cancel.started item rest reason hfirst =>
    exact fun x hx => (h.started x hx).imp_left (List.mem_append_left _)
  case cancel.final item rest reason hfirst =>
    refine h.final_snoc fun hmem => ?_
    simp_all [List.nodup_append]

end Operations

/-! ## The code does nothing else -/

namespace OperationQueue

/-- A task that takes an operation out, or calls its runner, still holds it. -/
def view (s : OperationQueue) : Operations where
  waiting := s.queue
  running := s.running
  leaving := s.todo.filterMap fun | .cancelItem item _ => some item | _ => none
  unrun := s.todo.filterMap fun | .run item => some item | _ => none
  nextId := s.nextId
  trace := s.trace

/-- Nothing happened to the operations, or one thing did. -/
def Refines (s s' : OperationQueue) : Prop := s'.view = s.view ∨ Operations.Step s.view s'.view

variable {s : OperationQueue}

theorem complete_refines (id : Nat) (phase : OperationPhase) (reason : String) :
    Refines s (s.complete id phase reason) := by
  unfold complete
  split
  · exact .inl rfl
  · next item hrun =>
    split
    · exact .inl rfl
    · exact .inr (.complete _ _ hrun)

theorem promptChanged_refines : Refines s s.promptChanged := by
  unfold promptChanged
  split
  · exact .inl rfl
  · next item hrun => exact .inr (.phase _ hrun)

theorem call_refines (c : QueueCall) : Refines s (s.call c) := by
  cases c with
  | submit owner surface hasRunner =>
    cases owner with
    | none => exact .inl rfl
    | some owner =>
      rw [call]
      split
      · exact .inl rfl
      · exact .inr (.submit owner surface)
  | complete id phase reason => exact complete_refines id phase reason
  | cancel id reason =>
    rw [call]
    split
    · exact .inl rfl
    · next item hfind =>
      have hmem := List.mem_of_find?_eq_some hfind
      have hperm : ([item] ++ s.queue.erase item).Perm s.queue :=
        (List.perm_cons_erase hmem).symm
      have hstep : Operations.Step s.view _ := .take hperm List.erase_sublist
      exact .inr hstep
  | forgetOwner owner =>
    have hperm := List.filter_append_perm (fun item => decide (item.owner = owner)) s.queue
    have hstep : Operations.Step s.view _ := .take hperm List.filter_sublist
    refine .inr ?_
    simpa [call, view, push, List.filterMap_append, List.filterMap_map, Function.comp_def]
      using hstep
  | close => exact .inl rfl
  | suspended => exact .inl rfl
  | prompt asking => exact promptChanged_refines

theorem exec_refines {task : QueueTask} {rest : List QueueTask} (htodo : s.todo = task :: rest) :
    Refines s ({ s with todo := rest }.exec task) := by
  obtain ⟨queue, running, nextId, starting, closed, wasBusy, suspended, asking, todo, trace⟩ := s
  obtain rfl : todo = task :: rest := htodo
  cases task with
  | callback => exact .inl rfl
  | startNext =>
    rw [exec]
    split <;> exact .inl rfl
  | startLoop =>
    rw [exec]
    split
    · next item rest hrun hqueue => exact .inr (.start hrun hqueue)
    · exact .inl rfl
  | run item => exact .inr (.run rfl)
  | promptChanged => exact promptChanged_refines
  | busyChanged =>
    rw [exec]
    split <;> exact .inl rfl
  | cancelItem item reason => exact .inr (.cancel reason rfl)
  | forgetRunning owner =>
    rw [exec]
    split
    · split
      · exact complete_refines _ _ _
      · exact .inl rfl
    · exact .inl rfl
  | closeLoop =>
    rw [exec]
    split
    · exact .inl rfl
    · next item rest hqueue =>
      obtain rfl : queue = item :: rest := hqueue
      exact .inr (@Operations.Step.take _ [item] rest (.refl _) (List.sublist_cons_self item rest))

theorem step_refines (a : Option QueueCall) : Refines s (s.step a) := by
  unfold step
  cases a with
  | some c =>
    dsimp only
    split
    · exact call_refines c
    · exact call_refines c
    · exact .inl rfl
  | none =>
    dsimp only
    split
    · exact .inl rfl
    · next task rest htodo => exact exec_refines htodo

/-! ## Nothing is forgotten -/

/-- One loop starts operations at a time; while something waits and nothing runs, it is going or
about to; and what waits when the queue is closed is being taken out. -/
structure Driven (s : OperationQueue) : Prop where
  loops : s.todo.count .startLoop = s.starting.toNat
  wakes : s.running = none → s.queue ≠ [] → .startNext ∈ s.todo ∨ .startLoop ∈ s.todo
  closes : s.closed = true → s.queue = [] ∨ .closeLoop ∈ s.todo

theorem Driven.complete (h : Driven s) (id : Nat) (phase : OperationPhase) (reason : String) :
    Driven (s.complete id phase reason) := by
  obtain ⟨hloops, hwakes, hcloses⟩ := h
  unfold OperationQueue.complete
  repeat' split
  all_goals constructor <;> simp_all [emit, push]

theorem Driven.promptChanged (h : Driven s) : Driven s.promptChanged := by
  unfold OperationQueue.promptChanged
  split
  · exact h
  · exact ⟨h.loops, h.wakes, h.closes⟩

/-- Waiting operations may be taken out. -/
theorem Driven.take (h : Driven s) {kept : List OperationItem} {tasks : List QueueTask}
    (hkept : kept.Sublist s.queue) (htasks : .startLoop ∉ tasks) :
    Driven (push { s with queue := kept } tasks) := by
  obtain ⟨hloops, hwakes, hcloses⟩ := h
  constructor
  · simp [push, hloops, List.count_eq_zero.2 htasks]
  · intro hrun hqueue
    have hwaits : s.queue ≠ [] := fun hnil => hqueue (List.sublist_nil.1 (hnil ▸ hkept))
    exact (hwakes hrun hwaits).imp (List.mem_append_right _) (List.mem_append_right _)
  · intro hclosed
    refine (hcloses hclosed).imp (fun hnil => ?_) (List.mem_append_right _)
    rw [hnil] at hkept
    exact List.sublist_nil.1 hkept

theorem Driven.call (h : Driven s) (c : QueueCall) : Driven (s.call c) := by
  obtain ⟨hloops, hwakes, hcloses⟩ := id h
  cases c with
  | submit owner surface hasRunner =>
    cases owner with
    | none => exact h
    | some owner =>
      rw [OperationQueue.call]
      split
      · exact h
      · constructor <;> simp_all [emit, push]
  | complete id phase reason => exact h.complete id phase reason
  | cancel id reason =>
    rw [OperationQueue.call]
    split
    · exact h
    · exact h.take List.erase_sublist (by simp)
  | forgetOwner owner => exact h.take List.filter_sublist (by simp)
  | close => constructor <;> simp_all [OperationQueue.call, push]
  | suspended => exact ⟨hloops, hwakes, hcloses⟩
  | prompt asking => exact .promptChanged ⟨hloops, hwakes, hcloses⟩

theorem Driven.exec (h : Driven s) {task : QueueTask} {rest : List QueueTask}
    (htodo : s.todo = task :: rest) : Driven ({ s with todo := rest }.exec task) := by
  obtain ⟨hloops, hwakes, hcloses⟩ := h
  rw [htodo] at hloops hwakes hcloses
  cases task with
  | startNext =>
    rw [OperationQueue.exec]
    split
    · next hstarting =>
      -- the loop that is going goes on
      have hgoing : QueueTask.startLoop ∈ rest := by
        rw [← List.count_pos_iff]
        simp_all
      constructor <;> simp_all
    · constructor <;> simp_all [push]
  | startLoop =>
    rw [OperationQueue.exec]
    split
    · constructor <;> simp_all [emit, push]
    · next hnone =>
      -- the loop ends only where nothing waits or something runs
      refine ⟨?_, fun hrun hqueue => ?_, by simpa using hcloses⟩
      · cases hs : s.starting <;> simp_all
      · obtain ⟨item, rest, hcons⟩ := List.exists_cons_of_ne_nil hqueue
        exact absurd hcons (hnone item rest hrun)
  | promptChanged => exact .promptChanged (by constructor <;> simp_all)
  | forgetRunning owner =>
    have hpop : Driven { s with todo := rest } := by constructor <;> simp_all
    rw [OperationQueue.exec]
    repeat' split
    · exact hpop.complete _ _ _
    all_goals exact hpop
  | callback | run | cancelItem => constructor <;> simp_all [OperationQueue.exec, emit, push]
  | busyChanged | closeLoop =>
    rw [OperationQueue.exec]
    split <;> constructor <;> simp_all [push]

/-! ## Every run -/

/-- **Whatever is called, and wherever the queue calls out**: every operation is in one place, at
most one is started and not ended, the runner is called once for each start, operations start in
order, and what has ended is recorded as nothing else. -/
theorem operations_sound (h : ReachableUnder step (fun _ _ => True) {} s) :
    Operations.Sound s.view := by
  refine h.inv (I := fun s => s.view.Sound) ?_ fun s a hs _ => ?_
  · constructor <;> simp [view, Operations.added, Operations.started, Operations.ran,
      Operations.finished, itemsOf]
  · rcases step_refines (s := s) a with heq | hstep
    · rw [heq]
      exact hs
    · exact hs.step hstep

/-- A handler of `SignalStarted` ends the operation: its runner is called after that. -/
theorem operations_sound_late_runner :
    let s := [some (.submit (some 7) .text true), none, none, some (.complete 1 .done ""), none,
      none, none, none, none].foldl step {}
    s.trace.map (·.what) = [.added, .started, .finished .done "", .ran] ∧ s.view.Sound :=
  ⟨by decide, operations_sound (.foldl .start (.trivial _ _))⟩

/-- **The queue never stalls**: when every call has returned, an operation that waits waits for one
that runs. Once a `Close` has returned nothing waits, so nothing starts. -/
theorem queue_never_stalls (h : ReachableUnder step (fun _ _ => True) {} s) :
    (s.todo = [] → s.queue ≠ [] → s.running.isSome = true) ∧
      (s.closed = true → .closeLoop ∉ s.todo → s.queue = []) := by
  have hdriven : Driven s := by
    refine h.inv ⟨rfl, by simp, by simp⟩ fun s a hs _ => ?_
    unfold step
    cases a with
    | some c =>
      dsimp only
      split
      · exact hs.call c
      · exact hs.call c
      · exact hs
    | none =>
      dsimp only
      split
      · exact hs
      · next task rest htodo => exact hs.exec htodo
  refine ⟨fun hidle hwaits => ?_, fun hclosed hdone => (hdriven.closes hclosed).resolve_right hdone⟩
  by_contra hnone
  rw [Bool.not_eq_true, Option.isSome_eq_false_iff, Option.isNone_iff_eq_none] at hnone
  simpa [hidle] using hdriven.wakes hnone hwaits

/-- While `Close` cancels the second of three operations, a handler ends the first one. -/
def endedWhileClosing : List (Option QueueCall) :=
  some (.submit (some 7) .files true) :: List.replicate 9 none ++
    some (.submit (some 7) .files true) :: List.replicate 3 none ++
    some (.submit (some 7) .files true) :: List.replicate 3 none ++
    some .close :: List.replicate 2 none ++ some (.complete 1 .done "") :: List.replicate 11 none

/-- The third starts then, after the call of `Close`. -/
theorem queue_never_stalls_closing :
    let s := endedWhileClosing.foldl step {}
    s.running.map (·.id) = some 3 ∧ s.queue = [] :=
  ⟨by decide, (queue_never_stalls (.foldl .start (.trivial _ _))).2 (by decide) (by decide)⟩

end OperationQueue

end GpgFrontend
