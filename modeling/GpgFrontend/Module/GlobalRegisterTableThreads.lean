import Mathlib.Algebra.BigOperators.Group.List.Basic
import Mathlib.Data.BitVec
import GpgFrontend.Base.Runs
import GpgFrontend.Module.GlobalRegisterTableRefinement

/-!
# The register table under several threads

`IncrementKV` reads a number and writes another one. It holds the lock of the table from the
first to the last, so no other call runs between the two.

- `RTThreads`: the table, the call inside the lock with the number it read, the calls still to
  come in each thread, and the calls that left the lock, in order.
- `register_table_refines_map`: **the table is a map after every sequence of calls, none of its
  inner nodes is bare, and calls of several threads lose no increment.**
-/

namespace GpgFrontend

variable {α : Type}

/-- The second half of `IncrementKV`, with the number it read. -/
def RTNode.storeCount (t : RTNode α) (n k : String) (count : BitVec 64) : RTNode α :=
  t.updateAt (fun current =>
    { current with
      isLeaf := true
      value := some (.qint64 count)
      version := current.version + 1 }) (segments n k)

structure RTThreads (α : Type) where
  table : RTNode α
  inside : Option (RTCall α × Option (BitVec 64)) := none
  todo : List (List (RTCall α))
  log : List (RTCall α) := []

inductive RTThreadAction where
  | enter (thread : Nat)
  | read
  | leave

namespace RTThreads

/-- One step of one thread; an action that is not enabled does nothing. -/
def step (s : RTThreads α) : RTThreadAction → RTThreads α
  | .enter i =>
    match s.inside, s.todo[i]? with
    | none, some (call :: rest) => { s with inside := some (call, none), todo := s.todo.set i rest }
    | _, _ => s
  | .read =>
    match s.inside with
    | some (.incrementKV n k delta, none) =>
      { s with inside := some (.incrementKV n k delta, some (countOf (s.table.lookupKV n k))) }
    | _ => s
  | .leave =>
    match s.inside with
    | none => s
    | some (.incrementKV _ _ _, none) => s
    | some (.incrementKV n k delta, some count) =>
      { s with
        table := s.table.storeCount n k (count + delta)
        inside := none
        log := s.log ++ [.incrementKV n k delta] }
    | some (call, _) =>
      { s with table := (s.table.step call).2, inside := none, log := s.log ++ [call] }

/-- Every call has left the lock. -/
def Finished (s : RTThreads α) : Prop := s.inside = none ∧ ∀ calls ∈ s.todo, calls = []

end RTThreads

/-- Changes that agree on the value that is there make the same of the tree. -/
theorem RTNode.updateAt_congr {f g : RTNode α → RTNode α} (p : List String) (node : RTNode α)
    (h : ∀ current : RTNode α, current.value = node.toMap p → f current = g current) :
    node.updateAt f p = node.updateAt g p := by
  induction p generalizing node with
  | nil => exact h node rfl
  | cons s p ih =>
    rw [updateAt, updateAt]
    congr 1
    refine ih _ fun current hvalue => h current ?_
    rw [hvalue, toMap_cons]
    cases node.child s with
    | none => exact toMap_new s p
    | some c => rfl

theorem RTNode.storeCount_eq (t : RTNode α) (n k : String) (delta : BitVec 64) :
    t.storeCount n k (countOf (t.lookupKV n k) + delta) = (t.incrementKV n k delta).2 := by
  refine RTNode.updateAt_congr (segments n k) t fun current hvalue => ?_
  have hlookup : t.lookupKV n k = current.value := hvalue.symm
  rw [hlookup]

/-- What holds in every run: the calls that left were run one after the other, nothing changed
since the call inside read its number, and no call is lost or made up. -/
structure ThreadsInv (t₀ : RTNode α) (threads : List (List (RTCall α))) (s : RTThreads α) :
    Prop where
  table : s.table = t₀.run s.log
  read : ∀ n k delta count, s.inside = some (.incrementKV n k delta, some count) →
    count = countOf (s.table.lookupKV n k)
  calls : (s.log ++ (s.inside.map Prod.fst).toList ++ s.todo.flatten).Perm threads.flatten

theorem flatten_set_perm {β : Type} {ls : List (List β)} {i : Nat} {x : β} {rest : List β}
    (h : ls[i]? = some (x :: rest)) : (x :: (ls.set i rest).flatten).Perm ls.flatten := by
  induction ls generalizing i with
  | nil => cases h
  | cons l ls ih =>
    cases i with
    | zero =>
      obtain rfl := Option.some.inj h
      exact List.Perm.refl _
    | succ i =>
      rw [List.set_cons_succ, List.flatten_cons, List.flatten_cons]
      exact List.perm_middle.symm.trans ((ih h).append_left l)

theorem RTNode.run_append (t : RTNode α) (calls : List (RTCall α)) (call : RTCall α) :
    t.run (calls ++ [call]) = ((t.run calls).step call).2 := by
  rw [RTNode.run, List.foldl_append]
  rfl

/-- A call that leaves joins the calls that left. -/
theorem ThreadsInv.left {t₀ : RTNode α} {threads : List (List (RTCall α))} {s : RTThreads α}
    (h : ThreadsInv t₀ threads s) {call : RTCall α} {count : Option (BitVec 64)}
    (hinside : s.inside = some (call, count)) {table : RTNode α}
    (htable : table = (s.table.step call).2) :
    ThreadsInv t₀ threads { s with table := table, inside := none, log := s.log ++ [call] } := by
  refine ⟨?_, (fun n k delta count hread => by cases hread), ?_⟩
  · show table = t₀.run (s.log ++ [call])
    rw [RTNode.run_append, ← h.table, htable]
  · have hcalls := h.calls
    rw [hinside] at hcalls
    simpa using hcalls

/-- **Step.** -/
theorem ThreadsInv.step {t₀ : RTNode α} {threads : List (List (RTCall α))} {s : RTThreads α}
    (h : ThreadsInv t₀ threads s) (a : RTThreadAction) : ThreadsInv t₀ threads (s.step a) := by
  cases a with
  | enter i =>
    dsimp only [RTThreads.step]
    split
    · next call rest hinside htodo =>
      refine ⟨h.table, (fun n k delta count hread => by cases hread), ?_⟩
      have hcalls := h.calls
      rw [hinside] at hcalls
      refine List.Perm.trans ?_ hcalls
      simp only [Option.map_some, Option.toList_some, Option.map_none, Option.toList_none,
        List.append_nil, List.append_assoc, List.singleton_append]
      exact (flatten_set_perm htodo).append_left s.log
    · exact h
  | read =>
    dsimp only [RTThreads.step]
    split
    · next n k delta hinside =>
      refine ⟨h.table, fun n' k' delta' count hread => ?_, ?_⟩
      · cases hread
        rfl
      · have hcalls := h.calls
        rw [hinside] at hcalls
        exact hcalls
    · exact h
  | leave =>
    dsimp only [RTThreads.step]
    split
    · exact h
    · exact h
    · next n k delta count hinside =>
      refine h.left hinside ?_
      rw [h.read n k delta count hinside, RTNode.storeCount_eq]
      rfl
    · next call count _ hinside => exact h.left hinside rfl

theorem ThreadsInv.start (t₀ : RTNode α) (threads : List (List (RTCall α))) :
    ThreadsInv t₀ threads { table := t₀, todo := threads } :=
  ⟨rfl, (fun n k delta count hread => by cases hread), List.Perm.refl _⟩

/-! ## No increment is lost -/

namespace RTCall

/-- What a call adds to the counter at a path. -/
def deltaAt (p : List String) : RTCall α → BitVec 64
  | .incrementKV n k delta => if segments n k = p then delta else 0
  | _ => 0

/-- A call that neither publishes at a path nor removes it. -/
def Spares (p : List String) : RTCall α → Prop
  | .publishKV n k _ => segments n k ≠ p
  | .removeKV n k => ¬segments n k <+: p
  | _ => True

theorem countOf_onMap (M : PathMap String (StdAny α)) {p : List String} {call : RTCall α}
    (h : call.Spares p) : countOf (call.onMap M p) = countOf (M p) + call.deltaAt p := by
  cases call with
  | publishKV n k v =>
    rw [onMap, PathMap.set_apply, if_neg (Ne.symm h)]
    exact (add_zero _).symm
  | removeKV n k =>
    rw [onMap, PathMap.removeBelow, if_neg h]
    exact (add_zero _).symm
  | incrementKV n k delta =>
    rw [onMap, PathMap.set_apply, deltaAt]
    by_cases hp : p = segments n k
    · rw [if_pos hp, if_pos hp.symm, hp]
      rfl
    · rw [if_neg hp, if_neg (Ne.symm hp), add_zero]
  | lookupKV n k => exact (add_zero _).symm
  | listChildKeys n k => exact (add_zero _).symm

theorem countOf_runMap {p : List String} {calls : List (RTCall α)}
    (h : ∀ call ∈ calls, call.Spares p) (M : PathMap String (StdAny α)) :
    countOf (runMap M calls p) = countOf (M p) + (calls.map (deltaAt p)).sum := by
  induction calls generalizing M with
  | nil => exact (add_zero _).symm
  | cons call rest ih =>
    have hrest := ih (fun c hc => h c (List.mem_cons_of_mem call hc)) (call.onMap M)
    rw [countOf_onMap M (h call List.mem_cons_self), add_assoc] at hrest
    rw [List.map_cons, List.sum_cons]
    exact hrest

end RTCall

open RTCall in
/-- **The register table refines a map.** After every sequence of calls the tree holds the map
of the sequence, every next call answers as the map does, and every inner node bears a value.
Threads that then make calls, in any interleaving, leave the map of their calls in some order,
and a counter that none of them publishes or removes ends with every delta added. -/
theorem register_table_refines_map (calls : List (RTCall α)) :
    (RTNode.root.run calls).toMap = runMap (fun _ => none) calls ∧
    (∀ call, Answers (runMap (fun _ => none) calls) call ((RTNode.root.run calls).step call).1) ∧
    (RTNode.root.run calls).InnerNodesBear ∧
    ∀ (threads : List (List (RTCall α))) (s : RTThreads α),
      ReachableUnder RTThreads.step (fun _ _ => True)
        { table := RTNode.root.run calls, todo := threads } s → s.Finished →
      (∃ order, order.Perm threads.flatten ∧
        s.table.toMap = runMap (fun _ => none) (calls ++ order)) ∧
      ∀ n k, (∀ call ∈ threads.flatten, call.Spares (segments n k)) →
        countOf (s.table.lookupKV n k) = countOf ((RTNode.root.run calls).lookupKV n k) +
          (threads.flatten.map (deltaAt (segments n k))).sum := by
  obtain ⟨hwf, hmap⟩ := RTNode.run_refines RTNode.wf_root calls
  rw [RTNode.toMap_root] at hmap
  refine ⟨hmap, fun call => ?_, hwf.innerNodesBear, fun threads s hreach hdone => ?_⟩
  · rw [← hmap]
    exact (RTNode.step_refines hwf call).1
  · have hinv := hreach.inv (ThreadsInv.start _ threads) fun _ a h _ => h.step a
    have hperm : s.log.Perm threads.flatten := by
      have hcalls := hinv.calls
      rw [hdone.1, List.flatten_eq_nil_iff.mpr hdone.2] at hcalls
      simpa using hcalls
    obtain ⟨-, hlog⟩ := RTNode.run_refines hwf s.log
    rw [← hinv.table] at hlog
    refine ⟨⟨s.log, hperm, ?_⟩, fun n k hspares => ?_⟩
    · rw [hlog, hmap, runMap, runMap, runMap, List.foldl_append]
    · show countOf (s.table.toMap (segments n k)) = _
      rw [hlog, countOf_runMap (fun call hcall => hspares call (hperm.mem_iff.mp hcall)),
        (hperm.map _).sum_eq]
      rfl

/-- Two threads that count up, one after the other has read and written. -/
def countingRun : List RTThreadAction := [.enter 1, .read, .leave, .enter 0, .read, .leave]

theorem counting_threads :
    countOf ((countingRun.foldl RTThreads.step
      ({ table := RTNode.root.run [.publishKV "a" "b" (.int 41)]
         todo := [[.incrementKV "a" "b" 1], [.incrementKV "a" "b" 2]] } : RTThreads Unit)).table.lookupKV
        "a" "b") =
      countOf ((RTNode.root.run [.publishKV "a" "b" (.int (41 : BitVec 32))] :
        RTNode Unit).lookupKV "a" "b") +
      ([RTCall.incrementKV (α := Unit) "a" "b" 1, .incrementKV "a" "b" 2].map
        (RTCall.deltaAt (segments "a" "b"))).sum := by
  have h := register_table_refines_map (α := Unit) [.publishKV "a" "b" (.int 41)]
  refine ((h.2.2.2 [[.incrementKV "a" "b" 1], [.incrementKV "a" "b" 2]] _ ?_ ?_).2 "a" "b" ?_)
  · exact ReachableUnder.start.foldl (BeforeEach.trivial _ _)
  · exact ⟨rfl, by simp [countingRun, RTThreads.step]⟩
  · simp [RTCall.Spares]

end GpgFrontend
