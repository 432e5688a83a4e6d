import GpgFrontend.Base.PathMap
import GpgFrontend.Module.GlobalRegisterTable

/-!
# The register table is a map

- `RTNode.Wf`: children are found under their names, in order, and none is without a value and
  without children; `RTNode.Fruitful` is that of one node.
- `toMap_updateAt`, `removeAt_spec`: what the two changes of the tree do to the map.
-/

namespace GpgFrontend

namespace RTNode

variable {α : Type} {node c : RTNode α} {s s' : String} {p q : List String}

/-- The values, by path. -/
def toMap (t : RTNode α) : PathMap String (StdAny α) := fun p => (t.walk p).bind (·.value)

/-- It holds a value, or something lies below it. -/
def Fruitful (node : RTNode α) : Prop := node.isLeaf = true ∨ node.children ≠ []

inductive Wf : RTNode α → Prop
  | intro {node : RTNode α} :
      node.children.Pairwise (fun a b => a.1 < b.1) →
      (∀ s c, (s, c) ∈ node.children → c.name = s) →
      (∀ s c, (s, c) ∈ node.children → c.Fruitful) →
      (∀ s c, (s, c) ∈ node.children → Wf c) →
      node.isLeaf = node.value.isSome → Wf node

/-! ## Children -/

theorem Wf.sorted (h : Wf node) : node.children.Pairwise fun a b => a.1 < b.1 := by
  cases h with
  | intro hsorted => exact hsorted

theorem Wf.leaf (h : Wf node) : node.isLeaf = node.value.isSome := by
  cases h with
  | intro _ _ _ _ hleaf => exact hleaf

theorem Wf.child (h : Wf node) (hc : node.child s = some c) :
    c.name = s ∧ c.Fruitful ∧ Wf c := by
  cases h with
  | intro hsorted hname hfruitful hbelow hleaf =>
    have hmem : (s, c) ∈ node.children := (QMap.lookup_eq_some_iff hsorted).mp hc
    exact ⟨hname s c hmem, hfruitful s c hmem, hbelow s c hmem⟩

theorem child_withChild : (node.withChild s c).child s' = if s' = s then some c else node.child s' := by
  unfold RTNode.child withChild
  split
  · next hs =>
    rw [hs]
    exact QMap.lookup_insertEntry_self node.children
  · next hs => exact QMap.lookup_insertEntry_ne hs node.children

theorem lookup_filter_key {β : Type} (entries : List (String × β)) (s s' : String) :
    (entries.filter (·.1 ≠ s)).lookup s' = if s' = s then none else entries.lookup s' := by
  induction entries with
  | nil => simp
  | cons first rest ih =>
    by_cases hfirst : first.1 = s
    · rw [List.filter_cons_of_neg (by simp [hfirst]), ih, List.lookup_cons]
      split
      · rfl
      · next hs => rw [beq_false_of_ne (hfirst ▸ hs)]
    · rw [List.filter_cons_of_pos (by simp [hfirst]), List.lookup_cons, List.lookup_cons]
      split
      · next heq =>
        have hne : s' ≠ s := fun hs => hfirst ((beq_iff_eq.mp heq).symm.trans hs)
        rw [if_neg hne]
      · exact ih

theorem child_withoutChild : (node.withoutChild s).child s' = if s' = s then none else node.child s' :=
  lookup_filter_key node.children s s'

theorem Wf.withChild (h : Wf node) (hname : c.name = s) (hfruitful : c.Fruitful) (hc : Wf c) :
    Wf (node.withChild s c) := by
  cases h with
  | intro hsorted hnames hfruitfuls hbelow hleaf =>
    refine .intro (QMap.sorted_insertEntry hsorted) ?_ ?_ ?_ hleaf
    · intro s' c' hmem
      obtain heq | hmem := QMap.mem_insertEntry hmem
      · cases heq
        exact hname
      · exact hnames s' c' hmem
    · intro s' c' hmem
      obtain heq | hmem := QMap.mem_insertEntry hmem
      · cases heq
        exact hfruitful
      · exact hfruitfuls s' c' hmem
    · intro s' c' hmem
      obtain heq | hmem := QMap.mem_insertEntry hmem
      · cases heq
        exact hc
      · exact hbelow s' c' hmem

theorem Wf.withoutChild (h : Wf node) (s : String) : Wf (node.withoutChild s) := by
  cases h with
  | intro hsorted hnames hfruitfuls hbelow hleaf =>
    exact .intro (hsorted.filter _) (fun s' c' hmem => hnames s' c' (List.mem_of_mem_filter hmem))
      (fun s' c' hmem => hfruitfuls s' c' (List.mem_of_mem_filter hmem))
      (fun s' c' hmem => hbelow s' c' (List.mem_of_mem_filter hmem)) hleaf

theorem fruitful_withChild : (node.withChild s c).Fruitful := by
  refine .inr fun hnil => ?_
  have hfound : (node.withChild s c).child s = some c := by rw [child_withChild, if_pos rfl]
  rw [RTNode.child, hnil] at hfound
  cases hfound

/-- A node that is made on the way. -/
theorem wf_new (name : String) : Wf ({ name := name } : RTNode α) :=
  .intro .nil (by simp) (by simp) (by simp) rfl

/-! ## The map of a tree -/

theorem toMap_nil (t : RTNode α) : t.toMap [] = t.value := rfl

theorem toMap_cons (t : RTNode α) (s : String) (p : List String) :
    t.toMap (s :: p) = (t.child s).bind (toMap · p) := by
  unfold toMap
  rw [walk]
  cases t.child s with
  | none => rfl
  | some c => rfl

theorem walk_append (t : RTNode α) (p q : List String) :
    t.walk (p ++ q) = (t.walk p).bind (walk q) := by
  induction p generalizing t with
  | nil => rfl
  | cons s p ih =>
    rw [List.cons_append, walk, walk]
    cases t.child s with
    | none => rfl
    | some c => exact ih c

theorem toMap_append (t : RTNode α) (p q : List String) :
    t.toMap (p ++ q) = (t.walk p).bind (toMap · q) := by
  unfold toMap
  rw [walk_append]
  cases t.walk p with
  | none => rfl
  | some node => rfl

theorem toMap_new (name : String) (p : List String) :
    ({ name := name } : RTNode α).toMap p = none := by
  cases p with
  | nil => rfl
  | cons s p => rfl

/-- A fruitful node has a value at or below it. -/
theorem Wf.exists_value (h : Wf node) (hfruitful : node.Fruitful) : ∃ q, node.toMap q ≠ none := by
  induction h with
  | intro hsorted _ hbelow _ hleaf ih =>
    obtain hvalue | hchildren := hfruitful
    · rw [hleaf, Option.isSome_iff_ne_none] at hvalue
      exact ⟨[], hvalue⟩
    · obtain ⟨⟨s, c⟩, hmem⟩ := List.exists_mem_of_ne_nil _ hchildren
      obtain ⟨q, hq⟩ := ih s c hmem (hbelow s c hmem)
      refine ⟨s :: q, ?_⟩
      have hc := (QMap.lookup_eq_some_iff hsorted).mpr hmem
      rw [toMap_cons, RTNode.child, hc]
      exact hq

/-- Below the root every node is fruitful. -/
theorem Wf.walk (h : Wf node) (hp : p ≠ []) (hc : node.walk p = some c) : c.Fruitful ∧ Wf c := by
  induction p generalizing node with
  | nil => exact absurd rfl hp
  | cons s p ih =>
    rw [RTNode.walk, Option.bind_eq_some_iff] at hc
    obtain ⟨d, hd, hc⟩ := hc
    obtain ⟨-, hfruitful, hwf⟩ := h.child hd
    cases p with
    | nil =>
      obtain rfl := Option.some.inj hc
      exact ⟨hfruitful, hwf⟩
    | cons s' p => exact ih hwf (List.cons_ne_nil s' p) hc

/-- A node is there exactly when a value lies at its path or below. -/
theorem Wf.walk_ne_none_iff (h : Wf node) (hp : p ≠ []) :
    node.walk p ≠ none ↔ node.toMap.HasBelow p := by
  constructor
  · intro hne
    obtain ⟨c, hc⟩ := Option.ne_none_iff_exists'.mp hne
    obtain ⟨hfruitful, hwf⟩ := h.walk hp hc
    obtain ⟨q, hq⟩ := hwf.exists_value hfruitful
    refine ⟨p ++ q, List.prefix_append p q, ?_⟩
    rw [toMap_append, hc]
    exact hq
  · rintro ⟨q, ⟨q, rfl⟩, hq⟩ hnone
    rw [toMap_append, hnone] at hq
    exact hq rfl

/-! ## A change of one value -/

/-- What the change of a node does to its value, children aside. -/
structure Writes (f : RTNode α → RTNode α) (g : Option (StdAny α) → StdAny α)
    (last : String) : Prop where
  value : ∀ node, (f node).value = some (g node.value)
  children : ∀ node, (f node).children = node.children
  leaf : ∀ node, (f node).isLeaf = true
  name : ∀ node, node.name = last → (f node).name = last

variable {f : RTNode α → RTNode α} {g : Option (StdAny α) → StdAny α} {last : String}

theorem toMap_updateAt (hf : Writes f g last) (p : List String) (node : RTNode α) :
    (node.updateAt f p).toMap = node.toMap.set p (g (node.toMap p)) := by
  funext q
  rw [PathMap.set_apply]
  induction p generalizing node q with
  | nil =>
    cases q with
    | nil =>
      rw [if_pos rfl]
      exact hf.value node
    | cons s q =>
      rw [if_neg (by simp), updateAt, toMap_cons, toMap_cons, RTNode.child, hf.children]
      rfl
  | cons s p ih =>
    rw [updateAt]
    cases q with
    | nil =>
      rw [if_neg (by simp)]
      rfl
    | cons s' q =>
      rw [toMap_cons, child_withChild, toMap_cons, toMap_cons]
      by_cases hs : s' = s
      · subst hs
        rw [if_pos rfl, Option.bind_some, ih]
        cases node.child s' with
        | none =>
          simp only [Option.getD_none, toMap_new, Option.bind_none, List.cons.injEq, true_and]
        | some c => simp only [Option.getD_some, Option.bind_some, List.cons.injEq, true_and]
      · rw [if_neg hs, if_neg (fun h => hs (List.cons.inj h).1)]

theorem wf_updateAt (hf : Writes f g last) (hp : p.getLast? = some last) (h : Wf node) :
    Wf (node.updateAt f p) ∧ (node.updateAt f p).name = node.name ∧ (node.updateAt f p).Fruitful := by
  induction p generalizing node with
  | nil => cases hp
  | cons s p ih =>
    rw [updateAt]
    set c : RTNode α := (node.child s).getD { name := s } with hc
    obtain ⟨hname, hwf⟩ : c.name = s ∧ Wf c := by
      rw [hc]
      cases hchild : node.child s with
      | none => exact ⟨rfl, wf_new s⟩
      | some d =>
        obtain ⟨hname, -, hwf⟩ := h.child hchild
        exact ⟨hname, hwf⟩
    have hupdated : Wf (updateAt f p c) ∧ (updateAt f p c).name = s ∧
        (updateAt f p c).Fruitful := by
      cases p with
      | nil =>
        obtain rfl : s = last := by simpa using hp
        refine ⟨?_, hf.name c hname, .inl (hf.leaf c)⟩
        cases hwf with
        | intro hsorted hnames hfruitfuls hbelow _ =>
          have hchildren := hf.children c
          refine .intro ?_ ?_ ?_ ?_ ?_
          · exact hchildren ▸ hsorted
          · exact fun s' c' hmem => hnames s' c' (hchildren ▸ hmem)
          · exact fun s' c' hmem => hfruitfuls s' c' (hchildren ▸ hmem)
          · exact fun s' c' hmem => hbelow s' c' (hchildren ▸ hmem)
          · rw [updateAt, hf.leaf, hf.value]
            rfl
      | cons s' p =>
        obtain ⟨hwf', hname', hfruitful'⟩ := ih (by simpa using hp) hwf
        exact ⟨hwf', hname'.trans hname, hfruitful'⟩
    exact ⟨h.withChild hupdated.2.1 hupdated.2.2 hupdated.1, rfl, fruitful_withChild⟩

/-! ## Removing -/

/-- What removing a path does to the tree it lies in. -/
structure Removed (p : List String) (t t' : RTNode α) : Prop where
  wf : Wf t'
  name : t'.name = t.name
  map : t'.toMap = t.toMap.removeBelow p

theorem removed_child (h : Wf node) (s : String) :
    Removed [s] node (node.withoutChild s) := by
  refine ⟨h.withoutChild s, rfl, ?_⟩
  funext q
  unfold PathMap.removeBelow
  cases q with
  | nil => rfl
  | cons s' q =>
    rw [toMap_cons, toMap_cons, child_withoutChild]
    by_cases hs : s' = s
    · rw [if_pos hs, if_pos (by simp [hs])]
      rfl
    · rw [if_neg hs, if_neg (by simpa using Ne.symm hs)]

/-- Nothing is left to read of a node without a value and without children. -/
theorem toMap_of_not_fruitful (h : Wf node) (hbare : ¬node.Fruitful) (q : List String) :
    node.toMap q = none := by
  obtain ⟨hleaf, hchildren⟩ := not_or.mp hbare
  rw [ne_eq, not_not] at hchildren
  cases q with
  | nil =>
    rw [h.leaf, Bool.not_eq_true, Option.isSome_eq_false_iff, Option.isNone_iff_eq_none] at hleaf
    exact hleaf
  | cons s q =>
    rw [toMap_cons, RTNode.child, hchildren]
    rfl

/-- One turn of the loop that goes up: the parent is kept when it bears something, and is
removed otherwise. -/
theorem removed_below {parent : RTNode α} (h : Wf node) (hc : node.child s = some c)
    (hparent : Removed p c parent) :
    Removed (s :: p) node
      (if parent.isLeaf || !parent.children.isEmpty then node.withChild s parent
        else node.withoutChild parent.name) := by
  have hname : parent.name = s := hparent.name.trans (h.child hc).1
  have hfruitful : (parent.isLeaf || !parent.children.isEmpty) = true ↔ parent.Fruitful := by
    simp [Fruitful]
  by_cases hbears : parent.Fruitful
  · rw [if_pos (hfruitful.mpr hbears)]
    refine ⟨h.withChild hname hbears hparent.wf, rfl, ?_⟩
    funext q
    unfold PathMap.removeBelow
    cases q with
    | nil => rfl
    | cons s' q =>
      rw [toMap_cons, toMap_cons, child_withChild]
      by_cases hs : s' = s
      · rw [if_pos hs, hs, Option.bind_some, hparent.map, hc, Option.bind_some]
        simp only [PathMap.removeBelow, List.prefix_cons_inj]
      · rw [if_neg hs, if_neg (fun hpre => hs (List.cons_prefix_cons.mp hpre).1.symm)]
  · rw [if_neg (mt hfruitful.mp hbears), hname]
    refine ⟨h.withoutChild s, rfl, ?_⟩
    funext q
    unfold PathMap.removeBelow
    cases q with
    | nil => rfl
    | cons s' q =>
      rw [toMap_cons, toMap_cons, child_withoutChild]
      by_cases hs : s' = s
      · have hbare := toMap_of_not_fruitful hparent.wf hbears q
        rw [hparent.map] at hbare
        rw [if_pos hs, hs, Option.bind_none, hc, Option.bind_some]
        simp only [List.prefix_cons_inj]
        exact hbare.symm
      · rw [if_neg hs, if_neg (fun hpre => hs (List.cons_prefix_cons.mp hpre).1.symm)]

/-- `removeAt` fails exactly where nothing is, and removes the path and what is below it. -/
theorem removeAt_spec (h : Wf node) (hp : p ≠ []) :
    match node.removeAt p with
    | none => node.walk p = none
    | some node' => node.walk p ≠ none ∧ Removed p node node' := by
  induction p generalizing node with
  | nil => exact absurd rfl hp
  | cons s p ih =>
    cases hc : node.child s with
    | none =>
      have hwalk : node.walk (s :: p) = none := by rw [RTNode.walk, hc]; rfl
      cases p with
      | nil => simpa only [removeAt, hc, Option.map_none] using hwalk
      | cons s' p => simpa only [removeAt, hc, Option.bind_none] using hwalk
    | some c =>
      have hwalk : node.walk (s :: p) = c.walk p := by rw [RTNode.walk, hc]; rfl
      rw [hwalk]
      cases p with
      | nil =>
        simp only [removeAt, hc, Option.map_some, (h.child hc).1]
        exact ⟨Option.some_ne_none c, removed_child h s⟩
      | cons s' p =>
        have ih := ih (h.child hc).2.2 (List.cons_ne_nil s' p)
        cases hrest : c.removeAt (s' :: p) with
        | none =>
          rw [hrest] at ih
          simpa only [removeAt, hc, Option.bind_some, hrest, Option.map_none] using ih
        | some parent =>
          rw [hrest] at ih
          simp only [removeAt, hc, Option.bind_some, hrest, Option.map_some]
          exact ⟨ih.1, removed_below h hc ih.2⟩

/-! ## The calls -/

theorem segments_ne_nil (n k : String) : segments n k ≠ [] := by
  unfold segments
  rw [ne_eq, List.map_eq_nil_iff]
  exact List.splitOn_ne_nil '.' _

theorem getLast?_segments (n k : String) :
    (segments n k).getLast? = some ((segments n k).getLastD "") := by
  rw [List.getLastD_eq_getLast?, List.getLast?_eq_getLast_of_ne_nil (segments_ne_nil n k)]
  rfl

/-- `PublishKV` writes a value, whatever was there. -/
theorem writes_publish (v : StdAny α) (last : String) :
    Writes (fun current => { current with
      name := last, isLeaf := true, value := some v, version := current.version + 1 })
      (fun _ => v) last :=
  ⟨fun _ => rfl, fun _ => rfl, fun _ => rfl, fun _ _ => rfl⟩

/-- `IncrementKV` writes the number that was there, and the delta. -/
theorem writes_increment (delta : BitVec 64) (last : String) :
    Writes (α := α) (fun current => { current with
      isLeaf := true
      value := some (.qint64 (countOf current.value + delta))
      version := current.version + 1 })
      (fun held => .qint64 (countOf held + delta)) last :=
  ⟨fun _ => rfl, fun _ => rfl, fun _ => rfl, fun _ h => h⟩

end RTNode

namespace RTCall

variable {α : Type}

/-- What a call does to the map. -/
def onMap (M : PathMap String (StdAny α)) : RTCall α → PathMap String (StdAny α)
  | .publishKV n k v => M.set (segments n k) v
  | .removeKV n k => M.removeBelow (segments n k)
  | .incrementKV n k delta =>
    M.set (segments n k) (.qint64 (countOf (M (segments n k)) + delta))
  | .lookupKV _ _ => M
  | .listChildKeys _ _ => M

/-- What a call returns, in terms of the map. -/
def Answers (M : PathMap String (StdAny α)) : RTCall α → RTAnswer α → Prop
  | .publishKV _ _ _, .done ok => ok = true
  | .removeKV n k, .done ok => ok = true ↔ M.HasBelow (segments n k)
  | .incrementKV n k delta, .count v => v = countOf (M (segments n k)) + delta
  | .lookupKV n k, .value v => v = M (segments n k)
  | .listChildKeys n k, .keys ks =>
    ks.Pairwise (· < ·) ∧ ∀ s, s ∈ ks ↔ M.HasBelow (segments n k ++ [s])
  | _, _ => False

/-- A sequence of calls, on the map. -/
def runMap (M : PathMap String (StdAny α)) (calls : List (RTCall α)) :
    PathMap String (StdAny α) :=
  calls.foldl onMap M

end RTCall

namespace RTNode

open RTCall

variable {α : Type} {t : RTNode α}

theorem removeKV_spec (h : Wf t) (n k : String) :
    ((t.removeKV n k).1 = true ↔ t.toMap.HasBelow (segments n k)) ∧ Wf (t.removeKV n k).2 ∧
      (t.removeKV n k).2.toMap = t.toMap.removeBelow (segments n k) := by
  have hthere := h.walk_ne_none_iff (segments_ne_nil n k)
  have hspec := removeAt_spec h (segments_ne_nil n k)
  unfold removeKV
  cases hremoved : t.removeAt (segments n k) with
  | none =>
    rw [hremoved] at hspec
    have hnone : ¬t.toMap.HasBelow (segments n k) := fun hbelow => hthere.mpr hbelow hspec
    refine ⟨?_, h, (PathMap.removeBelow_of_not_hasBelow hnone).symm⟩
    constructor
    · intro hfalse
      cases hfalse
    · exact fun hbelow => absurd hbelow hnone
  | some t' =>
    rw [hremoved] at hspec
    refine ⟨?_, hspec.2.wf, hspec.2.map⟩
    constructor
    · exact fun _ => hthere.mp hspec.1
    · exact fun _ => rfl

theorem listChildKeys_spec (h : Wf t) (n k : String) :
    (t.listChildKeys n k).Pairwise (· < ·) ∧
      ∀ s, s ∈ t.listChildKeys n k ↔ t.toMap.HasBelow (segments n k ++ [s]) := by
  have hthere : ∀ s, t.toMap.HasBelow (segments n k ++ [s]) ↔
      (t.walk (segments n k)).bind (·.child s) ≠ none := by
    intro s
    rw [← h.walk_ne_none_iff (by simp), walk_append]
    have hone : ∀ node : RTNode α, node.walk [s] = node.child s := by
      intro node
      rw [RTNode.walk]
      cases node.child s with
      | none => rfl
      | some c => rfl
    simp only [funext hone]
  unfold listChildKeys
  cases hwalk : t.walk (segments n k) with
  | none =>
    refine ⟨.nil, fun s => ?_⟩
    rw [hthere, hwalk]
    simp
  | some current =>
    have hwf : Wf current := (h.walk (segments_ne_nil n k) hwalk).2
    refine ⟨List.pairwise_map.mpr hwf.sorted, fun s => ?_⟩
    rw [hthere, hwalk, Option.bind_some, Option.ne_none_iff_exists', List.mem_map]
    constructor
    · rintro ⟨⟨s, c⟩, hmem, rfl⟩
      exact ⟨c, (QMap.lookup_eq_some_iff hwf.sorted).mpr hmem⟩
    · rintro ⟨c, hc⟩
      exact ⟨(s, c), (QMap.lookup_eq_some_iff hwf.sorted).mp hc, rfl⟩

/-- **Step.** Every call returns what it returns on the map, and does to it what it does. -/
theorem step_refines (h : Wf t) (call : RTCall α) :
    Answers t.toMap call (t.step call).1 ∧ Wf (t.step call).2 ∧
      (t.step call).2.toMap = onMap t.toMap call := by
  cases call with
  | publishKV n k v =>
    have hf := writes_publish v ((segments n k).getLastD "")
    exact ⟨rfl, (wf_updateAt hf (getLast?_segments n k) h).1, toMap_updateAt hf (segments n k) t⟩
  | removeKV n k => exact removeKV_spec h n k
  | incrementKV n k delta =>
    have hf := writes_increment (α := α) delta ((segments n k).getLastD "")
    exact ⟨rfl, (wf_updateAt hf (getLast?_segments n k) h).1, toMap_updateAt hf (segments n k) t⟩
  | lookupKV n k => exact ⟨rfl, h, rfl⟩
  | listChildKeys n k => exact ⟨listChildKeys_spec h n k, h, rfl⟩

theorem wf_root : Wf (root : RTNode α) := wf_new ""

theorem toMap_root : (root : RTNode α).toMap = fun _ => none := funext (toMap_new "")

/-- **Run.** -/
theorem run_refines (h : Wf t) (calls : List (RTCall α)) :
    Wf (t.run calls) ∧ (t.run calls).toMap = runMap t.toMap calls := by
  induction calls generalizing t with
  | nil => exact ⟨h, rfl⟩
  | cons call rest ih =>
    obtain ⟨-, hwf, hmap⟩ := step_refines h call
    obtain ⟨hwf', hmap'⟩ := ih hwf
    refine ⟨hwf', hmap'.trans ?_⟩
    rw [hmap]
    rfl

/-- A node with children has a value further down. -/
theorem Wf.value_below {node : RTNode α} (h : Wf node) (hchildren : node.children ≠ []) :
    ∃ q, q ≠ [] ∧ node.toMap q ≠ none := by
  obtain ⟨⟨s, c⟩, hmem⟩ := List.exists_mem_of_ne_nil _ hchildren
  have hc : node.child s = some c := (QMap.lookup_eq_some_iff h.sorted).mpr hmem
  obtain ⟨-, hfruitful, hwf⟩ := h.child hc
  obtain ⟨q, hq⟩ := hwf.exists_value hfruitful
  refine ⟨s :: q, List.cons_ne_nil s q, ?_⟩
  rw [toMap_cons, hc]
  exact hq

/-- **Every inner node bears.** A node below the root that is without a value, or has children,
has a value further down. -/
def InnerNodesBear (t : RTNode α) : Prop :=
  ∀ p node, p ≠ [] → t.walk p = some node → node.value = none ∨ node.children ≠ [] →
    ∃ q, q ≠ [] ∧ node.toMap q ≠ none

theorem Wf.innerNodesBear (h : Wf t) : InnerNodesBear t := by
  intro p node hp hwalk hinner
  obtain ⟨hfruitful, hwf⟩ := h.walk hp hwalk
  refine hwf.value_below ?_
  obtain hvalue | hchildren := hinner
  · refine hfruitful.resolve_left ?_
    rw [hwf.leaf, hvalue]
    exact Bool.false_ne_true
  · exact hchildren

end RTNode

end GpgFrontend
