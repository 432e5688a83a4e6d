import GpgFrontend.OpenPGP.KeyGroupRepository

/-!
# The graph of key groups stays sound

Edges are stored twice, in the children of one node and in the parents of the other, and
recipients are expanded by a recursion that ends only on an acyclic graph.

- `key_group_graph_sound`: **from every stored document and after every sequence of calls
  the graph is sound**, as long as `AddKeyGroup` is not given the id of a group that is
  there and has edges.
-/

namespace GpgFrontend

namespace KeyGroupRepository

variable {r r' r'' : KeyGroupRepository} {p c target : Nat}

/-- Nothing the graph depends on has changed. -/
structure SameShape (r r' : KeyGroupRepository) : Prop where
  forest : r'.keyGroupsForest = r.keyGroupsForest
  next : r'.next = r.next
  idOf : r'.idOf = r.idOf
  childrenOf : r'.childrenOf = r.childrenOf
  parentsOf : r'.parentsOf = r.parentsOf

theorem SameShape.refl (r : KeyGroupRepository) : SameShape r r := ⟨rfl, rfl, rfl, rfl, rfl⟩

theorem SameShape.trans (h : SameShape r r') (h' : SameShape r' r'') : SameShape r r'' :=
  ⟨h'.forest.trans h.forest, h'.next.trans h.next, h'.idOf.trans h.idOf,
    h'.childrenOf.trans h.childrenOf, h'.parentsOf.trans h.parentsOf⟩

/-- The same nodes, with other edges perhaps. -/
structure SameGroups (r r' : KeyGroupRepository) : Prop where
  forest : r'.keyGroupsForest = r.keyGroupsForest
  next : r'.next = r.next
  idOf : r'.idOf = r.idOf

theorem SameGroups.refl (r : KeyGroupRepository) : SameGroups r r := ⟨rfl, rfl, rfl⟩

theorem SameGroups.trans (h : SameGroups r r') (h' : SameGroups r' r'') : SameGroups r r'' :=
  ⟨h'.forest.trans h.forest, h'.next.trans h.next, h'.idOf.trans h.idOf⟩

theorem SameShape.sameGroups (h : SameShape r r') : SameGroups r r' :=
  ⟨h.forest, h.next, h.idOf⟩

/-- A field of a node after a change to one node. -/
theorem field_modifyNode {β : Type} (field : GpgKeyGroupTreeNode → β) (r : KeyGroupRepository)
    (p q : Nat) (f : GpgKeyGroupTreeNode → GpgKeyGroupTreeNode) :
    ((r.modifyNode p f).nodes.lookup q).map field =
      if q = p then (r.nodes.lookup p).map (field ∘ f) else (r.nodes.lookup q).map field := by
  show ((AList.modifyAt p f r.nodes).lookup q).map field = _
  rw [AList.lookup_modifyAt]
  split
  · rw [Option.map_map]
  · rfl

variable {f : GpgKeyGroupTreeNode → GpgKeyGroupTreeNode}

theorem field_unchanged {β : Type} {field : GpgKeyGroupTreeNode → β} (r : KeyGroupRepository)
    (p q : Nat) (hfield : ∀ node, field (f node) = field node) :
    ((r.modifyNode p f).nodes.lookup q).map field = (r.nodes.lookup q).map field := by
  rw [field_modifyNode]
  split
  · next hq =>
    rw [hq]
    congr 1
    funext node
    exact hfield node
  · rfl

theorem idOf_modifyNode (r : KeyGroupRepository) (p : Nat)
    (hid : ∀ node, (f node).keyGroup.id = node.keyGroup.id) : (r.modifyNode p f).idOf = r.idOf :=
  funext fun q => field_unchanged r p q hid

theorem childrenOf_modifyNode (r : KeyGroupRepository) (p : Nat)
    (hchildren : ∀ node, (f node).children = node.children) :
    (r.modifyNode p f).childrenOf = r.childrenOf := by
  funext q
  unfold childrenOf
  rw [field_unchanged r p q hchildren]

theorem parentsOf_modifyNode (r : KeyGroupRepository) (p : Nat)
    (hparents : ∀ node, (f node).parents = node.parents) :
    (r.modifyNode p f).parentsOf = r.parentsOf := by
  funext q
  unfold parentsOf
  rw [field_unchanged r p q hparents]

theorem sameShape_modifyNode (r : KeyGroupRepository) (p : Nat)
    (hid : ∀ node, (f node).keyGroup.id = node.keyGroup.id)
    (hchildren : ∀ node, (f node).children = node.children)
    (hparents : ∀ node, (f node).parents = node.parents) : SameShape r (r.modifyNode p f) :=
  ⟨rfl, rfl, idOf_modifyNode r p hid, childrenOf_modifyNode r p hchildren,
    parentsOf_modifyNode r p hparents⟩

theorem sameShape_apply (r : KeyGroupRepository) (p : Nat) : SameShape r (r.apply p) :=
  sameShape_modifyNode r p (fun _ => rfl) (fun _ => rfl) fun _ => rfl

theorem sameShape_flushCache (r : KeyGroupRepository) : SameShape r r.flushCache := by
  unfold flushCache
  generalize r.nodes.keys = ps
  induction ps generalizing r with
  | nil => exact .refl r
  | cons p ps ih => exact (sameShape_apply r p).trans (ih _)

theorem childrenOf_eq_nil (h : r.idOf p = none) : r.childrenOf p = [] := by
  unfold idOf at h
  unfold childrenOf
  rw [Option.map_eq_none_iff.mp h]
  rfl

theorem parentsOf_eq_nil (h : r.idOf p = none) : r.parentsOf p = [] := by
  unfold idOf at h
  unfold parentsOf
  rw [Option.map_eq_none_iff.mp h]
  rfl

theorem childrenOf_modifyChildren (r : KeyGroupRepository) (p q : Nat) (g : List Nat → List Nat)
    (hnil : r.idOf p = none → g [] = []) :
    (r.modifyNode p fun node => { node with children := g node.children }).childrenOf q =
      if q = p then g (r.childrenOf p) else r.childrenOf q := by
  unfold childrenOf
  rw [field_modifyNode]
  split
  · unfold idOf at hnil
    cases hlook : r.nodes.lookup p with
    | none =>
      rw [hlook] at hnil
      exact (hnil rfl).symm
    | some node => rfl
  · rfl

theorem parentsOf_modifyParents (r : KeyGroupRepository) (p q : Nat) (g : List Nat → List Nat)
    (hnil : r.idOf p = none → g [] = []) :
    (r.modifyNode p fun node => { node with parents := g node.parents }).parentsOf q =
      if q = p then g (r.parentsOf p) else r.parentsOf q := by
  unfold parentsOf
  rw [field_modifyNode]
  split
  · unfold idOf at hnil
    cases hlook : r.nodes.lookup p with
    | none =>
      rw [hlook] at hnil
      exact (hnil rfl).symm
    | some node => rfl
  · rfl

/-- The two nodes of an edge change, each on its side. -/
def relink (r : KeyGroupRepository) (p target : Nat) (g g' : List Nat → List Nat) :
    KeyGroupRepository :=
  (r.modifyNode p fun node => { node with children := g node.children }).modifyNode target
    fun node => { node with parents := g' node.parents }

theorem idOf_relink (r : KeyGroupRepository) (p target : Nat) (g g' : List Nat → List Nat) :
    (r.relink p target g g').idOf = r.idOf := by
  unfold relink
  rw [idOf_modifyNode, idOf_modifyNode]
  · exact fun _ => rfl
  · exact fun _ => rfl

theorem childrenOf_relink (r : KeyGroupRepository) (p target q : Nat) (g g' : List Nat → List Nat)
    (hnil : r.idOf p = none → g [] = []) :
    (r.relink p target g g').childrenOf q =
      if q = p then g (r.childrenOf p) else r.childrenOf q := by
  unfold relink
  rw [childrenOf_modifyNode]
  · exact childrenOf_modifyChildren r p q g hnil
  · exact fun _ => rfl

theorem parentsOf_relink (r : KeyGroupRepository) (p target q : Nat) (g g' : List Nat → List Nat)
    (hnil : r.idOf target = none → g' [] = []) :
    (r.relink p target g g').parentsOf q =
      if q = target then g' (r.parentsOf target) else r.parentsOf q := by
  unfold relink
  rw [parentsOf_modifyParents, parentsOf_modifyNode]
  · exact fun _ => rfl
  · rw [idOf_modifyNode]
    · exact hnil
    · exact fun _ => rfl

end KeyGroupRepository

/-! ## The invariant -/

/-- The graph of the groups is sound: the map owns exactly the nodes there are, the two
sides of an edge agree, and no node reaches itself. -/
structure GroupGraph (r : KeyGroupRepository) : Prop where
  owned : ∀ id p, r.keyGroupsForest.lookup id = some p ↔ r.idOf p = some id
  fresh : ∀ p id, r.idOf p = some id → p < r.next
  mirror : ∀ p c, c ∈ r.childrenOf p ↔ p ∈ r.parentsOf c
  acyclic : Acyclic fun p c => c ∈ r.childrenOf p

namespace GroupGraph

open KeyGroupRepository

variable {r r' : KeyGroupRepository} {p c target : Nat}

theorem of_sameShape (h : GroupGraph r) (hs : SameShape r r') : GroupGraph r' := by
  constructor
  · rw [hs.forest, hs.idOf]
    exact h.owned
  · rw [hs.next, hs.idOf]
    exact h.fresh
  · rw [hs.childrenOf, hs.parentsOf]
    exact h.mirror
  · rw [hs.childrenOf]
    exact h.acyclic

theorem present_of_child (h : c ∈ r.childrenOf p) : r.idOf p ≠ none := by
  intro hnone
  rw [childrenOf_eq_nil hnone] at h
  cases h

theorem present_of_parent (h : p ∈ r.parentsOf c) : r.idOf c ≠ none := by
  intro hnone
  rw [parentsOf_eq_nil hnone] at h
  cases h

theorem mem_keys_of_present (h : r.idOf p ≠ none) : p ∈ r.nodes.keys := by
  unfold KeyGroupRepository.idOf at h
  rw [ne_eq, Option.map_eq_none_iff, ← ne_eq, ← Option.isSome_iff_ne_none] at h
  exact AList.mem_keys.mp (AList.lookup_isSome.mp h)

theorem swap_parents (h : GroupGraph r) :
    (Function.swap fun c p => p ∈ r.parentsOf c) = fun p c => c ∈ r.childrenOf p := by
  funext p c
  exact propext (h.mirror p c).symm

/-- Upwards the graph is acyclic as well. -/
theorem acyclic_up (h : GroupGraph r) : Acyclic fun c p => p ∈ r.parentsOf c := by
  intro a hcycle
  refine h.acyclic a ?_
  rw [← h.swap_parents, Relation.transGen_swap]
  exact hcycle

/-- **`HasAncestor` ends, with the right answer.** -/
theorem hasAncestor_iff (h : GroupGraph r) :
    r.hasAncestor p target = true ↔
      Relation.TransGen (fun p c => c ∈ r.childrenOf p) target p := by
  have hnodes : ∀ c p, p ∈ r.parentsOf c → c ∈ r.nodes.keys :=
    fun c p hp => mem_keys_of_present (present_of_parent hp)
  unfold KeyGroupRepository.hasAncestor
  rw [reachWithin_iff h.acyclic_up hnodes (Nat.le_refl _), ← h.swap_parents,
    Relation.transGen_swap]

/-- Other edges between the same nodes. -/
theorem of_edges (h : GroupGraph r) (hg : SameGroups r r')
    (hmirror : ∀ p c, c ∈ r'.childrenOf p ↔ p ∈ r'.parentsOf c)
    (hacyclic : Acyclic fun p c => c ∈ r'.childrenOf p) : GroupGraph r' := by
  refine ⟨?_, ?_, hmirror, hacyclic⟩
  · rw [hg.forest, hg.idOf]
    exact h.owned
  · rw [hg.next, hg.idOf]
    exact h.fresh

/-- A new edge between two nodes that are there, unless it would close a ring. -/
theorem addChildren (h : GroupGraph r) (hp : r.idOf p ≠ none) (ht : r.idOf target ≠ none) :
    GroupGraph (r.addChildren p target).2 ∧ SameGroups r (r.addChildren p target).2 := by
  unfold KeyGroupRepository.addChildren
  split
  · exact ⟨h, .refl r⟩
  · next hallowed =>
    obtain ⟨hself, -, hancestor⟩ : target ≠ p ∧ target ∉ r.childrenOf p ∧
        ¬ r.hasAncestor p target = true := by
      simpa only [not_or] using hallowed
    set r₁ := r.relink p target (· ++ [target]) (· ++ [p]) with hr₁
    have hchildren : ∀ q c, c ∈ r₁.childrenOf q ↔ c ∈ r.childrenOf q ∨ (q = p ∧ c = target) := by
      intro q c
      rw [hr₁, childrenOf_relink r p target q _ _ fun hnone => absurd hnone hp]
      by_cases hq : q = p
      · simp [hq]
      · simp [hq]
    have hparents : ∀ q c, q ∈ r₁.parentsOf c ↔ q ∈ r.parentsOf c ∨ (q = p ∧ c = target) := by
      intro q c
      rw [hr₁, parentsOf_relink r p target c _ _ fun hnone => absurd hnone ht]
      by_cases hc : c = target
      · simp [hc]
      · simp [hc]
    have hgroups : SameGroups r r₁ := ⟨rfl, rfl, idOf_relink r p target _ _⟩
    have hr₁' : GroupGraph r₁ := by
      refine h.of_edges hgroups ?_ ?_
      · intro q c
        rw [hchildren, hparents, h.mirror]
      · refine h.acyclic.insert hself ?_ fun q c hqc => (hchildren q c).mp hqc
        exact fun hpath => hancestor (h.hasAncestor_iff.mpr hpath)
    have happly := sameShape_apply r₁ p
    exact ⟨hr₁'.of_sameShape happly, hgroups.trans happly.sameGroups⟩

/-- An edge goes, on both its sides. -/
theorem removeChildren (h : GroupGraph r) (p target : Nat) :
    GroupGraph (r.removeChildren p target).2 ∧ SameGroups r (r.removeChildren p target).2 ∧
    ∀ q c, c ∈ (r.removeChildren p target).2.childrenOf q ↔
      c ∈ r.childrenOf q ∧ ¬ (q = p ∧ c = target) := by
  unfold KeyGroupRepository.removeChildren
  split
  · next hnone =>
    refine ⟨h, .refl r, fun q c => ?_⟩
    constructor
    · intro hc
      refine ⟨hc, ?_⟩
      rintro ⟨rfl, rfl⟩
      exact hnone hc
    · exact fun hc => hc.1
  · set r₁ := r.relink p target (·.filter (· ≠ target)) (·.filter (· ≠ p)) with hr₁
    have hchildren : ∀ q c, c ∈ r₁.childrenOf q ↔
        c ∈ r.childrenOf q ∧ ¬ (q = p ∧ c = target) := by
      intro q c
      rw [hr₁, childrenOf_relink r p target q _ _ fun _ => rfl]
      by_cases hq : q = p
      · simp [hq]
      · simp [hq]
    have hparents : ∀ q c, q ∈ r₁.parentsOf c ↔
        q ∈ r.parentsOf c ∧ ¬ (q = p ∧ c = target) := by
      intro q c
      rw [hr₁, parentsOf_relink r p target c _ _ fun _ => rfl]
      by_cases hc : c = target
      · simp [hc]
      · simp [hc]
    have hgroups : SameGroups r r₁ := ⟨rfl, rfl, idOf_relink r p target _ _⟩
    have hr₁' : GroupGraph r₁ := by
      refine h.of_edges hgroups ?_ ?_
      · intro q c
        rw [hchildren, hparents, h.mirror]
      · exact h.acyclic.mono fun q c hqc => ((hchildren q c).mp hqc).1
    have happly := sameShape_apply r₁ p
    refine ⟨hr₁'.of_sameShape happly, hgroups.trans happly.sameGroups, fun q c => ?_⟩
    show c ∈ (r₁.apply p).childrenOf q ↔ _
    rw [happly.childrenOf]
    exact hchildren q c

/-- A run over the members of a group adds edges to nodes that are there. -/
theorem adoptMembers (h : GroupGraph r) (hp : r.idOf p ≠ none) (members : List QString) :
    GroupGraph (KeyGroupRepository.adoptMembers p members r) ∧
      SameGroups r (KeyGroupRepository.adoptMembers p members r) := by
  induction members generalizing r with
  | nil => exact ⟨h, .refl r⟩
  | cons keyId rest ih =>
    unfold KeyGroupRepository.adoptMembers
    split
    · exact ih h hp
    · next target hfound =>
      have ht : r.idOf target ≠ none := by
        split at hfound
        · rw [(h.owned keyId target).mp hfound]
          simp
        · cases hfound
      obtain ⟨hgraph, hgroups⟩ := h.addChildren hp ht
      have hp' : (r.addChildren p target).2.idOf p ≠ none := by
        rw [hgroups.idOf]
        exact hp
      obtain ⟨hgraph', hgroups'⟩ := ih hgraph hp'
      exact ⟨hgraph', hgroups.trans hgroups'⟩

/-- The node the map has for an id has no edges. -/
def Isolated (r : KeyGroupRepository) (id : QString) : Prop :=
  ∀ p, r.keyGroupsForest.lookup id = some p → r.childrenOf p = [] ∧ r.parentsOf p = []

theorem lookup_insertNode (r : KeyGroupRepository) (kg : GpgKeyGroup) (q : Nat) :
    (r.insertNode kg).nodes.lookup q =
      if q = r.next then some (GpgKeyGroupTreeNode.new kg)
      else if r.keyGroupsForest.lookup kg.id = some q then none
      else r.nodes.lookup q := by
  unfold KeyGroupRepository.insertNode
  dsimp only
  by_cases hq : q = r.next
  · rw [if_pos hq, hq, AList.lookup_insert]
  · rw [if_neg hq, AList.lookup_insert_ne hq]
    cases hold : r.keyGroupsForest.lookup kg.id with
    | none => rfl
    | some old =>
      dsimp only
      by_cases hqo : old = q
      · rw [hqo, if_pos rfl, AList.lookup_erase]
      · rw [if_neg fun heq => hqo (Option.some.inj heq), AList.lookup_erase_ne (Ne.symm hqo)]

theorem idOf_next (h : GroupGraph r) : r.idOf r.next = none := by
  cases hid : r.idOf r.next with
  | none => rfl
  | some id => exact absurd (h.fresh _ _ hid) (Nat.lt_irrefl _)

theorem idOf_insertNode (r : KeyGroupRepository) (kg : GpgKeyGroup) (q : Nat) :
    (r.insertNode kg).idOf q =
      if q = r.next then some kg.id
      else if r.keyGroupsForest.lookup kg.id = some q then none
      else r.idOf q := by
  unfold KeyGroupRepository.idOf
  rw [lookup_insertNode]
  split
  · rfl
  · split <;> rfl

theorem edges_insertNode (h : GroupGraph r) {kg : GpgKeyGroup} (hold : Isolated r kg.id) :
    (r.insertNode kg).childrenOf = r.childrenOf ∧ (r.insertNode kg).parentsOf = r.parentsOf := by
  constructor
  · funext q
    by_cases hq : q = r.next
    · rw [hq, childrenOf_eq_nil h.idOf_next]
      unfold KeyGroupRepository.childrenOf
      rw [lookup_insertNode, if_pos rfl]
      rfl
    · unfold KeyGroupRepository.childrenOf
      rw [lookup_insertNode, if_neg hq]
      split
      · next hq' => exact (hold q hq').1.symm
      · rfl
  · funext q
    by_cases hq : q = r.next
    · rw [hq, parentsOf_eq_nil h.idOf_next]
      unfold KeyGroupRepository.parentsOf
      rw [lookup_insertNode, if_pos rfl]
      rfl
    · unfold KeyGroupRepository.parentsOf
      rw [lookup_insertNode, if_neg hq]
      split
      · next hq' => exact (hold q hq').2.symm
      · rfl

/-- A new node, in the place of one without edges if there was one. -/
theorem insertNode (h : GroupGraph r) {kg : GpgKeyGroup} (hold : Isolated r kg.id) :
    GroupGraph (r.insertNode kg) := by
  obtain ⟨hchildren, hparents⟩ := h.edges_insertNode hold
  constructor
  · intro id q
    rw [idOf_insertNode]
    show (r.keyGroupsForest.insert kg.id r.next).lookup id = some q ↔ _
    by_cases hid : id = kg.id
    · rw [hid, AList.lookup_insert]
      by_cases hq : q = r.next
      · simp [hq]
      · rw [if_neg hq]
        constructor
        · intro heq
          exact absurd (Option.some.inj heq).symm hq
        · intro heq
          split at heq
          · cases heq
          · next hnot => exact absurd ((h.owned kg.id q).mpr heq) hnot
    · rw [AList.lookup_insert_ne hid, h.owned id q]
      by_cases hq : q = r.next
      · rw [if_pos hq, hq, h.idOf_next]
        constructor
        · intro heq
          cases heq
        · intro heq
          exact absurd (Option.some.inj heq).symm hid
      · rw [if_neg hq]
        split
        · next hq' =>
          rw [(h.owned kg.id q).mp hq']
          constructor
          · intro heq
            exact absurd (Option.some.inj heq).symm hid
          · intro heq
            cases heq
        · exact Iff.rfl
  · intro q id hq
    show q < r.next + 1
    rw [idOf_insertNode] at hq
    split at hq
    · omega
    · split at hq
      · cases hq
      · have := h.fresh q id hq
        omega
  · rw [hchildren, hparents]
    exact h.mirror
  · rw [hchildren]
    exact h.acyclic

theorem addKeyGroup (h : GroupGraph r) {kg : GpgKeyGroup} (hold : Isolated r kg.id) :
    GroupGraph (r.addKeyGroup kg) := by
  have hp : (r.insertNode kg).idOf r.next ≠ none := by
    rw [idOf_insertNode, if_pos rfl]
    simp
  have hadopted := ((h.insertNode hold).adoptMembers hp kg.keyIds).1
  exact (hadopted.of_sameShape (sameShape_apply _ r.next)).of_sameShape (sameShape_flushCache _)

/-! ### Loading -/

theorem empty : GroupGraph {} where
  owned := by
    intro id p
    constructor
    · intro h
      cases h
    · intro h
      cases h
  fresh := fun p id h => by cases h
  mirror := fun p c => by
    constructor
    · intro h
      cases h
    · intro h
      cases h
  acyclic := by
    intro a hcycle
    obtain ⟨b, hb, -⟩ := Relation.TransGen.head'_iff.mp hcycle
    cases hb

/-- While the groups are read there are no edges. -/
theorem loaded (keyGroups : List GpgKeyGroup) :
    GroupGraph (keyGroups.foldl loadGroup {}) ∧
      ∀ p, (keyGroups.foldl loadGroup {}).childrenOf p = [] := by
  have hkey : ∀ r, (GroupGraph r ∧ ∀ p, r.childrenOf p = []) →
      GroupGraph (keyGroups.foldl loadGroup r) ∧
        ∀ p, (keyGroups.foldl loadGroup r).childrenOf p = [] := by
    induction keyGroups with
    | nil => exact fun r h => h
    | cons kg rest ih =>
      intro r h
      refine ih _ ?_
      unfold loadGroup
      split
      · exact h
      · have hold : Isolated r kg.id := by
          intro p _
          refine ⟨h.2 p, ?_⟩
          rw [List.eq_nil_iff_forall_not_mem]
          intro q hq
          rw [← h.1.mirror, h.2 q] at hq
          cases hq
        refine ⟨h.1.insertNode hold, ?_⟩
        rw [(h.1.edges_insertNode hold).1]
        exact h.2
  exact hkey {} ⟨empty, fun _ => rfl⟩

theorem buildNode (h : GroupGraph r) (id : QString) : GroupGraph (r.buildNode id) := by
  unfold KeyGroupRepository.buildNode
  split
  · exact h
  · next p hfound =>
    have hp : r.idOf p ≠ none := by
      rw [(h.owned id p).mp hfound]
      simp
    exact (h.adoptMembers hp _).1.of_sameShape (sameShape_apply _ p)

/-- **Every stored document gives a sound graph**, whatever rings it describes. -/
theorem fetchKeyGroups (keyGroups : List GpgKeyGroup) : GroupGraph (fetchKeyGroups keyGroups) := by
  unfold KeyGroupRepository.fetchKeyGroups buildGpgKeyGroupTree
  have hloaded := (loaded keyGroups).1
  revert hloaded
  generalize keyGroups.foldl loadGroup {} = r
  generalize r.sortedIds = ids
  intro h
  induction ids generalizing r with
  | nil => exact h
  | cons id ids ih => exact ih _ (h.buildNode id)

/-! ### Removing -/

theorem not_self_parent (h : GroupGraph r) : target ∉ r.parentsOf target := by
  intro hself
  exact h.acyclic target (.single ((h.mirror target target).mpr hself))

/-- The first loop of `Remove` takes the node from all its parents. -/
theorem detachParents (h : GroupGraph r) (ps : List Nat) (hall : ∀ q ∈ r.parentsOf target, q ∈ ps) :
    GroupGraph (ps.foldl (·.detachParent target ·) r) ∧
    SameGroups r (ps.foldl (·.detachParent target ·) r) ∧
    ∀ q, target ∉ (ps.foldl (·.detachParent target ·) r).childrenOf q := by
  induction ps generalizing r with
  | nil =>
    refine ⟨h, .refl r, fun q hq => ?_⟩
    cases hall q ((h.mirror q target).mp hq)
  | cons parent ps ih =>
    rw [List.foldl_cons]
    by_cases hself : parent = target
    · have hstep : r.detachParent target parent = r := by
        unfold KeyGroupRepository.detachParent
        rw [if_pos hself]
      rw [hstep]
      refine ih h fun q hq => ?_
      rcases List.mem_cons.mp (hall q hq) with rfl | hmem
      · rw [hself] at hq
        exact absurd hq h.not_self_parent
      · exact hmem
    · have hstep : r.detachParent target parent = (r.removeChildren parent target).2 := by
        unfold KeyGroupRepository.detachParent
        rw [if_neg hself]
      rw [hstep]
      obtain ⟨hgraph, hgroups, hedges⟩ := h.removeChildren parent target
      obtain ⟨hgraph', hgroups', hnone⟩ := ih hgraph fun q hq => by
        obtain ⟨hold, hnot⟩ := (hedges q target).mp ((hgraph.mirror q target).mpr hq)
        rcases List.mem_cons.mp (hall q ((h.mirror q target).mp hold)) with rfl | hmem
        · exact absurd ⟨rfl, rfl⟩ hnot
        · exact hmem
      exact ⟨hgraph', hgroups.trans hgroups', hnone⟩

theorem detachChild (r : KeyGroupRepository) (target child : Nat) :
    SameGroups r (r.detachChild target child) ∧
    (r.detachChild target child).childrenOf = r.childrenOf ∧
    ∀ q c, q ∈ (r.detachChild target child).parentsOf c ↔
      q ∈ r.parentsOf c ∧ ¬ (c = child ∧ c ≠ target ∧ q = target) := by
  unfold KeyGroupRepository.detachChild
  split
  · next hself =>
    refine ⟨.refl r, rfl, fun q c => ?_⟩
    constructor
    · intro hq
      refine ⟨hq, ?_⟩
      rintro ⟨rfl, hne, -⟩
      exact hne hself
    · exact fun hq => hq.1
  · next hself =>
    refine ⟨⟨rfl, rfl, ?_⟩, ?_, fun q c => ?_⟩
    · exact idOf_modifyNode r child fun _ => by rfl
    · exact childrenOf_modifyNode r child fun _ => by rfl
    · rw [parentsOf_modifyParents r child c (·.filter (· ≠ target)) fun _ => rfl]
      by_cases hc : c = child
      · simp [hc, hself]
      · simp [hc]

/-- The second loop takes the back-pointers from its children. -/
theorem detachChildren (r : KeyGroupRepository) (target : Nat) (cs : List Nat) :
    SameGroups r (cs.foldl (·.detachChild target ·) r) ∧
    (cs.foldl (·.detachChild target ·) r).childrenOf = r.childrenOf ∧
    ∀ q c, q ∈ (cs.foldl (·.detachChild target ·) r).parentsOf c ↔
      q ∈ r.parentsOf c ∧ ¬ (c ∈ cs ∧ c ≠ target ∧ q = target) := by
  induction cs generalizing r with
  | nil => exact ⟨.refl r, rfl, fun q c => by simp⟩
  | cons child cs ih =>
    obtain ⟨hgroups, hchildren, hparents⟩ := detachChild r target child
    obtain ⟨hgroups', hchildren', hparents'⟩ := ih (r.detachChild target child)
    refine ⟨hgroups.trans hgroups', hchildren'.trans hchildren, fun q c => ?_⟩
    rw [List.foldl_cons, hparents' q c, hparents q c, List.mem_cons]
    tauto

/-- Freeing a node that nobody points to any more, and the entry that owned it. -/
theorem erased {r₁ r₂ : KeyGroupRepository} {id : QString} (h₁ : GroupGraph r₁)
    (hfound : r₁.keyGroupsForest.lookup id = some target) (hgroups : SameGroups r₁ r₂)
    (hchildren : r₂.childrenOf = r₁.childrenOf)
    (hparents : ∀ p c, p ∈ r₂.parentsOf c ↔ p ≠ target ∧ c ∈ r₁.childrenOf p)
    (hnone : ∀ q, target ∉ r₁.childrenOf q) :
    GroupGraph { r₂ with
      nodes := r₂.nodes.erase target
      keyGroupsForest := r₂.keyGroupsForest.erase id } := by
  set r₃ : KeyGroupRepository := { r₂ with
    nodes := r₂.nodes.erase target
    keyGroupsForest := r₂.keyGroupsForest.erase id } with hr₃
  have hlookup : ∀ q, r₃.nodes.lookup q = if q = target then none else r₂.nodes.lookup q := by
    intro q
    show (r₂.nodes.erase target).lookup q = _
    by_cases hq : q = target
    · rw [if_pos hq, hq, AList.lookup_erase]
    · rw [if_neg hq, AList.lookup_erase_ne hq]
  have hidOf : ∀ q, r₃.idOf q = if q = target then none else r₁.idOf q := by
    intro q
    unfold KeyGroupRepository.idOf
    rw [hlookup]
    split
    · rfl
    · exact congrFun hgroups.idOf q
  have hchildrenOf : ∀ p c, c ∈ r₃.childrenOf p ↔ p ≠ target ∧ c ∈ r₁.childrenOf p := by
    intro p c
    rw [← hchildren]
    unfold KeyGroupRepository.childrenOf
    rw [hlookup]
    by_cases hp : p = target
    · simp [hp]
    · simp [hp]
  have hparentsOf : ∀ p c, p ∈ r₃.parentsOf c ↔ c ≠ target ∧ p ∈ r₂.parentsOf c := by
    intro p c
    unfold KeyGroupRepository.parentsOf
    rw [hlookup]
    by_cases hc : c = target
    · simp [hc]
    · simp [hc]
  constructor
  · intro id' q
    show (r₂.keyGroupsForest.erase id).lookup id' = some q ↔ _
    rw [hidOf, hgroups.forest]
    by_cases hid : id' = id
    · rw [hid, AList.lookup_erase]
      constructor
      · intro hq
        cases hq
      · intro hq
        split at hq
        · cases hq
        · next hqt =>
          rw [← h₁.owned id q, hfound] at hq
          exact absurd (Option.some.inj hq).symm hqt
    · rw [AList.lookup_erase_ne hid, h₁.owned id' q]
      split
      · next hqt =>
        rw [hqt, (h₁.owned id target).mp hfound]
        constructor
        · intro heq
          exact absurd (Option.some.inj heq).symm hid
        · intro heq
          cases heq
      · exact Iff.rfl
  · intro q id' hq
    show q < r₂.next
    rw [hgroups.next]
    rw [hidOf] at hq
    split at hq
    · cases hq
    · exact h₁.fresh q id' hq
  · intro p c
    rw [hchildrenOf, hparentsOf, hparents]
    constructor
    · rintro ⟨hp, hc⟩
      refine ⟨?_, hp, hc⟩
      rintro rfl
      exact hnone p hc
    · exact fun hall => hall.2
  · exact h₁.acyclic.mono fun p c hpc => ((hchildrenOf p c).mp hpc).2

theorem remove (h : GroupGraph r) (id : QString) : GroupGraph (r.remove id).2 := by
  unfold KeyGroupRepository.remove
  split
  · exact h
  · split
    · exact h
    · next target hfound =>
      dsimp only
      refine of_sameShape ?_ (sameShape_flushCache _)
      obtain ⟨hgraph₁, hgroups₁, hnone⟩ := h.detachParents (r.parentsOf target) fun _ hq => hq
      revert hgraph₁ hgroups₁ hnone
      generalize (r.parentsOf target).foldl (·.detachParent target ·) r = r₁
      intro hgraph₁ hgroups₁ hnone
      obtain ⟨hgroups₂, hchildren₂, hparents₂⟩ :=
        detachChildren r₁ target (r₁.childrenOf target)
      revert hgroups₂ hchildren₂ hparents₂
      generalize (r₁.childrenOf target).foldl (·.detachChild target ·) r₁ = r₂
      intro hgroups₂ hchildren₂ hparents₂
      have hfound₁ : r₁.keyGroupsForest.lookup id = some target := by
        rw [hgroups₁.forest]
        exact hfound
      -- the last back-pointers to `target` are gone, so freeing it leaves none behind
      have hmirror : ∀ p c, p ∈ r₂.parentsOf c ↔ p ≠ target ∧ c ∈ r₁.childrenOf p := by
        intro p c
        rw [hparents₂, ← hgraph₁.mirror]
        constructor
        · rintro ⟨hc, hnot⟩
          refine ⟨?_, hc⟩
          rintro rfl
          exact hnot ⟨hc, fun hct => hnone p (hct ▸ hc), rfl⟩
        · rintro ⟨hpt, hc⟩
          exact ⟨hc, fun hall => hpt hall.2.2⟩
      exact hgraph₁.erased hfound₁ hgroups₂ hchildren₂ hmirror hnone

/-! ### Whole runs -/

theorem addKey2KeyGroup (h : GroupGraph r) (id : QString) (key : GpgAbstractKey) :
    GroupGraph (r.addKey2KeyGroup id key).2 := by
  unfold KeyGroupRepository.addKey2KeyGroup
  split
  · exact h
  · next p hp =>
    split
    · dsimp only
      split
      · exact h.of_sameShape (sameShape_flushCache _)
      · have hmodify : SameShape r (r.modifyNode p fun node =>
            { node with nonKeyGroupIds := (node.nonKeyGroupIds ++ [key.id]).eraseDups }) :=
          sameShape_modifyNode r p (fun _ => rfl) (fun _ => rfl) fun _ => rfl
        exact h.of_sameShape
          ((hmodify.trans (sameShape_apply _ p)).trans (sameShape_flushCache _))
    · split
      · exact h
      · next target ht =>
        have hp' : r.idOf p ≠ none := by
          rw [(h.owned id p).mp hp]
          simp
        have ht' : r.idOf target ≠ none := by
          rw [(h.owned key.id target).mp ht]
          simp
        exact (h.addChildren hp' ht').1.of_sameShape (sameShape_flushCache _)

theorem removeKeyFromKeyGroup (h : GroupGraph r) (id keyId : QString) :
    GroupGraph (r.removeKeyFromKeyGroup id keyId).2 := by
  unfold KeyGroupRepository.removeKeyFromKeyGroup
  split
  · exact h
  · next p hp =>
    split
    · have hmodify : SameShape r (r.modifyNode p fun node =>
          { node with nonKeyGroupIds := node.nonKeyGroupIds.filter (· ≠ keyId) }) :=
        sameShape_modifyNode r p (fun _ => rfl) (fun _ => rfl) fun _ => rfl
      exact h.of_sameShape
        ((hmodify.trans (sameShape_apply _ p)).trans (sameShape_flushCache _))
    · split
      · exact h
      · next target _ =>
        exact (h.removeChildren p target).1.of_sameShape (sameShape_flushCache _)

end GroupGraph

/-- `AddKeyGroup` is not given the id of a group that is there and has edges. -/
def AddsNewGroup (r : KeyGroupRepository) : KeyGroupAction → Prop
  | .addKeyGroup kg => GroupGraph.Isolated r kg.id
  | _ => True

/-- **Step.** -/
theorem GroupGraph.step {r : KeyGroupRepository} (h : GroupGraph r) {a : KeyGroupAction}
    (hnew : AddsNewGroup r a) : GroupGraph (r.step a) := by
  cases a with
  | addKeyGroup kg => exact h.addKeyGroup hnew
  | remove id => exact h.remove id
  | addKey2KeyGroup id key => exact h.addKey2KeyGroup id key
  | removeKeyFromKeyGroup id keyId => exact h.removeKeyFromKeyGroup id keyId

/-- What the callers of the repository rely on. -/
structure SoundGroups (r : KeyGroupRepository) : Prop where
  acyclic : ∀ p, ¬ Relation.TransGen (fun p c => c ∈ r.childrenOf p) p p
  mirror : ∀ p c, c ∈ r.childrenOf p ↔ p ∈ r.parentsOf c
  present : ∀ p c, c ∈ r.childrenOf p →
    (∃ id, r.keyGroupsForest.lookup id = some p) ∧ ∃ id, r.keyGroupsForest.lookup id = some c

theorem GroupGraph.sound {r : KeyGroupRepository} (h : GroupGraph r) : SoundGroups r := by
  refine ⟨h.acyclic, h.mirror, fun p c hc => ?_⟩
  have hpresent : ∀ q, r.idOf q ≠ none → ∃ id, r.keyGroupsForest.lookup id = some q := by
    intro q hq
    obtain ⟨id, hid⟩ := Option.ne_none_iff_exists'.mp hq
    exact ⟨id, (h.owned id q).mpr hid⟩
  exact ⟨hpresent p (present_of_child hc),
    hpresent c (present_of_parent ((h.mirror p c).mp hc))⟩

/-- **The graph of key groups is sound** from every stored document, rings and missing
groups included, and after every sequence of calls in which `AddKeyGroup` is not given the
id of a group that is there and has edges. -/
theorem key_group_graph_sound (keyGroups : List GpgKeyGroup) {r : KeyGroupRepository}
    (h : ReachableUnder KeyGroupRepository.step AddsNewGroup
      (KeyGroupRepository.fetchKeyGroups keyGroups) r) : SoundGroups r :=
  (h.inv (GroupGraph.fetchKeyGroups keyGroups) fun _ _ hs hnew => hs.step hnew).sound

/-- A group with a one-letter name, and its members. -/
def letterGroup (name : UInt16) (members : List UInt16) : GpgKeyGroup :=
  ⟨[0x23, 0x26, name], members.map fun member => [0x23, 0x26, member]⟩

/-- Three groups in a ring are loaded without one of its edges; the first group then goes. -/
theorem ring_loaded_and_broken :
    (KeyGroupRepository.fetchKeyGroups [letterGroup 0x41 [0x42], letterGroup 0x42 [0x43],
      letterGroup 0x43 [0x41]]).childrenOf 1 = [2] ∧
    SoundGroups ((KeyGroupRepository.fetchKeyGroups [letterGroup 0x41 [0x42],
      letterGroup 0x42 [0x43], letterGroup 0x43 [0x41]]).step (.remove [0x23, 0x26, 0x41])) := by
  refine ⟨by decide, key_group_graph_sound _ (.next _ .start ?_)⟩
  exact trivial

/-- **A group added under the id of one that is there** takes its place in the map, and the
parents of the old group keep an edge to the node that was freed. -/
theorem replaced_group_leaves_dangling_edge :
    ¬ ∀ (keyGroups : List GpgKeyGroup) (r : KeyGroupRepository),
      ReachableUnder KeyGroupRepository.step (fun _ _ => True)
        (KeyGroupRepository.fetchKeyGroups keyGroups) r → SoundGroups r := by
  intro hall
  have hsound := hall [letterGroup 0x41 [0x42], letterGroup 0x42 []] _
    (.next (.addKeyGroup (letterGroup 0x42 [])) .start trivial)
  have hedge : 1 ∈ ((KeyGroupRepository.fetchKeyGroups [letterGroup 0x41 [0x42],
      letterGroup 0x42 []]).step (.addKeyGroup (letterGroup 0x42 []))).childrenOf 0 := by
    decide
  have hnone : 0 ∉ ((KeyGroupRepository.fetchKeyGroups [letterGroup 0x41 [0x42],
      letterGroup 0x42 []]).step (.addKeyGroup (letterGroup 0x42 []))).parentsOf 1 := by
    decide
  exact hnone ((hsound.mirror 0 1).mp hedge)

end GpgFrontend
