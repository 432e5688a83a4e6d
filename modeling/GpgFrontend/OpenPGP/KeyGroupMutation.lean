import GpgFrontend.OpenPGP.KeyGroupChecks

/-!
# Asking whether a member may be added, and adding it

The dialogs ask `CanAddKeyToKeyGroup` before they call `AddKey2KeyGroup`. The first walks up
the graph with a visited set, the second recurses without one.

- `Applied`: every group lists the members its node has.
- `add_check_agrees`: **the question is answered as the call goes**, and a refused call leaves
  the graph alone; the stored groups too, once something was stored since they were loaded.
-/

namespace GpgFrontend

namespace KeyGroupRepository

variable (r : KeyGroupRepository)

/-- `Contains`. -/
def contains (id keyId : QString) : Bool :=
  match r.keyGroupsForest.lookup id with
  | none => false
  | some p => (r.keyIdsOf p).contains keyId

/-- `IsAncestorOf`. -/
def isAncestorOf (ancestorId descendantId : QString) : Option Bool :=
  if ancestorId = [] ∨ descendantId = [] then some false
  else
    match r.keyGroupsForest.lookup descendantId with
    | none => some false
    | some p =>
      searchLoop r.parentsOf (fun q => r.idOf q = some ancestorId)
        (searchLeft r.parentsOf r.nodes.keys [] [p]) [] [p]

/-- `CanAddKeyToKeyGroup`. -/
def canAddKeyToKeyGroup (id keyId : QString) : Option Bool :=
  if r.keyGroupsForest.lookup id = none ∨ keyId = [] then some false
  else if keyId = id then some false
  else if r.contains id keyId then some false
  else if !isKeyGroupID keyId then some true
  else if r.keyGroupsForest.lookup keyId = none then some false
  else (r.isAncestorOf keyId id).map (!·)

/-- The groups `persist_key_groups` writes. -/
def persistKeyGroups : List GpgKeyGroup :=
  r.sortedIds.filterMap fun id =>
    (r.keyGroupsForest.lookup id).bind fun p => (r.nodes.lookup p).map (·.keyGroup)

/-- Whether a call gets as far as `FlushCache`. -/
def flushes : KeyGroupAction → Bool
  | .addKeyGroup _ => true
  | .remove id => id ≠ [] && (r.keyGroupsForest.lookup id).isSome
  | .addKey2KeyGroup id key =>
    (r.keyGroupsForest.lookup id).isSome &&
      (!key.isKeyGroup || (r.keyGroupsForest.lookup key.id).isSome)
  | .removeKeyFromKeyGroup id keyId =>
    (r.keyGroupsForest.lookup id).isSome &&
      (!isKeyGroupID keyId || (r.keyGroupsForest.lookup keyId).isSome)

end KeyGroupRepository

/-- The repository of a channel and the document it was loaded from and writes to. -/
structure KeyGroupStore where
  repo : KeyGroupRepository
  stored : List GpgKeyGroup
  retired : Bool := false

inductive KeyGroupStoreAction where
  | call (a : KeyGroupAction)
  | retire

namespace KeyGroupStore

def load (keyGroups : List GpgKeyGroup) : KeyGroupStore where
  repo := KeyGroupRepository.fetchKeyGroups keyGroups
  stored := keyGroups

def step (s : KeyGroupStore) : KeyGroupStoreAction → KeyGroupStore
  | .call a =>
    { s with
      repo := s.repo.step a
      stored :=
        if s.repo.flushes a && !s.retired then (s.repo.step a).persistKeyGroups else s.stored }
  | .retire => { s with retired := true }

/-- What is added is typed, and a new group has a new id. -/
def ProperCall (s : KeyGroupStore) : KeyGroupStoreAction → Prop
  | .call a => AddsNewGroup s.repo a ∧ a.Typed
  | .retire => True

end KeyGroupStore

open KeyGroupRepository

/-! ## The answers -/

namespace GroupGraph

variable {r : KeyGroupRepository} {id keyId : QString} {p target : Nat}

theorem idOf_of_lookup (h : GroupGraph r) (hp : r.keyGroupsForest.lookup id = some p) :
    r.idOf p = some id :=
  (h.owned id p).mp hp

theorem contains_iff (hp : r.keyGroupsForest.lookup id = some p) :
    r.contains id keyId = true ↔ keyId ∈ r.keyIdsOf p := by
  simp only [contains, hp, List.contains_iff_mem]

/-- A group is contained in another when it is a child of it. -/
theorem mem_keyIdsOf_group (h : GroupGraph r) (ht : TypedGroups r)
    (htarget : r.keyGroupsForest.lookup keyId = some target) :
    keyId ∈ r.keyIdsOf p ↔ target ∈ r.childrenOf p := by
  have hgroup : isKeyGroupID keyId := ht.group_of_idOf (h.idOf_of_lookup htarget)
  constructor
  · intro hmem
    obtain ⟨c, hc, hfound⟩ := h.child_of_mem ht hmem hgroup
    rw [htarget] at hfound
    rwa [Option.some.inj hfound]
  · exact fun hc => mem_keyIdsOf.mpr (.inl ⟨target, hc, h.idOf_of_lookup htarget⟩)

theorem isAncestorOf_eq (h : GroupGraph r) (hid : id ≠ []) (hkeyId : keyId ≠ [])
    (hp : r.keyGroupsForest.lookup id = some p)
    (htarget : r.keyGroupsForest.lookup keyId = some target) :
    r.isAncestorOf keyId id = some (r.hasAncestor p target) := by
  have hnodes : ∀ c p, p ∈ r.parentsOf c → c ∈ r.nodes.keys :=
    fun c p hp => mem_keys_of_present (present_of_parent hp)
  obtain ⟨found, hrun, hfound⟩ := @searchLoop_iff _ _ r.parentsOf
    (fun q => decide (r.idOf q = some keyId)) r.nodes.keys hnodes _ p (Nat.le_refl _)
  have hanswer : found = r.hasAncestor p target := by
    rw [Bool.eq_iff_iff, hfound, h.hasAncestor_iff, ← h.swap_parents, Relation.transGen_swap]
    simp only [decide_eq_true_eq, ← h.owned, htarget, Option.some.injEq]
    constructor
    · rintro ⟨t, hpath, rfl⟩
      exact hpath
    · exact fun hpath => ⟨target, hpath, rfl⟩
  rw [isAncestorOf, if_neg (not_or.mpr ⟨hkeyId, hid⟩), hp, ← hanswer]
  exact hrun

theorem ne_nil_of_isKeyGroupID (h : isKeyGroupID id) : id ≠ [] := by
  rintro rfl
  cases h

theorem canAdd_key (h : GroupGraph r) (ht : TypedGroups r) (hkeyId : keyId ≠ [])
    (hkey : isKeyGroupID keyId = false) (hp : r.keyGroupsForest.lookup id = some p) :
    r.canAddKeyToKeyGroup id keyId = some (!(r.nonKeyGroupIdsOf p).contains keyId) := by
  have hgroup : isKeyGroupID id := ht.group_of_idOf (h.idOf_of_lookup hp)
  have hne : keyId ≠ id := by
    rintro rfl
    rw [hkey] at hgroup
    cases hgroup
  have hcontains : r.contains id keyId = (r.nonKeyGroupIdsOf p).contains keyId := by
    rw [Bool.eq_iff_iff, contains_iff hp, List.contains_iff_mem]
    constructor
    · exact fun hmem => key_of_mem ht hmem (by simp [hkey])
    · exact fun hmem => mem_keyIdsOf.mpr (.inr hmem)
  rw [canAddKeyToKeyGroup, if_neg (by simp [hp, hkeyId]), if_neg hne, hcontains, hkey]
  cases (r.nonKeyGroupIdsOf p).contains keyId with
  | false => rfl
  | true => rfl

theorem canAdd_group (h : GroupGraph r) (ht : TypedGroups r)
    (hp : r.keyGroupsForest.lookup id = some p)
    (htarget : r.keyGroupsForest.lookup keyId = some target) :
    r.canAddKeyToKeyGroup id keyId = some (r.addChildren p target).1 := by
  have hid : isKeyGroupID id := ht.group_of_idOf (h.idOf_of_lookup hp)
  have hkeyId : isKeyGroupID keyId := ht.group_of_idOf (h.idOf_of_lookup htarget)
  have hself : keyId = id ↔ target = p := by
    constructor
    · rintro rfl
      rw [hp] at htarget
      exact (Option.some.inj htarget).symm
    · rintro rfl
      have heq := h.idOf_of_lookup hp
      rw [h.idOf_of_lookup htarget] at heq
      exact Option.some.inj heq
  have hcontains : r.contains id keyId = true ↔ target ∈ r.childrenOf p := by
    rw [contains_iff hp, h.mem_keyIdsOf_group ht htarget]
  rw [canAddKeyToKeyGroup, if_neg (by simp [hp, ne_nil_of_isKeyGroupID hkeyId]),
    KeyGroupRepository.addChildren]
  by_cases h₁ : target = p
  · rw [if_pos (hself.mpr h₁), if_pos (.inl h₁)]
  · rw [if_neg (mt hself.mp h₁)]
    by_cases h₂ : target ∈ r.childrenOf p
    · rw [if_pos (hcontains.mpr h₂), if_pos (.inr (.inl h₂))]
    · rw [if_neg (mt hcontains.mp h₂), hkeyId, if_neg (by simp), if_neg (by simp [htarget]),
        h.isAncestorOf_eq (ne_nil_of_isKeyGroupID hid) (ne_nil_of_isKeyGroupID hkeyId) hp htarget]
      by_cases h₃ : r.hasAncestor p target = true
      · rw [if_pos (.inr (.inr h₃)), h₃]
        rfl
      · rw [if_neg (by simp [h₁, h₂, h₃]), Bool.eq_false_iff.mpr h₃]
        rfl

/-- **The question is answered as the call goes.** -/
theorem canAdd_eq (h : GroupGraph r) (ht : TypedGroups r) {key : GpgAbstractKey}
    (hkey : key.Typed) (hne : key.id ≠ []) :
    r.canAddKeyToKeyGroup id key.id = some (r.addKey2KeyGroup id key).1 := by
  unfold KeyGroupRepository.addKey2KeyGroup
  cases hp : r.keyGroupsForest.lookup id with
  | none => simp [canAddKeyToKeyGroup, hp]
  | some p =>
    dsimp only
    by_cases hgroup : key.isKeyGroup = true
    · rw [hgroup]
      have hid : isKeyGroupID key.id := hkey ▸ hgroup
      simp only [Bool.not_true, Bool.false_eq_true, if_false]
      cases htarget : r.keyGroupsForest.lookup key.id with
      | none =>
        have hneId : key.id ≠ id := by
          intro heq
          rw [heq, hp] at htarget
          cases htarget
        have hno : ¬ r.contains id key.id = true := by
          rw [contains_iff hp]
          intro hmem
          obtain ⟨c, -, hfound⟩ := h.child_of_mem ht hmem hid
          rw [htarget] at hfound
          cases hfound
        rw [canAddKeyToKeyGroup, if_neg (by simp [hp, hne]), if_neg hneId, if_neg hno, hid,
          if_neg (by simp), if_pos htarget]
      | some target => exact h.canAdd_group ht hp htarget
    · have hid : isKeyGroupID key.id = false := by
        rw [← hkey]
        exact Bool.eq_false_iff.mpr hgroup
      rw [h.canAdd_key ht hne hid hp, Bool.eq_false_iff.mpr hgroup]
      have hknown : ((r.nodes.lookup p).map (·.nonKeyGroupIds.contains key.id)).getD false
          = (r.nonKeyGroupIdsOf p).contains key.id := by
        unfold nonKeyGroupIdsOf
        cases r.nodes.lookup p with
        | none => rfl
        | some node => rfl
      simp only [Bool.not_false, if_true, hknown]
      cases (r.nonKeyGroupIdsOf p).contains key.id with
      | false => rfl
      | true => rfl

end GroupGraph

/-! ## A refused call -/

/-- The same groups, members and edges, whatever the order of the table of nodes. -/
structure SameRepository (r r' : KeyGroupRepository) : Prop where
  forest : r'.keyGroupsForest = r.keyGroupsForest
  next : r'.next = r.next
  nodes : ∀ p, r'.nodes.lookup p = r.nodes.lookup p

theorem SameRepository.refl (r : KeyGroupRepository) : SameRepository r r :=
  ⟨rfl, rfl, fun _ => rfl⟩

theorem SameRepository.trans {r₁ r₂ r₃ : KeyGroupRepository} (h₁ : SameRepository r₁ r₂)
    (h₂ : SameRepository r₂ r₃) : SameRepository r₁ r₃ :=
  ⟨h₂.forest.trans h₁.forest, h₂.next.trans h₁.next, fun p => (h₂.nodes p).trans (h₁.nodes p)⟩

theorem SameRepository.persist {r r' : KeyGroupRepository} (h : SameRepository r r') :
    r'.persistKeyGroups = r.persistKeyGroups := by
  unfold persistKeyGroups sortedIds
  simp only [h.forest, h.nodes]

/-- The group of a node lists the members the node has. -/
def AppliedAt (r : KeyGroupRepository) (p : Nat) : Prop :=
  ∀ node, r.nodes.lookup p = some node → node.keyGroup.keyIds = r.keyIds node

def Applied (r : KeyGroupRepository) : Prop := ∀ p, AppliedAt r p

section Applied

variable {r : KeyGroupRepository} {p q : Nat}

theorem keyIds_congr {r' : KeyGroupRepository} (h : r'.idOf = r.idOf)
    {node node' : GpgKeyGroupTreeNode} (hchildren : node'.children = node.children)
    (hkeys : node'.nonKeyGroupIds = node.nonKeyGroupIds) : r'.keyIds node' = r.keyIds node := by
  rw [keyIds, keyIds, h, hchildren, hkeys]

theorem lookup_modifyNode (r : KeyGroupRepository) (p q : Nat)
    (f : GpgKeyGroupTreeNode → GpgKeyGroupTreeNode) :
    (r.modifyNode p f).nodes.lookup q =
      if q = p then (r.nodes.lookup p).map f else r.nodes.lookup q :=
  AList.lookup_modifyAt p q f r.nodes

/-- A change that leaves ids and members alone. -/
theorem AppliedAt.modifyNode (h : AppliedAt r q) {f : GpgKeyGroupTreeNode → GpgKeyGroupTreeNode}
    (hgroup : ∀ node, (f node).keyGroup = node.keyGroup)
    (hmembers : q = p → ∀ node, (f node).children = node.children ∧
      (f node).nonKeyGroupIds = node.nonKeyGroupIds) : AppliedAt (r.modifyNode p f) q := by
  have hidOf : (r.modifyNode p f).idOf = r.idOf :=
    idOf_modifyNode r p fun node => congrArg _ (hgroup node)
  intro node hnode
  rw [lookup_modifyNode] at hnode
  split at hnode
  · next hqp =>
    obtain ⟨old, hold, rfl⟩ := Option.map_eq_some_iff.mp hnode
    rw [hgroup, keyIds_congr hidOf (hmembers hqp old).1 (hmembers hqp old).2]
    exact h old (hqp ▸ hold)
  · rw [keyIds_congr hidOf rfl rfl]
    exact h node hnode

theorem appliedAt_apply_self (r : KeyGroupRepository) (p : Nat) : AppliedAt (r.apply p) p := by
  intro node hnode
  rw [KeyGroupRepository.apply, lookup_modifyNode, if_pos rfl] at hnode
  obtain ⟨old, -, rfl⟩ := Option.map_eq_some_iff.mp hnode
  exact (keyIds_congr (sameShape_apply r p).idOf rfl rfl).symm

theorem AppliedAt.apply (h : AppliedAt r q) (p : Nat) : AppliedAt (r.apply p) q := by
  by_cases hqp : q = p
  · rw [hqp]
    exact appliedAt_apply_self r p
  · intro node hnode
    rw [KeyGroupRepository.apply, lookup_modifyNode, if_neg hqp] at hnode
    rw [keyIds_congr (sameShape_apply r p).idOf rfl rfl]
    exact h node hnode

theorem AppliedAt.addChildren (h : AppliedAt r q) (p target : Nat) :
    AppliedAt (r.addChildren p target).2 q := by
  unfold KeyGroupRepository.addChildren
  split
  · exact h
  · dsimp only
    by_cases hqp : q = p
    · rw [hqp]
      exact appliedAt_apply_self _ p
    · refine AppliedAt.apply (AppliedAt.modifyNode (AppliedAt.modifyNode h ?_ ?_) ?_ ?_) p
      · exact fun _ => rfl
      · exact fun heq => absurd heq hqp
      · exact fun _ => rfl
      · exact fun _ _ => ⟨rfl, rfl⟩

theorem AppliedAt.adoptMembers (h : AppliedAt r q) (p : Nat) (members : List QString) :
    AppliedAt (adoptMembers p members r) q := by
  induction members generalizing r with
  | nil => exact h
  | cons keyId rest ih =>
    rw [KeyGroupRepository.adoptMembers]
    split
    · exact ih h
    · exact ih (h.addChildren p _)

theorem AppliedAt.buildNode (h : AppliedAt r q) (id : QString) : AppliedAt (r.buildNode id) q := by
  unfold KeyGroupRepository.buildNode
  split
  · exact h
  · exact (h.adoptMembers _ _).apply _

/-- After `FlushCache` every group lists its members. -/
theorem applied_flushCache (r : KeyGroupRepository) : Applied r.flushCache := by
  have hkept : ∀ (ps : List Nat) (r : KeyGroupRepository) (q : Nat), q ∈ ps ∨ AppliedAt r q →
      AppliedAt (ps.foldl (·.apply ·) r) q := by
    intro ps
    induction ps with
    | nil => exact fun r q h => h.resolve_left List.not_mem_nil
    | cons p ps ih =>
      intro r q h
      refine ih (r.apply p) q ?_
      obtain hq | hq := h
      · obtain rfl | hq := List.mem_cons.mp hq
        · exact .inr (appliedAt_apply_self r q)
        · exact .inl hq
      · exact .inr (hq.apply p)
  intro q
  refine hkept r.nodes.keys r q ?_
  by_cases hq : q ∈ r.nodes.keys
  · exact .inl hq
  · refine .inr fun node hnode => absurd ?_ hq
    rw [← AList.mem_keys, ← AList.lookup_isSome, hnode]
    rfl

theorem forest_buildNode (h : GroupGraph r) (id : QString) :
    (r.buildNode id).keyGroupsForest = r.keyGroupsForest := by
  unfold KeyGroupRepository.buildNode
  split
  · rfl
  · next p hp =>
    have hpresent : r.idOf p ≠ none := by
      rw [h.idOf_of_lookup hp]
      exact Option.some_ne_none id
    exact (h.adoptMembers hpresent _).2.forest

/-- The loop of `build_gpg_key_group_tree` applies every group it comes to. -/
theorem applied_build (h : GroupGraph r) (ids : List QString) :
    (ids.foldl KeyGroupRepository.buildNode r).keyGroupsForest = r.keyGroupsForest ∧
      ∀ id p, r.keyGroupsForest.lookup id = some p → id ∈ ids ∨ AppliedAt r p →
        AppliedAt (ids.foldl KeyGroupRepository.buildNode r) p := by
  induction ids generalizing r with
  | nil => exact ⟨rfl, fun id p _ hp => hp.resolve_left List.not_mem_nil⟩
  | cons id' ids ih =>
    have hforest := forest_buildNode h id'
    obtain ⟨hrest, happly⟩ := ih (h.buildNode id')
    refine ⟨hrest.trans hforest, fun id p hp happlied => happly id p (hforest ▸ hp) ?_⟩
    obtain hid | happlied := happlied
    · obtain rfl | hid := List.mem_cons.mp hid
      · refine .inr ?_
        simp only [KeyGroupRepository.buildNode, hp]
        exact appliedAt_apply_self _ p
      · exact .inl hid
    · exact .inr (happlied.buildNode id')

theorem applied_fetchKeyGroups (keyGroups : List GpgKeyGroup) :
    Applied (fetchKeyGroups keyGroups) := by
  have hfetched := GroupGraph.fetchKeyGroups keyGroups
  obtain ⟨hforest, happly⟩ := applied_build (GroupGraph.loaded keyGroups).1
    (keyGroups.foldl loadGroup {}).sortedIds
  intro p node hnode
  have hid : (fetchKeyGroups keyGroups).idOf p = some node.keyGroup.id := by
    unfold KeyGroupRepository.idOf
    rw [hnode]
    rfl
  have hlookup : (keyGroups.foldl loadGroup {}).keyGroupsForest.lookup node.keyGroup.id = some p :=
    hforest ▸ (hfetched.owned _ p).mpr hid
  refine happly node.keyGroup.id p hlookup (.inl ?_) node hnode
  rw [sortedIds, List.mem_insertionSort, ← AList.mem_keys, ← AList.lookup_isSome, hlookup]
  rfl

/-- A second `FlushCache` changes nothing. -/
theorem sameRepository_flushCache (h : Applied r) : SameRepository r r.flushCache := by
  unfold KeyGroupRepository.flushCache
  generalize r.nodes.keys = ps
  induction ps generalizing r with
  | nil => exact .refl r
  | cons p ps ih =>
    have hstep : SameRepository r (r.apply p) := by
      refine ⟨rfl, rfl, fun q => ?_⟩
      rw [KeyGroupRepository.apply, lookup_modifyNode]
      split
      · next hqp =>
        rw [hqp]
        cases hnode : r.nodes.lookup p with
        | none => rfl
        | some node =>
          rw [Option.map_some, ← h p node hnode]
      · rfl
    exact hstep.trans (ih fun q => (h q).apply p)

end Applied

/-! ## Whole runs -/

/-- A call that does not get as far as `FlushCache` changes nothing. -/
theorem step_of_not_flushes {r : KeyGroupRepository} {a : KeyGroupAction}
    (h : r.flushes a = false) : r.step a = r := by
  cases a with
  | addKeyGroup kg => cases h
  | remove id =>
    simp only [flushes, Bool.and_eq_false_iff, decide_eq_false_iff_not, not_not,
      Option.isSome_eq_false_iff, Option.isNone_iff_eq_none] at h
    simp only [KeyGroupRepository.step, KeyGroupRepository.remove]
    split
    · rfl
    · next hne => rw [h.resolve_left hne]
  | addKey2KeyGroup id key =>
    simp only [flushes, Bool.and_eq_false_iff, Bool.or_eq_false_iff, Option.isSome_eq_false_iff,
      Option.isNone_iff_eq_none] at h
    simp only [KeyGroupRepository.step, KeyGroupRepository.addKey2KeyGroup]
    split
    · rfl
    · next p hp =>
      obtain ⟨hgroup, hnone⟩ := h.resolve_left (by simp [hp])
      rw [hgroup, hnone]
      rfl
  | removeKeyFromKeyGroup id keyId =>
    simp only [flushes, Bool.and_eq_false_iff, Bool.or_eq_false_iff, Option.isSome_eq_false_iff,
      Option.isNone_iff_eq_none] at h
    simp only [KeyGroupRepository.step, KeyGroupRepository.removeKeyFromKeyGroup]
    split
    · rfl
    · next p hp =>
      obtain ⟨hgroup, hnone⟩ := h.resolve_left (by simp [hp])
      rw [hgroup, hnone]
      rfl

theorem step_of_flushes {r : KeyGroupRepository} {a : KeyGroupAction} (h : r.flushes a = true) :
    ∃ r' : KeyGroupRepository, r.step a = r'.flushCache := by
  cases a with
  | addKeyGroup kg => exact ⟨_, rfl⟩
  | remove id =>
    simp only [flushes, Bool.and_eq_true, decide_eq_true_eq, Option.isSome_iff_exists] at h
    obtain ⟨hne, p, hp⟩ := h
    simp only [KeyGroupRepository.step, KeyGroupRepository.remove, if_neg hne, hp]
    exact ⟨_, rfl⟩
  | addKey2KeyGroup id key =>
    simp only [flushes, Bool.and_eq_true, Bool.or_eq_true, Option.isSome_iff_exists] at h
    obtain ⟨⟨p, hp⟩, hkey⟩ := h
    simp only [KeyGroupRepository.step, KeyGroupRepository.addKey2KeyGroup, hp]
    split
    · split
      · exact ⟨_, rfl⟩
      · exact ⟨_, rfl⟩
    · next hgroup =>
      obtain ⟨target, htarget⟩ := hkey.resolve_left hgroup
      simp only [htarget]
      exact ⟨_, rfl⟩
  | removeKeyFromKeyGroup id keyId =>
    simp only [flushes, Bool.and_eq_true, Bool.or_eq_true, Option.isSome_iff_exists] at h
    obtain ⟨⟨p, hp⟩, hkey⟩ := h
    simp only [KeyGroupRepository.step, KeyGroupRepository.removeKeyFromKeyGroup, hp]
    split
    · exact ⟨_, rfl⟩
    · next hgroup =>
      obtain ⟨target, htarget⟩ := hkey.resolve_left hgroup
      simp only [htarget]
      exact ⟨_, rfl⟩

/-- What holds of a store in use: what is stored is what the repository would store, unless it
was retired or nothing was stored since the document was loaded. -/
structure StoreInv (doc : List GpgKeyGroup) (s : KeyGroupStore) : Prop where
  graph : GroupGraph s.repo
  typed : TypedGroups s.repo
  applied : Applied s.repo
  saved : s.retired = false → s.stored = s.repo.persistKeyGroups ∨
    (s.repo = fetchKeyGroups doc ∧ s.stored = doc)

theorem StoreInv.load {doc : List GpgKeyGroup} (hdoc : ∀ kg ∈ doc, kg.id ≠ [] → isKeyGroupID kg.id) :
    StoreInv doc (KeyGroupStore.load doc) :=
  ⟨GroupGraph.fetchKeyGroups doc, TypedGroups.fetchKeyGroups hdoc, applied_fetchKeyGroups doc,
    fun _ => .inr ⟨rfl, rfl⟩⟩

/-- **Step.** -/
theorem StoreInv.step {doc : List GpgKeyGroup} {s : KeyGroupStore} {a : KeyGroupStoreAction}
    (h : StoreInv doc s) (ha : s.ProperCall a) : StoreInv doc (s.step a) := by
  cases a with
  | retire => exact ⟨h.graph, h.typed, h.applied, fun hr => by cases hr⟩
  | call a =>
    refine ⟨h.graph.step ha.1, h.typed.step ha.2, ?_, fun hretired => ?_⟩
    · show Applied (s.repo.step a)
      cases hflush : s.repo.flushes a with
      | false =>
        rw [step_of_not_flushes hflush]
        exact h.applied
      | true =>
        obtain ⟨r', hr'⟩ := step_of_flushes hflush
        rw [hr']
        exact applied_flushCache r'
    · have hretired : s.retired = false := hretired
      simp only [KeyGroupStore.step, hretired, Bool.not_false, Bool.and_true]
      cases hflush : s.repo.flushes a with
      | false =>
        rw [step_of_not_flushes hflush]
        exact h.saved hretired
      | true => exact .inl rfl

/-- A refused call has at most flushed. -/
theorem refused_add {r : KeyGroupRepository} {id : QString} {key : GpgAbstractKey}
    (h : (r.addKey2KeyGroup id key).1 = false) :
    (r.addKey2KeyGroup id key).2 = r ∨ (r.addKey2KeyGroup id key).2 = r.flushCache := by
  unfold KeyGroupRepository.addKey2KeyGroup at h ⊢
  split at h
  · next hp => exact .inl rfl
  · next p hp =>
    dsimp only
    split at h
    · next hkey =>
      rw [if_pos hkey]
      dsimp only at h ⊢
      split at h
      · next hknown =>
        rw [if_pos hknown]
        exact .inr rfl
      · cases h
    · next hkey =>
      rw [if_neg hkey]
      split at h
      · exact .inl rfl
      · next target htarget =>
        refine .inr ?_
        have hrefused : (r.addChildren p target).1 = false := h
        unfold KeyGroupRepository.addChildren at hrefused ⊢
        split at hrefused
        · next hno => rw [if_pos hno]
        · cases hrefused

/-- **The check agrees with the mutation**, and a refused call leaves the graph alone. What is
stored stays too, unless nothing was stored since the document was loaded: then the call may
write the groups as they were loaded. -/
theorem add_check_agrees {doc : List GpgKeyGroup}
    (hdoc : ∀ kg ∈ doc, kg.id ≠ [] → isKeyGroupID kg.id) {s : KeyGroupStore}
    (h : ReachableUnder KeyGroupStore.step KeyGroupStore.ProperCall (KeyGroupStore.load doc) s)
    (id : QString) {key : GpgAbstractKey} (hkey : key.Typed) (hne : key.id ≠ []) :
    s.repo.canAddKeyToKeyGroup id key.id = some (s.repo.addKey2KeyGroup id key).1 ∧
    ((s.repo.addKey2KeyGroup id key).1 = false →
      SameRepository s.repo (s.step (.call (.addKey2KeyGroup id key))).repo ∧
      ((s.step (.call (.addKey2KeyGroup id key))).stored = s.stored ∨
        (s.repo = fetchKeyGroups doc ∧ s.stored = doc ∧
          (s.step (.call (.addKey2KeyGroup id key))).stored =
            (fetchKeyGroups doc).persistKeyGroups))) := by
  have hinv : StoreInv doc s := h.inv (StoreInv.load hdoc) fun _ _ hs ha => hs.step ha
  refine ⟨hinv.graph.canAdd_eq hinv.typed hkey hne, fun hrefused => ?_⟩
  have hsame : SameRepository s.repo (s.repo.step (.addKey2KeyGroup id key)) := by
    show SameRepository s.repo (s.repo.addKey2KeyGroup id key).2
    obtain heq | heq := refused_add hrefused
    · rw [heq]
      exact .refl s.repo
    · rw [heq]
      exact sameRepository_flushCache hinv.applied
  refine ⟨hsame, ?_⟩
  simp only [KeyGroupStore.step]
  split
  · next hwrites =>
    rw [Bool.and_eq_true, Bool.not_eq_true'] at hwrites
    obtain hsaved | ⟨hrepo, hstored⟩ := hinv.saved hwrites.2
    · exact .inl (hsame.persist.trans hsaved.symm)
    · exact .inr ⟨hrepo, hstored, by rw [hsame.persist, hrepo]⟩
  · exact .inl rfl

/-- A group in a group. -/
def nestedGroups : List GpgKeyGroup := [letterGroup 0x41 [0x42], letterGroup 0x42 []]

/-- A group is not added to one of its members: neither asking nor adding changes the graph. -/
theorem ring_not_closed :
    (KeyGroupStore.load nestedGroups).repo.canAddKeyToKeyGroup
      [0x23, 0x26, 0x42] [0x23, 0x26, 0x41] = some false ∧
    SameRepository (KeyGroupStore.load nestedGroups).repo
      ((KeyGroupStore.load nestedGroups).step
        (.call (.addKey2KeyGroup [0x23, 0x26, 0x42] ⟨true, [0x23, 0x26, 0x41]⟩))).repo := by
  have hstart : ReachableUnder KeyGroupStore.step KeyGroupStore.ProperCall
      (KeyGroupStore.load nestedGroups) (KeyGroupStore.load nestedGroups) := .start
  have htyped : GpgAbstractKey.Typed ⟨true, [0x23, 0x26, 0x41]⟩ := rfl
  have hrefused : ((KeyGroupStore.load nestedGroups).repo.addKey2KeyGroup [0x23, 0x26, 0x42]
      ⟨true, [0x23, 0x26, 0x41]⟩).1 = false := by decide
  have h := add_check_agrees (by decide) hstart [0x23, 0x26, 0x42] htyped (by decide)
  exact ⟨h.1.trans (congrArg some hrefused), (h.2 hrefused).1⟩

/-- A group with a member that is gone, as a document may hold it. -/
def staleMemberGroups : List GpgKeyGroup := [⟨[0x23, 0x26, 0x41], [[0x23, 0x26, 0x58], [0x31]]⟩]

/-- **A refused call that writes**: the member that is gone is dropped from what is stored. -/
theorem refused_add_rewrites_store :
    ¬ ∀ (doc : List GpgKeyGroup) (s : KeyGroupStore) (id : QString) (key : GpgAbstractKey),
      (∀ kg ∈ doc, kg.id ≠ [] → isKeyGroupID kg.id) →
      ReachableUnder KeyGroupStore.step KeyGroupStore.ProperCall (KeyGroupStore.load doc) s →
      key.Typed → key.id ≠ [] →
      s.repo.canAddKeyToKeyGroup id key.id = some (s.repo.addKey2KeyGroup id key).1 ∧
      ((s.repo.addKey2KeyGroup id key).1 = false →
        SameRepository s.repo (s.step (.call (.addKey2KeyGroup id key))).repo ∧
        (s.step (.call (.addKey2KeyGroup id key))).stored = s.stored) := by
  intro hall
  have h := hall staleMemberGroups (KeyGroupStore.load staleMemberGroups) [0x23, 0x26, 0x41]
    ⟨false, [0x31]⟩ (by decide) .start rfl (by decide)
  exact absurd (h.2 (by decide)).2 (by decide)

end GpgFrontend
