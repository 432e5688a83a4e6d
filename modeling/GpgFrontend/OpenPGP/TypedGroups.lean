import GpgFrontend.OpenPGP.KeyGroupGraph

/-!
# Ids say what they name

The repository tells a key group from a key by its id (`IsKeyGroupID`), and a
`GpgAbstractKey` tells its own type. The constructor of a group makes an id that begins with
`#&`, and the id of a key is hexadecimal.

- `TypedGroups`: the id of every group is a group's, and the ids of its keys are not.
-/

namespace GpgFrontend

/-- The id of a group begins with `#&`, and the id of no member key does. -/
structure GpgKeyGroupTreeNode.Typed (node : GpgKeyGroupTreeNode) : Prop where
  group : isKeyGroupID node.keyGroup.id
  keys : ∀ id ∈ node.nonKeyGroupIds, isKeyGroupID id = false

/-- The type of a key and its id agree. -/
def GpgAbstractKey.Typed (key : GpgAbstractKey) : Prop := key.isKeyGroup = isKeyGroupID key.id

def KeyGroupAction.Typed : KeyGroupAction → Prop
  | .addKeyGroup kg => isKeyGroupID kg.id
  | .addKey2KeyGroup _ key => key.Typed
  | _ => True

open KeyGroupRepository

def TypedGroups (r : KeyGroupRepository) : Prop :=
  ∀ p node, r.nodes.lookup p = some node → node.Typed

namespace TypedGroups

variable {r : KeyGroupRepository}

theorem modifyNode (h : TypedGroups r) (p : Nat) {f : GpgKeyGroupTreeNode → GpgKeyGroupTreeNode}
    (hf : ∀ node, node.Typed → (f node).Typed) : TypedGroups (r.modifyNode p f) := by
  intro q node hnode
  have hlook : (r.modifyNode p f).nodes.lookup q
      = if q = p then (r.nodes.lookup p).map f else r.nodes.lookup q :=
    AList.lookup_modifyAt p q f r.nodes
  rw [hlook] at hnode
  split at hnode
  · obtain ⟨old, hold, rfl⟩ := Option.map_eq_some_iff.mp hnode
    exact hf old (h p old hold)
  · exact h q node hnode

theorem apply (h : TypedGroups r) (p : Nat) : TypedGroups (r.apply p) :=
  h.modifyNode p fun _ ht => ⟨ht.group, ht.keys⟩

theorem flushCache (h : TypedGroups r) : TypedGroups r.flushCache := by
  unfold KeyGroupRepository.flushCache
  generalize r.nodes.keys = ps
  induction ps generalizing r with
  | nil => exact h
  | cons p ps ih => exact ih (h.apply p)

theorem addChildren (h : TypedGroups r) (p target : Nat) :
    TypedGroups (r.addChildren p target).2 := by
  unfold KeyGroupRepository.addChildren
  split
  · exact h
  · have hchild := h.modifyNode p (f := fun node =>
      { node with children := node.children ++ [target] }) fun _ ht => ⟨ht.group, ht.keys⟩
    have hparent := hchild.modifyNode target (f := fun node =>
      { node with parents := node.parents ++ [p] }) fun _ ht => ⟨ht.group, ht.keys⟩
    exact hparent.apply p

theorem removeChildren (h : TypedGroups r) (p target : Nat) :
    TypedGroups (r.removeChildren p target).2 := by
  unfold KeyGroupRepository.removeChildren
  split
  · exact h
  · have hchild := h.modifyNode p (f := fun node =>
      { node with children := node.children.filter (· ≠ target) })
      fun _ ht => ⟨ht.group, ht.keys⟩
    have hparent := hchild.modifyNode target (f := fun node =>
      { node with parents := node.parents.filter (· ≠ p) }) fun _ ht => ⟨ht.group, ht.keys⟩
    exact hparent.apply p

theorem adoptMembers (h : TypedGroups r) (p : Nat) (members : List QString) :
    TypedGroups (adoptMembers p members r) := by
  induction members generalizing r with
  | nil => exact h
  | cons keyId rest ih =>
    rw [KeyGroupRepository.adoptMembers]
    split
    · exact ih h
    · exact ih (h.addChildren p _)

theorem insertNode (h : TypedGroups r) {kg : GpgKeyGroup} (hkg : isKeyGroupID kg.id) :
    TypedGroups (r.insertNode kg) := by
  intro q node hnode
  rw [GroupGraph.lookup_insertNode] at hnode
  split at hnode
  · obtain rfl := Option.some.inj hnode
    refine ⟨hkg, fun id hid => ?_⟩
    have hkey := (List.mem_filter.mp hid).2
    rwa [Bool.not_eq_true'] at hkey
  · split at hnode
    · cases hnode
    · exact h q node hnode

theorem addKeyGroup (h : TypedGroups r) {kg : GpgKeyGroup} (hkg : isKeyGroupID kg.id) :
    TypedGroups (r.addKeyGroup kg) :=
  (((h.insertNode hkg).adoptMembers r.next kg.keyIds).apply r.next).flushCache

theorem buildNode (h : TypedGroups r) (id : QString) : TypedGroups (r.buildNode id) := by
  unfold KeyGroupRepository.buildNode
  split
  · exact h
  · exact (h.adoptMembers _ _).apply _

/-- Every stored document whose groups have group ids gives typed groups. -/
theorem fetchKeyGroups {keyGroups : List GpgKeyGroup}
    (hids : ∀ kg ∈ keyGroups, kg.id ≠ [] → isKeyGroupID kg.id) :
    TypedGroups (fetchKeyGroups keyGroups) := by
  have hloaded : ∀ r, TypedGroups r → TypedGroups (keyGroups.foldl loadGroup r) := by
    induction keyGroups with
    | nil => exact fun r h => h
    | cons kg rest ih =>
      intro r h
      refine ih (fun kg' hkg' => hids kg' (List.mem_cons_of_mem kg hkg')) _ ?_
      unfold loadGroup
      split
      · exact h
      · next hne => exact h.insertNode (hids kg List.mem_cons_self hne)
  unfold KeyGroupRepository.fetchKeyGroups buildGpgKeyGroupTree
  generalize (keyGroups.foldl loadGroup {}).sortedIds = ids
  have hempty : TypedGroups {} := fun p node hnode => by cases hnode
  have h := hloaded {} hempty
  generalize keyGroups.foldl loadGroup {} = r at h
  induction ids generalizing r with
  | nil => exact h
  | cons id ids ih => exact ih _ (h.buildNode id)

theorem detachParent (h : TypedGroups r) (target parent : Nat) :
    TypedGroups (r.detachParent target parent) := by
  unfold KeyGroupRepository.detachParent
  split
  · exact h
  · exact h.removeChildren parent target

theorem detachParents (h : TypedGroups r) (target : Nat) (ps : List Nat) :
    TypedGroups (ps.foldl (·.detachParent target ·) r) := by
  induction ps generalizing r with
  | nil => exact h
  | cons parent ps ih => exact ih (h.detachParent target parent)

theorem detachChild (h : TypedGroups r) (target child : Nat) :
    TypedGroups (r.detachChild target child) := by
  unfold KeyGroupRepository.detachChild
  split
  · exact h
  · exact h.modifyNode child fun _ ht => ⟨ht.group, ht.keys⟩

theorem detachChildren (h : TypedGroups r) (target : Nat) (cs : List Nat) :
    TypedGroups (cs.foldl (·.detachChild target ·) r) := by
  induction cs generalizing r with
  | nil => exact h
  | cons child cs ih => exact ih (h.detachChild target child)

theorem remove (h : TypedGroups r) (id : QString) : TypedGroups (r.remove id).2 := by
  unfold KeyGroupRepository.remove
  split
  · exact h
  · split
    · exact h
    · next target _ =>
      refine flushCache fun q node hnode => ?_
      have hdetached := (h.detachParents target (r.parentsOf target)).detachChildren target
        (((r.parentsOf target).foldl (·.detachParent target ·) r).childrenOf target)
      rw [AList.lookup_erase_ite] at hnode
      split at hnode
      · cases hnode
      · exact hdetached q node hnode

theorem addKey2KeyGroup (h : TypedGroups r) (id : QString) {key : GpgAbstractKey}
    (hkey : key.Typed) : TypedGroups (r.addKey2KeyGroup id key).2 := by
  unfold KeyGroupRepository.addKey2KeyGroup
  split
  · exact h
  · next p _ =>
    split
    · next hgroup =>
      dsimp only
      split
      · exact h.flushCache
      · refine flushCache (apply (h.modifyNode p ?_) p)
        refine fun node ht => ⟨ht.group, fun id hid => ?_⟩
        obtain hid | hid := List.mem_append.mp (List.mem_eraseDups.mp hid)
        · exact ht.keys id hid
        · rw [List.mem_singleton.mp hid, ← hkey]
          simpa using hgroup
    · split
      · exact h
      · exact (h.addChildren p _).flushCache

theorem removeKeyFromKeyGroup (h : TypedGroups r) (id keyId : QString) :
    TypedGroups (r.removeKeyFromKeyGroup id keyId).2 := by
  unfold KeyGroupRepository.removeKeyFromKeyGroup
  split
  · exact h
  · next p _ =>
    split
    · refine flushCache (apply (h.modifyNode p ?_) p)
      refine fun node ht => ⟨ht.group, fun id hid => ?_⟩
      exact ht.keys id (List.mem_of_mem_filter hid)
    · split
      · exact h
      · exact (h.removeChildren p _).flushCache

/-- **Step.** -/
theorem step (h : TypedGroups r) {a : KeyGroupAction} (ha : a.Typed) : TypedGroups (r.step a) := by
  cases a with
  | addKeyGroup kg => exact h.addKeyGroup ha
  | remove id => exact h.remove id
  | addKey2KeyGroup id key => exact h.addKey2KeyGroup id ha
  | removeKeyFromKeyGroup id keyId => exact h.removeKeyFromKeyGroup id keyId

end TypedGroups

end GpgFrontend
