import Mathlib.Data.List.Sort
import GpgFrontend.Base.Acyclic
import GpgFrontend.Base.Runs

/-!
# Key groups and the graph of who contains whom (`KeyGroupRepository.cpp`)

A key group lists keys and other key groups. The repository keeps one node per group, in
a map by group id that owns the nodes; a node keeps raw pointers to its parents and to
its children. Nodes are numbered here in the order they are made, and a number stands for
the pointer: a node that nothing owns any more is freed, and a pointer to it dangles.

- `GpgKeyGroupTreeNode`, `KeyGroupRepository`: the nodes, and the map that owns them.
-/

namespace GpgFrontend

/-- A `QString`: UTF-16 code units. -/
abbrev QString := List UInt16

/-- `IsKeyGroupID`: the id starts with `#&`. -/
def isKeyGroupID (id : QString) : Bool := [0x23, 0x26].isPrefixOf id

/-- `GpgKeyGroup` and `KeyGroupCO`, as far as membership goes. -/
structure GpgKeyGroup where
  id : QString
  keyIds : List QString
  deriving DecidableEq

/-- `GpgAbstractKey`: whether it is a key group, and its id. -/
structure GpgAbstractKey where
  isKeyGroup : Bool
  id : QString
  deriving DecidableEq

structure GpgKeyGroupTreeNode where
  keyGroup : GpgKeyGroup
  parents : List Nat := []
  children : List Nat := []
  nonKeyGroupIds : List QString
  deriving DecidableEq

/-- `GpgKeyGroupTreeNode(GpgKeyGroup)`. -/
def GpgKeyGroupTreeNode.new (kg : GpgKeyGroup) : GpgKeyGroupTreeNode where
  keyGroup := kg
  nonKeyGroupIds := kg.keyIds.filter fun keyId => !isKeyGroupID keyId

structure KeyGroupRepository where
  nodes : AList fun _ : Nat => GpgKeyGroupTreeNode := ∅
  keyGroupsForest : AList fun _ : QString => Nat := ∅
  /-- The number of the next node. -/
  next : Nat := 0

namespace KeyGroupRepository

variable (r : KeyGroupRepository)

def parentsOf (p : Nat) : List Nat := ((r.nodes.lookup p).map (·.parents)).getD []

def childrenOf (p : Nat) : List Nat := ((r.nodes.lookup p).map (·.children)).getD []

def idOf (p : Nat) : Option QString := (r.nodes.lookup p).map (·.keyGroup.id)

/-- Change a node that is there. -/
def modifyNode (p : Nat) (f : GpgKeyGroupTreeNode → GpgKeyGroupTreeNode) : KeyGroupRepository :=
  { r with nodes := AList.modifyAt p f r.nodes }

/-- `GpgKeyGroupTreeNode::KeyIds`: the ids of the children, then the other ids. -/
def keyIds (node : GpgKeyGroupTreeNode) : List QString :=
  node.children.filterMap r.idOf ++ node.nonKeyGroupIds

/-- `GpgKeyGroupTreeNode::Apply`. -/
def apply (p : Nat) : KeyGroupRepository :=
  r.modifyNode p fun node =>
    { node with keyGroup := { node.keyGroup with keyIds := r.keyIds node } }

/-- `GpgKeyGroupTreeNode::HasAncestor`, whose recursion is as deep as the graph. -/
def hasAncestor (p target : Nat) : Bool :=
  reachWithin r.parentsOf r.nodes.keys.length p target

/-- `GpgKeyGroupTreeNode::AddChildren`. -/
def addChildren (p target : Nat) : Bool × KeyGroupRepository :=
  if target = p ∨ target ∈ r.childrenOf p ∨ r.hasAncestor p target then (false, r)
  else
    (true, ((r.modifyNode p fun node => { node with children := node.children ++ [target] })
      |>.modifyNode target fun node => { node with parents := node.parents ++ [p] }).apply p)

/-- `GpgKeyGroupTreeNode::RemoveChildren`. -/
def removeChildren (p target : Nat) : Bool × KeyGroupRepository :=
  if target ∉ r.childrenOf p then (false, r)
  else
    (true, ((r.modifyNode p fun node =>
        { node with children := node.children.filter (· ≠ target) })
      |>.modifyNode target fun node =>
        { node with parents := node.parents.filter (· ≠ p) }).apply p)

/-- `FlushCache`, as far as the nodes go. -/
def flushCache : KeyGroupRepository := r.nodes.keys.foldl (·.apply ·) r

/-- Make a node and give it to the map, which drops the one it had for that id. -/
def insertNode (kg : GpgKeyGroup) : KeyGroupRepository where
  nodes :=
    (match r.keyGroupsForest.lookup kg.id with
      | none => r.nodes
      | some old => r.nodes.erase old).insert r.next (GpgKeyGroupTreeNode.new kg)
  keyGroupsForest := r.keyGroupsForest.insert kg.id r.next
  next := r.next + 1

/-- The members of `node` that are groups of the repository become its children. -/
def adoptMembers (p : Nat) : List QString → KeyGroupRepository → KeyGroupRepository
  | [], r => r
  | keyId :: rest, r =>
    match if isKeyGroupID keyId then r.keyGroupsForest.lookup keyId else none with
    | none => adoptMembers p rest r
    | some target => adoptMembers p rest (r.addChildren p target).2

/-- The group ids in the order of a `QMap`. -/
def sortedIds : List QString := r.keyGroupsForest.keys.insertionSort (· ≤ ·)

/-- One turn of the loop of `build_gpg_key_group_tree`. -/
def buildNode (id : QString) : KeyGroupRepository :=
  match r.keyGroupsForest.lookup id with
  | none => r
  | some p => (adoptMembers p (((r.nodes.lookup p).map (·.keyGroup.keyIds)).getD []) r).apply p

/-- `build_gpg_key_group_tree`. -/
def buildGpgKeyGroupTree : KeyGroupRepository := r.sortedIds.foldl buildNode r

/-- One turn of the loop of `fetch_key_groups`. -/
def loadGroup (kg : GpgKeyGroup) : KeyGroupRepository :=
  if kg.id = [] then r else r.insertNode kg

/-- `fetch_key_groups`, on the groups of a stored document. -/
def fetchKeyGroups (keyGroups : List GpgKeyGroup) : KeyGroupRepository :=
  (keyGroups.foldl loadGroup {}).buildGpgKeyGroupTree

/-- `AddKeyGroup`. -/
def addKeyGroup (kg : GpgKeyGroup) : KeyGroupRepository :=
  ((adoptMembers r.next kg.keyIds (r.insertNode kg)).apply r.next).flushCache

/-- One turn of the first loop of `Remove`. -/
def detachParent (target parent : Nat) : KeyGroupRepository :=
  if parent = target then r else (r.removeChildren parent target).2

/-- One turn of the second loop of `Remove`. -/
def detachChild (target child : Nat) : KeyGroupRepository :=
  if child = target then r
  else r.modifyNode child fun node =>
    { node with parents := node.parents.filter (· ≠ target) }

/-- `Remove`. -/
def remove (id : QString) : Bool × KeyGroupRepository :=
  if id = [] then (false, r)
  else
    match r.keyGroupsForest.lookup id with
    | none => (false, r)
    | some target =>
      -- both loops walk over copies
      let r₁ := (r.parentsOf target).foldl (·.detachParent target ·) r
      let r₂ := (r₁.childrenOf target).foldl (·.detachChild target ·) r₁
      (true, { r₂ with
        nodes := r₂.nodes.erase target
        keyGroupsForest := r₂.keyGroupsForest.erase id }.flushCache)

/-- `AddKey2KeyGroup`. -/
def addKey2KeyGroup (id : QString) (key : GpgAbstractKey) : Bool × KeyGroupRepository :=
  match r.keyGroupsForest.lookup id with
  | none => (false, r)
  | some p =>
    if !key.isKeyGroup then
      -- `AddNonKeyGroupKey`
      let known := ((r.nodes.lookup p).map (·.nonKeyGroupIds.contains key.id)).getD false
      if known then (false, r.flushCache)
      else
        (true, ((r.modifyNode p fun node =>
          { node with nonKeyGroupIds := (node.nonKeyGroupIds ++ [key.id]).eraseDups }).apply
            p).flushCache)
    else
      match r.keyGroupsForest.lookup key.id with
      | none => (false, r)
      | some target =>
        let (added, r') := r.addChildren p target
        (added, r'.flushCache)

/-- `RemoveKeyFromKeyGroup`. -/
def removeKeyFromKeyGroup (id keyId : QString) : Bool × KeyGroupRepository :=
  match r.keyGroupsForest.lookup id with
  | none => (false, r)
  | some p =>
    if !isKeyGroupID keyId then
      -- `RemoveNonKeyGroupKey`
      (true, ((r.modifyNode p fun node =>
        { node with nonKeyGroupIds := node.nonKeyGroupIds.filter (· ≠ keyId) }).apply p).flushCache)
    else
      match r.keyGroupsForest.lookup keyId with
      | none => (false, r)
      | some target =>
        let (removed, r') := r.removeChildren p target
        (removed, r'.flushCache)

end KeyGroupRepository

inductive KeyGroupAction where
  | addKeyGroup (kg : GpgKeyGroup)
  | remove (id : QString)
  | addKey2KeyGroup (id : QString) (key : GpgAbstractKey)
  | removeKeyFromKeyGroup (id keyId : QString)
  deriving DecidableEq

namespace KeyGroupRepository

def step (r : KeyGroupRepository) : KeyGroupAction → KeyGroupRepository
  | .addKeyGroup kg => r.addKeyGroup kg
  | .remove id => (r.remove id).2
  | .addKey2KeyGroup id key => (r.addKey2KeyGroup id key).2
  | .removeKeyFromKeyGroup id keyId => (r.removeKeyFromKeyGroup id keyId).2

end KeyGroupRepository

end GpgFrontend
