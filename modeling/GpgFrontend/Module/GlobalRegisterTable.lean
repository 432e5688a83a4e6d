import GpgFrontend.Base.QMap

/-!
# The register table of the modules (`GlobalRegisterTable.cpp`)

Values lie in a tree under the segments of `namespace.key`. A node may hold a value and have
children as well.

- `RTCall`, `RTNode.step`: the calls as steps of the table, with what they return.
-/

namespace GpgFrontend

/-- `std::any`: the counters are told apart, whatever else is stored is of type `α`. -/
inductive StdAny (α : Type) where
  | qint64 (v : BitVec 64)
  | int (v : BitVec 32)
  | other (v : α)
  deriving DecidableEq

/-- `GlobalRegisterTable::Impl::RTNode`; `isLeaf` is `type == "LEAF"`. -/
structure RTNode (α : Type) where
  name : String
  isLeaf : Bool := false
  version : Nat := 0
  value : Option (StdAny α) := none
  children : List (String × RTNode α) := []

/-- `(n + "." + k).split('.')`. -/
def segments (n k : String) : List String :=
  ((n ++ "." ++ k).toList.splitOn '.').map String.ofList

/-- The number a counter goes on from. -/
def countOf {α : Type} : Option (StdAny α) → BitVec 64
  | some (.qint64 v) => v
  | some (.int v) => v.signExtend 64
  | _ => 0

namespace RTNode

variable {α : Type}

/-- `children.find`. -/
def child (node : RTNode α) (segment : String) : Option (RTNode α) := node.children.lookup segment

/-- The children with one put in its place. -/
def withChild (node : RTNode α) (segment : String) (c : RTNode α) : RTNode α :=
  { node with children := QMap.insertEntry segment c node.children }

/-- `children.remove`. -/
def withoutChild (node : RTNode α) (segment : String) : RTNode α :=
  { node with children := node.children.filter (·.1 ≠ segment) }

/-- The node some segments further down. -/
def walk : List String → RTNode α → Option (RTNode α)
  | [], node => some node
  | segment :: rest, node => (node.child segment).bind (walk rest)

/-- Change the node some segments further down; the nodes that are missing are made. -/
def updateAt (f : RTNode α → RTNode α) : List String → RTNode α → RTNode α
  | [], node => f node
  | segment :: rest, node =>
    node.withChild segment (updateAt f rest ((node.child segment).getD { name := segment }))

/-- Remove the node some segments further down, and every node on the way up that this leaves
without a value and without children; `none` when it is not there. -/
def removeAt : List String → RTNode α → Option (RTNode α)
  | [], _ => none
  | [segment], node => (node.child segment).map fun c => node.withoutChild c.name
  | segment :: rest, node =>
    (node.child segment).bind fun c =>
      (removeAt rest c).map fun parent =>
        if parent.isLeaf || !parent.children.isEmpty then node.withChild segment parent
        else node.withoutChild parent.name

/-- `PublishKV`. -/
def publishKV (root : RTNode α) (n k : String) (v : StdAny α) : Bool × RTNode α :=
  (true, root.updateAt (fun current =>
    { current with
      name := (segments n k).getLastD ""
      isLeaf := true
      value := some v
      version := current.version + 1 }) (segments n k))

/-- `RemoveKV`. -/
def removeKV (root : RTNode α) (n k : String) : Bool × RTNode α :=
  match root.removeAt (segments n k) with
  | none => (false, root)
  | some root' => (true, root')

/-- `IncrementKV`. -/
def incrementKV (root : RTNode α) (n k : String) (delta : BitVec 64) : BitVec 64 × RTNode α :=
  (countOf ((root.walk (segments n k)).bind (·.value)) + delta,
    root.updateAt (fun current =>
      { current with
        isLeaf := true
        value := some (.qint64 (countOf current.value + delta))
        version := current.version + 1 }) (segments n k))

/-- `LookupKV`. -/
def lookupKV (root : RTNode α) (n k : String) : Option (StdAny α) :=
  (root.walk (segments n k)).bind (·.value)

/-- `ListChildKeys`. -/
def listChildKeys (root : RTNode α) (n k : String) : List String :=
  match root.walk (segments n k) with
  | none => []
  | some current => current.children.map Prod.fst

end RTNode

inductive RTCall (α : Type) where
  | publishKV (n k : String) (v : StdAny α)
  | removeKV (n k : String)
  | incrementKV (n k : String) (delta : BitVec 64)
  | lookupKV (n k : String)
  | listChildKeys (n k : String)

/-- What a call returns. -/
inductive RTAnswer (α : Type) where
  | done (ok : Bool)
  | count (v : BitVec 64)
  | value (v : Option (StdAny α))
  | keys (ks : List String)

namespace RTNode

variable {α : Type}

/-- The table before anything is published. -/
def root : RTNode α := { name := "" }

def step (t : RTNode α) : RTCall α → RTAnswer α × RTNode α
  | .publishKV n k v => (.done (t.publishKV n k v).1, (t.publishKV n k v).2)
  | .removeKV n k => (.done (t.removeKV n k).1, (t.removeKV n k).2)
  | .incrementKV n k delta => (.count (t.incrementKV n k delta).1, (t.incrementKV n k delta).2)
  | .lookupKV n k => (.value (t.lookupKV n k), t)
  | .listChildKeys n k => (.keys (t.listChildKeys n k), t)

/-- A sequence of calls. -/
def run (t : RTNode α) (calls : List (RTCall α)) : RTNode α :=
  calls.foldl (fun t call => (t.step call).2) t

end RTNode

end GpgFrontend
