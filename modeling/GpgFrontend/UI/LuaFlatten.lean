import GpgFrontend.UI.LuaPushTree
import Mathlib.Data.List.Nodup
import Mathlib.Data.List.Perm.Subperm

/-!
# Values taken from Lua (`LuaValue.cpp`)

A Lua value is read into a flat list of nodes, each with the index of the table it sits in, while
Lua is on the stack. The nodes are checked against a schema afterwards.

- `content_of_same`: a value stands for the same whatever the order of its entries.
- `toCbor_content_iff`: **values convert by content exactly if the lists of an acceptable value are
  enumerated in order.**
-/

namespace GpgFrontend.Lua

/-! ## Values read -/

/-- What `LuaNode` is by its type. -/
inductive NodeValue where
  | nil
  | bool (value : Bool)
  | integer (value : Int)
  | number (value : Binary64)
  | string (text : List UInt8)
  | handle (h : Handle)
  | table
  deriving DecidableEq

structure LuaNode where
  value : NodeValue
  parent : Option Nat
  keyIsIndex : Bool := false
  keyIndex : Int := 0
  key : List UInt8 := []
  deriving DecidableEq

abbrev LuaTree : Type := List LuaNode

def kMaxDepth : Nat := 8

def kMaxNodes : Nat := 512

/-- The key of an entry, put on the node of its value. -/
def LuaKey.onto : LuaKey → LuaNode → LuaNode
  | .index i, n => { n with keyIsIndex := true, keyIndex := i }
  | .name text, n => { n with key := text }
  | .other _, n => n

mutual

/-- `FlattenAt`: the nodes that are added to a tree of `size` nodes. -/
def flattenAt (v : LuaValue) (parent : Option Nat) (depth size : Nat) : Except String LuaTree :=
  if kMaxDepth < depth then .error "value nested too deeply"
  else if kMaxNodes ≤ size then .error "value too large"
  else
    match v with
    | .nil => .ok [{ value := .nil, parent }]
    | .bool b => .ok [{ value := .bool b, parent }]
    | .integer n => .ok [{ value := .integer n, parent }]
    | .number x => .ok [{ value := .number x, parent }]
    | .string text => .ok [{ value := .string text, parent }]
    | .handle h => .ok [{ value := .handle h, parent }]
    | .foreign => .error "a userdata the Host did not issue"
    | .other => .error "a function or thread cannot be a value here"
    | .table entries => do
      let nodes ← flattenEntries entries size (depth + 1) (size + 1)
      return { value := .table, parent } :: nodes

/-- The loop over the entries of a table. -/
def flattenEntries (entries : List (LuaKey × LuaValue)) (self depth size : Nat) :
    Except String LuaTree :=
  match entries with
  | [] => .ok []
  | (.other _, _) :: _ => .error "a table key that is neither a name nor an index"
  | (key, v) :: rest => do
    let nodes ← flattenAt v (some self) depth size
    let more ← flattenEntries rest self depth (size + nodes.length)
    return nodes.modifyHead key.onto ++ more

end

/-- `FlattenValue`. -/
def flattenValue (v : LuaValue) : Except String LuaTree := flattenAt v none 0 0

/-! ## Nodes converted -/

/-- The nodes in a range that sit in a table. -/
def childrenIn (nodes : LuaTree) (start index : Nat) : List Nat :=
  (nodes.zipIdx start).filterMap fun n => if n.1.parent = some index then some n.2 else none

/-- `ChildrenOf`. -/
def childrenOf (tree : LuaTree) (index : Nat) : List Nat :=
  childrenIn (tree.drop (index + 1)) (index + 1) index

/-- The value of a node; none stands for a value that is not there. -/
def valueAt (tree : LuaTree) (index : Option Nat) : NodeValue :=
  match index.bind (tree[·]?) with
  | some n => n.value
  | none => .nil

/-- A double as a `qint64`. What lies outside is not defined; the usual processors give this. -/
def toQint64 (q : ℚ) : Int := if -2 ^ 63 ≤ q ∧ q < 2 ^ 63 then ⌊q⌋ else -2 ^ 63

section Convert

variable {σ : Type} (fromUtf8 : List UInt8 → String)
  (resolve : Handle → σ → Except String (CborValue × σ))

/-- A value of a plain type. -/
def plainToCbor (type : PlainType) (value : NodeValue) (s : σ) : Except String (CborValue × σ) :=
  match type with
  | .bool =>
    match value with
    | .bool b => .ok (.bool b, s)
    | _ => .error "expected a boolean"
  | .int =>
    match value with
    | .integer n => .ok (.integer n, s)
    | .number (.finite q) =>
      if (⌊q⌋ : ℚ) = q then .ok (.integer (toQint64 q), s) else .error "expected an integer"
    | _ => .error "expected an integer"
  | .double =>
    match value with
    | .integer n => .ok (.double (.ofInt n), s)
    | .number x => .ok (.double x, s)
    | _ => .error "expected a number"
  | .string =>
    match value with
    | .string text => .ok (.text (fromUtf8 text), s)
    | _ => .error "expected a string"
  | .bytes =>
    match value with
    | .string text => .ok (.bytes text, s)
    | _ => .error "expected bytes"
  | .blob =>
    match value with
    | .handle h =>
      if h.kind = .blob then resolve h s
      else .error "expected a Blob; a string cannot become one"
    | _ => .error "expected a Blob; a string cannot become one"
  | .other type => .error ("a schema type Lua cannot supply: " ++ type)

/-- A value that is not there. -/
def absentToCbor (optional : Bool) (s : σ) : Except String (CborValue × σ) :=
  if optional then .ok (.null, s) else .error "a required value is missing"

/-- A handle where the schema has an object. -/
def handleToCbor (fields : List (CborKey × Schema)) (h : Handle) (s : σ) :
    Except String (CborValue × σ) := do
  let (v, s) ← resolve h s
  if (fields.all fun f => CborMap.contains v.toMap f.1) ∧ v.toMap.length = fields.length then
    return (v, s)
  else .error "that handle is not what this field takes"

/-- The second loop over the children of a list. -/
def itemsToCbor (convert : Nat → σ → Except String (CborValue × σ)) :
    List Nat → σ → Except String (List CborValue × σ)
  | [], s => .ok ([], s)
  | c :: rest, s => do
    let (v, s) ← convert c s
    let (more, s) ← itemsToCbor convert rest s
    return (v :: more, s)

variable (tree : LuaTree)

/-- The first loop over the children of a list: they take 1..n and nothing else. -/
def inOrder (children : List Nat) : Bool :=
  children.zipIdx.all fun c => (tree[c.1]?).any fun n => n.keyIsIndex ∧ n.keyIndex = ((c.2 + 1 : Nat) : Int)

/-- The last child with a name. -/
def childNamed (children : List Nat) (name : List UInt8) : Option Nat :=
  children.reverse.find? fun c => (tree[c]?).any fun n => !n.keyIsIndex ∧ n.key = name

mutual

/-- `NodeToCbor`. -/
def nodeToCbor : Schema → Option Nat → σ → Except String (CborValue × σ)
  | .plain type optional, index, s =>
    match valueAt tree index with
    | .nil => absentToCbor optional s
    | value => plainToCbor fromUtf8 resolve type value s
  | .list item optional, index, s =>
    match valueAt tree index, index with
    | .nil, _ => absentToCbor optional s
    | .table, some i =>
      if inOrder tree (childrenOf tree i) then do
        let (items, s) ← itemsToCbor (fun c => nodeToCbor item (some c)) (childrenOf tree i) s
        return (.array items, s)
      else .error "a list takes 1..n and nothing else"
    | _, _ => .error "expected a list"
  | .object fields optional, index, s =>
    match valueAt tree index, index with
    | .nil, _ => absentToCbor optional s
    | .handle h, _ => handleToCbor resolve fields h s
    | .table, some i => do
      let (members, matched, s) ← fieldsToCbor fields (childrenOf tree i) [] s
      if matched = (childrenOf tree i).length then return (.map members, s)
      else .error "a field the command does not declare"
    | _, _ => .error "expected a table"

/-- The loop over the fields of an object: the members, and how many fields had a child. -/
def fieldsToCbor : List (CborKey × Schema) → List Nat → CborMap → σ →
    Except String (CborMap × Nat × σ)
  | [], _, out, s => .ok (out, 0, s)
  | (name, schema) :: rest, children, out, s =>
    let child := childNamed tree children (utf8 name.toText)
    match nodeToCbor schema child s with
    | .error why => .error ("field \"" ++ name.toText ++ "\": " ++ why)
    | .ok (v, s) => do
      let out := if v.isNull then out else out.insert (.text name.toText) v
      let (out, matched, s) ← fieldsToCbor rest children out s
      return (out, matched + child.toList.length, s)

end

/-- A Lua value as a CBOR value: both passes. -/
def toCbor (schema : Schema) (v : LuaValue) (s : σ) : Except String (CborValue × σ) := do
  let tree ← flattenValue v
  nodeToCbor fromUtf8 resolve tree schema (some 0) s

end Convert

/-! ## What a value stands for -/

/-- What is read of a value without its entries; nothing of what is refused. -/
def LuaValue.node? : LuaValue → Option NodeValue
  | .nil => some .nil
  | .bool b => some (.bool b)
  | .integer n => some (.integer n)
  | .number x => some (.number x)
  | .string text => some (.string text)
  | .handle h => some (.handle h)
  | .table _ => some .table
  | _ => none

/-- The entries of a list. -/
def numbered (items : List LuaValue) : List (LuaKey × LuaValue) :=
  items.zipIdx.map fun item => (.index (item.2 + 1 : Nat), item.1)

/-- The value under a name, nil where there is none. -/
def FieldValue (entries : List (LuaKey × LuaValue)) (name : List UInt8) (v : LuaValue) : Prop :=
  (.name name, v) ∈ entries ∨ (∀ e ∈ entries, e.1 ≠ .name name) ∧ v = .nil

section Meaning

variable {σ : Type} (fromUtf8 : List UInt8 → String)
  (resolve : Handle → σ → Except String (CborValue × σ))

def ContentItems (content : LuaValue → σ → CborValue × σ → Prop) :
    List LuaValue → σ → List CborValue × σ → Prop
  | [], s, r => r = ([], s)
  | item :: rest, s, r =>
    ∃ v s' more, content item s (v, s') ∧ ContentItems content rest s' (more, r.2) ∧
      r.1 = v :: more

mutual

/-- What a value stands for: a list has the keys 1 to n and stands for its items by index, an
object has declared names only and stands for its fields by name. -/
def Content : Schema → LuaValue → σ → CborValue × σ → Prop
  | .plain type optional, v, s, r =>
    match v with
    | .nil => absentToCbor optional s = .ok r
    | v => ∃ n, v.node? = some n ∧ plainToCbor fromUtf8 resolve type n s = .ok r
  | .list item optional, v, s, r =>
    match v with
    | .nil => absentToCbor optional s = .ok r
    | .table entries => ∃ items values, entries.Perm (numbered items) ∧
        ContentItems (Content item) items s (values, r.2) ∧ r.1 = .array values
    | _ => False
  | .object fields optional, v, s, r =>
    match v with
    | .nil => absentToCbor optional s = .ok r
    | .handle h => handleToCbor resolve fields h s = .ok r
    | .table entries => (∀ e ∈ entries, ∃ f ∈ fields, e.1 = .name (utf8 f.1.toText)) ∧
        ∃ members, ContentFields fields entries [] s (members, r.2) ∧ r.1 = .map members
    | _ => False

def ContentFields : List (CborKey × Schema) → List (LuaKey × LuaValue) → CborMap → σ →
    CborMap × σ → Prop
  | [], _, out, s, r => r = (out, s)
  | (name, schema) :: rest, entries, out, s, r =>
    ∃ w v s', FieldValue entries (utf8 name.toText) w ∧ Content schema w s (v, s') ∧
      ContentFields rest entries (if v.isNull then out else out.insert (.text name.toText) v) s' r

end

end Meaning

mutual

/-- The tables that are asked for as lists are enumerated from 1 to n. -/
def Ordered : Schema → LuaValue → Prop
  | .plain _ _, _ => True
  | .list item _, v =>
    match v with
    | .table entries => entries = numbered (entries.map Prod.snd) ∧
        ∀ e ∈ entries, Ordered item e.2
    | _ => True
  | .object fields _, v =>
    match v with
    | .table entries => OrderedFields fields entries
    | _ => True

def OrderedFields : List (CborKey × Schema) → List (LuaKey × LuaValue) → Prop
  | [], _ => True
  | (name, schema) :: rest, entries =>
    (∀ w, FieldValue entries (utf8 name.toText) w → Ordered schema w) ∧ OrderedFields rest entries

end

mutual

/-- Each object declares a name once, as a struct does. -/
def Schema.NamesOnce : Schema → Prop
  | .plain _ _ => True
  | .list item _ => item.NamesOnce
  | .object fields _ =>
    (fields.map fun f => utf8 f.1.toText).Nodup ∧ NamesOnceIn fields

def NamesOnceIn : List (CborKey × Schema) → Prop
  | [] => True
  | (_, schema) :: rest => schema.NamesOnce ∧ NamesOnceIn rest

end

mutual

/-- A property of a value and of all values in it, each with its depth. -/
def LuaValue.Every (p : Nat → LuaValue → Prop) : LuaValue → Nat → Prop
  | .table entries, depth => p depth (.table entries) ∧ EveryIn p entries (depth + 1)
  | v, depth => p depth v

def EveryIn (p : Nat → LuaValue → Prop) : List (LuaKey × LuaValue) → Nat → Prop
  | [], _ => True
  | (_, v) :: rest, depth => v.Every p depth ∧ EveryIn p rest depth

end

def LuaValue.entries : LuaValue → List (LuaKey × LuaValue)
  | .table entries => entries
  | _ => []

/-- A key is in a table once. -/
def LuaValue.KeysOnce (v : LuaValue) : Prop :=
  v.Every (fun _ w => (w.entries.map Prod.fst).Nodup) 0

/-- No value is deeper than the limit. -/
def LuaValue.InDepth (v : LuaValue) : Prop := v.Every (fun depth _ => depth ≤ kMaxDepth) 0

/-- It is of a type that may be sent, under keys that are names and indices. -/
def LuaValue.Sent (_ : Nat) (v : LuaValue) : Prop :=
  v.node?.isSome ∧ ∀ e ∈ v.entries, ∀ code, e.1 ≠ .other code

def LuaValue.Sendable (v : LuaValue) : Prop := v.Every LuaValue.Sent 0

mutual

/-- How many values there are. -/
def LuaValue.count : LuaValue → Nat
  | .table entries => 1 + countIn entries
  | _ => 1

def countIn : List (LuaKey × LuaValue) → Nat
  | [] => 0
  | (_, v) :: rest => v.count + countIn rest

end

/-! ## What is read -/

mutual

/-- The nodes of a value that can be read. -/
def nodesOf : LuaValue → Option Nat → Nat → LuaTree
  | .table entries, parent, size => { value := .table, parent } :: nodesIn entries size (size + 1)
  | v, parent, _ => [{ value := v.node?.getD .nil, parent }]

def nodesIn : List (LuaKey × LuaValue) → Nat → Nat → LuaTree
  | [], _, _ => []
  | (key, v) :: rest, self, size =>
    (nodesOf v (some self) size).modifyHead key.onto ++ nodesIn rest self (size + v.count)

end

mutual

theorem length_nodesOf : ∀ (v : LuaValue) (parent : Option Nat) (size : Nat),
    (nodesOf v parent size).length = v.count
  | .table entries, parent, size => by
    rw [nodesOf, List.length_cons, length_nodesIn entries, LuaValue.count, Nat.add_comm]
  | .nil, _, _ | .bool _, _, _ | .integer _, _, _ | .number _, _, _ | .string _, _, _
  | .handle _, _, _ | .foreign, _, _ | .other, _, _ => rfl

theorem length_nodesIn : ∀ (entries : List (LuaKey × LuaValue)) (self size : Nat),
    (nodesIn entries self size).length = countIn entries
  | [], _, _ => rfl
  | (key, v) :: rest, self, size => by
    rw [nodesIn, List.length_append, List.length_modifyHead, length_nodesOf v,
      length_nodesIn rest, countIn]

end

/-- What the first pass asks of a value at a depth. -/
def Readable (depth : Nat) (v : LuaValue) : Prop := depth ≤ kMaxDepth ∧ v.Sent depth

theorem readable_table {entries : List (LuaKey × LuaValue)} {depth : Nat} :
    Readable depth (.table entries) ↔
      depth ≤ kMaxDepth ∧ ∀ e ∈ entries, ∀ code, e.1 ≠ .other code := by
  simp [Readable, LuaValue.Sent, LuaValue.node?, LuaValue.entries]

/-- What is read of a value that is no table. -/
theorem flattenAt_leaf {v : LuaValue} {parent : Option Nat} {depth size : Nat} {t : LuaTree}
    (hentries : ∀ entries, v ≠ .table entries) :
    flattenAt v parent depth size = .ok t ↔
      (Readable depth v ∧ size + 1 ≤ kMaxNodes) ∧
        t = [{ value := v.node?.getD .nil, parent }] := by
  have hopen : flattenAt v parent depth size
      = if kMaxDepth < depth then .error "value nested too deeply"
        else if kMaxNodes ≤ size then .error "value too large"
        else flattenAt v parent 0 0 := by
    cases v with
    | table entries => exact absurd rfl (hentries entries)
    | _ => rfl
  have hsent : flattenAt v parent 0 0 = .ok t ↔
      v.Sent depth ∧ t = [{ value := v.node?.getD .nil, parent }] := by
    cases v with
    | table entries => exact absurd rfl (hentries entries)
    | foreign => exact iff_of_false (fun h => nomatch h) fun h => nomatch h.1.1
    | other => exact iff_of_false (fun h => nomatch h) fun h => nomatch h.1.1
    | _ =>
      exact ⟨fun h => ⟨⟨rfl, fun _ h => nomatch h⟩, (Except.ok.inj h).symm⟩,
        fun h => congrArg Except.ok h.2.symm⟩
  rw [hopen, Readable]
  split
  · next h => exact iff_of_false (fun h => nomatch h) fun hr => absurd hr.1.1.1 (by omega)
  · split
    · next h => exact iff_of_false (fun h => nomatch h) fun hr => absurd hr.1.2 (by omega)
    · rw [hsent]
      constructor
      · rintro ⟨hv, ht⟩
        exact ⟨⟨⟨by omega, hv⟩, by omega⟩, ht⟩
      · rintro ⟨⟨⟨-, hv⟩, -⟩, ht⟩
        exact ⟨hv, ht⟩

mutual

/-- **A value is read exactly if it is within the limits and all of it may be sent.** -/
theorem flattenAt_iff : ∀ (v : LuaValue) (parent : Option Nat) (depth size : Nat) (t : LuaTree),
    flattenAt v parent depth size = .ok t ↔
      (v.Every Readable depth ∧ size + v.count ≤ kMaxNodes) ∧ t = nodesOf v parent size
  | .table entries, parent, depth, size, t => by
    rw [LuaValue.Every, LuaValue.count, nodesOf, readable_table]
    unfold flattenAt
    split
    · next h => exact iff_of_false (fun h => nomatch h) fun hr => absurd hr.1.1.1.1 (by omega)
    · split
      · next h => exact iff_of_false (fun h => nomatch h) fun hr => absurd hr.1.2 (by omega)
      · simp only [bind_eq_ok, pure_eq_ok, flattenEntries_iff entries size (depth + 1) (size + 1) _
          (by omega)]
        constructor
        · rintro ⟨nodes, ⟨⟨heach, hkeys, hcount⟩, rfl⟩, rfl⟩
          exact ⟨⟨⟨⟨by omega, hkeys⟩, heach⟩, by omega⟩, rfl⟩
        · rintro ⟨⟨⟨⟨-, hkeys⟩, heach⟩, hcount⟩, rfl⟩
          exact ⟨_, ⟨⟨heach, hkeys, by omega⟩, rfl⟩, rfl⟩
  | .nil, _, _, _, _ | .bool _, _, _, _, _ | .integer _, _, _, _, _ | .number _, _, _, _, _
  | .string _, _, _, _, _ | .handle _, _, _, _, _ | .foreign, _, _, _, _ | .other, _, _, _, _ =>
    flattenAt_leaf fun _ h => nomatch h

theorem flattenEntries_iff : ∀ (entries : List (LuaKey × LuaValue)) (self depth size : Nat)
    (t : LuaTree), size ≤ kMaxNodes →
    (flattenEntries entries self depth size = .ok t ↔
      (EveryIn Readable entries depth ∧ (∀ e ∈ entries, ∀ code, e.1 ≠ .other code) ∧
        size + countIn entries ≤ kMaxNodes) ∧ t = nodesIn entries self size)
  | [], self, depth, size, t, hsize => by
    rw [flattenEntries, nodesIn, countIn]
    exact ⟨fun h => ⟨⟨trivial, fun _ h => (nomatch h), hsize⟩, (Except.ok.inj h).symm⟩,
      fun h => congrArg _ h.2.symm⟩
  | (key, v) :: rest, self, depth, size, t, hsize => by
    rw [EveryIn, countIn, nodesIn, List.forall_mem_cons]
    by_cases hother : ∃ code, key = .other code
    · obtain ⟨code, rfl⟩ := hother
      exact iff_of_false (fun h => nomatch h) fun hr => hr.1.2.1.1 code rfl
    · have hkey : ∀ code, key ≠ .other code := fun code h => hother ⟨code, h⟩
      have hopen : flattenEntries ((key, v) :: rest) self depth size
          = (do
            let nodes ← flattenAt v (some self) depth size
            let more ← flattenEntries rest self depth (size + nodes.length)
            return nodes.modifyHead key.onto ++ more) := by
        cases key with
        | other code => exact absurd rfl (hkey code)
        | _ => rfl
      rw [hopen]
      simp only [bind_eq_ok, pure_eq_ok, flattenAt_iff v]
      constructor
      · rintro ⟨nodes, ⟨⟨hv, hcount⟩, rfl⟩, more, hmore, rfl⟩
        rw [length_nodesOf, flattenEntries_iff rest self depth _ _ hcount] at hmore
        obtain ⟨⟨heach, hkeys, hrest⟩, rfl⟩ := hmore
        exact ⟨⟨⟨hv, heach⟩, ⟨hkey, hkeys⟩, by omega⟩, rfl⟩
      · rintro ⟨⟨⟨hv, heach⟩, ⟨-, hkeys⟩, hcount⟩, rfl⟩
        have hfirst : size + v.count ≤ kMaxNodes := by omega
        refine ⟨_, ⟨⟨hv, hfirst⟩, rfl⟩, _, ?_, rfl⟩
        rw [length_nodesOf, flattenEntries_iff rest self depth _ _ hfirst]
        exact ⟨⟨heach, hkeys, by omega⟩, rfl⟩

end

/-! ## Where the nodes are -/

/-- A child has the key of an entry. -/
def HasKey (tree : LuaTree) (c : Nat) : LuaKey → Prop
  | .index i => ∃ n, tree[c]? = some n ∧ n.keyIsIndex = true ∧ n.keyIndex = i
  | .name text => ∃ n, tree[c]? = some n ∧ n.keyIsIndex = false ∧ n.key = text
  | .other _ => False

mutual

/-- A value is laid at an index, its entries in its children. -/
def Lays (tree : LuaTree) : LuaValue → Nat → Prop
  | .table entries, i =>
    valueAt tree (some i) = .table ∧ LaysEach tree entries (childrenOf tree i)
  | v, i => v.node? = some (valueAt tree (some i))

def LaysEach (tree : LuaTree) : List (LuaKey × LuaValue) → List Nat → Prop
  | [], children => children = []
  | (key, v) :: rest, children =>
    ∃ c more, children = c :: more ∧ HasKey tree c key ∧ Lays tree v c ∧ LaysEach tree rest more

end

theorem childrenIn_append (t u : LuaTree) (start i : Nat) :
    childrenIn (t ++ u) start i = childrenIn t start i ++ childrenIn u (start + t.length) i := by
  rw [childrenIn, List.zipIdx_append, List.filterMap_append]
  rfl

theorem childrenIn_eq_nil {t : LuaTree} {i : Nat} (h : ∀ n ∈ t, n.parent ≠ some i) (start : Nat) :
    childrenIn t start i = [] :=
  List.filterMap_eq_nil_iff.2 fun _ hn => if_neg (h _ (List.fst_mem_of_mem_zipIdx hn))

theorem LuaKey.onto_value (key : LuaKey) (n : LuaNode) : (key.onto n).value = n.value := by
  cases key <;> rfl

theorem LuaKey.onto_parent (key : LuaKey) (n : LuaNode) : (key.onto n).parent = n.parent := by
  cases key <;> rfl

mutual

/-- The nodes of a value sit in its parent and in each other. -/
theorem nodesOf_cons : ∀ (v : LuaValue) (parent : Option Nat) (size : Nat),
    ∃ value rest, nodesOf v parent size = { value, parent } :: rest ∧
      ∀ n ∈ rest, ∃ p, n.parent = some p ∧ size ≤ p ∧ p < size + v.count
  | .table entries, parent, size => by
    refine ⟨_, _, by rw [nodesOf], fun n hn => ?_⟩
    obtain ⟨p, hp, hrange⟩ := parent_nodesIn entries size (size + 1) n hn
    refine ⟨p, hp, ?_⟩
    rw [LuaValue.count]
    omega
  | .nil, _, _ | .bool _, _, _ | .integer _, _, _ | .number _, _, _ | .string _, _, _
  | .handle _, _, _ | .foreign, _, _ | .other, _, _ => ⟨_, [], rfl, fun _ h => nomatch h⟩

theorem parent_nodesIn : ∀ (entries : List (LuaKey × LuaValue)) (self size : Nat),
    ∀ n ∈ nodesIn entries self size,
      ∃ p, n.parent = some p ∧ (p = self ∨ size ≤ p ∧ p < size + countIn entries)
  | [], _, _, _, hn => nomatch hn
  | (key, v) :: rest, self, size, n, hn => by
    obtain ⟨value, tail, hnodes, htail⟩ := nodesOf_cons v (some self) size
    rw [nodesIn, hnodes, List.modifyHead_cons, List.cons_append, List.mem_cons,
      List.mem_append] at hn
    rw [countIn]
    obtain rfl | hn | hn := hn
    · exact ⟨self, key.onto_parent _, .inl rfl⟩
    · obtain ⟨p, hp, hrange⟩ := htail n hn
      exact ⟨p, hp, .inr (by omega)⟩
    · obtain ⟨p, hp, hrange⟩ := parent_nodesIn rest self _ n hn
      exact ⟨p, hp, by omega⟩

end

theorem valueAt_append (before after : LuaTree) (n : LuaNode) :
    valueAt (before ++ [n] ++ after) (some before.length) = n.value := by
  rw [valueAt, Option.bind_some, List.append_assoc, List.getElem?_append_right le_rfl,
    Nat.sub_self]
  rfl

mutual

/-- **The nodes of a value are laid where they stand**, in a tree whose later nodes sit elsewhere. -/
theorem lays_nodesOf : ∀ (v : LuaValue) (parent : Option Nat) (depth : Nat)
    (f : LuaNode → LuaNode) (before after : LuaTree), v.Every Readable depth →
    (∀ n, (f n).value = n.value) →
    (∀ n ∈ after, ∀ p, n.parent = some p → p < before.length ∨ before.length + v.count ≤ p) →
    Lays (before ++ (nodesOf v parent before.length).modifyHead f ++ after) v before.length
  | .table entries, parent, depth, f, before, after, hv, hf, hafter => by
    rw [LuaValue.Every, readable_table] at hv
    obtain ⟨⟨-, hkeys⟩, heach⟩ := hv
    have hlength : (before ++ [f { value := .table, parent }]).length = before.length + 1 :=
      List.length_append
    have hentries := lays_nodesIn entries before.length (depth + 1)
      (before ++ [f { value := .table, parent }]) after heach hkeys (by omega) fun n hn p hp => by
        have hrange := hafter n hn p hp
        rw [LuaValue.count] at hrange
        omega
    have hnone : childrenIn after (before.length + 1 + countIn entries) before.length = [] :=
      childrenIn_eq_nil (fun n hn hp => by
        have hrange := hafter n hn _ hp
        rw [LuaValue.count] at hrange
        omega) _
    have hchildren : childrenOf (before ++ (nodesOf (.table entries) parent before.length).modifyHead f
          ++ after) before.length
        = childrenIn (nodesIn entries before.length (before.length + 1)) (before.length + 1)
            before.length := by
      rw [nodesOf, List.modifyHead_cons, childrenOf, List.append_assoc, List.cons_append,
        ← List.drop_drop, List.drop_left, List.drop_one, List.tail_cons, childrenIn_append,
        length_nodesIn, hnone, List.append_nil]
    rw [Lays, hchildren]
    rw [nodesOf, List.modifyHead_cons]
    rw [hlength, List.append_assoc, List.append_assoc, List.singleton_append,
      ← List.cons_append, ← List.append_assoc] at hentries
    refine ⟨?_, hentries⟩
    rw [valueAt, Option.bind_some, List.append_assoc, List.getElem?_append_right le_rfl,
      Nat.sub_self]
    exact hf _
  | .nil, parent, _, f, before, after, hv, hf, _ | .bool _, parent, _, f, before, after, hv, hf, _
  | .integer _, parent, _, f, before, after, hv, hf, _
  | .number _, parent, _, f, before, after, hv, hf, _
  | .string _, parent, _, f, before, after, hv, hf, _
  | .handle _, parent, _, f, before, after, hv, hf, _ => by
    show _ = some (valueAt (before ++ [f _] ++ after) _)
    rw [valueAt_append, hf]
    rfl
  | .foreign, _, _, _, _, _, hv, _, _ | .other, _, _, _, _, _, hv, _, _ => nomatch hv.2.1

theorem lays_nodesIn : ∀ (entries : List (LuaKey × LuaValue)) (self depth : Nat)
    (before after : LuaTree), EveryIn Readable entries depth →
    (∀ e ∈ entries, ∀ code, e.1 ≠ .other code) → self < before.length →
    (∀ n ∈ after, ∀ p, n.parent = some p → p < before.length ∨ before.length + countIn entries ≤ p) →
    LaysEach (before ++ nodesIn entries self before.length ++ after) entries
      (childrenIn (nodesIn entries self before.length) before.length self)
  | [], _, _, _, _, _, _, _, _ => rfl
  | (key, v) :: rest, self, depth, before, after, heach, hkeys, hself, hafter => by
    rw [countIn] at hafter
    obtain ⟨hkey, hkeys⟩ := List.forall_mem_cons.1 hkeys
    obtain ⟨value, tail, hnodes, htail⟩ := nodesOf_cons v (some self) before.length
    have hlength := length_nodesOf v (some self) before.length
    have hlengthIn := length_nodesIn rest self (before.length + v.count)
    have hfirst := lays_nodesOf v (some self) depth key.onto before
      (nodesIn rest self (before.length + v.count) ++ after) heach.1 key.onto_value
      fun n hn p hp => by
        obtain hn | hn := List.mem_append.1 hn
        · obtain ⟨p', hp', hrange⟩ := parent_nodesIn rest self _ n hn
          cases hp.symm.trans hp'
          omega
        · have hrange := hafter n hn p hp
          omega
    have hbefore : (before ++ (nodesOf v (some self) before.length).modifyHead key.onto).length
        = before.length + v.count := by
      rw [List.length_append, List.length_modifyHead, hlength]
    have hrest := lays_nodesIn rest self depth
      (before ++ (nodesOf v (some self) before.length).modifyHead key.onto) after heach.2 hkeys
      (by omega) fun n hn p hp => by
        have hrange := hafter n hn p hp
        omega
    rw [hbefore] at hrest
    have hchildren : childrenIn (nodesIn ((key, v) :: rest) self before.length) before.length self
        = before.length
          :: childrenIn (nodesIn rest self (before.length + v.count)) (before.length + v.count)
            self := by
      rw [nodesIn, childrenIn_append, List.length_modifyHead, hlength, hnodes,
        List.modifyHead_cons, ← List.singleton_append, childrenIn_append,
        childrenIn_eq_nil (t := tail) fun n hn hp => by
          obtain ⟨p, hp', hrange⟩ := htail n hn
          cases hp.symm.trans hp'
          omega]
      have hhead : childrenIn [key.onto { value, parent := some self }] before.length self
          = [before.length] := by
        rw [childrenIn, List.zipIdx_singleton, List.filterMap_cons, if_pos (key.onto_parent _)]
        rfl
      rw [hhead, List.append_nil, List.singleton_append]
    rw [LaysEach]
    refine ⟨_, _, hchildren, ?_, ?_, ?_⟩
    · have hnode : (before ++ nodesIn ((key, v) :: rest) self before.length ++ after)[before.length]?
          = some (key.onto { value, parent := some self }) := by
        rw [nodesIn, hnodes, List.modifyHead_cons, List.append_assoc,
          List.getElem?_append_right le_rfl, Nat.sub_self]
        rfl
      cases key with
      | index i => exact ⟨_, hnode, rfl, rfl⟩
      | name text => exact ⟨_, hnode, rfl, rfl⟩
      | other code => exact absurd rfl (hkey code)
    · rw [nodesIn]
      simpa only [List.append_assoc] using hfirst
    · rw [nodesIn]
      simpa only [List.append_assoc] using hrest

end

/-! ## What comes out -/

/-- A value is at an index; nil is where there is none. -/
def LaysAt (tree : LuaTree) (v : LuaValue) : Option Nat → Prop
  | none => v = .nil
  | some i => Lays tree v i

/-- Every table in a value has each key once. -/
def LuaValue.Distinct (_ : Nat) (v : LuaValue) : Prop := (v.entries.map Prod.fst).Nodup

theorem mem_numbered {items : List LuaValue} {i : Nat} {v : LuaValue} :
    (.index (i + 1 : Nat), v) ∈ numbered items ↔ items[i]? = some v := by
  rw [numbered, List.mem_map, ← List.mk_mem_zipIdx_iff_getElem?]
  constructor
  · rintro ⟨⟨w, j⟩, hmem, heq⟩
    obtain ⟨hkey, rfl⟩ := Prod.mk.inj heq
    have hij : j = i := by
      have hindex := LuaKey.index.inj hkey
      omega
    exact hij ▸ hmem
  · exact fun hmem => ⟨_, hmem, rfl⟩

/-- A list has one list of items. -/
theorem numbered_perm_inj {a b : List LuaValue} (h : (numbered a).Perm (numbered b)) : a = b := by
  refine List.ext_getElem? fun i => Option.ext fun v => ?_
  rw [← mem_numbered, ← mem_numbered, h.mem_iff]

theorem fieldValue_unique {entries : List (LuaKey × LuaValue)} {name : List UInt8}
    (hkeys : (entries.map Prod.fst).Nodup) {v w : LuaValue} (hv : FieldValue entries name v)
    (hw : FieldValue entries name w) : v = w := by
  obtain hv | ⟨hnone, rfl⟩ := hv
  · obtain hw | ⟨hnone, -⟩ := hw
    · exact congrArg Prod.snd (List.inj_on_of_nodup_map hkeys hv hw rfl)
    · exact absurd rfl (hnone _ hv)
  · obtain hw | ⟨-, rfl⟩ := hw
    · exact absurd rfl (hnone _ hw)
    · rfl

/-- As many declared names as keys are found exactly if every key is declared. -/
theorem declared_iff {entries : List (LuaKey × LuaValue)} {names : List (List UInt8)}
    (hkeys : (entries.map Prod.fst).Nodup) (hnames : names.Nodup) :
    (names.countP fun n => entries.any fun e => e.1 = .name n) = entries.length ↔
      ∀ e ∈ entries, ∃ n ∈ names, e.1 = .name n := by
  have hfound : ∀ key, key ∈ (names.filter fun n => entries.any fun e => e.1 = .name n).map
      LuaKey.name ↔ key ∈ entries.map Prod.fst ∧ ∃ n ∈ names, key = .name n := by
    intro key
    simp only [List.mem_map, List.mem_filter, List.any_eq_true, decide_eq_true_eq]
    constructor
    · rintro ⟨n, ⟨hn, e, he, hkey⟩, rfl⟩
      exact ⟨⟨e, he, hkey⟩, n, hn, rfl⟩
    · rintro ⟨⟨e, he, rfl⟩, n, hn, hkey⟩
      exact ⟨n, ⟨hn, e, he, hkey⟩, hkey.symm⟩
  have hnodup := List.Nodup.map (fun _ _ h => LuaKey.name.inj h)
    (hnames.filter fun n => entries.any fun e => e.1 = .name n)
  have hsub := hnodup.subperm fun key h => ((hfound key).1 h).1
  rw [List.countP_eq_length_filter, ← List.length_map LuaKey.name,
    ← @List.length_map _ _ entries Prod.fst]
  constructor
  · intro hlength e he
    have hperm := hsub.perm_of_length_le hlength.ge
    exact ((hfound e.1).1 (hperm.mem_iff.2 (List.mem_map_of_mem he))).2
  · intro hall
    refine le_antisymm hsub.length_le (hkeys.subperm fun key hkey => ?_).length_le
    obtain ⟨e, he, rfl⟩ := List.mem_map.1 hkey
    exact (hfound e.1).2 ⟨hkey, hall e he⟩

theorem exists_of_forall₂ {α β : Type} {R : α → β → Prop} {l : List α} {l' : List β}
    (h : List.Forall₂ R l l') {a : α} (ha : a ∈ l) : ∃ b ∈ l', R a b := by
  induction h with
  | nil => cases ha
  | cons hfirst _ ih =>
    obtain rfl | ha := List.mem_cons.1 ha
    · exact ⟨_, List.mem_cons_self, hfirst⟩
    · obtain ⟨b, hb, hr⟩ := ih ha
      exact ⟨b, List.mem_cons_of_mem _ hb, hr⟩

section Convert

variable {σ : Type} {fromUtf8 : List UInt8 → String}
  {resolve : Handle → σ → Except String (CborValue × σ)} {tree : LuaTree}

variable {children : List Nat}

theorem LaysEach.forall₂ {entries : List (LuaKey × LuaValue)} (h : LaysEach tree entries children) :
    List.Forall₂ (fun e c => HasKey tree c e.1 ∧ Lays tree e.2 c) entries children := by
  induction entries generalizing children with
  | nil =>
    obtain rfl : children = [] := h
    exact .nil
  | cons e rest ih =>
    obtain ⟨c, more, rfl, hkey, hv, hrest⟩ := h
    exact .cons ⟨hkey, hv⟩ (ih hrest)

theorem LaysAt.node {v : LuaValue} {index : Option Nat} (h : LaysAt tree v index) :
    v.node? = some (valueAt tree index) := by
  cases index with
  | none =>
    obtain rfl : v = .nil := h
    rfl
  | some i =>
    cases v with
    | table entries => exact congrArg some h.1.symm
    | _ => exact h

theorem hasKey_index_iff {c : Nat} {key : LuaKey} (h : HasKey tree c key) (i : Int) :
    ((tree[c]?).any fun n => n.keyIsIndex ∧ n.keyIndex = i) = true ↔ key = .index i := by
  cases key with
  | index j =>
    obtain ⟨n, hn, hindex, rfl⟩ := h
    simp [hn, hindex]
  | name text =>
    obtain ⟨n, hn, hindex, -⟩ := h
    simp [hn, hindex]
  | other code => exact h.elim

theorem hasKey_name_iff {c : Nat} {key : LuaKey} (h : HasKey tree c key) (name : List UInt8) :
    ((tree[c]?).any fun n => !n.keyIsIndex ∧ n.key = name) = true ↔ key = .name name := by
  cases key with
  | index j =>
    obtain ⟨n, hn, hindex, -⟩ := h
    simp [hn, hindex]
  | name text =>
    obtain ⟨n, hn, hindex, rfl⟩ := h
    simp [hn, hindex]
  | other code => exact h.elim

/-- The check of a list is of the keys as they are enumerated. -/
theorem inOrder_iff {entries : List (LuaKey × LuaValue)} (h : LaysEach tree entries children) :
    inOrder tree children = true ↔ entries = numbered (entries.map Prod.snd) := by
  have hfrom : ∀ k, ((children.zipIdx k).all fun c =>
      (tree[c.1]?).any fun n => n.keyIsIndex ∧ n.keyIndex = ((c.2 + 1 : Nat) : Int)) = true ↔
      entries = ((entries.map Prod.snd).zipIdx k).map fun item =>
        (.index (item.2 + 1 : Nat), item.1) := by
    have hall := h.forall₂
    clear h
    induction hall with
    | nil => exact fun _ => iff_of_true rfl rfl
    | cons hfirst _ ih =>
      intro k
      rw [List.zipIdx_cons, List.all_cons, Bool.and_eq_true, ih (k + 1), hasKey_index_iff hfirst.1,
        List.map_cons, List.zipIdx_cons, List.map_cons, List.cons_eq_cons, Prod.ext_iff]
      simp
  exact hfrom 0

/-- A name leads to the value under it. -/
theorem childNamed_laysAt {entries : List (LuaKey × LuaValue)} (h : LaysEach tree entries children)
    (name : List UInt8) :
    (∃ v, FieldValue entries name v ∧ LaysAt tree v (childNamed tree children name)) ∧
      (childNamed tree children name).toList.length
        = if (entries.any fun e => e.1 = .name name) = true then 1 else 0 := by
  cases hfound : childNamed tree children name with
  | none =>
    have hnone : ∀ e ∈ entries, e.1 ≠ .name name := by
      intro e he hname
      obtain ⟨c, hc, hkey, -⟩ := exists_of_forall₂ h.forall₂ he
      exact List.find?_eq_none.1 hfound c (List.mem_reverse.2 hc) ((hasKey_name_iff hkey name).2 hname)
    refine ⟨⟨.nil, .inr ⟨hnone, rfl⟩, rfl⟩, ?_⟩
    rw [if_neg]
    · rfl
    · intro hany
      obtain ⟨e, he, hname⟩ := List.any_eq_true.1 hany
      exact hnone e he (of_decide_eq_true hname)
  | some c =>
    obtain ⟨e, he, hkey, hv⟩ := exists_of_forall₂ h.forall₂.flip
      (List.mem_reverse.1 (List.mem_of_find?_eq_some hfound))
    have hname := (hasKey_name_iff hkey name).1 (@List.find?_some _ _ c _ hfound)
    refine ⟨⟨e.2, .inl (hname ▸ he), hv⟩, ?_⟩
    rw [if_pos (List.any_eq_true.2 ⟨e, he, decide_eq_true hname⟩)]
    rfl

theorem itemsToCbor_iff {convert : Nat → σ → Except String (CborValue × σ)}
    {content : LuaValue → σ → CborValue × σ → Prop} {ordered : LuaValue → Prop}
    {entries : List (LuaKey × LuaValue)}
    (h : List.Forall₂ (fun e c => ∀ s r, convert c s = .ok r ↔ content e.2 s r ∧ ordered e.2)
      entries children) {s : σ} {r : List CborValue × σ} :
    itemsToCbor convert children s = .ok r ↔
      ContentItems content (entries.map Prod.snd) s r ∧ ∀ e ∈ entries, ordered e.2 := by
  induction h generalizing s r with
  | nil =>
    exact ⟨fun h => ⟨(Except.ok.inj h).symm, List.forall_mem_nil _⟩, fun h => congrArg _ h.1.symm⟩
  | cons hfirst _ ih =>
    simp only [itemsToCbor, bind_eq_ok, Prod.exists, pure_eq_ok, hfirst, ih, List.map_cons,
      ContentItems, List.forall_mem_cons]
    constructor
    · rintro ⟨v, s₁, ⟨hv, hvo⟩, more, s₂, ⟨hmore, hmoreo⟩, rfl⟩
      exact ⟨⟨v, s₁, more, hv, hmore, rfl⟩, hvo, hmoreo⟩
    · rintro ⟨⟨v, s₁, more, hv, hmore, heq⟩, hvo, hmoreo⟩
      exact ⟨v, s₁, ⟨hv, hvo⟩, more, r.2, ⟨hmore, hmoreo⟩, Prod.ext heq.symm rfl⟩

theorem EveryIn.entry {p : Nat → LuaValue → Prop} {entries : List (LuaKey × LuaValue)}
    {depth : Nat} (h : EveryIn p entries depth) {e : LuaKey × LuaValue} (he : e ∈ entries) :
    e.2.Every p depth := by
  induction entries with
  | nil => cases he
  | cons first rest ih =>
    obtain rfl | he := List.mem_cons.1 he
    · exact h.1
    · exact ih h.2 he

mutual

/-- **A node is converted exactly if its value stands for something and its lists are enumerated in
order.** -/
theorem nodeToCbor_iff : ∀ (schema : Schema) (v : LuaValue) (index : Option Nat) (depth : Nat)
    (s : σ) (r : CborValue × σ), schema.NamesOnce → LaysAt tree v index →
    v.Every LuaValue.Distinct depth →
    (nodeToCbor fromUtf8 resolve tree schema index s = .ok r ↔
      Content fromUtf8 resolve schema v s r ∧ Ordered schema v)
  | .plain type optional, v, index, depth, s, r, _, hlays, _ => by
    have hnode := hlays.node
    unfold nodeToCbor Content Ordered
    rw [and_true]
    cases v with
    | foreign => cases hnode
    | other => cases hnode
    | nil =>
      rw [← Option.some.inj hnode]
    | _ =>
      rw [← Option.some.inj hnode]
      refine ⟨fun h => ⟨_, rfl, h⟩, ?_⟩
      rintro ⟨n, hn, h⟩
      cases hn
      exact h
  | .list item optional, v, index, depth, s, r, hnames, hlays, hdistinct => by
    have hnode := hlays.node
    unfold nodeToCbor Content Ordered
    cases v with
    | foreign => cases hnode
    | other => cases hnode
    | nil =>
      rw [← Option.some.inj hnode]
      exact (and_true _).symm ▸ Iff.rfl
    | table entries =>
      cases index with
      | none => cases hlays
      | some i =>
        rw [← Option.some.inj hnode]
        have heach := hlays.2
        have hitems : List.Forall₂ (fun e c => ∀ s r,
            nodeToCbor fromUtf8 resolve tree item (some c) s = .ok r ↔
              Content fromUtf8 resolve item e.2 s r ∧ Ordered item e.2)
            entries (childrenOf tree i) :=
          ((List.forall₂_and_left _ _).2 ⟨fun _ he => hdistinct.2.entry he, heach.forall₂⟩).imp
            fun e c h s r => nodeToCbor_iff item e.2 (some c) (depth + 1) s r hnames h.2.2 h.1
        dsimp only
        split
        · next horder =>
          have hsorted := (inOrder_iff heach).1 horder
          simp only [bind_eq_ok, Prod.exists, pure_eq_ok, itemsToCbor_iff hitems]
          constructor
          · rintro ⟨values, s', ⟨hvalues, hordered⟩, rfl⟩
            exact ⟨⟨_, values, hsorted ▸ .rfl, hvalues, rfl⟩, hsorted, hordered⟩
          · rintro ⟨⟨items, values, hperm, hvalues, heq⟩, -, hordered⟩
            obtain rfl := numbered_perm_inj (hsorted ▸ hperm)
            exact ⟨values, r.2, ⟨hvalues, hordered⟩, Prod.ext heq.symm rfl⟩
        · next horder =>
          exact iff_of_false (fun h => nomatch h) fun h => horder ((inOrder_iff heach).2 h.2.1)
    | _ =>
      rw [← Option.some.inj hnode]
      exact iff_of_false (fun h => nomatch h) fun h => h.1
  | .object fields optional, v, index, depth, s, r, hnames, hlays, hdistinct => by
    have hnode := hlays.node
    unfold nodeToCbor Content Ordered
    cases v with
    | foreign => cases hnode
    | other => cases hnode
    | nil =>
      rw [← Option.some.inj hnode]
      exact (and_true _).symm ▸ Iff.rfl
    | handle h =>
      rw [← Option.some.inj hnode]
      exact (and_true _).symm ▸ Iff.rfl
    | table entries =>
      cases index with
      | none => cases hlays
      | some i =>
        rw [← Option.some.inj hnode]
        have heach := hlays.2
        have hlength := heach.forall₂.length_eq
        obtain ⟨hkeys, hin⟩ : (entries.map Prod.fst).Nodup ∧
          EveryIn LuaValue.Distinct entries (depth + 1) := hdistinct
        have hdeclared := declared_iff hkeys hnames.1
        simp only [List.mem_map, exists_exists_and_eq_and] at hdeclared
        have hfields := fieldsToCbor_iff fields entries _ (depth + 1) hnames.2 heach hkeys hin [] s
        dsimp only
        rw [bind_eq_ok]
        constructor
        · rintro ⟨⟨members, matched, s'⟩, hok, h⟩
          obtain ⟨⟨hmembers, hordered⟩, rfl⟩ := (hfields _ _ _).1 hok
          dsimp only at h
          split at h
          · next hmatched =>
            obtain rfl := pure_eq_ok.1 h
            exact ⟨⟨hdeclared.1 (hmatched.trans hlength.symm), members, hmembers, rfl⟩, hordered⟩
          · cases h
        · rintro ⟨⟨hall, members, hmembers, heq⟩, hordered⟩
          refine ⟨_, (hfields _ _ _).2 ⟨⟨hmembers, hordered⟩, rfl⟩, ?_⟩
          dsimp only
          rw [if_pos ((hdeclared.2 hall).trans hlength)]
          exact congrArg Except.ok (Prod.ext heq.symm rfl)
    | _ =>
      rw [← Option.some.inj hnode]
      exact iff_of_false (fun h => nomatch h) fun h => h.1

theorem fieldsToCbor_iff : ∀ (fields : List (CborKey × Schema)) (entries : List (LuaKey × LuaValue))
    (children : List Nat) (depth : Nat), NamesOnceIn fields → LaysEach tree entries children →
    (entries.map Prod.fst).Nodup → EveryIn LuaValue.Distinct entries depth →
    ∀ (out : CborMap) (s : σ) (m : CborMap) (matched : Nat) (s' : σ),
      fieldsToCbor fromUtf8 resolve tree fields children out s = .ok (m, matched, s') ↔
        (ContentFields fromUtf8 resolve fields entries out s (m, s') ∧
          OrderedFields fields entries) ∧
        (fields.map fun f => utf8 f.1.toText).countP (fun n => entries.any fun e => e.1 = .name n)
          = matched
  | [], entries, children, depth, _, _, _, _, out, s, m, matched, s' => by
    unfold fieldsToCbor ContentFields OrderedFields
    constructor
    · intro h
      cases h
      exact ⟨⟨rfl, trivial⟩, rfl⟩
    · rintro ⟨⟨h, -⟩, rfl⟩
      cases h
      rfl
  | (name, schema) :: rest, entries, children, depth, hnames, heach, hkeys, hdistinct, out, s, m,
      matched, s' => by
    obtain ⟨⟨w, hw, hlays⟩, hcount⟩ := childNamed_laysAt heach (utf8 name.toText)
    have hvalue : w.Every LuaValue.Distinct depth := by
      obtain hw | ⟨-, rfl⟩ := hw
      · exact hdistinct.entry hw
      · exact List.nodup_nil
    have hhead := fun r => nodeToCbor_iff schema w _ depth s r hnames.1 hlays hvalue
    have hrest := fun out s m k s' => fieldsToCbor_iff rest entries children depth hnames.2 heach
      hkeys hdistinct out s m k s'
    rw [fieldsToCbor, ContentFields, OrderedFields, List.map_cons, List.countP_cons, ← hcount]
    dsimp only
    constructor
    · intro h
      split at h
      · cases h
      · next v s₁ hv =>
        simp only [bind_eq_ok, Prod.exists, pure_eq_ok, Prod.mk.injEq] at h
        obtain ⟨m', k, s₂, hmore, rfl, rfl, rfl⟩ := h
        obtain ⟨hcontent, hordered⟩ := (hhead _).1 hv
        obtain ⟨⟨hmembers, hmoreo⟩, rfl⟩ := (hrest _ _ _ _ _).1 hmore
        refine ⟨⟨⟨w, v, s₁, hw, hcontent, hmembers⟩, fun u hu => ?_, hmoreo⟩, rfl⟩
        exact fieldValue_unique hkeys hw hu ▸ hordered
    · rintro ⟨⟨⟨u, v, s₁, hu, hcontent, hmembers⟩, hordered, hmoreo⟩, rfl⟩
      obtain rfl := fieldValue_unique hkeys hw hu
      rw [(hhead _).2 ⟨hcontent, hordered _ hw⟩]
      simp only [bind_eq_ok, Prod.exists, pure_eq_ok, Prod.mk.injEq]
      exact ⟨m, _, s', (hrest _ _ _ _ _).2 ⟨⟨hmembers, hmoreo⟩, rfl⟩, rfl, rfl, rfl⟩

end

end Convert

/-! ## Orders of enumeration -/

mutual

/-- Two values with the same entries, enumerated in any order at any depth. -/
inductive Same : LuaValue → LuaValue → Prop
  | refl (v : LuaValue) : Same v v
  | table {entries mid entries' : List (LuaKey × LuaValue)} : entries.Perm mid →
    List.Forall₂ SameEntry mid entries' → Same (.table entries) (.table entries')

inductive SameEntry : LuaKey × LuaValue → LuaKey × LuaValue → Prop
  | mk (key : LuaKey) {v v' : LuaValue} : Same v v' → SameEntry (key, v) (key, v')

end

/-- Each entry of the one list has an entry of the other with its key and a related value. -/
def EntriesMatch (R : LuaValue → LuaValue → Prop) (entries entries' : List (LuaKey × LuaValue)) :
    Prop :=
  ∃ mid, List.Forall₂ (fun e e' => e.1 = e'.1 ∧ R e.2 e'.2) entries mid ∧ mid.Perm entries'

/-- Related values are equal, or tables with the same entries in any order. -/
structure Reorders (R : LuaValue → LuaValue → Prop) : Prop where
  refl : ∀ v, R v v
  cases : ∀ {v v'}, R v v' → v = v' ∨
    ∃ entries entries', v = .table entries ∧ v' = .table entries' ∧ EntriesMatch R entries entries'

theorem same_reorders : Reorders Same where
  refl := .refl
  cases := by
    rintro _ _ (_ | ⟨hperm, hmatch⟩)
    · exact .inl rfl
    · refine .inr ⟨_, _, rfl, rfl, List.perm_comp_forall₂ hperm (hmatch.imp ?_)⟩
      rintro _ _ ⟨key, h⟩
      exact ⟨rfl, h⟩

/-- What is reordered can be put back. -/
theorem Reorders.flip {R : LuaValue → LuaValue → Prop} (hR : Reorders R) :
    Reorders fun v v' => R v' v where
  refl := hR.refl
  cases := by
    intro v v' h
    rcases hR.cases h with heq | ⟨entries', entries, rfl, rfl, mid, hmatch, hperm⟩
    · exact .inl heq.symm
    · refine .inr ⟨entries, entries', rfl, rfl, List.perm_comp_forall₂ hperm.symm ?_⟩
      exact hmatch.flip.imp fun _ _ h => ⟨h.1.symm, h.2⟩

section Reorders

variable {R : LuaValue → LuaValue → Prop} {entries entries' : List (LuaKey × LuaValue)}

theorem EntriesMatch.mem_left (h : EntriesMatch R entries entries') {e : LuaKey × LuaValue}
    (he : e ∈ entries) : ∃ v', (e.1, v') ∈ entries' ∧ R e.2 v' := by
  obtain ⟨mid, hmatch, hperm⟩ := h
  obtain ⟨e', he', hkey, hvalue⟩ := exists_of_forall₂ hmatch he
  exact ⟨e'.2, hperm.subset (hkey ▸ he'), hvalue⟩

theorem EntriesMatch.mem_right (h : EntriesMatch R entries entries') {e' : LuaKey × LuaValue}
    (he : e' ∈ entries') : ∃ v, (e'.1, v) ∈ entries := by
  obtain ⟨mid, hmatch, hperm⟩ := h
  obtain ⟨e, hmem, hkey, -⟩ := exists_of_forall₂ hmatch.flip (hperm.mem_iff.2 he)
  exact ⟨e.2, hkey ▸ hmem⟩

theorem EntriesMatch.fieldValue (hR : Reorders R) (h : EntriesMatch R entries entries')
    {name : List UInt8} {w : LuaValue} (hw : FieldValue entries name w) :
    ∃ w', FieldValue entries' name w' ∧ R w w' := by
  rcases hw with hmem | ⟨hnone, rfl⟩
  · obtain ⟨w', hmem', hw'⟩ := h.mem_left hmem
    exact ⟨w', .inl hmem', hw'⟩
  · refine ⟨.nil, .inr ⟨fun e' he' hkey => ?_, rfl⟩, hR.refl _⟩
    obtain ⟨v, hv⟩ := h.mem_right he'
    exact hnone _ hv hkey

/-- A list reordered is the list of the reordered items. -/
theorem EntriesMatch.numbered {items : List LuaValue} (hitems : entries.Perm (numbered items))
    (h : EntriesMatch R entries entries') :
    ∃ items', entries'.Perm (Lua.numbered items') ∧ List.Forall₂ R items items' := by
  obtain ⟨mid, hmatch, hperm⟩ := h
  obtain ⟨l, hl, hmid⟩ := List.perm_comp_forall₂ hitems.symm hmatch
  -- the keys of the rest of a list start later, so the induction is over lists from `k` on
  suffices hnumbered : ∀ (k : Nat) (items : List LuaValue) (l : List (LuaKey × LuaValue)),
      List.Forall₂ (fun e e' => e.1 = e'.1 ∧ R e.2 e'.2)
        ((items.zipIdx k).map fun item => (.index (item.2 + 1 : Nat), item.1)) l →
      ∃ items', l = (items'.zipIdx k).map (fun item => (.index (item.2 + 1 : Nat), item.1)) ∧
        List.Forall₂ R items items' by
    obtain ⟨items', rfl, hitems'⟩ := hnumbered 0 items l hl
    exact ⟨items', (hmid.trans hperm).symm, hitems'⟩
  intro k items
  induction items generalizing k with
  | nil =>
    rintro _ (_ | _)
    exact ⟨[], rfl, .nil⟩
  | cons item items ih =>
    rintro _ (_ | @⟨_, ⟨_, item'⟩, _, _, ⟨hkey, hitem⟩, hrest⟩)
    obtain ⟨items', rfl, hitems'⟩ := ih (k + 1) _ hrest
    exact ⟨item' :: items', congrArg (· :: _) (Prod.ext hkey.symm rfl), .cons hitem hitems'⟩

variable {σ : Type} {fromUtf8 : List UInt8 → String}
  {resolve : Handle → σ → Except String (CborValue × σ)}

theorem contentItems_of_forall₂ {content : LuaValue → σ → CborValue × σ → Prop}
    (hcontent : ∀ {v v'}, R v v' → ∀ s r, content v s r → content v' s r)
    {items items' : List LuaValue} (h : List.Forall₂ R items items') :
    ∀ {s r}, ContentItems content items s r → ContentItems content items' s r := by
  induction h with
  | nil => exact id
  | cons hfirst _ ih =>
    rintro s r ⟨v, s', more, hv, hmore, hr⟩
    exact ⟨v, s', more, hcontent hfirst _ _ hv, ih hmore, hr⟩

mutual

theorem content_of_reorders (hR : Reorders R) : ∀ (schema : Schema) {v v' : LuaValue}, R v v' →
    ∀ (s : σ) (r : CborValue × σ), Content fromUtf8 resolve schema v s r →
      Content fromUtf8 resolve schema v' s r
  | .plain _ _, v, v', h, s, r => by
    rcases hR.cases h with rfl | ⟨entries, entries', rfl, rfl, -⟩
    · exact id
    -- nothing is read of a table where a plain value is asked for
    · exact id
  | .list item _, v, v', h, s, r => by
    rcases hR.cases h with rfl | ⟨entries, entries', rfl, rfl, hmatch⟩
    · exact id
    · rintro ⟨items, values, hitems, hvalues, hr⟩
      obtain ⟨items', hitems', hsame⟩ := hmatch.numbered hitems
      exact ⟨items', values, hitems',
        contentItems_of_forall₂ (fun h => content_of_reorders hR item h) hsame hvalues, hr⟩
  | .object fields _, v, v', h, s, r => by
    rcases hR.cases h with rfl | ⟨entries, entries', rfl, rfl, hmatch⟩
    · exact id
    · rintro ⟨hnames, members, hmembers, hr⟩
      refine ⟨fun e' he' => ?_, members, contentFields_of_reorders hR fields hmatch _ _ _ hmembers,
        hr⟩
      obtain ⟨v, hv⟩ := hmatch.mem_right he'
      exact hnames (e'.1, v) hv

theorem contentFields_of_reorders (hR : Reorders R) : ∀ (fields : List (CborKey × Schema))
    {entries entries' : List (LuaKey × LuaValue)}, EntriesMatch R entries entries' →
    ∀ (out : CborMap) (s : σ) (r : CborMap × σ),
      ContentFields fromUtf8 resolve fields entries out s r →
      ContentFields fromUtf8 resolve fields entries' out s r
  | [], _, _, _, _, _, _ => id
  | (name, schema) :: rest, _, _, hmatch, out, s, r => by
    rintro ⟨w, v, s', hw, hv, hmore⟩
    obtain ⟨w', hw', hsame⟩ := hmatch.fieldValue hR hw
    exact ⟨w', v, s', hw', content_of_reorders hR schema hsame _ _ hv,
      contentFields_of_reorders hR rest hmatch _ _ _ hmore⟩

end

/-- **A value stands for the same whatever the order of its entries.** -/
theorem content_of_same (schema : Schema) {v v' : LuaValue} (h : Same v v') (s : σ)
    (r : CborValue × σ) :
    Content fromUtf8 resolve schema v s r ↔ Content fromUtf8 resolve schema v' s r :=
  ⟨content_of_reorders same_reorders schema h s r,
    content_of_reorders same_reorders.flip schema h s r⟩

end Reorders
section Convert

variable {σ : Type} {fromUtf8 : List UInt8 → String}
  {resolve : Handle → σ → Except String (CborValue × σ)}

/-! ## By content -/

mutual

theorem every_readable : ∀ (v : LuaValue) (depth : Nat), v.Every Readable depth ↔
    v.Every (fun depth _ => depth ≤ kMaxDepth) depth ∧ v.Every LuaValue.Sent depth
  | .table entries, depth => by
    rw [LuaValue.Every, LuaValue.Every, LuaValue.Every, everyIn_readable entries, Readable,
      and_and_and_comm]
  | .nil, _ | .bool _, _ | .integer _, _ | .number _, _ | .string _, _ | .handle _, _
  | .foreign, _ | .other, _ => Iff.rfl

theorem everyIn_readable : ∀ (entries : List (LuaKey × LuaValue)) (depth : Nat),
    EveryIn Readable entries depth ↔
      EveryIn (fun depth _ => depth ≤ kMaxDepth) entries depth ∧ EveryIn LuaValue.Sent entries depth
  | [], _ => ⟨fun _ => ⟨trivial, trivial⟩, fun _ => trivial⟩
  | (_, v) :: rest, depth => by
    rw [EveryIn, EveryIn, EveryIn, every_readable v, everyIn_readable rest, and_and_and_comm]

end

/-- **A value within the limits is converted by its content exactly if the lists in it, where it is
acceptable, are enumerated from 1 to n.** Lua promises no order, and a list in the hash part of its
table is refused. -/
theorem toCbor_content_iff {schema : Schema} {v : LuaValue} (hnames : schema.NamesOnce)
    (hkeys : v.KeysOnce) (hdepth : v.InDepth) (hcount : v.count ≤ kMaxNodes) (s : σ) :
    (∀ r, toCbor fromUtf8 resolve schema v s = .ok r ↔
        v.Sendable ∧ Content fromUtf8 resolve schema v s r) ↔
      (v.Sendable → (∃ r, Content fromUtf8 resolve schema v s r) → Ordered schema v) := by
  have hconvert : ∀ r, toCbor fromUtf8 resolve schema v s = .ok r ↔
      v.Sendable ∧ Content fromUtf8 resolve schema v s r ∧ Ordered schema v := by
    intro r
    have hlays : v.Every Readable 0 → LaysAt (nodesOf v none 0) v (some 0) := by
      intro hv
      have hnodes := lays_nodesOf v none 0 id [] [] hv (fun _ => rfl) fun _ h => nomatch h
      rw [List.append_nil, List.nil_append, List.modifyHead_id] at hnodes
      exact hnodes
    rw [toCbor, bind_eq_ok]
    constructor
    · rintro ⟨tree, htree, hr⟩
      obtain ⟨⟨hv, -⟩, rfl⟩ := (flattenAt_iff v none 0 0 tree).1 htree
      exact ⟨((every_readable v 0).1 hv).2,
        (nodeToCbor_iff schema v _ 0 s r hnames (hlays hv) hkeys).1 hr⟩
    · rintro ⟨hsend, hr⟩
      have hv := (every_readable v 0).2 ⟨hdepth, hsend⟩
      refine ⟨_, (flattenAt_iff v none 0 0 _).2 ⟨⟨hv, by omega⟩, rfl⟩, ?_⟩
      exact (nodeToCbor_iff schema v _ 0 s r hnames (hlays hv) hkeys).2 hr
  constructor
  · rintro h hsend ⟨r, hr⟩
    exact ((hconvert r).1 ((h r).2 ⟨hsend, hr⟩)).2.2
  · intro h r
    rw [hconvert r]
    exact ⟨fun hall => ⟨hall.1, hall.2.1⟩, fun hall => ⟨hall.1, hall.2, h hall.1 ⟨r, hall.2⟩⟩⟩

end Convert

/-- The text of ASCII bytes. -/
def asciiText (bytes : List UInt8) : String :=
  String.ofList (bytes.map fun b => Char.ofNat b.toNat)

def noHandle (_ : Handle) (_ : Unit) : Except String (CborValue × Unit) :=
  .error "no such handle"

/-- A list of integers. -/
def numbersSchema : Schema := .list (.plain .int false) false

/-- `{10, 20}`, as it is enumerated from the array part of the table. -/
def numbersTable : LuaValue := .table [(.index 1, .integer 10), (.index 2, .integer 20)]

theorem numbers_in_order :
    toCbor asciiText noHandle numbersSchema numbersTable ()
      = .ok (.array [.integer 10, .integer 20], ()) := by
  have hkeys : numbersTable.KeysOnce := ⟨by decide, List.nodup_nil, List.nodup_nil, trivial⟩
  have hdepth : numbersTable.InDepth :=
    ⟨Nat.zero_le 8, Nat.le_add_left 1 7, Nat.le_add_left 1 7, trivial⟩
  have hnames : numbersSchema.NamesOnce := trivial
  have hsend : numbersTable.Sendable := by
    refine ⟨⟨rfl, ?_⟩, ⟨rfl, fun _ h => nomatch h⟩, ⟨rfl, fun _ h => nomatch h⟩, trivial⟩
    simp [LuaValue.entries]
  have hcontent : Content asciiText noHandle numbersSchema numbersTable ()
      (.array [.integer 10, .integer 20], ()) := by
    refine ⟨[.integer 10, .integer 20], _, .rfl, ?_, rfl⟩
    exact ⟨_, (), _, ⟨_, rfl, rfl⟩, ⟨_, (), _, ⟨_, rfl, rfl⟩, rfl, rfl⟩, rfl⟩
  have hordered : Ordered numbersSchema numbersTable := ⟨rfl, fun _ _ => trivial⟩
  exact ((toCbor_content_iff hnames hkeys hdepth (by decide) ()).2 (fun _ _ => hordered) _).2
    ⟨hsend, hcontent⟩

/-- `{[2] = 20, [1] = 10}`, as it may be enumerated from the hash part: the same list. -/
theorem reordered_list_refused :
    toCbor asciiText noHandle numbersSchema
        (.table [(.index 2, .integer 20), (.index 1, .integer 10)]) ()
      = .error "a list takes 1..n and nothing else" ∧
    toCbor asciiText noHandle numbersSchema numbersTable ()
      = .ok (.array [.integer 10, .integer 20], ()) ∧
    Same numbersTable (.table [(.index 2, .integer 20), (.index 1, .integer 10)]) := by
  refine ⟨rfl, rfl, .table (List.Perm.swap _ _ _) ?_⟩
  exact .cons (.mk _ (.refl _)) (.cons (.mk _ (.refl _)) .nil)

end GpgFrontend.Lua
