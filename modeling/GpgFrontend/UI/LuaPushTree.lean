import GpgFrontend.Base.Cbor
import GpgFrontend.Base.Results
import Mathlib.Data.List.TakeWhile

/-!
# Results pushed to Lua (`LuaValue.cpp`)

A result is checked against the schema of its command and flattened into a list of nodes: a table
says how many children it has, and they follow it, one subtree after another. The list is then
read by position inside Lua, where nothing says how long it is.

- `push_tree_sound_iff`: **every node is read once and the right table comes out, exactly if no
  declared field is `undefined` and the names have no NUL.**
-/

namespace GpgFrontend.Lua

/-! ## Schemas and values -/

/-- The types of a schema without parts; `other` is one that Lua cannot receive. -/
inductive PlainType where
  | bool | int | double | string | bytes | blob
  | other (type : String)
  deriving Repr, DecidableEq

/-- The schema of an argument or a result. -/
inductive Schema where
  | plain (type : PlainType) (optional : Bool)
  | list (item : Schema) (optional : Bool)
  | object (fields : List (CborKey × Schema)) (optional : Bool)

/-- `string_list`. -/
def Schema.stringList (optional : Bool) : Schema := .list (.plain .string false) optional

/-- `IsOptional`. -/
def Schema.isOptional : Schema → Bool
  | plain _ optional => optional
  | list _ optional => optional
  | object _ optional => optional

inductive HandleKind where
  | command | anchor | mount | nativeWidget | nativeFactory | context | document | key
  | documentRef | keyRef | call | blob
  deriving Repr, DecidableEq

/-- `Handle`. -/
structure Handle where
  kind : HandleKind
  stateTag : Nat
  id : Int
  epoch : Nat
  deriving Repr, DecidableEq

inductive LuaKey where
  | index (i : Int)
  | name (text : List UInt8)
  | other (code : Nat)
  deriving Repr, DecidableEq

/-- A table is its entries, in the order they are set or enumerated; `foreign` is a userdata that is
no handle, and `other` a function or a thread. -/
inductive LuaValue where
  | nil
  | bool (value : Bool)
  | integer (value : Int)
  | number (value : Binary64)
  | string (text : List UInt8)
  | handle (h : Handle)
  | table (entries : List (LuaKey × LuaValue))
  | foreign
  | other

def utf8 (s : String) : List UInt8 := s.toList.flatMap String.utf8EncodeChar

/-! ## The first pass -/

/-- What `PushNode` is by its type. -/
inductive PushValue where
  | nil
  | bool (value : Bool)
  | integer (value : Int)
  | number (value : Binary64)
  | string (text : List UInt8)
  | blob (id : Int)
  | table (children : Nat)
  deriving DecidableEq

structure PushNode where
  value : PushValue := .nil
  keyIsIndex : Bool := false
  keyIndex : Nat := 0
  key : List UInt8 := []
  deriving DecidableEq

abbrev PushTree : Type := List PushNode

section FirstPass

variable {σ β : Type} (register : σ → β → Int × σ) (blobs : List β)

/-- A value of a plain type. -/
def pushPlain (type : PlainType) (value : CborValue) (s : σ) : Except String (PushValue × σ) :=
  match type with
  | .bool =>
    match value with
    | .bool b => .ok (.bool b, s)
    | _ => .error "expected a boolean"
  | .int =>
    match value with
    | .integer n => .ok (.integer n, s)
    | _ => .error "expected an integer"
  | .double =>
    match value with
    | .double x => .ok (.number x, s)
    | .integer n => .ok (.number (.ofInt n), s)
    | _ => .error "expected a number"
  | .string =>
    match value with
    | .text t => .ok (.string (utf8 t), s)
    | _ => .error "expected a string"
  | .bytes =>
    match value with
    | .bytes b => .ok (.string b, s)
    | _ => .error "expected bytes"
  | .blob =>
    match CborMap.value value.toMap (.text "$blob") with
    | .integer i =>
      match if i < 0 then none else blobs[i.toNat]? with
      | some blob => .ok (.blob (register s blob).1, (register s blob).2)
      | none => .error "a blob reference out of range"
    | _ => .error "a blob reference out of range"
  | .other type => .error ("a schema type Lua cannot receive: " ++ type)

/-- A value that is not there. -/
def pushAbsent (optional : Bool) (s : σ) : Except String (PushTree × σ) :=
  if optional then .ok ([{}], s) else .error "a required value is missing"

/-- The loop over a list: `(*out)[at]` is the first node that an item adds. -/
def pushItems (push : CborValue → σ → Except String (PushTree × σ)) :
    Nat → List CborValue → σ → Except String (PushTree × σ)
  | _, [], s => .ok ([], s)
  | i, item :: rest, s => do
    let (nodes, s) ← push item s
    let (more, s) ← pushItems push (i + 1) rest s
    return (nodes.modifyHead (fun n => { n with keyIsIndex := true, keyIndex := i + 1 }) ++ more, s)

/-- `present`. -/
def presentCount (fields : List (CborKey × Schema)) (m : CborMap) : Nat :=
  fields.countP fun f => m.contains f.1 && (match m.value f.1 with | .null => false | _ => true)

mutual

/-- `CborToPushTree`: the nodes that are added. -/
def cborToPushTree : Schema → CborValue → σ → Except String (PushTree × σ)
  | .plain type optional, value, s =>
    if value.isAbsent then pushAbsent optional s
    else do
      let (v, s) ← pushPlain register blobs type value s
      return ([{ value := v }], s)
  | .list item optional, value, s =>
    if value.isAbsent then pushAbsent optional s
    else
      match value with
      | .array items => do
        let (nodes, s) ← pushItems (cborToPushTree item) 0 items s
        return ({ value := .table items.length } :: nodes, s)
      | _ => .error "expected a list"
  | .object fields optional, value, s =>
    if value.isAbsent then pushAbsent optional s
    else
      match value with
      | .map m =>
        if m.all fun member => fields.any fun f => f.1 = member.1 then do
          let (nodes, s) ← pushFields fields m s
          return ({ value := .table (presentCount fields m) } :: nodes, s)
        else .error "a field the schema does not declare"
      | _ => .error "expected an object"

/-- The loop over the fields of an object. -/
def pushFields : List (CborKey × Schema) → CborMap → σ → Except String (PushTree × σ)
  | [], _, s => .ok ([], s)
  | (name, schema) :: rest, m, s =>
    if (m.value name).isAbsent then
      if schema.isOptional then pushFields rest m s
      else .error ("missing field \"" ++ name.toText ++ "\"")
    else do
      let (nodes, s) ← cborToPushTree schema (m.value name) s
      let (more, s) ← pushFields rest m s
      return (nodes.modifyHead (fun n => { n with key := utf8 name.toText }) ++ more, s)

end

end FirstPass

/-! ## The second pass -/

/-- A C string ends at its first NUL. -/
def cString (text : List UInt8) : List UInt8 := text.takeWhile (· ≠ 0)

/-- Where `lua_rawseti` or `lua_setfield` puts the value of a node. -/
def PushNode.at (n : PushNode) : LuaKey :=
  if n.keyIsIndex then .index n.keyIndex else .name (cString n.key)

/-- A value that was read, the position behind it and the positions read for it. -/
structure NodeRead where
  value : LuaValue
  next : Nat
  visited : List Nat

/-- The loop over the children of a table. -/
def readChildren (read : Nat → Option NodeRead) (tree : PushTree) :
    Nat → Nat → Option (List (LuaKey × LuaValue) × Nat × List Nat)
  | 0, next => some ([], next, [])
  | children + 1, next => do
    let child ← tree[next]?
    let r ← read next
    let (entries, last, visited) ← readChildren read tree children r.next
    return ((child.at, r.value) :: entries, last, r.visited ++ visited)

/-- `PushNodeValue`, to a depth; `none` also where a position is behind the end. -/
def pushNodeValue (stateTag : Nat) (tree : PushTree) : Nat → Nat → Option NodeRead
  | 0, _ => none
  | depth + 1, index => do
    let n ← tree[index]?
    match n.value with
    | .nil => return ⟨.nil, index + 1, [index]⟩
    | .bool b => return ⟨.bool b, index + 1, [index]⟩
    | .integer i => return ⟨.integer i, index + 1, [index]⟩
    | .number x => return ⟨.number x, index + 1, [index]⟩
    | .string text => return ⟨.string text, index + 1, [index]⟩
    | .blob id => return ⟨.handle ⟨.blob, stateTag, id, 0⟩, index + 1, [index]⟩
    | .table children => do
      let (entries, next, visited) ←
        readChildren (pushNodeValue stateTag tree depth) tree children (index + 1)
      return ⟨.table entries, next, index :: visited⟩

/-! ## What is to come out -/

/-- A Lua value stands for a value of a plain type. -/
def HoldsPlain : PlainType → CborValue → LuaValue → Prop
  | .bool, .bool b, v => v = .bool b
  | .int, .integer n, v => v = .integer n
  | .double, .double x, v => v = .number x
  | .double, .integer n, v => v = .number (.ofInt n)
  | .string, .text t, v => v = .string (utf8 t)
  | .bytes, .bytes b, v => v = .string b
  | .blob, _, v => ∃ h : Handle, v = .handle h ∧ h.kind = .blob
  | _, _, _ => False

/-- The entries are the items, at the positions behind `i`. -/
def HoldsItems (holds : CborValue → LuaValue → Prop) :
    Nat → List CborValue → List (LuaKey × LuaValue) → Prop
  | _, [], entries => entries = []
  | i, item :: rest, entries =>
    ∃ v more, entries = (.index (i + 1 : Nat), v) :: more ∧ holds item v ∧
      HoldsItems holds (i + 1) rest more

mutual

/-- A Lua value stands for a CBOR value: tables hold the present fields and the items, and nothing
else. `named` says which key stands for a name. -/
def Holds (named : CborKey → LuaKey → Prop) : Schema → CborValue → LuaValue → Prop
  | .plain type _, value, v => if value.isAbsent then v = .nil else HoldsPlain type value v
  | .list item _, value, v =>
    if value.isAbsent then v = .nil
    else ∃ items entries, value = .array items ∧ v = .table entries ∧
      HoldsItems (Holds named item) 0 items entries
  | .object fields _, value, v =>
    if value.isAbsent then v = .nil
    else ∃ m entries, value = .map m ∧ v = .table entries ∧ HoldsFields named fields m entries

def HoldsFields (named : CborKey → LuaKey → Prop) :
    List (CborKey × Schema) → CborMap → List (LuaKey × LuaValue) → Prop
  | [], _, entries => entries = []
  | (name, schema) :: rest, m, entries =>
    if (m.value name).isAbsent then HoldsFields named rest m entries
    else ∃ key v more, entries = (key, v) :: more ∧ named name key ∧
      Holds named schema (m.value name) v ∧ HoldsFields named rest m more

end

/-- The key of a field is its whole name. -/
def OwnName (name : CborKey) (key : LuaKey) : Prop :=
  ∃ text, name = .text text ∧ key = .name (utf8 text)

/-- The key that the second pass takes. -/
def CName (name : CborKey) (key : LuaKey) : Prop := key = .name (cString (utf8 name.toText))

/-- Node 0 and all behind it are read once each and in order, and give the right value. -/
def PushSound (stateTag : Nat) (schema : Schema) (value : CborValue) (tree : PushTree) : Prop :=
  ∃ v, pushNodeValue stateTag tree tree.length 0
      = some ⟨v, tree.length, List.range tree.length⟩ ∧
    Holds OwnName schema value v

mutual

/-- No declared field of an object is `undefined`. -/
def Defined : Schema → CborValue → Prop
  | .plain _ _, _ => True
  | .list item _, value =>
    match value with
    | .array items => ∀ v ∈ items, Defined item v
    | _ => True
  | .object fields _, value =>
    match value with
    | .map m => DefinedFields fields m
    | _ => True

def DefinedFields : List (CborKey × Schema) → CborMap → Prop
  | [], _ => True
  | (name, schema) :: rest, m =>
    (m.contains name = true → m.value name ≠ .undefined) ∧ Defined schema (m.value name) ∧
      DefinedFields rest m

end

mutual

/-- The names of the fields that are there are texts without a NUL. -/
def Named : Schema → CborValue → Prop
  | .plain _ _, _ => True
  | .list item _, value =>
    match value with
    | .array items => ∀ v ∈ items, Named item v
    | _ => True
  | .object fields _, value =>
    match value with
    | .map m => NamedFields fields m
    | _ => True

def NamedFields : List (CborKey × Schema) → CborMap → Prop
  | [], _ => True
  | (name, schema) :: rest, m =>
    ((m.value name).isAbsent = false → (∃ text, name = .text text) ∧ 0 ∉ utf8 name.toText) ∧
      Named schema (m.value name) ∧ NamedFields rest m

end

theorem isAbsent_iff {value : CborValue} :
    value.isAbsent = true ↔ value = .null ∨ value = .undefined := by
  cases value <;> simp [CborValue.isAbsent]

theorem defined_absent {schema : Schema} {value : CborValue} (h : value.isAbsent = true) :
    Defined schema value ∧ Named schema value := by
  obtain rfl | rfl := isAbsent_iff.1 h <;> cases schema <;> simp [Defined, Named]

/-! ## Children counted -/

def PushNode.arity (n : PushNode) : Nat :=
  match n.value with
  | .table children => children
  | _ => 0

def arities (t : PushTree) : Nat := (t.map PushNode.arity).sum

@[simp] theorem arities_nil : arities [] = 0 := rfl

@[simp] theorem arities_cons (n : PushNode) (t : PushTree) :
    arities (n :: t) = n.arity + arities t := List.sum_cons

@[simp] theorem arities_append (t u : PushTree) : arities (t ++ u) = arities t + arities u := by
  rw [arities, List.map_append, List.sum_append]
  rfl

/-- A key does not change how many children a node has. -/
theorem arities_modifyHead {f : PushNode → PushNode} (hf : ∀ n, (f n).value = n.value)
    (t : PushTree) : arities (t.modifyHead f) = arities t := by
  cases t with
  | nil => rfl
  | cons n t => rw [List.modifyHead_cons, arities_cons, arities_cons, PushNode.arity, hf]; rfl

section Reading

variable {stateTag : Nat} {tree : PushTree}

theorem arities_readChildren {read : Nat → Option NodeRead}
    (hread : ∀ i r, read i = some r → arities (tree.take r.next) + 1 + i
      = arities (tree.take i) + r.next) {children next last : Nat}
    {entries : List (LuaKey × LuaValue)} {visited : List Nat}
    (h : readChildren read tree children next = some (entries, last, visited)) :
    arities (tree.take last) + children + next = arities (tree.take next) + last := by
  induction children generalizing next entries visited with
  | zero =>
    rw [readChildren] at h
    cases h
    omega
  | succ children ih =>
    simp only [readChildren, Option.bind_eq_bind, Option.bind_eq_some_iff] at h
    obtain ⟨child, -, r, hr, ⟨more, last', visited'⟩, hmore, heq⟩ := h
    cases heq
    have hfirst := hread next r hr
    have hrest := ih hmore
    omega

/-- **What is read is as long as its tables say**: one position for itself, and one for each child
of a table in it. -/
theorem arities_pushNodeValue {depth index : Nat} {r : NodeRead}
    (h : pushNodeValue stateTag tree depth index = some r) :
    arities (tree.take r.next) + 1 + index = arities (tree.take index) + r.next := by
  induction depth generalizing index r with
  | zero => cases h
  | succ depth ih =>
    simp only [pushNodeValue, Option.bind_eq_bind, Option.bind_eq_some_iff] at h
    obtain ⟨n, hn, h⟩ := h
    have hstep : arities (tree.take (index + 1)) = arities (tree.take index) + n.arity := by
      rw [List.take_add_one, hn, Option.toList_some, arities_append, arities_cons, arities_nil]
      omega
    have hleaf : ∀ v, n.arity = 0 → some (⟨v, index + 1, [index]⟩ : NodeRead) = some r →
        arities (tree.take r.next) + 1 + index = arities (tree.take index) + r.next := by
      rintro v harity heq
      cases heq
      show arities (tree.take (index + 1)) + 1 + index = arities (tree.take index) + (index + 1)
      omega
    unfold PushNode.arity at hstep hleaf
    cases hvalue : n.value with
    | table children =>
      rw [hvalue] at h hstep
      simp only [Option.bind_eq_some_iff] at h
      obtain ⟨⟨entries, next, visited⟩, hchildren, heq⟩ := h
      cases heq
      have hcount := arities_readChildren (fun i r hr => ih hr) hchildren
      dsimp only at hstep ⊢
      omega
    | _ =>
      rw [hvalue] at h hleaf
      exact hleaf _ rfl h

end Reading

/-! ## Children written -/

/-- Nodes that are `count` subtrees, unless a table in them counts a child too many. -/
def Balanced (count : Nat) (t : PushTree) (defined : Prop) : Prop :=
  t.length ≤ arities t + count ∧ (t.length = arities t + count ↔ defined)

variable {p : Prop}

theorem Balanced.append {a b : Nat} {t u : PushTree} {q : Prop} (ht : Balanced a t p)
    (hu : Balanced b u q) : Balanced (a + b) (t ++ u) (p ∧ q) := by
  obtain ⟨htle, htiff⟩ := ht
  obtain ⟨hule, huiff⟩ := hu
  rw [Balanced, List.length_append, arities_append, ← htiff, ← huiff]
  constructor
  · omega
  · constructor
    · intro h
      constructor <;> omega
    · rintro ⟨hteq, hueq⟩
      omega

theorem Balanced.modifyHead {a : Nat} {t : PushTree} (h : Balanced a t p) {f : PushNode → PushNode}
    (hf : ∀ n, (f n).value = n.value) : Balanced a (t.modifyHead f) p := by
  rw [Balanced, List.length_modifyHead, arities_modifyHead hf]
  exact h

/-- The node of a table and its children are one subtree. -/
theorem Balanced.table {a : Nat} {t : PushTree} (h : Balanced a t p) :
    Balanced 1 ({ value := .table a } :: t) p := by
  obtain ⟨hle, hiff⟩ := h
  have harity : PushNode.arity { value := .table a } = a := rfl
  rw [Balanced, List.length_cons, arities_cons, harity, ← hiff]
  omega

/-- A subtree that is not a table has no child. -/
theorem balanced_leaf {v : PushValue} (h : ∀ children, v ≠ .table children) (hp : p) :
    Balanced 1 [{ value := v }] p := by
  have harity : PushNode.arity { value := v } = 0 := by
    unfold PushNode.arity
    cases v with
    | table children => exact absurd rfl (h children)
    | _ => rfl
  simp [Balanced, harity, hp]

theorem balanced_nil (hp : p) : Balanced 1 [{}] p :=
  balanced_leaf (v := .nil) (fun _ h => nomatch h) hp

theorem contains_of_value {m : CborMap} {name : CborKey} (h : m.value name ≠ .undefined) :
    m.contains name = true := by
  unfold CborMap.value at h
  unfold CborMap.contains
  cases hlookup : m.lookup name with
  | none => exact absurd (by rw [hlookup]; rfl) h
  | some v => rfl

section Writing

variable {σ β : Type} {register : σ → β → Int × σ} {blobs : List β}

variable {value : CborValue} {s s' : σ}

theorem pushPlain_leaf {type : PlainType} {v : PushValue}
    (h : pushPlain register blobs type value s = .ok (v, s')) (children : Nat) :
    v ≠ .table children := by
  rintro rfl
  unfold pushPlain at h
  repeat' split at h
  all_goals cases h

variable {optional : Bool} {t : PushTree}

theorem pushAbsent_ok (h : pushAbsent optional s = .ok (t, s')) : t = [{}] := by
  unfold pushAbsent at h
  split at h <;> cases h
  rfl

theorem pushItems_balanced {push : CborValue → σ → Except String (PushTree × σ)}
    {defined : CborValue → Prop}
    (hpush : ∀ v s t s', push v s = .ok (t, s') → Balanced 1 t (defined v)) {i : Nat}
    {items : List CborValue} (h : pushItems push i items s = .ok (t, s')) :
    Balanced items.length t (∀ v ∈ items, defined v) := by
  induction items generalizing i s t with
  | nil =>
    cases h
    exact ⟨le_rfl, iff_of_true rfl (List.forall_mem_nil _)⟩
  | cons item rest ih =>
    simp only [pushItems, bind_eq_ok, Prod.exists, pure_eq_ok, Prod.mk.injEq] at h
    obtain ⟨nodes, s₁, hnodes, more, s₂, hmore, rfl, rfl⟩ := h
    have hfirst := (hpush item s nodes s₁ hnodes).modifyHead
      (f := fun n => { n with keyIsIndex := true, keyIndex := i + 1 }) fun _ => rfl
    rw [List.forall_mem_cons, List.length_cons, Nat.add_comm]
    exact hfirst.append (ih hmore)

/-- What the first pass does with a value, schema by schema. -/
theorem push_plain_ok {type : PlainType}
    (h : cborToPushTree register blobs (.plain type optional) value s = .ok (t, s')) :
    (value.isAbsent = true ∧ t = [{}]) ∨
      (value.isAbsent = false ∧ ∃ v s₁, pushPlain register blobs type value s = .ok (v, s₁) ∧
        t = [{ value := v }]) := by
  rw [cborToPushTree] at h
  split at h
  · next habsent => exact .inl ⟨habsent, pushAbsent_ok h⟩
  · next hthere =>
    simp only [bind_eq_ok, Prod.exists, pure_eq_ok, Prod.mk.injEq] at h
    obtain ⟨v, s₁, hv, rfl, -⟩ := h
    exact .inr ⟨Bool.not_eq_true _ ▸ hthere, v, s₁, hv, rfl⟩

theorem push_list_ok {item : Schema}
    (h : cborToPushTree register blobs (.list item optional) value s = .ok (t, s')) :
    (value.isAbsent = true ∧ t = [{}]) ∨
      ∃ items nodes s₁, value = .array items ∧
        pushItems (cborToPushTree register blobs item) 0 items s = .ok (nodes, s₁) ∧
        t = { value := .table items.length } :: nodes := by
  unfold cborToPushTree at h
  split at h
  · next habsent => exact .inl ⟨habsent, pushAbsent_ok h⟩
  · split at h
    · next items _ =>
      simp only [bind_eq_ok, Prod.exists, pure_eq_ok, Prod.mk.injEq] at h
      obtain ⟨nodes, s₁, hnodes, rfl, -⟩ := h
      exact .inr ⟨items, nodes, s₁, rfl, hnodes, rfl⟩
    · cases h

theorem push_object_ok {fields : List (CborKey × Schema)}
    (h : cborToPushTree register blobs (.object fields optional) value s = .ok (t, s')) :
    (value.isAbsent = true ∧ t = [{}]) ∨
      ∃ m nodes s₁, value = .map m ∧ pushFields register blobs fields m s = .ok (nodes, s₁) ∧
        t = { value := .table (presentCount fields m) } :: nodes := by
  unfold cborToPushTree at h
  split at h
  · next habsent => exact .inl ⟨habsent, pushAbsent_ok h⟩
  · split at h
    · next m _ =>
      split at h
      · simp only [bind_eq_ok, Prod.exists, pure_eq_ok, Prod.mk.injEq] at h
        obtain ⟨nodes, s₁, hnodes, rfl, -⟩ := h
        exact .inr ⟨m, nodes, s₁, rfl, hnodes, rfl⟩
      · cases h
    · cases h

variable {rest : List (CborKey × Schema)}

theorem push_field_ok {name : CborKey} {schema : Schema} {m : CborMap}
    (h : pushFields register blobs ((name, schema) :: rest) m s = .ok (t, s')) :
    ((m.value name).isAbsent = true ∧ pushFields register blobs rest m s = .ok (t, s')) ∨
      ((m.value name).isAbsent = false ∧ ∃ nodes s₁ more s₂,
        cborToPushTree register blobs schema (m.value name) s = .ok (nodes, s₁) ∧
        pushFields register blobs rest m s₁ = .ok (more, s₂) ∧
        t = nodes.modifyHead (fun n => { n with key := utf8 name.toText }) ++ more) := by
  rw [pushFields] at h
  split at h
  · next habsent =>
    split at h
    · exact .inl ⟨habsent, h⟩
    · cases h
  · next hthere =>
    simp only [bind_eq_ok, Prod.exists, pure_eq_ok, Prod.mk.injEq] at h
    obtain ⟨nodes, s₁, hnodes, more, s₂, hmore, rfl, -⟩ := h
    exact .inr ⟨Bool.not_eq_true _ ▸ hthere, nodes, s₁, more, s₂, hnodes, hmore, rfl⟩

/-- A field that is there is counted. -/
theorem presentCount_there {name : CborKey} {schema : Schema} {m : CborMap}
    (h : (m.value name).isAbsent = false) :
    presentCount ((name, schema) :: rest) m = presentCount rest m + 1 := by
  have hcontains : m.contains name = true :=
    contains_of_value fun hu => Bool.false_ne_true (h.symm.trans (isAbsent_iff.2 (.inr hu)))
  rw [presentCount, List.countP_cons_of_pos]
  · rfl
  · rw [hcontains]
    cases hv : m.value name with
    | null => exact absurd (h.symm.trans (isAbsent_iff.2 (.inl hv))) Bool.false_ne_true
    | _ => rfl

/-- So is one that is `undefined`, but not one that is missing or null. -/
theorem presentCount_absent {name : CborKey} {schema : Schema} {rest : List (CborKey × Schema)}
    {m : CborMap} (h : (m.value name).isAbsent = true) :
    presentCount ((name, schema) :: rest) m = presentCount rest m + 1 ∧ m.contains name = true ∧
        m.value name = .undefined ∨
      presentCount ((name, schema) :: rest) m = presentCount rest m ∧
        (m.contains name = true → m.value name ≠ .undefined) := by
  obtain hnull | hundefined := isAbsent_iff.1 h
  · refine .inr ⟨?_, fun _ hu => nomatch hnull.symm.trans hu⟩
    simp [presentCount, hnull]
  · cases hcontains : m.contains name with
    | true => exact .inl ⟨by simp [presentCount, hundefined, hcontains], rfl, hundefined⟩
    | false =>
      exact .inr ⟨by simp [presentCount, hcontains], fun ht => absurd ht Bool.false_ne_true⟩

mutual

/-- **The first pass writes as many children as it counts, where no declared field is
`undefined`**, and fewer elsewhere. -/
theorem cborToPushTree_balanced : ∀ (schema : Schema) (value : CborValue) (s s' : σ) (t : PushTree),
    cborToPushTree register blobs schema value s = .ok (t, s') →
      Balanced 1 t (Defined schema value)
  | .plain type optional, value, s, s', t, h => by
    obtain ⟨-, rfl⟩ | ⟨-, v, s₁, hv, rfl⟩ := push_plain_ok h
    · exact balanced_nil trivial
    · exact balanced_leaf (pushPlain_leaf hv) trivial
  | .list item optional, value, s, s', t, h => by
    obtain ⟨habsent, rfl⟩ | ⟨items, nodes, s₁, rfl, hnodes, rfl⟩ := push_list_ok h
    · exact balanced_nil (defined_absent habsent).1
    · exact (pushItems_balanced (fun v s t s' hv => cborToPushTree_balanced item v s s' t hv)
        hnodes).table
  | .object fields optional, value, s, s', t, h => by
    obtain ⟨habsent, rfl⟩ | ⟨m, nodes, s₁, rfl, hnodes, rfl⟩ := push_object_ok h
    · exact balanced_nil (defined_absent habsent).1
    · exact (pushFields_balanced fields m s s₁ nodes hnodes).table

theorem pushFields_balanced : ∀ (fields : List (CborKey × Schema)) (m : CborMap) (s s' : σ)
    (t : PushTree), pushFields register blobs fields m s = .ok (t, s') →
      Balanced (presentCount fields m) t (DefinedFields fields m)
  | [], m, s, s', t, h => by
    cases h
    exact ⟨le_rfl, iff_of_true rfl trivial⟩
  | (name, schema) :: rest, m, s, s', t, h => by
    rw [DefinedFields]
    obtain ⟨habsent, hrest⟩ | ⟨hthere, nodes, s₁, more, s₂, hnodes, hmore, rfl⟩ := push_field_ok h
    · obtain ⟨hle, hiff⟩ := pushFields_balanced rest m s s' t hrest
      have hdefined := (@defined_absent schema _ habsent).1
      obtain ⟨hcount, hcontains, hundefined⟩ | ⟨hcount, hnot⟩ := @presentCount_absent name schema
        rest m habsent
      · -- it is counted, and nothing is written for it
        rw [Balanced, hcount]
        refine ⟨by omega, iff_of_false (by omega) fun hall => ?_⟩
        exact hall.1 hcontains hundefined
      · rw [Balanced, hcount]
        exact ⟨hle, hiff.trans ⟨fun hall => ⟨hnot, hdefined, hall⟩, fun hall => hall.2.2⟩⟩
    · have hfirst := (cborToPushTree_balanced schema _ s s₁ nodes hnodes).modifyHead
        (f := fun n => { n with key := utf8 name.toText }) fun _ => rfl
      have hboth := hfirst.append (pushFields_balanced rest m s₁ s₂ more hmore)
      rw [presentCount_there hthere, Nat.add_comm]
      refine ⟨hboth.1, hboth.2.trans ⟨fun hall => ⟨fun _ hu => ?_, hall⟩, And.right⟩⟩
      exact Bool.false_ne_true (hthere.symm.trans (isAbsent_iff.2 (.inr hu)))

end

end Writing

/-! ## Children read -/

section Reads

variable {stateTag : Nat}

/-- Wherever the nodes stand, and whatever the key of the first, a value is read from all of them. -/
def ReadsAs (stateTag : Nat) (t : PushTree) (v : LuaValue) : Prop :=
  ∀ (f : PushNode → PushNode) (before after : PushTree) (depth : Nat),
    (∀ n, (f n).value = n.value) → t.length ≤ depth →
    pushNodeValue stateTag (before ++ t.modifyHead f ++ after) depth before.length
      = some ⟨v, before.length + t.length, List.range' before.length t.length⟩

/-- Wherever the nodes stand, the entries of a table are read from all of them. -/
def ReadsEach (stateTag : Nat) (t : PushTree) (count : Nat)
    (entries : List (LuaKey × LuaValue)) : Prop :=
  ∀ (before after : PushTree) (depth : Nat), t.length ≤ depth →
    readChildren (pushNodeValue stateTag (before ++ t ++ after) depth) (before ++ t ++ after) count
        before.length
      = some (entries, before.length + t.length, List.range' before.length t.length)

theorem readsEach_nil : ReadsEach stateTag [] 0 [] := fun before after depth _ => by
  rw [readChildren]
  rfl

theorem ReadsEach.cons {head : PushNode} {t more : PushTree} {count : Nat} {v : LuaValue}
    {entries : List (LuaKey × LuaValue)} (hfirst : ReadsAs stateTag (head :: t) v)
    (hmore : ReadsEach stateTag more count entries) {f : PushNode → PushNode}
    (hf : ∀ n, (f n).value = n.value) :
    ReadsEach stateTag ((head :: t).modifyHead f ++ more) (count + 1)
      (((f head).at, v) :: entries) := by
  intro before after depth hdepth
  rw [List.length_append, List.length_modifyHead] at hdepth
  have hread := hfirst f before (more ++ after) depth hf (by omega)
  have hrest := hmore (before ++ (head :: t).modifyHead f) after depth (by omega)
  have hnode : (before ++ ((head :: t).modifyHead f ++ more) ++ after)[before.length]?
      = some (f head) := by
    rw [List.modifyHead_cons, List.append_assoc, List.getElem?_append_right le_rfl, Nat.sub_self]
    rfl
  simp only [List.append_assoc, List.length_append, List.length_modifyHead] at hread hrest hnode ⊢
  rw [readChildren, hnode]
  simp only [Option.bind_eq_bind, Option.bind_some, hread, hrest, List.range'_append_1,
    Nat.add_assoc]
  rfl

theorem ReadsEach.table {t : PushTree} {count : Nat} {entries : List (LuaKey × LuaValue)}
    (h : ReadsEach stateTag t count entries) :
    ReadsAs stateTag ({ value := .table count } :: t) (.table entries) := by
  intro f before after depth hf hdepth
  obtain ⟨depth, rfl⟩ : ∃ d, depth = d + 1 := ⟨depth - 1, by rw [List.length_cons] at hdepth; omega⟩
  have hchildren := h (before ++ [f { value := .table count }]) after depth (by simpa using hdepth)
  have hnode : (before ++ (f { value := .table count } :: t) ++ after)[before.length]?
      = some (f { value := .table count }) := by
    rw [List.append_assoc, List.getElem?_append_right le_rfl, Nat.sub_self]
    rfl
  simp only [List.append_assoc, List.length_append, List.length_singleton, List.cons_append,
    List.nil_append] at hchildren hnode
  rw [List.modifyHead_cons, List.append_assoc, List.cons_append, pushNodeValue, hnode]
  simp only [Option.bind_eq_bind, Option.bind_some, hf, hchildren, List.length_cons,
    List.range'_succ]
  rw [Nat.add_right_comm, Nat.add_assoc]
  rfl

/-- The value of a node without children. -/
def PushValue.leaf (stateTag : Nat) : PushValue → LuaValue
  | .bool b => .bool b
  | .integer n => .integer n
  | .number x => .number x
  | .string text => .string text
  | .blob id => .handle ⟨.blob, stateTag, id, 0⟩
  | _ => .nil

theorem readsAs_leaf {v : PushValue} (h : ∀ children, v ≠ .table children) :
    ReadsAs stateTag [{ value := v }] (v.leaf stateTag) := by
  intro f before after depth hf hdepth
  obtain ⟨depth, rfl⟩ : ∃ d, depth = d + 1 :=
    ⟨depth - 1, by rw [List.length_singleton] at hdepth; omega⟩
  have hnode : (before ++ [f { value := v }] ++ after)[before.length]?
      = some (f { value := v }) := by
    rw [List.append_assoc, List.getElem?_append_right le_rfl, Nat.sub_self]
    rfl
  rw [List.modifyHead_cons, pushNodeValue, hnode]
  simp only [Option.bind_eq_bind, Option.bind_some, hf]
  cases v with
  | table children => exact absurd rfl (h children)
  | _ => rfl

theorem readsAs_nil : ReadsAs stateTag [{}] .nil :=
  readsAs_leaf (v := .nil) fun _ h => nomatch h

variable {σ β : Type} {register : σ → β → Int × σ} {blobs : List β}

theorem holdsPlain_leaf {type : PlainType} {value : CborValue} {s s' : σ} {v : PushValue}
    (h : pushPlain register blobs type value s = .ok (v, s')) :
    HoldsPlain type value (v.leaf stateTag) := by
  unfold pushPlain at h
  split at h <;> (repeat' split at h) <;> cases h <;>
    first | rfl | exact ⟨_, rfl, rfl⟩

theorem pushItems_reads {push : CborValue → σ → Except String (PushTree × σ)}
    {defined : CborValue → Prop} {holds : CborValue → LuaValue → Prop}
    (hpush : ∀ v s t s', push v s = .ok (t, s') → defined v →
      ∃ first rest r, t = { value := first } :: rest ∧ ReadsAs stateTag t r ∧ holds v r)
    {i : Nat} {items : List CborValue} {s s' : σ} {t : PushTree}
    (h : pushItems push i items s = .ok (t, s')) (hdefined : ∀ v ∈ items, defined v) :
    ∃ entries, ReadsEach stateTag t items.length entries ∧ HoldsItems holds i items entries := by
  induction items generalizing i s t with
  | nil =>
    cases h
    exact ⟨[], readsEach_nil, rfl⟩
  | cons item rest ih =>
    simp only [pushItems, bind_eq_ok, Prod.exists, pure_eq_ok, Prod.mk.injEq] at h
    obtain ⟨nodes, s₁, hnodes, more, s₂, hmore, rfl, rfl⟩ := h
    obtain ⟨hitem, hrest⟩ := List.forall_mem_cons.1 hdefined
    obtain ⟨head, tail, r, rfl, hreads, hholds⟩ := hpush item s nodes s₁ hnodes hitem
    obtain ⟨entries, heach, hentries⟩ := ih hmore hrest
    exact ⟨_, .cons hreads heach fun _ => rfl, r, entries, rfl, hholds, hentries⟩

mutual

/-- **The second pass reads what the first has written**, where that is balanced. -/
theorem cborToPushTree_reads : ∀ (schema : Schema) (value : CborValue) (s s' : σ) (t : PushTree),
    cborToPushTree register blobs schema value s = .ok (t, s') → Defined schema value →
      ∃ first rest r, t = { value := first } :: rest ∧ ReadsAs stateTag t r ∧ Holds CName schema value r
  | .plain type optional, value, s, s', t, h, _ => by
    obtain ⟨habsent, rfl⟩ | ⟨hthere, v, s₁, hv, rfl⟩ := push_plain_ok h
    · refine ⟨_, _, .nil, rfl, readsAs_nil, ?_⟩
      rw [Holds, if_pos habsent]
    · refine ⟨_, _, _, rfl, readsAs_leaf (pushPlain_leaf hv), ?_⟩
      rw [Holds, if_neg (Bool.eq_false_iff.1 hthere)]
      exact holdsPlain_leaf hv
  | .list item optional, value, s, s', t, h, hdefined => by
    obtain ⟨habsent, rfl⟩ | ⟨items, nodes, s₁, rfl, hnodes, rfl⟩ := push_list_ok h
    · refine ⟨_, _, .nil, rfl, readsAs_nil, ?_⟩
      rw [Holds, if_pos habsent]
    · obtain ⟨entries, heach, hentries⟩ := pushItems_reads
        (fun v s t s' hv hd => cborToPushTree_reads item v s s' t hv hd) hnodes hdefined
      refine ⟨_, _, _, rfl, heach.table, ?_⟩
      unfold Holds
      refine (if_neg Bool.false_ne_true).mpr ?_
      exact ⟨items, entries, rfl, rfl, hentries⟩
  | .object fields optional, value, s, s', t, h, hdefined => by
    obtain ⟨habsent, rfl⟩ | ⟨m, nodes, s₁, rfl, hnodes, rfl⟩ := push_object_ok h
    · refine ⟨_, _, .nil, rfl, readsAs_nil, ?_⟩
      rw [Holds, if_pos habsent]
    · obtain ⟨entries, heach, hentries⟩ := pushFields_reads fields m s s₁ nodes hnodes hdefined
      refine ⟨_, _, _, rfl, heach.table, ?_⟩
      unfold Holds
      refine (if_neg Bool.false_ne_true).mpr ?_
      exact ⟨m, entries, rfl, rfl, hentries⟩

theorem pushFields_reads : ∀ (fields : List (CborKey × Schema)) (m : CborMap) (s s' : σ)
    (t : PushTree), pushFields register blobs fields m s = .ok (t, s') → DefinedFields fields m →
      ∃ entries, ReadsEach stateTag t (presentCount fields m) entries ∧
        HoldsFields CName fields m entries
  | [], m, s, s', t, h, _ => by
    cases h
    exact ⟨[], readsEach_nil, rfl⟩
  | (name, schema) :: rest, m, s, s', t, h, hdefined => by
    obtain ⟨hcounted, hvalue, hrestDefined⟩ := hdefined
    obtain ⟨habsent, hrest⟩ | ⟨hthere, nodes, s₁, more, s₂, hnodes, hmore, rfl⟩ := push_field_ok h
    · obtain ⟨entries, heach, hentries⟩ := pushFields_reads rest m s s' t hrest hrestDefined
      obtain ⟨-, hcontains, hundefined⟩ | ⟨hcount, -⟩ := @presentCount_absent name schema rest m
        habsent
      · exact absurd hundefined (hcounted hcontains)
      · refine ⟨entries, hcount ▸ heach, ?_⟩
        rw [HoldsFields, if_pos habsent]
        exact hentries
    · obtain ⟨head, tail, r, rfl, hreads, hholds⟩ :=
        cborToPushTree_reads schema _ s s₁ nodes hnodes hvalue
      obtain ⟨entries, heach, hentries⟩ := pushFields_reads rest m s₁ s₂ more hmore hrestDefined
      have hboth := ReadsEach.cons hreads heach
        (f := fun n => { n with key := utf8 name.toText }) fun _ => rfl
      rw [presentCount_there hthere]
      refine ⟨_, hboth, ?_⟩
      rw [HoldsFields, if_neg (Bool.eq_false_iff.1 hthere)]
      exact ⟨_, r, entries, rfl, rfl, hholds, hentries⟩

end

end Reads

/-! ## Own names -/

theorem cString_eq_iff {text : List UInt8} : cString text = text ↔ 0 ∉ text := by
  rw [cString, List.takeWhile_eq_self_iff]
  constructor
  · intro h hmem
    exact absurd (h 0 hmem) (by decide)
  · intro h b hb
    exact decide_eq_true fun heq => h (heq ▸ hb)

/-- The key of the second pass is the name, where that is a text without a NUL. -/
theorem ownName_iff {name : CborKey} {key : LuaKey} (h : CName name key) :
    OwnName name key ↔ (∃ text, name = .text text) ∧ 0 ∉ utf8 name.toText := by
  rw [← cString_eq_iff]
  obtain rfl : key = .name (cString (utf8 name.toText)) := h
  constructor
  · rintro ⟨text, rfl, hkey⟩
    exact ⟨⟨text, rfl⟩, LuaKey.name.inj hkey⟩
  · rintro ⟨⟨text, rfl⟩, hname⟩
    exact ⟨text, rfl, congrArg LuaKey.name hname⟩

theorem holdsItems_iff {holds holds' : CborValue → LuaValue → Prop} {named : CborValue → Prop}
    (h : ∀ item v, holds item v → (holds' item v ↔ named item)) {i : Nat} {items : List CborValue}
    {entries : List (LuaKey × LuaValue)} (hentries : HoldsItems holds i items entries) :
    HoldsItems holds' i items entries ↔ ∀ item ∈ items, named item := by
  induction items generalizing i entries with
  | nil => exact iff_of_true hentries (List.forall_mem_nil _)
  | cons item rest ih =>
    obtain ⟨v, more, rfl, hv, hmore⟩ := hentries
    rw [List.forall_mem_cons, ← h item v hv, ← ih hmore]
    constructor
    · rintro ⟨v', more', heq, hv', hmore'⟩
      cases heq
      exact ⟨hv', hmore'⟩
    · rintro ⟨hv', hmore'⟩
      exact ⟨v, more, rfl, hv', hmore'⟩

mutual

/-- A value whose tables have the keys of the second pass has the names as keys, where these are
texts without a NUL. -/
theorem holds_ownName_iff : ∀ (schema : Schema) (value : CborValue) (v : LuaValue),
    Holds CName schema value v → (Holds OwnName schema value v ↔ Named schema value)
  | .plain type optional, value, v, h => by
    rw [Holds] at h ⊢
    exact iff_of_true h trivial
  | .list item optional, value, v, h => by
    rw [Holds] at h ⊢
    split at h
    · next habsent => exact iff_of_true ((if_pos habsent).mpr h) (defined_absent habsent).2
    · next hthere =>
      obtain ⟨items, entries, rfl, rfl, hentries⟩ := h
      have hiff := holdsItems_iff (fun v r hr => holds_ownName_iff item v r hr) hentries
      rw [if_neg hthere]
      refine ⟨?_, fun hnamed => ⟨items, entries, rfl, rfl, hiff.2 hnamed⟩⟩
      rintro ⟨items', entries', hitems, htable, hown⟩
      cases hitems
      cases htable
      exact hiff.1 hown
  | .object fields optional, value, v, h => by
    rw [Holds] at h ⊢
    split at h
    · next habsent => exact iff_of_true ((if_pos habsent).mpr h) (defined_absent habsent).2
    · next hthere =>
      obtain ⟨m, entries, rfl, rfl, hentries⟩ := h
      have hiff := holdsFields_ownName_iff fields m entries hentries
      rw [if_neg hthere]
      refine ⟨?_, fun hnamed => ⟨m, entries, rfl, rfl, hiff.2 hnamed⟩⟩
      rintro ⟨m', entries', hm, htable, hown⟩
      cases hm
      cases htable
      exact hiff.1 hown

theorem holdsFields_ownName_iff : ∀ (fields : List (CborKey × Schema)) (m : CborMap)
    (entries : List (LuaKey × LuaValue)), HoldsFields CName fields m entries →
      (HoldsFields OwnName fields m entries ↔ NamedFields fields m)
  | [], _, _, h => iff_of_true h trivial
  | (name, schema) :: rest, m, entries, h => by
    rw [HoldsFields] at h ⊢
    rw [NamedFields]
    split at h
    · next habsent =>
      rw [if_pos habsent, holdsFields_ownName_iff rest m entries h]
      have hnamed := (@defined_absent schema _ habsent).2
      exact ⟨fun hrest => ⟨fun hf => absurd (hf.symm.trans habsent) Bool.false_ne_true, hnamed,
        hrest⟩, fun hall => hall.2.2⟩
    · next hthere =>
      obtain ⟨key, v, more, rfl, hkey, hv, hmore⟩ := h
      have hname := ownName_iff hkey
      have hvalue := holds_ownName_iff schema _ v hv
      have hrest := holdsFields_ownName_iff rest m more hmore
      rw [if_neg hthere, ← hvalue, ← hrest]
      constructor
      · rintro ⟨key', v', more', heq, hown, hv', hmore'⟩
        cases heq
        exact ⟨fun _ => hname.1 hown, hv', hmore'⟩
      · rintro ⟨hown, hv', hmore'⟩
        exact ⟨key, v, more, rfl, hname.2 (hown (Bool.not_eq_true _ ▸ hthere)), hv', hmore'⟩

end

/-! ## Soundness -/

section Sound

variable {σ β : Type} {register : σ → β → Int × σ} {blobs : List β}

/-- **A tree that was built is read node by node to the right table exactly if no declared field is
`undefined` and every name is a text without a NUL.** An `undefined` field is counted as a child and
not written, and the reader runs behind the end. -/
theorem push_tree_sound_iff {schema : Schema} {value : CborValue} {s s' : σ} {tree : PushTree}
    (stateTag : Nat) (h : cborToPushTree register blobs schema value s = .ok (tree, s')) :
    PushSound stateTag schema value tree ↔ Defined schema value ∧ Named schema value := by
  have hread : Defined schema value → ∃ v, pushNodeValue stateTag tree tree.length 0
      = some ⟨v, tree.length, List.range tree.length⟩ ∧ Holds CName schema value v := by
    intro hdefined
    obtain ⟨head, rest, v, rfl, hreads, hholds⟩ :=
      cborToPushTree_reads schema value s s' tree h hdefined
    have hvalue : pushNodeValue stateTag _ _ _ = _ := hreads id [] [] _ (fun _ => rfl) le_rfl
    rw [List.append_nil, List.length_nil, Nat.zero_add, ← List.range_eq_range'] at hvalue
    exact ⟨v, hvalue, hholds⟩
  constructor
  · rintro ⟨v, hvalue, hown⟩
    have hdefined : Defined schema value := by
      have hcount := arities_pushNodeValue hvalue
      dsimp only at hcount
      rw [List.take_length, List.take_zero, arities_nil] at hcount
      exact (cborToPushTree_balanced schema value s s' tree h).2.1 (by omega)
    obtain ⟨v', hvalue', hholds⟩ := hread hdefined
    obtain rfl : v = v' := congrArg NodeRead.value (Option.some.inj (hvalue.symm.trans hvalue'))
    exact ⟨hdefined, (holds_ownName_iff schema value v hholds).1 hown⟩
  · rintro ⟨hdefined, hnamed⟩
    obtain ⟨v, hvalue, hholds⟩ := hread hdefined
    exact ⟨v, hvalue, (holds_ownName_iff schema value v hholds).2 hnamed⟩

end Sound

/-- The blobs of a state are numbered. -/
def countBlobs (s : Nat) (_ : Unit) : Int × Nat := (s, s + 1)

/-- An object of one optional flag. -/
def flagSchema : Schema := .object [(.text "a", .plain .bool true)] false

theorem push_tree_sound_flag :
    cborToPushTree countBlobs [] flagSchema (.map [(.text "a", .bool true)]) 0
      = .ok ([{ value := .table 1 }, { value := .bool true, key := utf8 "a" }], 0) ∧
    PushSound 7 flagSchema (.map [(.text "a", .bool true)])
      [{ value := .table 1 }, { value := .bool true, key := utf8 "a" }] := by
  have hpush : cborToPushTree countBlobs [] flagSchema (.map [(.text "a", .bool true)]) 0
      = .ok ([{ value := .table 1 }, { value := .bool true, key := utf8 "a" }], 0) := rfl
  refine ⟨hpush, (push_tree_sound_iff 7 hpush).2
    ⟨⟨?_, trivial, trivial⟩, ⟨?_, trivial, trivial⟩⟩⟩
  · intro _ h
    cases h
  · exact fun _ => ⟨⟨"a", rfl⟩, by decide⟩

/-- One child is promised where there is none. -/
theorem undefined_field_reads_past_end :
    cborToPushTree countBlobs [] flagSchema (.map [(.text "a", .undefined)]) 0
      = .ok ([{ value := .table 1 }], 0) ∧
    ∀ depth, pushNodeValue 7 [{ value := .table 1 }] depth 0 = none := by
  refine ⟨rfl, fun depth => ?_⟩
  cases depth <;> rfl

end GpgFrontend.Lua
