import GpgFrontend.Utils.KeyDatabaseThreads

/-!
# The key databases page (`KeyDatabaseSettingsModel.h`)

What the page holds until it is applied: the built-in database, those of the profile and those
of this computer, those of the profile that were removed and may be put back, and the choice of
the default.

- `composeKeyDatabaseList`, `resolveDefaultKeyDatabaseId`: what the page shares with the core.
- `KeyDatabaseSettingsModel`: the collections, and one definition for each operation.

The engine of the built-in database is left out: it is kept beside the lists and no operation
on them reads it.
-/

namespace GpgFrontend

structure KeyDatabaseInfo where
  id : QString := []
  channel : Int32 := -1
  name : QString := []
  path : QString := []
  originPath : QString := []
  valid : Bool := false
  backendType : QString := []
  kind : KeyDatabaseKind := .external
  deriving DecidableEq

/-- `KeyDatabaseItemSO(KeyDatabaseInfo)`. -/
def KeyDatabaseItemSO.ofInfo (i : KeyDatabaseInfo) : KeyDatabaseItemSO where
  id := i.id
  name := i.name
  path := if i.originPath = [] then i.path else i.originPath
  channel := i.channel
  backendType := i.backendType
  kind := some i.kind

def composeKeyDatabaseList (defaultDb : Option KeyDatabaseItemSO)
    (managed external : List KeyDatabaseItemSO) : List KeyDatabaseItemSO :=
  (defaultDb.toList ++ managed ++ external).mapIdx fun i item =>
    { item with channel := Int32.ofNat i }

def resolveDefaultKeyDatabaseId (chosen : QString) (keyDbs : List KeyDatabaseItemSO) : QString :=
  if chosen ≠ [] && keyDbs.any (·.id = chosen) then chosen
  else match keyDbs.find? (·.kind = some .default) with
    | some item => item.id
    | none => (keyDbs.head?.map (·.id)).getD []

structure KeyDatabaseSettingsModel where
  builtin : Option KeyDatabaseInfo := none
  managed : List KeyDatabaseInfo := []
  external : List KeyDatabaseInfo := []
  removedManaged : List KeyDatabaseInfo := []
  choiceId : QString := []
  deriving DecidableEq

/-- Which of the two lists an operation is given. -/
inductive KeyDatabaseTable
  | managed | external
  deriving Repr, DecidableEq

/-- `list.move(from, to)`. -/
def moveItem {α : Type} (list : List α) (from_ to_ : Nat) : List α :=
  match list[from_]? with
  | some x => (list.eraseIdx from_).insertIdx to_ x
  | none => list

/-- `MoveRow`: the list, and the new row. -/
def moveRow {α : Type} (list : List α) (from_ insertAt : Int) : List α × Int :=
  let size : Int := list.length
  if from_ < 0 ∨ from_ ≥ size ∨ insertAt < 0 ∨ insertAt > size then (list, -1)
  else
    let to_ := if insertAt > from_ then insertAt - 1 else insertAt
    if to_ = from_ then (list, -1) else (moveItem list from_.toNat to_.toNat, to_)

namespace KeyDatabaseSettingsModel

variable (m : KeyDatabaseSettingsModel)

/-- The loop of `Load` for one database. -/
def place (info : KeyDatabaseInfo) : KeyDatabaseSettingsModel :=
  match info.kind with
  | .default => { m with builtin := some info }
  | .managed => { m with managed := m.managed ++ [info] }
  | .external => { m with external := m.external ++ [info] }

/-- `Load`. -/
def load (all : List KeyDatabaseInfo) (storedChoice : QString) : KeyDatabaseSettingsModel :=
  { all.foldl place {} with choiceId := storedChoice }

/-- `Compose`. -/
def compose : List KeyDatabaseItemSO :=
  composeKeyDatabaseList (m.builtin.map .ofInfo) (m.managed.map .ofInfo) (m.external.map .ofInfo)

/-- `find`. -/
def find (id : QString) : Option KeyDatabaseInfo :=
  if id = [] then none
  else match m.builtin.filter (·.id = id) with
    | some info => some info
    | none =>
      match m.managed.find? (·.id = id) with
      | some info => some info
      | none => m.external.find? (·.id = id)

/-- `is_usable`. -/
def isUsable (id : QString) : Bool :=
  match m.find id with
  | some info => info.path ≠ []
  | none => false

/-- `EffectiveDefaultId`. -/
def effectiveDefaultId : QString :=
  let items := m.compose
  let resolved := resolveDefaultKeyDatabaseId m.choiceId items
  if m.isUsable resolved then resolved
  else match items.find? (fun item => m.isUsable item.id) with
    | some item => item.id
    | none => resolved

/-- `Contains`. -/
def contains (id : QString) : Bool := (m.find id).isSome

/-- `CanUseAsDefault`. -/
def canUseAsDefault (id : QString) : Bool :=
  id ≠ [] && m.contains id && id ≠ m.effectiveDefaultId

/-- `UseAsDefault`. -/
def useAsDefault (id : QString) : KeyDatabaseSettingsModel × Bool :=
  if !m.canUseAsDefault id then (m, false) else ({ m with choiceId := id }, true)

/-- `SetBuiltIn`. -/
def setBuiltIn (info : Option KeyDatabaseInfo) : KeyDatabaseSettingsModel :=
  if info = none ∧ m.choiceId = defaultKeyDatabaseId then
    { m with choiceId := [], builtin := info }
  else { m with builtin := info }

/-- The list an operation is given. -/
def list : KeyDatabaseTable → List KeyDatabaseInfo
  | .managed => m.managed
  | .external => m.external

def setList (list : List KeyDatabaseInfo) : KeyDatabaseTable → KeyDatabaseSettingsModel
  | .managed => { m with managed := list }
  | .external => { m with external := list }

/-- `RemoveAt`. -/
def removeAt (table : KeyDatabaseTable) (row : Int) : KeyDatabaseSettingsModel :=
  if row < 0 then m
  else match (m.list table)[row.toNat]? with
    | none => m
    | some info =>
      let choice := if m.choiceId ≠ [] ∧ info.id = m.choiceId then [] else m.choiceId
      let removed :=
        if table = .managed then m.removedManaged ++ [info] else m.removedManaged
      { m with choiceId := choice, removedManaged := removed }.setList
        ((m.list table).eraseIdx row.toNat) table

/-- `UndoRemoval`. -/
def undoRemoval (id : QString) : KeyDatabaseSettingsModel × Bool :=
  match m.removedManaged.find? (·.id = id) with
  | none => (m, false)
  | some info =>
    ({ m with
        managed := m.managed ++ [info]
        removedManaged := m.removedManaged.eraseP (·.id = id) }, true)

/-- `CommitRemoval`, with the stored list it changes. -/
def commitRemoval (id : QString) (listSo : KeyDatabaseListSO) :
    KeyDatabaseSettingsModel × KeyDatabaseListSO × Bool :=
  match m.removedManaged.find? (·.id = id) with
  | none => (m, listSo, false)
  | some _ =>
    ({ m with removedManaged := m.removedManaged.eraseP (·.id = id) },
      { keyDatabases := listSo.keyDatabases.filter (·.id ≠ id)
        defaultDatabaseId :=
          if listSo.defaultDatabaseId = id then [] else listSo.defaultDatabaseId },
      true)

/-- `MoveRow` on one of the lists. -/
def moveRowOf (table : KeyDatabaseTable) (from_ insertAt : Int) : KeyDatabaseSettingsModel :=
  m.setList (moveRow (m.list table) from_ insertAt).1 table

/-- `ApplyTo`. -/
def applyTo (_ : KeyDatabaseListSO) : KeyDatabaseListSO where
  keyDatabases := m.compose
  defaultDatabaseId := m.choiceId

/-- The databases in the list as it stands. -/
def databases : List KeyDatabaseInfo := m.builtin.toList ++ m.managed ++ m.external

end KeyDatabaseSettingsModel

/-! ## The page -/

inductive PageOp
  | setBuiltIn (info : Option KeyDatabaseInfo)
  | removeAt (table : KeyDatabaseTable) (row : Int)
  | undoRemoval (id : QString)
  | commitRemoval (id : QString) (listSo : KeyDatabaseListSO)
  | moveRow (table : KeyDatabaseTable) (from_ insertAt : Int)
  | useAsDefault (id : QString)
  deriving DecidableEq

/-- The model, and what was done on the page: which removals were committed, whether the choice
was made here, and the id of a `UseAsDefault` that has just returned true. -/
structure Page where
  model : KeyDatabaseSettingsModel
  committed : List QString := []
  chosenHere : Bool := false
  used : Option QString := none
  deriving DecidableEq

def Page.load (all : List KeyDatabaseInfo) (storedChoice : QString) : Page where
  model := .load all storedChoice

def Page.step (p : Page) : PageOp → Page
  | .setBuiltIn info => { p with model := p.model.setBuiltIn info, used := none }
  | .removeAt table row => { p with model := p.model.removeAt table row, used := none }
  | .undoRemoval id => { p with model := (p.model.undoRemoval id).1, used := none }
  | .commitRemoval id listSo =>
    let (model, _, returned) := p.model.commitRemoval id listSo
    { p with
      model := model
      committed := if returned then id :: p.committed else p.committed
      used := none }
  | .moveRow table from_ insertAt =>
    { p with model := p.model.moveRowOf table from_ insertAt, used := none }
  | .useAsDefault id =>
    let (model, returned) := p.model.useAsDefault id
    { p with
      model := model
      chosenHere := p.chosenHere || returned
      used := if returned then some id else none }

end GpgFrontend
