import GpgFrontend.Base.Double

/-!
# CBOR values (`QCborValue`, `QCborMap`)

A map keeps its members in the order they were put in; what is read of a missing one is
`undefined`, which a map may also hold.

- `CborValue`, `CborKey`, `CborMap`; `Binary64`: a double, its sign of zero aside.
- `CborMap.value`, `CborMap.contains`, `CborMap.insert`.
-/

namespace GpgFrontend

/-- A double. -/
inductive Binary64 where
  | finite (value : ℚ)
  | infinite (negative : Bool)
  | nan
  deriving DecidableEq

/-- The double nearest to a whole number. -/
def Binary64.ofInt (n : Int) : Binary64 := .finite (roundToDouble n)

/-- A key of a map: a text, or something else. -/
inductive CborKey where
  | text (name : String)
  | other (code : Nat)
  deriving Repr, DecidableEq

/-- `toString`: nothing for what is not a text. -/
def CborKey.toText : CborKey → String
  | text name => name
  | other _ => ""

inductive CborValue where
  | null
  | undefined
  | bool (value : Bool)
  | integer (value : Int)
  | double (value : Binary64)
  | text (value : String)
  | bytes (value : List UInt8)
  | array (items : List CborValue)
  | map (members : List (CborKey × CborValue))
  | other (code : Nat)

abbrev CborMap : Type := List (CborKey × CborValue)

namespace CborValue

/-- `isNull() || isUndefined()`. -/
def isAbsent : CborValue → Bool
  | null => true
  | undefined => true
  | _ => false

def isNull : CborValue → Bool
  | null => true
  | _ => false

/-- `toMap`. -/
def toMap : CborValue → CborMap
  | map members => members
  | _ => []

end CborValue

namespace CborMap

def value (m : CborMap) (key : CborKey) : CborValue := (m.lookup key).getD .undefined

def contains (m : CborMap) (key : CborKey) : Bool := (m.lookup key).isSome

/-- Over the member of that key, or behind all others. -/
def insert (m : CborMap) (key : CborKey) (v : CborValue) : CborMap :=
  match m with
  | [] => [(key, v)]
  | (name, w) :: rest => if name = key then (name, v) :: rest else (name, w) :: insert rest key v

end CborMap

end GpgFrontend
