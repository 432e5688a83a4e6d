import GpgFrontend.Base.JsonText

/-!
# Variants (`QVariant`) and their place in JSON
-/

namespace GpgFrontend

/-- `QVariant`, by what `QJsonValue` tells apart. A double is none where it is not finite; an
integer is of any type of up to 64 bits; `other` is a value of any other type, a byte array
or a date, as its `toString()`. -/
inductive QVariant where
  | invalid
  | null
  | bool (value : Bool)
  | integer (value : Int)
  | double (value : Option ℚ)
  | string (value : String)
  | stringList (values : List String)
  | list (items : List QVariant)
  | map (members : List (String × QVariant))
  | other (text : String)

namespace JsonValue

mutual

/-- `QJsonValue::fromVariant`. -/
def fromVariant : QVariant → JsonValue
  | .invalid => .null
  | .null => .null
  | .bool value => .bool value
  | .integer n => .number (if FitsLong n then n else roundToDouble n)
  | .double value => value.elim .null .number
  | .string value => .string value
  | .stringList values => .array (values.map .string)
  | .list items => .array (fromVariants items)
  | .map members => .object (fromMembers members)
  | .other text => if text = "" then .null else .string text

/-- `QJsonArray::fromVariantList`. -/
def fromVariants : List QVariant → List JsonValue
  | [] => []
  | v :: rest => fromVariant v :: fromVariants rest

/-- `QJsonObject::fromVariantMap`. -/
def fromMembers : List (String × QVariant) → JsonObject
  | [] => []
  | (key, v) :: rest => (key, fromVariant v) :: fromMembers rest

end

/-- A number as the reader of JSON stores it: whole and of 64 bits, or a double. -/
def numberVariant (q : ℚ) : QVariant :=
  if q.den = 1 ∧ FitsLong q.num then .integer q.num else .double (some q)

mutual

/-- `QJsonValue::toVariant`. -/
def toVariant : JsonValue → QVariant
  | .null => .null
  | .bool value => .bool value
  | .number q => numberVariant q
  | .string value => .string value
  | .array items => .list (toVariants items)
  | .object members => .map (toMembers members)

def toVariants : List JsonValue → List QVariant
  | [] => []
  | v :: rest => toVariant v :: toVariants rest

def toMembers : List (String × JsonValue) → List (String × QVariant)
  | [] => []
  | (key, v) :: rest => (key, toVariant v) :: toMembers rest

end

/-- `QJsonValue::isObject`. -/
def isObject : JsonValue → Bool
  | .object _ => true
  | _ => false

/-- `QJsonValue::isArray`. -/
def isArray : JsonValue → Bool
  | .array _ => true
  | _ => false

theorem fromMembers_eq_map (members : List (String × QVariant)) :
    fromMembers members = members.map fun member => (member.1, fromVariant member.2) := by
  induction members with
  | nil => rfl
  | cons member rest ih =>
    obtain ⟨key, v⟩ := member
    rw [fromMembers, List.map_cons, ih]

theorem value_fromMembers (members : List (String × QVariant)) (key : String) :
    JsonObject.value (fromMembers members) key = (members.lookup key).map fromVariant := by
  induction members with
  | nil => rfl
  | cons member rest ih =>
    obtain ⟨name, v⟩ := member
    rw [fromMembers, JsonObject.value, List.lookup_cons, List.lookup_cons]
    cases key == name with
    | true => rfl
    | false => exact ih

end JsonValue

namespace QVariant

open JsonValue

/-- What JSON makes of a value that stands for itself: nothing of a list or a map. -/
def carried : QVariant → Option QVariant
  | invalid => some null
  | null => some null
  | bool value => some (bool value)
  | integer n => some (numberVariant (if FitsLong n then n else roundToDouble n))
  | double value => some (value.elim null numberVariant)
  | string value => some (string value)
  | stringList _ => none
  | list _ => none
  | map _ => none
  | other text => some (if text = "" then null else string text)

theorem carried_eq (v : QVariant) :
    v.carried = if (fromVariant v).isObject || (fromVariant v).isArray then none
      else some (fromVariant v).toVariant := by
  cases v with
  | double value => cases value <;> rfl
  | other text =>
    rw [carried, fromVariant]
    split <;> rfl
  | _ => rfl

end QVariant

end GpgFrontend
