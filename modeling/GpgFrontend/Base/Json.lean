import GpgFrontend.Base.Double
import GpgFrontend.Base.QMap

/-!
# JSON values

What `QJsonValue` holds: a number is a finite double or a whole number of 64 bits, an
object is its members sorted by name.
-/

namespace GpgFrontend

inductive JsonValue where
  | null
  | bool (value : Bool)
  | number (value : ℚ)
  | string (value : String)
  | array (items : List JsonValue)
  | object (members : List (String × JsonValue))

/-- `QJsonObject`. -/
abbrev JsonObject : Type := List (String × JsonValue)

namespace JsonValue

/-- `QJsonValue::toBool`. -/
def toBool : JsonValue → Option Bool
  | bool value => some value
  | _ => none

/-- What an `int` of 32 bits holds. -/
def FitsInt (n : Int) : Prop := -2147483648 ≤ n ∧ n < 2147483648

instance (n : Int) : Decidable (FitsInt n) := inferInstanceAs (Decidable (_ ∧ _))

/-- `QJsonValue::toInt`: a number that is not an `int` is none either. -/
def toInt : JsonValue → Option Int
  | number q => if q.den = 1 ∧ FitsInt q.num then some q.num else none
  | _ => none

/-- `QJsonValue::toDouble`. -/
def toDouble : JsonValue → Option ℚ
  | number q => some (if q.den = 1 then roundToDouble q.num else q)
  | _ => none

/-- `QJsonValue::toString`. -/
def toText : JsonValue → Option String
  | string value => some value
  | _ => none

/-- `QJsonValue::toArray`. -/
def toArray : JsonValue → List JsonValue
  | array items => items
  | _ => []

/-- `QJsonValue::toObject`. -/
def toObject : JsonValue → JsonObject
  | object members => members
  | _ => []

/-- A number that is not whole is a double, hence below 2^53. -/
def Stored : JsonValue → Prop
  | number q => q.den ≠ 1 → q.num.natAbs < 9007199254740992 * q.den
  | _ => True

theorem toInt_intCast {n : Int} (h : FitsInt n) : toInt (number n) = some n := by
  rw [toInt, if_pos ⟨Rat.den_intCast n, by rw [Rat.num_intCast]; exact h⟩, Rat.num_intCast]

theorem fitsInt_of_toInt {v : JsonValue} {n : Int} (h : toInt v = some n) : FitsInt n := by
  unfold toInt at h
  split at h
  · split at h
    · next hq =>
      obtain rfl := Option.some.inj h
      exact hq.2
    · cases h
  · cases h

end JsonValue

namespace JsonObject

variable {o : JsonObject} {key other : String} {v : JsonValue}

/-- `QJsonObject::value`. -/
def value (o : JsonObject) (key : String) : Option JsonValue := o.lookup key

@[simp] theorem value_nil (key : String) : value [] key = none := rfl

/-- `QJsonObject::insert`: at the key's place, over what is there. -/
def put (o : JsonObject) (key : String) (v : JsonValue) : JsonObject :=
  match o with
  | [] => [(key, v)]
  | (name, w) :: rest =>
    if key < name then (key, v) :: (name, w) :: rest
    else if key = name then (key, v) :: rest
    else (name, w) :: put rest key v

attribute [local simp] put

/-- As `QMap::insert` does. -/
theorem put_eq_insertEntry (o : JsonObject) (key : String) (v : JsonValue) :
    put o key v = QMap.insertEntry key v o := by
  induction o with
  | nil => rfl
  | cons member rest ih => rw [put, QMap.insertEntry, ih]

@[simp] theorem value_put_self (o : JsonObject) (key : String) (v : JsonValue) :
    value (put o key v) key = some v := by
  rw [put_eq_insertEntry]
  exact QMap.lookup_insertEntry_self o

@[simp] theorem value_put_ne (h : other ≠ key) : value (put o key v) other = value o other := by
  rw [put_eq_insertEntry]
  exact QMap.lookup_insertEntry_ne h o

/-- Taking out a key's member loses what was put there. -/
@[simp] theorem filter_put {p : String → Bool} (h : p key = false) :
    (put o key v).filter (fun member => p member.1) = o.filter fun member => p member.1 := by
  induction o with
  | nil => rw [put, List.filter_cons_of_neg (by rw [h]; exact Bool.false_ne_true)]
  | cons member rest ih =>
    unfold put
    split
    · rw [List.filter_cons_of_neg (by rw [h]; exact Bool.false_ne_true)]
    · split
      · next heq =>
        rw [List.filter_cons_of_neg (by rw [h]; exact Bool.false_ne_true),
          List.filter_cons_of_neg (by rw [← heq, h]; exact Bool.false_ne_true)]
      · rw [List.filter_cons, List.filter_cons, ih]

/-! ## Members of a type -/

variable (o key)

/-- `value(key).toInt()` and the others, none where they fall back on their default. -/
def int : Option Int := (value o key).bind JsonValue.toInt
def double : Option ℚ := (value o key).bind JsonValue.toDouble
def text : Option String := (value o key).bind JsonValue.toText
def bool : Option Bool := (value o key).bind JsonValue.toBool
def array : List JsonValue := ((value o key).map JsonValue.toArray).getD []
def object : JsonObject := ((value o key).map JsonValue.toObject).getD []

/-- A member that there is a value for. -/
def putSome (v : Option JsonValue) : JsonObject := v.elim o (put o key)

variable {o key}

theorem filter_putSome {p : String → Bool} {v : Option JsonValue} (h : p key = false) :
    (putSome o key v).filter (fun member => p member.1) = o.filter fun member => p member.1 := by
  cases v with
  | none => rfl
  | some v => exact filter_put h

theorem fitsInt_of_int {d : Int} (hd : JsonValue.FitsInt d) :
    JsonValue.FitsInt ((o.int key).getD d) := by
  cases h : o.int key with
  | none => exact hd
  | some n =>
    obtain ⟨v, -, hv⟩ := Option.bind_eq_some_iff.mp h
    exact JsonValue.fitsInt_of_toInt hv

/-- A member that is kept is found among those that are. -/
theorem value_filter {p : String → Bool} (h : p key = true) :
    value (o.filter fun member => p member.1) key = value o key := by
  induction o with
  | nil => rfl
  | cons member rest ih =>
    rw [List.filter_cons]
    split
    · rw [value, value, List.lookup_cons, List.lookup_cons]
      split
      · rfl
      · exact ih
    · next hp =>
      have hne : (key == member.1) = false :=
        beq_false_of_ne fun heq => hp (heq ▸ h)
      rw [ih, value, value, List.lookup_cons, hne]

end JsonObject

/-! ## Paths -/

/-- A member of an object, or an item of an array. -/
inductive JsonStep where
  | key (name : String)
  | index (i : Nat)
  deriving Repr, DecidableEq

/-- What lies at the end of a path. -/
def JsonValue.at? : List JsonStep → JsonValue → Option JsonValue
  | [], v => some v
  | .key name :: path, .object members => (JsonObject.value members name).bind (at? path)
  | .index i :: path, .array items => items[i]?.bind (at? path)
  | _ :: _, _ => none

/-- A value without members or items. -/
def JsonValue.IsLeaf : JsonValue → Prop
  | .array _ | .object _ => False
  | _ => True

/-- An object whose members are leaves. -/
def JsonObject.Flat (o : JsonObject) : Prop := ∀ ⦃key v⦄, o.value key = some v → v.IsLeaf

theorem JsonObject.Flat.nil : JsonObject.Flat [] := fun _ _ h => by cases h

theorem JsonObject.Flat.put {o : JsonObject} (h : o.Flat) (key : String) (v : JsonValue)
    (hv : v.IsLeaf) : (JsonObject.put o key v).Flat := by
  intro name w hw
  by_cases hname : name = key
  · rw [hname, JsonObject.value_put_self] at hw
    exact Option.some.inj hw ▸ hv
  · rw [JsonObject.value_put_ne hname] at hw
    exact h hw

namespace JsonValue

theorem at?_leaf {v : JsonValue} (h : v.IsLeaf) (step : JsonStep) (path : List JsonStep) :
    at? (step :: path) v = none := by
  cases v with
  | array items => exact h.elim
  | object members => exact h.elim
  | null => cases step <;> rfl
  | bool value => cases step <;> rfl
  | number value => cases step <;> rfl
  | string value => cases step <;> rfl

/-- In a flat object a path ends at its first step. -/
theorem at?_flat {o : JsonObject} (h : o.Flat) {path : List JsonStep} {name : String}
    (hsome : at? (path ++ [.key name]) (.object o) ≠ none) :
    path = [] ∧ o.value name ≠ none := by
  cases path with
  | nil =>
    refine ⟨rfl, fun hnone => hsome ?_⟩
    rw [List.nil_append, at?, hnone, Option.bind_none]
  | cons step path =>
    exfalso
    apply hsome
    rw [List.cons_append]
    cases step with
    | index i => rfl
    | key k =>
      rw [at?]
      cases hv : o.value k with
      | none => rfl
      | some v =>
        have hpath : path ++ [.key name] ≠ [] := List.append_ne_nil_of_right_ne_nil _ (by simp)
        obtain ⟨step, rest, heq⟩ := List.exists_cons_of_ne_nil hpath
        rw [Option.bind_some, heq]
        exact at?_leaf (h hv) step rest

end JsonValue

/-! ## JSON text -/

/-- `QJsonDocument::JsonFormat`. -/
inductive JsonFormat where
  | compact
  | indented
  deriving Repr, DecidableEq

/-- `QJsonDocument`, for documents that are objects: `fromJson` yields nothing for bytes
that are not one, such as no bytes at all. -/
structure QJsonDocument where
  toJson : JsonFormat → JsonObject → List UInt8
  fromJson : List UInt8 → Option JsonObject
  fromJson_nil : fromJson [] = none

/-- The reader gives back this object. -/
def QJsonDocument.Keeps (qt : QJsonDocument) (format : JsonFormat) (o : JsonObject) : Prop :=
  qt.fromJson (qt.toJson format o) = some o

theorem QJsonDocument.Keeps.ne_nil {qt : QJsonDocument} {format : JsonFormat} {o : JsonObject}
    (h : qt.Keeps format o) : qt.toJson format o ≠ [] := by
  intro hnil
  rw [Keeps, hnil, qt.fromJson_nil] at h
  cases h

/-- A reader that knows two documents, by one byte each: a toy for concrete runs. -/
def labelJson (first second : JsonObject) : QJsonDocument where
  toJson
    | .compact, _ => [1]
    | .indented, _ => [2]
  fromJson
    | [1] => some first
    | [2] => some second
    | _ => none
  fromJson_nil := rfl

end GpgFrontend
