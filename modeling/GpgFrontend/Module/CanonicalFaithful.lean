import GpgFrontend.Base.JsonTree
import GpgFrontend.Module.ManifestRoundTrip

/-!
# When canonical JSON is faithful

What is signed is what is read again, as long as every character of a value is one UTF-16 unit.
`QJsonObject` keeps its members sorted, so that a value here has them in one order only.

- `unitwise_eq_self_iff`: a value comes through exactly if its texts do.
- `canonical_json_faithful_iff`: **both values are read back, and the same bytes are the same
  value, exactly if no text of the two holds a character beyond U+FFFF.**
-/

namespace GpgFrontend

/-! ## The texts of a value -/

namespace JsonValue

mutual

/-- The strings and names in a value, at any depth. -/
def texts : JsonValue → List String
  | .string s => [s]
  | .array items => itemTexts items
  | .object members => memberTexts members
  | _ => []

def itemTexts : List JsonValue → List String
  | [] => []
  | v :: rest => v.texts ++ itemTexts rest

def memberTexts : List (String × JsonValue) → List String
  | [] => []
  | member :: rest => member.1 :: (member.2.texts ++ memberTexts rest)

end

theorem mem_itemTexts {s : String} {items : List JsonValue} :
    s ∈ itemTexts items ↔ ∃ v ∈ items, s ∈ v.texts := by
  induction items with
  | nil => simp [itemTexts]
  | cons v rest ih => rw [itemTexts, List.mem_append, ih, List.exists_mem_cons_iff]

theorem mem_memberTexts {s : String} {members : JsonObject} :
    s ∈ memberTexts members ↔ ∃ member ∈ members, s = member.1 ∨ s ∈ member.2.texts := by
  induction members with
  | nil => simp [memberTexts]
  | cons member rest ih =>
    rw [memberTexts, List.mem_cons, List.mem_append, ih, List.exists_mem_cons_iff, or_assoc]

mutual

/-- Every number is whole, of 64 bits, and a double as it stands. -/
def WholeNumbers : JsonValue → Prop
  | .number q => q.den = 1 ∧ FitsLong q.num ∧ roundToDouble q.num = q.num
  | .array items => WholeItems items
  | .object members => WholeMembers members
  | _ => True

def WholeItems : List JsonValue → Prop
  | [] => True
  | v :: rest => v.WholeNumbers ∧ WholeItems rest

def WholeMembers : List (String × JsonValue) → Prop
  | [] => True
  | member :: rest => member.2.WholeNumbers ∧ WholeMembers rest

end

/-- No text of a value holds a character of two UTF-16 units. -/
def OneUnitTexts (v : JsonValue) : Prop := ∀ s ∈ v.texts, OneUnitEach s

instance (v : JsonValue) : Decidable v.OneUnitTexts := List.decidableBAll _ _

end JsonValue

open JsonValue

/-! ## What comes through -/

mutual

/-- The texts that a reader finds are of one unit each. -/
theorem oneUnitTexts_unitwise (v : JsonValue) : v.unitwise.OneUnitTexts := by
  match v with
  | .null | .bool _ | .number _ =>
    intro s hs
    cases hs
  | .string text =>
    intro s hs
    rw [List.mem_singleton.1 hs]
    exact oneUnitEach_unitwise text
  | .array items =>
    intro s hs
    obtain ⟨w, hw, hs⟩ := mem_itemTexts.1 hs
    exact oneUnitTexts_itemsUnitwise items w hw s hs
  | .object members =>
    intro s hs
    obtain ⟨member, hmember, hs⟩ := mem_memberTexts.1 hs
    obtain ⟨hname, hvalue⟩ := oneUnitTexts_membersUnitwise members member (mem_objectOf hmember)
    rcases hs with rfl | hs
    · exact hname
    · exact hvalue s hs

theorem oneUnitTexts_itemsUnitwise (items : List JsonValue) :
    ∀ w ∈ itemsUnitwise items, w.OneUnitTexts := by
  match items with
  | [] => exact List.forall_mem_nil _
  | v :: rest =>
    exact List.forall_mem_cons.2 ⟨oneUnitTexts_unitwise v, oneUnitTexts_itemsUnitwise rest⟩

theorem oneUnitTexts_membersUnitwise (members : List (String × JsonValue)) :
    ∀ member ∈ membersUnitwise members, OneUnitEach member.1 ∧ member.2.OneUnitTexts := by
  match members with
  | [] => exact List.forall_mem_nil _
  | (key, v) :: rest =>
    exact List.forall_mem_cons.2
      ⟨⟨oneUnitEach_unitwise key, oneUnitTexts_unitwise v⟩, oneUnitTexts_membersUnitwise rest⟩

end

mutual

/-- Where the texts come through and the members are in order, the value does. -/
theorem unitwise_of_oneUnitTexts (v : JsonValue) (horder : v.InOrder) (hwhole : v.WholeNumbers)
    (htexts : v.OneUnitTexts) : v.unitwise = v := by
  match v with
  | .null | .bool _ => rfl
  | .number q =>
    obtain ⟨hden, -, hround⟩ := hwhole
    rw [JsonValue.unitwise, if_pos hden, hround, Rat.coe_int_num_of_den_eq_one hden]
  | .string s =>
    rw [JsonValue.unitwise, unitwise_eq_self_iff.2 (htexts s (List.mem_singleton.2 rfl))]
  | .array items => rw [JsonValue.unitwise, itemsUnitwise_of_oneUnitTexts items horder hwhole htexts]
  | .object members =>
    obtain ⟨hsorted, hmembers⟩ := horder
    rw [JsonValue.unitwise, membersUnitwise_of_oneUnitTexts members hmembers hwhole htexts,
      objectOf_sorted hsorted]

theorem itemsUnitwise_of_oneUnitTexts (items : List JsonValue) (horder : ItemsInOrder items)
    (hwhole : WholeItems items) (htexts : ∀ s ∈ itemTexts items, OneUnitEach s) :
    itemsUnitwise items = items := by
  match items with
  | [] => rfl
  | v :: rest =>
    obtain ⟨hfirst, hlater⟩ := List.forall_mem_append.1 htexts
    rw [itemsUnitwise, unitwise_of_oneUnitTexts v horder.1 hwhole.1 hfirst,
      itemsUnitwise_of_oneUnitTexts rest horder.2 hwhole.2 hlater]

theorem membersUnitwise_of_oneUnitTexts (members : List (String × JsonValue))
    (horder : MembersInOrder members) (hwhole : WholeMembers members)
    (htexts : ∀ s ∈ memberTexts members, OneUnitEach s) : membersUnitwise members = members := by
  match members with
  | [] => rfl
  | (key, v) :: rest =>
    obtain ⟨hkey, hothers⟩ := List.forall_mem_cons.1 htexts
    obtain ⟨hfirst, hlater⟩ := List.forall_mem_append.1 hothers
    rw [membersUnitwise, unitwise_eq_self_iff.2 hkey,
      unitwise_of_oneUnitTexts v horder.1 hwhole.1 hfirst,
      membersUnitwise_of_oneUnitTexts rest horder.2 hwhole.2 hlater]

end

/-- A value `CanonicalJson` is for: as `QJsonValue` holds it, with whole numbers. -/
structure CanonicalInput (v : JsonValue) : Prop where
  inOrder : v.InOrder
  whole : v.WholeNumbers

/-- **A value comes through exactly if each of its texts does.** -/
theorem unitwise_eq_self_iff_texts {v : JsonValue} (hv : CanonicalInput v) :
    v.unitwise = v ↔ v.OneUnitTexts := by
  constructor
  · intro h
    rw [← h]
    exact oneUnitTexts_unitwise v
  · exact unitwise_of_oneUnitTexts v hv.inOrder hv.whole

/-! ## Nothing is refused -/

mutual

theorem canonicalValue_isSome (v : JsonValue) (hwhole : v.WholeNumbers) :
    (canonicalValue v).isSome = true := by
  match v with
  | .null | .bool _ | .string _ => rfl
  | .number q =>
    obtain ⟨hden, hfits, hround⟩ := hwhole
    have hnumber : canonicalNumber q = some (decimalText q.num) := by
      simp only [canonicalNumber, if_pos hden, hround, Rat.den_intCast, Rat.num_intCast, hfits,
        and_self, if_true]
    rw [canonicalValue, hnumber]
    rfl
  | .array items => rw [canonicalValue, Option.isSome_map, canonicalItems_isSome true items hwhole]
  | .object members =>
    rw [canonicalValue, Option.isSome_map, canonicalMembers_isSome true members hwhole]

theorem canonicalItems_isSome (first : Bool) (items : List JsonValue) (hwhole : WholeItems items) :
    (canonicalItems first items).isSome = true := by
  match items with
  | [] => rfl
  | v :: rest =>
    obtain ⟨text, htext⟩ := Option.isSome_iff_exists.1 (canonicalValue_isSome v hwhole.1)
    obtain ⟨later, hlater⟩ := Option.isSome_iff_exists.1 (canonicalItems_isSome false rest hwhole.2)
    simp only [canonicalItems, htext, hlater, Option.isSome_some]

theorem canonicalMembers_isSome (first : Bool) (members : List (String × JsonValue))
    (hwhole : WholeMembers members) : (canonicalMembers first members).isSome = true := by
  match members with
  | [] => rfl
  | (key, v) :: rest =>
    obtain ⟨text, htext⟩ := Option.isSome_iff_exists.1 (canonicalValue_isSome v hwhole.1)
    obtain ⟨later, hlater⟩ :=
      Option.isSome_iff_exists.1 (canonicalMembers_isSome false rest hwhole.2)
    simp only [canonicalMembers, htext, hlater, Option.isSome_some]

end

/-! ## Faithfulness -/

section Faithful

variable {fromJson : Bytes → Except String JsonValue} {v w : JsonValue}

/-- What is written for a value is parsed to it again. -/
def ParsesBack (fromJson : Bytes → Except String JsonValue) (v : JsonValue) : Prop :=
  ∃ bytes, canonicalJson v = some bytes ∧ fromJson bytes = .ok v

/-- Parsing yields the value unit by unit. -/
theorem fromJson_canonicalJson (hreads : ∀ text, ReadsJson fromJson text)
    (hv : v.WholeNumbers) :
    ∃ bytes, canonicalJson v = some bytes ∧ fromJson bytes = .ok v.unitwise := by
  obtain ⟨text, htext⟩ := Option.isSome_iff_exists.1 (canonicalValue_isSome v hv)
  exact ⟨utf8 text, by rw [canonicalJson, htext]; rfl,
    hreads text v.unitwise (readJson_canonicalValue htext)⟩

theorem parsesBack_iff (hreads : ∀ text, ReadsJson fromJson text) (hv : CanonicalInput v) :
    ParsesBack fromJson v ↔ v.OneUnitTexts := by
  obtain ⟨bytes, hbytes, hparsed⟩ := fromJson_canonicalJson hreads hv.whole
  rw [← unitwise_eq_self_iff_texts hv]
  constructor
  · rintro ⟨others, hothers, hback⟩
    obtain rfl : bytes = others := Option.some.inj (hbytes.symm.trans hothers)
    exact Except.ok.inj (hparsed.symm.trans hback)
  · intro h
    exact ⟨bytes, hbytes, h ▸ hparsed⟩

/-- The canonical form is faithful on two values: each is parsed back, and the same bytes are of
the same value. -/
def FaithfulOn (fromJson : Bytes → Except String JsonValue) (v w : JsonValue) : Prop :=
  ParsesBack fromJson v ∧ ParsesBack fromJson w ∧ (canonicalJson v = canonicalJson w → v = w)

/-- **The canonical form is faithful on two values exactly if every character in them is one
UTF-16 unit.** -/
theorem canonical_json_faithful_iff (hreads : ∀ text, ReadsJson fromJson text)
    (hv : CanonicalInput v) (hw : CanonicalInput w) :
    FaithfulOn fromJson v w ↔ v.OneUnitTexts ∧ w.OneUnitTexts := by
  rw [← parsesBack_iff hreads hv, ← parsesBack_iff hreads hw, FaithfulOn, ← and_assoc,
    and_iff_left_iff_imp]
  rintro ⟨⟨bytes, hbytes, hback⟩, others, hothers, hback'⟩ hsame
  obtain rfl : bytes = others := Option.some.inj (hbytes.symm.trans (hsame.trans hothers))
  exact Except.ok.inj (hback.symm.trans hback')

end Faithful

/-- A reader of JSON in UTF-8. -/
def utf8Json (bytes : Bytes) : Except String JsonValue :=
  match bytes.toByteArray.utf8Decode? with
  | none => .error "invalid UTF8 string"
  | some text =>
    match readJson text.toList with
    | none => .error "illegal value"
    | some v => .ok v

theorem readsJson_utf8Json (text : List Char) : ReadsJson utf8Json text := by
  intro v hv
  have hbytes : (utf8 text).toByteArray = text.utf8Encode := rfl
  rw [utf8Json, hbytes, List.utf8Decode?_utf8Encode]
  simp only [hv]

/-- An object, nested and with an escaped line break. -/
def plainDocument : JsonValue :=
  .object [("a", .array [.number 1, .null]), ("b", .string "line\nbreak é")]

theorem canonicalInput_plainDocument : CanonicalInput plainDocument := by
  refine ⟨?_, ?_⟩
  · have hnames : ("a" : String) < "b" := String.lt_iff_toList_lt.2 (by decide)
    refine inOrder_object.2 ⟨List.pairwise_pair.2 hnames, ?_⟩
    simp [InOrder, ItemsInOrder]
  · simp only [plainDocument, WholeNumbers, WholeItems, WholeMembers]
    decide

theorem canonical_json_faithful_plain : FaithfulOn utf8Json plainDocument plainDocument :=
  (canonical_json_faithful_iff readsJson_utf8Json canonicalInput_plainDocument
    canonicalInput_plainDocument).2 (by decide)

/-- A letter beyond U+FFFF is signed as two question marks. -/
theorem emoji_becomes_question_marks :
    ¬ ∀ (fromJson : Bytes → Except String JsonValue) (v w : JsonValue),
      (∀ text, ReadsJson fromJson text) → CanonicalInput v → CanonicalInput w →
        FaithfulOn fromJson v w := by
  intro h
  have hinput : ∀ s, CanonicalInput (.string s) := fun s => ⟨trivial, trivial⟩
  have hfaithful := h utf8Json (.string "😀") (.string "??") readsJson_utf8Json (hinput _) (hinput _)
  have hsame : canonicalJson (.string "😀") = canonicalJson (.string "??") := by decide
  have hequal := hfaithful.2.2 hsame
  revert hequal
  decide

end GpgFrontend
