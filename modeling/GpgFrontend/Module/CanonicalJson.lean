import GpgFrontend.Base.JsonText

/-!
# Canonical JSON (`CanonicalJson` of `ModuleDescriptorBuilder.cpp`)

The text a manifest is signed in: members in the order of the object, no blanks, whole
numbers only. A string goes out one UTF-16 unit at a time.

- `unitwise`: **what is left of a text.** The two halves of a character beyond U+FFFF are
  converted one by one, and come out as two question marks.
-/

namespace GpgFrontend

/-! ## Writing -/

/-- `kHex`. -/
def lowerHex (n : Nat) : Char := "0123456789abcdef".toList.getD n '0'

/-- One round of the loop of `AppendCanonicalString`. -/
def canonicalChar (c : Char) : List Char :=
  if c = '"' then ['\\', '"']
  else if c = '\\' then ['\\', '\\']
  else if c.toNat = 8 then ['\\', 'b']
  else if c.toNat = 12 then ['\\', 'f']
  else if c = '\n' then ['\\', 'n']
  else if c = '\r' then ['\\', 'r']
  else if c = '\t' then ['\\', 't']
  else if c.toNat < 0x20 then ['\\', 'u', '0', '0', lowerHex (c.toNat / 16), lowerHex (c.toNat % 16)]
  -- two units, and neither is a character of its own
  else if 0xFFFF < c.toNat then ['?', '?']
  else [c]

/-- `AppendCanonicalString`. -/
def canonicalString (s : String) : List Char := '"' :: s.toList.flatMap canonicalChar ++ ['"']

/-- The case `Double` of `AppendCanonicalValue`. -/
def canonicalNumber (q : ℚ) : Option (List Char) :=
  let d : ℚ := if q.den = 1 then roundToDouble q.num else q
  if d.den = 1 ∧ FitsLong d.num then some (decimalText d.num) else none

mutual

/-- `AppendCanonicalValue`: nothing where it gives up. -/
def canonicalValue : JsonValue → Option (List Char)
  | .null => some "null".toList
  | .bool value => some (if value then "true" else "false").toList
  | .number q => canonicalNumber q
  | .string s => some (canonicalString s)
  | .array items => (canonicalItems true items).map fun text => '[' :: text ++ [']']
  | .object members => (canonicalMembers true members).map fun text => '\x7b' :: text ++ ['\x7d']

/-- The loop over the items of an array. -/
def canonicalItems (first : Bool) : List JsonValue → Option (List Char)
  | [] => some []
  | v :: rest =>
    match canonicalValue v, canonicalItems false rest with
    | some text, some later => some ((if first then [] else [',']) ++ text ++ later)
    | _, _ => none

/-- The loop over the members of an object. -/
def canonicalMembers (first : Bool) : List (String × JsonValue) → Option (List Char)
  | [] => some []
  | (key, v) :: rest =>
    match canonicalValue v, canonicalMembers false rest with
    | some text, some later =>
      some ((if first then [] else [',']) ++ canonicalString key ++ ':' :: text ++ later)
    | _, _ => none

end

/-- Text as UTF-8. -/
def utf8 (text : List Char) : List UInt8 := text.flatMap String.utf8EncodeChar

/-- `CanonicalJson`. -/
def canonicalJson (v : JsonValue) : Option (List UInt8) := (canonicalValue v).map utf8

/-! ## What is left of a text -/

/-- A character after its units were converted one by one. -/
def unitwiseChar (c : Char) : List Char := if 0xFFFF < c.toNat then ['?', '?'] else [c]

/-- A text after its units were converted one by one. -/
def unitwise (s : String) : String := String.ofList (s.toList.flatMap unitwiseChar)

/-- Every character is one UTF-16 unit. -/
def OneUnitEach (s : String) : Prop := ∀ c ∈ s.toList, c.toNat ≤ 0xFFFF

instance (s : String) : Decidable (OneUnitEach s) := List.decidableBAll _ _

theorem oneUnitEach_unitwise (s : String) : OneUnitEach (unitwise s) := by
  intro c hc
  rw [unitwise, String.toList_ofList] at hc
  obtain ⟨d, -, hcd⟩ := List.mem_flatMap.1 hc
  rw [unitwiseChar] at hcd
  split at hcd
  · obtain rfl | rfl : c = '?' ∨ c = '?' := by simpa using hcd
    all_goals decide
  · rw [List.mem_singleton.1 hcd]
    omega

/-- A text comes through exactly if each of its characters is one unit. -/
theorem unitwise_eq_self_iff {s : String} : unitwise s = s ↔ OneUnitEach s := by
  constructor
  · intro h
    rw [← h]
    exact oneUnitEach_unitwise s
  · intro h
    have hflat : s.toList.flatMap unitwiseChar = s.toList := by
      have hsame : ∀ c ∈ s.toList, unitwiseChar c = [c] := fun c hc =>
        if_neg (Nat.not_lt.2 (h c hc))
      rw [List.flatMap_congr hsame, List.flatMap_singleton']
    rw [unitwise, hflat, String.ofList_toList]

mutual

/-- What a reader finds of a value. -/
def JsonValue.unitwise : JsonValue → JsonValue
  | .null => .null
  | .bool value => .bool value
  | .number q => .number (if q.den = 1 then roundToDouble q.num else q)
  | .string s => .string (GpgFrontend.unitwise s)
  | .array items => .array (itemsUnitwise items)
  | .object members => .object (objectOf (membersUnitwise members))

def itemsUnitwise : List JsonValue → List JsonValue
  | [] => []
  | v :: rest => v.unitwise :: itemsUnitwise rest

def membersUnitwise : List (String × JsonValue) → List (String × JsonValue)
  | [] => []
  | (key, v) :: rest => (GpgFrontend.unitwise key, v.unitwise) :: membersUnitwise rest

end

/-! ## Strings are read back -/

theorem readUnit_control :
    ∀ n < 32, readUnit '0' '0' (lowerHex (n / 16)) (lowerHex (n % 16)) = some (Char.ofNat n) := by
  decide

/-- What is written for a character is read as what is left of it. -/
theorem readChars_canonicalChar (c : Char) (rest : List Char) :
    readChars (canonicalChar c ++ rest)
      = (readChars rest).map fun read => (unitwiseChar c ++ read.1, read.2) := by
  have hone : ∀ {d : Char}, d.toNat ≤ 0xFFFF → unitwiseChar d = [d] := fun h =>
    if_neg (Nat.not_lt.2 h)
  have hofNat : Char.ofNat c.toNat = c := Char.ofNat_toNat c
  rw [canonicalChar]
  split
  · next h =>
    subst h
    exact readChars_escape (by decide) (by decide)
  split
  · next h =>
    subst h
    exact readChars_escape (by decide) (by decide)
  split
  · next h =>
    rw [hone (by omega), ← hofNat, h]
    exact readChars_escape (by decide) (by decide)
  split
  · next h =>
    rw [hone (by omega), ← hofNat, h]
    exact readChars_escape (by decide) (by decide)
  split
  · next h =>
    subst h
    exact readChars_escape (by decide) (by decide)
  split
  · next h =>
    subst h
    exact readChars_escape (by decide) (by decide)
  split
  · next h =>
    subst h
    exact readChars_escape (by decide) (by decide)
  next hquote hbackslash _ _ _ _ _ =>
  split
  · next hcontrol =>
    have hunit := readUnit_control c.toNat hcontrol
    rw [hofNat] at hunit
    rw [hone (by omega)]
    exact readChars_unit hunit
  next hplain =>
  split
  · next hpair =>
    have hmark : ∀ tail, readChars ('?' :: tail)
        = (readChars tail).map fun read => ('?' :: read.1, read.2) := fun tail =>
      readChars_plain (by decide) (by decide) (by decide)
    rw [unitwiseChar, if_pos hpair, List.cons_append, List.cons_append, List.nil_append, hmark,
      hmark, Option.map_map]
    rfl
  next hunit =>
  rw [hone (by omega)]
  exact readChars_plain hquote hbackslash hplain

/-- A string in quotes is read up to its closing quote. -/
theorem readChars_canonical (chars : List Char) (rest : List Char) :
    readChars (chars.flatMap canonicalChar ++ '"' :: rest)
      = some (chars.flatMap unitwiseChar, rest) := by
  induction chars with
  | nil => exact readChars_quote
  | cons c chars ih =>
    rw [List.flatMap_cons, List.append_assoc, readChars_canonicalChar, ih]
    rfl

/-! ## Values are read back -/

/-- A number begins with its sign or a digit. -/
theorem decimal_head {n : Int} : ∃ c text, decimalText n = c :: text ∧ (c = '-' ∨ c.isDigit = true) := by
  unfold decimalText
  split
  · exact ⟨_, _, rfl, .inl rfl⟩
  · obtain ⟨c, text, htext⟩ := List.exists_cons_of_ne_nil (Nat.toDigits_ne_nil (n := n.natAbs) (b := 10))
    refine ⟨c, text, htext, .inr ?_⟩
    exact Nat.isDigit_of_mem_toDigits (by decide) (by decide) (htext ▸ List.mem_cons_self)

/-- No other kind of value begins as a number does. -/
theorem readValue_number {c : Char} (hc : c = '-' ∨ c.isDigit = true) (fuel : Nat)
    (rest : List Char) : readValue (fuel + 1) (c :: rest) = readNumber (c :: rest) := by
  have hne : ∀ d ∈ ['"', '[', '\x7b', 'n', 't', 'f'], c ≠ d := by
    rintro d hd rfl
    simp only [List.mem_cons, List.not_mem_nil, or_false] at hd
    rcases hd with rfl | rfl | rfl | rfl | rfl | rfl
    all_goals
      revert hc
      decide
  rw [readValue, if_neg (hne _ (by simp)), if_neg (hne _ (by simp)), if_neg (hne _ (by simp)),
    if_neg (hne _ (by simp)), if_neg (hne _ (by simp)), if_neg (hne _ (by simp))]

variable {text : List Char}

theorem canonicalNumber_eq {q : ℚ} (h : canonicalNumber q = some text) :
    ∃ n : Int, (if q.den = 1 then roundToDouble q.num else q) = n ∧ FitsLong n ∧ text = decimalText n := by
  unfold canonicalNumber at h
  extract_lets d at h
  by_cases hd : d.den = 1 ∧ FitsLong d.num
  · rw [if_pos hd] at h
    exact ⟨d.num, (Rat.coe_int_num_of_den_eq_one hd.1).symm, hd.2, (Option.some.inj h).symm⟩
  · rw [if_neg hd] at h
    cases h

variable {v : JsonValue}

/-- A value is written with at least one character, and not as the end of an array. -/
theorem canonicalValue_head (h : canonicalValue v = some text) :
    ∃ c rest, text = c :: rest ∧ c ≠ ']' := by
  cases v with
  | null => exact ⟨_, _, (Option.some.inj h).symm, by decide⟩
  | bool value =>
    cases value <;> exact ⟨_, _, (Option.some.inj h).symm, by decide⟩
  | number q =>
    obtain ⟨n, -, -, rfl⟩ := canonicalNumber_eq h
    obtain ⟨c, rest, htext, hc⟩ := decimal_head (n := n)
    refine ⟨c, rest, htext, ?_⟩
    rintro rfl
    revert hc
    decide
  | string s => exact ⟨_, _, (Option.some.inj h).symm, by decide⟩
  | array items =>
    obtain ⟨inner, -, rfl⟩ := Option.map_eq_some_iff.1 h
    exact ⟨_, _, rfl, by decide⟩
  | object members =>
    obtain ⟨inner, -, rfl⟩ := Option.map_eq_some_iff.1 h
    exact ⟨_, _, rfl, by decide⟩

theorem canonicalItems_cons {first : Bool} {later : List JsonValue}
    (h : canonicalItems first (v :: later) = some text) :
    ∃ here behind, canonicalValue v = some here ∧ canonicalItems false later = some behind ∧
      text = (if first then [] else [',']) ++ here ++ behind := by
  rw [canonicalItems] at h
  cases hv : canonicalValue v with
  | none => simp [hv] at h
  | some here =>
    cases hlater : canonicalItems false later with
    | none => simp [hv, hlater] at h
    | some behind =>
      simp only [hv, hlater, Option.some.injEq] at h
      exact ⟨here, behind, rfl, rfl, h.symm⟩

theorem canonicalMembers_cons {first : Bool} {key : String} {later : List (String × JsonValue)}
    (h : canonicalMembers first ((key, v) :: later) = some text) :
    ∃ here behind, canonicalValue v = some here ∧ canonicalMembers false later = some behind ∧
      text = (if first then [] else [',']) ++ canonicalString key ++ ':' :: here ++ behind := by
  rw [canonicalMembers] at h
  cases hv : canonicalValue v with
  | none => simp [hv] at h
  | some here =>
    cases hlater : canonicalMembers false later with
    | none => simp [hv, hlater] at h
    | some behind =>
      simp only [hv, hlater, Option.some.injEq] at h
      exact ⟨here, behind, rfl, rfl, h.symm⟩

/-- Behind the first item or member the text is a comma and the text of the others. -/
theorem canonicalItems_later {later : List JsonValue}
    (h : canonicalItems false (v :: later) = some text) :
    ∃ behind, canonicalItems true (v :: later) = some behind ∧ text = ',' :: behind := by
  obtain ⟨here, behind, hv, hlater, rfl⟩ := canonicalItems_cons h
  exact ⟨here ++ behind, by simp [canonicalItems, hv, hlater], by simp⟩

theorem canonicalMembers_later {member : String × JsonValue} {later : List (String × JsonValue)}
    (h : canonicalMembers false (member :: later) = some text) :
    ∃ behind, canonicalMembers true (member :: later) = some behind ∧ text = ',' :: behind := by
  obtain ⟨here, behind, hv, hlater, rfl⟩ := canonicalMembers_cons h
  exact ⟨canonicalString member.1 ++ ':' :: here ++ behind,
    by simp [canonicalMembers, hv, hlater], by simp⟩

mutual

/-- **A reader finds the value that was written, its texts unit by unit.** -/
theorem read_canonicalValue (v : JsonValue) {text : List Char} (h : canonicalValue v = some text)
    (fuel : Nat) (hfuel : text.length ≤ fuel) (rest : List Char) (hrest : Ends rest) :
    readValue fuel (text ++ rest) = some (v.unitwise, rest) := by
  cases fuel with
  | zero =>
    obtain ⟨c, tail, rfl, -⟩ := canonicalValue_head h
    cases hfuel
  | succ fuel =>
    match v with
    | .null =>
      obtain rfl := Option.some.inj h
      rfl
    | .bool true =>
      obtain rfl := Option.some.inj h
      rfl
    | .bool false =>
      obtain rfl := Option.some.inj h
      rfl
    | .number q =>
      obtain ⟨n, hn, hfits, rfl⟩ := canonicalNumber_eq h
      obtain ⟨c, tail, htext, hc⟩ := decimal_head (n := n)
      have hread := readNumber_decimal hfits hrest
      rw [htext, List.cons_append] at hread ⊢
      rw [readValue_number hc, hread, JsonValue.unitwise, hn]
    | .string s =>
      obtain rfl := Option.some.inj h
      rw [canonicalString, List.cons_append, List.cons_append, List.append_assoc,
        List.singleton_append, readValue, if_pos rfl, readChars_canonical]
      rfl
    | .array items =>
      obtain ⟨inner, hinner, rfl⟩ := Option.map_eq_some_iff.1 h
      rw [List.length_append, List.length_cons, List.length_singleton] at hfuel
      rw [List.cons_append, List.cons_append, List.append_assoc, List.singleton_append, readValue,
        if_neg (by decide), if_pos rfl]
      match items with
      | [] =>
        obtain rfl := Option.some.inj hinner
        rfl
      | first :: later =>
        have hread := read_canonicalItems (first :: later) (List.cons_ne_nil _ _) hinner
          fuel (by omega) rest
        obtain ⟨here, behind, hhere, -, rfl⟩ := canonicalItems_cons hinner
        obtain ⟨c, tail, rfl, hc⟩ := canonicalValue_head hhere
        rw [if_neg (by simpa using hc), hread]
        rfl
    | .object members =>
      obtain ⟨inner, hinner, rfl⟩ := Option.map_eq_some_iff.1 h
      rw [List.length_append, List.length_cons, List.length_singleton] at hfuel
      rw [List.cons_append, List.cons_append, List.append_assoc, List.singleton_append, readValue,
        if_neg (by decide), if_neg (by decide), if_pos rfl]
      match members with
      | [] =>
        obtain rfl := Option.some.inj hinner
        rfl
      | member :: later =>
        have hread := read_canonicalMembers (member :: later) (List.cons_ne_nil _ _) hinner
          fuel (by omega) rest
        obtain ⟨here, behind, -, -, rfl⟩ := canonicalMembers_cons hinner
        rw [if_neg (by simp [canonicalString]), hread]
        rfl

theorem read_canonicalItems (items : List JsonValue) (hne : items ≠ []) {text : List Char}
    (h : canonicalItems true items = some text) (fuel : Nat) (hfuel : text.length < fuel)
    (rest : List Char) :
    readItems fuel (text ++ ']' :: rest) = some (itemsUnitwise items, rest) := by
  match items with
  | [] => exact absurd rfl hne
  | v :: later =>
    cases fuel with
    | zero => cases hfuel
    | succ fuel =>
      obtain ⟨here, behind, hhere, hbehind, rfl⟩ := canonicalItems_cons h
      simp only [if_true, List.nil_append, List.length_append] at hfuel
      simp only [if_true, List.nil_append, List.append_assoc]
      have hlength : 0 < here.length := by
        obtain ⟨c, tail, rfl, -⟩ := canonicalValue_head hhere
        simp
      match later with
      | [] =>
        obtain rfl := Option.some.inj hbehind
        have hread := read_canonicalValue v hhere fuel (by simp at hfuel; omega)
          (']' :: rest) (Ends.cons (.inr (.inl rfl)))
        rw [readItems, List.nil_append, hread]
        rfl
      | next :: others =>
        obtain ⟨inner, hinner, rfl⟩ := canonicalItems_later hbehind
        rw [List.length_cons] at hfuel
        have hread := read_canonicalValue v hhere fuel (by omega)
          (',' :: inner ++ ']' :: rest) (Ends.cons (.inl rfl))
        have hlater := read_canonicalItems (next :: others) (List.cons_ne_nil _ _) hinner
          fuel (by omega) rest
        rw [readItems, hread]
        simp only [List.cons_append, List.head?_cons, if_true, List.tail_cons, hlater]
        rfl

theorem read_canonicalMembers (members : List (String × JsonValue)) (hne : members ≠ [])
    {text : List Char} (h : canonicalMembers true members = some text) (fuel : Nat)
    (hfuel : text.length < fuel) (rest : List Char) :
    readMembers fuel (text ++ '\x7d' :: rest) = some (membersUnitwise members, rest) := by
  match members with
  | [] => exact absurd rfl hne
  | (key, v) :: later =>
    cases fuel with
    | zero => cases hfuel
    | succ fuel =>
      obtain ⟨here, behind, hhere, hbehind, rfl⟩ := canonicalMembers_cons h
      simp only [if_true, List.nil_append, List.length_append, List.length_cons] at hfuel
      have hkey : readChars ((canonicalString key ++ ':' :: here ++ behind ++ '\x7d' :: rest).tail)
          = some (key.toList.flatMap unitwiseChar, ':' :: (here ++ (behind ++ '\x7d' :: rest))) := by
        simp only [canonicalString, List.cons_append, List.append_assoc, List.tail_cons]
        exact readChars_canonical key.toList _
      have hquote : (canonicalString key ++ ':' :: here ++ behind ++ '\x7d' :: rest).head?
          = some '"' := rfl
      simp only [if_true, List.nil_append]
      rw [readMembers, if_pos hquote, hkey]
      simp only [List.head?_cons, if_true, List.tail_cons]
      match later with
      | [] =>
        obtain rfl := Option.some.inj hbehind
        have hread := read_canonicalValue v hhere fuel (by omega)
          ('\x7d' :: rest) (Ends.cons (.inr (.inr rfl)))
        rw [List.nil_append, hread]
        rfl
      | next :: others =>
        obtain ⟨inner, hinner, rfl⟩ := canonicalMembers_later hbehind
        rw [List.length_cons] at hfuel
        have hread := read_canonicalValue v hhere fuel (by omega)
          (',' :: inner ++ '\x7d' :: rest) (Ends.cons (.inl rfl))
        have hlater := read_canonicalMembers (next :: others) (List.cons_ne_nil _ _) hinner
          fuel (by omega) rest
        rw [hread]
        simp only [List.cons_append, List.head?_cons, if_true, List.tail_cons, hlater]
        rfl

end

/-- **What is written is read.** -/
theorem readJson_canonicalValue (h : canonicalValue v = some text) :
    readJson text = some v.unitwise := by
  have hread := read_canonicalValue v h _ (Nat.le_succ text.length) [] Ends.nil
  rw [List.append_nil] at hread
  rw [readJson, hread]

end GpgFrontend
