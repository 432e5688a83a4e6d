import GpgFrontend.Base.Json

/-!
# Reading JSON text

A reader for compact JSON (RFC 8259): no blanks between the tokens, and whole numbers of 64
bits. What it reads, every JSON reader reads; a member that is named twice counts once, by its
last value.
-/

namespace GpgFrontend

/-! ## Texts -/

/-- The value of a hexadecimal digit. -/
def hexValue (c : Char) : Option Nat :=
  if '0' ≤ c ∧ c ≤ '9' then some (c.toNat - '0'.toNat)
  else if 'a' ≤ c ∧ c ≤ 'f' then some (c.toNat - 'a'.toNat + 10)
  else if 'A' ≤ c ∧ c ≤ 'F' then some (c.toNat - 'A'.toNat + 10)
  else none

/-- Four hexadecimal digits as one character. Half a surrogate pair is none. -/
def readUnit (a b c d : Char) : Option Char := do
  let a ← hexValue a
  let b ← hexValue b
  let c ← hexValue c
  let d ← hexValue d
  let n := 4096 * a + 256 * b + 16 * c + d
  if 0xD800 ≤ n ∧ n ≤ 0xDFFF then none else some (Char.ofNat n)

/-- The escapes of two characters. -/
def simpleEscape (c : Char) : Option Char :=
  [('"', '"'), ('\\', '\\'), ('/', '/'), ('b', Char.ofNat 8), ('f', Char.ofNat 12), ('n', '\n'),
    ('r', '\r'), ('t', '\t')].lookup c

/-- The characters up to the closing quote. -/
def readChars : List Char → Option (List Char × List Char)
  | [] => none
  | c :: rest =>
    if c = '"' then some ([], rest)
    else if c = '\\' then
      match rest with
      | [] => none
      | e :: rest =>
        if e = 'u' then
          match rest with
          | h₁ :: h₂ :: h₃ :: h₄ :: rest =>
            match readUnit h₁ h₂ h₃ h₄, readChars rest with
            | some unit, some (chars, rest) => some (unit :: chars, rest)
            | _, _ => none
          | _ => none
        else
          match simpleEscape e, readChars rest with
          | some unit, some (chars, rest) => some (unit :: chars, rest)
          | _, _ => none
    else if c.toNat < 0x20 then none
    else (readChars rest).map fun read => (c :: read.1, read.2)

section Chars

variable {c e : Char} {rest : List Char}

theorem readChars_quote : readChars ('"' :: rest) = some ([], rest) := by
  rw [readChars.eq_def]
  rfl

theorem readChars_plain (hquote : c ≠ '"') (hbackslash : c ≠ '\\') (hcontrol : ¬ c.toNat < 0x20) :
    readChars (c :: rest) = (readChars rest).map fun read => (c :: read.1, read.2) := by
  rw [readChars.eq_def]
  simp only [if_neg hquote, if_neg hbackslash, if_neg hcontrol]

theorem readChars_escape (he : e ≠ 'u') (hc : simpleEscape e = some c) :
    readChars ('\\' :: e :: rest) = (readChars rest).map fun read => (c :: read.1, read.2) := by
  rw [readChars.eq_def]
  simp only [show ('\\' : Char) ≠ '"' by decide, if_false, if_true, if_neg he, hc]
  cases readChars rest <;> rfl

theorem readChars_unit {h₁ h₂ h₃ h₄ : Char} (hc : readUnit h₁ h₂ h₃ h₄ = some c) :
    readChars ('\\' :: 'u' :: h₁ :: h₂ :: h₃ :: h₄ :: rest)
      = (readChars rest).map fun read => (c :: read.1, read.2) := by
  rw [readChars.eq_def]
  simp only [show ('\\' : Char) ≠ '"' by decide, if_false, if_true, hc]
  cases readChars rest <;> rfl

end Chars

/-! ## Numbers -/

/-- What 64 bits hold. -/
def FitsLong (n : Int) : Prop := -9223372036854775808 ≤ n ∧ n < 9223372036854775808

instance (n : Int) : Decidable (FitsLong n) := inferInstanceAs (Decidable (_ ∧ _))

/-- A whole number in decimal digits. -/
def decimalText (n : Int) : List Char :=
  if n < 0 then '-' :: Nat.toDigits 10 n.natAbs else Nat.toDigits 10 n.natAbs

/-- A whole number, without a leading zero, a fraction or an exponent. -/
def readNumber (s : List Char) : Option (JsonValue × List Char) :=
  let negative := s.head? = some '-'
  let s := if negative then s.tail else s
  let digits := s.takeWhile Char.isDigit
  let rest := s.dropWhile Char.isDigit
  let n : Int := if negative then -(Nat.ofDigitChars 10 digits 0) else Nat.ofDigitChars 10 digits 0
  if digits = [] ∨ (digits.head? = some '0' ∧ 1 < digits.length) ∨
      rest.head?.any (fun c => c = '.' || c = 'e' || c = 'E') = true ∨ ¬ FitsLong n then none
  else some (.number n, rest)

/-! ## Values -/

/-- An object from its members in the order of the text. -/
def objectOf (members : List (String × JsonValue)) : JsonObject :=
  members.foldl (fun o member => JsonObject.put o member.1 member.2) []

mutual

/-- A value, and what stands behind it. -/
def readValue : Nat → List Char → Option (JsonValue × List Char)
  | 0, _ => none
  | _ + 1, [] => none
  | fuel + 1, c :: rest =>
    if c = '"' then (readChars rest).map fun read => (.string (String.ofList read.1), read.2)
    else if c = '[' then
      if rest.head? = some ']' then some (.array [], rest.tail)
      else (readItems fuel rest).map fun read => (.array read.1, read.2)
    else if c = '\x7b' then
      if rest.head? = some '\x7d' then some (.object [], rest.tail)
      else (readMembers fuel rest).map fun read => (.object (objectOf read.1), read.2)
    else if c = 'n' then
      if "ull".toList.isPrefixOf rest then some (.null, rest.drop 3) else none
    else if c = 't' then
      if "rue".toList.isPrefixOf rest then some (.bool true, rest.drop 3) else none
    else if c = 'f' then
      if "alse".toList.isPrefixOf rest then some (.bool false, rest.drop 4) else none
    else readNumber (c :: rest)

/-- Items up to the closing bracket. -/
def readItems : Nat → List Char → Option (List JsonValue × List Char)
  | 0, _ => none
  | fuel + 1, s =>
    match readValue fuel s with
    | none => none
    | some (v, rest) =>
      if rest.head? = some ',' then (readItems fuel rest.tail).map fun read => (v :: read.1, read.2)
      else if rest.head? = some ']' then some ([v], rest.tail)
      else none

/-- Members up to the closing brace. -/
def readMembers : Nat → List Char → Option (List (String × JsonValue) × List Char)
  | 0, _ => none
  | fuel + 1, s =>
    if s.head? = some '"' then
      match readChars s.tail with
      | none => none
      | some (key, rest) =>
        if rest.head? = some ':' then
          match readValue fuel rest.tail with
          | none => none
          | some (v, rest) =>
            if rest.head? = some ',' then
              (readMembers fuel rest.tail).map fun read => ((String.ofList key, v) :: read.1, read.2)
            else if rest.head? = some '\x7d' then some ([(String.ofList key, v)], rest.tail)
            else none
        else none
    else none

end

/-- A text that is one value. -/
def readJson (text : List Char) : Option JsonValue :=
  match readValue (text.length + 1) text with
  | some (v, []) => some v
  | _ => none

/-! ## Numbers are read back -/

theorem head_toDigits_ne_zero {n : Nat} (h : 0 < n) : (Nat.toDigits 10 n).head? ≠ some '0' := by
  induction n using Nat.base_induction 10 (by decide) with
  | single m hm =>
    rw [Nat.toDigits_of_lt_base hm]
    revert hm h
    revert m
    decide
  | digit m k hk hm ih =>
    rw [← Nat.toDigits_append_toDigits (by decide) hm hk,
      List.head?_append_of_ne_nil _ Nat.toDigits_ne_nil]
    exact ih hm

theorem toDigits_zero_alone {n : Nat} (h : (Nat.toDigits 10 n).head? = some '0') :
    ¬ 1 < (Nat.toDigits 10 n).length := by
  rcases Nat.eq_zero_or_pos n with rfl | hpos
  · rw [Nat.toDigits_zero]
    decide
  · exact absurd h (head_toDigits_ne_zero hpos)

/-- What may stand behind a value: the end, or the next token of an array or an object. -/
def Ends (rest : List Char) : Prop := ∀ c, rest.head? = some c → c = ',' ∨ c = ']' ∨ c = '\x7d'

theorem Ends.nil : Ends [] := fun _ h => by cases h

theorem Ends.cons {c : Char} {rest : List Char} (h : c = ',' ∨ c = ']' ∨ c = '\x7d') :
    Ends (c :: rest) := fun _ hd => Option.some.inj hd ▸ h

theorem span_digits {digits rest : List Char} (hdigits : ∀ c ∈ digits, c.isDigit = true)
    (hrest : ∀ c, rest.head? = some c → c.isDigit = false) :
    (digits ++ rest).takeWhile Char.isDigit = digits ∧
      (digits ++ rest).dropWhile Char.isDigit = rest := by
  have hnone : rest.takeWhile Char.isDigit = [] ∧ rest.dropWhile Char.isDigit = rest := by
    cases rest with
    | nil => exact ⟨rfl, rfl⟩
    | cons c rest =>
      have hc := hrest c rfl
      simp [hc]
  constructor
  · rw [List.takeWhile_append_of_pos hdigits, hnone.1, List.append_nil]
  · rw [List.dropWhile_append_of_pos hdigits, hnone.2]

/-- **A whole number is read back from its digits.** -/
theorem readNumber_decimal {n : Int} (hn : FitsLong n) {rest : List Char} (hrest : Ends rest) :
    readNumber (decimalText n ++ rest) = some (.number n, rest) := by
  have hdigits : ∀ c ∈ Nat.toDigits 10 n.natAbs, c.isDigit = true := fun c hc =>
    Nat.isDigit_of_mem_toDigits (by decide) (by decide) hc
  have hnodigit : ∀ c, rest.head? = some c → c.isDigit = false := by
    intro c hc
    rcases hrest c hc with rfl | rfl | rfl <;> decide
  obtain ⟨htake, hdrop⟩ := span_digits hdigits hnodigit
  have hexp : rest.head?.any (fun c => c = '.' || c = 'e' || c = 'E') = false := by
    cases hhead : rest.head? with
    | none => rfl
    | some c => rcases hrest c hhead with rfl | rfl | rfl <;> decide
  have hvalue : Nat.ofDigitChars 10 (Nat.toDigits 10 n.natAbs) 0 = n.natAbs :=
    Nat.ofDigitChars_ten_toDigits
  unfold decimalText readNumber
  by_cases hneg : n < 0
  · have hint : -(n.natAbs : Int) = n := by omega
    simp only [if_pos hneg, List.cons_append, List.head?_cons, List.tail_cons, if_true, htake,
      hdrop, hvalue, hint]
    rw [if_neg]
    rintro (hnil | hzero | hlast | hfits)
    · exact Nat.toDigits_ne_nil hnil
    · exact toDigits_zero_alone hzero.1 hzero.2
    · rw [hexp] at hlast
      cases hlast
    · exact hfits hn
  · have hint : (n.natAbs : Int) = n := by omega
    have hplus : (Nat.toDigits 10 n.natAbs ++ rest).head? ≠ some '-' := by
      rw [List.head?_append_of_ne_nil _ Nat.toDigits_ne_nil]
      intro hhead
      have hminus := hdigits '-' (List.mem_of_mem_head? hhead)
      exact absurd hminus (by decide)
    simp only [if_neg hneg, hplus, if_false, htake, hdrop, hvalue, hint]
    rw [if_neg]
    rintro (hnil | hzero | hlast | hfits)
    · exact Nat.toDigits_ne_nil hnil
    · exact toDigits_zero_alone hzero.1 hzero.2
    · rw [hexp] at hlast
      cases hlast
    · exact hfits hn

/-! ## Objects from their members -/

section Objects

variable {o : JsonObject} {members : List (String × JsonValue)} {key other : String}
  {v : JsonValue}

variable {member : String × JsonValue}

theorem mem_put (h : member ∈ JsonObject.put o key v) : member = (key, v) ∨ member ∈ o :=
  QMap.mem_insertEntry (JsonObject.put_eq_insertEntry o key v ▸ h)

theorem sorted_put (h : o.Pairwise fun a b => a.1 < b.1) :
    (JsonObject.put o key v).Pairwise fun a b => a.1 < b.1 :=
  JsonObject.put_eq_insertEntry o key v ▸ QMap.sorted_insertEntry h

/-- A member whose name comes after all others goes to the end. -/
theorem put_of_lt (h : ∀ member ∈ o, member.1 < key) :
    JsonObject.put o key v = o ++ [(key, v)] :=
  (JsonObject.put_eq_insertEntry o key v).trans (QMap.insertEntry_of_lt h)

/-- Members put one after the other. -/
def putAll (o : JsonObject) (members : List (String × JsonValue)) : JsonObject :=
  members.foldl (fun o member => JsonObject.put o member.1 member.2) o

theorem objectOf_eq_putAll : objectOf members = putAll [] members := rfl

theorem mem_putAll :
    ∀ {o : JsonObject}, member ∈ putAll o members → member ∈ o ∨ member ∈ members := by
  induction members with
  | nil => exact fun h => .inl h
  | cons first rest ih =>
    intro o h
    rcases ih h with hput | hrest
    · rcases mem_put hput with rfl | ho
      · exact .inr List.mem_cons_self
      · exact .inl ho
    · exact .inr (List.mem_cons_of_mem _ hrest)

theorem mem_objectOf (h : member ∈ objectOf members) : member ∈ members :=
  (mem_putAll h).resolve_left List.not_mem_nil

theorem sorted_putAll : ∀ {o : JsonObject}, o.Pairwise (fun a b => a.1 < b.1) →
    (putAll o members).Pairwise fun a b => a.1 < b.1 := by
  induction members with
  | nil => exact fun h => h
  | cons first rest ih => exact fun h => ih (sorted_put h)

theorem sorted_objectOf : (objectOf members).Pairwise fun a b => a.1 < b.1 :=
  sorted_putAll List.Pairwise.nil

/-- Members that are in order are the object. -/
theorem putAll_sorted : ∀ {o : JsonObject}, (o ++ members).Pairwise (fun a b => a.1 < b.1) →
    putAll o members = o ++ members := by
  induction members with
  | nil => exact fun _ => (List.append_nil _).symm
  | cons member rest ih =>
    intro o h
    have hlt : ∀ m ∈ o, m.1 < member.1 := fun m hm =>
      (List.pairwise_append.1 h).2.2 m hm member List.mem_cons_self
    have hput : JsonObject.put o member.1 member.2 = o ++ [member] := put_of_lt hlt
    have hassoc : o ++ member :: rest = (o ++ [member]) ++ rest := by
      rw [List.append_assoc, List.singleton_append]
    show putAll (JsonObject.put o member.1 member.2) rest = o ++ member :: rest
    rw [hput, ih (hassoc ▸ h), hassoc]

theorem objectOf_sorted (h : members.Pairwise fun a b => a.1 < b.1) : objectOf members = members :=
  putAll_sorted h

theorem value_putAll (hnodup : (members.map Prod.fst).Nodup) :
    ∀ {o : JsonObject}, (putAll o members).value key
      = ((members.lookup key).or (o.value key)) := by
  induction members with
  | nil => exact rfl
  | cons member rest ih =>
    intro o
    obtain ⟨hnew, hrest⟩ := List.nodup_cons.1 hnodup
    show (putAll (JsonObject.put o member.1 member.2) rest).value key = _
    rw [ih hrest, List.lookup_cons]
    by_cases hkey : key = member.1
    · subst hkey
      have hnone : rest.lookup member.1 = none := by
        rw [List.lookup_eq_none_iff]
        intro m hm
        refine bne_iff_ne.2 fun heq => hnew ?_
        rw [heq]
        exact List.mem_map_of_mem hm
      rw [hnone, JsonObject.value_put_self, beq_self_eq_true]
      rfl
    · rw [JsonObject.value_put_ne hkey, beq_false_of_ne hkey]

/-- Members named once are found as they stand. -/
theorem value_objectOf (hnodup : (members.map Prod.fst).Nodup) :
    (objectOf members).value key = members.lookup key := by
  rw [objectOf_eq_putAll, value_putAll hnodup]
  simp

end Objects

end GpgFrontend
