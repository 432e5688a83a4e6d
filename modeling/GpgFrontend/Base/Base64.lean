import Mathlib.Algebra.Group.Nat.Defs
import Mathlib.Data.List.Basic

/-!
# Base64 with the URL-safe alphabet

Bytes as text, three bytes to four characters, without padding at the end; and the reader
that stops at whatever is not such a text.

- `decode_encode`: what was written is read back.
- `mem_encode`: a text consists of characters of the alphabet.
-/

namespace GpgFrontend

namespace Base64

/-! ## The alphabet -/

/-- The character for six bits. -/
def digit (n : Nat) : Char :=
  "ABCDEFGHIJKLMNOPQRSTUVWXYZabcdefghijklmnopqrstuvwxyz0123456789-_".toList.getD n '_'

/-- The six bits of a character. -/
def digitValue (c : Char) : Option Nat :=
  if 'A' ≤ c ∧ c ≤ 'Z' then some (c.toNat - 'A'.toNat)
  else if 'a' ≤ c ∧ c ≤ 'z' then some (c.toNat - 'a'.toNat + 26)
  else if '0' ≤ c ∧ c ≤ '9' then some (c.toNat - '0'.toNat + 52)
  else if c = '-' then some 62
  else if c = '_' then some 63
  else none

theorem digitValue_digit {n : Nat} (h : n < 64) : digitValue (digit n) = some n := by
  have hall : ∀ n : Fin 64, digitValue (digit n) = some n.val := by decide +kernel
  exact hall ⟨n, h⟩

theorem toNat_digit_lt {n : Nat} (h : n < 64) : (digit n).toNat < 256 := by
  have hall : ∀ n : Fin 64, (digit n).toNat < 256 := by decide +kernel
  exact hall ⟨n, h⟩

/-! ## Writing -/

/-- Three bytes as one number, four times six bits of it. -/
def digits (chunk : Nat) : List Char :=
  [digit (chunk / 262144), digit (chunk / 4096 % 64), digit (chunk / 64 % 64), digit (chunk % 64)]

/-- `QByteArray::toBase64`, `Base64UrlEncoding | OmitTrailingEquals`. -/
def encode : List UInt8 → List Char
  | [] => []
  | [a] => (digits (a.toNat * 65536)).take 2
  | [a, b] => (digits (a.toNat * 65536 + b.toNat * 256)).take 3
  | a :: b :: c :: rest => digits (a.toNat * 65536 + b.toNat * 256 + c.toNat) ++ encode rest

theorem mem_digits {chunk : Nat} (h : chunk < 16777216) {c : Char} (hc : c ∈ digits chunk) :
    ∃ n < 64, c = digit n := by
  simp only [digits, List.mem_cons, List.not_mem_nil, or_false] at hc
  rcases hc with rfl | rfl | rfl | rfl
  · exact ⟨_, by omega, rfl⟩
  all_goals exact ⟨_, Nat.mod_lt _ (by decide), rfl⟩

theorem mem_encode {bytes : List UInt8} {c : Char} (hc : c ∈ encode bytes) :
    ∃ n < 64, c = digit n := by
  induction bytes using encode.induct with
  | case1 => cases hc
  | case2 a =>
    have ha := a.toNat_lt
    exact mem_digits (by omega) (List.mem_of_mem_take hc)
  | case3 a b =>
    have ha := a.toNat_lt
    have hb := b.toNat_lt
    exact mem_digits (by omega) (List.mem_of_mem_take hc)
  | case4 a b c rest ih =>
    have ha := a.toNat_lt
    have hb := b.toNat_lt
    have hd := c.toNat_lt
    rw [encode] at hc
    rcases List.mem_append.1 hc with hfirst | hrest
    · exact mem_digits (by omega) hfirst
    · exact ih hrest

/-! ## Reading -/

/-- The loop of `fromBase64`: `buf` holds the bits that are no byte yet. -/
def decodeLoop (size : Nat) : Nat → Nat → List Char → Option (List UInt8)
  | _, _, [] => some []
  | buf, nbits, c :: rest =>
    match digitValue c with
    | some d =>
      if 8 ≤ nbits + 6 then
        (decodeLoop size ((buf * 64 + d) % 2 ^ (nbits - 2)) (nbits - 2) rest).map fun bytes =>
          UInt8.ofNat ((buf * 64 + d) / 2 ^ (nbits - 2)) :: bytes
      else decodeLoop size (buf * 64 + d) (nbits + 6) rest
    | none =>
      -- one or two signs may pad the text to a multiple of four; all else is an error
      if c = '=' ∧ size % 4 = 0 ∧ (rest = [] ∨ rest = ['=']) then some [] else none

/-- `QByteArray::fromBase64Encoding`, `Base64UrlEncoding | AbortOnBase64DecodingErrors`. -/
def decode (text : List Char) : Option (List UInt8) := decodeLoop text.length 0 0 text

section Loop

variable {size buf nbits n : Nat} {rest : List Char}

theorem decodeLoop_few (hn : n < 64) (hbits : nbits < 2) :
    decodeLoop size buf nbits (digit n :: rest)
      = decodeLoop size (buf * 64 + n) (nbits + 6) rest := by
  rw [decodeLoop, digitValue_digit hn]
  exact if_neg (by omega)

theorem decodeLoop_byte (hn : n < 64) (hbits : 2 ≤ nbits) :
    decodeLoop size buf nbits (digit n :: rest)
      = (decodeLoop size ((buf * 64 + n) % 2 ^ (nbits - 2)) (nbits - 2) rest).map fun bytes =>
          UInt8.ofNat ((buf * 64 + n) / 2 ^ (nbits - 2)) :: bytes := by
  rw [decodeLoop, digitValue_digit hn]
  exact if_pos (by omega)

variable {chunk : Nat}

/-- After two characters one byte is read, and four bits are left. -/
theorem decodeLoop_two (h : chunk < 16777216) :
    decodeLoop size 0 0 (digit (chunk / 262144) :: digit (chunk / 4096 % 64) :: rest)
      = (decodeLoop size (chunk / 4096 % 16) 4 rest).map (UInt8.ofNat (chunk / 65536) :: ·) := by
  have hbuf : (0 * 64 + chunk / 262144) * 64 + chunk / 4096 % 64 = chunk / 4096 := by omega
  have hbyte : chunk / 4096 / 16 = chunk / 65536 := by omega
  rw [decodeLoop_few (by omega) (by omega), decodeLoop_byte (by omega) (by omega), hbuf]
  show Option.map (fun bytes => UInt8.ofNat (chunk / 4096 / 16) :: bytes)
    (decodeLoop size (chunk / 4096 % 16) 4 rest) = _
  rw [hbyte]

/-- After the third character there is one more byte, and two bits are left. -/
theorem decodeLoop_third :
    decodeLoop size (chunk / 4096 % 16) 4 (digit (chunk / 64 % 64) :: rest)
      = (decodeLoop size (chunk / 64 % 4) 2 rest).map
          (UInt8.ofNat (chunk / 256 % 256) :: ·) := by
  have hbyte : (chunk / 4096 % 16 * 64 + chunk / 64 % 64) / 4 = chunk / 256 % 256 := by omega
  have hbits : (chunk / 4096 % 16 * 64 + chunk / 64 % 64) % 4 = chunk / 64 % 4 := by omega
  rw [decodeLoop_byte (by omega) (by omega)]
  show Option.map (fun bytes =>
      UInt8.ofNat ((chunk / 4096 % 16 * 64 + chunk / 64 % 64) / 4) :: bytes)
    (decodeLoop size ((chunk / 4096 % 16 * 64 + chunk / 64 % 64) % 4) 2 rest) = _
  rw [hbyte, hbits]

/-- After the fourth there is the third byte, and nothing is left. -/
theorem decodeLoop_fourth :
    decodeLoop size (chunk / 64 % 4) 2 (digit (chunk % 64) :: rest)
      = (decodeLoop size 0 0 rest).map (UInt8.ofNat (chunk % 256) :: ·) := by
  have hbyte : (chunk / 64 % 4 * 64 + chunk % 64) / 1 = chunk % 256 := by omega
  rw [decodeLoop_byte (by omega) (by omega)]
  show Option.map (fun bytes => UInt8.ofNat ((chunk / 64 % 4 * 64 + chunk % 64) / 1) :: bytes)
    (decodeLoop size ((chunk / 64 % 4 * 64 + chunk % 64) % 1) 0 rest) = _
  rw [hbyte, Nat.mod_one]

end Loop

/-- By induction on the chunks: between two of them no bits are left over. -/
theorem decodeLoop_encode (size : Nat) (bytes : List UInt8) :
    decodeLoop size 0 0 (encode bytes) = some bytes := by
  induction bytes using encode.induct with
  | case1 => rfl
  | case2 a =>
    have ha := a.toNat_lt
    have hbyte : a.toNat * 65536 / 65536 = a.toNat := by omega
    show decodeLoop size 0 0 [digit _, digit _] = _
    rw [decodeLoop_two (by omega), hbyte, UInt8.ofNat_toNat]
    rfl
  | case3 a b =>
    have ha := a.toNat_lt
    have hb := b.toNat_lt
    have hfirst : (a.toNat * 65536 + b.toNat * 256) / 65536 = a.toNat := by omega
    have hsecond : (a.toNat * 65536 + b.toNat * 256) / 256 % 256 = b.toNat := by omega
    show decodeLoop size 0 0 [digit _, digit _, digit _] = _
    rw [decodeLoop_two (by omega), decodeLoop_third, hfirst, hsecond, UInt8.ofNat_toNat,
      UInt8.ofNat_toNat]
    rfl
  | case4 a b c rest ih =>
    have ha := a.toNat_lt
    have hb := b.toNat_lt
    have hc := c.toNat_lt
    have hfirst : (a.toNat * 65536 + b.toNat * 256 + c.toNat) / 65536 = a.toNat := by omega
    have hsecond : (a.toNat * 65536 + b.toNat * 256 + c.toNat) / 256 % 256 = b.toNat := by omega
    have hthird : (a.toNat * 65536 + b.toNat * 256 + c.toNat) % 256 = c.toNat := by omega
    show decodeLoop size 0 0 (digit _ :: digit _ :: digit _ :: digit _ :: encode rest) = _
    rw [decodeLoop_two (by omega), decodeLoop_third, decodeLoop_fourth, ih, hfirst, hsecond,
      hthird, UInt8.ofNat_toNat, UInt8.ofNat_toNat, UInt8.ofNat_toNat]
    rfl

theorem decode_encode (bytes : List UInt8) : decode (encode bytes) = some bytes :=
  decodeLoop_encode _ bytes

end Base64

end GpgFrontend
