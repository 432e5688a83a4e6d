import Mathlib.Data.Rat.Floor

/-!
# Whole numbers as doubles

A whole number keeps its 53 leading bits. The cast back is free outside the range of a `qint64`.
-/

namespace GpgFrontend

/-- A whole number as a double: its 53 leading bits, a tie going to the even one. -/
def roundToDouble (n : Int) : ℚ :=
  let a := n.natAbs
  if a < 9007199254740992 then n
  else
    let unit := 2 ^ (a.log2 - 52)
    let q := a / unit
    let r := a % unit
    let rounded := if unit < 2 * r ∨ (unit = 2 * r ∧ q % 2 = 1) then q + 1 else q
    n.sign * (rounded * unit : Nat)

/-- A number without what stands behind its point. -/
def truncateDouble (q : ℚ) : Int := q.num.tdiv q.den

/-- What a machine makes of a double that no `qint64` holds, which the language leaves
open: the least one (x86-64) or the nearest (ARM64). -/
inductive CastOutside where
  | least | nearest
  deriving Repr, DecidableEq

def CastOutside.value : CastOutside → Int → Int
  | .least, _ => -9223372036854775808
  | .nearest, n => if n < 0 then -9223372036854775808 else 9223372036854775807

/-- `static_cast<qint64>` of a double. -/
def castQInt64 (outside : CastOutside) (q : ℚ) : Int :=
  let n := truncateDouble q
  if -9223372036854775808 ≤ n ∧ n < 9223372036854775808 then n else outside.value n

@[simp] theorem truncateDouble_intCast (n : Int) : truncateDouble n = n := by
  rw [truncateDouble, Rat.num_intCast, Rat.den_intCast]
  exact Int.tdiv_one n

theorem roundToDouble_of_lt {n : Int} (h : n.natAbs < 9007199254740992) : roundToDouble n = n := by
  rw [roundToDouble]
  exact if_pos h

/-- Nothing is rounded where the bits that would go are zero. -/
theorem roundToDouble_of_dvd {n : Int} (h : 2 ^ (n.natAbs.log2 - 52) ∣ n.natAbs) :
    roundToDouble n = n := by
  unfold roundToDouble
  extract_lets a unit q r rounded
  split
  · rfl
  · have hr : r = 0 := Nat.mod_eq_zero_of_dvd h
    have hunit : 0 < unit := Nat.two_pow_pos _
    have hrounded : rounded = q := if_neg (by omega)
    rw [hrounded, Nat.div_mul_cancel h, ← Int.cast_natCast, ← Int.cast_mul, Int.sign_mul_natAbs]

/-- At most 53 bits and any number of zeros behind them. -/
theorem roundToDouble_of_bits {n : Int} {k e : Nat} (hn : n.natAbs = k * 2 ^ e)
    (hk : k ≤ 2 ^ 53) : roundToDouble n = n := by
  refine roundToDouble_of_dvd ?_
  rw [hn]
  rcases Nat.lt_or_eq_of_le hk with hk | rfl
  · refine Dvd.dvd.mul_left (Nat.pow_dvd_pow 2 ?_) k
    rcases Nat.eq_zero_or_pos k with rfl | hpos
    · rw [Nat.zero_mul, Nat.log2_zero]
      exact Nat.zero_le e
    · have hlt : (k * 2 ^ e).log2 < 53 + e := by
        rw [Nat.log2_lt (Nat.mul_pos hpos (Nat.two_pow_pos e)).ne', Nat.pow_add]
        exact Nat.mul_lt_mul_of_pos_right hk (Nat.two_pow_pos e)
      omega
  · rw [← Nat.pow_add, Nat.log2_two_pow]
    exact Nat.pow_dvd_pow 2 (Nat.sub_le _ _)

/-- What rounding yields is whole, and is rounded to itself. -/
theorem roundToDouble_round (n : Int) :
    ∃ m : Int, roundToDouble n = m ∧ roundToDouble m = m := by
  unfold roundToDouble
  extract_lets a unit q r rounded
  split
  · next h => exact ⟨n, rfl, roundToDouble_of_lt h⟩
  next h =>
  refine ⟨n.sign * (rounded * unit : Nat), by rw [Int.cast_mul, Int.cast_natCast], ?_⟩
  have hsign : n.sign.natAbs = 1 := Int.natAbs_sign_of_ne_zero (by rintro rfl; exact h (by decide))
  have hq : q < 2 ^ 53 := by
    have hbits : 52 ≤ a.log2 := (Nat.le_log2 (by omega)).mpr (by omega)
    rw [Nat.div_lt_iff_lt_mul (Nat.two_pow_pos _), ← Nat.pow_add, ← Nat.log2_lt (by omega)]
    omega
  have hrounded : rounded ≤ 2 ^ 53 := by
    unfold rounded
    split <;> omega
  refine roundToDouble_of_bits (k := rounded) (e := a.log2 - 52) ?_ hrounded
  rw [Int.natAbs_mul, hsign, Nat.one_mul, Int.natAbs_natCast]

/-- A whole number goes through a double and back as it is rounded, a fraction below
2^53 loses what stands behind the point. -/
theorem roundToDouble_truncate {q : ℚ} (h : q.den = 1 → roundToDouble q.num = q)
    (hfraction : q.den ≠ 1 → q.num.natAbs < 9007199254740992 * q.den) :
    roundToDouble (truncateDouble q) = truncateDouble q := by
  by_cases hden : q.den = 1
  · rw [truncateDouble, hden, Int.natCast_one, Int.tdiv_one, h hden]
    exact (Rat.coe_int_num_of_den_eq_one hden).symm
  · refine roundToDouble_of_lt ?_
    rw [truncateDouble, Int.natAbs_tdiv, Int.natAbs_natCast]
    exact (Nat.div_lt_iff_lt_mul q.den_pos).mpr (hfraction hden)

/-! ## Casts -/

variable {outside : CastOutside} {q : ℚ} {n : Int}

theorem castQInt64_intCast (hlow : -9223372036854775808 ≤ n) (hhigh : n < 9223372036854775808) :
    castQInt64 outside n = n := by
  unfold castQInt64
  rw [truncateDouble_intCast]
  exact if_pos ⟨hlow, hhigh⟩

/-- A size read out of a double is read again from the double it is written as. Where it
was above every `qint64`, it is rounded up to 2^63, which is above them as well. -/
theorem castQInt64_again (hwhole : roundToDouble (truncateDouble q) = truncateDouble q) :
    max 0 (castQInt64 outside (roundToDouble (max 0 (castQInt64 outside q)))) =
      max 0 (castQInt64 outside q) := by
  have hzero : max 0 (castQInt64 outside (roundToDouble 0)) = 0 := by
    rw [roundToDouble_of_lt (by decide), castQInt64_intCast (by decide) (by decide)]
    rfl
  have hnonpos (h : castQInt64 outside q ≤ 0) :
      max 0 (castQInt64 outside (roundToDouble (max 0 (castQInt64 outside q)))) =
        max 0 (castQInt64 outside q) := by
    rw [max_eq_left h, hzero]
  by_cases hrange : -9223372036854775808 ≤ truncateDouble q ∧
      truncateDouble q < 9223372036854775808
  · have hcast : castQInt64 outside q = truncateDouble q := if_pos hrange
    rcases Int.le_total (castQInt64 outside q) 0 with hneg | hpos
    · exact hnonpos hneg
    · rw [max_eq_right hpos, hcast, hwhole, castQInt64_intCast hrange.1 hrange.2,
        max_eq_right (hcast ▸ hpos)]
  have houtside : castQInt64 outside q = outside.value (truncateDouble q) := if_neg hrange
  cases outside with
  | least => exact hnonpos (houtside.trans_le (show (-9223372036854775808 : Int) ≤ 0 by decide))
  | nearest =>
    by_cases hneg : truncateDouble q < 0
    · exact hnonpos (houtside.trans_le ((if_pos hneg).trans_le (by decide)))
    · have hmost : castQInt64 .nearest q = 9223372036854775807 := houtside.trans (if_neg hneg)
      have hlog : (9223372036854775807 : Nat).log2 = 62 := by decide +kernel
      have hup : roundToDouble 9223372036854775807 = ((9223372036854775808 : Int) : ℚ) := by
        simp [roundToDouble, hlog]
      rw [hmost, max_eq_right (by decide : (0 : Int) ≤ 9223372036854775807), hup]
      unfold castQInt64
      rw [truncateDouble_intCast]
      decide

end GpgFrontend
