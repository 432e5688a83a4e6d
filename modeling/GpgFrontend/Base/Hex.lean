import GpgFrontend.Base.SecretStream

/-!
# Hexadecimal text

`toHex` writes two digits a byte, and `toHex_inj`: different bytes have different texts.
-/

namespace GpgFrontend

/-- `QByteArray::toHex`. -/
def toHex (bytes : Bytes) : List Char :=
  bytes.flatMap fun b => [Nat.digitChar (b.toNat / 16), Nat.digitChar (b.toNat % 16)]

theorem digitChar_inj :
    ∀ a < 16, ∀ b < 16, Nat.digitChar a = Nat.digitChar b → a = b := by
  decide

theorem toHex_inj {a b : Bytes} (h : toHex a = toHex b) : a = b := by
  induction a generalizing b with
  | nil =>
    cases b with
    | nil => rfl
    | cons y b => cases h
  | cons x a ih =>
    cases b with
    | nil => cases h
    | cons y b =>
      simp only [toHex, List.flatMap_cons, List.cons_append, List.nil_append, List.cons.injEq] at h
      obtain ⟨hhigh, hlow, hrest⟩ := h
      have hx := x.toNat_lt
      have hy := y.toNat_lt
      have hdiv : x.toNat / 16 = y.toNat / 16 := digitChar_inj _ (by omega) _ (by omega) hhigh
      have hmod : x.toNat % 16 = y.toNat % 16 := digitChar_inj _ (by omega) _ (by omega) hlow
      have hxy : x = y := UInt8.toNat_inj.mp (by omega)
      rw [hxy, ih hrest]

theorem toHex_ne_nil {a : Bytes} (h : a ≠ []) : toHex a ≠ [] := by
  cases a with
  | nil => exact absurd rfl h
  | cons x a => simp [toHex]

end GpgFrontend
