import GpgFrontend.Rpgp.Attribution
import GpgFrontend.Rpgp.UnverifiedSignatures

/-!
# When a signature has expired

A Signature Expiration Time counts from the creation of the signature; zero, or none at all,
means never. The rule is coded twice: for signatures over documents and for self-signatures.

- `expiry_rules_iff`: **where both follow it.**
-/

namespace GpgFrontend

namespace Rpgp

/-- The signature with these two dates. -/
def Signature.withDates (sig : Signature) (created : UInt32) (expiration : Option UInt32) :
    Signature :=
  { sig with created := some created, signatureExpirationTime := expiration }

/-- Whether a signature made at `created` has expired at `now`. -/
def expiredBy (created : UInt32) (expiration : Option UInt32) (now : UInt32) : Bool :=
  match expiration with
  | none => false
  | some secs => decide (secs ≠ 0) && decide (created.toNat + secs.toNat ≤ now.toNat)

/-- Both checks follow the rule. -/
def FollowsExpiryRule (describe : Signature → String × String) (mode : GfrSignMode)
    (sig : Signature) (created : UInt32) (expiration : Option UInt32) (now : UInt32) : Prop :=
  signatureResultExpired (sigEntryFromPacket describe mode (sig.withDates created expiration))
      now.toUInt64 = expiredBy created expiration now ∧
    (!sigAliveAt (sig.withDates created expiration) now) = expiredBy created expiration now

section

variable (describe : Signature → String × String) (mode : GfrSignMode) (sig : Signature)
  (created now : UInt32)

theorem document_expired_iff (secs : UInt32) :
    signatureResultExpired (sigEntryFromPacket describe mode (sig.withDates created (some secs)))
        now.toUInt64 = true ↔
      created.toNat + secs.toNat ≠ 0 ∧
        min (created.toNat + secs.toNat) (UInt32.size - 1) < now.toNat := by
  have hexpiry : (sigEntryFromPacket describe mode (sig.withDates created (some secs))).expiresAt
      = saturatingAdd created secs := rfl
  have hzero : saturatingAdd created secs = 0 ↔ created.toNat + secs.toNat = 0 := by
    rw [← UInt32.toNat_inj, saturatingAdd_toNat]
    simp only [UInt32.size, UInt32.toNat_zero]
    omega
  rw [signatureResultExpired, hexpiry]
  by_cases h : saturatingAdd created secs = 0
  · rw [if_pos h]
    exact iff_of_false Bool.false_ne_true fun hno => hno.1 (hzero.1 h)
  · rw [if_neg h, decide_eq_true_iff, UInt64.lt_iff_toNat_lt, UInt32.toNat_toUInt64,
      UInt32.toNat_toUInt64, saturatingAdd_toNat]
    exact (and_iff_right fun hno => h (hzero.2 hno)).symm

theorem self_expired_iff (secs : UInt32) (hsecs : secs ≠ 0) :
    (!sigAliveAt (sig.withDates created (some secs)) now) = true ↔
      min (created.toNat + secs.toNat) (UInt32.size - 1) ≤ now.toNat := by
  have halive : sigAliveAt (sig.withDates created (some secs)) now
      = decide (now < saturatingAdd created secs) := if_neg hsecs
  rw [halive, Bool.not_eq_true', decide_eq_false_iff_not, UInt32.lt_iff_toNat_lt,
    saturatingAdd_toNat, Nat.not_lt]

end

/-- The two checks follow the rule exactly when a duration of zero is not yet over, and the time
is neither that of the expiry nor, after an expiry beyond it, the last one there is. -/
theorem expiry_rules_iff (describe : Signature → String × String) (mode : GfrSignMode)
    (sig : Signature) (created : UInt32) (expiration : Option UInt32) (now : UInt32) :
    FollowsExpiryRule describe mode sig created expiration now ↔
      match expiration with
      | none => True
      | some secs =>
        if secs = 0 then created = 0 ∨ now ≤ created
        else created.toNat + secs.toNat ≠ now.toNat ∧
          (UInt32.size ≤ created.toNat + secs.toNat → now.toNat ≠ UInt32.size - 1) := by
  unfold FollowsExpiryRule
  cases expiration with
  | none => exact iff_of_true ⟨rfl, rfl⟩ trivial
  | some secs =>
    have hnow := now.toNat_lt
    have hdocument := document_expired_iff describe mode sig created now secs
    by_cases hsecs : secs = 0
    · subst hsecs
      have halive : sigAliveAt (sig.withDates created (some 0)) now = true := rfl
      have hcreated := created.toNat_lt
      rw [halive, Bool.eq_iff_iff, hdocument]
      simp only [expiredBy, ne_eq, not_true, decide_false, Bool.false_and, Bool.not_true, and_true,
        Bool.false_eq_true, iff_false, if_true, UInt32.toNat_zero, ← UInt32.toNat_inj,
        UInt32.le_iff_toNat_le, UInt32.size]
      omega
    · have hself := self_expired_iff sig created now secs hsecs
      have hpos : secs.toNat ≠ 0 := fun h => hsecs (UInt32.toNat_inj.1 h)
      rw [Bool.eq_iff_iff, Bool.eq_iff_iff (a := !sigAliveAt _ now), hdocument, hself]
      simp only [expiredBy, ne_eq, hsecs, not_false_eq_true, decide_true, Bool.true_and,
        decide_eq_true_eq, if_false, UInt32.size]
      omega

/-- At the second it expires in, a signature over a document has not expired, and a
self-signature has. -/
theorem expiry_rules_differ :
    ¬ ∀ (describe : Signature → String × String) (mode : GfrSignMode) (sig : Signature)
      (created : UInt32) (expiration : Option UInt32) (now : UInt32),
      FollowsExpiryRule describe mode sig created expiration now := by
  intro h
  have hrule := h (fun _ => ("SHA256", "EdDSA")) .detached (plainSignature 1 .binary 100) 100
    (some 50) 150
  exact absurd hrule.1 (by decide)

end Rpgp

end GpgFrontend
