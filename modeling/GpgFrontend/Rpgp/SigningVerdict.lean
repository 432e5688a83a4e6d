import GpgFrontend.Rpgp.SelfSignatures

/-!
# What a key may vouch for (`rust/src/key.rs`)

The verdict of a certificate's primary key, or of one of its subkeys, on a signature made at
an instant. A verification asks it at the signature's creation time, a signing operation
asks it now.
-/

namespace GpgFrontend

namespace Rpgp

/-- Why a key does, or does not, vouch for a signature, worst first. -/
inductive KeyVerdict
  | noMatch | notAuthorized | expired | revoked | authorized
deriving DecidableEq, Repr

/-- The derived `Ord`: the position in the declaration. -/
def KeyVerdict.rank : KeyVerdict → Nat
  | .noMatch => 0
  | .notAuthorized => 1
  | .expired => 2
  | .revoked => 3
  | .authorized => 4

theorem KeyVerdict.rank_injective {v w : KeyVerdict} (h : v.rank = w.rank) : v = w := by
  cases v <;> cases w <;> first | rfl | (simp [KeyVerdict.rank] at h)

/-- `Ord::max`: of two equal values, the second. -/
def KeyVerdict.max (v w : KeyVerdict) : KeyVerdict := if w.rank < v.rank then v else w

/-- `expiry_of`: no Key Expiration Time, or zero, is never. -/
def expiryOf (sig : Option Signature) (createdAt : UInt32) : UInt32 :=
  match sig.bind Signature.keyExpirationTime with
  | some dur => if dur = 0 then 0 else saturatingAdd createdAt dur
  | none => 0

/-- Does the signature carry Key Flags among its hashed subpackets. -/
def hasKeyFlags (sig : Signature) : Bool :=
  match sig.config with
  | none => false
  | some hashed => hashed.any fun sp => decide (sp.data = .keyFlags)

/-- `flags_allow_signing`: without Key Flags, the algorithm decides. -/
def flagsAllowSigning (sig : Option Signature) (algorithmCanSign : Bool) : Bool :=
  match sig with
  | some s => if hasKeyFlags s then s.keyFlags.sign else algorithmCanSign
  | none => algorithmCanSign

/-- The Key Expiration Time that `sig` sets has come by `t`. -/
def expiredAt (sig : Option Signature) (createdAt t : UInt32) : Bool :=
  decide (expiryOf sig createdAt ≠ 0) && decide (expiryOf sig createdAt ≤ t)

section

variable (V : Verifier)

/-- `primary_verdict`. -/
def primaryVerdict (primary : PublicKey) (details : SignedKeyDetails) (t : UInt32) :
    KeyVerdict :=
  if keyForbidden primary.publicParams || decide (t < primary.createdAt) then .notAuthorized
  else if (primaryRevocationState V primary details).revokedAt t then .revoked
  else
    match primarySigInForce V primary details (some t) t with
    | none => .notAuthorized
    | some sig => if expiredAt (some sig) primary.createdAt t then .expired else .authorized

/-- `primary_signing_verdict`. -/
def primarySigningVerdict (primary : PublicKey) (details : SignedKeyDetails) (t : UInt32) :
    KeyVerdict :=
  if primaryVerdict V primary details t ≠ .authorized then primaryVerdict V primary details t
  else
    if !flagsAllowSigning (primarySigInForce V primary details (some t) t)
        primary.algorithmCanSign then .notAuthorized
    else .authorized

/-- The embedded Primary Key Binding of a subkey binding is there and verifies. -/
def backsigOk (primary : PublicKey) (subkey : PublicSubkey) (binding : Signature) : Bool :=
  match binding.embeddedSignature with
  | none => false
  | some back =>
    decide (back.typ = some .keyBinding) && certificationHashAcceptable back
      && V.verifyPrimaryKeyBinding back subkey primary

/-- `subkey_signing_verdict`. -/
def subkeySigningVerdict (primary : PublicKey) (details : SignedKeyDetails)
    (subkey : PublicSubkey) (signatures : List Signature) (t : UInt32) : KeyVerdict :=
  if primaryVerdict V primary details t ≠ .authorized then primaryVerdict V primary details t
  else if keyForbidden subkey.publicParams || decide (t < subkey.createdAt) then .notAuthorized
  else if (subkeyRevocationState V primary subkey signatures).revokedAt t then .revoked
  else
    match subkeyBindingInForce V primary subkey signatures (some t) t with
    | none => .notAuthorized
    | some binding =>
      if !flagsAllowSigning (some binding) subkey.algorithmCanSign then .notAuthorized
      else if !backsigOk V primary subkey binding then .notAuthorized
      else if expiredAt (some binding) subkey.createdAt t then .expired
      else .authorized

/-! ## What `Authorized` takes -/

theorem primaryVerdict_authorized_iff (primary : PublicKey) (details : SignedKeyDetails)
    (t : UInt32) :
    primaryVerdict V primary details t = .authorized ↔
      keyForbidden primary.publicParams = false ∧ ¬ t < primary.createdAt ∧
      (primaryRevocationState V primary details).revokedAt t = false ∧
      ∃ sig, primarySigInForce V primary details (some t) t = some sig ∧
        expiredAt (some sig) primary.createdAt t = false := by
  rw [primaryVerdict]
  by_cases hf : keyForbidden primary.publicParams <;>
    by_cases hc : t < primary.createdAt <;>
    by_cases hr : (primaryRevocationState V primary details).revokedAt t <;>
    simp [hf, hc, hr]
  cases hs : primarySigInForce V primary details (some t) t with
  | none => simp
  | some sig => by_cases he : expiredAt (some sig) primary.createdAt t <;> simp [he]

theorem primarySigningVerdict_authorized_iff (primary : PublicKey) (details : SignedKeyDetails)
    (t : UInt32) :
    primarySigningVerdict V primary details t = .authorized ↔
      primaryVerdict V primary details t = .authorized ∧
      flagsAllowSigning (primarySigInForce V primary details (some t) t)
        primary.algorithmCanSign = true := by
  rw [primarySigningVerdict]
  by_cases hp : primaryVerdict V primary details t = .authorized <;>
    by_cases hf : flagsAllowSigning (primarySigInForce V primary details (some t) t)
        primary.algorithmCanSign <;>
    simp [hp, hf]

theorem subkeySigningVerdict_authorized_iff (primary : PublicKey) (details : SignedKeyDetails)
    (subkey : PublicSubkey) (signatures : List Signature) (t : UInt32) :
    subkeySigningVerdict V primary details subkey signatures t = .authorized ↔
      primaryVerdict V primary details t = .authorized ∧
      keyForbidden subkey.publicParams = false ∧ ¬ t < subkey.createdAt ∧
      (subkeyRevocationState V primary subkey signatures).revokedAt t = false ∧
      ∃ binding, subkeyBindingInForce V primary subkey signatures (some t) t = some binding ∧
        flagsAllowSigning (some binding) subkey.algorithmCanSign = true ∧
        backsigOk V primary subkey binding = true ∧
        expiredAt (some binding) subkey.createdAt t = false := by
  rw [subkeySigningVerdict]
  by_cases hp : primaryVerdict V primary details t = .authorized
  case neg => simp [hp]
  by_cases hf : keyForbidden subkey.publicParams <;>
    by_cases hc : t < subkey.createdAt <;>
    by_cases hr : (subkeyRevocationState V primary subkey signatures).revokedAt t <;>
    simp [hp, hf, hc, hr]
  cases hs : subkeyBindingInForce V primary subkey signatures (some t) t with
  | none => simp
  | some binding =>
    by_cases ha : flagsAllowSigning (some binding) subkey.algorithmCanSign <;>
      by_cases hb : backsigOk V primary subkey binding <;>
      by_cases he : expiredAt (some binding) subkey.createdAt t <;>
      simp [ha, hb, he]

end

end Rpgp

end GpgFrontend
