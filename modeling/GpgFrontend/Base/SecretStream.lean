import Mathlib.Algebra.Ring.Nat
import Mathlib.Data.List.Basic

/-!
# Byte strings and authenticated message streams
-/

namespace GpgFrontend

/-- A byte string. -/
abbrev Bytes : Type := List UInt8

/-- An array of exactly `n` bytes. -/
abbrev Block (n : Nat) : Type := { b : Bytes // b.length = n }

/-! ## Big-endian integers -/

/-- The low 32 bits of `v`, most significant byte first. -/
def bigEndian32 (v : Nat) : Bytes :=
  [UInt8.ofNat (v / 2 ^ 24), UInt8.ofNat (v / 2 ^ 16), UInt8.ofNat (v / 2 ^ 8), UInt8.ofNat v]

/-- The integer four bytes spell; other lengths spell nothing useful. -/
def ofBigEndian32 : Bytes → Nat
  | [a, b, c, d] => a.toNat * 2 ^ 24 + b.toNat * 2 ^ 16 + c.toNat * 2 ^ 8 + d.toNat
  | _ => 0

@[simp] theorem length_bigEndian32 (v : Nat) : (bigEndian32 v).length = 4 := rfl

theorem ofBigEndian32_bigEndian32 {v : Nat} (h : v < 2 ^ 32) :
    ofBigEndian32 (bigEndian32 v) = v := by
  simp only [bigEndian32, ofBigEndian32, UInt8.toNat_ofNat']
  omega

/-! ## The stream interface -/

/-- The interface of a stateful authenticated stream. `initPush` takes the key
and the header drawn at random, `initPull` the header read back and the key;
`push` seals a message under a tag, `pull` opens a sealed frame. Every operation
may report a failure. `zeroed` is the state before either `init`. -/
structure SecretStream where
  State : Type
  zeroed : State
  initPush : Bytes → Bytes → Option State
  initPull : Bytes → Bytes → Option State
  push : State → Bytes → UInt8 → Option (Bytes × State)
  pull : State → Bytes → Option (Bytes × UInt8 × State)

namespace SecretStream

/-- Length of a stream header. -/
def headerBytes : Nat := 24

/-- How many bytes sealing adds to a message. -/
def abytes : Nat := 17

/-- The longest message that can be sealed at once. -/
def messageBytesMax : Nat := 64 * (2 ^ 32 - 2)

/-- The tag of an ordinary message. -/
def tagMessage : UInt8 := 0

/-- The tag that ends a stream. -/
def tagFinal : UInt8 := 3

/-- The sealing side works: both sides derive the same state from key and
header, and sealing a message of an allowed length succeeds and adds `abytes`. -/
structure Seals (S : SecretStream) : Prop where
  initPush_some : ∀ key header, ∃ st, S.initPush key header = some st
  initPull_initPush : ∀ {key header st},
    S.initPush key header = some st → S.initPull header key = some st
  push_some : ∀ st {m : Bytes} tag, m.length ≤ messageBytesMax →
    ∃ c st', S.push st m tag = some (c, st')
  length_push : ∀ {st m tag c st'},
    S.push st m tag = some (c, st') → c.length = m.length + abytes

/-- Pulling inverts pushing: opening a sealed frame at the state it was sealed
in returns the message and tag and leaves the state the sealer is in. -/
structure Inverts (S : SecretStream) : Prop extends Seals S where
  pull_push : ∀ {st m tag c st'},
    S.push st m tag = some (c, st') → S.pull st c = some (m, tag, st')

variable {S : SecretStream}

/-- A pushing run: the tagged messages, the frames they were sealed to, and the
state reached. -/
inductive Pushes (S : SecretStream) :
    S.State → List (Bytes × UInt8) → List Bytes → S.State → Prop where
  | nil (st : S.State) : Pushes S st [] [] st
  | cons {st st₁ st' : S.State} {m : Bytes} {tag : UInt8} {c : Bytes}
      {ms : List (Bytes × UInt8)} {cs : List Bytes} :
      S.push st m tag = some (c, st₁) → Pushes S st₁ ms cs st' →
      Pushes S st ((m, tag) :: ms) (c :: cs) st'

theorem Pushes.append {st st₁ st₂ : S.State} {ms ms' : List (Bytes × UInt8)}
    {cs cs' : List Bytes} (h : S.Pushes st ms cs st₁) (h' : S.Pushes st₁ ms' cs' st₂) :
    S.Pushes st (ms ++ ms') (cs ++ cs') st₂ := by
  induction h with
  | nil st => exact h'
  | cons hpush _ ih => exact .cons hpush (ih h')

theorem Pushes.single {st st' : S.State} {m : Bytes} {tag : UInt8} {c : Bytes}
    (h : S.push st m tag = some (c, st')) : S.Pushes st [(m, tag)] [c] st' :=
  .cons h (.nil st')

/-- A pushing run whose frames open, each at the state it was sealed in. -/
inductive Relays (S : SecretStream) :
    S.State → List (Bytes × UInt8) → List Bytes → S.State → Prop where
  | nil (st : S.State) : Relays S st [] [] st
  | cons {st st₁ st' : S.State} {m : Bytes} {tag : UInt8} {c : Bytes}
      {ms : List (Bytes × UInt8)} {cs : List Bytes} :
      S.push st m tag = some (c, st₁) → S.pull st c = some (m, tag, st₁) →
      Relays S st₁ ms cs st' → Relays S st ((m, tag) :: ms) (c :: cs) st'

/-- The honest run that seals `msgs` opens to them. -/
def Reopens (S : SecretStream) (key header : Bytes) (msgs : List (Bytes × UInt8)) : Prop :=
  ∀ ⦃st₀ st : S.State⦄ ⦃cs : List Bytes⦄, S.initPush key header = some st₀ →
    S.Pushes st₀ msgs cs st → S.Relays st₀ msgs cs st

theorem Inverts.reopens (hS : S.Inverts) (key header : Bytes) (msgs : List (Bytes × UInt8)) :
    S.Reopens key header msgs := by
  intro st₀ st cs hinit hpushes
  clear hinit
  induction hpushes with
  | nil st => exact .nil st
  | cons hpush _ ih => exact .cons hpush (hS.pull_push hpush) ih

/-- Security relative to one honest run under `key` and `header` that seals
`msgs`: at each of its states the frame sealed there opens to its message and
nothing else opens at all, and a stream under any other key or header opens
nothing. -/
structure Ideal (S : SecretStream) (key header : Bytes) (msgs : List (Bytes × UInt8)) :
    Prop where
  onlyPushed : ∀ {st₀ st st' : S.State} {ms ms' : List (Bytes × UInt8)} {cs : List Bytes}
    {m : Bytes} {tag : UInt8} {c : Bytes}, S.initPush key header = some st₀ →
    msgs = ms ++ (m, tag) :: ms' → S.Pushes st₀ ms cs st → S.push st m tag = some (c, st') →
    ∀ f, S.pull st f = if f = c then some (m, tag, st') else none
  foreign : ∀ {key' header' : Bytes} {st : S.State}, (key', header') ≠ (key, header) →
    S.initPull header' key' = some st → ∀ f, S.pull st f = none

/-- The induction is on the run that is still to come, with the run so far beside it. -/
theorem Ideal.reopens {key header : Bytes} {msgs : List (Bytes × UInt8)}
    (hI : S.Ideal key header msgs) : S.Reopens key header msgs := by
  intro st₀ st cs hinit hpushes
  have hrest : ∀ {ms ms' : List (Bytes × UInt8)} {cs cs' : List Bytes} {mid st : S.State},
      msgs = ms ++ ms' → S.Pushes st₀ ms cs mid → S.Pushes mid ms' cs' st →
      S.Relays mid ms' cs' st := by
    intro ms ms' cs cs' mid st hmsgs hbefore hafter
    induction hafter generalizing ms cs with
    | nil st => exact .nil st
    | @cons mid st₁ st m tag c ms' cs' hpush _ ih =>
      have hpull := hI.onlyPushed hinit hmsgs hbefore hpush c
      rw [if_pos rfl] at hpull
      refine .cons hpush hpull (ih ?_ (hbefore.append (.single hpush)))
      rw [hmsgs, List.append_assoc, List.singleton_append]
  exact hrest (List.nil_append msgs).symm (.nil st₀) hpushes

end SecretStream

end GpgFrontend
