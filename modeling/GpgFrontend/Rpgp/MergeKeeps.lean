import GpgFrontend.Rpgp.MergeKeys

/-!
# What a merge keeps of a certificate, and takes (`rust/src/key.rs`)

- `merge_keeps`: **merging a certificate into the stored one loses no stored signature**, and no
  junk in front of it keeps out what the key holder issued on the key or a User ID.
-/

namespace GpgFrontend.Rpgp

/-- A signature, or a copy of its packet. -/
def Holds (sigs : List Signature) (sig : Signature) : Prop := ∃ held ∈ sigs, held.bytes = sig.bytes

/-- Of the merge `m` of `b` into the stored certificate `a`. On the key itself one copy of each
packet is kept. -/
structure MergeKeeps (V : Verifier) (a b m : SignedPublicKey) : Prop where
  primaryKey : m.primaryKey = a.primaryKey
  direct : ∀ sig ∈ a.details.directSignatures, Holds m.details.directSignatures sig
  revocations : ∀ sig ∈ a.details.revocationSignatures, Holds m.details.revocationSignatures sig
  users : ∀ u ∈ a.details.users, ∃ u' ∈ m.details.users,
    u'.id = u.id ∧ u.signatures <+: u'.signatures
  attributes : ∀ u ∈ a.details.userAttributes, ∃ u' ∈ m.details.userAttributes,
    u'.attr = u.attr ∧ u.signatures <+: u'.signatures
  subkeys : ∀ s ∈ a.publicSubkeys, ∃ s' ∈ m.publicSubkeys,
    s'.key = s.key ∧ s.signatures <+: s'.signatures
  newDirect : ∀ sig ∈ b.details.directSignatures, namesPrimaryAsIssuer sig a.primaryKey = true →
    V.verifyKey sig a.primaryKey = true → Holds m.details.directSignatures sig
  newRevocations : ∀ sig ∈ b.details.revocationSignatures,
    namesPrimaryAsIssuer sig a.primaryKey = true → V.verifyKey sig a.primaryKey = true →
      Holds m.details.revocationSignatures sig
  /-- A User ID is taken when it is stored already, or certified by the key holder. -/
  newUsers : ∀ u ∈ b.details.users, (∃ w ∈ a.details.users, w.id.text = u.id.text) ∨
    hasVerifiedUidCertification V a.primaryKey u = true → ∃ u' ∈ m.details.users,
      u'.id.text = u.id.text ∧ ∀ sig ∈ u.signatures, namesPrimaryAsIssuer sig a.primaryKey = true →
        V.verifyCertification sig a.primaryKey u'.id = true → Holds u'.signatures sig
  newSubkeys : ∀ s ∈ b.publicSubkeys, ∃ s' ∈ m.publicSubkeys,
    s'.key.fingerprint = s.key.fingerprint

section

variable {dst src : List Signature} {sig : Signature} {primary : PublicKey}
  {verifies : Signature → Bool}

theorem dedup_holds (h : Holds dst sig) : Holds (dedupSignaturesInPlace dst) sig := by
  obtain ⟨held, hmem, hbytes⟩ := h
  obtain ⟨kept, hkept, heq⟩ : ∃ b ∈ dedupSignaturesInPlace dst, b.bytes = held.bytes :=
    dedupFrom_holds hmem List.not_mem_nil
  exact ⟨kept, hkept, heq.trans hbytes⟩

theorem holds_stored (h : sig ∈ dst) (p : Option PublicKey) :
    Holds (mergeCheckedSignatures dst src p verifies) sig :=
  ⟨sig, (prefix_mergeCapped dst src).subset h, rfl⟩

theorem holds_issued (h : sig ∈ src) (hnames : namesPrimaryAsIssuer sig primary = true)
    (hverifies : verifies sig = true) :
    Holds (mergeCheckedSignatures dst src (some primary) verifies) sig :=
  mergeCapped_holds h hnames hverifies dst

end

theorem mergeUsers_takes (V : Verifier) (primary : PublicKey) {dst src : List SignedUser}
    {u : SignedUser} (hu : u ∈ src) (h : (∃ w ∈ dst, w.id.text = u.id.text) ∨
      hasVerifiedUidCertification V primary u = true) :
    ∃ u' ∈ mergeUsers V primary dst src, u'.id.text = u.id.text ∧
      ∀ sig ∈ u.signatures, namesPrimaryAsIssuer sig primary = true →
        V.verifyCertification sig primary u'.id = true → Holds u'.signatures sig := by
  unfold mergeUsers
  refine mergeKeyed_takes (Q := fun (u u' : SignedUser) => ∀ sig ∈ u.signatures,
    namesPrimaryAsIssuer sig primary = true →
      V.verifyCertification sig primary u'.id = true → Holds u'.signatures sig)
    ?_ ?_ ?_ ?_ hu ?_
  · exact fun _ _ => rfl
  · intro c d hmake
    unfold newUser at hmake
    split at hmake
    · cases hmake
      exact ⟨rfl, fun sig hsig _ _ => ⟨sig, hsig, rfl⟩⟩
    · cases hmake
  · exact fun d c sig hsig hnames hverifies => holds_issued hsig hnames hverifies
  · intro d c c' hQ sig hsig hnames hverifies
    obtain ⟨held, hheld, hbytes⟩ := hQ sig hsig hnames hverifies
    exact ⟨held, (prefix_mergeCapped _ _).subset hheld, hbytes⟩
  · refine h.imp_right fun hcert => ?_
    rw [newUser, if_pos hcert]
    rfl

/-- **No stored signature is lost in a merge, and no flood of others keeps out a self-signature or
a revocation** that the key holder made on the key or on a User ID. -/
theorem merge_keeps (V : Verifier) (a b : SignedPublicKey) :
    mergeKeyBlock V (.public_ a) (.public_ b) =
        (if a.primaryKey.fingerprint ≠ b.primaryKey.fingerprint then .error .errorInvalidInput
        else .ok (.public_ (mergePkIntoPk V a b))) ∧
      MergeKeeps V a b (mergePkIntoPk V a b) := by
  refine ⟨rfl, rfl, fun sig hsig => dedup_holds (holds_stored hsig _),
    fun sig hsig => dedup_holds (holds_stored hsig _), fun u hu => ?_, fun u hu => ?_,
    fun s hs => ?_,
    fun sig hsig hnames hverifies => dedup_holds (holds_issued hsig hnames hverifies),
    fun sig hsig hnames hverifies => dedup_holds (holds_issued hsig hnames hverifies),
    fun u hu hstored => ?_, fun s hs => ?_⟩
  · exact mergeKeyed_keeps (R := fun (u u' : SignedUser) =>
      u'.id = u.id ∧ u.signatures <+: u'.signatures) (fun _ => ⟨rfl, List.prefix_rfl⟩)
      (fun _ _ _ h h' => ⟨h'.1.trans h.1, h.2.trans h'.2⟩)
      (fun _ (_ : SignedUser) => by exact ⟨rfl, prefix_mergeCapped _ _⟩) hu _
  · exact mergeKeyed_keeps (R := fun (u u' : SignedUserAttribute) =>
      u'.attr = u.attr ∧ u.signatures <+: u'.signatures) (fun _ => ⟨rfl, List.prefix_rfl⟩)
      (fun _ _ _ h h' => ⟨h'.1.trans h.1, h.2.trans h'.2⟩)
      (fun _ (_ : SignedUserAttribute) => by exact ⟨rfl, prefix_mergeCapped _ _⟩) hu _
  · exact mergeKeyed_keeps (R := fun (s s' : SignedPublicSubKey) =>
      s'.key = s.key ∧ s.signatures <+: s'.signatures) (fun _ => ⟨rfl, List.prefix_rfl⟩)
      (fun _ _ _ h h' => ⟨h'.1.trans h.1, h.2.trans h'.2⟩)
      (fun _ (_ : SignedPublicSubKey) => by exact ⟨rfl, prefix_mergeCapped _ _⟩) hs _
  · exact mergeUsers_takes V a.primaryKey hu hstored
  · have htaken : ∃ s' ∈ mergePublicSubkeys a.publicSubkeys b.publicSubkeys,
        s'.key.fingerprint = s.key.fingerprint ∧ True :=
      mergeKeyed_takes (Q := fun _ _ => True) (fun _ _ => by rfl)
        (fun _ _ hmake => by cases hmake; exact ⟨rfl, trivial⟩) (fun _ _ => trivial)
        (fun _ _ _ _ => trivial) hs (.inr rfl)
    obtain ⟨s', hs', hkey, -⟩ := htaken
    exact ⟨s', hs', hkey⟩

end GpgFrontend.Rpgp
