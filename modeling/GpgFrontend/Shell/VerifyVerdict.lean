import GpgFrontend.OpenPGP.SharedKeyPairs

/-!
# The verdict on the signatures of a message (`GpgVerifyResultAnalyse.cpp`)

One loop over the signatures keeps the worst status there is, and stops at the first one that is
bad; a second loop gives each a card. What is written to the report is left out.

- `printSigner`, `reportSignature`, `reportLoop`: the first loop.
- `worst`, `reportLoop_eq`: **the loop keeps the minimum over all signatures**, whatever it skips.
-/

namespace GpgFrontend.Shell

/-! ## Signatures -/

/-- The codes of `GFErrorCode` that the analysis tells apart. -/
inductive GFErrorCode
  | ok | badSignature | noPublicKey | keyRevoked | signatureExpired | keyExpired | wrongKeyUsage
  | unsupportedAlgorithm | general
  | other (code : Nat)
  deriving Repr, DecidableEq

inductive GFSignatureStatus
  | valid | badSignature | noKey | unknownError | keyRevoked | keyExpired | keyNotAuthorized
  | signatureExpired | weakHash | keyExpiredSince | keyRevokedSince
  deriving Repr, DecidableEq

inductive GpgValidity
  | unknown | undefined | never | marginal | full | ultimate
  deriving Repr, DecidableEq

/-- A signature as an engine gives it; GnuPG alone sets the last three. -/
structure GFSignature where
  issuerFpr : QString
  status : GFSignatureStatus
  engineStatus : Option GFErrorCode := none
  validity : Option GpgValidity := none
  summary : Option UInt32 := none
  hasTrustModel : Bool := false
  deriving Repr, DecidableEq

def kSigsumValid : UInt32 := 1
def kSigsumGreen : UInt32 := 2
def kSigsumRed : UInt32 := 4
def kSigsumKeyRevoked : UInt32 := 8
def kSigsumKeyExpired : UInt32 := 16
def kSigsumSigExpired : UInt32 := 32
def kSigsumKeyMissing : UInt32 := 64
def kSigsumCrlMissing : UInt32 := 128

namespace GFSignature

def getStatus (sign : GFSignature) : GFErrorCode :=
  match sign.engineStatus with
  | some code => code
  | none =>
    match sign.status with
    | .valid => .ok
    | .badSignature => .badSignature
    | .noKey => .noPublicKey
    | .keyRevoked => .keyRevoked
    | .keyExpired => .keyExpired
    | .keyNotAuthorized => .wrongKeyUsage
    | .signatureExpired => .signatureExpired
    | .weakHash => .unsupportedAlgorithm
    | .keyExpiredSince => .keyExpired
    | .keyRevokedSince => .keyRevoked
    | .unknownError => .general

def getSummary (sign : GFSignature) : UInt32 :=
  match sign.summary with
  | some summary => summary
  | none =>
    match sign.status with
    | .valid => kSigsumValid ||| kSigsumGreen
    | .keyRevoked | .keyRevokedSince => kSigsumRed ||| kSigsumKeyRevoked
    | .keyExpired | .keyExpiredSince => kSigsumRed ||| kSigsumKeyExpired
    | .signatureExpired => kSigsumRed ||| kSigsumSigExpired
    | _ => kSigsumRed

def getValidity (sign : GFSignature) : GpgValidity := sign.validity.getD .full

def isKeyExpiredAtSigning (sign : GFSignature) : Bool := sign.status = .keyExpired

/-- A flag is set in the summary. -/
def has (sign : GFSignature) (flag : UInt32) : Bool := sign.getSummary &&& flag ≠ 0

/-- GnuPG's own verdict on the key: never valid. -/
def distrusted (sign : GFSignature) : Bool := sign.getValidity = .never

end GFSignature

/-! ## The keyring -/

/-- What a card shows of a key that is found. -/
structure SignerKey where
  id : QString
  uid : QString
  deriving Repr, DecidableEq

/-- The keys of the repository, the order of its hash, and what it finds by a fingerprint. -/
structure Keyring where
  keys : List (Option GpgKeyPair)
  order : List QString
  order_perm : order.Perm (indexKeyPairs keys).byFpr.keys
  getKey : QString → Option SignerKey
  ownerUid : GpgKeyPair → QString

/-- `sharing_key_pairs`. -/
def Keyring.sharingKeyPairs (ring : Keyring) (fpr : QString) : List GpgKeyPair :=
  if fpr = [] then [] else ((indexKeysSharedByKeyPairs ring.order ring.keys).lookup fpr).getD []

/-- The key is found, and no two key pairs carry it. -/
def Keyring.OneKeyPair (ring : Keyring) (fpr : QString) : Prop :=
  (ring.getKey fpr).isSome ∧ ∀ p q, Carries ring.keys p fpr → Carries ring.keys q fpr → p = q

/-! ## The report loop -/

/-- `setStatus`: the status only gets worse. -/
def setStatus (new status : Int) : Int := min new status

/-- `print_signer`: the status after it, and whether the key is found. -/
def printSigner (ring : Keyring) (sign : GFSignature) (status : Int) : Int × Bool :=
  match ring.getKey sign.issuerFpr with
  | some _ =>
    (if (ring.sharingKeyPairs sign.issuerFpr).isEmpty then status else setStatus 0 status, true)
  | none => (setStatus 0 status, false)

/-- `if (!print_signer(...)) setStatus(0)`. -/
def printKnownSigner (ring : Keyring) (sign : GFSignature) (status : Int) : Int :=
  let (status, found) := printSigner ring sign status
  if found then status else setStatus 0 status

/-- One turn of the loop: the status after it, and `can_continue`. -/
def reportSignature (ring : Keyring) (sign : GFSignature) (status : Int) : Int × Bool :=
  match sign.getStatus with
  | .badSignature => (setStatus (-1) (printSigner ring sign status).1, false)
  | .ok =>
    let status := if sign.has kSigsumKeyMissing then status else printKnownSigner ring sign status
    (setStatus (if sign.distrusted then -1 else 1) status, true)
  | .noPublicKey => (setStatus 0 status, true)
  | .keyRevoked | .signatureExpired | .wrongKeyUsage | .unsupportedAlgorithm =>
    (setStatus (-1) (printKnownSigner ring sign status), true)
  | .keyExpired =>
    let status := printKnownSigner ring sign status
    (if sign.isKeyExpiredAtSigning then setStatus (-1) status else status, true)
  | .general => (-1, false)
  | .other _ => (setStatus (-1) status, true)

def reportLoop (ring : Keyring) (status : Int) : List GFSignature → Int
  | [] => status
  | sign :: rest =>
    let (status, canContinue) := reportSignature ring sign status
    if canContinue then reportLoop ring status rest else status

/-! ## Cards -/

inductive GpgSigValidity
  | fullyValid | validWithIssues | validNotFullyTrusted | invalid | keyMissing | keyRevoked
  | sigExpired | keyExpired | error | unknown | keyNotAuthorized
  deriving Repr, DecidableEq

inductive GpgSigVerdict
  | good | warning | bad
  deriving Repr, DecidableEq

def gradeSignature : GpgSigValidity → GpgSigVerdict
  | .fullyValid => .good
  | .validNotFullyTrusted | .validWithIssues | .sigExpired | .keyExpired => .warning
  | _ => .bad

/-- `GpgVerifySigInfo`, without what it copies of the signature's algorithms and time. -/
structure GpgVerifySigInfo where
  fingerprint : QString
  keyId : QString
  uids : List QString
  validity : GpgSigValidity
  rejected : Bool
  trustModel : Bool
  deriving Repr, DecidableEq

/-- The `switch` of the second loop. -/
def cardValidity (sign : GFSignature) : GpgSigValidity :=
  match sign.getStatus with
  | .badSignature => .invalid
  | .ok =>
    if sign.distrusted then .validWithIssues
    else if sign.has kSigsumValid && sign.has kSigsumGreen then .fullyValid
    else if sign.has kSigsumRed then .validWithIssues
    else .validNotFullyTrusted
  | .noPublicKey => .keyMissing
  | .keyRevoked => .keyRevoked
  | .signatureExpired => .sigExpired
  | .keyExpired => .keyExpired
  | .wrongKeyUsage => .keyNotAuthorized
  | .unsupportedAlgorithm => .invalid
  | .general => .error
  | .other _ => .unknown

def cardRejected (sign : GFSignature) : Bool :=
  match sign.getStatus with
  | .ok => sign.distrusted
  | .keyExpired => sign.isKeyExpiredAtSigning
  | _ => false

/-- One turn of the second loop. -/
def verifySigInfo (ring : Keyring) (sign : GFSignature) : GpgVerifySigInfo :=
  let key := ring.getKey sign.issuerFpr
  let owners := ring.sharingKeyPairs sign.issuerFpr
  { fingerprint := sign.issuerFpr
    keyId := (key.map SignerKey.id).getD []
    uids :=
      match key with
      | none => []
      | some key => if owners.isEmpty then [key.uid] else owners.map ring.ownerUid
    validity := cardValidity sign
    rejected := cardRejected sign
    trustModel := sign.hasTrustModel }

structure VerifyAnalysis where
  status : Int
  signatures : List GpgVerifySigInfo
  deriving Repr, DecidableEq

/-- `doAnalyse`; `succeeded` is whether the operation did. -/
def doAnalyse (ring : Keyring) (succeeded : Bool) (signatures : List GFSignature) :
    VerifyAnalysis :=
  let status := if succeeded then 1 else setStatus (-1) 1
  if signatures.isEmpty then ⟨setStatus 0 status, []⟩
  else ⟨reportLoop ring status signatures, signatures.map (verifySigInfo ring)⟩

/-! ## The worst signature -/

/-- What is below a minimum is below everything it is of. -/
theorem le_foldr_min_iff {b s : Int} {values : List Int} :
    b ≤ values.foldr min s ↔ b ≤ s ∧ ∀ value ∈ values, b ≤ value := by
  induction values with
  | nil => simp
  | cons value values ih =>
    rw [List.foldr_cons, le_min_iff, ih, List.forall_mem_cons]
    exact and_left_comm

theorem foldr_min_min {a s : Int} {values : List Int} :
    values.foldr min (min a s) = min a (values.foldr min s) := by
  induction values with
  | nil => rfl
  | cons value values ih =>
    rw [List.foldr_cons, List.foldr_cons, ih]
    exact min_left_comm value a _

section Worst

variable {ring : Keyring} {sign : GFSignature} {status : Int}

/-- How far a key that is not found, or found with several key pairs, lowers the status. -/
def signerStatus (ring : Keyring) (sign : GFSignature) : Int :=
  if (ring.getKey sign.issuerFpr).isSome ∧ (ring.sharingKeyPairs sign.issuerFpr).isEmpty then 1
  else 0

/-- The status of a message with this signature alone. -/
def worst (ring : Keyring) (sign : GFSignature) : Int :=
  match sign.getStatus with
  | .ok =>
    if sign.distrusted then -1
    else if sign.has kSigsumKeyMissing then 1 else signerStatus ring sign
  | .noPublicKey => 0
  | .keyExpired => if sign.isKeyExpiredAtSigning then -1 else signerStatus ring sign
  | _ => -1

theorem worst_bounds : -1 ≤ worst ring sign ∧ worst ring sign ≤ 1 := by
  unfold worst signerStatus
  cases sign.getStatus <;> dsimp only <;> (try split_ifs) <;> omega

theorem printSigner_le (hle : status ≤ 1) :
    (printSigner ring sign status).1 = min (signerStatus ring sign) status := by
  unfold printSigner signerStatus setStatus
  cases ring.getKey sign.issuerFpr with
  | none => simp
  | some key =>
    cases (ring.sharingKeyPairs sign.issuerFpr).isEmpty with
    | true => simp; omega
    | false => simp

theorem printKnownSigner_eq (hle : status ≤ 1) :
    printKnownSigner ring sign status = min (signerStatus ring sign) status := by
  have hprinted := @printSigner_le ring sign status hle
  unfold printKnownSigner
  cases hfound : (printSigner ring sign status).2 with
  | true => simp [hfound, hprinted]
  | false =>
    have hsigner : signerStatus ring sign = 0 := by
      unfold printSigner at hfound
      unfold signerStatus
      cases hkey : ring.getKey sign.issuerFpr with
      | none => rfl
      | some key =>
        rw [hkey] at hfound
        cases hfound
    simp only [hfound, hprinted, hsigner, setStatus]
    omega

/-- A turn lowers the status to that of its signature, and stops only at the lowest. -/
theorem reportSignature_eq (hstatus : -1 ≤ status ∧ status ≤ 1) :
    (reportSignature ring sign status).1 = min (worst ring sign) status ∧
      ((reportSignature ring sign status).2 = false → worst ring sign = -1) := by
  have hknown := @printKnownSigner_eq ring sign status hstatus.2
  have hsigner := @printSigner_le ring sign status hstatus.2
  have hbounds : 0 ≤ signerStatus ring sign ∧ signerStatus ring sign ≤ 1 := by
    unfold signerStatus
    split <;> omega
  unfold reportSignature worst
  cases sign.getStatus <;> simp only [setStatus, hknown, hsigner]
  case ok => split_ifs <;> constructor <;> intros <;> first | omega | simp_all
  case keyExpired => split_ifs <;> constructor <;> intros <;> first | omega | simp_all
  all_goals constructor <;> intros <;> first | omega | simp_all

/-- **The loop keeps the worst of all signatures**, those behind its stop among them. -/
theorem reportLoop_eq {signatures : List GFSignature} (hstatus : -1 ≤ status ∧ status ≤ 1) :
    reportLoop ring status signatures = (signatures.map (worst ring)).foldr min status := by
  induction signatures generalizing status with
  | nil => rfl
  | cons sign rest ih =>
    obtain ⟨hturn, hstop⟩ := @reportSignature_eq ring sign status hstatus
    have hbounds := @worst_bounds ring sign
    have hnext : -1 ≤ min (worst ring sign) status ∧ min (worst ring sign) status ≤ 1 := by omega
    show (if (reportSignature ring sign status).2 then
      reportLoop ring (reportSignature ring sign status).1 rest
      else (reportSignature ring sign status).1) = _
    rw [List.map_cons, List.foldr_cons]
    split
    · rw [hturn, ih hnext, foldr_min_min]
    · next hstopped =>
      -- nothing is lower than what the loop stops at
      have hlow := hstop (Bool.not_eq_true _ ▸ hstopped)
      have hrest : -1 ≤ (rest.map (worst ring)).foldr min status := by
        refine le_foldr_min_iff.2 ⟨hstatus.1, List.forall_mem_map.2 fun other _ => ?_⟩
        exact worst_bounds.1
      rw [hturn, hlow]
      omega

/-- A signature that leaves a verdict positive. -/
def Passes (ring : Keyring) (sign : GFSignature) : Prop :=
  (sign.getStatus = .ok ∧ sign.distrusted = false ∨
      sign.getStatus = .keyExpired ∧ sign.isKeyExpiredAtSigning = false) ∧
    (ring.getKey sign.issuerFpr).isSome ∧ (ring.sharingKeyPairs sign.issuerFpr).isEmpty

/-- The summary of a good signature does not say that the key is missing. -/
def Consistent (sign : GFSignature) : Prop :=
  sign.getStatus = .ok → sign.has kSigsumKeyMissing = false

theorem one_le_signerStatus_iff : 1 ≤ signerStatus ring sign ↔
    (ring.getKey sign.issuerFpr).isSome ∧ (ring.sharingKeyPairs sign.issuerFpr).isEmpty := by
  unfold signerStatus
  split
  · next hknown => exact iff_of_true le_rfl hknown
  · next hunknown => exact iff_of_false (by omega) hunknown

theorem one_le_worst_iff (hsummary : Consistent sign) : 1 ≤ worst ring sign ↔ Passes ring sign := by
  unfold worst Passes
  cases hstatus : sign.getStatus with
  | ok =>
    rw [hsummary hstatus]
    cases sign.distrusted <;> simp [one_le_signerStatus_iff]
  | keyExpired => cases sign.isKeyExpiredAtSigning <;> simp [one_le_signerStatus_iff]
  | _ => simp

/-- A card that is bad, for another reason than a missing key, or rejected, is of a bad signature. -/
theorem worst_of_card
    (h : (gradeSignature (cardValidity sign) = .bad ∧ cardValidity sign ≠ .keyMissing) ∨
      cardRejected sign = true) : worst ring sign = -1 := by
  unfold worst
  cases hstatus : sign.getStatus with
  | ok =>
    rw [cardValidity, cardRejected, hstatus] at h
    dsimp only at h ⊢
    cases hdistrusted : sign.distrusted with
    | true => rfl
    | false =>
      rw [hdistrusted] at h
      obtain ⟨hbad, -⟩ | h := h
      · split_ifs at hbad <;> cases hbad
      · cases h
  | noPublicKey =>
    rw [cardValidity, cardRejected, hstatus] at h
    obtain ⟨-, hne⟩ | h := h
    · exact absurd rfl hne
    · cases h
  | keyExpired =>
    rw [cardValidity, cardRejected, hstatus] at h
    obtain ⟨hbad, -⟩ | h := h
    · cases hbad
    · exact if_pos h
  | _ => rfl

end Worst

/-! ## The verdict -/

section Verdict

variable {ring : Keyring} {succeeded : Bool} {signatures : List GFSignature}

theorem status_eq (hne : signatures ≠ []) :
    (doAnalyse ring succeeded signatures).status
      = (signatures.map (worst ring)).foldr min (if succeeded then 1 else -1) := by
  have hempty : signatures.isEmpty = false := List.isEmpty_eq_false_iff.2 hne
  cases succeeded <;> simp only [doAnalyse, hempty] <;>
    exact reportLoop_eq (by decide)

theorem cards_eq : (doAnalyse ring succeeded signatures).signatures
    = signatures.map (verifySigInfo ring) := by
  cases signatures <;> rfl

/-- A key without other key pairs in the index is carried by no two. -/
theorem oneKeyPair_of_isEmpty {fpr : QString} (hfound : (ring.getKey fpr).isSome)
    (hempty : (ring.sharingKeyPairs fpr).isEmpty) : ring.OneKeyPair fpr := by
  refine ⟨hfound, fun p q hp hq => ?_⟩
  by_contra hne
  have hshared : Shared ring.keys fpr := ⟨p, q, hne, hp, hq⟩
  have hindex := sharedFrom_index ring.keys ring.order
  obtain ⟨owners, hlook⟩ := hindex.complete fpr (hshared.mem_order ring.order_perm) fpr hshared
    (.inl rfl)
  obtain ⟨other, -, -, hentry⟩ := hindex.sound fpr owners hlook
  obtain ⟨⟨p', -, -, hp', -⟩, howners⟩ := entry_spec hentry
  rw [Keyring.sharingKeyPairs, if_neg hp.fingerprint_ne_nil, hlook, Option.getD_some,
    List.isEmpty_iff] at hempty
  have hmem := (howners.exact p').2 hp'
  rw [hempty] at hmem
  cases hmem

/-- A valid signature, or one by a key that has expired since, by one key pair of the keyring that
is not rated never valid. -/
structure SoundSignature (ring : Keyring) (sign : GFSignature) : Prop where
  valid : sign.getStatus = .ok ∨ sign.getStatus = .keyExpired ∧ sign.isKeyExpiredAtSigning = false
  trusted : sign.getValidity ≠ .never
  signer : ring.OneKeyPair sign.issuerFpr

structure VerdictSound (ring : Keyring) (succeeded : Bool) (signatures : List GFSignature) :
    Prop where
  any_order : ∀ others : List GFSignature, others.Perm signatures →
    (doAnalyse ring succeeded others).status = (doAnalyse ring succeeded signatures).status
  negative : ∀ card ∈ (doAnalyse ring succeeded signatures).signatures,
    (gradeSignature card.validity = .bad ∧ card.validity ≠ .keyMissing) ∨ card.rejected = true →
      (doAnalyse ring succeeded signatures).status < 0
  positive : 0 < (doAnalyse ring succeeded signatures).status →
    signatures ≠ [] ∧ succeeded = true ∧ ∀ sign ∈ signatures, SoundSignature ring sign
  none_hidden : ∀ sign ∈ signatures, (doAnalyse ring succeeded signatures).status
    ≤ (doAnalyse ring succeeded [sign]).status
  each_card : (doAnalyse ring succeeded signatures).signatures
    = signatures.flatMap fun sign => (doAnalyse ring succeeded [sign]).signatures

/-- Every signature passes, although one is by an expired key that is rated never valid. -/
structure NeverValidPasses (ring : Keyring) (succeeded : Bool) (signatures : List GFSignature) :
    Prop where
  succeeded : succeeded = true
  passes : ∀ sign ∈ signatures, Passes ring sign
  never : ∃ sign ∈ signatures, sign.getStatus = .keyExpired ∧ sign.getValidity = .never

theorem positive_iff (hsummary : ∀ sign ∈ signatures, Consistent sign) :
    0 < (doAnalyse ring succeeded signatures).status ↔
      signatures ≠ [] ∧ succeeded = true ∧ ∀ sign ∈ signatures, Passes ring sign := by
  by_cases hne : signatures = []
  · subst hne
    cases succeeded <;> simp [doAnalyse, setStatus]
  · have hlow : 0 < (doAnalyse ring succeeded signatures).status ↔
        1 ≤ (signatures.map (worst ring)).foldr min (if succeeded then 1 else -1) := by
      rw [status_eq hne]
      exact Int.lt_iff_add_one_le
    rw [hlow, le_foldr_min_iff, List.forall_mem_map]
    have hpasses : (∀ sign ∈ signatures, 1 ≤ worst ring sign) ↔
        ∀ sign ∈ signatures, Passes ring sign :=
      forall₂_congr fun sign hsign => one_le_worst_iff (hsummary sign hsign)
    rw [hpasses]
    cases succeeded <;> simp [hne]

/-- **The verdict is the worst signature**, unless an expired key that is rated never valid passes
for one that has merely expired. -/
theorem verdict_sound_iff (hsummary : ∀ sign ∈ signatures, Consistent sign) :
    VerdictSound ring succeeded signatures ↔ ¬NeverValidPasses ring succeeded signatures := by
  constructor
  · rintro hsound ⟨hsucceeded, hpasses, sign, hsign, -, hnever⟩
    have hpositive := (positive_iff hsummary).2
      ⟨List.ne_nil_of_mem hsign, hsucceeded, hpasses⟩
    exact ((hsound.positive hpositive).2.2 sign hsign).trusted hnever
  · intro hnone
    constructor
    · intro others hperm
      by_cases hne : signatures = []
      · subst hne
        rw [List.perm_nil.1 hperm]
      · rw [status_eq hne, status_eq fun hnil => hne (List.nil_perm.1 (hnil ▸ hperm))]
        exact (hperm.map _).foldr_eq _
    · intro card hcard hbad
      rw [cards_eq, List.mem_map] at hcard
      obtain ⟨sign, hsign, rfl⟩ := hcard
      have hworst : worst ring sign = -1 := worst_of_card hbad
      rw [status_eq (List.ne_nil_of_mem hsign)]
      by_contra hle
      have hall := (le_foldr_min_iff.1 (not_lt.1 hle)).2 (worst ring sign)
        (List.mem_map_of_mem hsign)
      omega
    · intro hpositive
      obtain ⟨hne, hsucceeded, hpasses⟩ := (positive_iff hsummary).1 hpositive
      refine ⟨hne, hsucceeded, fun sign hsign => ?_⟩
      obtain ⟨hvalid, hfound, hempty⟩ := hpasses sign hsign
      refine ⟨hvalid.imp_left And.left, fun hnever => ?_, oneKeyPair_of_isEmpty hfound hempty⟩
      obtain ⟨-, htrusted⟩ | ⟨hexpired, -⟩ := hvalid
      · rw [GFSignature.distrusted, hnever] at htrusted
        cases htrusted
      · exact hnone ⟨hsucceeded, hpasses, sign, hsign, hexpired, hnever⟩
    · intro sign hsign
      rw [status_eq (List.ne_nil_of_mem hsign), status_eq (List.cons_ne_nil _ _)]
      have hle := le_foldr_min_iff.1 (le_refl
        ((signatures.map (worst ring)).foldr min (if succeeded then 1 else -1)))
      exact le_min (hle.2 _ (List.mem_map_of_mem hsign)) hle.1
    · rw [cards_eq, List.map_eq_flatMap]
      rfl

end Verdict

/-- A keyring without shared keys that finds one key. -/
def smallKeyring : Keyring where
  keys := []
  order := []
  order_perm := .refl _
  getKey := fun fpr => if fpr = [65] then some ⟨[65], [66]⟩ else none
  ownerUid := fun _ => []

/-- What GnuPG gives for a good signature by a key that has expired since. -/
def expiredSince (validity : GpgValidity) : GFSignature where
  issuerFpr := [65]
  status := .unknownError
  engineStatus := some .keyExpired
  validity := some validity
  summary := some kSigsumKeyExpired
  hasTrustModel := true

/-- A signature by an expired key that is fully trusted is positive. -/
theorem verdict_sound_sample : VerdictSound smallKeyring true [expiredSince .full] := by
  refine (verdict_sound_iff fun sign hsign hok => ?_).2 ?_
  · rw [List.mem_singleton.1 hsign] at hok
    cases hok
  · rintro ⟨-, -, sign, hsign, -, hnever⟩
    rw [List.mem_singleton.1 hsign] at hnever
    cases hnever

/-- The verdict on a signature by an expired key that GnuPG rates never valid is positive. -/
theorem never_valid_verdict_positive :
    ¬∀ (ring : Keyring) (succeeded : Bool) (signatures : List GFSignature),
      (∀ sign ∈ signatures, Consistent sign) → VerdictSound ring succeeded signatures := by
  intro h
  have hsound := h smallKeyring true [expiredSince .never] fun sign hsign hok => by
    rw [List.mem_singleton.1 hsign] at hok
    cases hok
  have hpositive := (hsound.positive (by decide)).2.2 _ (List.mem_singleton.2 rfl)
  exact hpositive.trusted rfl

end GpgFrontend.Shell
