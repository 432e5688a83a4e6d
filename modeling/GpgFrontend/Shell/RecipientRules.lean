import Mathlib.Data.List.Forall2

/-!
# What is asked before an encryption (`RecipientRules.cpp`, `RecipientConfirm.cpp`)

A message is only as strong as its weakest recipient, so one to post-quantum and classical
recipients together is asked about first. Which of several usable subkeys the engine takes is
its own business.

- `mixesPostQuantumAndClassical`, `recipientsMixPostQuantumAndClassical`, `encryptQuestions`.
- `mixed_question_sound_iff`: **no mix is missed, unless one recipient has subkeys of both
  kinds and nobody has only post-quantum ones.**
-/

namespace GpgFrontend.Shell

/-! ## Algorithms -/

/-- `KeyAlgo`: what its ID is, what its parts are and whether it is post-quantum. -/
structure KeyAlgo where
  id : String
  subAlgos : List String := []
  isPostQuantum : Bool := false
  deriving Repr, DecidableEq

/-- `KeyAlgo::MatchesAlgoId`. -/
def KeyAlgo.matchesAlgoId (algo : KeyAlgo) (algoId : String) : Bool :=
  algoId ≠ "" &&
    (algo.id = algoId || algo.subAlgos.any fun sub => algo.id ++ "_" ++ sub = algoId)

def plainAlgos (ids : List String) : List KeyAlgo := ids.map fun id => { id := id }

def postQuantumAlgos (ids : List String) : List KeyAlgo :=
  ids.map fun id => { id := id, isPostQuantum := true }

def rsaFamily : List KeyAlgo := plainAlgos ["rsa1024", "rsa2048", "rsa3072", "rsa4096"]

def dsaFamily : List KeyAlgo := plainAlgos ["dsa1024", "dsa2048", "dsa3072"]

def elgamalFamily : List KeyAlgo := plainAlgos ["elg1024", "elg2048", "elg3072", "elg4096"]

def slhDsaFamily : List KeyAlgo :=
  postQuantumAlgos ["slhdsashake128s", "slhdsashake128f", "slhdsashake256s"]

/-- `KyberHybridCurves`. -/
def kyberHybridCurves : List String :=
  ["cv25519", "nistp256", "nistp384", "nistp521", "brainpoolp256r1", "brainpoolp384r1",
    "brainpoolp512r1", "x448"]

def kPrimaryKeyAlgos : List KeyAlgo :=
  plainAlgos ["none"] ++ rsaFamily ++ dsaFamily ++
    plainAlgos ["ed25519", "nistp256", "nistp384", "nistp521", "brainpoolp256r1",
      "brainpoolp384r1", "brainpoolp512r1", "ed448", "secp256k1"] ++ slhDsaFamily

def kHybridPrimaryKeyAlgo : List KeyAlgo :=
  [⟨"mldsa65", ["ed25519"], true⟩, ⟨"mldsa87", ["ed448"], true⟩]

def kSubKeyAlgos : List KeyAlgo :=
  plainAlgos ["none"] ++ rsaFamily ++ dsaFamily ++
    plainAlgos ["ed25519", "nistp256", "nistp384", "nistp521", "brainpoolp256r1",
      "brainpoolp384r1", "brainpoolp512r1", "ed448"] ++
    plainAlgos ["cv25519", "nistp256", "nistp384", "nistp521", "brainpoolp256r1",
      "brainpoolp384r1", "brainpoolp512r1", "x448", "secp256k1"] ++
    elgamalFamily ++ slhDsaFamily

def kHybridSubKeyAlgos : List KeyAlgo :=
  [⟨"ky768", kyberHybridCurves, true⟩, ⟨"kyber1024", kyberHybridCurves, true⟩,
    ⟨"mldsa65", ["ed25519"], true⟩, ⟨"mldsa87", ["ed448"], true⟩]

/-- `KeyGenerateInfo::SearchKeyAlgoByAlgoId`. -/
def searchKeyAlgoByAlgoId (algoId : String) : Option KeyAlgo :=
  (kPrimaryKeyAlgos ++ kSubKeyAlgos ++ kHybridPrimaryKeyAlgo ++ kHybridSubKeyAlgos).find?
    (·.matchesAlgoId algoId)

/-! ## Recipients -/

/-- `GpgSubKey`. GnuPG says itself whether a subkey is expired; rPGP gives the second it
expires, or zero. -/
structure SubKey where
  canEncrypt : Bool
  isRevoked : Bool
  expired : Option Bool
  expiresAt : Int
  algoId : String
  marked : Bool
  deriving Repr, DecidableEq

/-- `GpgSubKey::IsExpired`, at a time in milliseconds. -/
def SubKey.isExpired (now : Int) (sKey : SubKey) : Bool :=
  match sKey.expired with
  | some expired => expired
  | none => sKey.expiresAt ≠ 0 && 1000 * sKey.expiresAt < now

/-- Whether a subkey's algorithm is post-quantum, as the rule reads it. -/
def SubKey.isPostQuantum (sKey : SubKey) : Bool :=
  (searchKeyAlgoByAlgoId sKey.algoId).any KeyAlgo.isPostQuantum

/-- `GpgAbstractKeyPtr`: a key with its subkeys, a null pointer, or something else. -/
inductive AbstractKey
  | null
  | key (subKeys : List SubKey)
  | subKey (sKey : SubKey)
  | keyGroup (keyIds : List String)
  deriving Repr, DecidableEq

/-- The subkeys an engine may encrypt to: the pinned ones if there are any, else the usable
ones. -/
def candidates (now : Int) (subKeys : List SubKey) : List SubKey :=
  let usable := subKeys.filter fun sKey => sKey.canEncrypt && !sKey.isRevoked && !sKey.isExpired now
  let pinned := usable.filter SubKey.marked
  if pinned.isEmpty then usable else pinned

/-- The candidates of every recipient that is a key. -/
def recipientCandidates (now : Int) (keys : List AbstractKey) : List (List SubKey) :=
  keys.filterMap fun key =>
    match key with
    | .key subKeys => some (candidates now subKeys)
    | _ => none

/-- The loop of `MixesPostQuantumAndClassical`. -/
def mixLoop (anyPq anyClassical : Bool) : List (List Bool) → Bool
  | [] => anyPq && anyClassical
  | subkeys :: rest =>
    if subkeys.isEmpty then mixLoop anyPq anyClassical rest
    else if subkeys.all id then mixLoop true anyClassical rest
    else mixLoop anyPq true rest

def mixesPostQuantumAndClassical (recipients : List (List Bool)) : Bool :=
  mixLoop false false recipients

def recipientsMixPostQuantumAndClassical (now : Int) (keys : List AbstractKey) : Bool :=
  mixesPostQuantumAndClassical
    ((recipientCandidates now keys).map fun subKeys => subKeys.map SubKey.isPostQuantum)

/-! ## Questions -/

def needsRecipientConfirmation (checkedCount : Int) (settingOn : Bool) : Bool :=
  settingOn && 2 ≤ checkedCount

inductive EncryptQuestionKind
  | manyRecipients | mixedRecipients
  deriving Repr, DecidableEq

structure EncryptQuestion where
  kind : EncryptQuestionKind
  title : String
  text : String
  detail : String
  accept : String
  deriving Repr, DecidableEq

/-- `EncryptQuestions`; `translate` is that of the context of the main window. -/
def encryptQuestions (translate : String → Option Int → String) (now recipientCount : Int)
    (keys : List AbstractKey) (confirmMany : Bool) : List EncryptQuestion :=
  (if needsRecipientConfirmation recipientCount confirmMany then
    [{ kind := .manyRecipients
       title := translate "Confirm Recipients" none
       text := translate "Encrypt to %n recipients?" (some recipientCount)
       detail := translate
        "Each recipient will be able to see the key IDs of all the others." none
       accept := translate "Encrypt" none }]
  else []) ++
  (if recipientsMixPostQuantumAndClassical now keys then
    [{ kind := .mixedRecipients
       title := translate "Mixed Recipient Types" none
       text := translate
        "Some recipients use post-quantum encryption and others do not." none
       detail := translate
        ("The message key is encrypted to every recipient, so anyone able to break the " ++
          "classical recipients' encryption can read the whole message: the post-quantum " ++
          "protection does not hold for it. To keep that protection, encrypt separately for " ++
          "the post-quantum recipients.") none
       accept := translate "Encrypt Anyway" none }]
  else [])

theorem mixedRecipients_mem_iff {translate : String → Option Int → String}
    {now recipientCount : Int} {keys : List AbstractKey} {confirmMany : Bool} :
    EncryptQuestionKind.mixedRecipients ∈
        (encryptQuestions translate now recipientCount keys confirmMany).map EncryptQuestion.kind ↔
      recipientsMixPostQuantumAndClassical now keys = true := by
  unfold encryptQuestions
  cases needsRecipientConfirmation recipientCount confirmMany <;>
    cases recipientsMixPostQuantumAndClassical now keys <;> simp

/-! ## The verdict of a loop -/

/-- Some recipient has subkeys to encrypt to, and all of them are post-quantum. -/
def AnyPostQuantum (recipients : List (List Bool)) : Prop :=
  ∃ subkeys ∈ recipients, subkeys ≠ [] ∧ false ∉ subkeys

/-- Some recipient has a classical subkey to encrypt to. -/
def AnyClassical (recipients : List (List Bool)) : Prop := ∃ subkeys ∈ recipients, false ∈ subkeys

theorem all_id_iff {subkeys : List Bool} : subkeys.all id = true ↔ false ∉ subkeys := by
  rw [List.all_eq_true]
  constructor
  · intro h hmem
    exact absurd (h false hmem) Bool.false_ne_true
  · intro h b hb
    cases b with
    | true => rfl
    | false => exact absurd hb h

theorem mixLoop_iff {anyPq anyClassical : Bool} {recipients : List (List Bool)} :
    mixLoop anyPq anyClassical recipients = true ↔
      (anyPq = true ∨ AnyPostQuantum recipients) ∧
        (anyClassical = true ∨ AnyClassical recipients) := by
  induction recipients generalizing anyPq anyClassical with
  | nil => simp [mixLoop, AnyPostQuantum, AnyClassical]
  | cons subkeys rest ih =>
    rw [mixLoop]
    split
    · next hempty =>
      obtain rfl := List.isEmpty_iff.1 hempty
      rw [ih]
      simp [AnyPostQuantum, AnyClassical]
    next hempty =>
    have hne : subkeys ≠ [] := fun h => hempty (List.isEmpty_iff.2 h)
    split
    · next hall =>
      have hpq := all_id_iff.1 hall
      rw [ih]
      simp [AnyPostQuantum, AnyClassical, hne, hpq]
    · next hall =>
      have hclassical : false ∈ subkeys := by
        by_contra h
        exact hall (all_id_iff.2 h)
      rw [ih]
      simp [AnyPostQuantum, AnyClassical, hclassical]

/-! ## The engine's choice -/

section Choice

variable {α : Type}

/-- One candidate for each recipient that has any. -/
def Chooses (recipients : List (List α)) (chosen : List (Option α)) : Prop :=
  List.Forall₂ (fun subkeys choice =>
    match choice with
    | some sKey => sKey ∈ subkeys
    | none => subkeys = []) recipients chosen

/-- What was chosen is of both kinds. -/
def BothKinds (pq : α → Bool) (chosen : List (Option α)) : Prop :=
  (∃ a, some a ∈ chosen ∧ pq a = true) ∧ ∃ b, some b ∈ chosen ∧ pq b = false

/-- Candidates of both kinds at two different recipients. -/
def TwoKinds (pq : α → Bool) (recipients : List (List α)) : Prop :=
  ∃ (i j : Nat) (s t : List α), i ≠ j ∧ recipients[i]? = some s ∧ recipients[j]? = some t ∧
    (∃ a ∈ s, pq a = true) ∧ ∃ b ∈ t, pq b = false

variable {pq : α → Bool} {recipients : List (List α)}

theorem Chooses.candidate {chosen : List (Option α)} (h : Chooses recipients chosen) {a : α}
    (ha : some a ∈ chosen) :
    ∃ (i : Nat) (s : List α), chosen[i]? = some (some a) ∧ recipients[i]? = some s ∧ a ∈ s := by
  obtain ⟨i, hi⟩ := List.getElem?_of_mem ha
  obtain ⟨hlength, hall⟩ := List.forall₂_iff_get.1 h
  obtain ⟨hlt, hget⟩ := List.getElem?_eq_some_iff.1 hi
  have hlt' : i < recipients.length := hlength ▸ hlt
  refine ⟨i, recipients[i], hi, List.getElem?_eq_getElem hlt', ?_⟩
  have hchoice := hall i hlt' hlt
  simp only [List.get_eq_getElem, hget] at hchoice
  exact hchoice

/-- **A choice of both kinds can be made exactly if two recipients have candidates of them.** -/
theorem exists_bothKinds_iff :
    (∃ chosen, Chooses recipients chosen ∧ BothKinds pq chosen) ↔ TwoKinds pq recipients := by
  constructor
  · rintro ⟨chosen, hchooses, ⟨a, ha, hpq⟩, b, hb, hclassical⟩
    obtain ⟨i, s, hi, hs, has⟩ := Chooses.candidate hchooses ha
    obtain ⟨j, t, hj, ht, hbt⟩ := Chooses.candidate hchooses hb
    refine ⟨i, j, s, t, ?_, hs, ht, ⟨a, has, hpq⟩, b, hbt, hclassical⟩
    rintro rfl
    obtain rfl : a = b := Option.some.inj (Option.some.inj (hi.symm.trans hj))
    exact absurd (hpq.symm.trans hclassical) (by decide)
  · rintro ⟨i, j, s, t, hij, hs, ht, ⟨a, has, hpq⟩, b, hbt, hclassical⟩
    -- the two candidates, and the first one of everybody else
    let pick : Nat → List α → Option α := fun k subkeys =>
      if k = i then some a else if k = j then some b else subkeys.head?
    have hpick : ∀ k subkeys, recipients[k]? = some subkeys →
        (recipients.mapIdx pick)[k]? = some (pick k subkeys) := by
      intro k subkeys hk
      rw [List.getElem?_mapIdx, hk]
      rfl
    refine ⟨recipients.mapIdx pick, ?_, ⟨a, ?_, hpq⟩, b, ?_, hclassical⟩
    · refine List.forall₂_iff_get.2 ⟨List.length_mapIdx.symm, fun k hk hk' => ?_⟩
      have hget : recipients[k]? = some recipients[k] := List.getElem?_eq_getElem hk
      simp only [List.get_eq_getElem, List.getElem_mapIdx, pick]
      by_cases hki : k = i
      · subst hki
        rw [if_pos rfl]
        obtain rfl := Option.some.inj (hget.symm.trans hs)
        exact has
      · rw [if_neg hki]
        by_cases hkj : k = j
        · subst hkj
          rw [if_pos rfl]
          obtain rfl := Option.some.inj (hget.symm.trans ht)
          exact hbt
        · rw [if_neg hkj]
          cases hhead : recipients[k].head? with
          | none => exact List.head?_eq_none_iff.1 hhead
          | some c => exact List.mem_of_head? hhead
    · refine List.mem_of_getElem? (i := i) ((hpick i s hs).trans ?_)
      simp only [pick, if_pos]
    · refine List.mem_of_getElem? (i := j) ((hpick j t ht).trans ?_)
      simp only [pick, if_neg (Ne.symm hij), if_pos]

end Choice

/-! ## Soundness -/

/-- The question is asked of every mix an engine may make, and not asked where every candidate
of every recipient is of one kind. -/
structure MixedQuestionSound (translate : String → Option Int → String) (now : Int)
    (keys : List AbstractKey) : Prop where
  never_missed : ∀ chosen, Chooses (recipientCandidates now keys) chosen →
    BothKinds SubKey.isPostQuantum chosen →
    recipientsMixPostQuantumAndClassical now keys = true ∧
      ∀ recipientCount confirmMany, EncryptQuestionKind.mixedRecipients ∈
        (encryptQuestions translate now recipientCount keys confirmMany).map EncryptQuestion.kind
  not_asked : ∀ pq, (∀ subKeys ∈ recipientCandidates now keys, ∀ sKey ∈ subKeys,
      sKey.isPostQuantum = pq) →
    ∀ recipientCount confirmMany, EncryptQuestionKind.mixedRecipients ∉
      (encryptQuestions translate now recipientCount keys confirmMany).map EncryptQuestion.kind

/-- Nobody has only post-quantum candidates, but somebody has one beside a classical one, and
somebody else has candidates too. -/
structure HiddenMix (recipients : List (List SubKey)) : Prop where
  none_pure : ∀ subKeys ∈ recipients, subKeys ≠ [] → ∃ sKey ∈ subKeys, sKey.isPostQuantum = false
  two : ∃ (i j : Nat) (s t : List SubKey), i ≠ j ∧ recipients[i]? = some s ∧
    recipients[j]? = some t ∧ (∃ a ∈ s, a.isPostQuantum = true) ∧ t ≠ []

variable {translate : String → Option Int → String} {now : Int} {keys : List AbstractKey}

theorem recipientsMix_iff : recipientsMixPostQuantumAndClassical now keys = true ↔
    (∃ subKeys ∈ recipientCandidates now keys, subKeys ≠ [] ∧
      ∀ sKey ∈ subKeys, sKey.isPostQuantum = true) ∧
    ∃ subKeys ∈ recipientCandidates now keys, ∃ sKey ∈ subKeys, sKey.isPostQuantum = false := by
  rw [recipientsMixPostQuantumAndClassical, mixesPostQuantumAndClassical, mixLoop_iff]
  simp [AnyPostQuantum, AnyClassical]

/-- **The question misses no mix exactly if none is hidden.** -/
theorem mixed_question_sound_iff :
    MixedQuestionSound translate now keys ↔ ¬ HiddenMix (recipientCandidates now keys) := by
  constructor
  · rintro ⟨hmissed, -⟩ ⟨hpure, i, j, s, t, hij, hs, ht, ha, hne⟩
    have htwo : TwoKinds SubKey.isPostQuantum (recipientCandidates now keys) :=
      ⟨i, j, s, t, hij, hs, ht, ha, hpure t (List.mem_of_getElem? ht) hne⟩
    obtain ⟨chosen, hchooses, hboth⟩ := exists_bothKinds_iff.2 htwo
    obtain ⟨⟨subKeys, hmem, hsubKeys, hall⟩, -⟩ :=
      recipientsMix_iff.1 (hmissed chosen hchooses hboth).1
    obtain ⟨sKey, hsKey, hclassical⟩ := hpure subKeys hmem hsubKeys
    exact absurd ((hall sKey hsKey).symm.trans hclassical) (by decide)
  · intro hhidden
    have hmix : TwoKinds SubKey.isPostQuantum (recipientCandidates now keys) →
        recipientsMixPostQuantumAndClassical now keys = true := by
      rintro ⟨i, j, s, t, hij, hs, ht, ha, b, hbt, hclassical⟩
      refine recipientsMix_iff.2 ⟨?_, t, List.mem_of_getElem? ht, b, hbt, hclassical⟩
      by_contra hnone
      refine hhidden ⟨fun subKeys hmem hne => ?_, i, j, s, t, hij, hs, ht, ha,
        List.ne_nil_of_mem hbt⟩
      by_contra hall
      refine hnone ⟨subKeys, hmem, hne, fun sKey hsKey => ?_⟩
      exact Bool.not_eq_false _ ▸ fun hfalse => hall ⟨sKey, hsKey, hfalse⟩
    refine ⟨fun chosen hchooses hboth => ?_, fun pq hkind recipientCount confirmMany hasked => ?_⟩
    · have hasked := hmix (exists_bothKinds_iff.1 ⟨chosen, hchooses, hboth⟩)
      exact ⟨hasked, fun _ _ => mixedRecipients_mem_iff.2 hasked⟩
    · obtain ⟨⟨s, hs, hne, hpq⟩, t, ht, b, hbt, hclassical⟩ :=
        recipientsMix_iff.1 (mixedRecipients_mem_iff.1 hasked)
      obtain ⟨a, ha⟩ := List.exists_mem_of_ne_nil s hne
      have htrue : pq = true := (hkind s hs a ha).symm.trans (hpq a ha)
      have hfalse : pq = false := (hkind t ht b hbt).symm.trans hclassical
      exact absurd (htrue.symm.trans hfalse) (by decide)

/-- A usable subkey that nobody pinned. -/
def usableSubKey (algoId : String) : SubKey := ⟨true, false, none, 0, algoId, false⟩

/-- A recipient with a post-quantum and a classical subkey, beside a classical one. -/
def hiddenRecipients : List AbstractKey :=
  [.key [usableSubKey "ky768_cv25519", usableSubKey "cv25519"], .key [usableSubKey "rsa3072"]]

/-- The engine takes the newest subkey of the first recipient, and nobody is asked: who may be
encrypted to classically counts as classical. -/
theorem mixed_choice_is_missed :
    ¬ ∀ (translate : String → Option Int → String) (now : Int) (keys : List AbstractKey),
      MixedQuestionSound translate now keys := by
  intro h
  obtain ⟨hmissed, -⟩ := h (fun source _ => source) 0 hiddenRecipients
  have hchooses : Chooses (recipientCandidates 0 hiddenRecipients)
      [some (usableSubKey "ky768_cv25519"), some (usableSubKey "rsa3072")] :=
    .cons (by decide) (.cons (by decide) .nil)
  have hmix := (hmissed _ hchooses ⟨⟨_, List.mem_cons_self, by decide⟩,
    _, List.mem_cons_of_mem _ List.mem_cons_self, by decide⟩).1
  revert hmix
  decide

end GpgFrontend.Shell
