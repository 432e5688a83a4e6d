import GpgFrontend.OpenPGP.KeyGroupRepository

/-!
# Keys that more than one key pair carries (`GpgKeyRepository.cpp`)

The index lists such a key under its fingerprint and under its key ID. It is filled in the order
of a hash, and a key ID is no more than the end of a fingerprint.

- `shared_index_exact`: **every entry is the owners of a shared key** that the identifier names,
  and those of the only one, where there is no other.
-/

namespace GpgFrontend

structure GpgSubKey where
  fingerprint : QString
  id : QString
  isADSK : Bool := false
  deriving DecidableEq

/-- `GpgKey`; `subKeys` lists the primary first. -/
structure GpgKeyPair where
  fingerprint : QString
  subKeys : List GpgSubKey
  deriving DecidableEq

/-- `by_fpr` and `key_ids`. -/
structure KeyPairIndex where
  byFpr : AList fun _ : QString => List GpgKeyPair := ∅
  keyIds : AList fun _ : QString => QString := ∅

namespace KeyPairIndex

/-- One turn of the inner loop for a key that counts. -/
def enter (index : KeyPairIndex) (key : GpgKeyPair) (sKey : GpgSubKey) : KeyPairIndex :=
  let owners := (index.byFpr.lookup sKey.fingerprint).getD []
  let listed := owners.any fun owner => owner.fingerprint = key.fingerprint
  { byFpr := index.byFpr.insert sKey.fingerprint (if listed then owners else owners ++ [key])
    keyIds := index.keyIds.insert sKey.fingerprint sKey.id }

/-- Whether the inner loop does not skip a key. -/
def counts (sKey : GpgSubKey) : Bool := !(sKey.isADSK || sKey.fingerprint.isEmpty)

def enterSubKeys (index : KeyPairIndex) (key : GpgKeyPair) : KeyPairIndex :=
  key.subKeys.foldl (fun index sKey => if counts sKey then index.enter key sKey else index) index

end KeyPairIndex

/-- The first loop of `IndexKeysSharedByKeyPairs`. -/
def indexKeyPairs (keys : List (Option GpgKeyPair)) : KeyPairIndex :=
  keys.foldl (fun index key =>
    match key with
    | none => index
    | some key => index.enterSubKeys key) {}

/-- The owners of a key as the index lists them, if they are two. -/
def KeyPairIndex.entry (index : KeyPairIndex) (fpr : QString) : Option (List GpgKeyPair) :=
  match index.byFpr.lookup fpr with
  | none => none
  | some owners =>
    if owners.length < 2 then none
    else some (owners.insertionSort fun a b => a.fingerprint ≤ b.fingerprint)

/-- One turn of the second loop. -/
def KeyPairIndex.share (index : KeyPairIndex) (shared : AList fun _ : QString => List GpgKeyPair)
    (fpr : QString) : AList fun _ : QString => List GpgKeyPair :=
  match index.entry fpr with
  | none => shared
  | some owners => (shared.insert fpr owners).insert ((index.keyIds.lookup fpr).getD []) owners

/-- `IndexKeysSharedByKeyPairs`; `order` is the one in which the hash gives its fingerprints. -/
def indexKeysSharedByKeyPairs (order : List QString) (keys : List (Option GpgKeyPair)) :
    AList fun _ : QString => List GpgKeyPair :=
  order.foldl (indexKeyPairs keys).share ∅

/-! ## What the index is of -/

/-- The keys that count, each with the key pair that carries it. -/
def carried (keys : List (Option GpgKeyPair)) : List (GpgKeyPair × GpgSubKey) :=
  keys.flatMap fun key =>
    key.toList.flatMap fun key => (key.subKeys.filter KeyPairIndex.counts).map (key, ·)

/-- The key pair with the primary fingerprint `p` carries the key with the fingerprint `fpr`. -/
def Carries (keys : List (Option GpgKeyPair)) (p fpr : QString) : Prop :=
  ∃ c ∈ carried keys, c.1.fingerprint = p ∧ c.2.fingerprint = fpr

instance (keys : List (Option GpgKeyPair)) (p fpr : QString) : Decidable (Carries keys p fpr) :=
  inferInstanceAs (Decidable (∃ c ∈ carried keys, _))

/-- A key that counts has a fingerprint. -/
theorem Carries.fingerprint_ne_nil {keys : List (Option GpgKeyPair)} {p fpr : QString}
    (h : Carries keys p fpr) : fpr ≠ [] := by
  obtain ⟨c, hc, -, rfl⟩ := h
  simp only [carried, List.mem_flatMap, List.mem_map, List.mem_filter] at hc
  obtain ⟨_, _, _, _, sKey, ⟨-, hcounts⟩, rfl⟩ := hc
  intro hnil
  rw [KeyPairIndex.counts, hnil] at hcounts
  simp at hcounts

/-- Two key pairs or more carry it. -/
def Shared (keys : List (Option GpgKeyPair)) (fpr : QString) : Prop :=
  ∃ p q, p ≠ q ∧ Carries keys p fpr ∧ Carries keys q fpr

/-- The key ID that a key was listed with last. -/
def listedId (cs : List (GpgKeyPair × GpgSubKey)) (fpr : QString) : Option QString :=
  ((cs.filter fun c => c.2.fingerprint = fpr).getLast?).map fun c => c.2.id

/-- The fingerprint of a key and its key ID. -/
def Names (keys : List (Option GpgKeyPair)) (fpr k : QString) : Prop :=
  k = fpr ∨ listedId (carried keys) fpr = some k

/-- The primary fingerprints of the key pairs that carry a key, sorted and each once. -/
structure OwnersOf (keys : List (Option GpgKeyPair)) (fpr : QString)
    (owners : List GpgKeyPair) : Prop where
  sorted : (owners.map GpgKeyPair.fingerprint).Pairwise (· < ·)
  exact : ∀ p, p ∈ owners.map GpgKeyPair.fingerprint ↔ Carries keys p fpr

/-! ## The first loop -/

/-- What the first loop has made of the keys it has passed. -/
structure Entered (cs : List (GpgKeyPair × GpgSubKey)) (index : KeyPairIndex) : Prop where
  none_iff : ∀ fpr, index.byFpr.lookup fpr = none ↔ ∀ c ∈ cs, c.2.fingerprint ≠ fpr
  nodup : ∀ fpr owners, index.byFpr.lookup fpr = some owners →
    (owners.map GpgKeyPair.fingerprint).Nodup
  owners : ∀ fpr owners, index.byFpr.lookup fpr = some owners → ∀ p,
    p ∈ owners.map GpgKeyPair.fingerprint ↔
      ∃ c ∈ cs, c.1.fingerprint = p ∧ c.2.fingerprint = fpr
  ids : ∀ fpr, index.keyIds.lookup fpr = listedId cs fpr

theorem entered_nil : Entered [] {} where
  none_iff := by simp
  nodup fpr owners h := by simp at h
  owners fpr owners h := by simp at h
  ids fpr := by simp [listedId]

/-- A step adds the key pair to the owners of that key, unless it is one of them. -/
theorem Entered.enter {cs : List (GpgKeyPair × GpgSubKey)} {index : KeyPairIndex}
    (h : Entered cs index) (key : GpgKeyPair) (sKey : GpgSubKey) :
    Entered (cs ++ [(key, sKey)]) (index.enter key sKey) := by
  set owners := (index.byFpr.lookup sKey.fingerprint).getD [] with howners
  have hnodup : (owners.map GpgKeyPair.fingerprint).Nodup := by
    rw [howners]
    cases hlook : index.byFpr.lookup sKey.fingerprint with
    | none => simp
    | some old => exact h.nodup _ old hlook
  have hmem : ∀ p, p ∈ owners.map GpgKeyPair.fingerprint ↔
      ∃ c ∈ cs, c.1.fingerprint = p ∧ c.2.fingerprint = sKey.fingerprint := by
    intro p
    rw [howners]
    cases hlook : index.byFpr.lookup sKey.fingerprint with
    | none =>
      have hno := (h.none_iff _).mp hlook
      simp only [Option.getD_none, List.map_nil, List.not_mem_nil, false_iff, not_exists, not_and]
      exact fun c hc _ => hno c hc
    | some old => exact h.owners _ old hlook p
  have hlisted : owners.any (fun owner => owner.fingerprint = key.fingerprint) = true ↔
      key.fingerprint ∈ owners.map GpgKeyPair.fingerprint := by
    simp only [List.any_eq_true, decide_eq_true_eq, List.mem_map]
  constructor
  · intro fpr
    rw [KeyPairIndex.enter, AList.lookup_insert_ite]
    by_cases hf : fpr = sKey.fingerprint
    · rw [if_pos hf]
      refine iff_of_false (by simp) fun hno => ?_
      exact hno (key, sKey) (List.mem_append_right _ (List.mem_singleton.mpr rfl)) hf.symm
    · rw [if_neg hf, h.none_iff]
      constructor
      · intro hno c hc
        rcases List.mem_append.mp hc with hc | hc
        · exact hno c hc
        · rw [List.mem_singleton.mp hc]
          exact fun heq => hf heq.symm
      · exact fun hno c hc => hno c (List.mem_append_left _ hc)
  · intro fpr new hnew
    rw [KeyPairIndex.enter, AList.lookup_insert_ite, ← howners] at hnew
    by_cases hf : fpr = sKey.fingerprint
    · rw [if_pos hf, Option.some.injEq] at hnew
      rw [← hnew]
      split
      · exact hnodup
      · next hno =>
        rw [List.map_append, List.map_singleton, List.nodup_append]
        refine ⟨hnodup, List.nodup_singleton _, ?_⟩
        intro a ha b hb
        rw [List.mem_singleton] at hb
        rintro rfl
        exact hno (hlisted.mpr (hb ▸ ha))
    · rw [if_neg hf] at hnew
      exact h.nodup fpr new hnew
  · intro fpr new hnew p
    rw [KeyPairIndex.enter, AList.lookup_insert_ite, ← howners] at hnew
    by_cases hf : fpr = sKey.fingerprint
    · rw [if_pos hf, Option.some.injEq] at hnew
      have hgrown : p ∈ new.map GpgKeyPair.fingerprint ↔
          p ∈ owners.map GpgKeyPair.fingerprint ∨ p = key.fingerprint := by
        rw [← hnew]
        split
        · next hyes =>
          constructor
          · exact Or.inl
          · rintro (hp | rfl)
            · exact hp
            · exact hlisted.mp hyes
        · simp [List.mem_append]
      rw [hgrown, hmem, hf]
      simp only [List.mem_append, List.mem_singleton, or_and_right, exists_or, exists_eq_left]
      constructor
      · rintro (hc | rfl)
        · exact Or.inl hc
        · exact Or.inr ⟨rfl, trivial⟩
      · rintro (hc | ⟨rfl, -⟩)
        · exact Or.inl hc
        · exact Or.inr rfl
    · rw [if_neg hf] at hnew
      rw [h.owners fpr new hnew]
      have : sKey.fingerprint ≠ fpr := fun heq => hf heq.symm
      simp [this, or_and_right, exists_or]
  · intro fpr
    rw [KeyPairIndex.enter, AList.lookup_insert_ite, h.ids, listedId, listedId,
      List.filter_append]
    by_cases hf : fpr = sKey.fingerprint
    · simp [hf]
    · have : sKey.fingerprint ≠ fpr := fun heq => hf heq.symm
      simp [hf, this]

theorem Entered.enterSubKeys {cs : List (GpgKeyPair × GpgSubKey)} {index : KeyPairIndex}
    (h : Entered cs index) (key : GpgKeyPair) :
    Entered (cs ++ (key.subKeys.filter KeyPairIndex.counts).map (key, ·))
      (index.enterSubKeys key) := by
  unfold KeyPairIndex.enterSubKeys
  generalize key.subKeys = sKeys
  induction sKeys generalizing cs index with
  | nil => simpa using h
  | cons sKey sKeys ih =>
    rw [List.foldl_cons, List.filter_cons]
    split
    · have := ih (h.enter key sKey)
      simpa using this
    · exact ih h

theorem entered_indexKeyPairs (keys : List (Option GpgKeyPair)) :
    Entered (carried keys) (indexKeyPairs keys) := by
  have hrun : ∀ (keys : List (Option GpgKeyPair)) cs index, Entered cs index →
      Entered (cs ++ carried keys) (keys.foldl (fun index key =>
        match key with
        | none => index
        | some key => index.enterSubKeys key) index) := by
    intro keys
    induction keys with
    | nil =>
      intro cs index h
      simpa [carried] using h
    | cons key keys ih =>
      intro cs index h
      cases key with
      | none => exact ih cs index h
      | some key =>
        have := ih _ _ (h.enterSubKeys key)
        simpa [carried] using this
  exact hrun keys [] {} entered_nil

/-! ## The index -/

theorem two_le_length_iff {α : Type} {l : List α} (h : l.Nodup) :
    2 ≤ l.length ↔ ∃ a b, a ≠ b ∧ a ∈ l ∧ b ∈ l := by
  match l with
  | [] => simp
  | [a] =>
    refine iff_of_false (by simp) ?_
    rintro ⟨b, c, hne, hb, hc⟩
    exact hne ((List.mem_singleton.mp hb).trans (List.mem_singleton.mp hc).symm)
  | a :: b :: l =>
    refine iff_of_true (by simp) ⟨a, b, ?_, by simp, by simp⟩
    rintro rfl
    exact (List.nodup_cons.mp h).1 (List.mem_cons_self ..)

section Entries

variable {keys : List (Option GpgKeyPair)} {fpr : QString} {owners : List GpgKeyPair}

theorem entry_spec (h : (indexKeyPairs keys).entry fpr = some owners) :
    Shared keys fpr ∧ OwnersOf keys fpr owners := by
  have hfilled := entered_indexKeyPairs keys
  unfold KeyPairIndex.entry at h
  cases hlook : (indexKeyPairs keys).byFpr.lookup fpr with
  | none => simp [hlook] at h
  | some found =>
    simp only [hlook, Option.ite_none_left_eq_some, Option.some.injEq] at h
    obtain ⟨htwo, rfl⟩ := h
    have hnodup := hfilled.nodup fpr found hlook
    have hmem := hfilled.owners fpr found hlook
    have hperm := (List.perm_insertionSort (fun a b : GpgKeyPair =>
      a.fingerprint ≤ b.fingerprint) found).map GpgKeyPair.fingerprint
    constructor
    · have hlength : 2 ≤ (found.map GpgKeyPair.fingerprint).length := by
        rw [List.length_map]
        exact Nat.le_of_not_lt htwo
      obtain ⟨p, q, hne, hp, hq⟩ := (two_le_length_iff hnodup).mp hlength
      exact ⟨p, q, hne, (hmem p).mp hp, (hmem q).mp hq⟩
    · constructor
      · have hsorted := List.pairwise_insertionSort (fun a b : GpgKeyPair =>
          a.fingerprint ≤ b.fingerprint) found
        have hle : ((found.insertionSort fun a b => a.fingerprint ≤ b.fingerprint).map
            GpgKeyPair.fingerprint).Pairwise (· ≤ ·) := List.pairwise_map.mpr hsorted
        exact (hle.and (hperm.nodup_iff.mpr hnodup)).imp fun hab =>
          (List.le_iff_lt_or_eq.mp hab.1).resolve_right hab.2
      · intro p
        rw [hperm.mem_iff]
        exact hmem p

theorem entry_of_shared (h : Shared keys fpr) :
    ∃ owners, (indexKeyPairs keys).entry fpr = some owners := by
  have hfilled := entered_indexKeyPairs keys
  obtain ⟨p, q, hne, hp, hq⟩ := h
  cases hlook : (indexKeyPairs keys).byFpr.lookup fpr with
  | none =>
    obtain ⟨c, hc, -, hfpr⟩ := hp
    exact absurd hfpr ((hfilled.none_iff fpr).mp hlook c hc)
  | some found =>
    have hmem := hfilled.owners fpr found hlook
    have hlength := (two_le_length_iff (hfilled.nodup fpr found hlook)).mpr
      ⟨p, q, hne, (hmem p).mpr hp, (hmem q).mpr hq⟩
    rw [List.length_map] at hlength
    refine ⟨found.insertionSort fun a b => a.fingerprint ≤ b.fingerprint, ?_⟩
    unfold KeyPairIndex.entry
    simp only [hlook]
    exact if_neg (Nat.not_lt.mpr hlength)

/-- The key ID that the second loop inserts is the one the key was listed with. -/
theorem listedId_of_shared (h : Shared keys fpr) :
    listedId (carried keys) fpr = some (((indexKeyPairs keys).keyIds.lookup fpr).getD []) := by
  obtain ⟨p, -, -, ⟨c, hc, -, hfpr⟩, -⟩ := h
  rw [(entered_indexKeyPairs keys).ids]
  have hne : (carried keys).filter (fun c => c.2.fingerprint = fpr) ≠ [] := by
    intro hnil
    have := List.filter_eq_nil_iff.mp hnil c hc
    simp [hfpr] at this
  unfold listedId
  rw [List.getLast?_eq_some_getLast hne]
  rfl

end Entries

/-- What the second loop has made of the fingerprints it has passed. -/
structure SharedFrom (keys : List (Option GpgKeyPair)) (passed : List QString)
    (shared : AList fun _ : QString => List GpgKeyPair) : Prop where
  sound : ∀ k owners, shared.lookup k = some owners →
    ∃ fpr ∈ passed, Names keys fpr k ∧ (indexKeyPairs keys).entry fpr = some owners
  complete : ∀ fpr ∈ passed, ∀ k, Shared keys fpr → Names keys fpr k →
    ∃ owners, shared.lookup k = some owners

theorem SharedFrom.share {keys : List (Option GpgKeyPair)} {passed : List QString}
    {shared : AList fun _ : QString => List GpgKeyPair} (h : SharedFrom keys passed shared)
    (fpr : QString) :
    SharedFrom keys (passed ++ [fpr]) ((indexKeyPairs keys).share shared fpr) := by
  unfold KeyPairIndex.share
  cases hentry : (indexKeyPairs keys).entry fpr with
  | none =>
    constructor
    · intro k owners hk
      obtain ⟨g, hg, hnames, howners⟩ := h.sound k owners hk
      exact ⟨g, List.mem_append_left _ hg, hnames, howners⟩
    · intro g hg k hshared hnames
      rcases List.mem_append.mp hg with hg | hg
      · exact h.complete g hg k hshared hnames
      · obtain ⟨owners, howners⟩ := entry_of_shared hshared
        rw [List.mem_singleton.mp hg, hentry] at howners
        cases howners
  | some owners =>
    have hid := listedId_of_shared (entry_spec hentry).1
    have hlook : ∀ k, ((shared.insert fpr owners).insert
        (((indexKeyPairs keys).keyIds.lookup fpr).getD []) owners).lookup k =
        if k = ((indexKeyPairs keys).keyIds.lookup fpr).getD [] then some owners
        else if k = fpr then some owners else shared.lookup k := by
      intro k
      rw [AList.lookup_insert_ite, AList.lookup_insert_ite]
    have hself : fpr ∈ passed ++ [fpr] := List.mem_append_right _ (List.mem_singleton.mpr rfl)
    dsimp only
    constructor
    · intro k found hk
      rw [hlook] at hk
      split at hk
      · next heq =>
        exact ⟨fpr, hself, Or.inr (heq ▸ hid), hentry.trans hk⟩
      · split at hk
        · next heq => exact ⟨fpr, hself, Or.inl heq, hentry.trans hk⟩
        · obtain ⟨g, hg, hnames, howners⟩ := h.sound k found hk
          exact ⟨g, List.mem_append_left _ hg, hnames, howners⟩
    · intro g hg k hshared hnames
      rw [hlook]
      split
      · exact ⟨owners, rfl⟩
      · next hne =>
        split
        · exact ⟨owners, rfl⟩
        · next hne' =>
          rcases List.mem_append.mp hg with hg | hg
          · exact h.complete g hg k hshared hnames
          · rw [List.mem_singleton.mp hg] at hnames
            rcases hnames with heq | heq
            · exact absurd heq hne'
            · rw [hid, Option.some.injEq] at heq
              exact absurd heq.symm hne

theorem sharedFrom_index (keys : List (Option GpgKeyPair)) (order : List QString) :
    SharedFrom keys order (indexKeysSharedByKeyPairs order keys) := by
  have hrun : ∀ (order passed : List QString) shared, SharedFrom keys passed shared →
      SharedFrom keys (passed ++ order) (order.foldl (indexKeyPairs keys).share shared) := by
    intro order
    induction order with
    | nil =>
      intro passed shared h
      simpa using h
    | cons fpr order ih =>
      intro passed shared h
      have := ih _ _ (h.share fpr)
      simpa using this
  have hstart : SharedFrom keys [] ∅ := ⟨by simp, by simp⟩
  exact hrun order [] ∅ hstart

/-- A shared key is one of those that the hash gives. -/
theorem Shared.mem_order {keys : List (Option GpgKeyPair)} {order : List QString} {fpr : QString}
    (h : Shared keys fpr) (horder : order.Perm (indexKeyPairs keys).byFpr.keys) : fpr ∈ order := by
  obtain ⟨p, -, -, ⟨c, hc, -, hfpr⟩, -⟩ := h
  rw [horder.mem_iff, ← AList.mem_keys, ← AList.lookup_isSome, Option.isSome_iff_ne_none]
  intro hnone
  exact ((entered_indexKeyPairs keys).none_iff fpr).mp hnone c hc hfpr

/-- **The index**, in whatever order the hash gives the fingerprints: every entry holds the
owners of a shared key that its identifier names; and a shared key's fingerprint and key ID each
have an entry, with the owners of that key if they name no other shared key. -/
theorem shared_index_exact (keys : List (Option GpgKeyPair)) (order : List QString)
    (horder : order.Perm (indexKeyPairs keys).byFpr.keys) :
    (∀ k owners, (indexKeysSharedByKeyPairs order keys).lookup k = some owners →
      ∃ fpr, Shared keys fpr ∧ Names keys fpr k ∧ OwnersOf keys fpr owners) ∧
    ∀ fpr k, Shared keys fpr → Names keys fpr k →
      ∃ owners, (indexKeysSharedByKeyPairs order keys).lookup k = some owners ∧
        ((∀ other, Shared keys other → Names keys other k → other = fpr) →
          OwnersOf keys fpr owners) := by
  have hindex := sharedFrom_index keys order
  have hsound : ∀ k owners, (indexKeysSharedByKeyPairs order keys).lookup k = some owners →
      ∃ fpr, Shared keys fpr ∧ Names keys fpr k ∧ OwnersOf keys fpr owners := by
    intro k owners hk
    obtain ⟨fpr, -, hnames, hentry⟩ := hindex.sound k owners hk
    obtain ⟨hshared, howners⟩ := entry_spec hentry
    exact ⟨fpr, hshared, hnames, howners⟩
  refine ⟨hsound, fun fpr k hshared hnames => ?_⟩
  obtain ⟨owners, hk⟩ := hindex.complete fpr (hshared.mem_order horder) k hshared hnames
  refine ⟨owners, hk, fun honly => ?_⟩
  obtain ⟨other, hother, hnames', howners⟩ := hsound k owners hk
  exact honly other hother hnames' ▸ howners

/-- Two key pairs that carry one subkey, and have another each whose key IDs agree. -/
def sampleKeyPairs : List (Option GpgKeyPair) :=
  [some ⟨[2], [⟨[2], [102], false⟩, ⟨[7, 9], [9], false⟩, ⟨[5, 8], [8], false⟩]⟩,
    some ⟨[1], [⟨[1], [101], false⟩, ⟨[7, 9], [9], false⟩, ⟨[6, 8], [8], false⟩]⟩]

def sampleOrder : List QString := (indexKeyPairs sampleKeyPairs).byFpr.keys

theorem shared_sample : Shared sampleKeyPairs [7, 9] :=
  ⟨[2], [1], by decide, by decide, by decide⟩

theorem shared_index_exact_sample :
    ∃ owners, (indexKeysSharedByKeyPairs sampleOrder sampleKeyPairs).lookup [9] = some owners :=
  have h := (shared_index_exact sampleKeyPairs sampleOrder (.refl _)).2 [7, 9] [9] shared_sample
    (Or.inr (by decide))
  h.imp fun _ howners => howners.1

/-- A key pair has a key that an identifier names. -/
def HasIdentifier (keys : List (Option GpgKeyPair)) (p k : QString) : Prop :=
  ∃ c ∈ carried keys, c.1.fingerprint = p ∧ (c.2.fingerprint = k ∨ c.2.id = k)

/-- A key ID that two key pairs have through different keys is not in the index. -/
theorem colliding_key_id_not_indexed :
    ¬ ∀ (keys : List (Option GpgKeyPair)) (order : List QString) (k : QString),
      order.Perm (indexKeyPairs keys).byFpr.keys →
      (∃ p q, p ≠ q ∧ HasIdentifier keys p k ∧ HasIdentifier keys q k) →
      ∃ owners, (indexKeysSharedByKeyPairs order keys).lookup k = some owners ∧
        ∀ p, p ∈ owners.map GpgKeyPair.fingerprint ↔ HasIdentifier keys p k := by
  intro h
  have hhas : ∀ p : QString, p = [2] ∨ p = [1] → HasIdentifier sampleKeyPairs p [8] := by
    rintro p (rfl | rfl)
    · exact ⟨(⟨[2], [⟨[2], [102], false⟩, ⟨[7, 9], [9], false⟩, ⟨[5, 8], [8], false⟩]⟩,
        ⟨[5, 8], [8], false⟩), by decide, rfl, Or.inr rfl⟩
    · exact ⟨(⟨[1], [⟨[1], [101], false⟩, ⟨[7, 9], [9], false⟩, ⟨[6, 8], [8], false⟩]⟩,
        ⟨[6, 8], [8], false⟩), by decide, rfl, Or.inr rfl⟩
  obtain ⟨owners, howners, -⟩ := h sampleKeyPairs sampleOrder [8] (.refl _)
    ⟨[2], [1], by decide, hhas _ (Or.inl rfl), hhas _ (Or.inr rfl)⟩
  have hnone : (indexKeysSharedByKeyPairs sampleOrder sampleKeyPairs).lookup [8] = none := by
    decide
  rw [hnone] at howners
  cases howners

end GpgFrontend
