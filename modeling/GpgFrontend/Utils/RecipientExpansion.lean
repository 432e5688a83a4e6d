import GpgFrontend.OpenPGP.KeyGroupMutation

/-!
# From selected keys and groups to recipients (`GpgUtils.cpp`)

- `expansion_faithful_iff`: **both recursions end, and when nothing is unusable the expansion
  is the set of the chosen keys, each once, exactly when no subkey is chosen and no key is
  reached in two ways.** The set of ids that drops repetitions is a new one for every group.
-/

namespace GpgFrontend

open KeyGroupRepository

/-- A `GpgKey`, or a `GpgSubKey`; the id of neither is a group's. -/
structure SingleKey where
  id : QString
  isSubkey : Bool
  disabled : Bool
  not_group : isKeyGroupID id = false
  deriving DecidableEq

/-- `GpgAbstractKey`, by its `KeyType()`. -/
inductive AbstractKey where
  | key (k : SingleKey)
  | keyGroup (kg : GpgKeyGroup)
  deriving DecidableEq

def AbstractKey.id : AbstractKey → QString
  | .key k => k.id
  | .keyGroup kg => kg.id

/-- `AbstractKeyRepository`: the key groups, with the flags `check_all_key_groups` left, and the
keys and subkeys by any of the ids they are known under. -/
structure AbstractKeyRepository where
  groups : KeyGroupRepository
  groupDisabled : Nat → Bool
  keyOrSubkey : QString → Option SingleKey

namespace AbstractKeyRepository

variable (R : AbstractKeyRepository)

/-- `KeyGroupRepository::KeyGroup`. -/
def keyGroup (id : QString) : Option GpgKeyGroup :=
  (R.groups.keyGroupsForest.lookup id).bind fun p => (R.groups.nodes.lookup p).map (·.keyGroup)

/-- `GetKey`. -/
def getKey (id : QString) : Option AbstractKey :=
  if isKeyGroupID id then (R.keyGroup id).map .keyGroup else (R.keyOrSubkey id).map .key

/-- `GetKeys`. -/
def getKeys (ids : List QString) : List AbstractKey := ids.filterMap R.getKey

/-- `IsDisabled`. -/
def isDisabled : AbstractKey → Bool
  | .key k => k.disabled
  | .keyGroup kg => R.groups.isKeyGroupDisabled R.groupDisabled kg.id

/-- The loop of `ConvertKey2GpgKeyList`, with the set `s` of the ids that were taken. -/
def convertLoop (expand : List AbstractKey → Option (List SingleKey)) :
    List QString → List (Option AbstractKey) → Option (List SingleKey)
  | _, [] => some []
  | s, none :: rest => convertLoop expand s rest
  | s, some key :: rest =>
    if R.isDisabled key || s.contains key.id then convertLoop expand s rest
    else
      match key with
      | .key k =>
        (convertLoop expand (k.id :: s) rest).map fun ks => (if k.isSubkey then [] else [k]) ++ ks
      | .keyGroup kg =>
        match expand (R.getKeys kg.keyIds) with
        | none => none
        | some members => (convertLoop expand (kg.id :: s) rest).map (members ++ ·)

/-- `ConvertKey2GpgKeyList`, to a depth; `none` when the depth does not do. -/
def convertKey2GpgKeyList : Nat → List (Option AbstractKey) → Option (List SingleKey)
  | 0, _ => none
  | depth + 1, keys =>
    R.convertLoop (fun members => convertKey2GpgKeyList depth (members.map some)) [] keys

/-- The loop of `UnusableKeyIds`; the empty id stands for a null pointer. -/
def unusableLoop (report : List AbstractKey → Option (List QString)) :
    List (Option AbstractKey) → Option (List QString)
  | [] => some []
  | none :: rest => (unusableLoop report rest).map ([] :: ·)
  | some key :: rest =>
    if R.isDisabled key then (unusableLoop report rest).map (key.id :: ·)
    else
      match key with
      | .key _ => unusableLoop report rest
      | .keyGroup kg =>
        let members := R.getKeys kg.keyIds
        let missing := kg.keyIds.filter fun id => !members.any fun m => m.id == id
        match report members with
        | none => none
        | some unusable => (unusableLoop report rest).map (missing ++ unusable ++ ·)

/-- `UnusableKeyIds`, to a depth. -/
def unusableKeyIds : Nat → List (Option AbstractKey) → Option (List QString)
  | 0, _ => none
  | depth + 1, keys =>
    R.unusableLoop (fun members => unusableKeyIds depth (members.map some)) keys

/-! ## What was chosen -/

/-- The keys that a selected key or group stands for. -/
inductive Stands : AbstractKey → SingleKey → Prop
  | key (k : SingleKey) : Stands (.key k) k
  | member {kg : GpgKeyGroup} {m : AbstractKey} {k : SingleKey} :
      m ∈ R.getKeys kg.keyIds → Stands m k → Stands (.keyGroup kg) k

/-- A key selected directly, or a transitive member of a selected group. -/
def Chosen (keys : List (Option AbstractKey)) (k : SingleKey) : Prop :=
  ∃ key, some key ∈ keys ∧ R.Stands key k

/-- The lists the expansion walks through: the selection, and the members of a group in one. -/
inductive Level (keys : List AbstractKey) : List AbstractKey → Prop
  | top : Level keys keys
  | inner {level : List AbstractKey} {kg : GpgKeyGroup} :
      Level keys level → .keyGroup kg ∈ level → Level keys (R.getKeys kg.keyIds)

/-- Two different elements of a list stand for no key in common. -/
def Apart (level : List AbstractKey) : Prop :=
  ∀ a ∈ level, ∀ b ∈ level, a.id ≠ b.id → ∀ k, R.Stands a k → ¬R.Stands b k

/-- No key is reached in two ways. -/
def KeptApart (keys : List AbstractKey) : Prop := ∀ level, R.Level keys level → R.Apart level

/-- A selected group is the repository's own. -/
def InGraph : AbstractKey → Prop
  | .key _ => True
  | .keyGroup kg => R.keyGroup kg.id = some kg

/-! ## The recursions end -/

section Graph

variable {R : AbstractKeyRepository}

variable {kg : GpgKeyGroup}

theorem keyGroup_eq_some {id : QString} : R.keyGroup id = some kg ↔
    ∃ p node, R.groups.keyGroupsForest.lookup id = some p ∧
      R.groups.nodes.lookup p = some node ∧ node.keyGroup = kg := by
  unfold keyGroup
  cases R.groups.keyGroupsForest.lookup id with
  | none => simp
  | some p => simp

variable (hg : GroupGraph R.groups) (ht : TypedGroups R.groups) (ha : Applied R.groups)

include hg in
theorem id_of_keyGroup {id : QString} (h : R.keyGroup id = some kg) : kg.id = id := by
  obtain ⟨p, node, hp, hnode, rfl⟩ := keyGroup_eq_some.mp h
  have hid := hg.idOf_of_lookup hp
  unfold idOf at hid
  rw [hnode] at hid
  exact Option.some.inj hid

theorem mem_getKeys {ids : List QString} {m : AbstractKey} :
    m ∈ R.getKeys ids ↔ ∃ id ∈ ids, R.getKey id = some m :=
  List.mem_filterMap

theorem getKey_eq_keyGroup {id : QString} :
    R.getKey id = some (.keyGroup kg) ↔ isKeyGroupID id = true ∧ R.keyGroup id = some kg := by
  unfold getKey
  by_cases hid : isKeyGroupID id = true
  · simp [hid]
  · simp [hid]

include hg in
theorem inGraph_of_mem {ids : List QString} {m : AbstractKey} (hm : m ∈ R.getKeys ids) :
    R.InGraph m := by
  obtain ⟨id, -, hget⟩ := mem_getKeys.mp hm
  cases m with
  | key k => exact trivial
  | keyGroup kg =>
    obtain ⟨-, hgroup⟩ := getKey_eq_keyGroup.mp hget
    show R.keyGroup kg.id = some kg
    rwa [id_of_keyGroup hg hgroup]

/-- The rank of the node of a group. -/
def rankOf (R : AbstractKeyRepository) (rank : Nat → Nat) (kg : GpgKeyGroup) : Nat :=
  ((R.groups.keyGroupsForest.lookup kg.id).map rank).getD 0

include hg ht ha in
/-- A group in a group is further down. -/
theorem rankOf_member {rank : Nat → Nat}
    (hrank : ∀ p c, c ∈ R.groups.childrenOf p → rank c < rank p) {kg' : GpgKeyGroup}
    (hkg : R.keyGroup kg.id = some kg) (hmem : .keyGroup kg' ∈ R.getKeys kg.keyIds) :
    R.rankOf rank kg' < R.rankOf rank kg := by
  obtain ⟨id, hid, hget⟩ := mem_getKeys.mp hmem
  obtain ⟨hgroupId, hgroup⟩ := getKey_eq_keyGroup.mp hget
  obtain ⟨p, node, hp, hnode, hnodeGroup⟩ := keyGroup_eq_some.mp hkg
  have hmember : id ∈ R.groups.keyIdsOf p := by
    unfold keyIdsOf
    rw [hnode, Option.map_some, Option.getD_some, ← ha p node hnode, hnodeGroup]
    exact hid
  obtain ⟨c, hc, hfound⟩ := hg.child_of_mem ht hmember hgroupId
  have hlower := hrank p c hc
  rw [rankOf, rankOf, id_of_keyGroup hg hgroup, hfound, hp]
  exact hlower

variable {expand : List AbstractKey → Option (List SingleKey)} {s : List QString}

theorem convertLoop_skip {key : AbstractKey} (h : (R.isDisabled key || s.contains key.id) = true)
    (rest : List (Option AbstractKey)) :
    R.convertLoop expand s (some key :: rest) = R.convertLoop expand s rest := by
  cases key with
  | key k => exact if_pos h
  | keyGroup kg => exact if_pos h

variable {k : SingleKey}

theorem convertLoop_key (h : ¬(R.isDisabled (.key k) || s.contains k.id) = true)
    (rest : List (Option AbstractKey)) :
    R.convertLoop expand s (some (.key k) :: rest) =
      (R.convertLoop expand (k.id :: s) rest).map fun ks => (if k.isSubkey then [] else [k]) ++ ks :=
  if_neg h

theorem convertLoop_keyGroup {ms : List SingleKey}
    (h : ¬(R.isDisabled (.keyGroup kg) || s.contains kg.id) = true)
    (hms : expand (R.getKeys kg.keyIds) = some ms) (rest : List (Option AbstractKey)) :
    R.convertLoop expand s (some (.keyGroup kg) :: rest) =
      (R.convertLoop expand (kg.id :: s) rest).map (ms ++ ·) := by
  refine (if_neg h).trans ?_
  dsimp only
  rw [hms]

variable {keys : List (Option AbstractKey)}

theorem convertLoop_total
    (hexpand : ∀ kg, some (.keyGroup kg) ∈ keys → ∃ ms, expand (R.getKeys kg.keyIds) = some ms)
    (s : List QString) : ∃ ks, R.convertLoop expand s keys = some ks := by
  induction keys generalizing s with
  | nil => exact ⟨[], rfl⟩
  | cons o rest ih =>
    have ih := ih fun kg hkg => hexpand kg (List.mem_cons_of_mem o hkg)
    cases o with
    | none => exact ih s
    | some key =>
      by_cases hskip : (R.isDisabled key || s.contains key.id) = true
      · rw [convertLoop_skip hskip]
        exact ih s
      · cases key with
        | key k =>
          obtain ⟨ks, hks⟩ := ih (k.id :: s)
          rw [convertLoop_key hskip, hks]
          exact ⟨_, rfl⟩
        | keyGroup kg =>
          obtain ⟨ms, hms⟩ := hexpand kg List.mem_cons_self
          obtain ⟨ks, hks⟩ := ih (kg.id :: s)
          rw [convertLoop_keyGroup hskip hms, hks]
          exact ⟨_, rfl⟩

variable {report : List AbstractKey → Option (List QString)}

theorem unusableLoop_total
    (hreport : ∀ kg, some (.keyGroup kg) ∈ keys → ∃ ids, report (R.getKeys kg.keyIds) = some ids) :
    ∃ ids, R.unusableLoop report keys = some ids := by
  induction keys with
  | nil => exact ⟨[], rfl⟩
  | cons o rest ih =>
    obtain ⟨ids, hids⟩ := ih fun kg hkg => hreport kg (List.mem_cons_of_mem o hkg)
    cases o with
    | none =>
      rw [unusableLoop, hids]
      exact ⟨_, rfl⟩
    | some key =>
      cases key with
      | key k =>
        simp only [unusableLoop, hids]
        split
        · exact ⟨_, rfl⟩
        · exact ⟨_, rfl⟩
      | keyGroup kg =>
        obtain ⟨unusable, hunusable⟩ := hreport kg List.mem_cons_self
        simp only [unusableLoop, hids, hunusable]
        split
        · exact ⟨_, rfl⟩
        · exact ⟨_, rfl⟩

include hg ht ha in
/-- **Both recursions end** at a depth above the rank of every selected group. -/
theorem expansion_total {rank : Nat → Nat}
    (hrank : ∀ p c, c ∈ R.groups.childrenOf p → rank c < rank p) {depth : Nat} (hdepth : 0 < depth)
    (hkeys : ∀ kg, some (.keyGroup kg) ∈ keys →
      R.InGraph (.keyGroup kg) ∧ R.rankOf rank kg + 1 < depth) :
    (∃ ks, R.convertKey2GpgKeyList depth keys = some ks) ∧
      ∃ ids, R.unusableKeyIds depth keys = some ids := by
  induction depth generalizing keys with
  | zero => omega
  | succ depth ih =>
    have hmembers : ∀ kg, some (.keyGroup kg) ∈ keys →
        (∃ ks, R.convertKey2GpgKeyList depth ((R.getKeys kg.keyIds).map some) = some ks) ∧
          ∃ ids, R.unusableKeyIds depth ((R.getKeys kg.keyIds).map some) = some ids := by
      intro kg hkg
      obtain ⟨hin, hbound⟩ := hkeys kg hkg
      refine ih (by omega) fun kg' hkg' => ?_
      obtain ⟨m, hm, heq⟩ := List.mem_map.mp hkg'
      obtain rfl := Option.some.inj heq
      have hlower := rankOf_member hg ht ha hrank hin hm
      exact ⟨inGraph_of_mem hg hm, by omega⟩
    exact ⟨convertLoop_total (fun kg hkg => (hmembers kg hkg).1) [],
      unusableLoop_total fun kg hkg => (hmembers kg hkg).2⟩

/-! ## What comes out -/

theorem stands_key_iff {k' : SingleKey} : R.Stands (.key k) k' ↔ k' = k := by
  constructor
  · intro h
    cases h
    rfl
  · rintro rfl
    exact .key k'

theorem stands_keyGroup_iff :
    R.Stands (.keyGroup kg) k ↔ ∃ m ∈ R.getKeys kg.keyIds, R.Stands m k := by
  constructor
  · intro h
    cases h with
    | member hm hk => exact ⟨_, hm, hk⟩
  · rintro ⟨m, hm, hk⟩
    exact .member hm hk

/-- The lists below a list are the list and those below its groups. -/
theorem keptApart_iff {keys : List AbstractKey} : R.KeptApart keys ↔
    (∀ kg, .keyGroup kg ∈ keys → R.KeptApart (R.getKeys kg.keyIds)) ∧ R.Apart keys := by
  constructor
  · intro h
    refine ⟨fun kg hkg level hlevel => h level ?_, h keys .top⟩
    induction hlevel with
    | top => exact .inner .top hkg
    | inner _ hmem ih => exact .inner ih hmem
  · rintro ⟨hbelow, hhere⟩ level hlevel
    have hcases : level = keys ∨
        ∃ kg, .keyGroup kg ∈ keys ∧ R.Level (R.getKeys kg.keyIds) level := by
      induction hlevel with
      | top => exact .inl rfl
      | inner _ hmem ih =>
        obtain rfl | ⟨kg, hkg, hlevel⟩ := ih
        · exact .inr ⟨_, hmem, .top⟩
        · exact .inr ⟨kg, hkg, .inner hlevel hmem⟩
    obtain rfl | ⟨kg, hkg, hlevel⟩ := hcases
    · exact hhere
    · exact hbelow kg hkg level hlevel

variable {ks : List SingleKey}

/-- Neither a subkey nor a disabled key comes out. -/
theorem convertLoop_sound
    (hexpand : ∀ members ms, expand members = some ms →
      ∀ k ∈ ms, k.isSubkey = false ∧ k.disabled = false) (h : R.convertLoop expand s keys = some ks) :
    ∀ k ∈ ks, k.isSubkey = false ∧ k.disabled = false := by
  induction keys generalizing s ks with
  | nil =>
    obtain rfl := Option.some.inj h
    simp
  | cons o rest ih =>
    cases o with
    | none => exact ih h
    | some key =>
      by_cases hskip : (R.isDisabled key || s.contains key.id) = true
      · rw [convertLoop_skip hskip] at h
        exact ih h
      · have henabled : R.isDisabled key = false := by
          rw [Bool.or_eq_true, not_or] at hskip
          exact Bool.eq_false_iff.mpr hskip.1
        cases key with
        | key k =>
          rw [convertLoop_key hskip] at h
          obtain ⟨ks', hks', rfl⟩ := Option.map_eq_some_iff.mp h
          intro k' hk'
          obtain hk' | hk' := List.mem_append.mp hk'
          · cases hsub : k.isSubkey with
            | true =>
              rw [hsub] at hk'
              cases hk'
            | false =>
              rw [hsub] at hk'
              obtain rfl := List.mem_singleton.mp hk'
              exact ⟨hsub, henabled⟩
          · exact ih hks' k' hk'
        | keyGroup kg =>
          cases hms : expand (R.getKeys kg.keyIds) with
          | none =>
            have hnone : R.convertLoop expand s (some (.keyGroup kg) :: rest) = none := by
              refine (if_neg hskip).trans ?_
              dsimp only
              rw [hms]
            rw [hnone] at h
            cases h
          | some ms =>
            rw [convertLoop_keyGroup hskip hms] at h
            obtain ⟨ks', hks', rfl⟩ := Option.map_eq_some_iff.mp h
            intro k' hk'
            obtain hk' | hk' := List.mem_append.mp hk'
            · exact hexpand _ ms hms k' hk'
            · exact ih hks' k' hk'

theorem convert_sound {depth : Nat} (h : R.convertKey2GpgKeyList depth keys = some ks) :
    ∀ k ∈ ks, k.isSubkey = false ∧ k.disabled = false := by
  induction depth generalizing keys ks with
  | zero => cases h
  | succ depth ih => exact convertLoop_sound (fun members ms hms => ih hms) h

/-- What it takes for one list to be expanded element by element. -/
structure PlainLevel (R : AbstractKeyRepository) (keys : List AbstractKey) : Prop where
  enabled : ∀ a ∈ keys, R.isDisabled a = false
  primary : ∀ k, .key k ∈ keys → k.isSubkey = false
  same : ∀ a ∈ keys, ∀ b ∈ keys, a.id = b.id → a = b

theorem PlainLevel.tail {a : AbstractKey} {rest : List AbstractKey}
    (h : PlainLevel R (a :: rest)) : PlainLevel R rest :=
  ⟨fun b hb => h.enabled b (List.mem_cons_of_mem a hb),
    fun k hk => h.primary k (List.mem_cons_of_mem a hk),
    fun b hb c hc => h.same b (List.mem_cons_of_mem a hb) c (List.mem_cons_of_mem a hc)⟩

/-- What the loop makes of the elements whose ids it has not taken. -/
structure LoopSpec (R : AbstractKeyRepository) (s : List QString) (keys : List AbstractKey)
    (ks : List SingleKey) : Prop where
  mem : ∀ k, k ∈ ks ↔ ∃ a ∈ keys, a.id ∉ s ∧ R.Stands a k
  nodup : ks.Nodup ↔
    (∀ kg, .keyGroup kg ∈ keys → kg.id ∉ s → R.KeptApart (R.getKeys kg.keyIds)) ∧
      ∀ a ∈ keys, ∀ b ∈ keys, a.id ∉ s → b.id ∉ s → a.id ≠ b.id →
        ∀ k, R.Stands a k → ¬R.Stands b k

/-- **Step.** The keys one new element stands for, before those of the rest. -/
theorem LoopSpec.cons {s : List QString} {a : AbstractKey} {rest : List AbstractKey}
    {ks ks' : List SingleKey} (hplain : PlainLevel R (a :: rest)) (hnew : a.id ∉ s)
    (hmem : ∀ k, k ∈ ks ↔ R.Stands a k)
    (hnodup : ks.Nodup ↔ ∀ kg, a = .keyGroup kg → R.KeptApart (R.getKeys kg.keyIds))
    (hrest : LoopSpec R (a.id :: s) rest ks') : LoopSpec R s (a :: rest) (ks ++ ks') := by
  have hsame : ∀ b ∈ rest, b.id = a.id → b = a :=
    fun b hb hid => hplain.same b (List.mem_cons_of_mem a hb) a List.mem_cons_self hid
  constructor
  · intro k
    rw [List.mem_append, hmem, hrest.mem]
    constructor
    · rintro (hk | ⟨b, hb, hbs, hk⟩)
      · exact ⟨a, List.mem_cons_self, hnew, hk⟩
      · exact ⟨b, List.mem_cons_of_mem a hb, fun h => hbs (List.mem_cons_of_mem _ h), hk⟩
    · rintro ⟨b, hb, hbs, hk⟩
      by_cases hid : b.id = a.id
      · obtain rfl | hb := List.mem_cons.mp hb
        · exact .inl hk
        · exact .inl (hsame b hb hid ▸ hk)
      · obtain rfl | hb := List.mem_cons.mp hb
        · exact absurd rfl hid
        · refine .inr ⟨b, hb, ?_, hk⟩
          rw [List.mem_cons, not_or]
          exact ⟨hid, hbs⟩
  · rw [List.nodup_append, hnodup, hrest.nodup]
    constructor
    · rintro ⟨hhere, ⟨hbelow, hapart⟩, hdisjoint⟩
      have hcross : ∀ b ∈ rest, b.id ∉ s → a.id ≠ b.id → ∀ k, R.Stands a k → ¬R.Stands b k := by
        intro b hb hbs hne k hk hk'
        refine hdisjoint k ((hmem k).mpr hk) k ((hrest.mem k).mpr ⟨b, hb, ?_, hk'⟩) rfl
        rw [List.mem_cons, not_or]
        exact ⟨hne.symm, hbs⟩
      refine ⟨fun kg hkg hkgs => ?_, fun b hb c hc hbs hcs hne k hk hk' => ?_⟩
      · obtain heq | hkg := List.mem_cons.mp hkg
        · exact hhere kg heq.symm
        · by_cases hid : kg.id = a.id
          · exact hhere kg (hsame _ hkg hid).symm
          · refine hbelow kg hkg ?_
            rw [List.mem_cons, not_or]
            exact ⟨hid, hkgs⟩
      · by_cases hba : b.id = a.id
        · have hb : b = a := by
            obtain rfl | hb := List.mem_cons.mp hb
            · rfl
            · exact hsame b hb hba
          have hc : c ∈ rest := by
            obtain rfl | hc := List.mem_cons.mp hc
            · exact absurd hba hne
            · exact hc
          rw [hb] at hk hne
          exact hcross c hc hcs hne k hk hk'
        · by_cases hca : c.id = a.id
          · have hc : c = a := by
              obtain rfl | hc := List.mem_cons.mp hc
              · rfl
              · exact hsame c hc hca
            have hb : b ∈ rest := by
              obtain rfl | hb := List.mem_cons.mp hb
              · exact absurd rfl hba
              · exact hb
            rw [hc] at hk'
            exact hcross b hb hbs (Ne.symm hba) k hk' hk
          · have hb : b ∈ rest := (List.mem_cons.mp hb).resolve_left fun h => hba (h ▸ rfl)
            have hc : c ∈ rest := (List.mem_cons.mp hc).resolve_left fun h => hca (h ▸ rfl)
            refine hapart b hb c hc ?_ ?_ hne k hk hk'
            · rw [List.mem_cons, not_or]
              exact ⟨hba, hbs⟩
            · rw [List.mem_cons, not_or]
              exact ⟨hca, hcs⟩
    · rintro ⟨hbelow, hapart⟩
      have hkeep : ∀ {b : AbstractKey}, b.id ∉ a.id :: s → b.id ∉ s :=
        fun hb h => hb (List.mem_cons_of_mem _ h)
      refine ⟨fun kg heq => ?_, ⟨fun kg hkg hkgs => ?_, fun b hb c hc hbs hcs => ?_⟩, ?_⟩
      · subst heq
        exact hbelow kg List.mem_cons_self hnew
      · exact hbelow kg (List.mem_cons_of_mem a hkg) fun h => hkgs (List.mem_cons_of_mem _ h)
      · exact hapart b (List.mem_cons_of_mem a hb) c (List.mem_cons_of_mem a hc) (hkeep hbs)
          (hkeep hcs)
      · rintro k hk k' hk' rfl
        obtain ⟨b, hb, hbs, hk'⟩ := (hrest.mem k).mp hk'
        refine hapart a List.mem_cons_self b (List.mem_cons_of_mem a hb) hnew (hkeep hbs) ?_ k
          ((hmem k).mp hk) hk'
        intro heq
        exact hbs (heq ▸ List.mem_cons_self)

theorem LoopSpec.skip {a : AbstractKey} {rest : List AbstractKey} (htaken : a.id ∈ s)
    (hrest : LoopSpec R s rest ks) : LoopSpec R s (a :: rest) ks := by
  have hne : ∀ {b : AbstractKey}, b ∈ a :: rest → b.id ∉ s → b ∈ rest := by
    intro b hb hbs
    obtain rfl | hb := List.mem_cons.mp hb
    · exact absurd htaken hbs
    · exact hb
  constructor
  · intro k
    rw [hrest.mem]
    constructor
    · rintro ⟨b, hb, hbs, hk⟩
      exact ⟨b, List.mem_cons_of_mem a hb, hbs, hk⟩
    · rintro ⟨b, hb, hbs, hk⟩
      exact ⟨b, hne hb hbs, hbs, hk⟩
  · rw [hrest.nodup]
    constructor
    · rintro ⟨hbelow, hapart⟩
      exact ⟨fun kg hkg hkgs => hbelow kg (hne hkg hkgs) hkgs,
        fun b hb c hc hbs hcs => hapart b (hne hb hbs) c (hne hc hcs) hbs hcs⟩
    · rintro ⟨hbelow, hapart⟩
      exact ⟨fun kg hkg => hbelow kg (List.mem_cons_of_mem a hkg),
        fun b hb c hc => hapart b (List.mem_cons_of_mem a hb) c (List.mem_cons_of_mem a hc)⟩

theorem loopSpec_nil (s : List QString) : LoopSpec R s [] [] :=
  ⟨by simp, by simp⟩

theorem convertLoop_spec (expand : List AbstractKey → Option (List SingleKey))
    {keys : List AbstractKey} (hplain : PlainLevel R keys)
    (hexpand : ∀ kg, .keyGroup kg ∈ keys → ∃ ms, expand (R.getKeys kg.keyIds) = some ms ∧
      (∀ k, k ∈ ms ↔ ∃ m ∈ R.getKeys kg.keyIds, R.Stands m k) ∧
      (ms.Nodup ↔ R.KeptApart (R.getKeys kg.keyIds))) (s : List QString) :
    ∃ ks, R.convertLoop expand s (keys.map some) = some ks ∧ LoopSpec R s keys ks := by
  induction keys generalizing s with
  | nil => exact ⟨[], rfl, loopSpec_nil s⟩
  | cons a rest ih =>
    have ih := ih hplain.tail fun kg hkg => hexpand kg (List.mem_cons_of_mem a hkg)
    have henabled : R.isDisabled a = false := hplain.enabled a List.mem_cons_self
    by_cases htaken : a.id ∈ s
    · obtain ⟨ks, hrun, hspec⟩ := ih s
      refine ⟨ks, ?_, hspec.skip htaken⟩
      rw [List.map_cons, convertLoop_skip (by simp [htaken])]
      exact hrun
    · have hskip : ¬(R.isDisabled a || s.contains a.id) = true := by
        simp [henabled, htaken]
      obtain ⟨ks', hrun, hrest⟩ := ih (a.id :: s)
      cases a with
      | key k =>
        have hsub : k.isSubkey = false := hplain.primary k List.mem_cons_self
        refine ⟨[k] ++ ks', ?_, hrest.cons hplain htaken (fun k' => ?_) ?_⟩
        · rw [List.map_cons, convertLoop_key hskip, hsub]
          exact congrArg _ hrun
        · rw [List.mem_singleton, stands_key_iff]
        · simp
      | keyGroup kg =>
        obtain ⟨ms, hms, hmem, hnodup⟩ := hexpand kg List.mem_cons_self
        refine ⟨ms ++ ks', ?_, hrest.cons hplain htaken (fun k => ?_) ?_⟩
        · rw [List.map_cons, convertLoop_keyGroup hskip hms]
          exact congrArg _ hrun
        · rw [hmem, stands_keyGroup_iff]
        · rw [hnodup]
          constructor
          · intro h kg' heq
            cases heq
            exact h
          · exact fun h => h kg rfl

/-- Nothing is reported of a list whose elements are all there, enabled and, if groups, without
an unusable member. -/
theorem unusableLoop_nil (h : R.unusableLoop report keys = some []) :
    ∃ level : List AbstractKey, keys = level.map some ∧ ∀ a ∈ level, R.isDisabled a = false ∧
      ∀ kg, a = .keyGroup kg → report (R.getKeys kg.keyIds) = some [] := by
  induction keys with
  | nil => exact ⟨[], rfl, by simp⟩
  | cons o rest ih =>
    cases o with
    | none =>
      obtain ⟨ids, -, hids⟩ := Option.map_eq_some_iff.mp h
      cases hids
    | some a =>
      have hdisabled : R.isDisabled a = false := by
        by_contra hdisabled
        rw [Bool.not_eq_false] at hdisabled
        have hhead : R.unusableLoop report (some a :: rest) =
            (R.unusableLoop report rest).map (a.id :: ·) := by
          cases a with
          | key k => exact if_pos hdisabled
          | keyGroup kg => exact if_pos hdisabled
        rw [hhead] at h
        obtain ⟨ids, -, hids⟩ := Option.map_eq_some_iff.mp h
        cases hids
      have hhere : R.unusableLoop report rest = some [] ∧
          ∀ kg, a = .keyGroup kg → report (R.getKeys kg.keyIds) = some [] := by
        cases a with
        | key k =>
          simp only [unusableLoop, hdisabled] at h
          exact ⟨h, fun kg heq => by cases heq⟩
        | keyGroup kg =>
          cases hreport : report (R.getKeys kg.keyIds) with
          | none =>
            simp only [unusableLoop, hdisabled, hreport] at h
            cases h
          | some unusable =>
            simp only [unusableLoop, hdisabled, hreport, Bool.false_eq_true, if_false] at h
            obtain ⟨ids, hrest, hids⟩ := Option.map_eq_some_iff.mp h
            rw [List.append_eq_nil_iff, List.append_eq_nil_iff] at hids
            obtain ⟨⟨-, rfl⟩, rfl⟩ := hids
            refine ⟨hrest, fun kg' heq => ?_⟩
            cases heq
            exact hreport
      obtain ⟨level, rfl, hlevel⟩ := ih hhere.1
      refine ⟨a :: level, rfl, fun b hb => ?_⟩
      obtain rfl | hb := List.mem_cons.mp hb
      · exact ⟨hdisabled, hhere.2⟩
      · exact hlevel b hb

include hg ht in
theorem plainLevel {keys : List AbstractKey} (hin : ∀ a ∈ keys, R.InGraph a)
    (henabled : ∀ a ∈ keys, R.isDisabled a = false)
    (hprimary : ∀ k, .key k ∈ keys → k.isSubkey = false) : PlainLevel R keys := by
  refine ⟨henabled, hprimary, fun a ha b hb hid => ?_⟩
  -- a group's id begins with `#&`, a key's does not
  have htyped : ∀ (k : SingleKey) (kg : GpgKeyGroup), R.InGraph (.keyGroup kg) → k.id ≠ kg.id := by
    intro k kg hkg heq
    obtain ⟨p, -, hp, -, -⟩ := keyGroup_eq_some.mp hkg
    have hgroup : isKeyGroupID kg.id := ht.group_of_idOf (hg.idOf_of_lookup hp)
    rw [← heq, k.not_group] at hgroup
    cases hgroup
  cases a with
  | key k =>
    cases b with
    | key k' =>
      have hsub : k.isSubkey = k'.isSubkey := (hprimary k ha).trans (hprimary k' hb).symm
      have hdisabled : k.disabled = k'.disabled :=
        (henabled _ ha).trans (henabled _ hb).symm
      have hid : k.id = k'.id := hid
      cases k
      cases k'
      simp_all
    | keyGroup kg => exact absurd hid (htyped k kg (hin _ hb))
  | keyGroup kg =>
    cases b with
    | key k => exact absurd hid.symm (htyped k kg (hin _ ha))
    | keyGroup kg' =>
      have hkg : R.keyGroup kg.id = some kg := hin _ ha
      have hkg' : R.keyGroup kg'.id = some kg' := hin _ hb
      have hid : kg.id = kg'.id := hid
      rw [hid, hkg'] at hkg
      rw [Option.some.inj hkg]

include hg ht in
/-- **Run.** When nothing is unusable and no subkey is chosen, exactly the chosen keys come out,
each once exactly when no key is reached in two ways. -/
theorem convert_spec {depth : Nat} {keys : List AbstractKey} (hin : ∀ a ∈ keys, R.InGraph a)
    (hsub : ∀ a ∈ keys, ∀ k, R.Stands a k → k.isSubkey = false)
    (husable : R.unusableKeyIds depth (keys.map some) = some []) :
    ∃ ks, R.convertKey2GpgKeyList depth (keys.map some) = some ks ∧
      (∀ k, k ∈ ks ↔ ∃ a ∈ keys, R.Stands a k) ∧ (ks.Nodup ↔ R.KeptApart keys) := by
  induction depth generalizing keys with
  | zero => cases husable
  | succ depth ih =>
    obtain ⟨level, hlevel, hreport⟩ := unusableLoop_nil husable
    obtain rfl : keys = level := List.map_injective_iff.mpr (Option.some_injective _) hlevel
    have hplain : PlainLevel R keys := plainLevel hg ht hin (fun a ha => (hreport a ha).1)
      fun k hk => hsub _ hk k (.key k)
    have hexpand : ∀ kg, .keyGroup kg ∈ keys → ∃ ms,
        R.convertKey2GpgKeyList depth ((R.getKeys kg.keyIds).map some) = some ms ∧
        (∀ k, k ∈ ms ↔ ∃ m ∈ R.getKeys kg.keyIds, R.Stands m k) ∧
        (ms.Nodup ↔ R.KeptApart (R.getKeys kg.keyIds)) := by
      intro kg hkg
      refine ih (fun m hm => inGraph_of_mem hg hm) (fun m hm k hk => ?_)
        ((hreport _ hkg).2 kg rfl)
      exact hsub _ hkg k (.member hm hk)
    obtain ⟨ks, hrun, hspec⟩ := convertLoop_spec
      (fun members => R.convertKey2GpgKeyList depth (members.map some)) hplain hexpand []
    refine ⟨ks, hrun, fun k => ?_, ?_⟩
    · rw [hspec.mem]
      simp
    · rw [hspec.nodup, keptApart_iff]
      simp [Apart]

end Graph

end AbstractKeyRepository

open AbstractKeyRepository

/-- **What the expansion does, exactly.** Over a sound graph of groups both functions end, for
every selection. When nothing selected is unusable, the expansion is the set of the keys and
subkeys chosen, each once, exactly when no subkey is chosen and no key is reached in two ways. -/
theorem expansion_faithful_iff {R : AbstractKeyRepository} (hg : GroupGraph R.groups)
    (ht : TypedGroups R.groups) (ha : Applied R.groups) (keys : List (Option AbstractKey))
    (hkeys : ∀ a, some a ∈ keys → R.InGraph a) (depth : Nat)
    (hdepth : R.groups.nodes.keys.length + 1 < depth) :
    ∃ ks ids, R.convertKey2GpgKeyList depth keys = some ks ∧
      R.unusableKeyIds depth keys = some ids ∧
      (ids = [] →
        (((ks.map (·.id)).Nodup ∧ ∀ k, k ∈ ks ↔ R.Chosen keys k) ↔
          (∀ k, R.Chosen keys k → k.isSubkey = false) ∧
            R.KeptApart (keys.filterMap fun key => key))) := by
  obtain ⟨rank, hbound, hrank⟩ := exists_rank hg.acyclic fun p c hc =>
    GroupGraph.mem_keys_of_present (GroupGraph.present_of_child hc)
  have hrankOf : ∀ kg, R.rankOf rank kg ≤ R.groups.nodes.keys.length := by
    intro kg
    rw [rankOf]
    cases R.groups.keyGroupsForest.lookup kg.id with
    | none => exact Nat.zero_le _
    | some p => exact hbound p
  obtain ⟨⟨ks, hks⟩, ids, hids⟩ := expansion_total hg ht ha hrank (by omega) fun kg hkg =>
    ⟨hkeys _ hkg, (Nat.succ_le_succ (hrankOf kg)).trans_lt hdepth⟩
  refine ⟨ks, ids, hks, hids, ?_⟩
  rintro rfl
  have hkinds := convert_sound hks
  obtain ⟨level, rfl⟩ : ∃ level : List AbstractKey, keys = level.map some := by
    cases depth with
    | zero => omega
    | succ depth =>
      obtain ⟨level, heq, -⟩ := unusableLoop_nil hids
      exact ⟨level, heq⟩
  have hmem : ∀ a, some a ∈ level.map some ↔ a ∈ level := fun a => by simp
  have hchosen : ∀ k, R.Chosen (level.map some) k ↔ ∃ a ∈ level, R.Stands a k := by
    simp only [Chosen, hmem, implies_true]
  have hlevel : (level.map some).filterMap (fun key => key) = level := by
    simp [List.filterMap_map]
  have hids_nodup : (ks.map (·.id)).Nodup ↔ ks.Nodup := by
    refine ⟨List.Nodup.of_map _, fun h => h.map_on fun k hk k' hk' heq => ?_⟩
    have hk := hkinds k hk
    have hk' := hkinds k' hk'
    cases k
    cases k'
    simp_all
  rw [hids_nodup, hlevel]
  simp only [hchosen]
  constructor
  · rintro ⟨hnodup, hexact⟩
    have hsub : ∀ a ∈ level, ∀ k, R.Stands a k → k.isSubkey = false :=
      fun a ha' k hk => (hkinds k ((hexact k).mpr ⟨a, ha', hk⟩)).1
    refine ⟨fun k ⟨a, ha', hk⟩ => hsub a ha' k hk, ?_⟩
    obtain ⟨ks', hks', -, hapart⟩ :=
      convert_spec hg ht (fun a ha' => hkeys a ((hmem a).mpr ha')) hsub hids
    rw [hks] at hks'
    obtain rfl := Option.some.inj hks'
    exact hapart.mp hnodup
  · rintro ⟨hsub, hapart⟩
    obtain ⟨ks', hks', hexact, hnodup⟩ :=
      convert_spec hg ht (fun a ha' => hkeys a ((hmem a).mpr ha'))
        (fun a ha' k hk => hsub k ⟨a, ha', hk⟩) hids
    rw [hks] at hks'
    obtain rfl := Option.some.inj hks'
    exact ⟨hnodup.mpr hapart, hexact⟩

/-- One key, and a group that has it. -/
def recipientKey : SingleKey := ⟨[0x31], false, false, by decide⟩

def recipientGroup : GpgKeyGroup := ⟨[0x23, 0x26, 0x41], [[0x31]]⟩

def recipientRepository : AbstractKeyRepository where
  groups := fetchKeyGroups [recipientGroup]
  groupDisabled := fun _ => false
  keyOrSubkey := fun id => if id = [0x31] then some recipientKey else none

theorem inGraph_recipient {a : AbstractKey}
    (h : some a ∈ [some (.key recipientKey), some (.keyGroup recipientGroup)]) :
    recipientRepository.InGraph a := by
  simp only [List.mem_cons, Option.some.injEq, List.not_mem_nil, or_false] at h
  obtain rfl | rfl := h
  · exact trivial
  · show recipientRepository.keyGroup recipientGroup.id = some recipientGroup
    decide

/-- The group alone is expanded to its key. -/
theorem expansion_of_recipient_group :
    ∃ ks ids, recipientRepository.convertKey2GpgKeyList 3 [some (.keyGroup recipientGroup)] = some ks ∧
      recipientRepository.unusableKeyIds 3 [some (.keyGroup recipientGroup)] = some ids ∧
      (ids = [] →
        (((ks.map (·.id)).Nodup ∧
            ∀ k, k ∈ ks ↔ recipientRepository.Chosen [some (.keyGroup recipientGroup)] k) ↔
          (∀ k, recipientRepository.Chosen [some (.keyGroup recipientGroup)] k → k.isSubkey = false) ∧
            recipientRepository.KeptApart
              ([some (AbstractKey.keyGroup recipientGroup)].filterMap fun key => key))) :=
  expansion_faithful_iff (GroupGraph.fetchKeyGroups [recipientGroup])
    (TypedGroups.fetchKeyGroups (by decide)) (applied_fetchKeyGroups [recipientGroup])
    [some (.keyGroup recipientGroup)]
    (fun _ h => inGraph_recipient (List.mem_cons_of_mem _ h)) 3 (by decide)

/-- **A key selected next to a group that has it comes out twice.** -/
theorem key_expanded_twice :
    ¬ ∀ (R : AbstractKeyRepository) (keys : List (Option AbstractKey)) (depth : Nat)
      (ks : List SingleKey),
      GroupGraph R.groups → TypedGroups R.groups → Applied R.groups →
      (∀ a, some a ∈ keys → R.InGraph a) →
      R.convertKey2GpgKeyList depth keys = some ks → R.unusableKeyIds depth keys = some [] →
      (ks.map (·.id)).Nodup ∧ ∀ k, k ∈ ks ↔ R.Chosen keys k := by
  intro hall
  have h := hall recipientRepository [some (.key recipientKey), some (.keyGroup recipientGroup)] 3
    [recipientKey, recipientKey] (GroupGraph.fetchKeyGroups [recipientGroup])
    (TypedGroups.fetchKeyGroups (by decide)) (applied_fetchKeyGroups [recipientGroup])
    (fun _ => inGraph_recipient) (by decide) (by decide)
  exact absurd h.1 (by decide)

end GpgFrontend
