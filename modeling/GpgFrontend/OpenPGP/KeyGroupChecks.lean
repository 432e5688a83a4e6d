import GpgFrontend.OpenPGP.TypedGroups

/-!
# Which key groups are disabled (`check_all_key_groups`)

A group with a member that is gone, or that cannot encrypt, must not be encrypted to, and
neither must a group that contains such a group.

- `TransitiveKey r p id`: the key is a member of the group, or of a group below it.
- `checkAllKeyGroups_exact`: **a group is disabled exactly when a transitive member of it is
  missing or cannot encrypt**, in whatever order the groups are visited.
-/

namespace GpgFrontend

namespace KeyGroupRepository

variable (r : KeyGroupRepository)

def nonKeyGroupIdsOf (p : Nat) : List QString :=
  ((r.nodes.lookup p).map (·.nonKeyGroupIds)).getD []

/-- `KeyIds` of the node with a number. -/
def keyIdsOf (p : Nat) : List QString := ((r.nodes.lookup p).map r.keyIds).getD []

/-- `IsKeyGroupDisabled`. -/
def isKeyGroupDisabled (disabled : Nat → Bool) (id : QString) : Bool :=
  match r.keyGroupsForest.lookup id with
  | none => false
  | some p => disabled p

/-- `GpgKeyGroup::IsDisabled` of the group of a node. -/
def isDisabled (disabled : Nat → Bool) (p : Nat) : Bool :=
  match r.idOf p with
  | none => true
  | some id => r.isKeyGroupDisabled disabled id

variable (encrCap : QString → Option Bool)

/-- The loop of `check_key_group` over the members of the group `p`. `encrCap` stands for the
key repository: whether a key is there, and whether it can encrypt. -/
def checkMembers (check : Nat → (Nat → Bool) → Option (Nat → Bool)) (p : Nat) :
    List QString → (Nat → Bool) → Option (Nat → Bool)
  | [], disabled => some disabled
  | keyId :: rest, disabled =>
    if r.idOf p = some keyId then checkMembers check p rest disabled
    else if isKeyGroupID keyId then
      match r.keyGroupsForest.lookup keyId with
      | none => some disabled
      | some s =>
        match check s disabled with
        | none => none
        | some disabled' =>
          if r.isDisabled disabled' s then some (Function.update disabled' p true)
          else checkMembers check p rest disabled'
    else
      match encrCap keyId with
      | some true => checkMembers check p rest disabled
      | _ => some (Function.update disabled p true)

/-- `check_key_group`, to a depth; `none` when the depth does not do. -/
def checkKeyGroup : Nat → Nat → (Nat → Bool) → Option (Nat → Bool)
  | 0, _, _ => none
  | depth + 1, p, disabled =>
    if disabled p then some disabled
    else r.checkMembers encrCap (checkKeyGroup depth) p (r.keyIdsOf p) disabled

/-- The second loop of `check_all_key_groups`, over the groups in some order. -/
def checkGroups (depth : Nat) : List Nat → (Nat → Bool) → Option (Nat → Bool)
  | [], disabled => some disabled
  | p :: ps, disabled =>
    match r.checkKeyGroup encrCap depth p disabled with
    | none => none
    | some disabled' => checkGroups depth ps disabled'

/-- `check_all_key_groups`: every flag is taken back, then every group is checked. -/
def checkAllKeyGroups (depth : Nat) (order : List Nat) : Option (Nat → Bool) :=
  r.checkGroups encrCap depth order fun _ => false

end KeyGroupRepository

open KeyGroupRepository

/-- A key that is a member of a group, or of a group that is a member, and so on. -/
def TransitiveKey (r : KeyGroupRepository) (p : Nat) (id : QString) : Prop :=
  ∃ q, Relation.ReflTransGen (fun p c => c ∈ r.childrenOf p) p q ∧ id ∈ r.nonKeyGroupIdsOf q

/-- Some transitive member is missing or cannot encrypt. -/
def HasBadKey (r : KeyGroupRepository) (encrCap : QString → Option Bool) (p : Nat) : Prop :=
  ∃ id, TransitiveKey r p id ∧ encrCap id ≠ some true

/-! ## The members of a group -/

theorem TypedGroups.group_of_idOf {r : KeyGroupRepository} {p : Nat} {id : QString}
    (ht : TypedGroups r) (hid : r.idOf p = some id) : isKeyGroupID id := by
  obtain ⟨node, hnode, rfl⟩ := Option.map_eq_some_iff.mp hid
  exact (ht p node hnode).group

theorem TypedGroups.key_of_member {r : KeyGroupRepository} {p : Nat} {id : QString}
    (ht : TypedGroups r) (hid : id ∈ r.nonKeyGroupIdsOf p) : isKeyGroupID id = false := by
  unfold nonKeyGroupIdsOf at hid
  cases hnode : r.nodes.lookup p with
  | none =>
    rw [hnode] at hid
    cases hid
  | some node =>
    rw [hnode] at hid
    exact (ht p node hnode).keys id hid

namespace GroupGraph

variable {r : KeyGroupRepository} {encrCap : QString → Option Bool} {p s : Nat} {id : QString}

theorem mem_keyIdsOf : id ∈ r.keyIdsOf p ↔
    (∃ c ∈ r.childrenOf p, r.idOf c = some id) ∨ id ∈ r.nonKeyGroupIdsOf p := by
  unfold keyIdsOf childrenOf nonKeyGroupIdsOf
  cases r.nodes.lookup p with
  | none => simp
  | some node => simp [keyIds]

/-- A member whose id is a group's is a child, and the map has it. -/
theorem child_of_mem (h : GroupGraph r) (ht : TypedGroups r) (hid : id ∈ r.keyIdsOf p)
    (hgroup : isKeyGroupID id) : ∃ c ∈ r.childrenOf p, r.keyGroupsForest.lookup id = some c := by
  obtain ⟨c, hc, hcid⟩ | hkey := mem_keyIdsOf.mp hid
  · exact ⟨c, hc, (h.owned id c).mpr hcid⟩
  · rw [ht.key_of_member hkey] at hgroup
    cases hgroup

/-- A member whose id is not a group's is a key. -/
theorem key_of_mem (ht : TypedGroups r) (hid : id ∈ r.keyIdsOf p) (hkey : ¬isKeyGroupID id) :
    id ∈ r.nonKeyGroupIdsOf p := by
  obtain ⟨c, -, hcid⟩ | hmem := mem_keyIdsOf.mp hid
  · exact absurd (ht.group_of_idOf hcid) hkey
  · exact hmem

theorem not_own_member (h : GroupGraph r) (ht : TypedGroups r) (hid : id ∈ r.keyIdsOf p) :
    r.idOf p ≠ some id := by
  intro hown
  obtain ⟨c, hc, hfound⟩ := h.child_of_mem ht hid (ht.group_of_idOf hown)
  rw [(h.owned id p).mpr hown] at hfound
  obtain rfl := Option.some.inj hfound
  exact h.acyclic p (.single hc)

/-- What makes one member bad. -/
def BadMember (r : KeyGroupRepository) (encrCap : QString → Option Bool) (id : QString) : Prop :=
  if isKeyGroupID id then ∃ c, r.keyGroupsForest.lookup id = some c ∧ HasBadKey r encrCap c
  else encrCap id ≠ some true

theorem hasBadKey_iff (h : GroupGraph r) (ht : TypedGroups r) :
    HasBadKey r encrCap p ↔ ∃ id ∈ r.keyIdsOf p, BadMember r encrCap id := by
  constructor
  · rintro ⟨key, ⟨q, hpath, hkey⟩, hbad⟩
    obtain rfl | ⟨c, hc, hrest⟩ := hpath.cases_head
    · refine ⟨key, mem_keyIdsOf.mpr (.inr hkey), ?_⟩
      rw [BadMember, if_neg (by simp [ht.key_of_member hkey])]
      exact hbad
    · obtain ⟨id, hid⟩ := Option.ne_none_iff_exists'.mp (present_of_parent ((h.mirror p c).mp hc))
      refine ⟨id, mem_keyIdsOf.mpr (.inl ⟨c, hc, hid⟩), ?_⟩
      rw [BadMember, if_pos (ht.group_of_idOf hid)]
      exact ⟨c, (h.owned id c).mpr hid, key, ⟨q, hrest, hkey⟩, hbad⟩
  · rintro ⟨id, hid, hbad⟩
    rw [BadMember] at hbad
    split at hbad
    · next hgroup =>
      obtain ⟨c, hc, hfound⟩ := h.child_of_mem ht hid hgroup
      obtain ⟨c', hfound', key, ⟨q, hpath, hkey⟩, hbad⟩ := hbad
      rw [hfound] at hfound'
      obtain rfl := Option.some.inj hfound'
      exact ⟨key, ⟨q, .head hc hpath, hkey⟩, hbad⟩
    · next hkey => exact ⟨id, ⟨p, .refl, key_of_mem ht hid hkey⟩, hbad⟩

/-! ## One check, and all of them -/

theorem isDisabled_eq (h : GroupGraph r) (hs : r.idOf s ≠ none) (disabled : Nat → Bool) :
    r.isDisabled disabled s = disabled s := by
  obtain ⟨id, hid⟩ := Option.ne_none_iff_exists'.mp hs
  simp only [isDisabled, hid, isKeyGroupDisabled, (h.owned id s).mpr hid]

/-- No group is disabled without reason. -/
def OnlyBad (r : KeyGroupRepository) (encrCap : QString → Option Bool) (disabled : Nat → Bool) :
    Prop :=
  ∀ q, disabled q = true → HasBadKey r encrCap q

/-- What a check of some members of `p`, or of `p` itself, leaves of the flags. -/
structure Checked (r : KeyGroupRepository) (encrCap : QString → Option Bool)
    (disabled disabled' : Nat → Bool) : Prop where
  sound : OnlyBad r encrCap disabled'
  kept : ∀ q, disabled q = true → disabled' q = true

variable {disabled : Nat → Bool}

theorem Checked.refl (hd : OnlyBad r encrCap disabled) : Checked r encrCap disabled disabled :=
  ⟨hd, fun _ hq => hq⟩

theorem Checked.trans {d₁ d₂ d₃ : Nat → Bool} (h₁ : Checked r encrCap d₁ d₂)
    (h₂ : Checked r encrCap d₂ d₃) : Checked r encrCap d₁ d₃ :=
  ⟨h₂.sound, fun q hq => h₂.kept q (h₁.kept q hq)⟩

theorem Checked.disable (hd : OnlyBad r encrCap disabled) (hbad : HasBadKey r encrCap p) :
    Checked r encrCap disabled (Function.update disabled p true) := by
  constructor
  · intro q hq
    by_cases hqp : q = p
    · rw [hqp]
      exact hbad
    · rw [Function.update_of_ne hqp] at hq
      exact hd q hq
  · intro q hq
    by_cases hqp : q = p
    · rw [hqp, Function.update_self]
    · rw [Function.update_of_ne hqp]
      exact hq

/-- **Step.** The members are checked one by one, given what a check of a child does. -/
theorem checkMembers_spec (h : GroupGraph r) (ht : TypedGroups r)
    {check : Nat → (Nat → Bool) → Option (Nat → Bool)}
    (hcheck : ∀ s ∈ r.childrenOf p, ∀ disabled, OnlyBad r encrCap disabled →
      ∃ disabled', check s disabled = some disabled' ∧ Checked r encrCap disabled disabled' ∧
        (HasBadKey r encrCap s → disabled' s = true)) {ids : List QString}
    (hids : ∀ id ∈ ids, id ∈ r.keyIdsOf p) (hd : OnlyBad r encrCap disabled) :
    ∃ disabled', r.checkMembers encrCap check p ids disabled = some disabled' ∧
      Checked r encrCap disabled disabled' ∧
      ((∃ id ∈ ids, BadMember r encrCap id) → disabled' p = true) := by
  induction ids generalizing disabled with
  | nil => exact ⟨disabled, rfl, .refl hd, by simp⟩
  | cons id rest ih =>
    have hid : id ∈ r.keyIdsOf p := hids id List.mem_cons_self
    have hrest : ∀ id' ∈ rest, id' ∈ r.keyIdsOf p :=
      fun id' hid' => hids id' (List.mem_cons_of_mem id hid')
    rw [checkMembers, if_neg (h.not_own_member ht hid)]
    by_cases hgroup : isKeyGroupID id = true
    · obtain ⟨s, hs, hfound⟩ := h.child_of_mem ht hid hgroup
      have hpresent : r.idOf s ≠ none := present_of_parent ((h.mirror p s).mp hs)
      obtain ⟨disabled', hrun, hchecked, hcomplete⟩ := hcheck s hs disabled hd
      rw [if_pos hgroup, hfound]
      simp only [hrun, h.isDisabled_eq hpresent]
      by_cases hflag : disabled' s = true
      · rw [if_pos hflag]
        have hbad : HasBadKey r encrCap p := by
          refine (h.hasBadKey_iff ht).mpr ⟨id, hid, ?_⟩
          rw [BadMember, if_pos hgroup]
          exact ⟨s, hfound, hchecked.sound s hflag⟩
        exact ⟨_, rfl, hchecked.trans (.disable hchecked.sound hbad),
          fun _ => Function.update_self ..⟩
      · rw [if_neg hflag]
        obtain ⟨disabled'', hrun', hchecked', hcomplete'⟩ := ih hrest hchecked.sound
        refine ⟨disabled'', hrun', hchecked.trans hchecked', ?_⟩
        rintro ⟨id', hid', hbad⟩
        obtain rfl | hid' := List.mem_cons.mp hid'
        · rw [BadMember, if_pos hgroup] at hbad
          obtain ⟨s', hfound', hbad⟩ := hbad
          rw [hfound] at hfound'
          obtain rfl := Option.some.inj hfound'
          exact absurd (hcomplete hbad) hflag
        · exact hcomplete' ⟨id', hid', hbad⟩
    · rw [if_neg hgroup]
      by_cases hcan : encrCap id = some true
      · rw [hcan]
        obtain ⟨disabled', hrun, hchecked, hcomplete⟩ := ih hrest hd
        refine ⟨disabled', hrun, hchecked, ?_⟩
        rintro ⟨id', hid', hbad⟩
        obtain rfl | hid' := List.mem_cons.mp hid'
        · rw [BadMember, if_neg hgroup] at hbad
          exact absurd hcan hbad
        · exact hcomplete ⟨id', hid', hbad⟩
      · have hbad : HasBadKey r encrCap p := by
          refine (h.hasBadKey_iff ht).mpr ⟨id, hid, ?_⟩
          rw [BadMember, if_neg hgroup]
          exact hcan
        refine ⟨Function.update disabled p true, ?_, .disable hd hbad,
          fun _ => Function.update_self ..⟩
        split
        · next heq => exact absurd heq hcan
        · rfl

/-- A check to a depth above the rank of the group ends, and its flag is then right. -/
theorem checkKeyGroup_spec (h : GroupGraph r) (ht : TypedGroups r) {rank : Nat → Nat}
    (hrank : ∀ p c, c ∈ r.childrenOf p → rank c < rank p) {depth : Nat} (hdepth : rank p < depth)
    (hd : OnlyBad r encrCap disabled) :
    ∃ disabled', r.checkKeyGroup encrCap depth p disabled = some disabled' ∧
      Checked r encrCap disabled disabled' ∧ (HasBadKey r encrCap p → disabled' p = true) := by
  induction depth generalizing p disabled with
  | zero => omega
  | succ depth ih =>
    rw [checkKeyGroup]
    by_cases hflag : disabled p = true
    · rw [if_pos hflag]
      exact ⟨disabled, rfl, .refl hd, fun _ => hflag⟩
    · rw [if_neg hflag, h.hasBadKey_iff ht]
      refine h.checkMembers_spec ht (fun s hs d hd' => ih ?_ hd') (fun _ hid => hid) hd
      have := hrank p s hs
      omega

theorem checkGroups_spec (h : GroupGraph r) (ht : TypedGroups r) {rank : Nat → Nat}
    (hrank : ∀ p c, c ∈ r.childrenOf p → rank c < rank p) {depth : Nat}
    (hdepth : ∀ p, rank p < depth) (order : List Nat) (hd : OnlyBad r encrCap disabled) :
    ∃ disabled', r.checkGroups encrCap depth order disabled = some disabled' ∧
      Checked r encrCap disabled disabled' ∧
      ∀ p ∈ order, HasBadKey r encrCap p → disabled' p = true := by
  induction order generalizing disabled with
  | nil => exact ⟨disabled, rfl, .refl hd, by simp⟩
  | cons p ps ih =>
    obtain ⟨d₁, hrun, hchecked, hcomplete⟩ := h.checkKeyGroup_spec ht hrank (hdepth p) hd
    obtain ⟨d₂, hrun', hchecked', hcomplete'⟩ := ih hchecked.sound
    refine ⟨d₂, ?_, hchecked.trans hchecked', fun q hq hbad => ?_⟩
    · rw [checkGroups, hrun]
      exact hrun'
    · obtain rfl | hq := List.mem_cons.mp hq
      · exact hchecked'.kept q (hcomplete hbad)
      · exact hcomplete' q hq hbad

end GroupGraph

/-- **The flags are exact.** In whatever order the groups are visited, the recursion ends, and a
group is then disabled exactly when a transitive member of it is missing or cannot encrypt. -/
theorem checkAllKeyGroups_exact {r : KeyGroupRepository} (h : GroupGraph r) (ht : TypedGroups r)
    (encrCap : QString → Option Bool) (order : List Nat) (horder : order.Perm r.nodes.keys)
    (depth : Nat) (hdepth : r.nodes.keys.length < depth) :
    ∃ disabled, r.checkAllKeyGroups encrCap depth order = some disabled ∧
      ∀ id p, r.keyGroupsForest.lookup id = some p →
        (r.isKeyGroupDisabled disabled id = true ↔
          ∃ key, TransitiveKey r p key ∧ encrCap key ≠ some true) := by
  obtain ⟨rank, hbound, hrank⟩ := exists_rank h.acyclic fun p c hc =>
    GroupGraph.mem_keys_of_present (GroupGraph.present_of_child hc)
  obtain ⟨disabled, hrun, hchecked, hcomplete⟩ :=
    h.checkGroups_spec ht hrank (fun p => (hbound p).trans_lt hdepth) order
      (show GroupGraph.OnlyBad r encrCap fun _ => false from fun _ hq => by cases hq)
  refine ⟨disabled, hrun, fun id p hp => ?_⟩
  have hmem : p ∈ order := by
    refine horder.mem_iff.mpr (GroupGraph.mem_keys_of_present ?_)
    rw [(h.owned id p).mp hp]
    exact Option.some_ne_none id
  have hflag : r.isKeyGroupDisabled disabled id = disabled p := by
    simp only [isKeyGroupDisabled, hp]
  rw [hflag]
  exact ⟨hchecked.sound p, hcomplete p hmem⟩

/-- A group in a group, whose key is missing. -/
def missingKeyGroups : List GpgKeyGroup :=
  [⟨[0x23, 0x26, 0x41], [[0x23, 0x26, 0x42]]⟩, ⟨[0x23, 0x26, 0x42], [[0x31]]⟩]

/-- The outer group is disabled as well, though it is visited first. -/
theorem outer_group_disabled :
    ∃ disabled, (fetchKeyGroups missingKeyGroups).checkAllKeyGroups (fun _ => none) 3 [0, 1]
        = some disabled ∧
      (fetchKeyGroups missingKeyGroups).isKeyGroupDisabled disabled [0x23, 0x26, 0x41] = true := by
  obtain ⟨disabled, hrun, hexact⟩ := checkAllKeyGroups_exact
    (GroupGraph.fetchKeyGroups missingKeyGroups) (TypedGroups.fetchKeyGroups (by decide))
    (fun _ => none) [0, 1] (by decide) 3 (by decide)
  refine ⟨disabled, hrun, (hexact [0x23, 0x26, 0x41] 0 (by decide)).mpr ⟨[0x31], ?_, by simp⟩⟩
  exact ⟨1, .single (by decide), by decide⟩

end GpgFrontend
