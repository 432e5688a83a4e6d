import Mathlib.Data.List.Perm.Basic
import GpgFrontend.OpenPGP.ChannelHandle

/-!
# Channel handles and leases are safe under every interleaving

What one lock section may do to the registry is said once (`LockSection`): a
retired handle stays retired and gains no lease, whatever it hands to the
reclaimer is retired with no lease, and is marked so that it is not handed over
again. Every section is a composition of single-record changes and of
`takeReclaimLocked`, and the invariant of whole runs (`ChannelSystem.Inv`) only
uses these facts.

- `ChannelSystem.inv_step`, `inv_run`: the invariant.
- `ChannelSystem.retired_run`: retirement is for good.
-/

namespace GpgFrontend

namespace ChannelHandleRegistry

variable {r r' r'' : ChannelHandleRegistry}

/-- A handle that is out of use for good. -/
def Retired (r : ChannelHandleRegistry) (h : Int) : Prop :=
  ∃ info, r.find h = some info ∧ info.state = .retired

/-- A handle whose objects nothing can reach any more. -/
def Reclaimable (r : ChannelHandleRegistry) (h : Int) : Prop :=
  ∃ info, r.find h = some info ∧ info.state = .retired ∧ info.leases = 0

/-- The lease count of a handle; a handle that is not there has none. -/
def leasesOf (r : ChannelHandleRegistry) (h : Int) : Nat := ((r.find h).map (·.leases)).getD 0

/-- How often a handle is marked as handed to the reclaimer: at most once. -/
def marked (r : ChannelHandleRegistry) (h : Int) : Nat :=
  if h ∈ r.reclaimRequested then 1 else 0

/-! ## Records -/

theorem find_modify (r : ChannelHandleRegistry) (h k : Int)
    (f : ChannelHandleInfo → ChannelHandleInfo) :
    (r.modify h f).find k = if k = h then (r.find h).map f else r.find k := by
  unfold modify
  cases hfind : r.find h with
  | none =>
    by_cases hk : k = h
    · rw [if_pos hk, hk, hfind]
      rfl
    · rw [if_neg hk]
  | some info =>
    by_cases hk : k = h
    · rw [if_pos hk, hk]
      exact AList.lookup_insert _
    · rw [if_neg hk]
      exact AList.lookup_insert_ne hk

theorem modify_reclaimRequested (r : ChannelHandleRegistry) (h : Int)
    (f : ChannelHandleInfo → ChannelHandleInfo) :
    (r.modify h f).reclaimRequested = r.reclaimRequested := by
  unfold modify
  split <;> rfl

theorem leasesOf_modify (r : ChannelHandleRegistry) (h : Int)
    (f : ChannelHandleInfo → ChannelHandleInfo) (hf : ∀ info, (f info).leases = info.leases)
    (k : Int) : (r.modify h f).leasesOf k = r.leasesOf k := by
  unfold leasesOf
  rw [find_modify]
  by_cases hk : k = h
  · rw [if_pos hk, hk, Option.map_map]
    congr 2
    funext info
    exact hf info
  · rw [if_neg hk]

theorem leasesOf_eq_of_handles (h : r'.handles = r.handles) (k : Int) :
    r'.leasesOf k = r.leasesOf k := by
  unfold leasesOf find
  rw [h]

/-! ## Lock sections -/

/-- What one lock section, which hands the handles `due` to the reclaimer, may do
to the registry. -/
structure LockSection (r : ChannelHandleRegistry) (due : List Int)
    (r' : ChannelHandleRegistry) : Prop where
  retired : ∀ h info, r.find h = some info → info.state = .retired →
    ∃ info', r'.find h = some info' ∧ info'.state = .retired ∧ info'.leases ≤ info.leases
  free : ∀ h ∈ due, r'.Reclaimable h
  marks : ∀ h, due.count h + r.marked h ≤ r'.marked h

theorem LockSection.keepsRetired {due : List Int} (hs : LockSection r due r') {h : Int}
    (hr : r.Retired h) : r'.Retired h := by
  obtain ⟨info, hfind, hstate⟩ := hr
  obtain ⟨info', hfind', hstate', -⟩ := hs.retired h info hfind hstate
  exact ⟨info', hfind', hstate'⟩

theorem LockSection.keepsReclaimable {due : List Int} (hs : LockSection r due r') {h : Int}
    (hr : r.Reclaimable h) : r'.Reclaimable h := by
  obtain ⟨info, hfind, hstate, hleases⟩ := hr
  obtain ⟨info', hfind', hstate', hle⟩ := hs.retired h info hfind hstate
  exact ⟨info', hfind', hstate', by omega⟩

theorem LockSection.trans {due due' : List Int} (hs : LockSection r due r')
    (hs' : LockSection r' due' r'') : LockSection r (due ++ due') r'' := by
  refine ⟨?_, ?_, ?_⟩
  · intro h info hfind hstate
    obtain ⟨info', hfind', hstate', hle⟩ := hs.retired h info hfind hstate
    obtain ⟨info'', hfind'', hstate'', hle'⟩ := hs'.retired h info' hfind' hstate'
    exact ⟨info'', hfind'', hstate'', Nat.le_trans hle' hle⟩
  · intro h hh
    rcases List.mem_append.mp hh with hh | hh
    · exact hs'.keepsReclaimable (hs.free h hh)
    · exact hs'.free h hh
  · intro h
    have := hs.marks h
    have := hs'.marks h
    rw [List.count_append]
    omega

/-- A section that touches no record and no mark. -/
theorem LockSection.of_eq (hh : r'.handles = r.handles)
    (hm : r'.reclaimRequested = r.reclaimRequested) : LockSection r [] r' := by
  refine ⟨fun h info hfind hstate => ⟨info, ?_, hstate, Nat.le_refl _⟩, fun h hh => (nomatch hh), ?_⟩
  · rw [find, hh]
    exact hfind
  · intro h
    simp [marked, hm]

/-- A change of one record that does not bring a retired one back. -/
theorem LockSection.modify (h : Int) {f : ChannelHandleInfo → ChannelHandleInfo}
    (hf : ∀ info, r.find h = some info → info.state = .retired →
      (f info).state = .retired ∧ (f info).leases ≤ info.leases) :
    LockSection r [] (r.modify h f) := by
  refine ⟨?_, fun h hh => (nomatch hh), ?_⟩
  · intro k info hfind hstate
    rw [find_modify]
    by_cases hk : k = h
    · subst hk
      obtain ⟨hstate', hle⟩ := hf info hfind hstate
      exact ⟨f info, by rw [if_pos rfl, hfind]; rfl, hstate', hle⟩
    · exact ⟨info, by rw [if_neg hk, hfind], hstate, Nat.le_refl _⟩
  · intro k
    simp [marked, modify_reclaimRequested]

/-! ## The sections of the source -/

/-- `TakeReclaimLocked` decides for handles that are retired and free, and marks
what it decides for. -/
theorem takeReclaimLocked_spec (r : ChannelHandleRegistry) (h : Int) :
    (r.takeReclaimLocked h).2.handles = r.handles ∧
    LockSection r (if (r.takeReclaimLocked h).1 then [h] else []) (r.takeReclaimLocked h).2 := by
  unfold takeReclaimLocked
  cases hfind : r.find h with
  | none => exact ⟨rfl, .of_eq rfl rfl⟩
  | some info =>
    simp only
    split
    · exact ⟨rfl, .of_eq rfl rfl⟩
    rename_i hstate
    split
    · exact ⟨rfl, .of_eq rfl rfl⟩
    rename_i hleases
    split
    · exact ⟨rfl, .of_eq rfl rfl⟩
    rename_i hmark
    refine ⟨rfl, fun k info' hfind' hstate' => ⟨info', hfind', hstate', Nat.le_refl _⟩, ?_, ?_⟩
    · intro k hk
      rw [List.mem_singleton.mp hk]
      exact ⟨info, hfind, Decidable.not_not.mp hstate, by omega⟩
    · intro k
      by_cases hk : k = h
      · subst hk
        simp [marked, hmark]
      · have hk' : h ≠ k := fun heq => hk heq.symm
        simp [marked, hk, hk']

theorem leasesOf_takeReclaimLocked (r : ChannelHandleRegistry) (h k : Int) :
    (r.takeReclaimLocked h).2.leasesOf k = r.leasesOf k :=
  leasesOf_eq_of_handles (takeReclaimLocked_spec r h).1 k

theorem takeReclaims_spec (hs : List Int) :
    ∀ (r : ChannelHandleRegistry), (takeReclaims hs r).2.handles = r.handles ∧
      LockSection r (takeReclaims hs r).1 (takeReclaims hs r).2 := by
  induction hs with
  | nil => exact fun r => ⟨rfl, .of_eq rfl rfl⟩
  | cons h rest ih =>
    intro r
    obtain ⟨hh, hsec⟩ := takeReclaimLocked_spec r h
    obtain ⟨hh', hsec'⟩ := ih (r.takeReclaimLocked h).2
    refine ⟨hh'.trans hh, ?_⟩
    have hboth := hsec.trans hsec'
    simp only [takeReclaims]
    cases hdue : (r.takeReclaimLocked h).1 with
    | true =>
      rw [hdue] at hboth
      exact hboth
    | false =>
      rw [hdue] at hboth
      exact hboth

theorem registerChannelHandle_spec (r : ChannelHandleRegistry) (h : Int) (databaseId : String)
    (available : Bool) (generation : Int) :
    LockSection r [] (r.registerChannelHandle h databaseId available generation).2 ∧
    ∀ k, (r.registerChannelHandle h databaseId available generation).2.leasesOf k =
      r.leasesOf k := by
  unfold registerChannelHandle
  split
  · exact ⟨.of_eq rfl rfl, fun _ => rfl⟩
  simp only
  split
  · exact ⟨.of_eq rfl rfl, fun _ => rfl⟩
  rename_i hslot
  refine ⟨⟨?_, fun k hk => (nomatch hk), fun k => by simp [marked]⟩, ?_⟩
  · -- a retired slot was refused
    intro k info hfind hstate
    by_cases hk : k = h
    · subst hk
      rw [hfind] at hslot
      refine absurd ⟨?_, .inl hstate⟩ hslot
      show info.state ≠ .unknown
      rw [hstate]
      decide
    · exact ⟨info, by rw [find, AList.lookup_insert_ne hk]; exact hfind, hstate, Nat.le_refl _⟩
  · intro k
    unfold leasesOf find
    by_cases hk : k = h
    · subst hk
      rw [AList.lookup_insert]
      show ((r.find k).getD {}).leases = ((r.find k).map (·.leases)).getD 0
      cases r.find k <;> rfl
    · rw [AList.lookup_insert_ne hk]

theorem describeChannelHandle_section (r : ChannelHandleRegistry) (h : Int)
    (name path backendType : String) (order : Int) :
    LockSection r [] (r.describeChannelHandle h name path backendType order) :=
  .modify h fun _ _ hretired => ⟨hretired, Nat.le_refl _⟩

theorem markChannelReclaimed_section (r : ChannelHandleRegistry) (h : Int) :
    LockSection r [] (r.markChannelReclaimed h) :=
  .modify h fun _ _ hretired => ⟨hretired, Nat.le_refl _⟩

theorem retire_section (r : ChannelHandleRegistry) (h : Int) :
    LockSection r [] (r.modify h ChannelHandleInfo.retire) :=
  .modify h fun _ _ _ => ⟨rfl, Nat.le_refl _⟩

theorem leasesOf_retire (r : ChannelHandleRegistry) (h k : Int) :
    (r.modify h ChannelHandleInfo.retire).leasesOf k = r.leasesOf k :=
  leasesOf_modify r h ChannelHandleInfo.retire (fun _ => rfl) k

theorem retireChannelHandle_spec (r : ChannelHandleRegistry) (h : Int) :
    LockSection r (if (r.retireChannelHandle h).2.1 then [h] else [])
      (r.retireChannelHandle h).2.2 ∧
    ∀ k, (r.retireChannelHandle h).2.2.leasesOf k = r.leasesOf k := by
  unfold retireChannelHandle
  cases r.find h with
  | none => exact ⟨.of_eq rfl rfl, fun _ => rfl⟩
  | some info =>
    refine ⟨?_, fun k => ?_⟩
    · exact (retire_section r h).trans (takeReclaimLocked_spec _ h).2
    · exact (leasesOf_takeReclaimLocked _ h k).trans (leasesOf_retire r h k)

/-- The records after retiring several handles. -/
theorem find_foldl_retire (hs : List Int) :
    ∀ (r : ChannelHandleRegistry) (k : Int),
      (hs.foldl (·.modify · ChannelHandleInfo.retire) r).find k =
        if k ∈ hs then (r.find k).map ChannelHandleInfo.retire else r.find k := by
  induction hs with
  | nil => exact fun r k => rfl
  | cons h rest ih =>
    intro r k
    rw [List.foldl_cons, ih, find_modify]
    by_cases hk : k = h
    · subst hk
      simp only [if_true, List.mem_cons, true_or, Option.map_map]
      split
      · rfl
      · rfl
    · rw [if_neg hk]
      simp only [List.mem_cons, hk, false_or]

theorem foldl_retire_spec (hs : List Int) :
    ∀ (r : ChannelHandleRegistry),
      LockSection r [] (hs.foldl (·.modify · ChannelHandleInfo.retire) r) ∧
      ∀ k, (hs.foldl (·.modify · ChannelHandleInfo.retire) r).leasesOf k = r.leasesOf k := by
  induction hs with
  | nil => exact fun r => ⟨.of_eq rfl rfl, fun _ => rfl⟩
  | cons h rest ih =>
    intro r
    obtain ⟨hsec, hleases⟩ := ih (r.modify h ChannelHandleInfo.retire)
    refine ⟨(retire_section r h).trans hsec, fun k => ?_⟩
    exact (hleases k).trans (leasesOf_retire r h k)

theorem retireGenerationLocked_spec (r : ChannelHandleRegistry) (generation : Int) :
    LockSection r (r.retireGenerationLocked generation).2.1
      (r.retireGenerationLocked generation).2.2 ∧
    ∀ k, (r.retireGenerationLocked generation).2.2.leasesOf k = r.leasesOf k := by
  unfold retireGenerationLocked
  obtain ⟨hsec, hleases⟩ := foldl_retire_spec (r.handles.keys.filter fun handle =>
    (r.find handle).any fun info => info.generation = generation ∧ info.state ≠ .retired) r
  obtain ⟨hh, hsec'⟩ := takeReclaims_spec (r.handles.keys.filter fun handle =>
    (r.find handle).any fun info => info.generation = generation ∧ info.state ≠ .retired)
    ((r.handles.keys.filter fun handle => (r.find handle).any fun info =>
      info.generation = generation ∧ info.state ≠ .retired).foldl
      (·.modify · ChannelHandleInfo.retire) r)
  exact ⟨hsec.trans hsec', fun k => (leasesOf_eq_of_handles hh k).trans (hleases k)⟩

/-- After `RetireGenerationLocked` every handle of the generation is retired. -/
theorem retireGenerationLocked_retires (r : ChannelHandleRegistry) (generation : Int) {h : Int}
    {info : ChannelHandleInfo}
    (hfind : (r.retireGenerationLocked generation).2.2.find h = some info)
    (hgen : info.generation = generation) : info.state = .retired := by
  unfold retireGenerationLocked at hfind
  set retired := r.handles.keys.filter fun handle => (r.find handle).any fun info =>
    info.generation = generation ∧ info.state ≠ .retired with hretired
  simp only at hfind
  rw [find, (takeReclaims_spec retired _).1] at hfind
  change (retired.foldl _ r).find h = some info at hfind
  rw [find_foldl_retire] at hfind
  split at hfind
  · obtain ⟨old, -, rfl⟩ := Option.map_eq_some_iff.mp hfind
    rfl
  · -- not picked, so it was retired already
    rename_i hnot
    by_contra hstate
    refine hnot (List.mem_filter.mpr ⟨?_, ?_⟩)
    · exact AList.mem_keys.mp (AList.lookup_isSome.mp (Option.isSome_of_eq_some hfind))
    · rw [hfind]
      simp [hgen, hstate]

theorem publishRuntimeGeneration_spec (r : ChannelHandleRegistry)
    (generation defaultHandle : Int) :
    LockSection r (r.publishRuntimeGeneration generation defaultHandle).2.1
      (r.publishRuntimeGeneration generation defaultHandle).2.2 ∧
    ∀ k, (r.publishRuntimeGeneration generation defaultHandle).2.2.leasesOf k =
      r.leasesOf k := by
  unfold publishRuntimeGeneration
  by_cases hgen : r.currentGeneration ≠ generation
  · simp only [if_pos hgen]
    obtain ⟨hsec, hleases⟩ := retireGenerationLocked_spec r r.currentGeneration
    refine ⟨?_, fun k => (leasesOf_eq_of_handles rfl k).trans (hleases k)⟩
    rw [← List.append_nil (r.retireGenerationLocked r.currentGeneration).2.1]
    exact hsec.trans (.of_eq rfl rfl)
  · simp only [if_neg hgen]
    exact ⟨.of_eq rfl rfl, fun _ => rfl⟩

/-- Re-arming a handle takes back its one mark. -/
theorem reclaimChannelAgainIfReclaimed_spec (r : ChannelHandleRegistry) (h : Int) :
    (∀ k info, r.find k = some info → info.state = .retired →
      ∃ info', (r.reclaimChannelAgainIfReclaimed h).2.2.find k = some info' ∧
        info'.state = .retired ∧ info'.leases ≤ info.leases) ∧
    (∀ k ∈ if (r.reclaimChannelAgainIfReclaimed h).2.1 then [h] else [],
      (r.reclaimChannelAgainIfReclaimed h).2.2.Reclaimable k) ∧
    (∀ k, (if (r.reclaimChannelAgainIfReclaimed h).2.1 then [h] else []).count k + r.marked k ≤
      (r.reclaimChannelAgainIfReclaimed h).2.2.marked k +
        (if (r.reclaimChannelAgainIfReclaimed h).1 then [h] else []).count k) ∧
    ∀ k, (r.reclaimChannelAgainIfReclaimed h).2.2.leasesOf k = r.leasesOf k := by
  unfold reclaimChannelAgainIfReclaimed
  cases hfind : r.find h with
  | none =>
    have hidle : LockSection r [] r := .of_eq rfl rfl
    exact ⟨hidle.retired, hidle.free, fun k => by simp, fun _ => rfl⟩
  | some info =>
    simp only
    split
    · have hidle : LockSection r [] r := .of_eq rfl rfl
      exact ⟨hidle.retired, hidle.free, fun k => by simp, fun _ => rfl⟩
    -- the mark goes, then the reclaim may be taken once more
    set r₁ := r.modify h fun info => { info with reclaimed := false } with hr₁
    have hsec₁ : LockSection r [] r₁ := .modify h fun _ _ hstate => ⟨hstate, Nat.le_refl _⟩
    set r₂ : ChannelHandleRegistry :=
      { r₁ with reclaimRequested := r₁.reclaimRequested.filter (· ≠ h) } with hr₂
    obtain ⟨hh, hsec₃⟩ := takeReclaimLocked_spec r₂ h
    refine ⟨?_, hsec₃.free, ?_, ?_⟩
    · intro k info hk hstate
      obtain ⟨info₁, hk₁, hstate₁, hle₁⟩ := hsec₁.retired k info hk hstate
      obtain ⟨info₃, hk₃, hstate₃, hle₃⟩ := hsec₃.retired k info₁ hk₁ hstate₁
      exact ⟨info₃, hk₃, hstate₃, Nat.le_trans hle₃ hle₁⟩
    · intro k
      have hmarks := hsec₃.marks k
      have hmark₁ : r₁.marked k = r.marked k := by
        rw [marked, marked, hr₁, modify_reclaimRequested]
      by_cases hk : k = h
      · subst hk
        have : r.marked k ≤ 1 := by
          unfold marked
          split <;> omega
        simp only [if_true, List.count_singleton_self]
        omega
      · have : r₂.marked k = r₁.marked k := by
          simp [marked, hr₂, hk]
        simp only [if_true]
        omega
    · intro k
      calc (r₂.takeReclaimLocked h).2.leasesOf k
          = r₂.leasesOf k := leasesOf_takeReclaimLocked r₂ h k
        _ = r₁.leasesOf k := leasesOf_eq_of_handles rfl k
        _ = r.leasesOf k :=
          leasesOf_modify r h (fun info => { info with reclaimed := false }) (fun _ => rfl) k

/-- A lease is granted on an available handle, counts there, and nowhere else. -/
theorem tryAcquireEngineLease_spec {h : Int} {operation : Bool}
    (hok : r.tryAcquireEngineLease h operation = .ok r') :
    (∃ info, r.find h = some info ∧ info.state = .available) ∧ LockSection r [] r' ∧
    ∀ k, r'.leasesOf k = if k = h then r.leasesOf k + 1 else r.leasesOf k := by
  unfold tryAcquireEngineLease at hok
  simp only at hok
  split at hok
  · exact nomatch hok
  rename_i hstate
  have hinfo : ∃ info, r.find h = some info ∧ info.state = .available := by
    cases hfind : r.find h with
    | none =>
      rw [hfind] at hstate
      exact absurd (by decide) hstate
    | some info =>
      rw [hfind] at hstate
      exact ⟨info, rfl, Decidable.not_not.mp hstate⟩
  obtain ⟨info, hfind, havail⟩ := hinfo
  obtain rfl := Except.ok.inj hok
  refine ⟨⟨info, hfind, havail⟩, .modify h ?_, ?_⟩
  · intro info' hfind' hretired
    rw [hfind] at hfind'
    rw [← Option.some.inj hfind', havail] at hretired
    exact nomatch hretired
  · intro k
    unfold leasesOf
    rw [find_modify]
    by_cases hk : k = h
    · rw [if_pos hk, if_pos hk, hk, hfind]
      rfl
    · rw [if_neg hk, if_neg hk]

/-- A token that is destroyed gives back its lease. -/
theorem releaseToken_spec (r : ChannelHandleRegistry) (h : Int) (operation : Bool) :
    LockSection r (if (r.releaseToken h operation).1 then [h] else [])
      (r.releaseToken h operation).2 ∧
    ∀ k, (r.releaseToken h operation).2.leasesOf k =
      if k = h then r.leasesOf k - 1 else r.leasesOf k := by
  unfold releaseToken
  refine ⟨?_, ?_⟩
  · refine LockSection.trans (.modify h ?_) (takeReclaimLocked_spec _ h).2
    intro info _ hretired
    split
    · exact ⟨hretired, Nat.sub_le _ _⟩
    · exact ⟨hretired, Nat.le_refl _⟩
  · intro k
    rw [leasesOf_takeReclaimLocked]
    unfold leasesOf
    rw [find_modify]
    by_cases hk : k = h
    · rw [if_pos hk, if_pos hk, hk]
      cases r.find h with
      | none => rfl
      | some info =>
        simp only [Option.map_some, Option.getD_some]
        split
        · rfl
        · omega
    · rw [if_neg hk, if_neg hk]

end ChannelHandleRegistry

namespace ChannelSystem

/-! ## The invariant -/

/-- What holds in every reachable state. -/
structure Inv (s : ChannelSystem) : Prop where
  leases : ∀ h, s.registry.leasesOf h = s.tokens.countP fun t => t.handle = h
  pending : ∀ p ∈ s.pending, s.registry.Reclaimable p.1
  once : ∀ h, s.ran.count h + (s.pending.map Prod.fst).count h ≤
    s.rearmed.count h + s.registry.marked h

variable {s : ChannelSystem}

/-- Leaving a lock section that keeps the lease count in step with the tokens. -/
theorem Inv.withDue (hs : s.Inv) {registry : ChannelHandleRegistry} {due : List Int}
    {tokens : List LeaseToken} (hsec : ChannelHandleRegistry.LockSection s.registry due registry)
    (hleases : ∀ h, registry.leasesOf h = tokens.countP fun t => t.handle = h) :
    ({ s with tokens := tokens }.withDue registry due).Inv := by
  refine ⟨hleases, ?_, ?_⟩
  · intro p hp
    rcases List.mem_append.mp hp with hp | hp
    · exact hsec.keepsReclaimable (hs.pending p hp)
    · obtain ⟨h, hh, rfl⟩ := List.mem_map.mp hp
      exact hsec.free h hh
  · intro h
    have := hs.once h
    have := hsec.marks h
    have hfst : (due.map fun handle => (handle, registry.reclaimer)).map Prod.fst = due := by
      rw [List.map_map]
      exact List.map_id due
    show s.ran.count h + ((s.pending ++ _).map Prod.fst).count h ≤ _ + registry.marked h
    rw [List.map_append, hfst, List.count_append]
    show _ ≤ s.rearmed.count h + registry.marked h
    omega

/-- A section that hands over nothing and moves no lease. -/
theorem Inv.quiet (hs : s.Inv) {registry : ChannelHandleRegistry}
    (hsec : ChannelHandleRegistry.LockSection s.registry [] registry)
    (hleases : ∀ h, registry.leasesOf h = s.registry.leasesOf h) :
    { s with registry := registry }.Inv := by
  have hinv : ({ s with tokens := s.tokens }.withDue registry []).Inv :=
    hs.withDue hsec fun h => (hleases h).trans (hs.leases h)
  simpa [ChannelSystem.withDue] using hinv

/-- Changing how many leases share a token changes no count. -/
theorem countP_modify_refs (f : Nat → Nat) (h : Int) (tokens : List LeaseToken) (i : Nat) :
    (tokens.modify i fun token => { token with refs := f token.refs }).countP
      (fun t => t.handle = h) = tokens.countP fun t => t.handle = h := by
  induction tokens generalizing i with
  | nil => cases i <;> rfl
  | cons t ts ih =>
    cases i with
    | zero => simp [List.countP_cons]
    | succ i => simp [List.countP_cons, ih]

theorem perm_eraseIdx {α : Type} {l : List α} {i : Nat} {a : α} (hi : l[i]? = some a) :
    (a :: l.eraseIdx i).Perm l := by
  obtain ⟨hlt, rfl⟩ := List.getElem?_eq_some_iff.mp hi
  exact List.getElem_cons_eraseIdx_perm hlt

theorem inv_initial : (({} : ChannelSystem)).Inv :=
  ⟨fun _ => rfl, fun _ hp => (nomatch hp), fun _ => Nat.zero_le _⟩

/-- **Step.** One action keeps the invariant. -/
theorem inv_step (hs : s.Inv) (action : ChannelAction) : (s.step action).Inv := by
  cases action with
  | register handle databaseId available generation =>
    obtain ⟨hsec, hleases⟩ := ChannelHandleRegistry.registerChannelHandle_spec s.registry handle
      databaseId available generation
    exact hs.quiet hsec hleases
  | describe handle name path backendType order =>
    exact hs.quiet (ChannelHandleRegistry.describeChannelHandle_section s.registry handle name
      path backendType order) (ChannelHandleRegistry.leasesOf_modify _ handle _ fun _ => rfl)
  | allocateHandle => exact hs.quiet (.of_eq rfl rfl) fun _ => rfl
  | allocateGeneration => exact hs.quiet (.of_eq rfl rfl) fun _ => rfl
  | setDefault handle => exact hs.quiet (.of_eq rfl rfl) fun _ => rfl
  | setReclaimer reclaimer => exact hs.quiet (.of_eq rfl rfl) fun _ => rfl
  | markReclaimed handle =>
    exact hs.quiet (ChannelHandleRegistry.markChannelReclaimed_section s.registry handle)
      (ChannelHandleRegistry.leasesOf_modify _ handle _ fun _ => rfl)
  | acquire handle operation =>
    rw [step]
    cases hok : s.registry.tryAcquireEngineLease handle operation with
    | error why => exact hs
    | ok registry =>
      obtain ⟨-, hsec, hleases⟩ := ChannelHandleRegistry.tryAcquireEngineLease_spec hok
      have hinv : ({ s with tokens := ⟨handle, operation, 1⟩ :: s.tokens }.withDue
          registry []).Inv := by
        refine hs.withDue hsec fun h => ?_
        rw [hleases h, List.countP_cons, hs.leases h]
        by_cases hh : h = handle
        · simp [hh]
        · have hh' : handle ≠ h := fun heq => hh heq.symm
          simp [hh, hh']
      simpa [ChannelSystem.withDue] using hinv
  | copyLease i =>
    exact ⟨fun h => (hs.leases h).trans (countP_modify_refs (· + 1) h s.tokens i).symm,
      hs.pending, hs.once⟩
  | dropLease i =>
    rw [step]
    cases hi : s.tokens[i]? with
    | none => exact hs
    | some token =>
      simp only
      split
      · exact ⟨fun h => (hs.leases h).trans (countP_modify_refs (· - 1) h s.tokens i).symm,
          hs.pending, hs.once⟩
      · obtain ⟨hsec, hleases⟩ := ChannelHandleRegistry.releaseToken_spec s.registry
          token.handle token.operation
        refine hs.withDue hsec fun h => ?_
        have hperm := (perm_eraseIdx hi).countP_eq fun t => decide (t.handle = h)
        rw [List.countP_cons] at hperm
        rw [hleases h, hs.leases h]
        by_cases hh : h = token.handle
        · rw [if_pos hh]
          simp only [hh, decide_true, if_true] at hperm ⊢
          omega
        · have hh' : token.handle ≠ h := fun heq => hh heq.symm
          rw [if_neg hh]
          simp only [hh', decide_false, Bool.false_eq_true, if_false] at hperm
          omega
  | retire handle =>
    obtain ⟨hsec, hleases⟩ :=
      ChannelHandleRegistry.retireChannelHandle_spec s.registry handle
    exact hs.withDue hsec fun h => (hleases h).trans (hs.leases h)
  | retireGeneration generation =>
    obtain ⟨hsec, hleases⟩ :=
      ChannelHandleRegistry.retireGenerationLocked_spec s.registry generation
    exact hs.withDue hsec fun h => (hleases h).trans (hs.leases h)
  | publish generation defaultHandle =>
    obtain ⟨hsec, hleases⟩ :=
      ChannelHandleRegistry.publishRuntimeGeneration_spec s.registry generation defaultHandle
    exact hs.withDue hsec fun h => (hleases h).trans (hs.leases h)
  | reclaimAgain handle =>
    obtain ⟨hretired, hfree, hmarks, hleases⟩ :=
      ChannelHandleRegistry.reclaimChannelAgainIfReclaimed_spec s.registry handle
    refine ⟨fun h => (hleases h).trans (hs.leases h), ?_, ?_⟩
    · intro p hp
      rcases List.mem_append.mp hp with hp | hp
      · obtain ⟨info, hfind, hstate, hzero⟩ := hs.pending p hp
        obtain ⟨info', hfind', hstate', hle⟩ := hretired p.1 info hfind hstate
        exact ⟨info', hfind', hstate', by omega⟩
      · obtain ⟨h, hh, rfl⟩ := List.mem_map.mp hp
        exact hfree h hh
    · intro h
      have hcount := hs.once h
      have hmark := hmarks h
      simp only [step, ChannelSystem.withDue, List.map_append, List.map_map, List.count_append]
      generalize s.registry.reclaimChannelAgainIfReclaimed handle = res at *
      obtain ⟨rearmed, due, registry⟩ := res
      have hfst : (Prod.fst ∘ fun h : Int => (h, registry.reclaimer)) = id := rfl
      simp only [hfst, List.map_id] at *
      cases rearmed <;> simp [List.count_cons] at * <;> omega
  | runReclaimer i =>
    rw [step]
    cases hi : s.pending[i]? with
    | none => exact hs
    | some p =>
      obtain ⟨handle, reclaimer⟩ := p
      refine ⟨hs.leases, fun p hp => hs.pending p (List.mem_of_mem_eraseIdx hp), fun h => ?_⟩
      have hperm := ((perm_eraseIdx hi).map Prod.fst).count_eq h
      have hcount := hs.once h
      rw [List.map_cons, List.count_cons] at hperm
      simp only at hperm
      show (if reclaimer.isSome then handle :: s.ran else s.ran).count h +
        ((s.pending.eraseIdx i).map Prod.fst).count h ≤ s.rearmed.count h + s.registry.marked h
      split
      · rw [List.count_cons]
        omega
      · omega

theorem inv_run (actions : List ChannelAction) :
    ∀ {s : ChannelSystem}, s.Inv → (s.run actions).Inv := by
  induction actions with
  | nil => exact fun hs => hs
  | cons action rest ih => exact fun hs => ih (inv_step hs action)

/-! ## Retirement is for good -/

/-- **Step.** No action brings a retired handle back. -/
theorem retired_step {h : Int} (hr : s.registry.Retired h) (action : ChannelAction) :
    (s.step action).registry.Retired h := by
  cases action with
  | register handle databaseId available generation =>
    exact (ChannelHandleRegistry.registerChannelHandle_spec s.registry handle databaseId
      available generation).1.keepsRetired hr
  | describe handle name path backendType order =>
    exact (ChannelHandleRegistry.describeChannelHandle_section s.registry handle name path
      backendType order).keepsRetired hr
  | allocateHandle => exact hr
  | allocateGeneration => exact hr
  | setDefault handle => exact hr
  | setReclaimer reclaimer => exact hr
  | markReclaimed handle =>
    exact (ChannelHandleRegistry.markChannelReclaimed_section s.registry
      handle).keepsRetired hr
  | acquire handle operation =>
    rw [step]
    cases hok : s.registry.tryAcquireEngineLease handle operation with
    | error why => exact hr
    | ok registry =>
      exact (ChannelHandleRegistry.tryAcquireEngineLease_spec hok).2.1.keepsRetired hr
  | copyLease i => exact hr
  | dropLease i =>
    rw [step]
    cases hi : s.tokens[i]? with
    | none => exact hr
    | some token =>
      simp only
      split
      · exact hr
      · exact (ChannelHandleRegistry.releaseToken_spec s.registry token.handle
          token.operation).1.keepsRetired hr
  | retire handle =>
    exact (ChannelHandleRegistry.retireChannelHandle_spec s.registry handle).1.keepsRetired hr
  | retireGeneration generation =>
    exact (ChannelHandleRegistry.retireGenerationLocked_spec s.registry
      generation).1.keepsRetired hr
  | publish generation defaultHandle =>
    exact (ChannelHandleRegistry.publishRuntimeGeneration_spec s.registry generation
      defaultHandle).1.keepsRetired hr
  | reclaimAgain handle =>
    obtain ⟨info, hfind, hstate⟩ := hr
    obtain ⟨info', hfind', hstate', -⟩ :=
      (ChannelHandleRegistry.reclaimChannelAgainIfReclaimed_spec s.registry handle).1 h info
        hfind hstate
    exact ⟨info', hfind', hstate'⟩
  | runReclaimer i =>
    rw [step]
    split <;> exact hr

theorem retired_run {h : Int} (actions : List ChannelAction) :
    ∀ {s : ChannelSystem}, s.registry.Retired h → (s.run actions).registry.Retired h := by
  induction actions with
  | nil => exact fun hr => hr
  | cons action rest ih => exact fun hr => ih (retired_step hr action)

/-- The safety of one state of the system. -/
structure Safe (s : ChannelSystem) : Prop where
  /-- A retired handle stays retired, so it is never available again. -/
  retiredForGood : ∀ h, s.registry.Retired h →
    ∀ actions, (s.run actions).registry.Retired h
  /-- A lease is granted only on an available handle. -/
  grantedOnAvailable : ∀ h operation, (s.step (.acquire h operation)).tokens ≠ s.tokens →
    ∃ info, s.registry.find h = some info ∧ info.state = .available
  /-- The lease count is the number of live tokens. -/
  leasesAreTokens : ∀ h, s.registry.leasesOf h = s.tokens.countP fun t => t.handle = h
  /-- Whatever reclaimer run is still to be made, when it is made the handle is
  retired with no lease. -/
  ranWhenFree : ∀ (i : Nat) (h : Int) (reclaimer : Option Nat), s.pending[i]? = some (h, reclaimer) →
    s.registry.Reclaimable h
  /-- The reclaimer runs once, and once more for each explicit re-arm. -/
  ranOnce : ∀ h, s.ran.count h ≤ 1 + s.rearmed.count h
  /-- Publishing another generation retires every handle of the one before, for
  good. -/
  publishRetires : ∀ generation defaultHandle, s.registry.currentGeneration ≠ generation →
    ∀ h info, (s.step (.publish generation defaultHandle)).registry.find h = some info →
      info.generation = s.registry.currentGeneration →
      ∀ actions,
        ((s.step (.publish generation defaultHandle)).run actions).registry.Retired h

theorem Inv.safe (hs : s.Inv) : s.Safe where
  retiredForGood h hr actions := retired_run actions hr
  grantedOnAvailable h operation hgrant := by
    rw [step] at hgrant
    cases hok : s.registry.tryAcquireEngineLease h operation with
    | error why =>
      rw [hok] at hgrant
      exact absurd rfl hgrant
    | ok registry => exact (ChannelHandleRegistry.tryAcquireEngineLease_spec hok).1
  leasesAreTokens := hs.leases
  ranWhenFree i h reclaimer hi := hs.pending (h, reclaimer) (List.mem_of_getElem? hi)
  ranOnce h := by
    have hcount := hs.once h
    have hmark : s.registry.marked h ≤ 1 := by
      unfold ChannelHandleRegistry.marked
      split <;> omega
    omega
  publishRetires generation defaultHandle hne h info hfind hgen actions := by
    refine retired_run actions ⟨info, hfind, ?_⟩
    change (s.registry.publishRuntimeGeneration generation defaultHandle).2.2.find h =
      some info at hfind
    rw [ChannelHandleRegistry.publishRuntimeGeneration] at hfind
    simp only [if_pos hne] at hfind
    exact ChannelHandleRegistry.retireGenerationLocked_retires s.registry
      s.registry.currentGeneration hfind hgen

end ChannelSystem

/-- **Handles and leases are safe.** After every interleaving of lock sections,
lease copies and reclaimer runs, the system is safe. -/
theorem channel_handles_safe (actions : List ChannelAction) :
    (({} : ChannelSystem).run actions).Safe :=
  (ChannelSystem.inv_run actions ChannelSystem.inv_initial).safe

/-- A lease outlives the retirement of its handle, and its release lets the
reclaimer run. -/
example : (({} : ChannelSystem).run [.register 0 "db" true 1, .setReclaimer (some 0),
    .acquire 0 true, .publish 2 1, .acquire 0 false, .dropLease 0, .runReclaimer 0]).ran =
      [0] := by decide

end GpgFrontend
