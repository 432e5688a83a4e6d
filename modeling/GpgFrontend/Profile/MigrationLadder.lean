import Mathlib.Data.List.Sort
import GpgFrontend.Profile.Migration

/-!
# Which rungs one opening of a profile applies

The two stages of `Open` run over the same ladder and share one version counter.
The first stage leaves the counter behind its *highest* rung, and the second
starts from there, so a later-stage rung below an earlier-stage one is passed
over for good.
-/

namespace GpgFrontend

variable {σ : Type}

/-! ## Ladders -/

/-- Rungs in order of the version they start from. -/
abbrev Ascending (rungs : List (ProfileMigration σ)) : Prop :=
  rungs.Pairwise fun a b => a.fromVersion < b.fromVersion

/-- A ladder: every rung one version up, each starting where the last one ended. -/
structure Consecutive (ladder : List (ProfileMigration σ)) : Prop where
  unit : ∀ r ∈ ladder, r.toVersion = r.fromVersion + 1
  chain : ladder.IsChain fun a b => b.fromVersion = a.toVersion

/-- The rungs from the starting version up to the target. -/
def rungsBetween (start target : Int) (ladder : List (ProfileMigration σ)) :
    List (ProfileMigration σ) :=
  ladder.filter fun r => start ≤ r.fromVersion ∧ r.fromVersion < target

/-- No rung of the early stage stands above one of the late stage in the range
to be climbed. -/
def NoEarlyAboveLate (start target : Int) (ladder : List (ProfileMigration σ)) : Prop :=
  ∀ late ∈ ladder, ∀ early ∈ ladder, late.stage = .postKey → early.stage = .preKey →
    start ≤ late.fromVersion → early.fromVersion < target →
    early.fromVersion < late.fromVersion

theorem Consecutive.ascending {ladder : List (ProfileMigration σ)} (h : Consecutive ladder) :
    Ascending ladder := by
  obtain ⟨hunit, hchain⟩ := h
  have hlt : ladder.IsChain fun a b => a.fromVersion < b.fromVersion := by
    induction ladder with
    | nil => exact .nil
    | cons a l ih =>
      cases l with
      | nil => exact .singleton a
      | cons b l =>
        obtain ⟨hab, hrest⟩ := List.isChain_cons_cons.mp hchain
        refine List.isChain_cons_cons.mpr ⟨?_, ih (fun r hr => hunit r (.tail a hr)) hrest⟩
        have := hunit a List.mem_cons_self
        omega
  have : IsTrans (ProfileMigration σ) fun a b => a.fromVersion < b.fromVersion :=
    ⟨fun _ _ _ => Int.lt_trans⟩
  exact List.isChain_iff_pairwise.mp hlt

/-- Ascending lists of the same rungs are the same list. -/
theorem Ascending.eq_of_mem_iff {l₁ l₂ : List (ProfileMigration σ)} (h₁ : Ascending l₁)
    (h₂ : Ascending l₂) (h : ∀ r, r ∈ l₁ ↔ r ∈ l₂) : l₁ = l₂ := by
  have : Std.Antisymm fun a b : ProfileMigration σ => a.fromVersion < b.fromVersion :=
    ⟨fun _ _ hab hba => absurd hab (Int.lt_asymm hba)⟩
  have : Std.Irrefl fun a b : ProfileMigration σ => a.fromVersion < b.fromVersion :=
    ⟨fun _ => Int.lt_irrefl _⟩
  exact List.Pairwise.eq_of_mem_iff h₁ h₂ h

section Ladder

variable {ladder : List (ProfileMigration σ)}

/-- Rungs of a ladder that start from the same version are the same rung. -/
theorem Ascending.eq_of_fromVersion {l : List (ProfileMigration σ)} (h : Ascending l)
    {a b : ProfileMigration σ} (ha : a ∈ l) (hb : b ∈ l)
    (hab : a.fromVersion = b.fromVersion) : a = b := by
  have hinj : l.Pairwise fun a b => a.fromVersion = b.fromVersion → a = b :=
    h.imp fun hlt heq => absurd heq (Int.ne_of_lt hlt)
  exact hinj.forall_of_forall_of_flip (fun _ _ _ => rfl)
    (hinj.imp fun hxy heq => (hxy heq.symm).symm) ha hb hab

variable {stage : ProfileMigrationStage}

theorem mem_profileMigrationsFor (hunit : ∀ r ∈ ladder, r.toVersion = r.fromVersion + 1) {a b : Int}
    {r : ProfileMigration σ} :
    r ∈ profileMigrationsFor a b stage ladder ↔
      r ∈ ladder ∧ a ≤ r.fromVersion ∧ r.fromVersion < b ∧ r.stage = stage := by
  simp only [profileMigrationsFor, List.mem_flatMap, List.mem_range, List.mem_filter,
    decide_eq_true_eq]
  constructor
  · rintro ⟨i, hi, hr, hfrom, -, hstage⟩
    exact ⟨hr, by omega, by omega, hstage⟩
  · rintro ⟨hr, ha, hb, hstage⟩
    have hto := hunit r hr
    exact ⟨(r.fromVersion - a).toNat, by omega, hr, by omega, by omega, hstage⟩

theorem ascending_profileMigrationsFor (h : Ascending ladder) {a b : Int} :
    Ascending (profileMigrationsFor a b stage ladder) := by
  refine List.pairwise_flatMap.mpr ⟨fun i _ => h.filter _, ?_⟩
  refine List.pairwise_lt_range.imp ?_
  intro i j hij x hx y hy
  simp only [List.mem_filter, decide_eq_true_eq] at hx hy
  omega

/-! ## The rungs of both stages -/

/-- The version recorded after `rungs` have been committed. -/
def versionAfter (start : Int) (rungs : List (ProfileMigration σ)) : Int :=
  (rungs.getLast?.map (·.toVersion)).getD start

/-- The rungs the two stages run: those of the early stage, then those of the
late stage from the version the early stage left behind. -/
def openedRungs (start target : Int) (ladder : List (ProfileMigration σ)) :
    List (ProfileMigration σ) :=
  let early := profileMigrationsFor start target .preKey ladder
  early ++ profileMigrationsFor (versionAfter start early) target .postKey ladder

theorem versionAfter_append (start : Int) (l l' : List (ProfileMigration σ)) :
    versionAfter start (l ++ l') = versionAfter (versionAfter start l) l' := by
  unfold versionAfter
  cases h : l'.getLast? with
  | none =>
    rw [List.getLast?_eq_none_iff.mp h, List.append_nil]
    rfl
  | some r => rw [List.getLast?_append, h]; rfl

/-- The version after some rungs is either the starting one, or that of a rung
no other stands above. -/
theorem versionAfter_cases (start : Int) {rungs : List (ProfileMigration σ)}
    (h : Ascending rungs) :
    (rungs = [] ∧ versionAfter start rungs = start) ∨
    ∃ r ∈ rungs, versionAfter start rungs = r.toVersion ∧
      ∀ r' ∈ rungs, r'.fromVersion ≤ r.fromVersion := by
  rcases List.eq_nil_or_concat rungs with rfl | ⟨l, r, rfl⟩
  · exact .inl ⟨rfl, rfl⟩
  · refine .inr ⟨r, by simp, by simp [versionAfter], ?_⟩
    intro r' hr'
    rw [List.concat_eq_append] at h hr'
    obtain ⟨-, -, hlt⟩ := List.pairwise_append.mp h
    rcases List.mem_append.mp hr' with hmem | hmem
    · exact Int.le_of_lt (hlt r' hmem r (List.mem_singleton_self r))
    · rw [List.mem_singleton.mp hmem]

/-- With no early rung above a late one, both stages together climb the range. -/
theorem openedRungs_eq (hladder : Consecutive ladder) {start target : Int}
    (hcond : NoEarlyAboveLate start target ladder) :
    openedRungs start target ladder = rungsBetween start target ladder := by
  have hasc := hladder.ascending
  have hearly : Ascending (profileMigrationsFor start target .preKey ladder) :=
    ascending_profileMigrationsFor hasc
  refine Ascending.eq_of_mem_iff (List.pairwise_append.mpr
    ⟨hearly, ascending_profileMigrationsFor hasc, ?_⟩) (hasc.filter _) ?_
  · -- the late stage starts above everything the early stage ran
    intro x hx y hy
    obtain ⟨-, hy, -⟩ := (mem_profileMigrationsFor hladder.unit).mp hy
    rcases versionAfter_cases start hearly with ⟨hnil, -⟩ | ⟨r, hr, hversion, hmax⟩
    · rw [hnil] at hx
      exact nomatch hx
    · have := hmax x hx
      have := hladder.unit r ((mem_profileMigrationsFor hladder.unit).mp hr).1
      omega
  · intro r
    rw [openedRungs, List.mem_append, mem_profileMigrationsFor hladder.unit,
      mem_profileMigrationsFor hladder.unit, rungsBetween, List.mem_filter, decide_eq_true_eq]
    constructor
    · rintro (⟨hr, hge, hlt, -⟩ | ⟨hr, hge, hlt, -⟩)
      · exact ⟨hr, hge, hlt⟩
      · refine ⟨hr, ?_, hlt⟩
        rcases versionAfter_cases start hearly with ⟨-, hversion⟩ | ⟨e, he, hversion, -⟩
        · omega
        · obtain ⟨hmem, hstart, -⟩ := (mem_profileMigrationsFor hladder.unit).mp he
          have := hladder.unit e hmem
          omega
    · rintro ⟨hr, hge, hlt⟩
      cases hstage : r.stage with
      | preKey => exact .inl ⟨hr, hge, hlt, rfl⟩
      | postKey =>
        refine .inr ⟨hr, ?_, hlt, rfl⟩
        rcases versionAfter_cases start hearly with ⟨-, hversion⟩ | ⟨e, he, hversion, -⟩
        · omega
        · obtain ⟨hmem, -, htarget, hpre⟩ := (mem_profileMigrationsFor hladder.unit).mp he
          have := hladder.unit e hmem
          have := hcond r hr e hmem hstage hpre hge htarget
          omega

/-- A late rung below an early one is in the range and is not run. -/
theorem late_not_mem_openedRungs (hladder : Consecutive ladder) {start target : Int}
    {late early : ProfileMigration σ} (hlate : late ∈ ladder) (hearly : early ∈ ladder)
    (hpost : late.stage = .postKey) (hpre : early.stage = .preKey)
    (hstart : start ≤ late.fromVersion) (htarget : early.fromVersion < target)
    (hbelow : ¬ early.fromVersion < late.fromVersion) :
    late ∈ rungsBetween start target ladder ∧ late ∉ openedRungs start target ladder := by
  have hne : early.fromVersion ≠ late.fromVersion := by
    intro heq
    rw [hladder.ascending.eq_of_fromVersion hearly hlate heq, hpost] at hpre
    exact nomatch hpre
  refine ⟨?_, ?_⟩
  · rw [rungsBetween, List.mem_filter, decide_eq_true_eq]
    exact ⟨hlate, hstart, by omega⟩
  · intro hmem
    have hran : Ascending (profileMigrationsFor start target .preKey ladder) :=
      ascending_profileMigrationsFor hladder.ascending
    have hearlyRan : early ∈ profileMigrationsFor start target .preKey ladder :=
      (mem_profileMigrationsFor hladder.unit).mpr ⟨hearly, by omega, htarget, hpre⟩
    rcases List.mem_append.mp hmem with hmem | hmem
    · obtain ⟨-, -, -, hstage⟩ := (mem_profileMigrationsFor hladder.unit).mp hmem
      rw [hpost] at hstage
      exact nomatch hstage
    · -- the late stage starts above the early rung, hence above this one
      obtain ⟨-, hge, -⟩ := (mem_profileMigrationsFor hladder.unit).mp hmem
      rcases versionAfter_cases start hran with ⟨hnil, -⟩ | ⟨r, hr, hversion, hmax⟩
      · rw [hnil] at hearlyRan
        exact nomatch hearlyRan
      · have := hmax early hearlyRan
        have := hladder.unit r ((mem_profileMigrationsFor hladder.unit).mp hr).1
        omega

end Ladder

/-! ## What the stages do to the marker -/

section Run

variable {ctx : OpenContext} {ladder : List (ProfileMigration σ)} {m₀ : ProfileMarker}

/-- The marker after a list of rungs. -/
def commitAll (ctx : OpenContext) (marker : ProfileMarker) (rungs : List (ProfileMigration σ)) :
    ProfileMarker :=
  rungs.foldl ctx.commit marker

/-- The storage after a list of rungs; a skipped rung leaves it alone. -/
def applyAll (ctx : OpenContext) (rungs : List (ProfileMigration σ)) (storage : σ) : σ :=
  rungs.foldl (fun s r => if ctx.skips r then s else (r.apply s).1) storage

/-- The marker `m` is `m₀` with exactly `rungs` climbed. -/
structure MarkerAt (ctx : OpenContext) (m₀ : ProfileMarker) (rungs : List (ProfileMigration σ))
    (m : ProfileMarker) : Prop where
  migrations : m.migrations = m₀.migrations ++ rungs.map ctx.recordOf
  version : m.schemaVersion = versionAfter m₀.schemaVersion rungs

theorem MarkerAt.start : MarkerAt ctx m₀ ([] : List (ProfileMigration σ)) m₀ :=
  ⟨(List.append_nil _).symm, rfl⟩

variable {m : ProfileMarker} {rungs : List (ProfileMigration σ)}

/-- Committing a rung climbs it. -/
theorem MarkerAt.commit (h : MarkerAt ctx m₀ rungs m) (rung : ProfileMigration σ) :
    MarkerAt ctx m₀ (rungs ++ [rung]) (ctx.commit m rung) := by
  refine ⟨?_, ?_⟩
  · show m.migrations ++ [ctx.recordOf rung] = _
    rw [h.migrations, List.map_append, List.append_assoc]
    rfl
  · rw [versionAfter_append]
    rfl

theorem MarkerAt.commitAll :
    ∀ {m : ProfileMarker} {before : List (ProfileMigration σ)}, MarkerAt ctx m₀ before m →
      MarkerAt ctx m₀ (before ++ rungs) (commitAll ctx m rungs) := by
  induction rungs with
  | nil =>
    intro m before h
    rw [List.append_nil]
    exact h
  | cons rung rest ih =>
    intro m before h
    rw [List.append_cons]
    exact ih (h.commit rung)

/-- A run of the loop: every marker it leaves behind is the one after some front
part of the rungs. -/
theorem migrateLoop_spec (rungs : List (ProfileMigration σ)) :
    ∀ {m : ProfileMarker} {reached : Int} {d : ProfileDisk σ}, d.marker = some m →
      Triple (fun _ d' => ∃ done, done <+: rungs ∧ d'.marker = some (commitAll ctx m done))
        (migrateLoop ctx m reached rungs) d fun res d' => res.ok = true →
          d'.marker = some (commitAll ctx m rungs) ∧
          d'.storage = applyAll ctx rungs d.storage := by
  induction rungs with
  | nil =>
    intro m reached d hd
    exact Triple.pure fun _ => ⟨hd, rfl⟩
  | cons rung rest ih =>
    intro m reached d hd
    rw [migrateLoop]
    refine Triple.bind (R := fun outcome d' => d'.marker = some m ∧
      d'.storage = if ctx.skips rung then d.storage else (rung.apply d.storage).1) ?_ ?_
    · rw [OpenContext.applyRung]
      by_cases hskip : ctx.skips rung = true
      · rw [if_pos hskip, if_pos hskip]
        exact Triple.pure ⟨hd, rfl⟩
      · rw [if_neg hskip, if_neg hskip]
        exact Triple.step ⟨[], List.nil_prefix, hd⟩ ⟨hd, rfl⟩
    rintro outcome d₁ ⟨hm₁, hs₁⟩
    by_cases hok : outcome.ok = true
    · rw [if_neg (by simp [hok])]
      refine Triple.bind (R := fun ok d' => d'.storage = d₁.storage ∧
        (ok = true → d'.marker = some (ctx.commit m rung))) ?_ ?_
      · by_cases hw : ctx.writeOk d₁.commits = true
        · refine Triple.step ?_ ?_
          · rw [if_pos hw]
            exact ⟨[rung], List.prefix_append [rung] rest, rfl⟩
          · rw [if_pos hw]
            exact ⟨rfl, fun _ => rfl⟩
        · refine Triple.step ?_ ?_
          · rw [if_neg hw]
            exact ⟨[], List.nil_prefix, hm₁⟩
          · rw [if_neg hw]
            exact ⟨rfl, fun h => (nomatch h)⟩
      · rintro ok d₂ ⟨hs₂, hm₂⟩
        cases ok with
        | false => exact Triple.pure fun h => (nomatch h)
        | true =>
          refine (ih (hm₂ rfl)).mono ?_ ?_
          · rintro _ d' ⟨done, hdone, hd'⟩
            exact ⟨rung :: done, List.cons_prefix_cons.mpr ⟨rfl, hdone⟩, hd'⟩
          · intro res d' h hres
            obtain ⟨hm', hs'⟩ := h hres
            refine ⟨hm', ?_⟩
            rw [hs', hs₂, hs₁]
            rfl
    · rw [if_pos (by simpa using hok)]
      exact Triple.pure fun h => (nomatch h)

/-- What the plan says about a marker that is there. -/
theorem planProfileMigration_some (m : ProfileMarker) (target : Int) (names : List String) :
    (planProfileMigration (some m) target names).fromVersion = m.schemaVersion ∧
    (planProfileMigration (some m) target names).toVersion = target ∧
    ((planProfileMigration (some m) target names).verdict = .none →
      oldestSupportedProfileSchema ≤ m.schemaVersion ∧ m.schemaVersion = target) ∧
    ((planProfileMigration (some m) target names).verdict = .upgrade →
      oldestSupportedProfileSchema ≤ m.schemaVersion) := by
  simp only [planProfileMigration]
  split
  · exact ⟨rfl, rfl, fun h => (nomatch h), fun h => (nomatch h)⟩
  split
  · exact ⟨rfl, rfl, fun h => (nomatch h), fun h => (nomatch h)⟩
  split
  · exact ⟨rfl, rfl, fun h => (nomatch h), fun h => (nomatch h)⟩
  split
  · exact ⟨rfl, rfl, fun h => (nomatch h), fun h => (nomatch h)⟩
  rename_i hold
  refine ⟨rfl, rfl, fun h => ⟨Int.not_lt.mp hold, ?_⟩, fun _ => Int.not_lt.mp hold⟩
  by_contra hne
  simp only [if_neg hne] at h
  exact nomatch h

variable {d : ProfileDisk σ}

variable {before : List (ProfileMigration σ)}

/-- An upgrade of one stage, from a marker that has `before` climbed. -/
theorem runProfileMigration_spec (ladder : List (ProfileMigration σ))
    (stage : ProfileMigrationStage) {plan : ProfileMigrationPlan} (hplan : plan.verdict = .upgrade)
    (hd : d.marker = some m) (hm : MarkerAt ctx m₀ before m) :
    Triple (fun _ d' => ∃ m' done, d'.marker = some m' ∧ MarkerAt ctx m₀ done m' ∧
        done <+: before ++ profileMigrationsFor plan.fromVersion plan.toVersion stage ladder)
      (runProfileMigration ctx plan stage ladder) d fun res d' => res.ok = true →
        (∃ m', d'.marker = some m' ∧ MarkerAt ctx m₀
          (before ++ profileMigrationsFor plan.fromVersion plan.toVersion stage ladder) m') ∧
        d'.storage = applyAll ctx
          (profileMigrationsFor plan.fromVersion plan.toVersion stage ladder) d.storage := by
  rw [runProfileMigration, if_neg (by simp [hplan])]
  set rungs := profileMigrationsFor plan.fromVersion plan.toVersion stage ladder with hrungs
  by_cases hempty : rungs.isEmpty = true
  · simp only [hempty, if_true]
    rw [List.isEmpty_iff.mp hempty, List.append_nil]
    exact Triple.pure fun _ => ⟨⟨m, hd, hm⟩, rfl⟩
  simp only [hempty, Bool.false_eq_true, if_false]
  refine Triple.bind (R := fun marker d' => marker = m ∧ d' = d)
    (Triple.read ⟨by rw [hd]; rfl, rfl⟩) ?_
  rintro marker d' ⟨rfl, rfl⟩
  -- the copy of the marker, then the loop
  refine Triple.bind (R := fun _ d₁ => d₁.marker = some marker ∧ d₁.storage = d'.storage)
    (Triple.step ⟨marker, before, hd, hm, List.prefix_append before rungs⟩ ⟨hd, rfl⟩) ?_
  rintro - d₁ ⟨hd₁, hs₁⟩
  refine (migrateLoop_spec rungs hd₁).mono ?_ ?_
  · rintro _ d₂ ⟨done, hdone, hd₂⟩
    exact ⟨_, before ++ done, hd₂, hm.commitAll,
      (List.prefix_append_right_inj before).mpr hdone⟩
  · intro res d₂ h hres
    obtain ⟨hm₂, hs₂⟩ := h hres
    exact ⟨⟨_, hm₂, hm.commitAll⟩, hs₁ ▸ hs₂⟩

/-- One stage climbs its own rungs from the version it finds. -/
theorem runMigrations_spec (ctx : OpenContext) (ladder : List (ProfileMigration σ))
    (stage : ProfileMigrationStage) (hd : d.marker = some m) (hm : MarkerAt ctx m₀ before m) :
    Triple (fun _ d' => ∃ m' done, d'.marker = some m' ∧ MarkerAt ctx m₀ done m' ∧
        done <+: before ++ profileMigrationsFor m.schemaVersion ctx.schemaVersion stage ladder)
      (runMigrations ctx stage ladder) d fun res d' => res = .ok () →
        oldestSupportedProfileSchema ≤ m.schemaVersion ∧
        (∃ m', d'.marker = some m' ∧ MarkerAt ctx m₀
          (before ++ profileMigrationsFor m.schemaVersion ctx.schemaVersion stage ladder) m') ∧
        d'.storage = applyAll ctx
          (profileMigrationsFor m.schemaVersion ctx.schemaVersion stage ladder) d.storage := by
  refine Triple.bind (R := fun marker d' => marker = some m ∧ d' = d) (Triple.read ⟨hd, rfl⟩) ?_
  rintro marker d' ⟨rfl, rfl⟩
  obtain ⟨hfrom, hto, hnone, hupgrade⟩ :=
    planProfileMigration_some m ctx.schemaVersion (ladder.map (·.name))
  generalize planProfileMigration (some m) ctx.schemaVersion (ladder.map (·.name)) = plan at *
  cases hverdict : plan.verdict with
  | tooNew =>
    simp only [hverdict]
    exact Triple.pure fun h => (nomatch h)
  | refuse =>
    simp only [hverdict]
    exact Triple.pure fun h => (nomatch h)
  | none =>
    obtain ⟨hold, heq⟩ := hnone hverdict
    have hnil : profileMigrationsFor m.schemaVersion ctx.schemaVersion stage ladder = [] := by
      rw [heq, profileMigrationsFor, Int.sub_self]
      rfl
    simp only [hverdict, hnil, List.append_nil]
    exact Triple.pure fun _ => ⟨hold, ⟨m, hd, hm⟩, rfl⟩
  | upgrade =>
    have hrun := runProfileMigration_spec ladder stage hverdict hd hm
    rw [hfrom, hto] at hrun
    simp only [hverdict]
    refine Triple.bind hrun fun res d'' h => ?_
    by_cases hres : res.ok = true
    · rw [if_neg (by simp [hres])]
      exact Triple.pure fun _ => ⟨hupgrade hverdict, h hres⟩
    · rw [if_pos (by simpa using hres)]
      exact Triple.pure fun h => (nomatch h)

/-- The two marker updates outside the ladder, whatever they make of it: a write
that fails leaves the marker as it was. -/
theorem writeProfileMarker_spec {G : ProfileDisk σ → ProfileDisk σ → Prop} {m' : ProfileMarker}
    {P : ProfileMarker → Prop} (hd : d.marker = some m) (hP : P m) (hP' : P m')
    (hG : ∀ d' m'', d'.marker = some m'' → d'.storage = d.storage → P m'' → G d d') :
    Triple G (ctx.writeProfileMarker m') d fun _ d' =>
      d'.storage = d.storage ∧ ∃ m'', d'.marker = some m'' ∧ P m'' := by
  by_cases hw : ctx.writeOk d.commits = true
  · refine Triple.step ?_ ?_
    · rw [if_pos hw]
      exact hG _ m' rfl rfl hP'
    · rw [if_pos hw]
      exact ⟨rfl, m', rfl, hP'⟩
  · refine Triple.step ?_ ?_
    · rw [if_neg hw]
      exact hG _ m hd rfl hP
    · rw [if_neg hw]
      exact ⟨rfl, m, hd, hP⟩

theorem MarkerAt.mintIdentity (h : MarkerAt ctx m₀ rungs m) (hne : m.schemaVersion ≠ 0) :
    MarkerAt ctx m₀ rungs (mintIdentity ctx m) := by
  rw [GpgFrontend.mintIdentity, if_neg hne]
  exact ⟨h.migrations, h.version⟩

/-- A marker on disk while the rungs `all` are being climbed: some front part of
them is recorded, and short of all of them the version is theirs. -/
def Climbing (ctx : OpenContext) (m₀ : ProfileMarker) (all : List (ProfileMigration σ))
    (d : ProfileDisk σ) : Prop :=
  ∃ m done, d.marker = some m ∧ done <+: all ∧
    m.migrations = m₀.migrations ++ done.map ctx.recordOf ∧
    (done ≠ all → m.schemaVersion = versionAfter m₀.schemaVersion done)

theorem MarkerAt.climbing {done all : List (ProfileMigration σ)} (hd : d.marker = some m)
    (h : MarkerAt ctx m₀ done m) (hdone : done <+: all) : Climbing ctx m₀ all d :=
  ⟨m, done, hd, hdone, h.migrations, fun _ => h.version⟩

/-- Climbing never takes the version below where it started. -/
theorem le_versionAfter_profileMigrationsFor (start target : Int)
    (stage : ProfileMigrationStage) (ladder : List (ProfileMigration σ)) :
    start ≤ versionAfter start (profileMigrationsFor start target stage ladder) := by
  unfold versionAfter
  cases hlast : (profileMigrationsFor start target stage ladder).getLast? with
  | none => exact Int.le_refl start
  | some r =>
    have hmem := List.mem_of_getLast? hlast
    simp only [profileMigrationsFor, List.mem_flatMap, List.mem_range, List.mem_filter,
      decide_eq_true_eq] at hmem
    obtain ⟨i, -, -, -, hto, -⟩ := hmem
    show start ≤ r.toVersion
    omega

/-- **One opening.** A successful opening records and applies `openedRungs`, in
this order and nothing else; and at every state it leaves behind, successful or
not, the marker is the one after some front part of them. -/
theorem openProfile_spec (ctx : OpenContext) (ladder : List (ProfileMigration σ))
    (hd : d.marker = some m₀) :
    Triple (fun _ d' => Climbing ctx m₀
        (openedRungs m₀.schemaVersion ctx.schemaVersion ladder) d')
      (openProfile ctx ladder) d fun res d' => res = .ok () →
        (∃ m, d'.marker = some m ∧ m.migrations = m₀.migrations ++
          (openedRungs m₀.schemaVersion ctx.schemaVersion ladder).map ctx.recordOf) ∧
        d'.storage = applyAll ctx
          (openedRungs m₀.schemaVersion ctx.schemaVersion ladder) d.storage := by
  set early := profileMigrationsFor m₀.schemaVersion ctx.schemaVersion .preKey ladder with hearly
  set late := profileMigrationsFor (versionAfter m₀.schemaVersion early) ctx.schemaVersion
    .postKey ladder with hlate
  have hall : openedRungs m₀.schemaVersion ctx.schemaVersion ladder = early ++ late := rfl
  rw [hall]
  refine Triple.bind ((runMigrations_spec ctx ladder .preKey hd .start).mono ?_ fun _ _ h => h) ?_
  · rintro _ d' ⟨m, done, hd', hm, hdone⟩
    exact hm.climbing hd' (hdone.trans (List.prefix_append early late))
  rintro (e | ⟨⟨⟩⟩) d₁ h₁
  · exact Triple.pure fun h => (nomatch h)
  obtain ⟨hold, ⟨m₁, hd₁, hm₁⟩, hs₁⟩ := h₁ rfl
  rw [List.nil_append] at hm₁
  have hversion : m₁.schemaVersion ≠ 0 := by
    have hle := le_versionAfter_profileMigrationsFor m₀.schemaVersion ctx.schemaVersion .preKey
      ladder
    rw [hm₁.version]
    have : oldestSupportedProfileSchema = 1 := rfl
    omega
  -- the identity is minted, if at all, without touching version or records
  refine Triple.bind (R := fun _ d₂ => d₂.storage = d₁.storage ∧
    ∃ m, d₂.marker = some m ∧ MarkerAt ctx m₀ early m) ?_ ?_
  · refine Triple.bind (R := fun marker d' => marker = m₁ ∧ d' = d₁)
      (Triple.read ⟨by rw [hd₁]; rfl, rfl⟩) ?_
    rintro marker d' ⟨rfl, rfl⟩
    split
    · exact Triple.pure ⟨rfl, marker, hd₁, hm₁⟩
    · refine Triple.bind (writeProfileMarker_spec hd₁ hm₁ (hm₁.mintIdentity hversion) ?_)
        fun _ d₂ h₂ => Triple.pure h₂
      intro d₂ m hd₂ _ hm
      exact hm.climbing hd₂ (List.prefix_append early late)
  rintro - d₂ ⟨hs₂, m₂, hd₂, hm₂⟩
  split
  · exact Triple.pure fun h => (nomatch h)
  have hpost := runMigrations_spec ctx ladder .postKey hd₂ hm₂
  rw [hm₂.version, ← hlate] at hpost
  refine Triple.bind (hpost.mono ?_ fun _ _ h => h) ?_
  · rintro _ d' ⟨m, done, hd', hm, hdone⟩
    exact hm.climbing hd' hdone
  rintro (e | ⟨⟨⟩⟩) d₃ h₃
  · exact Triple.pure fun h => (nomatch h)
  obtain ⟨-, ⟨m₃, hd₃, hm₃⟩, hs₃⟩ := h₃ rfl
  refine Triple.bind (R := fun _ d₄ => d₄.storage = d₃.storage ∧ ∃ m, d₄.marker = some m ∧
    m.migrations = m₀.migrations ++ (early ++ late).map ctx.recordOf) ?_ ?_
  · refine Triple.bind (R := fun marker d' => marker = m₃ ∧ d' = d₃)
      (Triple.read ⟨by rw [hd₃]; rfl, rfl⟩) ?_
    rintro marker d' ⟨rfl, rfl⟩
    refine Triple.bind (writeProfileMarker_spec
      (P := fun m => m.migrations = m₀.migrations ++ (early ++ late).map ctx.recordOf)
      hd₃ hm₃.migrations hm₃.migrations ?_) fun _ d₄ h₄ => Triple.pure h₄
    intro d₄ m hd₄ _ hm
    exact ⟨m, early ++ late, hd₄, List.prefix_refl _, hm, fun h => absurd rfl h⟩
  · rintro - d₄ ⟨hs₄, hm₄⟩
    refine Triple.pure fun _ => ⟨hm₄, ?_⟩
    rw [hs₄, hs₃, hs₂, hs₁, applyAll, applyAll, applyAll, List.foldl_append]

/-- The ladder was climbed completely: every rung of the range is recorded once
and in ascending order, and was applied in that order; and at no state on disk
did the recorded version exceed that of a rung not yet recorded. -/
structure Climbed (ctx : OpenContext) (ladder : List (ProfileMigration σ)) (m₀ : ProfileMarker)
    (d₀ : ProfileDisk σ) : Prop where
  ascending : Ascending (rungsBetween m₀.schemaVersion ctx.schemaVersion ladder)
  recorded : ∃ m, ((openProfile ctx ladder).final d₀).marker = some m ∧
    m.migrations = m₀.migrations ++
      (rungsBetween m₀.schemaVersion ctx.schemaVersion ladder).map ctx.recordOf
  applied : ((openProfile ctx ladder).final d₀).storage =
    applyAll ctx (rungsBetween m₀.schemaVersion ctx.schemaVersion ladder) d₀.storage
  neverAhead : ∀ d ∈ (openProfile ctx ladder).trace d₀, ∀ m, d.marker = some m →
    ∀ r ∈ rungsBetween m₀.schemaVersion ctx.schemaVersion ladder,
      ctx.recordOf r ∉ m.migrations.drop m₀.migrations.length → m.schemaVersion ≤ r.fromVersion

/-- While the range is climbed in order, the version stays at or below every rung
still to come. -/
theorem Climbing.neverAhead (hladder : Consecutive ladder)
    (h : Climbing ctx m₀ (rungsBetween m₀.schemaVersion ctx.schemaVersion ladder) d)
    (hm : d.marker = some m) {r : ProfileMigration σ}
    (hr : r ∈ rungsBetween m₀.schemaVersion ctx.schemaVersion ladder)
    (hopen : ctx.recordOf r ∉ m.migrations.drop m₀.migrations.length) :
    m.schemaVersion ≤ r.fromVersion := by
  obtain ⟨m', done, hm', ⟨todo, hsplit⟩, hmigrations, hversion⟩ := h
  obtain rfl : m = m' := Option.some.inj (hm.symm.trans hm')
  rw [hmigrations, List.drop_left] at hopen
  have hnot : r ∉ done := fun hmem => hopen (List.mem_map_of_mem hmem)
  have htodo : r ∈ todo := by
    rw [← hsplit] at hr
    exact (List.mem_append.mp hr).resolve_left hnot
  have hasc : Ascending (done ++ todo) := hsplit ▸ hladder.ascending.filter _
  obtain ⟨hdone, -, hlt⟩ := List.pairwise_append.mp hasc
  have hpart : done ≠ rungsBetween m₀.schemaVersion ctx.schemaVersion ladder :=
    fun heq => hnot (heq ▸ hr)
  rw [hversion hpart]
  rcases versionAfter_cases m₀.schemaVersion hdone with ⟨-, hstart⟩ | ⟨e, he, hend, -⟩
  · rw [hstart]
    exact ((decide_eq_true_eq.mp (List.mem_filter.mp hr).2)).1
  · have hmem : e ∈ ladder :=
      (List.mem_filter.mp (hsplit ▸ List.mem_append_left todo he)).1
    have := hladder.unit e hmem
    have := hlt e he r htodo
    omega

/-- **When the ladder is climbed completely.** For every consecutive ladder,
every assignment of stages and every starting version: when both stages of one
opening succeed, the ladder was climbed completely if and only if no rung of the
early stage stands above one of the late stage in the range to be climbed. -/
theorem openProfile_applies_every_rung_iff (hladder : Consecutive ladder) {d₀ : ProfileDisk σ}
    (hd₀ : d₀.marker = some m₀) (hok : (openProfile ctx ladder).value d₀ = .ok ()) :
    Climbed ctx ladder m₀ d₀ ↔
      NoEarlyAboveLate m₀.schemaVersion ctx.schemaVersion ladder := by
  have hrun := openProfile_spec ctx ladder hd₀
  obtain ⟨⟨m, hm, hmigrations⟩, hstorage⟩ := hrun.post hok
  constructor
  · intro hclimbed late hlate early hearly hpost hpre hstart htarget
    by_contra hbelow
    obtain ⟨hin, hout⟩ := late_not_mem_openedRungs hladder hlate hearly hpost hpre hstart
      htarget hbelow
    -- the record of the late rung would have to come from a rung that was run
    obtain ⟨m', hm', hrecorded⟩ := hclimbed.recorded
    obtain rfl : m = m' := Option.some.inj (hm.symm.trans hm')
    have hmap := List.append_cancel_left (hmigrations.symm.trans hrecorded)
    have hmem : ctx.recordOf late ∈ (openedRungs m₀.schemaVersion ctx.schemaVersion
        ladder).map ctx.recordOf := hmap ▸ List.mem_map_of_mem hin
    obtain ⟨r, hr, hrec⟩ := List.mem_map.mp hmem
    have hladderMem : r ∈ ladder := by
      rcases List.mem_append.mp hr with h | h
      · exact ((mem_profileMigrationsFor hladder.unit).mp h).1
      · exact ((mem_profileMigrationsFor hladder.unit).mp h).1
    have hsame : r = late := hladder.ascending.eq_of_fromVersion hladderMem hlate
      (congrArg ProfileMigrationRecord.fromVersion hrec)
    exact hout (hsame ▸ hr)
  · intro hcond
    rw [openedRungs_eq hladder hcond] at hmigrations hstorage hrun
    refine ⟨hladder.ascending.filter _, ⟨m, hm, hmigrations⟩, hstorage, ?_⟩
    intro d hd m' hm' r hr hopen
    have hclimbing := hrun.forall_trace (I := fun d => Climbing ctx m₀
        (rungsBetween m₀.schemaVersion ctx.schemaVersion ladder) d)
      ⟨m₀, [], hd₀, List.nil_prefix, (List.append_nil _).symm, fun _ => rfl⟩
      (fun _ _ h _ => h) d hd
    exact hclimbing.neverAhead hladder hm' hr hopen

end Run

/-! ## Two ladders of two rungs -/

/-- A rung that leaves its name behind. -/
def noteRung (fromVersion : Int) (name : String) (stage : ProfileMigrationStage) :
    ProfileMigration (List String) where
  fromVersion := fromVersion
  toVersion := fromVersion + 1
  name := name
  stage := stage
  apply log := (log ++ [name], {})

theorem consecutive_noteRung (a : Int) (name name' : String)
    (stage stage' : ProfileMigrationStage) :
    Consecutive [noteRung a name stage, noteRung (a + 1) name' stage'] := by
  refine ⟨?_, List.isChain_cons_cons.mpr ⟨rfl, .singleton _⟩⟩
  intro r hr
  simp only [List.mem_cons, List.not_mem_nil, or_false] at hr
  rcases hr with rfl | rfl <;> rfl

def sampleContext : OpenContext where
  schemaVersion := 4
  minReaderSchema := 1
  projectVersion := "2.2.0"
  profileName := "GpgFrontend"
  mintedUuid := "0123456789abcdef0123456789abcdef"
  nowIso := "2026-01-01T00:00:00Z"
  isClassic := false
  copiesBackup := true
  writeOk _ := true
  keyLoads := true

def versionTwo : ProfileMarker := { schemaVersion := 2, minReaderVersion := 1 }

def profileAtTwo : ProfileDisk (List String) := ⟨some versionTwo, [], fun _ => none, 0⟩

/-- The early rung below the late one: both are climbed. -/
theorem openProfile_applies_every_rung_early_below :
    Climbed sampleContext [noteRung 2 "settings" .preKey, noteRung 3 "objects" .postKey]
      versionTwo profileAtTwo := by
  refine (openProfile_applies_every_rung_iff (consecutive_noteRung 2 _ _ _ _) rfl rfl).mpr ?_
  intro late hlate early hearly hpost hpre _ _
  simp only [List.mem_cons, List.not_mem_nil, or_false] at hlate hearly
  rcases hlate with rfl | rfl <;> rcases hearly with rfl | rfl <;>
    first
    | exact absurd hpost (by decide)
    | exact absurd hpre (by decide)
    | decide

/-- The early rung above the late one: both stages succeed, and the late rung is
never run. -/
theorem not_openProfile_applies_every_rung :
    ¬ ∀ (σ : Type) (ctx : OpenContext) (ladder : List (ProfileMigration σ)) (m₀ : ProfileMarker)
      (d₀ : ProfileDisk σ), Consecutive ladder → d₀.marker = some m₀ →
      (openProfile ctx ladder).value d₀ = .ok () → Climbed ctx ladder m₀ d₀ := by
  intro hclaim
  have hclimbed := hclaim (List String) sampleContext
    [noteRung 2 "objects" .postKey, noteRung 3 "settings" .preKey] versionTwo profileAtTwo
    (consecutive_noteRung 2 _ _ _ _) rfl rfl
  exact absurd hclimbed.applied (by decide)

end GpgFrontend
