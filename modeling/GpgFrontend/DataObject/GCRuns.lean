import GpgFrontend.DataObject.GCEffects

/-!
# What a whole run of the collector can do

- `ClassifyEffect`: what looking at the objects changes, name by name.
- `sweepQuarantine_rule`, `endOfRun_rule`: what a look at a file keeps, the sweep and the run keep.
-/

namespace GpgFrontend

namespace DataObjectOperator

section Effects

variable {env : GcEnv}

/-! ## Compaction -/

variable {S : Sodium}

/-- Compaction touches the records only, and the clock. -/
theorem compactGcState_frame (S : Sodium) (env : GcEnv) (s : GcRun) :
    ∃ tick, s.tick ≤ tick ∧ compactGcState S env s =
      { s with state := (compactGcState S env s).state
               stateDirty := (compactGcState S env s).stateDirty, tick } := by
  unfold compactGcState
  split
  · exact ⟨s.tick, Nat.le_refl _, rfl⟩
  · dsimp only
    split
    · exact ⟨s.tick + 1, Nat.le_succ _, rfl⟩
    · exact ⟨s.tick + 1, Nat.le_succ _, rfl⟩

variable {s : GcRun}

variable {n : FileName} {item : GcItem}

/-- A record after compaction was one before, and passed its tests. -/
theorem compactGcState_lookup (h : (compactGcState S env s).state.lookup n = some item) :
    s.state.lookup n = some item ∧
      keepsItem S env { s with tick := s.tick + 1 } (env.now s.tick) item = true := by
  unfold compactGcState at h
  split at h
  · next hempty =>
    have hnil : s.state = ∅ := AList.ext (List.isEmpty_iff.mp hempty)
    rw [hnil, AList.lookup_empty] at h
    cases h
  · dsimp only at h
    split at h
    · exact AList.lookup_keep.mp h
    · next hlen =>
      have hall := List.length_filter_eq_length_iff.mp (not_not.mp hlen)
      exact ⟨h, hall ⟨n, item⟩ (AList.mem_lookup_iff.mp h)⟩

/-- A state that is clean after compaction lost no record to it. -/
theorem compactGcState_clean (h : (compactGcState S env s).stateDirty = false) :
    s.stateDirty = false ∧ (compactGcState S env s).state = s.state := by
  unfold compactGcState at h ⊢
  split at h
  · next hempty =>
    rw [if_pos hempty]
    exact ⟨h, rfl⟩
  · next hempty =>
    rw [if_neg hempty]
    dsimp only at h ⊢
    split at h
    · cases h
    · next hlen =>
      rw [if_neg hlen]
      exact ⟨h, rfl⟩

/-- A record is kept for a file that is there, under its path or in quarantine. -/
theorem fileExists_of_keepsItem {now : QDateTime} (h : keepsItem S env s now item = true) :
    s.fileExists item.path = true ∨ ∃ path, item.quarantinePath = some path := by
  cases hsrc : s.fileExists item.path with
  | true => exact .inl rfl
  | false =>
    cases hq : item.quarantinePath with
    | some path => exact .inr ⟨path, rfl⟩
    | none =>
      unfold keepsItem at h
      rw [hsrc, hq] at h
      cases h

/-! ## Saving -/

/-- Whether `SaveOrRemoveGcState` gets at the file. -/
def savesState (env : GcEnv) (s : GcRun) : Bool :=
  if s.state.entries.isEmpty then s.stateFile.isNone || env.removeState s.tick
  else env.save s.tick != .unopened

/-- What saving leaves in the state file: what the run knew, nothing, or, where it
did not get at the file, what was there. -/
theorem saveOrRemoveGcState_cases (env : GcEnv) (s : GcRun) :
    ∃ file, saveOrRemoveGcState env s = { s with stateFile := file } ∧
      (file = some s.state ∨ file = none ∨ file = s.stateFile ∧ savesState env s = false) := by
  unfold saveOrRemoveGcState savesState
  by_cases hempty : s.state.entries.isEmpty = true
  · simp only [if_pos hempty]
    have hsame : ∀ {file : Option GcState}, s.stateFile = file →
        s = { s with stateFile := file } := by
      rintro file rfl
      rfl
    cases hfile : s.stateFile with
    | none => exact ⟨none, hsame hfile, .inr (.inl rfl)⟩
    | some old =>
      cases hremove : env.removeState s.tick with
      | true => exact ⟨none, rfl, .inr (.inl rfl)⟩
      | false => exact ⟨some old, hsame hfile, .inr (.inr ⟨rfl, rfl⟩)⟩
  · simp only [if_neg hempty]
    cases hsave : env.save s.tick with
    | written => exact ⟨_, rfl, .inl rfl⟩
    | unopened => exact ⟨s.stateFile, rfl, .inr (.inr ⟨rfl, rfl⟩)⟩
    | damaged => exact ⟨none, rfl, .inr (.inl rfl)⟩

/-! ## Classification -/

/-- Everything the classification of the entries `es` can do. -/
structure ClassifyEffect (env : GcEnv) (names : List FileName) (s : GcRun)
    (pending : List DataObjectCheckResult) (s' : GcRun) : Prop where
  frame : s' = { s with
    report := s'.report, state := s'.state, stateDirty := s'.stateDirty, tick := s'.tick
    log := { s.log with observed := s'.log.observed } }
  tick : s.tick ≤ s'.tick
  state : ∀ n, s'.state.lookup n = s.state.lookup n ∨ n ∈ names ∧ s'.state.lookup n = none
  clean : s'.stateDirty = false → s.stateDirty = false ∧ s'.state = s.state
  others : ∀ n, n ∉ names → s'.log.observed.lookup n = s.log.observed.lookup n
  left : ∀ r ∈ pending, ∃ n t, n ∈ names ∧ Names r .objects n ∧ r.health ≠ .ok ∧
    s'.log.observed.lookup n = some (r.health, t) ∧ t ≤ env.now s'.tick
  done : ∀ n h t, s'.log.observed.lookup n = some (h, t) →
    s.log.observed.lookup n = some (h, t) ∨ s'.state.lookup n = none ∨
      ∃ r ∈ pending, Names r .objects n

theorem ClassifyEffect.refl (env : GcEnv) (s : GcRun) : ClassifyEffect env [] s [] s where
  frame := rfl
  tick := Nat.le_refl _
  state _ := .inl rfl
  clean h := ⟨h, rfl⟩
  others _ _ := rfl
  left _ hr := nomatch hr
  done _ _ _ h := .inl h

theorem ClassifyEffect.trans {names names' : List FileName} {s₁ s₂ : GcRun}
    {pending pending' : List DataObjectCheckResult} (h : ClassifyEffect env names s pending s₁)
    (h' : ClassifyEffect env names' s₁ pending' s₂) (hdisj : ∀ n ∈ names, n ∉ names') :
    ClassifyEffect env (names ++ names') s (pending ++ pending') s₂ where
  frame := by
    rw [h'.frame, h.frame]
  tick := Nat.le_trans h.tick h'.tick
  state n := by
    rcases h'.state n with h₂ | ⟨hn, h₂⟩
    · rcases h.state n with h₁ | ⟨hn, h₁⟩
      · exact .inl (h₂.trans h₁)
      · exact .inr ⟨List.mem_append_left _ hn, h₂.trans h₁⟩
    · exact .inr ⟨List.mem_append_right _ hn, h₂⟩
  clean hc := by
    obtain ⟨hc₁, heq₁⟩ := h'.clean hc
    obtain ⟨hc₀, heq₀⟩ := h.clean hc₁
    exact ⟨hc₀, heq₁.trans heq₀⟩
  others n hn := by
    rw [List.mem_append, not_or] at hn
    exact (h'.others n hn.2).trans (h.others n hn.1)
  left r hr := by
    rcases List.mem_append.mp hr with hr | hr
    · obtain ⟨n, t, hn, hnames, hne, hobs, ht⟩ := h.left r hr
      have hkeep := h'.others n (hdisj n hn)
      exact ⟨n, t, List.mem_append_left _ hn, hnames, hne, hkeep.trans hobs,
        Nat.le_trans ht (env.now_mono h'.tick)⟩
    · obtain ⟨n, t, hn, hrest⟩ := h'.left r hr
      exact ⟨n, t, List.mem_append_right _ hn, hrest⟩
  done n health t hobs := by
    rcases h'.done n health t hobs with hobs₁ | hnone | ⟨r, hr, hnames⟩
    · rcases h.done n health t hobs₁ with hobs₀ | hnone | ⟨r, hr, hnames⟩
      · exact .inl hobs₀
      · refine .inr (.inl ?_)
        rcases h'.state n with heq | ⟨-, hnone'⟩
        · exact heq.trans hnone
        · exact hnone'
      · exact .inr (.inr ⟨r, List.mem_append_left _ hr, hnames⟩)
    · exact .inr (.inl hnone)
    · exact .inr (.inr ⟨r, List.mem_append_right _ hr, hnames⟩)

theorem checkEntry_names (S : Sodium) (env : GcEnv) (s : GcRun) (n : FileName)
    (file : ObjectFile) : Names (checkEntry S env s n file) .objects n := by
  unfold checkEntry
  split
  · next hvalid =>
    obtain ⟨href, hpath⟩ := checkDataObjectByRef_names (S := S) hvalid
    exact ⟨hpath, href⟩
  · exact ⟨rfl, rfl⟩

/-- Dropping the record of a healthy object, if it has one. -/
theorem forgetIfKnown_lookup (s : GcRun) (n m : FileName) :
    (if (s.state.lookup n).isSome then s.forget n else s).state.lookup m =
      if m = n then none else s.state.lookup m := by
  by_cases hm : m = n
  · rw [if_pos hm, hm]
    cases hknown : s.state.lookup n with
    | none =>
      rw [if_neg (by rw [Option.isSome_none]; exact Bool.false_ne_true)]
      exact hknown
    | some item =>
      rw [if_pos (by rw [Option.isSome_some])]
      exact AList.lookup_erase n s.state
  · rw [if_neg hm]
    split
    · exact AList.lookup_erase_ne hm
    · rfl

theorem classifyEntry_effect (S : Sodium) (env : GcEnv) (s : GcRun) (n : FileName)
    (file : ObjectFile) :
    ClassifyEffect env [n] s (classifyEntry S env s n file).1.toList
      (classifyEntry S env s n file).2 := by
  unfold classifyEntry
  dsimp only
  split
  · -- a save in flight is passed over
    exact ⟨rfl, Nat.le_succ _, fun _ => .inl rfl, fun h => ⟨h, rfl⟩, fun _ _ => rfl,
      fun _ hr => (nomatch hr), fun _ _ _ h => .inl h⟩
  · generalize hresult : checkEntry S env { s with tick := s.tick + 1 } n file = result
    have hnames : Names result .objects n := by
      rw [← hresult]
      exact checkEntry_names S env _ n file
    have hother : ∀ m, m ∉ [n] →
        (s.log.observed.insert n (result.health, env.now s.tick)).lookup m =
          s.log.observed.lookup m := fun m hm =>
      AList.lookup_insert_ne (fun heq => hm (List.mem_singleton.mpr heq))
    have hdone : ∀ {m : FileName} {h : DataObjectHealth} {t : QDateTime},
        (s.log.observed.insert n (result.health, env.now s.tick)).lookup m = some (h, t) →
          s.log.observed.lookup m = some (h, t) ∨ m = n := by
      intro m h t hobs
      by_cases hm : m = n
      · exact .inr hm
      · exact .inl ((hother m (fun h => hm (List.mem_singleton.mp h))).symm.trans hobs)
    split
    · -- a healthy object clears its record
      have hlookup := forgetIfKnown_lookup
        { s with tick := s.tick + 1, report := s.report.tally result.health
                 log := { s.log with
                   observed := s.log.observed.insert n (result.health, env.now s.tick) } } n
      refine ⟨?_, ?_, fun m => ?_, fun hclean => ?_, fun m hm => ?_, fun _ hr => (nomatch hr),
        fun m h t hobs => ?_⟩
      · split <;> rfl
      · split <;> exact Nat.le_succ _
      · by_cases hm : m = n
        · exact .inr ⟨List.mem_singleton.mpr hm, (hlookup m).trans (if_pos hm)⟩
        · exact .inl ((hlookup m).trans (if_neg hm))
      · split at hclean
        · cases hclean
        · next hknown =>
          rw [if_neg hknown]
          exact ⟨hclean, rfl⟩
      · refine Eq.trans ?_ (hother m hm)
        split <;> rfl
      · have hobs' : (s.log.observed.insert n (result.health, env.now s.tick)).lookup m =
            some (h, t) := by
          rw [← hobs]
          split <;> rfl
        rcases hdone hobs' with hobs' | hm
        · exact .inl hobs'
        · exact .inr (.inl ((hlookup m).trans (if_pos hm)))
    · next hbad =>
      refine ⟨rfl, Nat.le_succ _, fun _ => .inl rfl, fun h => ⟨h, rfl⟩, hother, ?_, ?_⟩
      · intro r hr
        obtain rfl : r = result := List.mem_singleton.mp hr
        exact ⟨n, env.now s.tick, List.mem_singleton_self n, hnames, hbad,
          AList.lookup_insert _, env.now_mono (Nat.le_succ _)⟩
      · intro m h t hobs
        rcases hdone hobs with hobs | rfl
        · exact .inl hobs
        · exact .inr (.inr ⟨result, List.mem_singleton_self _, hnames⟩)

theorem classifyEntries_effect (S : Sodium) (env : GcEnv)
    (es : List (Sigma fun _ : FileName => ObjectFile)) (hes : (es.map Sigma.fst).Nodup)
    (s : GcRun) :
    ClassifyEffect env (es.map Sigma.fst) s (classifyEntries S env es s).1
      (classifyEntries S env es s).2 := by
  induction es generalizing s with
  | nil => exact ClassifyEffect.refl env s
  | cons e es ih =>
    obtain ⟨he, hes⟩ := List.nodup_cons.mp hes
    refine (classifyEntry_effect S env s e.1 e.2).trans (ih hes _) ?_
    intro n hn
    rw [List.mem_singleton.mp hn]
    exact he

theorem nodup_entryInfoList {β : Type} (dir : Dir β) :
    ((entryInfoList dir).map Sigma.fst).Nodup :=
  ((List.perm_insertionSort _ dir.entries).map Sigma.fst).nodup_iff.mpr dir.keys_nodup

theorem classifyDataObjects_effect (S : Sodium) (env : GcEnv) (s : GcRun) :
    ClassifyEffect env ((entryInfoList s.objects).map Sigma.fst) s
      (classifyDataObjects S env s).1 (classifyDataObjects S env s).2 :=
  classifyEntries_effect S env _ (nodup_entryInfoList _) s

/-! ## What a run carries from its start to its end -/

/-- The state file is untouched until the run saves, and records that differ from
it are marked dirty. -/
structure Carries (w : GcWorld) (s : GcRun) : Prop where
  stateFile : s.stateFile = w.stateFile
  clean : s.stateDirty = false → s.state = w.loadGcState

variable {w : GcWorld}

theorem Carries.startRun (policy : DataObjectGCPolicy) (w : GcWorld) :
    Carries w (startRun policy w) := ⟨rfl, fun _ => rfl⟩

theorem Carries.store (h : Carries w s) (n : FileName) (item : GcItem) :
    Carries w (s.store n item) := ⟨h.stateFile, fun hclean => nomatch hclean⟩

theorem Carries.moveEffect {time : QDateTime} {s' : GcRun} {moved : Bool} (h : Carries w s)
    (heffect : MoveEffect env n time s moved s') : Carries w s' := by
  rw [heffect.frame]
  exact ⟨h.stateFile, h.clean⟩

theorem Carries.lookAtObject (h : Carries w s) (result : DataObjectCheckResult) (n : FileName) :
    Carries w (lookAtObject env result n s).2 := by
  have hticked : Carries w s.ticked := ⟨h.stateFile, h.clean⟩
  unfold DataObjectOperator.lookAtObject
  rcases quarantineUnlessWaiting_cases env result.health n ⟨.objects, n⟩
      (seenItem result ⟨.objects, n⟩ n (env.now s.tick) (s.state.lookup n)) (env.now s.tick)
      (env.now (s.tick + 1)) s.ticked with
    ⟨item', -, heq⟩ | ⟨-, -, moved, s₁, heffect, ⟨-, item', -, heq⟩ | ⟨-, heq⟩⟩
  · rw [heq]
    exact hticked.store n item'
  · rw [heq]
    exact (hticked.moveEffect heffect).store n item'
  · rw [heq]
    have hstored := (hticked.moveEffect heffect).store n
      ((seenItem result ⟨.objects, n⟩ n (env.now s.tick) (s.state.lookup n)).markQuarantined n
        (env.now s.tick))
    exact ⟨hstored.stateFile, hstored.clean⟩

theorem Carries.lookAtQuarantined (h : Carries w s) (result : DataObjectCheckResult) (n : FileName) :
    Carries w (lookAtQuarantined env result n s).2 := by
  have hticked : Carries w s.ticked := ⟨h.stateFile, h.clean⟩
  unfold DataObjectOperator.lookAtQuarantined
  rcases deleteWhenServed_cases env n ⟨.quarantine, n⟩
      (seenItem result ⟨.quarantine, n⟩ n (env.now s.tick) (s.state.lookup n))
      (env.now (s.tick + 1)) s.ticked with
    heq | ⟨item', -, heq⟩ | ⟨-, report, heq⟩
  · rw [heq]
    exact hticked
  · rw [heq]
    exact hticked.store n item'
  · rw [heq]
    refine ⟨?_, fun hclean => nomatch hclean⟩
    rw [removeQuarantined_frame]
    exact h.stateFile

theorem Carries.maybeQuarantineOrDelete (h : Carries w s) {result : DataObjectCheckResult}
    {dir : ObjectDir} (hnames : Names result dir n) :
    Carries w (maybeQuarantineOrDelete env result s).2 := by
  cases dir with
  | objects =>
    rw [maybeQuarantineOrDelete_objects hnames]
    split
    · exact h
    · exact h.lookAtObject result n
  | quarantine =>
    rw [maybeQuarantineOrDelete_quarantine hnames]
    split
    · exact h
    · exact h.lookAtQuarantined result n

theorem Carries.compactGcState (h : Carries w s) : Carries w (compactGcState S env s) := by
  obtain ⟨tick, -, heq⟩ := compactGcState_frame S env s
  refine ⟨?_, fun hclean => ?_⟩
  · rw [heq]
    exact h.stateFile
  · obtain ⟨hdirty, hstate⟩ := compactGcState_clean hclean
    exact hstate.trans (h.clean hdirty)

theorem sweepResult_names (n : FileName) (file : QuarantinedFile) :
    Names (sweepResult n file) .quarantine n := ⟨rfl, rfl⟩

/-- The rule of the sweep: what every look at a quarantined file keeps. -/
theorem sweepQuarantine_rule {I : GcRun → Prop} (hs : I s)
    (hreport : ∀ s report, I s → I { s with report })
    (hlook : ∀ s n file, I s → I (lookAtQuarantined env (sweepResult n file) n s).2) :
    I (sweepQuarantine env s) := by
  unfold sweepQuarantine
  refine List.foldlRecOn _ _ hs fun s' hs' e _ => ?_
  dsimp only
  rw [maybeQuarantineOrDelete_quarantine (sweepResult_names e.1 e.2)]
  split
  · exact hreport _ _ hs'
  · exact hlook _ _ _ (hreport _ _ hs')

section End

variable (S : Sodium) (env : GcEnv) (policy : DataObjectGCPolicy) (w : GcWorld)

/-- The run as it stands when it returns or turns to saving. -/
def endOfRun : GcRun :=
  let (stopped, s) := actOnPending S env policy w
  if stopped then s
  else sweepAndCompact S env (keySetSuspect (classified S env policy w).2) s

/-- The run ends with records that it does not save. -/
def unsaved : Bool :=
  (actOnPending S env policy w).1 ||
    (endOfRun S env policy w).stateDirty && !savesState env (endOfRun S env policy w)

theorem runDataObjectGC_eq :
    runDataObjectGC S env policy w =
      if (actOnPending S env policy w).1 then endOfRun S env policy w
      else if (endOfRun S env policy w).stateDirty then
        saveOrRemoveGcState env (endOfRun S env policy w)
      else endOfRun S env policy w := by
  unfold runDataObjectGC endOfRun
  rcases actOnPending S env policy w with ⟨stopped, s⟩
  cases stopped <;> rfl

/-- The rule of a run: an invariant over the objects still to be looked at, kept by
every look, holds where a shutdown ended the run, or of the state that compaction
starts from. -/
theorem endOfRun_rule {C : GcRun → DataObjectCheckResult → Prop}
    {I : List DataObjectCheckResult → GcRun → Prop}
    (hC : BeforeEach (fun s => env.shuttingDown s.tick) (actOn env) C
      (classified S env policy w).1 (classified S env policy w).2)
    (hstart : I (classified S env policy w).1 (classified S env policy w).2)
    (hact : ∀ r rest s, I (r :: rest) s → C s r → I rest (actOn env s r))
    (hreport : ∀ s report, I [] s → I [] { s with report })
    (hlook : ∀ s n file, I [] s → I [] (lookAtQuarantined env (sweepResult n file) n s).2) :
    (actOnPending S env policy w).1 = true ∧ (∃ left, I left (endOfRun S env policy w)) ∨
      ∃ s, I [] s ∧ endOfRun S env policy w = compactGcState S env s := by
  obtain ⟨left, hleft, hdone⟩ := loopUntil_rule hact hC hstart
  have hacted : loopUntil (fun s => env.shuttingDown s.tick) (actOn env)
      (classified S env policy w).1 (classified S env policy w).2 =
        actOnPending S env policy w := rfl
  rw [hacted] at hleft hdone
  unfold endOfRun
  rcases hout : actOnPending S env policy w with ⟨stopped, s⟩
  rw [hout] at hleft hdone
  cases stopped with
  | true => exact .inl ⟨rfl, left, hleft⟩
  | false =>
    rw [hdone rfl] at hleft
    refine .inr ⟨_, ?_, rfl⟩
    split
    · exact hleft
    · exact sweepQuarantine_rule (I := I []) hleft hreport hlook

variable {S env policy w}

/-- Every object the run is to look at is named by its result. -/
theorem names_of_mem_classified {r : DataObjectCheckResult}
    (hr : r ∈ (classified S env policy w).1) : ∃ n, Names r .objects n := by
  obtain ⟨n, -, -, hnames, -⟩ :=
    (classifyDataObjects_effect S env (startRun policy w)).left r hr
  exact ⟨n, hnames⟩

theorem suppressPolicy_eq (s : GcRun) :
    ∃ policy, suppressPolicy s = { s with policy } := by
  unfold suppressPolicy
  split
  · exact ⟨_, rfl⟩
  · exact ⟨s.policy, rfl⟩

/-- A run carries its start to its end. -/
theorem carries_endOfRun : Carries w (endOfRun S env policy w) := by
  have hclassified : Carries w (classified S env policy w).2 := by
    have heffect := classifyDataObjects_effect S env (startRun policy w)
    have hstart := Carries.startRun policy w
    obtain ⟨policy', heq⟩ := suppressPolicy_eq (classifyDataObjects S env (startRun policy w)).2
    show Carries w (suppressPolicy (classifyDataObjects S env (startRun policy w)).2)
    rw [heq]
    refine ⟨?_, fun hclean => ?_⟩
    · rw [heffect.frame]
      exact hstart.stateFile
    · obtain ⟨hdirty, hstate⟩ := heffect.clean hclean
      exact hstate.trans (hstart.clean hdirty)
  have hrule := endOfRun_rule S env policy w (C := fun _ _ => True)
    (I := fun left s => Carries w s ∧ ∀ r ∈ left, ∃ n, Names r .objects n)
    (BeforeEach.trivial _ _) ⟨hclassified, fun r hr => names_of_mem_classified hr⟩
    (by
      rintro r rest s ⟨hs, hnamed⟩ -
      obtain ⟨n, hnames⟩ := hnamed r (List.mem_cons_self ..)
      exact ⟨hs.maybeQuarantineOrDelete hnames, fun r' hr' =>
        hnamed r' (List.mem_cons_of_mem _ hr')⟩)
    (fun s report hs => ⟨⟨hs.1.stateFile, hs.1.clean⟩, hs.2⟩)
    (fun s n file hs => ⟨hs.1.lookAtQuarantined _ n, hs.2⟩)
  rcases hrule with ⟨-, left, hs, -⟩ | ⟨s, ⟨hs, -⟩, heq⟩
  · exact hs
  · rw [heq]
    exact hs.compactGcState

variable (S env policy w) in
/-- A run ends as it stood, up to the state file: it holds what the run knew,
nothing, or what it held before, where the run did not save or had nothing to. -/
theorem runDataObjectGC_end :
    ∃ file, runDataObjectGC S env policy w = { endOfRun S env policy w with stateFile := file } ∧
      (file = some (endOfRun S env policy w).state ∧ (actOnPending S env policy w).1 = false ∨
        file = none ∨ file = w.stateFile ∧ (unsaved S env policy w = true ∨
          (endOfRun S env policy w).state = w.loadGcState)) := by
  have hcarries : Carries w (endOfRun S env policy w) := carries_endOfRun
  have hsame : endOfRun S env policy w =
      { endOfRun S env policy w with stateFile := w.stateFile } := by
    rw [← hcarries.stateFile]
  rw [runDataObjectGC_eq]
  cases hstop : (actOnPending S env policy w).1 with
  | true =>
    refine ⟨w.stateFile, hsame, .inr (.inr ⟨rfl, .inl ?_⟩)⟩
    rw [unsaved, hstop, Bool.true_or]
  | false =>
    rw [if_neg Bool.false_ne_true]
    cases hdirty : (endOfRun S env policy w).stateDirty with
    | false => exact ⟨w.stateFile, hsame, .inr (.inr ⟨rfl, .inr (hcarries.clean hdirty)⟩)⟩
    | true =>
      obtain ⟨file, heq, hfile⟩ := saveOrRemoveGcState_cases env (endOfRun S env policy w)
      refine ⟨file, heq, ?_⟩
      rcases hfile with hfile | hfile | ⟨hfile, hsaves⟩
      · exact .inl ⟨hfile, rfl⟩
      · exact .inr (.inl hfile)
      · refine .inr (.inr ⟨hfile.trans hcarries.stateFile, .inl ?_⟩)
        rw [unsaved, hdirty, hsaves, Bool.not_false, Bool.and_self, Bool.or_true]

end End

/-! ## Between runs -/

/-- A record found after a change from outside was there before it. -/
theorem loadGcState_outside {sys : GcSystem} {change : Outside}
    (h : (sys.step S env (.outside change)).world.loadGcState.lookup n = some item) :
    change.stateLost = false ∧ sys.world.loadGcState.lookup n = some item := by
  have hfile : (sys.step S env (.outside change)).world.stateFile =
      if change.stateLost then none else sys.world.stateFile := rfl
  rw [GcWorld.loadGcState, hfile] at h
  cases hlost : change.stateLost with
  | true =>
    rw [hlost] at h
    cases (AList.lookup_empty n).symm.trans h
  | false =>
    rw [hlost] at h
    exact ⟨rfl, h⟩

end Effects

/-- A machine on which nothing fails, without keys; `days` days pass with every
`readings` readings of the clock. -/
def calmEnv (readings days : Nat) : GcEnv where
  now t := t / readings * (days * 86400000)
  now_mono _ _ h := Nat.mul_le_mul_right _ (Nat.div_le_div_right h)
  keys _ := ⟨[], [], [], .single⟩
  reads _ _ := true
  jsonParses _ := true
  shuttingDown _ := false
  mkpath _ := true
  remove _ := true
  rename _ := true
  copy _ := true
  removeSource _ := true
  removeState _ := true
  save _ := .written

end DataObjectOperator

end GpgFrontend
