import GpgFrontend.DataObject.GCRuns

/-!
# How long a file stays in quarantine

A quarantined file is removed once the days counted from its record reach the
quarantine grace. The count is right as long as no record counts from before its
file came in (`Counted`). Three things break that: an object moved over a
quarantined file of the same name, whose content is gone at once; a run that moves
a file and ends without saving, so that the record still counts from when the
object was first seen; and a copy left in quarantine under such a record.
-/

namespace GpgFrontend

namespace DataObjectOperator

variable {S : Sodium} {env : GcEnv}

/-- The content was in quarantine for the grace of the policy that deleted it. -/
def GcDeletion.Served (d : GcDeletion) : Prop := d.grace ≤ daysTo d.file.entered d.time

/-! ## The condition -/

/-- A move that is about to be made: a file it replaces has served its grace, and
the record it leaves does not count from before the day the file came in. -/
def MoveKept (env : GcEnv) (s : GcRun) (result : DataObjectCheckResult) : Prop :=
  movesObject env s result = true →
    (env.remove (s.tick + 2) = true → ∀ file ∈ s.quarantined result.refHex,
      s.policy.quarantineGraceDays ≤ daysTo file.entered (env.now (s.tick + 1))) ∧
    ((env.remove (s.tick + 2) = true ∨ s.quarantined result.refHex = none) →
      (env.completes (s.tick + 2) = true →
        dayOf (env.now (s.tick + 1)) ≤ dayOf (env.now s.tick)) ∧
      (env.halfMade (s.tick + 2) = true →
        dayOf (env.now (s.tick + 1)) ≤ dayOf (objectItem env s result).quarantineBase))

instance (env : GcEnv) (s : GcRun) (result : DataObjectCheckResult) :
    Decidable (MoveKept env s result) :=
  inferInstanceAs (Decidable (_ → _ ∧ _))

/-- A run that ends unsaved: no file it put into quarantine has a record in the
state file that counts from an earlier day. -/
def UnsavedKept (S : Sodium) (env : GcEnv) (policy : DataObjectGCPolicy) (w : GcWorld) : Prop :=
  unsaved S env policy w = true →
    ∀ e ∈ ((endOfRun S env policy w).quarantine.getD ∅).entries,
      w.quarantined e.1 = some e.2 ∨
        ∀ item ∈ w.loadGcState.lookup e.1, dayOf e.2.entered ≤ dayOf item.quarantineBase

instance (policy : DataObjectGCPolicy) (w : GcWorld) :
    Decidable (UnsavedKept S env policy w) :=
  inferInstanceAs (Decidable (_ → _))

/-- Content that appears in quarantine from outside is not met by a record that
counts from an earlier day. -/
def OutsideKept (env : GcEnv) (w : GcWorld) (change : Outside) : Prop :=
  change.stateLost = true ∨ ∀ dir ∈ change.quarantine, ∀ e ∈ dir.entries,
    (w.quarantined e.1).map (·.content) = some e.2 ∨
      ∀ item ∈ w.loadGcState.lookup e.1, dayOf (env.now w.tick) ≤ dayOf item.quarantineBase

instance (w : GcWorld) (change : Outside) : Decidable (OutsideKept env w change) :=
  inferInstanceAs (Decidable (_ ∨ _))

/-- The condition on an episode, in the state it starts from. -/
def QuarantineKept (S : Sodium) (env : GcEnv) (sys : GcSystem) : GcEpisode → Prop
  | .run policy =>
    BeforeEach (fun s => env.shuttingDown s.tick) (actOn env) (MoveKept env)
      (classified S env policy sys.world).1 (classified S env policy sys.world).2 ∧
    UnsavedKept S env policy sys.world
  | .outside change => OutsideKept env sys.world change

/-! ## The invariant -/

/-- No file in quarantine is from the future, and no record of one counts from
before the day it came in. -/
structure Counted (env : GcEnv) (w : GcWorld) (state : GcState) : Prop where
  entered : ∀ n file, w.quarantined n = some file → file.entered ≤ env.now w.tick
  counted : ∀ n file item, w.quarantined n = some file → state.lookup n = some item →
    dayOf file.entered ≤ dayOf item.quarantineBase

/-- A run that counts right, and has deleted only what served its grace. -/
structure Honest (env : GcEnv) (s : GcRun) : Prop extends Counted env s.toGcWorld s.state where
  served : ∀ d ∈ s.log.deleted, d.Served

variable {s : GcRun}

/-- A step that touches one name only is judged there. -/
theorem Honest.frame {s' : GcRun} (h : Honest env s) (n : FileName) (htick : s.tick ≤ s'.tick)
    (hq : ∀ m, m ≠ n → s'.quarantined m = s.quarantined m)
    (hstate : ∀ m, m ≠ n → s'.state.lookup m = s.state.lookup m)
    (hn : ∀ file, s'.quarantined n = some file → file.entered ≤ env.now s'.tick ∧
      ∀ item, s'.state.lookup n = some item → dayOf file.entered ≤ dayOf item.quarantineBase)
    (hserved : ∀ d ∈ s'.log.deleted, d ∈ s.log.deleted ∨ d.Served) : Honest env s' := by
  refine ⟨⟨fun m file hfile => ?_, fun m file item hfile hitem => ?_⟩, fun d hd => ?_⟩
  · by_cases hm : m = n
    · subst hm
      exact (hn file hfile).1
    · exact Nat.le_trans (h.entered m file ((hq m hm).symm.trans hfile)) (env.now_mono htick)
  · by_cases hm : m = n
    · subst hm
      exact (hn file hfile).2 item hitem
    · exact h.counted m file item ((hq m hm).symm.trans hfile) ((hstate m hm).symm.trans hitem)
  · exact (hserved d hd).elim (h.served d) id

/-- The record a look starts from does not count from before the file came in: it
is the one there was, or begins now. -/
theorem Honest.le_seenItem (h : Honest env s) (result : DataObjectCheckResult) (path : ObjectPath)
    {n : FileName} {file : QuarantinedFile} (hfile : s.quarantined n = some file) :
    dayOf file.entered ≤
      dayOf (seenItem result path n (env.now s.tick) (s.state.lookup n)).quarantineBase := by
  cases hknown : s.state.lookup n with
  | none =>
    rw [seenItem_base_none]
    exact dayOf_mono (h.entered n file hfile)
  | some item =>
    rw [seenItem_base_some]
    exact h.counted n file item hfile hknown

theorem Honest.ticked (h : Honest env s) : Honest env s.ticked :=
  ⟨⟨fun n file hfile =>
      Nat.le_trans (h.entered n file hfile) (env.now_mono (Nat.le_add_right _ 2)),
    h.counted⟩, h.served⟩

/-- Writing the record of a look. -/
theorem Honest.note (h : Honest env s) (result : DataObjectCheckResult) (path : ObjectPath)
    {n : FileName} {item' : GcItem}
    (hagrees : item'.Agrees (seenItem result path n (env.now s.tick) (s.state.lookup n))) :
    Honest env (s.ticked.store n item') := by
  refine h.ticked.frame n (Nat.le_refl _) (fun _ _ => rfl)
    (fun m hm => AList.lookup_insert_ne hm) (fun file hfile => ?_) (fun d hd => .inl hd)
  refine ⟨h.ticked.entered n file hfile, fun item hitem => ?_⟩
  obtain rfl : item' = item := Option.some.inj ((AList.lookup_insert _).symm.trans hitem)
  rw [hagrees.quarantineBase]
  exact h.le_seenItem result path hfile

/-- A look at a quarantined file: it is removed only when its own days are up. -/
theorem Honest.lookAtQuarantined (h : Honest env s) (result : DataObjectCheckResult) (n : FileName) :
    Honest env (lookAtQuarantined env result n s).2 := by
  unfold DataObjectOperator.lookAtQuarantined
  rcases deleteWhenServed_cases env n ⟨.quarantine, n⟩
      (seenItem result ⟨.quarantine, n⟩ n (env.now s.tick) (s.state.lookup n))
      (env.now (s.tick + 1)) s.ticked with
    heq | ⟨item', hagrees, heq⟩ | ⟨hage, report, heq⟩
  · rw [heq]
    exact h.ticked
  · rw [heq]
    exact h.note result _ hagrees
  · rw [heq]
    have hq := fun m => quarantined_removeQuarantined s.ticked n m (env.now (s.tick + 1))
    refine h.ticked.frame n ?_ (fun m hm => (hq m).trans (if_neg hm)) (fun m hm => ?_)
      (fun file hfile => ?_) (fun d hd => ?_)
    · rw [removeQuarantined_frame]
      exact Nat.le_refl _
    · rw [removeQuarantined_frame]
      exact AList.lookup_erase_ne hm
    · exact nomatch ((hq n).trans (if_pos rfl)).symm.trans hfile
    · cases hfile : s.ticked.quarantined n with
      | none =>
        rw [removeQuarantined_of_none hfile] at hd
        exact .inl hd
      | some file =>
        rw [removeQuarantined_of_some hfile] at hd
        rcases List.mem_cons.mp hd with rfl | hd
        · exact .inr (Int.le_trans hage
            (daysTo_le_of_dayOf_le (h.le_seenItem result _ hfile) _))
        · exact .inl hd

/-- A look at an object, under the condition: where it puts a file into quarantine,
the record counts from that day, and what it replaced had served. -/
theorem Honest.actOn (h : Honest env s) {result : DataObjectCheckResult} {n : FileName}
    (hnames : Names result .objects n) (hkept : MoveKept env s result) :
    Honest env (actOn env s result) := by
  rcases actOn_cases hnames s with
    ⟨heq, -⟩ | ⟨-, item', hagrees, heq⟩ | ⟨hmoves, moved, s₁, heffect, hout⟩
  · rw [heq]
    exact h
  · rw [heq]
    rw [objectItem, hnames.refHex] at hagrees
    exact h.note result _ hagrees
  · obtain ⟨hreplaced, harrives⟩ := hkept hmoves
    rw [hnames.refHex] at hreplaced harrives
    have hserved : ∀ d ∈ s₁.log.deleted, d ∈ s.log.deleted ∨ d.Served := by
      intro d hd
      rcases heffect.deleted with hsame | ⟨hremove, file, hfile, hcons⟩
      · rw [hsame] at hd
        exact .inl hd
      · rw [hcons] at hd
        rcases List.mem_cons.mp hd with rfl | hd
        · exact .inr (hreplaced hremove file hfile)
        · exact .inl hd
    have hentered : ∀ file, s₁.quarantined n = some file → file.entered ≤ env.now s₁.tick := by
      have htick : s₁.tick = s.tick + 2 := by rw [heffect.frame]; rfl
      rw [htick]
      intro file hfile
      rcases heffect.here with ⟨-, hsame | hgone⟩ | ⟨content, hin, -⟩
      · exact h.ticked.entered n file (hsame.symm.trans hfile)
      · exact nomatch hgone.symm.trans hfile
      · rw [← Option.some.inj (hin.symm.trans hfile)]
        exact env.now_mono (Nat.le_succ _)
    -- whatever is stored for `n`, it is enough that it does not count from too early
    have hstored : ∀ s' item, (∀ m, s'.quarantined m = s₁.quarantined m) → s'.tick = s₁.tick →
        s'.state = s₁.state.insert n item → s'.log.deleted = s₁.log.deleted →
        (∀ file, s₁.quarantined n = some file → dayOf file.entered ≤ dayOf item.quarantineBase) →
        Honest env s' := by
      intro s' item hq htick hstate hdeleted hbase
      refine h.ticked.frame n ?_ (fun m hm => (hq m).trans (heffect.others m hm)) (fun m hm => ?_)
        (fun file hfile => ?_) (fun d hd => hserved d (hdeleted ▸ hd))
      · rw [htick, heffect.frame]
      · rw [hstate, AList.lookup_insert_ne hm, heffect.frame]
      · rw [hq] at hfile
        refine ⟨htick ▸ hentered file hfile, fun item' hitem => ?_⟩
        rw [hstate, AList.lookup_insert] at hitem
        exact Option.some.inj hitem ▸ hbase file hfile
    rcases hout with ⟨rfl, item', hagrees, heq⟩ | ⟨rfl, heq⟩
    · rw [heq]
      refine hstored _ item' (fun _ => rfl) rfl rfl rfl fun file hfile => ?_
      rw [hagrees.quarantineBase]
      rcases heffect.here with ⟨-, hsame | hgone⟩ | ⟨content, hin, hfree, ⟨hmoved, -⟩ | ⟨-, hhalf⟩⟩
      · rw [objectItem, hnames.refHex]
        exact h.le_seenItem result _ (hsame.symm.trans hfile)
      · exact nomatch hgone.symm.trans hfile
      · cases hmoved
      · rw [← Option.some.inj (hin.symm.trans hfile)]
        exact (harrives hfree).2 hhalf
    · rw [heq]
      refine hstored _ _ (fun _ => rfl) rfl rfl rfl fun file hfile => ?_
      rcases heffect.here with ⟨hmoved, -⟩ | ⟨content, hin, hfree, ⟨-, hcompletes⟩ | ⟨hmoved, -⟩⟩
      · cases hmoved
      · rw [← Option.some.inj (hin.symm.trans hfile)]
        exact (harrives hfree).1 hcompletes
      · cases hmoved

variable {policy : DataObjectGCPolicy}

/-- Classification clears records and reads the clock. -/
theorem Honest.classified {w : GcWorld} (h : Counted env w w.loadGcState) :
    Honest env (classified S env policy w).2 := by
  have heffect := classifyDataObjects_effect S env (startRun policy w)
  obtain ⟨policy', heq⟩ := suppressPolicy_eq (classifyDataObjects S env (startRun policy w)).2
  show Honest env (suppressPolicy (classifyDataObjects S env (startRun policy w)).2)
  rw [heq]
  have hq : ∀ n, (classifyDataObjects S env (startRun policy w)).2.quarantined n =
      w.quarantined n := by
    intro n
    rw [heffect.frame]
    rfl
  refine ⟨⟨fun n file hfile => ?_, fun n file item hfile hitem => ?_⟩, fun d hd => ?_⟩
  · exact Nat.le_trans (h.entered n file ((hq n).symm.trans hfile)) (env.now_mono heffect.tick)
  · rcases heffect.state n with hsame | ⟨-, hnone⟩
    · exact h.counted n file item ((hq n).symm.trans hfile) (hsame.symm.trans hitem)
    · exact nomatch hnone.symm.trans hitem
  · rw [heffect.frame] at hd
    cases hd

theorem Honest.compactGcState (h : Honest env s) : Honest env (compactGcState S env s) := by
  obtain ⟨tick, htick, heq⟩ := compactGcState_frame S env s
  refine ⟨⟨fun n file hfile => ?_, fun n file item hfile hitem => ?_⟩, fun d hd => ?_⟩
  · rw [heq] at hfile ⊢
    exact Nat.le_trans (h.entered n file hfile) (env.now_mono htick)
  · rw [heq] at hfile
    exact h.counted n file item hfile (compactGcState_lookup hitem).1
  · rw [heq] at hd
    exact h.served d hd

/-- A run whose moves meet the condition counts right to its end. -/
theorem Honest.endOfRun {w : GcWorld} (h : Counted env w w.loadGcState)
    (hmoves : BeforeEach (fun s => env.shuttingDown s.tick) (DataObjectOperator.actOn env)
      (MoveKept env) (DataObjectOperator.classified S env policy w).1
      (DataObjectOperator.classified S env policy w).2) : Honest env (endOfRun S env policy w) := by
  have hrule := endOfRun_rule S env policy w
    (I := fun left s => Honest env s ∧ ∀ r ∈ left, ∃ n, Names r .objects n)
    hmoves ⟨Honest.classified h, fun r hr => names_of_mem_classified hr⟩
    (by
      rintro r rest s ⟨hs, hnamed⟩ hkept
      obtain ⟨n, hnames⟩ := hnamed r (List.mem_cons_self ..)
      exact ⟨hs.actOn hnames hkept, fun r' hr' => hnamed r' (List.mem_cons_of_mem _ hr')⟩)
    (fun s report hs => ⟨⟨⟨hs.1.entered, hs.1.counted⟩, hs.1.served⟩, hs.2⟩)
    (fun s n file hs => ⟨hs.1.lookAtQuarantined _ n, hs.2⟩)
  rcases hrule with ⟨-, left, hs, -⟩ | ⟨s, ⟨hs, -⟩, heq⟩
  · exact hs
  · rw [heq]
    exact hs.compactGcState

/-! ## All runs -/

/-- The disk counts right between runs, and every deletion so far was of content
that served its grace. -/
structure HonestSystem (env : GcEnv) (sys : GcSystem) : Prop where
  counted : Counted env sys.world sys.world.loadGcState
  served : ∀ log ∈ sys.history, ∀ d ∈ log.deleted, d.Served

theorem HonestSystem.empty (env : GcEnv) : HonestSystem env .empty where
  counted := by
    refine ⟨fun n file hfile => ?_, fun n file item hfile => ?_⟩
    · exact nomatch (AList.lookup_empty (β := fun _ : FileName => QuarantinedFile) n).symm.trans hfile
    · exact nomatch (AList.lookup_empty (β := fun _ : FileName => QuarantinedFile) n).symm.trans hfile
  served log hlog := nomatch hlog

theorem HonestSystem.run {sys : GcSystem} (h : HonestSystem env sys)
    (hkept : QuarantineKept S env sys (.run policy)) :
    HonestSystem env (sys.step S env (.run policy)) := by
  obtain ⟨hmoves, hunsaved⟩ := hkept
  have hend := Honest.endOfRun h.counted hmoves
  obtain ⟨file, heq, hfile⟩ := runDataObjectGC_end S env policy sys.world
  unfold GcSystem.step
  dsimp only
  rw [heq]
  refine ⟨⟨hend.entered, ?_⟩, fun log hlog => ?_⟩
  · show ∀ n file' item, (endOfRun S env policy sys.world).quarantined n = some file' →
      (file.getD ∅).lookup n = some item → dayOf file'.entered ≤ dayOf item.quarantineBase
    rcases hfile with ⟨rfl, -⟩ | rfl | ⟨rfl, hun | hsame⟩
    · exact hend.counted
    · intro n file' item _ hitem
      exact nomatch (AList.lookup_empty (β := fun _ : FileName => GcItem) n).symm.trans hitem
    · -- the old records meet the new files
      intro n file' item hfile' hitem
      rcases hunsaved hun ⟨n, file'⟩ (AList.mem_lookup_iff.mp hfile') with hold | hrecord
      · exact h.counted.counted n file' item hold hitem
      · exact hrecord item hitem
    · intro n file' item hfile' hitem
      refine hend.counted n file' item hfile' ?_
      rw [hsame]
      exact hitem
  · rcases List.mem_cons.mp hlog with rfl | hlog
    · exact hend.served
    · exact h.served log hlog

/-- A file found in quarantine is the one that was there, or has come in now. -/
theorem settle_lookup {w : GcWorld} {now : QDateTime} {dir : Dir Bytes} {n : FileName}
    {file : QuarantinedFile} (h : (settle w now dir).lookup n = some file) :
    dir.lookup n = some file.content ∧ (w.quarantined n = some file ∨
      file.entered = now ∧ (w.quarantined n).map (·.content) ≠ some file.content) := by
  obtain ⟨content, hcontent, heq⟩ := AList.lookup_mapValues.mp h
  cases hold : w.quarantined n with
  | none =>
    rw [hold] at heq
    rw [← heq]
    exact ⟨hcontent, .inr ⟨rfl, fun h => nomatch h⟩⟩
  | some old =>
    rw [hold] at heq
    dsimp only at heq
    split at heq
    · next hsame =>
      rw [← heq, hsame]
      exact ⟨hcontent, .inl rfl⟩
    · next hother =>
      rw [← heq]
      exact ⟨hcontent, .inr ⟨rfl, fun h => hother (Option.some.inj h)⟩⟩

theorem HonestSystem.outside {sys : GcSystem} (h : HonestSystem env sys) {change : Outside}
    (hkept : OutsideKept env sys.world change) :
    HonestSystem env (sys.step S env (.outside change)) := by
  have hfound : ∀ {n file}, (sys.step S env (.outside change)).world.quarantined n = some file →
      ∃ dir, change.quarantine = some dir ∧ dir.lookup n = some file.content ∧
        (sys.world.quarantined n = some file ∨ file.entered = env.now sys.world.tick ∧
          (sys.world.quarantined n).map (·.content) ≠ some file.content) := by
    intro n file hfile
    have hsettled : (sys.step S env (.outside change)).world.quarantine =
        change.quarantine.map (settle sys.world (env.now sys.world.tick)) := rfl
    cases hdir : change.quarantine with
    | none =>
      rw [hdir] at hsettled
      rw [quarantined_of_none hsettled] at hfile
      cases hfile
    | some dir =>
      rw [hdir] at hsettled
      rw [quarantined_of_some _ hsettled] at hfile
      exact ⟨dir, rfl, settle_lookup hfile⟩
  refine ⟨⟨fun n file hfile => ?_, fun n file item hfile hitem => ?_⟩, h.served⟩
  · obtain ⟨-, -, -, hold | ⟨hnew, -⟩⟩ := hfound hfile
    · exact h.counted.entered n file hold
    · exact Nat.le_of_eq hnew
  · obtain ⟨dir, hdir, hcontent, hold⟩ := hfound hfile
    have hrecord := loadGcState_outside hitem
    rcases hold with hold | ⟨hnew, hother⟩
    · exact h.counted.counted n file item hold hrecord.2
    · rcases hkept with hlost | hkept
      · rw [hrecord.1] at hlost
        cases hlost
      · rcases hkept dir hdir ⟨n, file.content⟩ (AList.mem_lookup_iff.mp hcontent) with
          hsame | hcounts
        · exact absurd hsame hother
        · rw [hnew]
          exact hcounts item hrecord.2

/-- In every sequence of runs, with any clock and anything happening to the files
between them, whose steps meet `QuarantineKept`, the collector deletes only content
that has been in quarantine for the grace days of its policy. -/
theorem quarantine_honoured (S : Sodium) (env : GcEnv) {sys : GcSystem}
    (h : ReachableUnder (GcSystem.step S env) (QuarantineKept S env) .empty sys) :
    ∀ log ∈ sys.history, ∀ d ∈ log.deleted, d.grace ≤ daysTo d.file.entered d.time :=
  (h.inv (HonestSystem.empty env) fun _ episode hs hkept =>
    match episode with
    | .run _ => hs.run hkept
    | .outside _ => hs.outside hkept).served

/-- One badly named file, "a", appears among the objects, with nothing or with
`[1]` under the same name in quarantine. -/
def strayFile (content : Bytes) (quarantined : Bool) : GcEpisode :=
  .outside ⟨AList.singleton [0x61] ⟨content, none⟩,
    if quarantined then some (AList.singleton [0x61] [1]) else none, false⟩

/-- A stray file that is quarantined on one day and deleted forty days later. -/
def strayFileServes : GcSystem :=
  [strayFile [1] false, .run normalPolicy, .run normalPolicy].foldl
    (GcSystem.step labelSodium (calmEnv 6 40)) .empty

theorem quarantine_honoured_stray_file :
    (∃ log ∈ strayFileServes.history, log.deleted ≠ []) ∧
      ∀ log ∈ strayFileServes.history, ∀ d ∈ log.deleted, d.grace ≤ daysTo d.file.entered d.time := by
  refine ⟨by decide, quarantine_honoured labelSodium (calmEnv 6 40) ?_⟩
  refine .next (.run normalPolicy) (.next (.run normalPolicy) (.next (strayFile [1] false) .start ?_)
    ?_) ?_
  · show OutsideKept (calmEnv 6 40) _ _
    decide
  · constructor <;> decide
  · constructor <;> decide

/-- A second stray file of the same name, a day later, takes the place of the first
in quarantine: the first is gone after one day of thirty. -/
theorem not_quarantine_honoured :
    ¬ ∀ (S : Sodium) (env : GcEnv) (sys : GcSystem),
      ReachableUnder (GcSystem.step S env) (fun _ _ => True) .empty sys →
        ∀ log ∈ sys.history, ∀ d ∈ log.deleted, d.grace ≤ daysTo d.file.entered d.time := by
  intro h
  have hreach := h labelSodium (calmEnv 6 1) _
    (.next (.run normalPolicy) (.next (strayFile [2] true) (.next (.run normalPolicy)
      (.next (strayFile [1] false) .start trivial) trivial) trivial) trivial)
  revert hreach
  decide

end DataObjectOperator

end GpgFrontend
