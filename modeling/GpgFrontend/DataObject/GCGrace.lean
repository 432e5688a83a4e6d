import GpgFrontend.DataObject.GCRuns

/-!
# How long an object is unusable before it is moved

An object is to be moved for a reason only when every run over the grace days of
that reason saw it so. The record of an object says why it was last noted and when
it was first seen; the collector measures the second and takes it for the age of
the first. That is right as long as the record is backed (`Backed`): the latest
runs, back to the day it counts from, all observed its reason. What breaks it: only
the missing key is made to wait; "first_seen" stays when the reason changes, or
when the name returns after a quarantined one; and a run that ends unsaved leaves
records of objects it saw otherwise, or did not see.
-/

namespace GpgFrontend

namespace DataObjectOperator

/-- What one run made of each object, and when. -/
abbrev Observations : Type := Dir (DataObjectHealth × QDateTime)

/-- Every run from the one that observed `n` at `since` to the latest, which stands
first, observed `n` to be `h`. -/
inductive HeldSince (n : FileName) (h : DataObjectHealth) :
    QDateTime → List Observations → Prop
  | first {run : Observations} {past : List Observations} {since : QDateTime} :
      run.lookup n = some (h, since) → HeldSince n h since (run :: past)
  | again {run : Observations} {past : List Observations} {t since : QDateTime} :
      run.lookup n = some (h, t) → HeldSince n h since past → HeldSince n h since (run :: past)

/-- The reason of a move held for the grace its policy has for it. -/
def GcMove.Honoured (m : GcMove) (runs : List Observations) : Prop :=
  ∃ since, HeldSince m.name m.reason since runs ∧ m.grace ≤ daysTo since m.time

/-- The record is one of the object `n` itself, never yet quarantined. -/
def GcItem.Tracks (n : FileName) (item : GcItem) : Prop :=
  item.path = ⟨.objects, n⟩ ∧ item.quarantinePath = none

instance (n : FileName) (item : GcItem) : Decidable (item.Tracks n) :=
  inferInstanceAs (Decidable (_ ∧ _))

/-! ## The condition -/

variable {S : Sodium} {env : GcEnv}

/-- A look at an object: the record it has is its own and says the same reason, or
counts from this day on; and it moves the object for another reason than a missing
key only when the grace of that reason is up. -/
def LookKept (env : GcEnv) (s : GcRun) (result : DataObjectCheckResult) : Prop :=
  (∀ item ∈ s.state.lookup result.refHex,
    item.Tracks result.refHex ∧ item.reason = result.health ∨
      dayOf (env.now s.tick) ≤ dayOf item.firstSeen) ∧
  (movesObject env s result = true → result.health ≠ .missingKey →
    graceDaysFor result.health s.policy ≤
      daysTo (objectItem env s result).firstSeen (env.now (s.tick + 1)))

instance (s : GcRun) (result : DataObjectCheckResult) : Decidable (LookKept env s result) :=
  inferInstanceAs (Decidable (_ ∧ _))

/-- No object with a record of its own is passed over as a save in flight. -/
def SeenKept (s : GcRun) : Prop :=
  ∀ e ∈ s.state.entries, e.2.Tracks e.1 → (s.objects.lookup e.1).isSome = true →
    (s.log.observed.lookup e.1).isSome = true

instance (s : GcRun) : Decidable (SeenKept s) :=
  inferInstanceAs (Decidable (∀ e ∈ s.state.entries, _))

/-- A run that ends unsaved has seen every object with a record of its own in the
state file, and for the reason of that record. -/
def UnsavedSeen (S : Sodium) (env : GcEnv) (policy : DataObjectGCPolicy) (w : GcWorld) : Prop :=
  unsaved S env policy w = true → ∀ e ∈ w.loadGcState.entries, e.2.Tracks e.1 →
    ((endOfRun S env policy w).log.observed.lookup e.1).map Prod.fst = some e.2.reason

instance (policy : DataObjectGCPolicy) (w : GcWorld) :
    Decidable (UnsavedSeen S env policy w) :=
  inferInstanceAs (Decidable (_ → _))

/-- The condition on an episode, in the state it starts from. -/
def GraceKept (S : Sodium) (env : GcEnv) (sys : GcSystem) : GcEpisode → Prop
  | .run policy =>
    BeforeEach (fun s => env.shuttingDown s.tick) (actOn env) (LookKept env)
      (classified S env policy sys.world).1 (classified S env policy sys.world).2 ∧
    SeenKept (classified S env policy sys.world).2 ∧
    UnsavedSeen S env policy sys.world
  | .outside _ => True

/-! ## The invariant -/

/-- The runs, back to the day the record counts from, all observed its reason. -/
def Backed (runs : List Observations) (n : FileName) (item : GcItem) : Prop :=
  ∃ since, HeldSince n item.reason since runs ∧ dayOf since ≤ dayOf item.firstSeen

theorem Backed.again {run : Observations} {past : List Observations} {n : FileName}
    {item : GcItem} (h : Backed past n item)
    (hrun : (run.lookup n).map Prod.fst = some item.reason) : Backed (run :: past) n item := by
  obtain ⟨since, hheld, hday⟩ := h
  obtain ⟨⟨reason, t⟩, hlookup, rfl⟩ := Option.map_eq_some_iff.mp hrun
  exact ⟨since, .again hlookup hheld, hday⟩

/-- A run under way, with the objects still to be looked at: each of them was
observed as its result says, every record of an object's own is backed (by the runs
before, until the object is looked at) or has lost its object, and every move so
far honoured its grace. -/
structure Watching (env : GcEnv) (past : List Observations) (run : Observations)
    (left : List DataObjectCheckResult) (s : GcRun) : Prop where
  observed : s.log.observed = run
  pending : ∀ r ∈ left, ∃ n t, Names r .objects n ∧ r.health ≠ .ok ∧
    run.lookup n = some (r.health, t) ∧ t ≤ env.now s.tick
  backed : ∀ n item, s.state.lookup n = some item → item.Tracks n →
    (∃ r ∈ left, Names r .objects n) ∧ Backed past n item ∨ Backed (run :: past) n item ∨
      s.objects.lookup n = none
  honoured : ∀ m ∈ s.log.moved, m.Honoured (run :: past)

section Watching

variable {past : List Observations} {run : Observations} {left : List DataObjectCheckResult}

variable {r : DataObjectCheckResult}

theorem Names.unique {dir dir' : ObjectDir} {n n' : FileName} (h : Names r dir n)
    (h' : Names r dir' n') : n = n' := h.refHex.symm.trans h'.refHex

variable {s : GcRun}

/-- The record a look starts from is backed, this run included. -/
theorem Watching.backed_objectItem {rest : List DataObjectCheckResult}
    (h : Watching env past run (r :: rest) s) (hkept : LookKept env s r)
    (hthere : (s.objects.lookup r.refHex).isSome = true) :
    Backed (run :: past) r.refHex (objectItem env s r) := by
  obtain ⟨n, t, hnames, -, hobserved, ht⟩ := h.pending r (List.mem_cons_self ..)
  obtain rfl : r.refHex = n := hnames.refHex
  have hrun : (run.lookup r.refHex).map Prod.fst = some r.health := by rw [hobserved]; rfl
  cases hknown : s.state.lookup r.refHex with
  | none =>
    refine ⟨t, .first hobserved, ?_⟩
    rw [objectItem, hknown]
    exact dayOf_mono ht
  | some item =>
    have hfirst : (objectItem env s r).firstSeen = item.firstSeen := by
      rw [objectItem, hknown]
      rfl
    rcases hkept.1 item hknown with ⟨htracks, hreason⟩ | hday
    · have hbacked : Backed (run :: past) r.refHex item := by
        rcases h.backed r.refHex item hknown htracks with ⟨-, hpast⟩ | hnow | hgone
        · exact hpast.again (hreason ▸ hrun)
        · exact hnow
        · rw [hgone] at hthere
          cases hthere
      obtain ⟨since, hheld, hday⟩ := hbacked
      rw [hreason] at hheld
      exact ⟨since, hheld, hfirst ▸ hday⟩
    · exact ⟨t, .first hobserved, Nat.le_trans (dayOf_mono ht) (hfirst ▸ hday)⟩

/-- A step that touches the record of one name only, and takes objects away at
most, is judged at that name. -/
theorem Watching.frame {left' : List DataObjectCheckResult} {s' : GcRun}
    (h : Watching env past run left s) (n : FileName) (htick : s.tick ≤ s'.tick)
    (hsub : ∀ r ∈ left', r ∈ left) (hleft : ∀ r ∈ left, ¬ Names r .objects n → r ∈ left')
    (hobserved : s'.log.observed = s.log.observed)
    (hobjects : ∀ m, s'.objects.lookup m = s.objects.lookup m ∨ s'.objects.lookup m = none)
    (hstate : ∀ m, m ≠ n → s'.state.lookup m = s.state.lookup m)
    (hn : ∀ item, s'.state.lookup n = some item → item.Tracks n →
      Backed (run :: past) n item ∨ s'.objects.lookup n = none)
    (hmoved : ∀ m ∈ s'.log.moved, m ∈ s.log.moved ∨ m.Honoured (run :: past)) :
    Watching env past run left' s' := by
  refine ⟨hobserved.trans h.observed, fun r hr => ?_, fun m item hitem htracks => ?_,
    fun m hm => ?_⟩
  · obtain ⟨k, t, hnames, hbad, hlookup, ht⟩ := h.pending r (hsub r hr)
    exact ⟨k, t, hnames, hbad, hlookup, Nat.le_trans ht (env.now_mono htick)⟩
  · by_cases hm : m = n
    · subst hm
      exact .inr (hn item hitem htracks)
    · rcases h.backed m item ((hstate m hm).symm.trans hitem) htracks with
        ⟨⟨r, hr, hnames⟩, hpast⟩ | hnow | hgone
      · refine .inl ⟨⟨r, hleft r hr fun hnames' => hm (hnames.unique hnames'), hnames⟩, hpast⟩
      · exact .inr (.inl hnow)
      · rcases hobjects m with hsame | hnone
        · exact .inr (.inr (hsame.trans hgone))
        · exact .inr (.inr hnone)
  · exact (hmoved m hm).elim (h.honoured m) id

/-- The verdict to move was given after the grace of a missing key. -/
theorem grace_le_of_verdict {policy : DataObjectGCPolicy} {age : Int}
    (h : verdict policy .missingKey age = .move) : graceDaysFor .missingKey policy ≤ age := by
  unfold verdict at h
  split at h
  · cases h
  · split at h
    · cases h
    · split at h
      · cases h
      · next hwait => exact Int.not_lt.mp fun hlt => hwait ⟨rfl, hlt⟩

theorem verdict_of_movesObject {result : DataObjectCheckResult}
    (h : movesObject env s result = true) :
    (s.objects.lookup result.refHex).isSome = true ∧
      verdict s.policy result.health
        (daysTo (objectItem env s result).firstSeen (env.now (s.tick + 1))) = .move := by
  simp only [movesObject, Bool.and_eq_true, decide_eq_true_eq] at h
  exact ⟨h.1.1.2, h.1.2⟩

/-- A look at an object, under the condition. -/
theorem Watching.actOn {rest : List DataObjectCheckResult} (h : Watching env past run (r :: rest) s)
    (hkept : LookKept env s r) : Watching env past run rest (actOn env s r) := by
  obtain ⟨n, t, hnames, hbad, hobserved, ht⟩ := h.pending r (List.mem_cons_self ..)
  have hsub : ∀ r' ∈ rest, r' ∈ r :: rest := fun _ => List.mem_cons_of_mem _
  have hleft : ∀ r' ∈ r :: rest, ¬ Names r' .objects n → r' ∈ rest := by
    intro r' hr' hother
    rcases List.mem_cons.mp hr' with rfl | hr'
    · exact absurd hnames hother
    · exact hr'
  have hsame : ∀ {item' : GcItem}, item'.Agrees (objectItem env s r) →
      (s.objects.lookup n).isSome = true → Backed (run :: past) n item' := by
    intro item' hagrees hthere
    rw [← hnames.refHex] at hthere ⊢
    obtain ⟨since, hheld, hday⟩ := h.backed_objectItem hkept hthere
    exact ⟨since, hagrees.reason ▸ hheld, hagrees.firstSeen ▸ hday⟩
  rcases actOn_cases hnames s with
    ⟨heq, hskip⟩ | ⟨hthere, item', hagrees, heq⟩ | ⟨hmoves, moved, s₁, heffect, hout⟩
  · rw [heq]
    refine h.frame n (Nat.le_refl _) hsub hleft rfl (fun _ => .inl rfl) (fun _ _ => rfl)
      (fun item _ _ => ?_) (fun m hm => .inl hm)
    exact .inr (hskip.resolve_left hbad)
  · rw [heq]
    refine h.frame n (Nat.le_add_right _ 2) hsub hleft rfl (fun _ => .inl rfl)
      (fun m hm => AList.lookup_insert_ne hm) (fun item hitem _ => ?_) (fun m hm => .inl hm)
    obtain rfl : item' = item := Option.some.inj ((AList.lookup_insert _).symm.trans hitem)
    exact .inl (hsame hagrees hthere)
  · obtain ⟨hthere, hverdict⟩ := verdict_of_movesObject hmoves
    rw [hnames.refHex] at hthere
    have htick : s.tick ≤ s₁.tick := by
      rw [heffect.frame]
      exact Nat.le_add_right _ 2
    have hstate : s₁.state = s.state := by
      rw [heffect.frame]
      rfl
    have hlog : s₁.log.observed = s.log.observed ∧ s₁.log.moved = s.log.moved := by
      rw [heffect.frame]
      exact ⟨rfl, rfl⟩
    rcases hout with ⟨-, item', hagrees, heq⟩ | ⟨-, heq⟩
    · rw [heq]
      refine h.frame n htick hsub hleft hlog.1 heffect.objects (fun m hm => ?_)
        (fun item hitem _ => ?_) (fun m hm => .inl (hlog.2 ▸ hm))
      · exact (AList.lookup_insert_ne hm).trans (by rw [hstate])
      · obtain rfl : item' = item := Option.some.inj ((AList.lookup_insert _).symm.trans hitem)
        exact .inl (hsame hagrees hthere)
    · rw [heq]
      refine h.frame n htick hsub hleft hlog.1 heffect.objects (fun m hm => ?_)
        (fun item hitem htracks => ?_) (fun m hm => ?_)
      · exact (AList.lookup_insert_ne hm).trans (by rw [hstate])
      · -- the record of a moved object tracks it no more
        obtain rfl := Option.some.inj ((AList.lookup_insert _).symm.trans hitem)
        cases htracks.2
      · rcases List.mem_cons.mp hm with rfl | hm
        · refine .inr ?_
          rw [← hnames.refHex] at hthere ⊢
          obtain ⟨since, hheld, hday⟩ := h.backed_objectItem hkept hthere
          have hgrace : graceDaysFor r.health s.policy ≤
              daysTo (objectItem env s r).firstSeen (env.now (s.tick + 1)) := by
            by_cases hmissing : r.health = .missingKey
            · rw [hmissing] at hverdict ⊢
              exact grace_le_of_verdict hverdict
            · exact hkept.2 hmoves hmissing
          exact ⟨since, hheld, Int.le_trans hgrace (daysTo_le_of_dayOf_le hday _)⟩
        · exact .inl (hlog.2 ▸ hm)

/-- A look at a quarantined file leaves it a record that is no object's own. -/
theorem Watching.lookAtQuarantined (h : Watching env past run [] s) (result : DataObjectCheckResult)
    (n : FileName) : Watching env past run [] (lookAtQuarantined env result n s).2 := by
  unfold DataObjectOperator.lookAtQuarantined
  have hstep : ∀ s' : GcRun, s'.tick = s.tick + 2 → s'.log.observed = s.log.observed →
      s'.log.moved = s.log.moved → s'.objects = s.objects →
      (∀ m, m ≠ n → s'.state.lookup m = s.state.lookup m) →
      (∀ item, s'.state.lookup n = some item → item.Tracks n →
        Backed (run :: past) n item ∨ s'.objects.lookup n = none) →
      Watching env past run [] s' := by
    intro s' htick hobserved hmoved hobjects hstate hn
    exact h.frame n (htick ▸ Nat.le_add_right _ 2) (fun _ hr => hr) (fun _ hr _ => hr) hobserved
      (fun m => .inl (by rw [hobjects])) hstate hn (fun m hm => .inl (hmoved ▸ hm))
  rcases deleteWhenServed_cases env n ⟨.quarantine, n⟩
      (seenItem result ⟨.quarantine, n⟩ n (env.now s.tick) (s.state.lookup n))
      (env.now (s.tick + 1)) s.ticked with
    heq | ⟨item', hagrees, heq⟩ | ⟨-, report, heq⟩
  · rw [heq]
    refine hstep _ rfl rfl rfl rfl (fun _ _ => rfl) fun item hitem htracks => ?_
    rcases h.backed n item hitem htracks with ⟨⟨r, hr, -⟩, -⟩ | hnow
    · cases hr
    · exact hnow
  · rw [heq]
    refine hstep _ rfl rfl rfl rfl (fun m hm => AList.lookup_insert_ne hm)
      fun item hitem htracks => ?_
    obtain rfl : item' = item := Option.some.inj ((AList.lookup_insert _).symm.trans hitem)
    exact nomatch (hagrees.path.symm.trans htracks.1 : (⟨.quarantine, n⟩ : ObjectPath) = _)
  · rw [heq]
    rw [removeQuarantined_frame]
    refine hstep _ rfl rfl rfl rfl (fun m hm => AList.lookup_erase_ne hm) fun item hitem _ => ?_
    exact nomatch (AList.lookup_erase n _).symm.trans hitem

/-- Where the loop over the objects starts: a record of an object's own is backed by
the runs before, and its object is absent or still to be looked at. -/
theorem Watching.classified {policy : DataObjectGCPolicy} {w : GcWorld}
    (hbacked : ∀ n item, w.loadGcState.lookup n = some item → item.Tracks n →
      Backed past n item)
    (hseen : SeenKept (classified S env policy w).2) :
    Watching env past (DataObjectOperator.classified S env policy w).2.log.observed
      (DataObjectOperator.classified S env policy w).1
      (DataObjectOperator.classified S env policy w).2 := by
  have heffect := classifyDataObjects_effect S env (startRun policy w)
  obtain ⟨policy', heq⟩ := suppressPolicy_eq (classifyDataObjects S env (startRun policy w)).2
  have hclassified : DataObjectOperator.classified S env policy w =
      ((classifyDataObjects S env (startRun policy w)).1,
        { (classifyDataObjects S env (startRun policy w)).2 with policy := policy' }) := by
    rw [← heq]
    rfl
  rw [hclassified] at hseen ⊢
  refine ⟨rfl, fun r hr => ?_, fun n item hitem htracks => ?_, fun m hm => ?_⟩
  · obtain ⟨n, t, -, hrest⟩ := heffect.left r hr
    exact ⟨n, t, hrest⟩
  · have hold : w.loadGcState.lookup n = some item := by
      rcases heffect.state n with hsame | ⟨-, hnone⟩
      · exact hsame.symm.trans hitem
      · exact nomatch hnone.symm.trans hitem
    cases hobject : (classifyDataObjects S env (startRun policy w)).2.objects.lookup n with
    | none => exact .inr (.inr rfl)
    | some file =>
      -- an object that is there was seen, and one seen healthy has no record
      have hsome := hseen ⟨n, item⟩ (AList.mem_lookup_iff.mp hitem) htracks
        (by rw [hobject, Option.isSome_some])
      obtain ⟨⟨h, t⟩, hlookup⟩ := Option.isSome_iff_exists.mp hsome
      rcases heffect.done n h t hlookup with hbefore | hnone | hpending
      · exact nomatch (AList.lookup_empty n).symm.trans hbefore
      · exact nomatch hnone.symm.trans hitem
      · exact .inl ⟨hpending, hbacked n item hold htracks⟩
  · rw [heffect.frame] at hm
    cases hm

/-- What compaction keeps of the records is backed, this run included. -/
theorem Watching.backed_compactGcState (h : Watching env past run [] s) {n : FileName}
    {item : GcItem} (hitem : (compactGcState S env s).state.lookup n = some item)
    (htracks : item.Tracks n) : Backed (run :: past) n item := by
  obtain ⟨hold, hkeeps⟩ := compactGcState_lookup hitem
  rcases h.backed n item hold htracks with ⟨⟨r, hr, -⟩, -⟩ | hnow | hgone
  · cases hr
  · exact hnow
  · rcases fileExists_of_keepsItem hkeeps with hexists | ⟨path, hpath⟩
    · rw [htracks.1] at hexists
      have hsome : (s.objects.lookup n).isSome = true := hexists
      rw [hgone] at hsome
      cases hsome
    · exact nomatch htracks.2.symm.trans hpath

/-- How a run ends: it honoured the grace of what it moved, and its records are
backed where it gets to compaction. -/
theorem Watching.endOfRun {policy : DataObjectGCPolicy} {w : GcWorld}
    (hbacked : ∀ n item, w.loadGcState.lookup n = some item → item.Tracks n →
      Backed past n item)
    (hlooks : BeforeEach (fun s => env.shuttingDown s.tick) (DataObjectOperator.actOn env)
      (LookKept env) (DataObjectOperator.classified S env policy w).1
      (DataObjectOperator.classified S env policy w).2)
    (hseen : SeenKept (DataObjectOperator.classified S env policy w).2) :
    (∀ m ∈ (endOfRun S env policy w).log.moved,
      m.Honoured ((endOfRun S env policy w).log.observed :: past)) ∧
    ((actOnPending S env policy w).1 = true ∨
      ∀ n item, (endOfRun S env policy w).state.lookup n = some item → item.Tracks n →
        Backed ((endOfRun S env policy w).log.observed :: past) n item) := by
  have hrule := endOfRun_rule S env policy w
    (I := Watching env past (DataObjectOperator.classified S env policy w).2.log.observed)
    hlooks (Watching.classified hbacked hseen) (fun r rest s hs hkept => hs.actOn hkept)
    (fun s report hs => ⟨hs.observed, hs.pending, hs.backed, hs.honoured⟩)
    (fun s n file hs => hs.lookAtQuarantined _ n)
  rcases hrule with ⟨hstopped, left, hs⟩ | ⟨s, hs, heq⟩
  · refine ⟨fun m hm => ?_, .inl hstopped⟩
    rw [hs.observed]
    exact hs.honoured m hm
  · obtain ⟨tick, -, hframe⟩ := compactGcState_frame S env s
    have hobserved : (compactGcState S env s).log.observed =
        (DataObjectOperator.classified S env policy w).2.log.observed := by
      rw [hframe]
      exact hs.observed
    rw [heq, hobserved]
    refine ⟨fun m hm => ?_, .inr fun n item hitem htracks => ?_⟩
    · rw [hframe] at hm
      exact hs.honoured m hm
    · exact hs.backed_compactGcState hitem htracks

end Watching

/-! ## All runs -/

/-- The observations of the runs of a history. -/
def observations (history : List GcRunLog) : List Observations := history.map (·.observed)

/-- Every move of every run honoured its grace, by that run and those before it. -/
def AllHonoured (history : List GcRunLog) : Prop :=
  ∀ log past, (log :: past) <:+ history → ∀ m ∈ log.moved, m.Honoured (observations (log :: past))

/-- Between runs, the records of objects' own are backed by all runs so far. -/
structure WatchedSystem (sys : GcSystem) : Prop where
  backed : ∀ n item, sys.world.loadGcState.lookup n = some item → item.Tracks n →
    Backed (observations sys.history) n item
  honoured : AllHonoured sys.history

theorem WatchedSystem.empty : WatchedSystem .empty where
  backed n _ hitem := nomatch (AList.lookup_empty (β := fun _ : FileName => GcItem) n).symm.trans hitem
  honoured _ _ hsuffix := nomatch List.suffix_nil.mp hsuffix

theorem AllHonoured.cons {log : GcRunLog} {history : List GcRunLog} (h : AllHonoured history)
    (hlog : ∀ m ∈ log.moved, m.Honoured (observations (log :: history))) :
    AllHonoured (log :: history) := by
  intro log' past hsuffix
  rcases List.suffix_cons_iff.mp hsuffix with heq | hsuffix
  · rw [heq]
    obtain ⟨rfl, rfl⟩ := List.cons.inj heq
    exact hlog
  · exact h log' past hsuffix

theorem WatchedSystem.run {sys : GcSystem} (h : WatchedSystem sys) {policy : DataObjectGCPolicy}
    (hkept : GraceKept S env sys (.run policy)) :
    WatchedSystem (sys.step S env (.run policy)) := by
  obtain ⟨hlooks, hseen, hunsaved⟩ := hkept
  obtain ⟨hhonoured, hend⟩ := Watching.endOfRun h.backed hlooks hseen
  obtain ⟨file, heq, hfile⟩ := runDataObjectGC_end S env policy sys.world
  unfold GcSystem.step
  dsimp only
  rw [heq]
  refine ⟨?_, h.honoured.cons hhonoured⟩
  show ∀ n item, (file.getD ∅).lookup n = some item → item.Tracks n →
    Backed ((endOfRun S env policy sys.world).log.observed :: observations sys.history) n item
  -- where the old records stay, this run saw what they say
  have hstale : unsaved S env policy sys.world = true →
      ∀ n item, sys.world.loadGcState.lookup n = some item → item.Tracks n →
        Backed ((endOfRun S env policy sys.world).log.observed :: observations sys.history)
          n item := by
    intro hun n item hitem htracks
    exact (h.backed n item hitem htracks).again
      (hunsaved hun ⟨n, item⟩ (AList.mem_lookup_iff.mp hitem) htracks)
  rcases hfile with ⟨rfl, hran⟩ | rfl | ⟨rfl, hun | hsame⟩
  · rcases hend with hstopped | hbacked
    · exact nomatch hran.symm.trans hstopped
    · exact hbacked
  · exact fun n _ hitem =>
      nomatch (AList.lookup_empty (β := fun _ : FileName => GcItem) n).symm.trans hitem
  · exact hstale hun
  · rcases hend with hstopped | hbacked
    · exact hstale (by rw [unsaved, hstopped, Bool.true_or])
    · rw [hsame] at hbacked
      exact hbacked

theorem WatchedSystem.outside {sys : GcSystem} (h : WatchedSystem sys) (change : Outside) :
    WatchedSystem (sys.step S env (.outside change)) :=
  ⟨fun n item hitem htracks => h.backed n item (loadGcState_outside hitem).2 htracks,
    h.honoured⟩

/-- In every sequence of runs, with any clock, any classifications and anything
happening to the files between them, whose steps meet `GraceKept`: whatever a run
moved was observed, for the reason it was moved, by every run over a period of at
least the grace days the policy has for that reason. -/
theorem grace_honoured (S : Sodium) (env : GcEnv) {sys : GcSystem}
    (h : ReachableUnder (GcSystem.step S env) (GraceKept S env) .empty sys) :
    ∀ log past, (log :: past) <:+ sys.history → ∀ m ∈ log.moved,
      ∃ since, HeldSince m.name m.reason since (observations (log :: past)) ∧
        m.grace ≤ daysTo since m.time :=
  (h.inv WatchedSystem.empty fun _ episode hs hkept =>
    match episode with
    | .run _ => hs.run hkept
    | .outside change => hs.outside change).honoured

/-- A machine that has the key of thirty-two zeros and nothing to open with it. -/
def wrongKeyEnv : GcEnv :=
  { calmEnv 4 4 with keys := fun _ => ⟨[(List.replicate 32 0, [1])], [], [], .single⟩ }

/-- One object, named by sixty-four "a", whose key is there and does not open it. -/
def sealedObject : GcEpisode :=
  .outside ⟨AList.singleton (List.replicate 64 0x61) ⟨List.replicate 33 0, none⟩, none, false⟩

/-- It is noted on the first day, where the policy does not collect it, and moved
four days later, where it does. -/
def sealedObjectWaits : GcSystem :=
  [sealedObject, .run normalPolicy, .run highSecurityPolicy].foldl
    (GcSystem.step labelSodium wrongKeyEnv) .empty

theorem grace_honoured_sealed_object :
    (∃ log ∈ sealedObjectWaits.history, log.moved ≠ []) ∧
      ∀ log past, (log :: past) <:+ sealedObjectWaits.history → ∀ m ∈ log.moved,
        ∃ since, HeldSince m.name m.reason since (observations (log :: past)) ∧
          m.grace ≤ daysTo since m.time := by
  refine ⟨by decide, grace_honoured labelSodium wrongKeyEnv ?_⟩
  refine .next (.run highSecurityPolicy) (.next (.run normalPolicy)
    (.next sealedObject .start ?_) ?_) ?_
  · exact trivial
  · refine ⟨?_, ?_, ?_⟩ <;> decide
  · refine ⟨?_, ?_, ?_⟩ <;> decide

/-- Under the stricter policy the object is moved by the first run that sees it,
though the policy has three days for a failed decryption. -/
theorem not_grace_honoured :
    ¬ ∀ (S : Sodium) (env : GcEnv) (sys : GcSystem),
      ReachableUnder (GcSystem.step S env) (fun _ _ => True) .empty sys →
        ∀ log past, (log :: past) <:+ sys.history → ∀ m ∈ log.moved,
          ∃ since, HeldSince m.name m.reason since (observations (log :: past)) ∧
            m.grace ≤ daysTo since m.time := by
  intro h
  have hmoved := h labelSodium wrongKeyEnv _
    (.next (.run highSecurityPolicy) (.next sealedObject .start trivial) trivial) _ _
    List.suffix_rfl ⟨List.replicate 64 0x61, .decryptFailed, 0, 3⟩ (by decide)
  obtain ⟨since, -, hgrace⟩ := hmoved
  have hnone : daysTo since 0 ≤ 0 := by
    show (dayOf 0 : Int) - dayOf since ≤ 0
    have hzero : dayOf 0 = 0 := rfl
    omega
  exact absurd (Int.le_trans hgrace hnone) (by decide)

end DataObjectOperator

end GpgFrontend
