import GpgFrontend.DataObject.GC

/-!
# What one look of the collector can do

A call of `maybeQuarantineOrDelete` is described once, by what it may change; the
results about runs follow from the description and never unfold the call again.
-/

namespace GpgFrontend

namespace DataObjectOperator

section Effects

variable {env : GcEnv}

theorem quarantined_of_some {w : GcWorld} (dir : Dir QuarantinedFile)
    (h : w.quarantine = some dir) (n : FileName) : w.quarantined n = dir.lookup n := by
  rw [GcWorld.quarantined, h]
  rfl

theorem quarantined_of_none {w : GcWorld} (h : w.quarantine = none) (n : FileName) :
    w.quarantined n = none := by
  rw [GcWorld.quarantined, h]
  rfl

variable {s : GcRun} {n : FileName}

theorem removeQuarantined_of_none (h : s.quarantined n = none) (time : QDateTime) :
    s.removeQuarantined n time = s := by
  rw [GcRun.removeQuarantined, h]

theorem removeQuarantined_of_some {file : QuarantinedFile} (h : s.quarantined n = some file)
    (time : QDateTime) :
    s.removeQuarantined n time = { s with
      quarantine := s.quarantine.map (·.erase n)
      log := { s.log with
        deleted := ⟨n, file, time, s.policy.quarantineGraceDays⟩ :: s.log.deleted } } := by
  rw [GcRun.removeQuarantined, h]

/-- Removing a quarantined file touches that directory and the log only. -/
theorem removeQuarantined_frame (s : GcRun) (n : FileName) (time : QDateTime) :
    s.removeQuarantined n time = { s with
      quarantine := (s.removeQuarantined n time).quarantine
      log := { s.log with deleted := (s.removeQuarantined n time).log.deleted } } := by
  rw [GcRun.removeQuarantined]
  split <;> rfl

theorem quarantined_removeQuarantined (s : GcRun) (n m : FileName) (time : QDateTime) :
    (s.removeQuarantined n time).quarantined m = if m = n then none else s.quarantined m := by
  cases hfile : s.quarantined n with
  | none =>
    rw [removeQuarantined_of_none hfile]
    by_cases hm : m = n
    · rw [if_pos hm, hm, hfile]
    · rw [if_neg hm]
  | some file =>
    rw [removeQuarantined_of_some hfile]
    cases hdir : s.quarantine with
    | none => exact nomatch (quarantined_of_none (w := s.toGcWorld) hdir n).symm.trans hfile
    | some dir =>
      rw [quarantined_of_some (dir.erase n) rfl,
        quarantined_of_some (w := s.toGcWorld) dir hdir]
      by_cases hm : m = n
      · rw [if_pos hm, hm, AList.lookup_erase]
      · rw [if_neg hm, AList.lookup_erase_ne hm]

theorem quarantined_enterQuarantine (hdir : s.quarantine.isSome = true) (n m : FileName)
    (content : Bytes) (time : QDateTime) :
    (s.enterQuarantine n content time).quarantined m =
      if m = n then some ⟨content, time⟩ else s.quarantined m := by
  obtain ⟨dir, hdir⟩ := Option.isSome_iff_exists.mp hdir
  rw [GcRun.enterQuarantine, quarantined_of_some (dir.insert n ⟨content, time⟩)
    (by rw [hdir]; rfl)]
  split
  · next heq => rw [heq, AList.lookup_insert]
  · next hne => rw [AList.lookup_insert_ne hne, quarantined_of_some (w := s.toGcWorld) dir hdir]

/-- The move is made in full: renamed, or copied and the source removed. -/
def GcEnv.completes (env : GcEnv) (t : Nat) : Bool :=
  env.rename t || env.copy t && env.removeSource t

/-- The move is left half made: a copy in quarantine, the source still there. -/
def GcEnv.halfMade (env : GcEnv) (t : Nat) : Bool :=
  !env.rename t && env.copy t && !env.removeSource t

/-- Everything an attempt to move the object `n` can do. -/
structure MoveEffect (env : GcEnv) (n : FileName) (time : QDateTime) (s : GcRun) (moved : Bool)
    (s' : GcRun) : Prop where
  frame : s' = { s with
    objects := s'.objects, quarantine := s'.quarantine
    log := { s.log with deleted := s'.log.deleted } }
  others : ∀ m, m ≠ n → s'.quarantined m = s.quarantined m
  objects : ∀ m, s'.objects.lookup m = s.objects.lookup m ∨ s'.objects.lookup m = none
  deleted : s'.log.deleted = s.log.deleted ∨
    env.remove s.tick = true ∧ ∃ file, s.quarantined n = some file ∧
      s'.log.deleted = ⟨n, file, time, s.policy.quarantineGraceDays⟩ :: s.log.deleted
  here : moved = false ∧ (s'.quarantined n = s.quarantined n ∨ s'.quarantined n = none) ∨
    ∃ content, s'.quarantined n = some ⟨content, time⟩ ∧
      (env.remove s.tick = true ∨ s.quarantined n = none) ∧
      (moved = true ∧ env.completes s.tick = true ∨ moved = false ∧ env.halfMade s.tick = true)

/-- The removal of the file that is replaced, as the first half of a move. -/
theorem replaced_effect (env : GcEnv) (n : FileName) (time : QDateTime) (s : GcRun) {s' : GcRun}
    (h : s' = if env.remove s.tick then s.removeQuarantined n time else s) :
    MoveEffect env n time s false s' := by
  by_cases hremove : env.remove s.tick = true
  · rw [if_pos hremove] at h
    have hq : ∀ m, s'.quarantined m = if m = n then none else s.quarantined m := by
      rw [h]
      exact fun m => quarantined_removeQuarantined s n m time
    have hn : s'.quarantined n = none := by rw [hq, if_pos rfl]
    cases hfile : s.quarantined n with
    | none =>
      rw [removeQuarantined_of_none hfile] at h
      rw [h]
      exact ⟨rfl, fun _ _ => rfl, fun _ => .inl rfl, .inl rfl, .inl ⟨rfl, .inl rfl⟩⟩
    | some file =>
      rw [removeQuarantined_of_some hfile] at h
      refine ⟨?_, fun m hm => ?_, fun m => ?_, ?_, ?_⟩
      · rw [h]
      · rw [hq, if_neg hm]
      · exact .inl (by rw [h])
      · exact .inr ⟨hremove, file, hfile, by rw [h]⟩
      · exact .inl ⟨rfl, .inr hn⟩
  · rw [if_neg hremove] at h
    rw [h]
    exact ⟨rfl, fun _ _ => rfl, fun _ => .inl rfl, .inl rfl, .inl ⟨rfl, .inl rfl⟩⟩

/-- A file that enters where its predecessor is gone, with or without the source
being removed. -/
theorem MoveEffect.enter {time : QDateTime} {s₁ s₂ : GcRun} {moved : Bool}
    (h : MoveEffect env n time s false s₁) (hdir : s₁.quarantine.isSome = true) (content : Bytes)
    (hs₂ : s₂ = s₁.enterQuarantine n content time ∨
      s₂ = (s₁.enterQuarantine n content time).removeObject n)
    (hfree : env.remove s.tick = true ∨ s.quarantined n = none)
    (hout : moved = true ∧ env.completes s.tick = true ∨ moved = false ∧ env.halfMade s.tick = true) :
    MoveEffect env n time s moved s₂ := by
  have hq : ∀ m, s₂.quarantined m = if m = n then some ⟨content, time⟩ else s₁.quarantined m := by
    intro m
    rw [← quarantined_enterQuarantine hdir n m content time]
    rcases hs₂ with rfl | rfl <;> rfl
  refine ⟨?_, fun m hm => ?_, fun m => ?_, ?_, .inr ⟨content, ?_, hfree, hout⟩⟩
  · rcases hs₂ with rfl | rfl
    · rw [GcRun.enterQuarantine, h.frame]
    · rw [GcRun.removeObject, GcRun.enterQuarantine, h.frame]
  · rw [hq, if_neg hm, h.others m hm]
  · rcases hs₂ with rfl | rfl
    · exact h.objects m
    · by_cases hm : m = n
      · exact .inr (by rw [hm]; exact AList.lookup_erase n s₁.objects)
      · have hkeep : (s₁.objects.erase n).lookup m = s₁.objects.lookup m :=
          AList.lookup_erase_ne hm
        rw [GcRun.removeObject, GcRun.enterQuarantine, hkeep]
        exact h.objects m
  · rcases hs₂ with rfl | rfl <;> exact h.deleted
  · rw [hq, if_pos rfl]

theorem moveFileReplacing_effect {time : QDateTime} (hdir : s.quarantine.isSome = true) :
    MoveEffect env n time s (moveFileReplacing env n time s).1
      (moveFileReplacing env n time s).2 := by
  unfold moveFileReplacing
  dsimp only
  generalize hs₁ : (if env.remove s.tick = true then s.removeQuarantined n time else s) = s₁
  have h := replaced_effect env n time s hs₁.symm
  have htick : s₁.tick = s.tick := by rw [h.frame]
  have hdir₁ : s₁.quarantine.isSome = true := by
    rw [← hs₁]
    split
    · rw [GcRun.removeQuarantined]
      split
      · exact hdir
      · rw [Option.isSome_map, hdir]
    · exact hdir
  rw [htick]
  split
  · next file hobj hgone =>
    have hfree : env.remove s.tick = true ∨ s.quarantined n = none := by
      by_cases hremove : env.remove s.tick = true
      · exact .inl hremove
      · rw [if_neg hremove] at hs₁
        rw [← hs₁] at hgone
        exact .inr hgone
    by_cases hrename : env.rename s.tick = true
    · rw [if_pos hrename]
      exact h.enter hdir₁ _ (.inr rfl) hfree (.inl ⟨rfl, by rw [GcEnv.completes, hrename]; rfl⟩)
    · rw [if_neg hrename]
      by_cases hcopy : env.copy s.tick = true
      · rw [if_pos hcopy]
        have htick₂ : (s₁.enterQuarantine n file.content time).tick = s.tick := htick
        rw [htick₂]
        by_cases hsource : env.removeSource s.tick = true
        · rw [if_pos hsource]
          exact h.enter hdir₁ _ (.inr rfl) hfree
            (.inl ⟨rfl, by rw [GcEnv.completes, hcopy, hsource, Bool.and_self, Bool.or_true]⟩)
        · rw [if_neg hsource]
          refine h.enter hdir₁ _ (.inl rfl) hfree (.inr ⟨rfl, ?_⟩)
          rw [GcEnv.halfMade, hcopy, Bool.eq_false_iff.mpr hrename, Bool.eq_false_iff.mpr hsource]
          rfl
      · rw [if_neg hcopy]
        exact h
  · exact h

/-- Making the directory first changes nothing a move is judged by. -/
theorem MoveEffect.of_mkdir {time : QDateTime} {s' : GcRun} {moved : Bool}
    (hnone : s.quarantine = none)
    (h : MoveEffect env n time { s with quarantine := some ∅ } moved s') :
    MoveEffect env n time s moved s' := by
  have hq : ∀ m, GcWorld.quarantined { s with quarantine := some ∅ }.toGcWorld m =
      s.quarantined m := fun m =>
    (AList.lookup_empty m).trans (quarantined_of_none (w := s.toGcWorld) hnone m).symm
  refine ⟨h.frame, fun m hm => (h.others m hm).trans (hq m), h.objects, ?_, ?_⟩
  · rcases h.deleted with hd | ⟨hremove, file, hfile, hd⟩
    · exact .inl hd
    · exact .inr ⟨hremove, file, (hq n).symm.trans hfile, hd⟩
  · rcases h.here with ⟨hmoved, hn | hn⟩ | hn
    · exact .inl ⟨hmoved, .inl (hn.trans (hq n))⟩
    · exact .inl ⟨hmoved, .inr hn⟩
    · obtain ⟨content, hin, hfree, hout⟩ := hn
      exact .inr ⟨content, hin, hfree.imp_right (fun h => (hq n).symm.trans h), hout⟩

/-- Two records that count from the same moments and say the same of the file. -/
structure GcItem.Agrees (item' item : GcItem) : Prop where
  firstSeen : item'.firstSeen = item.firstSeen
  reason : item'.reason = item.reason
  path : item'.path = item.path
  quarantinePath : item'.quarantinePath = item.quarantinePath
  quarantinedAt : item'.quarantinedAt = item.quarantinedAt

theorem GcItem.Agrees.quarantineBase {item' item : GcItem} (h : item'.Agrees item) :
    item'.quarantineBase = item.quarantineBase := by
  rw [GcItem.quarantineBase, GcItem.quarantineBase, h.quarantinedAt, h.firstSeen]

/-- What a call can do to a file of the object directory: note it; try to move it
and note it; move it. -/
theorem quarantineUnlessWaiting_cases (env : GcEnv) (health : DataObjectHealth) (refHex : FileName)
    (path : ObjectPath) (item : GcItem) (now later : QDateTime) (s : GcRun) :
    (∃ item', item'.Agrees item ∧
      (quarantineUnlessWaiting env health refHex path item now later s).2 =
        s.store refHex item') ∨
    verdict s.policy health (daysTo item.firstSeen later) = .move ∧
      (s.quarantine.isSome || env.mkpath s.tick) = true ∧
      ∃ moved s₁, MoveEffect env path.name later s moved s₁ ∧
        (moved = false ∧ (∃ item', item'.Agrees item ∧
          (quarantineUnlessWaiting env health refHex path item now later s).2 =
            s₁.store refHex item') ∨
        moved = true ∧
          (quarantineUnlessWaiting env health refHex path item now later s).2 =
            (s₁.store refHex (item.markQuarantined path.name now)).noteMove
              ⟨path.name, health, later, graceDaysFor health s.policy⟩) := by
  unfold quarantineUnlessWaiting
  dsimp only
  cases hv : verdict s.policy health (daysTo item.firstSeen later) with
  | recordOnly =>
    refine .inl ⟨_, ?_, rfl⟩
    constructor <;> rfl
  | dryRun =>
    refine .inl ⟨_, ?_, rfl⟩
    constructor <;> rfl
  | waiting =>
    refine .inl ⟨_, ?_, rfl⟩
    constructor <;> rfl
  | move =>
    have hmade : ∀ {s₀ : GcRun}, ensureQuarantineDir env s = (true, s₀) →
        (s.quarantine.isSome || env.mkpath s.tick) = true ∧
        MoveEffect env path.name later s (moveFileReplacing env path.name later s₀).1
          (moveFileReplacing env path.name later s₀).2 := by
      intro s₀ hs₀
      unfold ensureQuarantineDir at hs₀
      split at hs₀
      · next hdir =>
        obtain ⟨-, rfl⟩ := Prod.mk.inj hs₀
        exact ⟨by rw [hdir]; rfl, moveFileReplacing_effect (by rw [hdir]; rfl)⟩
      · next hdir =>
        split at hs₀
        · next hmkpath =>
          obtain ⟨-, rfl⟩ := Prod.mk.inj hs₀
          exact ⟨by rw [hmkpath, Bool.or_true], (moveFileReplacing_effect rfl).of_mkdir hdir⟩
        · cases hs₀
    have hfailed : ∀ {s₀ : GcRun}, ensureQuarantineDir env s = (false, s₀) → s₀ = s := by
      intro s₀ hs₀
      unfold ensureQuarantineDir at hs₀
      split at hs₀
      · cases hs₀
      · split at hs₀
        · cases hs₀
        · exact (Prod.mk.inj hs₀).2.symm
    rcases hensure : ensureQuarantineDir env s with ⟨made, s₀⟩
    cases made with
    | false =>
      rw [hfailed hensure]
      refine .inl ⟨_, ?_, rfl⟩
      constructor <;> rfl
    | true =>
      obtain ⟨hdir, heffect⟩ := hmade hensure
      rcases hmove : moveFileReplacing env path.name later s₀ with ⟨moved, s₁⟩
      rw [hmove] at heffect
      refine .inr ⟨rfl, hdir, moved, s₁, heffect, ?_⟩
      cases moved with
      | false =>
        refine .inl ⟨rfl, _, ?_, rfl⟩
        constructor <;> rfl
      | true => exact .inr ⟨rfl, rfl⟩

/-- What a call can do to a file in quarantine: leave it, note it, or remove it once
the time counted from its record is up. -/
theorem deleteWhenServed_cases (env : GcEnv) (refHex : FileName) (path : ObjectPath)
    (item : GcItem) (later : QDateTime) (s : GcRun) :
    (deleteWhenServed env refHex path item later s).2 = s ∨
    (∃ item', item'.Agrees item ∧
      (deleteWhenServed env refHex path item later s).2 = s.store refHex item') ∨
    s.policy.quarantineGraceDays ≤ daysTo item.quarantineBase later ∧
      ∃ report, (deleteWhenServed env refHex path item later s).2 =
        { (s.removeQuarantined path.name later).forget refHex with report } := by
  unfold deleteWhenServed
  split
  · exact .inl rfl
  · split
    · refine .inr (.inl ⟨_, ?_, rfl⟩)
      constructor <;> rfl
    · next hage =>
      split
      · refine .inr (.inl ⟨_, ?_, rfl⟩)
        constructor <;> rfl
      · exact .inr (.inr ⟨Int.not_lt.mp hage, _, rfl⟩)

/-! The record a call starts from. -/

theorem seenItem_base_none (result : DataObjectCheckResult) (path : ObjectPath) (n : FileName)
    (now : QDateTime) : (seenItem result path n now none).quarantineBase = now := rfl

theorem seenItem_base_some (result : DataObjectCheckResult) (path : ObjectPath) (n : FileName)
    (now : QDateTime) (item : GcItem) :
    (seenItem result path n now (some item)).quarantineBase = item.quarantineBase := rfl

/-- A result that names the file it is about. -/
structure Names (result : DataObjectCheckResult) (dir : ObjectDir) (n : FileName) : Prop where
  path : result.path = some ⟨dir, n⟩
  refHex : result.refHex = n

variable {result : DataObjectCheckResult}

theorem Names.key {dir : ObjectDir} (h : Names result dir n) :
    (if result.refHex.isEmpty then n else result.refHex) = n := by
  rw [h.refHex]
  split <;> rfl

/-- The state a look works on, past its two clock readings. -/
def GcRun.ticked (s : GcRun) : GcRun := { s with tick := s.tick + 2 }

/-- What a call makes of a file of the object directory that is still there. -/
def lookAtObject (env : GcEnv) (result : DataObjectCheckResult) (n : FileName) (s : GcRun) :
    DataObjectGCAction × GcRun :=
  quarantineUnlessWaiting env result.health n ⟨.objects, n⟩
    (seenItem result ⟨.objects, n⟩ n (env.now s.tick) (s.state.lookup n)) (env.now s.tick)
    (env.now (s.tick + 1)) s.ticked

/-- What a call makes of a file in quarantine that is still there. -/
def lookAtQuarantined (env : GcEnv) (result : DataObjectCheckResult) (n : FileName) (s : GcRun) :
    DataObjectGCAction × GcRun :=
  deleteWhenServed env n ⟨.quarantine, n⟩
    (seenItem result ⟨.quarantine, n⟩ n (env.now s.tick) (s.state.lookup n))
    (env.now (s.tick + 1)) s.ticked

theorem maybeQuarantineOrDelete_objects (h : Names result .objects n) (s : GcRun) :
    maybeQuarantineOrDelete env result s =
      if result.health = .ok ∨ (s.objects.lookup n).isSome = false then (.none, s)
      else lookAtObject env result n s := by
  unfold maybeQuarantineOrDelete
  rw [h.path]
  dsimp only
  rw [h.key]
  rfl

theorem maybeQuarantineOrDelete_quarantine (h : Names result .quarantine n) (s : GcRun) :
    maybeQuarantineOrDelete env result s =
      if result.health = .ok ∨ (s.quarantined n).isSome = false then (.none, s)
      else lookAtQuarantined env result n s := by
  unfold maybeQuarantineOrDelete
  rw [h.path]
  dsimp only
  rw [h.key]
  rfl

/-! ## The object a call looks at -/

/-- The record a look at the object starts from. -/
def objectItem (env : GcEnv) (s : GcRun) (result : DataObjectCheckResult) : GcItem :=
  seenItem result ⟨.objects, result.refHex⟩ result.refHex (env.now s.tick)
    (s.state.lookup result.refHex)

/-- The look at the object gets as far as moving it. -/
def movesObject (env : GcEnv) (s : GcRun) (result : DataObjectCheckResult) : Bool :=
  decide (result.health ≠ .ok) && (s.objects.lookup result.refHex).isSome &&
    decide (verdict s.policy result.health
      (daysTo (objectItem env s result).firstSeen (env.now (s.tick + 1))) = .move) &&
    (s.quarantine.isSome || env.mkpath (s.tick + 2))

/-- What a look at an object can do: nothing; note it; try to move it and note it;
move it. -/
theorem actOn_cases (h : Names result .objects n) (s : GcRun) :
    actOn env s result = s ∧ (result.health = .ok ∨ s.objects.lookup n = none) ∨
    (s.objects.lookup n).isSome = true ∧ (∃ item', item'.Agrees (objectItem env s result) ∧
      actOn env s result = s.ticked.store n item') ∨
    movesObject env s result = true ∧
      ∃ moved s₁, MoveEffect env n (env.now (s.tick + 1)) s.ticked moved s₁ ∧
        (moved = false ∧ (∃ item', item'.Agrees (objectItem env s result) ∧
          actOn env s result = s₁.store n item') ∨
        moved = true ∧ actOn env s result =
          (s₁.store n ((objectItem env s result).markQuarantined n (env.now s.tick))).noteMove
            ⟨n, result.health, env.now (s.tick + 1), graceDaysFor result.health s.policy⟩) := by
  obtain ⟨hpath, rfl⟩ := h
  unfold actOn
  rw [maybeQuarantineOrDelete_objects ⟨hpath, rfl⟩]
  split
  · next hskip =>
    refine .inl ⟨rfl, hskip.imp_right fun hgone => ?_⟩
    rwa [Option.isSome_eq_false_iff, Option.isNone_iff_eq_none] at hgone
  · next hthere =>
    rw [not_or, Bool.not_eq_false] at hthere
    refine .inr ?_
    rcases quarantineUnlessWaiting_cases env result.health result.refHex
        ⟨.objects, result.refHex⟩ (objectItem env s result) (env.now s.tick)
        (env.now (s.tick + 1)) s.ticked with
      hnote | ⟨hverdict, hdir, hmove⟩
    · exact .inl ⟨hthere.2, hnote⟩
    · refine .inr ⟨?_, hmove⟩
      have hv : verdict s.policy result.health
          (daysTo (objectItem env s result).firstSeen (env.now (s.tick + 1))) = .move := hverdict
      have hd : (s.quarantine.isSome || env.mkpath (s.tick + 2)) = true := hdir
      rw [movesObject, hd, hthere.2, decide_eq_true hthere.1, decide_eq_true hv]
      rfl

end Effects

end DataObjectOperator

end GpgFrontend
