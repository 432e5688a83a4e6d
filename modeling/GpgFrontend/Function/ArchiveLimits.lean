import GpgFrontend.Function.ArchiveSparse

/-!
# The limits of an extraction

The loop of `ExtractArchiveSync` counts entries and bytes as they are delivered, whatever an
archive declares of itself.

- `extraction_limits_hold`: **a walk keeps within its limits, and no counter overflows.**
-/

namespace GpgFrontend

/-! ## Counters -/

/-- The numbers of an `int`. -/
def FitsInt32 (n : Int) : Prop := -2147483648 ≤ n ∧ n ≤ 2147483647

/-- The numbers of a `qint64`. -/
def FitsInt64 (n : Int) : Prop := -9223372036854775808 ≤ n ∧ n ≤ 9223372036854775807

/-- What blocks hold together. -/
def blocksSize (blocks : List ArchiveBlock) : Nat := (blocks.map fun block => block.bytes.length).sum

@[simp] theorem blocksSize_nil : blocksSize [] = 0 := rfl

@[simp] theorem blocksSize_cons (block : ArchiveBlock) (rest : List ArchiveBlock) :
    blocksSize (block :: rest) = block.bytes.length + blocksSize rest := List.sum_cons

theorem LeavesRoom.add_zero {limit value : Int} (h : LeavesRoom limit value) :
    LeavesRoom limit (value + ((0 : Nat) : Int)) :=
  (Int.add_zero value).symm ▸ h

section Blocks

variable (maxEntryBytes remaining : Int) (place : Nat → Bytes → ArchiveBlock → Option Bytes)

/-- The bytes that the loop of `CopyData` and `CollectData` hands on. -/
def deliveredBytes : Nat → List ArchiveBlock → Int → Bytes → Nat
  | _, [], _, _ => 0
  | i, block :: rest, written, gathered =>
    let written := written + block.bytes.length
    if 0 ≤ maxEntryBytes ∧ maxEntryBytes < written then 0
    else if 0 ≤ remaining ∧ remaining < written then 0
    else block.bytes.length +
      match place i gathered block with
      | none => 0
      | some gathered => deliveredBytes (i + 1) rest written gathered

/-- Each value the counter of the loop takes fits. -/
def BlocksFit : Nat → List ArchiveBlock → Int → Bytes → Prop
  | _, [], _, _ => True
  | i, block :: rest, written, gathered =>
    let written := written + block.bytes.length
    FitsInt64 written ∧
    if 0 ≤ maxEntryBytes ∧ maxEntryBytes < written then True
    else if 0 ≤ remaining ∧ remaining < written then True
    else
      match place i gathered block with
      | none => True
      | some gathered => BlocksFit (i + 1) rest written gathered

variable {maxEntryBytes remaining place}

/-- What is handed on is within the limits, and is counted. -/
theorem deliveredBytes_le (blocks : List ArchiveBlock) :
    ∀ {i : Nat} {written : Int} {gathered : Bytes},
      LeavesRoom maxEntryBytes written → LeavesRoom remaining written →
      let delivered := deliveredBytes maxEntryBytes remaining place i blocks written gathered
      LeavesRoom maxEntryBytes (written + delivered) ∧ LeavesRoom remaining (written + delivered) ∧
        written + delivered ≤
          (takeBlocks maxEntryBytes remaining place i blocks written gathered).2.1 := by
  induction blocks with
  | nil =>
    intro i written gathered hentry hroom
    simp only [deliveredBytes, takeBlocks, Int.natCast_zero, Int.add_zero]
    exact ⟨hentry, hroom, Int.le_refl _⟩
  | cons block rest ih =>
    intro i written gathered hentry hroom
    simp only [deliveredBytes, takeBlocks]
    split
    · rw [Int.natCast_zero, Int.add_zero]
      exact ⟨hentry, hroom, Int.le_add_of_nonneg_right (Int.natCast_nonneg _)⟩
    next hwithin =>
    split
    · rw [Int.natCast_zero, Int.add_zero]
      exact ⟨hentry, hroom, Int.le_add_of_nonneg_right (Int.natCast_nonneg _)⟩
    next hspace =>
    have hentry' : LeavesRoom maxEntryBytes (written + block.bytes.length) := fun h => by omega
    have hroom' : LeavesRoom remaining (written + block.bytes.length) := fun h => by omega
    cases place i gathered block with
    | none =>
      dsimp only
      rw [Nat.add_zero]
      exact ⟨hentry', hroom', Int.le_refl _⟩
    | some gathered =>
      dsimp only
      rw [Int.natCast_add, ← Int.add_assoc]
      exact ih hentry' hroom'

/-- When the loop comes to its end, all that was counted was handed on. -/
theorem deliveredBytes_of_ok (blocks : List ArchiveBlock) :
    ∀ {i : Nat} {written : Int} {gathered : Bytes},
      (takeBlocks maxEntryBytes remaining place i blocks written gathered).1 = true →
      (takeBlocks maxEntryBytes remaining place i blocks written gathered).2.1 =
        written + deliveredBytes maxEntryBytes remaining place i blocks written gathered := by
  induction blocks with
  | nil => exact fun _ => (Int.add_zero _).symm
  | cons block rest ih =>
    intro i written gathered hok
    simp only [deliveredBytes, takeBlocks] at hok ⊢
    split at hok
    · cases hok
    next hentry =>
    rw [if_neg hentry, if_neg hentry]
    split at hok
    · cases hok
    next hroom =>
    rw [if_neg hroom, if_neg hroom]
    cases hplace : place i gathered block with
    | none =>
      rw [hplace] at hok
      cases hok
    | some gathered =>
      rw [hplace] at hok
      dsimp only at hok ⊢
      rw [ih hok, Int.natCast_add, ← Int.add_assoc]

/-- The counter starts from what was counted, and gets no further than the blocks hold. -/
theorem takeBlocks_written_le (blocks : List ArchiveBlock) :
    ∀ {i : Nat} {written : Int} {gathered : Bytes},
      written ≤ (takeBlocks maxEntryBytes remaining place i blocks written gathered).2.1 ∧
      (takeBlocks maxEntryBytes remaining place i blocks written gathered).2.1
        ≤ written + blocksSize blocks := by
  induction blocks with
  | nil => exact ⟨Int.le_refl _, Int.le_of_eq (Int.add_zero _).symm⟩
  | cons block rest ih =>
    intro i written gathered
    rw [takeBlocks, blocksSize_cons]
    split
    · exact ⟨by dsimp only; omega, by dsimp only; omega⟩
    split
    · exact ⟨by dsimp only; omega, by dsimp only; omega⟩
    cases place i gathered block with
    | none => exact ⟨by dsimp only; omega, by dsimp only; omega⟩
    | some gathered =>
      obtain ⟨hlow, hhigh⟩ := @ih (i + 1) (written + block.bytes.length) gathered
      dsimp only
      omega

/-- Where there is a limit, the counter gets past it by one block at most. -/
theorem takeBlocks_written_le_room {most : Int} (blocks : List ArchiveBlock)
    (hlimit : 0 ≤ remaining) (hmost : ∀ block ∈ blocks, (block.bytes.length : Int) ≤ most)
    (hpos : 0 ≤ most) :
    ∀ {i : Nat} {written : Int} {gathered : Bytes}, written ≤ remaining →
      (takeBlocks maxEntryBytes remaining place i blocks written gathered).2.1
        ≤ remaining + most := by
  induction blocks with
  | nil =>
    intro i written gathered hwritten
    rw [takeBlocks]
    dsimp only
    omega
  | cons block rest ih =>
    intro i written gathered hwritten
    have hblock := hmost block List.mem_cons_self
    rw [takeBlocks]
    split
    · dsimp only
      omega
    split
    · dsimp only
      omega
    cases place i gathered block with
    | none =>
      show written + (block.bytes.length : Int) ≤ remaining + most
      omega
    | some gathered =>
      exact ih (fun block hmem => hmost block (List.mem_cons_of_mem _ hmem)) (by omega)

/-- The counter only grows: its values fit when the last one does. -/
theorem blocksFit_of_written (blocks : List ArchiveBlock) :
    ∀ {i : Nat} {written : Int} {gathered : Bytes}, 0 ≤ written →
      (takeBlocks maxEntryBytes remaining place i blocks written gathered).2.1
        ≤ 9223372036854775807 →
      BlocksFit maxEntryBytes remaining place i blocks written gathered := by
  induction blocks with
  | nil => exact fun _ _ => trivial
  | cons block rest ih =>
    intro i written gathered hpos hlast
    simp only [takeBlocks, BlocksFit] at hlast ⊢
    split at hlast
    · next hentry =>
      rw [if_pos hentry]
      exact ⟨⟨by omega, hlast⟩, trivial⟩
    next hentry =>
    rw [if_neg hentry]
    split at hlast
    · next hroom =>
      rw [if_pos hroom]
      exact ⟨⟨by omega, hlast⟩, trivial⟩
    next hroom =>
    rw [if_neg hroom]
    cases hplace : place i gathered block with
    | none =>
      rw [hplace] at hlast
      exact ⟨⟨by omega, hlast⟩, trivial⟩
    | some gathered =>
      rw [hplace] at hlast
      dsimp only at hlast ⊢
      have hlow := (@takeBlocks_written_le maxEntryBytes remaining place rest (i + 1)
        (written + block.bytes.length) gathered).1
      exact ⟨⟨by omega, by omega⟩, ih (by omega) hlast⟩

end Blocks

/-! ## One entry -/

/-- How the data of an entry is taken: what is left of the total, what becomes of a block, and what
there is before the first one. -/
structure DataStage where
  remaining : Int
  place : Nat → Bytes → ArchiveBlock → Option Bytes
  gathered : Bytes

section Entry

variable {τ : Type} (steps : ExtractionSteps) (policy : ArchiveExtractPolicy)
  (diversion : Option (Diversion τ)) (toDisk : Bool)

/-- Where the data of an entry goes, if the entry gets so far. -/
def dataStage (x : Extraction τ) (entry : ArchiveEntry) : Option DataStage :=
  match admitEntry steps policy x entry with
  | .error _ => none
  | .ok (x, parts) =>
    match diversion.filter (·.claims (joinParts parts)) with
    | some _ =>
      if entry.fileType = .directory then none
      else if entry.fileType = .symlink ∨ entry.hardlink.isSome then none
      else some ⟨remainingBytes policy x, fun _ content block => some (content ++ block.bytes), []⟩
    | none =>
      if !toDisk then none
      else
        match hardlinkTarget steps policy x entry with
        | .error _ => none
        | .ok target =>
          let leaf := leafOf x entry target
          match placeEntry x leaf target parts, steps.header x.headers with
          | some _, .ok => some ⟨remainingBytes policy x, fun i content block =>
              if steps.block x.headers i then some (writeAtOffset content block) else none,
              leaf.content.getD []⟩
          | _, _ => none

/-- The bytes counted of an entry. -/
def DataStage.written (stage : DataStage) (entry : ArchiveEntry) : Int :=
  (takeBlocks policy.maxEntryBytes stage.remaining stage.place 0 entry.blocks 0 stage.gathered).2.1

/-- The bytes of an entry that are delivered, to the disk or to the caller's sink. -/
def entryDelivered (x : Extraction τ) (entry : ArchiveEntry) : Nat :=
  match dataStage steps policy diversion toDisk x entry with
  | none => 0
  | some stage => deliveredBytes policy.maxEntryBytes stage.remaining stage.place 0 entry.blocks 0
      stage.gathered

/-- Each value that a counter takes with an entry fits. -/
structure EntryFits (x : Extraction τ) (entry : ArchiveEntry) : Prop where
  /-- `++entry_count`. -/
  count : 0 ≤ policy.maxEntries → FitsInt32 (x.entryCount + 1)
  /-- `policy.max_total_bytes - total_written`. -/
  left : 0 ≤ policy.maxTotalBytes → FitsInt64 (policy.maxTotalBytes - x.totalWritten)
  /-- `written`, and `total_written += written`. -/
  data : ∀ stage ∈ dataStage steps policy diversion toDisk x entry,
    BlocksFit policy.maxEntryBytes stage.remaining stage.place 0 entry.blocks 0 stage.gathered ∧
      FitsInt64 (x.totalWritten + stage.written policy entry)

/-- The entry is not one too many. -/
def withinCount (x : Extraction τ) : Bool :=
  policy.maxEntries < 0 || x.entryCount + 1 ≤ policy.maxEntries

/-- What is delivered of each entry that is processed. -/
def deliveredBy : List ArchiveEntry → Extraction τ → List Nat
  | [], _ => []
  | entry :: rest, x =>
    if withinCount policy x then
      entryDelivered steps policy diversion toDisk x entry ::
        if (extractEntry steps policy diversion toDisk x entry).1 then
          deliveredBy rest (extractEntry steps policy diversion toDisk x entry).2
        else []
    else []

/-- Each value that a counter takes in the walk fits. -/
def LoopFits : List ArchiveEntry → Extraction τ → Prop
  | [], _ => True
  | entry :: rest, x => EntryFits steps policy diversion toDisk x entry ∧
    ((extractEntry steps policy diversion toDisk x entry).1 = true →
      LoopFits rest (extractEntry steps policy diversion toDisk x entry).2)

variable {steps policy diversion toDisk} {x : Extraction τ} {entry : ArchiveEntry}

/-- What an entry with data does to the counter of all bytes. -/
structure StageRuns (policy : ArchiveExtractPolicy) (x : Extraction τ) (entry : ArchiveEntry)
    (stage : DataStage) (out : Bool × Extraction τ) : Prop where
  remaining : stage.remaining = remainingBytes policy x
  total : out.2.totalWritten = x.totalWritten + stage.written policy entry
  ok : out.1 = true → (takeBlocks policy.maxEntryBytes stage.remaining stage.place 0 entry.blocks 0
    stage.gathered).1 = true

theorem divertEntry_runs {d : Diversion τ} {path : String}
    (hdirectory : entry.fileType ≠ .directory)
    (hlink : ¬ (entry.fileType = .symlink ∨ entry.hardlink.isSome = true)) :
    StageRuns policy x entry
      ⟨remainingBytes policy x, fun _ content block => some (content ++ block.bytes), []⟩
      (divertEntry policy d x entry path) := by
  unfold divertEntry
  rw [if_neg hdirectory, if_neg hlink]
  have hcounted : ∀ remaining, (collectData policy.maxEntryBytes remaining entry).2.1 =
      (takeBlocks policy.maxEntryBytes remaining
        (fun _ content block => some (content ++ block.bytes)) 0 entry.blocks 0 []).2.1 := by
    intro remaining
    unfold collectData
    dsimp only
    split <;> rfl
  have htaken : ∀ remaining, (collectData policy.maxEntryBytes remaining entry).1 = true →
      (takeBlocks policy.maxEntryBytes remaining
        (fun _ content block => some (content ++ block.bytes)) 0 entry.blocks 0 []).1 = true := by
    intro remaining h
    unfold collectData at h
    dsimp only at h
    split at h
    · exact h
    · cases h
  dsimp only
  split
  · exact ⟨rfl, congrArg (x.totalWritten + ·) (hcounted _), fun h => by cases h⟩
  · next hcollected =>
    rw [Bool.not_eq_true, Bool.not_eq_false'] at hcollected
    exact ⟨rfl, congrArg (x.totalWritten + ·) (hcounted _), fun _ => htaken _ hcollected⟩

theorem fillEntry_runs {parts : List (List Char)} {leaf : FsNode Bytes}
    {tree : List (String × FsNode Bytes)} {headers : Nat} :
    StageRuns policy x entry
      ⟨remainingBytes policy x, fun i content block =>
        if steps.block headers i then some (writeAtOffset content block) else none,
        leaf.content.getD []⟩
      (fillEntry steps policy headers x entry parts leaf tree) := by
  unfold fillEntry
  dsimp only
  split
  · next hcopied => exact ⟨rfl, rfl, fun _ => ((Bool.and_eq_true _ _).mp hcopied).1⟩
  · exact ⟨rfl, rfl, fun h => by cases h⟩

/-- An entry is counted, and its bytes are when it has a data stage. -/
theorem extractEntry_runs (steps : ExtractionSteps) (policy : ArchiveExtractPolicy)
    (diversion : Option (Diversion τ)) (toDisk : Bool) (x : Extraction τ) (entry : ArchiveEntry) :
    (dataStage steps policy diversion toDisk x entry = none →
      (extractEntry steps policy diversion toDisk x entry).2.totalWritten = x.totalWritten) ∧
    ∀ stage, dataStage steps policy diversion toDisk x entry = some stage →
      StageRuns policy x entry stage (extractEntry steps policy diversion toDisk x entry) := by
  unfold dataStage extractEntry
  rcases hadmitted : admitEntry steps policy x entry with why | ⟨y, parts⟩
  · exact ⟨fun _ => rfl, fun _ h => by cases h⟩
  have hy : y.totalWritten = x.totalWritten := (admitEntry_admitted hadmitted).1.totalWritten
  have hsame : remainingBytes policy y = remainingBytes policy x := by
    unfold remainingBytes
    rw [hy]
  have hruns : ∀ {stage out}, StageRuns policy y entry stage out →
      StageRuns policy x entry stage out :=
    fun h => ⟨h.remaining.trans hsame, hy ▸ h.total, h.ok⟩
  dsimp only
  cases diversion.filter fun d => d.claims (joinParts parts) with
  | some d =>
    dsimp only
    by_cases hdirectory : entry.fileType = .directory
    · rw [if_pos hdirectory, divertEntry, if_pos hdirectory]
      exact ⟨fun _ => hy, fun _ h => by cases h⟩
    by_cases hlink : entry.fileType = .symlink ∨ entry.hardlink.isSome = true
    · rw [if_neg hdirectory, if_pos hlink, divertEntry, if_neg hdirectory, if_pos hlink]
      exact ⟨fun _ => hy, fun _ h => by cases h⟩
    · rw [if_neg hdirectory, if_neg hlink]
      refine ⟨fun h => absurd h (Option.some_ne_none _), fun stage h => ?_⟩
      rw [← Option.some.inj h]
      exact hruns (divertEntry_runs hdirectory hlink)
  | none =>
    cases toDisk with
    | false => exact ⟨fun _ => hy, fun _ h => by cases h⟩
    | true =>
      simp only [Bool.not_true, Bool.false_eq_true, if_false]
      unfold writeEntry
      rcases htarget : hardlinkTarget steps policy y entry with why | target
      · exact ⟨fun _ => hy, fun _ h => by cases h⟩
      dsimp only
      rcases hplace : placeEntry y (leafOf y entry target) target parts with _ | tree
      · exact ⟨fun _ => hy, fun _ h => by cases h⟩
      rcases hheader : steps.header y.headers with _ | _ | _
      · refine ⟨fun h => absurd h (Option.some_ne_none _), fun stage h => ?_⟩
        rw [← Option.some.inj h]
        -- the walk that wrote the header has the counters of the one before it
        have hfill := @fillEntry_runs _ steps policy (markWritten y entry (joinParts parts)) entry
          parts (leafOf y entry target) tree y.headers
        exact hruns ⟨hfill.remaining, hfill.total, hfill.ok⟩
      · exact ⟨fun _ => hy, fun _ h => by cases h⟩
      · exact ⟨fun _ => hy, fun _ h => by cases h⟩

theorem divertEntry_entryCount {d : Diversion τ} {path : String} :
    (divertEntry policy d x entry path).2.entryCount = x.entryCount := by
  unfold divertEntry
  dsimp only
  split
  · rfl
  split
  · rfl
  split <;> rfl

theorem writeEntry_entryCount {parts : List (List Char)} :
    (writeEntry steps policy x entry parts).2.entryCount = x.entryCount := by
  unfold writeEntry
  split
  · rfl
  dsimp only
  split
  · rfl
  · rfl
  · rfl
  · unfold fillEntry
    dsimp only
    split <;> rfl

/-- The walk goes on behind an entry that was counted and is not one too many. -/
theorem extractEntry_count (h : (extractEntry steps policy diversion toDisk x entry).1 = true)
    (hlimit : 0 ≤ policy.maxEntries) :
    (extractEntry steps policy diversion toDisk x entry).2.entryCount = x.entryCount + 1 ∧
      x.entryCount + 1 ≤ policy.maxEntries := by
  unfold extractEntry at h ⊢
  rcases hadmitted : admitEntry steps policy x entry with why | ⟨y, parts⟩
  · rw [hadmitted] at h
    cases h
  obtain ⟨hcount, hle⟩ := (admitEntry_admitted hadmitted).1.number hlimit
  rw [hcount] at hle
  refine ⟨?_, hle⟩
  dsimp only
  split
  · rw [divertEntry_entryCount, hcount]
  split
  · exact hcount
  · rw [writeEntry_entryCount, hcount]

/-- What is delivered of an entry is within the limits, and is what is counted when the walk goes
on behind it. -/
theorem entryDelivered_le (hpos : LeavesRoom policy.maxTotalBytes x.totalWritten) :
    let delivered := entryDelivered steps policy diversion toDisk x entry
    LeavesRoom policy.maxEntryBytes delivered ∧
    LeavesRoom policy.maxTotalBytes (x.totalWritten + delivered) ∧
    delivered ≤ blocksSize entry.blocks ∧
    ((extractEntry steps policy diversion toDisk x entry).1 = true →
      (extractEntry steps policy diversion toDisk x entry).2.totalWritten =
        x.totalWritten + delivered) := by
  obtain ⟨hnone, hsome⟩ := extractEntry_runs steps policy diversion toDisk x entry
  unfold entryDelivered
  cases hstage : dataStage steps policy diversion toDisk x entry with
  | none =>
    exact ⟨fun h => h, hpos.add_zero, Nat.zero_le _, fun _ => (hnone hstage).trans (Int.add_zero _).symm⟩
  | some stage =>
    have hruns := hsome stage hstage
    have hroom : LeavesRoom stage.remaining 0 := fun h => h
    obtain ⟨heach, htotal, hcounted⟩ := @deliveredBytes_le policy.maxEntryBytes stage.remaining
      stage.place entry.blocks 0 0 stage.gathered (fun h => h) hroom
    have hsize := (@takeBlocks_written_le policy.maxEntryBytes stage.remaining stage.place
      entry.blocks 0 0 stage.gathered).2
    rw [Int.zero_add] at heach htotal
    refine ⟨heach, fun h => ?_, by dsimp only; omega, fun hok => ?_⟩
    · have hbefore := hpos h
      have hremaining : stage.remaining = policy.maxTotalBytes - x.totalWritten := by
        rw [hruns.remaining, remainingBytes, if_neg (by omega)]
      have hdelivered := htotal (by omega)
      dsimp only
      omega
    · rw [hruns.total, DataStage.written, deliveredBytes_of_ok entry.blocks (hruns.ok hok),
        Int.zero_add]

/-! ## A whole walk -/

/-- **A walk keeps within its limits.** -/
theorem deliveredBy_le (entries : List ArchiveEntry) :
    ∀ {x : Extraction τ}, LeavesRoom policy.maxTotalBytes x.totalWritten →
      LeavesRoom policy.maxEntries x.entryCount →
      let delivered := deliveredBy steps policy diversion toDisk entries x
      LeavesRoom policy.maxEntries (x.entryCount + delivered.length) ∧
      (∀ bytes ∈ delivered, LeavesRoom policy.maxEntryBytes (bytes : Nat)) ∧
      LeavesRoom policy.maxTotalBytes (x.totalWritten + delivered.sum) := by
  induction entries with
  | nil =>
    intro x htotal hcount
    exact ⟨hcount.add_zero, List.forall_mem_nil _, htotal.add_zero⟩
  | cons entry rest ih =>
    intro x htotal hcount
    obtain ⟨heach, hsum, -, hnext⟩ := @entryDelivered_le _ steps policy diversion toDisk x entry htotal
    rw [deliveredBy]
    by_cases hwithin : withinCount policy x = true
    · have hone : LeavesRoom policy.maxEntries (x.entryCount + 1) := by
        intro h
        unfold withinCount at hwithin
        rw [Bool.or_eq_true, decide_eq_true_eq, decide_eq_true_eq] at hwithin
        omega
      rw [if_pos hwithin]
      by_cases hok : (extractEntry steps policy diversion toDisk x entry).1 = true
      · rw [if_pos hok]
        have hwritten := hnext hok
        obtain ⟨hcounts, heachs, hsums⟩ := @ih (extractEntry steps policy diversion toDisk x entry).2
          (hwritten ▸ hsum) fun h => by
            obtain ⟨heq, hle⟩ := extractEntry_count hok h
            omega
        refine ⟨fun h => ?_, List.forall_mem_cons.2 ⟨heach, heachs⟩, fun h => ?_⟩
        · have hle := hcounts h
          rw [(extractEntry_count hok h).1] at hle
          rw [List.length_cons]
          omega
        · have hle := hsums h
          rw [List.sum_cons]
          omega
      · rw [if_neg hok]
        refine ⟨hone, List.forall_mem_cons.2 ⟨heach, List.forall_mem_nil _⟩, fun h => ?_⟩
        have hle := hsum h
        rw [List.sum_cons, List.sum_nil]
        omega
    · rw [if_neg hwithin]
      exact ⟨hcount.add_zero, List.forall_mem_nil _, htotal.add_zero⟩

/-- The counters are wide enough: the number of entries may reach the largest `int` only if no more
entries come, and the bytes stay below the largest `qint64`, because there are no more of them or
because a limit stops them and no block gets from there to the end. -/
structure CountersRoom (policy : ArchiveExtractPolicy) (entries : List ArchiveEntry)
    (x : Extraction τ) : Prop where
  number : policy.maxEntries < 2147483647 ∨ x.entryCount + entries.length ≤ 2147483647
  limit : policy.maxTotalBytes ≤ 9223372036854775807
  bytes : x.totalWritten + (entries.map fun entry => blocksSize entry.blocks).sum
      ≤ 9223372036854775807 ∨
    (0 ≤ policy.maxTotalBytes ∧ ∀ entry ∈ entries, ∀ block ∈ entry.blocks,
      (block.bytes.length : Int) ≤ 9223372036854775807 - policy.maxTotalBytes)

theorem entryFits_of_room {rest : List ArchiveEntry}
    (hroom : CountersRoom policy (entry :: rest) x) (hpos : 0 ≤ x.totalWritten)
    (htotal : LeavesRoom policy.maxTotalBytes x.totalWritten) (hcounted : 0 ≤ policy.maxEntries → 0 ≤ x.entryCount)
    (hcount : LeavesRoom policy.maxEntries x.entryCount) :
    EntryFits steps policy diversion toDisk x entry := by
  obtain ⟨hentries, hlimit, hbytes⟩ := hroom
  rw [List.length_cons] at hentries
  refine ⟨fun h => ?_, fun h => ?_, fun stage hstage => ?_⟩
  · have hle := hcount h
    have hlow := hcounted h
    exact ⟨by omega, by omega⟩
  · have hle := htotal h
    exact ⟨by omega, by omega⟩
  · have hruns := (extractEntry_runs steps policy diversion toDisk x entry).2 stage hstage
    have hwritten : 0 ≤ stage.written policy entry ∧
        x.totalWritten + stage.written policy entry ≤ 9223372036854775807 := by
      obtain ⟨hlow, hhigh⟩ := @takeBlocks_written_le policy.maxEntryBytes stage.remaining
        stage.place entry.blocks 0 0 stage.gathered
      refine ⟨hlow, ?_⟩
      rcases hbytes with hsum | ⟨hpolicy, hmost⟩
      · rw [List.map_cons, List.sum_cons] at hsum
        unfold DataStage.written
        omega
      · have hle := htotal hpolicy
        have hremaining : stage.remaining = policy.maxTotalBytes - x.totalWritten := by
          rw [hruns.remaining, remainingBytes, if_neg (by omega)]
        have hlast := @takeBlocks_written_le_room policy.maxEntryBytes stage.remaining stage.place
          _ entry.blocks (by omega) (hmost entry List.mem_cons_self) (by omega) 0 0 stage.gathered
          (by omega)
        unfold DataStage.written
        omega
    refine ⟨blocksFit_of_written entry.blocks (Int.le_refl 0) ?_, by omega, hwritten.2⟩
    have hle := hwritten.2
    unfold DataStage.written at hle
    omega

/-- No counter of a walk overflows when the counters are wide enough. -/
theorem loopFits_of_room (entries : List ArchiveEntry) :
    ∀ {x : Extraction τ}, CountersRoom policy entries x → 0 ≤ x.totalWritten →
      LeavesRoom policy.maxTotalBytes x.totalWritten →
      (0 ≤ policy.maxEntries → 0 ≤ x.entryCount) →
      LeavesRoom policy.maxEntries x.entryCount →
      LoopFits steps policy diversion toDisk entries x := by
  induction entries with
  | nil => exact fun _ _ _ _ _ => trivial
  | cons entry rest ih =>
    intro x hroom hpos htotal hcounted hcount
    refine ⟨entryFits_of_room hroom hpos htotal hcounted hcount, fun hok => ?_⟩
    obtain ⟨-, hsum, hsize, hnext⟩ :=
      @entryDelivered_le _ steps policy diversion toDisk x entry htotal
    have hwritten := hnext hok
    obtain ⟨hnumber, hlimit, hbytes⟩ := hroom
    rw [List.length_cons] at hnumber
    rw [List.map_cons, List.sum_cons] at hbytes
    have hnumber' : policy.maxEntries < 2147483647 ∨
        (extractEntry steps policy diversion toDisk x entry).2.entryCount + rest.length
          ≤ 2147483647 := by
      by_cases hmax : 0 ≤ policy.maxEntries
      · have heq := (extractEntry_count hok hmax).1
        omega
      · exact .inl (by omega)
    have hcounts : 0 ≤ policy.maxEntries →
        0 ≤ (extractEntry steps policy diversion toDisk x entry).2.entryCount ∧
          (extractEntry steps policy diversion toDisk x entry).2.entryCount ≤ policy.maxEntries := by
      intro hmax
      obtain ⟨heq, hle⟩ := extractEntry_count hok hmax
      have hlow := hcounted hmax
      omega
    refine ih ⟨hnumber', hlimit, ?_⟩ (by omega) (hwritten ▸ hsum) (fun h => (hcounts h).1)
      fun h => (hcounts h).2
    rcases hbytes with hfew | ⟨hpolicy, hmost⟩
    · exact .inl (by omega)
    · exact .inr ⟨hpolicy, fun entry hmem => hmost entry (List.mem_cons_of_mem _ hmem)⟩

/-- **The limits of an extraction hold for every archive the counters are wide enough for**: no
more entries are processed, and no more bytes delivered of any of them or of all, than the policy
lets through, and no counter overflows. -/
theorem extraction_limits_hold (steps : ExtractionSteps) (policy : ArchiveExtractPolicy)
    (diversion : Option (Diversion τ)) (toDisk : Bool) (entries : List ArchiveEntry)
    (tree : List (String × FsNode Bytes)) (sink : τ)
    (hroom : CountersRoom policy entries { tree := tree, sink := sink : Extraction τ }) :
    let start : Extraction τ := { tree := tree, sink := sink }
    let delivered := deliveredBy steps policy diversion toDisk entries start
    LeavesRoom policy.maxEntries delivered.length ∧
    (∀ bytes ∈ delivered, LeavesRoom policy.maxEntryBytes (bytes : Nat)) ∧
    LeavesRoom policy.maxTotalBytes delivered.sum ∧
    LoopFits steps policy diversion toDisk entries start := by
  have hzero : ∀ limit, LeavesRoom limit 0 := fun _ h => h
  obtain ⟨hnumber, heach, htotal⟩ := @deliveredBy_le _ steps policy diversion toDisk entries
    { tree := tree, sink := sink } (hzero _) (hzero _)
  rw [Int.zero_add] at hnumber htotal
  exact ⟨hnumber, heach, htotal,
    loopFits_of_room entries hroom (Int.le_refl 0) (hzero _) (fun _ => Int.le_refl 0) (hzero _)⟩

end Entry

/-- One file of two bytes, under a policy that lets one file of two bytes through. -/
theorem extraction_limits_hold_solid :
    deliveredBy smoothSteps (.strict 2 1) none true [solidEntry] { tree := [], sink := () } = [2] ∧
    LoopFits smoothSteps (.strict 2 1) none true [solidEntry] { tree := [], sink := () } :=
  ⟨by decide +kernel, (extraction_limits_hold smoothSteps (.strict 2 1) none true [solidEntry] [] ()
    ⟨by decide, by decide, .inl (by decide)⟩).2.2.2⟩

/-- The caller claims every entry, and takes it. -/
def claimsAll : Diversion Unit := ⟨fun _ => true, fun _ _ sink => (true, sink)⟩

/-- The policy of `ZipRead`, for the limits its caller sets. -/
def zipReadPolicy (maxTotalBytes maxEntryBytes maxEntries : Int) : ArchiveExtractPolicy :=
  { ArchiveExtractPolicy.strict maxTotalBytes maxEntries with
    maxEntryBytes := maxEntryBytes
    rejectDuplicatePaths := true
    rejectCaseCollidingPaths := true
    requireUtf8Paths := true
    maxCompressionRatio := -1 }

/-- One of the two digits, which have no case. -/
def bitDigit (b : Bool) : Char := if b then '1' else '0'

theorem bitDigit_inj : ∀ {a b : Bool}, bitDigit a = bitDigit b → a = b := by decide

/-- A name for each number below `2 ^ 32`: its binary digits, the lowest first. -/
def bitName (i : Nat) : List Char := (List.range 32).map fun b => bitDigit (i.testBit b)

theorem bitName_inj {i j : Nat} (hi : i < 2 ^ 32) (hj : j < 2 ^ 32) (h : bitName i = bitName j) :
    i = j := by
  apply Nat.eq_of_testBit_eq
  intro b
  by_cases hb : b < 32
  · exact bitDigit_inj (List.map_inj_left.1 h b (List.mem_range.2 hb))
  · have hle : (2 : Nat) ^ 32 ≤ 2 ^ b := Nat.pow_le_pow_right (by decide) (by omega)
    rw [Nat.testBit_lt_two_pow (by omega), Nat.testBit_lt_two_pow (by omega)]

theorem mem_bitName {i : Nat} {c : Char} (h : c ∈ bitName i) : c = '0' ∨ c = '1' := by
  obtain ⟨b, -, rfl⟩ := List.mem_map.1 h
  cases i.testBit b
  · exact .inl rfl
  · exact .inr rfl

theorem bitName_plain (i : Nat) : IsPlainPart (bitName i) := by
  have hlength : (bitName i).length = 32 := by
    rw [bitName, List.length_map, List.length_range]
  refine ⟨?_, ?_, ?_, ?_, ?_⟩
  · exact fun h => absurd (h ▸ hlength) (by decide)
  · exact fun h => absurd (h ▸ hlength) (by decide)
  · exact fun h => absurd (h ▸ hlength) (by decide)
  · rintro c hc rfl
    exact absurd (mem_bitName hc) (by decide)
  · rintro c hc rfl
    exact absurd (mem_bitName hc) (by decide)

theorem utf16Length_bitName (i : Nat) : utf16Length (bitName i) = 32 := by
  have hunits : (bitName i).map (fun c => if 0xFFFF < c.toNat then 2 else 1) =
      List.replicate 32 1 := by
    refine List.eq_replicate_iff.2 ⟨by simp [bitName], fun units hunits => ?_⟩
    obtain ⟨c, hc, rfl⟩ := List.mem_map.1 hunits
    rcases mem_bitName hc with rfl | rfl <;> rfl
  rw [utf16Length, hunits]
  decide

/-- `ZipRead` takes the name as it is. -/
theorem validate_bitName (maxTotalBytes maxEntryBytes maxEntries : Int) (i : Nat) :
    validateArchiveEntryPath latinUnicode (zipReadPolicy maxTotalBytes maxEntryBytes maxEntries)
      (bitName i) = (.accept, [bitName i]) := by
  have hplain := bitName_plain i
  obtain ⟨first, second, rest, hname⟩ : ∃ first second rest,
      bitName i = first :: second :: rest := ⟨_, _, _, rfl⟩
  have hfirst : first ≠ '/' := hplain.noSlash first (hname ▸ List.mem_cons_self)
  have hdrive : hasDrivePrefix latinUnicode (bitName i) = false := by
    have hsecond : second = '0' ∨ second = '1' :=
      mem_bitName (hname ▸ List.mem_cons_of_mem _ List.mem_cons_self)
    rw [hname]
    rcases hsecond with rfl | rfl <;> rfl
  unfold validateArchiveEntryPath
  rw [if_neg (by simpa using hplain.ne_nil), if_neg]
  · dsimp only
    rw [hplain.map_separators, if_neg (by simp [hname, hfirst]), hdrive, if_neg Bool.false_ne_true,
      List.splitOnP_eq_singleton hplain.slash_false, hplain.filter_cons, hplain.keepParts_cons]
    rfl
  · rw [utf16Length_bitName]
    rintro ⟨-, hlong⟩
    have hwithin : ¬ (1024 : Int) < 32 := by decide
    exact hwithin hlong

/-- An entry that is counted, and nothing else. -/
def directoryEntry (i : Nat) : ArchiveEntry where
  pathName := bitName i
  fileType := .directory

/-- The walk behind the first `n` directories. -/
structure AfterDirectories (n : Nat) (x : Extraction Unit) : Prop where
  count : x.entryCount = n
  seen : ∀ path ∈ x.seenPaths, ∃ i < n, path = joinParts [bitName i]
  seenFolded : ∀ path ∈ x.seenPathsFolded, ∃ i < n, path = joinParts [bitName i]

/-- A directory more is counted, until the count is the largest `int`. -/
theorem AfterDirectories.next {n : Nat} {x : Extraction Unit} (h : AfterDirectories n x)
    (hn : n < 2147483647) :
    ∃ x', extractEntry smoothSteps (zipReadPolicy 1048576 1048576 2147483647) (some claimsAll) false
      x (directoryEntry n) = (true, x') ∧ AfterDirectories (n + 1) x' := by
  have hnew : ∀ paths : List String, (∀ path ∈ paths, ∃ i < n, path = joinParts [bitName i]) →
      joinParts [bitName n] ∉ paths := by
    intro paths hpaths hmem
    obtain ⟨i, hi, heq⟩ := hpaths _ hmem
    rw [joinParts, joinParts, String.ofList_inj, List.intercalate_singleton,
      List.intercalate_singleton] at heq
    have hsame := bitName_inj (by omega) (by omega) heq
    omega
  have hlater : ∀ paths : List String, (∀ path ∈ paths, ∃ i < n, path = joinParts [bitName i]) →
      ∀ path ∈ joinParts [bitName n] :: paths, ∃ i < n + 1, path = joinParts [bitName i] := by
    intro paths hpaths path hpath
    rcases List.mem_cons.1 hpath with rfl | hmem
    · exact ⟨n, Nat.lt_succ_self n, rfl⟩
    · obtain ⟨i, hi, heq⟩ := hpaths path hmem
      exact ⟨i, Nat.lt_succ_of_lt hi, heq⟩
  have hadmitted : admitEntry smoothSteps (zipReadPolicy 1048576 1048576 2147483647) x
      (directoryEntry n) = .ok ({ x with
        entryCount := x.entryCount + 1
        seenPaths := joinParts [bitName n] :: x.seenPaths
        seenPathsFolded := joinParts [bitName n] :: x.seenPathsFolded }, [bitName n]) := by
    have hwithin : ¬ 2147483647 < x.entryCount + 1 := by
      rw [h.count]
      omega
    unfold admitEntry
    simp only [directoryEntry, smoothSteps, validate_bitName]
    simp [zipReadPolicy, ArchiveExtractPolicy.strict, latinUnicode, ratioExceeded, hwithin,
      hnew _ h.seen, hnew _ h.seenFolded]
  refine ⟨{ x with
    entryCount := x.entryCount + 1
    seenPaths := joinParts [bitName n] :: x.seenPaths
    seenPathsFolded := joinParts [bitName n] :: x.seenPathsFolded }, ?_, ?_, ?_, ?_⟩
  · unfold extractEntry
    rw [hadmitted]
    rfl
  · show x.entryCount + 1 = ((n + 1 : Nat) : Int)
    rw [h.count]
    rfl
  · exact hlater _ h.seen
  · exact hlater _ h.seenFolded

theorem not_loopFits_directories (more : Nat) :
    ∀ {n : Nat} {x : Extraction Unit}, AfterDirectories n x → n ≤ 2147483647 →
      2147483648 ≤ n + more →
      ¬ LoopFits smoothSteps (zipReadPolicy 1048576 1048576 2147483647) (some claimsAll) false
        ((List.range' n more).map directoryEntry) x := by
  induction more with
  | zero =>
    intro n x _ hle hge
    omega
  | succ more ih =>
    intro n x h hle hge hfits
    obtain ⟨hentry, hrest⟩ := hfits
    by_cases hlast : n = 2147483647
    -- the count is raised before it is compared, so the limit does not stop it here
    · have hbig := (hentry.count (by decide)).2
      rw [h.count] at hbig
      omega
    · obtain ⟨x', hstep, hnext⟩ := h.next (by omega)
      rw [hstep] at hrest
      exact ih hnext (by omega) (by omega) (hrest rfl)

/-- With the largest `int` as the limit, the count of entries overflows behind it: `ZipRead` walks
through directories that differ in their names. -/
theorem entry_count_overflows :
    ¬ LoopFits smoothSteps (zipReadPolicy 1048576 1048576 2147483647) (some claimsAll) false
      ((List.range' 0 2147483648).map directoryEntry) { tree := [], sink := () } :=
  not_loopFits_directories 2147483648
    ⟨rfl, List.forall_mem_nil _, List.forall_mem_nil _⟩ (by decide) (by decide)

end GpgFrontend
