import GpgFrontend.Function.ArchiveEntryPaths
import GpgFrontend.Function.ArchiveMembers

/-!
# Entries with holes

`CopyData` writes each block of an entry at its offset, and `CollectData`, its mirror for entries
that stay in memory, puts one block behind the other.

- `collect_eq_copy_iff`: **the two agree exactly on entries without holes.**
-/

namespace GpgFrontend

/-- Blocks come in the order of their offsets and do not overlap. Where a block without bytes
stands does not matter. -/
def BlocksInOrder : List ArchiveBlock → Nat → Prop
  | [], _ => True
  | block :: rest, start =>
    (block.bytes = [] ∧ BlocksInOrder rest start) ∨
    (block.bytes ≠ [] ∧ start ≤ block.offset ∧
      BlocksInOrder rest (block.offset + block.bytes.length))

/-- Each block with bytes starts where the one before it ended. -/
def Gapless : List ArchiveBlock → Nat → Prop
  | [], _ => True
  | block :: rest, start =>
    (block.bytes ≠ [] → block.offset = start) ∧ Gapless rest (start + block.bytes.length)

/-- The blocks from `start` on, with zeros where none reaches. -/
def laidOut : List ArchiveBlock → Nat → Bytes
  | [], _ => []
  | block :: rest, start =>
    if block.bytes = [] then laidOut rest start
    else List.replicate (block.offset - start) 0 ++
      (block.bytes ++ laidOut rest (block.offset + block.bytes.length))

/-- A block at the end of a file or behind it. -/
theorem writeAtOffset_behind {content : Bytes} {block : ArchiveBlock} (hne : block.bytes ≠ [])
    (h : content.length ≤ block.offset) : writeAtOffset content block
      = content ++ List.replicate (block.offset - content.length) 0 ++ block.bytes := by
  have hlength : (content ++ List.replicate (block.offset - content.length) (0 : UInt8)).length
      = block.offset := by
    rw [List.length_append, List.length_replicate]
    omega
  rw [writeAtOffset, if_neg hne, List.take_of_length_le (Nat.le_of_eq hlength),
    List.drop_of_length_le (by omega), List.append_nil]

section Blocks

variable {maxEntryBytes remaining : Int}

/-- What the loop of `CopyData` leaves in a file. -/
theorem takeBlocks_laidOut (writes : Nat → Bool) (blocks : List ArchiveBlock) :
    ∀ {i : Nat} {written : Int} {content : Bytes}, BlocksInOrder blocks content.length →
      (takeBlocks maxEntryBytes remaining
        (fun i content block => if writes i then some (writeAtOffset content block) else none)
        i blocks written content).1 = true →
      (takeBlocks maxEntryBytes remaining
        (fun i content block => if writes i then some (writeAtOffset content block) else none)
        i blocks written content).2.2 = content ++ laidOut blocks content.length := by
  induction blocks with
  | nil =>
    intro i written content _ _
    exact (List.append_nil _).symm
  | cons block rest ih =>
    intro i written content horder hok
    rw [takeBlocks] at hok ⊢
    split at hok
    · cases hok
    next hentry =>
    rw [if_neg hentry]
    split at hok
    · cases hok
    next hroom =>
    rw [if_neg hroom]
    by_cases hwrites : writes i = true
    · rw [if_pos hwrites] at hok ⊢
      dsimp only at hok ⊢
      rcases horder with ⟨hnil, hrest⟩ | ⟨hne, hoffset, hrest⟩
      · rw [writeAtOffset, if_pos hnil] at hok ⊢
        rw [laidOut, if_pos hnil]
        exact ih hrest hok
      · rw [writeAtOffset_behind hne hoffset] at hok ⊢
        have hlength : (content ++ List.replicate (block.offset - content.length) 0
            ++ block.bytes).length = block.offset + block.bytes.length := by
          rw [List.length_append, List.length_append, List.length_replicate]
          omega
        rw [ih (hlength ▸ hrest) hok, hlength, laidOut, if_neg hne]
        simp only [List.append_assoc]
    · rw [if_neg hwrites] at hok
      cases hok

/-- Blocks that pass the limits on their way to a file pass them on their way into memory. -/
theorem takeBlocks_append_ok {place : Nat → Bytes → ArchiveBlock → Option Bytes}
    (blocks : List ArchiveBlock) :
    ∀ {i : Nat} {written : Int} {content : Bytes} (gathered : Bytes),
      (takeBlocks maxEntryBytes remaining place i blocks written content).1 = true →
      (takeBlocks maxEntryBytes remaining (fun _ content block => some (content ++ block.bytes))
        i blocks written gathered).1 = true := by
  induction blocks with
  | nil => exact fun _ _ => rfl
  | cons block rest ih =>
    intro i written content gathered hok
    rw [takeBlocks] at hok ⊢
    split at hok
    · cases hok
    next hentry =>
    rw [if_neg hentry]
    split at hok
    · cases hok
    next hroom =>
    rw [if_neg hroom]
    split at hok
    · cases hok
    · exact ih _ hok

end Blocks

/-- A layout holds the bytes of its blocks, and its holes. -/
theorem laidOut_length (blocks : List ArchiveBlock) :
    ∀ start, (blocks.flatMap ArchiveBlock.bytes).length ≤ (laidOut blocks start).length := by
  induction blocks with
  | nil => exact fun _ => Nat.le_refl _
  | cons block rest ih =>
    intro start
    rw [laidOut, List.flatMap_cons, List.length_append]
    split
    · next hnil =>
      have hrest := ih start
      rw [hnil, List.length_nil]
      omega
    · have hrest := ih (block.offset + block.bytes.length)
      rw [List.length_append, List.length_append]
      omega

theorem laidOut_eq_iff (blocks : List ArchiveBlock) :
    ∀ {start}, BlocksInOrder blocks start →
      (laidOut blocks start = blocks.flatMap ArchiveBlock.bytes ↔ Gapless blocks start) := by
  induction blocks with
  | nil => exact fun _ => ⟨fun _ => trivial, fun _ => rfl⟩
  | cons block rest ih =>
    intro start horder
    rw [laidOut, List.flatMap_cons, Gapless]
    rcases horder with ⟨hnil, hrest⟩ | ⟨hne, hoffset, hrest⟩
    · rw [if_pos hnil, hnil, List.nil_append, List.length_nil, Nat.add_zero, ih hrest]
      exact ⟨fun h => ⟨fun hne => absurd rfl hne, h⟩, fun h => h.2⟩
    · rw [if_neg hne]
      constructor
      · intro heq
        -- the layout is no longer than the bytes: there is no hole in front of this block
        have hlength := congrArg List.length heq
        simp only [List.length_append, List.length_replicate] at hlength
        have hlater := laidOut_length rest (block.offset + block.bytes.length)
        have hstart : block.offset = start := by omega
        rw [hstart] at hrest
        rw [hstart, Nat.sub_self, List.replicate_zero, List.nil_append] at heq
        exact ⟨fun _ => hstart, (ih hrest).1 (List.append_cancel_left heq)⟩
      · rintro ⟨hstart, hgapless⟩
        replace hstart := hstart hne
        rw [hstart] at hrest
        rw [hstart, Nat.sub_self, List.replicate_zero, List.nil_append, (ih hrest).2 hgapless]

section Entry

variable {steps : ExtractionSteps} {headers : Nat} {maxEntryBytes remaining : Int}
  {entry : ArchiveEntry}

/-- What `CopyData` leaves in the empty file a header made. -/
theorem copyData_laidOut (horder : BlocksInOrder entry.blocks 0)
    (hok : (copyData steps headers maxEntryBytes remaining entry []).1 = true) :
    (copyData steps headers maxEntryBytes remaining entry []).2.2 = laidOut entry.blocks 0 := by
  obtain ⟨htaken, -⟩ := (Bool.and_eq_true _ _).mp hok
  have hempty : BlocksInOrder entry.blocks ([] : Bytes).length := horder
  have hlaid := takeBlocks_laidOut (steps.block headers) entry.blocks hempty htaken
  rwa [List.nil_append] at hlaid

/-- What a file takes, memory takes. -/
theorem collectData_of_copyData
    (hok : (copyData steps headers maxEntryBytes remaining entry []).1 = true) :
    (collectData maxEntryBytes remaining entry).1 = true := by
  obtain ⟨htaken, hend⟩ := (Bool.and_eq_true _ _).mp hok
  have hcollected := takeBlocks_append_ok entry.blocks [] htaken
  unfold collectData
  dsimp only
  rw [hcollected, hend]
  exact hcollected

end Entry

/-- **Memory and disk agree on an entry exactly when it has no hole.** -/
theorem collect_eq_copy_iff (steps : ExtractionSteps) (headers : Nat)
    (maxEntryBytes remaining : Int) (entry : ArchiveEntry)
    (horder : BlocksInOrder entry.blocks 0)
    (hok : (copyData steps headers maxEntryBytes remaining entry []).1 = true) :
    (collectData maxEntryBytes remaining entry).2.2
        = (copyData steps headers maxEntryBytes remaining entry []).2.2 ↔
      Gapless entry.blocks 0 := by
  have hcollected := (collectData_ok (collectData_of_copyData hok)).1
  rw [hcollected, copyData_laidOut horder hok, ← laidOut_eq_iff entry.blocks horder]
  exact eq_comm

/-- Nothing fails, and letters are those of the Latin alphabet. -/
def smoothSteps : ExtractionSteps where
  unicode := latinUnicode
  makesDestination := true
  header _ := .ok
  block _ _ := true
  frees := true
  closes := true
  errorText := ""
  removeDestination _ := none

/-- Two blocks with a hole of one byte between them. -/
def holedEntry : ArchiveEntry where
  pathName := ['a']
  blocks := [⟨0, [1]⟩, ⟨2, [2]⟩]

/-- Two blocks, one behind the other. -/
def solidEntry : ArchiveEntry where
  pathName := ['a']
  blocks := [⟨0, [1]⟩, ⟨1, [2]⟩]

theorem collect_eq_copy_solid : (collectData (-1) (-1) solidEntry).2.2
    = (copyData smoothSteps 0 (-1) (-1) solidEntry []).2.2 :=
  (collect_eq_copy_iff smoothSteps 0 (-1) (-1) solidEntry
    (.inr ⟨by decide, by decide, .inr ⟨by decide, by decide, trivial⟩⟩) (by decide)).2
    ⟨fun _ => rfl, fun _ => rfl, trivial⟩

/-- The hole is lost in memory. -/
theorem hole_lost_in_memory : BlocksInOrder holedEntry.blocks 0 ∧
    (copyData smoothSteps 0 (-1) (-1) holedEntry []) = (true, 2, [1, 0, 2]) ∧
    (collectData (-1) (-1) holedEntry) = (true, 2, [1, 2]) :=
  ⟨.inr ⟨by decide, by decide, .inr ⟨by decide, by decide, trivial⟩⟩, by decide, by decide⟩

end GpgFrontend
