import GpgFrontend.Function.ArchiveFileOperator

/-!
# What an extraction makes of an archive

- `admitEntry_ok`, `divertEntry_tree`, `writeEntry_find`: what one entry can change.
- `extractLoop_find`: entries below a directory leave the rest of the destination alone.
-/

namespace GpgFrontend

/-! ## Names -/

section Names

variable {unicode : QtUnicode} {policy : ArchiveExtractPolicy}

/-- The parts a path is split into: both separators count. -/
def slashParts (pathName : List Char) : List (List Char) :=
  ((pathName.map fun c => if c = '\\' then '/' else c).splitOnP (· == '/')).filter fun part =>
    !part.isEmpty

/-- The parts of an accepted name are those of the name. -/
theorem parts_of_validate {pathName : List Char} {parts : List (List Char)}
    (h : validateArchiveEntryPath unicode policy pathName = (.accept, parts)) :
    keepParts (slashParts pathName) = some parts := by
  unfold validateArchiveEntryPath at h
  split at h
  · cases h
  split at h
  · cases h
  dsimp only at h
  split at h
  · cases h
  split at h
  · cases h
  split at h
  · cases h
  · next kept hkept =>
    split at h
    · cases h
    split at h
    · cases h
    · obtain ⟨-, rfl⟩ := Prod.mk.inj h
      exact hkept

/-- A part that stands for itself. -/
structure IsPlainPart (part : List Char) : Prop where
  ne_nil : part ≠ []
  ne_dot : part ≠ ['.']
  ne_dotdot : part ≠ ['.', '.']
  noSlash : ∀ c ∈ part, c ≠ '/'
  noBackslash : ∀ c ∈ part, c ≠ '\\'

variable {part : List Char}

theorem IsPlainPart.map_separators (h : IsPlainPart part) :
    (part.map fun c => if c = '\\' then '/' else c) = part := by
  rw [List.map_congr_left (g := id), List.map_id]
  intro c hc
  exact if_neg (h.noBackslash c hc)

theorem IsPlainPart.slash_false (h : IsPlainPart part) : ∀ c ∈ part, (c == '/') = false :=
  fun c hc => beq_eq_false_iff_ne.mpr (h.noSlash c hc)

theorem IsPlainPart.filter_cons (h : IsPlainPart part) (rest : List (List Char)) :
    ((part :: rest).filter fun part => !part.isEmpty) =
      part :: rest.filter fun part => !part.isEmpty := by
  rw [List.filter_cons_of_pos]
  rw [List.isEmpty_eq_false_iff.mpr h.ne_nil]
  rfl

theorem IsPlainPart.keepParts_cons (h : IsPlainPart part) (rest : List (List Char)) :
    keepParts (part :: rest) = (keepParts rest).map (part :: ·) := by
  rw [keepParts, if_neg h.ne_dot, if_neg h.ne_dotdot]

/-- An accepted name below a directory stays below it. -/
theorem validate_below {top rest : List Char} (htop : IsPlainPart top)
    {parts : List (List Char)}
    (h : validateArchiveEntryPath unicode policy (top ++ '/' :: rest) = (.accept, parts)) :
    ∃ below, parts = top :: below := by
  have hparts := parts_of_validate h
  rw [slashParts, List.map_append, List.map_cons, htop.map_separators, if_neg (by decide),
    List.splitOnP_append_cons_of_forall_mem htop.slash_false _ rfl, htop.filter_cons,
    htop.keepParts_cons] at hparts
  obtain ⟨below, -, rfl⟩ := Option.map_eq_some_iff.mp hparts
  exact ⟨below, rfl⟩

/-- An accepted name of one part is that part. -/
theorem validate_plain {top : List Char} (htop : IsPlainPart top) {parts : List (List Char)}
    (h : validateArchiveEntryPath unicode policy top = (.accept, parts)) : parts = [top] := by
  have hparts := parts_of_validate h
  rw [slashParts, htop.map_separators, List.splitOnP_eq_singleton htop.slash_false,
    htop.filter_cons, htop.keepParts_cons] at hparts
  exact (Option.some.inj hparts).symm

end Names

/-! ## What one entry can change -/

section Entry

variable {τ : Type} {steps : ExtractionSteps} {policy : ArchiveExtractPolicy}
  {x x' : Extraction τ} {entry : ArchiveEntry} {parts : List (List Char)} {name : String}

theorem ok_of_ite_error {ε α : Type} {c : Prop} [Decidable c] {why : ε} {r : Except ε α} {a : α}
    (h : (if c then .error why else r) = .ok a) : r = .ok a := by
  by_cases hc : c
  · rw [if_pos hc] at h
    cases h
  · rwa [if_neg hc] at h

/-- Admitting an entry leaves the destination and the sink as they are. -/
theorem admitEntry_ok (h : admitEntry steps policy x entry = .ok (x', parts)) :
    validateArchiveEntryPath steps.unicode policy entry.pathName = (.accept, parts) ∧
      x'.tree = x.tree ∧ x'.sink = x.sink := by
  unfold admitEntry at h
  extract_lets name y at h
  have hy : y.tree = x.tree ∧ y.sink = x.sink := by
    unfold y
    split <;> exact ⟨rfl, rfl⟩
  -- the three checks before the name
  iterate 3 replace h := ok_of_ite_error h
  rcases hvalid : validateArchiveEntryPath steps.unicode policy entry.pathName with ⟨verdict, kept⟩
  rw [hvalid] at h
  cases verdict with
  | accept =>
    -- the seven behind it
    iterate 7 replace h := ok_of_ite_error h
    obtain ⟨rfl, rfl⟩ := Prod.mk.inj (Except.ok.inj h)
    exact ⟨rfl, hy⟩
  | _ => cases h

theorem divertEntry_tree {diversion : Diversion τ} {path : String} :
    (divertEntry policy diversion x entry path).2.tree = x.tree := by
  unfold divertEntry
  dsimp only
  split
  · rfl
  split
  · rfl
  split <;> rfl

theorem fillEntry_places {headers : Nat} {leaf : FsNode Bytes}
    {tree : List (String × FsNode Bytes)} :
    (fillEntry steps policy headers x entry parts leaf tree).2.sink = x.sink ∧
      ((fillEntry steps policy headers x entry parts leaf tree).2.tree = tree ∨
        ∃ content, FsNode.place (.file content) (partNames parts) tree =
          some (fillEntry steps policy headers x entry parts leaf tree).2.tree) := by
  unfold fillEntry
  extract_lets copied y
  have hy : y.sink = x.sink ∧ (y.tree = tree ∨
      ∃ content, FsNode.place (.file content) (partNames parts) tree = some y.tree) := by
    refine ⟨rfl, ?_⟩
    unfold y
    dsimp only
    split
    · rcases hplace : FsNode.place (.file copied.2.2) (partNames parts) tree with _ | after
      · exact .inl rfl
      · exact .inr ⟨copied.2.2, hplace⟩
    · exact .inl rfl
  split
  · exact hy
  · exact hy

theorem placeEntry_some {leaf : FsNode Bytes} {target : Option (List (List Char))}
    {tree : List (String × FsNode Bytes)} (h : placeEntry x leaf target parts = some tree) :
    linkable x parts target = true ∧ FsNode.place leaf (partNames parts) x.tree = some tree := by
  unfold placeEntry at h
  split at h
  · next hlinkable => exact ⟨hlinkable, h⟩
  · cases h

theorem placeEntry_none (x : Extraction τ) (leaf : FsNode Bytes) (parts : List (List Char)) :
    placeEntry x leaf none parts = FsNode.place leaf (partNames parts) x.tree := rfl

/-- An entry that goes to the disk: the sink stays as it is, and what is placed in the
destination is at the entry's path, first what the header makes and then the data. -/
theorem writeEntry_places (steps : ExtractionSteps) (policy : ArchiveExtractPolicy)
    (x : Extraction τ) (entry : ArchiveEntry) (parts : List (List Char)) :
    (writeEntry steps policy x entry parts).2.sink = x.sink ∧
      ((writeEntry steps policy x entry parts).2.tree = x.tree ∨
        ∃ leaf tree, FsNode.place leaf (partNames parts) x.tree = some tree ∧
          ((writeEntry steps policy x entry parts).2.tree = tree ∨
            ∃ content, FsNode.place (.file content) (partNames parts) tree =
              some (writeEntry steps policy x entry parts).2.tree)) := by
  unfold writeEntry
  split
  · exact ⟨rfl, .inl rfl⟩
  dsimp only
  split
  · exact ⟨rfl, .inl rfl⟩
  · exact ⟨rfl, .inl rfl⟩
  · next hplace _ => exact ⟨rfl, .inr ⟨_, _, (placeEntry_some hplace).2, .inl rfl⟩⟩
  · next hplace _ =>
    obtain ⟨hsink, hfilled⟩ := fillEntry_places
    exact ⟨hsink, .inr ⟨_, _, (placeEntry_some hplace).2, hfilled⟩⟩

/-- An entry that goes to the disk touches nothing but the first name of its path. -/
theorem writeEntry_find {top : List Char} {below : List (List Char)}
    (hne : name ≠ String.ofList top) :
    FsNode.find name (writeEntry steps policy x entry (top :: below)).2.tree =
      FsNode.find name x.tree := by
  obtain ⟨-, hsame | ⟨leaf, tree, hplace, hleft | ⟨content, hagain⟩⟩⟩ :=
    writeEntry_places steps policy x entry (top :: below)
  · rw [hsame]
  · rw [hleft, FsNode.find_place_ne hplace hne]
  · rw [FsNode.find_place_ne hagain hne, FsNode.find_place_ne hplace hne]

variable {diversion : Option (Diversion τ)} {toDisk : Bool}

/-- An entry below a directory leaves the rest of the destination as it is. -/
theorem extractEntry_find {top rest : List Char} (htop : IsPlainPart top)
    (hentry : entry.pathName = top ++ '/' :: rest) (hne : name ≠ String.ofList top) :
    FsNode.find name (extractEntry steps policy diversion toDisk x entry).2.tree =
      FsNode.find name x.tree := by
  unfold extractEntry
  rcases hadmitted : admitEntry steps policy x entry with why | ⟨x', parts⟩
  · rfl
  obtain ⟨hvalid, htree, -⟩ := admitEntry_ok hadmitted
  obtain ⟨below, rfl⟩ := validate_below htop (hentry ▸ hvalid)
  dsimp only
  split
  · rw [divertEntry_tree, htree]
  split
  · exact congrArg _ htree
  · rw [writeEntry_find hne, htree]

/-- Entries below a directory leave the rest of the destination as it is. -/
theorem extractLoop_find {top : List Char} (htop : IsPlainPart top)
    (hne : name ≠ String.ofList top) (entries : List ArchiveEntry)
    (hentries : ∀ entry ∈ entries, ∃ rest, entry.pathName = top ++ '/' :: rest) :
    ∀ {x : Extraction τ}, FsNode.find name
      (extractLoop steps policy diversion toDisk entries x).2.tree = FsNode.find name x.tree := by
  induction entries with
  | nil => exact rfl
  | cons entry entries ih =>
    intro x
    obtain ⟨rest, hentry⟩ := hentries entry List.mem_cons_self
    have hstep : FsNode.find name (extractEntry steps policy diversion toDisk x entry).2.tree =
        FsNode.find name x.tree := extractEntry_find htop hentry hne
    rw [extractLoop]
    split
    · rw [ih fun e he => hentries e (List.mem_cons_of_mem entry he), hstep]
    · exact hstep

/-- A walk that comes to its end is where its loop ended. -/
theorem walkArchive_ok {stream : ArchiveStream}
    (h : (walkArchive steps policy diversion toDisk stream x).1 = true) :
    walkArchive steps policy diversion toDisk stream x =
      extractLoop steps policy diversion toDisk stream.entries x := by
  unfold walkArchive at h ⊢
  extract_lets at h ⊢
  split
  · rfl
  next hgo =>
  rw [if_neg hgo] at h
  split
  · next hend =>
    rw [if_pos hend] at h
    cases h
  next hend =>
  rw [if_neg hend] at h
  split
  · next hratio =>
    rw [if_pos hratio] at h
    cases h
  · rfl

end Entry

/-! ## The data of an entry -/

/-- The blocks lie one behind the other from `offset` on and hold `bytes`. -/
def Tiles : List ArchiveBlock → Nat → Bytes → Prop
  | [], _, bytes => bytes = []
  | block :: rest, offset, bytes => block.offset = offset ∧
      ∃ later, bytes = block.bytes ++ later ∧ Tiles rest (offset + block.bytes.length) later

theorem writeAtOffset_end {content : Bytes} {block : ArchiveBlock}
    (h : block.offset = content.length) : writeAtOffset content block = content ++ block.bytes := by
  unfold writeAtOffset
  split
  · next hnil => rw [hnil, List.append_nil]
  · rw [h, Nat.sub_self, List.replicate_zero, List.append_nil, List.take_length,
      List.drop_of_length_le (Nat.le_add_right _ _), List.append_nil]

section Blocks

variable {maxEntryBytes remaining : Int} {place : Nat → Bytes → ArchiveBlock → Option Bytes}

/-- Blocks that lie one behind the other, taken to their end. -/
theorem takeBlocks_ok
    (hplace : ∀ i gathered block, block.offset = gathered.length →
      place i gathered block = none ∨ place i gathered block = some (gathered ++ block.bytes))
    (blocks : List ArchiveBlock) :
    ∀ {i : Nat} {written : Int} {gathered bytes : Bytes}, Tiles blocks gathered.length bytes →
      (takeBlocks maxEntryBytes remaining place i blocks written gathered).1 = true →
      (takeBlocks maxEntryBytes remaining place i blocks written gathered).2.2 =
        gathered ++ bytes := by
  induction blocks with
  | nil =>
    intro i written gathered bytes htiles _
    rw [show bytes = [] from htiles, List.append_nil]
    rfl
  | cons block rest ih =>
    intro i written gathered bytes htiles hok
    obtain ⟨hoffset, later, rfl, htiles⟩ := htiles
    rw [takeBlocks] at hok ⊢
    split at hok
    · cases hok
    rw [if_neg ‹_›]
    split at hok
    · cases hok
    rw [if_neg ‹_›]
    rcases hplace i gathered block hoffset with hnone | hsome
    · rw [hnone] at hok
      cases hok
    · rw [hsome] at hok ⊢
      dsimp only at hok ⊢
      rw [← List.length_append] at htiles
      rw [ih htiles hok, List.append_assoc]

end Blocks

/-! ## What an archive carries -/

namespace ArchiveMember

/-- What is stored of a member. -/
def content (member : ArchiveMember) : Bytes := if member.directory then [] else member.bytes

/-- The name a member goes by in the archive: that of a directory ends in a slash. -/
def pathName (member : ArchiveMember) : List Char :=
  member.relativePath.toList ++ if member.directory then ['/'] else []

def fileType (member : ArchiveMember) : ArchiveFileType :=
  if member.directory then .directory else .regular

end ArchiveMember

/-- The entry carries the member; its data does when it reads to its end. -/
structure ArchiveEntry.Carries (entry : ArchiveEntry) (member : ArchiveMember) : Prop where
  pathName : entry.pathName = member.pathName
  fileType : entry.fileType = member.fileType
  hardlink : entry.hardlink = none
  data : entry.readsToEnd = true → Tiles entry.blocks 0 member.content

theorem carried_of_mem {entries : List ArchiveEntry} {members : List ArchiveMember}
    (h : List.Forall₂ ArchiveEntry.Carries entries members) {entry : ArchiveEntry}
    (hentry : entry ∈ entries) : ∃ member ∈ members, entry.Carries member := by
  induction h with
  | nil => cases hentry
  | @cons e m entries members hcarries _ ih =>
    rcases List.mem_cons.mp hentry with rfl | hlater
    · exact ⟨m, List.mem_cons_self, hcarries⟩
    · obtain ⟨member, hmember, hcarried⟩ := ih hlater
      exact ⟨member, List.mem_cons_of_mem m hmember, hcarried⟩

section Carried

variable {τ : Type} {steps : ExtractionSteps} {policy : ArchiveExtractPolicy}
  {x : Extraction τ} {entry : ArchiveEntry} {member : ArchiveMember}

theorem hardlinkTarget_none (h : entry.hardlink = none) :
    hardlinkTarget steps policy x entry = .ok none := by
  rw [hardlinkTarget, h]

theorem leafOf_file (hcarries : entry.Carries member) (hfile : member.directory = false) :
    leafOf x entry none = .file [] := by
  rw [leafOf, hcarries.fileType, ArchiveMember.fileType, hfile]
  rfl

/-- The blocks a file is copied from are those of the member. -/
theorem copyData_ok {headers : Nat} {maxEntryBytes remaining : Int}
    (hcarries : entry.Carries member)
    (hok : (copyData steps headers maxEntryBytes remaining entry []).1 = true) :
    (copyData steps headers maxEntryBytes remaining entry []).2.2 = member.content := by
  obtain ⟨htaken, hend⟩ := (Bool.and_eq_true _ _).mp hok
  refine takeBlocks_ok ?_ entry.blocks (hcarries.data hend) htaken
  intro i gathered block hoffset
  split
  · exact .inr (by rw [writeAtOffset_end hoffset])
  · exact .inl rfl

/-- Filling a file puts the member's data in its place. -/
theorem fillEntry_ok {headers : Nat} {parts : List (List Char)}
    {tree : List (String × FsNode Bytes)} (hcarries : entry.Carries member)
    (hgo : (fillEntry steps policy headers x entry parts (.file []) tree).1 = true) :
    (fillEntry steps policy headers x entry parts (.file []) tree).2.tree =
      (FsNode.place (.file member.content) (partNames parts) tree).getD tree := by
  unfold fillEntry at hgo ⊢
  dsimp only at hgo ⊢
  split at hgo
  · next hcopied =>
    rw [if_pos hcopied]
    exact congrArg (fun content => (FsNode.place (.file content) (partNames parts) tree).getD tree)
      (copyData_ok hcarries hcopied)
  · cases hgo

/-- A file at the top of an empty destination: what there is of it afterwards is the
file, or an empty one when its header came with a warning. -/
theorem writeEntry_first {top : List Char} (hcarries : entry.Carries member)
    (hfile : member.directory = false) (htree : x.tree = [])
    (hgo : (writeEntry steps policy x entry [top]).1 = true) :
    ∃ content, (writeEntry steps policy x entry [top]).2.tree =
      [(String.ofList top, .file content)] ∧ (content = [] ∨ content = member.content) := by
  have hplaced : ∀ leaf : FsNode Bytes,
      FsNode.place leaf (partNames [top]) [] = some [(String.ofList top, leaf)] := fun _ => rfl
  unfold writeEntry at hgo ⊢
  rw [hardlinkTarget_none hcarries.hardlink] at hgo ⊢
  dsimp only at hgo ⊢
  rw [leafOf_file hcarries hfile, placeEntry_none, htree, hplaced] at hgo ⊢
  cases hheader : steps.header x.headers with
  | failed =>
    rw [hheader] at hgo
    cases hgo
  | warn => exact ⟨[], rfl, .inl rfl⟩
  | ok =>
    rw [hheader] at hgo
    refine ⟨member.content, (fillEntry_ok hcarries hgo).trans ?_, .inr rfl⟩
    obtain ⟨again, hfirst, hagain⟩ := FsNode.place_file_again member.content (hplaced (.file []))
    rw [hplaced] at hfirst
    rw [hagain, ← hfirst]
    rfl

end Carried

end GpgFrontend
