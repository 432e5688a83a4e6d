import GpgFrontend.Function.ArchiveExtraction

/-!
# Reading the members of an archive (`ArchiveFileOperator::ReadArchiveMembersSync`)

The walk without a destination: every entry is claimed, and the bytes of each go to the
caller's sink.

- `readArchiveMembers_ok`: **a walk that succeeds has handed over every member in order, and
  the entries fit the policy.**
-/

namespace GpgFrontend

section Read

variable {τ : Type} (steps : ExtractionSteps) (policy : ArchiveExtractPolicy)

/-- `ReadArchiveMembersSync`. -/
def readArchiveMembers (stream : ArchiveStream) (take : String → Bytes → τ → Bool × τ)
    (sink : τ) : ExtractionResult τ :=
  extractArchive steps policy (some ⟨fun _ => true, take⟩) false stream none sink

end Read

/-! ## What the entries come to -/

section Members

variable (unicode : QtUnicode) (policy : ArchiveExtractPolicy)

/-- The normalised path of an entry. -/
def ArchiveEntry.path (entry : ArchiveEntry) : String :=
  joinParts (validateArchiveEntryPath unicode policy entry.pathName).2

/-- The blocks of an entry one after the other. -/
def ArchiveEntry.data (entry : ArchiveEntry) : Bytes := entry.blocks.flatMap ArchiveBlock.bytes

/-- The entries with bytes: a directory has none. -/
def deliveredMembers (entries : List ArchiveEntry) : List (String × Bytes) :=
  (entries.filter (·.fileType ≠ .directory)).map fun entry =>
    (entry.path unicode policy, entry.data)

/-- What members hold together. -/
def bytesTotal (members : List (String × Bytes)) : Nat :=
  (members.map fun member => member.2.length).sum

/-- A limit leaves room for a value; a negative one is none. -/
def LeavesRoom (limit value : Int) : Prop := 0 ≤ limit → value ≤ limit

/-- What a policy asks of the entries of an archive that is read into memory. -/
structure MembersFit (entries : List ArchiveEntry) : Prop where
  named : ∀ entry ∈ entries,
    (validateArchiveEntryPath unicode policy entry.pathName).1 = .accept
  number : LeavesRoom policy.maxEntries entries.length
  each : ∀ member ∈ deliveredMembers unicode policy entries,
    LeavesRoom policy.maxEntryBytes member.2.length
  total : LeavesRoom policy.maxTotalBytes (bytesTotal (deliveredMembers unicode policy entries))
  distinct : policy.rejectCaseCollidingPaths = true →
    (entries.map fun entry => unicode.toCaseFolded (entry.path unicode policy)).Nodup

end Members

section TakeAll

variable {τ : Type} (take : String → Bytes → τ → Bool × τ)

/-- A sink that is handed one member after the other, up to the first it declines. -/
def takeAll : List (String × Bytes) → τ → Bool × τ
  | [], sink => (true, sink)
  | member :: rest, sink =>
    let taken := take member.1 member.2 sink
    if taken.1 then takeAll rest taken.2 else taken

@[simp] theorem takeAll_nil (sink : τ) : takeAll take [] sink = (true, sink) := rfl

variable {take}

theorem takeAll_cons {member : String × Bytes} {rest : List (String × Bytes)} {sink sink' : τ}
    (h : take member.1 member.2 sink = (true, sink')) :
    takeAll take (member :: rest) sink = takeAll take rest sink' := by
  rw [takeAll]
  simp only [h, if_true]

theorem takeAll_cons_ok {member : String × Bytes} {rest : List (String × Bytes)} {sink sink' : τ}
    (h : takeAll take (member :: rest) sink = (true, sink')) :
    (take member.1 member.2 sink).1 = true ∧
      takeAll take rest (take member.1 member.2 sink).2 = (true, sink') := by
  rw [takeAll] at h
  by_cases htaken : (take member.1 member.2 sink).1 = true
  · rw [if_pos htaken] at h
    exact ⟨htaken, h⟩
  · rw [if_neg htaken] at h
    rw [h] at htaken
    exact absurd rfl htaken

end TakeAll

/-! ## One entry -/

section Entry

variable {τ : Type} {steps : ExtractionSteps} {policy : ArchiveExtractPolicy}
  {x x' : Extraction τ} {entry : ArchiveEntry} {parts : List (List Char)}
  {take : String → Bytes → τ → Bool × τ}

/-- What the checks on a header establish. -/
structure Admitted (steps : ExtractionSteps) (policy : ArchiveExtractPolicy) (x x' : Extraction τ)
    (entry : ArchiveEntry) : Prop where
  named : (validateArchiveEntryPath steps.unicode policy entry.pathName).1 = .accept
  number : 0 ≤ policy.maxEntries →
    x'.entryCount = x.entryCount + 1 ∧ x'.entryCount ≤ policy.maxEntries
  fresh : policy.rejectCaseCollidingPaths = true →
    steps.unicode.toCaseFolded (entry.path steps.unicode policy) ∉ x.seenPathsFolded ∧
      x'.seenPathsFolded =
        steps.unicode.toCaseFolded (entry.path steps.unicode policy) :: x.seenPathsFolded
  paths : policy.rejectDuplicatePaths = true →
    x'.seenPaths = entry.path steps.unicode policy :: x.seenPaths
  totalWritten : x'.totalWritten = x.totalWritten
  sink : x'.sink = x.sink

theorem of_ite_error {ε α : Type} {c : Prop} [Decidable c] {why : ε} {r : Except ε α} {a : α}
    (h : (if c then .error why else r) = .ok a) : ¬ c ∧ r = .ok a := by
  by_cases hc : c
  · rw [if_pos hc] at h
    cases h
  · exact ⟨hc, by rwa [if_neg hc] at h⟩

theorem admitEntry_admitted (h : admitEntry steps policy x entry = .ok (x', parts)) :
    Admitted steps policy x x' entry ∧ joinParts parts = entry.path steps.unicode policy := by
  unfold admitEntry at h
  extract_lets name y at h
  have hy : y.totalWritten = x.totalWritten ∧ y.sink = x.sink ∧
      y.seenPathsFolded = x.seenPathsFolded ∧ y.seenPaths = x.seenPaths ∧
      (0 ≤ policy.maxEntries → y.entryCount = x.entryCount + 1) := by
    unfold y
    split
    · exact ⟨rfl, rfl, rfl, rfl, fun _ => rfl⟩
    · next hnone => exact ⟨rfl, rfl, rfl, rfl, fun h => absurd h hnone⟩
  obtain ⟨htotal, hsink, hseen, hpaths, hcount⟩ := hy
  obtain ⟨hnumber, h⟩ := of_ite_error h
  obtain ⟨-, h⟩ := of_ite_error h
  obtain ⟨-, h⟩ := of_ite_error h
  rcases hvalid : validateArchiveEntryPath steps.unicode policy entry.pathName with ⟨verdict, kept⟩
  have hpath : entry.path steps.unicode policy = joinParts kept := by rw [ArchiveEntry.path, hvalid]
  rw [hvalid] at h
  cases verdict with
  | accept =>
    obtain ⟨-, h⟩ := of_ite_error h
    obtain ⟨hfolded, h⟩ := of_ite_error h
    iterate 5 replace h := ok_of_ite_error h
    obtain ⟨rfl, rfl⟩ := Prod.mk.inj (Except.ok.inj h)
    refine ⟨⟨by rw [hvalid], fun hlimit => ⟨hcount hlimit, ?_⟩, fun hreject => ?_,
      fun hreject => ?_, htotal, hsink⟩, hpath.symm⟩
    · have := hcount hlimit
      show y.entryCount ≤ policy.maxEntries
      by_contra hover
      exact hnumber ⟨hlimit, by omega⟩
    · rw [hpath, ← hseen]
      refine ⟨fun hmem => hfolded ⟨hreject, List.contains_iff_mem.2 hmem⟩, ?_⟩
      show (if policy.rejectCaseCollidingPaths then _ else _) = _
      rw [if_pos hreject]
    · rw [hpath, ← hpaths]
      show (if policy.rejectDuplicatePaths then _ else _) = _
      rw [if_pos hreject]
  | _ => cases h

/-- The data of an entry read to its end, within both limits. -/
theorem takeBlocks_append {maxEntryBytes remaining : Int} (blocks : List ArchiveBlock) :
    ∀ {i : Nat} {written : Int} {gathered : Bytes},
      LeavesRoom maxEntryBytes written → LeavesRoom remaining written →
      (takeBlocks maxEntryBytes remaining (fun _ content block => some (content ++ block.bytes))
        i blocks written gathered).1 = true →
      let size := (blocks.flatMap ArchiveBlock.bytes).length
      takeBlocks maxEntryBytes remaining (fun _ content block => some (content ++ block.bytes))
          i blocks written gathered
        = (true, written + size, gathered ++ blocks.flatMap ArchiveBlock.bytes) ∧
      LeavesRoom maxEntryBytes (written + size) ∧ LeavesRoom remaining (written + size) := by
  induction blocks with
  | nil =>
    intro i written gathered hentry hroom _
    simp only [takeBlocks, List.flatMap_nil, List.length_nil, Int.natCast_zero, Int.add_zero,
      List.append_nil, true_and]
    exact ⟨hentry, hroom⟩
  | cons block rest ih =>
    intro i written gathered _ _ hok
    rw [takeBlocks] at hok ⊢
    split at hok
    · cases hok
    next hentry =>
    rw [if_neg hentry]
    split at hok
    · cases hok
    next hroom =>
    rw [if_neg hroom]
    have hnext := ih (fun h => by omega) (fun h => by omega) hok
    simp only [List.flatMap_cons, List.length_append, Int.natCast_add, ← Int.add_assoc,
      ← List.append_assoc]
    exact hnext

theorem collectData_ok {maxEntryBytes remaining : Int}
    (h : (collectData maxEntryBytes remaining entry).1 = true) :
    collectData maxEntryBytes remaining entry = (true, (entry.data.length : Int), entry.data) ∧
      LeavesRoom maxEntryBytes entry.data.length ∧ LeavesRoom remaining entry.data.length := by
  unfold collectData at h ⊢
  dsimp only at h ⊢
  split at h
  · next hboth =>
    rw [if_pos hboth]
    have htaken := takeBlocks_append entry.blocks (fun h => h) (fun h => h) h
    simp only [Int.zero_add, List.nil_append] at htaken
    exact htaken
  · cases h

/-- What one round of the walk does when it goes on. -/
structure Took (steps : ExtractionSteps) (policy : ArchiveExtractPolicy)
    (take : String → Bytes → τ → Bool × τ) (x x' : Extraction τ) (entry : ArchiveEntry) : Prop where
  admitted : ∃ y, Admitted steps policy x y entry ∧ x'.entryCount = y.entryCount ∧
    x'.seenPathsFolded = y.seenPathsFolded ∧ x'.seenPaths = y.seenPaths
  taken : takeAll take (deliveredMembers steps.unicode policy [entry]) x.sink = (true, x'.sink)
  totalWritten : x'.totalWritten =
    x.totalWritten + bytesTotal (deliveredMembers steps.unicode policy [entry])
  each : ∀ member ∈ deliveredMembers steps.unicode policy [entry],
    LeavesRoom policy.maxEntryBytes member.2.length
  total : LeavesRoom policy.maxTotalBytes x'.totalWritten

theorem extractEntry_took (hroom : LeavesRoom policy.maxTotalBytes x.totalWritten)
    (h : (extractEntry steps policy (some ⟨fun _ => true, take⟩) false x entry).1 = true) :
    Took steps policy take x
      (extractEntry steps policy (some ⟨fun _ => true, take⟩) false x entry).2 entry := by
  unfold extractEntry at h ⊢
  cases hheader : admitEntry steps policy x entry with
  | error why =>
    rw [hheader] at h
    cases h
  | ok admitted =>
    obtain ⟨y, parts⟩ := admitted
    obtain ⟨hy, hpath⟩ := admitEntry_admitted hheader
    simp only [hheader, Option.filter, if_true, hpath] at h ⊢
    unfold divertEntry at h ⊢
    dsimp only at h ⊢
    by_cases hdirectory : entry.fileType = .directory
    · have hnone : deliveredMembers steps.unicode policy [entry] = [] := by
        simp [deliveredMembers, hdirectory]
      rw [if_pos hdirectory]
      refine ⟨⟨y, hy, rfl, rfl, rfl⟩, ?_, ?_, ?_, ?_⟩
      · rw [hnone, takeAll_nil, hy.sink]
      · rw [hnone, hy.totalWritten]
        exact (Int.add_zero _).symm
      · rw [hnone]
        exact fun _ hmem => by cases hmem
      · rw [hy.totalWritten]
        exact hroom
    · have hone : deliveredMembers steps.unicode policy [entry]
          = [(entry.path steps.unicode policy, entry.data)] := by
        simp [deliveredMembers, hdirectory]
      rw [if_neg hdirectory] at h ⊢
      split at h
      · cases h
      next hlink =>
      rw [if_neg hlink]
      split at h
      · cases h
      next hcollected =>
      rw [if_neg hcollected]
      rw [Bool.not_eq_true, Bool.not_eq_false'] at hcollected
      obtain ⟨hdata, heach, htotal⟩ := collectData_ok hcollected
      simp only [hdata] at h ⊢
      refine ⟨⟨y, hy, rfl, rfl, rfl⟩, ?_, ?_, ?_, ?_⟩
      · have htaken : take (entry.path steps.unicode policy) entry.data x.sink
            = (true, (take (entry.path steps.unicode policy) entry.data y.sink).2) := by
          rw [← hy.sink]
          exact Prod.ext h rfl
        rw [hone, takeAll_cons htaken]
        rfl
      · rw [hone, hy.totalWritten]
        simp [bytesTotal]
      · rw [hone]
        intro member hmem
        rw [List.mem_singleton.1 hmem]
        exact heach
      · intro hlimit
        have hremaining : remainingBytes policy y = policy.maxTotalBytes - y.totalWritten :=
          if_neg (by omega)
        have hbefore := hroom hlimit
        rw [hremaining, hy.totalWritten] at htotal
        have := htotal (by omega)
        rw [hy.totalWritten]
        show x.totalWritten + (entry.data.length : Int) ≤ policy.maxTotalBytes
        omega

end Entry

/-! ## The whole walk -/

section Walk

variable {τ : Type} {steps : ExtractionSteps} {policy : ArchiveExtractPolicy}
  {x : Extraction τ} {entry : ArchiveEntry} {entries : List ArchiveEntry}
  {take : String → Bytes → τ → Bool × τ} {stream : ArchiveStream} {sink : τ}

theorem takeAll_append {first later : List (String × Bytes)} :
    ∀ {sink mid : τ}, takeAll take first sink = (true, mid) →
      takeAll take (first ++ later) sink = takeAll take later mid := by
  induction first with
  | nil =>
    intro sink mid h
    rw [← (Prod.mk.inj h).2, List.nil_append]
  | cons member rest ih =>
    intro sink mid h
    rcases htaken : take member.1 member.2 sink with ⟨kept, next⟩
    cases kept with
    | false =>
      rw [takeAll] at h
      simp only [htaken, Bool.false_eq_true, if_false] at h
      cases h
    | true =>
      rw [List.cons_append, takeAll_cons htaken]
      rw [takeAll_cons htaken] at h
      exact ih h

theorem deliveredMembers_cons (unicode : QtUnicode) (policy : ArchiveExtractPolicy) (entry : ArchiveEntry)
    (entries : List ArchiveEntry) :
    deliveredMembers unicode policy (entry :: entries)
      = deliveredMembers unicode policy [entry] ++ deliveredMembers unicode policy entries := by
  rw [deliveredMembers, deliveredMembers, deliveredMembers, ← List.map_append,
    ← List.filter_append, List.singleton_append]

theorem bytesTotal_append (a b : List (String × Bytes)) :
    bytesTotal (a ++ b) = bytesTotal a + bytesTotal b := by
  rw [bytesTotal, List.map_append, List.sum_append]
  rfl

/-- What a walk that reaches its end has done, from a state that is within the limits. -/
structure Walked (steps : ExtractionSteps) (policy : ArchiveExtractPolicy)
    (take : String → Bytes → τ → Bool × τ) (x x' : Extraction τ)
    (entries : List ArchiveEntry) : Prop where
  taken : takeAll take (deliveredMembers steps.unicode policy entries) x.sink = (true, x'.sink)
  totalWritten : x'.totalWritten =
    x.totalWritten + bytesTotal (deliveredMembers steps.unicode policy entries)
  named : ∀ entry ∈ entries,
    (validateArchiveEntryPath steps.unicode policy entry.pathName).1 = .accept
  number : LeavesRoom policy.maxEntries (x.entryCount + entries.length)
  each : ∀ member ∈ deliveredMembers steps.unicode policy entries,
    LeavesRoom policy.maxEntryBytes member.2.length
  total : LeavesRoom policy.maxTotalBytes x'.totalWritten
  distinct : policy.rejectCaseCollidingPaths = true →
    (entries.map fun entry =>
      steps.unicode.toCaseFolded (entry.path steps.unicode policy)).Nodup ∧
    ∀ entry ∈ entries,
      steps.unicode.toCaseFolded (entry.path steps.unicode policy) ∉ x.seenPathsFolded

theorem extractLoop_walked (entries : List ArchiveEntry) :
    ∀ {x : Extraction τ}, LeavesRoom policy.maxEntries x.entryCount →
      LeavesRoom policy.maxTotalBytes x.totalWritten →
      (extractLoop steps policy (some ⟨fun _ => true, take⟩) false entries x).1 = true →
      Walked steps policy take x
        (extractLoop steps policy (some ⟨fun _ => true, take⟩) false entries x).2 entries := by
  induction entries with
  | nil =>
    intro x hcount hroom _
    refine ⟨rfl, (Int.add_zero _).symm, ?_, ?_, ?_, hroom, fun _ => ⟨List.nodup_nil, ?_⟩⟩
    · exact List.forall_mem_nil _
    · simpa using hcount
    · exact List.forall_mem_nil _
    · exact List.forall_mem_nil _
  | cons entry rest ih =>
    intro x _ hroom hok
    rw [extractLoop] at hok ⊢
    cases hstep : (extractEntry steps policy (some ⟨fun _ => true, take⟩) false x entry).1 with
    | false =>
      simp only [hstep, Bool.false_eq_true, if_false] at hok
    | true =>
      simp only [hstep, if_true] at hok ⊢
      have htook := extractEntry_took hroom hstep
      revert hok htook
      generalize (extractEntry steps policy (some ⟨fun _ => true, take⟩) false x entry).2 = x'
      intro hok htook
      obtain ⟨y, hy, hcount, hseen, -⟩ := htook.admitted
      have hcount' : 0 ≤ policy.maxEntries → x'.entryCount = x.entryCount + 1 ∧
          x'.entryCount ≤ policy.maxEntries := fun hlimit => hcount ▸ hy.number hlimit
      have hrest := ih (fun hlimit => (hcount' hlimit).2) htook.total hok
      have hmembers := deliveredMembers_cons steps.unicode policy entry rest
      refine ⟨?_, ?_, ?_, ?_, ?_, hrest.total, fun hreject => ?_⟩
      · rw [hmembers, takeAll_append htook.taken]
        exact hrest.taken
      · rw [hmembers, bytesTotal_append, Int.natCast_add, ← Int.add_assoc, ← htook.totalWritten]
        exact hrest.totalWritten
      · exact List.forall_mem_cons.2 ⟨hy.named, hrest.named⟩
      · intro hlimit
        have := hrest.number hlimit
        have := (hcount' hlimit).1
        rw [List.length_cons]
        omega
      · rw [hmembers]
        exact List.forall_mem_append.2 ⟨htook.each, hrest.each⟩
      · obtain ⟨hnew, hnext⟩ := hy.fresh hreject
        obtain ⟨hnodup, hlater⟩ := hrest.distinct hreject
        rw [hseen, hnext] at hlater
        refine ⟨List.nodup_cons.2 ⟨fun hmem => ?_, hnodup⟩, List.forall_mem_cons.2 ⟨hnew, ?_⟩⟩
        · obtain ⟨other, hother, heq⟩ := List.mem_map.1 hmem
          exact hlater other hother (heq ▸ List.mem_cons_self)
        · exact fun other hother hmem => hlater other hother (List.mem_cons_of_mem _ hmem)

/-- Reading into memory is the walk, and nothing is left behind. -/
theorem readArchiveMembers_ok_iff :
    (readArchiveMembers steps policy stream take sink).ok = true ↔
      stream.opens = true ∧ steps.frees = true ∧
        (walkArchive steps policy (some ⟨fun _ => true, take⟩) false stream
          { tree := [], sink := sink }).1 = true := by
  unfold readArchiveMembers extractArchive
  have hstart : startTree steps policy false none = some [] := by simp [startTree]
  rw [hstart]
  dsimp only
  cases stream.opens
  case false => simp
  cases hwalk : (walkArchive steps policy (some ⟨fun _ => true, take⟩) false stream
    { tree := [], sink := sink }).1 <;> simp

theorem readArchiveMembers_sink (hopens : stream.opens = true) :
    (readArchiveMembers steps policy stream take sink).sink =
      (walkArchive steps policy (some ⟨fun _ => true, take⟩) false stream
        { tree := [], sink := sink }).2.sink := by
  unfold readArchiveMembers extractArchive
  have hstart : startTree steps policy false none = some [] := by simp [startTree]
  rw [hstart]
  dsimp only
  rw [hopens]
  cases hwalk : (walkArchive steps policy (some ⟨fun _ => true, take⟩) false stream
    { tree := [], sink := sink }).1 <;> simp

/-- **What a successful walk has done.** -/
theorem readArchiveMembers_ok (hlimit : 0 ≤ policy.maxEntries) (hbytes : 0 ≤ policy.maxTotalBytes)
    (h : (readArchiveMembers steps policy stream take sink).ok = true) :
    takeAll take (deliveredMembers steps.unicode policy stream.entries) sink
        = (true, (readArchiveMembers steps policy stream take sink).sink) ∧
      MembersFit steps.unicode policy stream.entries := by
  obtain ⟨hopens, -, hwalk⟩ := readArchiveMembers_ok_iff.1 h
  have hloop := walkArchive_ok hwalk
  rw [readArchiveMembers_sink hopens, hloop]
  rw [hloop] at hwalk
  have hwalked := extractLoop_walked stream.entries (x := { tree := [], sink := sink })
    (fun _ => hlimit) (fun _ => hbytes) hwalk
  refine ⟨hwalked.taken, hwalked.named, ?_, hwalked.each, ?_,
    fun hreject => (hwalked.distinct hreject).1⟩
  · simpa using hwalked.number
  · have htotal := hwalked.total
    rw [hwalked.totalWritten] at htotal
    simpa using htotal

/-! ## An archive that fits -/

/-- A file in an archive, whole. -/
structure ArchiveEntry.PlainFile (entry : ArchiveEntry) : Prop where
  isUtf8 : entry.isUtf8 = true
  fileType : entry.fileType = .regular
  hardlink : entry.hardlink = none
  declared : entry.declared = some (entry.data.length : Int)
  readsToEnd : entry.readsToEnd = true

/-- Nothing unpacks to more than was read of the archive by then. -/
def TakesUp : Int → List ArchiveEntry → Prop
  | _, [] => True
  | written, entry :: rest => written ≤ entry.consumed ∧ TakesUp (written + entry.data.length) rest

theorem ratioExceeded_false {written consumed : Int} (hratio : 1 ≤ policy.maxCompressionRatio)
    (h : written ≤ consumed) : ratioExceeded policy written consumed = false := by
  unfold ratioExceeded
  rw [if_neg (by omega)]
  split
  · rfl
  next hbig =>
  rw [not_or] at hbig
  have hone : written.tdiv consumed ≤ 1 := by
    rw [Int.tdiv_eq_ediv_of_nonneg (by omega)]
    exact Int.ediv_le_of_le_mul (by omega) (by omega)
  rw [decide_eq_false_iff_not]
  omega

theorem deliveredMembers_plain {unicode : QtUnicode} (h : entry.PlainFile) :
    deliveredMembers unicode policy [entry] = [(entry.path unicode policy, entry.data)] := by
  simp [deliveredMembers, h.fileType]

/-- A file there is room for, under a new name, is let through. -/
theorem admitEntry_of_plain (hplain : entry.PlainFile)
    (hratio : ratioExceeded policy x.totalWritten entry.consumed = false)
    (hnamed : (validateArchiveEntryPath steps.unicode policy entry.pathName).1 = .accept)
    (hcount : LeavesRoom policy.maxEntries (x.entryCount + 1))
    (heach : LeavesRoom policy.maxEntryBytes entry.data.length)
    (htotal : LeavesRoom policy.maxTotalBytes (x.totalWritten + entry.data.length))
    (hpath : policy.rejectDuplicatePaths = true →
      entry.path steps.unicode policy ∉ x.seenPaths)
    (hfolded : policy.rejectCaseCollidingPaths = true →
      steps.unicode.toCaseFolded (entry.path steps.unicode policy) ∉ x.seenPathsFolded) :
    ∃ y parts, admitEntry steps policy x entry = .ok (y, parts) := by
  rcases hvalid : validateArchiveEntryPath steps.unicode policy entry.pathName with ⟨verdict, kept⟩
  rw [hvalid] at hnamed
  obtain rfl : verdict = .accept := hnamed
  have hkept : joinParts kept = entry.path steps.unicode policy := by
    rw [ArchiveEntry.path, hvalid]
  unfold admitEntry
  rw [hvalid]
  extract_lets name y
  have hy : y.totalWritten = x.totalWritten ∧ y.seenPaths = x.seenPaths ∧
      y.seenPathsFolded = x.seenPathsFolded ∧
      (0 ≤ policy.maxEntries → y.entryCount = x.entryCount + 1) := by
    unfold y
    split
    · exact ⟨rfl, rfl, rfl, fun _ => rfl⟩
    · next hnone => exact ⟨rfl, rfl, rfl, fun h => absurd h hnone⟩
  obtain ⟨hwritten, hpaths, hseen, hcounted⟩ := hy
  rw [if_neg (fun h => by have := hcount h.1; have := hcounted h.1; omega),
    if_neg (by rw [hwritten, hratio]; simp), if_neg (by rw [hplain.isUtf8]; simp)]
  dsimp only
  rw [hkept, hpaths, hseen, hwritten, hplain.fileType, hplain.hardlink, hplain.declared,
    if_neg (fun h => hpath h.1 (List.contains_iff_mem.1 h.2)),
    if_neg (fun h => hfolded h.1 (List.contains_iff_mem.1 h.2)), if_neg (by decide),
    if_neg (fun h => absurd h.1 (by decide)), if_neg (by simp),
    if_neg (fun h => by have := heach h.2.1; rw [Option.getD_some] at h; omega),
    if_neg (fun h => by have := htotal h.2.1; rw [Option.getD_some] at h; omega)]
  exact ⟨_, _, rfl⟩

/-- The blocks of an entry there is room for are all taken. -/
theorem takeBlocks_of_room {maxEntryBytes remaining : Int} (blocks : List ArchiveBlock) :
    ∀ {i : Nat} {written : Int} {gathered : Bytes},
      LeavesRoom maxEntryBytes (written + (blocks.flatMap ArchiveBlock.bytes).length) →
      LeavesRoom remaining (written + (blocks.flatMap ArchiveBlock.bytes).length) →
      (takeBlocks maxEntryBytes remaining (fun _ content block => some (content ++ block.bytes))
        i blocks written gathered).1 = true := by
  induction blocks with
  | nil => exact fun _ _ => rfl
  | cons block rest ih =>
    intro i written gathered hentry hroom
    rw [List.flatMap_cons, List.length_append, Int.natCast_add, ← Int.add_assoc] at hentry hroom
    rw [takeBlocks, if_neg (fun h => by have := hentry h.1; omega),
      if_neg (fun h => by have := hroom h.1; omega)]
    exact ih hentry hroom

theorem collectData_of_room {maxEntryBytes remaining : Int} (hend : entry.readsToEnd = true)
    (hentry : LeavesRoom maxEntryBytes entry.data.length)
    (hroom : LeavesRoom remaining entry.data.length) :
    (collectData maxEntryBytes remaining entry).1 = true := by
  have htaken : (takeBlocks maxEntryBytes remaining
      (fun _ content block => some (content ++ block.bytes)) 0 entry.blocks 0 []).1 = true :=
    takeBlocks_of_room entry.blocks (by rw [Int.zero_add]; exact hentry)
      (by rw [Int.zero_add]; exact hroom)
  unfold collectData
  simp only [htaken, hend, Bool.and_self, if_true]

/-- One file of an archive that fits, taken by the sink. -/
theorem extractEntry_of_plain (hplain : entry.PlainFile)
    (hratio : ratioExceeded policy x.totalWritten entry.consumed = false)
    (hnamed : (validateArchiveEntryPath steps.unicode policy entry.pathName).1 = .accept)
    (hcount : LeavesRoom policy.maxEntries (x.entryCount + 1))
    (heach : LeavesRoom policy.maxEntryBytes entry.data.length)
    (htotal : LeavesRoom policy.maxTotalBytes (x.totalWritten + entry.data.length))
    (hpath : policy.rejectDuplicatePaths = true →
      entry.path steps.unicode policy ∉ x.seenPaths)
    (hfolded : policy.rejectCaseCollidingPaths = true →
      steps.unicode.toCaseFolded (entry.path steps.unicode policy) ∉ x.seenPathsFolded)
    (htaken : (take (entry.path steps.unicode policy) entry.data x.sink).1 = true) :
    (extractEntry steps policy (some ⟨fun _ => true, take⟩) false x entry).1 = true := by
  obtain ⟨y, parts, hheader⟩ :=
    admitEntry_of_plain hplain hratio hnamed hcount heach htotal hpath hfolded
  obtain ⟨hy, hparts⟩ := admitEntry_admitted hheader
  have hcollected : (collectData policy.maxEntryBytes (remainingBytes policy y) entry).1 = true := by
    refine collectData_of_room hplain.readsToEnd heach fun hlimit => ?_
    rw [remainingBytes] at hlimit ⊢
    split at hlimit
    · cases hlimit
    · rw [if_neg ‹_›]
      have := htotal (by omega)
      rw [hy.totalWritten]
      omega
  unfold extractEntry
  simp only [hheader, Option.filter, if_true, hparts]
  unfold divertEntry
  rw [hplain.fileType, hplain.hardlink]
  simp only [reduceCtorEq, if_false, Option.isSome_none, Bool.false_eq_true, or_self,
    Bool.not_true, (collectData_ok hcollected).1, hy.sink, htaken]

/-- The walk over files that fit. -/
theorem extractLoop_of_plain (hlimit : 1 ≤ policy.maxCompressionRatio)
    (hcase : policy.rejectDuplicatePaths = true → policy.rejectCaseCollidingPaths = true)
    (entries : List ArchiveEntry) :
    ∀ {x : Extraction τ} {last : τ}, (∀ entry ∈ entries, entry.PlainFile) →
      TakesUp x.totalWritten entries →
      (∀ entry ∈ entries,
        (validateArchiveEntryPath steps.unicode policy entry.pathName).1 = .accept) →
      LeavesRoom policy.maxEntries (x.entryCount + entries.length) →
      (∀ member ∈ deliveredMembers steps.unicode policy entries,
        LeavesRoom policy.maxEntryBytes member.2.length) →
      LeavesRoom policy.maxTotalBytes
        (x.totalWritten + bytesTotal (deliveredMembers steps.unicode policy entries)) →
      LeavesRoom policy.maxTotalBytes x.totalWritten →
      (policy.rejectCaseCollidingPaths = true →
        (entries.map fun entry =>
          steps.unicode.toCaseFolded (entry.path steps.unicode policy)).Nodup ∧
        ∀ entry ∈ entries,
          steps.unicode.toCaseFolded (entry.path steps.unicode policy) ∉ x.seenPathsFolded) →
      (policy.rejectDuplicatePaths = true →
        ∀ path ∈ x.seenPaths, steps.unicode.toCaseFolded path ∈ x.seenPathsFolded) →
      takeAll take (deliveredMembers steps.unicode policy entries) x.sink = (true, last) →
      (extractLoop steps policy (some ⟨fun _ => true, take⟩) false entries x).1 = true := by
  induction entries with
  | nil =>
    intros
    rfl
  | cons entry rest ih =>
    intro x last hplain hup hnamed hcount heach htotal hroom hdistinct hseen htaken
    have hentry := hplain entry List.mem_cons_self
    rw [deliveredMembers_cons, deliveredMembers_plain hentry] at heach htotal htaken
    rw [bytesTotal_append, Int.natCast_add, ← Int.add_assoc] at htotal
    have hone : bytesTotal [(entry.path steps.unicode policy, entry.data)] = entry.data.length := by
      simp [bytesTotal]
    rw [hone] at htotal
    obtain ⟨htook, hlater⟩ := takeAll_cons_ok htaken
    have hfolded : policy.rejectCaseCollidingPaths = true →
        steps.unicode.toCaseFolded (entry.path steps.unicode policy) ∉ x.seenPathsFolded :=
      fun hreject => (hdistinct hreject).2 entry List.mem_cons_self
    have hstep := extractEntry_of_plain hentry
      (ratioExceeded_false hlimit hup.1) (hnamed entry List.mem_cons_self)
      (fun h => by have := hcount h; rw [List.length_cons] at this; omega)
      (heach _ List.mem_cons_self) (fun h => by have := htotal h; omega)
      (fun hreject hmem => hfolded (hcase hreject) (hseen hreject _ hmem)) hfolded htook
    have hafter := extractEntry_took hroom hstep
    rw [extractLoop]
    simp only [hstep, if_true]
    revert hafter
    generalize (extractEntry steps policy (some ⟨fun _ => true, take⟩) false x entry).2 = x'
    intro hafter
    obtain ⟨y, hy, hcounted, hfoldedAfter, hpathsAfter⟩ := hafter.admitted
    have hwritten := hafter.totalWritten
    have hsink := hafter.taken
    rw [deliveredMembers_plain hentry] at hwritten hsink
    rw [hone] at hwritten
    refine @ih _ last (fun e he => hplain e (List.mem_cons_of_mem _ he)) ?_
      (fun e he => hnamed e (List.mem_cons_of_mem _ he)) (fun h => ?_)
      (fun member hm => heach member (List.mem_cons_of_mem _ hm)) ?_ hafter.total
      (fun hreject => ?_) (fun hreject path hpath => ?_) ?_
    · rw [hwritten]
      exact hup.2
    · have := hcount h
      have := (hy.number h).1
      rw [List.length_cons] at *
      omega
    · rw [hwritten]
      exact htotal
    · obtain ⟨hnodup, hnew⟩ := hdistinct hreject
      rw [List.map_cons, List.nodup_cons] at hnodup
      refine ⟨hnodup.2, fun e he hmem => ?_⟩
      rw [hfoldedAfter, (hy.fresh hreject).2] at hmem
      rcases List.mem_cons.1 hmem with heq | hold
      · exact hnodup.1 (heq ▸ List.mem_map_of_mem he)
      · exact hnew e (List.mem_cons_of_mem _ he) hold
    · rw [hpathsAfter, hy.paths hreject] at hpath
      rw [hfoldedAfter, (hy.fresh (hcase hreject)).2]
      rcases List.mem_cons.1 hpath with rfl | hold
      · exact List.mem_cons_self
      · exact List.mem_cons_of_mem _ (hseen hreject path hold)
    · rw [takeAll_cons (Prod.ext htook rfl)] at hsink
      rw [← (Prod.mk.inj hsink).2]
      exact hlater

/-- **Files that fit are all handed over.** -/
theorem readArchiveMembers_of_fit (hlimit : 1 ≤ policy.maxCompressionRatio)
    (hcase : policy.rejectDuplicatePaths = true → policy.rejectCaseCollidingPaths = true)
    (hopens : stream.opens = true) (hend : stream.readsToEnd = true) (hfrees : steps.frees = true)
    (hplain : ∀ entry ∈ stream.entries, entry.PlainFile) (hup : TakesUp 0 stream.entries)
    (hconsumed : (bytesTotal (deliveredMembers steps.unicode policy stream.entries) : Int)
      ≤ stream.consumed)
    (hfit : MembersFit steps.unicode policy stream.entries) {last : τ}
    (htaken : takeAll take (deliveredMembers steps.unicode policy stream.entries) sink
      = (true, last)) :
    (readArchiveMembers steps policy stream take sink).ok = true := by
  have hroom : LeavesRoom policy.maxTotalBytes 0 := fun h => h
  have hloop := extractLoop_of_plain (x := { tree := [], sink := sink }) hlimit hcase
    stream.entries hplain hup hfit.named (by rw [Int.zero_add]; exact hfit.number) hfit.each
    (by rw [Int.zero_add]; exact hfit.total) hroom
    (fun hreject => ⟨hfit.distinct hreject, fun _ _ hmem => by cases hmem⟩)
    (fun _ _ hmem => by cases hmem) htaken
  have hwalked := extractLoop_walked stream.entries (x := { tree := [], sink := sink })
    (fun h => h) (fun h => h) hloop
  refine readArchiveMembers_ok_iff.2 ⟨hopens, hfrees, ?_⟩
  have hratio := ratioExceeded_false hlimit (hwalked.totalWritten ▸
    (by rw [Int.zero_add]; exact hconsumed : (0 : Int) + _ ≤ stream.consumed))
  rw [walkArchive]
  simp only [hloop, Bool.not_true, Bool.false_eq_true, if_false, hend, hratio]

end Walk

end GpgFrontend
