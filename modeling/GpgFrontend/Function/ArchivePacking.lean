import GpgFrontend.Base.SecretStream

/-!
# Packing members (`ArchiveFileOperator::NewArchiveFromMembersSync`)

The loop asks its source for members, one after the other, and writes each with a header, its data
and an end; each of these calls has a result of its own.

- `packed_whole_iff`: **an archive that is reported as written is complete exactly when no answer is
  passed over with a header that is not written, a body that is not, or data that is not taken.**
-/

namespace GpgFrontend

/-! ## What is packed, and the answers -/

/-- A file as it is found when it is packed. A read gives no more than that many bytes, or is an
error. -/
structure SourceFile where
  opens : Bool := true
  present : Bool := true
  bytes : Bytes
  reads : Nat → Option Nat

/-- `ArchiveMemberEntry`: a file, bytes in hand, or a directory. -/
structure ArchiveMemberEntry where
  relativePath : String
  sourceFile : Option SourceFile := none
  bytes : Bytes := []
  directory : Bool := false

/-- The results of `libarchive`. -/
inductive ArchiveStatus where
  | ok | retry | warn | failed | fatal
  deriving Repr, DecidableEq

/-- The answers of the archive library, numbered by member, and for the data of one by call: that
many bytes are taken, or it is an error. -/
structure PackingCalls where
  opens : Bool
  header : Nat → ArchiveStatus
  write : Nat → Nat → Option Nat
  finish : Nat → ArchiveStatus
  closes : Bool
  frees : Bool

/-- What an archive has of a member: the size its header declares, and the data that was taken. -/
structure PackedEntry where
  path : String
  directory : Bool
  declared : Nat
  bytes : Bytes
  finished : Bool
  deriving Repr, DecidableEq

/-! ## The loop -/

/-- `kArchiveCopyChunk`. -/
def archiveCopyChunk : Nat := 256 * 1024

/-- The loop over the data of a file: whether all that the header declares was read and no write was
an error, and what was taken. The fuel is what is left to read. -/
def copyFile (reads write : Nat → Option Nat) : Nat → Nat → Bytes → Bool × Bytes
  | 0, _, _ => (true, [])
  | fuel + 1, i, rest =>
    if rest.isEmpty then (true, [])
    else
      match reads i with
      | none => (false, [])
      | some n =>
        let read := rest.take (min n archiveCopyChunk)
        -- ended short of the size its header declares
        if read.isEmpty then (false, [])
        else
          match write i with
          | none => (false, [])
          | some taken =>
            let later := copyFile reads write fuel (i + 1) (rest.drop read.length)
            (later.1, read.take taken ++ later.2)

/-- The data of a member that is no directory. -/
def packBody (calls : PackingCalls) (i : Nat) (member : ArchiveMemberEntry) : Bool × Bytes :=
  match member.sourceFile with
  | some file => copyFile file.reads (calls.write i) file.bytes.length 0 file.bytes
  | none =>
    if member.bytes.isEmpty then (true, [])
    else
      match calls.write i 0 with
      | none => (false, [])
      | some taken => (true, member.bytes.take taken)

namespace ArchiveMemberEntry

/-- A file that the source yielded and that is not there any more. -/
def vanished (member : ArchiveMemberEntry) : Bool :=
  !member.directory && member.sourceFile.any fun file => !file.opens && !file.present

/-- What there is to pack of a member. -/
def content (member : ArchiveMemberEntry) : Bytes :=
  if member.directory then []
  else (member.sourceFile.map SourceFile.bytes).getD member.bytes

/-- A member with all of its content. -/
def whole (member : ArchiveMemberEntry) : PackedEntry :=
  ⟨member.relativePath, member.directory, member.content.length, member.content, true⟩

end ArchiveMemberEntry

/-- The header of a directory. -/
def packDirectory (calls : PackingCalls) (i : Nat) (member : ArchiveMemberEntry) :
    Bool × Option PackedEntry :=
  match calls.header i with
  | .ok | .warn => (true, some ⟨member.relativePath, true, 0, [], true⟩)
  | .retry | .failed => (true, none)
  | .fatal => (false, none)

/-- The header, the data and the end of a member that is no directory. -/
def packData (calls : PackingCalls) (i : Nat) (member : ArchiveMemberEntry) :
    Bool × Option PackedEntry :=
  let entry (bytes : Bytes) (finished : Bool) : PackedEntry :=
    ⟨member.relativePath, false, member.content.length, bytes, finished⟩
  match calls.header i with
  | .fatal => (false, none)
  | .retry | .failed => (true, none)
  -- the header is written, and the body is skipped
  | .warn => (true, some (entry [] true))
  | .ok =>
    let body := packBody calls i member
    if !body.1 then (false, some (entry body.2 false))
    else
      match calls.finish i with
      | .fatal => (false, some (entry body.2 false))
      | .retry | .failed => (true, some (entry body.2 false))
      | .ok | .warn => (true, some (entry body.2 true))

/-- The body of the loop: whether it goes on, and what the archive has of the member. -/
def packMember (calls : PackingCalls) (i : Nat) (member : ArchiveMemberEntry) :
    Bool × Option PackedEntry :=
  if member.relativePath = "" then (true, none)
  else if member.sourceFile.isSome && !member.bytes.isEmpty then (false, none)
  else if member.directory && (member.sourceFile.isSome || !member.bytes.isEmpty) then (false, none)
  else if member.directory then packDirectory calls i member
  else if member.sourceFile.any fun file => !file.opens then
    -- one that is not there any more is no reason to lose the archive
    (!member.sourceFile.any SourceFile.present, none)
  else packData calls i member

/-- The loop, up to the member it stops at. -/
def packMembers (calls : PackingCalls) : Nat → List ArchiveMemberEntry → Bool × List PackedEntry
  | _, [] => (true, [])
  | i, member :: rest =>
    let step := packMember calls i member
    if step.1 then
      let later := packMembers calls (i + 1) rest
      (later.1, step.2.toList ++ later.2)
    else (false, step.2.toList)

/-- `NewArchiveFromMembersSync`: whether it returns 0, and what the archive holds. -/
def newArchiveFromMembers (calls : PackingCalls) (members : List ArchiveMemberEntry) :
    Bool × List PackedEntry :=
  if !calls.opens then (false, [])
  else
    let packed := packMembers calls 0 members
    (packed.1 && calls.closes && calls.frees, packed.2)

/-! ## One member -/

section Member

variable {calls : PackingCalls} {i : Nat} {member : ArchiveMemberEntry}

/-- A member that is two things at once. -/
def ArchiveMemberEntry.mixed (member : ArchiveMemberEntry) : Bool :=
  (member.sourceFile.isSome && !member.bytes.isEmpty) ||
    (member.directory && (member.sourceFile.isSome || !member.bytes.isEmpty))

/-- A file that cannot be opened. -/
def ArchiveMemberEntry.unopened (member : ArchiveMemberEntry) : Bool :=
  !member.directory && member.sourceFile.any fun file => !file.opens

/-- What the loop stops at behind the header of a member that is no directory. -/
def DataStops (calls : PackingCalls) (i : Nat) (member : ArchiveMemberEntry) : Prop :=
  calls.header i = .fatal ∨
    (calls.header i = .ok ∧ ((packBody calls i member).1 = false ∨ calls.finish i = .fatal))

/-- The answers that leave nothing out of a member that is no directory. -/
def DataTaken (calls : PackingCalls) (i : Nat) (member : ArchiveMemberEntry) : Prop :=
  (calls.header i = .warn ∧ member.content = []) ∨
    (calls.header i = .ok ∧ (packBody calls i member).2 = member.content ∧
      (calls.finish i = .ok ∨ calls.finish i = .warn))

/-- The loop stops at a member: it is two things at once, it is there and cannot be opened, its
header or its end is fatal, or its data is not read or written to the end. -/
def Stops (calls : PackingCalls) (i : Nat) (member : ArchiveMemberEntry) : Prop :=
  member.relativePath ≠ "" ∧
  (member.mixed = true ∨
    (member.mixed = false ∧
      if member.directory then calls.header i = .fatal
      else if member.unopened then member.sourceFile.any SourceFile.present = true
      else DataStops calls i member))

/-- The answers that leave nothing of a member out. -/
def TakenWhole (calls : PackingCalls) (i : Nat) (member : ArchiveMemberEntry) : Prop :=
  member.relativePath ≠ "" ∧
  if member.directory then calls.header i = .ok ∨ calls.header i = .warn
  else DataTaken calls i member

theorem packDirectory_stops :
    (packDirectory calls i member).1 = false ↔ calls.header i = .fatal := by
  unfold packDirectory
  cases calls.header i <;> simp

theorem packData_stops : (packData calls i member).1 = false ↔ DataStops calls i member := by
  unfold packData DataStops
  rcases packBody calls i member with ⟨done, bytes⟩
  cases calls.header i with
  | ok => cases done <;> cases calls.finish i <;> simp
  | _ => simp

theorem packData_entry (hfile : member.directory = false)
    (hgo : (packData calls i member).1 = true) :
    (packData calls i member).2 = some member.whole ↔ DataTaken calls i member := by
  unfold packData at hgo ⊢
  unfold DataTaken ArchiveMemberEntry.whole
  rw [hfile]
  revert hgo
  rcases packBody calls i member with ⟨done, bytes⟩
  cases calls.header i with
  | ok => cases done <;> cases calls.finish i <;> simp
  | warn => simp [@eq_comm _ [] member.content]
  | _ => simp

theorem packMember_stops : (packMember calls i member).1 = false ↔ Stops calls i member := by
  unfold packMember Stops ArchiveMemberEntry.mixed ArchiveMemberEntry.unopened
  by_cases hpath : member.relativePath = ""
  · simp [hpath]
  rw [if_neg hpath]
  cases hboth : member.sourceFile.isSome && !member.bytes.isEmpty with
  | true => simp [hpath]
  | false =>
    cases hdirectory : member.directory with
    | true =>
      cases hcontents : member.sourceFile.isSome || !member.bytes.isEmpty with
      | true => simp [hpath]
      | false => simp [hpath, packDirectory_stops]
    | false =>
      cases hopens : member.sourceFile.any fun file => !file.opens with
      | true => simp [hpath]
      | false => simp [hpath, packData_stops]

/-- What a member that the loop goes on behind leaves in the archive: all of it, when the answers
leave nothing out, and nothing of a file that has vanished. -/
theorem packMember_entry (hgo : (packMember calls i member).1 = true) :
    if member.vanished then (packMember calls i member).2 = none
    else ((packMember calls i member).2 = some member.whole ↔ TakenWhole calls i member) := by
  unfold packMember at hgo ⊢
  unfold TakenWhole ArchiveMemberEntry.vanished
  by_cases hpath : member.relativePath = ""
  · simp [hpath]
  rw [if_neg hpath] at hgo ⊢
  cases hboth : member.sourceFile.isSome && !member.bytes.isEmpty with
  | true => simp [hboth] at hgo
  | false =>
    rw [hboth, if_neg Bool.false_ne_true] at hgo
    rw [if_neg Bool.false_ne_true]
    cases hdirectory : member.directory with
    | true =>
      rw [hdirectory] at hgo
      cases hcontents : member.sourceFile.isSome || !member.bytes.isEmpty with
      | true => simp [hcontents] at hgo
      | false =>
        unfold packDirectory ArchiveMemberEntry.whole ArchiveMemberEntry.content
        rw [hdirectory]
        cases calls.header i <;> simp [hpath]
    | false =>
      rw [hdirectory] at hgo
      simp only [Bool.false_and, Bool.false_eq_true, if_false, Bool.not_false, Bool.true_and] at hgo ⊢
      cases hfile : member.sourceFile with
      | none =>
        rw [hfile] at hgo
        simpa [hpath] using packData_entry hdirectory hgo
      | some file =>
        rw [hfile] at hgo
        cases hopens : file.opens with
        | true =>
          rw [show (Option.any (fun file => !file.opens) (some file)) = false by simp [hopens]] at hgo ⊢
          simpa [hpath, hopens] using packData_entry hdirectory hgo
        | false =>
          cases hpresent : file.present with
          | true => simp [hopens, hpresent] at hgo
          | false => simp [hopens, hpresent]

end Member

/-! ## All members -/

/-- The loop stops at one of the members. -/
def AnyStops (calls : PackingCalls) : Nat → List ArchiveMemberEntry → Prop
  | _, [] => False
  | i, member :: rest => Stops calls i member ∨ AnyStops calls (i + 1) rest

/-- Nothing of a member is left out, unless it has vanished. -/
def AllTaken (calls : PackingCalls) : Nat → List ArchiveMemberEntry → Prop
  | _, [] => True
  | i, member :: rest =>
    (member.vanished = true ∨ TakenWhole calls i member) ∧ AllTaken calls (i + 1) rest

/-- The members that have not vanished, each with all of its content. -/
def wholeMembers (members : List ArchiveMemberEntry) : List PackedEntry :=
  (members.filter fun member => !member.vanished).map ArchiveMemberEntry.whole

section Members

variable {calls : PackingCalls}

theorem packMembers_stops (members : List ArchiveMemberEntry) :
    ∀ {i}, (packMembers calls i members).1 = false ↔ AnyStops calls i members := by
  induction members with
  | nil => exact ⟨fun h => absurd h (by simp [packMembers]), False.elim⟩
  | cons member rest ih =>
    intro i
    rw [packMembers, AnyStops, ← packMember_stops, ← ih]
    cases (packMember calls i member).1 <;> simp

/-- What one member leaves, in front of what the others leave. -/
theorem packMembers_cons {i : Nat} {member : ArchiveMemberEntry} {rest : List ArchiveMemberEntry}
    (hgo : (packMembers calls i (member :: rest)).1 = true) :
    (packMember calls i member).1 = true ∧ (packMembers calls (i + 1) rest).1 = true ∧
      (packMembers calls i (member :: rest)).2 =
        (packMember calls i member).2.toList ++ (packMembers calls (i + 1) rest).2 := by
  rw [packMembers] at hgo ⊢
  dsimp only at hgo ⊢
  by_cases hstep : (packMember calls i member).1 = true
  · rw [if_pos hstep] at hgo ⊢
    exact ⟨hstep, hgo, rfl⟩
  · rw [if_neg hstep] at hgo
    cases hgo

theorem wholeMembers_cons (member : ArchiveMemberEntry) (rest : List ArchiveMemberEntry) :
    wholeMembers (member :: rest) =
      (if member.vanished then none else some member.whole).toList ++ wholeMembers rest := by
  unfold wholeMembers
  cases hvanished : member.vanished with
  | true => rw [List.filter_cons_of_neg (by simp [hvanished])]; rfl
  | false => rw [List.filter_cons_of_pos (by simp [hvanished])]; rfl

/-- No member leaves more than one entry, and one that has vanished leaves none. -/
theorem packMembers_length (members : List ArchiveMemberEntry) :
    ∀ {i}, (packMembers calls i members).1 = true →
      (packMembers calls i members).2.length ≤ (wholeMembers members).length := by
  induction members with
  | nil => exact fun _ => Nat.le_refl _
  | cons member rest ih =>
    intro i hgo
    obtain ⟨hstep, hrest, heq⟩ := packMembers_cons hgo
    have hone := packMember_entry hstep
    rw [heq, wholeMembers_cons, List.length_append, List.length_append]
    refine Nat.add_le_add ?_ (ih hrest)
    cases hvanished : member.vanished with
    | true =>
      rw [hvanished] at hone
      rw [show (packMember calls i member).2 = none from hone]
      exact Nat.le_refl _
    | false => cases (packMember calls i member).2 <;> simp

/-- The archive holds the members with all of their content exactly when nothing was left out of
any. -/
theorem packMembers_whole (members : List ArchiveMemberEntry) :
    ∀ {i}, (packMembers calls i members).1 = true →
      ((packMembers calls i members).2 = wholeMembers members ↔ AllTaken calls i members) := by
  induction members with
  | nil => exact fun _ => ⟨fun _ => trivial, fun _ => rfl⟩
  | cons member rest ih =>
    intro i hgo
    obtain ⟨hstep, hrest, heq⟩ := packMembers_cons hgo
    have hone := packMember_entry hstep
    have hlength := packMembers_length rest hrest
    rw [heq, wholeMembers_cons, AllTaken, ← ih hrest]
    cases hvanished : member.vanished with
    | true =>
      rw [hvanished] at hone
      rw [show (packMember calls i member).2 = none from hone]
      simp
    | false =>
      rw [hvanished, if_neg Bool.false_ne_true] at hone
      rw [if_neg Bool.false_ne_true, ← hone]
      constructor
      · intro happend
        -- one entry each: the lists agree entry by entry
        have hboth := congrArg List.length happend
        cases hentry : (packMember calls i member).2 with
        | none =>
          rw [hentry] at hboth
          simp only [Option.toList, List.length_append, List.length_nil, List.length_cons] at hboth
          omega
        | some entry =>
          rw [hentry] at happend
          obtain ⟨hsame, hlater⟩ := List.cons.inj happend
          exact ⟨.inr (congrArg some hsame), hlater⟩
      · rintro ⟨hwhole, hlater⟩
        rw [hwhole.resolve_left Bool.false_ne_true, hlater]

end Members

/-- **An archive that is reported as written holds every member with all of its content exactly
when** the loop stops at something and so reports a failure, or nothing is left out of any member
that has not vanished. -/
theorem packed_whole_iff (calls : PackingCalls) (members : List ArchiveMemberEntry) :
    ((newArchiveFromMembers calls members).1 = true →
      (newArchiveFromMembers calls members).2 = wholeMembers members) ↔
    calls.opens = false ∨ calls.closes = false ∨ calls.frees = false ∨ AnyStops calls 0 members ∨
      AllTaken calls 0 members := by
  unfold newArchiveFromMembers
  rw [← packMembers_stops]
  cases hopens : calls.opens with
  | false => simp
  | true =>
    cases hcloses : calls.closes with
    | false => simp
    | true =>
      cases hfrees : calls.frees with
      | false => simp
      | true =>
        cases hgo : (packMembers calls 0 members).1 with
        | false => simp [hgo]
        | true => simpa [hgo] using packMembers_whole members hgo

/-- Headers come with a warning, as for a name that the archive's charset cannot spell. -/
def warningCalls : PackingCalls where
  opens := true
  header _ := .warn
  write _ _ := some 0
  finish _ := .ok
  closes := true
  frees := true

/-- A member whose header comes with a warning is packed without its content, and the archive is
reported as written. -/
theorem packed_without_content :
    newArchiveFromMembers warningCalls [{ relativePath := "a", bytes := [1] }] =
      (true, [⟨"a", false, 1, [], true⟩]) ∧
    wholeMembers [{ relativePath := "a", bytes := [1] }] = [⟨"a", false, 1, [1], true⟩] :=
  ⟨by decide +kernel, by decide +kernel⟩

end GpgFrontend
