import GpgFrontend.Function.ArchiveExtraction

/-!
# Names that are normalised

What `ValidateArchiveEntryPath` makes of the name of an entry, and what it makes of that.

- `validated_path_sound_iff`: **an accepted name is sound, and accepted again as it is, exactly
  when what is left of it does not begin with a drive.**
-/

namespace GpgFrontend

section Names

variable {unicode : QtUnicode} {policy : ArchiveExtractPolicy} {parts kept : List (List Char)}

theorem mem_of_keepParts (parts : List (List Char)) :
    ∀ {kept}, keepParts parts = some kept →
      ∀ part ∈ kept, part ∈ parts ∧ part ≠ ['.'] ∧ part ≠ ['.', '.'] := by
  induction parts with
  | nil =>
    intro kept h
    rw [← Option.some.inj h]
    exact List.forall_mem_nil _
  | cons first rest ih =>
    intro kept h
    rw [keepParts] at h
    split at h
    · exact fun part hpart => (ih h part hpart).imp_left (List.mem_cons_of_mem _)
    next hdot =>
    split at h
    · cases h
    next hdotdot =>
    obtain ⟨later, hlater, rfl⟩ := Option.map_eq_some_iff.1 h
    refine List.forall_mem_cons.2 ⟨⟨List.mem_cons_self, hdot, hdotdot⟩, fun part hpart => ?_⟩
    exact (ih hlater part hpart).imp_left (List.mem_cons_of_mem _)

theorem keepParts_plain (h : ∀ part ∈ parts, IsPlainPart part) : keepParts parts = some parts := by
  induction parts with
  | nil => rfl
  | cons first rest ih =>
    obtain ⟨hfirst, hrest⟩ := List.forall_mem_cons.1 h
    rw [hfirst.keepParts_cons, ih hrest]
    rfl

/-- A character of a joined name is of the separator or of a part. -/
theorem mem_of_mem_intercalate {sep : List Char} {c : Char} :
    ∀ {parts : List (List Char)}, c ∈ sep.intercalate parts →
      c ∈ sep ∨ ∃ part ∈ parts, c ∈ part := by
  intro parts
  induction parts with
  | nil => exact fun h => absurd h (by simp)
  | cons first rest ih =>
    intro h
    cases rest with
    | nil =>
      rw [List.intercalate_singleton] at h
      exact .inr ⟨first, List.mem_cons_self, h⟩
    | cons second others =>
      rw [List.intercalate_cons_cons, List.append_assoc, List.mem_append, List.mem_append] at h
      rcases h with hfirst | hsep | hlater
      · exact .inr ⟨first, List.mem_cons_self, hfirst⟩
      · exact .inl hsep
      · refine (ih hlater).imp_right ?_
        rintro ⟨part, hpart, hc⟩
        exact ⟨part, List.mem_cons_of_mem _ hpart, hc⟩

/-- The parts between separators hold none. -/
theorem free_of_splitOnP (s : List Char) :
    ∀ part ∈ s.splitOnP (· == '/'), ∀ c ∈ part, c ∈ s ∧ c ≠ '/' := by
  induction s with
  | nil =>
    rw [List.splitOnP_nil]
    simp
  | cons first rest ih =>
    intro part hpart c hc
    rw [List.splitOnP_cons_eq_if_modifyHead] at hpart
    by_cases hslash : (first == '/') = true
    · rw [if_pos hslash] at hpart
      rcases List.mem_cons.1 hpart with rfl | hrest
      · cases hc
      · exact (ih part hrest c hc).imp_left (List.mem_cons_of_mem _)
    · rw [if_neg hslash] at hpart
      obtain ⟨head, tail, hsplit⟩ :=
        List.exists_cons_of_ne_nil (List.splitOnP_ne_nil (· == '/') rest)
      rw [hsplit, List.modifyHead_cons] at hpart
      rw [hsplit] at ih
      rcases List.mem_cons.1 hpart with rfl | hrest
      · rcases List.mem_cons.1 hc with rfl | hlater
        · exact ⟨List.mem_cons_self, by simpa using hslash⟩
        · exact (ih head List.mem_cons_self c hlater).imp_left (List.mem_cons_of_mem _)
      · exact (ih part (List.mem_cons_of_mem _ hrest) c hc).imp_left (List.mem_cons_of_mem _)

variable {pathName : List Char}

/-- What is kept of a name is plain. -/
theorem plainParts_of_validate
    (h : validateArchiveEntryPath unicode policy pathName = (.accept, parts)) :
    ∀ part ∈ parts, IsPlainPart part := by
  intro part hpart
  obtain ⟨hmem, hdot, hdotdot⟩ := mem_of_keepParts _ (parts_of_validate h) part hpart
  rw [slashParts, List.mem_filter] at hmem
  have hfree := free_of_splitOnP _ part hmem.1
  refine ⟨fun hnil => ?_, hdot, hdotdot, fun c hc => (hfree c hc).2, fun c hc => ?_⟩
  · rw [hnil] at hmem
    exact absurd hmem.2 (by decide)
  · obtain ⟨d, -, hd⟩ := List.mem_map.1 (hfree c hc).1
    rintro rfl
    split at hd
    · cases hd
    · next hne => exact hne hd

/-- Normalising a name brings no character into it but the slash. -/
theorem mem_of_mem_joinParts
    (h : validateArchiveEntryPath unicode policy pathName = (.accept, parts)) {c : Char}
    (hc : c ∈ (joinParts parts).toList) : c = '/' ∨ c ∈ pathName := by
  rw [joinParts, String.toList_ofList] at hc
  rcases mem_of_mem_intercalate hc with hslash | ⟨part, hpart, hc⟩
  · exact .inl (List.mem_singleton.1 hslash)
  · obtain ⟨hmem, -⟩ := mem_of_keepParts _ (parts_of_validate h) part hpart
    rw [slashParts, List.mem_filter] at hmem
    obtain ⟨d, hd, rfl⟩ := List.mem_map.1 (free_of_splitOnP _ part hmem.1 c hc).1
    split
    · exact .inl rfl
    · exact .inr hd

theorem nonempty_of_validate
    (h : validateArchiveEntryPath unicode policy pathName = (.accept, parts)) : parts ≠ [] := by
  unfold validateArchiveEntryPath at h
  split at h
  · cases h
  split at h
  · cases h
  dsimp only at h
  split at h
  · cases h
  split at h
  · cases h
  split at h
  · cases h
  split at h
  · cases h
  next hkept =>
  split at h
  · cases h
  obtain ⟨-, rfl⟩ := Prod.mk.inj h
  rintro rfl
  exact hkept rfl

section Joined

variable (hplain : ∀ part ∈ parts, IsPlainPart part) (hne : parts ≠ [])

include hplain in
theorem backslash_not_mem_join : '\\' ∉ (['/'] : List Char).intercalate parts := by
  intro hmem
  rcases mem_of_mem_intercalate hmem with hslash | ⟨part, hpart, hc⟩
  · exact absurd hslash (by decide)
  · exact (hplain part hpart).noBackslash _ hc rfl

include hplain in
theorem separators_join : ((['/'] : List Char).intercalate parts).map
    (fun c => if c = '\\' then '/' else c) = (['/'] : List Char).intercalate parts := by
  rw [List.map_congr_left (g := id), List.map_id]
  intro c hc
  refine if_neg fun heq => ?_
  rw [heq] at hc
  exact backslash_not_mem_join hplain hc

include hplain hne

theorem splitOnP_join : ((['/'] : List Char).intercalate parts).splitOnP (· == '/') = parts := by
  rw [← List.splitOn_eq_splitOnP]
  exact List.splitOn_intercalate '/' (fun part hpart hc => (hplain part hpart).noSlash _ hc rfl) hne

theorem head_join : ∃ c, c ≠ '/' ∧ ((['/'] : List Char).intercalate parts).head? = some c := by
  cases parts with
  | nil => exact absurd rfl hne
  | cons first later =>
    have hfirst := hplain first List.mem_cons_self
    obtain ⟨c, chars, rfl⟩ := List.exists_cons_of_ne_nil hfirst.ne_nil
    refine ⟨c, hfirst.noSlash c List.mem_cons_self, ?_⟩
    cases later with
    | nil => rw [List.intercalate_singleton]; rfl
    | cons second others => rw [List.intercalate_cons_cons]; rfl

end Joined

/-- The parts of a name that is joined from plain ones. -/
theorem slashParts_joinParts (h : ∀ part ∈ parts, IsPlainPart part) (hne : parts ≠ []) :
    slashParts (joinParts parts).toList = parts := by
  rw [slashParts, joinParts, String.toList_ofList, separators_join h, splitOnP_join h hne,
    List.filter_eq_self]
  intro part hpart
  rw [List.isEmpty_eq_false_iff.2 (h part hpart).ne_nil]
  rfl

/-- **A normalised name is normalised to itself, by any policy that takes it.** -/
theorem joinParts_validate (h : ∀ part ∈ parts, IsPlainPart part) (hne : parts ≠ [])
    (haccept : (validateArchiveEntryPath unicode policy (joinParts parts).toList).1 = .accept) :
    joinParts (validateArchiveEntryPath unicode policy (joinParts parts).toList).2
      = joinParts parts := by
  rcases hvalid : validateArchiveEntryPath unicode policy (joinParts parts).toList with ⟨verdict, kept⟩
  rw [hvalid] at haccept
  obtain rfl : verdict = .accept := haccept
  have hkept := parts_of_validate hvalid
  rw [slashParts_joinParts h hne, keepParts_plain h] at hkept
  rw [← Option.some.inj hkept]

/-! ## Length -/

theorem utf16Length_cons (c : Char) (chars : List Char) :
    utf16Length (c :: chars) = (if 0xFFFF < c.toNat then 2 else 1) + utf16Length chars := by
  unfold utf16Length
  rw [List.map_cons, List.sum_cons]

theorem utf16Length_append (front back : List Char) :
    utf16Length (front ++ back) = utf16Length front + utf16Length back := by
  unfold utf16Length
  rw [List.map_append, List.sum_append]

/-- Both separators take one unit. -/
theorem utf16Length_separators (chars : List Char) :
    utf16Length (chars.map fun c => if c = '\\' then '/' else c) = utf16Length chars := by
  induction chars with
  | nil => rfl
  | cons c rest ih =>
    rw [List.map_cons, utf16Length_cons, utf16Length_cons, ih]
    split
    · next heq =>
      subst heq
      rfl
    · rfl

/-- The units of parts, each with a separator. -/
def separatedLength (parts : List (List Char)) : Nat :=
  (parts.map fun part => utf16Length part + 1).sum

theorem separatedLength_sublist {few many : List (List Char)} (h : few.Sublist many) :
    separatedLength few ≤ separatedLength many := by
  unfold separatedLength
  induction h with
  | slnil => exact Nat.le_refl _
  | cons part _ ih =>
    rw [List.map_cons, List.sum_cons]
    omega
  | cons_cons part _ ih =>
    rw [List.map_cons, List.sum_cons, List.map_cons, List.sum_cons]
    omega

theorem utf16Length_intercalate (hne : parts ≠ []) :
    utf16Length ((['/'] : List Char).intercalate parts) + 1 = separatedLength parts := by
  induction parts with
  | nil => exact absurd rfl hne
  | cons first rest ih =>
    cases rest with
    | nil => rw [List.intercalate_singleton]; rfl
    | cons second later =>
      have hslash : utf16Length ['/'] = 1 := rfl
      have hlater := ih (List.cons_ne_nil _ _)
      have hcons : separatedLength (first :: second :: later)
          = utf16Length first + 1 + separatedLength (second :: later) := List.sum_cons
      rw [List.intercalate_cons_cons, utf16Length_append, utf16Length_append, hslash, hcons]
      omega

theorem keepParts_sublist (all : List (List Char)) :
    ∀ {kept}, keepParts all = some kept → kept.Sublist all := by
  induction all with
  | nil =>
    intro kept h
    rw [← Option.some.inj h]
  | cons first rest ih =>
    intro kept h
    rw [keepParts] at h
    split at h
    · exact (ih h).cons first
    split at h
    · cases h
    obtain ⟨later, hlater, rfl⟩ := Option.map_eq_some_iff.1 h
    exact (ih hlater).cons_cons first

/-- A name does not grow when it is normalised. -/
theorem length_of_validate (h : validateArchiveEntryPath unicode policy pathName = (.accept, parts)) :
    utf16Length ((['/'] : List Char).intercalate parts) ≤ utf16Length pathName := by
  have hsub := (keepParts_sublist _ (parts_of_validate h)).trans List.filter_sublist
  have hkept := utf16Length_intercalate (nonempty_of_validate h)
  have hall := utf16Length_intercalate (List.splitOnP_ne_nil (· == '/')
    (pathName.map fun c => if c = '\\' then '/' else c))
  rw [← List.splitOn_eq_splitOnP, List.intercalate_splitOn, utf16Length_separators] at hall
  have hle := separatedLength_sublist hsub
  rw [← List.splitOn_eq_splitOnP] at hle
  omega

/-! ## The drive -/

/-- The first part of a name that is not `.`. -/
def firstName (pathName : List Char) : List Char :=
  ((slashParts pathName).filter fun part => part ≠ ['.']).headD []

theorem keepParts_eq_filter (all : List (List Char)) :
    ∀ {kept}, keepParts all = some kept → kept = all.filter fun part => part ≠ ['.'] := by
  induction all with
  | nil => exact fun h => (Option.some.inj h).symm
  | cons first rest ih =>
    intro kept h
    rw [keepParts] at h
    split at h
    · next hdot => rw [List.filter_cons_of_neg (by simpa using hdot), ← ih h]
    next hdot =>
    split at h
    · cases h
    obtain ⟨later, hlater, rfl⟩ := Option.map_eq_some_iff.1 h
    rw [List.filter_cons_of_pos (by simpa using hdot), ← ih hlater]

/-- A joined name begins with a drive when its first part does. -/
theorem hasDrivePrefix_intercalate {first : List Char} {later : List (List Char)}
    (hfirst : IsPlainPart first) : hasDrivePrefix unicode ((['/'] : List Char).intercalate
      (first :: later)) = hasDrivePrefix unicode first := by
  cases later with
  | nil => rw [List.intercalate_singleton]
  | cons second others =>
    rw [List.intercalate_cons_cons, List.append_assoc]
    -- a first part of one character is followed by the separator, not by a colon
    match first, hfirst.ne_nil with
    | [c], _ => rfl
    | c :: d :: chars, _ =>
      by_cases hcolon : d = ':'
      · subst hcolon
        rfl
      · simp [hasDrivePrefix, hcolon]

/-- What a name must be to be joined to a destination. -/
structure SoundPath (unicode : QtUnicode) (policy : ArchiveExtractPolicy) (path : List Char) :
    Prop where
  nonempty : path ≠ []
  relative : path.head? ≠ some '/'
  components : ∀ part ∈ path.splitOnP (· == '/'), part ≠ [] ∧ part ≠ ['.'] ∧ part ≠ ['.', '.']
  noBackslash : '\\' ∉ path
  noDrive : hasDrivePrefix unicode path = false
  length : 0 ≤ policy.maxPathLength → (utf16Length path : Int) ≤ policy.maxPathLength
  depth : 0 ≤ policy.maxDepth → ((path.splitOnP (· == '/')).length : Int) ≤ policy.maxDepth

/-- The limits an accepted name is within. -/
theorem limits_of_validate (h : validateArchiveEntryPath unicode policy pathName = (.accept, parts)) :
    (0 ≤ policy.maxPathLength → (utf16Length pathName : Int) ≤ policy.maxPathLength) ∧
    (0 ≤ policy.maxDepth → (parts.length : Int) ≤ policy.maxDepth) := by
  unfold validateArchiveEntryPath at h
  split at h
  · cases h
  split at h
  · cases h
  next hlength =>
  dsimp only at h
  split at h
  · cases h
  split at h
  · cases h
  split at h
  · cases h
  split at h
  · cases h
  split at h
  · cases h
  next hdepth =>
  obtain ⟨-, rfl⟩ := Prod.mk.inj h
  constructor <;> omega

/-- A normalised name that begins with no drive is accepted by the policy it was accepted by. -/
theorem validate_again (h : validateArchiveEntryPath unicode policy pathName = (.accept, parts))
    (hdrive : hasDrivePrefix unicode ((['/'] : List Char).intercalate parts) = false) :
    validateArchiveEntryPath unicode policy (joinParts parts).toList = (.accept, parts) := by
  have hplain := plainParts_of_validate h
  have hne := nonempty_of_validate h
  have hlength := length_of_validate h
  obtain ⟨hlimit, hdepth⟩ := limits_of_validate h
  obtain ⟨c, hc, hhead⟩ := head_join hplain hne
  have hparts := slashParts_joinParts hplain hne
  unfold slashParts at hparts
  rw [joinParts, String.toList_ofList] at hparts ⊢
  unfold validateArchiveEntryPath
  rw [if_neg, if_neg (by omega)]
  · dsimp only
    rw [separators_join hplain] at hparts ⊢
    rw [if_neg, hdrive, if_neg Bool.false_ne_true, hparts, keepParts_plain hplain]
    · dsimp only
      rw [if_neg (by simpa using hne), if_neg (by omega)]
    · rw [hhead]
      exact fun heq => hc (Option.some.inj heq)
  · intro hempty
    rw [List.isEmpty_iff.1 hempty] at hhead
    cases hhead

/-- **An accepted name is sound when normalised, and is normalised to itself, exactly when the
first part of it that is not `.` does not begin with a drive.** -/
theorem validated_path_sound_iff (unicode : QtUnicode) (policy : ArchiveExtractPolicy)
    (pathName : List Char)
    (haccept : (validateArchiveEntryPath unicode policy pathName).1 = .accept) :
    (SoundPath unicode policy
        (joinParts (validateArchiveEntryPath unicode policy pathName).2).toList ∧
      validateArchiveEntryPath unicode policy
        (joinParts (validateArchiveEntryPath unicode policy pathName).2).toList =
          validateArchiveEntryPath unicode policy pathName) ↔
    hasDrivePrefix unicode (firstName pathName) = false := by
  rcases h : validateArchiveEntryPath unicode policy pathName with ⟨verdict, parts⟩
  rw [h] at haccept
  obtain rfl : verdict = .accept := haccept
  dsimp only
  have hplain := plainParts_of_validate h
  have hne := nonempty_of_validate h
  have hfirst : hasDrivePrefix unicode (firstName pathName) =
      hasDrivePrefix unicode ((['/'] : List Char).intercalate parts) := by
    rw [firstName, ← keepParts_eq_filter _ (parts_of_validate h)]
    cases parts with
    | nil => exact absurd rfl hne
    | cons first later => exact (hasDrivePrefix_intercalate (hplain first List.mem_cons_self)).symm
  rw [hfirst]
  constructor
  · rintro ⟨hsound, -⟩
    have hdrive := hsound.noDrive
    rwa [joinParts, String.toList_ofList] at hdrive
  · intro hdrive
    obtain ⟨hlimit, hdepth⟩ := limits_of_validate h
    obtain ⟨c, hc, hhead⟩ := head_join hplain hne
    have hlength := length_of_validate h
    refine ⟨?_, validate_again h hdrive⟩
    rw [joinParts, String.toList_ofList]
    constructor
    · intro hnil
      rw [hnil] at hhead
      cases hhead
    · rw [hhead]
      exact fun heq => hc (Option.some.inj heq)
    · rw [splitOnP_join hplain hne]
      exact fun part hpart => ⟨(hplain part hpart).ne_nil, (hplain part hpart).ne_dot,
        (hplain part hpart).ne_dotdot⟩
    · exact backslash_not_mem_join hplain
    · exact hdrive
    · exact fun hmax => by have := hlimit hmax; omega
    · rw [splitOnP_join hplain hne]
      exact hdepth

end Names

/-- The letters of the Latin alphabet, and no case. -/
def latinUnicode : QtUnicode where
  isLetter := Char.isAlpha
  toCaseFolded := id

/-- `a/./b` is sound. -/
theorem validated_path_sound_plain :
    SoundPath latinUnicode .permissive
        (joinParts (validateArchiveEntryPath latinUnicode .permissive "a/./b".toList).2).toList ∧
      validateArchiveEntryPath latinUnicode .permissive
        (joinParts (validateArchiveEntryPath latinUnicode .permissive "a/./b".toList).2).toList =
          validateArchiveEntryPath latinUnicode .permissive "a/./b".toList :=
  (validated_path_sound_iff latinUnicode .permissive "a/./b".toList (by decide +kernel)).2
    (by decide +kernel)

/-- `./C:/x` is accepted, as `C:/x`, which is not. -/
theorem drive_behind_dot_accepted :
    (validateArchiveEntryPath latinUnicode (.strict 4096 16) "./C:/x".toList).1 = .accept ∧
    (validateArchiveEntryPath latinUnicode (.strict 4096 16) (joinParts
      (validateArchiveEntryPath latinUnicode (.strict 4096 16) "./C:/x".toList).2).toList).1 =
        .rejectAbsolute ∧
    ¬ SoundPath latinUnicode (.strict 4096 16)
      (joinParts (validateArchiveEntryPath latinUnicode (.strict 4096 16) "./C:/x".toList).2).toList
    := by
  refine ⟨by decide +kernel, by decide +kernel, fun hsound => ?_⟩
  exact absurd hsound.noDrive (by decide +kernel)

end GpgFrontend
