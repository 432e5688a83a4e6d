import GpgFrontend.Utils.ProfileRelativePaths

/-!
# The key databases a package carries

`RewriteKeyDatabaseListForPacking` keeps an entry if its path, spelled against the profile, names
a managed directory, and that is asked of the parts between slashes. Where a backslash separates
too, a part like `..\..\x` is no single name: `QDir::cleanPath` goes up at it, and what was kept as
managed leads out of the profile.

- `CleansOn`: what `QDir::cleanPath` makes of the paths on one root, by the separators of the
  platform.
- `toProfileRelative_cases`: a path is spelled by its names below the profile, or left.
- `packed_databases_portable`: **the list names databases of the profile only, by no absolute
  path, and is not changed by rewriting it again, exactly if no entry leads out**; and where the
  slash alone separates, none does.
-/

namespace GpgFrontend

/-! ## Names between any separators -/

section Names

variable {sep : UInt16 → Bool}

/-- Parts that hold no separator, as a path is split into. -/
def AreNames (sep : UInt16 → Bool) (names : List QString) : Prop :=
  ∀ name ∈ names, name ≠ [] ∧ ∀ c ∈ name, sep c = false

theorem areNames_split (path : QString) : AreNames sep (splitSkippingEmpty sep path) := by
  intro name hname
  obtain ⟨hsplit, hne⟩ := List.mem_filter.1 hname
  exact ⟨by simpa using hne, splitOnP_free path name hsplit⟩

theorem areNames_resolved (path : QString) :
    AreNames sep (resolveDots oneDot dotDot (splitSkippingEmpty sep path)) :=
  fun name hname => areNames_split path name (mem_of_mem_resolveDots hname)

theorem AreNames.of_append {front back : List QString} (h : AreNames sep (front ++ back)) :
    AreNames sep front ∧ AreNames sep back :=
  ⟨fun name hname => h name (List.mem_append_left _ hname),
    fun name hname => h name (List.mem_append_right _ hname)⟩

theorem splitOnP_congr {p q : UInt16 → Bool} {path : QString} (h : ∀ c ∈ path, p c = q c) :
    path.splitOnP p = path.splitOnP q := by
  induction path with
  | nil => rw [List.splitOnP_nil, List.splitOnP_nil]
  | cons c rest ih =>
    rw [List.splitOnP_cons_eq_if_modifyHead, List.splitOnP_cons_eq_if_modifyHead,
      h c List.mem_cons_self, ih fun d hd => h d (List.mem_cons_of_mem c hd)]

theorem split_append_slash (hslash : sep 0x2F = true) (front back : QString) :
    splitSkippingEmpty sep (front ++ 0x2F :: back) =
      splitSkippingEmpty sep front ++ splitSkippingEmpty sep back := by
  unfold splitSkippingEmpty
  rw [List.splitOnP_append_cons front back hslash, List.filter_append]

theorem joinSlash_singleton (name : QString) : joinSlash [name] = name := by
  simp [joinSlash, List.intercalate]

/-- What was joined with slashes is split into the same names. -/
theorem split_joinSlash (hslash : sep 0x2F = true) {names : List QString}
    (hnames : AreNames sep names) : splitSkippingEmpty sep (joinSlash names) = names := by
  have hone : ∀ name ∈ names, splitSkippingEmpty sep name = [name] := by
    intro name hname
    obtain ⟨hne, hfree⟩ := hnames name hname
    have hsplit : name.splitOnP sep = [name] :=
      List.splitOnP_eq_singleton hfree
    unfold splitSkippingEmpty
    rw [hsplit]
    simpa using hne
  induction names with
  | nil => rfl
  | cons first rest ih =>
    have hrest := ih (fun name hname => hnames name (List.mem_cons_of_mem _ hname))
      fun name hname => hone name (List.mem_cons_of_mem _ hname)
    cases rest with
    | nil =>
      rw [joinSlash_singleton]
      exact hone first List.mem_cons_self
    | cons second later =>
      rw [← List.singleton_append,
        joinSlash_append (List.cons_ne_nil _ _) (List.cons_ne_nil _ _), joinSlash_singleton,
        split_append_slash hslash, hrest, hone first List.mem_cons_self]

end Names

/-! ## Cleaning on a platform -/

/-- What is documented of `QDir::cleanPath` on a platform with these separators, about the paths
on one root: `/`, or a drive `C:/`. -/
structure CleansOn (fs : ProfileFs) (sep : UInt16 → Bool) (anchor : QString) : Prop where
  slash : sep 0x2F = true
  /-- No root is spelled like a path against the profile. -/
  apart : ∀ rest, ¬ anchor <+: profilePathPrefix ++ rest
  anchored : ∀ rest, fs.cleanPath (anchor ++ rest) =
    anchor ++ joinSlash (resolveDots oneDot dotDot (splitSkippingEmpty sep rest))
  /-- A clean path on the root is left. -/
  settled : ∀ path, anchor <+: fs.cleanPath path →
    fs.cleanPath (fs.cleanPath path) = fs.cleanPath path
  /-- So is a clean path against the profile. -/
  stored : ∀ names, names ≠ [] → AreNames sep names → oneDot ∉ names → dotDot ∉ names →
    fs.cleanPath (profilePathPrefix ++ joinSlash names) = profilePathPrefix ++ joinSlash names

/-- A folder a profile lives in: a path on the root, of names. -/
def IsRootOn (sep : UInt16 → Bool) (anchor root : QString) : Prop :=
  ∃ below, root = anchor ++ below ∧
    resolveDots oneDot dotDot (splitSkippingEmpty sep below) ≠ [] ∧
      dotDot ∉ resolveDots oneDot dotDot (splitSkippingEmpty sep below)

/-- The path is the clean root, or is below it by names that lead down. -/
def Under (sep : UInt16 → Bool) (root path : QString) : Prop :=
  path = root ∨ ∃ names, names ≠ [] ∧ AreNames sep names ∧ oneDot ∉ names ∧ dotDot ∉ names ∧
    path = root ++ 0x2F :: joinSlash names

section Clean

variable {fs : ProfileFs} {sep : UInt16 → Bool} {anchor root : QString}

/-- The clean root by its names, which lead down. -/
theorem IsRootOn.spelled (hclean : CleansOn fs sep anchor) (hroot : IsRootOn sep anchor root) :
    ∃ names, names ≠ [] ∧ AreNames sep names ∧ dotDot ∉ names ∧
      resolveDots oneDot dotDot names = names ∧ fs.cleanPath root = anchor ++ joinSlash names := by
  obtain ⟨below, rfl, hne, hup⟩ := hroot
  exact ⟨_, hne, areNames_resolved below, hup,
    resolveDots_of_resolved oneDot_ne_dotDot (resolved_resolveDots oneDot_ne_dotDot _),
    hclean.anchored below⟩

/-- A clean path that starts like the root is one under it. -/
theorem under_iff (hclean : CleansOn fs sep anchor) (hroot : IsRootOn sep anchor root)
    (path : QString) :
    (fs.cleanPath path = fs.cleanPath root ∨
      (fs.cleanPath root ++ [0x2F]).isPrefixOf (fs.cleanPath path) = true) ↔
      Under sep (fs.cleanPath root) (fs.cleanPath path) := by
  refine or_congr_right ⟨fun hfront => ?_, ?_⟩
  · obtain ⟨tail, htail⟩ := isPrefixOf_slash.1 hfront
    obtain ⟨above, hne, hnames, hup, -, hspelled⟩ := hroot.spelled hclean
    have hpath : fs.cleanPath path = anchor ++ (joinSlash above ++ 0x2F :: tail) := by
      rw [htail, hspelled, List.append_assoc]
    -- it is clean, so its names are resolved
    have hagain := hclean.settled path (hpath ▸ List.prefix_append _ _)
    rw [hpath, hclean.anchored, List.append_cancel_left_eq] at hagain
    have hresolved := resolved_resolveDots oneDot_ne_dotDot
      (splitSkippingEmpty sep (joinSlash above ++ 0x2F :: tail))
    have hwhole : AreNames sep _ := areNames_resolved (joinSlash above ++ 0x2F :: tail)
    have hall := split_joinSlash hclean.slash hwhole
    rw [hagain, split_append_slash hclean.slash, split_joinSlash hclean.slash hnames] at hall
    rw [split_append_slash hclean.slash, split_joinSlash hclean.slash hnames, ← hall] at hresolved
    rw [split_append_slash hclean.slash, split_joinSlash hclean.slash hnames, ← hall] at hagain
    have hbelow : splitSkippingEmpty sep tail ≠ [] := by
      intro hnil
      rw [hnil, List.append_nil] at hagain
      have hlength := congrArg List.length hagain
      rw [List.length_append, List.length_cons] at hlength
      omega
    rw [joinSlash_append hne hbelow, List.append_cancel_left_eq] at hagain
    have hdot := hresolved.dot_notMem oneDot_ne_dotDot
    exact ⟨splitSkippingEmpty sep tail, hbelow, areNames_split tail,
      fun hmem => hdot (List.mem_append_right _ hmem), hresolved.of_append hne hup,
      by rw [htail, (List.cons.inj hagain).2]⟩
  · rintro ⟨names, -, -, -, -, heq⟩
    exact isPrefixOf_slash.2 ⟨_, heq⟩

/-- A path is spelled by its names below the profile, or left. -/
theorem toProfileRelative_cases (hclean : CleansOn fs sep anchor) (hroot : IsRootOn sep anchor root)
    (path : QString) :
    (fs.toProfileRelativeKeyDatabasePath path root = profilePathToken) ∨
    (∃ names, names ≠ [] ∧ AreNames sep names ∧ oneDot ∉ names ∧ dotDot ∉ names ∧
      fs.cleanPath path = fs.cleanPath root ++ 0x2F :: joinSlash names ∧
      fs.toProfileRelativeKeyDatabasePath path root = profilePathPrefix ++ joinSlash names) ∨
    (¬ Under sep (fs.cleanPath root) (fs.cleanPath path) ∧
      fs.toProfileRelativeKeyDatabasePath path root = path) := by
  unfold ProfileFs.toProfileRelativeKeyDatabasePath
  dsimp only
  by_cases hsame : fs.cleanPath path = fs.cleanPath root
  · exact .inl (if_pos hsame)
  rw [if_neg hsame]
  by_cases hfront : (fs.cleanPath root ++ [0x2F]).isPrefixOf (fs.cleanPath path) = true
  · obtain ⟨names, hne, hnames, hdot, hup, heq⟩ :=
      ((under_iff hclean hroot path).1 (.inr hfront)).resolve_left hsame
    refine .inr (.inl ⟨names, hne, hnames, hdot, hup, heq, ?_⟩)
    rw [if_neg (by rw [hfront]; decide), heq, ← List.singleton_append, ← List.append_assoc,
      List.drop_left' (by simp)]
  · refine .inr (.inr ⟨fun hunder => ?_, if_pos (by rw [Bool.eq_false_iff.2 hfront]; rfl)⟩)
    exact ((under_iff hclean hroot path).2 hunder).elim hsame hfront

theorem not_under_nil (hclean : CleansOn fs sep anchor) (hroot : IsRootOn sep anchor root) :
    ¬ Under sep (fs.cleanPath root) [] := by
  obtain ⟨above, -, -, -, -, hspelled⟩ := hroot.spelled hclean
  rintro (hnil | ⟨names, -, -, -, -, hnil⟩)
  · rw [hspelled] at hnil
    refine hclean.apart [] ?_
    rw [(List.append_eq_nil_iff.1 hnil.symm).1]
    exact List.nil_prefix
  · exact absurd hnil.symm (List.append_ne_nil_of_right_ne_nil _ (List.cons_ne_nil _ _))

/-- A path that is not on the root is left. -/
theorem toProfileRelative_apart (hclean : CleansOn fs sep anchor) (hroot : IsRootOn sep anchor root)
    {path : QString} (h : ¬ anchor <+: fs.cleanPath path) :
    fs.toProfileRelativeKeyDatabasePath path root = path := by
  obtain ⟨above, -, -, -, -, hspelled⟩ := hroot.spelled hclean
  have hfront : ∀ tail, anchor <+: fs.cleanPath root ++ tail := fun tail => by
    rw [hspelled, List.append_assoc]
    exact List.prefix_append _ _
  unfold ProfileFs.toProfileRelativeKeyDatabasePath
  dsimp only
  rw [if_neg, if_pos]
  · rw [Bool.not_eq_true', Bool.eq_false_iff]
    intro hnear
    obtain ⟨tail, htail⟩ := isPrefixOf_slash.1 hnear
    exact h (htail ▸ hfront _)
  · intro hsame
    have hroot := hfront []
    rw [List.append_nil, ← hsame] at hroot
    exact h hroot

/-- What a path spelled against the profile resolves to: what it stands for if that is under the
root, or nothing. -/
theorem fromProfileRelative_cases (hclean : CleansOn fs sep anchor)
    (hroot : IsRootOn sep anchor root) (suffix : QString) :
    (Under sep (fs.cleanPath root) (fs.cleanPath (fs.cleanPath root ++ 0x2F :: suffix)) ∧
      fs.fromProfileRelativeKeyDatabasePath (profilePathPrefix ++ suffix) root =
        fs.cleanPath (fs.cleanPath root ++ 0x2F :: suffix)) ∨
    (¬ Under sep (fs.cleanPath root) (fs.cleanPath (fs.cleanPath root ++ 0x2F :: suffix)) ∧
      fs.fromProfileRelativeKeyDatabasePath (profilePathPrefix ++ suffix) root = []) := by
  have htoken : profilePathPrefix ++ suffix ≠ profilePathToken := by
    intro heq
    have hlength := congrArg List.length heq
    rw [profilePathPrefix, List.length_append, List.length_append, List.length_singleton] at hlength
    omega
  have hprefix : profilePathPrefix.isPrefixOf (profilePathPrefix ++ suffix) = true :=
    List.isPrefixOf_iff_prefix.2 (List.prefix_append _ _)
  unfold ProfileFs.fromProfileRelativeKeyDatabasePath
  dsimp only
  rw [if_neg htoken, hprefix, List.drop_left, List.append_assoc, List.singleton_append,
    ← under_iff hclean hroot]
  by_cases hsame : fs.cleanPath (fs.cleanPath root ++ 0x2F :: suffix) = fs.cleanPath root
  · exact .inl ⟨.inl hsame, by simp [hsame]⟩
  · by_cases hfront : (fs.cleanPath root ++ [0x2F]).isPrefixOf
        (fs.cleanPath (fs.cleanPath root ++ 0x2F :: suffix)) = true
    · exact .inl ⟨.inr hfront, by simp [hfront]⟩
    · exact .inr ⟨not_or.2 ⟨hsame, hfront⟩, by simp [hsame, hfront]⟩

end Clean

/-! ## What is packed -/

/-- The kind does not keep the entry from being carried. -/
def KeyDatabaseItemSO.MayTravel (item : KeyDatabaseItemSO) : Prop :=
  item.kind = none ∨ item.kind = some .managed

/-- When an entry is packed, and as what. -/
theorem packedItem_eq_some_iff {fs : ProfileFs} {root : QString} {item packed : KeyDatabaseItemSO} :
    fs.packedItem root item = some packed ↔
      item.MayTravel ∧
      profilePathPrefix <+: fs.toProfileRelativeKeyDatabasePath item.path root ∧
      isManagedKeyDatabasePath ((fs.toProfileRelativeKeyDatabasePath item.path root).drop
        profilePathPrefix.length) = true ∧
      { item with path := fs.toProfileRelativeKeyDatabasePath item.path root } = packed := by
  have hkind : (item.kind ≠ none && item.kind ≠ some .managed) = true ↔ ¬ item.MayTravel := by
    simp [KeyDatabaseItemSO.MayTravel]
  have hdrop (path : QString) : (path.drop profilePathToken.length).drop 1
      = path.drop profilePathPrefix.length := List.drop_drop
  unfold ProfileFs.packedItem
  dsimp only
  rw [hdrop]
  generalize fs.toProfileRelativeKeyDatabasePath item.path root = rewritten
  by_cases htravel : item.MayTravel
  case neg =>
    rw [if_pos (hkind.2 htravel)]
    simp [htravel]
  rw [if_neg (mt hkind.1 (not_not.2 htravel))]
  by_cases hfront : profilePathPrefix <+: rewritten
  · have hrelative : isProfileRelativeKeyDatabasePath rewritten = true := by
      unfold isProfileRelativeKeyDatabasePath
      rw [List.isPrefixOf_iff_prefix.2 hfront, Bool.or_true]
    have hne : rewritten ≠ [] := by
      rintro rfl
      cases hrelative
    cases hmanaged : isManagedKeyDatabasePath (rewritten.drop profilePathPrefix.length) <;>
      simp [hrelative, hne, htravel, hfront]
  · -- not against the profile, or the profile itself, which is no managed directory
    have hnone : rewritten = profilePathToken ∨ isProfileRelativeKeyDatabasePath rewritten = false := by
      unfold isProfileRelativeKeyDatabasePath
      by_cases htoken : rewritten = profilePathToken
      · exact .inl htoken
      · refine .inr ?_
        rw [Bool.or_eq_false_iff]
        exact ⟨decide_eq_false htoken,
          Bool.eq_false_iff.2 (mt List.isPrefixOf_iff_prefix.1 hfront)⟩
    rcases hnone with rfl | hrelative
    · have hmanaged : isManagedKeyDatabasePath (profilePathToken.drop profilePathPrefix.length)
          = false := rfl
      simp [hmanaged]
    · simp [hrelative, hfront]

section Packed

variable (fs : ProfileFs) (sep : UInt16 → Bool) (root : QString)
  (databases : List KeyDatabaseItemSO)

/-- The list a package carries: entries of the list in their order, each by a path against the
profile that names a managed directory, is absolute on no platform and resolves inside the
profile; and rewriting it again changes nothing. -/
structure PackedPortably : Prop where
  sublist : ∃ kept : List KeyDatabaseItemSO, kept.Sublist databases ∧
    fs.rewriteKeyDatabaseListForPacking databases root = kept.map fun item =>
      { item with path := fs.toProfileRelativeKeyDatabasePath item.path root }
  portable : ∀ item ∈ fs.rewriteKeyDatabaseListForPacking databases root,
    profilePathPrefix <+: item.path ∧
    isManagedKeyDatabasePath (item.path.drop profilePathPrefix.length) = true ∧
    item.path.head? ≠ some 0x2F ∧ item.path[1]? ≠ some 0x3A ∧
    Under sep (fs.cleanPath root) (fs.fromProfileRelativeKeyDatabasePath item.path root)
  stable : fs.rewriteKeyDatabaseListForPacking
      (fs.rewriteKeyDatabaseListForPacking databases root) root =
    fs.rewriteKeyDatabaseListForPacking databases root

/-- A stored path against the profile, that is managed by the parts between its slashes, and
leads out of the profile by the names between all separators. -/
structure LeadsOut (item : KeyDatabaseItemSO) : Prop where
  mayTravel : item.MayTravel
  stored : profilePathPrefix <+: item.path
  managed : isManagedKeyDatabasePath (item.path.drop profilePathPrefix.length) = true
  outside : ¬ Under sep (fs.cleanPath root) (fs.cleanPath item.path)
  leadsOut : ¬ Under sep (fs.cleanPath root)
    (fs.cleanPath (fs.cleanPath root ++ 0x2F :: item.path.drop profilePathPrefix.length))

end Packed

section Result

variable {fs : ProfileFs} {sep : UInt16 → Bool} {anchor root : QString}

theorem filterMap_sublist_map {α β : Type} {f : α → Option β} {g : α → β}
    (h : ∀ a b, f a = some b → b = g a) (as : List α) :
    ∃ kept : List α, kept.Sublist as ∧ as.filterMap f = kept.map g := by
  induction as with
  | nil => exact ⟨[], List.Sublist.refl _, rfl⟩
  | cons a as ih =>
    obtain ⟨kept, hsub, heq⟩ := ih
    cases hfa : f a with
    | none => exact ⟨kept, hsub.cons a, (List.filterMap_cons_none hfa).trans heq⟩
    | some b =>
      refine ⟨a :: kept, hsub.cons_cons a, ?_⟩
      rw [List.filterMap_cons_some hfa, List.map_cons, heq, h a b hfa]

/-- What is packed is packed again as it is. -/
theorem packedItem_packed (hclean : CleansOn fs sep anchor) (hroot : IsRootOn sep anchor root)
    {item packed : KeyDatabaseItemSO} (h : fs.packedItem root item = some packed) :
    fs.packedItem root packed = some packed := by
  obtain ⟨htravel, hfront, hmanaged, rfl⟩ := packedItem_eq_some_iff.1 h
  have hsame : fs.toProfileRelativeKeyDatabasePath
      (fs.toProfileRelativeKeyDatabasePath item.path root) root
        = fs.toProfileRelativeKeyDatabasePath item.path root := by
    rcases toProfileRelative_cases hclean hroot item.path with
      heq | ⟨names, hne, hnames, hdot, hup, -, heq⟩ | ⟨-, heq⟩
    · rw [heq] at hmanaged
      cases hmanaged
    · -- the names are those of a clean path, which is not on the root
      have hapart : ¬ anchor <+: fs.cleanPath (profilePathPrefix ++ joinSlash names) := by
        rw [hclean.stored names hne hnames hdot hup]
        exact hclean.apart _
      rw [heq, toProfileRelative_apart hclean hroot hapart]
    · rw [heq, heq]
  exact packedItem_eq_some_iff.2 ⟨htravel, by rw [hsame]; exact hfront,
    by rw [hsame]; exact hmanaged, by rw [hsame]⟩

/-- What is packed resolves under the root, unless the entry leads out. -/
theorem packedItem_resolves (hclean : CleansOn fs sep anchor) (hroot : IsRootOn sep anchor root)
    {item packed : KeyDatabaseItemSO} (h : fs.packedItem root item = some packed)
    (hstays : ¬ LeadsOut fs sep root item) :
    Under sep (fs.cleanPath root) (fs.fromProfileRelativeKeyDatabasePath packed.path root) := by
  obtain ⟨htravel, hfront, hmanaged, rfl⟩ := packedItem_eq_some_iff.1 h
  show Under sep (fs.cleanPath root) (fs.fromProfileRelativeKeyDatabasePath
    (fs.toProfileRelativeKeyDatabasePath item.path root) root)
  rcases toProfileRelative_cases hclean hroot item.path with
    heq | ⟨names, hne, hnames, hdot, hup, hpath, heq⟩ | ⟨hout, heq⟩
  · rw [heq] at hmanaged
    cases hmanaged
  · have hunder : Under sep (fs.cleanPath root)
        (fs.cleanPath (fs.cleanPath root ++ 0x2F :: joinSlash names)) := by
      obtain ⟨above, -, -, -, -, hspelled⟩ := hroot.spelled hclean
      rw [← hpath, hclean.settled item.path (by
        rw [hpath, hspelled, List.append_assoc]; exact List.prefix_append _ _), hpath]
      exact .inr ⟨names, hne, hnames, hdot, hup, rfl⟩
    rw [heq]
    rcases fromProfileRelative_cases hclean hroot (joinSlash names) with ⟨hin, hfrom⟩ | ⟨hnot, -⟩
    · rw [hfrom]
      exact hin
    · exact absurd hunder hnot
  · rw [heq] at hfront hmanaged ⊢
    obtain ⟨suffix, hsuffix⟩ := hfront
    rcases fromProfileRelative_cases hclean hroot suffix with ⟨hin, hfrom⟩ | ⟨hnot, -⟩
    · rw [← hsuffix, hfrom]
      exact hin
    · refine absurd ⟨htravel, ⟨suffix, hsuffix⟩, hmanaged, hout, ?_⟩ hstays
      rw [← hsuffix, List.drop_left]
      exact hnot

/-- An entry that leads out is packed as it is, and resolves to nothing. -/
theorem LeadsOut.packed (hclean : CleansOn fs sep anchor) (hroot : IsRootOn sep anchor root)
    {item : KeyDatabaseItemSO} (h : LeadsOut fs sep root item) :
    fs.packedItem root item = some item ∧
      fs.fromProfileRelativeKeyDatabasePath item.path root = [] := by
  obtain ⟨suffix, hsuffix⟩ := h.stored
  have hleft : fs.toProfileRelativeKeyDatabasePath item.path root = item.path := by
    rcases toProfileRelative_cases hclean hroot item.path with
      heq | ⟨names, hne, hnames, hdot, hup, hpath, -⟩ | ⟨-, heq⟩
    · unfold ProfileFs.toProfileRelativeKeyDatabasePath at heq ⊢
      dsimp only at heq ⊢
      rw [if_neg fun hsame => h.outside (.inl hsame)] at heq ⊢
      split at heq
      · next hfar => rw [if_pos hfar]
      · cases heq
    · exact absurd (.inr ⟨names, hne, hnames, hdot, hup, hpath⟩) h.outside
    · exact heq
  refine ⟨packedItem_eq_some_iff.2 ⟨h.mayTravel, ?_, ?_, ?_⟩, ?_⟩
  · rw [hleft]
    exact h.stored
  · rw [hleft]
    exact h.managed
  · rw [hleft]
  · have hnot := h.leadsOut
    rw [← hsuffix, List.drop_left] at hnot
    rw [← hsuffix]
    exact ((fromProfileRelative_cases hclean hroot suffix).resolve_left fun hin => hnot hin.1).2

/-- Where only slashes stand in a stored path, its managed directory is in the profile. -/
theorem not_leadsOut_of_slashes (hclean : CleansOn fs sep anchor) (hroot : IsRootOn sep anchor root)
    {item : KeyDatabaseItemSO} (h : ∀ c ∈ item.path, sep c = true → c = 0x2F) :
    ¬ LeadsOut fs sep root item := by
  intro hout
  refine hout.leadsOut ((under_iff hclean hroot _).1 ?_)
  obtain ⟨above, hne, hnames, -, hresolved, hspelled⟩ := hroot.spelled hclean
  obtain ⟨suffix, hsuffix⟩ := hout.stored
  have hmanaged := hout.managed
  rw [← hsuffix, List.drop_left] at hmanaged ⊢
  -- the names are the parts between slashes
  have hsame : splitSkippingEmpty sep suffix = splitSkippingEmpty isSlash suffix := by
    have hsep : ∀ c ∈ suffix, sep c = isSlash c := fun c hc => Bool.eq_iff_iff.2
      ⟨fun hsep => decide_eq_true (h c (hsuffix ▸ List.mem_append_right _ hc) hsep),
        fun heq => of_decide_eq_true heq ▸ hclean.slash⟩
    unfold splitSkippingEmpty
    rw [splitOnP_congr hsep]
  have hdown : dotDot ∉ splitSkippingEmpty sep suffix := by
    rw [hsame]
    unfold isManagedKeyDatabasePath at hmanaged
    intro hmem
    split at hmanaged
    · cases hmanaged
    · next heq =>
      rw [heq] at hmem
      rw [List.contains_iff_mem.2 hmem] at hmanaged
      cases hmanaged
  rw [hspelled, List.append_assoc, hclean.anchored, split_append_slash hclean.slash,
    split_joinSlash hclean.slash hnames, resolveDots_append hdown, hresolved]
  by_cases hnil : (splitSkippingEmpty sep suffix).filter (fun part => part ≠ oneDot) = []
  · rw [hnil, List.append_nil]
    exact .inl rfl
  · rw [joinSlash_append hne hnil, isPrefixOf_slash, ← List.append_assoc]
    exact .inr ⟨_, rfl⟩

/-- **When the packed list is portable**: exactly if no entry leads out of the profile. Where only
slashes separate the stored paths, none does. -/
theorem packed_databases_portable (hclean : CleansOn fs sep anchor)
    (hroot : IsRootOn sep anchor root) (databases : List KeyDatabaseItemSO) :
    (PackedPortably fs sep root databases ↔ ∀ item ∈ databases, ¬ LeadsOut fs sep root item) ∧
    ((∀ item ∈ databases, profilePathPrefix <+: item.path → ∀ c ∈ item.path, sep c = true → c = 0x2F) →
      PackedPortably fs sep root databases) := by
  have hiff : PackedPortably fs sep root databases ↔
      ∀ item ∈ databases, ¬ LeadsOut fs sep root item := by
    constructor
    · intro h item hitem hout
      obtain ⟨hpacked, hfrom⟩ := hout.packed hclean hroot
      obtain ⟨-, -, -, -, hunder⟩ := h.portable item (List.mem_filterMap.2 ⟨item, hitem, hpacked⟩)
      rw [hfrom] at hunder
      exact not_under_nil hclean hroot hunder
    · intro hstays
      refine ⟨filterMap_sublist_map (fun item packed h =>
        (packedItem_eq_some_iff.1 h).2.2.2.symm) databases, fun item hitem => ?_, ?_⟩
      · obtain ⟨stored, hstored, hpacked⟩ := List.mem_filterMap.1 hitem
        obtain ⟨-, hfront, hmanaged, heq⟩ := packedItem_eq_some_iff.1 hpacked
        have hpath : item.path = fs.toProfileRelativeKeyDatabasePath stored.path root := by
          rw [← heq]
        rw [← hpath] at hfront hmanaged
        obtain ⟨suffix, hsuffix⟩ := hfront
        refine ⟨⟨suffix, hsuffix⟩, hmanaged, ?_, ?_,
          packedItem_resolves hclean hroot hpacked (hstays stored hstored)⟩
        · rw [← hsuffix]
          exact fun h => by cases h
        · rw [← hsuffix]
          exact fun h => by cases h
      · have hfix : ∀ item ∈ fs.rewriteKeyDatabaseListForPacking databases root,
            fs.packedItem root item = some item := by
          intro item hitem
          obtain ⟨stored, -, hpacked⟩ := List.mem_filterMap.1 hitem
          exact packedItem_packed hclean hroot hpacked
        show (fs.rewriteKeyDatabaseListForPacking databases root).filterMap (fs.packedItem root) = _
        rw [List.filterMap_congr hfix, List.filterMap_some]
  refine ⟨hiff, fun hslashes => hiff.2 fun item hitem hout => ?_⟩
  exact not_leadsOut_of_slashes hclean hroot (hslashes item hitem hout.stored) hout

end Result

/-! ## Two platforms -/

theorem cleanPath_stored {names : List QString} (hne : names ≠ []) (hnames : AreNames isSlash names)
    (hdot : oneDot ∉ names) (hup : dotDot ∉ names) :
    cleanPath (profilePathPrefix ++ joinSlash names) = profilePathPrefix ++ joinSlash names := by
  have hspelled : profilePathPrefix ++ joinSlash names = joinSlash (profilePathToken :: names) := by
    rw [← List.singleton_append (x := profilePathToken), joinSlash_append (by decide) hne,
      joinSlash_singleton, profilePathPrefix, List.append_assoc]
    rfl
  have hfree : profilePathToken.all (fun c => !isSlash c) = true := by decide
  have htoken : AreNames isSlash [profilePathToken] := List.forall_mem_singleton.2
    ⟨List.cons_ne_nil _ _, fun c hc => (Bool.not_eq_true' _).mp (List.all_eq_true.1 hfree c hc)⟩
  have hall : pathNames (profilePathPrefix ++ joinSlash names) = profilePathToken :: names := by
    rw [hspelled]
    exact split_joinSlash rfl fun name hname => (List.mem_cons.1 hname).elim
      (fun heq => htoken name (List.mem_singleton.2 heq)) (hnames name)
  have hkept : names.filter (fun part => part ≠ oneDot) = names :=
    List.filter_eq_self.2 fun part hpart => decide_eq_true fun heq => hdot (heq ▸ hpart)
  have hresolved : resolveDots oneDot dotDot (profilePathToken :: names)
      = profilePathToken :: names := by
    rw [← List.singleton_append (x := profilePathToken), resolveDots_append hup, hkept]
    rfl
  have hhead : (profilePathPrefix ++ joinSlash names).head? = some 0x40 := rfl
  unfold cleanPath
  rw [hall, hresolved]
  dsimp only
  rw [if_neg (by rw [hhead]; decide), if_neg (List.append_ne_nil_of_left_ne_nil (by decide) _),
    if_neg (List.cons_ne_nil _ _), hspelled]

/-- A platform whose root is `/`. -/
theorem cleansOn_slash (fs : ProfileFs) : CleansOn { fs with cleanPath } isSlash [0x2F] where
  slash := rfl
  apart rest hroot := by
    obtain ⟨tail, htail⟩ := hroot
    cases htail
  anchored rest := by
    rw [(cleansPaths_cleanPath fs).absolute ([0x2F] ++ rest) rfl, List.singleton_append,
      pathNames_slash]
    rfl
  settled path h := by
    refine (cleansPaths_cleanPath fs).clean_clean ?_
    by_contra hrel
    obtain ⟨tail, htail⟩ := h
    exact (cleansPaths_cleanPath fs).relative path hrel (by rw [← htail]; rfl)
  stored _ := cleanPath_stored

/-- `fromNativeSeparators`, where the native one is the backslash. -/
def fromNativeSeparators (path : QString) : QString :=
  path.map fun c => if c = 0x5C then 0x2F else c

/-- `QDir::cleanPath` with drives. -/
def driveCleanPath (path : QString) : QString :=
  match fromNativeSeparators path with
  | letter :: 0x3A :: 0x2F :: rest =>
    letter :: 0x3A :: 0x2F :: joinSlash (resolveDots oneDot dotDot (pathNames rest))
  | relative => cleanPath relative

theorem pathNames_fromNativeSeparators (path : QString) :
    pathNames (fromNativeSeparators path) = splitSkippingEmpty isAnySlash path := by
  unfold pathNames splitSkippingEmpty fromNativeSeparators
  congr 1
  induction path with
  | nil => rw [List.map_nil, List.splitOnP_nil, List.splitOnP_nil]
  | cons c rest ih =>
    rw [List.map_cons, List.splitOnP_cons_eq_if_modifyHead, List.splitOnP_cons_eq_if_modifyHead, ih]
    by_cases hback : c = 0x5C
    · subst hback
      rfl
    · have hsep : isAnySlash c = isSlash c := by simp [isAnySlash, isSlash, hback]
      rw [if_neg hback, hsep]

theorem fromNativeSeparators_names {names : List QString} (hnames : AreNames isAnySlash names) :
    fromNativeSeparators (joinSlash names) = joinSlash names := by
  have hfree : ∀ c ∈ joinSlash names, c ≠ 0x5C := by
    induction names with
    | nil => exact fun c hc => absurd hc List.not_mem_nil
    | cons first rest ih =>
      have hfirst : ∀ c ∈ first, c ≠ 0x5C := fun c hc heq => by
        have hsep := (hnames first List.mem_cons_self).2 c hc
        rw [heq] at hsep
        cases hsep
      cases rest with
      | nil =>
        rw [joinSlash_singleton]
        exact hfirst
      | cons second later =>
        rw [← List.singleton_append, joinSlash_append (List.cons_ne_nil _ _) (List.cons_ne_nil _ _),
          joinSlash_singleton]
        intro c hc
        rcases List.mem_append.1 hc with hc | hc
        · exact hfirst c hc
        · rcases List.mem_cons.1 hc with rfl | hc
          · decide
          · exact ih (fun name hname => hnames name (List.mem_cons_of_mem _ hname)) c hc
  exact (List.map_congr_left fun c hc => if_neg (hfree c hc)).trans (List.map_id _)

theorem AreNames.slashes {names : List QString} (h : AreNames isAnySlash names) :
    AreNames isSlash names := fun name hname =>
  ⟨(h name hname).1, fun c hc => (Bool.or_eq_false_iff.1 ((h name hname).2 c hc)).1⟩

/-- The names of a path with drives, resolved and joined, stay as they are. -/
theorem driveNames_again (path : QString) :
    resolveDots oneDot dotDot (pathNames (fromNativeSeparators (joinSlash
      (resolveDots oneDot dotDot (pathNames (fromNativeSeparators path))))))
        = resolveDots oneDot dotDot (pathNames (fromNativeSeparators path)) := by
  have hnames : AreNames isAnySlash
      (resolveDots oneDot dotDot (pathNames (fromNativeSeparators path))) := by
    rw [pathNames_fromNativeSeparators]
    exact areNames_resolved path
  rw [fromNativeSeparators_names hnames, pathNames, split_joinSlash rfl hnames.slashes]
  exact resolveDots_of_resolved oneDot_ne_dotDot (resolved_resolveDots oneDot_ne_dotDot _)

/-- A platform with drives. -/
def driveFs : ProfileFs := { plainFs [] with cleanPath := driveCleanPath }

/-- Where a relative path is cleaned into one on the drive, that one is clean. -/
theorem drive_of_relative {path tail : QString}
    (h : [67, 58, 47] ++ tail = cleanPath (fromNativeSeparators path)) :
    driveCleanPath ([67, 58, 47] ++ tail) = [67, 58, 47] ++ tail := by
  have hnames : AreNames isAnySlash
      (resolveDots oneDot dotDot (pathNames (fromNativeSeparators path))) := by
    rw [pathNames_fromNativeSeparators]
    exact areNames_resolved path
  have hresolved := resolved_resolveDots oneDot_ne_dotDot (pathNames (fromNativeSeparators path))
  unfold cleanPath at h
  dsimp only at h
  generalize resolveDots oneDot dotDot (pathNames (fromNativeSeparators path)) = names at *
  have hjoin : [67, 58, 47] ++ tail = joinSlash names := by
    split at h
    · cases h
    split at h
    · cases h
    split at h
    · cases h
    · exact h
  -- the names are the drive and those of what follows it
  have hsplit : names = [67, 58] :: pathNames tail := by
    have hback : pathNames (joinSlash names) = names := split_joinSlash rfl hnames.slashes
    rw [← hback, ← hjoin]
    exact pathNames_append_slash [67, 58] tail
  rw [hsplit] at hjoin
  rw [hsplit, ← List.singleton_append] at hnames hresolved
  obtain ⟨-, htailNames⟩ := hnames.of_append
  have hdown : dotDot ∉ pathNames tail :=
    hresolved.of_append (List.cons_ne_nil _ _) (by decide)
  have hkept : (pathNames tail).filter (fun part => part ≠ oneDot) = pathNames tail :=
    List.filter_eq_self.2 fun part hpart => decide_eq_true fun heq =>
      hresolved.dot_notMem oneDot_ne_dotDot (heq ▸ List.mem_cons_of_mem _ hpart)
  have htail : joinSlash (pathNames tail) = tail := by
    by_cases hnil : pathNames tail = []
    · rw [hnil] at hjoin
      cases hjoin
    · have hdrive : [67, 58, 47] ++ tail = [67, 58, 47] ++ joinSlash (pathNames tail) :=
        hjoin.trans (joinSlash_append (List.cons_ne_nil [67, 58] []) hnil)
      exact (List.append_cancel_left hdrive).symm
  have hread : fromNativeSeparators tail = tail := by
    rw [← htail]
    exact fromNativeSeparators_names htailNames
  show [67, 58, 47] ++ joinSlash (resolveDots oneDot dotDot (pathNames (fromNativeSeparators tail))) = _
  rw [hread, ← List.nil_append (pathNames tail), resolveDots_append hdown, hkept]
  exact congrArg ([67, 58, 47] ++ ·) htail

/-- Its root is a drive, `C:/`. -/
theorem cleansOn_drive : CleansOn driveFs isAnySlash [67, 58, 47] where
  slash := rfl
  apart rest hroot := by
    obtain ⟨tail, htail⟩ := hroot
    cases htail
  anchored rest := by
    rw [← pathNames_fromNativeSeparators]
    rfl
  settled path h := by
    show driveCleanPath (driveCleanPath path) = driveCleanPath path
    obtain ⟨tail, htail⟩ := h
    change [67, 58, 47] ++ tail = driveCleanPath path at htail
    rw [← htail]
    unfold driveCleanPath at htail
    split at htail
    · next letter rest hread =>
      -- a path on the drive
      change _ = [letter, 0x3A, 0x2F] ++ _ at htail
      obtain ⟨-, hspelled⟩ := List.append_inj htail rfl
      have hrest : rest = fromNativeSeparators (path.drop 3) := by
        unfold fromNativeSeparators at hread ⊢
        rw [List.map_drop, hread]
        rfl
      rw [hspelled, hrest]
      exact congrArg ([67, 58, 47] ++ joinSlash ·) (driveNames_again (path.drop 3))
    · -- a relative one, whose first name is the drive
      exact drive_of_relative htail
  stored names hne hnames hdot hup := by
    have hread : fromNativeSeparators (profilePathPrefix ++ joinSlash names)
        = profilePathPrefix ++ joinSlash names := by
      have hmap := fromNativeSeparators_names hnames
      unfold fromNativeSeparators at hmap ⊢
      rw [List.map_append, hmap]
      rfl
    show driveCleanPath (profilePathPrefix ++ joinSlash names) = _
    unfold driveCleanPath
    rw [hread]
    exact cleanPath_stored hne hnames.slashes hdot hup

/-- `C:/p`. -/
def driveRoot : QString := [67, 58, 47, 112]

theorem driveRoot_isRootOn : IsRootOn isAnySlash [67, 58, 47] driveRoot :=
  ⟨[112], rfl, by decide, by decide⟩

/-- `/p/dbs/w` is carried as `@profile/dbs/w`, `/e` is not; and so is `C:\p\dbs\w` with the
profile at `C:/p`. -/
theorem packed_databases_portable_small :
    PackedPortably slashFs isSlash smallRoot
      [{ path := [47, 112, 47, 100, 98, 115, 47, 119] }, { path := [47, 101] }] ∧
    PackedPortably driveFs isAnySlash driveRoot
      [{ path := [67, 58, 92, 112, 92, 100, 98, 115, 92, 119] }] ∧
    driveFs.rewriteKeyDatabaseListForPacking
      [{ path := [67, 58, 92, 112, 92, 100, 98, 115, 92, 119] }] driveRoot
        = [{ path := profilePathPrefix ++ [100, 98, 115, 47, 119] }] := by
  have hroot : IsRootOn isSlash [0x2F] smallRoot := ⟨[112], rfl, by decide, by decide⟩
  refine ⟨(packed_databases_portable (cleansOn_slash (plainFs [])) hroot _).2 ?_,
    (packed_databases_portable cleansOn_drive driveRoot_isRootOn _).1.2 ?_, by decide +kernel⟩
  · exact fun _ _ _ c _ hsep => of_decide_eq_true hsep
  · intro item hitem hout
    rw [List.mem_singleton.1 hitem] at hout
    exact absurd hout.stored (by decide)

/-- `@profile/db/..\..\x`. -/
def backslashPath : QString :=
  profilePathPrefix ++ [100, 98, 47, 46, 46, 92, 46, 46, 92, 120]

/-- It is kept as a path in the managed `db`, and leads out of the profile. -/
theorem backslash_path_leads_out :
    driveFs.rewriteKeyDatabaseListForPacking [{ path := backslashPath }] driveRoot
        = [{ path := backslashPath }] ∧
      driveFs.fromProfileRelativeKeyDatabasePath backslashPath driveRoot = [] ∧
      ¬ PackedPortably driveFs isAnySlash driveRoot [{ path := backslashPath }] := by
  have hkept : driveFs.rewriteKeyDatabaseListForPacking [{ path := backslashPath }] driveRoot
      = [{ path := backslashPath }] := by decide +kernel
  have hfrom : driveFs.fromProfileRelativeKeyDatabasePath backslashPath driveRoot = [] := by
    decide +kernel
  refine ⟨hkept, hfrom, fun h => ?_⟩
  obtain ⟨-, -, -, -, hunder⟩ := h.portable { path := backslashPath } (by
    rw [hkept]; exact List.mem_cons_self)
  rw [hfrom] at hunder
  rcases hunder with hnil | ⟨names, -, -, -, -, hnil⟩
  · exact absurd hnil (by decide +kernel)
  · exact absurd hnil.symm (List.append_ne_nil_of_right_ne_nil _ (List.cons_ne_nil _ _))

end GpgFrontend
