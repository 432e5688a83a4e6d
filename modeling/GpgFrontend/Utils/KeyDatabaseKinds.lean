import GpgFrontend.Utils.KeyDatabaseReconcile

/-!
# Kinds and the paths databases end with

`ResolveKeyDatabaseKinds` settles the kind of an entry before `ReanchorKeyDatabasePath` may
give it another path, and what a package carries goes by the kind.

- `kinds_agree_iff`: **kinds agree with final paths, and managed databases are packed,
  exactly when** no entry without a kind is re-anchored from elsewhere.
-/

namespace GpgFrontend

/-! ## Paths from elsewhere -/

theorem splitSlash_eq (s : QString) :
    splitSkippingEmpty isSlash s = (s.splitOn 0x2F).filter fun part => !part.isEmpty := by
  unfold splitSkippingEmpty
  rw [List.splitOn_eq_splitOnP]
  congr 2

theorem splitSlash_join {parts : List QString} (hparts : parts ≠ [])
    (hsep : ∀ part ∈ parts, (0x2F : UInt16) ∉ part) (hne : ∀ part ∈ parts, part ≠ []) :
    splitSkippingEmpty isSlash (joinSlash parts) = parts := by
  unfold joinSlash
  rw [splitSlash_eq, List.splitOn_intercalate _ hsep hparts, List.filter_eq_self]
  intro part hpart
  simpa using hne part hpart

theorem splitOnP_free {p : UInt16 → Bool} (s : QString) :
    ∀ part ∈ s.splitOnP p, ∀ x ∈ part, p x = false := by
  induction s with
  | nil =>
    rw [List.splitOnP_nil]
    intro part hpart x hx
    rw [List.mem_singleton.mp hpart] at hx
    cases hx
  | cons a s ih =>
    rw [List.splitOnP_cons_eq_if_modifyHead]
    split
    · intro part hpart
      rcases List.mem_cons.mp hpart with rfl | hpart
      · exact fun x hx => by cases hx
      · exact ih part hpart
    · next ha =>
      cases hs : s.splitOnP p with
      | nil => exact absurd hs (List.splitOnP_ne_nil p s)
      | cons first rest =>
        rw [hs] at ih
        intro part hpart x hx
        rcases List.mem_cons.mp hpart with rfl | hpart
        · rcases List.mem_cons.mp hx with rfl | hx
          · exact Bool.eq_false_iff.mpr ha
          · exact ih first List.mem_cons_self x hx
        · exact ih part (List.mem_cons_of_mem _ hpart) x hx

theorem managedTail_suffix (parts : List QString) : managedTail parts <:+ parts := by
  induction parts with
  | nil => exact List.suffix_refl _
  | cons part rest ih =>
    rw [managedTail]
    split
    · split
      · exact List.suffix_refl _
      · exact List.nil_suffix
    · exact ih.trans (List.suffix_cons part rest)

theorem managedTail_head (parts : List QString) :
    ∀ first ∈ (managedTail parts).head?, managedKeyDatabaseDirs.contains first = true := by
  induction parts with
  | nil => exact fun _ h => by cases h
  | cons part rest ih =>
    rw [managedTail]
    split
    · split
      · next hmanaged =>
        intro first hfirst
        cases hfirst
        exact hmanaged
      · exact fun _ h => by cases h
    · exact ih

/-- A tail that was found names a directory that a package carries. -/
theorem isManaged_foreignTail {path : QString} (h : foreignKeyDatabasePathTail path ≠ []) :
    isManagedKeyDatabasePath (foreignKeyDatabasePathTail path) = true := by
  unfold foreignKeyDatabasePathTail at h ⊢
  split at h
  · exact absurd rfl h
  · next hforeign =>
    rw [if_neg hforeign]
    dsimp only at h ⊢
    split at h
    · exact absurd rfl h
    · next hdots =>
      rw [if_neg hdots]
      have hmem : ∀ part ∈ managedTail (splitSkippingEmpty isAnySlash path),
          part ∈ path.splitOnP isAnySlash ∧ part ≠ [] ∧ part ≠ dotDot := by
        intro part hpart
        have hcomponent := (managedTail_suffix _).subset hpart
        obtain ⟨hsplit, hne⟩ := List.mem_filter.mp hcomponent
        refine ⟨hsplit, by simpa using hne, ?_⟩
        rintro rfl
        exact hdots (List.contains_iff_mem.mpr hcomponent)
      have htail : managedTail (splitSkippingEmpty isAnySlash path) ≠ [] := by
        intro hnil
        rw [hnil] at h
        exact h rfl
      unfold isManagedKeyDatabasePath
      rw [splitSlash_join htail]
      · cases hparts : managedTail (splitSkippingEmpty isAnySlash path) with
        | nil => exact absurd hparts htail
        | cons first rest =>
          have hfirst := managedTail_head (splitSkippingEmpty isAnySlash path) first
            (by rw [hparts]; rfl)
          have hnodots : (first :: rest).contains dotDot = false := by
            rw [← hparts, List.contains_eq_mem, decide_eq_false_iff_not]
            exact fun hdot => (hmem dotDot hdot).2.2 rfl
          dsimp only
          rw [hnodots, hfirst]
          rfl
      · intro part hpart hslash
        have hfree := splitOnP_free path part (hmem part hpart).1 _ hslash
        cases hfree
      · exact fun part hpart => (hmem part hpart).2.1

/-! ## Classifying a re-anchored path -/

/-- Cleaning a path neither makes a relative path absolute nor the other way round, on a
platform whose absolute paths start with a slash. -/
structure CleanPathLaws (fs : ProfileFs) : Prop where
  absolute : ∀ path : QString, path.head? = some 0x2F → (fs.cleanPath path).head? = some 0x2F
  relative : ∀ path : QString, path.head? ≠ some 0x2F → (fs.cleanPath path).head? ≠ some 0x2F

section Classify

variable {fs : ProfileFs} {root path : QString}

theorem head_of_relative (h : isProfileRelativeKeyDatabasePath path = true) :
    path.head? ≠ some 0x2F := by
  unfold isProfileRelativeKeyDatabasePath at h
  rw [Bool.or_eq_true, decide_eq_true_eq] at h
  rcases h with rfl | h
  · decide
  · obtain ⟨tail, rfl⟩ := List.isPrefixOf_iff_prefix.mp h
    exact fun h => by cases h

/-- A path spelled against the profile is not spelled against it once more. -/
theorem toProfileRelative_of_relative (hlaws : CleanPathLaws fs) (hroot : root.head? = some 0x2F)
    (h : isProfileRelativeKeyDatabasePath path = true) :
    fs.toProfileRelativeKeyDatabasePath path root = path := by
  have habs := hlaws.absolute root hroot
  have hrel := hlaws.relative path (head_of_relative h)
  unfold ProfileFs.toProfileRelativeKeyDatabasePath
  dsimp only
  rw [if_neg, if_pos]
  · rw [Bool.not_eq_true', Bool.eq_false_iff]
    intro hfront
    obtain ⟨tail, htail⟩ := List.isPrefixOf_iff_prefix.mp hfront
    rw [← htail] at hrel
    cases hr : fs.cleanPath root with
    | nil =>
      rw [hr] at habs
      cases habs
    | cons a rest =>
      rw [hr] at habs hrel
      exact hrel habs
  · intro heq
    rw [heq] at hrel
    exact hrel habs

/-- `ReanchorKeyDatabasePath` takes a path from elsewhere to the profile's directory of the
same name. -/
def ProfileFs.isReanchoredFromElsewhere (fs : ProfileFs) (path root : QString) : Bool :=
  root ≠ [] && path ≠ [] && !isProfileRelativeKeyDatabasePath path &&
    !isProfileRelativeKeyDatabasePath (fs.toProfileRelativeKeyDatabasePath path root) &&
    !fs.isDir path && foreignKeyDatabasePathTail path ≠ [] &&
    fs.isDir (fs.cleanPath (root ++ [0x2F] ++ foreignKeyDatabasePathTail path))

/-- Re-anchoring changes the kind a path has only for a path from elsewhere, and that one
becomes a managed one. -/
theorem classify_reanchor (hlaws : CleanPathLaws fs) (hroot : root.head? = some 0x2F)
    {name : QString} (hname : isReservedKeyDatabaseName name = false) :
    if fs.isReanchoredFromElsewhere path root then
      fs.classifyKeyDatabase name path root = .external ∧
      fs.classifyKeyDatabase name (fs.reanchorKeyDatabasePath path root) root = .managed
    else
      fs.classifyKeyDatabase name (fs.reanchorKeyDatabasePath path root) root =
        fs.classifyKeyDatabase name path root := by
  have hne : root ≠ [] := by
    intro hnil
    rw [hnil] at hroot
    cases hroot
  unfold ProfileFs.isReanchoredFromElsewhere ProfileFs.reanchorKeyDatabasePath
  dsimp only
  by_cases hpath : path = []
  · simp [hpath]
  by_cases hrel : isProfileRelativeKeyDatabasePath path = true
  · simp [hrel]
  by_cases hinside :
      isProfileRelativeKeyDatabasePath (fs.toProfileRelativeKeyDatabasePath path root) = true
  · -- inside the profile: the new spelling is what the old one was read as
    have hnil : fs.toProfileRelativeKeyDatabasePath path root ≠ [] := by
      intro hnil
      rw [hnil] at hinside
      cases hinside
    have hsame := toProfileRelative_of_relative hlaws hroot hinside
    simp [hpath, hrel, hinside, hne, ProfileFs.classifyKeyDatabase, hname, hnil, hsame]
  by_cases hdir : fs.isDir path = true
  · simp [hrel, hinside, hdir]
  by_cases htail : foreignKeyDatabasePathTail path = []
  · simp [hrel, hinside, hdir, htail]
  generalize fs.isDir (fs.cleanPath (root ++ [0x2F] ++ foreignKeyDatabasePathTail path)) = candidate
  cases candidate with
  | false => simp [hrel, hinside, hdir, htail]
  | true =>
    have hsame := toProfileRelative_of_relative hlaws hroot
      (isProfileRelative_parent (foreignKeyDatabasePathTail path))
    have hfront : profilePathPrefix.isPrefixOf
        (profilePathPrefix ++ foreignKeyDatabasePathTail path) = true :=
      List.isPrefixOf_iff_prefix.mpr (List.prefix_append _ _)
    have houtside : profilePathPrefix.isPrefixOf
        (fs.toProfileRelativeKeyDatabasePath path root) = false := by
      rw [Bool.eq_false_iff]
      intro h
      exact hinside (by unfold isProfileRelativeKeyDatabasePath; rw [h, Bool.or_true])
    have hmanaged := isManaged_foreignTail htail
    rw [if_pos (by simp [hpath, hrel, hinside, hdir, htail, hne])]
    constructor
    · unfold ProfileFs.classifyKeyDatabase
      simp [hname, houtside]
    · rw [if_neg (by simp [hne, hpath]), if_neg hrel, if_neg hinside, if_neg hdir, if_neg htail, if_neg (by simp)]
      unfold ProfileFs.classifyKeyDatabase
      dsimp only
      rw [hname, if_neg Bool.false_ne_true, if_neg (by simp [hne, profilePathPrefix]), hsame,
        hfront, List.drop_left, hmanaged]
      rfl

end Classify

/-! ## The kinds of the result -/

/-- The entry says itself that it is not a managed one: by its kind, or by the name DEFAULT,
which is a kind of its own whatever is recorded. -/
def KeyDatabaseItemSO.recordedOtherwise (src : KeyDatabaseItemSO) : Prop :=
  isReservedKeyDatabaseName src.name = true ∨ (src.kind ≠ none ∧ src.kind ≠ some .managed)

/-- The path lies in one of the directories of the profile that a package carries. -/
def ProfileFs.liesInManagedDirectory (fs : ProfileFs) (path root : QString) : Prop :=
  profilePathPrefix.isPrefixOf (fs.toProfileRelativeKeyDatabasePath path root) = true ∧
  isManagedKeyDatabasePath
    ((fs.toProfileRelativeKeyDatabasePath path root).drop profilePathPrefix.length) = true

namespace ReconcileInputs

/-- What an entry of the result is to the stored one it comes from. -/
structure KindAgrees (c : ReconcileInputs) (result : List KeyDatabaseItemSO)
    (src x : KeyDatabaseItemSO) : Prop where
  name : x.name = src.name
  path : x.path = c.fs.reanchorKeyDatabasePath src.path c.profileRoot
  /-- A kind nobody recorded is that of the path the entry ends with. -/
  kind : src.kind = none →
    x.kind = some (c.fs.classifyKeyDatabase x.name x.path c.profileRoot)
  /-- A database that ends in a managed directory is packed. -/
  packed : ¬ src.recordedOtherwise → c.fs.liesInManagedDirectory x.path c.profileRoot →
    { x with path := c.fs.toProfileRelativeKeyDatabasePath x.path c.profileRoot } ∈
      c.fs.rewriteKeyDatabaseListForPacking result c.profileRoot

variable {c : ReconcileInputs} {stored : List KeyDatabaseItemSO}

theorem settle_kind {src : KeyDatabaseItemSO}
    (hname : isReservedKeyDatabaseName src.name = false) :
    (src.kind = none → (c.settle src).kind =
      some (c.fs.classifyKeyDatabase src.name src.path c.appDataPath)) ∧
    (src.kind = some .managed → (c.settle src).kind = some .managed) := by
  unfold settle reanchor ProfileFs.resolveKind
  rw [if_neg (by simp [hname])]
  constructor
  · intro hkind
    rw [hkind]
  · intro hkind
    rw [hkind]
    exact hkind

theorem settle_kind_reserved {src : KeyDatabaseItemSO}
    (hname : isReservedKeyDatabaseName src.name = true) :
    (c.settle src).kind = some .default := by
  obtain ⟨kind, heq, hkind⟩ := c.settle_spec src
  rw [heq]
  exact congrArg some (hkind.mpr hname)

/-- The result is, entry by entry, what becomes of the candidates in the order of their
channels. -/
theorem reconcile_faces_settled (fresh : Nat → QString) (n : Nat)
    (hcand : c.candidates stored ≠ []) :
    (c.reconcileKeyDatabaseList fresh n stored).1.map (·.face) =
      (sortByChannel (c.candidates stored)).map fun src => (c.settle src).face := by
  rw [reconcile_faces, seeded_of_candidates hcand]
  unfold sortByChannel
  rw [← List.map_insertionSort (r := fun a b : KeyDatabaseItemSO => a.channel ≤ b.channel),
    List.map_map]
  · rfl
  · intro a _ b _
    rw [settle_channel, settle_channel]

/-- Managed, in a managed directory: packed. -/
theorem packed_of_managed {x : KeyDatabaseItemSO} {result : List KeyDatabaseItemSO}
    (hx : x ∈ result) (hkind : x.kind = some .managed)
    (hpath : c.fs.liesInManagedDirectory x.path c.profileRoot) :
    { x with path := c.fs.toProfileRelativeKeyDatabasePath x.path c.profileRoot } ∈
      c.fs.rewriteKeyDatabaseListForPacking result c.profileRoot := by
  obtain ⟨hfront, hmanaged⟩ := hpath
  refine List.mem_filterMap.mpr ⟨x, hx, ?_⟩
  have hrel : isProfileRelativeKeyDatabasePath
      (c.fs.toProfileRelativeKeyDatabasePath x.path c.profileRoot) = true := by
    unfold isProfileRelativeKeyDatabasePath
    rw [hfront, Bool.or_true]
  have hnil : c.fs.toProfileRelativeKeyDatabasePath x.path c.profileRoot ≠ [] := by
    intro hnil
    rw [hnil] at hrel
    cases hrel
  unfold ProfileFs.packedItem
  rw [if_neg (by simp [hkind])]
  dsimp only
  rw [if_neg (by simp [hrel, hnil]), List.drop_drop]
  refine if_neg ?_
  rw [show profilePathToken.length + 1 = profilePathPrefix.length from rfl, hmanaged]
  exact Bool.false_ne_true

end ReconcileInputs

theorem forall₂_of_map_eq {α β γ : Type} {R : α → β → Prop} {f : β → γ} {g : α → γ}
    {as : List α} {bs : List β} (h : bs.map f = as.map g)
    (hR : ∀ a ∈ as, ∀ b ∈ bs, f b = g a → R a b) : List.Forall₂ R as bs := by
  induction as generalizing bs with
  | nil =>
    rw [List.map_nil, List.map_eq_nil_iff] at h
    rw [h]
    exact .nil
  | cons a as ih =>
    cases bs with
    | nil => cases h
    | cons b bs =>
      rw [List.map_cons, List.map_cons, List.cons.injEq] at h
      refine .cons (hR a List.mem_cons_self b List.mem_cons_self h.1) (ih h.2 ?_)
      intro a' ha' b' hb'
      exact hR a' (List.mem_cons_of_mem _ ha') b' (List.mem_cons_of_mem _ hb')

theorem exists_of_forall₂ {α β γ : Type} {R : α → β → Prop} {f : β → γ} {g : α → γ}
    {as : List α} {bs : List β} (h : bs.map f = as.map g) (hR : List.Forall₂ R as bs) :
    ∀ a ∈ as, ∃ b ∈ bs, f b = g a ∧ R a b := by
  induction hR with
  | nil => exact fun a ha => by cases ha
  | cons hab _ ih =>
    rw [List.map_cons, List.map_cons, List.cons.injEq] at h
    intro a' ha'
    rcases List.mem_cons.mp ha' with rfl | ha'
    · exact ⟨_, List.mem_cons_self, h.1, hab⟩
    · obtain ⟨b', hb', hrest⟩ := ih h.2 a' ha'
      exact ⟨b', List.mem_cons_of_mem _ hb', hrest⟩

/-- Kinds agree with final paths, and managed databases are packed, exactly when no entry
without a kind is re-anchored from elsewhere. -/
theorem kinds_agree_iff (c : ReconcileInputs) (hlaws : CleanPathLaws c.fs)
    (hroot : c.profileRoot.head? = some 0x2F) (hsame : c.appDataPath = c.profileRoot)
    (fresh : Nat → QString) (n : Nat) (stored : List KeyDatabaseItemSO) :
    (c.candidates stored ≠ [] →
      List.Forall₂ (c.KindAgrees (c.reconcileKeyDatabaseList fresh n stored).1)
        (sortByChannel (c.candidates stored)) (c.reconcileKeyDatabaseList fresh n stored).1) ↔
    ∀ src ∈ c.candidates stored, src.kind = none → isReservedKeyDatabaseName src.name = false →
      c.fs.isReanchoredFromElsewhere src.path c.profileRoot = false := by
  constructor
  · intro h src hsrc hkind hname
    have hcand := List.ne_nil_of_mem hsrc
    obtain ⟨x, -, hface, hagrees⟩ := exists_of_forall₂
      (ReconcileInputs.reconcile_faces_settled fresh n hcand) (h hcand) src
      ((sortByChannel_perm _).mem_iff.mpr hsrc)
    have hxkind := hagrees.kind hkind
    rw [(ReconcileInputs.face_inj hface).2.2.2, (ReconcileInputs.settle_kind hname).1 hkind, hsame,
      hagrees.name, hagrees.path, Option.some_inj] at hxkind
    have hclassify := @classify_reanchor _ _ src.path hlaws hroot _ hname
    by_contra helse
    rw [Bool.not_eq_false] at helse
    rw [if_pos helse] at hclassify
    rw [hclassify.1, hclassify.2] at hxkind
    cases hxkind
  · intro h hcand
    refine forall₂_of_map_eq (ReconcileInputs.reconcile_faces_settled fresh n hcand) ?_
    intro src hsrc x hx hface
    replace hsrc := (sortByChannel_perm _).mem_iff.mp hsrc
    obtain ⟨hname, hpath, -⟩ := ReconcileInputs.face_settle hface
    have hkind : x.kind = (c.settle src).kind := (ReconcileInputs.face_inj hface).2.2.2
    have hagree : src.kind = none →
        x.kind = some (c.fs.classifyKeyDatabase x.name x.path c.profileRoot) := by
      intro hnone
      rw [hkind, hname, hpath]
      cases hreserved : isReservedKeyDatabaseName src.name with
      | true =>
        rw [ReconcileInputs.settle_kind_reserved hreserved]
        unfold ProfileFs.classifyKeyDatabase
        rw [if_pos hreserved]
      | false =>
        have hclassify := @classify_reanchor _ _ src.path hlaws hroot _ hreserved
        rw [h src hsrc hnone hreserved, if_neg Bool.false_ne_true] at hclassify
        rw [hclassify, (ReconcileInputs.settle_kind hreserved).1 hnone, hsame]
    refine ⟨hname, hpath, hagree, ?_⟩
    intro hnot hlies
    unfold KeyDatabaseItemSO.recordedOtherwise at hnot
    rw [not_or, Bool.not_eq_true, not_and, not_not] at hnot
    refine ReconcileInputs.packed_of_managed hx ?_ hlies
    by_cases hnone : src.kind = none
    · rw [hagree hnone]
      obtain ⟨hfront, hmanaged⟩ := hlies
      have hxpath : x.path ≠ [] := by
        rw [hpath]
        obtain ⟨-, hnames⟩ := List.mem_filter.mp hsrc
        simp only [Bool.and_eq_true, Bool.not_eq_true', List.isEmpty_eq_false_iff] at hnames
        exact reanchor_ne_nil hnames.1
      have hrootne : c.profileRoot ≠ [] := by
        intro hnil
        rw [hnil] at hroot
        cases hroot
      unfold ProfileFs.classifyKeyDatabase
      rw [hname, hnot.1, if_neg Bool.false_ne_true, if_neg (by simp [hxpath, hrootne])]
      dsimp only
      rw [hfront, hmanaged]
      rfl
    · rw [hkind]
      exact (ReconcileInputs.settle_kind hnot.1).2 (hnot.2 hnone)

theorem plainFs_laws (dirs : List QString) : CleanPathLaws (plainFs dirs) :=
  ⟨fun _ h => h, fun _ h => h⟩

/-- The damaged list has an entry without a kind in the profile's `dbs`. -/
theorem damagedList_kinds :
    (∃ src ∈ gnupgHome.candidates damagedList, src.kind = none ∧
      ¬ isReservedKeyDatabaseName src.name) ∧
    List.Forall₂
      (gnupgHome.KindAgrees (gnupgHome.reconcileKeyDatabaseList growingIds 0 damagedList).1)
      (sortByChannel (gnupgHome.candidates damagedList))
      (gnupgHome.reconcileKeyDatabaseList growingIds 0 damagedList).1 :=
  ⟨by decide, (kinds_agree_iff gnupgHome (plainFs_laws _) rfl rfl growingIds 0 damagedList).mpr
    (by decide) (by decide)⟩

/-- The profile at `/p` has `dbs/w`. -/
def movedProfile : ReconcileInputs :=
  { gnupgHome with fs := plainFs [[47, 112], [47, 103], [47, 112, 47, 100, 98, 115, 47, 119]] }

/-- `w` was stored without a kind at `/o/dbs/w`, which is not here: it is re-anchored to
`@profile/dbs/w`, a managed place, with the kind of the old one, and a package leaves it
out. -/
theorem reanchored_database_left_behind :
    (movedProfile.reconcileKeyDatabaseList growingIds 0
      [{ name := [119], path := [47, 111, 47, 100, 98, 115, 47, 119] }]).1.map
        (fun x => (x.path, x.kind)) =
      [(profilePathPrefix ++ [100, 98, 115, 47, 119], some .external)] ∧
    movedProfile.fs.classifyKeyDatabase [119] (profilePathPrefix ++ [100, 98, 115, 47, 119])
      movedProfile.profileRoot = .managed ∧
    movedProfile.fs.rewriteKeyDatabaseListForPacking
      (movedProfile.reconcileKeyDatabaseList growingIds 0
        [{ name := [119], path := [47, 111, 47, 100, 98, 115, 47, 119] }]).1
      movedProfile.profileRoot = [] := by
  refine ⟨by decide, by decide, by decide⟩

end GpgFrontend
