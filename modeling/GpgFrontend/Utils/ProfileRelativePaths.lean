import GpgFrontend.Base.CleanPath
import GpgFrontend.Utils.KeyDatabaseKinds

/-!
# Paths spelled against the profile

What `ToProfileRelativeKeyDatabasePath` and `FromProfileRelativeKeyDatabasePath` make of each
other, and of the strings a package brings along, on a platform whose absolute paths start with
a slash.

- `profile_path_codec`: **a path inside the profile comes back clean, one outside is left, and a
  stored path resolves to one inside the profile or is refused.**
-/

namespace GpgFrontend

/-! ## Cleaning -/

/-- `.`. -/
def oneDot : QString := [0x2E]

/-- The names of a path. -/
def pathNames (path : QString) : List QString := splitSkippingEmpty isSlash path

/-- `QDir::cleanPath`. -/
def cleanPath (path : QString) : QString :=
  let names := resolveDots oneDot dotDot (pathNames path)
  if path.head? = some 0x2F then 0x2F :: joinSlash names
  else if path = [] then []
  else if names = [] then oneDot
  else joinSlash names

/-- What is known of `QDir::cleanPath` on a platform whose absolute paths start with a slash. -/
structure CleansPaths (fs : ProfileFs) : Prop where
  absolute : ∀ path : QString, path.head? = some 0x2F →
    fs.cleanPath path = 0x2F :: joinSlash (resolveDots oneDot dotDot (pathNames path))
  relative : ∀ path : QString, path.head? ≠ some 0x2F → (fs.cleanPath path).head? ≠ some 0x2F

theorem oneDot_ne_dotDot : oneDot ≠ dotDot := by decide

theorem pathNames_slash (path : QString) : pathNames (0x2F :: path) = pathNames path := by
  unfold pathNames splitSkippingEmpty
  rw [List.splitOnP_cons_eq_if_modifyHead]
  rfl

theorem mem_pathNames {path name : QString} (h : name ∈ pathNames path) :
    name ≠ [] ∧ (0x2F : UInt16) ∉ name := by
  obtain ⟨hsplit, hne⟩ := List.mem_filter.1 h
  refine ⟨by simpa using hne, fun hslash => ?_⟩
  have hfree := splitOnP_free path name hsplit _ hslash
  cases hfree

theorem pathNames_join {names : List QString}
    (hnames : ∀ name ∈ names, name ≠ [] ∧ (0x2F : UInt16) ∉ name) :
    pathNames (joinSlash names) = names := by
  cases names with
  | nil => rfl
  | cons first rest =>
    exact splitSlash_join (List.cons_ne_nil _ _) (fun name hname => (hnames name hname).2)
      fun name hname => (hnames name hname).1

theorem pathNames_append_slash (front back : QString) :
    pathNames (front ++ 0x2F :: back) = pathNames front ++ pathNames back := by
  unfold pathNames splitSkippingEmpty
  rw [List.splitOnP_append_cons front back (rfl : isSlash 0x2F = true), List.filter_append]

theorem joinSlash_append {front back : List QString} (hfront : front ≠ []) (hback : back ≠ []) :
    joinSlash (front ++ back) = joinSlash front ++ 0x2F :: joinSlash back := by
  unfold joinSlash
  induction front with
  | nil => exact absurd rfl hfront
  | cons first rest ih =>
    cases rest with
    | nil =>
      obtain ⟨second, later, rfl⟩ := List.exists_cons_of_ne_nil hback
      simp [List.intercalate]
    | cons second later =>
      have hrest := ih (List.cons_ne_nil _ _)
      simp only [List.cons_append] at hrest ⊢
      rw [List.intercalate_cons_cons, hrest, List.intercalate_cons_cons]
      simp

theorem mem_resolved {path name : QString}
    (h : name ∈ resolveDots oneDot dotDot (pathNames path)) :
    name ≠ [] ∧ (0x2F : UInt16) ∉ name :=
  mem_pathNames (mem_of_mem_resolveDots h)

/-- The definition is one of them. -/
theorem cleansPaths_cleanPath (fs : ProfileFs) : CleansPaths { fs with cleanPath } where
  absolute := fun path h => if_pos h
  relative := by
    intro path h
    show (cleanPath path).head? ≠ _
    unfold cleanPath
    dsimp only
    rw [if_neg h]
    split
    · exact fun hnil => nomatch hnil
    split
    · decide
    · next hnames =>
      obtain ⟨first, rest, hlist⟩ := List.exists_cons_of_ne_nil hnames
      obtain ⟨hne, hslash⟩ := @mem_resolved path first (hlist ▸ List.mem_cons_self)
      rw [hlist]
      obtain ⟨c, chars, rfl⟩ := List.exists_cons_of_ne_nil hne
      intro hhead
      have hc : c = 0x2F := by
        cases rest <;> simpa [joinSlash, List.intercalate] using hhead
      exact hslash (hc ▸ List.mem_cons_self)

section Clean

variable {fs : ProfileFs} {root path : QString}

theorem CleansPaths.laws (hfs : CleansPaths fs) : CleanPathLaws fs where
  absolute := fun path h => by rw [hfs.absolute path h]; rfl
  relative := hfs.relative

theorem CleansPaths.names (hfs : CleansPaths fs) (h : path.head? = some 0x2F) :
    pathNames (fs.cleanPath path) = resolveDots oneDot dotDot (pathNames path) := by
  rw [hfs.absolute path h, pathNames_slash, pathNames_join fun name => mem_resolved]

/-- A clean absolute path is spelled by its names. -/
theorem CleansPaths.spelled (hfs : CleansPaths fs) (h : path.head? = some 0x2F) :
    fs.cleanPath path = 0x2F :: joinSlash (pathNames (fs.cleanPath path)) := by
  rw [hfs.names h, hfs.absolute path h]

/-- Paths of the same resolved names are the same when clean. -/
theorem CleansPaths.clean_eq (hfs : CleansPaths fs) {other : QString}
    (h : path.head? = some 0x2F) (hother : other.head? = some 0x2F)
    (hnames : resolveDots oneDot dotDot (pathNames path)
      = resolveDots oneDot dotDot (pathNames other)) : fs.cleanPath path = fs.cleanPath other := by
  rw [hfs.absolute path h, hfs.absolute other hother, hnames]

theorem CleansPaths.clean_clean (hfs : CleansPaths fs) (h : path.head? = some 0x2F) :
    fs.cleanPath (fs.cleanPath path) = fs.cleanPath path := by
  refine hfs.clean_eq (hfs.laws.absolute path h) h ?_
  rw [hfs.names h]
  exact resolveDots_of_resolved oneDot_ne_dotDot (resolved_resolveDots oneDot_ne_dotDot _)

/-- What follows a folder may as well follow the clean folder. -/
theorem CleansPaths.clean_below (hfs : CleansPaths fs) (h : root.head? = some 0x2F)
    (suffix : QString) : fs.cleanPath (fs.cleanPath root ++ 0x2F :: suffix)
      = fs.cleanPath (root ++ 0x2F :: suffix) := by
  have hhead : ∀ {front : QString}, front.head? = some 0x2F →
      (front ++ 0x2F :: suffix).head? = some 0x2F := by
    intro front hfront
    rw [List.head?_append, hfront]
    rfl
  refine hfs.clean_eq (hhead (hfs.laws.absolute root h)) (hhead h) ?_
  rw [pathNames_append_slash, pathNames_append_slash, hfs.names h]
  exact resolveDots_resolve_append oneDot_ne_dotDot _ _

end Clean

/-! ## Inside the profile -/

/-- A folder a profile lives in: an absolute path, of names. -/
structure IsProfileRoot (fs : ProfileFs) (root : QString) : Prop where
  absolute : root.head? = some 0x2F
  named : pathNames (fs.cleanPath root) ≠ []
  noStepUp : dotDot ∉ pathNames (fs.cleanPath root)

/-- A path is the folder, or lies below it. -/
def Inside (fs : ProfileFs) (root path : QString) : Prop :=
  path.head? = some 0x2F ∧ ∃ rest, dotDot ∉ rest ∧
    pathNames (fs.cleanPath path) = pathNames (fs.cleanPath root) ++ rest

section Inside

variable {fs : ProfileFs} {root path : QString}

/-- The test of the code, on clean paths. -/
theorem inside_iff (hfs : CleansPaths fs) (hroot : IsProfileRoot fs root)
    (hpath : path.head? = some 0x2F) : Inside fs root path ↔
      fs.cleanPath path = fs.cleanPath root ∨
        ∃ tail, fs.cleanPath path = fs.cleanPath root ++ 0x2F :: tail := by
  constructor
  · rintro ⟨-, rest, -, hnames⟩
    cases rest with
    | nil =>
      rw [List.append_nil] at hnames
      refine .inl ?_
      rw [hfs.spelled hpath, hfs.spelled hroot.absolute, hnames]
    | cons first later =>
      refine .inr ⟨joinSlash (first :: later), ?_⟩
      rw [hfs.spelled hpath, hnames, joinSlash_append hroot.named (List.cons_ne_nil _ _),
        ← List.cons_append, ← hfs.spelled hroot.absolute]
  · rintro (heq | ⟨tail, heq⟩)
    · exact ⟨hpath, [], List.not_mem_nil, by rw [heq, List.append_nil]⟩
    · have hnames : pathNames (fs.cleanPath path)
          = pathNames (fs.cleanPath root) ++ pathNames tail := by
        rw [heq, pathNames_append_slash]
      refine ⟨hpath, pathNames tail, ?_, hnames⟩
      have hresolved := resolved_resolveDots oneDot_ne_dotDot (pathNames path)
      rw [← hfs.names hpath, hnames] at hresolved
      exact hresolved.of_append hroot.named hroot.noStepUp

theorem not_prefix_of_relative (hfs : CleansPaths fs) (hroot : IsProfileRoot fs root)
    (hpath : path.head? ≠ some 0x2F) : fs.cleanPath path ≠ fs.cleanPath root ∧
      (fs.cleanPath root ++ [0x2F]).isPrefixOf (fs.cleanPath path) = false := by
  have habs := hfs.laws.absolute root hroot.absolute
  have hrel := hfs.laws.relative path hpath
  refine ⟨fun heq => hrel (heq ▸ habs), Bool.eq_false_iff.2 fun hfront => ?_⟩
  obtain ⟨tail, htail⟩ := List.isPrefixOf_iff_prefix.1 hfront
  refine hrel ?_
  rw [← htail, List.append_assoc, List.head?_append, habs]
  rfl

theorem isPrefixOf_slash {front whole : QString} :
    (front ++ [0x2F]).isPrefixOf whole = true ↔ ∃ tail, whole = front ++ 0x2F :: tail := by
  rw [List.isPrefixOf_iff_prefix]
  constructor
  · rintro ⟨tail, rfl⟩
    exact ⟨tail, by rw [List.append_assoc]; rfl⟩
  · rintro ⟨tail, rfl⟩
    exact ⟨tail, by rw [List.append_assoc]; rfl⟩

/-- What a path inside the profile is spelled as. -/
theorem toProfileRelative_inside (hfs : CleansPaths fs) (hroot : IsProfileRoot fs root)
    (h : Inside fs root path) :
    (fs.cleanPath path = fs.cleanPath root ∧
      fs.toProfileRelativeKeyDatabasePath path root = profilePathToken) ∨
    ∃ tail, fs.cleanPath path = fs.cleanPath root ++ 0x2F :: tail ∧
      fs.toProfileRelativeKeyDatabasePath path root = profilePathPrefix ++ tail := by
  unfold ProfileFs.toProfileRelativeKeyDatabasePath
  dsimp only
  by_cases heq : fs.cleanPath path = fs.cleanPath root
  · exact .inl ⟨heq, if_pos heq⟩
  · obtain ⟨tail, htail⟩ := ((inside_iff hfs hroot h.1).1 h).resolve_left heq
    refine .inr ⟨tail, htail, ?_⟩
    rw [if_neg heq, if_neg]
    · rw [htail, ← List.singleton_append, ← List.append_assoc, List.drop_left' (by simp)]
    · rw [isPrefixOf_slash.2 ⟨tail, htail⟩]
      decide

/-- A path outside the profile is left. -/
theorem toProfileRelative_outside (hfs : CleansPaths fs) (hroot : IsProfileRoot fs root)
    (h : ¬ Inside fs root path) : fs.toProfileRelativeKeyDatabasePath path root = path := by
  have hapart : fs.cleanPath path ≠ fs.cleanPath root ∧
      (fs.cleanPath root ++ [0x2F]).isPrefixOf (fs.cleanPath path) = false := by
    by_cases hpath : path.head? = some 0x2F
    · rw [inside_iff hfs hroot hpath, not_or] at h
      exact ⟨h.1, Bool.eq_false_iff.2 fun hfront => h.2 (isPrefixOf_slash.1 hfront)⟩
    · exact not_prefix_of_relative hfs hroot hpath
  unfold ProfileFs.toProfileRelativeKeyDatabasePath
  dsimp only
  rw [if_neg hapart.1, hapart.2]
  rfl

/-- What a stored string stands for: its path below the profile. -/
def expanded (root stored : QString) : QString :=
  root ++ 0x2F :: stored.drop profilePathPrefix.length

theorem expanded_absolute (hroot : IsProfileRoot fs root) (stored : QString) :
    (expanded root stored).head? = some 0x2F := by
  rw [expanded, List.head?_append, hroot.absolute]
  rfl

/-- A stored string resolves to what it stands for, where that is inside. -/
theorem fromProfileRelative_eq (hfs : CleansPaths fs) (hroot : IsProfileRoot fs root)
    {stored : QString} (h : isProfileRelativeKeyDatabasePath stored = true) :
    (Inside fs root (expanded root stored) ∧
      fs.fromProfileRelativeKeyDatabasePath stored root = fs.cleanPath (expanded root stored)) ∨
    (¬ Inside fs root (expanded root stored) ∧
      fs.fromProfileRelativeKeyDatabasePath stored root = []) := by
  have hresolved := hfs.clean_below hroot.absolute (stored.drop profilePathPrefix.length)
  have habs := expanded_absolute hroot stored
  unfold ProfileFs.fromProfileRelativeKeyDatabasePath
  dsimp only
  by_cases htoken : stored = profilePathToken
  · subst htoken
    have hsame : fs.cleanPath (expanded root profilePathToken) = fs.cleanPath root := by
      refine hfs.clean_eq habs hroot.absolute ?_
      rw [expanded, pathNames_append_slash]
      exact congrArg _ (List.append_nil _)
    refine .inl ⟨(inside_iff hfs hroot habs).2 (.inl hsame), ?_⟩
    rw [if_pos rfl, hsame]
  · have hprefix : profilePathPrefix.isPrefixOf stored = true := by
      unfold isProfileRelativeKeyDatabasePath at h
      rw [Bool.or_eq_true, decide_eq_true_eq] at h
      exact h.resolve_left htoken
    rw [if_neg htoken, hprefix, List.append_assoc, List.singleton_append, hresolved]
    rw [← expanded, inside_iff hfs hroot habs]
    by_cases heq : fs.cleanPath (expanded root stored) = fs.cleanPath root
    · refine .inl ⟨.inl heq, ?_⟩
      simp [heq]
    · by_cases hbelow : (fs.cleanPath root ++ [0x2F]).isPrefixOf
          (fs.cleanPath (expanded root stored)) = true
      · refine .inl ⟨.inr (isPrefixOf_slash.1 hbelow), ?_⟩
        simp [hbelow]
      · refine .inr ⟨not_or.2 ⟨heq, fun htail => hbelow (isPrefixOf_slash.2 htail)⟩, ?_⟩
        simp [heq, hbelow]

theorem Inside.clean (hfs : CleansPaths fs) (h : Inside fs root path) :
    Inside fs root (fs.cleanPath path) := by
  refine ⟨hfs.laws.absolute path h.1, ?_⟩
  rw [hfs.clean_clean h.1]
  exact h.2

/-- **Paths inside the profile come back clean, paths outside are left**, and what is stored against
the profile resolves to a path inside it; where it leads out, it is refused. -/
theorem profile_path_codec (hfs : CleansPaths fs) (hroot : IsProfileRoot fs root)
    (path stored : QString) :
    (Inside fs root path → fs.fromProfileRelativeKeyDatabasePath
      (fs.toProfileRelativeKeyDatabasePath path root) root = fs.cleanPath path) ∧
    (¬ Inside fs root path → fs.toProfileRelativeKeyDatabasePath path root = path) ∧
    (isProfileRelativeKeyDatabasePath stored = true →
      (Inside fs root (expanded root stored) ∧
        Inside fs root (fs.fromProfileRelativeKeyDatabasePath stored root)) ∨
      (¬ Inside fs root (expanded root stored) ∧
        fs.fromProfileRelativeKeyDatabasePath stored root = [])) := by
  refine ⟨fun hinside => ?_, toProfileRelative_outside hfs hroot, fun hstored => ?_⟩
  · rcases toProfileRelative_inside hfs hroot hinside with ⟨heq, hto⟩ | ⟨tail, heq, hto⟩
    · rw [hto, heq]
      unfold ProfileFs.fromProfileRelativeKeyDatabasePath
      exact if_pos rfl
    · have hsame : fs.cleanPath (expanded root (profilePathPrefix ++ tail)) = fs.cleanPath path := by
        rw [expanded, List.drop_left, ← hfs.clean_below hroot.absolute, ← heq]
        exact hfs.clean_clean hinside.1
      have hrelative : isProfileRelativeKeyDatabasePath (profilePathPrefix ++ tail) = true := by
        unfold isProfileRelativeKeyDatabasePath
        rw [List.isPrefixOf_iff_prefix.2 (List.prefix_append _ _), Bool.or_true]
      have hin : Inside fs root (expanded root (profilePathPrefix ++ tail)) := by
        refine ⟨expanded_absolute hroot _, ?_⟩
        rw [hsame]
        exact hinside.2
      rw [hto]
      rcases fromProfileRelative_eq hfs hroot hrelative with ⟨-, hfrom⟩ | ⟨hout, -⟩
      · exact hfrom.trans hsame
      · exact absurd hin hout
  · rcases fromProfileRelative_eq hfs hroot hstored with ⟨hin, hfrom⟩ | hout
    · exact .inl ⟨hin, hfrom ▸ hin.clean hfs⟩
    · exact .inr hout

end Inside

/-- `/p`. -/
def smallRoot : QString := [47, 112]

/-- A platform whose absolute paths start with a slash. -/
def slashFs : ProfileFs := { plainFs [] with cleanPath }

theorem smallRoot_isProfileRoot : IsProfileRoot slashFs smallRoot := by
  constructor <;> decide +kernel

/-- `/p/./dbs/../dbs/w` and the stored `@profile/../x`, against the profile at `/p`. -/
theorem profile_path_codec_small :
    slashFs.fromProfileRelativeKeyDatabasePath (slashFs.toProfileRelativeKeyDatabasePath
      [47, 112, 47, 46, 47, 100, 98, 115, 47, 119] smallRoot) smallRoot
        = [47, 112, 47, 100, 98, 115, 47, 119] ∧
    slashFs.fromProfileRelativeKeyDatabasePath (profilePathPrefix ++ [46, 46, 47, 120]) smallRoot
        = [] := by
  have hinside : Inside slashFs smallRoot [47, 112, 47, 46, 47, 100, 98, 115, 47, 119] :=
    ⟨by decide, [[100, 98, 115], [119]], by decide, by decide +kernel⟩
  refine ⟨((profile_path_codec (cleansPaths_cleanPath _) smallRoot_isProfileRoot _ []).1
    hinside).trans (by decide +kernel), ?_⟩
  rcases (profile_path_codec (cleansPaths_cleanPath _) smallRoot_isProfileRoot []
    (profilePathPrefix ++ [46, 46, 47, 120])).2.2 (by decide +kernel) with hin | hout
  · exact absurd hin.2.1 (by decide +kernel)
  · exact hout.2

/-- A stored path that leads out of the profile does not resolve to one inside: it is refused.
And of the root of all paths, no path is told to be inside: `/a/./b` comes back as it is. -/
theorem stored_escape_refused :
    (¬ ∀ stored, isProfileRelativeKeyDatabasePath stored = true →
      slashFs.fromProfileRelativeKeyDatabasePath stored smallRoot = slashFs.cleanPath smallRoot ∨
      (slashFs.cleanPath smallRoot ++ [0x2F]).isPrefixOf
        (slashFs.fromProfileRelativeKeyDatabasePath stored smallRoot) = true) ∧
    ¬ ∀ path, Inside slashFs [0x2F] path → slashFs.fromProfileRelativeKeyDatabasePath
      (slashFs.toProfileRelativeKeyDatabasePath path [0x2F]) [0x2F] = slashFs.cleanPath path := by
  constructor
  · intro h
    exact absurd (h (profilePathPrefix ++ [46, 46, 47, 120]) (by decide +kernel))
      (by decide +kernel)
  · intro h
    exact absurd (h [47, 97, 47, 46, 47, 98]
      ⟨by decide, [[97], [98]], by decide, by decide +kernel⟩) (by decide +kernel)

end GpgFrontend
