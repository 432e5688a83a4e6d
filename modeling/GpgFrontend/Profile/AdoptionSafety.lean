import GpgFrontend.Profile.Adoption

/-!
# What an adoption leaves in the profiles root

- `adoptEntries_ok_iff`, `lookup_adoptEntries`: the loop, whether it is stopped or not.
- `adopted_package_whole`: **an adoption that does not fail has the whole package**.
-/

namespace GpgFrontend

variable {β : Type}

/-! ## The loop -/

/-- The entry `name` of a listing ends up as `left` in the folder: every entry before
it is moved, and its own step, whatever it reports, leaves that. -/
inductive Lands (move : ProfileTreeMover β) (folder : Folder β) (name : String)
    (left : FsNode β) : List (Sigma fun _ : String => FsNode β) → Prop
  | here {node : FsNode β} {rest : List (Sigma fun _ : String => FsNode β)} :
      folder.has name = false → (move name node).left = some left →
      Lands move folder name left (⟨name, node⟩ :: rest)
  | later {e : Sigma fun _ : String => FsNode β}
      {rest : List (Sigma fun _ : String => FsNode β)} :
      folder.has e.1 = false → (move e.1 e.2).ok = true → Lands move folder name left rest →
      Lands move folder name left (e :: rest)

variable {move : ProfileTreeMover β} {folder : Folder β} {name : String} {left : FsNode β}
  {es : List (Sigma fun _ : String => FsNode β)}

theorem Lands.mem (h : Lands move folder name left es) : name ∈ es.keys := by
  induction h with
  | here _ _ => exact List.mem_cons_self
  | later _ _ _ ih => exact List.mem_cons_of_mem _ ih

/-- Only the names of the listing matter. -/
theorem Lands.congr {folder' : Folder β}
    (hsame : ∀ name ∈ es.keys, folder'.lookup name = folder.lookup name)
    (h : Lands move folder name left es) : Lands move folder' name left es := by
  induction h with
  | here hfree hleft =>
    refine .here ?_ hleft
    rw [Folder.has, hsame _ List.mem_cons_self]
    exact hfree
  | later hfree hok _ ih =>
    refine .later ?_ hok (ih fun name hname => hsame name (List.mem_cons_of_mem _ hname))
    rw [Folder.has, hsame _ List.mem_cons_self]
    exact hfree

/-- No entry of the listing is in the way of its move, and every move works. -/
def AllMove (move : ProfileTreeMover β) (folder : Folder β)
    (es : List (Sigma fun _ : String => FsNode β)) : Prop :=
  ∀ e ∈ es, folder.has e.1 = false ∧ (move e.1 e.2).ok = true

theorem append_ne_empty (name : String) {text : String} (h : text ≠ "") : name ++ text ≠ "" := by
  intro hempty
  have hlen := congrArg String.length hempty
  rw [String.length_append, String.length_empty] at hlen
  exact h (String.length_eq_zero_iff.mp (by omega))

/-- One entry put down changes nothing about the names after it. -/
theorem lookup_land_of_nodup {e : Sigma fun _ : String => FsNode β} {node : Option (FsNode β)}
    (hes : (e :: es).NodupKeys) {other : String} (h : other ∈ es.keys) :
    (folder.land e.1 node).lookup other = folder.lookup other := by
  apply Folder.lookup_land_ne
  rintro rfl
  exact (List.nodupKeys_cons.mp hes).1 h

theorem adoptEntries_ok_iff (hes : es.NodupKeys) :
    (adoptEntries move es folder).1 = "" ↔ AllMove move folder es := by
  induction es generalizing folder with
  | nil => exact ⟨fun _ _ h => (nomatch h), fun _ => rfl⟩
  | cons e es ih =>
    obtain ⟨name, node⟩ := e
    rw [adoptEntries]
    by_cases hhas : folder.has name = true
    · rw [if_pos hhas]
      refine iff_of_false (append_ne_empty name (by decide)) fun h => ?_
      rw [(h _ List.mem_cons_self).1] at hhas
      cases hhas
    rw [if_neg hhas]
    by_cases hok : (move name node).ok = true
    · rw [if_pos hok, ih (List.nodupKeys_cons.mp hes).2]
      constructor
      · intro h e he
        rcases List.mem_cons.mp he with rfl | he
        · exact ⟨Bool.eq_false_iff.mpr hhas, hok⟩
        · have hkey : e.1 ∈ es.keys := List.mem_map_of_mem he
          have hfree := (h e he).1
          rw [Folder.has, lookup_land_of_nodup hes hkey] at hfree
          exact ⟨hfree, (h e he).2⟩
      · intro h e he
        have hkey : e.1 ∈ es.keys := List.mem_map_of_mem he
        rw [Folder.has, lookup_land_of_nodup hes hkey]
        exact h e (List.mem_cons_of_mem _ he)
    · rw [if_neg hok]
      exact iff_of_false (append_ne_empty name (by decide)) fun h =>
        hok (h _ List.mem_cons_self).2

/-- What is in the folder when the loop ends, stopped or not: what was there, and
what landed. -/
theorem lookup_adoptEntries (hes : es.NodupKeys) :
    (adoptEntries move es folder).2.lookup name = some left ↔
      folder.lookup name = some left ∨
        folder.has name = false ∧ Lands move folder name left es := by
  induction es generalizing folder left with
  | nil => exact ⟨Or.inl, fun h => h.elim id fun h => (nomatch h.2)⟩
  | cons e es ih =>
    obtain ⟨first, node⟩ := e
    rw [adoptEntries]
    by_cases hhas : folder.has first = true
    · -- the loop stops in front of this entry
      rw [if_pos hhas]
      refine ⟨Or.inl, fun h => h.elim id fun ⟨_, hlands⟩ => ?_⟩
      cases hlands with
      | here hfree _ => rw [hhas] at hfree; cases hfree
      | later hfree _ _ => rw [hhas] at hfree; cases hfree
    rw [if_neg hhas]
    have hfree : folder.has first = false := Bool.eq_false_iff.mpr hhas
    have hnone : folder.lookup first = none := Folder.has_eq_false.mp hfree
    have hnot : first ∉ es.keys := (List.nodupKeys_cons.mp hes).1
    by_cases hname : name = first
    · -- the name is this entry's own: nothing after it touches it
      subst hname
      have hself : ∀ f : Folder β, f.lookup name = (move name node).left →
          (f.lookup name = some left ↔ folder.lookup name = some left ∨
            folder.has name = false ∧ Lands move folder name left (⟨name, node⟩ :: es)) := by
        intro f hf
        rw [hf, hnone]
        refine ⟨fun h => .inr ⟨hfree, .here hfree h⟩, ?_⟩
        rintro (h | ⟨-, h⟩)
        · cases h
        · cases h with
          | here _ hleft => exact hleft
          | later _ _ hlater => exact absurd hlater.mem hnot
      by_cases hok : (move name node).ok = true
      · rw [if_pos hok]
        refine hself _ ?_
        have hland := Folder.lookup_land_self hnone (move name node).left
        apply Option.ext
        intro n
        rw [ih (List.nodupKeys_cons.mp hes).2, hland]
        exact ⟨fun h => h.elim id fun h => absurd h.2.mem hnot, .inl⟩
      · rw [if_neg hok]
        exact hself _ (Folder.lookup_land_self hnone _)
    · have hother := Folder.lookup_land_ne (f := folder) hname (move first node).left
      by_cases hok : (move first node).ok = true
      · rw [if_pos hok, ih (List.nodupKeys_cons.mp hes).2, Folder.has, hother]
        refine or_congr Iff.rfl (and_congr Iff.rfl ⟨fun h => ?_, fun h => ?_⟩)
        · exact .later hfree hok (h.congr fun other hin =>
            (lookup_land_of_nodup (e := ⟨first, node⟩) hes hin).symm)
        · cases h with
          | here _ _ => exact absurd rfl hname
          | later _ _ hlater =>
            exact hlater.congr fun other hin => lookup_land_of_nodup (e := ⟨first, node⟩) hes hin
      · rw [if_neg hok]
        simp only [hother]
        refine ⟨Or.inl, fun h => h.elim id fun ⟨_, hlands⟩ => ?_⟩
        cases hlands with
        | here _ _ => exact absurd rfl hname
        | later _ hok' _ => exact absurd hok' hok

/-- Whole moves leave there what they were to move. -/
theorem lands_iff_mem
    (hwhole : ∀ name node, (move name node).ok = true → (move name node).left = some node)
    (h : AllMove move folder es) : Lands move folder name left es ↔ ⟨name, left⟩ ∈ es := by
  induction es with
  | nil => exact ⟨nofun, nofun⟩
  | cons e es ih =>
    obtain ⟨hfree, hok⟩ := h e List.mem_cons_self
    have ih := ih fun e he => h e (List.mem_cons_of_mem _ he)
    constructor
    · rintro (⟨-, hleft⟩ | ⟨-, -, hlater⟩)
      · rw [hwhole _ _ hok] at hleft
        cases hleft
        exact List.mem_cons_self
      · exact List.mem_cons_of_mem _ (ih.mp hlater)
    · intro hmem
      rcases List.mem_cons.mp hmem with rfl | hmem
      · exact .here hfree (hwhole _ _ hok)
      · exact .later hfree hok (ih.mpr hmem)

/-! ## One folder -/

section Folder

variable {codec : MarkerCodec β} {env : AdoptionSteps β} {tree : FsNode β} {id displayName : String}
  {manifest : ProfilePackageManifest}

/-- Every step that can return an error works. -/
def AllStepsWork (env : AdoptionSteps β) (folder : Folder β) (tree : FsNode β) : Prop :=
  AllMove env.move folder tree.listing.entries ∧ env.writesMarker = true

theorem adoptIntoFolder_ok_iff :
    (adoptIntoFolder codec env tree folder id displayName manifest).1 = "" ↔
      AllStepsWork env folder tree := by
  have hloop : (adoptEntries env.move tree.listing.entries folder).1 = "" ↔ _ :=
    adoptEntries_ok_iff tree.listing.nodupKeys
  unfold adoptIntoFolder AllStepsWork
  dsimp only
  by_cases hmoved : (adoptEntries env.move tree.listing.entries folder).1 = ""
  · rw [if_neg (not_not.mpr hmoved), MarkerCodec.writeProfileMarker]
    cases hwrites : env.writesMarker with
    | false =>
      refine iff_of_false (fun h => ?_) fun h => (nomatch h.2)
      exact absurd h (by decide : "the profile could not be recorded" ≠ "")
    | true => exact iff_of_true rfl ⟨hloop.mp hmoved, rfl⟩
  · rw [if_pos hmoved]
    exact iff_of_false hmoved fun h => hmoved (hloop.mpr h.1)

/-- An adoption that failed has kept a copy of a damaged marker after the loop, at most. -/
theorem scanDirectory_adoptIntoFolder_failed {path : String}
    (h : (adoptIntoFolder codec env tree folder id displayName manifest).1 ≠ "") :
    ProfilesRoot.scanDirectory codec path name
        (adoptIntoFolder codec env tree folder id displayName manifest).2 =
      ProfilesRoot.scanDirectory codec path name
        (adoptEntries env.move tree.listing.entries folder).2 := by
  unfold adoptIntoFolder at h ⊢
  dsimp only at h ⊢
  by_cases hmoved : (adoptEntries env.move tree.listing.entries folder).1 = ""
  · rw [if_neg (not_not.mpr hmoved), MarkerCodec.writeProfileMarker] at h ⊢
    cases hwrites : env.writesMarker with
    | false => exact ProfilesRoot.scanDirectory_keepCorruptMarker
    | true =>
      rw [hwrites] at h
      exact absurd rfl h
  · rw [if_pos hmoved]

/-- The listing of a folder under `path` comes to differ: a marker lands where there
was none, or the copy of an unreadable marker does and reads as something else. -/
def LeavesProfile (codec : MarkerCodec β) (move : ProfileTreeMover β) (path name : String)
    (folder : Folder β) (tree : FsNode β) : Prop :=
  isListedName name = true ∧
    (folder.has profileMarkerName = false ∧
        (∃ left, Lands move folder profileMarkerName left tree.listing.entries) ∨
      folder.has profileMarkerName = true ∧
        codec.parseProfileMarkerFile folder profileMarkerName = none ∧
        folder.has markerBackupName = false ∧
        ∃ left, Lands move folder markerBackupName left tree.listing.entries ∧
          registryEntry path name (left.content.bind codec.parse) ≠ registryEntry path name none)

/-- What was in the folder is still there after the loop. -/
theorem lookup_adoptEntries_of_some {node : FsNode β} (h : folder.lookup name = some node) :
    (adoptEntries move tree.listing.entries folder).2.lookup name = some node :=
  (lookup_adoptEntries tree.listing.nodupKeys).mpr (.inl h)

/-- A free name is taken after the loop exactly by what lands there. -/
theorem lookup_adoptEntries_of_free (h : folder.has name = false) :
    (adoptEntries move tree.listing.entries folder).2.lookup name = some left ↔
      Lands move folder name left tree.listing.entries := by
  rw [lookup_adoptEntries tree.listing.nodupKeys, Folder.has_eq_false.mp h]
  exact ⟨fun hor => hor.elim (fun h => (nomatch h)) And.right, fun hlands => .inr ⟨h, hlands⟩⟩

/-- What the parse of a name comes to after the loop, when the name was taken. -/
theorem parse_adoptEntries_of_some {node : FsNode β} (h : folder.lookup name = some node) :
    codec.parseProfileMarkerFile (adoptEntries move tree.listing.entries folder).2 name =
      codec.parseProfileMarkerFile folder name := by
  rw [MarkerCodec.parseProfileMarkerFile, lookup_adoptEntries_of_some h,
    MarkerCodec.parseProfileMarkerFile, h]

/-- A folder that was listed already is listed differently only by a copy that
landed beside an unreadable marker. -/
theorem registryEntry_adoptEntries_iff {path : String}
    (hhas : folder.has profileMarkerName = true) :
    registryEntry path name
        (codec.readProfileMarker (adoptEntries move tree.listing.entries folder).2) =
        registryEntry path name (codec.readProfileMarker folder) ↔
      ¬ (codec.parseProfileMarkerFile folder profileMarkerName = none ∧
        folder.has markerBackupName = false ∧
        ∃ left, Lands move folder markerBackupName left tree.listing.entries ∧
          registryEntry path name (left.content.bind codec.parse) ≠
            registryEntry path name none) := by
  obtain ⟨marker, hmarker⟩ := Option.isSome_iff_exists.mp hhas
  have hparse : codec.parseProfileMarkerFile (adoptEntries move tree.listing.entries folder).2
      profileMarkerName = codec.parseProfileMarkerFile folder profileMarkerName :=
    parse_adoptEntries_of_some hmarker
  have hnow : (adoptEntries move tree.listing.entries folder).2.has profileMarkerName = true := by
    rw [Folder.has, lookup_adoptEntries_of_some hmarker]
    rfl
  cases hread : codec.parseProfileMarkerFile folder profileMarkerName with
  | some stored =>
    rw [MarkerCodec.readProfileMarker_of_parse hread,
      MarkerCodec.readProfileMarker_of_parse (hparse.trans hread)]
    exact iff_of_true rfl fun h => Option.some_ne_none stored h.1
  | none =>
    rw [MarkerCodec.readProfileMarker_of_unreadable hhas hread,
      MarkerCodec.readProfileMarker_of_unreadable hnow (hparse.trans hread)]
    cases hcopy : folder.lookup markerBackupName with
    | some copy =>
      refine iff_of_true (by rw [parse_adoptEntries_of_some hcopy]) fun h => ?_
      have hfree := h.2.1
      rw [Folder.has, hcopy] at hfree
      cases hfree
    | none =>
      have hfree : folder.has markerBackupName = false := Folder.has_eq_false.mpr hcopy
      rw [MarkerCodec.parseProfileMarkerFile, MarkerCodec.parseProfileMarkerFile, hcopy]
      cases hnew : (adoptEntries move tree.listing.entries folder).2.lookup markerBackupName with
      | none =>
        refine iff_of_true rfl ?_
        rintro ⟨-, -, left, hlands, -⟩
        rw [(lookup_adoptEntries_of_free hfree).mpr hlands] at hnew
        cases hnew
      | some copy =>
        rw [Option.bind_some]
        constructor
        · rintro heq ⟨-, -, left, hlands, hne⟩
          rw [(lookup_adoptEntries_of_free hfree).mpr hlands] at hnew
          obtain rfl := Option.some.inj hnew
          exact hne heq
        · intro h
          by_contra hne
          exact h ⟨rfl, hfree, copy, (lookup_adoptEntries_of_free hfree).mp hnew, hne⟩

open ProfilesRoot in
/-- The loop keeps the listing of the folder exactly when it leaves no profile. -/
theorem scanDirectory_adoptEntries_iff {path : String} :
    scanDirectory codec path name (adoptEntries move tree.listing.entries folder).2 =
        scanDirectory codec path name folder ↔
      ¬ LeavesProfile codec move path name folder tree := by
  cases hlisted : isListedName name with
  | false =>
    rw [scanDirectory_of_unlisted hlisted, scanDirectory_of_unlisted hlisted]
    refine iff_of_true rfl fun h => ?_
    rw [LeavesProfile, hlisted] at h
    cases h.1
  | true =>
    cases hhas : folder.has profileMarkerName with
    | false =>
      -- not listed before: it stays so unless a marker lands
      rw [scanDirectory_of_unmarked hhas]
      cases hnow : (adoptEntries move tree.listing.entries folder).2.has profileMarkerName with
      | false =>
        rw [scanDirectory_of_unmarked hnow]
        refine iff_of_true rfl ?_
        rintro ⟨-, ⟨-, left, hlands⟩ | ⟨h, -⟩⟩
        · rw [Folder.has, (lookup_adoptEntries_of_free hhas).mpr hlands] at hnow
          cases hnow
        · rw [hhas] at h
          cases h
      | true =>
        obtain ⟨left, hleft⟩ := Option.isSome_iff_exists.mp hnow
        rw [scanDirectory_of_marked hlisted hnow]
        refine iff_of_false (Option.some_ne_none _) fun h => h ?_
        exact ⟨hlisted, .inl ⟨hhas, left, (lookup_adoptEntries_of_free hhas).mp hleft⟩⟩
    | true =>
      obtain ⟨marker, hmarker⟩ := Option.isSome_iff_exists.mp hhas
      have hnow : (adoptEntries move tree.listing.entries folder).2.has profileMarkerName = true := by
        rw [Folder.has, lookup_adoptEntries_of_some hmarker]
        rfl
      rw [scanDirectory_of_marked hlisted hhas, scanDirectory_of_marked hlisted hnow,
        Option.some.injEq, registryEntry_adoptEntries_iff hhas, LeavesProfile, hlisted, hhas]
      simp only [Bool.true_eq_false, false_and, true_and, false_or]

/-- The folder holds what the tree does and nothing else, but for the marker: the tree's own, with
the new identity, once more as its last good copy, and beside it the bytes of one that was
damaged. -/
structure HoldsPackage (codec : MarkerCodec β) (env : AdoptionSteps β) (id displayName : String)
    (manifest : ProfilePackageManifest) (tree : FsNode β) (folder : Folder β) : Prop where
  same : ∀ name, name ≠ profileMarkerName → name ≠ markerBackupName →
    name ≠ corruptMarkerName env.stamp → folder.lookup name = tree.listing.lookup name
  marker : folder.lookup profileMarkerName = some (.file (codec.serialise
    (adoptedMarker env id displayName manifest (codec.readProfileMarker tree.listing))))
  backup : folder.lookup markerBackupName =
    if env.keepsMarkerCopy then folder.lookup profileMarkerName
    else tree.listing.lookup markerBackupName
  corrupt : folder.lookup (corruptMarkerName env.stamp) =
    (tree.listing.lookup (corruptMarkerName env.stamp)).or
      (codec.corruptCopy env.copiesCorrupt tree.listing)

theorem adoptIntoFolder_whole (hwork : AllStepsWork env ∅ tree)
    (hwhole : ∀ name node, (env.move name node).ok = true →
      (env.move name node).left = some node) :
    ∃ folder, HoldsPackage codec env id displayName manifest tree folder ∧
      (adoptIntoFolder codec env tree ∅ id displayName manifest).2 = env.writesSettings folder := by
  have hmoved := (adoptEntries_ok_iff tree.listing.nodupKeys).mpr hwork.1
  -- the folder was empty, so the loop leaves a copy of the tree
  have hlookup (name : String) : (adoptEntries env.move tree.listing.entries ∅).2.lookup name =
      tree.listing.lookup name := by
    ext left
    rw [lookup_adoptEntries_of_free rfl, lands_iff_mem hwhole hwork.1, ← AList.mem_lookup_iff,
      Option.mem_def]
  have hread : codec.readProfileMarker (adoptEntries env.move tree.listing.entries ∅).2 =
      codec.readProfileMarker tree.listing := by
    simp only [MarkerCodec.readProfileMarker, MarkerCodec.parseProfileMarkerFile, Folder.has,
      hlookup]
    rfl
  have hkept {name : String} (h : name ≠ corruptMarkerName env.stamp) :
      (codec.keepCorruptMarker env.copiesCorrupt env.stamp
        (adoptEntries env.move tree.listing.entries ∅).2).lookup name = tree.listing.lookup name :=
    (MarkerCodec.lookup_keepCorruptMarker_ne h).trans (hlookup name)
  have hcopy : (codec.keepCorruptMarker env.copiesCorrupt env.stamp
      (adoptEntries env.move tree.listing.entries ∅).2).lookup (corruptMarkerName env.stamp) =
      (tree.listing.lookup (corruptMarkerName env.stamp)).or
        (codec.corruptCopy env.copiesCorrupt tree.listing) := by
    rw [MarkerCodec.lookup_keepCorruptMarker_self, hlookup, MarkerCodec.corruptCopy, hlookup,
      MarkerCodec.corruptCopy]
  have hne : profileMarkerName ≠ markerBackupName := by decide
  have hmarker := MarkerCodec.ne_corruptMarkerName profileMarkerName (by decide) env.stamp
  have hbackup := MarkerCodec.ne_corruptMarkerName markerBackupName (by decide) env.stamp
  unfold adoptIntoFolder
  dsimp only
  rw [if_neg (not_not.mpr hmoved), MarkerCodec.writeProfileMarker, hwork.2, hread]
  refine ⟨_, ⟨fun name hname hcopied hcorrupt => ?_, ?_, ?_, ?_⟩, rfl⟩
  · cases env.keepsMarkerCopy <;> simp [hname, hcopied, hkept hcorrupt]
  · cases env.keepsMarkerCopy <;> simp [hne]
  · cases env.keepsMarkerCopy <;> simp [hne, hne.symm, hkept hbackup]
  · cases env.keepsMarkerCopy <;> simp [hmarker.symm, hbackup.symm, hcopy]

end Folder

/-! ## The profiles root -/

section Root

variable {codec : MarkerCodec β} {env : AdoptionSteps β} {staging : Folder β}
  {root : ProfilesRoot β} {id displayName : String} {manifest : ProfilePackageManifest}

open ProfilesRoot in
/-- A folder that `mkpath` returned was listed as it is now. -/
theorem scan_of_makePath {path : String} {entry : Option (RootEntry β)}
    (h : makePath env.makesRoot entry = some folder) :
    entry.bind (scanEntry codec path name) = scanDirectory codec path name folder := by
  cases entry with
  | none =>
    rw [makePath] at h
    split at h
    · cases h
      rw [scanDirectory_of_unmarked rfl]
      rfl
    · cases h
  | some entry =>
    cases entry with
    | directory contents =>
      cases h
      rfl
    | other => cases h

/-- `AdoptExtractedProfile` into a directory of the profiles root: an error has left
the profiles as they were exactly when the adoption gets no folder to work in, or has
nothing go wrong in it, or leaves no profile there. -/
theorem adoptExtractedProfile_keeps_iff :
    ((adoptExtractedProfile codec env staging root name id displayName manifest).1 ≠ "" →
      ∀ e, e ∈ (adoptExtractedProfile codec env staging root name id displayName
          manifest).2.scanProfilesRoot codec ↔ e ∈ root.scanProfilesRoot codec) ↔
    ∀ tree folder, staging.lookup profilePackageTreePrefix = some tree →
      makePath env.makesRoot (root.entries.lookup name) = some folder →
      AllStepsWork env folder tree ∨ ¬ LeavesProfile codec env.move root.path name folder tree := by
  unfold adoptExtractedProfile
  cases htree : staging.lookup profilePackageTreePrefix with
  | none => exact iff_of_true (fun _ _ => Iff.rfl) fun _ _ h => (nomatch h)
  | some tree =>
    cases hfolder : makePath env.makesRoot (root.entries.lookup name) with
    | none => exact iff_of_true (fun _ _ => Iff.rfl) fun _ _ _ h => (nomatch h)
    | some folder =>
      dsimp only
      rw [ProfilesRoot.scanProfilesRoot_set_iff, scan_of_makePath hfolder, ne_eq,
        adoptIntoFolder_ok_iff]
      constructor
      · rintro hkeeps _ _ ⟨⟩ ⟨⟩
        by_cases hwork : AllStepsWork env folder tree
        · exact .inl hwork
        · have hsame := hkeeps hwork
          rw [scanDirectory_adoptIntoFolder_failed (adoptIntoFolder_ok_iff.not.mpr hwork)] at hsame
          exact .inr (scanDirectory_adoptEntries_iff.mp hsame)
      · intro h hfailed
        rw [scanDirectory_adoptIntoFolder_failed (adoptIntoFolder_ok_iff.not.mpr hfailed)]
        exact scanDirectory_adoptEntries_iff.mpr
          ((h tree folder rfl rfl).resolve_left hfailed)

theorem isListedName_of_isValidProfileId (h : isValidProfileId id = true) :
    isListedName id = true := by
  rw [isListedName, h, Bool.and_true, Bool.not_eq_true', beq_eq_false_iff_ne]
  intro hhead
  unfold isValidProfileId at h
  split at h
  · cases h
  split at h
  · cases h
  split at h
  · cases h
  next hpattern =>
    -- the first character is in the class, unless it is the final line feed
    cases hid : id.toList with
    | nil =>
      rw [hid] at hhead
      cases hhead
    | cons c rest =>
      rw [hid] at hhead
      obtain rfl : c = '.' := Option.some.inj hhead
      rw [hid] at hpattern
      apply hpattern
      cases rest with
      | nil => rfl
      | cons d rest =>
        unfold matchesProfileIdPattern
        dsimp only
        split <;> rfl

/-- In a new folder under a listed name only a marker counts. -/
theorem leavesProfile_empty_iff {path : String} {tree : FsNode β}
    (hlisted : isListedName name = true) :
    LeavesProfile codec move path name ∅ tree ↔
      ∃ left, Lands move ∅ profileMarkerName left tree.listing.entries := by
  constructor
  · rintro ⟨-, ⟨-, hlands⟩ | ⟨h, -⟩⟩
    · exact hlands
    · cases h
  · exact fun hlands => ⟨hlisted, .inl ⟨rfl, hlands⟩⟩

theorem adoptProfilePackage_of_mint {faults : MoveFaults β} {draws : List String}
    (hmint : root.mintProfileDirectoryId draws = some id) :
    let adopted := adoptExtractedProfile codec
      { env with move := moveTreeAcrossFilesystems faults none } staging root id id displayName
      manifest
    let result := adoptProfilePackage codec env faults draws staging root displayName manifest
    result.1.error = adopted.1 ∧ result.2 = adopted.2 := by
  intro adopted result
  have hresult : result = if adopted.1 = "" then (({ id := id } : AdoptedProfile), adopted.2)
      else ({ error := adopted.1 }, adopted.2) := by
    simp only [result, adoptProfilePackage, hmint]
    rfl
  rw [hresult]
  split
  · next h => exact ⟨h.symm, rfl⟩
  · exact ⟨rfl, rfl⟩

/-- `AdoptProfilePackage`: the folder is new and its name is listed, so all that
counts is whether a marker lands. -/
theorem adoptProfilePackage_keeps_iff {faults : MoveFaults β} {draws : List String} :
    ((adoptProfilePackage codec env faults draws staging root displayName manifest).1.error ≠ "" →
      ∀ e, e ∈ (adoptProfilePackage codec env faults draws staging root displayName
          manifest).2.scanProfilesRoot codec ↔ e ∈ root.scanProfilesRoot codec) ↔
    ∀ id tree, root.mintProfileDirectoryId draws = some id →
      staging.lookup profilePackageTreePrefix = some tree → env.makesRoot = true →
      AllStepsWork { env with move := moveTreeAcrossFilesystems faults none } ∅ tree ∨
        ¬ ∃ left, Lands (moveTreeAcrossFilesystems faults none) ∅ profileMarkerName left
          tree.listing.entries := by
  cases hmint : root.mintProfileDirectoryId draws with
  | none =>
    rw [adoptProfilePackage, hmint]
    exact iff_of_true (fun _ _ => Iff.rfl) fun _ _ h => (nomatch h)
  | some id =>
    have hfound := List.find?_some hmint
    rw [Bool.and_eq_true, Option.isNone_iff_eq_none] at hfound
    obtain ⟨hvalid, hfresh⟩ := hfound
    obtain ⟨herror, hafter⟩ :=
      @adoptProfilePackage_of_mint β codec env staging root id displayName manifest faults draws hmint
    rw [herror, hafter, adoptExtractedProfile_keeps_iff, hfresh]
    have hlisted := isListedName_of_isValidProfileId hvalid
    constructor
    · rintro h id' tree ⟨⟩ htree hmakes
      have hfolder := h tree ∅ htree (if_pos hmakes)
      rwa [leavesProfile_empty_iff hlisted] at hfolder
    · intro h tree folder htree hfolder
      rw [makePath] at hfolder
      split at hfolder
      · next hmakes =>
        cases hfolder
        rw [leavesProfile_empty_iff hlisted]
        exact h id tree rfl htree hmakes
      · cases hfolder

/-- **An import is whole**: where `AdoptProfilePackage` returns no error, the profile is in a new
directory named by its id, which holds the package. No other directory is touched. -/
theorem adopted_package_whole {faults : MoveFaults β} {draws : List String}
    (h : (adoptProfilePackage codec env faults draws staging root displayName
      manifest).1.error = "") :
    ∃ id tree folder, isValidProfileId id = true ∧ root.entries.lookup id = none ∧
      staging.lookup profilePackageTreePrefix = some tree ∧
      HoldsPackage codec env id displayName manifest tree folder ∧
      adoptProfilePackage codec env faults draws staging root displayName manifest =
        ({ id := id }, root.set id (env.writesSettings folder)) := by
  unfold adoptProfilePackage at h ⊢
  cases hmint : root.mintProfileDirectoryId draws with
  | none => simp [hmint] at h
  | some id =>
    have hfound := List.find?_some hmint
    rw [Bool.and_eq_true, Option.isNone_iff_eq_none] at hfound
    simp only [hmint] at h ⊢
    split at h
    · next hok =>
      rw [if_pos hok]
      rw [adoptExtractedProfile, hfound.2, makePath] at hok ⊢
      cases htree : staging.lookup profilePackageTreePrefix with
      | none => simp [htree] at hok
      | some tree =>
        cases hmakes : env.makesRoot with
        | false => simp [htree, hmakes] at hok
        | true =>
          simp only [htree, hmakes, if_true] at hok ⊢
          obtain ⟨folder, hholds, hleft⟩ := adoptIntoFolder_whole (adoptIntoFolder_ok_iff.mp hok)
            fun _ _ => moveTreeAcrossFilesystems_whole
          exact ⟨id, tree, folder, hfound.1, hfound.2, rfl,
            ⟨hholds.same, hholds.marker, hholds.backup, hholds.corrupt⟩, by rw [hleft]⟩
    · exact absurd h ‹_›

end Root

/-- **A failed adoption and the profiles root.** For every unpacked tree, every
profiles root and every outcome of the filesystem steps, an adoption that returns an
error has left what `ScanProfilesRoot` returns as it was, if and only if one of these
holds: no folder was there to move into; no step that can return an error failed; or
no marker had landed in the folder by then (and no copy of an unreadable one). -/
theorem failed_adoption_keeps_profiles_iff (codec : MarkerCodec β) (env : AdoptionSteps β)
    (faults : MoveFaults β) (draws : List String) (staging : Folder β) (root : ProfilesRoot β)
    (name id displayName : String) (manifest : ProfilePackageManifest) :
    (((adoptExtractedProfile codec env staging root name id displayName manifest).1 ≠ "" →
        ∀ e, e ∈ (adoptExtractedProfile codec env staging root name id displayName
            manifest).2.scanProfilesRoot codec ↔ e ∈ root.scanProfilesRoot codec) ↔
      ∀ tree folder, staging.lookup profilePackageTreePrefix = some tree →
        makePath env.makesRoot (root.entries.lookup name) = some folder →
        AllStepsWork env folder tree ∨
          ¬ LeavesProfile codec env.move root.path name folder tree) ∧
    (((adoptProfilePackage codec env faults draws staging root displayName manifest).1.error ≠ "" →
        ∀ e, e ∈ (adoptProfilePackage codec env faults draws staging root displayName
            manifest).2.scanProfilesRoot codec ↔ e ∈ root.scanProfilesRoot codec) ↔
      ∀ id tree, root.mintProfileDirectoryId draws = some id →
        staging.lookup profilePackageTreePrefix = some tree → env.makesRoot = true →
        AllStepsWork { env with move := moveTreeAcrossFilesystems faults none } ∅ tree ∨
          ¬ ∃ left, Lands (moveTreeAcrossFilesystems faults none) ∅ profileMarkerName left
            tree.listing.entries) :=
  ⟨adoptExtractedProfile_keeps_iff, adoptProfilePackage_keeps_iff⟩

/-! ## An import that stops half way -/

/-- File contents as texts, one of which is a marker. -/
def textMarkerCodec : MarkerCodec String where
  parse text := if text = "marker" then some { displayName := "Work" } else none
  serialise _ := "marker"

/-- An unpacked package: a marker, and the profile's key. -/
def unpackedWork : Folder String :=
  Folder.land ∅ "profile" (some (.dir
    [("profile.json", .file "marker"), ("secure", .dir [("app.key", .file "key")])]))

/-- The disk is full once the marker is across: nothing is renamed, the key cannot be
copied, and the half-made copy is removed. -/
def fullDisk : MoveFaults String where
  renames _ := false
  makesDir _ := true
  copies path := path ≠ ["secure", "app.key"]
  torn _ := none
  remains _ _ := none

def importSteps : AdoptionSteps String where
  nowIso := "2026-01-01T00:00:00Z"
  projectVersion := "2.2.0"
  makesRoot := true
  move := moveTreeAcrossFilesystems fullDisk none
  copiesCorrupt := true
  stamp := "20260101T000000Z"
  writesMarker := true
  keepsMarkerCopy := true
  writesSettings := id

/-- An import that failed at the key is listed as a profile from then on. -/
theorem interrupted_import_is_listed :
    let root : ProfilesRoot String := ⟨"/p", ∅⟩
    let result := adoptProfilePackage textMarkerCodec importSteps fullDisk ["a1b2c3"] unpackedWork
      root "Copy" {}
    result.1 = { error := "secure could not be unpacked" } ∧
      root.scanProfilesRoot textMarkerCodec = [] ∧
      result.2.scanProfilesRoot textMarkerCodec =
        [{ id := "a1b2c3", root := "/p/a1b2c3", name := "Work" }] := by
  decide

/-- The same import where every copy works, of a package whose marker is damaged: its bytes are
kept, beside the new marker. -/
theorem adopted_package_whole_copied :
    ∃ id folder, adoptProfilePackage textMarkerCodec importSteps
        { fullDisk with copies := fun _ => true } ["a1b2c3"]
        (Folder.land ∅ "profile" (some (.dir
          [("profile.json", .file "mark"), ("secure", .dir [("app.key", .file "key")])])))
        ⟨"/p", ∅⟩ "Copy" {} =
      ({ id := id }, ProfilesRoot.set ⟨"/p", ∅⟩ id folder) ∧
      folder.lookup "secure" = some (.dir [("app.key", .file "key")]) ∧
      folder.lookup (corruptMarkerName importSteps.stamp) = some (.file "mark") := by
  obtain ⟨id, tree, folder, -, -, htree, hholds, heq⟩ :=
    @adopted_package_whole String textMarkerCodec importSteps (Folder.land ∅ "profile" (some (.dir
      [("profile.json", .file "mark"), ("secure", .dir [("app.key", .file "key")])]))) ⟨"/p", ∅⟩
      "Copy" {} { fullDisk with copies := fun _ => true } ["a1b2c3"] (by decide)
  obtain rfl := Option.some.inj htree
  exact ⟨id, folder, heq, hholds.same "secure" (by decide) (by decide) (by decide),
    hholds.corrupt⟩

end GpgFrontend
