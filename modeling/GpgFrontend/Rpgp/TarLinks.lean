import GpgFrontend.Base.LinkResolution

/-!
# Symbolic links of an unpacked archive

- `symlinkStaysInside`, `unpackContained`: the functions of `tar.rs`. The first judges a link by its
  name in the archive, without a look at the links that are on the disk already.
-/

namespace GpgFrontend.Rpgp

open LinkResolution

variable {ν ε : Type}

abbrev TarPath (ν : Type) : Type := List (Component ν)

inductive EntryKind (ν : Type) where
  | symlink (target : Option (TarPath ν))
  | hardLink (source : TarPath ν)
  | other

structure TarEntry (ν : Type) where
  path : TarPath ν
  kind : EntryKind ν

/-- `Path::parent`, or nothing where a path has none. -/
def parent (path : TarPath ν) : TarPath ν :=
  match path.getLast? with
  | some (.normal _) | some .curDir | some .parentDir => path.dropLast
  | _ => []

/-- `Path::has_root`; an absolute path has one. -/
def hasRoot : TarPath ν → Bool
  | .rootDir :: _ => true
  | .windowsPrefix :: .rootDir :: _ => true
  | _ => false

/-- The depth below the root of the archive, after each component. -/
def depthLoop : Nat → TarPath ν → Bool
  | _, [] => true
  | depth, .normal _ :: path => depthLoop (depth + 1) path
  | depth, .curDir :: path => depthLoop depth path
  | 0, .parentDir :: _ => false
  | depth + 1, .parentDir :: path => depthLoop depth path
  | _, .rootDir :: _ => false
  | _, .windowsPrefix :: _ => false

def symlinkStaysInside (entryPath target : TarPath ν) : Bool :=
  if hasRoot target then false else depthLoop 0 (parent entryPath ++ target)

/-- What a symbolic link is refused for; one without a target is refused too. -/
def TarEntry.inside (entry : TarEntry ν) : Bool :=
  match entry.kind with
  | .symlink target => target.any (symlinkStaysInside entry.path)
  | _ => true

inductive UnpackError (ν ε : Type) where
  | io (error : ε)
  | pointsOutside (path : TarPath ν)
  | placedOutside (path : TarPath ν)

def UnpackError.message (display : TarPath ν → String) (text : ε → String) :
    UnpackError ν ε → String
  | .io error => text error
  | .pointsOutside path => "symbolic link " ++ display path ++ " points outside the archive"
  | .placedOutside path => "entry " ++ display path ++ " would be placed outside the archive"

/-- The link that unpacking an entry makes at a place: the one the entry names, or the one that a
hard link is to. -/
structure NewLink (disk : Disk ν) (dest : List ν) (entry : TarEntry ν) (place : List ν)
    (target : TarPath ν) : Prop where
  placed : ∃ front name pos, entry.path = front ++ [.normal name] ∧ .parentDir ∉ front ∧
    Resolves disk dest (front.filter fun c => !c.isRoot) pos ∧ place = pos ++ [name]
  made : entry.kind = .symlink (some target) ∨
    ∃ front name pos, entry.kind = .hardLink (front ++ [.normal name]) ∧
      Resolves disk dest front pos ∧ disk (pos ++ [name]) = some (.link target)

/-- `create_dir_all`, and `unpack_in` of the tar crate, which makes the folders on the way to an
entry (`made`) and then the entry, inside the destination, or declines it (`none`). -/
structure TarSystem (ν ε : Type) where
  createDirAll : Disk ν → List ν → Except ε (Disk ν)
  unpackIn : Disk ν → List ν → TarEntry ν → Except ε (Option (Disk ν))
  createDirAll_links : ∀ {disk disk' dest}, createDirAll disk dest = .ok disk' →
    ∀ p target, disk' p = some (.link target) → disk p = some (.link target)
  unpackIn_links : ∀ {disk disk' dest entry}, unpackIn disk dest entry = .ok (some disk') →
    ∀ p target, disk' p = some (.link target) → disk p = some (.link target) ∨
      (dest <+: p ∧ ∃ made : Disk ν,
        (∀ q u, made q = some (.link u) → disk q = some (.link u)) ∧
          NewLink made dest entry p target)

section

variable (sys : TarSystem ν ε) (dest : List ν)

def unpackEntry (disk : Disk ν) (entry : TarEntry ν) : Except (UnpackError ν ε) (Disk ν) :=
  if !entry.inside then .error (.pointsOutside entry.path)
  else
    match sys.unpackIn disk dest entry with
    | .error error => .error (.io error)
    | .ok none => .error (.placedOutside entry.path)
    | .ok (some disk') => .ok disk'

/-- The loop over the archive; an entry that cannot be read ends it. -/
def unpackLoop (disk : Disk ν) : List (Except ε (TarEntry ν)) → Except (UnpackError ν ε) (Disk ν)
  | [] => .ok disk
  | .error error :: _ => .error (.io error)
  | .ok entry :: items =>
    match unpackEntry sys dest disk entry with
    | .error error => .error error
    | .ok disk' => unpackLoop disk' items

def unpackContained (disk : Disk ν) (items : List (Except ε (TarEntry ν))) :
    Except (UnpackError ν ε) (Disk ν) :=
  match sys.createDirAll disk dest with
  | .error error => .error (.io error)
  | .ok disk' => unpackLoop sys dest disk' items

end

/-! ## Archives whose links are judged right -/

/-- Where the names of an archive say its links are. -/
def linkPlaces (dest : List ν) (items : List (Except ε (TarEntry ν))) (place : List ν) : Prop :=
  ∃ entry target, .ok entry ∈ items ∧ entry.kind = .symlink (some target) ∧
    place = walk dest entry.path

/-- The names of the archive say where its links are and lead. -/
structure Straightforward (dest : List ν) (items : List (Except ε (TarEntry ν))) : Prop where
  /-- No link lies below the name of a link. -/
  placed : ∀ entry target, .ok entry ∈ items → entry.kind = .symlink (some target) →
    ∀ q ∈ visited dest (parent entry.path), ¬linkPlaces dest items q
  /-- No target climbs after the name of a link. -/
  straight : ∀ entry target, .ok entry ∈ items → entry.kind = .symlink (some target) →
    ∀ front c back, target = front ++ c :: back → c.descends = false →
      ∀ q ∈ visited (walk dest (parent entry.path)) front, ¬linkPlaces dest items q
  /-- No hard link is to a link, or through one, or to something outside. -/
  hardLinks : ∀ entry source, .ok entry ∈ items → entry.kind = .hardLink source →
    ∀ q ∈ visited dest source, dest <+: q ∧ ¬linkPlaces dest items q

/-! ## What the check of a link is worth -/

theorem contained_of_depthLoop {base pos : List ν} {depth : Nat} {path : TarPath ν}
    (h : depthLoop depth path = true) (hpos : base <+: pos)
    (hdepth : base.length + depth ≤ pos.length) :
    Contained base pos path := by
  induction path generalizing depth pos with
  | nil => exact fun q hq => by cases hq
  | cons c path ih =>
    have hcons {pos' : List ν} (hwalk : walkOne pos c = pos') (hpos' : base <+: pos')
        (htail : Contained base pos' path) : Contained base pos (c :: path) := by
      intro q hq
      rw [visited, hwalk] at hq
      obtain rfl | hq := List.mem_cons.mp hq
      · exact hpos'
      · exact htail q hq
    cases c with
    | windowsPrefix => cases depth <;> cases h
    | rootDir => cases depth <;> cases h
    | curDir =>
      have h' : depthLoop depth path = true := by cases depth <;> exact h
      exact hcons rfl hpos (ih h' hpos hdepth)
    | normal name =>
      have h' : depthLoop (depth + 1) path = true := by cases depth <;> exact h
      have hbase : base <+: pos ++ [name] := hpos.trans (List.prefix_append _ _)
      refine hcons rfl hbase (ih h' hbase ?_)
      rw [walkOne, List.length_append, List.length_singleton]
      omega
    | parentDir =>
      cases depth with
      | zero => cases h
      | succ depth =>
        -- the place is below the folder, so one step up is still inside
        have hbase : base <+: pos.dropLast :=
          List.prefix_of_prefix_length_le hpos (List.dropLast_prefix pos)
            (by rw [List.length_dropLast]; omega)
        refine hcons rfl hbase (ih h hbase ?_)
        rw [walkOne, List.length_dropLast]
        omega

theorem parent_concat (front : TarPath ν) (name : ν) : parent (front ++ [.normal name]) = front := by
  rw [parent, List.getLast?_concat]
  exact List.dropLast_concat

/-- A link that passes the check is written to stay inside, and so is the folder it lies in. -/
theorem contained_of_staysInside (dest : List ν) {entryPath target : TarPath ν}
    (h : symlinkStaysInside entryPath target = true) :
    Contained dest dest (parent entryPath) ∧
      Contained dest (walk dest (parent entryPath)) target := by
  rw [symlinkStaysInside] at h
  split at h
  · cases h
  · exact (contained_of_depthLoop h List.prefix_rfl (Nat.le_refl _)).append

theorem rootless_of_depthLoop {depth : Nat} {path : TarPath ν} (h : depthLoop depth path = true) :
    ∀ c ∈ path, c.isRoot = false := by
  fun_induction depthLoop depth path with
  | case1 => intro c hc; cases hc
  | case2 depth name path ih => exact List.forall_mem_cons.mpr ⟨rfl, ih h⟩
  | case3 depth path ih => exact List.forall_mem_cons.mpr ⟨rfl, ih h⟩
  | case4 => cases h
  | case5 depth path ih => exact List.forall_mem_cons.mpr ⟨rfl, ih h⟩
  | case6 => cases h
  | case7 => cases h

/-! ## The links of an unpacked archive -/

/-- Every link in the folder is where its entry says, and has passed the check. -/
def LinksKnown (dest : List ν) (items : List (Except ε (TarEntry ν))) (disk : Disk ν) : Prop :=
  ∀ p target, dest <+: p → disk p = some (.link target) →
    ∃ entry front name, .ok entry ∈ items ∧ entry.kind = .symlink (some target) ∧
      symlinkStaysInside entry.path target = true ∧ entry.path = front ++ [.normal name] ∧
      p = walk dest front ++ [name]

section

variable {sys : TarSystem ν ε} {dest : List ν} {items : List (Except ε (TarEntry ν))}
  {disk disk' : Disk ν}

theorem LinksKnown.mono (h : LinksKnown dest items disk)
    (hlinks : ∀ p target, disk' p = some (.link target) → disk p = some (.link target)) :
    LinksKnown dest items disk' :=
  fun p target hp hlink => h p target hp (hlinks p target hlink)

theorem LinksKnown.linkPlaces (h : LinksKnown dest items disk) {p : List ν} {target : TarPath ν}
    (hp : dest <+: p) (hlink : disk p = some (.link target)) : linkPlaces dest items p := by
  obtain ⟨entry, front, name, hmem, hkind, -, hpath, rfl⟩ := h p target hp hlink
  exact ⟨entry, target, hmem, hkind, by rw [hpath, walk_concat]⟩

theorem LinksKnown.unlinked (h : LinksKnown dest items disk) {pos : List ν} {path : TarPath ν}
    (hpath : ∀ q ∈ visited pos path, dest <+: q ∧ ¬Rpgp.linkPlaces dest items q) :
    Unlinked disk pos path :=
  fun q hq _ hlink => (hpath q hq).2 (h.linkPlaces (hpath q hq).1 hlink)

/-- A new link is where the path of its entry says. -/
theorem newLink_known (hgood : Straightforward dest items) (hknown : LinksKnown dest items disk)
    {entry : TarEntry ν} (hentry : .ok entry ∈ items)
    (hcheck : ∀ target, entry.kind = .symlink (some target) →
      symlinkStaysInside entry.path target = true)
    {p : List ν} {target : TarPath ν} (hnew : NewLink disk dest entry p target) :
    ∃ front name, entry.kind = .symlink (some target) ∧
      symlinkStaysInside entry.path target = true ∧ entry.path = front ++ [.normal name] ∧
      p = walk dest front ++ [name] := by
  obtain hkind | ⟨front, name, pos, hkind, hresolves, hsource⟩ := hnew.made
  · obtain ⟨front, name, pos, hpath, -, hresolves, rfl⟩ := hnew.placed
    have hinside := hcheck target hkind
    have hplaced := hgood.placed entry target hentry hkind
    have hcontained := (contained_of_staysInside dest hinside).1
    have hparent : parent entry.path = front := by rw [hpath, parent_concat]
    rw [hparent] at hplaced hcontained
    -- the check lets no root into the folder, so the tar crate takes it as it is
    have hrootless : front.filter (fun c => !c.isRoot) = front := by
      rw [symlinkStaysInside, hparent] at hinside
      split at hinside
      · cases hinside
      · refine List.filter_eq_self.mpr fun c hc => ?_
        rw [rootless_of_depthLoop hinside c (List.mem_append_left _ hc)]
        rfl
    rw [hrootless] at hresolves
    have hplace := hresolves.eq_walk
      (hknown.unlinked fun q hq => ⟨hcontained q hq, hplaced q hq⟩)
    exact ⟨front, name, hkind, hcheck target hkind, hpath, by rw [hplace]⟩
  · -- a hard link is to no link
    have hplain := hgood.hardLinks entry _ hentry hkind
    rw [visited_append, List.forall_mem_append] at hplain
    have hplace := hresolves.eq_walk (hknown.unlinked hplain.1)
    have hlast := hplain.2 _ List.mem_cons_self
    rw [hplace] at hsource
    exact absurd (hknown.linkPlaces hlast.1 hsource) hlast.2

theorem unpackEntry_known (hgood : Straightforward dest items)
    (hknown : LinksKnown dest items disk) {entry : TarEntry ν} (hentry : .ok entry ∈ items)
    (h : unpackEntry sys dest disk entry = .ok disk') : LinksKnown dest items disk' := by
  rw [unpackEntry] at h
  split at h
  · cases h
  · next hinside =>
    have hcheck : ∀ target, entry.kind = .symlink (some target) →
        symlinkStaysInside entry.path target = true := by
      intro target hkind
      rw [Bool.not_eq_true', Bool.not_eq_false, TarEntry.inside, hkind] at hinside
      exact hinside
    split at h
    · cases h
    · cases h
    · next disk'' hunpack =>
      obtain rfl := Except.ok.inj h
      intro p target hp hlink
      obtain hold | ⟨-, made, hmade, hnew⟩ := sys.unpackIn_links hunpack p target hlink
      · exact hknown p target hp hold
      · obtain ⟨front, name, hrest⟩ :=
          newLink_known hgood (hknown.mono hmade) hentry hcheck hnew
        exact ⟨entry, front, name, hentry, hrest⟩

theorem unpackLoop_known (hgood : Straightforward dest items) {rest : List (Except ε (TarEntry ν))}
    (hrest : ∀ item ∈ rest, item ∈ items) (hknown : LinksKnown dest items disk)
    (h : unpackLoop sys dest disk rest = .ok disk') : LinksKnown dest items disk' := by
  induction rest generalizing disk with
  | nil =>
    obtain rfl := Except.ok.inj h
    exact hknown
  | cons item rest ih =>
    cases item with
    | error error => cases h
    | ok entry =>
      rw [unpackLoop] at h
      split at h
      · cases h
      · next disk'' hentry =>
        refine ih (fun item hitem => hrest item (List.mem_cons_of_mem _ hitem)) ?_ h
        exact unpackEntry_known hgood hknown (hrest _ List.mem_cons_self) hentry

/-- An archive whose names say where its links are and lead, unpacked into a folder without links,
leaves no link that leads out of the folder. -/
theorem unpacked_links_stay_inside (hgood : Straightforward dest items)
    (hfresh : ∀ p target, dest <+: p → disk p ≠ some (.link target))
    (h : unpackContained sys dest disk items = .ok disk') {p : List ν} {target : TarPath ν}
    (hp : dest <+: p) (hlink : disk' p = some (.link target)) {place : List ν}
    (hplace : Resolves disk' p.dropLast target place) : dest <+: place := by
  have hknown : LinksKnown dest items disk' := by
    rw [unpackContained] at h
    split at h
    · cases h
    · next made hmade =>
      refine unpackLoop_known hgood (fun _ hitem => hitem) (fun q u hq hu => ?_) h
      exact absurd (sys.createDirAll_links hmade q u hu) (hfresh q u hq)
  have hlinks : ∀ q u, dest <+: q → disk' q = some (.link u) →
      dest <+: q.dropLast ∧ Contained dest q.dropLast u ∧ Straight disk' q.dropLast u := by
    intro q u hq hu
    obtain ⟨entry, front, name, hmem, hkind, hinside, hpath, rfl⟩ := hknown q u hq hu
    obtain ⟨hfolder, htarget⟩ := contained_of_staysInside dest hinside
    have hstraight := hgood.straight entry u hmem hkind
    rw [hpath, parent_concat] at hfolder htarget hstraight
    rw [List.dropLast_concat]
    refine ⟨hfolder.walk List.prefix_rfl, htarget, fun front' c back hsplit hc => ?_⟩
    refine hknown.unlinked fun r hr => ⟨?_, hstraight front' c back hsplit hc r hr⟩
    rw [hsplit] at htarget
    exact htarget.append.1 r hr
  obtain ⟨hfolder, hcontained, hstraight⟩ := hlinks p target hp hlink
  exact hplace.inside (fun q u hq hu => (hlinks q u hq hu).2) hfolder hcontained hstraight

end

/-! ## A link through a link -/

/-- A system that can make links at the top of an archive only. -/
def plainSystem : TarSystem String Unit where
  createDirAll disk _ := .ok disk
  unpackIn disk dest entry :=
    match entry.path, entry.kind with
    | [.normal name], .symlink (some target) =>
      .ok (some (Function.update disk (dest ++ [name]) (some (.link target))))
    | _, _ => .error ()
  createDirAll_links h p target hlink := by
    obtain rfl := Except.ok.inj h
    exact hlink
  unpackIn_links := by
    intro disk disk' dest entry h p target hlink
    split at h
    · next name made hpath hkind =>
      obtain rfl := Option.some.inj (Except.ok.inj h)
      rw [Function.update_apply] at hlink
      split at hlink
      · next hp =>
        subst hp
        obtain rfl := Node.link.inj (Option.some.inj hlink)
        refine .inr ⟨List.prefix_append _ _, disk, fun _ _ h => h, ⟨[], name, dest, hpath, ?_⟩,
          .inl hkind⟩
        exact ⟨List.not_mem_nil, .done dest, rfl⟩
      · exact .inl hlink
    · cases h

def stageFolder : List String := ["home", "stage"]

def linkEntry (name : String) (target : TarPath String) : TarEntry String :=
  ⟨[.normal name], .symlink (some target)⟩

/-- `s -> .`, and `t -> s/..`, which is written to stay inside and leads to the folder above. -/
def climbingArchive : List (Except Unit (TarEntry String)) :=
  [.ok (linkEntry "s" [.curDir]), .ok (linkEntry "t" [.normal "s", .parentDir])]

theorem link_through_link_escapes :
    ∃ disk', unpackContained plainSystem stageFolder (fun _ => none) climbingArchive = .ok disk' ∧
      disk' (stageFolder ++ ["t"]) = some (.link [.normal "s", .parentDir]) ∧
      Resolves disk' stageFolder [.normal "s", .parentDir] ["home"] ∧
      ¬stageFolder <+: ["home"] := by
  refine ⟨_, rfl, rfl, ?_, by decide⟩
  have hfirst : Function.update (Function.update (fun _ => none) (stageFolder ++ ["s"])
      (some (Node.link [.curDir]))) (stageFolder ++ ["t"])
        (some (.link [.normal "s", .parentDir])) (stageFolder ++ ["s"]) =
      some (.link [.curDir]) := by decide
  exact .follow hfirst (.stay (.up (.done _)))

/-- `a -> b` and `b -> .`, a link that leads back to the folder by way of another. -/
def chainedArchive : List (Except Unit (TarEntry String)) :=
  [.ok (linkEntry "a" [.normal "b"]), .ok (linkEntry "b" [.curDir])]

theorem chained_links_stay_inside :
    ∃ disk', unpackContained plainSystem stageFolder (fun _ => none) chainedArchive = .ok disk' ∧
      ∀ place, Resolves disk' stageFolder [.normal "b"] place → stageFolder <+: place := by
  have hentries : ∀ entry : TarEntry String, .ok entry ∈ chainedArchive →
      ∃ name target, entry = linkEntry name target ∧ ∀ c ∈ target, c.descends := by
    intro entry hmem
    rw [chainedArchive, List.mem_cons, List.mem_singleton] at hmem
    obtain h | h := hmem
    · exact ⟨"a", _, Except.ok.inj h, by simp [Component.descends]⟩
    · exact ⟨"b", _, Except.ok.inj h, by simp [Component.descends]⟩
  have hgood : Straightforward stageFolder chainedArchive := by
    refine ⟨fun entry target hmem _ q hq => ?_, fun entry target hmem hkind front c back hsplit hc =>
      ?_, fun entry source hmem hkind => ?_⟩ <;>
      obtain ⟨name, made, rfl, hmade⟩ := hentries entry hmem
    · -- the folder of either link is the root of the archive
      cases hq
    · obtain rfl := Option.some.inj (EntryKind.symlink.inj hkind)
      rw [hsplit] at hmade
      rw [hmade c (by simp)] at hc
      cases hc
    · cases hkind
  obtain ⟨disk', hunpack, hlink⟩ : ∃ disk', unpackContained plainSystem stageFolder
      (fun _ => none) chainedArchive = .ok disk' ∧
        disk' (stageFolder ++ ["a"]) = some (.link [.normal "b"]) := ⟨_, rfl, by decide⟩
  exact ⟨disk', hunpack, fun place hplace => unpacked_links_stay_inside hgood
    (fun _ _ _ h => by cases h) hunpack (List.prefix_append _ _) hlink hplace⟩

end GpgFrontend.Rpgp
