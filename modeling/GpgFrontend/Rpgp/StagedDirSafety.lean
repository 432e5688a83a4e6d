import Mathlib.Data.List.TakeWhile
import GpgFrontend.Rpgp.StagedDir

/-!
# What a failed commit leaves in the output directory

`mergeSteps` lists the steps of a merge in order, from the two directories as they are at first:
an entry moved, with what it replaces, or a step that fails. A merge stops at the first step
that fails, and nothing undoes the moves before it.

- `mergeInto_merged`: a merge comes to its end when no step fails, as the overlay of the two trees.
- `archive_all_or_nothing_iff`: **when a failed run leaves the output alone.**
-/

namespace GpgFrontend

namespace Rpgp

variable {β : Type}

/-! ## The steps of a merge -/

inductive MergeStep (β : Type) where
  /-- An entry takes the place of what had its name. -/
  | moves (old : Option (FsNode β)) (new : FsNode β)
  | fails

def MergeStep.isMove : MergeStep β → Bool
  | .moves _ _ => true
  | .fails => false

/-- What is moved is what was there. -/
def MergeStep.Trivial : MergeStep β → Prop
  | .moves old new => old = some new
  | .fails => True

section

variable (F : MergeFaults)

def renameSteps (path : List String) (name : String) (node : FsNode β)
    (dst : List (String × FsNode β)) : List (MergeStep β) :=
  if F.rename path || !renameAllowed node (FsNode.find name dst) then [.fails]
  else [.moves (FsNode.find name dst) node]

mutual

def entriesSteps (path : List String) :
    List (String × FsNode β) → List (String × FsNode β) → List (MergeStep β)
  | [], _ => if F.listEnd path then [.fails] else []
  | entry :: rest, dst => entrySteps path entry dst ++ entriesSteps path rest dst

def entrySteps (path : List String) :
    String × FsNode β → List (String × FsNode β) → List (MergeStep β)
  | (name, node), dst =>
    if F.entry (path ++ [name]) || F.fileType (path ++ [name]) then [.fails]
    else nodeSteps (path ++ [name]) name node dst

def nodeSteps (path : List String) (name : String) :
    FsNode β → List (String × FsNode β) → List (MergeStep β)
  | .dir inside, dst =>
    match if F.metadata path then none else FsNode.find name dst with
    | some (.dir old) => if F.readDir path then [.fails] else entriesSteps path inside old
    | _ => renameSteps F path name (.dir inside) dst
  | .file content, dst => renameSteps F path name (.file content) dst
  | .link content, dst => renameSteps F path name (.link content) dst

end

/-- The steps of a merge in order, those past the first failure included. -/
def mergeSteps (src dst : List (String × FsNode β)) : List (MergeStep β) :=
  if F.readDir [] then [.fails] else entriesSteps F [] src dst

end

/-- Every step succeeds. -/
def NoneFails (l : List (MergeStep β)) : Prop := l.all MergeStep.isMove = true

/-- Up to the first failure, nothing is moved but over itself. -/
def UnchangedUntilFailure (l : List (MergeStep β)) : Prop :=
  ∀ s ∈ l.takeWhile MergeStep.isMove, s.Trivial

variable {l m : List (MergeStep β)}

theorem noneFails_append : NoneFails (l ++ m) ↔ NoneFails l ∧ NoneFails m := by
  simp [NoneFails]

theorem unchanged_append_of_noneFails (h : NoneFails l) :
    UnchangedUntilFailure (l ++ m) ↔ UnchangedUntilFailure l ∧ UnchangedUntilFailure m := by
  have hall : l.takeWhile MergeStep.isMove = l :=
    List.takeWhile_eq_self_iff.2 fun s hs => List.all_eq_true.1 h s hs
  have happ : (l ++ m).takeWhile MergeStep.isMove = l ++ m.takeWhile MergeStep.isMove :=
    List.takeWhile_append_of_pos fun s hs => List.all_eq_true.1 h s hs
  simp only [UnchangedUntilFailure, happ, hall, List.forall_mem_append]

theorem unchanged_append_of_fails (h : ¬ NoneFails l) :
    UnchangedUntilFailure (l ++ m) ↔ UnchangedUntilFailure l := by
  have htake : (l ++ m).takeWhile MergeStep.isMove = l.takeWhile MergeStep.isMove := by
    induction l with
    | nil => exact absurd (by simp [NoneFails]) h
    | cons s l ih =>
      cases s with
      | fails => rfl
      | moves old new =>
        rw [List.cons_append, List.takeWhile_cons_of_pos rfl, List.takeWhile_cons_of_pos rfl, ih]
        intro hl
        exact h (by simpa [NoneFails, MergeStep.isMove] using hl)
  simp only [UnchangedUntilFailure, htake]

/-! ## One entry -/

section

variable {F : MergeFaults} {path : List String} {name : String} {node : FsNode β}
  {dst : List (String × FsNode β)}

/-- What is proved of the merge of one node, at its name in the target directory. -/
structure NodeMerged (name : String) (node : FsNode β) (dst : List (String × FsNode β))
    (steps : List (MergeStep β)) (merged : Bool × List (String × FsNode β)) : Prop where
  ok : merged.1 = true ↔ NoneFails steps
  /-- Only its name is touched. -/
  touched : merged.2 = dst ∨ ∃ after, merged.2 = FsNode.put name after dst
  same : merged.2 = dst ↔ UnchangedUntilFailure steps
  overlay : merged.1 = true → ∃ after, FsNode.find name merged.2 = some after ∧
    ∀ q, after.kindAt q = (node.kindAt q).or ((FsNode.find name dst).bind (FsNode.kindAt q))

theorem renameAllowed_kindAt {target : Option (FsNode β)} (h : renameAllowed node target = true)
    (q : List String) : node.kindAt q = (node.kindAt q).or (target.bind (FsNode.kindAt q)) := by
  cases q with
  | nil => rfl
  | cons x q =>
    have hnone : target.bind (FsNode.kindAt (x :: q)) = none := by
      cases target with
      | none => rfl
      | some t =>
        cases t with
        | file content => rfl
        | link content => rfl
        | dir inside =>
          cases node with
          | file content => cases h
          | link content => cases h
          | dir _ =>
            obtain rfl : inside = [] := List.isEmpty_iff.1 h
            rfl
    rw [hnone, Option.or_none]

theorem renameInto_merged :
    NodeMerged name node dst (renameSteps F path name node dst) (renameInto F path name node dst) := by
  rw [renameInto, renameSteps]
  by_cases h : (F.rename path || !renameAllowed node (FsNode.find name dst)) = true
  · rw [if_pos h, if_pos h]
    refine ⟨?_, .inl rfl, ?_, fun hok => by cases hok⟩
    · simp [NoneFails, MergeStep.isMove]
    · simp [UnchangedUntilFailure, MergeStep.isMove]
  · rw [if_neg h, if_neg h]
    have hallowed : renameAllowed node (FsNode.find name dst) = true := by
      simp only [Bool.or_eq_true, Bool.not_eq_true', not_or, Bool.not_eq_false] at h
      exact h.2
    refine ⟨?_, .inr ⟨node, rfl⟩, ?_, fun _ => ⟨node, FsNode.find_put_self, ?_⟩⟩
    · simp [NoneFails, MergeStep.isMove]
    · rw [FsNode.put_eq_self_iff, UnchangedUntilFailure, List.takeWhile_cons_of_pos rfl,
        List.takeWhile_nil, List.forall_mem_singleton]
      exact Iff.rfl
    · exact renameAllowed_kindAt hallowed

/-- A node that is no directory is renamed. -/
theorem mergeNode_leaf (hleaf : ∀ inside, node ≠ .dir inside) :
    mergeNode F path name node dst = renameInto F path name node dst ∧
      nodeSteps F path name node dst = renameSteps F path name node dst := by
  cases node with
  | file content => exact ⟨rfl, rfl⟩
  | link content => exact ⟨rfl, rfl⟩
  | dir inside => exact absurd rfl (hleaf inside)

end

/-! ## All entries -/

section

variable {F : MergeFaults}

/-- What is proved of the merge of a list of entries. -/
structure EntriesMerged (src dst : List (String × FsNode β)) (steps : List (MergeStep β))
    (merged : Bool × List (String × FsNode β)) : Prop where
  ok : merged.1 = true ↔ NoneFails steps
  untouched : ∀ name ∉ src.map Prod.fst, FsNode.find name merged.2 = FsNode.find name dst
  same : merged.2 = dst ↔ UnchangedUntilFailure steps
  overlay : merged.1 = true → ∀ q,
    (FsNode.dir merged.2).kindAt q = ((FsNode.dir src).kindAt q).or ((FsNode.dir dst).kindAt q)

variable {dst : List (String × FsNode β)}

/-- A directory over a directory, when the entries inside it merge so. -/
theorem mergeNode_dir_merged {path : List String} {name : String}
    {inside : List (String × FsNode β)}
    (h : ∀ old, EntriesMerged inside old (entriesSteps F path inside old)
      (mergeEntries F path inside old)) :
    NodeMerged name (.dir inside) dst (nodeSteps F path name (.dir inside) dst)
      (mergeNode F path name (.dir inside) dst) := by
  rw [nodeSteps, mergeNode]
  generalize htarget : (if F.metadata path then none else FsNode.find name dst) = target
  rcases target with _ | (content | content | old)
  · exact renameInto_merged
  · exact renameInto_merged
  · exact renameInto_merged
  · have hfind : FsNode.find name dst = some (.dir old) := by
      split at htarget
      · cases htarget
      · exact htarget
    by_cases hread : F.readDir path = true
    · simp only [hread, if_true]
      refine ⟨?_, .inl rfl, ?_, fun hok => by cases hok⟩
      · simp [NoneFails, MergeStep.isMove]
      · simp [UnchangedUntilFailure, MergeStep.isMove]
    · simp only [if_neg hread]
      obtain ⟨hok, -, hsame, hoverlay⟩ := h old
      refine ⟨hok, .inr ⟨_, rfl⟩, ?_, fun hm => ⟨_, FsNode.find_put_self, fun q => ?_⟩⟩
      · rw [FsNode.put_eq_self_iff, hfind, Option.some.injEq, FsNode.dir.injEq, eq_comm, hsame]
      · rw [hoverlay hm q, hfind]
        rfl

theorem entry_merged {path : List String} {name : String} {node : FsNode β}
    (hnode : NodeMerged name node dst (nodeSteps F (path ++ [name]) name node dst)
      (mergeNode F (path ++ [name]) name node dst)) :
    NodeMerged name node dst (entrySteps F path (name, node) dst)
      (mergeEntry F path (name, node) dst) := by
  rw [entrySteps, mergeEntry]
  by_cases hfault : (F.entry (path ++ [name]) || F.fileType (path ++ [name])) = true
  · rw [if_pos hfault, if_pos hfault]
    refine ⟨?_, .inl rfl, ?_, fun hok => by cases hok⟩
    · simp [NoneFails, MergeStep.isMove]
    · simp [UnchangedUntilFailure, MergeStep.isMove]
  · rw [if_neg hfault, if_neg hfault]
    exact hnode

/-- The steps of an entry depend on what has its name. -/
theorem nodeSteps_congr {path : List String} {name : String} {node : FsNode β}
    {dst' : List (String × FsNode β)} (h : FsNode.find name dst' = FsNode.find name dst) :
    nodeSteps F path name node dst' = nodeSteps F path name node dst := by
  cases node <;> simp only [nodeSteps, renameSteps, h]

theorem entriesSteps_congr {path : List String} {src dst' : List (String × FsNode β)}
    (h : ∀ name ∈ src.map Prod.fst, FsNode.find name dst' = FsNode.find name dst) :
    entriesSteps F path src dst' = entriesSteps F path src dst := by
  induction src with
  | nil => rfl
  | cons entry rest ih =>
    obtain ⟨name, node⟩ := entry
    have hrest := ih fun other hother => h other (List.mem_cons_of_mem name hother)
    simp only [entriesSteps, entrySteps, hrest, nodeSteps_congr (h name List.mem_cons_self)]

/-- Other names read the same after a step at one name. -/
theorem NodeMerged.find_ne {name other : String} {node : FsNode β} {steps : List (MergeStep β)}
    {merged : Bool × List (String × FsNode β)} (h : NodeMerged name node dst steps merged)
    (hne : other ≠ name) : FsNode.find other merged.2 = FsNode.find other dst := by
  rcases h.touched with heq | ⟨after, heq⟩
  · rw [heq]
  · rw [heq, FsNode.find_put_ne hne]

/-- The merge of the first entry, and then of the rest over what it left. -/
theorem EntriesMerged.cons {path : List String} {name : String} {node : FsNode β}
    {rest dst : List (String × FsNode β)} (hnew : name ∉ rest.map Prod.fst)
    (hnode : NodeMerged name node dst (nodeSteps F (path ++ [name]) name node dst)
      (mergeNode F (path ++ [name]) name node dst))
    (hrest : ∀ dst', EntriesMerged rest dst' (entriesSteps F path rest dst')
      (mergeEntries F path rest dst')) :
    EntriesMerged ((name, node) :: rest) dst (entriesSteps F path ((name, node) :: rest) dst)
      (mergeEntries F path ((name, node) :: rest) dst) := by
  have hentry := entry_merged hnode
  rw [entriesSteps, mergeEntries]
  generalize mergeEntry F path (name, node) dst = moved at hentry ⊢
  generalize entrySteps F path (name, node) dst = steps at hentry ⊢
  have hnames : ∀ other ∈ rest.map Prod.fst,
      FsNode.find other moved.2 = FsNode.find other dst :=
    fun other hother => hentry.find_ne fun heq => hnew (heq ▸ hother)
  obtain ⟨hok, hfrom, hsame, hoverlay⟩ := hrest moved.2
  rw [entriesSteps_congr hnames] at hok hsame
  by_cases hmoved : moved.1 = true
  case neg =>
    have hfails : ¬ NoneFails steps := fun hnone => hmoved (hentry.ok.2 hnone)
    simp only [if_neg hmoved]
    refine ⟨?_, fun other hother => hentry.find_ne fun heq => hother (by simp [heq]), ?_,
      fun h => absurd h hmoved⟩
    · simp [hmoved, noneFails_append, hfails]
    · rw [unchanged_append_of_fails hfails]
      exact hentry.same
  have hnone := hentry.ok.1 hmoved
  simp only [hmoved, if_true]
  refine ⟨?_, fun other hother => ?_, ?_, fun h q => ?_⟩
  · rw [noneFails_append, hok]
    exact ⟨fun h => ⟨hnone, h⟩, fun h => h.2⟩
  · rw [List.map_cons, List.mem_cons, not_or] at hother
    rw [hfrom other hother.2, hentry.find_ne hother.1]
  · rw [unchanged_append_of_noneFails hnone, ← hentry.same, ← hsame]
    constructor
    · intro heq
      -- the rest leaves the name of the first entry alone
      have hmid : moved.2 = dst := by
        rcases hentry.touched with hself | ⟨after, hput⟩
        · exact hself
        · have hafter := hfrom name hnew
          rw [heq, hput, FsNode.find_put_self] at hafter
          rw [hput, FsNode.put_eq_self_iff, hafter]
      exact ⟨hmid, heq.trans hmid.symm⟩
    · rintro ⟨hmid, heq⟩
      exact heq.trans hmid
  · cases q with
    | nil => rfl
    | cons other q =>
      rw [hoverlay h, FsNode.kindAt_dir_cons, FsNode.kindAt_dir_cons, FsNode.kindAt_dir_cons,
        FsNode.kindAt_dir_cons, FsNode.find]
      by_cases hother : name = other
      · subst hother
        obtain ⟨after, hafter, hkind⟩ := hentry.overlay hmoved
        rw [if_pos rfl, FsNode.find_eq_none hnew, hafter]
        exact hkind q
      · rw [if_neg hother, hentry.find_ne (Ne.symm hother)]

theorem mergeEntries_merged {src : List (String × FsNode β)} (h : FsNode.UniqueNames src) :
    ∀ (path : List String) (dst : List (String × FsNode β)),
      EntriesMerged src dst (entriesSteps F path src dst) (mergeEntries F path src dst) := by
  induction h with
  | nil =>
    intro path dst
    refine ⟨?_, fun _ _ => rfl, ?_, fun _ q => ?_⟩
    · cases hend : F.listEnd path <;> simp [mergeEntries, entriesSteps, hend, NoneFails, MergeStep.isMove]
    · cases hend : F.listEnd path <;>
        simp [mergeEntries, entriesSteps, hend, UnchangedUntilFailure, MergeStep.isMove]
    · cases q with
      | nil => rfl
      | cons name q => rfl
  | leaf hnew hleaf _ ih =>
    intro path dst
    refine EntriesMerged.cons hnew ?_ (ih path)
    rw [(mergeNode_leaf hleaf).1, (mergeNode_leaf hleaf).2]
    exact renameInto_merged
  | dir hnew _ _ ihInside ih =>
    intro path dst
    exact EntriesMerged.cons hnew (mergeNode_dir_merged (ihInside _)) (ih path)

end

/-- The merge at the output directory. -/
theorem mergeInto_merged (F : MergeFaults) (tree : StagedTree β) (dst : List (String × FsNode β)) :
    EntriesMerged tree.entries dst (mergeSteps F tree.entries dst)
      (mergeInto F tree.entries dst) := by
  rw [mergeSteps, mergeInto]
  by_cases hread : F.readDir [] = true
  · rw [if_pos hread, if_pos hread]
    refine ⟨?_, fun _ _ => rfl, ?_, fun hok => by cases hok⟩
    · simp [NoneFails, MergeStep.isMove]
    · simp [UnchangedUntilFailure, MergeStep.isMove]
  · rw [if_neg hread, if_neg hread]
    exact mergeEntries_merged tree.unique [] dst

/-! ## The operation -/

section

variable {Result : Type} (site : ExtractionSite β) (steps : ArchiveSteps β Result)

/-- What has a name in the parent directory. -/
def entryOf (parent : Option (Folder β)) (name : String) : Option (FsNode β) :=
  (parent.getD ∅).lookup name

/-- The claim on one run: on an error the output is as it was, on success it is the old output
overlaid with the tree of the archive, and the stage is gone. -/
structure AllOrNothing (after : Except GfrStatus Result × Option (Folder β)) : Prop where
  error : ∀ status, after.1 = .error status →
    entryOf after.2 site.dest = entryOf site.parent site.dest
  ok : ∀ result, after.1 = .ok result → ∃ tree output, steps.unpack = some tree ∧
    entryOf after.2 site.dest = some output ∧
    ∀ q, output.kindAt q = ((FsNode.dir tree.entries).kindAt q).or
      ((entryOf site.parent site.dest).bind (FsNode.kindAt q))
  stage : entryOf after.2 site.stage = none

/-- The stage is made. -/
def stageMade : Bool := !steps.openFails && !steps.createParentFails && !steps.createStageFails

/-- With the stage made, the archive is decrypted. -/
def reachesUnpack : Bool :=
  !steps.createTreeFails && !steps.createTempFails && !steps.seekFails
    && (match steps.decrypt with
      | .ok _ => true
      | .error _ => false)

/-- The tree that is renamed or merged. -/
def treeToCommit : Option (StagedTree β) :=
  if stageMade steps && reachesUnpack steps && !steps.metadataFails then steps.unpack else none

/-- The stage can be removed, and where an output directory is merged into and a step of the
merge fails, no move before it changed anything. -/
structure FailsCleanly : Prop where
  removed : stageMade steps = true → steps.removeStage = none
  merged : ∀ tree old, treeToCommit steps = some tree →
    entryOf site.parent site.dest = some (.dir old) →
    ¬ NoneFails (mergeSteps steps.merge tree.entries old) →
    UnchangedUntilFailure (mergeSteps steps.merge tree.entries old)

end

section

variable {Result : Type} {site : ExtractionSite β} {steps : ArchiveSteps β Result}

/-- A commit that succeeds overlays the output. -/
theorem commit_ok {tree : StagedTree β} {parent : Folder β}
    (h : (commit site steps tree parent).1 = true) :
    ∃ output, (commit site steps tree parent).2.lookup site.dest = some output ∧
      ∀ q, output.kindAt q = ((FsNode.dir tree.entries).kindAt q).or
        ((parent.lookup site.dest).bind (FsNode.kindAt q)) := by
  rw [commit] at h ⊢
  by_cases hmeta : steps.metadataFails = true
  · simp [hmeta] at h
  simp only [if_neg hmeta] at h ⊢
  cases hdest : parent.lookup site.dest with
  | none =>
    simp only [hdest] at h ⊢
    by_cases hrename : steps.renameTreeFails = true
    · simp [hrename] at h
    · simp only [if_neg hrename]
      exact ⟨_, AList.lookup_insert parent, fun q => by simp⟩
  | some node =>
    cases node with
    | file content => simp [hdest] at h
    | link content => simp [hdest] at h
    | dir old =>
      simp only [hdest] at h ⊢
      exact ⟨_, AList.lookup_insert parent, (mergeInto_merged steps.merge tree old).overlay h⟩

variable (site steps) in
/-- A commit that fails leaves the output as it was exactly if no move before the failure
changed anything. -/
theorem commit_error_iff (tree : StagedTree β) (parent : Folder β) :
    ((commit site steps tree parent).1 = false →
        (commit site steps tree parent).2.lookup site.dest = parent.lookup site.dest) ↔
      (steps.metadataFails = false → ∀ old, parent.lookup site.dest = some (.dir old) →
        ¬ NoneFails (mergeSteps steps.merge tree.entries old) →
        UnchangedUntilFailure (mergeSteps steps.merge tree.entries old)) := by
  rw [commit]
  by_cases hmeta : steps.metadataFails = true
  · simp [hmeta]
  rw [Bool.not_eq_true] at hmeta
  simp only [hmeta, Bool.false_eq_true, if_false, forall_const]
  cases hdest : parent.lookup site.dest with
  | none => by_cases hrename : steps.renameTreeFails = true <;> simp [hrename, hdest]
  | some node =>
    cases node with
    | file content => simp [hdest]
    | link content => simp [hdest]
    | dir old =>
      have hmerged := mergeInto_merged steps.merge tree old
      simp only [Option.some.injEq, FsNode.dir.injEq, AList.lookup_insert, forall_eq']
      rw [hmerged.same, ← hmerged.ok, Bool.not_eq_true]

variable (site steps) in
/-- The body either ends before the commit, with nothing changed, or with the commit. -/
theorem decryptIntoStage_cases (parent : Folder β) :
    ((reachesUnpack steps = false ∨ steps.unpack = none) ∧
      ∃ status, decryptIntoStage site steps parent = (.error status, parent)) ∨
    ∃ tree result, reachesUnpack steps = true ∧ steps.unpack = some tree ∧
      decryptIntoStage site steps parent
        = (if (commit site steps tree parent).1 then .ok result else .error .errorIo,
          (commit site steps tree parent).2) := by
  rw [decryptIntoStage, reachesUnpack]
  cases hTree : steps.createTreeFails
  case true => exact .inl ⟨by simp, _, rfl⟩
  cases hTemp : steps.createTempFails
  case true => exact .inl ⟨by simp, _, rfl⟩
  cases hdecrypt : steps.decrypt with
  | error status => exact .inl ⟨by simp, _, rfl⟩
  | ok result =>
    cases hSeek : steps.seekFails
    case true => exact .inl ⟨by simp, _, rfl⟩
    cases hunpack : steps.unpack with
    | none => exact .inl ⟨by simp, _, rfl⟩
    | some tree => exact .inr ⟨tree, result, rfl, rfl, rfl⟩

@[simp] theorem lookup_dropStage_dest (parent : Folder β) :
    (dropStage site steps parent).lookup site.dest = parent.lookup site.dest := by
  rw [dropStage]
  cases steps.removeStage with
  | none => exact AList.lookup_erase_ne site.stage_ne_dest.symm
  | some left => exact AList.lookup_insert_ne site.stage_ne_dest.symm

theorem lookup_dropStage_stage {parent : Folder β} :
    (dropStage site steps parent).lookup site.stage = none ↔ steps.removeStage = none := by
  rw [dropStage]
  cases steps.removeStage with
  | none => simp
  | some left => simp

variable (site) in
/-- Before the stage is made nothing is touched. -/
theorem decryptArchiveStaged_unmade (h : stageMade steps = false) :
    ∃ status, (decryptArchiveStaged site steps).1 = .error status ∧
      ∀ name, entryOf (decryptArchiveStaged site steps).2 name = entryOf site.parent name := by
  rw [decryptArchiveStaged]
  by_cases hOpen : steps.openFails = true
  · exact ⟨.errorInvalidInput, by simp [hOpen]⟩
  by_cases hParent : steps.createParentFails = true
  · exact ⟨.errorIo, by simp [hOpen, hParent]⟩
  by_cases hStage : steps.createStageFails = true
  · exact ⟨.errorIo, by simp [hOpen, hParent, hStage, entryOf]⟩
  · simp [stageMade, hOpen, hParent, hStage] at h

variable (site) in
theorem decryptArchiveStaged_made (h : stageMade steps = true) :
    let staged := decryptIntoStage site steps
      ((site.parent.getD ∅).insert site.stage (.dir []))
    decryptArchiveStaged site steps = (staged.1, some (dropStage site steps staged.2)) := by
  simp only [stageMade, Bool.and_eq_true, Bool.not_eq_true'] at h
  obtain ⟨⟨hOpen, hParent⟩, hStage⟩ := h
  simp [decryptArchiveStaged, hOpen, hParent, hStage]

theorem FailsCleanly.iff_of_made (h : stageMade steps = true) :
    FailsCleanly site steps ↔ steps.removeStage = none ∧
      ∀ tree old, treeToCommit steps = some tree →
        entryOf site.parent site.dest = some (.dir old) →
        ¬ NoneFails (mergeSteps steps.merge tree.entries old) →
        UnchangedUntilFailure (mergeSteps steps.merge tree.entries old) :=
  ⟨fun hclean => ⟨hclean.removed h, hclean.merged⟩, fun ⟨hremoved, hmerged⟩ =>
    ⟨fun _ => hremoved, hmerged⟩⟩

theorem treeToCommit_eq_none (h : reachesUnpack steps = false ∨ steps.unpack = none) :
    treeToCommit steps = none := by
  rw [treeToCommit]
  rcases h with hreaches | hunpack
  · simp [hreaches]
  · rw [hunpack, ite_self]

theorem treeToCommit_eq {tree : StagedTree β} (hmade : stageMade steps = true)
    (hreaches : reachesUnpack steps = true) (hunpack : steps.unpack = some tree) :
    treeToCommit steps = if steps.metadataFails then none else some tree := by
  rw [treeToCommit, hmade, hreaches, hunpack]
  cases steps.metadataFails <;> rfl

/-- **When the decryption of an archive is all or nothing.** Exactly if the stage can be removed
and a merge that fails has not moved an entry, but over itself, before. -/
theorem archive_all_or_nothing_iff (site : ExtractionSite β) (steps : ArchiveSteps β Result) :
    AllOrNothing site steps (decryptArchiveStaged site steps) ↔ FailsCleanly site steps := by
  by_cases hmade : stageMade steps = true
  case neg =>
    rw [Bool.not_eq_true] at hmade
    obtain ⟨status, hresult, hentry⟩ := decryptArchiveStaged_unmade site hmade
    refine ⟨fun _ => ⟨fun h => ?_, fun tree old h => ?_⟩, fun _ => ⟨fun _ _ => hentry _, ?_, ?_⟩⟩
    · rw [hmade] at h
      cases h
    · simp [treeToCommit, hmade] at h
    · intro result h
      rw [hresult] at h
      cases h
    · rw [hentry]
      exact site.stage_new
  rw [FailsCleanly.iff_of_made hmade]
  let parent := (site.parent.getD ∅).insert site.stage (.dir [])
  have hdest : parent.lookup site.dest = entryOf site.parent site.dest :=
    AList.lookup_insert_ne site.stage_ne_dest.symm
  have hafter := decryptArchiveStaged_made site hmade
  rcases decryptIntoStage_cases site steps parent with
    ⟨hend, status, hstaged⟩ | ⟨tree, result, hreaches, hunpack, hstaged⟩
  · -- ended before the commit
    have hnone : treeToCommit steps = none := treeToCommit_eq_none hend
    rw [hafter, hstaged]
    constructor
    · intro h
      refine ⟨lookup_dropStage_stage.1 h.stage, fun tree old htree => ?_⟩
      rw [hnone] at htree
      cases htree
    · rintro ⟨hremoved, -⟩
      refine ⟨fun _ _ => ?_, fun _ h => ?_, lookup_dropStage_stage.2 hremoved⟩
      · exact (lookup_dropStage_dest parent).trans hdest
      · cases h
  · have htree : treeToCommit steps = if steps.metadataFails then none else some tree :=
      treeToCommit_eq hmade hreaches hunpack
    rw [hafter, hstaged]
    have hcommit := commit_error_iff site steps tree parent
    rw [hdest] at hcommit
    constructor
    · intro h
      refine ⟨lookup_dropStage_stage.1 h.stage, fun tree' old htree' hold hfails => ?_⟩
      rw [htree] at htree'
      cases hmeta : steps.metadataFails with
      | true => simp [hmeta] at htree'
      | false =>
        obtain rfl : tree = tree' := by simpa [hmeta] using htree'
        refine hcommit.1 (fun hfail => ?_) hmeta old hold hfails
        have herror := h.error .errorIo (by simp [hfail])
        exact (lookup_dropStage_dest _).symm.trans herror
    · rintro ⟨hremoved, hclean⟩
      refine ⟨fun status hstatus => ?_, fun result' hresult => ?_, lookup_dropStage_stage.2 hremoved⟩
      · have hfail : (commit site steps tree parent).1 = false := by
          cases hok : (commit site steps tree parent).1 with
          | false => rfl
          | true => simp [hok] at hstatus
        refine (lookup_dropStage_dest _).trans (hcommit.2 (fun hmeta old hold => ?_) hfail)
        exact hclean tree old (by rw [htree, hmeta]; rfl) hold
      · have hok : (commit site steps tree parent).1 = true := by
          cases hok : (commit site steps tree parent).1 with
          | true => rfl
          | false => simp [hok] at hresult
        obtain ⟨output, houtput, hkind⟩ := commit_ok hok
        refine ⟨tree, output, hunpack, (lookup_dropStage_dest _).trans houtput, fun q => ?_⟩
        rw [hkind q, hdest]

end

/-! ## A directory in the way of a file -/

def noFaults : MergeFaults where
  readDir _ := false
  entry _ := false
  listEnd _ := false
  metadata _ := false
  fileType _ := false
  rename _ := false

/-- An output directory that holds a directory `b`. -/
def sampleSite : ExtractionSite Nat where
  parent := some ((∅ : Folder Nat).insert "out" (.dir [("b", .dir [("keep", .file 0)])]))
  dest := "out"
  stage := ".gf-extract-x"
  stage_ne_dest := by decide
  stage_new := rfl

/-- An archive of two files `a` and `b`. -/
def sampleTree : StagedTree Nat where
  entries := [("a", .file 1), ("b", .file 2)]
  unique := .leaf (by simp) (by simp) (.leaf (by simp) (by simp) .nil)

/-- No step fails but those that have to. -/
def sampleSteps : ArchiveSteps Nat Unit where
  openFails := false
  createParentFails := false
  createStageFails := false
  createTreeFails := false
  createTempFails := false
  decrypt := .ok ()
  seekFails := false
  unpack := some sampleTree
  metadataFails := false
  renameTreeFails := false
  merge := noFaults
  removeStage := none

/-- The file `a` is moved into the output, and the directory `b` refuses the file `b`. The error
leaves `a` there. -/
theorem half_merged_output :
    (decryptArchiveStaged sampleSite sampleSteps).1 = .error .errorIo ∧
      entryOf sampleSite.parent "out" = some (.dir [("b", .dir [("keep", .file 0)])]) ∧
      entryOf (decryptArchiveStaged sampleSite sampleSteps).2 "out"
        = some (.dir [("b", .dir [("keep", .file 0)]), ("a", .file 1)]) ∧
      ¬ AllOrNothing sampleSite sampleSteps (decryptArchiveStaged sampleSite sampleSteps) := by
  have herror : (decryptArchiveStaged sampleSite sampleSteps).1 = .error .errorIo := by decide
  have hbefore : entryOf sampleSite.parent "out"
      = some (.dir [("b", .dir [("keep", .file 0)])]) := rfl
  have hafter : entryOf (decryptArchiveStaged sampleSite sampleSteps).2 "out"
      = some (.dir [("b", .dir [("keep", .file 0)]), ("a", .file 1)]) := rfl
  refine ⟨herror, hbefore, hafter, fun h => ?_⟩
  have hsame := h.error _ herror
  rw [show sampleSite.dest = "out" from rfl, hbefore, hafter] at hsame
  simp at hsame

end Rpgp

end GpgFrontend
