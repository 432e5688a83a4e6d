import Mathlib.Data.List.Basic

/-!
# Paths through symbolic links

- `Disk ν`: what is at each place, with symbolic links.
- `Resolves disk pos path place`: where a path leads from a folder, links followed. A path that
  leads nowhere, or round in a circle, resolves to nothing.
- `walk`, `visited`: where a path would lead if no name on it were a link.
- `Straight disk pos path`: no component that climbs comes after the name of a link.
- `Resolves.eq_walk`, `Resolves.inside`: without links on it a path leads where it says; with links
  that are straight and stay inside a folder as they are written, it stays inside.
-/

namespace GpgFrontend.LinkResolution

/-- A component of a path, as `std::path` tells them apart. -/
inductive Component (ν : Type) where
  | windowsPrefix
  | rootDir
  | curDir
  | parentDir
  | normal (name : ν)
  deriving DecidableEq

namespace Component

variable {ν : Type}

/-- The component leads to where it starts or to something in there. -/
def descends : Component ν → Bool
  | curDir => true
  | normal _ => true
  | _ => false

/-- The component starts again from a root. -/
def isRoot : Component ν → Bool
  | windowsPrefix => true
  | rootDir => true
  | _ => false

end Component

inductive Node (ν : Type) where
  | file
  | dir
  | link (target : List (Component ν))
  deriving DecidableEq

/-- What is at each place; a place is the names that lead to it from the root. -/
abbrev Disk (ν : Type) : Type := List ν → Option (Node ν)

variable {ν : Type}

inductive Resolves (disk : Disk ν) : List ν → List (Component ν) → List ν → Prop where
  | done (pos : List ν) : Resolves disk pos [] pos
  | start {pos place : List ν} {c : Component ν} {path : List (Component ν)} (hroot : c.isRoot) :
      Resolves disk [] path place → Resolves disk pos (c :: path) place
  | stay {pos place : List ν} {path : List (Component ν)} :
      Resolves disk pos path place → Resolves disk pos (.curDir :: path) place
  | up {pos place : List ν} {path : List (Component ν)} :
      Resolves disk pos.dropLast path place → Resolves disk pos (.parentDir :: path) place
  | file {pos : List ν} {name : ν} (hnode : disk (pos ++ [name]) = some .file) :
      Resolves disk pos [.normal name] (pos ++ [name])
  | down {pos place : List ν} {name : ν} {path : List (Component ν)}
      (hnode : disk (pos ++ [name]) = some .dir) :
      Resolves disk (pos ++ [name]) path place → Resolves disk pos (.normal name :: path) place
  | follow {pos place : List ν} {name : ν} {path target : List (Component ν)}
      (hnode : disk (pos ++ [name]) = some (.link target)) :
      Resolves disk pos (target ++ path) place → Resolves disk pos (.normal name :: path) place

/-! ## Where a path would lead -/

def walkOne (pos : List ν) : Component ν → List ν
  | .windowsPrefix => []
  | .rootDir => []
  | .curDir => pos
  | .parentDir => pos.dropLast
  | .normal name => pos ++ [name]

def walk (pos : List ν) (path : List (Component ν)) : List ν := path.foldl walkOne pos

/-- The places after each component. -/
def visited : List ν → List (Component ν) → List (List ν)
  | _, [] => []
  | pos, c :: path => walkOne pos c :: visited (walkOne pos c) path

@[simp] theorem walk_nil (pos : List ν) : walk pos [] = pos := rfl

@[simp] theorem walk_cons (pos : List ν) (c : Component ν) (path : List (Component ν)) :
    walk pos (c :: path) = walk (walkOne pos c) path := rfl

theorem walk_append (pos : List ν) (path path' : List (Component ν)) :
    walk pos (path ++ path') = walk (walk pos path) path' := List.foldl_append

theorem walk_concat (pos : List ν) (path : List (Component ν)) (name : ν) :
    walk pos (path ++ [.normal name]) = walk pos path ++ [name] := by
  rw [walk_append]
  rfl

theorem visited_append (pos : List ν) (path path' : List (Component ν)) :
    visited pos (path ++ path') = visited pos path ++ visited (walk pos path) path' := by
  induction path generalizing pos with
  | nil => rfl
  | cons c path ih => rw [List.cons_append, visited, ih, visited, walk_cons]; rfl

variable {path : List (Component ν)}

theorem walk_mem_visited (pos : List ν) (h : path ≠ []) : walk pos path ∈ visited pos path := by
  induction path generalizing pos with
  | nil => exact absurd rfl h
  | cons c path ih =>
    obtain rfl | hne := eq_or_ne path []
    · exact List.mem_cons_self
    · exact List.mem_cons_of_mem _ (ih (walkOne pos c) hne)

/-- As it is written, the path does not leave the folder. -/
def Contained (base pos : List ν) (path : List (Component ν)) : Prop :=
  ∀ q ∈ visited pos path, base <+: q

theorem Contained.cons {base pos : List ν} {c : Component ν} {path : List (Component ν)}
    (h : Contained base pos (c :: path)) :
    base <+: walkOne pos c ∧ Contained base (walkOne pos c) path :=
  ⟨h _ List.mem_cons_self, fun q hq => h q (List.mem_cons_of_mem _ hq)⟩

variable {base pos : List ν}

theorem Contained.append {path' : List (Component ν)} (h : Contained base pos (path ++ path')) :
    Contained base pos path ∧ Contained base (walk pos path) path' := by
  rw [Contained, visited_append, List.forall_mem_append] at h
  exact h

theorem Contained.walk (hpos : base <+: pos) (h : Contained base pos path) :
    base <+: walk pos path := by
  obtain rfl | hne := eq_or_ne path []
  · exact hpos
  · exact h _ (walk_mem_visited pos hne)

theorem contained_of_descends (hpos : base <+: pos) (h : ∀ c ∈ path, c.descends) :
    Contained base pos path := by
  induction path generalizing pos with
  | nil => exact fun q hq => by cases hq
  | cons c path ih =>
    have hstep : base <+: walkOne pos c := by
      have hc := h c List.mem_cons_self
      cases c with
      | curDir => exact hpos
      | normal name => exact hpos.trans (List.prefix_append _ _)
      | _ => cases hc
    intro q hq
    obtain rfl | hq := List.mem_cons.mp hq
    · exact hstep
    · exact ih hstep (fun c' hc' => h c' (List.mem_cons_of_mem c hc')) q hq

/-! ## Links on the way -/

/-- No link is where the path would lead. -/
def Unlinked (disk : Disk ν) (pos : List ν) (path : List (Component ν)) : Prop :=
  ∀ q ∈ visited pos path, ∀ target, disk q ≠ some (.link target)

/-- No component that climbs comes after the name of a link. -/
def Straight (disk : Disk ν) (pos : List ν) (path : List (Component ν)) : Prop :=
  ∀ front c back, path = front ++ c :: back → c.descends = false → Unlinked disk pos front

variable {disk : Disk ν}

theorem Resolves.eq_walk {place : List ν} (h : Resolves disk pos path place)
    (hno : Unlinked disk pos path) : place = walk pos path := by
  have htail {c : Component ν} {pos : List ν} {path : List (Component ν)}
      (hno : Unlinked disk pos (c :: path)) : Unlinked disk (walkOne pos c) path :=
    fun q hq => hno q (List.mem_cons_of_mem _ hq)
  induction h with
  | done => rfl
  | @start pos place c path hroot _ ih =>
    have hone : walkOne pos c = [] := by cases c <;> first | rfl | cases hroot
    rw [walk_cons, hone]
    exact ih (hone ▸ htail hno)
  | stay _ ih => exact ih (htail hno)
  | up _ ih => exact ih (htail hno)
  | file => rfl
  | down _ _ ih => exact ih (htail hno)
  | follow hnode => exact absurd hnode (hno _ List.mem_cons_self _)

theorem Straight.tail {c : Component ν} (h : Straight disk pos (c :: path)) :
    Straight disk (walkOne pos c) path :=
  fun front c' back hsplit hc q hq =>
    h (c :: front) c' back (by rw [hsplit]; rfl) hc q (List.mem_cons_of_mem _ hq)

/-- After the name of a link the path only descends. -/
theorem Straight.descends {name : ν} {target : List (Component ν)}
    (h : Straight disk pos (.normal name :: path))
    (hnode : disk (pos ++ [name]) = some (.link target)) : ∀ c ∈ path, c.descends := by
  intro c hc
  by_contra hclimbs
  rw [Bool.not_eq_true] at hclimbs
  obtain ⟨front, back, rfl⟩ := List.append_of_mem hc
  exact h (.normal name :: front) c back rfl hclimbs _ List.mem_cons_self _ hnode

/-- Put before a path that only descends, a straight path stays straight. -/
theorem Straight.append {path' : List (Component ν)} (h : Straight disk pos path)
    (hdescends : ∀ c ∈ path', c.descends) : Straight disk pos (path ++ path') := by
  intro front c back hsplit hc
  obtain ⟨more, rfl, hmore⟩ | ⟨more, rfl, hmore⟩ := List.append_eq_append_iff.mp hsplit
  · have hin : c ∈ path' := by
      rw [hmore]
      simp
    rw [hdescends c hin] at hc
    cases hc
  · cases more with
    | nil =>
      have hin : c ∈ path' := by
        rw [List.nil_append] at hmore
        rw [← hmore]
        exact List.mem_cons_self
      rw [hdescends c hin] at hc
      cases hc
    | cons x more =>
      obtain ⟨rfl, -⟩ := List.cons.inj hmore
      exact h front c more rfl hc

/-- Links that are straight and stay inside the folder as they are written lead nowhere else, and
neither does a path that is written so. -/
theorem Resolves.inside {place : List ν}
    (hlinks : ∀ p target, base <+: p → disk p = some (.link target) →
      Contained base p.dropLast target ∧ Straight disk p.dropLast target)
    (h : Resolves disk pos path place) (hpos : base <+: pos) (hcontained : Contained base pos path)
    (hstraight : Straight disk pos path) : base <+: place := by
  induction h with
  | done => exact hpos
  | @start pos place c path hroot _ ih =>
    have hone : walkOne pos c = [] := by cases c <;> first | rfl | cases hroot
    have htail := hcontained.cons
    have hstraight' := hstraight.tail
    rw [hone] at htail hstraight'
    exact ih htail.1 htail.2 hstraight'
  | stay _ ih => exact ih hpos hcontained.cons.2 hstraight.tail
  | up _ ih => exact ih hcontained.cons.1 hcontained.cons.2 hstraight.tail
  | file => exact hcontained.cons.1
  | down _ _ ih => exact ih hcontained.cons.1 hcontained.cons.2 hstraight.tail
  | @follow pos place name path target hnode _ ih =>
    have hdescends := hstraight.descends hnode
    obtain ⟨hlink, hlinkStraight⟩ := hlinks _ _ hcontained.cons.1 hnode
    rw [walkOne, List.dropLast_concat] at hlink hlinkStraight
    refine ih hpos ?_ (hlinkStraight.append hdescends)
    rw [Contained, visited_append, List.forall_mem_append]
    exact ⟨hlink, contained_of_descends (hlink.walk hpos) hdescends⟩

end GpgFrontend.LinkResolution
