import Mathlib.Data.List.AList

/-!
# Directories and what a failed step leaves in them

- `FsNode β`: a file, a link or a directory, over file contents `β`.
- `Folder β`: what one directory holds, by name. `Folder.has` is whether a name is
  taken, `Folder.land` what a step that writes to one name leaves behind, and
  `Folder.clear` the removal of everything but some kept names.
-/

namespace GpgFrontend

/-- One entry of a directory. A link carries what is read through it, which is
nothing when it is a link to a directory. -/
inductive FsNode (β : Type) where
  | file (content : β)
  | link (content : Option β)
  | dir (children : List (String × FsNode β))

/-- What a directory holds, by name. -/
abbrev Folder (β : Type) : Type := AList fun _ : String => FsNode β

variable {β : Type}

/-- What reading an entry as a file gives. -/
def FsNode.content : FsNode β → Option β
  | file content => some content
  | link content => content
  | dir _ => none

/-- The listing of an entry: nothing, when it is not a directory. -/
def FsNode.listing : FsNode β → Folder β
  | dir children => (children.map fun child => (⟨child.1, child.2⟩ : Sigma fun _ => _)).toAList
  | _ => ∅

/-! ## Paths inside a directory -/

namespace FsNode

/-- The child of that name. -/
def find (name : String) : List (String × FsNode β) → Option (FsNode β)
  | [] => none
  | (other, node) :: rest => if other = name then some node else find name rest

/-- Give a name a new node, in its place or at the end. -/
def put (name : String) (node : FsNode β) : List (String × FsNode β) → List (String × FsNode β)
  | [] => [(name, node)]
  | (other, old) :: rest =>
    if other = name then (name, node) :: rest else (other, old) :: put name node rest

/-- Create a file, a link or a directory at a path, with the directories on the way, as a writer
does on a disk that tells names apart by their characters.
A file in the way of a directory gives way to it; a link is never followed, and a
directory that holds something is never replaced. -/
def place (leaf : FsNode β) : List String → List (String × FsNode β) →
    Option (List (String × FsNode β))
  | [], _ => none
  | [name], children =>
    match find name children, leaf with
    | some (.dir _), .dir _ => some children
    | some (.dir (_ :: _)), _ => none
    | _, _ => some (put name leaf children)
  | name :: next :: rest, children =>
    match find name children with
    | some (.dir inside) =>
      (place leaf (next :: rest) inside).map fun inside => put name (.dir inside) children
    | some (.link _) => none
    | _ => (place leaf (next :: rest) []).map fun inside => put name (.dir inside) children

/-- The node at a path. -/
def findPath : List String → List (String × FsNode β) → Option (FsNode β)
  | [], _ => none
  | [name], children => find name children
  | name :: next :: rest, children =>
    match find name children with
    | some (.dir inside) => findPath (next :: rest) inside
    | _ => none

attribute [local simp] find put place findPath

variable {name other : String} {node leaf : FsNode β} {children : List (String × FsNode β)}

theorem find_put_self : find name (put name node children) = some node := by
  induction children with
  | nil => exact if_pos rfl
  | cons child rest ih =>
    rw [put]
    split
    · exact if_pos rfl
    · next hne =>
      rw [find, if_neg hne]
      exact ih

theorem find_put_ne (h : other ≠ name) : find other (put name node children) = find other children := by
  induction children with
  | nil => exact if_neg h.symm
  | cons child rest ih =>
    rw [put]
    split
    · next heq => rw [find, find, if_neg h.symm, if_neg (heq ▸ h.symm)]
    · rw [find, find, ih]

variable {path : List String} {after : List (String × FsNode β)}

/-- Only the first name of the path is touched. -/
theorem find_place_ne (h : place leaf (name :: path) children = some after) (hne : other ≠ name) :
    find other after = find other children := by
  cases path with
  | nil =>
    unfold place at h
    split at h
    · rw [← Option.some.inj h]
    · cases h
    · rw [← Option.some.inj h, find_put_ne hne]
  | cons next rest =>
    unfold place at h
    split at h
    · obtain ⟨inside, -, rfl⟩ := Option.map_eq_some_iff.mp h
      exact find_put_ne hne
    · cases h
    · obtain ⟨inside, -, rfl⟩ := Option.map_eq_some_iff.mp h
      exact find_put_ne hne

theorem put_put {a b : FsNode β} : put name b (put name a children) = put name b children := by
  induction children with
  | nil => exact if_pos rfl
  | cons child rest ih =>
    by_cases heq : child.1 = name
    · rw [put, if_pos heq, put, if_pos rfl, put, if_pos heq]
    · rw [put, if_neg heq, put, if_neg heq, put, if_neg heq, ih]

/-- Where a file can be placed, another can; and placed over the first it is as if it had
been placed at once. -/
theorem place_file_again {a : β} (b : β) (h : place (.file a) path children = some after) :
    ∃ again, place (.file b) path children = some again ∧ place (.file b) path after = some again := by
  induction path generalizing children after with
  | nil => cases h
  | cons name rest ih =>
    cases rest with
    | nil =>
      refine ⟨put name (.file b) children, ?_⟩
      unfold place at h ⊢
      rcases hfind : find name children with _ | (content | target | _ | ⟨child, inside⟩)
      all_goals rw [hfind] at h
      case some.dir.cons => cases h
      all_goals
        rw [← Option.some.inj h, find_put_self, put_put]
        exact ⟨rfl, rfl⟩
    | cons next rest =>
      unfold place at h ⊢
      rcases hfind : find name children with _ | (content | target | inside)
      all_goals rw [hfind] at h
      case some.link => cases h
      all_goals
        obtain ⟨inside', hplaced, rfl⟩ := Option.map_eq_some_iff.mp h
        obtain ⟨again, hfirst, hagain⟩ := ih hplaced
        refine ⟨put name (.dir again) children, Option.map_eq_some_iff.mpr ⟨again, hfirst, rfl⟩, ?_⟩
        rw [find_put_self]
        exact Option.map_eq_some_iff.mpr ⟨again, hagain, put_put⟩

/-- Only what is there already can be put without a change. -/
theorem put_eq_self_iff : put name node children = children ↔ find name children = some node := by
  constructor
  · intro h
    rw [← h]
    exact find_put_self
  · intro h
    induction children with
    | nil => cases h
    | cons child rest ih =>
      obtain ⟨other, old⟩ := child
      rw [find] at h
      rw [put]
      split at h
      · next heq => rw [if_pos heq, Option.some.inj h, heq]
      · next hne => rw [if_neg hne, ih h]

/-! ## What is at a path -/

/-- A file, a link or a directory, without what a directory holds. -/
inductive Kind (β : Type) where
  | file (content : β)
  | link (content : Option β)
  | dir
deriving DecidableEq, Repr

def kind : FsNode β → Kind β
  | .file content => .file content
  | .link content => .link content
  | .dir _ => .dir

/-- What is at a path below a node. -/
def kindAt : List String → FsNode β → Option (Kind β)
  | [], node => some node.kind
  | name :: path, .dir children => (find name children).bind (kindAt path)
  | _ :: _, _ => none

@[simp] theorem kindAt_nil : kindAt [] node = some node.kind := rfl

@[simp] theorem kindAt_dir_cons {path : List String} :
    kindAt (name :: path) (.dir children) = (find name children).bind (kindAt path) := rfl

/-- No directory of the tree lists a name twice. -/
inductive UniqueNames : List (String × FsNode β) → Prop
  | nil : UniqueNames []
  | leaf {name : String} {node : FsNode β} {rest : List (String × FsNode β)} :
      name ∉ rest.map Prod.fst → (∀ inside, node ≠ .dir inside) → UniqueNames rest →
      UniqueNames ((name, node) :: rest)
  | dir {name : String} {inside rest : List (String × FsNode β)} :
      name ∉ rest.map Prod.fst → UniqueNames inside → UniqueNames rest →
      UniqueNames ((name, .dir inside) :: rest)

theorem find_eq_none (h : name ∉ children.map Prod.fst) : find name children = none := by
  induction children with
  | nil => rfl
  | cons child rest ih =>
    rw [List.map_cons, List.mem_cons, not_or] at h
    rw [find, if_neg (Ne.symm h.1)]
    exact ih h.2

end FsNode

namespace Folder

/-- Whether the name is taken. -/
def has (f : Folder β) (name : String) : Bool := (f.lookup name).isSome

/-- What a step that ends with `left` at a free name leaves. -/
def land (f : Folder β) (name : String) (left : Option (FsNode β)) : Folder β :=
  match left with
  | none => f
  | some node => f.insert name node

theorem has_eq_false {f : Folder β} {name : String} :
    f.has name = false ↔ f.lookup name = none := by
  rw [has, Option.isSome_eq_false_iff, Option.isNone_iff_eq_none]

theorem lookup_land_self {f : Folder β} {name : String} (h : f.lookup name = none)
    (left : Option (FsNode β)) : (f.land name left).lookup name = left := by
  cases left with
  | none => exact h
  | some node => exact AList.lookup_insert f

theorem lookup_land_ne {f : Folder β} {name other : String} (h : other ≠ name)
    (left : Option (FsNode β)) : (f.land name left).lookup other = f.lookup other := by
  cases left with
  | none => rfl
  | some node => exact AList.lookup_insert_ne h

end Folder

end GpgFrontend
