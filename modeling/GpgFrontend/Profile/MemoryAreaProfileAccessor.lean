import GpgFrontend.Base.Runs
import GpgFrontend.Model.GFBuffer
import Mathlib.Algebra.Order.BigOperators.Group.List
import Mathlib.Algebra.Order.Group.Nat

/-!
# Areas held in memory (`MemoryAreaProfileAccessor`)

Chosen areas of a profile are kept in this process and never on a file system; the others
are left to the driver underneath.

- `write_of_accepts`, `remove_of_name`: what the two calls change.
-/

namespace GpgFrontend

/-- `kResidentAreaByteCeiling`. -/
def residentAreaByteCeiling : Nat := 1024 * 1024

/-- The driver underneath, over a state of its own. -/
structure ProfileDriver (Area ι : Type) where
  read : ι → Area → String → Option Bytes
  write : ι → Area → String → Bytes → Bool × ι
  remove : ι → Area → String → Bool × ι

/-- The objects of an area: `QHash<QString, GFBuffer>`. -/
abbrev AreaObjects : Type := AList fun _ : String => GFBuffer

/-- `MemoryAreaProfileAccessor`: `areas_`, the driver's state, and the memory the buffers
of both sides share. -/
structure MemoryArea (Area ι : Type) where
  heap : SecureHeap
  areas : Area → AreaObjects
  inner : ι

namespace MemoryArea

variable {Area ι : Type}

/-- An accessor that holds nothing yet. -/
def fresh (inner : ι) : MemoryArea Area ι where
  heap := .empty
  areas := fun _ => ∅
  inner := inner

def setObjects [DecidableEq Area] (s : MemoryArea Area ι) (area : Area)
    (objects : AreaObjects) : MemoryArea Area ι :=
  { s with areas := fun a => if a = area then objects else s.areas a }

/-- `ForgetDetached`, of what `take` handed out: a name that was not there has given an
empty buffer. -/
def forgetDetached (s : MemoryArea Area ι) (taken : Option GFBuffer) : MemoryArea Area ι :=
  match taken with
  | none => s
  | some buffer => { s with heap := GFBuffer.zeroize s.heap buffer }

/-- The size of one stored object. -/
def objectSize (heap : SecureHeap) (object : Sigma fun _ : String => GFBuffer) : Nat :=
  GFBuffer.size heap object.2

/-- The bytes stored in an area. -/
def storedTotal (s : MemoryArea Area ι) (area : Area) : Nat :=
  ((s.areas area).entries.map (objectSize s.heap)).sum

/-- `total`, as `Write` counts it: the value and all that it does not replace. -/
def accountedTotal (s : MemoryArea Area ι) (area : Area) (name : String) (value : GFBuffer) :
    Nat :=
  (s.areas area).entries.foldl
    (fun total object => if object.1 = name then total else total + objectSize s.heap object)
    (GFBuffer.size s.heap value)

section Calls

variable [DecidableEq Area] (D : ProfileDriver Area ι) (resident : Area → Bool)

/-- `Read`: of a resident area it hands out a share of what is stored. -/
def read (s : MemoryArea Area ι) (area : Area) (name : String) :
    Option GFBuffer × MemoryArea Area ι :=
  if !resident area then
    match D.read s.inner area name with
    | none => (none, s)
    | some bytes =>
      let (buffer, heap) := GFBuffer.create s.heap bytes
      (some buffer, { s with heap })
  else ((s.areas area).lookup name, s)

/-- `Write`. -/
def write (s : MemoryArea Area ι) (area : Area) (name : String) (value : GFBuffer) :
    Bool × MemoryArea Area ι :=
  if !resident area then
    let (written, inner) := D.write s.inner area name (GFBuffer.bytes s.heap value)
    (written, { s with inner })
  else if name = "" then (false, s)
  else if s.accountedTotal area name value > residentAreaByteCeiling then (false, s)
  else
    let replaced := (s.areas area).lookup name
    let s := s.setObjects area ((s.areas area).insert name value)
    (true, s.forgetDetached replaced)

/-- `Remove`. -/
def remove (s : MemoryArea Area ι) (area : Area) (name : String) : Bool × MemoryArea Area ι :=
  if !resident area then
    let (removed, inner) := D.remove s.inner area name
    (removed, { s with inner })
  else if name = "" then (false, s)
  else
    let removed := (s.areas area).lookup name
    let s := s.setObjects area ((s.areas area).erase name)
    (true, s.forgetDetached removed)

end Calls

/-! ## What the calls change -/

variable {D : ProfileDriver Area ι} {resident : Area → Bool} {s : MemoryArea Area ι}
  {area other : Area} {name : String} {value buffer : GFBuffer} {taken : Option GFBuffer}

@[simp] theorem areas_forgetDetached : (s.forgetDetached taken).areas = s.areas := by
  cases taken with
  | none => rfl
  | some buffer => rfl

@[simp] theorem next_forgetDetached : (s.forgetDetached taken).heap.next = s.heap.next := by
  cases taken with
  | none => rfl
  | some buffer => exact Blocks.next_change

/-- A share keeps its bytes, unless what is forgotten is the same `Impl` and not blank. -/
theorem bytes_forgetDetached_eq_iff :
    GFBuffer.bytes (s.forgetDetached taken).heap buffer = GFBuffer.bytes s.heap buffer ↔
      (taken = some buffer → GFBuffer.Blank (GFBuffer.bytes s.heap buffer)) := by
  cases taken with
  | none =>
    constructor
    · rintro - ⟨⟩
    · exact fun _ => rfl
  | some forgotten =>
    show GFBuffer.bytes (GFBuffer.zeroize s.heap forgotten) buffer = _ ↔ _
    rw [GFBuffer.bytes_zeroize_eq_iff, Option.some.injEq]
    constructor
    · rintro h rfl
      exact h rfl
    · rintro h rfl
      exact h rfl

@[simp] theorem size_forgetDetached :
    GFBuffer.size (s.forgetDetached taken).heap buffer = GFBuffer.size s.heap buffer := by
  cases taken with
  | none => rfl
  | some forgotten => exact GFBuffer.size_zeroize

@[simp] theorem storedTotal_forgetDetached :
    (s.forgetDetached taken).storedTotal area = s.storedTotal area := by
  have hsize : objectSize (s.forgetDetached taken).heap = objectSize s.heap :=
    funext fun object => size_forgetDetached
  rw [storedTotal, areas_forgetDetached, hsize, storedTotal]

/-- A loop that skips some of its elements. -/
theorem foldl_skip {α : Type} (skip : α → Prop) [DecidablePred skip] (size : α → Nat)
    (xs : List α) (start : Nat) :
    xs.foldl (fun total x => if skip x then total else total + size x) start =
      start + ((xs.filter fun x => ¬ skip x).map size).sum := by
  induction xs generalizing start with
  | nil => rfl
  | cons x xs ih =>
    rw [List.foldl_cons, ih]
    by_cases hx : skip x
    · simp [hx]
    · simp [hx, Nat.add_assoc]

/-- Erasing a name leaves the objects of the others. -/
theorem kerase_eq_filter {entries : List (Sigma fun _ : String => GFBuffer)}
    (h : entries.NodupKeys) :
    entries.kerase name = entries.filter fun object => ¬ object.1 = name := by
  induction entries with
  | nil => rfl
  | cons object rest ih =>
    obtain ⟨hnotin, hrest⟩ := List.nodupKeys_cons.mp h
    by_cases hname : name = object.1
    · subst hname
      have hkeep : rest.filter (fun other => ¬ other.1 = object.1) = rest := by
        rw [List.filter_eq_self]
        intro other hother
        have hne : other.1 ≠ object.1 := fun heq =>
          hnotin (heq ▸ List.mem_keys_of_mem hother)
        simpa using hne
      rw [List.kerase_cons_eq rfl, List.filter_cons_of_neg (by simp), hkeep]
    · rw [List.kerase_cons_ne hname, ih hrest, List.filter_cons_of_pos]
      simpa using Ne.symm hname

/-- What `Write` counts: the value, and the objects it does not replace. -/
theorem accountedTotal_eq :
    s.accountedTotal area name value = GFBuffer.size s.heap value +
      (((s.areas area).entries.kerase name).map (objectSize s.heap)).sum := by
  rw [kerase_eq_filter (s.areas area).nodupKeys]
  exact foldl_skip (fun object : Sigma fun _ : String => GFBuffer => object.1 = name)
    (objectSize s.heap) _ _

theorem storedTotal_erase_le :
    (((s.areas area).erase name).entries.map (objectSize s.heap)).sum ≤ s.storedTotal area := by
  show (((s.areas area).entries.kerase name).map (objectSize s.heap)).sum ≤ _
  exact (List.Sublist.map _ (List.kerase_sublist name _)).sum_le_sum fun _ _ => Nat.zero_le _

variable [DecidableEq Area]

theorem lookup_setObjects {objects : AreaObjects} {n : String} :
    ((s.setObjects area objects).areas other).lookup n =
      if other = area then objects.lookup n else (s.areas other).lookup n := by
  by_cases h : other = area
  · simp [setObjects, h]
  · simp [setObjects, h]

/-- When `Write` takes a value. -/
def Accepts (s : MemoryArea Area ι) (area : Area) (name : String) (value : GFBuffer) : Prop :=
  name ≠ "" ∧ s.accountedTotal area name value ≤ residentAreaByteCeiling

instance : Decidable (s.Accepts area name value) := inferInstanceAs (Decidable (_ ∧ _))

theorem write_of_accepts (hresident : resident area = true) (h : s.Accepts area name value) :
    s.write D resident area name value =
      (true, (s.setObjects area ((s.areas area).insert name value)).forgetDetached
        ((s.areas area).lookup name)) := by
  unfold write
  rw [hresident, if_neg (by simp), if_neg h.1, if_neg (Nat.not_lt.2 h.2)]

theorem write_of_not_accepts (hresident : resident area = true)
    (h : ¬ s.Accepts area name value) :
    s.write D resident area name value = (false, s) := by
  unfold write
  rw [hresident, if_neg (by simp)]
  split
  · rfl
  · next hname =>
    rw [if_pos]
    exact Nat.lt_of_not_le fun hfits => h ⟨hname, hfits⟩

theorem remove_of_name (hresident : resident area = true) (h : name ≠ "") :
    s.remove D resident area name =
      (true, (s.setObjects area ((s.areas area).erase name)).forgetDetached
        ((s.areas area).lookup name)) := by
  unfold remove
  rw [hresident, if_neg (by simp), if_neg h]

/-! ## The total -/

theorem storedTotal_setObjects {objects : AreaObjects} :
    (s.setObjects area objects).storedTotal other =
      if other = area then (objects.entries.map (objectSize s.heap)).sum
      else s.storedTotal other := by
  by_cases h : other = area
  · simp [storedTotal, setObjects, h]
  · simp [storedTotal, setObjects, h]

/-- What a `Write` counted is what the area holds once it is done. -/
theorem storedTotal_write (hresident : resident area = true) (h : s.Accepts area name value) :
    (s.write D resident area name value).2.storedTotal area =
      s.accountedTotal area name value := by
  rw [write_of_accepts hresident h, storedTotal_forgetDetached, storedTotal_setObjects,
    if_pos rfl, accountedTotal_eq, AList.entries_insert]
  rfl

end MemoryArea

end GpgFrontend
