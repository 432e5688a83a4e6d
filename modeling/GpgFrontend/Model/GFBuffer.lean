import GpgFrontend.Base.SecretStream
import GpgFrontend.Base.SharedBlocks

/-!
# Secret buffers (`GFBuffer`)

A `GFBuffer` is a share of an `Impl`: copying one copies the share. What writes detaches
first; `Zeroize` does not, and wipes through every share.
-/

namespace GpgFrontend

/-- A share of an `Impl`. -/
abbrev GFBuffer : Type := Blocks.Handle

/-- The `Impl`s. -/
abbrev SecureHeap : Type := Blocks Bytes

namespace GFBuffer

/-- What a `GFBuffer` constructor makes of some bytes: the new share is `next`. -/
def create (heap : SecureHeap) (bytes : Bytes) : GFBuffer × SecureHeap :=
  (heap.next, heap.alloc bytes)

/-- What is read through a share. -/
def bytes (heap : SecureHeap) (buffer : GFBuffer) : Bytes := (heap.read buffer).getD []

/-- `Size`. -/
def size (heap : SecureHeap) (buffer : GFBuffer) : Nat := (bytes heap buffer).length

/-- `sodium_memzero`. -/
def memzero (bytes : Bytes) : Bytes := List.replicate bytes.length 0

/-- `Zeroize`. -/
def zeroize (heap : SecureHeap) (buffer : GFBuffer) : SecureHeap := heap.change buffer memzero

/-- Wiping these bytes changes nothing. -/
def Blank (bytes : Bytes) : Prop := ∀ b ∈ bytes, b = 0

instance (bytes : Bytes) : Decidable (Blank bytes) :=
  inferInstanceAs (Decidable (∀ b ∈ bytes, b = 0))

theorem memzero_eq_iff {bytes : Bytes} : memzero bytes = bytes ↔ Blank bytes := by
  rw [memzero, eq_comm, List.eq_replicate_iff]
  exact and_iff_right rfl

variable {heap : SecureHeap} {buffer share : GFBuffer} {fresh : Bytes}

@[simp] theorem bytes_create : bytes (heap.alloc fresh) heap.next = fresh := by simp [bytes]

theorem bytes_alloc_of_live (h : heap.Live buffer) :
    bytes (heap.alloc fresh) buffer = bytes heap buffer := by
  rw [bytes, Blocks.read_alloc_of_live h, bytes]

theorem bytes_zeroize_self : bytes (zeroize heap buffer) buffer = memzero (bytes heap buffer) := by
  rw [bytes, zeroize, Blocks.read_change_self, bytes]
  cases heap.read buffer with
  | none => rfl
  | some content => rfl

theorem bytes_zeroize_of_ne (h : share ≠ buffer) :
    bytes (zeroize heap buffer) share = bytes heap share := by
  rw [bytes, zeroize, Blocks.read_change_of_ne h, bytes]

/-- A share keeps its bytes when another buffer is wiped, unless they are of one `Impl`,
and that holds more than zeros. -/
theorem bytes_zeroize_eq_iff :
    bytes (zeroize heap buffer) share = bytes heap share ↔
      (share = buffer → Blank (bytes heap buffer)) := by
  by_cases h : share = buffer
  · subst h
    rw [bytes_zeroize_self, memzero_eq_iff]
    exact ⟨fun hblank _ => hblank, fun hblank => hblank rfl⟩
  · rw [bytes_zeroize_of_ne h]
    exact ⟨fun _ hshare => absurd hshare h, fun _ => rfl⟩

/-- Wiping takes no size away. -/
@[simp] theorem size_zeroize : size (zeroize heap buffer) share = size heap share := by
  by_cases h : share = buffer
  · subst h
    rw [size, bytes_zeroize_self, memzero, List.length_replicate, size]
  · rw [size, bytes_zeroize_of_ne h, size]

end GFBuffer

end GpgFrontend
