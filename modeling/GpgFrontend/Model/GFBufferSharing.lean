import Mathlib.Data.Fintype.Card
import GpgFrontend.Model.GFBuffer

/-!
# Handles that share storage (`GFBuffer`)

Copies of a `GFBuffer` share an `Impl`, and what writes takes one of its own first.
-/

namespace GpgFrontend

namespace GFBuffer

def zeros (size : Nat) : Bytes := List.replicate size 0

/-- `memcpy` to an offset. -/
def memcpy (offset : Nat) (src dst : Bytes) : Bytes :=
  dst.take offset ++ src ++ dst.drop (offset + src.length)

/-- `SMASecRealloc` moves what fits to a block of zeros. -/
def secRealloc (size : Nat) (bytes : Bytes) : Bytes := memcpy 0 (bytes.take size) (zeros size)

/-- `resize` of a plain vector. -/
def resized (size : Nat) (bytes : Bytes) : Bytes := bytes.take size ++ zeros (size - bytes.length)

theorem secRealloc_eq (size : Nat) (bytes : Bytes) : secRealloc size bytes = resized size bytes := by
  rw [secRealloc, memcpy, zeros, List.take_zero, List.nil_append, Nat.zero_add, List.drop_replicate,
    List.length_take, resized, zeros]
  congr 2
  omega

/-- Copying to where the zeros begin. -/
theorem memcpy_zeros (done src : Bytes) (n : Nat) :
    memcpy done.length src (done ++ zeros (src.length + n)) = done ++ src ++ zeros n := by
  rw [memcpy, List.take_left, List.drop_append, zeros, List.drop_replicate]
  simp [zeros]

end GFBuffer

/-- The handles of a program, each with its `impl_`, which a move leaves null. -/
structure BufferGraph (Var : Type) where
  heap : SecureHeap
  impl : Var → Option GFBuffer
  live : ∀ v, ∀ b ∈ impl v, heap.Live b

/-- What is written through the pointer that `Data` hands out, before anyone copies the handle. -/
structure InPlace where
  write : Bytes → Bytes
  length_write : ∀ bytes, (write bytes).length = bytes.length

/-- What a `memcpy` reads: memory outside, or a part of what a handle holds. A null pointer is no
bytes outside. -/
inductive CharSource (Var : Type) where
  | outside (bytes : Bytes)
  | inside (v : Var) (offset size : Nat)

inductive BufferOp (Var : Type) where
  | data (h : Var) (w : InPlace)
  | resize (h : Var) (size : Int)
  | append (h o : Var)
  | appendChars (h : Var) (buffer : CharSource Var)
  | combine (h : Var) (buffers : List Var)
  | assign (h o : Var)
  | moveAssign (h o : Var)
  | zeroize (h : Var)

open GFBuffer

/-- The bytes of an `Impl`, none without one. -/
def implBytes (heap : SecureHeap) (i : Option GFBuffer) : Bytes := i.elim [] (bytes heap)

def CharSource.read {Var : Type} (heap : SecureHeap) (impl : Var → Option GFBuffer) :
    CharSource Var → Bytes
  | outside bytes => bytes
  | inside v offset size => ((implBytes heap (impl v)).drop offset).take size

namespace BufferGraph

variable {Var : Type}

/-- `ConvertToQByteArray`. -/
def seen (s : BufferGraph Var) (v : Var) : Bytes := implBytes s.heap (s.impl v)

def change (s : BufferGraph Var) (b : GFBuffer) (f : Bytes → Bytes) : BufferGraph Var where
  heap := s.heap.change b f
  impl := s.impl
  live v c hc := Blocks.live_change.mpr (s.live v c hc)

variable {s : BufferGraph Var} {h v : Var} {b : GFBuffer} {f : Bytes → Bytes}

theorem seen_change (hb : s.heap.Live b) :
    (s.change b f).seen v = if s.impl v = some b then f (s.seen v) else s.seen v := by
  cases hv : s.impl v with
  | none => simp [seen, change, implBytes, hv]
  | some c =>
    rw [seen, seen, change, hv]
    by_cases hc : c = b
    · subst hc
      obtain ⟨content, hread⟩ : ∃ content, s.heap.read c = some content :=
        ⟨_, List.getElem?_eq_getElem hb⟩
      simp [implBytes, bytes, hread]
    · simp [implBytes, bytes, Blocks.read_change_of_ne hc, hc]

/-- The loop of `Combine`: one source after the other to `merged`, from `offset` on. -/
def copyAll (impl : Var → Option GFBuffer) (merged : GFBuffer) :
    SecureHeap → Nat → List (CharSource Var) → SecureHeap
  | heap, _, [] => heap
  | heap, offset, source :: rest =>
    let src := source.read heap impl
    if src = [] then copyAll impl merged heap offset rest
    else copyAll impl merged (heap.change merged (memcpy offset src)) (offset + src.length) rest

def size (s : BufferGraph Var) (source : CharSource Var) : Nat :=
  (source.read s.heap s.impl).length

/-- All that a handle holds. -/
def whole (s : BufferGraph Var) (v : Var) : CharSource Var := .inside v 0 (s.seen v).length

/-- The new storage of `merge`. -/
def mergedHeap (s : BufferGraph Var) (sources : List (CharSource Var)) : SecureHeap :=
  copyAll s.impl s.heap.next (s.heap.alloc (zeros (sources.map s.size).sum)) 0 sources

variable {sources : List (CharSource Var)}

theorem next_copyAll {impl : Var → Option GFBuffer} {merged : GFBuffer} {heap : SecureHeap}
    {offset : Nat} : (copyAll impl merged heap offset sources).next = heap.next := by
  induction sources generalizing heap offset with
  | nil => rfl
  | cons source rest ih =>
    rw [copyAll]
    split
    · exact ih
    · rw [ih, Blocks.next_change]

theorem next_mergedHeap {s : BufferGraph Var} : (s.mergedHeap sources).next = s.heap.next + 1 := by
  rw [mergedHeap, next_copyAll, Blocks.next_alloc]

/-- What the loop writes behind what is there, and that what was there before stays. -/
theorem copyAll_spec {heap : SecureHeap} {done : Bytes} {sources : List (CharSource Var)}
    (hsame : ∀ c, s.heap.Live c → heap.read c = s.heap.read c)
    (hread : heap.read s.heap.next = some (done ++ zeros (sources.map s.size).sum)) :
    (copyAll s.impl s.heap.next heap done.length sources).read s.heap.next =
        some (done ++ (sources.map fun source => source.read s.heap s.impl).flatten) ∧
      ∀ c, s.heap.Live c →
        (copyAll s.impl s.heap.next heap done.length sources).read c = s.heap.read c := by
  induction sources generalizing heap done with
  | nil => exact ⟨hread, hsame⟩
  | cons source rest ih =>
    have hsource : source.read heap s.impl = source.read s.heap s.impl := by
      cases source with
      | outside bytes => rfl
      | inside v offset size =>
        have himpl : implBytes heap (s.impl v) = implBytes s.heap (s.impl v) := by
          cases hv : s.impl v with
          | none => rfl
          | some b => simp [implBytes, bytes, hsame b (s.live v b hv)]
        rw [CharSource.read, CharSource.read, himpl]
    rw [List.map_cons, List.sum_cons, size] at hread
    rw [copyAll, hsource]
    by_cases hnil : source.read s.heap s.impl = []
    · rw [hnil, List.length_nil, Nat.zero_add] at hread
      simpa [hnil] using ih hsame hread
    · rw [if_neg hnil, ← List.length_append]
      -- the zeros that are left are those of the sources to come
      simpa using @ih (heap.change s.heap.next (memcpy done.length (source.read s.heap s.impl)))
        (done ++ source.read s.heap s.impl)
        (fun c hc => by rw [Blocks.read_change_of_ne hc.ne_next, hsame c hc])
        (by rw [Blocks.read_change_self, hread, Option.map_some, memcpy_zeros])

theorem read_whole : (s.whole v).read s.heap s.impl = s.seen v := List.take_length

theorem map_read_whole {buffers : List Var} :
    (buffers.map s.whole).map (fun source => source.read s.heap s.impl) = buffers.map s.seen := by
  rw [List.map_map]
  exact List.map_congr_left fun v _ => read_whole

def zeroize (s : BufferGraph Var) (h : Var) : BufferGraph Var :=
  match s.impl h with
  | none => s
  | some b => s.change b memzero

theorem seen_zeroize : (s.zeroize h).seen v =
    if s.impl v = s.impl h then memzero (s.seen v) else s.seen v := by
  unfold zeroize
  split
  · next hb =>
    split
    · next hv => simp [seen, hv, hb, implBytes, memzero]
    · rfl
  · next b hb =>
    rw [hb]
    exact seen_change (s.live h b hb)

variable [DecidableEq Var]

def setImpl (s : BufferGraph Var) (h : Var) (i : Option GFBuffer)
    (live : ∀ b ∈ i, s.heap.Live b) : BufferGraph Var where
  heap := s.heap
  impl := Function.update s.impl h i
  live v b hb := by
    by_cases hv : v = h
    · subst hv
      rw [Function.update_self] at hb
      exact live b hb
    · rw [Function.update_of_ne hv] at hb
      exact s.live v b hb

/-- Fresh storage for the handle, with all of these in it. -/
def merge (s : BufferGraph Var) (h : Var) (sources : List (CharSource Var)) :
    BufferGraph Var where
  heap := s.mergedHeap sources
  impl := Function.update s.impl h (some s.heap.next)
  live v b hb := by
    rw [Blocks.Live, next_mergedHeap]
    by_cases hv : v = h
    · subst hv
      rw [Function.update_self] at hb
      cases hb
      exact Nat.lt_succ_self _
    · rw [Function.update_of_ne hv] at hb
      exact Nat.lt_succ_of_lt (s.live v b hb)

/-- How many handles share an `Impl`. -/
def useCount [Fintype Var] (s : BufferGraph Var) (b : GFBuffer) : Nat :=
  (Finset.univ.filter fun v => s.impl v = some b).card

/-- `detach`; what `cloned_impl` makes is a copy. -/
def detach [Fintype Var] (s : BufferGraph Var) (h : Var) : BufferGraph Var :=
  match s.impl h with
  | none => s
  | some b => if s.useCount b ≤ 1 then s else s.merge h [s.whole h]

/-- Through the non-const `Data`; null is dereferenced. -/
def data [Fintype Var] (s : BufferGraph Var) (h : Var) (w : InPlace) : Option (BufferGraph Var) :=
  ((s.detach h).impl h).map fun b => (s.detach h).change b w.write

/-- A negative size is more than there is to allocate, which ends the program. -/
def resize [Fintype Var] (s : BufferGraph Var) (h : Var) (size : Int) :
    Option (BufferGraph Var) :=
  match (s.detach h).impl h with
  | none => none
  | some b =>
    if size = 0 then some ((s.detach h).change b fun _ => [])
    else if size < 0 then none
    else some ((s.detach h).change b (secRealloc size.toNat))

/-- The old bytes are copied first, as one more source. -/
def combine (s : BufferGraph Var) (h : Var) (buffers : List Var) : BufferGraph Var :=
  if (buffers.map fun b => (s.seen b).length).sum = 0 then s
  else s.merge h (s.whole h :: buffers.map s.whole)

def append (s : BufferGraph Var) (h o : Var) : BufferGraph Var :=
  if s.seen o = [] then s else s.combine h [o]

def appendChars (s : BufferGraph Var) (h : Var) (buffer : CharSource Var) : BufferGraph Var :=
  if s.size buffer = 0 then s else s.merge h [s.whole h, buffer]

def assign (s : BufferGraph Var) (h o : Var) : BufferGraph Var := s.setImpl h (s.impl o) (s.live o)

def moveAssign (s : BufferGraph Var) (h o : Var) : BufferGraph Var :=
  if h = o then s else (s.assign h o).setImpl o none fun _ hb => by cases hb

/-- One operation on one handle; `none` is a program that has ended. -/
def apply [Fintype Var] (s : BufferGraph Var) : BufferOp Var → Option (BufferGraph Var)
  | .data h w => s.data h w
  | .resize h size => s.resize h size
  | .append h o => some (s.append h o)
  | .appendChars h buffer => some (s.appendChars h buffer)
  | .combine h buffers => some (s.combine h buffers)
  | .assign h o => some (s.assign h o)
  | .moveAssign h o => some (s.moveAssign h o)
  | .zeroize h => some (s.zeroize h)

/-- What is to be seen afterwards: the operation done to a plain vector for each handle, and a
wiping through every share. -/
def expected (s : BufferGraph Var) : BufferOp Var → Option (Var → Bytes)
  | .data h w => some (Function.update s.seen h (w.write (s.seen h)))
  | .resize h size =>
    if size < 0 then none else some (Function.update s.seen h (resized size.toNat (s.seen h)))
  | .append h o => some (Function.update s.seen h (s.seen h ++ s.seen o))
  | .appendChars h buffer =>
    some (Function.update s.seen h (s.seen h ++ buffer.read s.heap s.impl))
  | .combine h buffers =>
    some (Function.update s.seen h (s.seen h ++ (buffers.map s.seen).flatten))
  | .assign h o => some (Function.update s.seen h (s.seen o))
  | .moveAssign h o =>
    if h = o then some s.seen
    else some (Function.update (Function.update s.seen h (s.seen o)) o [])
  | .zeroize h => some fun v => if s.impl v = s.impl h then memzero (s.seen v) else s.seen v

/-- The operation does not dereference a null `impl_`. -/
def NullSafe (s : BufferGraph Var) : BufferOp Var → Prop
  | .data h _ => s.impl h ≠ none
  | .resize h size => s.impl h ≠ none ∨ size < 0
  | _ => True

theorem seen_setImpl {i : Option GFBuffer} {live : ∀ b ∈ i, s.heap.Live b} :
    (s.setImpl h i live).seen = Function.update s.seen h (implBytes s.heap i) := by
  funext v
  by_cases hv : v = h
  · subst hv
    simp [seen, setImpl]
  · simp [seen, setImpl, hv]

/-- The handle has the sources, one after the other, and the others what they had. -/
theorem seen_merge :
    (s.merge h sources).seen = Function.update s.seen h
      (sources.map fun source => source.read s.heap s.impl).flatten := by
  obtain ⟨hmerged, hsame⟩ := @copyAll_spec Var s
    (s.heap.alloc (zeros (sources.map s.size).sum)) [] sources
    (fun c hc => Blocks.read_alloc_of_live hc) Blocks.read_alloc_next
  funext v
  by_cases hv : v = h
  · subst hv
    simpa [seen, merge, mergedHeap, implBytes, bytes] using congrArg (Option.getD · []) hmerged
  · cases hi : s.impl v with
    | none => simp [seen, merge, hv, hi, implBytes]
    | some b =>
      simpa [seen, merge, mergedHeap, hv, hi, implBytes, bytes] using
        congrArg (Option.getD · []) (hsame b (s.live v b hi))

/-- `detach` changes nothing that is seen, and leaves no other handle the storage. -/
theorem detach_spec [Fintype Var] :
    (s.detach h).seen = s.seen ∧ ((s.detach h).impl h = none ↔ s.impl h = none) ∧
      ∀ b, (s.detach h).impl h = some b → ∀ v, (s.detach h).impl v = some b → v = h := by
  rw [detach]
  cases hb : s.impl h with
  | none => exact ⟨rfl, iff_of_true hb rfl, fun b hb' => by rw [hb] at hb'; cases hb'⟩
  | some b =>
    dsimp only
    split
    · next hcount =>
      -- one handle at most has this storage
      refine ⟨rfl, by rw [hb], fun c hc v hv => ?_⟩
      rw [hb] at hc
      cases hc
      exact Finset.card_le_one.mp hcount v (by simpa using hv) h (by simpa using hb)
    · refine ⟨?_, by simp [merge], fun c hc v hv => ?_⟩
      · rw [seen_merge, List.map_singleton, read_whole, List.flatten_singleton,
          Function.update_eq_self]
      · by_contra hne
        have hnext : some s.heap.next = some c := by simpa [merge] using hc
        have hvc : s.impl v = some c := by simpa [merge, hne] using hv
        exact (s.live v c hvc).ne_next (Option.some.inj hnext).symm

/-- A change after `detach` is one to the vector of the handle alone. -/
theorem seen_change_detach [Fintype Var] (hb : (s.detach h).impl h = some b) :
    ((s.detach h).change b f).seen = Function.update s.seen h (f (s.seen h)) := by
  obtain ⟨hseen, -, hown⟩ := detach_spec (s := s) (h := h)
  funext v
  rw [seen_change ((s.detach h).live h b hb), hseen]
  by_cases hv : v = h
  · subst hv
    rw [if_pos hb, Function.update_self]
  · rw [if_neg fun heq => hv (hown b hb v heq), Function.update_of_ne hv]

theorem seen_combine {buffers : List Var} : (s.combine h buffers).seen =
    Function.update s.seen h (s.seen h ++ (buffers.map s.seen).flatten) := by
  rw [combine]
  split
  · next hzero =>
    have hnil : (buffers.map s.seen).flatten = [] := by
      refine List.eq_nil_of_length_eq_zero ?_
      rw [List.length_flatten, List.map_map]
      exact hzero
    rw [hnil, List.append_nil, Function.update_eq_self]
  · rw [seen_merge, List.map_cons, read_whole, map_read_whole, List.flatten_cons]

theorem seen_append {o : Var} :
    (s.append h o).seen = Function.update s.seen h (s.seen h ++ s.seen o) := by
  rw [append]
  split
  · next hnil => rw [hnil, List.append_nil, Function.update_eq_self]
  · rw [seen_combine, List.map_singleton, List.flatten_singleton]

theorem seen_appendChars {buffer : CharSource Var} : (s.appendChars h buffer).seen =
    Function.update s.seen h (s.seen h ++ buffer.read s.heap s.impl) := by
  rw [appendChars]
  split
  · next hzero =>
    rw [List.eq_nil_of_length_eq_zero hzero, List.append_nil, Function.update_eq_self]
  · rw [seen_merge, List.map_cons, List.map_singleton, read_whole, List.flatten_cons,
      List.flatten_singleton]

/-- After an operation every handle shows what a plain vector would, unless a null `impl_` was
dereferenced. -/
theorem value_semantics_iff [Fintype Var] (s : BufferGraph Var) (op : BufferOp Var) :
    (s.apply op).map seen = s.expected op ↔ s.NullSafe op := by
  cases op with
  | data h w =>
    have hnull := (detach_spec (s := s) (h := h)).2.1
    rw [apply, data, expected, NullSafe, Ne, ← hnull]
    cases hb : (s.detach h).impl h with
    | none => simp
    | some b => simp [seen_change_detach hb]
  | resize h size =>
    have hnull := (detach_spec (s := s) (h := h)).2.1
    rw [apply, resize, expected, NullSafe, Ne, ← hnull]
    cases hb : (s.detach h).impl h with
    | none => by_cases hneg : size < 0 <;> simp [hneg]
    | some b =>
      refine iff_of_true ?_ (.inl (Option.some_ne_none b))
      dsimp only
      split
      · next hzero =>
        subst hzero
        rw [if_neg (Int.lt_irrefl 0), Option.map_some, seen_change_detach hb]
        simp [resized, zeros]
      · split
        · rfl
        · rw [Option.map_some, seen_change_detach hb, secRealloc_eq]
  | append h o => exact iff_of_true (congrArg some seen_append) trivial
  | appendChars h buffer => exact iff_of_true (congrArg some seen_appendChars) trivial
  | combine h buffers => exact iff_of_true (congrArg some seen_combine) trivial
  | assign h o => exact iff_of_true (congrArg some seen_setImpl) trivial
  | moveAssign h o =>
    refine iff_of_true ?_ trivial
    rw [apply, moveAssign, expected]
    split
    · rfl
    · rw [Option.map_some, seen_setImpl, assign, seen_setImpl]
      rfl
  | zeroize h => exact iff_of_true (congrArg some (funext fun v => seen_zeroize)) trivial

/-- Two handles of one `Impl`. -/
def sharedText : BufferGraph Bool where
  heap := ⟨[[97, 98, 99]]⟩
  impl _ := some 0
  live _ b hb := by
    cases hb
    exact Nat.zero_lt_one

/-- A handle that was moved from has no bytes, and a size for it ends the program. -/
theorem resize_after_move :
    (sharedText.moveAssign true false).seen false = [] ∧
    ((sharedText.moveAssign true false).apply (.resize false 5)).map seen ≠
      (sharedText.moveAssign true false).expected (.resize false 5) := by
  have hended : (sharedText.moveAssign true false).apply (.resize false 5) = none := rfl
  refine ⟨rfl, ?_⟩
  rw [hended]
  exact fun h => nomatch h

end BufferGraph

end GpgFrontend
