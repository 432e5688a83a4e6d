import Mathlib.Data.List.Basic

/-!
# Blocks of memory behind shared handles

Handles to blocks that several owners may hold at once: a copy of a handle is the same
block, and a change made to a block is seen through every copy.

- `Blocks.alloc`: a block of its own for what is new.
-/

namespace GpgFrontend

universe u

/-- Every block there ever was, by number. -/
structure Blocks (α : Type u) where
  contents : List α
  deriving Repr, DecidableEq

namespace Blocks

variable {α : Type u}

/-- A handle: the number of a block. -/
abbrev Handle : Type := Nat

def empty : Blocks α := ⟨[]⟩

def read (m : Blocks α) (b : Handle) : Option α := m.contents[b]?

/-- The handle the next block gets. -/
def next (m : Blocks α) : Handle := m.contents.length

def alloc (m : Blocks α) (a : α) : Blocks α := ⟨m.contents ++ [a]⟩

/-- Change a block in place, for everyone who holds it. -/
def change (m : Blocks α) (b : Handle) (f : α → α) : Blocks α := ⟨m.contents.modify b f⟩

/-- The block is there. -/
def Live (m : Blocks α) (b : Handle) : Prop := b < m.next

variable {m : Blocks α} {a : α} {b c : Handle} {f : α → α}

@[simp] theorem next_alloc : (m.alloc a).next = m.next + 1 := by simp [alloc, next]

@[simp] theorem next_change : (m.change b f).next = m.next := by simp [change, next]

@[simp] theorem read_alloc_next : (m.alloc a).read m.next = some a := by
  simp [read, alloc, next]

theorem read_alloc_of_live (h : m.Live b) : (m.alloc a).read b = m.read b :=
  List.getElem?_append_left h

@[simp] theorem read_change_self : (m.change b f).read b = (m.read b).map f := by
  simp [read, change]

theorem read_change_of_ne (h : c ≠ b) : (m.change b f).read c = m.read c := by
  exact List.getElem?_modify_ne f m.contents h.symm

theorem Live.alloc (h : m.Live b) : (m.alloc a).Live b := by
  rw [Live, next_alloc]
  exact Nat.lt_succ_of_lt h

theorem live_next : (m.alloc a).Live m.next := by
  rw [Live, next_alloc]
  exact Nat.lt_succ_self _

theorem live_change : (m.change b f).Live c ↔ m.Live c := by rw [Live, Live, next_change]

/-- A new block is no one else's. -/
theorem Live.ne_next (h : m.Live b) : b ≠ m.next := Nat.ne_of_lt h

end Blocks

end GpgFrontend
