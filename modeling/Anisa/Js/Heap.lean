import Mathlib.Logic.Function.Basic

namespace anisa.js

/-- Objects with identity: a reference is the position an object was created
    at, and no reference is ever reused. -/
structure Heap (α : Type) where
  size : Nat
  read : Nat → α

namespace Heap

variable {α : Type}

def empty [Inhabited α] : Heap α := ⟨0, fun _ => default⟩

/-- Creating an object; its reference is the size before. -/
def alloc (h : Heap α) (a : α) : Heap α := ⟨h.size + 1, Function.update h.read h.size a⟩

def write (h : Heap α) (r : Nat) (a : α) : Heap α := ⟨h.size, Function.update h.read r a⟩

variable {h : Heap α} {a : α} {r q : Nat}

@[simp] theorem size_alloc : (h.alloc a).size = h.size + 1 := rfl

@[simp] theorem size_write : (h.write r a).size = h.size := rfl

@[simp] theorem read_alloc_self : (h.alloc a).read h.size = a := by simp [alloc]

theorem read_alloc : (h.alloc a).read r = if r = h.size then a else h.read r := by
  by_cases hr : r = h.size
  · subst hr
    simp
  · simp [alloc, hr]

theorem read_alloc_of_lt (hr : r < h.size) : (h.alloc a).read r = h.read r := by
  simp [alloc, Nat.ne_of_lt hr]

@[simp] theorem read_write_self : (h.write r a).read r = a := by simp [write]

theorem read_write_of_ne (hne : q ≠ r) : (h.write r a).read q = h.read q := by
  simp [write, hne]

/-- A field that the written object keeps is unchanged everywhere. -/
theorem field_write {β : Type} (f : α → β) (hf : f a = f (h.read r)) :
    f ((h.write r a).read q) = f (h.read q) := by
  by_cases hq : q = r
  · subst hq
    simpa using hf
  · rw [read_write_of_ne hq]

/-- Objects are created, and none of those there already changes. -/
structure Extends (h k : Heap α) : Prop where
  size : h.size ≤ k.size
  read : ∀ r < h.size, k.read r = h.read r

theorem Extends.refl (h : Heap α) : h.Extends h := ⟨Nat.le_refl _, fun _ _ => rfl⟩

theorem Extends.trans {k l : Heap α} (hfirst : h.Extends k) (hsecond : k.Extends l) : h.Extends l where
  size := Nat.le_trans hfirst.size hsecond.size
  read r hr := (hsecond.read r (Nat.lt_of_lt_of_le hr hfirst.size)).trans (hfirst.read r hr)

theorem extends_alloc (h : Heap α) (a : α) : h.Extends (h.alloc a) where
  size := Nat.le_succ _
  read _ hr := read_alloc_of_lt hr

end Heap

end anisa.js
