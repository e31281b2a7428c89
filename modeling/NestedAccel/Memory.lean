import NestedAccel.Word

/-!
# `NestedAccel.Memory` — guest physical memory as aligned words

Every access to guest memory made on either side of the interface is an aligned 64-bit access, so
memory is a function from word numbers to words: the word at byte address `a` has number `a / 8`.
Word numbers are natural numbers and never wrap around.

## Contents
- **Memory.** `Memory`, equal as soon as every word is equal.
- **Single words.** `read`, `write`.
- **Ranges.** `load` and `store` of a vector of words, `clear` of a range.
- **Tabulation.** `tabulate`, the same memory with a range held in a table.
-/

namespace NestedAccel

/-- The contents of guest physical memory, by word number. -/
@[ext] structure Memory where
  /-- The word with the given number. -/
  word : Nat → Word

namespace Memory

/-- Memory filled with zeros. -/
def zero : Memory := ⟨fun _ => 0⟩

instance : Inhabited Memory := ⟨zero⟩

/-! ## Single words -/

/-- The word with number `a`. -/
def read (m : Memory) (a : Nat) : Word := m.word a

/-- Stores `v` in the word with number `a`. -/
def write (m : Memory) (a : Nat) (v : Word) : Memory :=
  ⟨fun b => if b = a then v else m.word b⟩

theorem ext_read {m n : Memory} (h : ∀ a, m.read a = n.read a) : m = n :=
  Memory.ext (funext h)

@[simp] theorem read_zero (a : Nat) : zero.read a = 0 := rfl

theorem read_write (m : Memory) (a b : Nat) (v : Word) :
    (m.write a v).read b = if b = a then v else m.read b := rfl

@[simp] theorem read_write_same (m : Memory) (a : Nat) (v : Word) :
    (m.write a v).read a = v := by simp [read_write]

theorem read_write_of_ne {m : Memory} {a b : Nat} {v : Word} (h : b ≠ a) :
    (m.write a v).read b = m.read b := by simp [read_write, h]

/-! ## Ranges -/

/-- The `n` words from word number `start` up. -/
def load (m : Memory) (start n : Nat) : Vector Word n :=
  Vector.ofFn fun i => m.read (start + i)

/-- Stores the words of `vs` from word number `start` up. -/
def store {n : Nat} (m : Memory) (start : Nat) (vs : Vector Word n) : Memory :=
  ⟨fun b => if h : start ≤ b ∧ b < start + n then vs[b - start] else m.word b⟩

/-- Stores zero in the `n` words from word number `start` up. -/
def clear (m : Memory) (start n : Nat) : Memory :=
  ⟨fun b => if start ≤ b ∧ b < start + n then 0 else m.word b⟩

@[simp] theorem getElem_load (m : Memory) (start n i : Nat) (h : i < n) :
    (m.load start n)[i] = m.read (start + i) := by simp [load]

theorem read_clear (m : Memory) (start n b : Nat) :
    (m.clear start n).read b = if start ≤ b ∧ b < start + n then 0 else m.read b := rfl

/-! ## Tabulation -/

/-- The memory whose words from `start` up are those of the table `cells` and whose other words
    are those of `m`. -/
def overlay (m : Memory) (start : Nat) (cells : Array Word) : Memory :=
  ⟨fun b => if h : start ≤ b ∧ b < start + cells.size then cells[b - start]
    else m.word b⟩

/-- The same memory with the `n` words from `start` up held in a table, so that reading one takes
    constant time however many writes came before. -/
def tabulate (m : Memory) (start n : Nat) : Memory :=
  m.overlay start (Array.ofFn fun i : Fin n => m.read (start + i))

theorem tabulate_eq (m : Memory) (start n : Nat) : m.tabulate start n = m := by
  apply ext_read
  intro b
  simp only [tabulate, overlay, read, Array.size_ofFn, Array.getElem_ofFn]
  split
  · congr 1
    omega
  · rfl

end Memory

end NestedAccel
