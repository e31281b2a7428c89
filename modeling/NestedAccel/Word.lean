/-!
# `NestedAccel.Word` — bits and fields of 64-bit words

Everything the guest hypervisor and its host exchange is a 64-bit word: CSR values, bitmap words,
fence configurations, call arguments. This module gives the few ways such a word is taken apart.

## Contents
- **Single bits.** `bit`, `setBit`, `clearBit`, with one equation per operation.
- **Fields.** `field w low width`, a range of bits as a number.
- **Masks.** `within mask w`: `w` has no bit outside `mask`.
- **Scans.** `setBits w`, the positions of the set bits in ascending order.
-/

namespace NestedAccel

/-- A 64-bit machine word. -/
abbrev Word := UInt64

namespace Word

/-! ## Single bits -/

/-- Bit `i` of `w`; a position past the top reads as clear. -/
def bit (w : Word) (i : Nat) : Bool := w.toBitVec.getLsbD i

/-- The word `w` with bit `i` set. -/
def setBit (w : Word) (i : Nat) : Word := ⟨w.toBitVec ||| BitVec.twoPow 64 i⟩

/-- The word `w` with bit `i` clear. -/
def clearBit (w : Word) (i : Nat) : Word := ⟨w.toBitVec &&& ~~~BitVec.twoPow 64 i⟩

@[ext] theorem ext_bit {w u : Word} (h : ∀ i, i < 64 → bit w i = bit u i) : w = u :=
  UInt64.toBitVec_inj.1 (BitVec.eq_of_getLsbD_eq h)

@[simp] theorem bit_zero (i : Nat) : bit 0 i = false := by simp [bit]

theorem bit_of_ge {w : Word} {i : Nat} (h : 64 ≤ i) : bit w i = false :=
  BitVec.getLsbD_of_ge _ _ h

@[simp] theorem bit_and (w u : Word) (i : Nat) : bit (w &&& u) i = (bit w i && bit u i) := by
  simp [bit]

@[simp] theorem bit_or (w u : Word) (i : Nat) : bit (w ||| u) i = (bit w i || bit u i) := by
  simp [bit]

/-- Setting a bit changes that bit and no other. -/
theorem bit_setBit (w : Word) (i j : Nat) :
    bit (setBit w i) j = (bit w j || (decide (i = j) && decide (j < 64))) := by
  simp only [bit, setBit, BitVec.getLsbD_or, BitVec.getLsbD_twoPow]
  by_cases h : i = j <;> by_cases hj : j < 64 <;> simp_all

/-- Clearing a bit changes that bit and no other. -/
theorem bit_clearBit (w : Word) (i j : Nat) :
    bit (clearBit w i) j = (bit w j && !decide (i = j)) := by
  by_cases hj : j < 64
  · by_cases h : i = j
    · simp [bit, clearBit, h, hj]
    · simp [bit, clearBit, h, Ne.symm h, hj]
  · simp [bit_of_ge (Nat.le_of_not_lt hj)]

/-! ## Fields -/

/-- The number held in the `width` bits of `w` from bit `low` up. -/
def field (w : Word) (low width : Nat) : Nat := w.toNat >>> low % 1 <<< width

theorem field_lt (w : Word) (low width : Nat) : field w low width < 1 <<< width := by
  refine Nat.mod_lt _ ?_
  rw [Nat.one_shiftLeft]
  exact Nat.two_pow_pos width

/-- The bits of a field are bits of the word. -/
theorem testBit_field (w : Word) (low width i : Nat) :
    (field w low width).testBit i = (decide (i < width) && bit w (low + i)) := by
  unfold field
  rw [Nat.one_shiftLeft, Nat.testBit_mod_two_pow, Nat.testBit_shiftRight]
  rfl

/-- A field is zero exactly if all of its bits are clear. -/
theorem field_eq_zero_iff {w : Word} {low width : Nat} :
    field w low width = 0 ↔ ∀ i, low ≤ i → i < low + width → bit w i = false := by
  constructor
  · intro h i hlow hhigh
    have hbit := testBit_field w low width (i - low)
    rw [h, Nat.zero_testBit, Nat.add_sub_cancel' hlow, decide_eq_true (by omega), Bool.true_and] at hbit
    exact hbit.symm
  · intro h
    apply Nat.eq_of_testBit_eq
    intro i
    rw [testBit_field, Nat.zero_testBit]
    by_cases hi : i < width
    · rw [h (low + i) (Nat.le_add_right low i) (by omega), Bool.and_false]
    · simp [hi]

/-! ## Masks -/

/-- No bit of `w` lies outside `mask`. -/
def within (mask w : Word) : Bool := w &&& ~~~mask == 0

theorem within_iff {mask w : Word} : within mask w = true ↔ w &&& ~~~mask = 0 := by
  simp [within]

/-! ## Scans -/

/-- The positions of the set bits of `w`, in ascending order. -/
def setBits (w : Word) : List (Fin 64) := (List.finRange 64).filter fun i => bit w i

@[simp] theorem mem_setBits {w : Word} {i : Fin 64} : i ∈ setBits w ↔ bit w i = true := by
  simp [setBits]

end Word

end NestedAccel
