import Mathlib.Data.List.Sort
import NestedAccel.Area.Region

/-!
# `NestedAccel.Proofs.Bitmap` — the dirty bitmap as a set of slots

The dirty bitmap is scanned a word at a time, under a mask that is spread over the bits of each word.
What the scan finds has a description that knows neither words nor spreading: the slots that are
selected and dirty, in ascending order (`mem_dirtySlots`, `dirtySlots_pairwise`). Since only one list
answers to it (`eq_dirtySlots`), what becomes of the scan when bits change is read off slot by slot.

Marking and clearing are given in the same way: each changes the bit of one slot and nothing else
(`isDirty_setDirty`, `isDirty_clearDirty`), although it rewrites a word that holds 64 of them.
-/

namespace NestedAccel

/-! ## Masks -/

namespace SlotMask

/-- A bit of a union of words is a bit of one of them. -/
theorem getLsbD_foldl_or {n : Nat} (l : List Nat) (f : Nat → BitVec n) (w : BitVec n) (b : Nat) :
    (l.foldl (fun w i => w ||| f i) w).getLsbD b = (w.getLsbD b || l.any fun i => (f i).getLsbD b) := by
  induction l generalizing w with
  | nil => simp
  | cons i rest ih => rw [List.foldl_cons, ih, BitVec.getLsbD_or, List.any_cons, Bool.or_assoc]

/-- The bits of byte `i` of a word are those from `8 * i` up. -/
theorem getLsbD_byte {i b : Nat} (hb : b < 64) :
    (0xff#64 <<< (groupSize * i)).getLsbD b = decide (b / groupSize = i) := by
  have hff : ∀ k, k < 64 → (0xff#64).getLsbD k = decide (k < 8) := by decide
  unfold groupSize
  rw [BitVec.getLsbD_shiftLeft, hff _ (by omega), Bool.eq_iff_iff]
  simp only [Bool.and_eq_true, Bool.not_eq_true', decide_eq_true_eq, decide_eq_false_iff_not]
  omega

theorem getLsbD_spread (g : BitVec 8) {b : Nat} (hb : b < 64) :
    (spread g).getLsbD b = g.getLsbD (b / groupSize) := by
  have hgroup : b / groupSize < 8 := by
    unfold groupSize
    omega
  unfold spread
  rw [getLsbD_foldl_or, Bool.eq_iff_iff]
  simp only [getLsbD_byte hb, BitVec.ofNat_eq_ofNat, BitVec.getLsbD_zero, Bool.false_or,
    List.any_filter, List.any_eq_true, List.mem_range, Bool.and_eq_true, decide_eq_true_eq]
  constructor
  · rintro ⟨i, _, hi, rfl⟩
    exact hi
  · intro h
    exact ⟨_, hgroup, h, rfl⟩

/-- The bits of a mask spread over a word of the bitmap are the slots selected. -/
theorem bit_wordMask (mask : SlotMask) (i : Fin 16) (b : Fin 64) :
    Word.bit (mask.wordMask i) b = mask.selects (Area.slotOfBit i b) := by
  unfold wordMask selects
  cases mask.isAll with
  | true =>
    have hones : ∀ b : Fin 64, Word.bit 0xffffffffffffffff b = true := by decide
    exact hones b
  | false =>
    have hgroup : (b : Nat) / groupSize < 8 := by
      unfold groupSize
      omega
    have hslot : ((Area.slotOfBit i b : CsrSlot) : Nat) / groupSize =
        groupSize * i + b / groupSize := by
      unfold Area.slotOfBit groupSize
      dsimp only
      omega
    rw [if_neg Bool.false_ne_true, Bool.false_or, Word.bit, getLsbD_spread _ b.isLt,
      BitVec.getLsbD_extractLsb', hslot, decide_eq_true hgroup, Bool.true_and]

end SlotMask

namespace Area

variable {a : Area} {m : Memory} {mask : SlotMask} {s t : CsrSlot}

/-! ## The bits of the slots -/

theorem slotOfBit_bitmapIndex (s : CsrSlot) :
    slotOfBit (bitmapIndex s) ⟨s % 64, Nat.mod_lt _ (by decide)⟩ = s :=
  Fin.ext (Nat.div_add_mod s 64)

theorem isDirty_slotOfBit (a : Area) (m : Memory) (i : Fin 16) (b : Fin 64) :
    a.isDirty m (slotOfBit i b) = Word.bit (a.dirtyWord m i) b := by
  have hi : bitmapIndex (slotOfBit i b) = i := by
    apply Fin.ext
    unfold bitmapIndex slotOfBit
    dsimp only
    omega
  have hb : ((slotOfBit i b : CsrSlot) : Nat) % 64 = b := by
    unfold slotOfBit
    dsimp only
    omega
  unfold isDirty
  rw [hi, hb]

/-- A bitmap without a dirty slot is zero. -/
theorem dirtyWord_eq_zero (h : ∀ s, a.isDirty m s = false) (i : Fin 16) : a.dirtyWord m i = 0 := by
  refine Word.ext_bit fun b hb => ?_
  rw [Word.bit_zero, ← h (slotOfBit i ⟨b, hb⟩), isDirty_slotOfBit]

theorem isDirty_of_dirtyWord (h : ∀ i, a.dirtyWord m i = 0) (s : CsrSlot) :
    a.isDirty m s = false := by
  unfold isDirty
  rw [h, Word.bit_zero]

/-! ## What a scan finds -/

/-- **A scan finds the slots that are selected and dirty.** -/
theorem mem_dirtySlots :
    s ∈ a.dirtySlots m mask ↔ mask.selects s = true ∧ a.isDirty m s = true := by
  unfold dirtySlots
  simp only [List.mem_flatMap, List.mem_map, Word.mem_setBits, Word.bit_and, Bool.and_eq_true,
    List.mem_finRange, true_and]
  constructor
  · rintro ⟨i, b, ⟨hdirty, hmask⟩, rfl⟩
    rw [SlotMask.bit_wordMask] at hmask
    rw [isDirty_slotOfBit]
    exact ⟨hmask, hdirty⟩
  · rintro ⟨hmask, hdirty⟩
    refine ⟨bitmapIndex s, ⟨s % 64, Nat.mod_lt _ (by decide)⟩, ⟨hdirty, ?_⟩, slotOfBit_bitmapIndex s⟩
    rw [SlotMask.bit_wordMask, slotOfBit_bitmapIndex]
    exact hmask

/-- **A scan finds them in ascending order.** -/
theorem dirtySlots_pairwise (a : Area) (m : Memory) (mask : SlotMask) :
    (a.dirtySlots m mask).Pairwise (· < ·) := by
  unfold dirtySlots
  rw [List.pairwise_flatMap]
  constructor
  -- within one word, and from one word to the next
  · intro i _
    rw [List.pairwise_map]
    refine ((List.pairwise_lt_finRange 64).filter _).imp fun hlt => ?_
    have hlt := Fin.lt_def.1 hlt
    exact Fin.lt_def.2 (by unfold slotOfBit; dsimp only; omega)
  · refine (List.pairwise_lt_finRange 16).imp fun hlt => ?_
    have hlt := Fin.lt_def.1 hlt
    intro s hs t ht
    obtain ⟨b, _, rfl⟩ := List.mem_map.1 hs
    obtain ⟨c, _, rfl⟩ := List.mem_map.1 ht
    exact Fin.lt_def.2 (by unfold slotOfBit; dsimp only; omega)

theorem dirtySlots_nodup (a : Area) (m : Memory) (mask : SlotMask) :
    (a.dirtySlots m mask).Nodup :=
  (a.dirtySlots_pairwise m mask).imp ne_of_lt

/-- No other list answers to that. -/
theorem eq_dirtySlots {l : List CsrSlot} (hl : l.Pairwise (· < ·))
    (hmem : ∀ s, s ∈ l ↔ mask.selects s = true ∧ a.isDirty m s = true) :
    l = a.dirtySlots m mask := by
  refine List.Pairwise.eq_of_mem_iff hl (a.dirtySlots_pairwise m mask) fun s => ?_
  rw [hmem, mem_dirtySlots]

theorem selects_all (s : CsrSlot) : SlotMask.all.selects s = true := rfl

/-! ## Marking and clearing -/

/-- Writing a word of the bitmap changes the bits of its own slots only. -/
theorem isDirty_write_bitmap (i : Fin 16) (v : Word) (s : CsrSlot) :
    a.isDirty (m.write (a.bitmapBase i) v) s =
      if bitmapIndex s = i then Word.bit v (s % 64) else a.isDirty m s := by
  unfold isDirty dirtyWord
  rw [Memory.read_write]
  have hbase : a.bitmapBase (bitmapIndex s) = a.bitmapBase i ↔ bitmapIndex s = i := by
    unfold bitmapBase
    rw [Fin.ext_iff]
    omega
  simp only [hbase]
  split <;> rfl

/-- Two slots of one word of the bitmap have different bits in it. -/
theorem slot_eq_iff : s = t ↔ bitmapIndex t = bitmapIndex s ∧ (s : Nat) % 64 = t % 64 := by
  unfold bitmapIndex
  rw [Fin.ext_iff, Fin.ext_iff]
  dsimp only
  omega

/-- **Marking a slot changes its bit and no other.** -/
theorem isDirty_setDirty (a : Area) (m : Memory) (s t : CsrSlot) :
    a.isDirty (a.setDirty s m) t = (a.isDirty m t || decide (s = t)) := by
  unfold setDirty
  rw [isDirty_write_bitmap]
  split
  · rename_i hindex
    have hlt : (t : Nat) % 64 < 64 := Nat.mod_lt _ (by decide)
    have heq : s = t ↔ (s : Nat) % 64 = t % 64 := by rw [slot_eq_iff]; exact and_iff_right hindex
    rw [Word.bit_setBit, isDirty, hindex, decide_eq_true hlt, Bool.and_true]
    simp only [heq]
  · rename_i hindex
    have hne : s ≠ t := fun heq => hindex (slot_eq_iff.1 heq).1
    rw [decide_eq_false hne, Bool.or_false]

/-- **Clearing a slot changes its bit and no other.** -/
theorem isDirty_clearDirty (a : Area) (m : Memory) (s t : CsrSlot) :
    a.isDirty (a.clearDirty s m) t = (a.isDirty m t && !decide (s = t)) := by
  unfold clearDirty
  rw [isDirty_write_bitmap]
  split
  · rename_i hindex
    have heq : s = t ↔ (s : Nat) % 64 = t % 64 := by rw [slot_eq_iff]; exact and_iff_right hindex
    rw [Word.bit_clearBit, isDirty, hindex]
    simp only [heq]
  · rename_i hindex
    have hne : s ≠ t := fun heq => hindex (slot_eq_iff.1 heq).1
    rw [decide_eq_false hne, Bool.not_false, Bool.and_true]

/-! ## The parts of the area beside the bitmap -/

theorem slotValue_write_bitmap (i : Fin 16) (v : Word) (s : CsrSlot) :
    a.slotValue (m.write (a.bitmapBase i) v) s = a.slotValue m s := by
  unfold slotValue
  refine Memory.read_write_of_ne ?_
  unfold slotBase bitmapBase
  omega

theorem slotValue_clearDirty (a : Area) (m : Memory) (s t : CsrSlot) :
    a.slotValue (a.clearDirty s m) t = a.slotValue m t := slotValue_write_bitmap _ _ _

theorem slotValue_setDirty (a : Area) (m : Memory) (s t : CsrSlot) :
    a.slotValue (a.setDirty s m) t = a.slotValue m t := slotValue_write_bitmap _ _ _

end Area

end NestedAccel
