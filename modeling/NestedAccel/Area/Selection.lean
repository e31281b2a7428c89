import NestedAccel.Csr.Slot
import NestedAccel.Text

/-!
# `NestedAccel.Area.Selection` — masks of CSR slots

A synchronization call applies the dirty slots selected by a 128-bit mask. Bit `k` of the mask
stands for the group of the eight slots from `8 * k` up, and the mask without any bit selects every
slot.

## Contents
- **Masks.** `SlotMask`, `isAll`, `groups`.
- **Selection.** `selects` decides one slot, `exceeds` whether a group past a number of slots is
  selected, and `wordMask` spreads the groups over the bits of one word of the dirty bitmap.
- **Building a mask.** `insertCsr` adds the group of a register.
-/

namespace NestedAccel

/-- A selection of groups of CSR slots. -/
@[ext] structure SlotMask where
  /-- The groups 0 to 63. -/
  low : Word
  /-- The groups 64 to 127. -/
  high : Word
deriving DecidableEq, Repr, Inhabited

namespace SlotMask

/-- The number of slots in a group. -/
def groupSize : Nat := 8

/-- The mask that selects every slot. -/
def all : SlotMask := ⟨0, 0⟩

/-- The mask selects every slot. -/
def isAll (m : SlotMask) : Bool := m.low == 0 && m.high == 0

/-- The 128 bits of the mask. -/
def groups (m : SlotMask) : BitVec 128 := m.high.toBitVec ++ m.low.toBitVec

/-- Slot `s` is selected. -/
def selects (m : SlotMask) (s : CsrSlot) : Bool := m.isAll || m.groups.getLsbD (s / groupSize)

/-- A group that starts at or past slot `n` is selected. -/
def exceeds (m : SlotMask) (n : Nat) : Bool :=
  m.groups >>> ((n + groupSize - 1) / groupSize) != 0

/-- The bits of the byte `g`, each spread over a byte of a word. -/
def spread (g : BitVec 8) : BitVec 64 :=
  ((List.range 8).filter fun i => g.getLsbD i).foldl
    (fun w i => w ||| 0xff#64 <<< (groupSize * i)) 0

/-- The slots of word `i` of the dirty bitmap that are selected. -/
def wordMask (m : SlotMask) (i : Fin 16) : Word :=
  if m.isAll then 0xffffffffffffffff
  else ⟨spread (m.groups.extractLsb' (groupSize * i) 8)⟩

/-- The mask with the group of the given register. -/
def insertCsr (m : SlotMask) (n : CsrNumber) : SlotMask :=
  let group := (CsrSlot.ofCsr n : Nat) / groupSize
  if group < 64 then { m with low := Word.setBit m.low group }
  else { m with high := Word.setBit m.high (group - 64) }

/-- The mask's one-line text. -/
def text (m : SlotMask) : String :=
  Text.labelled "CsrSyncMask" [("lo", toString m.low), ("hi", toString m.high)]

end SlotMask

end NestedAccel
