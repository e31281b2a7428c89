import NestedAccel.Area.Context
import NestedAccel.Area.Fence
import NestedAccel.Area.Selection
import NestedAccel.Memory

/-!
# `NestedAccel.Area.Region` — the shared area of a hart

The guest hypervisor and its host share 12288 bytes of guest memory per hart: the trap return and
swap contexts, the fence list, a bitmap of the CSR slots that have been written, and the CSR array.
Both sides reach the area through the operations of this module, which read and write guest memory
at the area's words.

## Contents
- **Layout.** Word offsets of the parts, `areaBytes`, `areaAlign`.
- **Areas.** `Area`: a guest physical address and the word number where the area is found.
- **Ranges.** `rangesOverlap`, which decides whether two byte ranges share a byte.
- **The host's side.** Bitmap, slots, fence entries and contexts, and the few words the host writes.
- **The guest's side.** `writeCsr`, `readCsr`, `pushFence`.
-/

namespace NestedAccel

/-! ## Layout -/

/-- The size of a shared area in bytes. -/
def areaBytes : Word := 12288

/-- The alignment of a shared area in bytes. -/
def areaAlign : Word := 4096

/-- The byte ranges of length `aLen` from `a` and of length `bLen` from `b` have a byte in common.
    A range that reaches past the end of the address space is cut off at its last address. -/
def rangesOverlap (a aLen b bLen : Word) : Bool :=
  let aEnd := min (a.toNat + aLen.toNat) (UInt64.size - 1)
  let bEnd := min (b.toNat + bLen.toNat) (UInt64.size - 1)
  decide (a.toNat < bEnd) && decide (b.toNat < aEnd)

/-- A shared area as one side sees it. -/
structure Area where
  /-- The guest physical address the area was registered at. -/
  gpa : Word
  /-- The word number of the area's first word. -/
  base : Nat
deriving DecidableEq, Repr, Inhabited

namespace Area

/-- The number of words of an area. -/
def words : Nat := 1536

/-- The area at `gpa` as the guest hypervisor sees it. -/
def ofGuest (gpa : Word) : Area := ⟨gpa, gpa.toNat / 8⟩

/-- The first word of the trap return context. -/
def returnBase (a : Area) : Nat := a.base

/-- The first word of the swap context. -/
def swapBase (a : Area) : Nat := a.base + 64

/-- The first word of entry `s` of the fence list. -/
def fenceBase (a : Area) (s : FenceSlot) : Nat := a.base + 96 + 4 * s

/-- The word of the dirty bitmap with index `i`. -/
def bitmapBase (a : Area) (i : Fin 16) : Nat := a.base + 496 + i

/-- The word of slot `s` of the CSR array. -/
def slotBase (a : Area) (s : CsrSlot) : Nat := a.base + 512 + s

/-- The `len` bytes from `gpa` have a byte in common with the area. -/
def overlaps (a : Area) (gpa len : Word) : Bool := rangesOverlap a.gpa areaBytes gpa len

/-- Zeroes the area. -/
def zero (a : Area) (m : Memory) : Memory := m.clear a.base words

/-! ## The dirty bitmap -/

/-- The word of the dirty bitmap that slot `s` has its bit in. -/
def bitmapIndex (s : CsrSlot) : Fin 16 := ⟨s / 64, by omega⟩

/-- The word of the dirty bitmap with index `i`; an index past the end names the last word. -/
def bitmapIndexOf (i : Nat) : Fin 16 := ⟨min i 15, by omega⟩

/-- Word `i` of the dirty bitmap. -/
def dirtyWord (a : Area) (m : Memory) (i : Fin 16) : Word := m.read (a.bitmapBase i)

/-- Slot `s` has been written and not applied since. -/
def isDirty (a : Area) (m : Memory) (s : CsrSlot) : Bool :=
  Word.bit (a.dirtyWord m (bitmapIndex s)) (s % 64)

/-- Marks slot `s` as written. -/
def setDirty (a : Area) (s : CsrSlot) (m : Memory) : Memory :=
  m.write (a.bitmapBase (bitmapIndex s)) (Word.setBit (a.dirtyWord m (bitmapIndex s)) (s % 64))

/-- Marks slot `s` as applied. -/
def clearDirty (a : Area) (s : CsrSlot) (m : Memory) : Memory :=
  m.write (a.bitmapBase (bitmapIndex s)) (Word.clearBit (a.dirtyWord m (bitmapIndex s)) (s % 64))

/-- Marks every slot as applied. -/
def clearBitmap (a : Area) (m : Memory) : Memory := m.clear (a.bitmapBase 0) 16

/-- The slot whose bit is bit `b` of word `i` of the dirty bitmap. -/
def slotOfBit (i : Fin 16) (b : Fin 64) : CsrSlot := ⟨64 * i + b, by omega⟩

/-- The dirty slots selected by `mask`, in ascending order. -/
def dirtySlots (a : Area) (m : Memory) (mask : SlotMask) : List CsrSlot :=
  (List.finRange 16).flatMap fun i =>
    (Word.setBits (a.dirtyWord m i &&& mask.wordMask i)).map (slotOfBit i)

/-! ## The CSR array -/

/-- The value in slot `s`. -/
def slotValue (a : Area) (m : Memory) (s : CsrSlot) : Word := m.read (a.slotBase s)

/-! ## The fence list -/

/-- Entry `s` of the fence list. -/
def fenceEntry (a : Area) (m : Memory) (s : FenceSlot) : FenceEntry where
  config := m.read (a.fenceBase s)
  pageNum := m.read (a.fenceBase s + 1)
  pageCount := m.read (a.fenceBase s + 2)
  reserved := m.read (a.fenceBase s + 3)

/-- Marks entry `s` of the fence list as performed. -/
def finishFence (a : Area) (s : FenceSlot) (m : Memory) : Memory :=
  m.write (a.fenceBase s) (Word.clearBit (m.read (a.fenceBase s)) FenceEntry.pendingBit)

/-! ## The contexts -/

/-- The trap return context. -/
def returnContext (a : Area) (m : Memory) : ReturnContext := ⟨m.load a.returnBase 64⟩

/-- The swap context. -/
def swapContext (a : Area) (m : Memory) : SwapContext := ⟨m.load a.swapBase 16⟩

/-- Stores `v` as the value of the swap context. -/
def setSwapValue (a : Area) (v : Word) (m : Memory) : Memory := m.write (a.swapBase + 1) v

/-! ## The guest's side -/

/-- Stores `v` in the slot of register `n` and marks the slot as written. -/
def writeCsr (a : Area) (n : CsrNumber) (v : Word) (m : Memory) : Memory :=
  a.setDirty (.ofCsr n) (m.write (a.slotBase (.ofCsr n)) v)

/-- The value in the slot of register `n`. -/
def readCsr (a : Area) (m : Memory) (n : CsrNumber) : Word := a.slotValue m (.ofCsr n)

/-- The first entry of the fence list that is not pending, if there is one. -/
def freeFence? (a : Area) (m : Memory) : Option FenceSlot :=
  (List.finRange 56).find? fun s => !(a.fenceEntry m s).pending

/-- Fills entry `s` of the fence list from `e` and sets its pending bit. The word without meaning
    keeps what it holds. -/
def fillFence (a : Area) (s : FenceSlot) (e : FenceEntry) (m : Memory) : Memory :=
  ((m.write (a.fenceBase s + 1) e.pageNum).write (a.fenceBase s + 2) e.pageCount).write
    (a.fenceBase s) (Word.setBit e.config FenceEntry.pendingBit)

/-- Fills the first free entry of the fence list from `e`, and says which; none if every entry is
    pending. -/
def pushFence (a : Area) (e : FenceEntry) (m : Memory) : Option FenceSlot × Memory :=
  match a.freeFence? m with
  | none => (none, m)
  | some s => (some s, a.fillFence s e m)

/-- Stores a trap return context. -/
def setReturnContext (a : Area) (c : ReturnContext) (m : Memory) : Memory :=
  m.store a.returnBase c.words

/-- Stores a swap context. -/
def setSwapContext (a : Area) (c : SwapContext) (m : Memory) : Memory :=
  m.store a.swapBase c.words

end Area

end NestedAccel
