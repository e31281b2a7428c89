import NestedAccel.Machine.Csr
import NestedAccel.Text

/-!
# `NestedAccel.Csr.Slot` — slots of the CSR array

The shared area holds one word per slot of a 1024-slot CSR array. Hypervisor and virtual supervisor
registers have the bits 9:8 of their number equal to 2, so a slot is named by the other ten bits.
Registers of other levels fall on the same slots; the table of assigned registers tells which one a
slot belongs to.
-/

namespace NestedAccel

/-- The index of a slot of the CSR array. -/
abbrev CsrSlot := Fin 1024

namespace CsrSlot

/-- The slot with the given index, if the array is that long. -/
def ofIndex? (i : Nat) : Option CsrSlot := if h : i < 1024 then some ⟨i, h⟩ else none

/-- The slot a CSR number falls on: bits 11:10 and 7:0 of the number. -/
def ofCsr (n : CsrNumber) : CsrSlot :=
  ⟨n.toNat / 1024 % 4 * 256 + n.toNat % 256, by omega⟩

/-- The slot's one-line text. -/
def text (s : CsrSlot) : String := Text.applied "CsrSlot" [toString s.val]

end CsrSlot

end NestedAccel
