import NestedAccel.Word

/-!
# `NestedAccel.Machine.Csr` — control and status registers of a RISC-V hart

A CSR has a 12-bit number. Bits 9:8 of the number name the lowest privilege level that may access
the register, and bits 11:10 are both set exactly for read-only registers.

## Contents
- **Privilege levels.** `Privilege`, `Privilege.ofCsr`.
- **Numbers.** `CsrNumber`, `CsrNumber.max`, `CsrNumber.readOnly`, and the numbers of the supervisor
  and hypervisor registers.
-/

namespace NestedAccel

/-- The number of a CSR. Registers that exist have numbers below `0x1000`. -/
abbrev CsrNumber := UInt16

/-- The privilege levels of a hart. -/
inductive Privilege where
  | user
  | supervisor
  | machine
deriving DecidableEq, Repr, Inhabited

namespace Privilege

/-- The level's name. -/
def name : Privilege → String
  | user => "User"
  | supervisor => "Supervisor"
  | machine => "Machine"

/-- The lowest level that may access the CSR with number `n`. Hypervisor registers carry the code 2
    and belong to the supervisor level. -/
def ofCsr (n : CsrNumber) : Privilege :=
  match n.toNat / 256 % 4 with
  | 0 => user
  | 3 => machine
  | _ => supervisor

end Privilege

namespace CsrNumber

/-- The largest number a CSR can have. -/
def max : CsrNumber := 0xfff

/-- The number marks its register as read-only. -/
def readOnly (n : CsrNumber) : Bool := n.toNat / 1024 % 4 == 3

/-! ## Registers of the virtual supervisor -/

def vsstatus : CsrNumber := 0x200
def vsie : CsrNumber := 0x204
def vstvec : CsrNumber := 0x205
def vsscratch : CsrNumber := 0x240
def vsepc : CsrNumber := 0x241
def vscause : CsrNumber := 0x242
def vstval : CsrNumber := 0x243
def vsip : CsrNumber := 0x244
def vstimecmp : CsrNumber := 0x24d
def vsiselect : CsrNumber := 0x250
def vsireg : CsrNumber := 0x251
def vstopei : CsrNumber := 0x25c
def vsatp : CsrNumber := 0x280
def vstopi : CsrNumber := 0xeb0

/-! ## Registers of the hypervisor -/

def hstatus : CsrNumber := 0x600
def hedeleg : CsrNumber := 0x602
def hideleg : CsrNumber := 0x603
def hie : CsrNumber := 0x604
def htimedelta : CsrNumber := 0x605
def hcounteren : CsrNumber := 0x606
def hgeie : CsrNumber := 0x607
def henvcfg : CsrNumber := 0x60a
def htval : CsrNumber := 0x643
def hip : CsrNumber := 0x644
def hvip : CsrNumber := 0x645
def htinst : CsrNumber := 0x64a
def hgatp : CsrNumber := 0x680
def hgeip : CsrNumber := 0xe12

end CsrNumber

end NestedAccel
