import NestedAccel.Area.Fence
import NestedAccel.Machine.Csr
import NestedAccel.Machine.Interrupt
import NestedAccel.Machine.Registers
import NestedAccel.Sbi.Status
import NestedAccel.Text

/-!
# `NestedAccel.Request` — what the host is asked to do

The host keeps the guest hypervisor's virtual state: its registers, its cached translations and its
pending interrupts. Guest hypervisor calls end in a few kinds of request to the host, each of which
the host carries out or refuses.

## Contents
- **Requests.** `CsrWrite`, `Fence`, `Injection`, `TrapReturn`, and `Request`, any of them.
- **Coverage.** `Fence.covers`: which cached translations a fence drops.
- **Host errors.** `HostError`.
-/

namespace NestedAccel

/-- A write of `value` to a virtual CSR. -/
structure CsrWrite where
  csr : CsrNumber
  value : Word
deriving DecidableEq, Repr, Inhabited

/-! ## Fences -/

/-- A range of pages of 4096 bytes. -/
structure PageRange where
  /-- The first page. -/
  first : Word
  /-- The number of pages. -/
  count : Word
deriving DecidableEq, Repr, Inhabited

/-- Page `p` lies in the range. -/
def PageRange.contains (r : PageRange) (p : Word) : Bool :=
  decide (r.first.toNat ≤ p.toNat) && decide (p.toNat - r.first.toNat < r.count.toNat)

/-- A request to drop cached translations. An absent part stands for everything. -/
structure Fence where
  /-- The stage of translation. -/
  kind : FenceKind
  /-- The guest. -/
  vmid : Option UInt16
  /-- The address space within the guest. -/
  asid : Option UInt16
  /-- The pages. -/
  pages : Option PageRange
deriving DecidableEq, Repr, Inhabited

/-- A cached translation: its stage, guest, address space and page. -/
structure Translation where
  kind : FenceKind
  vmid : UInt16
  asid : UInt16
  page : Word
deriving DecidableEq, Repr, Inhabited

/-- The fence drops the translation `t`. -/
def Fence.covers (f : Fence) (t : Translation) : Bool :=
  f.kind == t.kind && f.vmid.all (· == t.vmid) && f.asid.all (· == t.asid) &&
    f.pages.all (·.contains t.page)

/-! ## Interrupts -/

/-- The two kinds of interrupt that can be injected. -/
inductive InjectionKind where
  /-- An interrupt of the virtual supervisor. -/
  | vsLocal
  /-- A guest external interrupt line. -/
  | guestExternal
deriving DecidableEq, Repr, Inhabited

namespace InjectionKind

/-- The kind's name. -/
def name : InjectionKind → String
  | vsLocal => "VsLocal"
  | guestExternal => "GuestExternal"

/-- The kind with the given identifier. -/
def ofId? (n : Word) : Option InjectionKind :=
  match n.toNat with
  | 0 => some vsLocal
  | 1 => some guestExternal
  | _ => none

end InjectionKind

/-- An interrupt to make pending for a hart of the guest hypervisor. -/
inductive Injection where
  | vsLocal (target : Word) (interrupt : Interrupt)
  | guestExternal (target : Word) (line : UInt8)
deriving DecidableEq, Repr, Inhabited

/-- The hart the interrupt is for. -/
def Injection.target : Injection → Word
  | vsLocal t _ => t
  | guestExternal t _ => t

/-! ## Trap returns -/

/-- The state with which the guest hypervisor leaves its trap handler. -/
structure TrapReturn where
  registers : Registers
  /-- The address to continue at. -/
  sepc : Word
  /-- The status to continue with. -/
  sstatus : Word
deriving DecidableEq, Inhabited

/-- The level the trap return leads to, which bit 8 of the status selects. -/
def TrapReturn.target (t : TrapReturn) : Privilege :=
  if Word.bit t.sstatus 8 then .supervisor else .user

/-! ## Requests -/

/-- A request to the host. -/
inductive Request where
  | readCsr (csr : CsrNumber)
  | writeCsr (write : CsrWrite)
  | fence (fence : Fence)
  | inject (injection : Injection)
  | trapReturn (state : TrapReturn)
deriving DecidableEq, Inhabited

/-- Why the host did not carry a request out. -/
inductive HostError where
  | failed
  | io
  | timeout
deriving DecidableEq, Repr, Inhabited

namespace HostError

/-- The error's name. -/
def name : HostError → String
  | failed => "Failed"
  | io => "Io"
  | timeout => "Timeout"

/-- The error reported to the caller. -/
def sbi : HostError → SbiError
  | failed => .failed
  | io => .io
  | timeout => .timeout

end HostError

end NestedAccel
