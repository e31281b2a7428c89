import NestedAccel.Machine.Interrupt

/-!
# `NestedAccel.Csr.Rule` — which values a CSR may be given

A value the guest hypervisor writes reaches the host only if the register's rule allows it: the
width of virtual registers stays 64 bits, only the virtual supervisor's interrupts can be enabled or
delegated, and translation uses a mode the host supports.
-/

namespace NestedAccel.Csr

/-- The rules a register's values may be subject to. -/
inductive Rule where
  /-- Every value is allowed. -/
  | any
  /-- Virtual supervisor registers stay 64 bits wide. -/
  | hstatus
  /-- Exceptions that cannot be delegated stay undelegated. -/
  | hedeleg
  /-- Only the virtual supervisor's interrupts. -/
  | vsInterrupts
  /-- Only the virtual supervisor's and the guest external interrupts. -/
  | hie
  /-- A supported mode of guest physical address translation. -/
  | hgatp
  /-- Virtual user registers stay 64 bits wide. -/
  | vsstatus
  /-- A direct or vectored trap vector. -/
  | vstvec
  /-- A supported mode of virtual address translation. -/
  | vsatp
deriving DecidableEq, Repr, Inhabited

namespace Rule

/-- The rule's name. -/
def name : Rule → String
  | any => "None"
  | hstatus => "Hstatus"
  | hedeleg => "Hedeleg"
  | vsInterrupts => "VsInterrupts"
  | hie => "Hie"
  | hgatp => "Hgatp"
  | vsstatus => "Vsstatus"
  | vstvec => "Vstvec"
  | vsatp => "Vsatp"

/-- The two bits that select the register width, in `hstatus` and in `vsstatus`, say 64 bits. -/
def selects64 (v : Word) : Bool := Word.field v 32 2 == 2

/-- The exceptions whose delegation is hardwired to zero: environment calls from the supervisor
    levels and the machine, and guest page faults. -/
def undelegable : Word := 0xF00E00

/-- The translation mode in the top four bits is supported: modes 8, 9 and 10 with any root, and
    mode 0 with nothing else set. -/
def translates (v : Word) : Bool :=
  match Word.field v 60 4 with
  | 0 => v == 0
  | 8 | 9 | 10 => true
  | _ => false

/-- The rule allows the value `v`. -/
def allows : Rule → Word → Bool
  | any, _ => true
  | hstatus, v => selects64 v
  | hedeleg, v => v &&& undelegable == 0
  | vsInterrupts, v => Word.within Interrupt.virtualSupervisorBits v
  | hie, v => Word.within (Interrupt.virtualSupervisorBits ||| Interrupt.guestExternalBit) v
  | hgatp, v => translates v
  | vsstatus, v => selects64 v
  | vstvec, v => decide (Word.field v 0 2 ≤ 1)
  | vsatp, v => translates v

end Rule

end NestedAccel.Csr
