import NestedAccel.Text
import NestedAccel.Word

/-!
# `NestedAccel.Machine.Interrupt` — interrupt causes

The thirteen interrupts of a hart with the hypervisor extension, by cause number. Three of them
belong to the virtual supervisor; a hypervisor makes one of those pending for its guest by setting
the bit with the interrupt's cause number in `hvip`.
-/

namespace NestedAccel

/-- The interrupts of a hart, in the order of their cause numbers. -/
inductive Interrupt where
  | userSoft
  | supervisorSoft
  | virtualSupervisorSoft
  | machineSoft
  | userTimer
  | supervisorTimer
  | virtualSupervisorTimer
  | machineTimer
  | userExternal
  | supervisorExternal
  | virtualSupervisorExternal
  | machineExternal
  | supervisorGuestExternal
deriving DecidableEq, Repr, Inhabited

namespace Interrupt

/-- Why a number or an interrupt cannot be used. -/
inductive Error where
  /-- No interrupt has this cause number. -/
  | unknownCause (cause : Word)
  /-- The interrupt has no bit in `hvip`. -/
  | invalidCause
deriving DecidableEq, Repr

namespace Error

/-- The error's name. -/
def name : Error → String
  | unknownCause _ => "UnknownCause"
  | invalidCause => "InvalidCause"

/-- The error's one-line text. -/
def text : Error → String
  | unknownCause c => Text.applied "UnknownCause" [toString c]
  | invalidCause => "InvalidCause"

end Error

/-- Every interrupt, in the order of the cause numbers. -/
def all : List Interrupt :=
  [userSoft, supervisorSoft, virtualSupervisorSoft, machineSoft, userTimer, supervisorTimer,
    virtualSupervisorTimer, machineTimer, userExternal, supervisorExternal,
    virtualSupervisorExternal, machineExternal, supervisorGuestExternal]

/-- The interrupt's cause number. -/
def cause : Interrupt → Nat
  | userSoft => 0
  | supervisorSoft => 1
  | virtualSupervisorSoft => 2
  | machineSoft => 3
  | userTimer => 4
  | supervisorTimer => 5
  | virtualSupervisorTimer => 6
  | machineTimer => 7
  | userExternal => 8
  | supervisorExternal => 9
  | virtualSupervisorExternal => 10
  | machineExternal => 11
  | supervisorGuestExternal => 12

/-- The interrupt's name. -/
def name : Interrupt → String
  | userSoft => "UserSoft"
  | supervisorSoft => "SupervisorSoft"
  | virtualSupervisorSoft => "VirtualSupervisorSoft"
  | machineSoft => "MachineSoft"
  | userTimer => "UserTimer"
  | supervisorTimer => "SupervisorTimer"
  | virtualSupervisorTimer => "VirtualSupervisorTimer"
  | machineTimer => "MachineTimer"
  | userExternal => "UserExternal"
  | supervisorExternal => "SupervisorExternal"
  | virtualSupervisorExternal => "VirtualSupervisorExternal"
  | machineExternal => "MachineExternal"
  | supervisorGuestExternal => "SupervisorGuestExternal"

/-- The interrupt with the given cause number. -/
def ofCause (c : Word) : Except Error Interrupt :=
  match all[c.toNat]? with
  | some i => .ok i
  | none => .error (.unknownCause c)

@[simp] theorem getElem?_all_cause (i : Interrupt) : all[i.cause]? = some i := by
  cases i <;> rfl

/-- The bits of the virtual supervisor's interrupts in the interrupt registers. -/
def virtualSupervisorBits : Word := 0x444

/-- The bit of the guest external interrupts in `hie`. -/
def guestExternalBit : Word := 0x1000

/-- The interrupt is delivered to the virtual supervisor. -/
def isVirtualSupervisor (i : Interrupt) : Bool := Word.bit virtualSupervisorBits i.cause

/-- The bit of `hvip` that makes the interrupt pending for a guest. -/
def hvipBit : Interrupt → Except Error Nat
  | virtualSupervisorSoft => .ok 2
  | virtualSupervisorTimer => .ok 6
  | virtualSupervisorExternal => .ok 10
  | _ => .error .invalidCause

end Interrupt

end NestedAccel
