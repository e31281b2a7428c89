import NestedAccel.Area.Region
import NestedAccel.World

/-!
# `NestedAccel.Session` — a hart's shared area and operating mode

A hart has at most one shared area. Registering one maps it, and zeroes it unless the caller asks
otherwise; releasing it discards what has not been applied. The operating mode says when dirty CSRs
are applied, and the guest hypervisor can lock it.

## Contents
- **Modes.** `Mode`.
- **Errors.** `SessionError`.
- **Sessions.** `Session`, `checkEstablish`, `establish`, `release`, `setMode`, `resetMode`.
-/

namespace NestedAccel

/-! ## Modes and errors -/

/-- When dirty CSRs are applied. -/
inductive Mode where
  /-- Only by an explicit synchronization. -/
  | deferred
  /-- On entry to every call. -/
  | eager
deriving DecidableEq, Repr, Inhabited

namespace Mode

/-- The mode's name. -/
def name : Mode → String
  | deferred => "Deferred"
  | eager => "Eager"

/-- The mode's identifier. -/
def id : Mode → Word
  | deferred => 0
  | eager => 1

/-- The mode with the given identifier. -/
def ofId? (n : Word) : Option Mode :=
  match n.toNat with
  | 0 => some deferred
  | 1 => some eager
  | _ => none

end Mode

/-- Why a session operation failed. -/
inductive SessionError where
  | misaligned (gpa : Word)
  | sizeMismatch (size : Word)
  | invalidFlags (flags : Word)
  | alreadyEstablished
  /-- The area overlaps the area of another hart. -/
  | overlap (gpa : Word)
  | map (e : MapError)
  /-- The area was mapped where its words cannot be accessed. -/
  | badMapping (gpa : Word)
  | noSession
  /-- An unknown mode, or unknown flags. -/
  | invalidMode (value : Word)
  | modeLocked
deriving DecidableEq, Repr, Inhabited

namespace SessionError

/-- The error reported to the caller. -/
def sbi : SessionError → SbiError
  | misaligned _ | overlap _ => .invalidAddress
  | sizeMismatch _ | invalidFlags _ | invalidMode _ => .invalidParam
  | alreadyEstablished => .alreadyAvailable
  | map e => e.sbi
  | badMapping _ => .failed
  | noSession => .noShmem
  | modeLocked => .deniedLocked

/-- The error's one-line text. -/
def text : SessionError → String
  | misaligned g => Text.applied "Misaligned" [toString g]
  | sizeMismatch s => Text.applied "SizeMismatch" [toString s]
  | invalidFlags f => Text.applied "InvalidFlags" [toString f]
  | alreadyEstablished => "AlreadyEstablished"
  | overlap g => Text.applied "Overlap" [toString g]
  | map e => Text.applied "Map" [e.text]
  | badMapping g => Text.applied "BadMapping" [toString g]
  | noSession => "NoSession"
  | invalidMode v => Text.applied "InvalidMode" [toString v]
  | modeLocked => "ModeLocked"

end SessionError

/-! ## Sessions -/

/-- A hart's shared area and operating mode. -/
structure Session where
  /-- The shared area, if one is registered. -/
  area : Option Area := none
  mode : Mode := .deferred
  /-- The mode can no longer be changed. -/
  locked : Bool := false
deriving DecidableEq, Repr, Inhabited

namespace Session

variable {σ ε : Type}

/-- The address of the shared area. -/
def gpa? (s : Session) : Option Word := s.area.map Area.gpa

/-- The shared area, or the error that there is none. -/
def requireArea (s : Session) : Except SessionError Area :=
  match s.area with
  | some a => .ok a
  | none => .error .noSession

/-- The flag that asks for the area's contents to be kept. -/
def keepFlag : Word := 1

/-- Accepts the operands of a registration. -/
def checkEstablish (s : Session) (gpa size flags : Word) : Except SessionError Unit :=
  if gpa % areaAlign ≠ 0 then .error (.misaligned gpa)
  else if size ≠ areaBytes then .error (.sizeMismatch size)
  else if ¬Word.within keepFlag flags then .error (.invalidFlags flags)
  else if s.area.isSome then .error .alreadyEstablished
  else .ok ()

/-- Registers the area of `size` bytes at `gpa`. A mapping whose words cannot be accessed is given
    back. -/
def establish (env : Env σ) (gpa size flags : Word) :
    Act (Session × World σ) SessionError Unit := do
  let check ← Act.gets fun st => st.1.checkEstablish gpa size flags
  Act.ofExcept check
  let mapping ← Act.onSecond ((env.mapRange gpa size).mapError .map)
  if ¬mapping.aligned then
    Act.onSecond (unmapRange gpa size)
    Act.fail (.badMapping gpa)
  else
    let a : Area := ⟨gpa, mapping.base⟩
    Act.modify fun st => ({ st.1 with area := some a }, st.2)
    if Word.bit flags 0 then pure ()
    else Act.onSecond (changeMemory a.zero)

/-- Releases the shared area, if there is one, and says where it was. -/
def release : Act (Session × World σ) ε (Option Word) := do
  match ← Act.gets fun st => st.1.area with
  | none => return none
  | some a =>
    Act.modify fun st => ({ st.1 with area := none }, st.2)
    Act.onSecond (changeMemory a.clearBitmap)
    Act.onSecond (unmapRange a.gpa areaBytes)
    return some a.gpa

/-- The flag that locks the mode. -/
def lockFlag : Word := 1

/-- The session in another mode, which is locked if the flag says so. -/
def setMode (s : Session) (mode flags : Word) : Except SessionError Session :=
  if s.locked then .error .modeLocked
  else if ¬Word.within lockFlag flags then .error (.invalidMode flags)
  else
    match Mode.ofId? mode with
    | some mode => .ok { s with mode, locked := Word.bit flags 0 }
    | none => .error (.invalidMode mode)

/-- The session in the mode a hart starts with, unlocked. -/
def resetMode (s : Session) : Session := { s with mode := .deferred, locked := false }

end Session

end NestedAccel
