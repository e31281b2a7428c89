import NestedAccel.Platform.Registry

/-!
# `NestedAccel.Platform.Ecall` — answering an environment call

An environment call is decoded from the argument registers, answered by the platform, and its two
result words are put into the registers. Nothing is put there after a trap return, since the
registers then belong to the context returned to.

## Contents
- **Actions.** `EcallAction`: what becomes of the calling hart.
- **Answers.** `BaseCall.answer`, `Platform.setShmem`, `Platform.answer`, `Platform.ecall`.
-/

namespace NestedAccel

/-- What becomes of the hart that made a call. -/
inductive EcallAction where
  /-- The hart is unknown; it is told that the call is not supported. -/
  | unhandled
  /-- The hart goes on after the call with the given result. -/
  | resume (result : Return)
  /-- The hart goes on where the trap return leads. -/
  | trapReturn
deriving DecidableEq, Repr, Inhabited

/-- Puts the result of the call into the registers. -/
def EcallAction.deliver : EcallAction → Registers → Registers
  | unhandled, rs => (Return.failure .notSupported).deliver rs
  | resume r, rs => r.deliver rs
  | trapReturn, rs => rs

/-- The answer to a call of the base extension: version 2.0 of the interface, implementation 7, and
    the two extensions that are available. -/
def BaseCall.answer : BaseCall → Word
  | specificationVersion => 0x2000000
  | implementationId => 7
  | implementationVersion => 0
  | probeExtension ext =>
    if ext = BaseCall.extension ∨ ext = AccelCall.extension then 1 else 0

namespace Platform

variable {σ ε : Type}

/-- The address that releases the shared area instead of registering one. -/
def releaseAddress : Word := 0xffffffffffffffff

/-- Registers or releases the shared area of hart `id`. -/
def setShmem (env : Env σ) (id addr flags : Word) : Act (Platform × World σ) PlatformError Unit :=
  if addr = releaseAddress then release id else establish env id addr flags

/-- Answers a call of the nested acceleration extension made by hart `id`. -/
def answer (env : Env σ) (id : Word) (caller : Privilege) (call : AccelCall) :
    Act (Platform × World σ) ε EcallAction := do
  match call with
  | .setShmem addr flags =>
    match ← (setShmem env id addr flags).attempt with
    | .ok () => return .resume (.success 0)
    | .error (.noSuchHart _) => return .unhandled
    | .error (.session e) => return .resume (.failure e.sbi)
  | call =>
    if (← Act.gets fun st => st.1.hart? id).isNone then return .unhandled
    else
      match ← (handle env id caller call).attempt with
      | .ok (.value v) => return .resume (.success v)
      | .ok .trapReturned => return .trapReturn
      | .error e => return .resume (.failure e)

/-- Answers the call that hart `id` has made at level `caller` with the given registers. The result
    is what becomes of the hart, and its registers afterwards. -/
def ecall (env : Env σ) (id : Word) (caller : Privilege) (rs : Registers) :
    Act (Platform × World σ) ε (EcallAction × Registers) := do
  let action ←
    match Call.ofRegisters rs with
    | .ok (.base call) => pure (.resume (.success call.answer))
    | .ok (.accel call) => answer env id caller call
    | .error e => pure (.resume (.failure e))
  return (action, action.deliver rs)

end Platform

end NestedAccel
