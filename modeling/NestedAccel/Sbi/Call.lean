import NestedAccel.Machine.Registers
import NestedAccel.Sbi.Status
import NestedAccel.Text

/-!
# `NestedAccel.Sbi.Call` — the calls a guest hypervisor can make

A call is made through eight argument registers: the extension in the last, the function within the
extension before it, and up to six operands. Two extensions are understood: the base extension, by
which the guest hypervisor finds out what it runs on, and the nested acceleration extension.

## Contents
- **Calls.** `BaseCall`, `AccelCall`, `Call`.
- **Encoding.** `functionId`, `operands`, and `Call.arguments`, the eight words.
- **Decoding.** `Call.ofArguments`, which refuses unknown functions and extensions.
- **Texts.** The one-line text of a call, used in log lines.

`Call.ofArguments_arguments` says that decoding the eight words of a call gives the call back.
-/

namespace NestedAccel

/-- The functions of the base extension. -/
inductive BaseCall where
  /-- The version of the call interface. -/
  | specificationVersion
  /-- Which implementation answers the calls. -/
  | implementationId
  /-- The version of the implementation. -/
  | implementationVersion
  /-- Whether an extension is available. -/
  | probeExtension (ext : Word)
deriving DecidableEq, Repr, Inhabited

/-- The functions of the nested acceleration extension. -/
inductive AccelCall where
  /-- The version of an optional feature, or zero. -/
  | probeFeature (feature : Word)
  /-- Registers the shared area of the calling hart, or releases it. -/
  | setShmem (addr flags : Word)
  /-- Applies the dirty CSRs selected by a 128-bit mask. -/
  | syncCsr (low high : Word)
  /-- Performs one pending fence of the fence list, or all of them. -/
  | syncHfence (index : Word)
  /-- Applies the dirty CSRs and returns from the guest hypervisor's trap handler. -/
  | syncSret (flags : Word)
  /-- Runs an array of operation descriptors. -/
  | batchExecute (addr count : Word)
  /-- Makes an interrupt pending for a hart of the guest hypervisor. -/
  | injectInterrupt (kind number target : Word)
  /-- The version of the extension. -/
  | getVersion
  /-- The operating mode of the calling hart. -/
  | getMode
  /-- Changes the operating mode of the calling hart. -/
  | setMode (mode flags : Word)
  /-- The value of a counter, which is cleared afterwards if `clear` is not zero. -/
  | getStatistic (counter clear : Word)
deriving DecidableEq, Repr, Inhabited

/-- A call of one of the two extensions. -/
inductive Call where
  | base (call : BaseCall)
  | accel (call : AccelCall)
deriving DecidableEq, Repr, Inhabited

/-! ## The base extension -/

namespace BaseCall

/-- The number of the base extension. -/
def extension : Word := 0x10

/-- The number of the function. -/
def functionId : BaseCall → Word
  | specificationVersion => 0
  | implementationId => 1
  | implementationVersion => 2
  | probeExtension _ => 3

/-- The six operands of the call, unused ones zero. -/
def operands : BaseCall → List Word
  | probeExtension ext => [ext, 0, 0, 0, 0, 0]
  | _ => [0, 0, 0, 0, 0, 0]

/-- The call of function `f` with first operand `a`. -/
def decode (f a : Word) : Except SbiError BaseCall :=
  match f.toNat with
  | 0 => .ok specificationVersion
  | 1 => .ok implementationId
  | 2 => .ok implementationVersion
  | 3 => .ok (probeExtension a)
  | _ => .error .notSupported

/-- The call's one-line text. -/
def text : BaseCall → String
  | specificationVersion => "GetSpecificationVersion"
  | implementationId => "GetImplementationID"
  | implementationVersion => "GetImplementationVersion"
  | probeExtension ext => Text.applied "ProbeSbiExtension" [toString ext]

end BaseCall

/-! ## The nested acceleration extension -/

namespace AccelCall

/-- The number of the nested acceleration extension. -/
def extension : Word := 0x4E41434C

/-- The number of the function. -/
def functionId : AccelCall → Word
  | probeFeature _ => 0
  | setShmem .. => 1
  | syncCsr .. => 2
  | syncHfence _ => 3
  | syncSret _ => 4
  | batchExecute .. => 5
  | injectInterrupt .. => 6
  | getVersion => 7
  | getMode => 8
  | setMode .. => 9
  | getStatistic .. => 10

/-- The six operands of the call, unused ones zero. -/
def operands : AccelCall → List Word
  | probeFeature a => [a, 0, 0, 0, 0, 0]
  | setShmem a b => [a, b, 0, 0, 0, 0]
  | syncCsr a b => [a, b, 0, 0, 0, 0]
  | syncHfence a => [a, 0, 0, 0, 0, 0]
  | syncSret a => [a, 0, 0, 0, 0, 0]
  | batchExecute a b => [a, b, 0, 0, 0, 0]
  | injectInterrupt a b c => [a, b, c, 0, 0, 0]
  | getVersion => [0, 0, 0, 0, 0, 0]
  | getMode => [0, 0, 0, 0, 0, 0]
  | setMode a b => [a, b, 0, 0, 0, 0]
  | getStatistic a b => [a, b, 0, 0, 0, 0]

/-- The call of function `f` with first operands `a`, `b` and `c`. -/
def decode (f a b c : Word) : Except SbiError AccelCall :=
  match f.toNat with
  | 0 => .ok (probeFeature a)
  | 1 => .ok (setShmem a b)
  | 2 => .ok (syncCsr a b)
  | 3 => .ok (syncHfence a)
  | 4 => .ok (syncSret a)
  | 5 => .ok (batchExecute a b)
  | 6 => .ok (injectInterrupt a b c)
  | 7 => .ok getVersion
  | 8 => .ok getMode
  | 9 => .ok (setMode a b)
  | 10 => .ok (getStatistic a b)
  | _ => .error .notSupported

/-- The call's one-line text. -/
def text : AccelCall → String
  | probeFeature f => Text.labelled "ProbeFeature" [("feature_id", toString f)]
  | setShmem a f =>
    Text.labelled "SetShmem" [("shmem_addr", toString a), ("flags", toString f)]
  | syncCsr l h => Text.labelled "SyncCsr" [("mask_lo", toString l), ("mask_hi", toString h)]
  | syncHfence i => Text.labelled "SyncHfence" [("entry_index", toString i)]
  | syncSret f => Text.labelled "SyncSret" [("flags", toString f)]
  | batchExecute a n =>
    Text.labelled "BatchExecute" [("addr", toString a), ("count", toString n)]
  | injectInterrupt k n t =>
    Text.labelled "InjectInterrupt"
      [("kind", toString k), ("number", toString n), ("target", toString t)]
  | getVersion => "GetVersion"
  | getMode => "GetMode"
  | setMode m f => Text.labelled "SetMode" [("mode", toString m), ("flags", toString f)]
  | getStatistic s c =>
    Text.labelled "GetStatistic" [("stat_id", toString s), ("clear", toString c)]

end AccelCall

/-! ## Both extensions -/

namespace Call

/-- The number of the call's extension. -/
def extension : Call → Word
  | base _ => BaseCall.extension
  | accel _ => AccelCall.extension

/-- The number of the call's function within its extension. -/
def functionId : Call → Word
  | base c => c.functionId
  | accel c => c.functionId

/-- The six operands of the call, unused ones zero. -/
def operands : Call → List Word
  | base c => c.operands
  | accel c => c.operands

/-- The eight argument words of the call. -/
def arguments (c : Call) : List Word := c.operands ++ [c.functionId, c.extension]

/-- The call made by the given argument words. Words past the eighth are ignored. -/
def ofArguments : List Word → Except SbiError Call
  | a :: b :: c :: _ :: _ :: _ :: f :: ext :: _ =>
    if ext = BaseCall.extension then base <$> BaseCall.decode f a
    else if ext = AccelCall.extension then accel <$> AccelCall.decode f a b c
    else .error .notSupported
  | _ => .error .invalidParam

/-- The call made by the argument registers. -/
def ofRegisters (rs : Registers) : Except SbiError Call := ofArguments rs.arguments

/-- The call's one-line text. -/
def text : Call → String
  | base c => Text.applied "Base" [c.text]
  | accel c => Text.applied "Nacl" [c.text]

/-- Decoding the words of a call gives the call back. -/
theorem ofArguments_arguments (c : Call) : ofArguments c.arguments = .ok c := by
  cases c with
  | base c => cases c <;> rfl
  | accel c => cases c <;> rfl

end Call

namespace Return

/-- Stores the two words of the return in the registers that carry them. -/
def deliver (r : Return) (rs : Registers) : Registers :=
  (rs.set Reg.a0 (.ofInt r.code)).set Reg.a1 r.value

end Return

end NestedAccel
