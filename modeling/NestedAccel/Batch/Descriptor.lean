import NestedAccel.Memory
import NestedAccel.Sbi.Status
import NestedAccel.Text

/-!
# `NestedAccel.Batch.Descriptor` — operations of a batch

A batch is an array of descriptors in guest memory. A descriptor names an operation by its tag,
carries two operands, and receives the operation's status; a read receives its value in the place
of the second operand.

## Contents
- **Descriptors.** `Descriptor`, `Descriptor.load`, `Descriptor.store`, `Descriptor.status`.
- **Operations.** `BatchTag`, `BatchOp`, `BatchOp.ofDescriptor?`.
-/

namespace NestedAccel

/-! ## Descriptors -/

/-- A descriptor of a batch. -/
structure Descriptor where
  tag : Word
  arg0 : Word
  arg1 : Word
  /-- The status: zero, or the code of an error. -/
  ret : Word
deriving DecidableEq, Repr, Inhabited

namespace Descriptor

/-- The size of a descriptor in bytes. -/
def bytes : Nat := 32

/-- The word number of descriptor `i` of the array that starts at word `base`. -/
def position (base i : Nat) : Nat := base + 4 * i

/-- The descriptor at word `p`. -/
def load (m : Memory) (p : Nat) : Descriptor where
  tag := m.read p
  arg0 := m.read (p + 1)
  arg1 := m.read (p + 2)
  ret := m.read (p + 3)

/-- Stores the descriptor at word `p`. -/
def store (d : Descriptor) (p : Nat) (m : Memory) : Memory :=
  (((m.write p d.tag).write (p + 1) d.arg0).write (p + 2) d.arg1).write (p + 3) d.ret

/-- Stores a read value at word `p`'s descriptor. -/
def setValue (p : Nat) (v : Word) (m : Memory) : Memory := m.write (p + 2) v

/-- Stores a status at word `p`'s descriptor. -/
def setStatus (p : Nat) (v : Word) (m : Memory) : Memory := m.write (p + 3) v

/-- The outcome of the operation as the guest hypervisor reads it. -/
def status (d : Descriptor) : Except SbiError Unit := readStatus d.ret

end Descriptor

/-! ## Operations -/

/-- The operations a descriptor can name. -/
inductive BatchTag where
  | csrRead
  | csrWrite
  | hfence
  | injectInterrupt
deriving DecidableEq, Repr, Inhabited

namespace BatchTag

/-- The tag's name. -/
def name : BatchTag → String
  | csrRead => "CsrRead"
  | csrWrite => "CsrWrite"
  | hfence => "Hfence"
  | injectInterrupt => "InjectInterrupt"

/-- The tag with the given code. -/
def ofCode? (w : Word) : Option BatchTag :=
  match w.toNat with
  | 1 => some csrRead
  | 2 => some csrWrite
  | 3 => some hfence
  | 4 => some injectInterrupt
  | _ => none

end BatchTag

/-- An operation of a batch, with operands that have not been checked. -/
inductive BatchOp where
  | csrRead (csr : Word)
  | csrWrite (csr value : Word)
  | hfence (entry : Word)
  | injectInterrupt (kind number target : Word)
deriving DecidableEq, Repr, Inhabited

namespace BatchOp

/-- The operation a descriptor names, if its tag is known. The first operand of an injection holds
    the kind above the interrupt number. -/
def ofDescriptor? (d : Descriptor) : Option BatchOp :=
  match BatchTag.ofCode? d.tag with
  | some .csrRead => some (csrRead d.arg0)
  | some .csrWrite => some (csrWrite d.arg0 d.arg1)
  | some .hfence => some (hfence d.arg0)
  | some .injectInterrupt =>
    some (injectInterrupt (d.arg0 >>> 32) (d.arg0 &&& 0xffffffff) d.arg1)
  | none => none

/-- The text of an operand that has not been checked. -/
def operandText (w : Word) : String := Text.applied "Untrusted" [toString w]

/-- The operation's one-line text. -/
def text : BatchOp → String
  | csrRead c => Text.labelled "CsrRead" [("csr", operandText c)]
  | csrWrite c v =>
    Text.labelled "CsrWrite" [("csr", operandText c), ("value", operandText v)]
  | hfence e => Text.labelled "Hfence" [("entry", operandText e)]
  | injectInterrupt k n t =>
    Text.labelled "InjectInterrupt"
      [("kind", operandText k), ("number", operandText n), ("target", operandText t)]

end BatchOp

end NestedAccel
