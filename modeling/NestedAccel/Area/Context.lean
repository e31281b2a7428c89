import NestedAccel.Machine.Registers

/-!
# `NestedAccel.Area.Context` — the trap return and swap contexts

Two groups of words at the start of the shared area describe how the guest hypervisor leaves its
trap handler.

The trap return context has a header where `x0` would be, the registers `x1` to `x31`, the address
to return to and the status to return with; the rest is reserved. Bit 0 of the header says that the
context has been filled in.

The swap context has a flag word and a value for `hstatus`. If bit 0 of the flags is set, the value
changes places with the host's `hstatus` on the way out.
-/

namespace NestedAccel

/-! ## Trap return -/

/-- The words of a trap return context. -/
@[ext] structure ReturnContext where
  words : Vector Word 64
deriving DecidableEq

namespace ReturnContext

/-- The header word. -/
def header (c : ReturnContext) : Word := c.words[0]

/-- The context has been filled in. -/
def populated (c : ReturnContext) : Bool := Word.bit c.header 0

/-- The saved registers; the header's place belongs to `x0`, which is zero. -/
def registers (c : ReturnContext) : Registers :=
  .ofWords (Vector.ofFn fun i : Fin 32 => c.words[i.val])

/-- The address to return to. -/
def sepc (c : ReturnContext) : Word := c.words[32]

/-- The status to return with. -/
def sstatus (c : ReturnContext) : Word := c.words[33]

/-- The bits and words without meaning are zero. -/
def wellFormed (c : ReturnContext) : Bool :=
  Word.within 1 c.header && (c.words.toList.drop 34).all (· == 0)

/-- The filled-in context with the given registers, address and status. -/
def make (rs : Registers) (sepc sstatus : Word) : ReturnContext where
  words := Vector.ofFn fun i : Fin 64 =>
    if i = 0 then 1
    else if h : i.val < 32 then rs.words[i.val]
    else if i = 32 then sepc
    else if i = 33 then sstatus
    else 0

end ReturnContext

/-! ## Swapping `hstatus` -/

/-- The words of a swap context. -/
@[ext] structure SwapContext where
  words : Vector Word 16
deriving DecidableEq

namespace SwapContext

/-- The flag word. -/
def flags (c : SwapContext) : Word := c.words[0]

/-- The value to swap in. -/
def hstatus (c : SwapContext) : Word := c.words[1]

/-- The context asks for `hstatus` to be swapped. -/
def valid (c : SwapContext) : Bool := Word.bit c.flags 0

/-- The flag bits without meaning are zero. -/
def wellFormed (c : SwapContext) : Bool := Word.within 1 c.flags

/-- The context that asks for `hstatus` to be swapped with `v`. -/
def make (v : Word) : SwapContext where
  words := ((Vector.replicate 16 0).set 0 1).set 1 v

end SwapContext

end NestedAccel
