import NestedAccel.Area.Context
import NestedAccel.Csr.Table
import NestedAccel.Request

/-!
# `NestedAccel.Check` — which requests of the guest hypervisor are granted

Every value that comes from the guest hypervisor, whether from the shared area or from a call's
operands, passes one of these checks before the host is asked to act on it. A check either produces
the request to make or says why it is refused.

## Contents
- **Refusals.** `Refusal`, with its text and the error reported for it.
- **Registers.** `slotWrite`, `csrWrite`, `csrRead`.
- **Fences.** `fence`, `fenceSlot`.
- **Interrupts.** `injection`.
- **Leaving the trap handler.** `trapReturn`, `swap`.
- **Guest memory.** `guestRange`.
-/

namespace NestedAccel

/-- Why a value of the guest hypervisor is refused. -/
inductive Refusal where
  /-- No register is assigned to the slot or number. -/
  | unassigned (index : Word)
  | readOnly (csr : CsrNumber)
  /-- The register's rule does not allow the value. -/
  | illegalValue (csr : CsrNumber) (value : Word)
  /-- A fence entry has bits without meaning set, or no known kind. -/
  | malformedFence (config : Word)
  /-- The fence list is not that long. -/
  | badFenceIndex (index : Word)
  /-- A fence entry's pages are no range of pages. -/
  | badFenceRange (first count : Word)
  /-- The trap return context has not been filled in. -/
  | notPopulated
  /-- A context has bits without meaning set. -/
  | reservedBits
  /-- The address or status to return with is invalid. -/
  | badReturnState
  | unknownInterruptKind (kind : Word)
  | badInterruptNumber (number : Word)
  | noSuchHart (hart : Word)
  | misaligned (addr : Word)
  /-- The range reaches the end of the address space. -/
  | addressOverflow (addr : Word)
deriving DecidableEq, Repr, Inhabited

namespace Refusal

/-- The error reported to the caller. -/
def sbi : Refusal → SbiError
  | misaligned _ | addressOverflow _ => .invalidAddress
  | unknownInterruptKind _ | noSuchHart _ | badFenceIndex _ => .invalidParam
  | badInterruptNumber _ => .badRange
  | notPopulated => .invalidState
  | unassigned _ | readOnly _ | illegalValue .. | malformedFence _ | badFenceRange .. |
    reservedBits | badReturnState => .denied

/-- The refusal's one-line text. -/
def text : Refusal → String
  | unassigned i => Text.applied "Unassigned" [toString i]
  | readOnly c => Text.applied "ReadOnly" [toString c]
  | illegalValue c v =>
    Text.labelled "IllegalValue" [("csr", toString c), ("value", toString v)]
  | malformedFence c => Text.applied "MalformedFence" [toString c]
  | badFenceIndex i => Text.applied "BadFenceIndex" [toString i]
  | badFenceRange f n =>
    Text.labelled "BadFenceRange" [("first", toString f), ("count", toString n)]
  | notPopulated => "NotPopulated"
  | reservedBits => "ReservedBits"
  | badReturnState => "BadReturnState"
  | unknownInterruptKind k => Text.applied "UnknownInterruptKind" [toString k]
  | badInterruptNumber n => Text.applied "BadInterruptNumber" [toString n]
  | noSuchHart h => Text.applied "NoSuchHart" [toString h]
  | misaligned a => Text.applied "Misaligned" [toString a]
  | addressOverflow a => Text.applied "AddressOverflow" [toString a]

end Refusal

namespace Check

/-! ## Registers -/

/-- A write of `v` to the assigned register `e`. -/
def write (e : Csr.Entry) (v : Word) : Except Refusal CsrWrite :=
  match e.access with
  | .readOnly => .error (.readOnly e.number)
  | .readWrite =>
    if e.rule.allows v then .ok ⟨e.number, v⟩ else .error (.illegalValue e.number v)

/-- A write of `v` to the register assigned to slot `s`. -/
def slotWrite (s : CsrSlot) (v : Word) : Except Refusal CsrWrite :=
  match Csr.entryAt? s with
  | some e => write e v
  | none => .error (.unassigned (.ofNat s))

/-- The assigned register with number `n`. Numbers that no CSR can have are not cut down to size. -/
def assigned (n : Word) : Except Refusal Csr.Entry :=
  if n.toNat ≤ CsrNumber.max.toNat then
    match Csr.entry? n.toUInt16 with
    | some e => .ok e
    | none => .error (.unassigned n)
  else .error (.unassigned n)

/-- A write of `v` to the register with number `n`. -/
def csrWrite (n v : Word) : Except Refusal CsrWrite := do
  write (← assigned n) v

/-- A read of the register with number `n`. -/
def csrRead (n : Word) : Except Refusal CsrNumber := do
  return (← assigned n).number

/-! ## Fences -/

/-- One past the largest page number. -/
def pageLimit : Nat := 1 <<< 52

/-- The pages named by a first page and a count. Two zeros name every page. -/
def pages (first count : Word) : Except Refusal (Option PageRange) :=
  if count = 0 ∧ first = 0 then .ok none
  else if count ≠ 0 ∧ first.toNat + count.toNat ≤ pageLimit then .ok (some ⟨first, count⟩)
  else .error (.badFenceRange first count)

/-- The identifier `n`, where zero stands for every identifier. -/
def wildcard (n : UInt16) : Option UInt16 := if n = 0 then none else some n

/-- The fence of a pending entry of the fence list. -/
def pendingFence (e : FenceEntry) : Except Refusal Fence :=
  match e.wellFormed, FenceKind.ofCode? e.kind with
  | true, some kind =>
    if kind = .gvma ∧ e.asid ≠ 0 then .error (.malformedFence e.config)
    else do
      return {
        kind := kind
        vmid := wildcard e.vmid
        asid := wildcard e.asid
        pages := ← pages e.pageNum e.pageCount }
  | _, _ => .error (.malformedFence e.config)

/-- The fence of an entry of the fence list, or none if the entry is not pending. -/
def fence (e : FenceEntry) : Except Refusal (Option Fence) :=
  if e.pending then some <$> pendingFence e else .ok none

/-- The entry of the fence list with index `i`. -/
def fenceSlot (i : Word) : Except Refusal FenceSlot :=
  match FenceSlot.ofIndex? i with
  | some s => .ok s
  | none => .error (.badFenceIndex i)

/-! ## Interrupts -/

/-- The interrupt of the given kind and number for hart `target`, where there are `harts` harts.
    Line zero does not exist. -/
def injection (harts : Nat) (kind number target : Word) : Except Refusal Injection :=
  match InjectionKind.ofId? kind with
  | none => .error (.unknownInterruptKind kind)
  | some kind =>
    if harts ≤ target.toNat then .error (.noSuchHart target)
    else
      match kind with
      | .vsLocal =>
        match Interrupt.ofCause number with
        | .ok i =>
          if i.isVirtualSupervisor then .ok (.vsLocal target i)
          else .error (.badInterruptNumber number)
        | .error _ => .error (.badInterruptNumber number)
      | .guestExternal =>
        if 1 ≤ number.toNat ∧ number.toNat < 64 then .ok (.guestExternal target number.toUInt8)
        else .error (.badInterruptNumber number)

/-! ## Leaving the trap handler -/

/-- The trap return described by a context. Instructions lie at even addresses, and the level
    returned to is 64 bits wide. -/
def trapReturn (c : ReturnContext) : Except Refusal TrapReturn :=
  if ¬c.populated then .error .notPopulated
  else if ¬c.wellFormed then .error .reservedBits
  else if Word.bit c.sepc 0 ∨ ¬Csr.Rule.selects64 c.sstatus then .error .badReturnState
  else .ok ⟨c.registers, c.sepc, c.sstatus⟩

/-- The write to `hstatus` asked for by a swap context, if any. -/
def swap (c : SwapContext) : Except Refusal (Option CsrWrite) :=
  if ¬c.wellFormed then .error .reservedBits
  else if ¬c.valid then .ok none
  else some <$> csrWrite CsrNumber.hstatus.toUInt64 c.hstatus

/-! ## Guest memory -/

/-- The address of a range of `len` bytes at `addr` that is aligned to the power of two `align` and
    ends within the address space. -/
def guestRange (addr len align : Word) : Except Refusal Word :=
  if addr &&& (align - 1) ≠ 0 then .error (.misaligned addr)
  else if UInt64.size ≤ addr.toNat + len.toNat then .error (.addressOverflow addr)
  else .ok addr

end Check

end NestedAccel
