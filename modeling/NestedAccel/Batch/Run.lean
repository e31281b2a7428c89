import NestedAccel.Batch.Descriptor
import NestedAccel.Sync.Fences

/-!
# `NestedAccel.Batch.Run` — running a batch

A batch runs only if its array can be accessed, keeps clear of every shared area, and names known
operations only. Its operations then run in array order; one that fails does not stop the others.
The status of each goes into its descriptor, and the tally of all is the result.

## Contents
- **Errors.** `BatchError`: why no operation ran.
- **Tallies.** `Tally`, a sum over operations.
- **Operations.** `Env.runOp`, `Env.runDescriptor`, `Env.runDescriptors`.
- **Batches.** `Env.runBatch`.
-/

namespace NestedAccel

/-! ## Errors -/

/-- Why no operation of a batch ran. -/
inductive BatchError where
  /-- The calling hart has no shared area. -/
  | noSession
  | tooMany (count : Word)
  | address (refusal : Refusal)
  /-- The array overlaps the shared area at the given address. -/
  | sharedArea (gpa : Word)
  | map (e : MapError)
  /-- The array was mapped where descriptors cannot be accessed. -/
  | badMapping (addr : Word)
  | unknownTag (index : Nat) (tag : Word)
deriving DecidableEq, Repr, Inhabited

namespace BatchError

/-- The error reported to the caller. -/
def sbi : BatchError → SbiError
  | noSession => .noShmem
  | tooMany _ | unknownTag .. => .invalidParam
  | address r => r.sbi
  | sharedArea _ => .invalidAddress
  | map e => e.sbi
  | badMapping _ => .failed

/-- The error's one-line text. -/
def text : BatchError → String
  | noSession => "NoSession"
  | tooMany n => Text.applied "TooMany" [toString n]
  | address r => Text.applied "Address" [r.text]
  | sharedArea g => Text.applied "SharedArea" [toString g]
  | map e => Text.applied "Map" [e.text]
  | badMapping a => Text.applied "BadMapping" [toString a]
  | unknownTag i t => Text.labelled "UnknownTag" [("index", toString i), ("tag", toString t)]

end BatchError

/-! ## Tallies -/

/-- What the operations of a batch came to. -/
@[ext] structure Tally where
  succeeded : Nat := 0
  failed : Nat := 0
  /-- Failures for values that were refused. -/
  denied : Nat := 0
  /-- Fences performed. -/
  fences : Nat := 0
  /-- Interrupts injected. -/
  interrupts : Nat := 0
deriving DecidableEq, Repr, Inhabited

namespace Tally

/-- The tallies of two parts together. -/
def add (t u : Tally) : Tally where
  succeeded := t.succeeded + u.succeeded
  failed := t.failed + u.failed
  denied := t.denied + u.denied
  fences := t.fences + u.fences
  interrupts := t.interrupts + u.interrupts

instance : Add Tally := ⟨add⟩

/-- The tally of one operation that failed with error `e`. -/
def ofError (e : SbiError) : Tally :=
  { failed := 1, denied := if e = .denied then 1 else 0 }

end Tally

/-! ## Operations -/

/-- What an operation that succeeded has produced. -/
inductive OpResult where
  | nothing
  | value (v : Word)
  | fences (n : Nat)
  | interrupt
deriving DecidableEq, Repr, Inhabited

/-- The tally of one operation that succeeded. -/
def OpResult.tally : OpResult → Tally
  | nothing | value _ => { succeeded := 1 }
  | fences n => { succeeded := 1, fences := n }
  | interrupt => { succeeded := 1, interrupts := 1 }

variable {σ ε : Type}

/-- Runs one operation for a hart with shared area `a`, where there are `harts` harts. -/
def Env.runOp (env : Env σ) (harts : Nat) (a : Area) : BatchOp → Act (World σ) SbiError OpResult
  | .csrRead n => do
    let csr ← (Act.ofExcept (Check.csrRead n)).mapError Refusal.sbi
    return .value (← (env.request (.readCsr csr)).mapError HostError.sbi)
  | .csrWrite n v => do
    let write ← (Act.ofExcept (Check.csrWrite n v)).mapError Refusal.sbi
    let _ ← (env.request (.writeCsr write)).mapError HostError.sbi
    return .nothing
  | .hfence i => do
    let slot ← (Act.ofExcept (Check.fenceSlot i)).mapError Refusal.sbi
    return .fences (← (env.syncFences a (.entry slot)).mapError FenceError.sbi)
  | .injectInterrupt kind number target => do
    let injection ←
      (Act.ofExcept (Check.injection harts kind number target)).mapError Refusal.sbi
    let _ ← (env.request (.inject injection)).mapError HostError.sbi
    return .interrupt

/-- Runs the operation of a descriptor. A tag that has become unknown is an invalid operand. -/
def Env.runDescriptorOp (env : Env σ) (harts : Nat) (a : Area) (d : Descriptor) :
    Act (World σ) SbiError OpResult :=
  match BatchOp.ofDescriptor? d with
  | some op => env.runOp harts a op
  | none => .fail .invalidParam

/-- Stores what an operation came to in the descriptor at word `p`. -/
def Descriptor.report (p : Nat) (r : Except SbiError OpResult) (m : Memory) : Memory :=
  match r with
  | .ok (.value v) => setStatus p 0 (setValue p v m)
  | .ok _ => setStatus p 0 m
  | .error e => setStatus p e.word m

/-- Runs the descriptor at word `p` and reports what it came to. -/
def Env.runDescriptor (env : Env σ) (harts : Nat) (a : Area) (p : Nat) :
    Act (World σ) ε Tally := do
  let d ← readMemory fun m => Descriptor.load m p
  let r ← (env.runDescriptorOp harts a d).attempt
  changeMemory (Descriptor.report p r)
  match r with
  | .ok r => return r.tally
  | .error e => return .ofError e

/-- Runs the descriptors at the given words in order. -/
def Env.runDescriptors (env : Env σ) (harts : Nat) (a : Area) :
    List Nat → Act (World σ) ε Tally
  | [] => pure {}
  | p :: rest => do
    let t ← env.runDescriptor harts a p
    return t + (← env.runDescriptors harts a rest)

/-! ## Batches -/

/-- The first descriptor of the array with an unknown tag, if there is one, with that tag. -/
def unknownTag? (m : Memory) (base count : Nat) : Option (Nat × Word) :=
  ((List.range count).map fun i => (i, (Descriptor.load m (Descriptor.position base i)).tag)).find?
    fun p => (BatchTag.ofCode? p.2).isNone

/-- Runs the mapped array of `count` descriptors for address `addr`. -/
def Env.runMapped (env : Env σ) (harts : Nat) (a : Area) (addr : Word) (count : Nat)
    (mapping : Mapping) : Act (World σ) BatchError Tally :=
  if ¬mapping.aligned then .fail (.badMapping addr)
  else do
    match ← readMemory fun m => unknownTag? m mapping.base count with
    | some (i, tag) => .fail (.unknownTag i tag)
    | none =>
      env.runDescriptors harts a ((List.range count).map (Descriptor.position mapping.base))

/-- Runs the batch of `count` descriptors at `addr` for a hart with the given shared area, where
    `claimed` lists the addresses of all shared areas. The array is mapped for as long as it runs.
    An empty batch needs no array. -/
def Env.runBatch (env : Env σ) (harts maxBatch : Nat) (area : Option Area) (claimed : List Word)
    (addr count : Word) : Act (World σ) BatchError Tally :=
  match area with
  | none => .fail .noSession
  | some a =>
    if maxBatch < count.toNat then .fail (.tooMany count)
    else do
      let len : Word := .ofNat (count.toNat * Descriptor.bytes)
      let addr ← (Act.ofExcept (Check.guestRange addr len 8)).mapError .address
      if count = 0 then return {}
      else
        match claimed.find? fun gpa => rangesOverlap addr len gpa areaBytes with
        | some gpa => .fail (.sharedArea gpa)
        | none =>
          let mapping ← (env.mapRange addr len).mapError .map
          let r ← (env.runMapped harts a addr count.toNat mapping).attempt
          unmapRange addr len
          Act.ofExcept r

end NestedAccel
