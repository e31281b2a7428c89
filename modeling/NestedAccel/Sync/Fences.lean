import NestedAccel.Area.Region
import NestedAccel.Check
import NestedAccel.World

/-!
# `NestedAccel.Sync.Fences` — performing pending fences

The pending entries of the fence list are captured and checked before any fence is performed. Each
captured fence is then performed in list order, and its entry marked as done once the host has
carried it out; the first failure leaves that entry and the ones after it pending.

## Contents
- **Selections.** `FenceSelect`: one entry of the list, or all of them.
- **Capture.** `PendingFence`, `Area.pendingFences`.
- **Performance.** `Env.performFences`, `Env.syncFences`.
-/

namespace NestedAccel

/-- Why fences could not be performed. -/
inductive FenceError where
  /-- The list is not that long. -/
  | badIndex (index : Word)
  /-- A pending entry is refused. -/
  | invalid (slot : FenceSlot) (refusal : Refusal)
  | host (e : HostError)
deriving DecidableEq, Repr, Inhabited

namespace FenceError

/-- The error reported to the caller. -/
def sbi : FenceError → SbiError
  | badIndex _ => .invalidParam
  | invalid _ r => r.sbi
  | host e => e.sbi

/-- The error's one-line text. -/
def text : FenceError → String
  | badIndex i => Text.applied "BadIndex" [toString i]
  | invalid s r => Text.applied "Invalid" [s.text, r.text]
  | host e => Text.applied "Host" [e.name]

end FenceError

/-! ## Selections -/

/-- Which entries of the fence list to perform. -/
inductive FenceSelect where
  | all
  | entry (slot : FenceSlot)
deriving DecidableEq, Repr, Inhabited

namespace FenceSelect

/-- The index that selects every entry. -/
def allIndex : Word := 0xffffffffffffffff

/-- The selection named by an index. -/
def ofIndex (i : Word) : Except FenceError FenceSelect :=
  if i = allIndex then .ok all
  else
    match FenceSlot.ofIndex? i with
    | some s => .ok (entry s)
    | none => .error (.badIndex i)

/-- The selected entries, in list order. -/
def slots : FenceSelect → List FenceSlot
  | all => List.finRange 56
  | entry s => [s]

/-- The selection's one-line text. -/
def text : FenceSelect → String
  | all => "All"
  | entry s => Text.applied "Entry" [s.text]

end FenceSelect

/-! ## Capture -/

/-- A fence to perform, and the entry of the fence list it comes from. -/
structure PendingFence where
  slot : FenceSlot
  fence : Fence
deriving DecidableEq, Repr, Inhabited

/-- The pending fences among the given entries; the first entry refused decides. -/
def Area.pendingFences (a : Area) (m : Memory) :
    List FenceSlot → Except FenceError (List PendingFence)
  | [] => .ok []
  | s :: rest =>
    match Check.fence (a.fenceEntry m s) with
    | .error r => .error (.invalid s r)
    | .ok none => a.pendingFences m rest
    | .ok (some f) => (⟨s, f⟩ :: ·) <$> a.pendingFences m rest

/-! ## Performance -/

variable {σ : Type}

/-- Performs captured fences in order. The result is their number. -/
def Env.performFences (env : Env σ) (a : Area) : List PendingFence → Act (World σ) FenceError Nat
  | [] => pure 0
  | p :: rest => do
    let _ ← (env.request (.fence p.fence)).mapError .host
    changeMemory (a.finishFence p.slot)
    return (← env.performFences a rest) + 1

/-- Captures the selected fences and performs them. -/
def Env.syncFences (env : Env σ) (a : Area) (select : FenceSelect) :
    Act (World σ) FenceError Nat := do
  let fences ← Act.ofExcept (← readMemory fun m => a.pendingFences m select.slots)
  env.performFences a fences

end NestedAccel
