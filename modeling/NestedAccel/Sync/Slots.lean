import NestedAccel.Area.Region
import NestedAccel.Check
import NestedAccel.World

/-!
# `NestedAccel.Sync.Slots` — applying dirty slots

Dirty slots are applied in two passes over a list of slots captured beforehand. The first pass
checks every value and changes nothing. The second reads each value again, hands it on, and marks
the slot as applied once that has succeeded; it stops at the first failure, with that slot and the
ones after it still dirty. What the guest hypervisor does to the bitmap meanwhile cannot make the
second pass longer.
-/

namespace NestedAccel

variable {σ ε : Type}

/-- Checks the values in the given slots; the first one refused decides. -/
def Area.checkSlots (a : Area) (m : Memory) : List CsrSlot → Except Refusal Unit
  | [] => .ok ()
  | s :: rest =>
    match Check.slotWrite s (a.slotValue m s) with
    | .ok _ => a.checkSlots m rest
    | .error r => .error r

/-- Hands the value of each given slot to `apply` and marks the slot as applied. The result is the
    number of slots. -/
def Area.consume (a : Area) (apply : CsrSlot → Word → Act (World σ) ε Unit) :
    List CsrSlot → Act (World σ) ε Nat
  | [] => pure 0
  | s :: rest => do
    apply s (← readMemory fun m => a.slotValue m s)
    changeMemory (a.clearDirty s)
    return (← a.consume apply rest) + 1

/-- Writes the value `v` of slot `s` to the host, if it passes its check. -/
def Env.writeSlot (env : Env σ) (refused : Refusal → ε) (failed : HostError → ε) (s : CsrSlot)
    (v : Word) : Act (World σ) ε Unit := do
  let w ← (Act.ofExcept (Check.slotWrite s v)).mapError refused
  let _ ← (env.request (.writeCsr w)).mapError failed

end NestedAccel
