import NestedAccel.Csr.Table
import NestedAccel.Sync.Fences
import NestedAccel.Sync.Slots

/-!
# `NestedAccel.Sync.Call` — the three synchronization calls

The guest hypervisor synchronizes its view of the virtual machine with the host in three ways: it
has dirty CSRs applied, it has pending fences performed, or it leaves its trap handler, which
applies every dirty CSR first and can perform every pending fence and swap `hstatus` as well. Each
call prepares everything it is about to apply before it applies any of it, so a refused value means
that nothing happened.

## Contents
- **Phases.** `Phase`, and `inPhases`, which leads one call through them.
- **Errors.** `SyncError`.
- **Calls.** `Env.syncCsrs`, `Env.syncHfences`, `Env.syncReturn`.
-/

namespace NestedAccel

/-! ## Phases and errors -/

/-- How far a synchronization call has come. -/
inductive Phase where
  /-- No call is under way. -/
  | idle
  /-- What is to be applied is being checked. -/
  | checking
  /-- What has been checked is being applied. -/
  | applying
deriving DecidableEq, Repr, Inhabited

/-- The phase's name. -/
def Phase.name : Phase → String
  | .idle => "Idle"
  | .checking => "AwaitingSync"
  | .applying => "Applying"

/-- Why a synchronization call failed. -/
inductive SyncError where
  /-- An earlier call was abandoned half way. -/
  | busy (phase : Phase)
  /-- The mask selects slots past the assigned ones. -/
  | maskOutOfRange
  | invalid (refusal : Refusal)
  | fence (e : FenceError)
  | host (e : HostError)
  | invalidFlags (flags : Word)
  /-- Swapping was asked for but is not available. -/
  | autoswapDisabled
  /-- The call did not come from the supervisor level. -/
  | notSupervisor (level : Privilege)
deriving DecidableEq, Repr, Inhabited

namespace SyncError

/-- The error reported to the caller. -/
def sbi : SyncError → SbiError
  | busy _ => .invalidState
  | maskOutOfRange | invalidFlags _ => .invalidParam
  | invalid r => r.sbi
  | fence e => e.sbi
  | host e => e.sbi
  | autoswapDisabled => .notSupported
  | notSupervisor _ => .denied

/-- The error's one-line text. -/
def text : SyncError → String
  | busy p => Text.applied "Busy" [p.name]
  | maskOutOfRange => "MaskOutOfRange"
  | invalid r => Text.applied "Invalid" [r.text]
  | fence e => Text.applied "Fence" [e.text]
  | host e => Text.applied "Host" [e.name]
  | invalidFlags f => Text.applied "InvalidFlags" [toString f]
  | autoswapDisabled => "AutoswapDisabled"
  | notSupervisor l => Text.applied "NotSupervisor" [l.name]

end SyncError

variable {σ α β : Type}

/-- Leads one synchronization call through its phases: `prepare` looks at guest memory and says what
    to apply, then `apply` applies it. The phase is idle again however the call ends, unless it is
    abandoned. -/
def inPhases (prepare : Memory → Except SyncError β) (apply : β → Act (World σ) SyncError α) :
    Act (Phase × World σ) SyncError α := fun st =>
  match st with
  | (.idle, w) =>
    let body : Act (Phase × World σ) SyncError α := do
      let b ← Act.onSecond (readMemory prepare)
      let b ← Act.ofExcept b
      Act.modify fun st => (.applying, st.2)
      Act.onSecond (apply b)
    match body.run (.checking, w) with
    | (.abandoned, st) => (.abandoned, st)
    | (r, st) => (r, (.idle, st.2))
  | (phase, w) => (.error (.busy phase), (phase, w))

/-! ## CSRs -/

/-- The dirty slots selected by `mask`, all of them with legal values. -/
def Area.prepareCsrs (a : Area) (mask : SlotMask) (m : Memory) :
    Except SyncError (List CsrSlot) :=
  if mask.exceeds Csr.span then .error .maskOutOfRange
  else
    match a.checkSlots m (a.dirtySlots m mask) with
    | .ok () => .ok (a.dirtySlots m mask)
    | .error r => .error (.invalid r)

/-- Applies the given slots to the host. -/
def Env.applySlots (env : Env σ) (a : Area) (slots : List CsrSlot) : Act (World σ) SyncError Nat :=
  a.consume (env.writeSlot .invalid .host) slots

/-- Applies the dirty CSRs selected by `mask`. The result is their number. -/
def Env.syncCsrs (env : Env σ) (a : Area) (mask : SlotMask) :
    Act (Phase × World σ) SyncError Nat :=
  inPhases (a.prepareCsrs mask) (env.applySlots a)

/-! ## Fences -/

/-- The pending fences selected by an index. -/
def Area.prepareFences (a : Area) (index : Word) (m : Memory) :
    Except SyncError (List PendingFence) :=
  match FenceSelect.ofIndex index with
  | .error e => .error (.fence e)
  | .ok select =>
    match a.pendingFences m select.slots with
    | .error e => .error (.fence e)
    | .ok fences => .ok fences

/-- Performs the pending fences selected by an index. The result is their number. -/
def Env.syncHfences (env : Env σ) (a : Area) (index : Word) :
    Act (Phase × World σ) SyncError Nat :=
  inPhases (a.prepareFences index) fun fences => (env.performFences a fences).mapError .fence

/-! ## Trap returns -/

/-- What a trap return is about to apply. -/
structure ReturnPlan where
  state : TrapReturn
  /-- The write to `hstatus`, if it is to be swapped. -/
  swap : Option CsrWrite
  fences : List PendingFence
  slots : List CsrSlot

/-- What a trap return has applied. -/
structure ReturnSummary where
  csrs : Nat
  fences : Nat
  swapped : Bool
deriving DecidableEq, Repr, Inhabited

/-- What to apply for a trap return, with swap and fences if `autoswap` is set. -/
def Area.prepareReturn (a : Area) (autoswap : Bool) (m : Memory) :
    Except SyncError ReturnPlan := do
  let state ← (Check.trapReturn (a.returnContext m)).mapError .invalid
  let swap ← if autoswap then (Check.swap (a.swapContext m)).mapError .invalid else pure none
  let fences ←
    if autoswap then (a.pendingFences m FenceSelect.all.slots).mapError .fence else pure []
  let slots := a.dirtySlots m .all
  (a.checkSlots m slots).mapError .invalid
  return { state, swap, fences, slots }

/-- Hands the trap return to the host. If `hstatus` is to be swapped, its value is read before and
    written after, so a call that fails before the return leaves both copies as they were. -/
def Env.leave (env : Env σ) (a : Area) (state : TrapReturn) :
    Option CsrWrite → Act (World σ) SyncError Unit
  | none => do
    let _ ← (env.request (.trapReturn state)).mapError .host
  | some swap => do
    let old ← (env.request (.readCsr CsrNumber.hstatus)).mapError .host
    let _ ← (env.request (.trapReturn state)).mapError .host
    let _ ← (env.request (.writeCsr swap)).mapError .host
    changeMemory (a.setSwapValue old)

/-- Applies a plan: the CSRs, then the fences, then the return itself. -/
def Env.applyReturn (env : Env σ) (a : Area) (plan : ReturnPlan) :
    Act (World σ) SyncError ReturnSummary := do
  let csrs ← env.applySlots a plan.slots
  let fences ← (env.performFences a plan.fences).mapError .fence
  env.leave a plan.state plan.swap
  return { csrs, fences, swapped := plan.swap.isSome }

/-- The flag that asks for swap and fences. -/
def autoswapFlag : Word := 1

/-- Leaves the guest hypervisor's trap handler. Swap and fences need the feature to be available,
    and only the supervisor level may make the call. -/
def Env.syncReturn (env : Env σ) (a : Area) (flags : Word) (caller : Privilege)
    (autoswapEnabled : Bool) : Act (Phase × World σ) SyncError ReturnSummary :=
  let autoswap := Word.bit flags 0
  if ¬Word.within autoswapFlag flags then .fail (.invalidFlags flags)
  else if autoswap ∧ ¬autoswapEnabled then .fail .autoswapDisabled
  else if caller ≠ .supervisor then .fail (.notSupervisor caller)
  else inPhases (a.prepareReturn autoswap) (env.applyReturn a)

end NestedAccel
