import NestedAccel.Batch.Run
import NestedAccel.Config
import NestedAccel.Counters
import NestedAccel.Sbi.Call
import NestedAccel.Session
import NestedAccel.Sync.Call

/-!
# `NestedAccel.Hart` — the calls of one hart

A hart of the guest hypervisor has a session, the phase of its synchronization calls, and counters.
This module answers its calls. In the eager mode a call applies every dirty CSR before anything
else, unless it synchronizes CSRs itself.

## Contents
- **Harts.** `Hart`, and the parts of its state that other modules act on.
- **Parts of a call.** `drain`, `syncCsrs`, `syncHfences`, `syncReturn`, `runBatch`, `inject`.
- **Calls.** `perform` does what a call asks for, `dispatch` drains first where that is due, and
  `handle` counts denials and reports the call on the console.
-/

namespace NestedAccel

/-- The state of one hart. -/
structure Hart where
  session : Session := {}
  phase : Phase := .idle
  counters : Counters := .zero
deriving DecidableEq, Inhabited

/-- How a call that succeeded ends. -/
inductive CallResult where
  /-- The caller gets a value. -/
  | value (v : Word)
  /-- The guest hypervisor has left its trap handler; its registers stay as the host loaded
      them. -/
  | trapReturned
deriving DecidableEq, Repr, Inhabited

namespace Hart

variable {σ ε α : Type}

/-! ## Parts of the state -/

/-- Acts on the phase of synchronization calls. -/
def onPhase (x : Act (Phase × World σ) ε α) : Act (Hart × World σ) ε α :=
  .zoom (fun st => (st.1.phase, st.2)) (fun p st => ({ st.1 with phase := p.1 }, p.2)) x

/-- Acts on the session. -/
def onSession (x : Act (Session × World σ) ε α) : Act (Hart × World σ) ε α :=
  .zoom (fun st => (st.1.session, st.2)) (fun p st => ({ st.1 with session := p.1 }, p.2)) x

/-- Acts on the world. -/
def onWorld (x : Act (World σ) ε α) : Act (Hart × World σ) ε α := .onSecond x

/-- Increases counter `c` by `n`. -/
def count (c : Counter) (n : Nat) : Act (Hart × World σ) ε Unit :=
  .modify fun st => ({ st.1 with counters := st.1.counters.add c (.ofNat n) }, st.2)

/-- The shared area, or the error that there is none. -/
def requireArea : Act (Hart × World σ) SbiError Area := do
  let area ← Act.gets fun st => st.1.session.requireArea
  (Act.ofExcept area).mapError SessionError.sbi

/-- Goes on only if feature `f` is on. -/
def requireFeature (cfg : Config) (f : Feature) : Act (Hart × World σ) SbiError Unit :=
  if cfg.features.contains f then pure () else .fail .notSupported

/-- The shared area if dirty CSRs are applied on entry to calls. -/
def drainArea? (h : Hart) : Option Area :=
  match h.session.mode with
  | .eager => h.session.area
  | .deferred => none

/-! ## Parts of a call -/

/-- In the eager mode, applies every dirty CSR. -/
def drain (env : Env σ) : Act (Hart × World σ) SbiError Unit := do
  match ← Act.gets fun st => st.1.drainArea? with
  | none => pure ()
  | some a =>
    let n ← (onPhase (env.syncCsrs a .all)).mapError SyncError.sbi
    count .csrsSynced n

/-- Applies the dirty CSRs selected by `mask`. -/
def syncCsrs (env : Env σ) (mask : SlotMask) : Act (Hart × World σ) SbiError CallResult := do
  count .syncCsrCalls 1
  let a ← requireArea
  let n ← (onPhase (env.syncCsrs a mask)).mapError SyncError.sbi
  count .csrsSynced n
  return .value (.ofNat n)

/-- Performs the pending fences selected by an index. -/
def syncHfences (env : Env σ) (index : Word) : Act (Hart × World σ) SbiError CallResult := do
  count .syncHfenceCalls 1
  let a ← requireArea
  let n ← (onPhase (env.syncHfences a index)).mapError SyncError.sbi
  count .hfencesApplied n
  return .value (.ofNat n)

/-- Leaves the guest hypervisor's trap handler. -/
def syncReturn (env : Env σ) (cfg : Config) (flags : Word) (caller : Privilege) :
    Act (Hart × World σ) SbiError CallResult := do
  count .syncSretCalls 1
  let a ← requireArea
  let swappable := cfg.features.contains .autoswapCsr
  let summary ← (onPhase (env.syncReturn a flags caller swappable)).mapError SyncError.sbi
  count .csrsSynced summary.csrs
  count .hfencesApplied summary.fences
  return .trapReturned

/-- Runs a batch and counts what it came to. -/
def runBatch (env : Env σ) (cfg : Config) (id : Word) (claimed : List Word) (addr len : Word) :
    Act (Hart × World σ) SbiError CallResult := do
  count .batchCalls 1
  let area ← Act.gets fun st => st.1.session.area
  match ← (onWorld (env.runBatch cfg.harts cfg.maxBatch area claimed addr len)).attempt with
  | .error e =>
    let place := Text.hex addr.toNat
    let reason := e.text
    onWorld (logMessage .warn s!"hart {id}: batch at {place} aborted: {reason}")
    .fail e.sbi
  | .ok tally =>
    count .batchOpsSucceeded tally.succeeded
    count .batchOpsFailed tally.failed
    count .denials tally.denied
    count .hfencesApplied tally.fences
    count .interruptsInjected tally.interrupts
    if tally.denied ≠ 0 then
      let denied := tally.denied
      onWorld (logMessage .warn s!"hart {id}: {denied} batch operations denied")
    return .value (.ofNat tally.succeeded)

/-- Makes an interrupt pending. -/
def inject (env : Env σ) (cfg : Config) (kind number target : Word) :
    Act (Hart × World σ) SbiError CallResult := do
  let injection ←
    (Act.ofExcept (Check.injection cfg.harts kind number target)).mapError Refusal.sbi
  let _ ← (onWorld (env.request (.inject injection))).mapError HostError.sbi
  count .interruptsInjected 1
  return .value 0

/-- Changes the operating mode. -/
def changeMode (id mode flags : Word) : Act (Hart × World σ) SbiError CallResult := do
  let session ← Act.gets fun st => st.1.session.setMode mode flags
  let session ← (Act.ofExcept session).mapError SessionError.sbi
  .modify fun st => ({ st.1 with session }, st.2)
  let mode := session.mode.name
  onWorld (logMessage .debug s!"hart {id}: mode {mode}")
  return .value 0

/-- Reads a counter, and clears it if asked to. -/
def readCounter (counter clear : Word) : Act (Hart × World σ) SbiError CallResult :=
  match Counter.ofId? counter with
  | none => .fail .invalidParam
  | some c => do
    let r ← Act.gets fun st => st.1.counters.take c (clear ≠ 0)
    .modify fun st => ({ st.1 with counters := r.2 }, st.2)
    return .value r.1

/-! ## Calls -/

/-- Does what the call asks for. Registration of areas concerns all harts and is not done here. -/
def perform (env : Env σ) (cfg : Config) (id : Word) (claimed : List Word) (caller : Privilege) :
    AccelCall → Act (Hart × World σ) SbiError CallResult
  | .probeFeature feature => return .value (cfg.featureVersion feature)
  | .setShmem .. => .fail .invalidState
  | .syncCsr low high => do
    requireFeature cfg .syncCsr
    syncCsrs env ⟨low, high⟩
  | .syncHfence index => do
    requireFeature cfg .syncHfence
    syncHfences env index
  | .syncSret flags => do
    requireFeature cfg .syncSret
    syncReturn env cfg flags caller
  | .batchExecute addr len => do
    requireFeature cfg .batch
    runBatch env cfg id claimed addr len
  | .injectInterrupt kind number target => do
    requireFeature cfg .injectInterrupt
    inject env cfg kind number target
  | .getVersion => return .value cfg.version.packed
  | .getMode => do
    let mode ← Act.gets fun st => st.1.session.mode
    return .value mode.id
  | .setMode mode flags => changeMode id mode flags
  | .getStatistic counter clear => do
    requireFeature cfg .statistics
    readCounter counter clear

/-- The call synchronizes CSRs itself. -/
def syncsCsrs : AccelCall → Bool
  | .syncCsr .. | .syncSret _ => true
  | _ => false

/-- Does what the call asks for, after a drain where one is due. -/
def dispatch (env : Env σ) (cfg : Config) (id : Word) (claimed : List Word) (caller : Privilege)
    (call : AccelCall) : Act (Hart × World σ) SbiError CallResult :=
  if syncsCsrs call then perform env cfg id claimed caller call
  else do
    drain env
    perform env cfg id claimed caller call

/-- Answers a call of hart `id` made at level `caller`, where `claimed` lists the addresses of all
    shared areas. A denied call is counted and reported. -/
def handle (env : Env σ) (cfg : Config) (id : Word) (claimed : List Word) (caller : Privilege)
    (call : AccelCall) : Act (Hart × World σ) SbiError CallResult := do
  let what := call.text
  onWorld (logMessage .debug s!"hart {id}: {what}")
  match ← (dispatch env cfg id claimed caller call).attempt with
  | .ok r => return r
  | .error .denied =>
    count .denials 1
    onWorld (logMessage .warn s!"hart {id}: {what} denied")
    .fail .denied
  | .error e =>
    let reason := e.name
    onWorld (logMessage .debug s!"hart {id}: {what} failed: {reason}")
    .fail e

end Hart

end NestedAccel
