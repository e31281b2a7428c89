import NestedAccel.Console
import NestedAccel.Effect
import NestedAccel.Memory
import NestedAccel.Request

/-!
# `NestedAccel.World` — the environment a host implementation runs in

The library asks two things of its environment. The host carries out requests; whatever it does with
its own state, it may change guest memory meanwhile, refuse, or never return. The mapper gives access
to ranges of guest memory. Nothing is assumed about either: an environment is any pair of functions
on a state of any type.

A world holds that state together with guest memory, a record of the calls made to the environment,
and the console.

## Contents
- **Environments.** `Reply`, `MapError`, `Mapping`, `Env`.
- **Worlds.** `Event`, `World`.
- **Primitive actions.** `Env.request`, `Env.mapRange`, `unmapRange`, `readMemory`, `changeMemory`,
  `logMessage`.
-/

namespace NestedAccel

/-! ## Environments -/

/-- What the host makes of a request. -/
inductive Reply where
  /-- Carried out; the value matters for reads only. -/
  | done (value : Word)
  | refused (e : HostError)
  /-- The host never returned. -/
  | lost
deriving DecidableEq, Repr, Inhabited

/-- Why a range of guest memory cannot be mapped. -/
inductive MapError where
  /-- There is no guest memory at the address. -/
  | unmapped (gpa : Word)
  /-- A transient failure; mapping may be tried again. -/
  | transient
  | outOfMemory
deriving DecidableEq, Repr, Inhabited

namespace MapError

/-- The error reported to the caller. -/
def sbi : MapError → SbiError
  | unmapped _ => .invalidAddress
  | transient => .io
  | outOfMemory => .outOfMemory

/-- The error's one-line text. -/
def text : MapError → String
  | unmapped gpa => Text.applied "Unmapped" [toString gpa]
  | transient => "Transient"
  | outOfMemory => "OutOfMemory"

end MapError

/-- Where a mapped range is found: the byte of guest memory that its first byte shows. A faithful
    mapping of a range shows that range. -/
structure Mapping where
  start : Nat
deriving DecidableEq, Repr, Inhabited

namespace Mapping

/-- Words can be accessed through the mapping. -/
def aligned (m : Mapping) : Bool := m.start % 8 == 0

/-- The word number of the first word. -/
def base (m : Mapping) : Nat := m.start / 8

end Mapping

/-- A host and a mapper, with states `σ`. -/
structure Env (σ : Type) where
  /-- The host's reply to a request, and what becomes of the state and of guest memory. -/
  host : Request → σ → Memory → Reply × σ × Memory
  /-- The mapping of `len` bytes at a guest physical address. -/
  map : Word → Word → σ → Except MapError Mapping × σ

/-! ## Worlds -/

/-- A call made to the environment. -/
inductive Event where
  | requested (request : Request) (reply : Reply)
  | mapped (gpa len : Word) (result : Except MapError Mapping)
  | unmapped (gpa len : Word)

instance : Inhabited Event := ⟨.unmapped 0 0⟩

/-- The environment's state, guest memory, the calls made so far and the console. -/
structure World (σ : Type) where
  state : σ
  memory : Memory
  events : List Event := []
  console : Console := {}

namespace World

variable {σ : Type}

/-- Adds a call to the record. -/
def record (w : World σ) (e : Event) : World σ := { w with events := w.events ++ [e] }

end World

/-! ## Primitive actions -/

section
variable {σ ε : Type}

/-- Asks the host to carry out a request. -/
def Env.request (env : Env σ) (q : Request) : Act (World σ) HostError Word := fun w =>
  match env.host q w.state w.memory with
  | (reply, state, memory) =>
    let w' := { w with state, memory }.record (.requested q reply)
    match reply with
    | .done v => (.ok v, w')
    | .refused e => (.error e, w')
    | .lost => (.abandoned, w')

/-- Asks for a range of guest memory to be mapped. -/
def Env.mapRange (env : Env σ) (gpa len : Word) : Act (World σ) MapError Mapping := fun w =>
  match env.map gpa len w.state with
  | (result, state) =>
    let w' := { w with state }.record (.mapped gpa len result)
    match result with
    | .ok m => (.ok m, w')
    | .error e => (.error e, w')

/-- Gives a mapped range back. -/
def unmapRange (gpa len : Word) : Act (World σ) ε Unit := .modify (·.record (.unmapped gpa len))

/-- A value read off guest memory. -/
def readMemory {α : Type} (f : Memory → α) : Act (World σ) ε α := .gets fun w => f w.memory

/-- Changes guest memory. -/
def changeMemory (f : Memory → Memory) : Act (World σ) ε Unit :=
  .modify fun w => { w with memory := f w.memory }

/-- Shows a message on the console. -/
def logMessage (l : LogLevel) (text : String) : Act (World σ) ε Unit :=
  .modify fun w => { w with console := w.console.log l text }

end

end NestedAccel
