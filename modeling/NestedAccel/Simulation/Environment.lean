import NestedAccel.World

/-!
# `NestedAccel.Simulation.Environment` — a simulated host and guest memory

An environment to exercise the library in. The host has a file of CSRs and a cache of translations;
it follows a plan of what goes wrong: at chosen requests it may change guest memory, refuse, or
never return. Guest memory is one range of pages, and mapping it can be made to fail, or to show the
bytes a little further up.

## Contents
- **Plans.** `Fate`, `PlanEntry`.
- **The simulation.** `Simulation`, `Simulation.carryOut`, `Simulation.host`, `Simulation.map`,
  `Simulation.env`.
- **Observations.** `Simulation.changes`, the words of guest memory that differ.
-/

namespace NestedAccel

/-! ## Plans -/

/-- What goes wrong with a request. -/
inductive Fate where
  | refuse (e : HostError)
  /-- The host never returns. -/
  | lose
deriving DecidableEq, Repr, Inhabited

/-- The reply to a request with this fate. -/
def Fate.reply : Fate → Reply
  | refuse e => .refused e
  | lose => .lost

/-- What happens at the request with a given number, or from a given number on. -/
structure PlanEntry where
  onNumber : Option Nat := none
  fromNumber : Option Nat := none
  /-- What goes wrong, if anything. -/
  fate : Option Fate := none
  /-- Words of guest memory to change first, as pairs of byte address and value. -/
  pokes : List (Word × Word) := []
deriving DecidableEq, Repr, Inhabited

/-- The entry concerns request number `n`. -/
def PlanEntry.due (p : PlanEntry) (n : Nat) : Bool :=
  p.onNumber == some n || p.fromNumber.any (decide <| · ≤ n)

/-- Guest memory after writing each value to the word at its byte address, in order. -/
def Memory.pokeAll (m : Memory) (ws : List (Word × Word)) : Memory :=
  ws.foldl (fun m p => m.write (p.1.toNat / 8) p.2) m

/-! ## The simulation -/

/-- The state of the simulated environment. -/
structure Simulation where
  /-- The address of the first byte of guest memory. -/
  base : Word
  /-- The number of bytes of guest memory. -/
  size : Nat
  /-- The values of the CSRs by number. -/
  csrs : Array Word := Array.replicate 4096 0
  /-- The cached translations. -/
  cache : List Translation := []
  plan : List PlanEntry := []
  /-- The number of requests since the plan was set. -/
  requests : Nat := 0
  /-- The error with which the next mapping fails. -/
  mapFailure : Option MapError := none
  /-- How far up the next mapping is moved. -/
  skew : Nat := 0
deriving Inhabited

namespace Simulation

/-- The value of CSR `n`. -/
def csr (s : Simulation) (n : CsrNumber) : Word := s.csrs.getD n.toNat 0

/-- CSR `n` set to `v`. -/
def setCsr (s : Simulation) (n : CsrNumber) (v : Word) : Simulation :=
  { s with csrs := s.csrs.setIfInBounds n.toNat v }

/-- Carries a request out: the value it returns, and what becomes of the host. -/
def carryOut (s : Simulation) : Request → Word × Simulation
  | .readCsr n => (s.csr n, s)
  | .writeCsr w => (0, s.setCsr w.csr w.value)
  | .fence f => (0, { s with cache := s.cache.filter fun t => !f.covers t })
  | .inject (.vsLocal _ i) =>
    (0, s.setCsr .hvip (Word.setBit (s.csr .hvip) i.cause))
  | .inject (.guestExternal _ line) =>
    (0, s.setCsr .hgeip (Word.setBit (s.csr .hgeip) line.toNat))
  | .trapReturn _ => (0, s)

/-- Replies to a request. The entries of the plan that concern it are taken in order: each changes
    guest memory, and the last one with a fate decides. -/
def host (q : Request) (s : Simulation) (m : Memory) : Reply × Simulation × Memory :=
  let due := s.plan.filter (·.due s.requests)
  let m := due.foldl (fun m p => m.pokeAll p.pokes) m
  let s := { s with requests := s.requests + 1 }
  match (due.filterMap PlanEntry.fate).getLast? with
  | some fate => (fate.reply, s, m)
  | none =>
    let r := s.carryOut q
    (.done r.1, r.2, m)

/-- Maps a range of guest memory, moved up by the skew. -/
def map (gpa len : Word) (s : Simulation) : Except MapError Mapping × Simulation :=
  match s.mapFailure with
  | some e => (.error e, { s with mapFailure := none })
  | none =>
    if s.base.toNat ≤ gpa.toNat ∧ gpa.toNat - s.base.toNat + len.toNat ≤ s.size then
      (.ok ⟨gpa.toNat + s.skew⟩, { s with skew := 0 })
    else (.error (.unmapped gpa), s)

/-- The simulated host and mapper. -/
def env : Env Simulation := ⟨host, map⟩

/-- The number of the first word of guest memory. -/
def firstWord (s : Simulation) : Nat := s.base.toNat / 8

/-- The number of words of guest memory. -/
def wordCount (s : Simulation) : Nat := s.size / 8

/-- The words of guest memory that `after` has otherwise than `before`: their byte addresses and new
    values, in ascending order. -/
def changes (s : Simulation) (before after : Memory) : List (Nat × Word) :=
  (List.range s.wordCount).filterMap fun i =>
    let a := s.firstWord + i
    let v := after.read a
    if before.read a = v then none else some (8 * a, v)

end Simulation

end NestedAccel
