import NestedAccel.Word

/-!
# `NestedAccel.Counters` — counts kept for a hart

Ten counters that a guest hypervisor can read. They count modulo 2^64 and a read may clear the
counter it returns.
-/

namespace NestedAccel

/-- The counters of a hart. -/
inductive Counter where
  | syncCsrCalls
  /-- CSRs applied from the CSR array. -/
  | csrsSynced
  | syncHfenceCalls
  /-- Entries of the fence list performed. -/
  | hfencesApplied
  | syncSretCalls
  | batchCalls
  | batchOpsSucceeded
  | batchOpsFailed
  /-- Calls and batch operations refused for the values they carried. -/
  | denials
  | interruptsInjected
deriving DecidableEq, Repr, Inhabited

namespace Counter

/-- Every counter, in the order of the identifiers. -/
def all : List Counter :=
  [syncCsrCalls, csrsSynced, syncHfenceCalls, hfencesApplied, syncSretCalls, batchCalls,
    batchOpsSucceeded, batchOpsFailed, denials, interruptsInjected]

/-- The counter's identifier. -/
def index : Counter → Fin 10
  | syncCsrCalls => 0
  | csrsSynced => 1
  | syncHfenceCalls => 2
  | hfencesApplied => 3
  | syncSretCalls => 4
  | batchCalls => 5
  | batchOpsSucceeded => 6
  | batchOpsFailed => 7
  | denials => 8
  | interruptsInjected => 9

/-- The counter's name. -/
def name : Counter → String
  | syncCsrCalls => "SyncCsrCalls"
  | csrsSynced => "CsrsSynced"
  | syncHfenceCalls => "SyncHfenceCalls"
  | hfencesApplied => "HfencesApplied"
  | syncSretCalls => "SyncSretCalls"
  | batchCalls => "BatchCalls"
  | batchOpsSucceeded => "BatchOpsSucceeded"
  | batchOpsFailed => "BatchOpsFailed"
  | denials => "Denials"
  | interruptsInjected => "InterruptsInjected"

/-- The counter with the given identifier. -/
def ofId? (id : Word) : Option Counter := all[id.toNat]?

theorem index_injective {c d : Counter} (h : c.index = d.index) : c = d := by
  revert h
  cases c <;> cases d <;> decide

end Counter

/-- The values of a hart's counters. -/
@[ext] structure Counters where
  /-- The values by identifier. -/
  values : Vector Word 10
deriving DecidableEq

namespace Counters

/-- All counters zero. -/
def zero : Counters := ⟨Vector.replicate 10 0⟩

instance : Inhabited Counters := ⟨zero⟩

/-- The value of counter `c`. -/
def get (cs : Counters) (c : Counter) : Word := cs.values[c.index]

/-- Counter `c` set to `v`. -/
def set (cs : Counters) (c : Counter) (v : Word) : Counters := ⟨cs.values.set c.index v⟩

/-- Counter `c` increased by `n`, modulo 2^64. -/
def add (cs : Counters) (c : Counter) (n : Word) : Counters := cs.set c (cs.get c + n)

/-- Counter `c` increased by one. -/
def increment (cs : Counters) (c : Counter) : Counters := cs.add c 1

/-- The value of counter `c`, and the counters with `c` cleared if `clear` is set. -/
def take (cs : Counters) (c : Counter) (clear : Bool) : Word × Counters :=
  (cs.get c, if clear then cs.set c 0 else cs)

/-- Setting a counter changes that counter and no other. -/
theorem get_set (cs : Counters) (c d : Counter) (v : Word) :
    (cs.set c v).get d = if c = d then v else cs.get d := by
  simp only [get, set, Fin.getElem_fin, Vector.getElem_set, Fin.val_inj]
  by_cases h : c = d
  · simp [h]
  · have hi : c.index ≠ d.index := fun e => h (Counter.index_injective e)
    simp [h, hi]

theorem get_add (cs : Counters) (c d : Counter) (n : Word) :
    (cs.add c n).get d = if c = d then cs.get c + n else cs.get d := get_set cs c d _

@[simp] theorem get_zero (c : Counter) : zero.get c = 0 := by
  cases c <;> rfl

end Counters

end NestedAccel
