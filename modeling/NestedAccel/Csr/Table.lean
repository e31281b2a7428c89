import NestedAccel.Csr.Rule
import NestedAccel.Csr.Slot

/-!
# `NestedAccel.Csr.Table` — the registers assigned to the CSR array

The table lists every register the guest hypervisor may access through the shared area, with the
access it is granted and the rule its values obey. No two registers of the table share a slot, so a
slot determines at most one register and a number is accessible exactly if the register assigned to
its slot has that number.

## Contents
- **Entries.** `Access`, `Entry`, `Entry.slot`.
- **The table.** `table`, `span` (one past the highest assigned slot).
- **Look-up.** `entryAt?` by slot, `entry?` by number.
-/

namespace NestedAccel.Csr

/-- The access the guest hypervisor has to a register. -/
inductive Access where
  | readWrite
  | readOnly
deriving DecidableEq, Repr, Inhabited

/-- The access's name. -/
def Access.name : Access → String
  | .readWrite => "ReadWrite"
  | .readOnly => "ReadOnly"

/-- A register assigned to the CSR array. -/
structure Entry where
  /-- The register's number. -/
  number : CsrNumber
  /-- The access the guest hypervisor has. -/
  access : Access
  /-- The rule for values written. -/
  rule : Rule
deriving DecidableEq, Repr, Inhabited

/-- The slot of the register. -/
def Entry.slot (e : Entry) : CsrSlot := CsrSlot.ofCsr e.number

open CsrNumber in
/-- The assigned registers, by number within each level. -/
def table : List Entry :=
  [⟨vsstatus, .readWrite, .vsstatus⟩,
    ⟨vsie, .readWrite, .vsInterrupts⟩,
    ⟨vstvec, .readWrite, .vstvec⟩,
    ⟨vsscratch, .readWrite, .any⟩,
    ⟨vsepc, .readWrite, .any⟩,
    ⟨vscause, .readWrite, .any⟩,
    ⟨vstval, .readWrite, .any⟩,
    ⟨vsip, .readWrite, .vsInterrupts⟩,
    ⟨vstimecmp, .readWrite, .any⟩,
    ⟨vsiselect, .readWrite, .any⟩,
    ⟨vsireg, .readWrite, .any⟩,
    ⟨vstopei, .readWrite, .any⟩,
    ⟨vsatp, .readWrite, .vsatp⟩,
    ⟨vstopi, .readOnly, .any⟩,
    ⟨hstatus, .readWrite, .hstatus⟩,
    ⟨hedeleg, .readWrite, .hedeleg⟩,
    ⟨hideleg, .readWrite, .vsInterrupts⟩,
    ⟨hie, .readWrite, .hie⟩,
    ⟨htimedelta, .readWrite, .any⟩,
    ⟨hcounteren, .readWrite, .any⟩,
    ⟨hgeie, .readWrite, .any⟩,
    ⟨henvcfg, .readWrite, .any⟩,
    ⟨htval, .readWrite, .any⟩,
    ⟨hip, .readWrite, .vsInterrupts⟩,
    ⟨hvip, .readWrite, .vsInterrupts⟩,
    ⟨htinst, .readWrite, .any⟩,
    ⟨hgatp, .readWrite, .hgatp⟩,
    ⟨hgeip, .readOnly, .any⟩]

/-- The number of slots up to and including the highest assigned one. -/
def span : Nat := (CsrSlot.ofCsr CsrNumber.vstopi : Nat) + 1

/-- The register assigned to slot `s`, if any. -/
def entryAt? (s : CsrSlot) : Option Entry := table.find? (·.slot == s)

/-- The register with number `n`, if the guest hypervisor may access it. -/
def entry? (n : CsrNumber) : Option Entry :=
  (entryAt? (CsrSlot.ofCsr n)).filter (·.number == n)

/-- No two assigned registers share a slot. -/
theorem nodup_slots : (table.map Entry.slot).Nodup := by decide

theorem slot_lt_span {e : Entry} (h : e ∈ table) : (e.slot : Nat) < span := by
  revert e
  decide

theorem mem_table_of_entryAt? {s : CsrSlot} {e : Entry} (h : entryAt? s = some e) : e ∈ table :=
  List.mem_of_find?_eq_some h

theorem slot_of_entryAt? {s : CsrSlot} {e : Entry} (h : entryAt? s = some e) : e.slot = s := by
  simpa using List.find?_some h

/-- A register is found by its slot. -/
theorem entryAt?_slot {e : Entry} (he : e ∈ table) : entryAt? e.slot = some e := by
  revert e
  decide

theorem number_of_entry? {n : CsrNumber} {e : Entry} (h : entry? n = some e) : e.number = n := by
  simpa using (Option.filter_eq_some_iff.1 h).2

end NestedAccel.Csr
