import NestedAccel.Word

/-!
# `NestedAccel.Machine.Field` — layouts of the supervisor and hypervisor registers

The named fields of the registers whose contents matter to the host. A layout lists the fields of
one register from the lowest bit up; bits that no field names are left alone.
-/

namespace NestedAccel

/-- A named range of bits of a register. -/
structure Field where
  /-- The field's name in the privileged architecture. -/
  name : String
  /-- The position of its lowest bit. -/
  low : Nat
  /-- The number of its bits. -/
  width : Nat
deriving DecidableEq, Repr

/-- The value of field `f` in the register value `w`. -/
def Field.read (f : Field) (w : Word) : Nat := Word.field w f.low f.width

namespace Layout

/-- The layout of `sstatus` and `vsstatus`. -/
def sstatus : List Field := [⟨"sie", 1, 1⟩, ⟨"spie", 5, 1⟩, ⟨"spp", 8, 1⟩, ⟨"uxl", 32, 2⟩]

/-- The layout of `stvec` and `vstvec`. -/
def stvec : List Field := [⟨"mode", 0, 2⟩, ⟨"base", 2, 62⟩]

/-- The layout of `satp` and `vsatp`. -/
def satp : List Field := [⟨"ppn", 0, 44⟩, ⟨"asid", 44, 16⟩, ⟨"mode", 60, 4⟩]

/-- The layout of `hstatus`. -/
def hstatus : List Field := [⟨"spv", 7, 1⟩, ⟨"spvp", 8, 1⟩, ⟨"vgein", 12, 6⟩, ⟨"vsxl", 32, 2⟩]

/-- The layout of `hie`. -/
def hie : List Field := [⟨"vssoft", 2, 1⟩, ⟨"vstimer", 6, 1⟩, ⟨"vsext", 10, 1⟩, ⟨"sgext", 12, 1⟩]

/-- The layout of `hvip`. -/
def hvip : List Field := [⟨"vssoft", 2, 1⟩, ⟨"vstimer", 6, 1⟩, ⟨"vsext", 10, 1⟩]

/-- The layout of `hgatp`; its guest identifier has fourteen bits. -/
def hgatp : List Field := [⟨"ppn", 0, 44⟩, ⟨"vmid", 44, 14⟩, ⟨"mode", 60, 4⟩]

/-- The layouts by register name. -/
def all : List (String × List Field) :=
  [("sstatus", sstatus), ("stvec", stvec), ("satp", satp), ("hstatus", hstatus), ("hie", hie),
    ("hvip", hvip), ("hgatp", hgatp)]

/-- The layout of the register with the given name. -/
def ofRegister? (name : String) : Option (List Field) := all.lookup name

end Layout

end NestedAccel
