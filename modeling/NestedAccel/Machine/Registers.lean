import NestedAccel.Word

/-!
# `NestedAccel.Machine.Registers` — general purpose registers

The 32 integer registers of a hart. Register `x0` is hardwired to zero, which the type records: a
register file holds a proof that its first word is zero, and every operation keeps it so.

## Contents
- **Register numbers.** `Reg`, with the names used in listings, `a0`, `a1`, `a6`, `a7`.
- **Register files.** `Registers`, `ofWords`, `get`, `set`.
- **Arguments.** `arguments` (`a0` to `a7`), `setArgument`.
-/

namespace NestedAccel

/-- The number of a general purpose register. -/
abbrev Reg := Fin 32

namespace Reg

/-- The names of the registers, by number. -/
def names : List String :=
  ["Zero", "RA", "SP", "GP", "TP", "T0", "T1", "T2", "S0", "S1", "A0", "A1", "A2", "A3", "A4",
    "A5", "A6", "A7", "S2", "S3", "S4", "S5", "S6", "S7", "S8", "S9", "S10", "S11", "T3", "T4",
    "T5", "T6"]

/-- The name of the register with number `n`, if there is one. -/
def name? (n : Nat) : Option String := names[n]?

/-- The register of the first argument and of the error code of a call. -/
def a0 : Reg := 10

/-- The register of the second argument and of the value a call returns. -/
def a1 : Reg := 11

/-- The register of the number of the function called. -/
def a6 : Reg := 16

/-- The register of the number of the extension called. -/
def a7 : Reg := 17

/-- The register of argument `k`. -/
def argument (k : Fin 8) : Reg := ⟨10 + k, by omega⟩

end Reg

/-- The general purpose registers of a hart, with `x0` zero. -/
@[ext] structure Registers where
  /-- The registers by number. -/
  words : Vector Word 32
  /-- Register `x0` is hardwired to zero. -/
  x0_eq : words[0] = 0
deriving DecidableEq

namespace Registers

/-- All registers zero. -/
def zero : Registers := { words := Vector.replicate 32 0, x0_eq := by simp }

instance : Inhabited Registers := ⟨zero⟩

/-- The register file with the given contents, except that `x0` is zero. -/
def ofWords (ws : Vector Word 32) : Registers := { words := ws.set 0 0, x0_eq := by simp }

/-- The value of register `r`. -/
def get (rs : Registers) (r : Reg) : Word := rs.words[r]

/-- Register `r` set to `v`; writes to `x0` are dropped. -/
def set (rs : Registers) (r : Reg) (v : Word) : Registers :=
  if h : r = 0 then rs
  else
    { words := rs.words.set r v
      x0_eq := by
        have hr : (r : Nat) ≠ 0 := fun e => h (Fin.ext e)
        rw [Vector.getElem_set_ne (h := hr)]
        exact rs.x0_eq }

/-- The argument registers `a0` to `a7`. -/
def arguments (rs : Registers) : List Word :=
  [rs.get 10, rs.get 11, rs.get 12, rs.get 13, rs.get 14, rs.get 15, rs.get 16, rs.get 17]

/-- Argument register `k` set to `v`. -/
def setArgument (rs : Registers) (k : Fin 8) (v : Word) : Registers :=
  rs.set (Reg.argument k) v

@[simp] theorem get_zero_reg (rs : Registers) : rs.get 0 = 0 := rs.x0_eq

/-- Setting a register changes that register and no other. -/
theorem get_set (rs : Registers) (r s : Reg) (v : Word) (hr : r ≠ 0) :
    (rs.set r v).get s = if s = r then v else rs.get s := by
  have h : (r = s) = (s = r) := propext ⟨Eq.symm, Eq.symm⟩
  simp only [set, hr, dite_false, get, Fin.getElem_fin, Vector.getElem_set, Fin.val_inj, h]

end Registers

end NestedAccel
