import NestedAccel.Text
import NestedAccel.Word

/-!
# `NestedAccel.Area.Fence` — entries of the fence list

A guest hypervisor asks for translations to be dropped by filling an entry of the fence list. The
first word of an entry, its configuration, has a pending bit, the kind of fence, a guest identifier
and an address space identifier; two further words give a range of pages. A zero identifier, or a
zero range, stands for everything.

## Contents
- **Kinds.** `FenceKind`.
- **Entries.** `FenceEntry`, its fields, and `FenceEntry.make`, which fills one.
- **Slots.** `FenceSlot`, the index of an entry of the list.
-/

namespace NestedAccel

/-- The two stages of translation a fence can be for. -/
inductive FenceKind where
  /-- Translations of guest virtual addresses. -/
  | vvma
  /-- Translations of guest physical addresses. -/
  | gvma
deriving DecidableEq, Repr, Inhabited

namespace FenceKind

/-- The kind's code in a configuration word. -/
def code : FenceKind → Nat
  | vvma => 0
  | gvma => 1

/-- The kind's name. -/
def name : FenceKind → String
  | vvma => "Vvma"
  | gvma => "Gvma"

/-- The kind with the given code. -/
def ofCode? : Nat → Option FenceKind
  | 0 => some vvma
  | 1 => some gvma
  | _ => none

@[simp] theorem ofCode?_code (k : FenceKind) : ofCode? k.code = some k := by cases k <;> rfl

end FenceKind

/-- An entry of the fence list. -/
structure FenceEntry where
  /-- The pending bit, the kind and the identifiers. -/
  config : Word
  /-- The first page of the range. -/
  pageNum : Word
  /-- The number of pages of the range. -/
  pageCount : Word
  /-- A word without meaning. -/
  reserved : Word
deriving DecidableEq, Repr, Inhabited

namespace FenceEntry

/-- The position of the pending bit. -/
def pendingBit : Nat := 63

/-- The entry waits to be performed. -/
def pending (e : FenceEntry) : Bool := Word.bit e.config pendingBit

/-- The code of the entry's kind. -/
def kind (e : FenceEntry) : Nat := Word.field e.config 56 4

/-- The guest identifier, or zero for every guest. -/
def vmid (e : FenceEntry) : UInt16 := .ofNat (Word.field e.config 32 14)

/-- The address space identifier, or zero for every address space. -/
def asid (e : FenceEntry) : UInt16 := .ofNat (Word.field e.config 0 16)

/-- The bits of the configuration that belong to no field are clear. -/
def wellFormed (e : FenceEntry) : Bool :=
  Word.field e.config 60 3 == 0 && Word.field e.config 46 10 == 0 &&
    Word.field e.config 16 16 == 0

/-- The pending entry with the given fields; a guest identifier keeps its low fourteen bits. -/
def make (kind : FenceKind) (vmid asid : UInt16) (pageNum pageCount : Word) : FenceEntry where
  config := .ofNat (1 <<< 63 + kind.code <<< 56 + (vmid.toNat % 1 <<< 14) <<< 32 + asid.toNat)
  pageNum := pageNum
  pageCount := pageCount
  reserved := 0

end FenceEntry

/-- The index of an entry of the fence list. -/
abbrev FenceSlot := Fin 56

/-- The entry with the given index, if the list is that long. -/
def FenceSlot.ofIndex? (i : Word) : Option FenceSlot :=
  if h : i.toNat < 56 then some ⟨i.toNat, h⟩ else none

/-- The slot's one-line text. -/
def FenceSlot.text (s : FenceSlot) : String := Text.applied "HfenceSlot" [toString s.val]

end NestedAccel
