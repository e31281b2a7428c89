import NestedAccel.Proofs.Bitmap
import NestedAccel.Proofs.SlotGroups

/-!
# `NestedAccel.Proofs.SlotCursor` — a scan taken one slot at a time

`Area.dirtySlots` gives the selected dirty slots as one list. A host that has no lists goes through them with a
cursor: a copy of the bitmap under the mask, and the number of the word it has come to. Each step passes over words
without a bit, takes the lowest bit of the first other word out of the copy, and turns it into a slot; the scan is over
when a step has no slot to give.

Such a loop could end early, skip a bit or visit one twice. It does not: `SlotCursor.remaining` says which slots a
cursor still has before it, and **one step takes the first of them and leaves the others**
(`SlotCursor.next_eq`). Draining a cursor therefore gives exactly what remains of it
(`SlotCursor.drains_iff`), and a fresh one has all of `Area.dirtySlots` before it (`Area.remaining_cursor`).
-/

namespace NestedAccel

/-! ## The lowest bit of a word -/

namespace Word

variable {w : Word}

/-- The number of clear bits below the lowest set one; 64 for zero. -/
def trailingZeros (w : Word) : Nat := w.toBitVec.ctz.toNat

theorem toBitVec_ne_zero (h : w ≠ 0) : w.toBitVec ≠ 0#64 := fun hzero => h (UInt64.toBitVec_inj.1 hzero)

theorem trailingZeros_lt (h : w ≠ 0) : trailingZeros w < 64 :=
  BitVec.lt_def.1 (BitVec.ctz_lt_iff_ne_zero.2 (toBitVec_ne_zero h))

theorem bit_trailingZeros (h : w ≠ 0) : bit w (trailingZeros w) = true :=
  BitVec.getLsbD_true_ctz_of_ne_zero (toBitVec_ne_zero h)

theorem trailingZeros_le {i : Nat} (h : bit w i = true) : trailingZeros w ≤ i := by
  by_cases hi : i < trailingZeros w
  · have hclear : bit w i = false := BitVec.getLsbD_false_of_lt_ctz hi
    rw [hclear] at h
    cases h
  · exact Nat.le_of_not_lt hi

theorem setBits_pairwise (w : Word) : (setBits w).Pairwise (· < ·) :=
  (List.pairwise_lt_finRange 64).filter _

@[simp] theorem setBits_zero : setBits 0 = [] := by
  simp [setBits]

/-- The lowest set bit comes first, and the others are those that are left without it. -/
theorem setBits_eq_cons (h : w ≠ 0) :
    setBits w = ⟨trailingZeros w, trailingZeros_lt h⟩ :: setBits (clearBit w (trailingZeros w)) := by
  refine List.Pairwise.eq_of_mem_iff (setBits_pairwise w) ?_ fun i => ?_
  · rw [List.pairwise_cons]
    refine ⟨fun i hi => ?_, setBits_pairwise _⟩
    rw [mem_setBits, bit_clearBit, Bool.and_eq_true, Bool.not_eq_true', decide_eq_false_iff_not] at hi
    exact Fin.lt_def.2 (Nat.lt_of_le_of_ne (trailingZeros_le hi.1) hi.2)
  · rw [List.mem_cons, mem_setBits, mem_setBits, bit_clearBit, Bool.and_eq_true, Bool.not_eq_true',
      decide_eq_false_iff_not, Fin.ext_iff]
    dsimp only
    by_cases hi : trailingZeros w = i
    · have hset := bit_trailingZeros h
      rw [hi] at hset
      simp [hset, hi]
    · simp [hi, Ne.symm hi]

end Word

/-! ## Cursors -/

/-- A place in a scan: the bits that are still in the bitmap, and the word the scan has come to. -/
structure SlotCursor where
  words : Vector Word 16
  position : Nat

namespace SlotCursor

/-- The next slot, if there is one, and the cursor after it. -/
def next (c : SlotCursor) : Option CsrSlot × SlotCursor :=
  if h : c.position < 16 then
    let word := c.words[c.position]
    if word = 0 then next { c with position := c.position + 1 }
    else
      let bit := Word.trailingZeros word
      (CsrSlot.ofIndex? (64 * c.position + bit),
        { c with words := c.words.set c.position (Word.clearBit word bit) })
  else (none, c)
termination_by 16 - c.position

/-- Taking slots from the cursor until it has none to give yields these. -/
inductive Drains : SlotCursor → List CsrSlot → Prop where
  | done {c c' : SlotCursor} (h : c.next = (none, c')) : Drains c []
  | slot {c c' : SlotCursor} {s : CsrSlot} {slots : List CsrSlot} (h : c.next = (some s, c'))
    (hrest : Drains c' slots) : Drains c (s :: slots)

/-- The slots of the bits of word `i`. -/
def slotsOf (c : SlotCursor) (i : Fin 16) : List CsrSlot :=
  (Word.setBits c.words[i]).map (Area.slotOfBit i)

/-- The slots that the cursor has before it. -/
def remaining (c : SlotCursor) : List CsrSlot := ((List.finRange 16).drop c.position).flatMap c.slotsOf

variable {c : SlotCursor}

theorem remaining_of_ge (h : 16 ≤ c.position) : c.remaining = [] := by
  unfold remaining
  rw [List.drop_of_length_le (by simpa using h)]
  rfl

/-- Before the end, they are those of the word the scan has come to, and of the words after it. -/
theorem remaining_of_lt (h : c.position < 16) :
    c.remaining = c.slotsOf ⟨c.position, h⟩ ++ remaining { c with position := c.position + 1 } := by
  have hlength : c.position < (List.finRange 16).length := by simpa using h
  unfold remaining
  rw [List.drop_eq_getElem_cons hlength, List.flatMap_cons, List.getElem_finRange]
  rfl

/-- What has become of a word is nothing to the words after it. -/
theorem remaining_set {p : Nat} (hp : p < 16) (words : Vector Word 16) (v : Word) :
    remaining ⟨words.set p v, p + 1⟩ = remaining ⟨words, p + 1⟩ := by
  unfold remaining
  refine List.flatMap_congr fun i hi => ?_
  have hlt : p < i := by
    obtain ⟨j, hj, rfl⟩ := List.mem_drop_iff_getElem.1 hi
    rw [List.getElem_finRange]
    show p < p + 1 + j
    omega
  unfold slotsOf
  have hword : (words.set p v)[i] = words[i] := Vector.getElem_set_ne hp i.isLt (Nat.ne_of_lt hlt)
  dsimp only
  rw [hword]

theorem remaining_set_self {p : Nat} (hp : p < 16) (words : Vector Word 16) (v : Word) :
    remaining ⟨words.set p v, p⟩ =
      (Word.setBits v).map (Area.slotOfBit ⟨p, hp⟩) ++ remaining ⟨words, p + 1⟩ := by
  have hword : (words.set p v)[p] = v := Vector.getElem_set_self hp
  have hslots : slotsOf ⟨words.set p v, p⟩ ⟨p, hp⟩ =
      (Word.setBits v).map (Area.slotOfBit ⟨p, hp⟩) := by
    show (Word.setBits (words.set p v)[p]).map _ = _
    rw [hword]
  have hrest := remaining_of_lt (c := ⟨words.set p v, p⟩) hp
  rw [hslots, remaining_set hp] at hrest
  exact hrest

/-- Taking the lowest bit of a word takes the first slot: the other bits of the word remain, and the words after it. -/
theorem remaining_take (h : c.position < 16) (hword : c.words[c.position] ≠ 0) :
    let bit := Word.trailingZeros c.words[c.position]
    ∃ s, CsrSlot.ofIndex? (64 * c.position + bit) = some s ∧
      c.remaining = s ::
        remaining ⟨c.words.set c.position (Word.clearBit c.words[c.position] bit), c.position⟩ := by
  intro bit
  have hbit : bit < 64 := Word.trailingZeros_lt hword
  have hindex : 64 * c.position + bit < 1024 := by omega
  refine ⟨⟨64 * c.position + bit, hindex⟩, dif_pos hindex, ?_⟩
  have hslots : c.slotsOf ⟨c.position, h⟩ =
      ⟨64 * c.position + bit, hindex⟩ ::
        (Word.setBits (Word.clearBit c.words[c.position] bit)).map (Area.slotOfBit ⟨c.position, h⟩) := by
    show (Word.setBits c.words[c.position]).map _ = _
    rw [Word.setBits_eq_cons hword, List.map_cons]
    rfl
  rw [remaining_of_lt h, hslots, List.cons_append, remaining_set_self h]

/-- **One step takes the first of the slots that remain, and leaves the others.** -/
theorem next_eq (c : SlotCursor) :
    c.next.1 = c.remaining.head? ∧ c.next.2.remaining = c.remaining.tail := by
  induction c using next.induct with
  | case1 c h word hzero ih =>
    -- a word without a bit has no slot
    have hslots : c.slotsOf ⟨c.position, h⟩ = [] := by
      show (Word.setBits word).map _ = []
      rw [hzero, Word.setBits_zero]
      rfl
    unfold next
    rw [dif_pos h, if_pos hzero, remaining_of_lt h, hslots, List.nil_append]
    exact ih
  | case2 c h word hne =>
    obtain ⟨s, hs, hremaining⟩ := remaining_take h hne
    unfold next
    rw [dif_pos h, if_neg hne, hremaining]
    exact ⟨hs, rfl⟩
  | case3 c h =>
    have hnil : c.remaining = [] := remaining_of_ge (Nat.le_of_not_lt h)
    unfold next
    rw [dif_neg h]
    dsimp only
    rw [hnil]
    exact ⟨rfl, rfl⟩

/-- A cursor with nothing before it has nothing to give. -/
theorem next_of_nil (h : c.remaining = []) : ∃ c', c.next = (none, c') :=
  ⟨c.next.2, Prod.ext ((next_eq c).1.trans (by rw [h]; rfl)) rfl⟩

theorem next_of_cons {s : CsrSlot} {slots : List CsrSlot} (h : c.remaining = s :: slots) :
    ∃ c', c.next = (some s, c') ∧ c'.remaining = slots :=
  ⟨c.next.2, Prod.ext ((next_eq c).1.trans (by rw [h]; rfl)) rfl,
    (next_eq c).2.trans (by rw [h]; rfl)⟩

/-- **Draining a cursor comes to an end, and gives what remains of it.** -/
theorem drains_remaining (c : SlotCursor) : c.Drains c.remaining := by
  generalize hslots : c.remaining = slots
  induction slots generalizing c with
  | nil =>
    obtain ⟨c', h⟩ := next_of_nil hslots
    exact .done h
  | cons s rest ih =>
    obtain ⟨c', h, hrest⟩ := next_of_cons hslots
    exact .slot h (ih c' hrest)

/-- It gives nothing else. -/
theorem drains_iff {slots : List CsrSlot} : c.Drains slots ↔ slots = c.remaining := by
  constructor
  · intro h
    induction h with
    | @done c c' h =>
      have hnext := c.next_eq
      rw [h] at hnext
      exact (List.head?_eq_none_iff.1 hnext.1.symm).symm
    | @slot c c' s slots h _ ih =>
      have hnext := c.next_eq
      rw [h] at hnext
      rw [ih, hnext.2]
      exact List.cons_head?_tail hnext.1.symm
  · rintro rfl
    exact drains_remaining c

end SlotCursor

/-! ## The cursor of a scan -/

namespace Area

/-- The cursor at the start of a scan. -/
def cursor (a : Area) (m : Memory) (mask : SlotMask) : SlotCursor where
  words := Vector.ofFn fun i => a.dirtyWord m i &&& mask.wordMask i
  position := 0

theorem remaining_cursor (a : Area) (m : Memory) (mask : SlotMask) :
    (a.cursor m mask).remaining = a.dirtySlots m mask := by
  unfold SlotCursor.remaining dirtySlots
  rw [cursor, List.drop_zero]
  refine List.flatMap_congr fun i _ => ?_
  unfold SlotCursor.slotsOf
  simp

/-- **A scan visits the selected dirty slots and no others.** Whatever the bitmap holds and whatever the mask
    selects, the cursor of the scan is drained in finitely many steps. It gives the slots of `dirtySlots`, in
    ascending order and therefore each once: all that are marked and selected, where the mask without a bit selects
    every slot. And a mask is refused for reaching past a number of slots exactly if it has a group that starts
    there or beyond. -/
theorem cursor_drains (a : Area) (m : Memory) (mask : SlotMask) :
    (∃ slots, (a.cursor m mask).Drains slots ∧
      (∀ slots', (a.cursor m mask).Drains slots' → slots' = slots) ∧
      slots = a.dirtySlots m mask ∧ slots.Pairwise (· < ·) ∧
      ∀ s, s ∈ slots ↔ a.isDirty m s = true ∧ mask.selects s = true) ∧
    (∀ s, SlotMask.all.selects s = true) ∧
    ∀ n, mask.exceeds n = true ↔ ∃ k, mask.groups.getLsbD k = true ∧ n ≤ 8 * k := by
  refine ⟨⟨a.dirtySlots m mask, ?_, ?_, rfl, a.dirtySlots_pairwise m mask, ?_⟩, selects_all, ?_⟩
  · rw [SlotCursor.drains_iff, remaining_cursor]
  · intro slots' h
    rw [SlotCursor.drains_iff, remaining_cursor] at h
    exact h
  · intro s
    rw [mem_dirtySlots, and_comm]
  · exact mask.exceeds_iff

end Area

end NestedAccel
