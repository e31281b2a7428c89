import NestedAccel.Area.Selection
import NestedAccel.Csr.Table

/-!
# `NestedAccel.Proofs.SlotGroups` — masks as sets of groups

The two sides of the interface do not compute with a mask in the same way. The guest hypervisor, which makes it,
sets single bits in one of two halves; the host, which is given the halves, reads them as one number of 128 bits.
Both views come to the same set of groups. `SlotMask.getLsbD_groups` says in which half a group is found, a mask is
determined by its groups (`SlotMask.ext_groups`), and what either side does with a mask is then said for one group:
the guest adds one (`SlotMask.getLsbD_insertCsr`), and the host asks if there is one at all
(`SlotMask.isAll_eq_false_iff`), if there is one past a slot (`SlotMask.exceeds_iff`), and if there is that of a slot
(`SlotMask.selects_iff`).

`SlotMask.ofCsrs_selects` draws the conclusion for a mask made from a list of registers.
-/

namespace NestedAccel.SlotMask

variable {m m' : SlotMask}

/-- A bit vector is zero unless it has a bit. -/
theorem ne_zero_iff {n : Nat} {x : BitVec n} : x ≠ 0#n ↔ ∃ i, x.getLsbD i = true := by
  constructor
  · intro h
    refine Classical.byContradiction fun hnone => h (BitVec.eq_of_getLsbD_eq fun i _ => ?_)
    rw [BitVec.getLsbD_zero]
    exact eq_false_of_ne_true fun hi => hnone ⟨i, hi⟩
  · rintro ⟨i, hi⟩ rfl
    rw [BitVec.getLsbD_zero] at hi
    cases hi

/-! ## The groups of a mask -/

/-- The first 64 groups are in the lower half, and the others in the upper one. -/
theorem getLsbD_groups (m : SlotMask) (k : Nat) :
    m.groups.getLsbD k = if k < 64 then Word.bit m.low k else Word.bit m.high (k - 64) := by
  unfold groups Word.bit
  rw [BitVec.getLsbD_append]

/-- A mask is determined by its groups. -/
theorem ext_groups (h : ∀ k, m.groups.getLsbD k = m'.groups.getLsbD k) : m = m' := by
  have hlow : m.low = m'.low := by
    apply Word.ext_bit
    intro i hi
    have hi' := h i
    rw [getLsbD_groups, getLsbD_groups, if_pos hi, if_pos hi] at hi'
    exact hi'
  have hhigh : m.high = m'.high := by
    apply Word.ext_bit
    intro i hi
    have hnot : ¬64 + i < 64 := by omega
    have hi' := h (64 + i)
    rw [getLsbD_groups, getLsbD_groups, if_neg hnot, if_neg hnot, Nat.add_sub_cancel_left] at hi'
    exact hi'
  exact SlotMask.ext hlow hhigh

@[simp] theorem getLsbD_groups_all (k : Nat) : all.groups.getLsbD k = false := by
  rw [getLsbD_groups]
  simp [all]

/-! ## What the host asks of a mask -/

theorem isAll_iff : m.isAll = true ↔ m = all := by
  unfold isAll all
  rw [SlotMask.ext_iff, Bool.and_eq_true, beq_iff_eq, beq_iff_eq]

/-- A mask that has a group does not select every slot. -/
theorem isAll_eq_false_iff : m.isAll = false ↔ ∃ k, m.groups.getLsbD k = true := by
  rw [← ne_zero_iff, Bool.eq_false_iff]
  apply not_congr
  rw [isAll_iff]
  constructor
  · intro h
    rw [h]
    rfl
  · intro h
    apply ext_groups
    intro k
    rw [h, getLsbD_groups_all, BitVec.getLsbD_zero]

/-- A mask that has a group selects the slots of its groups. -/
theorem selects_iff (h : m.isAll = false) (s : CsrSlot) :
    m.selects s = true ↔ m.groups.getLsbD (s / groupSize) = true := by
  unfold selects
  rw [h, Bool.false_or]

/-- A mask exceeds a number of slots exactly if it has a group that starts at or past it. -/
theorem exceeds_iff (m : SlotMask) (n : Nat) :
    m.exceeds n = true ↔ ∃ k, m.groups.getLsbD k = true ∧ n ≤ groupSize * k := by
  have hround : ∀ k, n ≤ groupSize * k ↔ (n + groupSize - 1) / groupSize ≤ k := by
    intro k
    unfold groupSize
    omega
  unfold exceeds
  rw [bne_iff_ne]
  refine ne_zero_iff.trans ?_
  simp only [BitVec.getLsbD_ushiftRight]
  constructor
  · rintro ⟨i, hi⟩
    exact ⟨_, hi, (hround _).2 (Nat.le_add_right _ i)⟩
  · rintro ⟨k, hk, hle⟩
    -- the group is bit `k - start` of what the shift leaves
    refine ⟨k - (n + groupSize - 1) / groupSize, ?_⟩
    rw [Nat.add_sub_cancel' ((hround k).1 hle)]
    exact hk

/-! ## Making a mask -/

/-- Adding a register adds the group of its slot and no other. -/
theorem getLsbD_insertCsr (m : SlotMask) (n : CsrNumber) (k : Nat) :
    (m.insertCsr n).groups.getLsbD k =
      (m.groups.getLsbD k || decide ((CsrSlot.ofCsr n : Nat) / groupSize = k)) := by
  have hgroup : (CsrSlot.ofCsr n : Nat) / groupSize < 128 := by
    unfold groupSize
    omega
  unfold insertCsr
  dsimp only
  generalize (CsrSlot.ofCsr n : Nat) / groupSize = g at hgroup ⊢
  by_cases hg : g < 64
  · rw [if_pos hg, getLsbD_groups, getLsbD_groups]
    dsimp only
    by_cases hk : k < 64
    · rw [if_pos hk, if_pos hk, Word.bit_setBit, decide_eq_true hk, Bool.and_true]
    · -- the upper half is as it was
      have hne : g ≠ k := by omega
      rw [if_neg hk, if_neg hk, decide_eq_false hne, Bool.or_false]
  · rw [if_neg hg, getLsbD_groups, getLsbD_groups]
    dsimp only
    by_cases hk : k < 64
    · have hne : g ≠ k := by omega
      rw [if_pos hk, if_pos hk, decide_eq_false hne, Bool.or_false]
    · rw [if_neg hk, if_neg hk, Word.bit_setBit, ← Bool.decide_and]
      have heq : g - 64 = k - 64 ∧ k - 64 < 64 ↔ g = k := by omega
      simp only [heq]

/-- The mask made for the given registers. -/
def ofCsrs (ns : List CsrNumber) : SlotMask := ns.foldl insertCsr all

theorem getLsbD_foldl_insertCsr (ns : List CsrNumber) (m : SlotMask) (k : Nat) :
    (ns.foldl insertCsr m).groups.getLsbD k = true ↔
      m.groups.getLsbD k = true ∨ ∃ n ∈ ns, (CsrSlot.ofCsr n : Nat) / groupSize = k := by
  induction ns generalizing m with
  | nil => simp
  | cons n rest ih =>
    rw [List.foldl_cons, ih, getLsbD_insertCsr, Bool.or_eq_true, decide_eq_true_eq, or_assoc]
    simp only [List.mem_cons, exists_eq_or_imp]

/-- **It has the groups of the registers, and no others.** -/
theorem getLsbD_ofCsrs (ns : List CsrNumber) (k : Nat) :
    (ofCsrs ns).groups.getLsbD k = true ↔ ∃ n ∈ ns, (CsrSlot.ofCsr n : Nat) / groupSize = k := by
  unfold ofCsrs
  rw [getLsbD_foldl_insertCsr, getLsbD_groups_all]
  simp

/-- Neither the order of the registers matters, nor how often one is given. -/
theorem ofCsrs_congr {ns ns' : List CsrNumber} (h : ∀ n, n ∈ ns' ↔ n ∈ ns) : ofCsrs ns' = ofCsrs ns := by
  apply ext_groups
  intro k
  rw [Bool.eq_iff_iff, getLsbD_ofCsrs, getLsbD_ofCsrs]
  simp only [h]

theorem ofCsrs_isAll {ns : List CsrNumber} (hns : ns ≠ []) : (ofCsrs ns).isAll = false := by
  obtain ⟨n, hn⟩ := List.exists_mem_of_ne_nil ns hns
  exact isAll_eq_false_iff.2 ⟨_, (getLsbD_ofCsrs ns _).2 ⟨n, hn, rfl⟩⟩

/-- It exceeds a number of slots exactly if the group of one of the registers does. -/
theorem ofCsrs_exceeds (ns : List CsrNumber) (slots : Nat) :
    (ofCsrs ns).exceeds slots = true ↔
      ∃ n ∈ ns, slots ≤ groupSize * ((CsrSlot.ofCsr n : Nat) / groupSize) := by
  rw [exceeds_iff]
  simp only [getLsbD_ofCsrs]
  constructor
  · rintro ⟨k, ⟨n, hn, rfl⟩, hle⟩
    exact ⟨n, hn, hle⟩
  · rintro ⟨n, hn, hle⟩
    exact ⟨_, ⟨n, hn, rfl⟩, hle⟩

/-- **The guest hypervisor and its host agree on a mask.** The guest hypervisor makes a mask for some registers and
    hands its two halves over. What the host makes of them does not select every slot; it selects the slots that are
    in one group with the slot of a register asked for; it is the same for the same registers in any order and
    number; and it is refused for reaching past the table exactly if the group of a register does, which no register
    of the table makes it do. -/
theorem ofCsrs_selects {ns : List CsrNumber} (hns : ns ≠ []) :
    let host : SlotMask := ⟨(ofCsrs ns).low, (ofCsrs ns).high⟩
    host.isAll = false ∧
    (∀ s, host.selects s = true ↔
      ∃ n ∈ ns, (CsrSlot.ofCsr n : Nat) / groupSize = (s : Nat) / groupSize) ∧
    (∀ ns', (∀ n, n ∈ ns' ↔ n ∈ ns) → ofCsrs ns' = host) ∧
    (host.exceeds Csr.span = true ↔
      ∃ n ∈ ns, Csr.span ≤ groupSize * ((CsrSlot.ofCsr n : Nat) / groupSize)) ∧
    ((∀ n ∈ ns, ∃ e ∈ Csr.table, e.number = n) → host.exceeds Csr.span = false) := by
  intro host
  have hexceeds := ofCsrs_exceeds ns Csr.span
  refine ⟨ofCsrs_isAll hns, ?_, fun ns' h => ofCsrs_congr h, hexceeds, ?_⟩
  · intro s
    rw [selects_iff (ofCsrs_isAll hns)]
    exact getLsbD_ofCsrs ns _
  · intro htable
    apply eq_false_of_ne_true
    intro h
    obtain ⟨n, hn, hle⟩ := hexceeds.1 h
    obtain ⟨e, he, rfl⟩ := htable n hn
    -- the slot is in the table, and its group starts no later
    have hslot : (CsrSlot.ofCsr e.number : Nat) < Csr.span := Csr.slot_lt_span he
    have hstart : groupSize * ((CsrSlot.ofCsr e.number : Nat) / groupSize) ≤ CsrSlot.ofCsr e.number :=
      Nat.mul_div_le _ _
    omega

/-- The register of the last slot of the table is in its last group, which the table does not fill, and that of the
    first slot is in the lower half of the mask. -/
theorem ofCsrs_selects_last :
    let ns := [CsrNumber.vstopi, CsrNumber.vsstatus]
    let host : SlotMask := ⟨(ofCsrs ns).low, (ofCsrs ns).high⟩
    host = ⟨1, 0x40000000000000⟩ ∧ host.isAll = false ∧ host.exceeds Csr.span = false ∧
      ofCsrs [CsrNumber.vsstatus, CsrNumber.vstopi, CsrNumber.vsstatus] = host ∧
      host.selects ⟨951, by decide⟩ = true ∧ ¬host.selects ⟨952, by decide⟩ = true := by
  intro ns host
  have hns : ns ≠ [] := List.cons_ne_nil _ _
  have hmem : ∀ n, n ∈ ns ↔ n = CsrNumber.vstopi ∨ n = CsrNumber.vsstatus := by simp [ns]
  obtain ⟨hall, hselects, hsame, _, htable⟩ := ofCsrs_selects hns
  refine ⟨by decide, hall, htable ?_, hsame _ ?_, ?_, ?_⟩
  · intro n hn
    rcases (hmem n).1 hn with rfl | rfl
    · exact ⟨⟨CsrNumber.vstopi, .readOnly, .any⟩, by decide, rfl⟩
    · exact ⟨⟨CsrNumber.vsstatus, .readWrite, .vsstatus⟩, by decide, rfl⟩
  · intro n
    rw [hmem]
    simp only [List.mem_cons, List.not_mem_nil, or_false]
    rw [or_left_comm, or_self]
  · rw [hselects]
    decide
  · rw [hselects]
    decide

/-! ## Masks together -/

/-- The groups of either mask. -/
instance : OrOp SlotMask := ⟨fun m m' => ⟨m.low ||| m'.low, m.high ||| m'.high⟩⟩

@[simp] theorem low_or (m m' : SlotMask) : (m ||| m').low = m.low ||| m'.low := rfl

@[simp] theorem high_or (m m' : SlotMask) : (m ||| m').high = m.high ||| m'.high := rfl

theorem getLsbD_groups_or (m m' : SlotMask) (k : Nat) :
    (m ||| m').groups.getLsbD k = (m.groups.getLsbD k || m'.groups.getLsbD k) := by
  simp only [getLsbD_groups, low_or, high_or, Word.bit_or]
  split <;> rfl

end NestedAccel.SlotMask
