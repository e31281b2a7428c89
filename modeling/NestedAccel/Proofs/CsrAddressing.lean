import NestedAccel.Proofs.Legal

/-!
# `NestedAccel.Proofs.CsrAddressing` — the registers that numbers and slots lead to

A register is reached in two ways, by its number and by its slot of the CSR array. Both drop something. A number
comes as a word of 64 bits and is held in sixteen; a slot is ten bits of a number, so that several numbers fall on
each. The table decides what is left: `Csr.entry?_eq_some_iff` and `Csr.entryAt?_eq_some_iff` say which of its
entries a number and a slot lead to, and `Check.assigned_eq_ok_iff` takes this to words that are no number at all.

`Check.addressing_exact` draws the conclusion: the two ways lead to the same register, and to no register that
merely looks like it.
-/

namespace NestedAccel

/-! ## Entries of the table -/

namespace Csr

variable {e f : Entry}

theorem entryAt?_eq_some_iff {s : CsrSlot} : entryAt? s = some e ↔ e ∈ table ∧ e.slot = s := by
  constructor
  · intro h
    exact ⟨mem_table_of_entryAt? h, slot_of_entryAt? h⟩
  · rintro ⟨he, rfl⟩
    exact entryAt?_slot he

theorem entry?_eq_some_iff {n : CsrNumber} : entry? n = some e ↔ e ∈ table ∧ e.number = n := by
  unfold entry?
  rw [Option.filter_eq_some_iff, entryAt?_eq_some_iff]
  constructor
  · rintro ⟨⟨he, _⟩, hnumber⟩
    exact ⟨he, by simpa using hnumber⟩
  · rintro ⟨he, rfl⟩
    exact ⟨⟨he, rfl⟩, by simp⟩

/-- A slot belongs to one register at most. -/
theorem eq_of_slot_eq (he : e ∈ table) (hf : f ∈ table) (h : e.slot = f.slot) : e = f := by
  have hslot := entryAt?_slot he
  rw [h, entryAt?_slot hf] at hslot
  exact (Option.some.inj hslot).symm

theorem number_le_max (he : e ∈ table) : e.number.toNat ≤ CsrNumber.max.toNat := by
  revert e
  decide

/-- The word is the number of an assigned register. -/
def Assigned (n : Word) : Prop := ∃ e ∈ table, e.number.toNat = n.toNat

instance (n : Word) : Decidable (Assigned n) :=
  inferInstanceAs (Decidable (∃ e ∈ table, e.number.toNat = n.toNat))

end Csr

/-! ## Words that name a register -/

namespace Check

variable {n v : Word} {e : Csr.Entry} {s : CsrSlot} {w : CsrWrite}

/-- Sixteen bits are enough for a number that a register can have. -/
theorem toNat_toUInt16 (h : n.toNat ≤ CsrNumber.max.toNat) : n.toUInt16.toNat = n.toNat := by
  have hmod : n.toUInt16.toNat = n.toNat % 2 ^ 16 := rfl
  have hmax : CsrNumber.max.toNat = 0xfff := rfl
  omega

/-- **A word leads to the entry whose number it is.** -/
theorem assigned_eq_ok_iff : assigned n = .ok e ↔ e ∈ Csr.table ∧ e.number.toNat = n.toNat := by
  unfold assigned
  by_cases hn : n.toNat ≤ CsrNumber.max.toNat
  · have hnumber : e.number = n.toUInt16 ↔ e.number.toNat = n.toNat := by
      rw [← UInt16.toNat_inj, toNat_toUInt16 hn]
    rw [if_pos hn, ← hnumber, ← Csr.entry?_eq_some_iff]
    cases Csr.entry? n.toUInt16 with
    | none => simp
    | some f => simp
  · rw [if_neg hn]
    constructor
    · intro h
      cases h
    · rintro ⟨he, hnumber⟩
      -- the numbers of the table are numbers that a register can have
      exact absurd (hnumber ▸ Csr.number_le_max he) hn

/-- A word that is no number of the table leads nowhere, whatever it would be cut down to. -/
theorem assigned_of_not_assigned (h : ¬Csr.Assigned n) : assigned n = .error (.unassigned n) := by
  have hnone : ∀ e, assigned n ≠ .ok e := by
    intro e he
    exact h ⟨e, assigned_eq_ok_iff.1 he⟩
  unfold assigned at hnone ⊢
  split
  · rename_i hn
    rw [if_pos hn] at hnone
    split
    · rename_i e he
      rw [he] at hnone
      exact absurd rfl (hnone e)
    · rfl
  · rfl

theorem csrRead_eq_ok_iff {c : CsrNumber} :
    csrRead n = .ok c ↔ Csr.Assigned n ∧ c.toNat = n.toNat := by
  constructor
  · intro h
    obtain ⟨e, he, hc⟩ := ok_of_bind h
    obtain ⟨hmem, hnumber⟩ := assigned_eq_ok_iff.1 he
    cases hc
    exact ⟨⟨e, hmem, hnumber⟩, hnumber⟩
  · rintro ⟨⟨e, hmem, hnumber⟩, hc⟩
    have hassigned : assigned n = .ok e := assigned_eq_ok_iff.2 ⟨hmem, hnumber⟩
    have heq : e.number = c := UInt16.toNat_inj.1 (hnumber.trans hc.symm)
    unfold csrRead
    rw [hassigned, ← heq]
    rfl

/-- **By its number or by its slot, a register is written alike.** -/
theorem csrWrite_eq_slotWrite (h : Csr.Assigned n) (v : Word) :
    csrWrite n v = slotWrite (.ofCsr n.toUInt16) v := by
  obtain ⟨e, hmem, hnumber⟩ := h
  have hassigned : assigned n = .ok e := assigned_eq_ok_iff.2 ⟨hmem, hnumber⟩
  have hslot : Csr.entryAt? (.ofCsr n.toUInt16) = some e := by
    rw [← (assigned_ok hassigned).2]
    exact Csr.entryAt?_slot hmem
  unfold csrWrite slotWrite
  rw [hassigned, hslot]
  rfl

/-- A write that a slot comes to is one to the register of the slot. -/
theorem slotWrite_ok (h : slotWrite s v = .ok w) : w.value = v ∧ CsrSlot.ofCsr w.csr = s := by
  unfold slotWrite at h
  split at h
  · rename_i e he
    unfold write at h
    split at h
    · cases h
    · split at h
      · cases h
        exact ⟨rfl, Csr.slot_of_entryAt? he⟩
      · cases h
  · cases h

/-- The guest hypervisor can read the register with number `n`, or can write some value to it. -/
def Accessible (n : Word) : Prop := (∃ c, csrRead n = .ok c) ∨ ∃ v w, csrWrite n v = .ok w

theorem Accessible.assigned (h : Accessible n) : Csr.Assigned n := by
  rcases h with ⟨c, hc⟩ | ⟨v, w, hw⟩
  · exact (csrRead_eq_ok_iff.1 hc).1
  · obtain ⟨e, he, _⟩ := ok_of_bind hw
    exact ⟨e, assigned_eq_ok_iff.1 he⟩

/-- **Numbers and slots lead to the assigned registers, and never to another.**

    A word can be read exactly if it is the number of an entry of the table, and then that register is read.
    A write by number is the write to the register's slot for such a word, and for every other word it is refused
    as unassigned, even if the sixteen low bits or the slot are those of an entry.

    A write that a slot comes to has the value given, and its register lies on that slot. So two slots never write
    the same register, and of the words whose numbers fall on one slot a single one is accessible at most. -/
theorem addressing_exact :
    (∀ n v : Word,
      (∀ c, csrRead n = .ok c ↔ Csr.Assigned n ∧ c.toNat = n.toNat) ∧
      (Csr.Assigned n → csrWrite n v = slotWrite (.ofCsr n.toUInt16) v) ∧
      (¬Csr.Assigned n →
        csrRead n = .error (.unassigned n) ∧ csrWrite n v = .error (.unassigned n))) ∧
    (∀ s v w, slotWrite s v = .ok w → w.value = v ∧ CsrSlot.ofCsr w.csr = s) ∧
    (∀ s s' v v' w w', slotWrite s v = .ok w → slotWrite s' v' = .ok w' → s ≠ s' → w.csr ≠ w'.csr) ∧
    ∀ n n' : Word, CsrSlot.ofCsr n.toUInt16 = CsrSlot.ofCsr n'.toUInt16 →
      Accessible n → Accessible n' → n = n' := by
  refine ⟨?_, ?_, ?_, ?_⟩
  · intro n v
    refine ⟨fun c => csrRead_eq_ok_iff, fun h => csrWrite_eq_slotWrite h v, ?_⟩
    intro h
    unfold csrRead csrWrite
    rw [assigned_of_not_assigned h]
    exact ⟨rfl, rfl⟩
  · intro s v w h
    exact slotWrite_ok h
  · intro s s' v v' w w' h h' hne heq
    apply hne
    rw [← (slotWrite_ok h).2, ← (slotWrite_ok h').2, heq]
  · intro n n' hslot h h'
    obtain ⟨e, he, hnumber⟩ := h.assigned
    obtain ⟨e', he', hnumber'⟩ := h'.assigned
    have hn := (assigned_ok (assigned_eq_ok_iff.2 ⟨he, hnumber⟩)).2
    have hn' := (assigned_ok (assigned_eq_ok_iff.2 ⟨he', hnumber'⟩)).2
    -- the two lie on one slot, which belongs to one entry
    rw [← hn, ← hn'] at hslot
    cases Csr.eq_of_slot_eq he he' hslot
    exact UInt64.toNat_inj.1 (hnumber.symm.trans hnumber')

/-- The number of `hstatus`; a word that is cut down to it; and the number of a machine register that falls on the
    slot of `vsstatus`. -/
theorem addressing_exact_lookalikes :
    Csr.Assigned 0x600 ∧ csrWrite 0x600 0x200000000 = slotWrite 0x100 0x200000000 ∧
    slotWrite 0x100 0x200000000 = .ok ⟨CsrNumber.hstatus, 0x200000000⟩ ∧
    CsrSlot.ofCsr CsrNumber.hstatus = 0x100 ∧
    (0x10600 : Word).toUInt16 = CsrNumber.hstatus ∧ ¬Csr.Assigned 0x10600 ∧
    csrWrite 0x10600 0x200000000 = .error (.unassigned 0x10600) ∧
    CsrSlot.ofCsr 0x300 = CsrSlot.ofCsr CsrNumber.vsstatus ∧ Accessible 0x200 ∧ ¬Accessible 0x300 := by
  obtain ⟨hwords, hslots, _, hshared⟩ := addressing_exact
  have hassigned : Csr.Assigned 0x600 := by decide
  have hcut : ¬Csr.Assigned 0x10600 := by decide
  have hread : csrRead 0x200 = .ok CsrNumber.vsstatus := ((hwords 0x200 0).1 _).2 (by decide)
  have hwrite : slotWrite 0x100 0x200000000 = .ok ⟨CsrNumber.hstatus, 0x200000000⟩ := rfl
  refine ⟨hassigned, (hwords 0x600 0x200000000).2.1 hassigned, hwrite, (hslots _ _ _ hwrite).2, by decide,
    hcut, ((hwords 0x10600 0x200000000).2.2 hcut).2, by decide, .inl ⟨_, hread⟩, ?_⟩
  intro haccessible
  have heq := hshared 0x300 0x200 (by decide) haccessible (.inl ⟨_, hread⟩)
  revert heq
  decide

end Check

end NestedAccel
