import NestedAccel.Proofs.DeferredWrites
import NestedAccel.Proofs.Retry
import NestedAccel.Proofs.SlotGroups

/-!
# `NestedAccel.Proofs.MaskedSyncs` — calls with two masks and with both

A guest hypervisor may have its registers applied in parts, with one mask and then with another. This module shows that
the parts make a whole: two calls have the effect of one call with the groups of both masks (`Env.syncCsrs_or`). In
which order they are made does not matter, and a slot that both masks select is applied by the first of them only.

A mask without a group is excluded, for it does not select nothing but everything. Where neither mask is one, the slots
selected by both are the ones that either selects (`SlotMask.selects_or`), and the two calls together flush these
slots, although in another order than a single call would (`Env.syncBoth_flushes`). The order makes no difference:
clearing bits commutes (`Area.clearDirty_comm`), and so do writes to different registers (`writeAll_perm`).
-/

namespace NestedAccel

variable {σ : Type}

/-! ## The slots that either mask selects -/

namespace SlotMask

variable {m₁ m₂ : SlotMask}

theorem isAll_of_ne_all (h : m₁ ≠ all) : m₁.isAll = false := eq_false_of_ne_true fun hall => h (isAll_iff.1 hall)

theorem isAll_or (h : m₁ ≠ all) (m₂ : SlotMask) : (m₁ ||| m₂).isAll = false := by
  obtain ⟨k, hk⟩ := isAll_eq_false_iff.1 (isAll_of_ne_all h)
  refine isAll_eq_false_iff.2 ⟨k, ?_⟩
  rw [getLsbD_groups_or, hk, Bool.true_or]

theorem selects_or (h₁ : m₁ ≠ all) (h₂ : m₂ ≠ all) (s : CsrSlot) :
    (m₁ ||| m₂).selects s = (m₁.selects s || m₂.selects s) := by
  rw [Bool.eq_iff_iff, Bool.or_eq_true, selects_iff (isAll_or h₁ m₂), selects_iff (isAll_of_ne_all h₁),
    selects_iff (isAll_of_ne_all h₂), getLsbD_groups_or, Bool.or_eq_true]

theorem exceeds_or (m₁ m₂ : SlotMask) (n : Nat) :
    (m₁ ||| m₂).exceeds n = (m₁.exceeds n || m₂.exceeds n) := by
  rw [Bool.eq_iff_iff, Bool.or_eq_true, exceeds_iff, exceeds_iff, exceeds_iff]
  simp only [getLsbD_groups_or, Bool.or_eq_true, or_and_right, exists_or]

end SlotMask

/-! ## The order of the slots -/

theorem Word.clearBit_comm (w : Word) (i j : Nat) :
    clearBit (clearBit w i) j = clearBit (clearBit w j) i := by
  apply Word.ext_bit
  intro k _
  simp only [Word.bit_clearBit]
  rw [Bool.and_right_comm]

namespace Area

variable {a : Area} {m m₀ : Memory} {slots slots' : List CsrSlot}

theorem read_clearDirty (a : Area) (s : CsrSlot) (m : Memory) (b : Nat) :
    (a.clearDirty s m).read b =
      if b = a.bitmapBase (bitmapIndex s) then Word.clearBit (m.read b) (s % 64) else m.read b := by
  unfold clearDirty dirtyWord
  rw [Memory.read_write]
  by_cases hb : b = a.bitmapBase (bitmapIndex s)
  · rw [if_pos hb, if_pos hb, hb]
  · rw [if_neg hb, if_neg hb]

/-- Slots can be cleared in any order, also when their bits are in one word. -/
theorem clearDirty_comm (a : Area) (s t : CsrSlot) (m : Memory) :
    a.clearDirty s (a.clearDirty t m) = a.clearDirty t (a.clearDirty s m) := by
  apply Memory.ext_read
  intro b
  simp only [read_clearDirty]
  by_cases hs : b = a.bitmapBase (bitmapIndex s)
  · by_cases ht : b = a.bitmapBase (bitmapIndex t)
    · rw [if_pos hs, if_pos ht, if_pos ht, if_pos hs, Word.clearBit_comm]
    · rw [if_pos hs, if_neg ht, if_neg ht, if_pos hs]
  · rw [if_neg hs, if_neg hs]

theorem finishAll_perm (h : slots.Perm slots') :
    finishAll (a.slotTask m₀) slots m = finishAll (a.slotTask m₀) slots' m := by
  apply h.foldl_eq'
  intro s _ t _ m
  exact clearDirty_comm a t s m

end Area

/-- Writes to different registers can be made in any order. -/
theorem writeAll_perm {ws ws' : List CsrWrite} (h : ws.Perm ws')
    (hone : ∀ c ∈ ws, ∀ d ∈ ws, c.csr = d.csr → c = d) (f : CsrNumber → Word) :
    writeAll ws f = writeAll ws' f := by
  apply h.foldl_eq'
  intro c hc d hd f
  by_cases hcsr : c.csr = d.csr
  · rw [hone c hc d hd hcsr]
  · exact Function.update_comm hcsr c.value d.value f

/-! ## Effects -/

/-- Two worlds come out of `w` with the same effect: guest memory is the same, the registers are, and the host has been
    asked for the same writes, for each of them once, and has carried them out. -/
structure SameEffect (csr : σ → CsrNumber → Word) (w w₁ w₂ : World σ) : Prop where
  memory : w₁.memory = w₂.memory
  registers : csr w₁.state = csr w₂.state
  record : ∃ new₁ new₂, w₁.events = w.events ++ new₁ ∧ w₂.events = w.events ++ new₂ ∧
    (requestsMade new₁).Perm (requestsMade new₂) ∧ (requestsMade new₁).Nodup ∧
    requestsDone new₁ = requestsMade new₁ ∧ requestsDone new₂ = requestsMade new₂

namespace Flushed

variable {csr : σ → CsrNumber → Word} {a : Area} {slots slots' more : List CsrSlot}
  {w w₁ w₂ : World σ}

theorem isDirty_eq (h : Flushed csr a slots w w₁) (s : CsrSlot) :
    a.isDirty w₁.memory s = (a.isDirty w.memory s && !decide (s ∈ slots)) := by
  rw [h.memory, Area.isDirty_finishAll]

theorem slotUpdate_eq (h : Flushed csr a slots w w₁) :
    a.slotUpdate w₁.memory = a.slotUpdate w.memory := by
  rw [h.memory, Area.slotUpdate_finishAll]

theorem selectedValid (h : Flushed csr a slots w w₁) {mask : SlotMask}
    (hvalid : a.SelectedValid w.memory mask) : a.SelectedValid w₁.memory mask := by
  rw [h.memory]
  exact hvalid.finishAll w.memory slots

/-- **Slots flushed one after the other** are flushed together. -/
theorem trans (h : Flushed csr a slots w w₁) (h' : Flushed csr a more w₁ w₂) :
    Flushed csr a (slots ++ more) w w₂ := by
  have htask : a.slotTask w₁.memory = a.slotTask w.memory := by
    rw [h.memory, Area.slotTask_finishAll]
  obtain ⟨new, hevents, hmade, hdone⟩ := h.record
  obtain ⟨new', hevents', hmade', hdone'⟩ := h'.record
  refine ⟨?_, ?_, new ++ new', ?_, ?_, ?_⟩
  · rw [h'.memory, htask, h.memory, finishAll_append]
  · rw [h'.registers, h.slotUpdate_eq, h.registers, List.map_append]
    unfold writeAll
    rw [List.foldl_append]
  · rw [hevents', hevents, List.append_assoc]
  · rw [requestsMade_append, hmade, hmade', h.slotUpdate_eq, List.map_append]
  · rw [requestsDone_append, requestsMade_append, hdone, hdone']

/-- **Flushing slots in another order has the same effect.** -/
theorem sameEffect (h : Flushed csr a slots w w₁) (h' : Flushed csr a slots' w w₂)
    (hperm : slots.Perm slots') (hnodup : slots.Nodup) (hvalid : ∀ s ∈ slots, a.SlotValid w.memory s) :
    SameEffect csr w w₁ w₂ := by
  obtain ⟨new, hevents, hmade, hdone⟩ := h.record
  obtain ⟨new', hevents', hmade', hdone'⟩ := h'.record
  refine ⟨?_, ?_, new, new', hevents, hevents', ?_, ?_, hdone, hdone'⟩
  · rw [h.memory, h'.memory]
    exact Area.finishAll_perm hperm
  · rw [h.registers, h'.registers]
    apply writeAll_perm (hperm.map _)
    intro c hc d hd hcsr
    obtain ⟨s, hs, rfl⟩ := List.mem_map.1 hc
    obtain ⟨t, ht, rfl⟩ := List.mem_map.1 hd
    -- different slots are those of different registers
    rw [Area.csr_injOn (hvalid s hs) (hvalid t ht) hcsr]
  · rw [hmade, hmade']
    exact hperm.map _
  · rw [hmade]
    refine List.Nodup.map_on (fun s hs t ht heq => ?_) hnodup
    exact Area.slotUpdate_injOn (hvalid s hs) (hvalid t ht) (Request.writeCsr.inj heq)

end Flushed

/-! ## Two calls -/

/-- Applies the slots selected by one mask, and then those selected by another. The result is the sum of the
    results. -/
def Env.syncBoth (env : Env σ) (a : Area) (first second : SlotMask) :
    Act (Phase × World σ) SyncError Nat := do
  let n ← env.syncCsrs a first
  let n' ← env.syncCsrs a second
  return n + n'

section

variable {env : Env σ} {csr : σ → CsrNumber → Word} {a : Area} {m₁ m₂ : SlotMask} {w : World σ}

/-- **Two calls flush the slots that either mask selects,** each of them once: what the first has applied is no longer
    dirty for the second. -/
theorem Env.syncBoth_flushes (hquiet : env.Quiet) (hstores : env.StoresCsrs csr)
    (hspan₁ : m₁.exceeds Csr.span = false) (hspan₂ : m₂.exceeds Csr.span = false)
    (hvalid₁ : a.SelectedValid w.memory m₁) (hvalid₂ : a.SelectedValid w.memory m₂) :
    ∃ slots w', (env.syncBoth a m₁ m₂).run (.idle, w) = (.ok slots.length, (.idle, w')) ∧
      Flushed csr a slots w w' ∧ slots.Nodup ∧
      ∀ s, s ∈ slots ↔ (m₁.selects s = true ∨ m₂.selects s = true) ∧ a.isDirty w.memory s = true := by
  obtain ⟨w₁, hrun₁, hflushed₁⟩ := Env.syncCsrs_flushes hquiet hstores hspan₁ hvalid₁
  obtain ⟨w₂, hrun₂, hflushed₂⟩ :=
    Env.syncCsrs_flushes hquiet hstores hspan₂ (hflushed₁.selectedValid hvalid₂)
  have hsecond : ∀ s, s ∈ a.dirtySlots w₁.memory m₂ ↔
      (m₂.selects s = true ∧ a.isDirty w.memory s = true) ∧ s ∉ a.dirtySlots w.memory m₁ := by
    intro s
    rw [Area.mem_dirtySlots, hflushed₁.isDirty_eq, Bool.and_eq_true, Bool.not_eq_true',
      decide_eq_false_iff_not, and_assoc]
  refine ⟨a.dirtySlots w.memory m₁ ++ a.dirtySlots w₁.memory m₂, w₂, ?_, hflushed₁.trans hflushed₂, ?_, ?_⟩
  · unfold Env.syncBoth
    rw [Act.bind_run, hrun₁, Act.next_ok, Act.bind_run, hrun₂, Act.next_ok, List.length_append]
    rfl
  · refine List.nodup_append.2 ⟨a.dirtySlots_nodup _ _, a.dirtySlots_nodup _ _, ?_⟩
    rintro s hs t ht rfl
    exact ((hsecond s).1 ht).2 hs
  · intro s
    rw [List.mem_append, hsecond, Area.mem_dirtySlots]
    by_cases hs : m₁.selects s = true
    · simp [hs]
    · simp [hs]

/-- **Calls with two masks make up one call with both.** Neither mask is the one that selects every slot, neither reaches
    past the table, and what is dirty and selected by one of them passes its check. If the host carries out every write,
    keeps the registers apart and leaves guest memory alone, then the two calls succeed in either order, as does the
    single call with the groups of both. The three come to the same: the same guest memory, and with it the same
    bitmap; the same registers of the host; and the same writes, each made and carried out once, one for each slot
    that is dirty and selected by either mask. Their number is the result of the single call and the sum of the results
    of the two, so that a slot selected by both is counted once. -/
theorem Env.syncCsrs_or (hquiet : env.Quiet) (hstores : env.StoresCsrs csr) (h₁ : m₁ ≠ .all) (h₂ : m₂ ≠ .all)
    (hspan₁ : m₁.exceeds Csr.span = false) (hspan₂ : m₂.exceeds Csr.span = false)
    (hvalid : ∀ s, m₁.selects s = true ∨ m₂.selects s = true → a.isDirty w.memory s = true →
      a.SlotValid w.memory s) :
    ∃ n w₁₂ w₂₁ w',
      (env.syncBoth a m₁ m₂).run (.idle, w) = (.ok n, (.idle, w₁₂)) ∧
      (env.syncBoth a m₂ m₁).run (.idle, w) = (.ok n, (.idle, w₂₁)) ∧
      (env.syncCsrs a (m₁ ||| m₂)).run (.idle, w) = (.ok n, (.idle, w')) ∧
      SameEffect csr w w₁₂ w' ∧ SameEffect csr w w₂₁ w' ∧
      (∀ s, a.isDirty w'.memory s = (a.isDirty w.memory s && !(m₁.selects s || m₂.selects s))) ∧
      ∃ new, w'.events = w.events ++ new ∧ (requestsMade new).length = n ∧
        ∀ q, q ∈ requestsMade new ↔ ∃ s, (m₁.selects s = true ∨ m₂.selects s = true) ∧
          a.isDirty w.memory s = true ∧ q = .writeCsr (a.slotUpdate w.memory s) := by
  have hvalid₁ : a.SelectedValid w.memory m₁ := fun s hs => hvalid s (.inl hs)
  have hvalid₂ : a.SelectedValid w.memory m₂ := fun s hs => hvalid s (.inr hs)
  have hspan : (m₁ ||| m₂).exceeds Csr.span = false := by
    rw [SlotMask.exceeds_or, hspan₁, hspan₂]
    rfl
  have hboth : a.SelectedValid w.memory (m₁ ||| m₂) := by
    intro s hs
    rw [SlotMask.selects_or h₁ h₂, Bool.or_eq_true] at hs
    exact hvalid s hs
  have hmem : ∀ s, s ∈ a.dirtySlots w.memory (m₁ ||| m₂) ↔
      (m₁.selects s = true ∨ m₂.selects s = true) ∧ a.isDirty w.memory s = true := by
    intro s
    rw [Area.mem_dirtySlots, SlotMask.selects_or h₁ h₂, Bool.or_eq_true]
  obtain ⟨w', hrun, hflushed⟩ := Env.syncCsrs_flushes hquiet hstores hspan hboth
  obtain ⟨slots, w₁₂, hrun₁₂, hflushed₁₂, hnodup, hslots⟩ :=
    Env.syncBoth_flushes hquiet hstores hspan₁ hspan₂ hvalid₁ hvalid₂
  obtain ⟨slots', w₂₁, hrun₂₁, hflushed₂₁, hnodup', hslots'⟩ :=
    Env.syncBoth_flushes hquiet hstores hspan₂ hspan₁ hvalid₂ hvalid₁
  -- all three are the same slots
  have hperm : slots.Perm (a.dirtySlots w.memory (m₁ ||| m₂)) := by
    rw [List.perm_ext_iff_of_nodup hnodup (a.dirtySlots_nodup _ _)]
    intro s
    rw [hslots, hmem]
  have hperm' : slots'.Perm (a.dirtySlots w.memory (m₁ ||| m₂)) := by
    rw [List.perm_ext_iff_of_nodup hnodup' (a.dirtySlots_nodup _ _)]
    intro s
    rw [hslots', hmem, or_comm]
  have hpass : ∀ s ∈ a.dirtySlots w.memory (m₁ ||| m₂), a.SlotValid w.memory s := hboth.mem_dirtySlots
  obtain ⟨new, hevents, hmade, _⟩ := hflushed.record
  rw [hperm.length_eq] at hrun₁₂
  rw [hperm'.length_eq] at hrun₂₁
  refine ⟨_, w₁₂, w₂₁, w', hrun₁₂, hrun₂₁, hrun, ?_, ?_, ?_, new, hevents, ?_, ?_⟩
  · exact hflushed₁₂.sameEffect hflushed hperm hnodup fun s hs => hpass s (hperm.mem_iff.1 hs)
  · exact hflushed₂₁.sameEffect hflushed hperm' hnodup' fun s hs => hpass s (hperm'.mem_iff.1 hs)
  · intro s
    rw [hflushed.isDirty_eq, ← SlotMask.selects_or h₁ h₂]
    cases hdirty : a.isDirty w.memory s with
    | false => rfl
    | true => simp [Area.mem_dirtySlots, hdirty]
  · rw [hmade, List.length_map]
  · intro q
    rw [hmade, List.mem_map]
    constructor
    · rintro ⟨s, hs, rfl⟩
      obtain ⟨hselected, hdirty⟩ := (hmem s).1 hs
      exact ⟨s, hselected, hdirty, rfl⟩
    · rintro ⟨s, hselected, hdirty, rfl⟩
      exact ⟨s, (hmem s).2 ⟨hselected, hdirty⟩, rfl⟩

/-- Three registers are dirty, and both masks select one of them. The second mask has a group in its upper half. -/
theorem Env.syncCsrs_or_overlapping :
    let a := Area.ofGuest 0x80000000
    let m₁ := SlotMask.ofCsrs [CsrNumber.vsscratch, CsrNumber.hcounteren]
    let m₂ := SlotMask.ofCsrs [CsrNumber.hgeip, CsrNumber.hcounteren, CsrNumber.vstvec]
    let w : World (CsrNumber → Word) :=
      { state := fun _ => 0
        memory := a.writeCsr CsrNumber.vstvec 4 (a.writeCsr CsrNumber.hcounteren 7
          (a.writeCsr CsrNumber.vsscratch 1 .zero)) }
    ∃ w₁₂ w₂₁ w',
      (Env.registerFile.syncBoth a m₁ m₂).run (.idle, w) = (.ok 3, (.idle, w₁₂)) ∧
      (Env.registerFile.syncBoth a m₂ m₁).run (.idle, w) = (.ok 3, (.idle, w₂₁)) ∧
      (Env.registerFile.syncCsrs a (m₁ ||| m₂)).run (.idle, w) = (.ok 3, (.idle, w')) ∧
      SameEffect id w w₁₂ w' ∧ SameEffect id w w₂₁ w' := by
  intro a m₁ m₂ w
  have hvalid : ∀ s, a.isDirty w.memory s = true →
      Check.slotWrite s (a.slotValue w.memory s) = .ok (a.slotUpdate w.memory s) := by decide +kernel
  have hcount : ((Env.registerFile.syncCsrs a (m₁ ||| m₂)).run (.idle, w)).1 = .ok 3 := by decide +kernel
  have hmasks : m₁ ≠ .all ∧ m₂ ≠ .all ∧ m₁.exceeds Csr.span = false ∧ m₂.exceeds Csr.span = false := by
    decide
  obtain ⟨h₁, h₂, hspan₁, hspan₂⟩ := hmasks
  obtain ⟨n, w₁₂, w₂₁, w', hrun₁₂, hrun₂₁, hrun, hsame₁₂, hsame₂₁, _⟩ :=
    Env.syncCsrs_or (a := a) (w := w) Env.registerFile_quiet Env.registerFile_stores h₁ h₂ hspan₁ hspan₂
      fun s _ hs => hvalid s hs
  rw [hrun] at hcount
  cases hcount
  exact ⟨w₁₂, w₂₁, w', hrun₁₂, hrun₂₁, hrun, hsame₁₂, hsame₂₁⟩

end

end NestedAccel
