import NestedAccel.Proofs.Validation

/-!
# `NestedAccel.Proofs.ReturnCodec` — the contexts that describe a trap return

A trap return context has 64 words, and the check of one is an exact statement about all of them.
`Check.trapReturn_eq` says what the check comes to in terms of the words: first the header, then the words that
are reserved (`ReturnContext.Clean`), then the address and the status (`ReturnContext.Resumable`). What a context
that passes stands for is likewise said word by word (`TrapReturn.ReadFrom`), although the header shares its place
with `x0`.

A context that the guest hypervisor fills in from a register file stands for that file, with the address and the
status given (`TrapReturn.readFrom_make_iff`); so nothing is lost on the way (`Check.trapReturn_exact`).
-/

namespace NestedAccel

/-! ## Register files -/

namespace Registers

variable {rs rs' : Registers}

theorem ext_get (h : ∀ r, rs.get r = rs'.get r) : rs = rs' := by
  apply Registers.ext
  apply Vector.ext
  intro i hi
  exact h ⟨i, hi⟩

theorem get_ofWords (ws : Vector Word 32) (r : Reg) :
    (ofWords ws).get r = if r = 0 then 0 else ws.get r := by
  show (ws.set 0 0)[r.val] = _
  rw [Vector.getElem_set]
  by_cases hr : r = 0
  · simp [hr]
  · have hne : (0 : Nat) ≠ r := fun h => hr (Fin.ext h.symm)
    rw [if_neg hne, if_neg hr]
    rfl

end Registers

/-! ## What a context says -/

namespace ReturnContext

variable {c : ReturnContext}

/-- The word of the context with the given number; past the end there are zeros. -/
def word (c : ReturnContext) (n : Nat) : Word := c.words[n]?.getD 0

theorem word_eq (c : ReturnContext) {n : Nat} (h : n < 64) : c.word n = c.words[n] := by
  unfold word
  rw [Vector.getElem?_eq_getElem h]
  rfl

theorem header_eq (c : ReturnContext) : c.header = c.word 0 := (c.word_eq (by decide)).symm

theorem sepc_eq (c : ReturnContext) : c.sepc = c.word 32 := (c.word_eq (by decide)).symm

theorem sstatus_eq (c : ReturnContext) : c.sstatus = c.word 33 := (c.word_eq (by decide)).symm

/-- The header marks the context as filled in and says nothing else, and the words after the status are zero. -/
def Clean (c : ReturnContext) : Prop := c.word 0 = 1 ∧ ∀ n < 64, 34 ≤ n → c.word n = 0

/-- The address is even, and bits 33:32 of the status select 64 bits. -/
def Resumable (c : ReturnContext) : Prop :=
  (c.word 32).toNat % 2 = 0 ∧ (c.word 33).toNat / 2 ^ 32 % 4 = 2

instance (c : ReturnContext) : Decidable c.Clean :=
  inferInstanceAs (Decidable (_ ∧ _))

instance (c : ReturnContext) : Decidable c.Resumable :=
  inferInstanceAs (Decidable (_ ∧ _))

/-- The words after the status are looked at as the rest of a list. -/
theorem all_reserved_iff :
    (c.words.toList.drop 34).all (· == 0) = true ↔ ∀ n < 64, 34 ≤ n → c.word n = 0 := by
  rw [List.all_eq_true]
  constructor
  · intro h n hn hreserved
    rw [c.word_eq hn]
    have hmem : c.words[n] ∈ c.words.toList.drop 34 := by
      rw [List.mem_drop_iff_getElem]
      refine ⟨n - 34, by simp; omega, ?_⟩
      simp [Nat.add_sub_cancel' hreserved]
    simpa using h _ hmem
  · intro h w hw
    rw [List.mem_drop_iff_getElem] at hw
    obtain ⟨i, hi, rfl⟩ := hw
    have hlt : i + 34 < 64 := by simpa using hi
    have hzero := h (34 + i) (by omega) (Nat.le_add_right 34 i)
    rw [c.word_eq (by omega)] at hzero
    simpa using hzero

/-- A context that has been filled in is well-formed exactly if it is clean. -/
theorem wellFormed_iff (hpopulated : c.populated = true) : c.wellFormed = true ↔ c.Clean := by
  unfold wellFormed Clean
  rw [Bool.and_eq_true, Word.within_one, all_reserved_iff, ← header_eq]
  have hne : c.header ≠ 0 := by
    intro h
    unfold populated at hpopulated
    rw [h, Word.bit_zero] at hpopulated
    cases hpopulated
  exact and_congr_left' (or_iff_right hne)

theorem populated_eq (c : ReturnContext) : c.populated = Word.bit (c.word 0) 0 := by
  unfold populated
  rw [header_eq]

theorem Clean.populated (h : c.Clean) : Word.bit (c.word 0) 0 = true := by
  rw [h.1]
  rfl

theorem resumable_iff :
    c.Resumable ↔ ¬(Word.bit c.sepc 0 = true ∨ ¬Csr.Rule.selects64 c.sstatus = true) := by
  have hodd : Word.bit c.sepc 0 = true ↔ ¬(c.word 32).toNat % 2 = 0 := by
    rw [sepc_eq]
    show (c.word 32).toNat.testBit 0 = true ↔ _
    rw [Nat.testBit_zero, decide_eq_true_iff]
    omega
  have hwidth : Csr.Rule.selects64 c.sstatus = true ↔ (c.word 33).toNat / 2 ^ 32 % 4 = 2 := by
    unfold Csr.Rule.selects64
    rw [beq_iff_eq, Word.field_eq, sstatus_eq]
    rfl
  unfold Resumable
  rw [hodd, hwidth, not_or, not_not, not_not]

end ReturnContext

/-! ## What a return is read from -/

/-- The return is the one that the words of the context name. -/
structure TrapReturn.ReadFrom (t : TrapReturn) (c : ReturnContext) : Prop where
  x0 : t.registers.get 0 = 0
  registers : ∀ r : Reg, r ≠ 0 → t.registers.get r = c.word r
  sepc : t.sepc = c.word 32
  sstatus : t.sstatus = c.word 33

theorem ReturnContext.get_registers (c : ReturnContext) {r : Reg} (hr : r ≠ 0) :
    c.registers.get r = c.word r := by
  unfold registers
  rw [Registers.get_ofWords, if_neg hr, c.word_eq (by omega)]
  exact Vector.getElem_ofFn _

/-- The words name one return and no other. -/
theorem TrapReturn.readFrom_iff {t : TrapReturn} {c : ReturnContext} :
    t.ReadFrom c ↔ t = ⟨c.registers, c.sepc, c.sstatus⟩ := by
  constructor
  · intro h
    have hregisters : t.registers = c.registers := by
      apply Registers.ext_get
      intro r
      by_cases hr : r = 0
      · rw [hr, Registers.get_zero_reg, Registers.get_zero_reg]
      · rw [h.registers r hr, c.get_registers hr]
    obtain ⟨registers, sepc, sstatus⟩ := t
    rw [TrapReturn.mk.injEq, c.sepc_eq, c.sstatus_eq]
    exact ⟨hregisters, h.sepc, h.sstatus⟩
  · rintro rfl
    exact ⟨Registers.get_zero_reg _, fun r hr => c.get_registers hr, c.sepc_eq, c.sstatus_eq⟩

/-! ## Contexts that are filled in -/

namespace ReturnContext

variable (rs : Registers) (sepc sstatus : Word)

/-- The words of a context that is filled in, by their place. -/
theorem word_make (i : Fin 64) :
    (make rs sepc sstatus).word i =
      if i = 0 then 1
      else if h : i.val < 32 then rs.get ⟨i.val, h⟩
      else if i = 32 then sepc
      else if i = 33 then sstatus
      else 0 := by
  rw [word_eq _ i.isLt]
  show (Vector.ofFn _)[i.val] = _
  rw [Vector.getElem_ofFn]
  rfl

theorem sepc_make : (make rs sepc sstatus).sepc = sepc := by
  rw [sepc_eq]
  exact word_make rs sepc sstatus 32

theorem sstatus_make : (make rs sepc sstatus).sstatus = sstatus := by
  rw [sstatus_eq]
  exact word_make rs sepc sstatus 33

theorem word_make_register {r : Reg} (hr : r ≠ 0) : (make rs sepc sstatus).word r = rs.get r := by
  have hplace := word_make rs sepc sstatus ⟨r.val, by omega⟩
  have h0 : (⟨r.val, by omega⟩ : Fin 64) ≠ 0 := by
    intro h
    exact hr (Fin.ext (Fin.ext_iff.1 h :))
  rw [if_neg h0, dif_pos r.isLt] at hplace
  exact hplace

theorem make_clean : (make rs sepc sstatus).Clean := by
  refine ⟨word_make rs sepc sstatus 0, ?_⟩
  intro n hn hreserved
  have hplace := word_make rs sepc sstatus ⟨n, hn⟩
  have h0 : (⟨n, hn⟩ : Fin 64) ≠ 0 := by simp [Fin.ext_iff]; omega
  have h32 : (⟨n, hn⟩ : Fin 64) ≠ 32 := by simp [Fin.ext_iff]; omega
  have h33 : (⟨n, hn⟩ : Fin 64) ≠ 33 := by simp [Fin.ext_iff]; omega
  rw [if_neg h0, dif_neg (by simp; omega), if_neg h32, if_neg h33] at hplace
  exact hplace

theorem make_resumable_iff :
    (make rs sepc sstatus).Resumable ↔ sepc.toNat % 2 = 0 ∧ sstatus.toNat / 2 ^ 32 % 4 = 2 := by
  unfold Resumable
  rw [← sepc_eq, ← sstatus_eq, sepc_make, sstatus_make]

theorem registers_make : (make rs sepc sstatus).registers = rs := by
  apply Registers.ext_get
  intro r
  by_cases hr : r = 0
  · rw [hr, Registers.get_zero_reg, Registers.get_zero_reg]
  · rw [get_registers _ hr, word_make_register rs sepc sstatus hr]

end ReturnContext

/-- **The return read from a context that is filled in is the one that it was filled in with.** -/
theorem TrapReturn.readFrom_make_iff {t : TrapReturn} {rs : Registers} {sepc sstatus : Word} :
    t.ReadFrom (.make rs sepc sstatus) ↔ t = ⟨rs, sepc, sstatus⟩ := by
  rw [TrapReturn.readFrom_iff, ReturnContext.registers_make, ReturnContext.sepc_make, ReturnContext.sstatus_make]

/-! ## The check -/

namespace Check

variable {c : ReturnContext} {t : TrapReturn}

/-- **What the check of a context comes to,** in terms of its words. -/
theorem trapReturn_eq (c : ReturnContext) :
    trapReturn c =
      if Word.bit (c.word 0) 0 = true then
        if c.Clean then
          if c.Resumable then .ok ⟨c.registers, c.sepc, c.sstatus⟩ else .error .badReturnState
        else .error .reservedBits
      else .error .notPopulated := by
  unfold trapReturn
  by_cases hpopulated : c.populated = true
  · have hbit := c.populated_eq ▸ hpopulated
    have hformed := ReturnContext.wellFormed_iff hpopulated
    rw [if_neg (not_not.2 hpopulated), if_pos hbit]
    by_cases hclean : c.Clean
    · rw [if_neg (not_not.2 (hformed.2 hclean)), if_pos hclean]
      by_cases hstate : c.Resumable
      · rw [if_neg (ReturnContext.resumable_iff.1 hstate), if_pos hstate]
      · rw [if_pos (not_not.1 (mt ReturnContext.resumable_iff.2 hstate)), if_neg hstate]
    · rw [if_pos (mt hformed.1 hclean), if_neg hclean]
  · have hbit := c.populated_eq ▸ hpopulated
    rw [if_pos hpopulated, if_neg hbit]

theorem trapReturn_eq_ok_iff : trapReturn c = .ok t ↔ (c.Clean ∧ c.Resumable) ∧ t.ReadFrom c := by
  rw [trapReturn_eq, TrapReturn.readFrom_iff]
  split_ifs with hbit hclean hstate
  · simp [hclean, hstate, eq_comm]
  · simp [hstate]
  · simp [hclean]
  · -- a clean context is one that is filled in
    have hnot : ¬c.Clean := fun hclean => hbit hclean.populated
    simp [hnot]

/-- **The check of a context is exact.**

    A context passes exactly if word 0 is one, the words from 34 up are zero, word 32 is even, and bits 33:32 of
    word 33 are 2. It then stands for the registers in words 1 to 31, the address in word 32 and the status in
    word 33, with `x0` zero. It is refused as not filled in exactly if bit 0 of word 0 is clear, and otherwise for
    bits without meaning wherever it has any, be its address and status good or bad.

    A context that is filled in from a register file passes exactly if the address is even and the status selects
    64 bits, and it stands for just that file, address and status. -/
theorem trapReturn_exact :
    (∀ c : ReturnContext,
      ((∃ t, trapReturn c = .ok t) ↔ c.Clean ∧ c.Resumable) ∧
      (∀ t, trapReturn c = .ok t → t.ReadFrom c) ∧
      (trapReturn c = .error .notPopulated ↔ Word.bit (c.word 0) 0 = false) ∧
      (trapReturn c = .error .reservedBits ↔ Word.bit (c.word 0) 0 = true ∧ ¬c.Clean) ∧
      (trapReturn c = .error .badReturnState ↔ c.Clean ∧ ¬c.Resumable)) ∧
    ∀ (rs : Registers) (sepc sstatus : Word) (t : TrapReturn),
      trapReturn (.make rs sepc sstatus) = .ok t ↔
        (sepc.toNat % 2 = 0 ∧ sstatus.toNat / 2 ^ 32 % 4 = 2) ∧ t = ⟨rs, sepc, sstatus⟩ := by
  constructor
  · intro c
    refine ⟨?_, fun t h => (trapReturn_eq_ok_iff.1 h).2, ?_, ?_, ?_⟩
    · simp only [trapReturn_eq_ok_iff, TrapReturn.readFrom_iff, exists_eq_right]
    · rw [trapReturn_eq]
      split_ifs with hbit <;> simp [hbit]
    · rw [trapReturn_eq]
      split_ifs with hbit hclean hstate
      · simp [hclean]
      · simp [hclean]
      · simp [hbit, hclean]
      · simp [hbit]
    · rw [trapReturn_eq]
      split_ifs with hbit hclean hstate
      · simp [hstate]
      · simp [hclean, hstate]
      · simp [hclean]
      · have hnot : ¬c.Clean := fun hclean => hbit hclean.populated
        simp [hnot]
  · intro rs sepc sstatus t
    rw [trapReturn_eq_ok_iff, and_iff_right (ReturnContext.make_clean rs sepc sstatus),
      ReturnContext.make_resumable_iff, TrapReturn.readFrom_make_iff]

/-- A context that says too much in its header, and whose address is odd, is refused for the header; with no header
    it counts as not filled in, whatever else it holds; and one filled in with `a0` and the address of a page comes
    back as it was. -/
theorem trapReturn_exact_precedence :
    trapReturn ⟨Vector.ofFn fun i => if i = 0 then 3 else if i = 32 then 1 else 0⟩ = .error .reservedBits ∧
    trapReturn ⟨Vector.ofFn fun i => if i = 0 then 2 else 7⟩ = .error .notPopulated ∧
    trapReturn (.make ((Registers.zero).set 10 77) 0x80200000 0x200000120) =
      .ok ⟨(Registers.zero).set 10 77, 0x80200000, 0x200000120⟩ := by
  refine ⟨?_, ?_, ?_⟩
  · apply (trapReturn_exact.1 _).2.2.2.1.2
    decide
  · apply (trapReturn_exact.1 _).2.2.1.2
    decide
  · apply (trapReturn_exact.2 _ _ _ _).2
    decide

end Check

end NestedAccel
