import Mathlib.Algebra.Group.Nat.Defs
import NestedAccel.Check

/-!
# `NestedAccel.Proofs.Legal` — the checks grant legal requests only

`Request.Legal harts q` says in terms of the architecture what the host may be asked to do: which
registers may be read, which values may be written, which fences, interrupts and trap returns make
sense. It does not mention the checks. Each check that produces a request, or a part of one, is shown
here to produce a legal one from **every** word the guest hypervisor can present.
-/

namespace NestedAccel

/-! ## Fields -/

/-- A field is what division and remainder cut out of the number. -/
theorem Word.field_eq (w : Word) (low width : Nat) : Word.field w low width = w.toNat / 2 ^ low % 2 ^ width := by
  unfold Word.field
  rw [Nat.shiftRight_eq_div_pow, Nat.one_shiftLeft]

/-! ## Registers -/

namespace Csr

open CsrNumber

/-- The value `v` is one that register `n` may be given. -/
structure ValueLegal (n : CsrNumber) (v : Word) : Prop where
  /-- Virtual registers stay 64 bits wide. -/
  width : n = hstatus ∨ n = vsstatus → Word.field v 32 2 = 2
  /-- Exceptions that cannot be delegated stay undelegated. -/
  exceptions : n = hedeleg → v &&& 0xF00E00 = 0
  /-- Only the virtual supervisor's interrupts. -/
  interrupts : n = hideleg ∨ n = vsie ∨ n = vsip ∨ n = hip ∨ n = hvip → v &&& ~~~0x444 = 0
  /-- The guest external interrupts as well. -/
  enables : n = hie → v &&& ~~~0x1444 = 0
  /-- Translation is off, or uses a supported mode. -/
  translation : n = hgatp ∨ n = vsatp → v = 0 ∨ Word.field v 60 4 ∈ [8, 9, 10]
  /-- A direct or vectored trap vector. -/
  vector : n = vstvec → Word.field v 0 2 ∈ [0, 1]

/-- Each register with a restricted value carries the rule for it. -/
theorem rule_of_mem_table {e : Entry} (he : e ∈ table) :
    (e.number = hstatus ∨ e.number = vsstatus → e.rule = .hstatus ∨ e.rule = .vsstatus) ∧
    (e.number = hedeleg → e.rule = .hedeleg) ∧
    (e.number = hideleg ∨ e.number = vsie ∨ e.number = vsip ∨ e.number = hip ∨ e.number = hvip →
      e.rule = .vsInterrupts) ∧
    (e.number = hie → e.rule = .hie) ∧
    (e.number = hgatp ∨ e.number = vsatp → e.rule = .hgatp ∨ e.rule = .vsatp) ∧
    (e.number = vstvec → e.rule = .vstvec) := by
  -- the table is a closed list, so its entries are looked at one by one
  revert e
  decide

theorem Rule.of_translates {v : Word} (h : Rule.translates v = true) :
    v = 0 ∨ Word.field v 60 4 ∈ [8, 9, 10] := by
  unfold Rule.translates at h
  split at h
  · exact .inl (by simpa using h)
  · rename_i h8
    exact .inr (by simp [h8])
  · rename_i h9
    exact .inr (by simp [h9])
  · rename_i h10
    exact .inr (by simp [h10])
  · cases h

/-- **A value that passes an assigned register's rule is legal for it.** -/
theorem valueLegal_of_allows {e : Entry} (he : e ∈ table) {v : Word} (h : e.rule.allows v = true) :
    ValueLegal e.number v := by
  obtain ⟨hwidth, hexc, hint, hen, htr, hvec⟩ := rule_of_mem_table he
  constructor
  · intro hn
    rcases hwidth hn with hr | hr
    all_goals rw [hr] at h; simpa [Rule.allows, Rule.selects64] using h
  · intro hn
    rw [hexc hn] at h
    simpa [Rule.allows, Rule.undelegable] using h
  · intro hn
    rw [hint hn] at h
    exact Word.within_iff.1 h
  · intro hn
    rw [hen hn] at h
    exact Word.within_iff.1 h
  · intro hn
    rcases htr hn with hr | hr
    all_goals rw [hr] at h; exact Rule.of_translates h
  · intro hn
    rw [hvec hn] at h
    have hle : Word.field v 0 2 ≤ 1 := by simpa [Rule.allows] using h
    rcases Nat.le_one_iff_eq_zero_or_eq_one.1 hle with h0 | h1
    · simp [h0]
    · simp [h1]

/-- Each rule stands in the entries of the registers it is for. -/
theorem number_of_mem_table {e : Entry} (he : e ∈ table) :
    (e.rule = .hstatus ∨ e.rule = .vsstatus → e.number = hstatus ∨ e.number = vsstatus) ∧
    (e.rule = .hedeleg → e.number = hedeleg) ∧
    (e.rule = .vsInterrupts →
      e.number = hideleg ∨ e.number = vsie ∨ e.number = vsip ∨ e.number = hip ∨ e.number = hvip) ∧
    (e.rule = .hie → e.number = hie) ∧
    (e.rule = .hgatp ∨ e.rule = .vsatp → e.number = hgatp ∨ e.number = vsatp) ∧
    (e.rule = .vstvec → e.number = vstvec) := by
  revert e
  decide

theorem Rule.translates_of {v : Word} (h : v = 0 ∨ Word.field v 60 4 ∈ [8, 9, 10]) :
    Rule.translates v = true := by
  unfold Rule.translates
  rcases h with rfl | h
  · rfl
  · simp only [List.mem_cons, List.not_mem_nil, or_false] at h
    rcases h with h | h | h
    all_goals
      rw [h]
      rfl

/-- **A value that is legal for an assigned register passes its rule.** -/
theorem allows_of_valueLegal {e : Entry} (he : e ∈ table) {v : Word} (h : ValueLegal e.number v) :
    e.rule.allows v = true := by
  obtain ⟨hwidth, hexc, hint, hen, htr, hvec⟩ := number_of_mem_table he
  cases hr : e.rule with
  | any => rfl
  | hstatus => simpa [Rule.allows, Rule.selects64] using h.width (hwidth (.inl hr))
  | vsstatus => simpa [Rule.allows, Rule.selects64] using h.width (hwidth (.inr hr))
  | hedeleg => simpa [Rule.allows, Rule.undelegable] using h.exceptions (hexc hr)
  | vsInterrupts => exact Word.within_iff.2 (h.interrupts (hint hr))
  | hie => exact Word.within_iff.2 (h.enables (hen hr))
  | hgatp => exact Rule.translates_of (h.translation (htr (.inl hr)))
  | vsatp => exact Rule.translates_of (h.translation (htr (.inr hr)))
  | vstvec =>
    have hle : Word.field v 0 2 ≤ 1 := by
      have hmem := h.vector (hvec hr)
      simp only [List.mem_cons, List.not_mem_nil, or_false] at hmem
      omega
    exact decide_eq_true hle

theorem mem_table_of_entry? {n : CsrNumber} {e : Entry} (h : entry? n = some e) : e ∈ table :=
  mem_table_of_entryAt? (Option.filter_eq_some_iff.1 h).1

end Csr

/-! ## Legal requests -/

/-- The parts of a fence make sense: a guest identifier has fourteen bits and is not the wildcard, a
    fence of guest physical addresses knows no address space, and pages are pages. -/
structure Fence.Legal (f : Fence) : Prop where
  vmid : ∀ n, f.vmid = some n → 1 ≤ n.toNat ∧ n.toNat ≤ 0x3fff
  asid : f.kind = .gvma → f.asid = none
  pages : ∀ r, f.pages = some r → 1 ≤ r.count.toNat ∧ r.first.toNat + r.count.toNat ≤ 2 ^ 52

/-- The interrupt is one of a virtual supervisor or a line that exists, for one of `harts` harts. -/
def Injection.Legal (harts : Nat) : Injection → Prop
  | .vsLocal target i => target.toNat < harts ∧ i.cause ∈ [2, 6, 10]
  | .guestExternal target line => target.toNat < harts ∧ 1 ≤ line.toNat ∧ line.toNat ≤ 63

/-- Execution goes on at an even address and 64 bits wide, with `x0` zero. -/
structure TrapReturn.Legal (t : TrapReturn) : Prop where
  sepc : t.sepc.toNat % 2 = 0
  sstatus : Word.field t.sstatus 32 2 = 2
  x0 : t.registers.get 0 = 0

/-- The host may be asked this, where there are `harts` harts. -/
def Request.Legal (harts : Nat) : Request → Prop
  | .readCsr n => ∃ e ∈ Csr.table, e.number = n
  | .writeCsr w =>
    (∃ e ∈ Csr.table, e.number = w.csr ∧ e.access = .readWrite) ∧ Csr.ValueLegal w.csr w.value
  | .fence f => f.Legal
  | .inject i => i.Legal harts
  | .trapReturn t => t.Legal

namespace Check

variable {harts : Nat} {ε ε' α β : Type}

/-! ## Checks that succeed -/

theorem ok_of_bind {x : Except ε α} {f : α → Except ε β} {b : β} (h : (x >>= f) = .ok b) :
    ∃ a, x = .ok a ∧ f a = .ok b := by
  cases x with
  | ok a => exact ⟨a, rfl, h⟩
  | error e => cases h

theorem ok_of_map {f : α → β} {x : Except ε α} {b : β} (h : f <$> x = .ok b) :
    ∃ a, x = .ok a ∧ f a = b := by
  cases x with
  | ok a => cases h; exact ⟨a, rfl, rfl⟩
  | error e => cases h

theorem ok_of_mapError {f : ε → ε'} {x : Except ε α} {a : α} (h : x.mapError f = .ok a) :
    x = .ok a := by
  cases x with
  | ok b => cases h; rfl
  | error e => cases h

/-! ## Checks that fail -/

theorem error_of_bind {x : Except ε α} {f : α → Except ε β} {e : ε} (h : (x >>= f) = .error e) :
    x = .error e ∨ ∃ a, x = .ok a ∧ f a = .error e := by
  cases x with
  | ok a => exact .inr ⟨a, rfl, h⟩
  | error e' => cases h; exact .inl rfl

theorem error_of_mapError {f : ε → ε'} {x : Except ε α} {e' : ε'} (h : x.mapError f = .error e') :
    ∃ e, f e = e' := by
  cases x with
  | ok a => cases h
  | error e => cases h; exact ⟨e, rfl⟩

/-! ## Checks of registers -/

theorem write_legal {e : Csr.Entry} (he : e ∈ Csr.table) {v : Word} {w : CsrWrite}
    (h : write e v = .ok w) : Request.Legal harts (.writeCsr w) := by
  unfold write at h
  split at h
  · cases h
  · rename_i haccess
    split at h
    · rename_i hallows
      cases h
      exact ⟨⟨e, he, rfl, haccess⟩, Csr.valueLegal_of_allows he hallows⟩
    · cases h

theorem slotWrite_legal {s : CsrSlot} {v : Word} {w : CsrWrite} (h : slotWrite s v = .ok w) :
    Request.Legal harts (.writeCsr w) := by
  unfold slotWrite at h
  split at h
  · rename_i e he
    exact write_legal (Csr.mem_table_of_entryAt? he) h
  · cases h

theorem write_csr {e : Csr.Entry} {v : Word} {w : CsrWrite} (h : write e v = .ok w) :
    w.csr = e.number := by
  unfold write at h
  split at h
  · cases h
  · split at h
    · cases h
      rfl
    · cases h

theorem assigned_ok {n : Word} {e : Csr.Entry} (h : assigned n = .ok e) :
    e ∈ Csr.table ∧ e.number = n.toUInt16 := by
  unfold assigned at h
  split at h
  · split at h
    · rename_i e' he
      cases h
      exact ⟨Csr.mem_table_of_entry? he, Csr.number_of_entry? he⟩
    · cases h
  · cases h

theorem csrWrite_legal {n v : Word} {w : CsrWrite} (h : csrWrite n v = .ok w) :
    Request.Legal harts (.writeCsr w) := by
  obtain ⟨e, ha, hw⟩ := ok_of_bind h
  exact write_legal (assigned_ok ha).1 hw

theorem csrRead_legal {n : Word} {c : CsrNumber} (h : csrRead n = .ok c) :
    Request.Legal harts (.readCsr c) := by
  obtain ⟨e, ha, hr⟩ := ok_of_bind h
  cases hr
  exact ⟨e, (assigned_ok ha).1, rfl⟩

/-! ## Checks of fences -/

theorem pages_legal {first count : Word} {o : Option PageRange} (h : pages first count = .ok o) :
    ∀ r, o = some r → 1 ≤ r.count.toNat ∧ r.first.toNat + r.count.toNat ≤ 2 ^ 52 := by
  rintro r rfl
  unfold pages at h
  split at h
  · cases h
  · split at h
    · rename_i hrange
      cases h
      have hcount : count.toNat ≠ 0 := by
        intro h0
        exact hrange.1 (UInt64.toNat_inj.1 h0)
      exact ⟨Nat.one_le_iff_ne_zero.2 hcount, hrange.2⟩
    · cases h

theorem wildcard_eq_some {n m : UInt16} (h : wildcard n = some m) : n = m ∧ 1 ≤ m.toNat := by
  unfold wildcard at h
  split at h
  · cases h
  · rename_i hn
    cases h
    have hm : n.toNat ≠ 0 := by
      intro h0
      exact hn (UInt16.toNat_inj.1 h0)
    exact ⟨rfl, Nat.one_le_iff_ne_zero.2 hm⟩

theorem vmid_le (e : FenceEntry) : e.vmid.toNat ≤ 0x3fff := by
  -- the field has fourteen bits, and sixteen are enough to hold it
  have hlt := Word.field_lt e.config 32 14
  have hmod : e.vmid.toNat = Word.field e.config 32 14 % 2 ^ 16 := UInt16.toNat_ofNat'
  omega

theorem pendingFence_legal {e : FenceEntry} {f : Fence} (h : pendingFence e = .ok f) : f.Legal := by
  unfold pendingFence at h
  split at h
  · rename_i kind _ _
    split at h
    · cases h
    · rename_i hasid
      obtain ⟨o, hp, hf⟩ := ok_of_bind h
      cases hf
      refine ⟨?_, ?_, pages_legal hp⟩
      · intro n hn
        obtain ⟨rfl, hpos⟩ := wildcard_eq_some hn
        exact ⟨hpos, vmid_le e⟩
      -- an address space in such a fence was refused, and none is the wildcard
      · intro hk
        have hzero : e.asid = 0 := by
          apply Decidable.byContradiction
          intro hne
          exact hasid ⟨hk, hne⟩
        show wildcard e.asid = none
        rw [hzero]
        rfl
  · cases h

theorem fence_of_not_pending {e : FenceEntry} (h : e.pending = false) : fence e = .ok none := by
  unfold fence
  rw [h]
  rfl

/-- Only a pending entry is refused or asks for a fence. -/
theorem pending_of_fence_ne {e : FenceEntry} (h : fence e ≠ .ok none) : e.pending = true :=
  eq_true_of_ne_false fun hp => h (fence_of_not_pending hp)

theorem fence_legal {e : FenceEntry} {f : Fence} (h : fence e = .ok (some f)) : f.Legal := by
  unfold fence at h
  split at h
  · obtain ⟨f', hp, hf⟩ := ok_of_map h
    cases hf
    exact pendingFence_legal hp
  · cases h

/-! ## Checks of interrupts and trap returns -/

theorem cause_of_isVirtualSupervisor {i : Interrupt} (h : i.isVirtualSupervisor = true) :
    i.cause ∈ [2, 6, 10] := by
  cases i <;> revert h <;> decide

theorem injection_legal {kind number target : Word} {i : Injection}
    (h : injection harts kind number target = .ok i) : i.Legal harts := by
  unfold injection at h
  split at h
  · cases h
  · split at h
    · cases h
    · rename_i htarget
      have hlt : target.toNat < harts := Nat.lt_of_not_le htarget
      split at h
      · split at h
        · split at h
          · rename_i hvs
            cases h
            exact ⟨hlt, cause_of_isVirtualSupervisor hvs⟩
          · cases h
        · cases h
      · split at h
        · rename_i hline
          cases h
          -- a line below 64 is not changed by being cut to eight bits
          have hmod : number.toUInt8.toNat = number.toNat % 2 ^ 8 := rfl
          refine ⟨hlt, ?_, ?_⟩
          all_goals omega
        · cases h

theorem even_of_bit_zero {w : Word} (h : ¬Word.bit w 0 = true) : w.toNat % 2 = 0 := by
  have hbit : w.toNat.testBit 0 = false := by simpa [Word.bit, BitVec.getLsbD] using h
  simpa [Nat.testBit_zero] using hbit

/-- A context that passes describes the state to return to. -/
theorem trapReturn_ok {c : ReturnContext} {t : TrapReturn} (h : trapReturn c = .ok t) :
    t = ⟨c.registers, c.sepc, c.sstatus⟩ := by
  unfold trapReturn at h
  split at h
  · cases h
  · split at h
    · cases h
    · split at h
      · cases h
      · exact (Except.ok.inj h).symm

theorem trapReturn_legal {c : ReturnContext} {t : TrapReturn} (h : trapReturn c = .ok t) :
    t.Legal := by
  unfold trapReturn at h
  split at h
  · cases h
  · split at h
    · cases h
    · split at h
      · cases h
      · rename_i hstate
        rw [← Except.ok.inj h]
        rw [not_or, Decidable.not_not] at hstate
        have hwidth : Word.field c.sstatus 32 2 = 2 := by
          simpa [Csr.Rule.selects64] using hstate.2
        exact ⟨even_of_bit_zero hstate.1, hwidth, Registers.get_zero_reg _⟩

/-- A swap context that passes asks for a write of the value it holds, if for any. -/
theorem swap_ok {c : SwapContext} {w : CsrWrite} (h : swap c = .ok (some w)) :
    csrWrite CsrNumber.hstatus.toUInt64 c.hstatus = .ok w := by
  unfold swap at h
  split at h
  · cases h
  · split at h
    · cases h
    · obtain ⟨w', hw, hw'⟩ := ok_of_map h
      cases hw'
      exact hw

/-- A swap context that passes asks for a write exactly if it is marked as valid. -/
theorem swap_isSome {c : SwapContext} {o : Option CsrWrite} (h : swap c = .ok o) :
    o.isSome = c.valid := by
  unfold swap at h
  split at h
  · cases h
  · split at h
    · rename_i hvalid
      cases h
      exact (Bool.eq_false_iff.2 hvalid).symm
    · rename_i hvalid
      obtain ⟨w, _, hw⟩ := ok_of_map h
      cases hw
      exact (Decidable.not_not.1 hvalid).symm

theorem swap_legal {c : SwapContext} {w : CsrWrite} (h : swap c = .ok (some w)) :
    Request.Legal harts (.writeCsr w) := csrWrite_legal (swap_ok h)

/-- The one register that a swap writes. -/
theorem swap_csr {c : SwapContext} {w : CsrWrite} (h : swap c = .ok (some w)) :
    w.csr = CsrNumber.hstatus := by
  obtain ⟨e, he, hw⟩ := ok_of_bind (swap_ok h)
  rw [write_csr hw, (assigned_ok he).2]
  decide

/-! ## Checks of guest memory -/

theorem guestRange_ok {addr len align addr' : Word} (h : guestRange addr len align = .ok addr') :
    addr' = addr ∧ addr &&& (align - 1) = 0 ∧ addr.toNat + len.toNat < UInt64.size := by
  unfold guestRange at h
  split at h
  · cases h
  · rename_i halign
    split at h
    · cases h
    · rename_i hend
      cases h
      exact ⟨rfl, Decidable.not_not.1 halign, Nat.lt_of_not_le hend⟩

end Check

end NestedAccel
