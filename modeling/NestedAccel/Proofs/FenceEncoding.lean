import Mathlib.Tactic.MkIffOfInductiveProp
import Mathlib.Tactic.SplitIfs
import NestedAccel.Proofs.Legal

/-!
# `NestedAccel.Proofs.FenceEncoding` — the fences that entries stand for

An entry of the fence list says in three words which cached translations to drop. `FenceScope` is what it says as
numbers, and `FenceScope.Names` says, on numbers alone, which translations those are: zero stands for every
identifier, and two zeros for every page. The packing of the words, the check of them, the wildcards in the fence
that comes out and its test of a translation are each related to these numbers, so that together they lose nothing
and add nothing (`Check.fence_exact`).
-/

namespace NestedAccel

/-! ## What an entry says -/

/-- The kind, the identifiers and the pages of a fence, as numbers. -/
structure FenceScope where
  kind : Nat
  vmid : Nat
  asid : Nat
  first : Nat
  count : Nat
deriving DecidableEq, Repr

namespace FenceScope

/-- The numbers name no page or a range of pages below `2 ^ 52`. -/
def PagesValid (first count : Nat) : Prop := (first = 0 ∧ count = 0) ∨ (1 ≤ count ∧ first + count ≤ 2 ^ 52)

/-- The numbers make a fence. -/
@[mk_iff]
structure Valid (s : FenceScope) : Prop where
  kind : s.kind ≤ 1
  /-- A fence of guest physical addresses knows no address space. -/
  asid : s.kind = 1 → s.asid = 0
  pages : PagesValid s.first s.count

/-- The identifier `n` stands for itself, or, if it is zero, for every identifier. -/
def NamesId (n m : Nat) : Prop := n = 0 ∨ n = m

/-- The numbers stand for the pages of their range, or, if both are zero, for every page. -/
def NamesPage (first count p : Nat) : Prop := (first = 0 ∧ count = 0) ∨ (first ≤ p ∧ p < first + count)

/-- The numbers name the translation `t`. -/
@[mk_iff]
structure Names (s : FenceScope) (t : Translation) : Prop where
  kind : t.kind.code = s.kind
  vmid : NamesId s.vmid t.vmid.toNat
  asid : NamesId s.asid t.asid.toNat
  pages : NamesPage s.first s.count t.page.toNat

instance (first count : Nat) : Decidable (PagesValid first count) :=
  inferInstanceAs (Decidable (_ ∨ _))

instance (s : FenceScope) : Decidable s.Valid :=
  decidable_of_iff _ s.valid_iff.symm

instance (n m : Nat) : Decidable (NamesId n m) :=
  inferInstanceAs (Decidable (_ ∨ _))

instance (first count p : Nat) : Decidable (NamesPage first count p) :=
  inferInstanceAs (Decidable (_ ∨ _))

instance (s : FenceScope) (t : Translation) : Decidable (s.Names t) :=
  decidable_of_iff _ (s.names_iff t).symm

end FenceScope

namespace FenceEntry

variable (e : FenceEntry)

/-- The bits of the configuration without a meaning are clear. -/
def ReservedClear : Prop :=
  ∀ i, (60 ≤ i ∧ i ≤ 62) ∨ (46 ≤ i ∧ i ≤ 55) ∨ (16 ≤ i ∧ i ≤ 31) → Word.bit e.config i = false

/-- What the entry says: the kind from bit 56 up, the guest from bit 32 up, the address space from bit 0 up. -/
def scope : FenceScope where
  kind := e.config.toNat / 2 ^ 56 % 2 ^ 4
  vmid := e.config.toNat / 2 ^ 32 % 2 ^ 14
  asid := e.config.toNat % 2 ^ 16
  first := e.pageNum.toNat
  count := e.pageCount.toNat

theorem kind_eq_scope : e.kind = e.scope.kind := Word.field_eq e.config 56 4

/-- Sixteen bits are enough to hold the fourteen of the field. -/
theorem toNat_vmid : e.vmid.toNat = e.scope.vmid := by
  have hlt : e.config.toNat / 2 ^ 32 % 2 ^ 14 < 2 ^ 14 := Nat.mod_lt _ (Nat.two_pow_pos 14)
  have hmod : e.vmid.toNat = Word.field e.config 32 14 % 2 ^ 16 := UInt16.toNat_ofNat'
  rw [hmod, Word.field_eq]
  exact Nat.mod_eq_of_lt (Nat.lt_trans hlt (by decide))

theorem toNat_asid : e.asid.toNat = e.scope.asid := by
  have hmod : e.asid.toNat = Word.field e.config 0 16 % 2 ^ 16 := UInt16.toNat_ofNat'
  rw [hmod, Word.field_eq, Nat.mod_mod, Nat.pow_zero, Nat.div_one]
  rfl

theorem wellFormed_iff {e : FenceEntry} : e.wellFormed = true ↔ e.ReservedClear := by
  unfold wellFormed ReservedClear
  rw [Bool.and_eq_true, Bool.and_eq_true, beq_iff_eq, beq_iff_eq, beq_iff_eq, Word.field_eq_zero_iff,
    Word.field_eq_zero_iff, Word.field_eq_zero_iff]
  constructor
  · rintro ⟨⟨hhigh, hmiddle⟩, hlow⟩ i (hi | hi | hi)
    · exact hhigh i hi.1 (by omega)
    · exact hmiddle i hi.1 (by omega)
    · exact hlow i hi.1 (by omega)
  · intro h
    refine ⟨⟨?_, ?_⟩, ?_⟩
    · exact fun i hlow hhigh => h i (.inl ⟨hlow, by omega⟩)
    · exact fun i hlow hhigh => h i (.inr (.inl ⟨hlow, by omega⟩))
    · exact fun i hlow hhigh => h i (.inr (.inr ⟨hlow, by omega⟩))

end FenceEntry

theorem FenceKind.ofCode?_eq_some_iff {n : Nat} {k : FenceKind} : ofCode? n = some k ↔ k.code = n := by
  constructor
  · intro h
    unfold ofCode? at h
    split at h
    · cases h; rfl
    · cases h; rfl
    · cases h
  · rintro rfl
    exact ofCode?_code k

theorem FenceKind.code_injective {k k' : FenceKind} (h : k.code = k'.code) : k = k' := by
  have hsome := ofCode?_code k
  rw [h, ofCode?_code] at hsome
  exact (Option.some.inj hsome).symm

/-! ## Entries that are filled in -/

namespace FenceEntry

variable (kind : FenceKind) (vmid asid : UInt16) (first count : Word)

/-- The parts of a configuration do not overlap, so they add up. -/
theorem config_make :
    (make kind vmid asid first count).config.toNat =
      2 ^ 63 + kind.code * 2 ^ 56 + vmid.toNat % 2 ^ 14 * 2 ^ 32 + asid.toNat := by
  have hkind : kind.code ≤ 1 := by cases kind <;> decide
  have hasid := asid.toNat_lt
  show UInt64.toNat (.ofNat _) = _
  rw [UInt64.toNat_ofNat']
  simp only [Nat.shiftLeft_eq, Nat.one_mul]
  apply Nat.mod_eq_of_lt
  omega

theorem pending_make : (make kind vmid asid first count).pending = true := by
  have hkind : kind.code ≤ 1 := by cases kind <;> decide
  have hasid := asid.toNat_lt
  show (make kind vmid asid first count).config.toNat.testBit 63 = true
  rw [Nat.testBit_eq_decide_div_mod_eq, config_make, decide_eq_true_iff]
  omega

theorem wellFormed_make : (make kind vmid asid first count).wellFormed = true := by
  have hkind : kind.code ≤ 1 := by cases kind <;> decide
  have hasid := asid.toNat_lt
  unfold wellFormed
  rw [Bool.and_eq_true, Bool.and_eq_true, beq_iff_eq, beq_iff_eq, beq_iff_eq, Word.field_eq, Word.field_eq,
    Word.field_eq, config_make]
  refine ⟨⟨?_, ?_⟩, ?_⟩
  all_goals omega

/-- A guest identifier of more than fourteen bits would be cut. -/
theorem scope_make (hvmid : vmid.toNat < 2 ^ 14) :
    (make kind vmid asid first count).scope = ⟨kind.code, vmid.toNat, asid.toNat, first.toNat, count.toNat⟩ := by
  have hkind : kind.code ≤ 1 := by cases kind <;> decide
  have hasid := asid.toNat_lt
  unfold scope
  rw [config_make, FenceScope.mk.injEq]
  refine ⟨?_, ?_, ?_, rfl, rfl⟩
  all_goals omega

end FenceEntry

/-! ## The fence of an entry -/

namespace Check

open FenceScope

variable {e : FenceEntry} {f : Fence} {t : Translation}

/-- The check of the pages goes by their numbers. -/
theorem pages_eq (first count : Word) :
    pages first count =
      if first.toNat = 0 ∧ count.toNat = 0 then .ok none
      else if 1 ≤ count.toNat ∧ first.toNat + count.toNat ≤ 2 ^ 52 then .ok (some ⟨first, count⟩)
      else .error (.badFenceRange first count) := by
  have hzero (w : Word) : w = 0 ↔ w.toNat = 0 := UInt64.toNat_inj.symm
  unfold pages
  simp only [hzero, and_comm, Ne, ← Nat.one_le_iff_ne_zero]
  rfl

theorem pages_isOk_iff {first count : Word} :
    (∃ o, pages first count = .ok o) ↔ PagesValid first.toNat count.toNat := by
  rw [pages_eq]
  unfold PagesValid
  split_ifs with hall hrange
  · exact iff_of_true ⟨none, rfl⟩ (.inl hall)
  · exact iff_of_true ⟨_, rfl⟩ (.inr hrange)
  · exact iff_of_false (by simp) (not_or.2 ⟨hall, hrange⟩)

theorem pages_contains_iff {first count p : Word} {o : Option PageRange} (h : pages first count = .ok o) :
    o.all (·.contains p) = true ↔ NamesPage first.toNat count.toNat p.toNat := by
  rw [pages_eq] at h
  unfold NamesPage
  split_ifs at h with hall hrange
  · cases h
    simp [hall]
  · cases h
    show (decide (first.toNat ≤ p.toNat) && decide (p.toNat - first.toNat < count.toNat)) = true ↔ _
    rw [Bool.and_eq_true, decide_eq_true_iff, decide_eq_true_iff]
    omega

theorem wildcard_names_iff {n m : UInt16} :
    (wildcard n).all (· == m) = true ↔ NamesId n.toNat m.toNat := by
  have hzero : n = 0 ↔ n.toNat = 0 := UInt16.toNat_inj.symm
  unfold wildcard NamesId
  by_cases hn : n = 0
  · simp [hn]
  · simp [hn, ← hzero, UInt16.toNat_inj]

/-- **What the check of a pending entry comes to.** -/
theorem pendingFence_eq_ok_iff :
    pendingFence e = .ok f ↔
      e.wellFormed = true ∧ f.kind.code = e.kind ∧ (f.kind = .gvma → e.asid = 0) ∧
        f.vmid = wildcard e.vmid ∧ f.asid = wildcard e.asid ∧ pages e.pageNum e.pageCount = .ok f.pages := by
  unfold pendingFence
  constructor
  · intro h
    split at h
    · rename_i kind hformed hkind
      split at h
      · cases h
      · rename_i hasid
        obtain ⟨o, hpages, hf⟩ := ok_of_bind h
        cases hf
        refine ⟨hformed, FenceKind.ofCode?_eq_some_iff.1 hkind, ?_, rfl, rfl, hpages⟩
        intro hk
        exact Decidable.not_not.1 fun hne => hasid ⟨hk, hne⟩
    · cases h
  · rintro ⟨hformed, hkind, hasid, hvmid, has, hpages⟩
    have hcode := FenceKind.ofCode?_eq_some_iff.2 hkind
    have hallowed : ¬(f.kind = .gvma ∧ e.asid ≠ 0) := fun h => h.2 (hasid h.1)
    simp only [hformed, hcode]
    rw [if_neg hallowed, hpages, ← hvmid, ← has]
    rfl

theorem fence_eq_some_iff : fence e = .ok (some f) ↔ e.pending = true ∧ pendingFence e = .ok f := by
  unfold fence
  constructor
  · intro h
    split at h
    · rename_i hpending
      obtain ⟨f', hf', hf⟩ := ok_of_map h
      cases hf
      exact ⟨hpending, hf'⟩
    · cases h
  · rintro ⟨hpending, hf⟩
    rw [if_pos hpending, hf]
    rfl

theorem fence_eq_none_iff : fence e = .ok none ↔ e.pending = false := by
  constructor
  · intro h
    unfold fence at h
    split at h
    · obtain ⟨f, _, hf⟩ := ok_of_map h
      cases hf
    · rename_i hpending
      exact Bool.eq_false_iff.2 hpending
  · exact fence_of_not_pending

/-- **An entry is accepted for what it says.** -/
theorem fence_isSome_iff :
    (∃ f, fence e = .ok (some f)) ↔ e.pending = true ∧ e.wellFormed = true ∧ e.scope.Valid := by
  simp only [fence_eq_some_iff, pendingFence_eq_ok_iff]
  have hzero : e.asid = 0 ↔ e.scope.asid = 0 := by
    rw [← FenceEntry.toNat_asid]
    exact UInt16.toNat_inj.symm
  rw [hzero, FenceEntry.kind_eq_scope]
  constructor
  · rintro ⟨f, hpending, hformed, hkind, hasid, _, _, hpages⟩
    refine ⟨hpending, hformed, ?_, ?_, pages_isOk_iff.1 ⟨_, hpages⟩⟩
    · rw [← hkind]
      cases f.kind <;> decide
    · intro hone
      apply hasid
      exact FenceKind.code_injective (hkind.trans hone)
  · rintro ⟨hpending, hformed, hvalid⟩
    obtain ⟨o, hpages⟩ := pages_isOk_iff.2 hvalid.pages
    obtain ⟨kind, hkind⟩ : ∃ k : FenceKind, k.code = e.scope.kind := by
      rcases Nat.le_one_iff_eq_zero_or_eq_one.1 hvalid.kind with h | h
      · exact ⟨.vvma, h.symm⟩
      · exact ⟨.gvma, h.symm⟩
    refine ⟨⟨kind, wildcard e.vmid, wildcard e.asid, o⟩, hpending, hformed, hkind, ?_, rfl, rfl, hpages⟩
    rintro rfl
    exact hvalid.asid hkind.symm

/-- **The fence of an entry drops what the entry names.** -/
theorem covers_iff_names (h : fence e = .ok (some f)) : f.covers t = true ↔ e.scope.Names t := by
  obtain ⟨_, hf⟩ := fence_eq_some_iff.1 h
  obtain ⟨_, hkind, _, hvmid, hasid, hpages⟩ := pendingFence_eq_ok_iff.1 hf
  have hsame : f.kind = t.kind ↔ t.kind.code = e.scope.kind := by
    rw [← FenceEntry.kind_eq_scope, ← hkind]
    constructor
    · intro hk
      rw [hk]
    · intro hk
      exact FenceKind.code_injective hk.symm
  unfold Fence.covers
  rw [Bool.and_eq_true, Bool.and_eq_true, Bool.and_eq_true, beq_iff_eq, hvmid, hasid, wildcard_names_iff,
    wildcard_names_iff, pages_contains_iff hpages, hsame, FenceEntry.toNat_vmid, FenceEntry.toNat_asid]
  constructor
  · rintro ⟨⟨⟨hk, hv⟩, ha⟩, hp⟩
    exact ⟨hk, hv, ha, hp⟩
  · rintro ⟨hk, hv, ha, hp⟩
    exact ⟨⟨⟨hk, hv⟩, ha⟩, hp⟩

/-- **The encoding of fences is exact.**

    An entry asks for nothing exactly if its pending bit is clear. A pending one is accepted exactly if the bits
    without a meaning are clear and the numbers in its fields make a fence, and the fence then drops exactly the
    translations that those numbers name. For an entry that is filled in, with a guest identifier of fourteen bits,
    the numbers are the ones it was filled in with. -/
theorem fence_exact :
    (∀ e : FenceEntry,
      (fence e = .ok none ↔ Word.bit e.config 63 = false) ∧
      ((∃ f, fence e = .ok (some f)) ↔ Word.bit e.config 63 = true ∧ e.ReservedClear ∧ e.scope.Valid) ∧
      ∀ f t, fence e = .ok (some f) → (f.covers t = true ↔ e.scope.Names t)) ∧
    ∀ (kind : FenceKind) (vmid asid : UInt16) (first count : Word), vmid.toNat < 2 ^ 14 →
      ((∃ f, fence (.make kind vmid asid first count) = .ok (some f)) ↔
        FenceScope.Valid ⟨kind.code, vmid.toNat, asid.toNat, first.toNat, count.toNat⟩) ∧
      ∀ f t, fence (.make kind vmid asid first count) = .ok (some f) →
        (f.covers t = true ↔
          FenceScope.Names ⟨kind.code, vmid.toNat, asid.toNat, first.toNat, count.toNat⟩ t) := by
  constructor
  · intro e
    refine ⟨fence_eq_none_iff, ?_, fun f t h => covers_iff_names h⟩
    rw [fence_isSome_iff, FenceEntry.wellFormed_iff]
    rfl
  · intro kind vmid asid first count hvmid
    rw [← FenceEntry.scope_make kind vmid asid first count hvmid]
    refine ⟨?_, fun f t h => covers_iff_names h⟩
    rw [fence_isSome_iff, and_iff_right (FenceEntry.pending_make kind vmid asid first count),
      and_iff_right (FenceEntry.wellFormed_make kind vmid asid first count)]

/-- The last page of the last guest can be named, and alone; and a range whose end would wrap round is refused, as is
    an entry with the reserved bit between the kind and the guest. -/
theorem fence_exact_last_page :
    (∃ f, fence (.make .gvma 0x3fff 0 0xfffffffffffff 1) = .ok (some f) ∧
      f.covers ⟨.gvma, 0x3fff, 7, 0xfffffffffffff⟩ = true ∧
      ¬f.covers ⟨.gvma, 0x1fff, 7, 0xfffffffffffff⟩ = true ∧
      ¬f.covers ⟨.gvma, 0x3fff, 7, 0xffffffffffffe⟩ = true) ∧
    (¬∃ f, fence (.make .vvma 2 9 0xffffffffffffffff 2) = .ok (some f)) ∧
    ¬∃ f, fence ⟨0x8000400000000000, 0, 0, 0⟩ = .ok (some f) := by
  refine ⟨?_, ?_, ?_⟩
  · obtain ⟨hok, hcovers⟩ := fence_exact.2 .gvma 0x3fff 0 0xfffffffffffff 1 (by decide)
    obtain ⟨f, hf⟩ := hok.2 (by decide)
    refine ⟨f, hf, ?_, ?_, ?_⟩
    · rw [hcovers f _ hf]
      decide
    · rw [hcovers f _ hf]
      decide
    · rw [hcovers f _ hf]
      decide
  · rw [(fence_exact.2 .vvma 2 9 0xffffffffffffffff 2 (by decide)).1]
    decide
  · rw [(fence_exact.1 ⟨0x8000400000000000, 0, 0, 0⟩).2.1]
    rintro ⟨-, hclear, -⟩
    cases hclear 46 (by decide)

end Check

end NestedAccel
