import Mathlib.Algebra.Order.Group.Multiset
import NestedAccel.Proofs.Scan

/-!
# `NestedAccel.Proofs.FenceList` — the fence list as a bag of requests

The guest hypervisor fills the first free entry of the list and sets its pending bit. The host takes the
bit away once the fence has been performed, and the entry is free again. Since entries are used over and
over, what the list holds is not a matter of positions but a multiset of fences, `Area.pendingOf`. Filling
an entry adds one fence to it (`pendingOf_fillFence`), and finishing an entry takes one out
(`pendingOf_finishFence`); nothing else in the area has a part in it.
-/

namespace NestedAccel

theorem filterMap_cons_append {ι β : Type} (f : ι → Option β) (i : ι) (rest : List ι) :
    (i :: rest).filterMap f = (f i).toList ++ rest.filterMap f := by
  cases h : f i with
  | none => exact List.filterMap_cons_none h
  | some b => exact List.filterMap_cons_some h

namespace Area

variable {a : Area} {m m' : Memory} {s t : FenceSlot} {e : FenceEntry} {f : Fence}

/-! ## Single entries -/

/-- Word `b` belongs to the fence list. -/
def InFenceList (a : Area) (b : Nat) : Prop := a.base + 96 ≤ b ∧ b < a.base + 320

/-- An entry is made of four words. -/
theorem fenceEntry_eq (h : ∀ k, k < 4 → m'.read (a.fenceBase s + k) = m.read (a.fenceBase s + k)) :
    a.fenceEntry m' s = a.fenceEntry m s := by
  have hconfig : m'.read (a.fenceBase s) = m.read (a.fenceBase s) := h 0 (by decide)
  unfold fenceEntry
  rw [hconfig, h 1 (by decide), h 2 (by decide), h 3 (by decide)]

theorem fenceEntry_congr (h : ∀ b, a.InFenceList b → m'.read b = m.read b) (s : FenceSlot) :
    a.fenceEntry m' s = a.fenceEntry m s := by
  refine fenceEntry_eq fun k hk => h _ ?_
  unfold InFenceList fenceBase
  omega

/-- Writing a word of one entry leaves the others alone. -/
theorem fenceEntry_write_of_ne (hne : t ≠ s) {b : Nat}
    (hb : a.fenceBase s ≤ b ∧ b < a.fenceBase s + 4) (v : Word) :
    a.fenceEntry (m.write b v) t = a.fenceEntry m t := by
  refine fenceEntry_eq fun k hk => Memory.read_write_of_ne ?_
  have hval : (t : Nat) ≠ s := Fin.val_ne_of_ne hne
  unfold fenceBase at hb ⊢
  omega

/-- An entry that asks for a fence passes its check. -/
theorem fence?_eq_some : a.fence? m s = some f ↔ Check.fence (a.fenceEntry m s) = .ok (some f) := by
  unfold fence?
  cases Check.fence (a.fenceEntry m s) with
  | ok o =>
    constructor
    · exact fun h => congrArg _ h
    · exact Except.ok.inj
  | error r =>
    constructor
    · intro h
      cases h
    · intro h
      cases h

theorem fence?_of_not_pending (h : (a.fenceEntry m s).pending = false) : a.fence? m s = none := by
  unfold fence?
  rw [Check.fence_of_not_pending h]

theorem fenceValid_of_not_pending (h : (a.fenceEntry m s).pending = false) : a.FenceValid m s := by
  rw [FenceValid, fence?_of_not_pending h, Check.fence_of_not_pending h]

/-- A pending entry that passes asks for a fence. -/
theorem exists_fence_of_pending (hvalid : a.FenceValid m s)
    (hpending : (a.fenceEntry m s).pending = true) :
    ∃ f, Check.fence (a.fenceEntry m s) = .ok (some f) := by
  unfold FenceValid at hvalid
  rw [Check.fence, if_pos hpending] at hvalid ⊢
  obtain ⟨f, hf, _⟩ := Check.ok_of_map hvalid
  exact ⟨f, by rw [hf]; rfl⟩

theorem fence?_congr (h : a.fenceEntry m' s = a.fenceEntry m s) : a.fence? m' s = a.fence? m s := by
  unfold fence?
  rw [h]

theorem fenceValid_congr (h : a.fenceEntry m' s = a.fenceEntry m s) :
    a.FenceValid m' s ↔ a.FenceValid m s := by
  unfold FenceValid
  rw [fence?_congr h, h]

/-! ## Finishing an entry -/

theorem fenceEntry_finishFence_of_ne (hne : t ≠ s) :
    a.fenceEntry (a.finishFence s m) t = a.fenceEntry m t :=
  fenceEntry_write_of_ne hne (by omega) _

theorem not_pending_finishFence (a : Area) (m : Memory) (s : FenceSlot) :
    (a.fenceEntry (a.finishFence s m) s).pending = false := by
  have hconfig : (a.fenceEntry (a.finishFence s m) s).config =
      Word.clearBit (m.read (a.fenceBase s)) FenceEntry.pendingBit := Memory.read_write_same _ _ _
  rw [FenceEntry.pending, hconfig, Word.bit_clearBit, decide_eq_true rfl, Bool.not_true,
    Bool.and_false]

/-- **Finishing an entry takes its fence away, and no other.** -/
theorem fence?_finishFence (a : Area) (m : Memory) (s t : FenceSlot) :
    a.fence? (a.finishFence s m) t = if t = s then none else a.fence? m t := by
  split
  · rename_i h
    subst h
    exact fence?_of_not_pending (a.not_pending_finishFence m t)
  · rename_i hne
    exact fence?_congr (fenceEntry_finishFence_of_ne hne)

theorem fenceValid_finishFence (h : a.FenceValid m t) : a.FenceValid (a.finishFence s m) t := by
  by_cases hne : t = s
  · subst hne
    exact fenceValid_of_not_pending (a.not_pending_finishFence m t)
  · exact (fenceValid_congr (fenceEntry_finishFence_of_ne hne)).2 h

/-! ## Filling an entry -/

theorem fenceEntry_fillFence_of_ne (hne : t ≠ s) :
    a.fenceEntry (a.fillFence s e m) t = a.fenceEntry m t := by
  unfold fillFence
  rw [fenceEntry_write_of_ne hne (by omega), fenceEntry_write_of_ne hne (by omega),
    fenceEntry_write_of_ne hne (by omega)]

theorem setBit_of_pending (h : e.pending = true) :
    Word.setBit e.config FenceEntry.pendingBit = e.config := by
  refine Word.ext_bit fun i hi => ?_
  rw [Word.bit_setBit]
  by_cases hi' : FenceEntry.pendingBit = i
  · rw [← hi', show Word.bit e.config FenceEntry.pendingBit = true from h, Bool.true_or]
  · rw [decide_eq_false hi', Bool.false_and, Bool.or_false]

/-- The entry filled is the one given, but for the word without meaning. -/
theorem fenceEntry_fillFence (h : e.pending = true) :
    a.fenceEntry (a.fillFence s e m) s = { e with reserved := m.read (a.fenceBase s + 3) } := by
  have h10 : a.fenceBase s + 1 ≠ a.fenceBase s := by omega
  have h12 : a.fenceBase s + 1 ≠ a.fenceBase s + 2 := by omega
  have h20 : a.fenceBase s + 2 ≠ a.fenceBase s := by omega
  have h30 : a.fenceBase s + 3 ≠ a.fenceBase s := by omega
  have h31 : a.fenceBase s + 3 ≠ a.fenceBase s + 1 := by omega
  have h32 : a.fenceBase s + 3 ≠ a.fenceBase s + 2 := by omega
  unfold fenceEntry fillFence
  rw [setBit_of_pending h, Memory.read_write_same, Memory.read_write_of_ne h10,
    Memory.read_write_of_ne h12, Memory.read_write_same, Memory.read_write_of_ne h20,
    Memory.read_write_same, Memory.read_write_of_ne h30, Memory.read_write_of_ne h32,
    Memory.read_write_of_ne h31]

theorem pending_of_fence (h : Check.fence e = .ok (some f)) : e.pending = true :=
  Check.pending_of_fence_ne fun hok => by cases h.symm.trans hok

/-- What the entry asks for is what was put there. -/
theorem check_fillFence (h : Check.fence e = .ok (some f)) :
    Check.fence (a.fenceEntry (a.fillFence s e m) s) = .ok (some f) := by
  rw [fenceEntry_fillFence (pending_of_fence h), ← h]
  rfl

/-- **Filling an entry puts its fence there, and no other.** -/
theorem fence?_fillFence (h : Check.fence e = .ok (some f)) (m : Memory) (s t : FenceSlot) :
    a.fence? (a.fillFence s e m) t = if t = s then some f else a.fence? m t := by
  split
  · rename_i ht
    subst ht
    exact fence?_eq_some.2 (check_fillFence h)
  · rename_i hne
    exact fence?_congr (fenceEntry_fillFence_of_ne hne)

theorem fenceValid_fillFence (h : Check.fence e = .ok (some f)) (ht : a.FenceValid m t) :
    a.FenceValid (a.fillFence s e m) t := by
  by_cases hne : t = s
  · subst hne
    have hcheck : Check.fence (a.fenceEntry (a.fillFence t e m) t) = .ok (some f) := check_fillFence h
    rw [FenceValid, hcheck, fence?_eq_some.2 hcheck]
  · exact (fenceValid_congr (fenceEntry_fillFence_of_ne hne)).2 ht

/-! ## Free entries -/

theorem freeFence?_eq_none :
    a.freeFence? m = none ↔ ∀ s, (a.fenceEntry m s).pending = true := by
  simp [freeFence?]

theorem not_pending_of_freeFence? (h : a.freeFence? m = some s) :
    (a.fenceEntry m s).pending = false := by
  simpa using List.find?_some h

/-- **A push fails exactly if every entry is pending.** -/
theorem pushFence_eq_none (e : FenceEntry) :
    (a.pushFence e m).1 = none ↔ ∀ s, (a.fenceEntry m s).pending = true := by
  rw [← freeFence?_eq_none]
  unfold pushFence
  cases a.freeFence? m with
  | none => exact iff_of_true rfl rfl
  | some s =>
    constructor
    · intro h
      cases h
    · intro h
      cases h

/-- A push fills a free entry, or there is none and nothing happens. -/
theorem pushFence_cases (a : Area) (e : FenceEntry) (m : Memory) :
    (∃ s, a.pushFence e m = (some s, a.fillFence s e m) ∧ (a.fenceEntry m s).pending = false) ∨
      a.pushFence e m = (none, m) := by
  unfold pushFence
  cases h : a.freeFence? m with
  | none => exact .inr rfl
  | some s => exact .inl ⟨s, rfl, not_pending_of_freeFence? h⟩

/-! ## The fences of the list -/

/-- The fences that the entries of the list ask for. -/
def pendingOf (a : Area) (m : Memory) : Multiset Fence :=
  ((List.finRange 56).filterMap (a.fence? m) : List Fence)

theorem pendingOf_congr (h : ∀ s, a.fence? m' s = a.fence? m s) : a.pendingOf m' = a.pendingOf m := by
  rw [pendingOf, funext h]
  rfl

/-- A list without a pending entry asks for nothing. -/
theorem pendingOf_eq_zero (h : ∀ s, (a.fenceEntry m s).pending = false) : a.pendingOf m = 0 := by
  have hnone : a.fence? m = fun _ => none := funext fun s => fence?_of_not_pending (h s)
  rw [pendingOf, hnone, List.filterMap_none]
  rfl

/-- What becomes of the list when one entry changes. -/
theorem pendingOf_update (h : ∀ t, t ≠ s → a.fence? m' t = a.fence? m t) :
    (↑(a.fence? m s).toList : Multiset Fence) + a.pendingOf m' =
      ↑(a.fence? m' s).toList + a.pendingOf m := by
  obtain ⟨before, after, hsplit, hbefore, hafter⟩ :=
    exists_split_of_pairwise (List.pairwise_lt_finRange 56) (List.mem_finRange s)
  have hleft : before.filterMap (a.fence? m') = before.filterMap (a.fence? m) :=
    List.filterMap_congr fun t ht => h t (ne_of_lt (hbefore t ht))
  have hright : after.filterMap (a.fence? m') = after.filterMap (a.fence? m) :=
    List.filterMap_congr fun t ht => h t (ne_of_gt (hafter t ht))
  unfold pendingOf
  rw [hsplit, List.filterMap_append, List.filterMap_append, filterMap_cons_append,
    filterMap_cons_append, hleft, hright]
  simp only [← Multiset.coe_add]
  ac_rfl

/-- Finishing an entry takes its fence out. -/
theorem pendingOf_finishFence (h : a.fence? m s = some f) :
    f ::ₘ a.pendingOf (a.finishFence s m) = a.pendingOf m := by
  have hothers : ∀ t, t ≠ s → a.fence? (a.finishFence s m) t = a.fence? m t := by
    intro t ht
    rw [fence?_finishFence, if_neg ht]
  have hupdate := pendingOf_update hothers
  rw [fence?_finishFence, if_pos rfl, h] at hupdate
  simpa using hupdate

/-- Filling a free entry puts its fence in. -/
theorem pendingOf_fillFence (hfree : (a.fenceEntry m s).pending = false)
    (h : Check.fence e = .ok (some f)) : a.pendingOf (a.fillFence s e m) = f ::ₘ a.pendingOf m := by
  have hothers : ∀ t, t ≠ s → a.fence? (a.fillFence s e m) t = a.fence? m t := by
    intro t ht
    rw [fence?_fillFence h, if_neg ht]
  have hupdate := pendingOf_update hothers
  rw [fence?_fillFence h, if_pos rfl, fence?_of_not_pending hfree] at hupdate
  simpa using hupdate

end Area

end NestedAccel
