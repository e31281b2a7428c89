import NestedAccel.Proofs.BatchOutcome

/-!
# `NestedAccel.Proofs.OverlapTest` — where the test for overlap is used

The registry refuses an area that overlaps another, and a batch is refused if its array overlaps an area. Both ask
`rangesOverlap`, which reckons with ends that are cut off at the last address. `rangesOverlap_iff` names what it takes
for the answer to be right: neither range is empty, and both start before the last address.

Here it is shown that both callers see to that (`Platform.Reachable.overlap_exact`). What they ask about are areas,
which are aligned to pages, and arrays, which are aligned to words and have passed `Check.guestRange`. An area may end
exactly where the address space does, and its end is then one of those that are cut off.
-/

namespace NestedAccel

variable {σ : Type}

theorem Word.lt_last {a : Word} (h : a ≠ 0xffffffffffffffff) : a.toNat < UInt64.size - 1 := by
  have hne : a.toNat ≠ 18446744073709551615 := fun heq => h (UInt64.toNat_inj.1 heq)
  have hlt : a.toNat < UInt64.size := a.toNat_lt
  have hsize : UInt64.size = 18446744073709551616 := rfl
  omega

namespace Platform

/-- **The test for overlap is exact wherever it is used.** Two ranges that are not empty and start before the last
    address overlap, by the test, exactly if some byte lies in both, where bytes are counted without wrapping round: it
    makes no difference whether a range ends before the end of the address space, at it or past it. It does not matter
    which range comes first. And the callers only ask about such ranges, in every state that can be reached: the
    registry, about an area that a hart may register and one that has been claimed; and a batch, about a claimed area
    and an array that is not empty, no longer than allowed, and within the address space. -/
theorem Reachable.overlap_exact {env : Env σ} {config : Config} {st : Platform × World σ}
    (h : Reachable env config st) :
    (∀ a aLen b bLen : Word, a ≠ 0xffffffffffffffff → b ≠ 0xffffffffffffffff → 0 < aLen.toNat →
      0 < bLen.toNat →
      (rangesOverlap a aLen b bLen = true ↔ ∃ x, InRange a aLen x ∧ InRange b bLen x)) ∧
    (∀ a aLen b bLen, rangesOverlap a aLen b bLen = rangesOverlap b bLen a aLen) ∧
    ∀ c ∈ st.1.claims,
      (∀ (s : Session) (gpa flags : Word), s.checkEstablish gpa areaBytes flags = .ok () →
        (rangesOverlap c.gpa areaBytes gpa areaBytes = true ↔
          ∃ x, InRange c.gpa areaBytes x ∧ InRange gpa areaBytes x)) ∧
      ∀ addr count : Word, count ≠ 0 → count.toNat ≤ config.maxBatch →
        Check.guestRange addr (Descriptor.arrayBytes count) 8 = .ok addr →
        (rangesOverlap addr (Descriptor.arrayBytes count) c.gpa areaBytes = true ↔
          ∃ x, InRange addr (Descriptor.arrayBytes count) x ∧ InRange c.gpa areaBytes x) := by
  have hbytes : 0 < areaBytes.toNat := by decide
  obtain ⟨_, _, _, hbatch⟩ := Config.validate_ok h.validate
  refine ⟨?_, rangesOverlap_comm, fun c hc => ⟨?_, ?_⟩⟩
  · intro a aLen b bLen ha hb haLen hbLen
    exact rangesOverlap_iff (Word.lt_last ha) (Word.lt_last hb) haLen hbLen
  · intro s gpa flags hcheck
    obtain ⟨haligned, _, _⟩ := Session.checkEstablish_ok_iff.1 hcheck
    exact rangesOverlap_iff (lt_of_aligned (h.registered.aligned c hc)) (lt_of_aligned haligned) hbytes hbytes
  · intro addr count hsome hmax hrange
    exact rangesOverlap_iff (lt_of_guestRange hrange) (lt_of_aligned (h.registered.aligned c hc))
      (arrayBytes_pos (Nat.le_trans hmax hbatch) hsome) hbytes

/-- The last three pages of the address space can be an area, whose end is then cut off. An array of two descriptors
    just below it does not overlap it, and one near its end does. So does the last page, from which another area would
    run past the end; and so do two ranges of which one runs past the end and the other nearly fills the address
    space. -/
theorem overlap_exact_last_pages :
    ∃ st : Platform × World (CsrNumber → Word), Reachable Env.registerFile {} st ∧
      st.1.claims = [⟨0, 0xffffffffffffd000⟩] ∧
      ¬rangesOverlap 0xffffffffffffcfc0 (Descriptor.arrayBytes 2) 0xffffffffffffd000 areaBytes = true ∧
      rangesOverlap 0xffffffffffffff80 (Descriptor.arrayBytes 2) 0xffffffffffffd000 areaBytes = true ∧
      rangesOverlap 0xffffffffffffd000 areaBytes 0xfffffffffffff000 areaBytes = true ∧
      rangesOverlap 0xfffffffffffffffe 5 1 0xfffffffffffffffe = true := by
  let w : World (CsrNumber → Word) := { state := fun _ => 0, memory := .zero }
  have hreach := (Reachable.one Env.registerFile w rfl).step 0 (.establish 0xffffffffffffd000 0)
  obtain ⟨hexact, _, hclaims⟩ := hreach.overlap_exact
  have hclaimed := hclaims ⟨0, 0xffffffffffffd000⟩ (List.mem_singleton_self _)
  obtain ⟨harea, harray⟩ := hclaimed
  refine ⟨_, hreach, rfl, ?_, ?_, ?_, ?_⟩
  · rw [harray _ _ (by decide) (by decide) (by decide)]
    rintro ⟨x, ⟨_, hx⟩, hx', _⟩
    exact Nat.not_lt.2 hx' hx
  · rw [harray _ _ (by decide) (by decide) (by decide)]
    exact ⟨0xffffffffffffff80, ⟨by decide, by decide⟩, by decide, by decide⟩
  · rw [harea {} _ 0 (by decide)]
    exact ⟨0xfffffffffffff000, ⟨by decide, by decide⟩, by decide, by decide⟩
  · rw [hexact _ _ _ _ (by decide) (by decide) (by decide) (by decide)]
    exact ⟨0xfffffffffffffffe, ⟨by decide, by decide⟩, by decide, by decide⟩

end Platform

end NestedAccel
