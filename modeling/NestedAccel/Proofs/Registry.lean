import Mathlib.Data.List.Nodup
import Mathlib.Data.List.Perm.Subperm
import NestedAccel.Proofs.Reachable

/-!
# `NestedAccel.Proofs.Registry` — the registry of shared areas

The harts know their own areas and the registry knows everyone's. The two are kept apart and changed by
several operations, each of which can fail on the way. `Platform.Registered` is what holds between them:
the registry lists **exactly** the areas of the harts, each hart's once, and the areas of two harts have
no byte in common.

Bytes are counted as natural numbers. The test for overlap cuts ranges off at the last address, which
loses nothing for ranges that start before it (`rangesOverlap_iff`), and aligned areas do.
-/

namespace NestedAccel

variable {σ ε α : Type}

/-! ## Ranges -/

/-- Byte `x` lies in the range of `len` bytes at `addr`, which does not wrap around. -/
def InRange (addr len : Word) (x : Nat) : Prop := addr.toNat ≤ x ∧ x < addr.toNat + len.toNat

/-- Two ranges have a byte in common if each starts before the end of the other. The later of the two starts is one. -/
theorem exists_common_iff {a aLen b bLen : Word} (ha : 0 < aLen.toNat) (hb : 0 < bLen.toNat) :
    (∃ x, InRange a aLen x ∧ InRange b bLen x) ↔
      a.toNat < b.toNat + bLen.toNat ∧ b.toNat < a.toNat + aLen.toNat := by
  unfold InRange
  constructor
  · rintro ⟨x, hx, hx'⟩
    omega
  · intro h
    refine ⟨max a.toNat b.toNat, ?_, ?_⟩
    · omega
    · omega

/-- Where both ranges start before the last address, cutting off their ends there changes nothing. -/
theorem rangesOverlap_iff_starts {a aLen b bLen : Word} (ha : a.toNat < UInt64.size - 1)
    (hb : b.toNat < UInt64.size - 1) :
    rangesOverlap a aLen b bLen = true ↔
      a.toNat < b.toNat + bLen.toNat ∧ b.toNat < a.toNat + aLen.toNat := by
  unfold rangesOverlap
  simp only [Bool.and_eq_true, decide_eq_true_eq, Nat.lt_min]
  rw [and_iff_left ha, and_iff_left hb]

/-- **The test for overlap is exact** for ranges that are not empty and start before the last address. -/
theorem rangesOverlap_iff {a aLen b bLen : Word} (ha : a.toNat < UInt64.size - 1)
    (hb : b.toNat < UInt64.size - 1) (haLen : 0 < aLen.toNat) (hbLen : 0 < bLen.toNat) :
    rangesOverlap a aLen b bLen = true ↔ ∃ x, InRange a aLen x ∧ InRange b bLen x := by
  rw [rangesOverlap_iff_starts ha hb, exists_common_iff haLen hbLen]

theorem rangesOverlap_comm (a aLen b bLen : Word) :
    rangesOverlap a aLen b bLen = rangesOverlap b bLen a aLen := by
  unfold rangesOverlap
  exact Bool.and_comm _ _

theorem disjoint_of_not_overlap {a aLen b bLen : Word} (ha : a.toNat < UInt64.size - 1)
    (hb : b.toNat < UInt64.size - 1) (h : rangesOverlap a aLen b bLen = false) {x : Nat}
    (hx : InRange a aLen x) : ¬InRange b bLen x := by
  intro hx'
  unfold InRange at hx hx'
  rw [Bool.eq_false_iff, ne_eq, rangesOverlap_iff_starts ha hb] at h
  omega

/-- Ranges that overlap have a byte in common, unless one of them is empty. -/
theorem exists_common_of_overlap {a aLen b bLen : Word} (ha : 0 < aLen.toNat) (hb : 0 < bLen.toNat)
    (h : rangesOverlap a aLen b bLen = true) : ∃ x, InRange a aLen x ∧ InRange b bLen x := by
  unfold rangesOverlap at h
  simp only [Bool.and_eq_true, decide_eq_true_eq, Nat.lt_min] at h
  exact (exists_common_iff ha hb).2 ⟨h.1.1, h.2.1⟩

/-- An area has its first byte. -/
theorem inRange_first (gpa : Word) : InRange gpa areaBytes gpa.toNat := by
  have hbytes : areaBytes.toNat = 12288 := rfl
  unfold InRange
  omega

/-- Areas are aligned to pages. -/
theorem toNat_mod_page {a : Word} (h : a % areaAlign = 0) : a.toNat % 4096 = 0 := by
  rw [← UInt64.toNat_inj, UInt64.toNat_mod] at h
  exact h

theorem lt_of_aligned {a : Word} (h : a.toNat % 4096 = 0) : a.toNat < UInt64.size - 1 := by
  have hlt : a.toNat < UInt64.size := a.toNat_lt
  have hsize : UInt64.size = 18446744073709551616 := rfl
  omega

namespace Platform

/-! ## The invariant -/

/-- Where the area of hart `id` is registered, if it has one. -/
def areaOf? (p : Platform) (id : Word) : Option Word := (p.hart? id).bind fun h => h.session.gpa?

/-- The registry agrees with the harts. -/
structure Registered (p : Platform) : Prop where
  /-- The claims are the areas of the harts. -/
  claim_iff : ∀ id gpa, ⟨id, gpa⟩ ∈ p.claims ↔ p.areaOf? id = some gpa
  /-- No hart has two claims. -/
  once : (p.claims.map Claim.hart).Nodup
  aligned : ∀ c ∈ p.claims, c.gpa.toNat % 4096 = 0
  /-- No byte belongs to the areas of two harts. -/
  disjoint : ∀ c ∈ p.claims, ∀ c' ∈ p.claims, c.hart ≠ c'.hart →
    ∀ x, InRange c.gpa areaBytes x → ¬InRange c'.gpa areaBytes x
  harts_size : p.harts.size = p.config.harts

variable {p : Platform} {id : Word} {h h' : Hart}

theorem areaOf?_of_hart? (hh : p.hart? id = some h) : p.areaOf? id = h.session.gpa? := by
  unfold areaOf?
  rw [hh]
  rfl

theorem areaOf?_setHart_same (hh : p.hart? id = some h) (h' : Hart) :
    (p.setHart id h').areaOf? id = h'.session.gpa? :=
  areaOf?_of_hart? (hart?_setHart_same hh h')

theorem areaOf?_setHart_other {id' : Word} (hne : id' ≠ id) (h' : Hart) :
    (p.setHart id h').areaOf? id' = p.areaOf? id' := by
  unfold areaOf?
  rw [hart?_setHart_other hne]

theorem setHart_harts_size (p : Platform) (id : Word) (h : Hart) :
    (p.setHart id h).harts.size = p.harts.size := Array.size_setIfInBounds

/-- A hart that keeps its area can change in any other way. -/
theorem Registered.setHart (hp : p.Registered) (hh : p.hart? id = some h)
    (harea : h'.session.area = h.session.area) : (p.setHart id h').Registered where
  claim_iff id' gpa := by
    rw [show (p.setHart id h').claims = p.claims from rfl, hp.claim_iff]
    by_cases hid : id' = id
    · subst hid
      rw [areaOf?_setHart_same hh, areaOf?_of_hart? hh, Session.gpa?, Session.gpa?, harea]
    · rw [areaOf?_setHart_other hid]
  once := hp.once
  aligned := hp.aligned
  disjoint := hp.disjoint
  harts_size := by rw [setHart_harts_size]; exact hp.harts_size

/-- A hart without an area has no claim. -/
theorem Registered.no_claim (hp : p.Registered) (hh : p.hart? id = some h)
    (hfree : h.session.area = none) : ∀ c ∈ p.claims, c.hart ≠ id := by
  rintro ⟨id', gpa⟩ hc rfl
  have harea := (hp.claim_iff id' gpa).1 hc
  rw [areaOf?_of_hart? hh, Session.gpa?, hfree] at harea
  cases harea

/-- The area of a hart is claimed. -/
theorem Registered.mem_claims (hp : p.Registered) (hh : p.hart? id = some h) {a : Area}
    (harea : h.session.area = some a) : ⟨id, a.gpa⟩ ∈ p.claims := by
  rw [hp.claim_iff, areaOf?_of_hart? hh, Session.gpa?, harea]
  rfl

/-- An address is claimed by one hart. -/
theorem Registered.hart_eq (hp : p.Registered) {c c' : Claim} (hc : c ∈ p.claims) (hc' : c' ∈ p.claims)
    (hgpa : c.gpa = c'.gpa) : c.hart = c'.hart := by
  by_contra hne
  refine hp.disjoint c hc c' hc' hne c.gpa.toNat (inRange_first c.gpa) ?_
  rw [hgpa]
  exact inRange_first c'.gpa

/-! ## The invariant survives every move -/

theorem Registered.establish (hp : p.Registered) (hh : p.hart? id = some h)
    (hfree : h.session.area = none) {a : Area} (haligned : a.gpa % areaAlign = 0)
    (hclear : ∀ c ∈ p.claims, c.hart ≠ id → rangesOverlap c.gpa areaBytes a.gpa areaBytes = false) :
    Registered { p.setHart id { h with session := { h.session with area := some a } } with
      claims := p.claims ++ [⟨id, a.gpa⟩] } := by
  have hnone := hp.no_claim hh hfree
  have hgpa := toNat_mod_page haligned
  -- the new area lies apart from every claimed one
  have hapart : ∀ c ∈ p.claims, ∀ x, InRange c.gpa areaBytes x → ¬InRange a.gpa areaBytes x := by
    intro c hc x
    have hstart := lt_of_aligned (hp.aligned c hc)
    exact disjoint_of_not_overlap hstart (lt_of_aligned hgpa) (hclear c hc (hnone c hc))
  constructor
  · intro id' gpa
    rw [List.mem_append, List.mem_singleton, hp.claim_iff]
    show _ ↔ (p.setHart id _).areaOf? id' = some gpa
    by_cases hid : id' = id
    · subst hid
      rw [areaOf?_setHart_same hh, areaOf?_of_hart? hh, Session.gpa?, hfree]
      constructor
      · rintro (hnew | hnew)
        · cases hnew
        · cases hnew
          rfl
      · intro hnew
        cases hnew
        exact .inr rfl
    · rw [areaOf?_setHart_other hid]
      constructor
      · rintro (hold | hnew)
        · exact hold
        · cases hnew
          exact absurd rfl hid
      · exact .inl
  · rw [List.map_append, List.map_singleton, List.nodup_append]
    refine ⟨hp.once, List.nodup_singleton _, ?_⟩
    intro id' hid' i hi
    obtain ⟨c, hc, rfl⟩ := List.mem_map.mp hid'
    rw [List.mem_singleton.mp hi]
    exact hnone c hc
  · intro c hc
    rcases List.mem_append.mp hc with hc | hc
    · exact hp.aligned c hc
    · rw [List.mem_singleton.mp hc]
      exact hgpa
  · intro c hc c' hc' hne x hx hx'
    rcases List.mem_append.mp hc with hc | hc
    · rcases List.mem_append.mp hc' with hc' | hc'
      · exact hp.disjoint c hc c' hc' hne x hx hx'
      · rw [List.mem_singleton.mp hc'] at hx'
        exact hapart c hc x hx hx'
    · rw [List.mem_singleton.mp hc] at hx hne
      rcases List.mem_append.mp hc' with hc' | hc'
      · exact hapart c' hc' x hx' hx
      · rw [List.mem_singleton.mp hc'] at hne
        exact hne rfl
  · show (p.setHart id _).harts.size = p.config.harts
    rw [setHart_harts_size]
    exact hp.harts_size

theorem Registered.release (hp : p.Registered) (hh : p.hart? id = some h) :
    Registered { p.setHart id { h with session := { h.session with area := none } } with
      claims := p.claims.filter fun c => c.hart != id } := by
  have hsub : p.claims.filter (fun c => c.hart != id) ⊆ p.claims := List.filter_subset_self _
  constructor
  · intro id' gpa
    rw [List.mem_filter, hp.claim_iff, bne_iff_ne]
    show _ ↔ (p.setHart id _).areaOf? id' = some gpa
    by_cases hid : id' = id
    · subst hid
      rw [areaOf?_setHart_same hh]
      constructor
      · intro hold
        exact absurd rfl hold.2
      · intro hnone
        cases hnone
    · rw [areaOf?_setHart_other hid]
      exact and_iff_left hid
  · exact hp.once.sublist (List.Sublist.map _ List.filter_sublist)
  · intro c hc
    exact hp.aligned c (hsub hc)
  · intro c hc c' hc'
    exact hp.disjoint c (hsub hc) c' (hsub hc')
  · show (p.setHart id _).harts.size = p.config.harts
    rw [setHart_harts_size]
    exact hp.harts_size

theorem Move.registered {env : Env σ} {st st' : Platform × World σ} (hp : st.1.Registered)
    (h : Move env id st st') : st'.1.Registered := by
  cases h with
  | quiet _ => exact hp
  | call hh hw => exact hp.setHart hh hw.1
  | establish hh hfree haligned hclear _ _ => exact hp.establish hh hfree haligned hclear
  | release hh _ _ => exact hp.release hh
  | resetMode hh => exact hp.setHart hh rfl

theorem registered_create {config : Config} (h : create config = .ok p) : p.Registered := by
  obtain ⟨_, rfl⟩ := create_ok h
  constructor
  · intro id gpa
    constructor
    · intro hc
      cases hc
    -- no hart starts with an area
    · intro harea
      unfold areaOf? hart? at harea
      rw [Array.getElem?_replicate] at harea
      split at harea
      · cases harea
      · cases harea
  · exact List.nodup_nil
  · intro c hc
    cases hc
  · intro c hc
    cases hc
  · exact Array.size_replicate

theorem Reachable.registered {env : Env σ} {config : Config} {st : Platform × World σ}
    (h : Reachable env config st) : st.1.Registered :=
  h.invariant (I := fun st => st.1.Registered) (fun _ _ hp _ => registered_create hp)
    (fun _ _ _ hp hm => hm.registered hp) fun _ _ _ _ hp => hp

theorem Step.registered {env : Env σ} {st st' : Platform × World σ} (hp : st.1.Registered)
    (h : Step env id st st') : st'.1.Registered := by
  have hmoves := h.moves
  clear h
  -- on the moves that the step is made of
  induction hmoves with
  | refl => exact hp
  | tail _ hm ih => exact hm.registered ih

/-- What holds of a new platform and survives every step holds of every reachable state. The registry agrees
    with the harts at each step. -/
theorem Reachable.step_invariant {env : Env σ} {config : Config} {st : Platform × World σ}
    {I : Platform × World σ → Prop}
    (hcreate : ∀ p w, create config = .ok p → w.events = [] → I (p, w))
    (hstep : ∀ id st st', st.1.Registered → I st → Step env id st st' → I st')
    (helsewhere : ∀ p w state memory, I (p, w) → I (p, { w with state, memory }))
    (h : Reachable env config st) : I st := by
  induction h with
  | new hp hw => exact hcreate _ _ hp hw
  | @step st hreach id op ih =>
    have hsteps := op.steps env id st
    generalize op.run env id st = st' at hsteps
    suffices hboth : st'.1.Registered ∧ I st' from hboth.2
    -- on the steps that the operation is made of
    induction hsteps with
    | refl => exact ⟨hreach.registered, ih⟩
    | tail _ hnext ih => exact ⟨hnext.registered ih.1, hstep id _ _ ih.1 ih.2 hnext⟩
  | elsewhere _ state memory ih => exact helsewhere _ _ state memory ih

/-! ## The size of the registry -/

/-- There are no more claims than harts. -/
theorem Registered.claims_length_le (hp : p.Registered) : p.claims.length ≤ p.config.harts := by
  -- the claims name different harts, and each of them is one of the platform's
  have hnodup : (p.claims.map fun c => c.hart.toNat).Nodup := by
    have hmap := hp.once.map fun _ _ => UInt64.toNat_inj.1
    rwa [List.map_map] at hmap
  have hsub : (p.claims.map fun c => c.hart.toNat) ⊆ List.range p.config.harts := by
    intro n hn
    obtain ⟨c, hc, rfl⟩ := List.mem_map.mp hn
    obtain ⟨h, hh, _⟩ := Option.bind_eq_some_iff.1 ((hp.claim_iff c.hart c.gpa).1 hc)
    rw [List.mem_range, ← hp.harts_size]
    exact (Array.getElem?_eq_some_iff.1 hh).1
  have hle := (List.subperm_of_subset hnodup hsub).length_le
  rwa [List.length_map, List.length_range] at hle

/-- A registration that succeeds adds one claim. -/
theorem establish_run_ok {env : Env σ} {gpa flags : Word} {st st' : Platform × World σ}
    (hrun : (establish env id gpa flags).run st = (.ok (), st')) :
    st'.1.claims = st.1.claims ++ [⟨id, gpa⟩] := by
  have hout := establish_run env id gpa flags st.1 st.2
  rw [hrun] at hout
  cases hout
  rfl

/-- **The registry agrees with the harts in every reachable state.** It lists exactly the areas of the
    harts, each hart's once; they are aligned, and those of two harts are disjoint. So it never has more
    entries than there are harts, and a registration that succeeds has found room for one more. -/
theorem Reachable.registry {env : Env σ} {config : Config} {st : Platform × World σ}
    (h : Reachable env config st) :
    (∀ id gpa, ⟨id, gpa⟩ ∈ st.1.claims ↔
      ∃ hart, st.1.hart? id = some hart ∧ hart.session.gpa? = some gpa) ∧
    (st.1.claims.map Claim.hart).Nodup ∧
    (∀ c ∈ st.1.claims, c.gpa.toNat % 4096 = 0) ∧
    (∀ c ∈ st.1.claims, ∀ c' ∈ st.1.claims, c.hart ≠ c'.hart →
      ∀ x, InRange c.gpa areaBytes x → ¬InRange c'.gpa areaBytes x) ∧
    st.1.claims.length ≤ config.harts ∧ config.harts ≤ Config.maxHarts ∧
    ∀ id gpa flags st', (establish env id gpa flags).run st = (.ok (), st') →
      st'.1.claims = st.1.claims ++ [⟨id, gpa⟩] ∧ st.1.claims.length < Config.maxHarts := by
  have hp := h.registered
  have hle : st.1.claims.length ≤ config.harts := h.config_eq ▸ hp.claims_length_le
  obtain ⟨_, hmax, _⟩ := Config.validate_ok h.validate
  refine ⟨fun id gpa => (hp.claim_iff id gpa).trans Option.bind_eq_some_iff, hp.once, hp.aligned,
    hp.disjoint, hle, hmax, fun id gpa flags st' hrun => ?_⟩
  have hclaims := establish_run_ok hrun
  have hnext : Reachable env config st' := by
    have hstep := h.step id (.establish gpa flags)
    rwa [Operation.run, hrun] at hstep
  -- the state afterwards is reachable too, and has one claim more
  have hle' : st'.1.claims.length ≤ config.harts :=
    hnext.config_eq ▸ hnext.registered.claims_length_le
  rw [hclaims, List.length_append, List.length_singleton] at hle'
  exact ⟨hclaims, Nat.lt_of_lt_of_le hle' hmax⟩

/-- Two harts with areas side by side. -/
theorem registry_two_harts :
    ∃ st : Platform × World Nat, Reachable (Env.refusing 0) { harts := 2 } st ∧
      st.1.claims = [⟨0, 0x3000⟩, ⟨1, 0x6000⟩] ∧
      (∀ id gpa, ⟨id, gpa⟩ ∈ st.1.claims ↔
        ∃ hart, st.1.hart? id = some hart ∧ hart.session.gpa? = some gpa) ∧
      ∀ c ∈ st.1.claims, ∀ c' ∈ st.1.claims, c.hart ≠ c'.hart →
        ∀ x, InRange c.gpa areaBytes x → ¬InRange c'.gpa areaBytes x := by
  have hnew : Reachable (Env.refusing 0) { harts := 2 }
      ({ config := { harts := 2 }, harts := #[{}, {}] }, { state := 0, memory := .zero }) :=
    .new rfl rfl
  have hreach := (hnew.step 0 (.establish 0x3000 0)).step 1 (.establish 0x6000 0)
  obtain ⟨hiff, _, _, hdisjoint, _⟩ := hreach.registry
  exact ⟨_, hreach, rfl, hiff, hdisjoint⟩

end Platform

end NestedAccel
