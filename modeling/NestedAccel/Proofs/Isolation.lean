import NestedAccel.Proofs.Registry

/-!
# `NestedAccel.Proofs.Isolation` — what a hart does leaves the others alone

Guest memory is shared, and a hart writes to it in three ways: the bitmap, pending bits and swap value
of its own area, the descriptors of a batch array at an address the guest hypervisor chooses, and the
zeroing of a new area at such an address. **`Reachable.isolated`** says that no operation of one hart
changes another: neither its state nor its claim nor any byte of its area.

The environment is assumed to show ranges where they are and the host to leave guest memory alone. What
is left rests on the registry: areas of two harts are disjoint, arrays and new areas are tested against
every claim, and the tests are exact.
-/

namespace NestedAccel

open Relation (ReflTransGen)
open World (Reaches)

variable {σ : Type} {env : Env σ}

namespace Platform

/-! ## Where areas are found -/

/-- The registry agrees with the harts, and their areas are found where they are registered. -/
structure Placed (p : Platform) : Prop where
  registered : p.Registered
  base_eq : ∀ id h a, p.hart? id = some h → h.session.area = some a → a.base = a.gpa.toNat / 8
  maxBatch_le : p.config.maxBatch ≤ Config.batchLimit

variable {p : Platform} {id id' gpa : Word} {h h' : Hart} {a : Area}

theorem Placed.setHart {claims : List Claim} (hp : p.Placed) (hh : p.hart? id = some h)
    (hreg : Registered { p.setHart id h' with claims := claims })
    (harea : ∀ a, h'.session.area = some a → a.base = a.gpa.toNat / 8) :
    Placed { p.setHart id h' with claims := claims } where
  registered := hreg
  base_eq id' h'' a hh'' ha := by
    by_cases hid : id' = id
    · subst hid
      have hsame := hart?_setHart_same hh h'
      -- the hart found is the one put there
      cases hsame.symm.trans hh''
      exact harea a ha
    · have hother : (p.setHart id h').hart? id' = some h'' := hh''
      rw [hart?_setHart_other hid] at hother
      exact hp.base_eq id' h'' a hother ha
  maxBatch_le := hp.maxBatch_le

theorem Move.placed {st st' : Platform × World σ} (hmap : env.FaithfulIfAligned) (hp : st.1.Placed)
    (hm : Move env id st st') : st'.1.Placed := by
  have hreg := hm.registered hp.registered
  cases hm with
  | quiet _ => exact hp
  | call hh hw =>
    exact hp.setHart hh hreg fun a ha => hp.base_eq _ _ a hh (hw.1 ▸ ha)
  | establish hh _ _ _ hshown _ =>
    refine hp.setHart hh hreg fun a ha => ?_
    cases ha
    obtain ⟨m, hm, haligned, hbase⟩ := hshown
    rw [hbase, Mapping.base, hmap _ _ _ m hm haligned]
  | release hh _ _ => exact hp.setHart hh hreg fun a ha => by cases ha
  | resetMode hh => exact hp.setHart hh hreg fun a ha => hp.base_eq _ _ a hh ha

/-! ## Words and bytes -/

/-- The words of an area that is found where it is registered are those of its bytes. -/
theorem inRange_of_owns (hbase : a.base = a.gpa.toNat / 8) (haligned : a.gpa.toNat % 4096 = 0)
    {x : Nat} (hx : a.Owns (x / 8)) : InRange a.gpa areaBytes x := by
  have hbytes : areaBytes.toNat = 12288 := rfl
  unfold Area.Owns Area.words at hx
  unfold InRange
  omega

/-- The length of an array that a configuration allows does not wrap around. -/
theorem arrayBytes_toNat {count : Word} (h : count.toNat ≤ Config.batchLimit) :
    (Descriptor.arrayBytes count).toNat = 32 * count.toNat := by
  have hlimit : Config.batchLimit = 256 := rfl
  unfold Descriptor.arrayBytes
  rw [UInt64.toNat_ofNat', Descriptor.bytes]
  omega

/-- An array with a descriptor has a byte. -/
theorem arrayBytes_pos {count : Word} (h : count.toNat ≤ Config.batchLimit) (hsome : count ≠ 0) :
    0 < (Descriptor.arrayBytes count).toNat := by
  have hpos : 0 < count.toNat := Nat.pos_of_ne_zero fun hzero => hsome (UInt64.toNat_inj.1 hzero)
  rw [arrayBytes_toNat h]
  omega

/-- The words of a batch array that is shown where it is are those of its bytes. -/
theorem inRange_of_inArray {addr : Word} {count base x : Nat} (hcount : count ≤ Config.batchLimit)
    (haligned : addr.toNat % 8 = 0) (hbase : base = addr.toNat / 8)
    (hx : base ≤ x / 8 ∧ x / 8 < base + 4 * count) :
    InRange addr (.ofNat (count * Descriptor.bytes)) x := by
  have hlimit : Config.batchLimit = 256 := rfl
  have hlen : (UInt64.ofNat (count * Descriptor.bytes)).toNat = count * 32 := by
    rw [UInt64.toNat_ofNat', Descriptor.bytes]
    omega
  unfold InRange
  omega

theorem toNat_mod_eight {addr : Word} (h : addr &&& (8 - 1) = 0) : addr.toNat % 8 = 0 := by
  have hand : addr.toNat &&& (2 ^ 3 - 1) = 0 :=
    (UInt64.toNat_and addr 7).symm.trans (congrArg UInt64.toNat h)
  rwa [Nat.and_two_pow_sub_one_eq_mod] at hand

/-- An array that ends within the address space starts before its last address. -/
theorem lt_of_guestRange {addr len : Word} (h : Check.guestRange addr len 8 = .ok addr) :
    addr.toNat < UInt64.size - 1 := by
  obtain ⟨_, halign, _⟩ := Check.guestRange_ok h
  have haddr := toNat_mod_eight halign
  have hlt : addr.toNat < UInt64.size := addr.toNat_lt
  have hsize : UInt64.size = 18446744073709551616 := rfl
  omega

/-- A batch array that is shown where it is has no byte in common with a claimed area. -/
theorem not_inBatch_of_claimed {maxBatch : Nat} {claimed : List Word} (hmap : env.Faithful)
    (hmax : maxBatch ≤ Config.batchLimit) (haligned : gpa.toNat % 4096 = 0) (hclaimed : gpa ∈ claimed)
    {x : Nat} (hx : InRange gpa areaBytes x) : ¬env.InBatch maxBatch claimed (x / 8) := by
  rintro ⟨addr, count, state, m, hcount, hrange, hclear, hm, hword⟩
  obtain ⟨_, halign, _⟩ := Check.guestRange_ok hrange
  have haddr := toNat_mod_eight halign
  have hbase : m.base = addr.toNat / 8 := by rw [Mapping.base, hmap _ _ _ m hm]
  have hin := inRange_of_inArray (Nat.le_trans hcount hmax) haddr hbase hword
  exact disjoint_of_not_overlap (lt_of_guestRange hrange) (lt_of_aligned haligned) (hclear gpa hclaimed) hin hx

/-! ## Isolation, one move at a time -/

/-- Hart `id'` is as before: its state, its claim and the bytes of its area. -/
structure Isolated (id' : Word) (st st' : Platform × World σ) : Prop where
  hart_eq : st'.1.hart? id' = st.1.hart? id'
  claim_iff : ∀ gpa, ⟨id', gpa⟩ ∈ st'.1.claims ↔ ⟨id', gpa⟩ ∈ st.1.claims
  bytes_eq : ∀ gpa, ⟨id', gpa⟩ ∈ st.1.claims → ∀ x, InRange gpa areaBytes x →
    st'.2.memory.read (x / 8) = st.2.memory.read (x / 8)

/-- The words of a hart's area are not those of another's. -/
theorem Placed.not_owns (hp : p.Placed) (hh : p.hart? id = some h) (harea : h.session.area = some a)
    (hne : id' ≠ id) (hclaim : ⟨id', gpa⟩ ∈ p.claims) {x : Nat} (hx : InRange gpa areaBytes x) :
    ¬a.Owns (x / 8) := by
  intro howns
  have hmine := hp.registered.mem_claims hh harea
  have haligned := hp.registered.aligned _ hmine
  have hin := inRange_of_owns (hp.base_eq id h a hh harea) haligned howns
  exact hp.registered.disjoint _ hclaim _ hmine hne x hx hin

/-- The words of a batch array are not those of a claimed area. -/
theorem Placed.not_inBatch (hp : p.Placed) (hmap : env.Faithful) (hclaim : ⟨id', gpa⟩ ∈ p.claims)
    {x : Nat} (hx : InRange gpa areaBytes x) :
    ¬env.InBatch p.config.maxBatch p.claimed (x / 8) :=
  not_inBatch_of_claimed hmap hp.maxBatch_le (hp.registered.aligned _ hclaim)
    (List.mem_map_of_mem hclaim) hx

/-- An array mapped next to a hart's area has no word of the area. -/
theorem Placed.array_apart (hp : p.Placed) (hmap : env.Faithful) (hh : p.hart? id = some h)
    (harea : h.session.area = some a) {b : Nat} (hb : env.InBatch p.config.maxBatch p.claimed b) :
    ¬a.Owns b := by
  intro howns
  have hmine := hp.registered.mem_claims hh harea
  have hword : 8 * b / 8 = b := Nat.mul_div_cancel_left b (by decide)
  rw [← hword] at howns hb
  have hin := inRange_of_owns (hp.base_eq id h a hh harea) (hp.registered.aligned _ hmine) howns
  exact hp.not_inBatch hmap hmine hin hb

theorem Move.leaves_others {st st' : Platform × World σ} (hquiet : env.Quiet) (hmap : env.Faithful)
    (hp : st.1.Placed) (hne : id' ≠ id) (hm : Move env id st st') : Isolated id' st st' := by
  cases hm with
  | quiet hw =>
    exact ⟨rfl, fun _ => Iff.rfl, fun _ _ _ _ => hw.read_eq hquiet fun h => h⟩
  | call hh hw =>
    refine ⟨hart?_setHart_other hne _, fun _ => Iff.rfl, fun gpa hclaim x hx => ?_⟩
    refine hw.2.read_eq hquiet fun hwritable => ?_
    rcases hwritable with ⟨a, ha, howns⟩ | hbatch
    -- a word of the caller's own area, or one of the array it has named
    · exact hp.not_owns hh ha hne hclaim hx howns
    · exact hp.not_inBatch hmap hclaim hx hbatch
  | @establish p w w' h a hh hfree haligned hclear hshown hw =>
    refine ⟨hart?_setHart_other hne _, ?_, ?_⟩
    · intro gpa
      show _ ∈ p.claims ++ _ ↔ _ ∈ p.claims
      rw [List.mem_append, List.mem_singleton]
      constructor
      · rintro (hold | hnew)
        · exact hold
        · cases hnew
          exact absurd rfl hne
      · exact .inl
    · intro gpa hclaim x hx
      refine hw.read_eq hquiet fun howns => ?_
      -- the new area is where it was asked for, and that was tested against every claim
      obtain ⟨m, hm, _, hbase⟩ := hshown
      have hgpa := toNat_mod_page haligned
      rw [Mapping.base, hmap _ _ _ m hm] at hbase
      have hin := inRange_of_owns hbase hgpa howns
      have hstart := lt_of_aligned (hp.registered.aligned _ hclaim)
      exact disjoint_of_not_overlap hstart (lt_of_aligned hgpa) (hclear _ hclaim hne) hx hin
  | @release p w w' h a hh harea hw =>
    refine ⟨hart?_setHart_other hne _, ?_, ?_⟩
    · intro gpa
      show _ ∈ p.claims.filter _ ↔ _ ∈ p.claims
      rw [List.mem_filter, bne_iff_ne]
      exact and_iff_left hne
    · intro gpa hclaim x hx
      exact hw.read_eq hquiet (hp.not_owns hh harea hne hclaim hx)
  | resetMode hh => exact ⟨hart?_setHart_other hne _, fun _ => Iff.rfl, fun _ _ _ _ => rfl⟩

/-! ## Isolation of whole operations -/

theorem Isolated.trans {st st' st'' : Platform × World σ} (h : Isolated id' st st')
    (h' : Isolated id' st' st'') : Isolated id' st st'' where
  hart_eq := h'.hart_eq.trans h.hart_eq
  claim_iff gpa := (h'.claim_iff gpa).trans (h.claim_iff gpa)
  bytes_eq gpa hclaim x hx :=
    (h'.bytes_eq gpa ((h.claim_iff gpa).2 hclaim) x hx).trans (h.bytes_eq gpa hclaim x hx)

theorem placed_create {config : Config} (h : create config = .ok p) : p.Placed := by
  have hreg := registered_create h
  obtain ⟨hvalid, rfl⟩ := create_ok h
  obtain ⟨_, _, _, hbatch⟩ := Config.validate_ok hvalid
  refine ⟨hreg, ?_, hbatch⟩
  intro id h a hh ha
  unfold hart? at hh
  rw [Array.getElem?_replicate] at hh
  split at hh
  · cases hh
    cases ha
  · cases hh

theorem Reachable.placed {config : Config} {st : Platform × World σ} (hmap : env.FaithfulIfAligned)
    (h : Reachable env config st) : st.1.Placed :=
  h.invariant (I := fun st => st.1.Placed) (fun _ _ hp _ => placed_create hp)
    (fun _ _ _ hp hm => hm.placed hmap hp) fun _ _ _ _ hp => hp

theorem Isolated.of_moves {st st' : Platform × World σ} (hquiet : env.Quiet) (hmap : env.Faithful)
    (hp : st.1.Placed) (hne : id' ≠ id) (h : ReflTransGen (Move env id) st st') :
    st'.1.Placed ∧ Isolated id' st st' := by
  -- on the moves: what the next one leaves alone depends on where areas are found after the others
  induction h with
  | refl => exact ⟨hp, rfl, fun _ => Iff.rfl, fun _ _ _ _ => rfl⟩
  | tail _ hm ih =>
    obtain ⟨hp', hiso⟩ := ih
    exact ⟨hm.placed hmap.ifAligned hp', hiso.trans (hm.leaves_others hquiet hmap hp' hne)⟩

/-- **No operation of a hart changes another hart,** whatever it asks for and however it ends: the other
    hart's state is the one it was, its claim stays in the registry, and no byte of its area changes. -/
theorem Reachable.isolated {config : Config} {st : Platform × World σ} (hquiet : env.Quiet)
    (hmap : env.Faithful) (h : Reachable env config st) {id id' : Word} (hne : id' ≠ id)
    (op : Operation) :
    (op.run env id st).1.hart? id' = st.1.hart? id' ∧
    (∀ gpa, ⟨id', gpa⟩ ∈ (op.run env id st).1.claims ↔ ⟨id', gpa⟩ ∈ st.1.claims) ∧
    ∀ gpa, ⟨id', gpa⟩ ∈ st.1.claims → ∀ x, InRange gpa areaBytes x →
      (op.run env id st).2.memory.read (x / 8) = st.2.memory.read (x / 8) := by
  have hmoves := op.moves env id st
  obtain ⟨_, hiso⟩ := Isolated.of_moves hquiet hmap (h.placed hmap.ifAligned) hne hmoves
  exact ⟨hiso.hart_eq, hiso.claim_iff, hiso.bytes_eq⟩

/-- A hart releases its area next to another's. -/
theorem isolated_release :
    ∃ st : Platform × World Nat, Reachable (Env.refusing 0) { harts := 2 } st ∧
      (Env.refusing 0).Quiet ∧ (Env.refusing 0).Faithful ∧
      st.1.claims = [⟨0, 0x3000⟩, ⟨1, 0x6000⟩] ∧
      (Operation.release.run (Env.refusing 0) 0 st).1.claims = [⟨1, 0x6000⟩] ∧
      (Operation.release.run (Env.refusing 0) 0 st).1.hart? 1 = st.1.hart? 1 ∧
      ∀ gpa, ⟨1, gpa⟩ ∈ st.1.claims → ∀ x, InRange gpa areaBytes x →
        (Operation.release.run (Env.refusing 0) 0 st).2.memory.read (x / 8) =
          st.2.memory.read (x / 8) := by
  have hnew : Reachable (Env.refusing 0) { harts := 2 }
      ({ config := { harts := 2 }, harts := #[{}, {}] }, { state := 0, memory := .zero }) :=
    .new rfl rfl
  have hreach := (hnew.step 0 (.establish 0x3000 0)).step 1 (.establish 0x6000 0)
  have hne : (1 : Word) ≠ 0 := by decide
  obtain ⟨hhart, _, hbytes⟩ :=
    hreach.isolated (Env.refusing_quiet 0) (Env.refusing_faithful 0) hne .release
  exact ⟨_, hreach, Env.refusing_quiet 0, Env.refusing_faithful 0, rfl, rfl, hhart, hbytes⟩

end Platform

end NestedAccel
