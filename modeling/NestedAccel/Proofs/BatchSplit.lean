import NestedAccel.Proofs.Lockstep

/-!
# `NestedAccel.Proofs.BatchSplit` — a batch is the sequence of its parts

The descriptors of a batch are run one after the other, whatever they come to, so it makes no difference whether
they are submitted in one array or in two. What joins the parts is the world: a later operation finds the registers
of the host and the fence list of the area as the earlier ones have left them. Tallies add up
(`Env.runDescriptors_append`).

What does differ is when the tags of the second part are looked at. The first part cannot have changed them, since
it writes to its own descriptors and to the area only (`Env.load_runDescriptors`). So the second part can be run
once the first has been, and **`Env.runBatch_parts`** follows for every host that leaves guest memory alone.
-/

namespace NestedAccel

open World (Reaches)

variable {σ η ε : Type}

/-! ## Tallies -/

namespace Tally

theorem empty_add (t : Tally) : ({} : Tally) + t = t := by
  show Tally.add {} t = t
  simp [Tally.add]

theorem add_assoc (t u v : Tally) : t + u + v = t + (u + v) := by
  show Tally.add (Tally.add t u) v = Tally.add t (Tally.add u v)
  simp [Tally.add, Nat.add_assoc]

end Tally

/-! ## Descriptors -/

theorem Env.runDescriptors_cons (env : Env σ) (harts : Nat) (a : Area) (p : Nat) (rest : List Nat) :
    (env.runDescriptors harts a (p :: rest) : Act (World σ) ε Tally) = do
      let t ← env.runDescriptor harts a p
      let u ← env.runDescriptors harts a rest
      return t + u := rfl

/-- **Descriptors are run in sequence,** and their tallies add up. -/
theorem Env.runDescriptors_append (env : Env σ) (harts : Nat) (a : Area) (ps qs : List Nat) :
    (env.runDescriptors harts a (ps ++ qs) : Act (World σ) ε Tally) = do
      let t ← env.runDescriptors harts a ps
      let u ← env.runDescriptors harts a qs
      return t + u := by
  induction ps with
  | nil =>
    show env.runDescriptors harts a qs = (do
      let u ← env.runDescriptors harts a qs
      return ({} : Tally) + u)
    simp only [Tally.empty_add, bind_pure]
  | cons p rest ih =>
    rw [List.cons_append, Env.runDescriptors_cons, Env.runDescriptors_cons, ih]
    simp only [bind_assoc, pure_bind, Tally.add_assoc]

/-- An array is that of its first descriptors and that of the rest. -/
theorem Descriptor.array_append (base n k : Nat) :
    array base (n + k) = array base n ++ array (base + 4 * n) k := by
  unfold array
  rw [List.range_add, List.map_append, List.map_map]
  congr 1
  refine List.map_congr_left fun i _ => ?_
  show position base (n + i) = position (base + 4 * n) i
  unfold position
  omega

/-- A descriptor that is apart from the ones that are run is as it was. -/
theorem Env.load_runDescriptors_apart {env : Env σ} (hquiet : env.Quiet) (harts : Nat) {a : Area} {ps : List Nat}
    {q : Nat} (hps : ∀ p ∈ ps, p + 4 ≤ q ∨ q + 4 ≤ p) (hout : ∀ b, q ≤ b ∧ b < q + 4 → ¬a.Owns b)
    (w : World σ) :
    Descriptor.load ((env.runDescriptors harts a ps : Act (World σ) ε Tally).run w).2.memory q =
      Descriptor.load w.memory q := by
  have hreach : Reaches env (Request.Legal harts) (fun b => a.Owns b ∨ ∃ p ∈ ps, p ≤ b ∧ b < p + 4) w
      ((env.runDescriptors harts a ps : Act (World σ) ε Tally).run w).2 :=
    Env.runDescriptors_moves (fun s => .inl (a.owns_fenceBase s)) (fun p hp _ hb => .inr ⟨p, hp, hb⟩) w
  refine Descriptor.load_eq fun b hb => hreach.read_eq hquiet ?_
  rintro (howns | ⟨p, hp, hown⟩)
  · exact hout b hb howns
  · have hapart := hps p hp
    omega

/-- A descriptor that comes after the ones that are run is as it was. -/
theorem Env.load_runDescriptors {env : Env σ} (hquiet : env.Quiet) (harts : Nat) {a : Area} {ps : List Nat}
    {q : Nat} (hps : ∀ p ∈ ps, p + 4 ≤ q) (hout : ∀ b, q ≤ b ∧ b < q + 4 → ¬a.Owns b) (w : World σ) :
    Descriptor.load ((env.runDescriptors harts a ps : Act (World σ) ε Tally).run w).2.memory q =
      Descriptor.load w.memory q :=
  Env.load_runDescriptors_apart hquiet harts (fun p hp => .inl (hps p hp)) hout w

/-! ## Arrays -/

/-- The length of an array that ends within the address space does not wrap around. -/
theorem Descriptor.toNat_arrayBytes {count : Word} (h : 32 * count.toNat < UInt64.size) :
    (arrayBytes count).toNat = 32 * count.toNat := by
  have hsize : UInt64.size = 2 ^ 64 := rfl
  unfold arrayBytes
  rw [UInt64.toNat_ofNat', Descriptor.bytes]
  omega

/-- The array of `count` descriptors at `addr` is one that a batch may have: it is not longer than allowed, lies
    within the address space at a multiple of 8, and has no byte in common with a registered area. -/
structure BatchPlaced (maxBatch : Nat) (claimed : List Word) (addr count : Word) : Prop where
  count_le : count.toNat ≤ maxBatch
  aligned : addr.toNat % 8 = 0
  inSpace : addr.toNat + 32 * count.toNat < UInt64.size
  clear : ∀ g ∈ claimed, ∀ x, InRange g areaBytes x →
    ¬(addr.toNat ≤ x ∧ x < addr.toNat + 32 * count.toNat)

namespace BatchPlaced

variable {maxBatch : Nat} {claimed : List Word} {addr count first second : Word}

theorem toNat_arrayBytes (h : BatchPlaced maxBatch claimed addr count) :
    (Descriptor.arrayBytes count).toNat = 32 * count.toNat := by
  have hspace := h.inSpace
  exact Descriptor.toNat_arrayBytes (by omega)

theorem admitted (h : BatchPlaced maxBatch claimed addr count) : BatchAdmitted maxBatch claimed addr count where
  count_le := h.count_le
  range := by
    refine Check.guestRange_iff.2 ⟨h.aligned, ?_⟩
    rw [h.toNat_arrayBytes]
    exact h.inSpace
  clear hsome g hg := by
    rw [Bool.eq_false_iff]
    intro hoverlap
    have hlen := h.toNat_arrayBytes
    have hpos : 0 < count.toNat := Nat.pos_of_ne_zero fun hzero => hsome (UInt64.toNat_inj.1 hzero)
    obtain ⟨x, hx, hx'⟩ := exists_common_of_overlap (by omega) (by decide) hoverlap
    unfold InRange at hx
    exact h.clear g hg x hx' (by omega)

/-- The array is placed within another. -/
theorem part (h : BatchPlaced maxBatch claimed addr count) {addr' count' : Word} {n : Nat}
    (haddr : addr'.toNat = addr.toNat + 32 * n) (hcount : n + count'.toNat ≤ count.toNat) :
    BatchPlaced maxBatch claimed addr' count' where
  count_le := by
    have hle := h.count_le
    omega
  aligned := by
    have haligned := h.aligned
    omega
  inSpace := by
    have hspace := h.inSpace
    omega
  clear g hg x hx hin := h.clear g hg x hx (by omega)

/-- The second part of an array comes after the first. -/
theorem toNat_second (h : BatchPlaced maxBatch claimed addr count) (hle : first.toNat ≤ count.toNat) :
    (addr + Descriptor.arrayBytes first).toNat = addr.toNat + 32 * first.toNat := by
  have hspace := h.inSpace
  have hsize : UInt64.size = 2 ^ 64 := rfl
  rw [UInt64.toNat_add, Descriptor.toNat_arrayBytes (by omega), Nat.mod_eq_of_lt (by omega)]

end BatchPlaced

/-! ## Two batches -/

section
variable {env : Env σ} {view : σ → η} {harts maxBatch base : Nat} {a : Area} {claimed : List Word}
  {addr count first second : Word} {w : World σ}

/-- **A batch is the sequence of its parts.** Take a batch whose array is one that a batch may have, clear of the
    words of the hart's own area, and whose tags are known. Cut it in two parts, neither of them empty. The
    environment shows the whole array and its two parts, each when it is asked to, where the array is. The host may
    do and refuse what it likes, but leaves guest memory alone.

    Then the whole batch and the two parts as two batches, one after the other, come to the same, and neither the
    host nor the guest can tell them apart: the host has had the same callbacks with the same replies and is in the
    same state, and guest memory is the same. If the host comes back, each of the three batches has been run, and
    the tally of the whole is the sum of the tallies of the parts. -/
theorem Env.runBatch_parts (hview : env.HostPart view) (hquiet : env.Quiet)
    (hcount : count.toNat = first.toNat + second.toNat) (hfirst : first ≠ 0) (hsecond : second ≠ 0)
    (hplaced : BatchPlaced maxBatch claimed addr count)
    (hapart : ∀ b, base ≤ b ∧ b < base + 4 * count.toNat → ¬a.Owns b)
    (hknown : Descriptor.Known w.memory base count.toNat)
    (hshown : env.Shows addr count w.state base) (hshown₁ : env.Shows addr first w.state base)
    (hshown₂ : ∀ t w₁, (env.runBatch harts maxBatch (some a) claimed addr first).run w = (.ok t, w₁) →
      env.Shows (addr + Descriptor.arrayBytes first) second w₁.state (base + 4 * first.toNat)) :
    let batch := env.runBatch harts maxBatch (some a) claimed
    let addr₂ := addr + Descriptor.arrayBytes first
    Act.Matches (World.Alike view) ((batch addr count).run w)
      ((batch addr first >>= fun t => batch addr₂ second >>= fun u => pure (t + u)).run w) ∧
    (env.Returns → ∃ t u w₁ w₂ w', (batch addr first).run w = (.ok t, w₁) ∧
      (batch addr₂ second).run w₁ = (.ok u, w₂) ∧ (batch addr count).run w = (.ok (t + u), w') ∧
      World.Alike view w' w₂) := by
  intro batch addr₂
  have hsome : count ≠ 0 := by
    rintro rfl
    have hpos : first.toNat ≠ 0 := fun hzero => hfirst (UInt64.toNat_inj.1 hzero)
    have hzero : (0 : Word).toNat = 0 := rfl
    omega
  have hplaced₁ : BatchPlaced maxBatch claimed addr first := hplaced.part (n := 0) rfl (by omega)
  have hplaced₂ : BatchPlaced maxBatch claimed addr₂ second :=
    hplaced.part (hplaced.toNat_second (by omega)) (by omega)
  have hsplit : Descriptor.array base count.toNat =
      Descriptor.array base first.toNat ++ Descriptor.array (base + 4 * first.toNat) second.toNat := by
    rw [hcount, Descriptor.array_append]
  have hknown₁ : Descriptor.Known w.memory base first.toNat := fun p hp =>
    hknown p (by rw [hsplit]; exact List.mem_append_left _ hp)
  have hwhole := Env.runBatch_matches hview hplaced.admitted hsome hshown hknown harts a
  have hpart₁ := Env.runBatch_matches hview hplaced₁.admitted hfirst hshown₁ hknown₁ harts a
  have hparts : Act.Matches (World.Alike view)
      ((batch addr first >>= fun t => batch addr₂ second >>= fun u => pure (t + u)).run w)
      ((env.runDescriptors harts a (Descriptor.array base count.toNat)).run w) := by
    rw [hsplit, Env.runDescriptors_append]
    refine hpart₁.bind fun t w₁ w₁' hrun hrun' halike => ?_
    -- the tags of the second part are what they were before the first was run
    have hknown₂ : Descriptor.Known w₁.memory (base + 4 * first.toNat) second.toNat := by
      intro p hp
      have hbounds := Descriptor.position_bounds hp
      have hbefore : ∀ q ∈ Descriptor.array base first.toNat, q + 4 ≤ p := fun q hq =>
        (Descriptor.position_bounds hq).2.trans hbounds.1
      have hout : ∀ b, p ≤ b ∧ b < p + 4 → ¬a.Owns b := fun b hb => hapart b (by omega)
      have hload := Env.load_runDescriptors (ε := BatchError) hquiet harts hbefore hout w
      rw [hrun'] at hload
      rw [halike.memory, hload]
      exact hknown p (by rw [hsplit]; exact List.mem_append_right _ hp)
    have hpart₂ := Env.runBatch_matches hview hplaced₂.admitted hsecond (hshown₂ t w₁ hrun) hknown₂ harts a
    refine (hpart₂.trans (Env.runDescriptors_respects hview _ w₁ w₁' halike)).bind ?_
    exact fun u _ _ _ _ hw => ⟨rfl, hw⟩
  refine ⟨hwhole.trans hparts.symm, fun hback => ?_⟩
  -- the descriptors come to a tally, and so do the two parts
  have hclear : ∀ p ∈ Descriptor.array base count.toNat, ∀ b, p ≤ b ∧ b < p + 4 → ¬a.Owns b := by
    intro p hp b hb
    have hbounds := Descriptor.position_bounds hp
    exact hapart b (by omega)
  have hreturns : ∃ tally w₀, (env.runDescriptors harts a (Descriptor.array base count.toNat) :
      Act _ BatchError Tally).run w = (.ok tally, w₀) := by
    obtain ⟨tally, _, w₀, hran, _⟩ :=
      Env.runDescriptors_ran hquiet hback (Descriptor.positions_apart base count.toNat) hclear w
    exact ⟨tally, w₀, hran⟩
  obtain ⟨tally, w₀, hran⟩ := hreturns
  obtain ⟨w₂, hrun, halike₂⟩ := Act.Matches.ok (hran ▸ hparts)
  obtain ⟨w', hrun', halike'⟩ := Act.Matches.ok (hran ▸ hwhole)
  obtain ⟨t, w₁, hrun₁, hrest⟩ := Act.run_bind_ok hrun
  obtain ⟨u, _, hrun₂, hsum⟩ := Act.run_bind_ok hrest
  cases hsum
  exact ⟨t, u, w₁, w₂, w', hrun₁, hrun₂, hrun', trans_of _ halike' (symm_of _ halike₂)⟩

end

/-- The host that refuses its second request, next to a mapper that shows all of guest memory where it is. -/
def Env.refusingSecond : Env (Nat × Unit) :=
  .ofParts (refusing 1).host fun gpa _ _ => (.ok ⟨gpa.toNat⟩, ())

/-- The array of the three descriptors is one that a batch may have, and is clear of the words of the area. -/
theorem Platform.placed_threeDescribed : BatchPlaced 64 [0x3000] 0x8000 3 := by
  refine ⟨by decide, by decide, by decide, fun g hg x hx hin => ?_⟩
  obtain rfl := List.mem_singleton.1 hg
  have hstart : (0x3000 : Word).toNat = 0x3000 := rfl
  have harray : (0x8000 : Word).toNat = 0x8000 := rfl
  have hbytes : areaBytes.toNat = 12288 := rfl
  unfold InRange at hx
  omega

theorem Platform.apart_threeDescribed {b : Nat} (hb : 0x1000 ≤ b) : ¬(Area.ofGuest 0x3000).Owns b := by
  intro howns
  have hbase : (Area.ofGuest 0x3000).base = 0x600 := rfl
  unfold Area.Owns Area.words at howns
  omega

/-- Three descriptors that read a CSR, write it and ask for a fence, as one batch and as a batch of one and a batch
    of two. The write fails in both cases. -/
theorem Env.runBatch_parts_three :
    let batch := refusingSecond.runBatch 1 64 (some (.ofGuest 0x3000)) [0x3000]
    let w : World (Nat × Unit) := { state := (0, ()), memory := Platform.threeDescribed.2.memory }
    ∃ t u w₁ w₂ w', (batch 0x8000 1).run w = (.ok t, w₁) ∧ (batch 0x8020 2).run w₁ = (.ok u, w₂) ∧
      (batch 0x8000 3).run w = (.ok (t + u), w') ∧ World.Alike Prod.fst w' w₂ ∧
      t + u = { succeeded := 2, failed := 1, fences := 1 } := by
  intro batch w
  have hknown : Descriptor.Known w.memory 0x1000 (3 : Word).toNat := by
    unfold Descriptor.Known
    decide +kernel
  have hview : refusingSecond.HostPart Prod.fst := ofParts_hostPart _ _
  have hcount : (3 : Word).toNat = (1 : Word).toNat + (2 : Word).toNat := rfl
  have hshown₂ : ∀ t w₁, (batch 0x8000 1).run w = (.ok t, w₁) →
      refusingSecond.Shows 0x8020 2 w₁.state 0x1004 := fun _ _ _ => ⟨⟨0x8020⟩, rfl, rfl, rfl⟩
  obtain ⟨_, hback⟩ := runBatch_parts hview (fun _ _ _ => rfl) hcount (by decide) (by decide)
    Platform.placed_threeDescribed (fun _ hb => Platform.apart_threeDescribed hb.1) hknown
    ⟨⟨0x8000⟩, rfl, rfl, rfl⟩ ⟨⟨0x8000⟩, rfl, rfl, rfl⟩ hshown₂
  obtain ⟨t, u, w₁, w₂, w', hrun₁, hrun₂, hrun, halike⟩ :=
    hback fun q st m => refusing_returns 1 q st.1 m
  have htally : ((batch 0x8000 3).run w).1 = .ok { succeeded := 2, failed := 1, fences := 1 } := by
    decide +kernel
  refine ⟨t, u, w₁, w₂, w', hrun₁, hrun₂, hrun, halike, ?_⟩
  rw [hrun] at htally
  exact Outcome.ok.inj htally

end NestedAccel
