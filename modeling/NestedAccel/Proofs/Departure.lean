import NestedAccel.Proofs.ReturnSteps

/-!
# `NestedAccel.Proofs.Departure` — pending work is finished before the host leaves

A trap return takes the guest hypervisor to another context, and whatever it has asked for before has to be in
effect there. So a return is the last thing that the host is asked for but for the swap of `hstatus`: by then
every dirty slot has been written, and with the swap flag every pending entry of the fence list has been
performed, all exactly once and in order.

`Area.SlotsDone` and `Area.FencesDone` say this of a part of the record, without looking at how the call has gone
about it. **`Env.syncReturn_departs`** says that it holds whenever the host is asked to return: in the world that
the first half of the call (`Env.beforeReturn`) has led to, whatever the host's reply is and whatever comes after.
-/

namespace NestedAccel

variable {σ : Type} {env : Env σ} {a : Area} {m m' : Memory} {plan : ReturnPlan}

/-! ## Work that is finished -/

/-- By the events `ws`, the host has written every slot that was dirty in `m`, once and in ascending order, and
    none is dirty in `m'`. -/
structure Area.SlotsDone (a : Area) (m m' : Memory) (ws : List Event) : Prop where
  written : ∃ slots : List CsrSlot, slots.Pairwise (· < ·) ∧ (∀ s, s ∈ slots ↔ a.isDirty m s = true) ∧
    List.Forall₂ (fun s e => ∃ c v, Check.slotWrite s (a.slotValue m s) = .ok c ∧
      e = .requested (.writeCsr c) (.done v)) slots ws
  clean : ∀ s, a.isDirty m' s = false

/-- By the events `fs`, the host has performed every entry of the fence list that was pending in `m`, once and
    in ascending order, and none is pending in `m'`. -/
structure Area.FencesDone (a : Area) (m m' : Memory) (fs : List Event) : Prop where
  performed : ∃ entries : List FenceSlot, entries.Pairwise (· < ·) ∧
    (∀ s, s ∈ entries ↔ (a.fenceEntry m s).pending = true) ∧
    List.Forall₂ (fun s e => ∃ f v, Check.fence (a.fenceEntry m s) = .ok (some f) ∧
      e = .requested (.fence f) (.done v)) entries fs
  clear : ∀ s, (a.fenceEntry m' s).pending = false

/-- The return is to the state found in the trap return context of `m`. -/
structure TrapReturn.FoundIn (t : TrapReturn) (a : Area) (m : Memory) : Prop where
  x0 : t.registers.get 0 = 0
  registers : ∀ r : Reg, r ≠ 0 → t.registers.get r = m.read (a.returnBase + r)
  sepc : t.sepc = m.read (a.returnBase + 32)
  sstatus : t.sstatus = m.read (a.returnBase + 33)

/-- From the world `w`, the call comes to ask for the return `t` in the world `w₁`, with the events `ws` for the
    slots, `fs` for the fences, and `rs` for the read of `hstatus`. -/
structure Env.Departs (env : Env σ) (a : Area) (autoswap : Bool) (w w₁ : World σ) (t : TrapReturn)
    (ws fs rs : List Event) : Prop where
  reached : ∃ plan r, a.prepareReturn autoswap w.memory = .ok plan ∧ plan.state = t ∧
    (env.beforeReturn a plan).run w = (.ok r, w₁)
  record : w₁.events = w.events ++ (ws ++ fs ++ rs)
  slots : a.SlotsDone w.memory w₁.memory ws
  fences : autoswap = true → a.FencesDone w.memory w₁.memory fs
  read : ∀ e ∈ rs, autoswap = true ∧ ∃ v, e = .requested (.readCsr CsrNumber.hstatus) (.done v)
  /-- Without the swap flag the fence list is left alone. -/
  list : autoswap = false → fs = [] ∧ ∀ s, a.fenceEntry w₁.memory s = a.fenceEntry w.memory s
  context : a.swapContext w₁.memory = a.swapContext w.memory
  state : t.FoundIn a w.memory

/-! ## What a plan finishes -/

/-- The slots of a plan are the dirty ones. -/
theorem Area.mem_slots_of_plan {autoswap : Bool} (hplan : a.prepareReturn autoswap m = .ok plan)
    (s : CsrSlot) : s ∈ plan.slots ↔ a.isDirty m s = true := by
  obtain ⟨_, _, _, hslots, _⟩ := Area.prepareReturn_ok hplan
  rw [hslots, Area.mem_dirtySlots, and_iff_right (Area.selects_all s)]

theorem Area.slotsDone_of_plan {autoswap : Bool} {ws : List Event}
    (hplan : a.prepareReturn autoswap m = .ok plan) (hws : CarriedOut (a.slotTask m) plan.slots ws)
    (fences : List PendingFence) : a.SlotsDone m (a.applied m plan.slots fences) ws := by
  have hvalid := Area.prepareReturn_slotValid hplan
  have hmem := Area.mem_slots_of_plan hplan
  obtain ⟨_, _, _, hslots, _⟩ := Area.prepareReturn_ok hplan
  constructor
  · refine ⟨plan.slots, hslots ▸ a.dirtySlots_pairwise m .all, hmem, ?_⟩
    refine ((List.forall₂_and_left _ _).2 ⟨hvalid, hws⟩).imp fun s e hs => ?_
    obtain ⟨hs, v, rfl⟩ := hs
    exact ⟨_, v, hs, rfl⟩
  · intro s
    rw [Area.isDirty_applied, Bool.and_eq_false_iff]
    by_cases hs : a.isDirty m s = true
    · exact .inr (by rw [decide_eq_true ((hmem s).2 hs)]; rfl)
    · exact .inl (Bool.eq_false_iff.2 hs)

theorem Area.mem_fencesAt {slots : List FenceSlot} {p : PendingFence} (hp : p ∈ a.fencesAt m slots) :
    Check.fence (a.fenceEntry m p.slot) = .ok (some p.fence) :=
  Area.fence?_eq_some.1 (Area.fence?_of_mem_fencesAt hp)

/-- With the swap flag, the fences of a plan are those of the pending entries. -/
theorem Area.fencesDone_of_plan {fs : List Event} (hplan : a.prepareReturn true m = .ok plan)
    (hfs : CarriedOut (PendingFence.task a) plan.fences fs) (slots : List CsrSlot) :
    a.FencesDone m (a.applied m slots plan.fences) fs := by
  obtain ⟨_, _, hpending, _, _⟩ := Area.prepareReturn_ok hplan
  have hvalid : ∀ s, a.FenceValid m s := fun s =>
    Area.pendingFences_ok_iff.1 ⟨_, hpending⟩ s (List.mem_finRange s)
  have hfences : plan.fences = a.fencesAt m FenceSelect.all.slots := Area.prepareReturn_fences hplan
  have hmem : ∀ s, s ∈ plan.fences.map PendingFence.slot ↔ (a.fenceEntry m s).pending = true := by
    intro s
    rw [hfences, List.mem_map]
    constructor
    · rintro ⟨p, hp, rfl⟩
      exact Area.pending_of_fence (Area.mem_fencesAt hp)
    · intro hs
      obtain ⟨f, hf⟩ := Area.exists_fence_of_pending (hvalid s) hs
      refine ⟨⟨s, f⟩, List.mem_filterMap.2 ⟨s, List.mem_finRange s, ?_⟩, rfl⟩
      rw [Area.fence?_eq_some.2 hf]
      rfl
  constructor
  · refine ⟨plan.fences.map PendingFence.slot, ?_, hmem, ?_⟩
    · rw [hfences]
      exact FenceSelect.all.slots_pairwise.sublist (a.fencesAt_slots_sublist m _)
    · rw [List.forall₂_map_left_iff]
      have hmem : ∀ p ∈ plan.fences, Check.fence (a.fenceEntry m p.slot) = .ok (some p.fence) :=
        fun p hp => Area.mem_fencesAt (hfences ▸ hp)
      refine ((List.forall₂_and_left _ _).2 ⟨hmem, hfs⟩).imp fun p e hp => ?_
      obtain ⟨hp, v, rfl⟩ := hp
      exact ⟨_, v, hp, rfl⟩
  · intro s
    by_cases hs : s ∈ plan.fences.map PendingFence.slot
    · exact Area.not_pending_performed hs _
    · unfold Area.applied
      rw [Area.fenceEntry_performed_of_not_mem a hs, Area.fenceEntry_applied]
      exact Bool.eq_false_iff.2 fun hpending => hs ((hmem s).2 hpending)

/-- The state of a plan is the one that the context describes. -/
theorem Area.foundIn_of_plan {autoswap : Bool} (hplan : a.prepareReturn autoswap m = .ok plan) :
    plan.state.FoundIn a m := by
  obtain ⟨hstate, _⟩ := Area.prepareReturn_ok hplan
  have hcontext : ∀ i (hi : i < 64), (a.returnContext m).words[i] = m.read (a.returnBase + i) :=
    fun i hi => Memory.getElem_load m a.returnBase 64 i hi
  rw [Check.trapReturn_ok hstate]
  refine ⟨Registers.get_zero_reg _, fun r hr => ?_, hcontext 32 (by decide), hcontext 33 (by decide)⟩
  have hne : (0 : Nat) ≠ r := fun h => hr (Fin.ext h.symm)
  show ((Vector.ofFn fun i : Fin 32 => (a.returnContext m).words[i.val]).set 0 0)[r.val] = _
  rw [Vector.getElem_set_ne (h := hne), Vector.getElem_ofFn, hcontext]

/-- A plan swaps `hstatus` exactly if it is to and the context says so. -/
theorem Area.swap_of_plan {autoswap : Bool} (hplan : a.prepareReturn autoswap m = .ok plan) :
    plan.swap.isSome = (autoswap && (a.swapContext m).valid) := by
  obtain ⟨_, hswap, _⟩ := Area.prepareReturn_ok hplan
  cases autoswap with
  | false =>
    rw [show plan.swap = none from hswap]
    rfl
  | true => exact Check.swap_isSome hswap

/-! ## Asking for the return -/

/-- Once everything is done, the call is about to ask for the return. -/
theorem Env.departs_of_ready {autoswap : Bool} {w w₁ : World σ} {ws fs rs : List Event}
    {r : ReturnSummary × Word} (hplan : a.prepareReturn autoswap w.memory = .ok plan)
    (hrun : (env.beforeReturn a plan).run w = (.ok r, w₁))
    (hslots : CarriedOut (a.slotTask w.memory) plan.slots ws)
    (hfences : CarriedOut (PendingFence.task a) plan.fences fs) (hread : SwapRead plan.swap r.2 rs)
    (hbefore : w₁.events = w.events ++ (ws ++ fs ++ rs))
    (hmemory : w₁.memory = a.applied w.memory plan.slots plan.fences) :
    env.Departs a autoswap w w₁ plan.state ws fs rs where
  reached := ⟨plan, r, hplan, rfl, hrun⟩
  record := hbefore
  slots := hmemory ▸ Area.slotsDone_of_plan hplan hslots plan.fences
  fences h := by
    subst h
    exact hmemory ▸ Area.fencesDone_of_plan hplan hfences plan.slots
  read e he := by
    have hsome := Area.swap_of_plan hplan
    cases hswap : plan.swap with
    | none =>
      rw [hswap] at hread
      rw [show rs = [] from hread] at he
      cases he
    | some c =>
      rw [hswap] at hread hsome
      rw [show rs = [_] from hread, List.mem_singleton] at he
      exact ⟨(Bool.and_eq_true_iff.1 hsome.symm).1, _, he⟩
  list h := by
    subst h
    obtain ⟨_, _, hnone, _, _⟩ := Area.prepareReturn_ok hplan
    rw [show plan.fences = [] from hnone] at hfences hmemory
    refine ⟨List.forall₂_nil_left_iff.1 hfences, fun s => ?_⟩
    rw [hmemory]
    exact a.fenceEntry_applied w.memory w.memory plan.slots s
  context := by rw [hmemory, Area.swapContext_applied]
  state := Area.foundIn_of_plan hplan

/-- The host is asked for the return once, and without a swap nothing comes after. -/
theorem HandedOver.asked {old : Word} {o : Outcome SyncError Unit} {new : List Event}
    (h : HandedOver a plan old m o new m') :
    ∃ r after, new = .requested (.trapReturn plan.state) r :: after ∧
      (∀ t r', .requested (.trapReturn t) r' ∉ after) ∧ (plan.swap = none → after = [] ∧ m' = m) ∧
      (o = .ok () → ∃ v, r = .done v) := by
  cases h with
  | left hswap => exact ⟨_, _, rfl, fun _ _ h => (nomatch h), fun _ => ⟨rfl, rfl⟩, fun _ => ⟨_, rfl⟩⟩
  | swapped hswap =>
    refine ⟨_, _, rfl, fun _ _ h => ?_, fun hnone => ?_, fun _ => ⟨_, rfl⟩⟩
    · cases List.mem_singleton.1 h
    · cases hswap.symm.trans hnone
  | stayed hfail => exact ⟨_, _, rfl, fun _ _ h => (nomatch h), fun _ => ⟨rfl, rfl⟩, fun h => absurd h (hfail _)⟩
  | notSwapped hswap hfail =>
    refine ⟨_, _, rfl, fun _ _ h => ?_, fun hnone => ?_, fun h => absurd h (hfail _)⟩
    · cases List.mem_singleton.1 h
    · cases hswap.symm.trans hnone

/-- **Pending work is finished before the host is asked to return.** Where it is asked, on a call with any area,
    flags, caller and failures of the host, the record up to there is the slots, then the fences, then the read of
    `hstatus`, all as `Env.Departs` says; without the swap flag nothing comes after. A call that succeeds has
    asked, the host has left, and the counts reported are those of the record. -/
theorem Env.syncReturn_departs (hquiet : env.Quiet) (a : Area) (flags : Word) (caller : Privilege)
    (enabled : Bool) (st : Phase × World σ) :
    (∀ before t r after, ((env.syncReturn a flags caller enabled).run st).2.2.events =
        st.2.events ++ (before ++ .requested (.trapReturn t) r :: after) →
      ∃ w₁ ws fs rs, before = ws ++ fs ++ rs ∧
        env.Departs a (Word.bit flags 0) st.2 w₁ t ws fs rs ∧
        (Word.bit flags 0 = false →
          after = [] ∧ ((env.syncReturn a flags caller enabled).run st).2.2.memory = w₁.memory)) ∧
    (∀ summary, ((env.syncReturn a flags caller enabled).run st).1 = .ok summary →
      ∃ w₁ t ws fs rs v after, ((env.syncReturn a flags caller enabled).run st).2.2.events =
          st.2.events ++ (ws ++ fs ++ rs ++ .requested (.trapReturn t) (.done v) :: after) ∧
        env.Departs a (Word.bit flags 0) st.2 w₁ t ws fs rs ∧
        summary.csrs = ws.length ∧ summary.fences = fs.length ∧
        summary.swapped = (Word.bit flags 0 && (a.swapContext st.2.memory).valid)) := by
  have hends := Env.syncReturn_ends hquiet a flags caller enabled st
  generalize (env.syncReturn a flags caller enabled).run st = out at hends ⊢
  obtain ⟨o, phase, w'⟩ := out
  dsimp only at hends ⊢
  cases hends with
  | refused hfail =>
    refine ⟨fun before t r after h => ?_, fun summary h => absurd h (hfail _)⟩
    cases List.append_eq_nil_iff.1 (List.self_eq_append_right.1 h) |>.2
  | stopped hplan hfail hslots hevents hdone hstays =>
    refine ⟨fun before t r after h => ?_, fun summary h => absurd h (hfail _)⟩
    rw [List.append_cancel_left (hevents.symm.trans h)] at hstays
    exact absurd (List.mem_append_right _ List.mem_cons_self) (hstays t r)
  | @handed plan ws fs rs new old w₁ _ o hplan hrun hslots hfences hread hbefore hmemory hevents hafter =>
    have hdeparts := Env.departs_of_ready hplan hrun hslots hfences hread hbefore hmemory
    obtain ⟨r, after, rfl, honce, hleave, hdone⟩ := hafter.asked
    have hrecord : w'.events =
        st.2.events ++ (ws ++ fs ++ rs ++ .requested (.trapReturn plan.state) r :: after) := by
      rw [hevents, hbefore, List.append_assoc]
    constructor
    · intro before t r' after' h
      -- the request is the only one of its kind, so the record is cut at the same place
      have hpre : ∀ t r, .requested (.trapReturn t) r ∉ ws ++ fs ++ rs := by
        obtain ⟨new, hnew, hstays⟩ := env.beforeReturn_stays a plan st.2
        rw [hrun] at hnew
        rwa [List.append_cancel_left (hnew.symm.trans hbefore)] at hstays
      have hcut := List.append_cancel_left (hrecord.symm.trans h)
      obtain ⟨rfl, hsame, rfl⟩ := (List.append_cons_inj_of_notMem (hpre t r') (honce t r')).1 hcut
      cases hsame
      refine ⟨w₁, ws, fs, rs, rfl, hdeparts, fun hflag => hleave ?_⟩
      rw [← Option.not_isSome_iff_eq_none, Area.swap_of_plan hplan, hflag]
      exact Bool.false_ne_true
    · intro summary h
      cases o with
      | ok x =>
        cases h
        obtain ⟨v, rfl⟩ := hdone rfl
        exact ⟨w₁, plan.state, ws, fs, rs, v, after, hrecord, hdeparts, hslots.length_eq, hfences.length_eq,
          Area.swap_of_plan hplan⟩
      | _ => cases h

/-- Guest memory with an area at address zero. The context to return to holds a register, `hstatus` is to be
    swapped, a slot is dirty and an entry of the fence list is pending. -/
def leaving : Memory :=
  Area.writeCsr ⟨0, 0⟩ CsrNumber.hcounteren 7
    ((((((Memory.zero.write 0 1).write 1 0x1000).write 33 0x200000000).write 64 1).write 65
      0x200000000).write 96 0x8000000000000000)

/-- One slot is written and one fence performed before the host leaves, with the register handed over. -/
theorem Env.syncReturn_departs_leaving :
    (Env.refusing 9).Quiet ∧
    (((Env.refusing 9).syncReturn ⟨0, 0⟩ 1 .supervisor true).run
      (.idle, { state := 0, memory := leaving })).1 = .ok ⟨1, 1, true⟩ ∧
    ∃ w₁ t ws fs rs v after, (((Env.refusing 9).syncReturn ⟨0, 0⟩ 1 .supervisor true).run
        (.idle, { state := 0, memory := leaving })).2.2.events =
          ws ++ fs ++ rs ++ .requested (.trapReturn t) (.done v) :: after ∧
      (Env.refusing 9).Departs ⟨0, 0⟩ true { state := 0, memory := leaving } w₁ t ws fs rs ∧
      ws.length = 1 ∧ fs.length = 1 ∧ t.registers.get 1 = 0x1000 := by
  have hok : (((Env.refusing 9).syncReturn ⟨0, 0⟩ 1 .supervisor true).run
      (.idle, { state := 0, memory := leaving })).1 = .ok ⟨1, 1, true⟩ := by decide +kernel
  obtain ⟨w₁, t, ws, fs, rs, v, after, hrecord, hdeparts, hws, hfs, _⟩ :=
    (Env.syncReturn_departs (Env.refusing_quiet 9) ⟨0, 0⟩ 1 .supervisor true
      (.idle, { state := 0, memory := leaving })).2 _ hok
  have hregister : t.registers.get 1 = 0x1000 := by
    rw [hdeparts.state.registers 1 (by decide)]
    decide +kernel
  exact ⟨Env.refusing_quiet 9, hok, w₁, t, ws, fs, rs, v, after, hrecord, hdeparts, hws.symm, hfs.symm, hregister⟩

end NestedAccel
