import NestedAccel.Proofs.FenceRuns
import NestedAccel.Proofs.Validation
import NestedAccel.Sbi.Call

/-!
# `NestedAccel.Proofs.FenceCalls` — the fences of a synchronization call and of a batch

`Area.selected` is the plan of a call. A synchronization call selects pending entries and goes through
them in list order, so the host sees its plan from the start and up to the first failure. A batch selects
entries one by one, by descriptors that name them, and goes through them in the order of its descriptors;
an entry named twice is performed a second time only if the first attempt has failed.

The plan is read off guest memory as it was before the call. What comes before the fences (`Silent`)
changes neither the list nor the descriptors of a batch, which lie outside the area.
-/

namespace NestedAccel

open World (Reaches)
open Act (Moves)

variable {σ ε α β : Type} {env : Env σ} {a : Area} {m : Memory} {w₀ w : World σ}

/-! ## Plans -/

/-- The entry of the fence list that the descriptor names. -/
def Descriptor.named? (d : Descriptor) : Option FenceSlot :=
  match BatchOp.ofDescriptor? d with
  | some (.hfence i) => FenceSlot.ofIndex? i
  | _ => none

/-- The entries of the fence list that the descriptors at the given words name, in their order. -/
def entriesAt (m : Memory) (ps : List Nat) : List FenceSlot :=
  ps.filterMap fun p => (Descriptor.load m p).named?

/-- The fences that a call selects, in the order in which it goes through them. -/
def Area.selected (a : Area) (m : Memory) : AccelCall → List Fence
  | .syncHfence index =>
    match FenceSelect.ofIndex index with
    | .ok select => select.slots.filterMap (a.fence? m)
    | .error _ => []
  | .syncSret flags => (if Word.bit flags 0 then FenceSelect.all.slots else []).filterMap (a.fence? m)
  | .batchExecute addr count =>
    (entriesAt m ((List.range count.toNat).map (Descriptor.position (addr.toNat / 8)))).filterMap
      (a.fence? m)
  | _ => []

theorem Area.pendingFences_eq {slots : List FenceSlot} {fences : List PendingFence}
    (h : a.pendingFences m slots = .ok fences) : fences = a.fencesAt m slots := by
  have hvalid : ∀ s ∈ slots, a.FenceValid m s := Area.pendingFences_ok_iff.1 ⟨fences, h⟩
  rw [Area.pendingFences_ok hvalid] at h
  exact (Except.ok.inj h).symm

theorem FenceSelect.slots_nodup (select : FenceSelect) : select.slots.Nodup :=
  select.slots_pairwise.imp ne_of_lt

/-! ## Synchronization calls -/

/-- A synchronization call shows what its second phase shows. -/
theorem inPhases_shows {Q : Bool → List Fence → Prop} (hQ : Aim Q)
    {prepare : Memory → Except SyncError β} {apply : β → Act (World σ) SyncError α}
    {st : Phase × World σ}
    (h : ∀ b, prepare st.2.memory = .ok b → Shows (fun w => w) a Q (apply b) st.2) :
    Shows Prod.snd a Q (inPhases prepare apply) st := by
  rcases st with ⟨phase, w⟩
  cases phase with
  -- an earlier call was abandoned, so this one is refused
  | checking => exact ⟨[], .refl a w, hQ.nothing⟩
  | applying => exact ⟨[], .refl a w, hQ.nothing⟩
  | idle =>
    unfold Shows
    rw [inPhases_run_idle]
    cases hp : prepare w.memory with
    | error e => exact ⟨[], .refl a w, hQ.nothing⟩
    | ok b =>
      obtain ⟨seen, hseen, hq⟩ := h b hp
      dsimp only at hseen hq ⊢
      revert hseen hq
      rcases (apply b).run w with ⟨r | e | _, w'⟩ <;> exact fun hseen hq => ⟨seen, hseen, hq⟩

/-- Captured fences are shown in list order. -/
theorem Env.performFences_shows (hquiet : env.Quiet) (hsilent : Silent a w₀ w)
    {slots : List FenceSlot} (hslots : slots.Nodup) (hm : ∀ s, a.fence? m s = a.fence? w₀.memory s) :
    Shows (fun w => w) a (InOrder (slots.filterMap (a.fence? w₀.memory)))
      (env.performFences a (a.fencesAt m slots)) w := by
  have hsame : ∀ s, a.fence? w.memory s = a.fence? m s :=
    fun s => (hsilent.settles.fence?_eq s).trans (hm s).symm
  obtain ⟨seen, hseen, horder, _⟩ := Env.performFences_settles hquiet hslots hsame
  rw [funext hm] at horder
  exact ⟨seen, hseen, horder⟩

theorem Env.syncHfences_shows (hquiet : env.Quiet) (index : Word) {st : Phase × World σ}
    (hsilent : Silent a w₀ st.2) :
    Shows Prod.snd a (InOrder (a.selected w₀.memory (.syncHfence index))) (env.syncHfences a index)
      st := by
  refine inPhases_shows (inOrder_aim _) fun fences h => ?_
  obtain ⟨select, hselect, hpending⟩ := Area.of_prepareFences h
  have hplan : a.selected w₀.memory (.syncHfence index) = select.slots.filterMap (a.fence? w₀.memory) := by
    rw [Area.selected, hselect]
  rw [hplan, Area.pendingFences_eq hpending]
  exact (Env.performFences_shows hquiet hsilent select.slots_nodup
    fun s => hsilent.settles.fence?_eq s).mapError _

/-- The entries of which the fences are to be performed on a trap return. -/
theorem Area.prepareReturn_fences {autoswap : Bool} {plan : ReturnPlan}
    (h : a.prepareReturn autoswap m = .ok plan) :
    plan.fences = a.fencesAt m (if autoswap then FenceSelect.all.slots else []) := by
  obtain ⟨_, _, hfences, _, _⟩ := Area.prepareReturn_ok h
  cases autoswap with
  | true => exact Area.pendingFences_eq hfences
  | false => exact hfences

theorem Env.applyReturn_shows (hquiet : env.Quiet) (hsilent : Silent a w₀ w) {autoswap : Bool}
    {plan : ReturnPlan} (h : a.prepareReturn autoswap w.memory = .ok plan) :
    Shows (fun w => w) a
      (InOrder ((if autoswap then FenceSelect.all.slots else []).filterMap (a.fence? w₀.memory)))
      (env.applyReturn a plan) w := by
  have haim := inOrder_aim
    ((if autoswap then FenceSelect.all.slots else []).filterMap (a.fence? w₀.memory))
  have hslots : (if autoswap then FenceSelect.all.slots else []).Nodup := by
    cases autoswap with
    | true => exact FenceSelect.all.slots_nodup
    | false => exact List.nodup_nil
  -- neither the CSRs that come before the fences nor the return that comes after touch the list
  have hbefore := Env.applySlots_silent hquiet a plan.slots w
  have hleave : Moves (Reaches env (fun q => q.fence? = none) (fun b => ¬a.InFenceList b))
      (env.leave a plan.state plan.swap) :=
    Env.leave_moves a.not_inFenceList_swapValue rfl rfl fun _ _ => rfl
  refine Shows.settles_bind haim hbefore.settles fun n w' hrun => ?_
  rw [hrun] at hbefore
  refine Shows.bind_settles haim ?_ fun k w'' => ?_
  · rw [Area.prepareReturn_fences h]
    exact (Env.performFences_shows hquiet (IsTrans.trans _ _ _ hsilent hbefore) hslots
      fun s => hsilent.settles.fence?_eq s).mapError _
  · exact .of_reaches hquiet ((hleave.bind fun _ => Moves.pure _) w'')

theorem Env.syncReturn_shows (hquiet : env.Quiet) (flags : Word) (caller : Privilege) (enabled : Bool)
    {st : Phase × World σ} (hsilent : Silent a w₀ st.2) :
    Shows Prod.snd a (InOrder (a.selected w₀.memory (.syncSret flags)))
      (env.syncReturn a flags caller enabled) st := by
  rcases env.syncReturn_cases a flags caller enabled with ⟨e, _, he⟩ | hphases
  · rw [he]
    exact Shows.fail (inOrder_aim _) e st
  · rw [hphases]
    exact inPhases_shows (inOrder_aim _) fun plan h => Env.applyReturn_shows hquiet hsilent h

/-! ## Descriptors -/

theorem entriesAt_singleton (m : Memory) (p : Nat) :
    entriesAt m [p] = (Descriptor.load m p).named?.toList :=
  (filterMap_cons_append _ p []).trans (List.append_nil _)

theorem entriesAt_append (m : Memory) (ps qs : List Nat) :
    entriesAt m (ps ++ qs) = entriesAt m ps ++ entriesAt m qs := List.filterMap_append

/-- A descriptor is made of four words. -/
theorem Descriptor.load_eq {m' : Memory} {p : Nat}
    (h : ∀ b, p ≤ b ∧ b < p + 4 → m'.read b = m.read b) :
    Descriptor.load m' p = Descriptor.load m p := by
  unfold Descriptor.load
  rw [h p (by omega), h (p + 1) (by omega), h (p + 2) (by omega), h (p + 3) (by omega)]

theorem entriesAt_eq {m' : Memory} {ps : List Nat}
    (h : ∀ p ∈ ps, Descriptor.load m' p = Descriptor.load m p) : entriesAt m' ps = entriesAt m ps :=
  List.filterMap_congr fun p hp => congrArg _ (h p hp)

section
variable {harts : Nat}

/-- Nothing more is seen after a computation than in it, if what comes then settles nothing. -/
theorem Settles.bind_nothing {x : Act (World σ) ε α} {f : α → Act (World σ) ε β} {seen : List Fence}
    (hx : Settles a seen w (x.run w).2) (hf : ∀ b, Moves (Settles a []) (f b)) :
    Settles a seen w ((x >>= f).run w).2 := by
  rw [Act.bind_run]
  rcases hr : x.run w with ⟨r, w'⟩
  rw [hr] at hx
  cases r with
  | ok b =>
    have htrans := hx.trans (hf b w')
    rwa [List.append_nil] at htrans
  | error e => exact hx
  | abandoned => exact hx

/-- An entry that is refused asks for nothing. -/
theorem Area.fence?_of_pendingFences_error {s : FenceSlot} {e : FenceError}
    (h : a.pendingFences m [s] = .error e) : a.fence? m s = none := by
  rcases a.fenceValid_or_refused m s with hvalid | ⟨r, hr⟩
  · have hok : a.pendingFences m [s] = .ok (a.fencesAt m [s]) :=
      Area.pendingFences_ok fun t ht => List.mem_singleton.1 ht ▸ hvalid
    cases hok.symm.trans h
  · unfold Area.fence?
    rw [hr]

/-- Of a plan of one fence at most, the host sees all if it sees the start and the first. -/
theorem eq_toList_of_prefix {o : Option Fence} {seen : List Fence} (hstart : seen <+: o.toList)
    (hhead : seen.head? = o.toList.head?) : seen = o.toList := by
  cases o with
  | none => exact List.prefix_nil.1 hstart
  | some f =>
    cases seen with
    | nil => cases hhead
    | cons g more =>
      obtain ⟨rfl, hmore⟩ := List.cons_prefix_cons.1 hstart
      rw [List.prefix_nil.1 hmore]
      rfl

/-- The host sees the fence of the entry, if it has one to perform. -/
theorem Env.syncFences_settles (hquiet : env.Quiet) (s : FenceSlot) (w : World σ) :
    Settles a ([s].filterMap (a.fence? w.memory)) w ((env.syncFences a (.entry s)).run w).2 := by
  have hplan : [s].filterMap (a.fence? w.memory) = (a.fence? w.memory s).toList := by
    rw [filterMap_cons_append, List.filterMap_nil, List.append_nil]
  obtain ⟨seen, hsettles, ⟨hstart, _⟩, hhead⟩ :=
    Env.performFences_settles hquiet (List.nodup_singleton s) (a := a) (w := w) fun _ => rfl
  rw [hplan] at hstart hhead ⊢
  obtain rfl := eq_toList_of_prefix hstart hhead
  unfold Env.syncFences
  rw [readMemory, Act.bind_run, Act.gets_run, Act.next_ok]
  cases hpending : a.pendingFences w.memory (FenceSelect.entry s).slots with
  | ok fences =>
    rw [Area.pendingFences_eq hpending]
    exact hsettles
  | error e =>
    rw [Area.fence?_of_pendingFences_error hpending]
    exact .refl a w

/-- The host sees the fence of the entry that the descriptor names. -/
theorem Env.runDescriptorOp_settles (hquiet : env.Quiet) (d : Descriptor) (w : World σ) :
    Settles a (d.named?.toList.filterMap (a.fence? w.memory)) w
      ((env.runDescriptorOp harts a d).run w).2 := by
  unfold Env.runDescriptorOp Descriptor.named?
  cases BatchOp.ofDescriptor? d with
  | none => exact .refl a w
  | some op =>
    cases op with
    | csrRead n | csrWrite n v | injectInterrupt kind number target =>
      exact (Moves.check (fun _ _ => ((Env.request_silent hquiet rfl).mapError _).bind fun _ =>
        Moves.pure _) w : Silent a w _).settles
    | hfence i =>
      unfold Env.runOp Check.fenceSlot
      dsimp only
      cases FenceSlot.ofIndex? i with
      | none => exact .refl a w
      | some s =>
        have hfences : Settles a ([s].filterMap (a.fence? w.memory)) w
            (((env.syncFences a (.entry s)).mapError FenceError.sbi).run w).2 := by
          rw [Act.mapError_run_snd]
          exact Env.syncFences_settles hquiet s w
        exact hfences.bind_nothing fun n => Moves.pure (OpResult.fences n)

/-- The host sees the fence of the entry that the descriptor names, and the report goes elsewhere. -/
theorem Env.runDescriptor_settles (hquiet : env.Quiet) {p : Nat}
    (hout : ∀ b, p ≤ b ∧ b < p + 4 → ¬a.Owns b) (w : World σ) :
    Settles a ((entriesAt w.memory [p]).filterMap (a.fence? w.memory)) w
      ((env.runDescriptor harts a p : Act (World σ) ε Tally).run w).2 := by
  have hop : Settles a ((Descriptor.load w.memory p).named?.toList.filterMap (a.fence? w.memory)) w
      ((env.runDescriptorOp harts a (Descriptor.load w.memory p)).run w).2 :=
    Env.runDescriptorOp_settles hquiet _ w
  rw [entriesAt_singleton]
  unfold Env.runDescriptor
  rw [readMemory, Act.bind_run, Act.gets_run, Act.next_ok]
  refine Settles.bind_nothing (by rwa [Act.attempt_run_snd]) fun r => ?_
  refine Moves.bind (fun w' => ?_) fun _ => ?_
  · refine .of_reaches hquiet (changeMemory_moves (fun m b hb => ?_) w')
    exact Descriptor.read_report p r m fun h => hb fun hlist => hout b h (Area.owns_of_inFenceList hlist)
  · cases r with
    | ok r => exact Moves.pure _
    | error e => exact Moves.pure _

/-- A later descriptor is as it was. -/
theorem Env.load_runDescriptor (hquiet : env.Quiet) {p q : Nat} (hpq : p + 4 ≤ q)
    (hout : ∀ b, q ≤ b ∧ b < q + 4 → ¬a.Owns b) (w : World σ) :
    Descriptor.load ((env.runDescriptor harts a p : Act (World σ) ε Tally).run w).2.memory q =
      Descriptor.load w.memory q := by
  have hreach : Reaches env (Request.Legal harts) (fun b => a.Owns b ∨ p ≤ b ∧ b < p + 4) w
      ((env.runDescriptor harts a p : Act (World σ) ε Tally).run w).2 :=
    Env.runDescriptor_moves (fun s => .inl (a.owns_fenceBase s)) (fun _ hb => .inr hb) w
  refine Descriptor.load_eq fun b hb => hreach.read_eq hquiet ?_
  rintro (howns | hown)
  · exact hout b hb howns
  · omega

/-- Where one function gives what another gives, or nothing, it keeps a part of a list. -/
theorem filterMap_sublist {ι : Type} {f g : ι → Option β} (l : List ι)
    (h : ∀ i, g i = f i ∨ g i = none) : (l.filterMap g).Sublist (l.filterMap f) := by
  induction l with
  | nil => exact List.Sublist.refl _
  | cons i rest ih =>
    rw [filterMap_cons_append, filterMap_cons_append]
    rcases h i with hi | hi
    · rw [hi]
      exact ih.append_left _
    · rw [hi]
      exact ih.trans (List.sublist_append_right _ _)

/-- What has been seen of a plan when the rest of it did not run. -/
theorem inTurn_start (first rest : List Fence) : InTurn (first ++ rest) false first :=
  ⟨List.sublist_append_left _ _, fun h => by cases h⟩

/-- The rest of a plan is gone through after its first part. An entry that is no longer pending then is
    passed over, and its fence has been seen. -/
theorem InTurn.after {first seen : List Fence} {w' : World σ} {slots : List FenceSlot} {ok : Bool}
    (hfirst : Settles a first w w') (h : InTurn (slots.filterMap (a.fence? w'.memory)) ok seen) :
    InTurn (first ++ slots.filterMap (a.fence? w.memory)) ok (first ++ seen) := by
  obtain ⟨hsub, hall⟩ := h
  refine ⟨(List.Sublist.refl _).append (hsub.trans (filterMap_sublist _ fun s => ?_)),
    fun hok f hf => ?_⟩
  · exact (hfirst.entries s).imp id And.left
  · rcases List.mem_append.1 hf with hf | hf
    · exact List.mem_append_left _ hf
    · obtain ⟨s, hs, hsf⟩ := List.mem_filterMap.1 hf
      rcases hfirst.entries s with hsame | ⟨_, g, hg, hsg⟩
      · exact List.mem_append_right _ (hall hok f (List.mem_filterMap.2 ⟨s, hs, hsame.trans hsf⟩))
      · cases hsf.symm.trans hsg
        exact List.mem_append_left _ hg

/-- **Descriptors are gone through in their order.** -/
theorem Env.runDescriptors_shows (hquiet : env.Quiet) {ps : List Nat}
    (hapart : ps.Pairwise fun p q => p + 4 ≤ q)
    (hout : ∀ p ∈ ps, ∀ b, p ≤ b ∧ b < p + 4 → ¬a.Owns b) (w : World σ) :
    Shows (fun w => w) a (InTurn ((entriesAt w.memory ps).filterMap (a.fence? w.memory)))
      (env.runDescriptors harts a ps : Act (World σ) ε Tally) w := by
  induction ps generalizing w with
  | nil => exact ⟨[], .refl a w, List.nil_sublist _, fun _ f hf => absurd hf List.not_mem_nil⟩
  | cons p rest ih =>
    obtain ⟨hp, hrest⟩ := List.pairwise_cons.1 hapart
    have hfirst : Settles a ((entriesAt w.memory [p]).filterMap (a.fence? w.memory)) w
        ((env.runDescriptor harts a p : Act (World σ) ε Tally).run w).2 :=
      Env.runDescriptor_settles hquiet (hout p List.mem_cons_self) w
    have hlater : ∀ q ∈ rest,
        Descriptor.load ((env.runDescriptor harts a p : Act (World σ) ε Tally).run w).2.memory q =
          Descriptor.load w.memory q :=
      fun q hq => Env.load_runDescriptor hquiet (hp q hq) (hout q (List.mem_cons_of_mem p hq)) w
    have hplan : entriesAt w.memory (p :: rest) = entriesAt w.memory [p] ++ entriesAt w.memory rest :=
      entriesAt_append _ [p] rest
    rw [hplan, List.filterMap_append]
    unfold Env.runDescriptors Shows
    rw [Act.bind_run]
    rcases hr : (env.runDescriptor harts a p : Act (World σ) ε Tally).run w with ⟨r, w'⟩
    rw [hr] at hfirst hlater
    cases r with
    | error e => exact ⟨_, hfirst, inTurn_start _ _⟩
    | abandoned => exact ⟨_, hfirst, inTurn_start _ _⟩
    | ok t =>
      obtain ⟨seen, hseen, hrests⟩ := ih hrest (fun q hq => hout q (List.mem_cons_of_mem p hq)) w'
      rw [entriesAt_eq hlater] at hrests
      rw [Act.next_ok, Act.run_bind_pure, Outcome.isOk_map]
      exact ⟨_ ++ seen, hfirst.trans hseen, hrests.after hfirst⟩

/-! ## Batches -/

/-- The words of a descriptor lie within the array. -/
theorem Descriptor.position_bounds {base count p : Nat}
    (hp : p ∈ (List.range count).map (Descriptor.position base)) :
    base ≤ p ∧ p + 4 ≤ base + 4 * count := by
  obtain ⟨i, hi, rfl⟩ := List.mem_map.1 hp
  have hi := List.mem_range.1 hi
  unfold Descriptor.position
  omega

theorem Descriptor.positions_apart (base count : Nat) :
    ((List.range count).map (Descriptor.position base)).Pairwise fun p q => p + 4 ≤ q := by
  refine List.pairwise_map.2 (List.pairwise_lt_range.imp fun {i j} hij => ?_)
  unfold Descriptor.position
  omega

/-- What is silent leaves a plan over descriptors outside the area as it is. -/
theorem Silent.plan_eq (h : Silent a w₀ w) {ps : List Nat}
    (hout : ∀ p ∈ ps, ∀ b, p ≤ b ∧ b < p + 4 → ¬a.Owns b) :
    (entriesAt w.memory ps).filterMap (a.fence? w.memory) =
      (entriesAt w₀.memory ps).filterMap (a.fence? w₀.memory) := by
  rw [funext h.settles.fence?_eq, entriesAt_eq fun p hp => Descriptor.load_eq fun b hb =>
    h.outside b (hout p hp b hb)]

theorem Env.runMapped_shows (hquiet : env.Quiet) (addr : Word) (count : Nat) (mapping : Mapping)
    (hout : ∀ b, mapping.base ≤ b ∧ b < mapping.base + 4 * count → ¬a.Owns b) (w : World σ) :
    Shows (fun w => w) a
      (InTurn ((entriesAt w.memory ((List.range count).map
        (Descriptor.position mapping.base))).filterMap (a.fence? w.memory)))
      (env.runMapped harts a addr count mapping) w := by
  unfold Env.runMapped
  split
  · exact Shows.fail (inTurn_aim _) _ w
  · refine Shows.settles_bind (inTurn_aim _) (.refl a w) fun u w' hread => ?_
    obtain ⟨rfl, rfl⟩ := Act.run_gets_ok hread
    split
    · exact Shows.fail (inTurn_aim _) _ w'
    · refine Env.runDescriptors_shows hquiet (Descriptor.positions_apart _ _) (fun p hp b hb => ?_) w'
      have hbounds := Descriptor.position_bounds hp
      exact hout b (by omega)

/-- **A batch goes through the entries that its descriptors name,** in the order of the descriptors. -/
theorem Env.runBatch_shows (hquiet : env.Quiet) (hmap : env.Faithful) {maxBatch : Nat}
    {claimed : List Word} (hclear : ∀ b, env.InBatch maxBatch claimed b → ¬a.Owns b)
    (addr count : Word) (hsilent : Silent a w₀ w) :
    Shows (fun w => w) a (InTurn (a.selected w₀.memory (.batchExecute addr count)))
      (env.runBatch harts maxBatch (some a) claimed addr count) w := by
  have haim := inTurn_aim (a.selected w₀.memory (.batchExecute addr count))
  rcases env.runBatch_cases harts maxBatch a claimed addr count with
    ⟨_, e, hrefused⟩ | ⟨_, hzero, hempty⟩ | ⟨hadmitted, hsome, hruns⟩
  · rw [hrefused]
    exact Shows.fail haim e w
  · rw [hempty]
    refine ⟨[], .refl a w, List.nil_sublist _, fun _ f hf => ?_⟩
    rw [hzero] at hf
    cases hf
  · rw [hruns]
    have hmapped : Silent a w
        (((env.mapRange addr (Descriptor.arrayBytes count)).mapError BatchError.map).run w).2 := by
      rw [Act.mapError_run_snd]
      exact .of_reaches hquiet (Env.mapRange_moves _ _ w)
    refine Shows.settles_bind haim hmapped.settles fun m w' hrun => ?_
    rw [hrun] at hmapped
    have hm := World.mapRange_run_ok (Act.run_mapError_ok hrun)
    have hbase : m.base = addr.toNat / 8 := by rw [Mapping.base, hmap _ _ _ m hm]
    have hout : ∀ b, m.base ≤ b ∧ b < m.base + 4 * count.toNat → ¬a.Owns b := fun b hb =>
      hclear b (Env.inBatch_of_mapped hadmitted hsome hm b hb)
    have hshows : Shows (fun w => w) a _ (env.runMapped harts a addr count.toNat m) w' :=
      Env.runMapped_shows hquiet addr count.toNat m hout w'
    have hwhole : Silent a w₀ w' := IsTrans.trans _ _ _ hsilent hmapped
    rw [hwhole.plan_eq fun p hp b hb => hout b (by
      have hbounds := Descriptor.position_bounds hp
      omega), hbase] at hshows
    refine Shows.attempt_bind haim hshows (fun r st => ?_) fun e st => rfl
    exact .of_reaches hquiet (((unmapRange_moves _ _).bind fun _ => Moves.ofExcept r) st)

end

end NestedAccel
