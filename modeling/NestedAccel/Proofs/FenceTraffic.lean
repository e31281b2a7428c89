import NestedAccel.Proofs.FenceCalls
import NestedAccel.Proofs.Isolation

/-!
# `NestedAccel.Proofs.FenceTraffic` — no fence is lost, and none is performed twice

A guest hypervisor pushes fences into its list, and the calls of its hart take them out again, some or
all of them, as far as the host carries them out. `Traffic` is every way in which this can go on, in any
order and with any other call in between. At every point the fences pushed so far are, each as often as it
was pushed, the ones that the host has carried out and the ones still pending (`Traffic.accounted`).

A call is followed through the hart by `Hart.Displays`: what comes before the fences is silent, what comes
after them settles nothing, and in between the host sees the plan of the call.
-/

namespace NestedAccel

open Act (Moves)

variable {σ ε ε' α β : Type} {env : Env σ} {cfg : Config} {claimed : List Word}

namespace Hart

variable {a : Area} {w₀ : World σ} {Q : Bool → List Fence → Prop}

/-! ## The plan of a call -/

/-- How much of its plan a call shows: a batch goes through it in turn, and any other call in order. -/
def PlanShown (plan : List Fence) : AccelCall → Bool → List Fence → Prop
  | .batchExecute _ _ => InTurn plan
  | _ => InOrder plan

theorem planShown_aim (plan : List Fence) (call : AccelCall) : Aim (PlanShown plan call) := by
  cases call with
  | batchExecute addr len => exact inTurn_aim plan
  | _ => exact inOrder_aim plan

/-- From every state in which the hart has area `a` and nothing has happened to its fences since `w₀`, the
    host sees fences as `Q` asks. -/
def Displays (a : Area) (w₀ : World σ) (Q : Bool → List Fence → Prop) (x : Act (Hart × World σ) ε α) :
    Prop :=
  ∀ st, st.1.session.area = some a → Silent a w₀ st.2 → Shows Prod.snd a Q x st

theorem Displays.follows_bind {x : Act (Hart × World σ) ε α} {f : α → Act (Hart × World σ) ε β}
    (hQ : Aim Q) (hx : Moves (Follows (some a) (Silent a)) x) (hf : ∀ b, Displays a w₀ Q (f b)) :
    Displays a w₀ Q (x >>= f) := by
  intro st harea hsilent
  obtain ⟨harea', hsilent'⟩ := hx st harea
  refine Shows.settles_bind hQ hsilent'.settles fun b st' hrun => ?_
  rw [hrun] at harea' hsilent'
  exact hf b st' harea' (IsTrans.trans _ _ _ hsilent hsilent')

/-- What asks for no fence has nothing to show. -/
theorem Displays.of_follows {x : Act (Hart × World σ) ε α}
    (hx : Moves (Follows (some a) (Silent a)) x) : Displays a w₀ (InOrder []) x :=
  fun st harea _ => ⟨[], (hx st harea).2.settles, List.prefix_refl _, fun _ => rfl⟩

theorem requireArea_run {st : Hart × World σ} (harea : st.1.session.area = some a) :
    requireArea.run st = (.ok a, st) := by
  unfold requireArea Session.requireArea
  simp only [Act.bind_run, Act.gets_run, Act.next_ok, harea]
  rfl

/-- The synchronization call that a hart makes, and what is counted after it. -/
theorem Displays.requireArea_bind {x : Area → Act (Phase × World σ) ε α} {e : ε → SbiError}
    {k : α → Act (Hart × World σ) SbiError β} (hQ : Aim Q)
    (hx : ∀ st, Silent a w₀ st.2 → Shows Prod.snd a Q (x a) st)
    (hk : ∀ r st, ((k r).run st).2.2 = st.2) :
    Displays a w₀ Q (requireArea >>= fun a => (onPhase (x a)).mapError e >>= k) := by
  intro st harea hsilent
  have hphase : Shows Prod.snd a Q (onPhase (x a)) st := hx (st.1.phase, st.2) hsilent
  unfold Shows
  rw [Act.bind_run, requireArea_run harea, Act.next_ok]
  refine (hphase.mapError e).bind_settles hQ fun r st' => ?_
  rw [hk]
  exact .refl a st'.2

section
variable (hquiet : env.Quiet)
include hquiet

theorem syncHfences_displays (index : Word) :
    Displays a w₀ (InOrder (a.selected w₀.memory (.syncHfence index))) (syncHfences env index) :=
  .follows_bind (inOrder_aim _) (count_follows _ _) fun _ =>
    .requireArea_bind (inOrder_aim _) (fun _ hsilent => Env.syncHfences_shows hquiet index hsilent)
      fun _ _ => rfl

theorem syncReturn_displays (flags : Word) (caller : Privilege) :
    Displays a w₀ (InOrder (a.selected w₀.memory (.syncSret flags)))
      (syncReturn env cfg flags caller) :=
  .follows_bind (inOrder_aim _) (count_follows _ _) fun _ =>
    .requireArea_bind (inOrder_aim _)
      (fun _ hsilent => Env.syncReturn_shows hquiet flags caller _ hsilent) fun _ _ => rfl

theorem silent_message (w : World σ) (console : Console) : Silent a w { w with console } :=
  .of_reaches hquiet (Relation.ReflTransGen.single (.message w console))

theorem runBatch_displays (hmap : env.Faithful)
    (hclear : ∀ b, env.InBatch cfg.maxBatch claimed b → ¬a.Owns b) (id addr len : Word) :
    Displays a w₀ (InTurn (a.selected w₀.memory (.batchExecute addr len)))
      (runBatch env cfg id claimed addr len) := by
  have haim := inTurn_aim (a.selected w₀.memory (.batchExecute addr len))
  rw [runBatch_eq]
  refine .follows_bind haim (count_follows _ _) fun _ => fun st harea hsilent => ?_
  refine Shows.settles_bind haim (.refl a st.2) fun area st' hread => ?_
  obtain ⟨rfl, rfl⟩ := Act.run_gets_ok hread
  rw [harea]
  have hruns : Shows Prod.snd a (InTurn (a.selected w₀.memory (.batchExecute addr len)))
      (onWorld (env.runBatch cfg.harts cfg.maxBatch (some a) claimed addr len)) st' :=
    Env.runBatch_shows hquiet hmap hclear addr len hsilent
  refine hruns.attempt_bind haim (fun r st => ?_) fun e st => rfl
  -- counters and messages are all that is left
  exact (reportBatch_follows (silent_message hquiet) id addr r st rfl).2.settles

theorem syncCsrs_silent (mask : SlotMask) (a' : Area) (ha : some a = some a') (st : Phase × World σ) :
    Silent a st.2 ((env.syncCsrs a' mask).run st).2.2 := by
  cases ha
  exact Env.syncCsrs_silent hquiet a mask st

/-- Apart from the calls that perform fences, everything that a call does is silent. -/
theorem permits_silent {call : AccelCall} (hhfences : ∀ index, call ≠ .syncHfence index)
    (hsret : ∀ flags, call ≠ .syncSret flags) (hbatch : ∀ addr len, call ≠ .batchExecute addr len) :
    Permits env cfg claimed (some a) call (Silent a) where
  message := silent_message hquiet
  csrs low high _ := syncCsrs_silent hquiet ⟨low, high⟩
  hfences index hcall := absurd hcall (hhfences index)
  sret flags hcall := absurd hcall (hsret flags)
  batch _ addr len hcall := absurd hcall (hbatch addr len)
  inject _ _ _ _ _ _ _ := Env.request_silent hquiet rfl

theorem drain_silent : Moves (Follows (some a) (Silent a)) (drain env) :=
  drain_follows (syncCsrs_silent hquiet .all)

variable (hmap : env.Faithful) (hclear : ∀ b, env.InBatch cfg.maxBatch claimed b → ¬a.Owns b)
include hmap hclear

theorem perform_displays (id : Word) (caller : Privilege) (call : AccelCall) :
    Displays a w₀ (PlanShown (a.selected w₀.memory call) call)
      (perform env cfg id claimed caller call) := by
  have hfeature : ∀ f, Moves (Follows (some a) (Silent a))
      (requireFeature cfg f : Act (Hart × World σ) SbiError Unit) := requireFeature_follows
  cases call with
  | syncHfence index =>
    exact .follows_bind (inOrder_aim _) (hfeature _) fun _ => syncHfences_displays hquiet index
  | syncSret flags =>
    exact .follows_bind (inOrder_aim _) (hfeature _) fun _ => syncReturn_displays hquiet flags caller
  | batchExecute addr len =>
    exact .follows_bind (inTurn_aim _) (hfeature _) fun _ =>
      runBatch_displays hquiet hmap hclear id addr len
  | _ =>
    exact .of_follows (perform_follows (permits_silent hquiet (by simp) (by simp) (by simp)) id caller)

theorem dispatch_displays (id : Word) (caller : Privilege) (call : AccelCall) :
    Displays a w₀ (PlanShown (a.selected w₀.memory call) call)
      (dispatch env cfg id claimed caller call) := by
  unfold dispatch
  split
  · exact perform_displays hquiet hmap hclear id caller call
  · exact .follows_bind (planShown_aim _ _) (drain_silent hquiet) fun _ =>
      perform_displays hquiet hmap hclear id caller call

/-- **A call shows its plan,** and the list settles. -/
theorem handle_displays (id : Word) (caller : Privilege) (call : AccelCall) :
    Displays a w₀ (PlanShown (a.selected w₀.memory call) call)
      (handle env cfg id claimed caller call) := by
  rw [handle_eq]
  refine .follows_bind (planShown_aim _ _) (logMessage_follows (silent_message hquiet) _ _) fun _ =>
    fun st harea hsilent => ?_
  refine (dispatch_displays hquiet hmap hclear id caller call st harea hsilent).attempt_bind
    (planShown_aim _ _) (fun r st => ?_) fun e st => ?_
  · exact (conclude_follows (silent_message hquiet) id call r st rfl).2.settles
  · cases e <;> rfl

end

end Hart

/-! ## Traffic -/

/-- What a guest hypervisor and its hart can do from `start` on, where the hart has area `a`: the fences
    for which a push has found a free entry, and what has become of the hart and the world. -/
inductive Traffic (env : Env σ) (cfg : Config) (id : Word) (a : Area) (start : Hart × World σ) :
    Multiset Fence → Hart × World σ → Prop where
  /-- Nothing has happened yet. -/
  | nothing : Traffic env cfg id a start 0 start
  /-- The guest hypervisor pushes an entry that passes its check. -/
  | push {pushed : Multiset Fence} {h : Hart} {w : World σ} {e : FenceEntry} {f : Fence}
    (before : Traffic env cfg id a start pushed (h, w)) (he : Check.fence e = .ok (some f)) :
    Traffic env cfg id a start
      (if (a.pushFence e w.memory).1.isSome then f ::ₘ pushed else pushed)
      (h, { w with memory := (a.pushFence e w.memory).2 })
  /-- The hart answers a call, which may end in any way. -/
  | call {pushed : Multiset Fence} {st : Hart × World σ}
    (before : Traffic env cfg id a start pushed st) (claimed : List Word) (hclaimed : a.gpa ∈ claimed)
    (caller : Privilege) (call : AccelCall) :
    Traffic env cfg id a start pushed ((Hart.handle env cfg id claimed caller call).run st).2
  /-- The host's state changes, and guest memory apart from the fence list. -/
  | elsewhere {pushed : Multiset Fence} {h : Hart} {w : World σ}
    (before : Traffic env cfg id a start pushed (h, w)) (state : σ) {memory : Memory}
    (hkept : ∀ b, a.InFenceList b → memory.read b = w.memory.read b) :
    Traffic env cfg id a start pushed (h, { w with state, memory })

section
variable {id gpa : Word} {start st : Hart × World σ} {pushed : Multiset Fence}

/-- No word of an area belongs to the array of a batch that has been mapped next to it. -/
theorem Area.ofGuest_not_inBatch (hmap : env.Faithful) (hcfg : cfg.validate = .ok ())
    (haligned : gpa % areaAlign = 0) (hclaimed : gpa ∈ claimed) {b : Nat}
    (hb : env.InBatch cfg.maxBatch claimed b) : ¬(Area.ofGuest gpa).Owns b := by
  intro howns
  obtain ⟨_, _, _, hmax⟩ := Config.validate_ok hcfg
  have hpage := toNat_mod_page haligned
  have hword : 8 * b / 8 = b := Nat.mul_div_cancel_left b (by decide)
  rw [← hword] at howns hb
  exact Platform.not_inBatch_of_claimed hmap hmax hpage hclaimed
    (Platform.inRange_of_owns rfl hpage howns) hb

/-- What a call does to the fences of the hart's area. -/
theorem Hart.handle_shows (hquiet : env.Quiet) (hmap : env.Faithful) (hcfg : cfg.validate = .ok ())
    (haligned : gpa % areaAlign = 0) (hclaimed : gpa ∈ claimed)
    (harea : st.1.session.area = some (.ofGuest gpa)) (id : Word) (caller : Privilege)
    (call : AccelCall) :
    Shows Prod.snd (.ofGuest gpa)
      (PlanShown ((Area.ofGuest gpa).selected st.2.memory call) call)
      (handle env cfg id claimed caller call) st :=
  handle_displays hquiet hmap
    (fun _ hb => Area.ofGuest_not_inBatch hmap hcfg haligned hclaimed hb) id caller call st harea
    (refl_of _ st.2)

/-- What holds at every point of the traffic. -/
theorem Traffic.balance (hquiet : env.Quiet) (hmap : env.Faithful) (hcfg : cfg.validate = .ok ())
    (haligned : gpa % areaAlign = 0) (harea : start.1.session.area = some (.ofGuest gpa))
    (hempty : ∀ s, ((Area.ofGuest gpa).fenceEntry start.2.memory s).pending = false)
    (run : Traffic env cfg id (.ofGuest gpa) start pushed st) :
    st.1.session.area = some (.ofGuest gpa) ∧ (Area.ofGuest gpa).ListValid st.2.memory ∧
      ∃ new, st.2.events = start.2.events ++ new ∧
        pushed = fencesDone new + (Area.ofGuest gpa).pendingOf st.2.memory := by
  -- on the traffic: a push adds to both sides, and a call moves fences from the list to the record
  induction run with
  | nothing =>
    refine ⟨harea, fun s => Area.fenceValid_of_not_pending (hempty s), [], (List.append_nil _).symm, ?_⟩
    rw [Area.pendingOf_eq_zero hempty]
    rfl
  | @push pushed h w e f before he ih =>
    obtain ⟨hhart, hvalid, new, hevents, hpushed⟩ := ih
    rcases (Area.ofGuest gpa).pushFence_cases e w.memory with ⟨s, hpush, hfree⟩ | hpush
    · rw [hpush]
      refine ⟨hhart, fun t => Area.fenceValid_fillFence he (hvalid t), new, hevents, ?_⟩
      rw [Area.pendingOf_fillFence hfree he, hpushed]
      exact (if_pos rfl).trans (Multiset.add_cons f _ _).symm
    · rw [hpush]
      exact ⟨hhart, hvalid, new, hevents, hpushed⟩
  | @call pushed st before claimed hclaimed caller call ih =>
    obtain ⟨hhart, hvalid, new, hevents, hpushed⟩ := ih
    obtain ⟨seen, hsettles, _⟩ :=
      Hart.handle_shows hquiet hmap hcfg haligned hclaimed hhart id caller call
    obtain ⟨more, hmore, _, hdone⟩ := hsettles.record
    refine ⟨?_, hsettles.valid hvalid, new ++ more, ?_, ?_⟩
    · exact (Hart.handle_moves id caller call st).1.trans hhart
    · rw [hmore, hevents, List.append_assoc]
    · rw [hpushed, fencesDone_append, ← Multiset.coe_add, add_assoc, hdone]
  | @elsewhere pushed h w before state memory hkept ih =>
    obtain ⟨hhart, hvalid, new, hevents, hpushed⟩ := ih
    have hsame := fun s => Area.fenceEntry_congr hkept s
    refine ⟨hhart, fun s => (Area.fenceValid_congr (hsame s)).2 (hvalid s), new, hevents, ?_⟩
    rw [hpushed, Area.pendingOf_congr fun s => Area.fence?_congr (hsame s)]

/-- **No fence is lost, and none is performed twice.** Whatever the traffic, the fences pushed are the ones
    that the host has carried out and the ones that the pending entries ask for. A push fails only if
    every entry is pending. In any call, the host sees the fences selected in the order in which the call
    goes through them. -/
theorem Traffic.accounted (hquiet : env.Quiet) (hmap : env.Faithful) (hcfg : cfg.validate = .ok ())
    (haligned : gpa % areaAlign = 0) (harea : start.1.session.area = some (.ofGuest gpa))
    (hempty : ∀ s, ((Area.ofGuest gpa).fenceEntry start.2.memory s).pending = false)
    (run : Traffic env cfg id (.ofGuest gpa) start pushed st) :
    let a := Area.ofGuest gpa
    (∃ new, st.2.events = start.2.events ++ new ∧
      pushed = fencesDone new + a.pendingOf st.2.memory) ∧
    (∀ s, (a.fenceEntry st.2.memory s).pending = true →
      ∃ f, Check.fence (a.fenceEntry st.2.memory s) = .ok (some f)) ∧
    (∀ e, (a.pushFence e st.2.memory).1 = none ↔ ∀ s, (a.fenceEntry st.2.memory s).pending = true) ∧
    ∀ claimed, gpa ∈ claimed → ∀ caller call,
      let out := (Hart.handle env cfg id claimed caller call).run st
      ∃ new, out.2.2.events = st.2.events ++ new ∧
        Hart.PlanShown (a.selected st.2.memory call) call out.1.isOk (fencesSeen new) := by
  obtain ⟨hhart, hvalid, hbalance⟩ := run.balance hquiet hmap hcfg haligned harea hempty
  refine ⟨hbalance, fun s hs => Area.exists_fence_of_pending (hvalid s) hs,
    fun e => Area.pushFence_eq_none e, fun claimed hclaimed caller call => ?_⟩
  obtain ⟨seen, hsettles, hplan⟩ :=
    Hart.handle_shows hquiet hmap hcfg haligned hclaimed hhart id caller call
  obtain ⟨new, hevents, rfl, _⟩ := hsettles.record
  exact ⟨new, hevents, hplan⟩

/-- A push that finds a free entry. -/
theorem Traffic.push_free {a : Area} {h : Hart} {w : World σ} {e : FenceEntry} {f : Fence}
    (before : Traffic env cfg id a start pushed (h, w)) (he : Check.fence e = .ok (some f))
    (hfree : (a.pushFence e w.memory).1.isSome = true) :
    Traffic env cfg id a start (f ::ₘ pushed)
      (h, { w with memory := (a.pushFence e w.memory).2 }) :=
  if_pos (t := f ::ₘ pushed) (e := pushed) hfree ▸ before.push he

/-- Three pushes, with a call after the second of which the host refuses the second fence. The third push
    fills the entry that the call has freed. -/
theorem Traffic.accounted_entry_reused :
    let a := Area.ofGuest 0x3000
    let start : Hart × World Nat :=
      ({ session := { area := some a } }, { state := 0, memory := .zero })
    let fence (asid : UInt16) : Fence := ⟨.vvma, some 1, some asid, none⟩
    ∃ st, Traffic (Env.refusing 1) {} 0 a start (fence 9 ::ₘ fence 8 ::ₘ fence 7 ::ₘ 0) st ∧
      a.fence? st.2.memory 0 = some (fence 9) ∧
      ∃ new, st.2.events = start.2.events ++ new ∧ fencesDone new = [fence 7] ∧
        fence 9 ::ₘ fence 8 ::ₘ fence 7 ::ₘ 0 = fencesDone new + a.pendingOf st.2.memory := by
  intro a start fence
  let entry (asid : UInt16) : FenceEntry := .make .vvma 1 asid 0 0
  have hstart : Traffic (Env.refusing 1) {} 0 a start 0 start := .nothing
  have hseven := hstart.push_free (e := entry 7) (f := fence 7) (by decide +kernel) (by decide +kernel)
  have height := hseven.push_free (e := entry 8) (f := fence 8) (by decide +kernel) (by decide +kernel)
  have hcall := height.call [0x3000] (List.mem_singleton.2 rfl) .supervisor
    (.syncHfence FenceSelect.allIndex)
  have hnine := hcall.push_free (e := entry 9) (f := fence 9) (by decide +kernel) (by decide +kernel)
  refine ⟨_, hnine, by decide +kernel, ?_⟩
  obtain ⟨⟨new, hnew, hbalance⟩, _⟩ := hnine.accounted (Env.refusing_quiet 1) (Env.refusing_faithful 1)
    (by decide) (by decide) rfl (by decide +kernel)
  refine ⟨new, hnew, ?_, hbalance⟩
  rw [List.nil_append] at hnew
  rw [← hnew]
  decide +kernel

/-- A batch that names entry 1 and then entry 0. The host sees the fence of entry 1 before the one of
    entry 0, so not in the order of the list. -/
theorem Traffic.batch_out_of_list_order :
    let a := Area.ofGuest 0x3000
    let named (s : Word) : Descriptor := ⟨3, s, 0, 0⟩
    let start : Hart × World Nat :=
      ({ session := { area := some a } },
        { state := 0, memory := (named 0).store 4100 ((named 1).store 4096 .zero) })
    let fence (asid : UInt16) : Fence := ⟨.vvma, some 1, some asid, none⟩
    (∀ s, (a.fenceEntry start.2.memory s).pending = false) ∧
    ∃ st, Traffic (Env.refusing 9) {} 0 a start (fence 8 ::ₘ fence 7 ::ₘ 0) st ∧
      (List.finRange 56).filterMap (a.fence? st.2.memory) = [fence 7, fence 8] ∧
      ∃ out, (Hart.handle (Env.refusing 9) {} 0 [0x3000] .supervisor (.batchExecute 0x8000 2)).run st =
          (.ok (.value 2), out) ∧
        ∃ new, out.2.events = st.2.events ++ new ∧ fencesSeen new = [fence 8, fence 7] := by
  intro a named start fence
  let entry (asid : UInt16) : FenceEntry := .make .vvma 1 asid 0 0
  have hstart : Traffic (Env.refusing 9) {} 0 a start 0 start := .nothing
  have hseven := hstart.push_free (e := entry 7) (f := fence 7) (by decide +kernel) (by decide +kernel)
  have height := hseven.push_free (e := entry 8) (f := fence 8) (by decide +kernel) (by decide +kernel)
  refine ⟨by decide +kernel, _, height, by decide +kernel, _, Prod.ext ?_ rfl, _, rfl, ?_⟩
  · decide +kernel
  · decide +kernel

end

end NestedAccel
