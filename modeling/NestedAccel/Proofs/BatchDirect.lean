import NestedAccel.Proofs.BatchSplit
import NestedAccel.Proofs.Delivery

/-!
# `NestedAccel.Proofs.BatchDirect` — an operation of a batch is the call for the same thing

Fences and injections can be asked for in two ways, by a call of their own or by a descriptor of a batch. The two
have decoders, checks and errors of their own, and the call goes through the phases of a synchronization besides.

`BatchOp.call?` is the call that asks for what an operation asks for. It does what the operation does
(`Hart.EndsAs`), and a batch of one descriptor does it and reports how it has ended (`Hart.Reports`). Both are said
of `Env.runOp`, so that what is left to compare is the status that is reported with the code that is returned, and
**`Platform.ecall_batch_agrees`** follows for every host, whatever it replies and whatever it does to guest memory.

There is one operand on which the two ways differ by design: a call can ask for the whole fence list, a descriptor
cannot.
-/

namespace NestedAccel

variable {σ η ε : Type} {env : Env σ} {a : Area} {w : World σ}

/-! ## Operands -/

/-- A kind and a number that share an operand are found in it. -/
theorem unpack_injection {kind number : Word} (hkind : kind.toNat < 2 ^ 32) (hnumber : number.toNat < 2 ^ 32) :
    (kind <<< 32 ||| number) >>> 32 = kind ∧ (kind <<< 32 ||| number) &&& 0xffffffff = number := by
  have hpacked : (kind <<< 32 ||| number).toNat = kind.toNat * 2 ^ 32 + number.toNat := by
    have hshift : (kind <<< 32).toNat = kind.toNat <<< 32 := by
      rw [UInt64.toNat_shiftLeft]
      show kind.toNat <<< 32 % 2 ^ 64 = _
      rw [Nat.shiftLeft_eq, Nat.mod_eq_of_lt (by omega)]
    rw [UInt64.toNat_or, hshift, ← Nat.shiftLeft_add_eq_or_of_lt hnumber, Nat.shiftLeft_eq]
  constructor
  · apply UInt64.toNat_inj.1
    rw [UInt64.toNat_shiftRight, hpacked]
    show (kind.toNat * 2 ^ 32 + number.toNat) >>> 32 = _
    rw [Nat.shiftRight_eq_div_pow]
    omega
  · apply UInt64.toNat_inj.1
    rw [UInt64.toNat_and, hpacked]
    show (kind.toNat * 2 ^ 32 + number.toNat) &&& (2 ^ 32 - 1) = _
    rw [Nat.and_two_pow_sub_one_eq_mod]
    omega

/-- The call that asks for what the operation asks for. The index that selects the whole fence list is not that of
    an entry, and an operation is for one entry. -/
def BatchOp.call? : BatchOp → Option AccelCall
  | hfence i => if i = FenceSelect.allIndex then none else some (.syncHfence i)
  | injectInterrupt kind number target => some (.injectInterrupt kind number target)
  | _ => none

/-- Two operations can be asked for by a call. -/
theorem BatchOp.call?_cases {op : BatchOp} {call : AccelCall} (h : op.call? = some call) :
    (∃ i, i ≠ FenceSelect.allIndex ∧ op = .hfence i ∧ call = .syncHfence i) ∨
    (∃ kind number target, op = .injectInterrupt kind number target ∧
      call = .injectInterrupt kind number target) := by
  cases op with
  | csrRead n => cases h
  | csrWrite n v => cases h
  | hfence i =>
    by_cases hi : i = FenceSelect.allIndex
    · cases (if_pos hi).symm.trans h
    · cases (if_neg hi).symm.trans h
      exact .inl ⟨i, hi, rfl, rfl⟩
  | injectInterrupt kind number target =>
    cases h
    exact .inr ⟨kind, number, target, rfl, rfl⟩

/-! ## Fences -/

/-- Performing one entry of the fence list in a call is performing it, and the phase is idle again unless the host
    does not come back. -/
theorem Env.syncHfences_run_entry {i : Word} {s : FenceSlot} (hi : FenceSelect.ofIndex i = .ok (.entry s))
    (w : World σ) :
    (env.syncHfences a i).run (.idle, w) =
      match (env.syncFences a (.entry s)).run w with
      | (.ok n, w') => (.ok n, (.idle, w'))
      | (.error e, w') => (.error (.fence e), (.idle, w'))
      | (.abandoned, w') => (.abandoned, (.applying, w')) := by
  unfold Env.syncHfences Env.syncFences
  rw [inPhases_run_idle, readMemory, Act.bind_run, Act.gets_run, Act.next_ok, Area.prepareFences, hi]
  dsimp only
  cases a.pendingFences w.memory (FenceSelect.entry s).slots with
  | error e => rfl
  | ok fences =>
    rw [Act.ofExcept_ok, pure_bind]
    dsimp only
    rw [Act.mapError_run]
    rcases (env.performFences a fences).run w with ⟨_ | _ | _, w'⟩ <;> rfl

namespace Hart

variable {cfg : Config} {claimed : List Word} {call : AccelCall} {op : BatchOp} {h : Hart}

/-! ## The call itself -/

/-- A call ends as an operation has ended, on a world that differs in the console only. Neither has read a
    value. -/
inductive EndsAs :
    Outcome SbiError OpResult × World σ → Outcome SbiError CallResult × (Hart × World σ) → Prop where
  | ok {r : OpResult} {w : World σ} (hr : ∀ v, r ≠ .value v) (v : Word) (h : Hart) (console : Console) :
    EndsAs (.ok r, w) (.ok (.value v), (h, { w with console }))
  | error (e : SbiError) (w : World σ) (h : Hart) (console : Console) :
    EndsAs (.error e, w) (.error e, (h, { w with console }))
  | abandoned (w : World σ) (h : Hart) (console : Console) :
    EndsAs (.abandoned, w) (.abandoned, (h, { w with console }))

/-- What is left to do once a call has been answered changes the console and the counters only. -/
theorem EndsAs.handle (hnone : h.drainArea? = none) (id : Word) (caller : Privilege)
    {r : Outcome SbiError OpResult × World σ}
    (hends : EndsAs r ((perform env cfg id claimed caller call).run (h, announced id call w))) :
    EndsAs r ((handle env cfg id claimed caller call).run (h, w)) := by
  rw [handle_run_undrained env cfg id claimed caller (.inr hnone), undrained, Act.bind_run, Act.attempt_run]
  generalize (perform env cfg id claimed caller call).run (h, announced id call w) = r' at hends
  cases hends with
  | ok hr v h' console => exact .ok hr v h' console
  | error e w' h' console =>
    obtain ⟨console', hconclude⟩ := conclude_error_run id call e h' { w' with console }
    dsimp only
    rw [Act.next_ok, hconclude]
    exact .error e w' _ console'
  | abandoned w' h' console => exact .abandoned w' h' console

theorem runOp_injectInterrupt (harts : Nat) (kind number target : Word) :
    env.runOp harts a (.injectInterrupt kind number target) = do
      let injection ← (Act.ofExcept (Check.injection harts kind number target)).mapError Refusal.sbi
      let _ ← (env.request (.inject injection)).mapError HostError.sbi
      return .interrupt := rfl

theorem runOp_hfence (harts : Nat) (i : Word) :
    env.runOp harts a (.hfence i) = do
      let slot ← (Act.ofExcept (Check.fenceSlot i)).mapError Refusal.sbi
      return .fences (← (env.syncFences a (.entry slot)).mapError FenceError.sbi) := rfl

/-- The call for an injection makes the request that the operation makes. -/
theorem inject_endsAs (kind number target : Word) (h : Hart) (w : World σ) :
    EndsAs ((env.runOp cfg.harts a (.injectInterrupt kind number target)).run w)
      ((inject env cfg kind number target).run (h, w)) := by
  rw [runOp_injectInterrupt, inject]
  cases Check.injection cfg.harts kind number target with
  | error r => exact .error r.sbi w h w.console
  | ok i =>
    rw [Act.ofExcept_ok, Act.ofExcept_ok, Act.mapError_pure, Act.mapError_pure, pure_bind, pure_bind,
      Act.bind_run, Act.bind_run, Act.mapError_run, Act.mapError_run, onWorld, Act.onSecond_run]
    rcases (env.request (.inject i)).run w with ⟨v | e | _, w'⟩
    · have hvalue : ∀ v, OpResult.interrupt ≠ .value v := fun _ h => OpResult.noConfusion h
      exact .ok hvalue 0 _ w'.console
    · exact .error e.sbi w' h w'.console
    · exact .abandoned w' h w'.console

/-- The call for a fence performs what the operation performs. -/
theorem syncHfences_endsAs (harea : h.session.area = some a) (hphase : h.phase = .idle) {i : Word}
    (hi : i ≠ FenceSelect.allIndex) (harts : Nat) (w : World σ) :
    EndsAs ((env.runOp harts a (.hfence i)).run w) ((syncHfences env i).run (h, w)) := by
  have hcounted : (syncHfences env i).run (h, w) =
      (requireArea >>= fun a => ((onPhase (env.syncHfences a i)).mapError SyncError.sbi) >>= fun n =>
        count .hfencesApplied n >>= fun _ => pure (CallResult.value (.ofNat n))).run
        ({ h with counters := h.counters.add .syncHfenceCalls (.ofNat 1) }, w) := rfl
  rw [hcounted, requireArea_bind_run (by exact harea)]
  dsimp only
  rw [hphase, runOp_hfence, Check.fenceSlot]
  cases hslot : FenceSlot.ofIndex? i with
  | none =>
    have hselect : FenceSelect.ofIndex i = .error (.badIndex i) := by
      unfold FenceSelect.ofIndex
      rw [if_neg hi, hslot]
    have hrefused : a.prepareFences i w.memory = .error (.fence (.badIndex i)) := by
      unfold Area.prepareFences
      rw [hselect]
    rw [Env.syncHfences, inPhases_run_error hrefused]
    exact .error .invalidParam w _ w.console
  | some s =>
    have hselect : FenceSelect.ofIndex i = .ok (.entry s) := by
      unfold FenceSelect.ofIndex
      rw [if_neg hi, hslot]
    rw [Env.syncHfences_run_entry hselect, Act.ofExcept_ok, Act.mapError_pure, pure_bind, Act.bind_run,
      Act.mapError_run]
    rcases (env.syncFences a (.entry s)).run w with ⟨n | e | _, w'⟩
    · have hvalue : ∀ v, OpResult.fences n ≠ .value v := fun _ h => OpResult.noConfusion h
      exact .ok hvalue _ _ w'.console
    · exact .error e.sbi w' _ w'.console
    · exact .abandoned w' _ w'.console

/-- A feature that is on is no obstacle. -/
theorem requireFeature_on {f : Feature} (hf : cfg.features.contains f = true)
    (x : Act (Hart × World σ) SbiError CallResult) : (requireFeature cfg f >>= fun _ => x) = x := by
  unfold requireFeature
  rw [if_pos hf, pure_bind]

/-- **The call ends as the operation does,** where there is no drain before it and its feature is on. -/
theorem handle_endsAs (hfeatures : ∀ f, cfg.features.contains f = true) (hnone : h.drainArea? = none)
    (harea : h.session.area = some a) (hphase : h.phase = .idle) (hcall : op.call? = some call) (id : Word)
    (caller : Privilege) (w : World σ) :
    EndsAs ((env.runOp cfg.harts a op).run (announced id call w))
      ((handle env cfg id claimed caller call).run (h, w)) := by
  refine EndsAs.handle hnone id caller ?_
  obtain ⟨i, hi, rfl, rfl⟩ | ⟨kind, number, target, rfl, rfl⟩ := BatchOp.call?_cases hcall
  · have hperform : perform env cfg id claimed caller (.syncHfence i) = syncHfences env i :=
      requireFeature_on (hfeatures _) _
    rw [hperform]
    exact syncHfences_endsAs harea hphase hi cfg.harts _
  · have hperform : perform env cfg id claimed caller (.injectInterrupt kind number target) =
        inject env cfg kind number target := requireFeature_on (hfeatures _) _
    rw [hperform]
    exact inject_endsAs kind number target h _

/-! ## The batch -/

/-- A batch has run one operation and has reported at word `p` how it has ended. -/
inductive Reports (view : σ → η) (p : Nat) :
    Outcome SbiError OpResult × World σ → Outcome SbiError CallResult × (Hart × World σ) → Prop where
  | ok {r : OpResult} {w w' : World σ}
    (hw : World.Alike view w' { w with memory := Descriptor.report p (.ok r) w.memory }) (v : Word) (h : Hart) :
    Reports view p (.ok r, w) (.ok (.value v), (h, w'))
  | error {e : SbiError} {w w' : World σ}
    (hw : World.Alike view w' { w with memory := Descriptor.report p (.error e) w.memory }) (v : Word)
    (h : Hart) : Reports view p (.error e, w) (.ok (.value v), (h, w'))
  | abandoned {w w' : World σ} (hw : World.Alike view w' w) (h : Hart) :
    Reports view p (.abandoned, w) (.abandoned, (h, w'))

/-- A descriptor with a known tag runs its operation. -/
theorem runDescriptors_single_run {p : Nat} (hop : BatchOp.ofDescriptor? (Descriptor.load w.memory p) = some op)
    (harts : Nat) :
    (env.runDescriptors harts a [p] : Act (World σ) ε Tally).run w =
      match (env.runOp harts a op).run w with
      | (.ok r, w') => (.ok (r.tally + {}), { w' with memory := Descriptor.report p (.ok r) w'.memory })
      | (.error e, w') =>
        (.ok (.ofError e + {}), { w' with memory := Descriptor.report p (.error e) w'.memory })
      | (.abandoned, w') => (.abandoned, w') := by
  rw [Env.runDescriptors_cons, Act.bind_run, Env.runDescriptor_run, Env.runDescriptorOp, hop]
  dsimp only
  rcases (env.runOp harts a op).run w with ⟨_ | _ | _, w'⟩ <;> rfl

/-- **A batch of one descriptor runs its operation and reports it,** where there is no drain before it. -/
theorem handle_single_reports {view : σ → η} (hview : env.HostPart view)
    (hfeatures : ∀ f, cfg.features.contains f = true) (hnone : h.drainArea? = none)
    (harea : h.session.area = some a) {addr : Word} {p : Nat} (hplaced : BatchPlaced cfg.maxBatch claimed addr 1)
    (hshown : env.Shows addr 1 w.state p)
    (hop : BatchOp.ofDescriptor? (Descriptor.load w.memory p) = some op) (id : Word) (caller : Privilege) :
    Reports view p ((env.runOp cfg.harts a op).run (announced id (.batchExecute addr 1) w))
      ((handle env cfg id claimed caller (.batchExecute addr 1)).run (h, w)) := by
  have harray : Descriptor.array p (1 : Word).toNat = [p] := rfl
  have hknown : Descriptor.Known (announced id (.batchExecute addr 1) w).memory p (1 : Word).toNat := by
    intro q hq
    rw [harray] at hq
    obtain rfl := List.mem_singleton.1 hq
    have htag := BatchOp.tag_eq hop
    show BatchTag.ofCode? (Descriptor.load w.memory q).tag ≠ none
    rw [htag]
    exact Option.some_ne_none _
  have hmatches := Env.runBatch_matches (w := announced id (.batchExecute addr 1) w) hview hplaced.admitted
    (by decide) hshown hknown cfg.harts a
  rw [harray, runDescriptors_single_run (by exact hop)] at hmatches
  obtain ⟨counters, console, hrun⟩ :=
    handle_run_batch env cfg id claimed caller addr 1 (hfeatures _) hnone w
  rw [hrun, harea]
  generalize (env.runOp cfg.harts a op).run (announced id (.batchExecute addr 1) w) = ending at hmatches
  rcases ending with ⟨r | e | _, w₁⟩
  · obtain ⟨w', hbatch, hw⟩ := hmatches.ok
    rw [hbatch]
    have halike : World.Alike view { w' with console }
      { w₁ with memory := Descriptor.report p (.ok r) w₁.memory } := ⟨hw.state, hw.memory, hw.callbacks⟩
    exact .ok halike _ _
  · obtain ⟨w', hbatch, hw⟩ := hmatches.ok
    rw [hbatch]
    have halike : World.Alike view { w' with console }
      { w₁ with memory := Descriptor.report p (.error e) w₁.memory } := ⟨hw.state, hw.memory, hw.callbacks⟩
    exact .error halike _ _
  · obtain ⟨w', hbatch, hw⟩ := hmatches.abandoned
    rw [hbatch]
    have halike : World.Alike view { w' with console } w₁ := ⟨hw.state, hw.memory, hw.callbacks⟩
    exact .abandoned halike _

end Hart

namespace Platform

variable {p : Platform} {h : Hart} {id addr : Word} {base : Nat} {view : σ → η} {op : BatchOp}
  {call : AccelCall} {rs rb : Registers}

/-! ## The two ways -/

/-- The calls that ask for operations are answered by a hart. -/
theorem produce_of_call? (hcall : op.call? = some call) (caller : Privilege) :
    produce env id caller (.accel call) = handle env id caller call := by
  obtain ⟨_, _, _, rfl⟩ | ⟨_, _, _, _, rfl⟩ := BatchOp.call?_cases hcall <;> rfl

/-- World `w'` is world `w` with status `v` reported in the descriptor at word `base`, and neither the host nor the
    guest finds another difference: the host has had the same callbacks and is in the same state, and the rest of
    guest memory is the same, the fence list in particular. -/
structure StatusReported (view : σ → η) (a : Area) (base : Nat) (v : Word) (w w' : World σ) : Prop where
  status : (Descriptor.load w'.memory base).ret = v
  callbacks : callbacks w'.events = callbacks w.events
  state : view w'.state = view w.state
  memory : ∀ b, b ≠ base + 3 → w'.memory.read b = w.memory.read b
  fences : ∀ s, a.fenceEntry w'.memory s = a.fenceEntry w.memory s

theorem StatusReported.of_alike {v : Word} {w w' : World σ} (hapart : ¬a.Owns (base + 3))
    (hw : World.Alike view w' { w with memory := Descriptor.setStatus base v w.memory }) :
    StatusReported view a base v w w' := by
  have hmemory : w'.memory = w.memory.write (base + 3) v := hw.memory
  have hother : ∀ b, b ≠ base + 3 → w'.memory.read b = w.memory.read b := by
    intro b hb
    rw [hmemory, Memory.read_write_of_ne hb]
  refine ⟨?_, hw.callbacks, hw.state, hother, fun s => Area.fenceEntry_eq fun k hk => hother _ ?_⟩
  · show w'.memory.read (base + 3) = v
    rw [hmemory, Memory.read_write_same]
  · -- an area owns the entries of its fence list
    intro heq
    refine hapart (heq ▸ ?_)
    unfold Area.Owns Area.fenceBase Area.words
    omega

/-- How a call that asks for an operation ends, beside a batch that runs the operation as its one descriptor, at
    word `base`. -/
inductive BatchAgrees (view : σ → η) (a : Area) (base : Nat) :
    Outcome ε (EcallAction × Registers) × (Platform × World σ) →
      Outcome ε (EcallAction × Registers) × (Platform × World σ) → Prop where
  /-- The host does not come back, to neither. -/
  | lost {st st' : Platform × World σ} (hw : World.Alike view st'.2 st.2) :
    BatchAgrees view a base (.abandoned, st) (.abandoned, st')
  /-- The batch has run. The status of the descriptor is what the call returns in `a0`, and that is all that
      differs. -/
  | returned {action action' : EcallAction} {rs rs' : Registers} {st st' : Platform × World σ}
    (hrun : ∃ v, rs'.result = .ok v) (hw : StatusReported view a base (rs.get Reg.a0) st.2 st'.2) :
    BatchAgrees view a base (.ok (action, rs), st) (.ok (action', rs'), st')

/-- An environment call that a hart answers ends as the answer does. -/
theorem ecall_run_hart (hh : p.hart? id = some h) (hrs : Call.ofRegisters rs = .ok (.accel call))
    {caller : Privilege} (hproduce : produce env id caller (.accel call) = handle env id caller call)
    (w : World σ) :
    (ecall env id caller rs : Act _ ε _).run (p, w) =
      match (Hart.handle env p.config id p.claimed caller call).run (h, w) with
      | (.ok r, (h', w')) => (.ok (.of (.ok r), (EcallAction.of (.ok r)).deliver rs), (p.setHart id h', w'))
      | (.error e, (h', w')) =>
        (.ok (.of (.error e), (EcallAction.of (.error e)).deliver rs), (p.setHart id h', w'))
      | (.abandoned, (h', w')) => (.abandoned, (p.setHart id h', w')) := by
  rw [ecall_run_call hrs (Option.isSome_iff_exists.2 ⟨h, hh⟩) caller, hproduce, Act.bind_run, Act.attempt_run,
    handle_run env hh]
  rcases (Hart.handle env p.config id p.claimed caller call).run (h, w) with ⟨_ | _ | _, _, _⟩ <;> rfl

section
variable (hview : env.HostPart view) (hh : p.hart? id = some h) (harea : h.session.area = some a)
  (hmode : h.session.mode = .deferred) (hfeatures : ∀ f, p.config.features.contains f = true)
  (hplaced : BatchPlaced p.config.maxBatch p.claimed addr 1) (hapart : ¬a.Owns (base + 3))
  (hshown : env.Shows addr 1 w.state base) (hrb : Call.ofRegisters rb = .ok (.accel (.batchExecute addr 1)))
include hview hh harea hmode hfeatures hplaced hapart hshown hrb

/-- A batch of one descriptor agrees with the call for the same thing. -/
theorem ecall_agrees (hphase : h.phase = .idle)
    (hop : BatchOp.ofDescriptor? (Descriptor.load w.memory base) = some op) (hcall : op.call? = some call)
    (hrs : Call.ofRegisters rs = .ok (.accel call)) (caller : Privilege) :
    BatchAgrees view a base ((ecall env id caller rs : Act _ ε _).run (p, w))
      ((ecall env id caller rb : Act _ ε _).run (p, w)) := by
  have hnone : h.drainArea? = none := Hart.drainArea?_eq_none (.inl hmode)
  rw [ecall_run_hart hh hrs (produce_of_call? hcall caller), ecall_run_hart hh hrb rfl]
  have hends : Hart.EndsAs ((env.runOp p.config.harts a op).run (Hart.announced id call w))
      ((Hart.handle env p.config id p.claimed caller call).run (h, w)) :=
    Hart.handle_endsAs hfeatures hnone harea hphase hcall id caller w
  have hreports := Hart.handle_single_reports hview hfeatures hnone harea hplaced hshown hop id caller
  -- the operation is the same, on worlds that differ in the console
  have hrespects : Act.Respects (World.Alike view) (env.runOp p.config.harts a op) :=
    Env.runOp_respects hview op
  have hsame := hrespects (Hart.announced id (.batchExecute addr 1) w) (Hart.announced id call w)
    ⟨rfl, rfl, rfl⟩
  generalize (env.runOp p.config.harts a op).run (Hart.announced id call w) = od at hends hsame
  generalize (env.runOp p.config.harts a op).run (Hart.announced id (.batchExecute addr 1) w) = ob
    at hreports hsame
  generalize (Hart.handle env p.config id p.claimed caller call).run (h, w) = direct at hends
  generalize (Hart.handle env p.config id p.claimed caller (.batchExecute addr 1)).run (h, w) = batch
    at hreports
  obtain ⟨houtcome, hw⟩ := hsame
  cases hends with
  | @ok r w₁ hr v h₁ console =>
    cases hreports with
    | @ok r' w₂ w' hw' v' h₂ =>
      cases houtcome
      -- no value was read, so the status is all that is reported
      have hreport : Descriptor.report base (.ok r) w₂.memory = Descriptor.setStatus base 0 w₂.memory := by
        cases r with
        | value u => exact absurd rfl (hr u)
        | _ => rfl
      rw [hreport] at hw'
      have halike : World.Alike view w₂ { w₁ with console } := ⟨hw.state, hw.memory, hw.callbacks⟩
      have ha0 := Return.get_a0_deliver (.success v) rs
      refine .returned ⟨v', Registers.result_success v' rb⟩ (ha0 ▸ .of_alike hapart ?_)
      exact trans_of _ hw' (halike.change (Descriptor.setStatus base 0))
    | error _ _ _ => cases houtcome
    | abandoned _ _ => cases houtcome
  | error e w₁ h₁ console =>
    cases hreports with
    | ok _ _ _ => cases houtcome
    | @error e' w₂ w' hw' v' h₂ =>
      cases houtcome
      have halike : World.Alike view w₂ { w₁ with console } := ⟨hw.state, hw.memory, hw.callbacks⟩
      have ha0 := Return.get_a0_deliver (.failure e) rs
      refine .returned ⟨v', Registers.result_success v' rb⟩ (ha0 ▸ .of_alike hapart ?_)
      exact trans_of _ hw' (halike.change (Descriptor.setStatus base e.word))
    | abandoned _ _ => cases houtcome
  | abandoned w₁ h₁ console =>
    cases hreports with
    | ok _ _ _ => cases houtcome
    | error _ _ _ => cases houtcome
    | @abandoned w₂ w' hw' h₂ =>
      have halike : World.Alike view w₂ { w₁ with console } := ⟨hw.state, hw.memory, hw.callbacks⟩
      exact .lost (trans_of _ hw' halike)

/-- An operation that is refused before anything is done has its error reported, and that is all. -/
theorem ecall_refuses (hop : BatchOp.ofDescriptor? (Descriptor.load w.memory base) = some op) {e : SbiError}
    (hrefused : ∀ w, (env.runOp p.config.harts a op).run w = (.error e, w)) (caller : Privilege) :
    ∃ action rs' st', (ecall env id caller rb : Act _ ε _).run (p, w) = (.ok (action, rs'), st') ∧
      (∃ v, rs'.result = .ok v) ∧ StatusReported view a base e.word w st'.2 := by
  have hnone : h.drainArea? = none := Hart.drainArea?_eq_none (.inl hmode)
  have hreports := Hart.handle_single_reports hview hfeatures hnone harea hplaced hshown hop id caller
  rw [hrefused] at hreports
  rw [ecall_run_hart hh hrb rfl]
  generalize (Hart.handle env p.config id p.claimed caller (.batchExecute addr 1)).run (h, w) = batch
    at hreports
  cases hreports with
  | error hw v h' =>
    exact ⟨_, _, _, rfl, ⟨v, Registers.result_success v rb⟩,
      .of_alike hapart ⟨hw.state, hw.memory, hw.callbacks⟩⟩

end

/-- **An operation of a batch is the call for the same thing.** Take a hart in deferred mode that has an area, is
    between calls, and has every feature on; a batch of one descriptor, whose array is one that a batch may have
    and is clear of the words of the hart's own area; and any host, which may refuse, change guest memory, or not
    come back at all.

    An injection whose kind and number share the first operand, and a fence of one entry, agree with the calls for
    them, valid or not: the host has the same callbacks, the fence list is changed in the same way, and the status
    of the descriptor is what the call returns in `a0`. The operand that stands for the whole fence list in a call
    is refused in a batch, and the list is left alone. -/
theorem ecall_batch_agrees (hview : env.HostPart view) (hh : p.hart? id = some h)
    (harea : h.session.area = some a) (hmode : h.session.mode = .deferred) (hphase : h.phase = .idle)
    (hfeatures : ∀ f, p.config.features.contains f = true)
    (hplaced : BatchPlaced p.config.maxBatch p.claimed addr 1)
    (hapart : ∀ b, base ≤ b ∧ b < base + 4 → ¬a.Owns b) (hshown : env.Shows addr 1 w.state base)
    (hrb : Call.ofRegisters rb = .ok (.accel (.batchExecute addr 1))) (caller : Privilege) :
    let d := Descriptor.load w.memory base
    let run (rs : Registers) := (ecall env id caller rs : Act _ ε _).run (p, w)
    (∀ (kind number target : Word) (rs : Registers), kind.toNat < 2 ^ 32 → number.toNat < 2 ^ 32 →
      BatchTag.ofCode? d.tag = some .injectInterrupt → d.arg0 = kind <<< 32 ||| number → d.arg1 = target →
      Call.ofRegisters rs = .ok (.accel (.injectInterrupt kind number target)) →
      BatchAgrees view a base (run rs) (run rb)) ∧
    (∀ (i : Word) (rs : Registers), i ≠ FenceSelect.allIndex → BatchTag.ofCode? d.tag = some .hfence → d.arg0 = i →
      Call.ofRegisters rs = .ok (.accel (.syncHfence i)) → BatchAgrees view a base (run rs) (run rb)) ∧
    (BatchTag.ofCode? d.tag = some .hfence → d.arg0 = FenceSelect.allIndex →
      ∃ action rs' st', run rb = (.ok (action, rs'), st') ∧ (∃ v, rs'.result = .ok v) ∧
        StatusReported view a base SbiError.invalidParam.word w st'.2) := by
  intro d run
  have hstatus : ¬a.Owns (base + 3) := hapart (base + 3) (by omega)
  refine ⟨fun kind number target rs hkind hnumber htag harg0 harg1 hrs => ?_,
    fun i rs hi htag harg0 hrs => ?_, fun htag harg0 => ?_⟩
  · obtain ⟨hkind', hnumber'⟩ := unpack_injection hkind hnumber
    have hop : BatchOp.ofDescriptor? d = some (.injectInterrupt kind number target) := by
      unfold BatchOp.ofDescriptor?
      rw [htag, harg0, harg1, hkind', hnumber']
    exact ecall_agrees hview hh harea hmode hfeatures hplaced hstatus hshown hrb hphase hop rfl hrs caller
  · have hop : BatchOp.ofDescriptor? d = some (.hfence i) := by
      unfold BatchOp.ofDescriptor?
      rw [htag, harg0]
    exact ecall_agrees hview hh harea hmode hfeatures hplaced hstatus hshown hrb hphase hop (if_neg hi) hrs caller
  · have hop : BatchOp.ofDescriptor? d = some (.hfence FenceSelect.allIndex) := by
      unfold BatchOp.ofDescriptor?
      rw [htag, harg0]
    exact ecall_refuses hview hh harea hmode hfeatures hplaced hstatus hshown hrb hop (fun _ => rfl) caller

/-- A guest external interrupt, a fence that is pending, and the operand for the whole list, each as the one
    descriptor of a batch. The injection and the fence succeed, as their calls do. The whole list is refused. -/
theorem ecall_batch_agrees_described :
    let run (d : Descriptor) (rs : Registers) :=
      (ecall Env.refusingSecond 0 .supervisor rs : Act _ Empty _).run
        (threeDescribed.1, { state := (0, ()), memory := d.store 0x1000 threeDescribed.2.memory })
    let batch := callRegisters 0x8000 1 0 5 AccelCall.extension
    let external : Descriptor := ⟨4, (1 : Word) <<< 32 ||| 5, 0, 9⟩
    let fence : Descriptor := ⟨3, 4, 0, 9⟩
    let every : Descriptor := ⟨3, FenceSelect.allIndex, 0, 9⟩
    let status (d : Descriptor) := (Descriptor.load (run d batch).2.2.memory 0x1000).ret
    BatchAgrees Prod.fst (.ofGuest 0x3000) 0x1000 (run external (callRegisters 1 5 0 6 AccelCall.extension))
      (run external batch) ∧ status external = 0 ∧
    BatchAgrees Prod.fst (.ofGuest 0x3000) 0x1000 (run fence (callRegisters 4 0 0 3 AccelCall.extension))
      (run fence batch) ∧ status fence = 0 ∧
    status every = SbiError.invalidParam.word := by
  intro run batch external fence every status
  have hplaced : BatchPlaced 64 [0x3000] 0x8000 1 := placed_threeDescribed.part (n := 0) rfl (by decide)
  have hfeatures : ∀ f, threeDescribed.1.config.features.contains f = true := by
    intro f
    cases f <;> rfl
  have hview : Env.refusingSecond.HostPart Prod.fst := Env.ofParts_hostPart _ _
  have hbatch : Call.ofRegisters batch = .ok (.accel (.batchExecute 0x8000 1)) := rfl
  have hagrees (d : Descriptor) := ecall_batch_agrees (ε := Empty)
    (w := { state := (0, ()), memory := d.store 0x1000 threeDescribed.2.memory }) hview hart?_threeDescribed
    rfl rfl rfl hfeatures hplaced (fun _ hb => apart_threeDescribed hb.1) ⟨⟨0x8000⟩, rfl, rfl, rfl⟩ hbatch
    .supervisor
  refine ⟨?_, by decide +kernel, ?_, by decide +kernel, ?_⟩
  · exact (hagrees external).1 1 5 0 _ (by decide) (by decide) (by decide +kernel) (by decide +kernel)
      (by decide +kernel) rfl
  · exact (hagrees fence).2.1 4 _ (by decide) (by decide +kernel) (by decide +kernel) rfl
  · obtain ⟨action, rs', st', hrun, _, hreported⟩ := (hagrees every).2.2 (by decide +kernel) (by decide +kernel)
    have hout : run every batch = (.ok (action, rs'), st') := hrun
    show (Descriptor.load (run every batch).2.2.memory 0x1000).ret = _
    rw [hout]
    exact hreported.status

end Platform

end NestedAccel
