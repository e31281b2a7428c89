import NestedAccel.Proofs.BatchRequests

/-!
# `NestedAccel.Proofs.DisabledInjection` — injections with the feature off

A configuration can leave the injection of interrupts out. The guest hypervisor is then told that the
feature is not there, and the call for it never succeeds. The host is nevertheless asked to inject
interrupts: a batch carries out its descriptors whatever features are on.

**`Reachable.injections_feature_off`** says that this is the only way left, and what it takes: batches are on,
the hart has an area, and a descriptor of its batch names the interrupt. With batches off as well, no run
ever injects an interrupt (`Reachable.not_injected`). `injected_feature_off` is a run that does.
-/

namespace NestedAccel

open World (Reaches)
open Act (Moves)

variable {σ ε α : Type} {env : Env σ}

/-! ## One call -/

namespace Hart

variable {cfg : Config} {claimed : List Word} {area : Option Area} {call : AccelCall}

/-- If the request is an injection, the call runs a batch. -/
def ByBatch (cfg : Config) (area : Option Area) (call : AccelCall) (q : Request) : Prop :=
  ∀ i, q = .inject i → RunsBatch cfg area call

section
variable (hoff : cfg.features.contains .injectInterrupt = false)
include hoff

/-- The parts of a call that a feature guards do not inject if it is off, and the others do not inject but
    for batches. -/
theorem permits_byBatch : Permits env cfg claimed area call
    (Reaches env (ByBatch cfg area call) fun _ => True) where
  message w console := Relation.ReflTransGen.single (.message w console)
  csrs low high _ a _ :=
    Env.syncCsrs_reaches (fun _ _ _ _ i h => by cases h) (fun _ => trivial) ⟨low, high⟩
  hfences index _ a _ :=
    Env.syncHfences_reaches (fun _ => trivial) (fun _ _ i h => by cases h) index
  sret flags _ a _ caller enabled :=
    Env.syncReturn_reaches (fun _ _ => trivial)
      (fun q (_ : q.Legal cfg.harts) hq i h => absurd h (hq i)) flags caller enabled
  batch hon addr len hcall := fun w =>
    (runBatch_moves (fun _ _ _ => trivial) (fun _ _ _ _ => trivial) hon hcall w).mono
      (fun _ h _ _ => h) fun _ h => h
  inject hon := by
    rw [hoff] at hon
    cases hon

theorem handle_byBatch (id : Word) (caller : Privilege) (st : Hart × World σ) :
    Reaches env (ByBatch cfg st.1.session.area call) (fun _ => True) st.2
      ((handle env cfg id claimed caller call).run st).2.2 := by
  have hdrain : ∀ a, st.1.session.area = some a → ∀ st' : Phase × World σ,
      Reaches env (ByBatch cfg st.1.session.area call) (fun _ => True) st'.2
        ((env.syncCsrs a .all).run st').2.2 := fun a _ st' =>
    Env.syncCsrs_reaches (fun _ _ _ _ i h => by cases h) (fun _ => trivial) .all st'
  exact (handle_follows (permits_byBatch hoff) hdrain id caller st rfl).2

/-- The call for an injection has no result. -/
theorem handle_inject_ne_ok (id : Word) (caller : Privilege) (kind number target : Word)
    (st st' : Hart × World σ) (r : CallResult) :
    (handle env cfg id claimed caller (.injectInterrupt kind number target)).run st ≠
      (.ok r, st') := by
  intro hrun
  rw [handle_eq] at hrun
  obtain ⟨_, st₁, _, hrun⟩ := Act.run_bind_ok hrun
  obtain ⟨answer, st₂, hanswer, hrun⟩ := Act.run_bind_ok hrun
  cases answer with
  | error e => cases e <;> cases hrun
  | ok r' =>
    have hdispatch := Act.run_attempt_ok hanswer
    obtain ⟨_, st₃, _, hperform⟩ := Act.run_bind_ok hdispatch
    obtain ⟨_, st₄, hfeature, _⟩ := Act.run_bind_ok hperform
    unfold requireFeature at hfeature
    rw [hoff] at hfeature
    cases hfeature

end

end Hart

/-! ## One operation -/

/-- The call of the extension that the operation makes, if it makes one. -/
def Operation.call? : Operation → Option AccelCall
  | handle _ call => some call
  | ecall _ rs =>
    match Call.ofRegisters rs with
    | .ok (.accel call) => some call
    | _ => none
  | establish .. => none
  | release => none
  | offline => none

namespace Platform

variable {config : Config} {id : Word} {st st' : Platform × World σ}

/-- Nothing is asked of the host. -/
def Unasked (env : Env σ) (st st' : Platform × World σ) : Prop :=
  Reaches env (fun _ => False) (fun _ => True) st.2 st'.2

instance : IsPreorder (Platform × World σ) (Unasked env) where
  refl st := refl_of _ st.2
  trans _ _ _ h h' := Relation.ReflTransGen.trans h h'

theorem Registration.unasked {gpa flags : Word} {p : Platform} {w : World σ}
    {out : Outcome PlatformError Unit × (Platform × World σ)}
    (h : Registration env id gpa flags p w out) : Unasked env (p, w) out.2 := by
  have hmap : Reaches env (fun _ => False) (fun _ => True) w (w.afterMap env gpa areaBytes) := by
    rw [← World.mapRange_run_snd]
    exact Env.mapRange_moves gpa areaBytes w
  cases h with
  | noHart _ => exact refl_of _ (p, w)
  | refused _ _ => exact refl_of _ (p, w)
  | overlap _ _ _ => exact Relation.ReflTransGen.single (.message w _)
  | notMapped _ _ => exact hmap
  | misaligned _ _ _ => exact hmap.tail (.unmap _ gpa areaBytes)
  | @done h m console _ _ _ =>
    have hwritten : Reaches env (fun _ => False) (fun _ => True) w
        { w.afterMap env gpa areaBytes with
          memory := Session.registered ⟨gpa, m.base⟩ flags w.memory } :=
      hmap.tail (.write fun b hb => absurd trivial hb)
    exact hwritten.tail (.message _ console)

theorem establish_unasked (id gpa flags : Word) :
    Moves (Unasked env) (establish env id gpa flags) :=
  fun st => (establish_run env id gpa flags st.1 st.2).unasked

theorem release_unasked (id : Word) : Moves (Unasked env) (release id) := by
  rintro ⟨p, w⟩
  cases hh : p.hart? id with
  | none =>
    rw [release_run_noHart hh]
    exact refl_of _ (p, w)
  | some h =>
    cases harea : h.session.area with
    | none =>
      rw [release_run_none hh harea]
      exact refl_of _ (p, w)
    | some a =>
      obtain ⟨console, hrun⟩ := release_run_some hh harea w
      have hclear : Reaches env (fun _ => False) (fun _ => True) w
          { w with memory := a.clearBitmap w.memory } :=
        Relation.ReflTransGen.single (.write fun b hb => absurd trivial hb)
      rw [hrun]
      exact (hclear.tail (.unmap _ a.gpa areaBytes)).tail (.message _ console)

theorem setShmem_unasked (id addr flags : Word) :
    Moves (Unasked env) (setShmem env id addr flags) := by
  unfold setShmem
  split
  · exact release_unasked id
  · exact establish_unasked id addr flags

theorem offline_unasked (id : Word) : Moves (Unasked env) (offline id) := by
  refine (release_unasked id).bind fun _ => ?_
  rintro ⟨p, w⟩
  cases hh : p.hart? id with
  | none =>
    rw [onHart_run_none hh]
    exact refl_of _ (p, w)
  | some h =>
    rw [onHart_run hh]
    exact refl_of _ w

theorem answer_cases (id : Word) (caller : Privilege) (call : AccelCall) (st : Platform × World σ) :
    (∃ h, st.1.hart? id = some h ∧
      ((answer env id caller call : Act _ ε EcallAction).run st).2 =
        ((handle env id caller call).run st).2) ∨
    Unasked env st ((answer env id caller call : Act _ ε EcallAction).run st).2 := by
  cases call with
  | setShmem addr flags =>
    refine .inr (Moves.bind (setShmem_unasked id addr flags).attempt (fun r => ?_) st)
    split <;> exact Moves.pure _
  | _ =>
    unfold answer
    rw [Act.bind_run, Act.gets_run, Act.next_ok]
    cases hh : st.1.hart? id with
    | none => exact .inr (refl_of _ st)
    | some h =>
      refine .inl ⟨h, rfl, ?_⟩
      rw [if_neg (by simp), Act.bind_run, Act.attempt_run]
      rcases (handle env id caller _).run st with ⟨(_ | _) | _ | _, _⟩ <;> rfl

end Platform

open Platform in
/-- **An operation asks nothing of the host, or it is a call that a hart answers.** -/
theorem Operation.run_cases (env : Env σ) (id : Word) (op : Operation) (st : Platform × World σ) :
    (∃ caller call h, op.call? = some call ∧ st.1.hart? id = some h ∧
      (op.run env id st).2 =
        ((Hart.handle env st.1.config id st.1.claimed caller call).run (h, st.2)).2.2) ∨
    Unasked env st (op.run env id st) := by
  rcases st with ⟨p, w⟩
  cases op with
  | handle caller call =>
    show (∃ _ _ _, _ ∧ _ ∧ ((Platform.handle env id caller call).run (p, w)).2.2 = _) ∨
      Unasked env (p, w) ((Platform.handle env id caller call).run (p, w)).2
    cases hh : p.hart? id with
    | none =>
      rw [handle_run_none env hh]
      exact .inr (refl_of _ (p, w))
    | some h =>
      rw [handle_run env hh]
      exact .inl ⟨caller, call, h, rfl, rfl, rfl⟩
  | ecall caller rs =>
    show (∃ _ call _, Operation.call? (.ecall caller rs) = some call ∧ _ ∧
        ((Platform.ecall env id caller rs : Act _ Empty _).run (p, w)).2.2 = _) ∨
      Unasked env (p, w) ((Platform.ecall env id caller rs : Act _ Empty _).run (p, w)).2
    unfold Platform.ecall
    cases hdecoded : Call.ofRegisters rs with
    | error e => exact .inr (refl_of _ (p, w))
    | ok call =>
      cases call with
      | base call => exact .inr (refl_of _ (p, w))
      | accel call =>
        have hcall : Operation.call? (.ecall caller rs) = some call := by
          rw [Operation.call?, hdecoded]
        dsimp only
        rw [Act.run_bind_pure]
        rcases answer_cases (ε := Empty) id caller call (p, w) with ⟨h, hh, hrun⟩ | hunasked
        · rw [hrun, handle_run env hh]
          exact .inl ⟨caller, call, h, hcall, hh, rfl⟩
        · exact .inr hunasked
  | establish gpa flags => exact .inr (establish_unasked id gpa flags (p, w))
  | release => exact .inr (release_unasked id (p, w))
  | offline => exact .inr (offline_unasked id (p, w))

/-! ## Runs -/

namespace Platform

variable {config : Config} {id : Word} {st : Platform × World σ}

/-- What the host is asked to inject with the feature off. -/
theorem Reachable.injected_by_batch (hoff : config.features.contains .injectInterrupt = false)
    (h : Reachable env config st) (id : Word) (op : Operation) :
    ∃ new, (op.run env id st).2.events = st.2.events ++ new ∧
      ∀ i r, .requested (.inject i) r ∈ new →
        config.features.contains .batch = true ∧
        ∃ addr count hart a, op.call? = some (.batchExecute addr count) ∧
          st.1.hart? id = some hart ∧ hart.session.area = some a ∧
          (env.Quiet → env.Faithful → ∃ p ∈ Descriptor.positions addr count,
            (Descriptor.load st.2.memory p).ask? config.harts = some (.inject i)) := by
  rcases op.run_cases env id st with ⟨caller, call, hart, hcall, hhart, hrun⟩ | hunasked
  · have hconfig := h.config_eq
    have hreach : Reaches env (Hart.ByBatch config hart.session.area call) (fun _ => True) st.2
        (op.run env id st).2 := by
      rw [hrun, hconfig]
      exact Hart.handle_byBatch hoff id caller (hart, st.2)
    obtain ⟨new, hevents, hnew⟩ := hreach.events
    refine ⟨new, hevents, fun i r hi => ?_⟩
    obtain ⟨hon, hsome, addr, count, rfl⟩ := hnew _ r hi i rfl
    obtain ⟨a, ha⟩ := Option.isSome_iff_exists.1 hsome
    refine ⟨hon, addr, count, hart, a, hcall, hhart, ha, fun hquiet hmap => ?_⟩
    -- the array is clear of the area, which is claimed
    have hasked : Reaches env (fun q => (∃ c, q = .writeCsr c) ∨
        Asked st.1.config.harts st.2.memory (Descriptor.positions addr count) q) (fun _ => True) st.2
        (op.run env id st).2 := by
      have hstart : (hart, st.2).1.session.area = some a := ha
      rw [hrun]
      exact Hart.handle_asked hquiet hmap
        (fun _ => (h.placed hmap.ifAligned).array_apart hmap hhart ha) id caller addr count hstart
    obtain ⟨new', hevents', hnew'⟩ := hasked.events
    obtain rfl : new = new' := List.append_cancel_left (hevents.symm.trans hevents')
    rcases hnew' _ r hi with ⟨c, hc⟩ | hdescriptor
    · cases hc
    · obtain ⟨p, hp, hask⟩ := hdescriptor rfl
      exact ⟨p, hp, hconfig ▸ hask⟩
  · obtain ⟨new, hevents, hnew⟩ := hunasked.events
    exact ⟨new, hevents, fun i r hi => (hnew _ r hi).elim⟩

/-- With batches off as well, no interrupt is ever injected. -/
theorem Reachable.not_injected (hoff : config.features.contains .injectInterrupt = false)
    (hbatch : config.features.contains .batch = false) (h : Reachable env config st) :
    ∀ i r, .requested (.inject i) r ∉ st.2.events := by
  -- on the operations made: none of them adds an injection to the record
  induction h with
  | new _ hw =>
    intro i r hi
    rw [hw] at hi
    exact List.not_mem_nil hi
  | @step st h id op ih =>
    intro i r hi
    obtain ⟨new, hevents, hnew⟩ := h.injected_by_batch hoff id op
    rw [hevents] at hi
    rcases List.mem_append.1 hi with hold | hi
    · exact ih i r hold
    · have hon := (hnew i r hi).1
      rw [hbatch] at hon
      cases hon
  | elsewhere _ _ _ ih => exact ih

/-- **With the feature off, the host is asked to inject what batches name, and nothing else.** The guest
    hypervisor is told that the feature is not there, and the call for it has no result. But a batch does
    not look at the feature: a hart with an area whose batch holds the descriptor of an interrupt with
    operands that pass gets it injected. No other operation injects, and with batches off none does. -/
theorem Reachable.injections_feature_off (hoff : config.features.contains .injectInterrupt = false)
    (h : Reachable env config st) :
    config.featureVersion 5 = 0 ∧
    (∀ id caller kind number target r st',
      (handle env id caller (.injectInterrupt kind number target)).run st ≠ (.ok r, st')) ∧
    (∀ (id : Word) (op : Operation), ∃ new, (op.run env id st).2.events = st.2.events ++ new ∧
      ∀ i r, .requested (.inject i) r ∈ new →
        config.features.contains .batch = true ∧
        ∃ addr count hart a, op.call? = some (.batchExecute addr count) ∧
          st.1.hart? id = some hart ∧ hart.session.area = some a ∧
          (env.Quiet → env.Faithful → ∃ p ∈ Descriptor.positions addr count,
            (Descriptor.load st.2.memory p).ask? config.harts = some (.inject i))) ∧
    (config.features.contains .batch = false → ∀ i r, .requested (.inject i) r ∉ st.2.events) := by
  refine ⟨?_, ?_, h.injected_by_batch hoff, fun hbatch => h.not_injected hoff hbatch⟩
  · have hfeature : Feature.ofId? 5 = some .injectInterrupt := rfl
    rw [Config.featureVersion, hfeature]
    simp [hoff]
  · intro id caller kind number target r st' hrun
    rcases st with ⟨p, w⟩
    cases hh : p.hart? id with
    | none =>
      rw [handle_run_none env hh] at hrun
      cases hrun
    | some hart =>
      rw [handle_run env hh] at hrun
      have hconfig : p.config = config := h.config_eq
      injection hrun with hresult _
      exact Hart.handle_inject_ne_ok (hconfig ▸ hoff) id caller kind number target (hart, w) _ r
        (Prod.ext hresult rfl)

/-- A batch with the descriptor of a virtual timer interrupt, where the feature is off. -/
theorem injections_feature_off_named :
    let config : Config := { features := FeatureSet.full.erase .injectInterrupt }
    let timer : Injection := .vsLocal 0 .virtualSupervisorTimer
    let batch : Operation := .handle .supervisor (.batchExecute 0x8000 1)
    ∃ st : Platform × World Nat, Reachable (Env.refusing 9) config st ∧
      config.features.contains .injectInterrupt = false ∧ config.featureVersion 5 = 0 ∧
      ∃ new, (batch.run (Env.refusing 9) 0 st).2.events = st.2.events ++ new ∧
        requestsDone new = [.inject timer] ∧
        ∃ p ∈ Descriptor.positions 0x8000 1,
          (Descriptor.load st.2.memory p).ask? config.harts = some (.inject timer) := by
  intro config timer batch
  let named : Descriptor := ⟨4, 6, 0, 0⟩
  have hnew : Reachable (Env.refusing 9) config
      ({ config, harts := #[{}] }, { state := 0, memory := named.store 4096 .zero }) :=
    .new (by decide) rfl
  have hreach := hnew.step 0 (.establish 0x3000 0)
  have hoff : config.features.contains .injectInterrupt = false := by decide
  obtain ⟨hversion, _, hops, _⟩ := hreach.injections_feature_off hoff
  obtain ⟨new, hevents, hinjected⟩ := hops 0 batch
  have hdone : requestsDone new = [.inject timer] := by
    have hall := congrArg requestsDone hevents
    rw [requestsDone_append] at hall
    refine List.append_cancel_left (hall.symm.trans ?_)
    decide +kernel
  obtain ⟨v, hv⟩ := mem_requestsDone.1 (hdone ▸ List.mem_singleton_self (Request.inject timer))
  obtain ⟨_, addr, count, hart, a, hcall, _, _, hnamed⟩ := hinjected _ _ hv
  cases hcall
  exact ⟨_, hreach, hoff, hversion, new, hevents, hdone,
    hnamed (Env.refusing_quiet 9) (Env.refusing_faithful 9)⟩

/-- A run in which an interrupt is injected although the feature is off. -/
theorem injected_feature_off :
    let config : Config := { features := FeatureSet.full.erase .injectInterrupt }
    config.validate = .ok () ∧ config.features.contains .injectInterrupt = false ∧
    ∃ st : Platform × World Nat, Reachable (Env.refusing 9) config st ∧
      requestsDone st.2.events = [.inject (.vsLocal 0 .virtualSupervisorTimer)] := by
  intro config
  let named : Descriptor := ⟨4, 6, 0, 0⟩
  have hnew : Reachable (Env.refusing 9) config
      ({ config, harts := #[{}] }, { state := 0, memory := named.store 4096 .zero }) :=
    .new (by decide) rfl
  have hreach := (hnew.step 0 (.establish 0x3000 0)).step 0
    (.handle .supervisor (.batchExecute 0x8000 1))
  refine ⟨by decide, by decide, _, hreach, ?_⟩
  decide +kernel

end Platform

end NestedAccel
