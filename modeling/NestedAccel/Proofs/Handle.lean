import NestedAccel.Hart
import NestedAccel.Proofs.Footprint

/-!
# `NestedAccel.Proofs.Handle` — what a call of a hart may do

The answer to a call is put together from a few parts that act on the world, and everything around them
counts and reports. The pass over what is around them is made once, for any property of computations that
is carried from the parts to the whole (`Hart.Carried`, **`Hart.Carried.handle`**); `Hart.Parts` lists the
parts that this call can come to. The drain of the eager mode comes before a call and is asked for by itself.

The first properties of this kind are relations on worlds. `Hart.Permits env cfg claimed area call R` asks
of a preorder `R` that it allows for the parts, and then `Hart.handle_follows` holds: a hart with shared area
`area` keeps it, and the worlds before and after the call are related by `R`, however the call ends.

The first relation put in for `R` bounds what a call can do at all (`Hart.Within`, `Hart.handle_moves`):
the host is asked for legal requests only, and the words written belong to the hart's area or to a batch
array clear of the claimed areas.
-/

namespace NestedAccel.Hart

open World (Reaches)
open Act (Moves)

variable {σ ε α : Type} {env : Env σ} {cfg : Config} {claimed : List Word} {area : Option Area}
  {call : AccelCall}

/-! ## How a call ends -/

/-- The console line with which the answer to a call begins. -/
def announcement (id : Word) (call : AccelCall) : String :=
  let what := call.text
  s!"hart {id}: {what}"

/-- What is left to do once a call has been answered: a denial is counted and reported, and any other
    error is shown. -/
def conclude (id : Word) (call : AccelCall) :
    Except SbiError CallResult → Act (Hart × World σ) SbiError CallResult
  | .ok r => pure r
  | .error .denied => do
    count .denials 1
    let what := call.text
    onWorld (logMessage .warn s!"hart {id}: {what} denied")
    .fail .denied
  | .error e => do
    let what := call.text
    let reason := e.name
    onWorld (logMessage .debug s!"hart {id}: {what} failed: {reason}")
    .fail e

/-- A call is announced, answered and concluded. -/
theorem handle_eq (env : Env σ) (cfg : Config) (id : Word) (claimed : List Word) (caller : Privilege)
    (call : AccelCall) :
    handle env cfg id claimed caller call =
      onWorld (logMessage .debug (announcement id call)) >>= fun _ =>
        (dispatch env cfg id claimed caller call).attempt >>= conclude id call := rfl

/-- What is left to do once a batch has run, or could not run: its tally is counted, and an abort or a
    denial is shown. -/
def reportBatch (id addr : Word) :
    Except BatchError Tally → Act (Hart × World σ) SbiError CallResult
  | .error e => do
    let place := Text.hex addr.toNat
    let reason := e.text
    onWorld (logMessage .warn s!"hart {id}: batch at {place} aborted: {reason}")
    .fail e.sbi
  | .ok tally => do
    count .batchOpsSucceeded tally.succeeded
    count .batchOpsFailed tally.failed
    count .denials tally.denied
    count .hfencesApplied tally.fences
    count .interruptsInjected tally.interrupts
    if tally.denied ≠ 0 then
      let denied := tally.denied
      onWorld (logMessage .warn s!"hart {id}: {denied} batch operations denied")
    return .value (.ofNat tally.succeeded)

/-- A batch is counted, run and reported. -/
theorem runBatch_eq (env : Env σ) (cfg : Config) (id : Word) (claimed : List Word) (addr len : Word) :
    runBatch env cfg id claimed addr len =
      count .batchCalls 1 >>= fun _ => Act.gets (fun st => st.1.session.area) >>= fun area =>
        (onWorld (env.runBatch cfg.harts cfg.maxBatch area claimed addr len)).attempt >>=
          reportBatch id addr := rfl

/-! ## One pass over a call -/

/-- The property is carried from the parts of a computation to the whole, and counting and showing messages
    have it. -/
structure Carried (C : ∀ {ε α : Type}, Act (Hart × World σ) ε α → Prop) : Prop where
  pure : ∀ {ε α : Type} (a : α), C (Pure.pure a : Act (Hart × World σ) ε α)
  fail : ∀ {ε α : Type} (e : ε), C (Act.fail e : Act (Hart × World σ) ε α)
  bind : ∀ {ε α β : Type} {x : Act (Hart × World σ) ε α} {f : α → Act (Hart × World σ) ε β},
    C x → (∀ a, C (f a)) → C (x >>= f)
  mapError : ∀ {ε ε' α : Type} {x : Act (Hart × World σ) ε α}, C x → ∀ f : ε → ε', C (x.mapError f)
  attempt : ∀ {ε ε' α : Type} {x : Act (Hart × World σ) ε α}, C x →
    C (x.attempt : Act (Hart × World σ) ε' (Except ε α))
  gets : ∀ {ε α : Type} (f : Hart → α), C (Act.gets fun st => f st.1 : Act (Hart × World σ) ε α)
  counters : ∀ {ε : Type} (f : Counters → Counters),
    C (Act.modify fun st => ({ st.1 with counters := f st.1.counters }, st.2) :
      Act (Hart × World σ) ε Unit)
  message : ∀ {ε : Type} (l : LogLevel) (text : String),
    C (onWorld (logMessage l text) : Act (Hart × World σ) ε Unit)

/-- The parts of a call that do more than count and show have the property. Only those that this call can
    come to are asked for, and a part that needs a feature only if the feature is on. -/
structure Parts (env : Env σ) (cfg : Config) (id : Word) (claimed : List Word) (caller : Privilege)
    (call : AccelCall) (C : ∀ {ε α : Type}, Act (Hart × World σ) ε α → Prop) : Prop where
  csrs : ∀ low high, call = .syncCsr low high →
    C (requireArea >>= fun a => (onPhase (env.syncCsrs a ⟨low, high⟩)).mapError SyncError.sbi)
  hfences : ∀ index, call = .syncHfence index →
    C (requireArea >>= fun a => (onPhase (env.syncHfences a index)).mapError SyncError.sbi)
  sret : ∀ flags, call = .syncSret flags →
    C (requireArea >>= fun a => (onPhase (env.syncReturn a flags caller
      (cfg.features.contains .autoswapCsr))).mapError SyncError.sbi)
  batch : cfg.features.contains .batch = true → ∀ addr len, call = .batchExecute addr len →
    C (Act.gets (fun st => st.1.session.area) >>= fun area =>
      (onWorld (env.runBatch cfg.harts cfg.maxBatch area claimed addr len)).attempt :
      Act (Hart × World σ) SbiError (Except BatchError Tally))
  inject : cfg.features.contains .injectInterrupt = true → ∀ kind number target,
    call = .injectInterrupt kind number target →
      ∀ i, Check.injection cfg.harts kind number target = .ok i →
        C (onWorld (env.request (.inject i)))
  mode : ∀ mode flags, call = .setMode mode flags → C (changeMode (σ := σ) id mode flags)

section
variable {C : ∀ {ε α : Type}, Act (Hart × World σ) ε α → Prop} (hC : Carried C)
include hC

theorem Carried.count (c : Counter) (n : Nat) :
    C (Hart.count c n : Act (Hart × World σ) ε Unit) :=
  hC.counters fun counters => counters.add c (.ofNat n)

/-- What comes after a feature has been asked for only has to be looked at if it is on. -/
theorem Carried.requireFeature_bind {f : Feature} {k : Act (Hart × World σ) SbiError α}
    (hk : cfg.features.contains f = true → C k) : C (Hart.requireFeature cfg f >>= fun _ => k) := by
  unfold Hart.requireFeature
  split
  · rename_i hon
    exact hC.bind (hC.pure ()) fun _ => hk hon
  · rw [Act.fail_bind]
    exact hC.fail _

theorem Carried.reportBatch (id addr : Word) (r : Except BatchError Tally) :
    C (Hart.reportBatch id addr r) := by
  cases r with
  | error e => exact hC.bind (hC.message _ _) fun _ => hC.fail _
  | ok tally =>
    refine hC.bind (hC.count _ _) fun _ => hC.bind (hC.count _ _) fun _ => ?_
    refine hC.bind (hC.count _ _) fun _ => hC.bind (hC.count _ _) fun _ => ?_
    refine hC.bind (hC.count _ _) fun _ => ?_
    split
    · exact hC.bind (hC.message _ _) fun _ => hC.pure _
    · exact hC.pure _

theorem Carried.conclude (id : Word) (call : AccelCall) (r : Except SbiError CallResult) :
    C (Hart.conclude id call r) := by
  -- a result, a denial, and any other error
  unfold Hart.conclude
  split
  · exact hC.pure _
  · exact hC.bind (hC.count _ _) fun _ => hC.bind (hC.message _ _) fun _ => hC.fail _
  · exact hC.bind (hC.message _ _) fun _ => hC.fail _

theorem Carried.readCounter (counter clear : Word) :
    C (Hart.readCounter counter clear : Act (Hart × World σ) SbiError CallResult) := by
  unfold Hart.readCounter
  split
  · exact hC.fail _
  · rename_i c _
    refine hC.bind (hC.gets fun h => h.counters.take c (decide (clear ≠ 0))) fun r => ?_
    exact hC.bind (hC.counters fun _ => r.2) fun _ => hC.pure _

variable {id : Word} {caller : Privilege} (hparts : Parts env cfg id claimed caller call C)
include hparts

theorem Carried.perform : C (Hart.perform env cfg id claimed caller call) := by
  cases hcall : call with
  | probeFeature feature => exact hC.pure _
  | setShmem => exact hC.fail _
  | syncCsr low high =>
    refine hC.requireFeature_bind fun _ => hC.bind (hC.count _ _) fun _ => ?_
    rw [← bind_assoc]
    exact hC.bind (hparts.csrs low high hcall) fun _ => hC.bind (hC.count _ _) fun _ => hC.pure _
  | syncHfence index =>
    refine hC.requireFeature_bind fun _ => hC.bind (hC.count _ _) fun _ => ?_
    rw [← bind_assoc]
    exact hC.bind (hparts.hfences index hcall) fun _ => hC.bind (hC.count _ _) fun _ => hC.pure _
  | syncSret flags =>
    refine hC.requireFeature_bind fun _ => hC.bind (hC.count _ _) fun _ => ?_
    rw [← bind_assoc]
    exact hC.bind (hparts.sret flags hcall) fun _ => hC.bind (hC.count _ _) fun _ =>
      hC.bind (hC.count _ _) fun _ => hC.pure _
  | batchExecute addr len =>
    refine hC.requireFeature_bind fun hon => ?_
    rw [runBatch_eq]
    refine hC.bind (hC.count _ _) fun _ => ?_
    rw [← bind_assoc]
    exact hC.bind (hparts.batch hon addr len hcall) fun r => hC.reportBatch id addr r
  | injectInterrupt kind number target =>
    refine hC.requireFeature_bind fun hon => ?_
    unfold inject
    cases hcheck : Check.injection cfg.harts kind number target with
    | error e =>
      rw [Act.ofExcept_error, Act.mapError_fail, Act.fail_bind]
      exact hC.fail _
    | ok i =>
      rw [Act.ofExcept_ok, Act.mapError_pure, pure_bind]
      have hrequest := hparts.inject hon kind number target hcall i hcheck
      exact hC.bind (hC.mapError hrequest _) fun _ => hC.bind (hC.count _ _) fun _ => hC.pure _
  | getVersion => exact hC.pure _
  | getMode => exact hC.bind (hC.gets fun h => h.session.mode) fun _ => hC.pure _
  | setMode mode flags => exact hparts.mode mode flags hcall
  | getStatistic counter clear => exact hC.requireFeature_bind fun _ => hC.readCounter _ _

variable (hdrain : C (drain env))
include hdrain

theorem Carried.dispatch : C (Hart.dispatch env cfg id claimed caller call) := by
  unfold Hart.dispatch
  split
  · exact hC.perform hparts
  · exact hC.bind hdrain fun _ => hC.perform hparts

/-- **What is carried, and holds of the parts of a call and of the drain, holds of the call.** -/
theorem Carried.handle : C (Hart.handle env cfg id claimed caller call) := by
  rw [handle_eq]
  refine hC.bind (hC.message _ _) fun _ => ?_
  exact hC.bind (hC.attempt (hC.dispatch hparts hdrain)) fun r => hC.conclude id call r

end

/-! ## Relations on worlds -/

variable {R : World σ → World σ → Prop}

/-- The relation allows for what the parts of a call do to the world, but for the drain before it. A part
    that needs a feature is reached only if the feature is on. -/
structure Permits (env : Env σ) (cfg : Config) (claimed : List Word) (area : Option Area)
    (call : AccelCall) (R : World σ → World σ → Prop) : Prop where
  message : ∀ w console, R w { w with console }
  csrs : ∀ low high, call = .syncCsr low high → ∀ a, area = some a → ∀ st,
    R st.2 ((env.syncCsrs a ⟨low, high⟩).run st).2.2
  hfences : ∀ index, call = .syncHfence index → ∀ a, area = some a → ∀ st,
    R st.2 ((env.syncHfences a index).run st).2.2
  sret : ∀ flags, call = .syncSret flags → ∀ a, area = some a → ∀ caller enabled st,
    R st.2 ((env.syncReturn a flags caller enabled).run st).2.2
  batch : cfg.features.contains .batch = true → ∀ addr len, call = .batchExecute addr len →
    Moves R (env.runBatch cfg.harts cfg.maxBatch area claimed addr len)
  inject : cfg.features.contains .injectInterrupt = true → ∀ kind number target,
    call = .injectInterrupt kind number target → ∀ i : Injection, i.Legal cfg.harts →
      Moves R (env.request (.inject i))

/-- A hart with shared area `area` keeps it, and its world follows the relation. -/
def Follows (area : Option Area) (R : World σ → World σ → Prop) (st st' : Hart × World σ) : Prop :=
  st.1.session.area = area → st'.1.session.area = area ∧ R st.2 st'.2

instance [IsPreorder (World σ) R] : IsPreorder (Hart × World σ) (Follows area R) where
  refl st ha := ⟨ha, refl_of R st.2⟩
  trans _ _ _ h h' ha := ⟨(h' (h ha).1).1, IsTrans.trans _ _ _ (h ha).2 (h' (h ha).1).2⟩

theorem onWorld_follows {x : Act (World σ) ε α} (h : Moves R x) :
    Moves (Follows area R) (onWorld x) := fun st ha => ⟨ha, h st.2⟩

theorem logMessage_follows (hmessage : ∀ w console, R w { w with console }) (l : LogLevel)
    (text : String) :
    Moves (Follows area R) (onWorld (logMessage l text) : Act (Hart × World σ) ε Unit) :=
  onWorld_follows (Moves.modify fun w => hmessage w _)

theorem requireArea_run_ok {st st' : Hart × World σ} {a : Area}
    (h : requireArea.run st = (.ok a, st')) : st' = st ∧ st.1.session.area = some a := by
  unfold requireArea Session.requireArea at h
  cases ha : st.1.session.area with
  | none =>
    simp only [Act.bind_run, Act.gets_run, Act.next_ok, ha] at h
    injection h with h _
    cases h
  | some a' =>
    simp only [Act.bind_run, Act.gets_run, Act.next_ok, ha] at h
    injection h with h hst
    cases h
    exact ⟨hst.symm, rfl⟩

theorem drainArea?_some {h : Hart} {a : Area} (ha : h.drainArea? = some a) :
    h.session.area = some a := by
  unfold drainArea? at ha
  split at ha
  · exact ha
  · cases ha

theorem setMode_area {s s' : Session} {mode flags : Word} (h : s.setMode mode flags = .ok s') :
    s'.area = s.area := by
  unfold Session.setMode at h
  split at h
  · cases h
  · split at h
    · cases h
    · split at h
      · cases h
        rfl
      · cases h

section
variable [IsPreorder (World σ) R]

theorem count_follows (c : Counter) (n : Nat) :
    Moves (Follows area R) (count c n : Act (Hart × World σ) ε Unit) :=
  fun st ha => ⟨ha, refl_of R st.2⟩

/-- Any relation that allows for messages is carried. -/
theorem carried_follows (hmessage : ∀ w console, R w { w with console }) :
    Carried (σ := σ) fun {ε α} (x : Act (Hart × World σ) ε α) => Moves (Follows area R) x where
  pure a := Moves.pure a
  fail e := Moves.fail e
  bind hx hf := hx.bind hf
  mapError hx f := hx.mapError f
  attempt hx := hx.attempt
  gets _ := Moves.gets _
  counters _ st ha := ⟨ha, refl_of R st.2⟩
  message l text := logMessage_follows hmessage l text

theorem requireFeature_follows (f : Feature) :
    Moves (Follows area R) (requireFeature cfg f : Act (Hart × World σ) SbiError Unit) := by
  unfold requireFeature
  split
  · exact Moves.pure _
  · exact Moves.fail _

/-- What comes after a feature has been asked for only has to be looked at if it is on. -/
theorem requireFeature_bind {f : Feature} {k : Act (Hart × World σ) SbiError α} (st : Hart × World σ)
    (hk : cfg.features.contains f = true → Follows area R st (k.run st).2) :
    Follows area R st ((requireFeature cfg f >>= fun _ => k).run st).2 := by
  unfold requireFeature
  split
  · rename_i hon
    exact hk hon
  · exact refl_of _ st

/-- The synchronization call that a hart makes once it is known to have an area. -/
theorem requireArea_follows {x : Area → Act (Phase × World σ) ε α} {e : ε → SbiError}
    (hx : ∀ a, area = some a → ∀ st, R st.2 ((x a).run st).2.2) :
    Moves (Follows area R) (requireArea >>= fun a => (onPhase (x a)).mapError e) := by
  intro st
  refine Act.bind_moves (Moves.bind_gets (fun st => ?_) st) fun a st' h => ?_
  · exact (Moves.ofExcept _).mapError _
  · obtain ⟨rfl, hown⟩ := requireArea_run_ok h
    rw [Act.mapError_run_snd]
    exact fun ha => ⟨ha, hx a (ha.symm.trans hown) (st'.1.phase, st'.2)⟩

theorem drain_follows (hdrain : ∀ a, area = some a → ∀ st,
    R st.2 ((env.syncCsrs a .all).run st).2.2) : Moves (Follows area R) (drain env) := by
  intro st
  refine Act.bind_moves (Moves.gets _ st) fun found st' hfound => ?_
  obtain ⟨rfl, rfl⟩ := Act.run_gets_ok hfound
  split
  · exact Moves.pure _ st'
  · rename_i a hfound
    refine Act.bind_moves ?_ fun n st'' _ => count_follows _ _ st''
    rw [Act.mapError_run_snd]
    intro ha
    exact ⟨ha, hdrain a (ha.symm.trans (drainArea?_some hfound)) (st'.1.phase, st'.2)⟩

theorem changeMode_follows (hmessage : ∀ w console, R w { w with console }) (id mode flags : Word) :
    Moves (Follows area R) (changeMode id mode flags) := by
  intro st
  refine Act.bind_moves (Moves.gets _ st) fun r st₁ hr => ?_
  obtain ⟨rfl, rfl⟩ := Act.run_gets_ok hr
  refine Act.bind_moves ((Moves.ofExcept _).mapError _ _) fun s st₂ hs => ?_
  obtain ⟨hs, rfl⟩ := Act.run_ofExcept_ok (Act.run_mapError_ok hs)
  refine Act.bind_moves ?_ fun _ st₃ _ => ?_
  -- the new session is another mode of the one that was read
  · exact fun ha => ⟨(setMode_area hs).trans ha, refl_of R st₂.2⟩
  · exact ((logMessage_follows hmessage _ _).bind fun _ => Moves.pure _) st₃

theorem parts_follows (h : Permits env cfg claimed area call R) (id : Word) (caller : Privilege) :
    Parts env cfg id claimed caller call
      fun {ε α} (x : Act (Hart × World σ) ε α) => Moves (Follows area R) x where
  csrs low high hcall := requireArea_follows (h.csrs low high hcall)
  hfences index hcall := requireArea_follows (h.hfences index hcall)
  sret flags hcall := requireArea_follows fun a ha => h.sret flags hcall a ha caller _
  batch hon addr len hcall := by
    -- the area has to be known as the one that was read, so the rule for one state is needed
    intro st
    refine Act.bind_moves (Moves.gets _ st) fun found st' hfound => ?_
    obtain ⟨rfl, rfl⟩ := Act.run_gets_ok hfound
    rw [Act.attempt_run_snd]
    intro ha
    refine ⟨ha, ?_⟩
    rw [ha]
    exact h.batch hon addr len hcall st'.2
  inject hon kind number target hcall i hi :=
    onWorld_follows (h.inject hon kind number target hcall i (Check.injection_legal hi))
  mode mode flags _ := changeMode_follows h.message id mode flags

theorem reportBatch_follows (hmessage : ∀ w console, R w { w with console }) (id addr : Word)
    (r : Except BatchError Tally) : Moves (Follows area R) (reportBatch id addr r) :=
  (carried_follows hmessage).reportBatch id addr r

theorem conclude_follows (hmessage : ∀ w console, R w { w with console }) (id : Word)
    (call : AccelCall) (r : Except SbiError CallResult) :
    Moves (Follows area R) (conclude id call r) :=
  (carried_follows hmessage).conclude id call r

variable (h : Permits env cfg claimed area call R)
include h

theorem perform_follows (id : Word) (caller : Privilege) :
    Moves (Follows area R) (perform env cfg id claimed caller call) :=
  (carried_follows h.message).perform (parts_follows h id caller)

/-- **A relation that permits the parts of a call, and the drain, holds across the call,** however it
    ends. -/
theorem handle_follows (hdrain : ∀ a, area = some a → ∀ st, R st.2 ((env.syncCsrs a .all).run st).2.2)
    (id : Word) (caller : Privilege) :
    Moves (Follows area R) (handle env cfg id claimed caller call) :=
  (carried_follows h.message).handle (parts_follows h id caller) (drain_follows hdrain)

end

/-! ## Requests and words -/

/-- The words that a call may write: those of the hart's area and those of a batch array. -/
def Writable (env : Env σ) (cfg : Config) (claimed : List Word) (area : Option Area) (b : Nat) :
    Prop :=
  (∃ a, area = some a ∧ a.Owns b) ∨ env.InBatch cfg.maxBatch claimed b

/-- What may happen while a hart answers a call. -/
def Within (env : Env σ) (cfg : Config) (claimed : List Word) (st st' : Hart × World σ) : Prop :=
  st'.1.session.area = st.1.session.area ∧
    Reaches env (Request.Legal cfg.harts) (Writable env cfg claimed st.1.session.area) st.2 st'.2

theorem syncCsrs_within (a : Area) (ha : area = some a) (mask : SlotMask) (st : Phase × World σ) :
    Reaches env (Request.Legal cfg.harts) (Writable env cfg claimed area) st.2
      ((env.syncCsrs a mask).run st).2.2 :=
  Env.syncCsrs_reaches (fun _ _ _ => Check.slotWrite_legal)
    (fun i => .inl ⟨a, ha, a.owns_bitmapBase i⟩) mask st

/-- The parts of a call make legal requests and write no other words. -/
theorem permits_reaches : Permits env cfg claimed area call
    (Reaches env (Request.Legal cfg.harts) (Writable env cfg claimed area)) where
  message w console := Relation.ReflTransGen.single (.message w console)
  csrs low high _ a ha := syncCsrs_within a ha ⟨low, high⟩
  hfences index _ a ha :=
    Env.syncHfences_reaches (fun s => .inl ⟨a, ha, a.owns_fenceBase s⟩) (fun _ hf => hf) index
  sret flags _ a ha caller enabled :=
    Env.syncReturn_reaches (fun _ hb => .inl ⟨a, ha, hb⟩) (fun _ hq _ => hq) flags caller enabled
  batch _ addr len _ :=
    Env.runBatch_moves (fun a s ha => .inl ⟨a, ha, a.owns_fenceBase s⟩) (fun _ hb => .inr hb) addr len
  inject _ _ _ _ _ _ hi := Env.request_moves hi

/-- **Every call keeps within the bound,** however it ends. -/
theorem handle_moves (id : Word) (caller : Privilege) (call : AccelCall) :
    Moves (Within env cfg claimed) (handle env cfg id claimed caller call) :=
  fun st => handle_follows permits_reaches (fun a ha => syncCsrs_within a ha .all) id caller st rfl

end NestedAccel.Hart
