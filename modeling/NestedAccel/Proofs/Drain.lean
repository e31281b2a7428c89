import NestedAccel.Proofs.BatchRequests
import NestedAccel.Proofs.DeferredWrites

/-!
# `NestedAccel.Proofs.Drain` — the eager mode as a drain before the call

A hart in the eager mode has every dirty CSR applied before it answers a call, unless the call applies
CSRs itself. So there are two computations to compare: the call with the drain that the mode asks for, and
the same call without one (`Hart.undrained`). `handle_run_eager` and `handle_run_undrained` say how the
first is made of the second: what the drain leaves behind is what the call starts from, and a drain that
fails is all that happens. In the deferred mode there is no drain, and then nothing else clears a dirty
bit or changes a slot either.

`Hart.handle_drain` puts this together, for every call that does not apply CSRs itself.
-/

namespace NestedAccel

open World (Reaches)
open Act (Moves)

variable {σ : Type} {env : Env σ} {a : Area}

namespace Hart

variable {cfg : Config} {claimed : List Word} {area : Option Area} {call : AccelCall} {h : Hart}

/-! ## With and without a drain -/

/-- A hart has nothing to drain in the deferred mode or without an area. -/
theorem drainArea?_eq_none (hnone : h.session.mode = .deferred ∨ h.session.area = none) :
    h.drainArea? = none := by
  unfold drainArea?
  rcases hnone with hmode | harea
  · rw [hmode]
  · rw [harea]
    cases h.session.mode <;> rfl

/-- In the eager mode a hart drains its area. -/
theorem drainArea?_eq_some (hmode : h.session.mode = .eager) (harea : h.session.area = some a) :
    h.drainArea? = some a := by
  unfold drainArea?
  rw [hmode]
  exact harea

/-- What a call does without a drain before it. -/
def undrained (env : Env σ) (cfg : Config) (id : Word) (claimed : List Word) (caller : Privilege)
    (call : AccelCall) : Act (Hart × World σ) SbiError CallResult :=
  (perform env cfg id claimed caller call).attempt >>= conclude id call

/-- The drain counts what it has applied. -/
theorem drain_run_eager (hdrainArea : h.drainArea? = some a) (env : Env σ) (w : World σ) :
    (drain env).run (h, w) =
      match (env.syncCsrs a .all).run (h.phase, w) with
      | (.ok n, (phase, w')) => (.ok (), ({ h with phase, counters := h.counters.add .csrsSynced (.ofNat n) }, w'))
      | (.error e, (phase, w')) => (.error e.sbi, ({ h with phase }, w'))
      | (.abandoned, (phase, w')) => (.abandoned, ({ h with phase }, w')) := by
  rw [drain, Act.bind_run, Act.gets_run, Act.next_ok, hdrainArea]
  dsimp only
  rw [Act.bind_run, Act.mapError_run, onPhase, Act.zoom_run]
  rcases (env.syncCsrs a .all).run (h.phase, w) with ⟨_ | _ | _, phase, w'⟩ <;> rfl

/-- The world once a call has been announced. -/
def announced (id : Word) (call : AccelCall) (w : World σ) : World σ :=
  { w with console := w.console.log .debug (announcement id call) }

/-- Concluding with an error changes the console, and counts a denial. -/
theorem conclude_error_run (id : Word) (call : AccelCall) (e : SbiError) (h : Hart) (w : World σ) :
    ∃ console, (conclude id call (.error e)).run (h, w) =
      (.error e, ({ h with counters := if e = .denied then h.counters.increment .denials
        else h.counters }, { w with console })) := by
  by_cases he : e = .denied
  · subst he
    exact ⟨_, rfl⟩
  · have hother : conclude (σ := σ) id call (.error e) = (do
        let what := call.text
        let reason := e.name
        onWorld (logMessage .debug s!"hart {id}: {what} failed: {reason}")
        .fail e) := by
      cases e <;> first | rfl | exact absurd rfl he
    rw [hother, if_neg he]
    exact ⟨_, rfl⟩

section
variable (env : Env σ) (cfg : Config) (id : Word) (claimed : List Word) (caller : Privilege)

/-- A call that does not apply CSRs itself goes on from where the drain has ended. -/
theorem handle_run_drain (hcall : syncsCsrs call = false) (w : World σ) :
    (handle env cfg id claimed caller call).run (h, w) =
      match (drain env).run (h, announced id call w) with
      | (.ok (), st) => (undrained env cfg id claimed caller call).run st
      | (.error e, st) => (conclude id call (.error e)).run st
      | (.abandoned, st) => (.abandoned, st) := by
  have hannounce : (onWorld (logMessage .debug (announcement id call)) :
      Act (Hart × World σ) SbiError Unit).run (h, w) = (.ok (), (h, announced id call w)) := rfl
  rw [handle_eq, Act.bind_run, hannounce, Act.next_ok, Act.bind_run, Act.attempt_run, dispatch,
    hcall, if_neg Bool.false_ne_true, Act.bind_run]
  rcases (drain env).run (h, announced id call w) with ⟨_ | _ | _, st⟩
  · dsimp only
    rw [Act.next_ok, undrained, Act.bind_run, Act.attempt_run]
  · rfl
  · rfl

/-- **In the eager mode, the drain applies every dirty CSR.** -/
theorem handle_run_eager (hcall : syncsCsrs call = false) (hdrainArea : h.drainArea? = some a)
    (w : World σ) :
    (handle env cfg id claimed caller call).run (h, w) =
      match (env.syncCsrs a .all).run (h.phase, announced id call w) with
      | (.ok n, (phase, w')) =>
        (undrained env cfg id claimed caller call).run
          ({ h with phase, counters := h.counters.add .csrsSynced (.ofNat n) }, w')
      | (.error e, (phase, w')) => (conclude id call (.error e.sbi)).run ({ h with phase }, w')
      | (.abandoned, (phase, w')) => (.abandoned, ({ h with phase }, w')) := by
  rw [handle_run_drain env cfg id claimed caller hcall, drain_run_eager hdrainArea]
  rcases (env.syncCsrs a .all).run (h.phase, announced id call w) with ⟨_ | _ | _, phase, w'⟩ <;> rfl

/-- **A call without a drain before it is what it is without a drain.** -/
theorem handle_run_undrained (hnone : syncsCsrs call = true ∨ h.drainArea? = none) (w : World σ) :
    (handle env cfg id claimed caller call).run (h, w) =
      (undrained env cfg id claimed caller call).run (h, announced id call w) := by
  have hannounce : (onWorld (logMessage .debug (announcement id call)) :
      Act (Hart × World σ) SbiError Unit).run (h, w) = (.ok (), (h, announced id call w)) := rfl
  have hdispatch : (dispatch env cfg id claimed caller call).run (h, announced id call w) =
      (perform env cfg id claimed caller call).run (h, announced id call w) := by
    unfold dispatch
    split
    · rfl
    · rename_i hcall
      unfold drain
      rw [bind_assoc, Act.bind_run, Act.gets_run, Act.next_ok, hnone.resolve_left hcall]
      rfl
  rw [handle_eq, Act.bind_run, hannounce, Act.next_ok, Act.bind_run, Act.attempt_run, hdispatch,
    undrained, Act.bind_run, Act.attempt_run]

end

/-! ## What a call leaves alone -/

/-- If the request is a write to a CSR, the call runs a batch. -/
def WritesByBatch (cfg : Config) (area : Option Area) (call : AccelCall) (q : Request) : Prop :=
  ∀ c, q = .writeCsr c → RunsBatch cfg area call

/-- The words that are not those of the area's slots. -/
def BesideSlots (area : Option Area) (b : Nat) : Prop := ∀ a, area = some a → ¬a.InSlots b

section
variable (hcall : syncsCsrs call = false)
  (hclear : ∀ a, area = some a → ∀ addr len, call = .batchExecute addr len →
    ∀ b, env.InBatch cfg.maxBatch claimed b → ¬a.Owns b)
include hcall hclear

/-- A call that does not apply CSRs leaves the slots alone, and writes CSRs for a batch only. -/
theorem permits_besideSlots : Permits env cfg claimed area call
    (Reaches env (WritesByBatch cfg area call) (BesideSlots area)) where
  message w console := Relation.ReflTransGen.single (.message w console)
  csrs low high hsync := by
    rw [hsync] at hcall
    cases hcall
  hfences index _ a ha := by
    refine Env.syncHfences_reaches (fun s a' ha' => ?_) (fun f _ c h => ?_) index
    · cases ha.symm.trans ha'
      exact a.not_inSlots_fenceBase s
    · cases h
  sret flags hsync := by
    rw [hsync] at hcall
    cases hcall
  batch hon addr len hbatch := by
    have hfences : ∀ a, area = some a → ∀ s, BesideSlots area (a.fenceBase s) := by
      intro a ha s a' ha'
      cases ha.symm.trans ha'
      exact a.not_inSlots_fenceBase s
    have harray : ∀ a, area = some a → ∀ b, env.InBatch cfg.maxBatch claimed b →
        BesideSlots area b := by
      intro _ _ b hb a ha hin
      exact hclear a ha addr len hbatch b hb (Area.owns_of_inSlots hin)
    intro w
    exact (runBatch_moves hfences harray hon hbatch w).mono (fun _ h _ _ => h) fun _ h => h
  inject _ _ _ _ _ i _ := Env.request_moves fun c h => by cases h

theorem undrained_besideSlots (id : Word) (caller : Privilege) :
    Moves (Follows area (Reaches env (WritesByBatch cfg area call) (BesideSlots area)))
      (undrained env cfg id claimed caller call) := by
  have hpermits : Permits env cfg claimed area call
      (Reaches env (WritesByBatch cfg area call) (BesideSlots area)) := permits_besideSlots hcall hclear
  exact (perform_follows hpermits id caller).attempt.bind fun r =>
    conclude_follows hpermits.message id call r

end

/-- Without a drain, a batch call asks for what its descriptors say. -/
theorem undrained_asked (hquiet : env.Quiet) (hmap : env.Faithful)
    (hclear : ∀ b, env.InBatch cfg.maxBatch claimed b → ¬a.Owns b) (id : Word) (caller : Privilege)
    (addr len : Word) {w₀ w : World σ} (hbefore : Drained env a w₀ w)
    (harea : h.session.area = some a) :
    Reaches env (Asked cfg.harts w₀.memory (Descriptor.positions addr len)) (fun _ => True) w
      ((undrained env cfg id claimed caller (.batchExecute addr len)).run (h, w)).2.2 := by
  suffices hfollows : Follows (some a)
      (Reaches env (Asked cfg.harts w₀.memory (Descriptor.positions addr len)) fun _ => True) (h, w)
      ((undrained env cfg id claimed caller (.batchExecute addr len)).run (h, w)).2 from
    (hfollows harea).2
  refine Act.bind_moves ?_ fun r st' _ =>
    conclude_follows (fun w c => Relation.ReflTransGen.single (.message w c)) id _ r st'
  rw [Act.attempt_run_snd]
  exact perform_asked hquiet hmap hclear id caller addr len hbefore

/-! ## The modes -/

/-- From `w` to `w'` no slot of the area has been changed or applied, as far as the host leaves the area
    alone, and the only CSRs written are those that the descriptors of a batch name. -/
structure SlotsKept (env : Env σ) (cfg : Config) (area : Option Area) (call : AccelCall)
    (w w' : World σ) : Prop where
  bitmap : ∀ a, area = some a → ∀ i, env.Spares (a.bitmapBase i) →
    a.dirtyWord w'.memory i = a.dirtyWord w.memory i
  array : ∀ a, area = some a → ∀ s, env.Spares (a.slotBase s) →
    a.slotValue w'.memory s = a.slotValue w.memory s
  writes : ∃ new, w'.events = w.events ++ new ∧ ∀ c r, .requested (.writeCsr c) r ∈ new →
    ∃ a addr len, area = some a ∧ call = .batchExecute addr len ∧
      (env.Quiet → env.Faithful → ∃ p ∈ Descriptor.positions addr len,
        (Descriptor.load w.memory p).ask? cfg.harts = some (.writeCsr c))

theorem undrained_slotsKept (hcall : syncsCsrs call = false)
    (hclear : ∀ a, h.session.area = some a → ∀ addr len, call = .batchExecute addr len →
      ∀ b, env.InBatch cfg.maxBatch claimed b → ¬a.Owns b)
    (id : Word) (caller : Privilege) (w : World σ) :
    SlotsKept env cfg h.session.area call w
      ((undrained env cfg id claimed caller call).run (h, announced id call w)).2.2 := by
  have hreach : Reaches env (WritesByBatch cfg h.session.area call) (BesideSlots h.session.area) w
      ((undrained env cfg id claimed caller call).run (h, announced id call w)).2.2 :=
    IsTrans.trans _ _ _ (Relation.ReflTransGen.single (.message w _))
      (undrained_besideSlots hcall hclear id caller (h, announced id call w) rfl).2
  constructor
  · intro a ha i hspares
    exact hreach.read_spared hspares fun hbeside => hbeside a ha (a.inSlots_bitmapBase i)
  · intro a ha s hspares
    exact hreach.read_spared hspares fun hbeside => hbeside a ha (a.inSlots_slotBase s)
  · obtain ⟨new, hevents, hnew⟩ := hreach.events
    refine ⟨new, hevents, fun c r hc => ?_⟩
    obtain ⟨_, hsome, addr, len, rfl⟩ := hnew _ r hc c rfl
    obtain ⟨a, ha⟩ := Option.isSome_iff_exists.1 hsome
    refine ⟨a, addr, len, ha, rfl, fun hquiet hmap => ?_⟩
    -- announcing the call has not changed the descriptors
    have hdrained : Drained env a w (announced id (.batchExecute addr len) w) := drained_message w _
    have hasked := undrained_asked hquiet hmap (hclear a ha addr len rfl) id caller addr len hdrained ha
    obtain ⟨new', hevents', hnew'⟩ := hasked.events
    obtain rfl : new = new' := List.append_cancel_left (hevents.symm.trans hevents')
    exact hnew' _ r hc rfl

/-- **The eager mode is a drain before the call.** Take a call that does not apply CSRs itself.

    In the eager mode with an area, if applying every dirty CSR fails, so does the call: nothing else
    happens, but for a denial that is counted and the console. If it succeeds, the call goes on from there,
    with the number of CSRs counted, as it would without a drain.

    In the deferred mode or without an area there is no drain, and no slot is changed or applied, given
    that the array of a batch is clear of the area. A platform hands no other array to a batch. -/
theorem handle_drain (env : Env σ) (cfg : Config) (id : Word) (claimed : List Word) (caller : Privilege)
    {call : AccelCall} (hcall : syncsCsrs call = false) (h : Hart) (w : World σ) :
    let out := (handle env cfg id claimed caller call).run (h, w)
    let start := announced id call w
    (∀ a, h.session.mode = .eager → h.session.area = some a → ∀ phase w',
      (∀ e, (env.syncCsrs a .all).run (h.phase, start) = (.error e, (phase, w')) →
        ∃ console, out = (.error e.sbi, ({ h with
          phase
          counters := if e.sbi = .denied then h.counters.increment .denials else h.counters },
          { w' with console }))) ∧
      (∀ n, (env.syncCsrs a .all).run (h.phase, start) = (.ok n, (phase, w')) →
        out = (undrained env cfg id claimed caller call).run
          ({ h with phase, counters := h.counters.add .csrsSynced (.ofNat n) }, w')) ∧
      ((env.syncCsrs a .all).run (h.phase, start) = (.abandoned, (phase, w')) →
        out = (.abandoned, ({ h with phase }, w')))) ∧
    (h.session.mode = .deferred ∨ h.session.area = none →
      out = (undrained env cfg id claimed caller call).run (h, start) ∧
      ((∀ a, h.session.area = some a → ∀ addr len, call = .batchExecute addr len →
          ∀ b, env.InBatch cfg.maxBatch claimed b → ¬a.Owns b) →
        SlotsKept env cfg h.session.area call w out.2.2)) ∧
    (env.Faithful → ∀ config st, Platform.Reachable env config st → ∀ id h a,
      st.1.hart? id = some h → h.session.area = some a →
      ∀ b, env.InBatch st.1.config.maxBatch st.1.claimed b → ¬a.Owns b) := by
  intro out start
  refine ⟨fun a hmode harea phase w' => ?_, fun hnone => ?_, ?_⟩
  · have hdrainArea : h.drainArea? = some a := by
      unfold drainArea?
      rw [hmode]
      exact harea
    have heager := handle_run_eager env cfg id claimed caller hcall hdrainArea w
    refine ⟨fun e hrun => ?_, fun n hrun => ?_, fun hrun => ?_⟩
    · rw [hrun] at heager
      obtain ⟨console, hconclude⟩ := conclude_error_run id call e.sbi { h with phase } w'
      exact ⟨console, heager.trans hconclude⟩
    · rw [hrun] at heager
      exact heager
    · rw [hrun] at heager
      exact heager
  · have hrun : out = (undrained env cfg id claimed caller call).run (h, start) :=
      handle_run_undrained env cfg id claimed caller (.inr (drainArea?_eq_none hnone)) w
    refine ⟨hrun, fun hclear => ?_⟩
    rw [hrun]
    exact undrained_slotsKept hcall hclear id caller w
  · intro hmap config st hreach id h a hh harea b
    exact (hreach.placed hmap.ifAligned).array_apart hmap hh harea

/-- A call for the mode, with two dirty CSRs. A host that carries both writes out gets them before the
    hart answers; one that refuses the second has got the first, and the call fails. -/
theorem handle_drain_two :
    let a := Area.ofGuest 0x3000
    let h : Hart := { session := { area := some a, mode := .eager } }
    let ws : List CsrWrite := [⟨CsrNumber.vsscratch, 1⟩, ⟨CsrNumber.hcounteren, 7⟩]
    let w : World Nat := { state := 0, memory := a.writeCsrs ws .zero }
    let out (n : Nat) := (handle (Env.refusing n) {} 0 [0x3000] .supervisor .getMode).run (h, w)
    syncsCsrs .getMode = false ∧
    (out 9).1 = .ok (.value 1) ∧ (out 9).2.1.counters.get .csrsSynced = 2 ∧
    (requestsDone (out 9).2.2.events).length = 2 ∧
    (out 1).1 = .error .io ∧ (out 1).2.1 = h ∧ (requestsDone (out 1).2.2.events).length = 1 := by
  intro a h ws w out
  have hsync : syncsCsrs .getMode = false := rfl
  obtain ⟨heager, _⟩ := handle_drain (Env.refusing 9) {} 0 [0x3000] .supervisor hsync h w
  obtain ⟨_, hok, _⟩ := heager a rfl rfl _ _
  have hnine := hok 2 (Prod.ext (by decide +kernel) rfl)
  obtain ⟨heager', _⟩ := handle_drain (Env.refusing 1) {} 0 [0x3000] .supervisor hsync h w
  obtain ⟨herror, _⟩ := heager' a rfl rfl _ _
  obtain ⟨console, hone⟩ := herror (.host .io) (Prod.ext (by decide +kernel) rfl)
  refine ⟨hsync, ?_, ?_, ?_, ?_, ?_, ?_⟩
  · rw [show out 9 = _ from hnine]
    decide +kernel
  · rw [show out 9 = _ from hnine]
    decide +kernel
  · rw [show out 9 = _ from hnine]
    decide +kernel
  · rw [show out 1 = _ from hone]
    rfl
  · rw [show out 1 = _ from hone]
    dsimp only
    decide +kernel
  · rw [show out 1 = _ from hone]
    dsimp only
    decide +kernel

end Hart

end NestedAccel
