import NestedAccel.Proofs.Accesses
import NestedAccel.Proofs.Registration
import NestedAccel.Proofs.SyncCounters

/-!
# `NestedAccel.Proofs.Abandonment` — calls that the host never comes back from

A synchronization call leads its hart through the phases, and the phase is idle again however the call ends,
unless the host never comes back. Then the hart stays in the phase `applying`, **and it stays there for good**:
no operation of any hart leads out of it, and every later synchronization call of the hart is refused before it
looks at anything.

`SyncEnd` lists how a synchronization call can end in each phase. From there on the passes over a call and over
an operation carry a relation between the state before and the state after together with **whether the
computation was abandoned** (`Act.Ends`): a phase changes in no other way, and only with a request that the host
has not come back from (`Hart.Phased`, `Platform.PhasesKept`).
-/

namespace NestedAccel

open Relation (ReflTransGen)

variable {s σ ε ε' α β : Type}

/-! ## How computations end -/

/-- Control never came back. -/
def Outcome.isAbandoned : Outcome ε α → Bool
  | .abandoned => true
  | _ => false

namespace Act

/-- Relates the states before and after, by whether what is in between was abandoned. -/
structure Chains (Q : Bool → s → s → Prop) : Prop where
  refl : ∀ st, Q false st st
  trans : ∀ {b st st' st''}, Q false st st' → Q b st' st'' → Q b st st''

/-- However the computation ends, its states before and after are related. -/
def Ends (Q : Bool → s → s → Prop) (x : Act s ε α) : Prop :=
  ∀ st, Q (x.run st).1.isAbandoned st (x.run st).2

section
variable {Q : Bool → s → s → Prop} {x : Act s ε α}

theorem Ends.bind (hQ : Chains Q) {f : α → Act s ε β} (hx : Ends Q x) (hf : ∀ a, Ends Q (f a)) :
    Ends Q (x >>= f) := by
  intro st
  have hst := hx st
  rw [bind_run]
  rcases hr : x.run st with ⟨_ | _ | _, st'⟩
  · rw [hr] at hst
    exact hQ.trans hst (hf _ st')
  · rw [hr] at hst
    exact hst
  · rw [hr] at hst
    exact hst

theorem Ends.pure (hQ : Chains Q) (a : α) : Ends Q (Pure.pure a : Act s ε α) := hQ.refl

theorem Ends.fail (hQ : Chains Q) (e : ε) : Ends Q (Act.fail e : Act s ε α) := hQ.refl

theorem Ends.gets (hQ : Chains Q) (f : s → α) : Ends Q (Act.gets f : Act s ε α) := hQ.refl

theorem Ends.ofExcept (hQ : Chains Q) (e : Except ε α) : Ends Q (Act.ofExcept e : Act s ε α) := by
  cases e with
  | ok a => exact Ends.pure hQ a
  | error e => exact Ends.fail hQ e

theorem Ends.mapError (hx : Ends Q x) (f : ε → ε') : Ends Q (x.mapError f) := by
  intro st
  have hst := hx st
  rw [mapError_run]
  revert hst
  rcases x.run st with ⟨_ | _ | _, st'⟩ <;> exact id

theorem Ends.attempt (hx : Ends Q x) : Ends Q (x.attempt : Act s ε' (Except ε α)) := by
  intro st
  have hst := hx st
  rw [attempt_run]
  revert hst
  rcases x.run st with ⟨_ | _ | _, st'⟩ <;> exact id

end

/-- Every error that the computation can end with is of the kind `P`. -/
def Errors (P : ε → Prop) (x : Act s ε α) : Prop := ∀ st e st', x.run st = (.error e, st') → P e

section
variable {P : ε → Prop} {x : Act s ε α}

theorem Errors.bind {f : α → Act s ε β} (hx : Errors P x) (hf : ∀ a, Errors P (f a)) :
    Errors P (x >>= f) := by
  intro st e st' hrun
  rcases run_bind_error hrun with hrun | ⟨a, st₁, _, hrun⟩
  · exact hx st e st' hrun
  · exact hf a st₁ e st' hrun

theorem Errors.pure (a : α) : Errors P (Pure.pure a : Act s ε α) := fun _ _ _ hrun => by cases hrun

theorem Errors.gets (f : s → α) : Errors P (Act.gets f : Act s ε α) := fun _ _ _ hrun => by cases hrun

theorem Errors.modify (f : s → s) : Errors P (Act.modify f : Act s ε Unit) :=
  fun _ _ _ hrun => by cases hrun

/-- Errors that have been changed are of the kind that the change leads to. -/
theorem Errors.mapError {P : ε' → Prop} {f : ε → ε'} (hf : ∀ e, P (f e)) : Errors P (x.mapError f) := by
  intro st e st' hrun
  obtain ⟨e, rfl, _⟩ := run_mapError_error hrun
  exact hf e

end

end Act

open Act (Moves Ends Chains Errors)

/-! ## Synchronization calls -/

/-- An earlier call was abandoned half way. -/
def SyncError.IsBusy (e : SyncError) : Prop := ∃ phase, e = .busy phase

/-- How a synchronization call ends: the phase it starts in, its outcome, and the phase it leaves. -/
inductive SyncEnd : Phase → Outcome SyncError α → Phase → Prop where
  | refused {phase : Phase} {e : SyncError} (hphase : phase ≠ .idle) : SyncEnd phase (.error e) phase
  | ended {o : Outcome SyncError α} (hback : o ≠ .abandoned) (hbusy : ∀ e, o = .error e → ¬e.IsBusy) :
    SyncEnd .idle o .idle
  | abandoned : SyncEnd .idle .abandoned .applying

theorem SyncEnd.phase {phase phase' : Phase} {o : Outcome SyncError α} (h : SyncEnd phase o phase') :
    phase' = phase ∨ o.isAbandoned = true ∧ phase = .idle ∧ phase' = .applying := by
  cases h with
  | refused _ => exact .inl rfl
  | ended _ _ => exact .inl rfl
  | abandoned => exact .inr ⟨rfl, rfl, rfl⟩

theorem SyncEnd.applying {phase phase' : Phase} {o : Outcome SyncError α} (h : SyncEnd phase o phase')
    (ho : o.isAbandoned = true) : phase' = .applying := by
  cases h with
  | refused _ => cases ho
  | ended hback _ => cases o <;> first | exact absurd rfl hback | cases ho
  | abandoned => rfl

section
variable {env : Env σ} {a : Area}

theorem Env.applySlots_not_busy (slots : List CsrSlot) : Errors (¬·.IsBusy) (env.applySlots a slots) := by
  have hwrite : ∀ s v, Errors (¬·.IsBusy) (env.writeSlot SyncError.invalid SyncError.host s v) := by
    intro s v
    refine Errors.bind (Errors.mapError fun e => ?_) fun c => ?_
    · rintro ⟨_, h⟩
      cases h
    · refine Errors.bind (Errors.mapError fun e => ?_) fun _ => Errors.pure _
      rintro ⟨_, h⟩
      cases h
  show Errors _ (a.consume (env.writeSlot SyncError.invalid SyncError.host) slots)
  induction slots with
  | nil => exact Errors.pure _
  | cons s rest ih =>
    refine (Errors.gets _).bind fun v => (hwrite s v).bind fun _ => ?_
    exact (Errors.modify _).bind fun _ => ih.bind fun _ => Errors.pure _

theorem Env.leave_not_busy (state : TrapReturn) (swap : Option CsrWrite) :
    Errors (¬·.IsBusy) (env.leave a state swap) := by
  have hrequest : ∀ q, Errors (¬·.IsBusy) ((env.request q).mapError SyncError.host) := by
    intro q
    refine Errors.mapError fun e => ?_
    rintro ⟨_, h⟩
    cases h
  cases swap with
  | none => exact (hrequest _).bind fun _ => Errors.pure _
  | some c =>
    refine (hrequest _).bind fun old => (hrequest _).bind fun _ => (hrequest _).bind fun _ => ?_
    exact Errors.modify _

theorem Env.applyReturn_not_busy (plan : ReturnPlan) : Errors (¬·.IsBusy) (env.applyReturn a plan) := by
  refine (Env.applySlots_not_busy plan.slots).bind fun csrs => ?_
  refine Errors.bind (Errors.mapError fun e => ?_) fun fences => ?_
  · rintro ⟨_, h⟩
    cases h
  · exact (Env.leave_not_busy plan.state plan.swap).bind fun _ => Errors.pure _

theorem Area.prepareReturn_not_busy {autoswap : Bool} {m : Memory} {e : SyncError}
    (h : a.prepareReturn autoswap m = .error e) : ¬e.IsBusy := by
  rintro ⟨phase, rfl⟩
  -- a check that fails does not say so
  have hcheck : ∀ {ε α β : Type} {f : ε → SyncError} {x : Except ε α} {k : α → Except SyncError β},
      (∀ e, f e ≠ .busy phase) → (x.mapError f >>= k) = .error (.busy phase) →
        ∃ b, k b = .error (.busy phase) := by
    intro _ _ _ f x k hf h
    rcases Check.error_of_bind h with h | ⟨b, _, h⟩
    · obtain ⟨e, he⟩ := Check.error_of_mapError h
      exact absurd he (hf e)
    · exact ⟨b, h⟩
  obtain ⟨state, h⟩ := hcheck (by simp) h
  cases autoswap with
  | false =>
    obtain ⟨_, h⟩ := hcheck (by simp) h
    cases h
  | true =>
    obtain ⟨swap, h⟩ := hcheck (by simp) h
    obtain ⟨fences, h⟩ := hcheck (by simp) h
    obtain ⟨_, h⟩ := hcheck (by simp) h
    cases h

/-- A call that is led through its phases is refused in any phase but the first. -/
theorem inPhases_run_busy {prepare : Memory → Except SyncError β} {apply : β → Act (World σ) SyncError α}
    {st : Phase × World σ} (hphase : st.1 ≠ .idle) :
    (inPhases prepare apply).run st = (.error (.busy st.1), st) := by
  rcases st with ⟨_ | _ | _, w⟩
  · exact absurd rfl hphase
  · rfl
  · rfl

theorem inPhases_end {prepare : Memory → Except SyncError β} {apply : β → Act (World σ) SyncError α}
    (hprepare : ∀ m e, prepare m = .error e → ¬e.IsBusy) (happly : ∀ b, Errors (¬·.IsBusy) (apply b))
    (st : Phase × World σ) :
    SyncEnd st.1 ((inPhases prepare apply).run st).1 ((inPhases prepare apply).run st).2.1 := by
  by_cases hphase : st.1 = .idle
  · rcases st with ⟨_, w⟩
    cases hphase
    rw [inPhases_run_idle]
    cases hp : prepare w.memory with
    | error e =>
      refine .ended (by simp) fun e' he => ?_
      cases he
      exact hprepare _ e hp
    | ok b =>
      dsimp only
      rcases hr : (apply b).run w with ⟨_ | e | _, w'⟩
      · exact .ended (by simp) fun e he => by cases he
      · refine .ended (by simp) fun e' he => ?_
        cases he
        exact happly b w e w' hr
      · exact .abandoned
  · rw [inPhases_run_busy hphase]
    exact .refused hphase

namespace SyncCall

/-- **Every synchronization call ends in one of these ways.** -/
theorem act_end (env : Env σ) (a : Area) (call : SyncCall α) (st : Phase × World σ) :
    SyncEnd st.1 ((call.act env a).run st).1 ((call.act env a).run st).2.1 := by
  cases call with
  | csrs mask =>
    refine inPhases_end (fun m e he => ?_) (fun slots => Env.applySlots_not_busy slots) st
    unfold Area.prepareCsrs at he
    rintro ⟨_, rfl⟩
    split at he
    · cases he
    · split at he <;> cases he
  | hfences index =>
    refine inPhases_end (fun m e he => ?_) (fun fences => Errors.mapError fun e => ?_) st
    · unfold Area.prepareFences at he
      rintro ⟨_, rfl⟩
      split at he
      · cases he
      · split at he <;> cases he
    · rintro ⟨_, h⟩
      cases h
  | sret flags caller enabled =>
    rw [act_sret]
    rcases env.syncReturn_cases a flags caller enabled with ⟨e, hbusy, he⟩ | hphases
    · rw [he]
      by_cases hphase : st.1 = .idle
      · show SyncEnd st.1 (.error e) st.1
        rw [hphase]
        refine .ended (by simp) fun e' he' => ?_
        cases he'
        rintro ⟨phase, rfl⟩
        exact hbusy phase rfl
      · exact .refused hphase
    · rw [hphases]
      exact inPhases_end (fun m e => Area.prepareReturn_not_busy) (fun plan => Env.applyReturn_not_busy plan) st

/-- A hart that is not idle has every synchronization call refused. -/
theorem act_busy (env : Env σ) (a : Area) (call : SyncCall α) {phase : Phase} (hphase : phase ≠ .idle)
    (w : World σ) : ∃ e, (call.act env a).run (phase, w) = (.error e, (phase, w)) := by
  cases call with
  | csrs mask => exact ⟨_, inPhases_run_busy hphase⟩
  | hfences index => exact ⟨_, inPhases_run_busy hphase⟩
  | sret flags caller enabled =>
    rw [act_sret]
    rcases env.syncReturn_cases a flags caller enabled with ⟨e, _, he⟩ | hphases
    · rw [he]
      exact ⟨e, rfl⟩
    · rw [hphases]
      exact ⟨_, inPhases_run_busy hphase⟩

end SyncCall

end

/-! ## Calls -/

namespace Hart

variable {env : Env σ} {cfg : Config} {id : Word} {claimed : List Word} {caller : Privilege}
  {call : AccelCall} {h : Hart} {w : World σ}

/-- The relation allows for everything around the parts of a call. -/
structure Around (Q : Bool → Hart × World σ → Hart × World σ → Prop) : Prop extends Chains Q where
  counters : ∀ h w counters, Q false (h, w) ({ h with counters }, w)
  session : ∀ h w session, Q false (h, w) ({ h with session }, w)
  message : ∀ h w console, Q false (h, w) (h, { w with console })

/-- The relation allows for the synchronization calls of a hart. -/
def AllowsSync (env : Env σ) (Q : Bool → Hart × World σ → Hart × World σ → Prop) : Prop :=
  ∀ {α : Type} (call : SyncCall α) (a : Area) (h : Hart) (w : World σ),
    Q ((call.act env a).run (h.phase, w)).1.isAbandoned (h, w)
      ({ h with phase := ((call.act env a).run (h.phase, w)).2.1 },
        ((call.act env a).run (h.phase, w)).2.2)

section
variable {Q : Bool → Hart × World σ → Hart × World σ → Prop} (hQ : Around Q)
include hQ

theorem carried_ends :
    Carried (σ := σ) fun {ε α} (x : Act (Hart × World σ) ε α) => Ends Q x where
  pure a := Ends.pure hQ.toChains a
  fail e := Ends.fail hQ.toChains e
  bind hx hf := hx.bind hQ.toChains hf
  mapError hx f := hx.mapError f
  attempt hx := hx.attempt
  gets _ := Ends.gets hQ.toChains _
  counters _ st := hQ.counters st.1 st.2 _
  message _ _ st := hQ.message st.1 st.2 _

theorem changeMode_ends (id mode flags : Word) : Ends Q (changeMode id mode flags) := by
  refine Ends.bind hQ.toChains (Ends.gets hQ.toChains _) fun r => ?_
  refine Ends.bind hQ.toChains ((Ends.ofExcept hQ.toChains r).mapError _) fun session => ?_
  refine Ends.bind hQ.toChains (fun st => hQ.session st.1 st.2 session) fun _ => ?_
  exact Ends.bind hQ.toChains (fun st => hQ.message st.1 st.2 _) fun _ => Ends.pure hQ.toChains _

variable (hsync : AllowsSync env Q)
include hsync

omit hQ in
theorem onPhase_ends (call : SyncCall α) (a : Area) :
    Ends Q ((onPhase (call.act env a)).mapError SyncError.sbi) :=
  Ends.mapError (fun st => hsync call a st.1 st.2) _

theorem requireArea_ends (call : SyncCall α) :
    Ends Q (requireArea >>= fun a => (onPhase (call.act env a)).mapError SyncError.sbi) := by
  refine Ends.bind hQ.toChains ?_ fun a => onPhase_ends hsync call a
  refine Ends.bind hQ.toChains (Ends.gets hQ.toChains _) fun r => ?_
  exact (Ends.ofExcept hQ.toChains r).mapError _

/-- The synchronizations that a call can come to. -/
theorem sync_ends :
    (∀ mask, Ends Q (requireArea >>= fun a => (onPhase (env.syncCsrs a mask)).mapError SyncError.sbi)) ∧
    (∀ index, Ends Q (requireArea >>= fun a =>
      (onPhase (env.syncHfences a index)).mapError SyncError.sbi)) ∧
    ∀ flags caller enabled, Ends Q (requireArea >>= fun a =>
      (onPhase (env.syncReturn a flags caller enabled)).mapError SyncError.sbi) :=
  ⟨fun mask => requireArea_ends hQ hsync (.csrs mask),
    fun index => requireArea_ends hQ hsync (.hfences index),
    fun flags caller enabled => requireArea_ends hQ hsync (.sret flags caller enabled)⟩

theorem drain_ends : Ends Q (drain env) := by
  refine Ends.bind hQ.toChains (Ends.gets hQ.toChains _) fun found => ?_
  split
  · exact Ends.pure hQ.toChains _
  · rename_i a
    refine Ends.bind hQ.toChains (onPhase_ends hsync (.csrs .all) a) fun n => ?_
    exact (carried_ends hQ).count _ _

end

/-! ### The phase changes by abandonment only -/

/-- The phase is as it was, or it was idle and the host has not come back. -/
structure Phased (abandoned : Bool) (st st' : Hart × World σ) : Prop where
  phase : st'.1.phase = st.1.phase ∨
    abandoned = true ∧ st.1.phase = .idle ∧ st'.1.phase = .applying
  kept : Lost st.2.events → Lost st'.2.events
  lost : abandoned = true → Lost st'.2.events

theorem phased_around : Around (σ := σ) Phased where
  refl _ := ⟨.inl rfl, id, (nomatch ·)⟩
  trans {b st st' st''} h h' := by
    obtain hphase | ⟨hb, _⟩ := h.phase
    · refine ⟨?_, fun hlost => h'.kept (h.kept hlost), h'.lost⟩
      rw [← hphase]
      exact h'.phase
    · cases hb
  counters _ _ _ := ⟨.inl rfl, id, (nomatch ·)⟩
  session _ _ _ := ⟨.inl rfl, id, (nomatch ·)⟩
  message _ _ _ := ⟨.inl rfl, id, (nomatch ·)⟩

/-- What happens does not undo that the host has not come back. -/
theorem lost_of_events {w w' : World σ} {o : Outcome ε α} {calls : Event → Prop}
    (h : ∃ new, w'.events = w.events ++ new ∧ (∀ e ∈ new, calls e) ∧ (o = .abandoned → Lost new)) :
    (Lost w.events → Lost w'.events) ∧ (o.isAbandoned = true → Lost w'.events) := by
  obtain ⟨new, hevents, _, hlost⟩ := h
  rw [hevents]
  refine ⟨fun h => lost_append.2 (.inl h), fun ho => lost_append.2 (.inr (hlost ?_))⟩
  cases o <;> first | rfl | cases ho

theorem phased_sync : AllowsSync env Phased := by
  intro α call a h w
  have hconfined : ConfinedFrom env (.requesting fun _ => True) (call.act env a) (h.phase, w) :=
    call.act_confined (fun _ _ => trivial) _
  obtain ⟨hkept, hlost⟩ := lost_of_events hconfined.events
  refine ⟨?_, hkept, hlost⟩
  obtain hsame | ⟨hback, hidle, hleft⟩ := (call.act_end env a (h.phase, w)).phase
  · exact .inl hsame
  · exact .inr ⟨hback, hidle, hleft⟩

theorem onWorld_phased {π : Policy} {x : Act (World σ) ε α} (hx : ∀ w, Confined env π x w) :
    Ends Phased (onWorld x) := by
  rintro ⟨h, w⟩
  obtain ⟨hkept, hlost⟩ := lost_of_events (hx w).events
  exact ⟨.inl rfl, hkept, hlost⟩

theorem parts_phased : Parts env cfg id claimed caller call
    fun {ε α} (x : Act (Hart × World σ) ε α) => Ends Phased x where
  csrs low high _ := (sync_ends phased_around phased_sync).1 ⟨low, high⟩
  hfences index _ := (sync_ends phased_around phased_sync).2.1 index
  sret flags _ := (sync_ends phased_around phased_sync).2.2 flags caller _
  batch _ addr len _ := by
    refine Ends.bind phased_around.toChains (Ends.gets phased_around.toChains _) fun area => ?_
    have hconfined : ∀ w, Confined env ⟨fun _ => True, fun _ _ => True⟩
        (env.runBatch cfg.harts cfg.maxBatch area claimed addr len) w := fun w =>
      Env.runBatch_confined (fun _ _ => trivial)
        (fun _ _ => ⟨fun _ => trivial, trivial, fun _ _ _ _ _ _ _ => trivial⟩) cfg.harts
    exact (onWorld_phased hconfined).attempt
  inject _ _ _ _ _ i _ :=
    onWorld_phased (π := .requesting fun _ => True) fun w => Confined.ask (.inject i) w
  mode mode flags _ := changeMode_ends phased_around id mode flags

theorem drain_phased (env : Env σ) : Ends Phased (drain env) := drain_ends phased_around phased_sync

/-- **A call changes the phase of its hart only if the host does not come back.** -/
theorem handle_phased (env : Env σ) (cfg : Config) (id : Word) (claimed : List Word) (caller : Privilege)
    (call : AccelCall) : Ends Phased (handle env cfg id claimed caller call) :=
  (carried_ends phased_around).handle parts_phased (drain_phased env)

/-! ### What an abandoned call leaves -/

/-- An abandoned synchronization leaves the phase `applying`. -/
def LeavesApplying (abandoned : Bool) (_ st' : Hart × World σ) : Prop :=
  abandoned = true → st'.1.phase = .applying

theorem leavesApplying_around : Around (σ := σ) LeavesApplying where
  refl _ := (nomatch ·)
  trans _ h' := h'
  counters _ _ _ := (nomatch ·)
  session _ _ _ := (nomatch ·)
  message _ _ _ := (nomatch ·)

theorem leavesApplying_sync (env : Env σ) : AllowsSync env LeavesApplying :=
  fun call a h w => (call.act_end env a (h.phase, w)).applying

theorem drain_leavesApplying (env : Env σ) : Ends LeavesApplying (drain env) :=
  drain_ends leavesApplying_around (leavesApplying_sync env)

theorem handle_leavesApplying (hcall : Synchronizes call) :
    Ends LeavesApplying (handle env cfg id claimed caller call) := by
  obtain ⟨hcsrs, hfences, hsret⟩ := sync_ends leavesApplying_around (leavesApplying_sync env)
  refine (carried_ends leavesApplying_around).handle ?_ (drain_leavesApplying env)
  refine ⟨fun low high _ => hcsrs ⟨low, high⟩, fun index _ => hfences index,
    fun flags _ => hsret flags caller _, ?_, ?_, ?_⟩
  -- the call is none of the others
  · rintro _ addr len rfl
    rcases hcall with h | ⟨_, h⟩ <;> cases h
  · rintro _ kind number target rfl
    rcases hcall with h | ⟨_, h⟩ <;> cases h
  · rintro mode flags rfl
    rcases hcall with h | ⟨_, h⟩ <;> cases h

/-- The call asks the host for something without going through the phases. -/
def Asks (call : AccelCall) : Prop :=
  (∃ addr count, call = .batchExecute addr count) ∨
    ∃ kind number target, call = .injectInterrupt kind number target

/-- The phase is as it was, and only a call that asks the host itself can be abandoned. -/
def Apart (call : AccelCall) (abandoned : Bool) (st st' : Hart × World σ) : Prop :=
  st'.1.phase = st.1.phase ∧ (abandoned = true → Asks call)

theorem apart_around : Around (σ := σ) (Apart call) where
  refl _ := ⟨rfl, (nomatch ·)⟩
  trans h h' := ⟨h'.1.trans h.1, h'.2⟩
  counters _ _ _ := ⟨rfl, (nomatch ·)⟩
  session _ _ _ := ⟨rfl, (nomatch ·)⟩
  message _ _ _ := ⟨rfl, (nomatch ·)⟩

theorem undrained_apart (env : Env σ) (cfg : Config) (id : Word) (claimed : List Word) (caller : Privilege)
    (hcall : ¬Synchronizes call) :
    Ends (Apart call) (undrained env cfg id claimed caller call) := by
  have hparts : Parts env cfg id claimed caller call
      fun {ε α} (x : Act (Hart × World σ) ε α) => Ends (Apart call) x := by
    refine ⟨?_, ?_, ?_, ?_, ?_, ?_⟩
    · rintro low high rfl
      exact absurd (.inl rfl) hcall
    · rintro index rfl
      exact absurd (.inr ⟨index, rfl⟩) hcall
    · rintro flags rfl
      exact absurd (.inl rfl) hcall
    · intro _ addr len hbatch
      refine Ends.bind apart_around.toChains (Ends.gets apart_around.toChains _) fun area => ?_
      exact Ends.attempt fun st => ⟨rfl, fun _ => .inl ⟨addr, len, hbatch⟩⟩
    · exact fun _ kind number target hinject i _ st =>
        ⟨rfl, fun _ => .inr ⟨kind, number, target, hinject⟩⟩
    · exact fun mode flags _ => changeMode_ends apart_around id mode flags
  have hC : Carried (σ := σ) fun {ε α} (x : Act (Hart × World σ) ε α) => Ends (Apart call) x :=
    carried_ends apart_around
  exact hC.bind (hC.attempt (hC.perform hparts)) fun r => hC.conclude id call r

/-- **What an abandoned call leaves.** The phase is `applying` if the host was lost in a synchronization, be
    it the call itself or the drain before it. Otherwise the call has asked the host itself, and the phase is
    as it was. -/
theorem handle_abandoned (env : Env σ) (cfg : Config) (id : Word) (claimed : List Word)
    (caller : Privilege) (hrun : ((handle env cfg id claimed caller call).run (h, w)).1 = .abandoned) :
    (Synchronizes call ∨ ((drain env).run (h, announced id call w)).1 = .abandoned →
      ((handle env cfg id claimed caller call).run (h, w)).2.1.phase = .applying) ∧
    (¬(Synchronizes call ∨ ((drain env).run (h, announced id call w)).1 = .abandoned) →
      Asks call ∧ ((handle env cfg id claimed caller call).run (h, w)).2.1.phase = h.phase) := by
  by_cases hcall : Synchronizes call
  · refine ⟨fun _ => ?_, fun hnot => absurd (.inl hcall) hnot⟩
    refine handle_leavesApplying hcall (h, w) ?_
    rw [hrun]
    rfl
  · have hsyncs : syncsCsrs call = false := Bool.eq_false_iff.2 fun h => hcall (.inl h)
    have hdrain := handle_run_drain env cfg id claimed caller hsyncs (h := h) w
    have hphased := drain_phased env (h, announced id call w)
    have hleft := drain_leavesApplying env (h, announced id call w)
    rcases hd : (drain env).run (h, announced id call w) with ⟨_ | e | _, h', w'⟩
    · rw [hd] at hdrain hphased
      rw [hdrain] at hrun ⊢
      have hapart := undrained_apart env cfg id claimed caller hcall (h', w')
      rw [hrun] at hapart
      refine ⟨fun hor => ?_, fun _ => ⟨hapart.2 rfl, ?_⟩⟩
      · rcases hor with hor | hor
        · exact absurd hor hcall
        · cases hor
      · obtain hsame | ⟨hb, _⟩ := hphased.phase
        · exact hapart.1.trans hsame
        · cases hb
    · rw [hd] at hdrain
      obtain ⟨console, hconclude⟩ := conclude_error_run id call e h' w'
      rw [hdrain] at hrun
      dsimp only at hrun
      rw [hconclude] at hrun
      cases hrun
    · rw [hd] at hdrain hleft
      rw [hdrain]
      exact ⟨fun _ => hleft rfl, fun hnot => absurd (.inr rfl) hnot⟩

/-! ### Calls of a hart that is not idle -/

section
variable (hphase : h.phase ≠ .idle)
include hphase

/-- A synchronization that a hart counts and makes once it is known to have an area. -/
theorem busy_run (env : Env σ) (call : SyncCall α) (c : Counter)
    (k : α → Act (Hart × World σ) SbiError β) (w : World σ) :
    ∃ e, (count c 1 >>= fun _ => requireArea >>= fun a =>
        (onPhase (call.act env a)).mapError SyncError.sbi >>= k).run (h, w) =
      (.error e, ({ h with counters := h.counters.add c 1 }, w)) := by
  have hcount : (count c 1 : Act (Hart × World σ) SbiError Unit).run (h, w) =
      (.ok (), ({ h with counters := h.counters.add c 1 }, w)) := rfl
  rw [Act.bind_run, hcount, Act.next_ok]
  cases harea : h.session.area with
  | none =>
    exact ⟨_, requireArea_bind_run_none (h := { h with counters := h.counters.add c 1 }) harea w⟩
  | some a =>
    obtain ⟨e, he⟩ := call.act_busy env a hphase w
    rw [requireArea_bind_run (h := { h with counters := h.counters.add c 1 }) harea]
    dsimp only
    rw [he]
    exact ⟨_, rfl⟩

theorem perform_busy (env : Env σ) (cfg : Config) (id : Word) (claimed : List Word) (caller : Privilege)
    (hcall : Synchronizes call) (w : World σ) :
    ∃ e counters, (perform env cfg id claimed caller call).run (h, w) =
      (.error e, ({ h with counters }, w)) := by
  have hfeature : ∀ {f : Feature} {x : Act (Hart × World σ) SbiError CallResult},
      (∃ e counters, x.run (h, w) = (.error e, ({ h with counters }, w))) →
      ∃ e counters, (requireFeature cfg f >>= fun _ => x).run (h, w) =
        (.error e, ({ h with counters }, w)) := by
    intro f x hx
    unfold requireFeature
    split
    · exact hx
    · exact ⟨_, h.counters, rfl⟩
  cases call with
  | syncCsr low high =>
    obtain ⟨e, he⟩ := busy_run hphase env (.csrs ⟨low, high⟩) .syncCsrCalls
      (fun n => count .csrsSynced n >>= fun _ => pure (CallResult.value (.ofNat n))) w
    exact hfeature ⟨e, _, he⟩
  | syncHfence index =>
    obtain ⟨e, he⟩ := busy_run hphase env (.hfences index) .syncHfenceCalls
      (fun n => count .hfencesApplied n >>= fun _ => pure (CallResult.value (.ofNat n))) w
    exact hfeature ⟨e, _, he⟩
  | syncSret flags =>
    obtain ⟨e, he⟩ := busy_run hphase env
      (.sret flags caller (cfg.features.contains .autoswapCsr)) .syncSretCalls
      (fun summary => count .csrsSynced summary.csrs >>= fun _ =>
        count .hfencesApplied summary.fences >>= fun _ => pure CallResult.trapReturned) w
    exact hfeature ⟨e, _, he⟩
  | _ => rcases hcall with h | ⟨_, h⟩ <;> cases h

/-- **A hart that is not idle is refused every synchronization call, and in the eager mode every call,** before
    anything is asked or changed but its counters. -/
theorem handle_busy (env : Env σ) (cfg : Config) (id : Word) (claimed : List Word) (caller : Privilege)
    (hcall : Synchronizes call ∨ h.drainArea? ≠ none) (w : World σ) :
    ∃ e counters console, (handle env cfg id claimed caller call).run (h, w) =
      (.error e, ({ h with counters }, { w with console })) := by
  by_cases hnone : syncsCsrs call = true ∨ h.drainArea? = none
  · have hsync : Synchronizes call := hcall.elim (fun hsync => hsync) fun hsome => .inl (hnone.resolve_right hsome)
    obtain ⟨e, counters, hperform⟩ :=
      perform_busy hphase env cfg id claimed caller hsync (announced id call w)
    obtain ⟨console, hconclude⟩ := conclude_error_run id call e { h with counters } (announced id call w)
    rw [handle_run_undrained env cfg id claimed caller hnone, undrained, Act.bind_run, Act.attempt_run,
      hperform]
    exact ⟨e, _, console, hconclude⟩
  · rw [not_or, Bool.not_eq_true] at hnone
    obtain ⟨hsyncs, hsome⟩ := hnone
    obtain ⟨a, ha⟩ := Option.ne_none_iff_exists'.1 hsome
    obtain ⟨e, he⟩ := (SyncCall.csrs .all).act_busy env a hphase (announced id call w)
    obtain ⟨console, hconclude⟩ := conclude_error_run id call e.sbi h (announced id call w)
    rw [handle_run_eager env cfg id claimed caller hsyncs ha, ← SyncCall.act_csrs, he]
    exact ⟨_, _, console, hconclude⟩

end

end Hart

/-! ## Platforms -/

namespace Platform

variable {env : Env σ} {config : Config} {p : Platform} {id : Word} {st st' : Platform × World σ}

/-- The phase of hart `id`, if there is such a hart. -/
def phaseOf? (p : Platform) (id : Word) : Option Phase := (p.hart? id).map Hart.phase

theorem phaseOf?_of_hart? {h : Hart} (hh : p.hart? id = some h) : p.phaseOf? id = some h.phase := by
  unfold phaseOf?
  rw [hh]
  rfl

theorem exists_hart_of_phaseOf? {phase : Phase} (h : p.phaseOf? id = some phase) :
    ∃ hart, p.hart? id = some hart := by
  obtain ⟨hart, hh, _⟩ := Option.map_eq_some_iff.1 h
  exact ⟨hart, hh⟩

/-- Replacing a hart changes its phase only. -/
theorem phaseOf?_setHart {h : Hart} (hh : p.hart? id = some h) (h' : Hart) (id' : Word) :
    (p.setHart id h').phaseOf? id' = if id' = id then some h'.phase else p.phaseOf? id' := by
  by_cases hid : id' = id
  · subst hid
    rw [if_pos rfl, phaseOf?_of_hart? (hart?_setHart_same hh h')]
  · rw [if_neg hid, phaseOf?, hart?_setHart_other hid, ← phaseOf?]

/-- Phases are as they were, but for harts that were idle and lost the host. -/
structure PhasesKept (st st' : Platform × World σ) : Prop where
  phase : ∀ id, st'.1.phaseOf? id = st.1.phaseOf? id ∨
    st.1.phaseOf? id = some .idle ∧ st'.1.phaseOf? id = some .applying ∧ Lost st'.2.events
  kept : Lost st.2.events → Lost st'.2.events

theorem PhasesKept.refl (st : Platform × World σ) : PhasesKept st st := ⟨fun _ => .inl rfl, id⟩

theorem PhasesKept.trans {st'' : Platform × World σ} (h : PhasesKept st st') (h' : PhasesKept st' st'') :
    PhasesKept st st'' where
  phase id := by
    obtain hsame | ⟨hidle, hleft, hlost⟩ := h.phase id
    · obtain hsame' | ⟨hidle, hleft, hlost⟩ := h'.phase id
      · exact .inl (hsame'.trans hsame)
      · exact .inr ⟨hsame.symm.trans hidle, hleft, hlost⟩
    · obtain hsame' | ⟨hidle', _, _⟩ := h'.phase id
      · exact .inr ⟨hidle, hsame'.trans hleft, h'.kept hlost⟩
      -- a hart that is not idle any more does not become so
      · cases hleft.symm.trans hidle'
  kept hlost := h'.kept (h.kept hlost)

/-- A hart that keeps its phase can change in any other way. -/
theorem PhasesKept.setHart {w w' : World σ} {h h' : Hart} {claims : List Claim}
    (hh : p.hart? id = some h) (hphase : h'.phase = h.phase) {new : List Event}
    (hevents : w'.events = w.events ++ new) :
    PhasesKept (p, w) ({ p.setHart id h' with claims := claims }, w') where
  phase id' := by
    refine .inl ?_
    show (p.setHart id h').phaseOf? id' = p.phaseOf? id'
    rw [phaseOf?_setHart hh]
    split
    · rename_i hid
      rw [hid, phaseOf?_of_hart? hh, hphase]
    · rfl
  kept hlost := by
    show Lost w'.events
    rw [hevents]
    exact lost_append.2 (.inl hlost)

theorem Registration.phasesKept {gpa flags : Word} {w : World σ}
    {out : Outcome PlatformError Unit × (Platform × World σ)}
    (h : Registration env id gpa flags p w out) : PhasesKept (p, w) out.2 := by
  by_cases hok : out.1 = .ok ()
  · cases h with
    | done hadmits _ _ => exact .setHart hadmits.hart rfl rfl
    | _ => cases hok
  · obtain ⟨_, hplatform, _, new, hevents, _⟩ := h.failed hok
    refine ⟨fun id => .inl ?_, fun hlost => ?_⟩
    · rw [hplatform]
    · rw [hevents]
      exact lost_append.2 (.inl hlost)

theorem Step.phasesKept (h : Step env id st st') : PhasesKept st st' := by
  cases h with
  | @call p w hart hh caller call =>
    have hphased := Hart.handle_phased env p.config id p.claimed caller call (hart, w)
    rw [handle_run env hh]
    refine ⟨fun id' => ?_, hphased.kept⟩
    dsimp only
    rw [phaseOf?_setHart hh]
    split
    · rename_i hid
      rw [hid, phaseOf?_of_hart? hh]
      obtain hsame | ⟨hback, hidle, hleft⟩ := hphased.phase
      · exact .inl (congrArg some hsame)
      · exact .inr ⟨congrArg some hidle, congrArg some hleft, hphased.lost hback⟩
    · exact .inl rfl
  | establish hout => exact hout.phasesKept
  | release hh _ => exact .setHart hh rfl rfl
  | resetMode hh => exact .setHart hh rfl (List.append_nil _).symm

theorem Operation.phasesKept (env : Env σ) (id : Word) (op : Operation) (st : Platform × World σ) :
    PhasesKept st (op.run env id st) := by
  have hsteps := op.steps env id st
  generalize op.run env id st = st' at hsteps
  -- on the steps that the operation is made of
  induction hsteps with
  | refl => exact .refl st
  | tail _ hstep ih => exact ih.trans hstep.phasesKept

/-! ### What comes later -/

/-- What happens next: any hart makes any operation, or the guest hypervisor changes memory and the host its
    state. -/
inductive Next (env : Env σ) : Platform × World σ → Platform × World σ → Prop where
  | operation (id : Word) (op : Operation) (st : Platform × World σ) : Next env st (op.run env id st)
  | elsewhere (p : Platform) (w : World σ) (state : σ) (memory : Memory) :
    Next env (p, w) (p, { w with state, memory })

theorem Next.phasesKept (h : Next env st st') : PhasesKept st st' := by
  cases h with
  | operation id op => exact Operation.phasesKept env id op st
  | elsewhere p w state memory => exact ⟨fun _ => .inl rfl, id⟩

/-- **A hart that has lost the host in a synchronization stays as it is for good.** -/
theorem applying_of_later (h : ReflTransGen (Next env) st st') (hphase : st.1.phaseOf? id = some .applying) :
    st'.1.phaseOf? id = some .applying := by
  induction h with
  | refl => exact hphase
  | tail _ hnext ih =>
    obtain hsame | ⟨hidle, _, _⟩ := hnext.phasesKept.phase id
    · exact hsame.trans ih
    · cases ih.symm.trans hidle

/-- A hart is idle, or it has lost the host in a synchronization. -/
theorem Reachable.phases (h : Reachable env config st) (id : Word) {hart : Hart}
    (hh : st.1.hart? id = some hart) :
    hart.phase = .idle ∨ hart.phase = .applying ∧ Lost st.2.events := by
  suffices hphase : ∀ phase, st.1.phaseOf? id = some phase →
      phase = .idle ∨ phase = .applying ∧ Lost st.2.events from hphase _ (phaseOf?_of_hart? hh)
  clear hh
  induction h with
  | @new p w hp _ =>
    obtain ⟨_, rfl⟩ := create_ok hp
    intro phase hphase
    unfold phaseOf? hart? at hphase
    rw [Array.getElem?_replicate] at hphase
    split at hphase
    · cases hphase
      exact .inl rfl
    · cases hphase
  | @step st _ id' op ih =>
    intro phase hphase
    have hkept := Operation.phasesKept env id' op st
    obtain hsame | ⟨_, hleft, hlost⟩ := hkept.phase id
    · exact (ih phase (hsame.symm.trans hphase)).imp_right fun h => ⟨h.1, hkept.kept h.2⟩
    · cases hleft.symm.trans hphase
      exact .inr ⟨rfl, hlost⟩
  | elsewhere _ _ _ ih => exact ih

/-- **Only a host that does not come back leaves a hart busy, and then for good.**

    As long as the host has come back from every request, every hart is idle, and none of its synchronization
    calls is refused for an earlier one; unless it is abandoned itself it leaves the hart idle. Between calls
    no hart is checking, whatever has happened.

    If a call is abandoned in a synchronization, its own or that of the drain before it, the hart is left in
    the phase `applying`. If it is abandoned otherwise, it is a batch or an injection that has asked the host
    itself, and the phase is as it was.

    From a state in which a hart is in the phase `applying`, whatever happens later, each of its
    synchronization calls fails with nothing asked of the environment and guest memory unchanged. So does every
    other call while the hart is in the eager mode and has an area. -/
theorem Reachable.abandonment (h : Reachable env config st) :
    (∀ id hart, st.1.hart? id = some hart → hart.phase ≠ .checking ∧
      (¬Lost st.2.events → hart.phase = .idle ∧
        ∀ (α : Type) (call : SyncCall α) (a : Area) (w : World σ),
          let out := (call.act env a).run (hart.phase, w)
          (∀ e, out.1 = .error e → ¬e.IsBusy) ∧ (out.1 ≠ .abandoned → out.2.1 = .idle))) ∧
    (∀ id hart caller call, st.1.hart? id = some hart →
      let out := (handle env id caller call).run st
      let drained := (Hart.drain env).run (hart, Hart.announced id call st.2)
      out.1 = .abandoned →
        (Hart.Synchronizes call ∨ drained.1 = .abandoned → out.2.1.phaseOf? id = some .applying) ∧
        (¬(Hart.Synchronizes call ∨ drained.1 = .abandoned) →
          Hart.Asks call ∧ out.2.1.phaseOf? id = some hart.phase)) ∧
    ∀ id, st.1.phaseOf? id = some .applying → ∀ st', ReflTransGen (Next env) st st' →
      st'.1.phaseOf? id = some .applying ∧
      ∀ hart caller call, st'.1.hart? id = some hart →
        Hart.Synchronizes call ∨ hart.session.mode = .eager ∧ hart.session.area.isSome = true →
        let out := (handle env id caller call).run st'
        (∃ e, out.1 = .error e) ∧ out.2.2.events = st'.2.events ∧ out.2.2.memory = st'.2.memory := by
  refine ⟨fun id hart hh => ?_, ?_, fun id hphase st' hlater => ?_⟩
  · have hcases := h.phases id hh
    refine ⟨fun hchecking => ?_, fun hback => ?_⟩
    · rcases hcases with hidle | ⟨hleft, _⟩
      · cases hidle.symm.trans hchecking
      · cases hleft.symm.trans hchecking
    · have hidle : hart.phase = .idle := hcases.resolve_right fun h => hback h.2
      refine ⟨hidle, ?_⟩
      intro α call a w out
      have hend : SyncEnd hart.phase out.1 out.2.1 := call.act_end env a (hart.phase, w)
      rw [hidle] at hend
      generalize out.1 = o at hend ⊢
      generalize out.2.1 = phase at hend ⊢
      cases hend with
      | refused hphase => exact absurd rfl hphase
      | ended _ hbusy => exact ⟨hbusy, fun _ => rfl⟩
      | abandoned => exact ⟨fun e he => (nomatch he), fun hne => absurd rfl hne⟩
  · intro id hart caller call hh out drained hout
    have hrun := handle_run env hh caller call st.2
    have hleft := Hart.handle_abandoned env st.1.config id st.1.claimed caller
      ((congrArg Prod.fst hrun).symm.trans hout)
    rw [show out = _ from hrun]
    dsimp only
    rw [phaseOf?_of_hart? (hart?_setHart_same hh _)]
    exact ⟨fun hor => congrArg some (hleft.1 hor), fun hnot => (hleft.2 hnot).imp_right (congrArg some)⟩
  · have hphase' := applying_of_later hlater hphase
    refine ⟨hphase', ?_⟩
    intro hart caller call hh hcall out
    have hbusy : hart.phase ≠ .idle := by
      intro hidle
      have hsome := phaseOf?_of_hart? hh
      rw [hphase', hidle] at hsome
      cases hsome
    have hcall : Hart.Synchronizes call ∨ hart.drainArea? ≠ none := by
      refine hcall.imp_right ?_
      rintro ⟨hmode, harea⟩
      unfold Hart.drainArea?
      rw [hmode]
      exact Option.isSome_iff_ne_none.1 harea
    obtain ⟨e, counters, console, hrun⟩ :=
      Hart.handle_busy hbusy env st'.1.config id st'.1.claimed caller hcall st'.2
    have hout := handle_run env hh caller call st'.2
    rw [hrun] at hout
    rw [show out = _ from hout]
    exact ⟨⟨e, rfl⟩, rfl, rfl⟩

/-- An environment that does not come back from the request with number `n`, and carries out all others. -/
def losing (n : Nat) : Env Nat where
  host _ k m := (if k = n then .lost else .done 0, k + 1, m)
  map gpa _ k := (.ok ⟨gpa.toNat⟩, k)

/-- One hart with its area and two dirty CSRs, next to a host that will not come back from the second write. -/
def toLose : Platform × World Nat :=
  let created := (Operation.establish 0x3000 0).run (losing 1) 0
    ({ config := {}, harts := #[{}] }, { state := 0, memory := .zero })
  (created.1, { created.2 with
    state := 0
    memory := (Area.ofGuest 0x3000).writeCsrs
      [⟨CsrNumber.vsscratch, 1⟩, ⟨CsrNumber.hcounteren, 7⟩] created.2.memory })

theorem reachable_toLose : Reachable (losing 1) {} toLose := by
  have hnew := Reachable.one (losing 1) { state := 0, memory := .zero } rfl
  exact (hnew.step 0 (.establish 0x3000 0)).elsewhere _ _

/-- The call is abandoned. The hart releases its area, registers it again and is refused all the same. -/
theorem abandonment_second_write :
    let sync := handle (losing 1) 0 .supervisor (.syncCsr 0 0)
    let left := (sync.run toLose).2
    let again := Operation.run (losing 1) 0 (.establish 0x3000 0) (Operation.run (losing 1) 0 .release left)
    Reachable (losing 1) {} toLose ∧ ¬Lost toLose.2.events ∧ (sync.run toLose).1 = .abandoned ∧
    left.1.phaseOf? 0 = some .applying ∧ again.1.phaseOf? 0 = some .applying ∧
    (∃ e, (sync.run again).1 = .error e) ∧ (sync.run again).2.2.events = again.2.events ∧
    (sync.run again).2.2.memory = again.2.memory := by
  intro sync left again
  have hback : ¬Lost toLose.2.events := by
    have hevents : toLose.2.events = [.mapped 0x3000 areaBytes (.ok ⟨0x3000⟩)] := rfl
    rw [hevents]
    rintro ⟨q, hq⟩
    cases List.mem_singleton.1 hq
  have hlost : (sync.run toLose).1 = .abandoned := by decide +kernel
  have hleft : Reachable (losing 1) {} left := reachable_toLose.step 0 (.handle .supervisor (.syncCsr 0 0))
  obtain ⟨_, habandoned, _⟩ := reachable_toLose.abandonment
  have hhart : toLose.1.hart? 0 = some { session := { area := some (.ofGuest 0x3000) } } := rfl
  have happlying : left.1.phaseOf? 0 = some .applying :=
    (habandoned 0 _ .supervisor (.syncCsr 0 0) hhart hlost).1 (.inl (.inl rfl))
  have hlater : ReflTransGen (Next (losing 1)) left again :=
    (ReflTransGen.single (.operation 0 .release left)).tail (.operation 0 (.establish 0x3000 0) _)
  obtain ⟨_, _, hforever⟩ := hleft.abandonment
  obtain ⟨hstill, hrefused⟩ := hforever 0 happlying again hlater
  obtain ⟨hart, hh⟩ := exists_hart_of_phaseOf? hstill
  have hout := hrefused hart .supervisor (.syncCsr 0 0) hh (.inl (.inl rfl))
  exact ⟨reachable_toLose, hback, hlost, happlying, hstill, hout⟩

end Platform

end NestedAccel
