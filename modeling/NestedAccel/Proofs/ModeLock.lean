import NestedAccel.Proofs.Drain
import NestedAccel.Proofs.Steps

/-!
# `NestedAccel.Proofs.ModeLock` — a locked mode stays until the hart goes offline

The mode of a hart and its lock are fields of its session, next to the shared area. Calls read the session, and
one of them changes it: a `setMode` that succeeds (**`Hart.handle_session`**). Registrations and releases change
the area and leave the rest of the session; only going offline resets the mode.

So whatever a hart does while it stays online, and whatever all others do, a locked mode is kept
(`Platform.locked_of_later`). **`Platform.mode_lock`** adds how the `setMode` calls of such a hart fail, that a
`setMode` call without a result changes neither the mode nor the lock of any hart, and what going offline leaves.
-/

namespace NestedAccel

open Act (Moves)
open Relation (ReflTransGen)

variable {σ ε α β γ : Type}

theorem Session.setMode_locked {s : Session} (hlocked : s.locked = true) (mode flags : Word) :
    s.setMode mode flags = .error .modeLocked := by
  unfold setMode
  rw [if_pos hlocked]

/-- The hart without its shared area. -/
def Hart.withoutArea (h : Hart) : Hart := { h with session := { h.session with area := none } }

namespace Hart

variable {env : Env σ} {cfg : Config} {id : Word} {claimed : List Word} {caller : Privilege}
  {call : AccelCall} {h : Hart} {w : World σ}

/-! ## The session across a call -/

/-- The session is as it was. -/
def SameSession (st st' : Hart × World σ) : Prop := st'.1.session = st.1.session

instance : IsPreorder (Hart × World σ) SameSession where
  refl _ := rfl
  trans _ _ _ h h' := Eq.trans h' h

theorem carried_sameSession :
    Carried (σ := σ) fun {ε α} (x : Act (Hart × World σ) ε α) => Moves SameSession x where
  pure a := Moves.pure a
  fail e := Moves.fail e
  bind hx hf := hx.bind hf
  mapError hx f := hx.mapError f
  attempt hx := hx.attempt
  gets _ := Moves.gets _
  counters _ _ := rfl
  message _ _ _ := rfl

theorem onWorld_sameSession (x : Act (World σ) ε α) : Moves SameSession (onWorld x) := fun _ => rfl

/-- A synchronization changes the phase of a hart, and not its session. -/
theorem onPhase_sameSession (x : Act (Phase × World σ) ε α) (f : ε → SbiError) :
    Moves SameSession ((onPhase x).mapError f) := by
  have hphase : Moves SameSession (onPhase x) := fun _ => rfl
  exact hphase.mapError f

theorem requireArea_sameSession (x : Area → Act (Phase × World σ) ε α) (f : ε → SbiError) :
    Moves SameSession (requireArea >>= fun a => (onPhase (x a)).mapError f) := by
  refine Moves.bind ?_ fun a => onPhase_sameSession (x a) f
  exact Moves.bind_gets fun _ => (Moves.ofExcept _).mapError _

theorem drain_sameSession (env : Env σ) : Moves SameSession (drain env) := by
  refine Moves.bind_gets fun st => ?_
  split
  · exact Moves.pure _
  · exact (onPhase_sameSession _ _).bind fun n => carried_sameSession.count _ n

/-- Every part of a call but the change of the mode leaves the session alone. -/
theorem parts_sameSession (hcall : ∀ mode flags, call ≠ .setMode mode flags) :
    Parts env cfg id claimed caller call
      fun {ε α} (x : Act (Hart × World σ) ε α) => Moves SameSession x where
  csrs _ _ _ := requireArea_sameSession _ _
  hfences _ _ := requireArea_sameSession _ _
  sret _ _ := requireArea_sameSession _ _
  batch _ _ _ _ := (Moves.gets _).bind fun _ => (onWorld_sameSession _).attempt
  inject _ _ _ _ _ _ _ := onWorld_sameSession _
  mode mode flags h := absurd h (hcall mode flags)

/-! ## Changing the mode -/

/-- A new mode is refused for its operands, or for the lock. -/
theorem changeMode_run_error (id : Word) {mode flags : Word} {e : SessionError}
    (hset : h.session.setMode mode flags = .error e) (w : World σ) :
    (changeMode id mode flags).run (h, w) = (.error e.sbi, (h, w)) := by
  unfold changeMode
  rw [Act.bind_run, Act.gets_run, Act.next_ok, hset]
  rfl

theorem changeMode_run_ok (id : Word) {mode flags : Word} {session : Session}
    (hset : h.session.setMode mode flags = .ok session) (w : World σ) :
    ∃ console, (changeMode id mode flags).run (h, w) =
      (.ok (.value 0), ({ h with session }, { w with console })) := by
  unfold changeMode
  rw [Act.bind_run, Act.gets_run, Act.next_ok, hset]
  exact ⟨_, rfl⟩

/-- How a call for a new mode ends: what the drain before it has come to, the outcome of the call, and the
    session that it leaves of the session `s`. -/
inductive SetModeEnd (s : Session) (mode flags : Word) :
    Outcome SbiError Unit → Outcome SbiError CallResult → Session → Prop where
  | done {s' : Session} (hset : s.setMode mode flags = .ok s') :
    SetModeEnd s mode flags (.ok ()) (.ok (.value 0)) s'
  | refused {e : SessionError} (hset : s.setMode mode flags = .error e) :
    SetModeEnd s mode flags (.ok ()) (.error e.sbi) s
  | notDrained {e : SbiError} : SetModeEnd s mode flags (.error e) (.error e) s
  | abandoned : SetModeEnd s mode flags .abandoned .abandoned s

section
variable {s s' : Session} {mode flags : Word} {drained : Outcome SbiError Unit}
  {o : Outcome SbiError CallResult}

theorem SetModeEnd.session (h : SetModeEnd s mode flags drained o s') :
    s' = s ∨ s.setMode mode flags = .ok s' ∧ o = .ok (.value 0) := by
  cases h with
  | done hset => exact .inr ⟨hset, rfl⟩
  | _ => exact .inl rfl

/-- A locked mode is not changed once the drain is over, and otherwise the call ends as the drain does. -/
theorem SetModeEnd.locked (h : SetModeEnd s mode flags drained o s') (hlocked : s.locked = true) :
    (drained = .ok () → o = .error .deniedLocked) ∧ (∀ e, drained = .error e → o = .error e) ∧
      (drained = .abandoned → o = .abandoned) := by
  cases h with
  | done hset =>
    rw [Session.setMode_locked hlocked] at hset
    cases hset
  | refused hset =>
    rw [Session.setMode_locked hlocked] at hset
    cases hset
    exact ⟨fun _ => rfl, fun _ he => (nomatch he), (nomatch ·)⟩
  | notDrained =>
    refine ⟨(nomatch ·), fun e he => ?_, (nomatch ·)⟩
    cases he
    rfl
  | abandoned => exact ⟨(nomatch ·), fun _ he => (nomatch he), fun _ => rfl⟩

end

/-- Concluding with an error is the error, and it leaves the session. -/
theorem conclude_error_session (id : Word) (call : AccelCall) (e : SbiError) (st : Hart × World σ) :
    ((conclude id call (.error e)).run st).1 = .error e ∧
    ((conclude id call (.error e)).run st).2.1.session = st.1.session := by
  obtain ⟨console, hrun⟩ := conclude_error_run id call e st.1 st.2
  rw [show st = (st.1, st.2) from rfl, hrun]
  exact ⟨rfl, rfl⟩

/-- **Every call for a new mode ends in one of these ways.** -/
theorem handle_setMode (env : Env σ) (cfg : Config) (id : Word) (claimed : List Word) (caller : Privilege)
    (mode flags : Word) (h : Hart) (w : World σ) :
    let out := (handle env cfg id claimed caller (.setMode mode flags)).run (h, w)
    SetModeEnd h.session mode flags ((drain env).run (h, announced id (.setMode mode flags) w)).1
      out.1 out.2.1.session := by
  intro out
  have hsyncs : syncsCsrs (.setMode mode flags) = false := rfl
  have hrun : out = _ := handle_run_drain env cfg id claimed caller hsyncs w
  have hdrained := drain_sameSession env (h, announced id (.setMode mode flags) w)
  rw [hrun]
  revert hdrained
  rcases (drain env).run (h, announced id (.setMode mode flags) w) with ⟨_ | e | _, h', w'⟩
  · intro (hsame : h'.session = h.session)
    dsimp only
    rw [← hsame, undrained, Act.bind_run, Act.attempt_run, perform]
    cases hset : h'.session.setMode mode flags with
    | ok s =>
      obtain ⟨console, hchange⟩ := changeMode_run_ok id hset w'
      rw [hchange]
      exact .done hset
    | error e =>
      obtain ⟨hout, hsession⟩ := conclude_error_session id (.setMode mode flags) e.sbi (h', w')
      rw [changeMode_run_error id hset, Act.next_ok, hout, hsession]
      exact .refused hset
  · intro (hsame : h'.session = h.session)
    obtain ⟨hout, hsession⟩ := conclude_error_session id (.setMode mode flags) e (h', w')
    dsimp only
    rw [hout, hsession, hsame]
    exact .notDrained
  · intro (hsame : h'.session = h.session)
    dsimp only
    rw [hsame]
    exact .abandoned

/-- **A call changes the session only by a new mode that is accepted.** -/
theorem handle_session (env : Env σ) (cfg : Config) (id : Word) (claimed : List Word) (caller : Privilege)
    (call : AccelCall) (h : Hart) (w : World σ) :
    let out := (handle env cfg id claimed caller call).run (h, w)
    out.2.1.session = h.session ∨
      ∃ mode flags, call = .setMode mode flags ∧ h.session.setMode mode flags = .ok out.2.1.session ∧
        out.1 = .ok (.value 0) := by
  intro out
  by_cases hcall : ∃ mode flags, call = .setMode mode flags
  · obtain ⟨mode, flags, rfl⟩ := hcall
    obtain hsame | ⟨hset, hok⟩ := (handle_setMode env cfg id claimed caller mode flags h w).session
    · exact .inl hsame
    · exact .inr ⟨mode, flags, rfl, hset, hok⟩
  · have hother : ∀ mode flags, call ≠ .setMode mode flags := fun mode flags h => hcall ⟨mode, flags, h⟩
    exact .inl (carried_sameSession.handle (parts_sameSession hother) (drain_sameSession env) (h, w))

end Hart

namespace Platform

variable {env : Env σ} {id : Word} {mode : Mode} {st st' : Platform × World σ}

/-! ## Registrations and releases -/

/-- What `f` reads off each hart is as it was. -/
def Same (f : Hart → β) (st st' : Platform × World σ) : Prop :=
  ∀ id, (st'.1.hart? id).map f = (st.1.hart? id).map f

instance (f : Hart → β) : IsPreorder (Platform × World σ) (Same f) where
  refl _ _ := rfl
  trans _ _ _ h h' id := (h' id).trans (h id)

section
variable {p : Platform} {h h' : Hart} {w w' : World σ} {f : Hart → β}

theorem Same.setHart {claims : List Claim} (hh : p.hart? id = some h) (hsame : f h' = f h) :
    Same f (p, w) ({ p.setHart id h' with claims := claims }, w') := by
  intro id'
  show ((p.setHart id h').hart? id').map f = _
  by_cases hid : id' = id
  · rw [hid, hart?_setHart_same hh, hh]
    exact congrArg some hsame
  · rw [hart?_setHart_other hid]

/-- What is read off that is as it was. -/
theorem Same.comp (hsame : Same f st st') (g : β → γ) : Same (fun h => g (f h)) st st' := by
  intro id
  have hid := congrArg (Option.map g) (hsame id)
  rwa [Option.map_map, Option.map_map] at hid

theorem Same.hart? (hsame : Same f st st') (hh : st.1.hart? id = some h) :
    ∃ h', st'.1.hart? id = some h' ∧ f h' = f h := by
  have hid := hsame id
  rw [hh] at hid
  exact Option.map_eq_some_iff.1 hid

/-- Registrations change the areas of harts only. -/
theorem Registration.same {gpa flags : Word} {out : Outcome PlatformError Unit × (Platform × World σ)}
    (h : Registration env id gpa flags p w out) : Same Hart.withoutArea (p, w) out.2 := by
  cases h with
  | done hadmits _ _ => exact .setHart hadmits.hart rfl
  | _ => exact fun _ => rfl

theorem establish_same (env : Env σ) (id gpa flags : Word) :
    Moves (Same Hart.withoutArea) (establish env id gpa flags) :=
  fun st => (establish_run env id gpa flags st.1 st.2).same

/-- Releases change the areas of harts only. -/
theorem release_same (id : Word) : Moves (Same (σ := σ) Hart.withoutArea) (release id) := by
  rintro ⟨p, w⟩
  cases hh : p.hart? id with
  | none =>
    rw [release_run_noHart hh]
    exact refl_of _ (p, w)
  | some h =>
    cases harea : h.session.area with
    | none =>
      rw [release_run_none hh harea]
      exact refl_of _ (p, w)
    | some a =>
      obtain ⟨console, hrun⟩ := release_run_some hh harea w
      rw [hrun]
      exact .setHart hh rfl

end

/-! ## A locked mode -/

/-- Hart `id` is in mode `mode`, and the mode is locked. -/
def LockedIn (p : Platform) (id : Word) (mode : Mode) : Prop :=
  ∃ h, p.hart? id = some h ∧ h.session.mode = mode ∧ h.session.locked = true

/-- The mode of hart `id` stays locked as `mode` if it was. -/
def LockKept (id : Word) (mode : Mode) (st st' : Platform × World σ) : Prop :=
  st.1.LockedIn id mode → st'.1.LockedIn id mode

instance : IsPreorder (Platform × World σ) (LockKept id mode) where
  refl _ := fun h => h
  trans _ _ _ h h' := fun hlocked => h' (h hlocked)

/-- Whatever changes areas only keeps a lock. -/
theorem Same.lockKept (hsame : Same Hart.withoutArea st st') : LockKept id mode st st' := by
  rintro ⟨h, hh, hmode, hlocked⟩
  obtain ⟨h', hh', hkept⟩ := hsame.hart? hh
  have hmode' : h'.session.mode = h.session.mode := congrArg (fun h => h.session.mode) hkept
  have hlocked' : h'.session.locked = h.session.locked := congrArg (fun h => h.session.locked) hkept
  exact ⟨h', hh', hmode'.trans hmode, hlocked'.trans hlocked⟩

theorem handle_lockKept (id : Word) (caller : Privilege) (call : AccelCall) :
    Moves (LockKept id mode) (handle env id caller call) := by
  rintro ⟨p, w⟩
  cases hh : p.hart? id with
  | none =>
    rw [handle_run_none env hh]
    exact refl_of _ (p, w)
  | some h =>
    rintro ⟨h₀, hh₀, hmode, hlocked⟩
    cases hh₀.symm.trans hh
    have hsession : ((Hart.handle env p.config id p.claimed caller call).run (h, w)).2.1.session =
        h.session := by
      obtain hsame | ⟨m, flags, _, hset, _⟩ := Hart.handle_session env p.config id p.claimed caller call h w
      · exact hsame
      -- a locked mode is not changed
      · rw [Session.setMode_locked hlocked] at hset
        cases hset
    rw [handle_run env hh]
    refine ⟨_, hart?_setHart_same hh _, ?_, ?_⟩
    · rw [hsession, hmode]
    · rw [hsession, hlocked]

theorem establish_lockKept (id' gpa flags : Word) : Moves (LockKept id mode) (establish env id' gpa flags) :=
  fun st => (establish_same env id' gpa flags st).lockKept

theorem release_lockKept (id' : Word) : Moves (LockKept (σ := σ) id mode) (release id') :=
  fun st => (release_same id' st).lockKept

/-- Steps of other harts do not touch the hart. -/
theorem Step.hart?_other {id' : Word} (h : Step env id' st st') (hne : id ≠ id') :
    st'.1.hart? id = st.1.hart? id := by
  cases h with
  | @call p w h hh caller call =>
    rw [handle_run env hh]
    exact hart?_setHart_other hne _
  | establish hout =>
    cases hout with
    | done _ _ _ => exact hart?_setHart_other hne _
    | _ => rfl
  | release _ _ => exact hart?_setHart_other hne _
  | resetMode _ => exact hart?_setHart_other hne _

theorem Operation.hart?_other {id' : Word} (op : Operation) (hne : id ≠ id') (st : Platform × World σ) :
    (op.run env id' st).1.hart? id = st.1.hart? id := by
  have hsteps := op.steps env id' st
  generalize op.run env id' st = st' at hsteps
  induction hsteps with
  | refl => rfl
  | tail _ hstep ih => exact (hstep.hart?_other hne).trans ih

/-! ## What happens while a hart is online -/

/-- What happens next while hart `id` stays online: any hart makes any operation, but this hart does not go
    offline, or the guest hypervisor changes memory and the host its state. -/
inductive Online (env : Env σ) (id : Word) : Platform × World σ → Platform × World σ → Prop where
  | operation (id' : Word) (op : Operation) (hop : ¬(id' = id ∧ op = .offline)) (st : Platform × World σ) :
    Online env id st (op.run env id' st)
  | elsewhere (p : Platform) (w : World σ) (state : σ) (memory : Memory) :
    Online env id (p, w) (p, { w with state, memory })

theorem Online.lockKept (h : Online env id st st') : LockKept id mode st st' := by
  cases h with
  | operation id' op hop =>
    by_cases hid : id' = id
    · subst hid
      cases op with
      | handle caller call => exact handle_lockKept id' caller call st
      | ecall caller rs =>
        exact ecall_moves (handle_lockKept id' caller) (establish_lockKept id') (release_lockKept id') rs st
      | establish gpa flags => exact establish_lockKept id' gpa flags st
      | release => exact release_lockKept id' st
      | offline => exact absurd ⟨rfl, rfl⟩ hop
    · rintro ⟨h, hh, hlocked⟩
      exact ⟨h, (Operation.hart?_other op (Ne.symm hid) st).trans hh, hlocked⟩
  | elsewhere p w state memory => exact fun hlocked => hlocked

/-- **A locked mode stays as it is as long as the hart is online.** -/
theorem locked_of_later (h : ReflTransGen (Online env id) st st') : LockKept id mode st st' := by
  induction h with
  | refl => exact refl_of _ st
  | tail _ hnext ih => exact fun hlocked => hnext.lockKept (ih hlocked)

/-! ## Going offline -/

/-- A hart that goes offline keeps its phase and its counters, and its session is a new one. -/
theorem offline_run {p : Platform} {h : Hart} (hh : p.hart? id = some h) (w : World σ) :
    ((offline id).run (p, w)).1 = .ok () ∧
    ((offline id).run (p, w)).2.1.hart? id = some { h with session := {} } := by
  unfold offline
  rw [Act.bind_run]
  cases harea : h.session.area with
  | none =>
    rw [release_run_none hh harea, Act.next_ok, onHart_run hh]
    refine ⟨rfl, (hart?_setHart_same hh _).trans ?_⟩
    show some { h with session := h.session.resetMode } = _
    rw [Session.resetMode, harea]
  | some a =>
    obtain ⟨console, hrun⟩ := release_run_some hh harea w
    have hleft : (p.leave id h).hart? id = some { h with session := { h.session with area := none } } :=
      hart?_setHart_same hh _
    rw [hrun, Act.next_ok, onHart_run hleft]
    exact ⟨rfl, hart?_setHart_same hleft _⟩

/-! ## The lock -/

/-- **The mode lock holds until the hart goes offline.**

    From a state in which the mode of hart `id` is locked, whatever happens while the hart does not go offline,
    it has the same mode, locked, and none of its `setMode` calls succeeds: a call fails with `deniedLocked`
    unless the drain before it fails, whose error it then has, or is abandoned.

    Locked or not, a `setMode` call that does not succeed leaves the mode and the lock as they were. A hart
    that goes offline is in the deferred mode, unlocked and without an area. -/
theorem mode_lock (env : Env σ) (id : Word) :
    (∀ st mode, st.1.LockedIn id mode → ∀ st', ReflTransGen (Online env id) st st' →
      ∃ h, st'.1.hart? id = some h ∧ h.session.mode = mode ∧ h.session.locked = true ∧
        ∀ caller mode flags,
          let out := ((handle env id caller (.setMode mode flags)).run st').1
          let drained := (Hart.drain env).run (h, Hart.announced id (.setMode mode flags) st'.2)
          (drained.1 = .ok () → out = .error .deniedLocked) ∧
          (∀ e, drained.1 = .error e → out = .error e) ∧
          (drained.1 = .abandoned → out = .abandoned)) ∧
    (∀ (st : Platform × World σ) h, st.1.hart? id = some h → ∀ caller mode flags,
      let out := (handle env id caller (.setMode mode flags)).run st
      (∀ r, out.1 ≠ .ok r) → ∃ h', out.2.1.hart? id = some h' ∧ h'.session.mode = h.session.mode ∧
        h'.session.locked = h.session.locked) ∧
    ∀ (st : Platform × World σ) h, st.1.hart? id = some h →
      ∃ h', ((offline id).run st).2.1.hart? id = some h' ∧ h'.session.mode = .deferred ∧
        h'.session.locked = false ∧ h'.session.area = none := by
  refine ⟨fun st mode hlocked st' hlater => ?_, fun st h hh caller mode flags => ?_,
    fun st h hh => ?_⟩
  · obtain ⟨h, hh, hmode, hlocked⟩ := locked_of_later hlater hlocked
    refine ⟨h, hh, hmode, hlocked, fun caller mode' flags => ?_⟩
    intro out drained
    have hout : out = ((Hart.handle env st'.1.config id st'.1.claimed caller (.setMode mode' flags)).run
        (h, st'.2)).1 := congrArg Prod.fst (handle_run env hh caller (.setMode mode' flags) st'.2)
    rw [hout]
    exact (Hart.handle_setMode env st'.1.config id st'.1.claimed caller mode' flags h st'.2).locked hlocked
  · intro out hfails
    have hrun : out = _ := handle_run env hh caller (.setMode mode flags) st.2
    obtain hsame | ⟨_, _, _, _, hok⟩ :=
      Hart.handle_session env st.1.config id st.1.claimed caller (.setMode mode flags) h st.2
    · rw [hrun]
      exact ⟨_, hart?_setHart_same hh _, congrArg Session.mode hsame, congrArg Session.locked hsame⟩
    · exact absurd ((congrArg Prod.fst hrun).trans hok) (hfails _)
  · exact ⟨_, (offline_run hh st.2).2, rfl, rfl, rfl⟩

/-- Two harts, the first of which locks the eager mode, registers its area, and is left alone by the second. A
    host that refuses the first request refuses the drain, and one that is asked for nothing lets the call come
    to the lock. -/
theorem mode_lock_two_harts :
    let env := Env.refusing 0
    let start : Platform × World Nat :=
      ({ config := {}, harts := #[{}, {}] }, { state := 0, memory := .zero })
    let locked := Operation.run env 0 (.handle .supervisor (.setMode 1 1)) start
    let later := Operation.run env 1 .offline (Operation.run env 0 (.establish 0x3000 0) locked)
    let dirty : Platform × World Nat := (later.1, { later.2 with
      state := 0
      memory := (Area.ofGuest 0x3000).writeCsrs [⟨CsrNumber.vsscratch, 1⟩] later.2.memory })
    locked.1.LockedIn 0 .eager ∧ ReflTransGen (Online env 0) locked later ∧
    ReflTransGen (Online env 0) locked dirty ∧
    ((handle env 0 .supervisor (.setMode 0 0)).run later).1 = .error .deniedLocked ∧
    ((handle env 0 .supervisor (.setMode 0 0)).run dirty).1 = .error .io ∧
    (∃ h, ((handle env 0 .supervisor (.setMode 0 0)).run dirty).2.1.hart? 0 = some h ∧
      h.session.mode = .eager ∧ h.session.locked = true) ∧
    ∃ h, ((offline 0).run dirty).2.1.hart? 0 = some h ∧ h.session.mode = .deferred ∧
      h.session.locked = false ∧ h.session.area = none := by
  intro env start locked later dirty
  have hlocked : locked.1.LockedIn 0 .eager := ⟨_, rfl, rfl, rfl⟩
  have hlater : ReflTransGen (Online env 0) locked later := by
    have hregistered : Online env 0 locked (Operation.run env 0 (.establish 0x3000 0) locked) :=
      .operation 0 (.establish 0x3000 0) (by simp) locked
    have hleft : Online env 0 (Operation.run env 0 (.establish 0x3000 0) locked) later :=
      .operation 1 .offline (fun h => absurd h.1 (by decide)) _
    exact (ReflTransGen.single hregistered).tail hleft
  have hdirty : ReflTransGen (Online env 0) locked dirty := hlater.tail (.elsewhere later.1 later.2 _ _)
  have hart : dirty.1.hart? 0 =
      some { session := { area := some (.ofGuest 0x3000), mode := .eager, locked := true } } := by
    decide +kernel
  obtain ⟨hkept, hfails, hoffline⟩ := mode_lock env 0
  -- the hart is the same in both states
  obtain ⟨h, hh, _, _, hset⟩ := hkept locked .eager hlocked later hlater
  obtain ⟨h', hh', _, _, hset'⟩ := hkept locked .eager hlocked dirty hdirty
  obtain rfl := Option.some.inj (hh.symm.trans hart)
  obtain rfl := Option.some.inj (hh'.symm.trans hart)
  have hdenied := (hset .supervisor 0 0).1 (by decide +kernel)
  have hio := (hset' .supervisor 0 0).2.1 .io (by decide +kernel)
  have hfailed : ∀ r, ((handle env 0 .supervisor (.setMode 0 0)).run dirty).1 ≠ .ok r := by
    intro r hr
    rw [hio] at hr
    cases hr
  obtain ⟨h₁, hh₁, hmode, hstays⟩ := hfails dirty _ hart .supervisor 0 0 hfailed
  exact ⟨hlocked, hlater, hdirty, hdenied, hio, ⟨h₁, hh₁, hmode, hstays⟩, hoffline dirty _ hart⟩

end Platform

end NestedAccel
