import NestedAccel.Platform.Ecall
import NestedAccel.Proofs.World

/-!
# `NestedAccel.Proofs.Steps` — what an operation of a hart comes to

A hart makes an operation on its platform: it makes a call, registers or releases its area, or goes offline.
This module says what each of them comes to, **exactly and in every case**: the result, the platform, and the
world with its record. A release has two cases (`release_run_none`, `release_run_some`), a registration six
(`Registration`), and a call is what its hart answers (`handle_run`).

An environment call is one of these, or nothing at all. So every operation is a sequence of steps
(`Operation.steps`), of which there are four kinds.
-/

namespace NestedAccel

open Relation (ReflTransGen)
open Act (Moves)

variable {σ ε α : Type}

/-! ## Sessions -/

namespace Session

theorem checkEstablish_ok {s : Session} {gpa size flags : Word}
    (h : s.checkEstablish gpa size flags = .ok ()) :
    gpa % areaAlign = 0 ∧ size = areaBytes ∧ Word.within keepFlag flags = true ∧ s.area = none := by
  unfold checkEstablish at h
  split at h
  · cases h
  · rename_i halign
    split at h
    · cases h
    · rename_i hsize
      split at h
      · cases h
      · rename_i hflags
        split at h
        · cases h
        · rename_i hfree
          exact ⟨Decidable.not_not.1 halign, Decidable.not_not.1 hsize, Decidable.not_not.1 hflags,
            by simpa using hfree⟩

/-- Guest memory once an area has been registered. -/
def registered (a : Area) (flags : Word) (m : Memory) : Memory :=
  if Word.bit flags 0 then m else a.zero m

/-- What a registration with operands that pass comes to. -/
theorem establish_run (env : Env σ) {s : Session} {gpa size flags : Word}
    (hcheck : s.checkEstablish gpa size flags = .ok ()) (w : World σ) :
    (establish env gpa size flags).run (s, w) =
      match (env.map gpa size w.state).1 with
      | .error e => (.error (.map e), (s, w.afterMap env gpa size))
      | .ok m =>
        if m.aligned then
          (.ok (), ({ s with area := some ⟨gpa, m.base⟩ },
            { w.afterMap env gpa size with memory := registered ⟨gpa, m.base⟩ flags w.memory }))
        else
          (.error (.badMapping gpa), (s, (w.afterMap env gpa size).record (.unmapped gpa size))) := by
  unfold establish
  simp only [Act.bind_run, Act.gets_run, Act.next_ok, hcheck, Act.ofExcept_ok, Act.pure_run,
    Act.onSecond_run, Act.mapError_run, World.mapRange_run]
  -- from here on only the mapper decides, and the flag whether the area is zeroed
  unfold World.afterMap registered
  cases (env.map gpa size w.state).1 with
  | error e => rfl
  | ok m =>
    dsimp only [Act.next]
    cases m.aligned with
    | false => rfl
    | true => cases Word.bit flags 0 <;> rfl

/-- What a release comes to. -/
theorem release_run (s : Session) (w : World σ) :
    (release : Act (Session × World σ) ε (Option Word)).run (s, w) =
      match s.area with
      | none => (.ok none, (s, w))
      | some a =>
        (.ok (some a.gpa), ({ s with area := none },
          { w with memory := a.clearBitmap w.memory }.record (.unmapped a.gpa areaBytes))) := by
  unfold release
  simp only [Act.bind_run, Act.gets_run, Act.next_ok]
  cases s.area <;> rfl

end Session

namespace Platform

/-! ## Harts of a platform -/

/-- The platform with hart `id` replaced. -/
def setHart (p : Platform) (id : Word) (h : Hart) : Platform :=
  { p with harts := p.harts.setIfInBounds id.toNat h }

variable {p : Platform} {id : Word} {h : Hart}

theorem hart?_setHart_same (hh : p.hart? id = some h) (h' : Hart) :
    (p.setHart id h').hart? id = some h' := by
  have hlt : id.toNat < p.harts.size := (Array.getElem?_eq_some_iff.1 hh).1
  unfold setHart hart?
  rw [Array.getElem?_setIfInBounds_self_of_lt hlt]

theorem hart?_setHart_other {id' : Word} (hne : id' ≠ id) (h' : Hart) :
    (p.setHart id h').hart? id' = p.hart? id' := by
  unfold setHart hart?
  exact Array.getElem?_setIfInBounds_ne fun heq => hne (UInt64.toNat_inj.1 heq.symm)

theorem setHart_self (hh : p.hart? id = some h) : p.setHart id h = p := by
  obtain ⟨hlt, rfl⟩ := Array.getElem?_eq_some_iff.1 hh
  unfold setHart
  rw [Array.setIfInBounds_def, dif_pos hlt, Array.set_getElem_self]

theorem onHart_run (hh : p.hart? id = some h) (missing : ε) (x : Act (Hart × World σ) ε α)
    (w : World σ) :
    (onHart id missing x).run (p, w) =
      ((x.run (h, w)).1, (p.setHart id (x.run (h, w)).2.1, (x.run (h, w)).2.2)) := by
  rw [Act.run, onHart]
  dsimp only
  rw [hh]
  rfl

theorem onHart_run_none (hh : p.hart? id = none) (missing : ε) (x : Act (Hart × World σ) ε α)
    (w : World σ) : (onHart id missing x).run (p, w) = (.error missing, (p, w)) := by
  rw [Act.run, onHart]
  dsimp only
  rw [hh]

/-! ## Calls -/

/-- A call is answered by its hart. -/
theorem handle_run (env : Env σ) (hh : p.hart? id = some h) (caller : Privilege) (call : AccelCall)
    (w : World σ) :
    (handle env id caller call).run (p, w) =
      (((Hart.handle env p.config id p.claimed caller call).run (h, w)).1,
        (p.setHart id ((Hart.handle env p.config id p.claimed caller call).run (h, w)).2.1,
          ((Hart.handle env p.config id p.claimed caller call).run (h, w)).2.2)) :=
  onHart_run hh SbiError.invalidParam (Hart.handle env p.config id p.claimed caller call) w

theorem handle_run_none (env : Env σ) (hh : p.hart? id = none) (caller : Privilege) (call : AccelCall)
    (w : World σ) : (handle env id caller call).run (p, w) = (.error .invalidParam, (p, w)) :=
  onHart_run_none hh SbiError.invalidParam (Hart.handle env p.config id p.claimed caller call) w

/-! ## Registrations -/

/-- The platform with the area `a` of hart `id` entered, on both sides. -/
def enter (p : Platform) (id : Word) (h : Hart) (a : Area) : Platform :=
  { p.setHart id { h with session := { h.session with area := some a } } with
    claims := p.claims ++ [⟨id, a.gpa⟩] }

/-- The platform with the area of hart `id` removed, on both sides. -/
def leave (p : Platform) (id : Word) (h : Hart) : Platform :=
  { p.setHart id { h with session := { h.session with area := none } } with
    claims := p.claims.filter fun c => c.hart != id }

/-- Hart `h` with number `id` may have the area at `gpa`, as far as the platform is concerned. -/
structure Admits (p : Platform) (id gpa flags : Word) (h : Hart) : Prop where
  hart : p.hart? id = some h
  check : h.session.checkEstablish gpa areaBytes flags = .ok ()
  clear : ∀ c ∈ p.claims, c.hart ≠ id → rangesOverlap c.gpa areaBytes gpa areaBytes = false

/-- How the registration of the area at `gpa` for hart `id` ends. -/
inductive Registration (env : Env σ) (id gpa flags : Word) (p : Platform) (w : World σ) :
    Outcome PlatformError Unit × (Platform × World σ) → Prop where
  | noHart (hh : p.hart? id = none) :
    Registration env id gpa flags p w (.error (.noSuchHart id), (p, w))
  /-- The operands do not pass. -/
  | refused {h : Hart} {e : SessionError} (hh : p.hart? id = some h)
    (hcheck : h.session.checkEstablish gpa areaBytes flags = .error e) :
    Registration env id gpa flags p w (.error (.session e), (p, w))
  /-- Another hart's area is in the way. -/
  | overlap {c : Claim} {console : Console} (hc : c ∈ p.claims) (hne : c.hart ≠ id)
    (hoverlap : rangesOverlap c.gpa areaBytes gpa areaBytes = true) :
    Registration env id gpa flags p w (.error (.session (.overlap gpa)), (p, { w with console }))
  | notMapped {h : Hart} {e : MapError} (hadmits : p.Admits id gpa flags h)
    (hm : (env.map gpa areaBytes w.state).1 = .error e) :
    Registration env id gpa flags p w
      (.error (.session (.map e)), (p, w.afterMap env gpa areaBytes))
  /-- The mapping is given back. -/
  | misaligned {h : Hart} {m : Mapping} (hadmits : p.Admits id gpa flags h)
    (hm : (env.map gpa areaBytes w.state).1 = .ok m) (haligned : m.aligned = false) :
    Registration env id gpa flags p w
      (.error (.session (.badMapping gpa)),
        (p, (w.afterMap env gpa areaBytes).record (.unmapped gpa areaBytes)))
  | done {h : Hart} {m : Mapping} {console : Console} (hadmits : p.Admits id gpa flags h)
    (hm : (env.map gpa areaBytes w.state).1 = .ok m) (haligned : m.aligned = true) :
    Registration env id gpa flags p w
      (.ok (), (p.enter id h ⟨gpa, m.base⟩,
        { w.afterMap env gpa areaBytes with
          memory := Session.registered ⟨gpa, m.base⟩ flags w.memory
          console }))

/-- **Every registration ends in one of these ways.** -/
theorem establish_run (env : Env σ) (id gpa flags : Word) (p : Platform) (w : World σ) :
    Registration env id gpa flags p w ((establish env id gpa flags).run (p, w)) := by
  unfold establish requireHart
  simp only [Act.bind_run, Act.gets_run, Act.next_ok]
  cases hh : p.hart? id with
  | none => exact .noHart hh
  | some h =>
    simp only [Act.pure_run, Act.next_ok, Act.bind_run]
    cases hcheck : h.session.checkEstablish gpa areaBytes flags with
    | error e => exact .refused hh hcheck
    | ok _ =>
      simp only [Act.ofExcept_ok, Act.mapError_pure, Act.pure_run, Act.next_ok, Act.bind_run,
        Act.gets_run]
      cases hfound : p.claims.find? (fun c =>
          c.hart != id && rangesOverlap c.gpa areaBytes gpa areaBytes) with
      | some c =>
        have htest := List.find?_some hfound
        rw [Bool.and_eq_true, bne_iff_ne] at htest
        exact .overlap (List.mem_of_find?_eq_some hfound) htest.1 htest.2
      | none =>
        have hclear : ∀ c ∈ p.claims, c.hart ≠ id →
            rangesOverlap c.gpa areaBytes gpa areaBytes = false := by
          intro c hc hne
          have htest := List.find?_eq_none.1 hfound c hc
          rw [Bool.and_eq_true, not_and] at htest
          exact Bool.eq_false_iff.2 (htest (bne_iff_ne.2 hne))
        have hadmits : p.Admits id gpa flags h := ⟨hh, hcheck, hclear⟩
        dsimp only
        rw [Act.bind_run, onHart_run hh, Act.mapError_run, Hart.onSession, Act.zoom_run,
          Session.establish_run env hcheck]
        -- where the session stays as it was, the hart is put back
        cases hm : (env.map gpa areaBytes w.state).1 with
        | error e =>
          dsimp only
          rw [setHart_self hh]
          exact .notMapped hadmits hm
        | ok m =>
          cases haligned : m.aligned with
          | false =>
            simp only [haligned, Bool.false_eq_true, if_false]
            rw [setHart_self hh]
            exact .misaligned hadmits hm haligned
          | true =>
            simp only [haligned, if_true]
            exact .done hadmits hm haligned

/-! ## Releases -/

theorem release_run_noHart (hh : p.hart? id = none) (w : World σ) :
    (release id).run (p, w) = (.error (.noSuchHart id), (p, w)) := by
  unfold release
  rw [Act.bind_run, onHart_run_none hh, Act.next_error]

/-- A hart without an area has nothing to release. -/
theorem release_run_none (hh : p.hart? id = some h) (hnone : h.session.area = none) (w : World σ) :
    (release id).run (p, w) = (.ok (), (p, w)) := by
  unfold release
  rw [Act.bind_run, onHart_run hh, Hart.onSession, Act.zoom_run, Session.release_run, hnone]
  show (Outcome.ok (), (p.setHart id h, w)) = _
  rw [setHart_self hh]

/-- The bitmap of an area that is released is cleared. -/
theorem release_run_some {a : Area} (hh : p.hart? id = some h) (harea : h.session.area = some a)
    (w : World σ) :
    ∃ console, (release id).run (p, w) =
      (.ok (), (p.leave id h,
        { w with
          memory := a.clearBitmap w.memory
          events := w.events ++ [.unmapped a.gpa areaBytes]
          console })) := by
  unfold release
  rw [Act.bind_run, onHart_run hh, Hart.onSession, Act.zoom_run, Session.release_run, harea]
  exact ⟨_, rfl⟩

/-! ## Environment calls -/

section
variable {R : Platform × World σ → Platform × World σ → Prop} [IsPreorder (Platform × World σ) R]
  {env : Env σ} {id : Word} {caller : Privilege}

omit [IsPreorder (Platform × World σ) R] in
theorem setShmem_moves (hestablish : ∀ gpa flags, Moves R (establish env id gpa flags))
    (hrelease : Moves R (release id)) (addr flags : Word) : Moves R (setShmem env id addr flags) := by
  unfold setShmem
  split
  · exact hrelease
  · exact hestablish addr flags

theorem answer_moves (hhandle : ∀ call, Moves R (handle env id caller call))
    (hestablish : ∀ gpa flags, Moves R (establish env id gpa flags)) (hrelease : Moves R (release id))
    (call : AccelCall) : Moves R (answer env id caller call : Act (Platform × World σ) ε EcallAction) := by
  cases call with
  | setShmem addr flags =>
    refine (setShmem_moves hestablish hrelease addr flags).attempt.bind fun r => ?_
    split <;> exact Moves.pure _
  | _ =>
    refine Moves.bind_gets fun st => ?_
    split
    · exact Moves.pure _
    · refine (hhandle _).attempt.bind fun r => ?_
      split <;> exact Moves.pure _

/-- What an environment call does is done by a call, a registration or a release, if by anything. -/
theorem ecall_moves (hhandle : ∀ call, Moves R (handle env id caller call))
    (hestablish : ∀ gpa flags, Moves R (establish env id gpa flags)) (hrelease : Moves R (release id))
    (rs : Registers) :
    Moves R (ecall env id caller rs : Act (Platform × World σ) ε (EcallAction × Registers)) := by
  unfold ecall
  split
  · exact (Moves.pure _).bind fun _ => Moves.pure _
  · exact (answer_moves hhandle hestablish hrelease _).bind fun _ => Moves.pure _
  · exact (Moves.pure _).bind fun _ => Moves.pure _

end

/-! ## Steps -/

/-- What an operation of hart `id` is made of. -/
inductive Step (env : Env σ) (id : Word) : Platform × World σ → Platform × World σ → Prop where
  /-- The hart answers a call. -/
  | call {p : Platform} {w : World σ} {h : Hart} (hh : p.hart? id = some h) (caller : Privilege)
    (call : AccelCall) : Step env id (p, w) ((handle env id caller call).run (p, w)).2
  | establish {p : Platform} {w : World σ} {gpa flags : Word}
    {out : Outcome PlatformError Unit × (Platform × World σ)}
    (hout : Registration env id gpa flags p w out) : Step env id (p, w) out.2
  | release {p : Platform} {w : World σ} {h : Hart} {a : Area} {console : Console}
    (hh : p.hart? id = some h) (harea : h.session.area = some a) :
    Step env id (p, w) (p.leave id h,
      { w with
        memory := a.clearBitmap w.memory
        events := w.events ++ [.unmapped a.gpa areaBytes]
        console })
  /-- The mode becomes the one a hart starts with. -/
  | resetMode {p : Platform} {w : World σ} {h : Hart} (hh : p.hart? id = some h) :
    Step env id (p, w) (p.setHart id { h with session := h.session.resetMode }, w)

variable {env : Env σ}

theorem handle_steps (id : Word) (caller : Privilege) (call : AccelCall) :
    Moves (ReflTransGen (Step env id)) (handle env id caller call) := by
  rintro ⟨p, w⟩
  cases hh : p.hart? id with
  | none =>
    rw [handle_run_none env hh]
  | some h => exact .single (.call hh caller call)

theorem establish_steps (id gpa flags : Word) :
    Moves (ReflTransGen (Step env id)) (establish env id gpa flags) :=
  fun st => .single (.establish (establish_run env id gpa flags st.1 st.2))

theorem release_steps (id : Word) : Moves (ReflTransGen (Step env id)) (release id) := by
  rintro ⟨p, w⟩
  cases hh : p.hart? id with
  | none =>
    rw [release_run_noHart hh]
  | some h =>
    cases harea : h.session.area with
    | none =>
      rw [release_run_none hh harea]
    | some a =>
      obtain ⟨console, hrun⟩ := release_run_some hh harea w
      rw [hrun]
      exact .single (.release hh harea)

theorem offline_steps (id : Word) : Moves (ReflTransGen (Step env id)) (offline id) := by
  refine (release_steps id).bind fun _ => ?_
  rintro ⟨p, w⟩
  cases hh : p.hart? id with
  | none =>
    rw [onHart_run_none hh]
  | some h =>
    rw [onHart_run hh]
    exact .single (.resetMode hh)

theorem ecall_steps (id : Word) (caller : Privilege) (rs : Registers) :
    Moves (ReflTransGen (Step env id))
      (ecall env id caller rs : Act (Platform × World σ) ε (EcallAction × Registers)) :=
  ecall_moves (handle_steps id caller) (establish_steps id) (release_steps id) rs

end Platform

/-! ## Operations -/

/-- An operation that a hart makes on its platform. -/
inductive Operation where
  | handle (caller : Privilege) (call : AccelCall)
  | ecall (caller : Privilege) (registers : Registers)
  | establish (gpa flags : Word)
  | release
  | offline

/-- The platform and its world after the operation, however it has ended. -/
def Operation.run (env : Env σ) (id : Word) : Operation → Platform × World σ → Platform × World σ
  | handle caller call, st => ((Platform.handle env id caller call).run st).2
  | ecall caller rs, st =>
    ((Platform.ecall env id caller rs : Act _ Empty (EcallAction × Registers)).run st).2
  | establish gpa flags, st => ((Platform.establish env id gpa flags).run st).2
  | release, st => ((Platform.release id).run st).2
  | offline, st => ((Platform.offline id).run st).2

/-- **Every operation is a sequence of steps** of the hart that makes it. -/
theorem Operation.steps (env : Env σ) (id : Word) (op : Operation) (st : Platform × World σ) :
    ReflTransGen (Platform.Step env id) st (op.run env id st) := by
  cases op with
  | handle caller call => exact Platform.handle_steps id caller call st
  | ecall caller rs => exact Platform.ecall_steps id caller rs st
  | establish gpa flags => exact Platform.establish_steps id gpa flags st
  | release => exact Platform.release_steps id st
  | offline => exact Platform.offline_steps id st

end NestedAccel
