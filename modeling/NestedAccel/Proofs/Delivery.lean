import NestedAccel.Proofs.Steps
import NestedAccel.Sbi.Call

/-!
# `NestedAccel.Proofs.Delivery` — what a call produces reaches its caller

What a call produces is a value, an error of one of several kinds, or a trap return. On its way to the caller it
becomes an action, and then two words in two registers. `Platform.produce` is what the call produces, with nothing
of that way in it: the call is answered by the part of the platform that it concerns.

* `Platform.ecall_run_call`: an environment call does what `produce` does, and acts on its result;
* `Delivered`: the caller finds the result in its registers. Every result does (`delivered_of`).

**`Platform.ecall_delivers`** says so for every environment call that comes back, decoded or not, of a hart that
the platform has or not, and adds that no other register is touched.
-/

namespace NestedAccel

variable {σ ε : Type}

/-! ## Registers -/

namespace Return

/-- A return is found in `a0` and `a1`, and every other register is as before. -/
theorem get_deliver (r : Return) (rs : Registers) (s : Reg) :
    (r.deliver rs).get s =
      if s = Reg.a1 then r.value else if s = Reg.a0 then .ofInt r.code else rs.get s := by
  unfold deliver
  rw [Registers.get_set _ _ _ _ (by decide), Registers.get_set _ _ _ _ (by decide)]

theorem get_a0_deliver (r : Return) (rs : Registers) : (r.deliver rs).get Reg.a0 = .ofInt r.code := by
  rw [get_deliver, if_neg (by decide), if_pos rfl]

theorem get_a1_deliver (r : Return) (rs : Registers) : (r.deliver rs).get Reg.a1 = r.value := by
  rw [get_deliver, if_pos rfl]

theorem get_deliver_other (r : Return) (rs : Registers) {s : Reg} (h0 : s ≠ Reg.a0) (h1 : s ≠ Reg.a1) :
    (r.deliver rs).get s = rs.get s := by
  rw [get_deliver, if_neg h1, if_neg h0]

end Return

namespace Registers

/-- What a call has produced, as its caller reads it off the registers. -/
def result (rs : Registers) : Except SbiError Word := readResult (rs.get Reg.a0) (rs.get Reg.a1)

theorem result_success (v : Word) (rs : Registers) : ((Return.success v).deliver rs).result = .ok v := by
  unfold result
  rw [Return.get_a0_deliver, Return.get_a1_deliver]
  rfl

/-- Every error has a code of its own, which is not that of success. -/
theorem result_failure (e : SbiError) (rs : Registers) :
    ((Return.failure e).deliver rs).result = .error e := by
  unfold result readResult
  rw [Return.get_a0_deliver, Return.get_a1_deliver]
  show (if e.word = 0 then _ else Except.error (SbiError.ofWord e.word)) = _
  rw [if_neg e.word_ne_zero, SbiError.ofWord_word]

end Registers

/-! ## Results and actions -/

/-- The action that a result calls for. -/
def EcallAction.of : Except SbiError CallResult → EcallAction
  | .ok (.value v) => resume (.success v)
  | .ok .trapReturned => trapReturn
  | .error e => resume (.failure e)

/-- The caller finds the result of its call in the registers `rs'`, and after a trap return all registers are
    as they were. -/
def Delivered (rs rs' : Registers) : Except SbiError CallResult → Prop
  | .ok (.value v) => rs'.result = .ok v
  | .ok .trapReturned => rs' = rs
  | .error e => rs'.result = .error e ∧ rs'.get Reg.a1 = 0

/-- Acting on a result delivers it. -/
theorem delivered_of (r : Except SbiError CallResult) (rs : Registers) :
    Delivered rs ((EcallAction.of r).deliver rs) r := by
  match r with
  | .ok (.value v) => exact Registers.result_success v rs
  | .ok .trapReturned => rfl
  | .error e => exact ⟨Registers.result_failure e rs, Return.get_a1_deliver _ rs⟩

/-- No action touches a register other than `a0` and `a1`. -/
theorem EcallAction.get_deliver_other (action : EcallAction) (rs : Registers) {s : Reg}
    (h0 : s ≠ Reg.a0) (h1 : s ≠ Reg.a1) : (action.deliver rs).get s = rs.get s := by
  cases action with
  | unhandled => exact Return.get_deliver_other _ rs h0 h1
  | resume r => exact Return.get_deliver_other r rs h0 h1
  | trapReturn => rfl

namespace Platform

/-! ## What a call produces -/

/-- What a call of hart `id` made at level `caller` does and produces. The base extension is answered at once,
    the registration of an area concerns the registry, and every other call the hart. -/
def produce (env : Env σ) (id : Word) (caller : Privilege) :
    Call → Act (Platform × World σ) SbiError CallResult
  | .base call => pure (.value call.answer)
  | .accel (.setShmem addr flags) => do
    (setShmem env id addr flags).mapError PlatformError.sbi
    return .value 0
  | .accel call => handle env id caller call

/-- The call can be attributed to a hart: only those of the nested acceleration extension concern one. -/
def Attributed (p : Platform) (id : Word) : Call → Prop
  | .base _ => True
  | .accel _ => (p.hart? id).isSome

variable {env : Env σ} {id : Word} {p : Platform} {w : World σ} {h : Hart}

/-- A hart that there is can have its area registered and released, whatever comes of it. -/
theorem setShmem_run_hart (hh : p.hart? id = some h) (addr flags : Word) :
    (∀ id', ((setShmem env id addr flags).run (p, w)).1 ≠ .error (.noSuchHart id')) := by
  intro id' hrun
  unfold setShmem at hrun
  split at hrun
  · cases harea : h.session.area with
    | none =>
      rw [release_run_none hh harea] at hrun
      cases hrun
    | some a =>
      obtain ⟨console, hok⟩ := release_run_some hh harea w
      rw [hok] at hrun
      cases hrun
  · generalize hout : (establish env id addr flags).run (p, w) = out at hrun
    have hends : Registration env id addr flags p w out := hout ▸ establish_run env id addr flags p w
    cases hends with
    | noHart hnone => cases hnone.symm.trans hh
    | refused _ _ => cases hrun
    | overlap _ _ _ => cases hrun
    | notMapped _ _ => cases hrun
    | misaligned _ _ _ => cases hrun
    | done _ _ _ => cases hrun

theorem setShmem_run_noHart (hh : p.hart? id = none) (addr flags : Word) :
    (setShmem env id addr flags).run (p, w) = (.error (.noSuchHart id), (p, w)) := by
  unfold setShmem
  split
  · exact release_run_noHart hh w
  · unfold establish requireHart
    rw [Act.bind_run, Act.bind_run, Act.gets_run, Act.next_ok, hh]
    rfl

/-- A hart that there is gets the action that the result of its call asks for. -/
theorem answer_run_hart (hh : p.hart? id = some h) (caller : Privilege) (call : AccelCall) :
    (answer env id caller call : Act _ ε EcallAction).run (p, w) =
      ((produce env id caller (.accel call)).attempt >>= fun r => pure (EcallAction.of r)).run (p, w) := by
  unfold answer
  cases call with
  | setShmem addr flags =>
    have hhart : ∀ id', ((setShmem env id addr flags).run (p, w)).1 ≠ .error (.noSuchHart id') :=
      setShmem_run_hart hh addr flags
    unfold produce
    rw [Act.bind_run, Act.attempt_run, Act.bind_run, Act.attempt_run, Act.bind_run, Act.mapError_run]
    rcases hrun : (setShmem env id addr flags).run (p, w) with ⟨⟨⟩ | (_ | e) | _, st⟩
    · rfl
    · rw [hrun] at hhart
      exact absurd rfl (hhart _)
    · rfl
    · rfl
  | _ =>
    unfold produce
    rw [Act.bind_run, Act.gets_run, Act.next_ok, hh, if_neg (by simp), Act.bind_run, Act.attempt_run,
      Act.bind_run, Act.attempt_run]
    rcases (handle env id caller _).run (p, w) with ⟨(_ | _) | _ | _, _⟩ <;> rfl

/-- A call that can be attributed to no hart is not handled, and nothing happens. -/
theorem answer_run_noHart (hh : p.hart? id = none) (caller : Privilege) (call : AccelCall) :
    (answer env id caller call : Act _ ε EcallAction).run (p, w) = (.ok .unhandled, (p, w)) := by
  unfold answer
  cases call with
  | setShmem addr flags =>
    rw [Act.bind_run, Act.attempt_run, setShmem_run_noHart hh]
    rfl
  | _ =>
    rw [Act.bind_run, Act.gets_run, Act.next_ok, hh]
    rfl

/-! ## Environment calls -/

/-- An environment call that can be attributed does what the call does, and acts on its result. -/
theorem ecall_run_call {rs : Registers} {call : Call} (hrs : Call.ofRegisters rs = .ok call)
    (hcall : p.Attributed id call) (caller : Privilege) :
    (ecall env id caller rs : Act _ ε _).run (p, w) =
      ((produce env id caller call).attempt >>= fun r =>
        pure (EcallAction.of r, (EcallAction.of r).deliver rs)).run (p, w) := by
  unfold ecall
  rw [hrs]
  cases call with
  | base call => rfl
  | accel call =>
    obtain ⟨h, hh⟩ := Option.isSome_iff_exists.1 hcall
    dsimp only
    rw [Act.bind_run, answer_run_hart hh caller call, Act.bind_run, Act.bind_run]
    rcases ((produce env id caller (.accel call)).attempt : Act _ ε _).run (p, w) with ⟨_ | _ | _, _⟩ <;> rfl

/-- The registers of an environment call that has come back are those in which its action has been delivered. -/
theorem ecall_run_ok {caller : Privilege} {rs rs' : Registers} {st st' : Platform × World σ}
    {action : EcallAction}
    (hrun : (ecall env id caller rs : Act _ ε _).run st = (.ok (action, rs'), st')) :
    rs' = action.deliver rs := by
  unfold ecall at hrun
  split at hrun <;>
  · obtain ⟨action', st₁, _, hpure⟩ := Act.run_bind_ok hrun
    cases hpure
    rfl

/-- A call that can be attributed to no hart, and registers that are no call, come back at once, and nothing
    happens. -/
theorem ecall_run_noHart {rs : Registers} {call : AccelCall} (hrs : Call.ofRegisters rs = .ok (.accel call))
    (hh : p.hart? id = none) (caller : Privilege) :
    (ecall env id caller rs : Act _ ε _).run (p, w) =
      (.ok (.unhandled, EcallAction.unhandled.deliver rs), (p, w)) := by
  unfold ecall
  rw [hrs]
  dsimp only
  rw [Act.bind_run, answer_run_noHart hh caller call]
  rfl

theorem ecall_run_noCall {rs : Registers} {e : SbiError} (hrs : Call.ofRegisters rs = .error e)
    (caller : Privilege) :
    (ecall env id caller rs : Act _ ε _).run (p, w) =
      (.ok (.resume (.failure e), (EcallAction.resume (.failure e)).deliver rs), (p, w)) := by
  unfold ecall
  rw [hrs]
  rfl

/-- **What a call produces reaches its caller.** Take an environment call of any hart, with any registers, on any
    platform, and any host. If it comes back, no register but `a0` and `a1` has changed, and after a trap return
    none has; and registers that are a call of the base extension, or of a hart that there is, end with what the
    call has produced: the caller reads off its value or its error, with no value beside an error, and nothing
    else has happened than the call itself.

    A call of a hart that there is not comes back unhandled: the caller reads that it is not supported. Registers
    that are no call come back with the error of decoding them. In these two cases the platform and the world are
    as before. -/
theorem ecall_delivers (env : Env σ) (id : Word) (caller : Privilege) (rs : Registers)
    (st : Platform × World σ) :
    (∀ action rs' st', (ecall env id caller rs : Act _ ε _).run st = (.ok (action, rs'), st') →
      (∀ s, s ≠ Reg.a0 → s ≠ Reg.a1 → rs'.get s = rs.get s) ∧
      (action = .trapReturn → rs' = rs) ∧
      ∀ call, Call.ofRegisters rs = .ok call → st.1.Attributed id call →
        ∃ r, ((produce env id caller call).attempt : Act _ ε _).run st = (.ok r, st') ∧
          action = .of r ∧ Delivered rs rs' r) ∧
    (∀ call, Call.ofRegisters rs = .ok (.accel call) → st.1.hart? id = none →
      ∃ rs', (ecall env id caller rs : Act _ ε _).run st = (.ok (.unhandled, rs'), st) ∧
        rs'.result = .error .notSupported ∧ rs'.get Reg.a1 = 0) ∧
    (∀ e, Call.ofRegisters rs = .error e →
      ∃ rs', (ecall env id caller rs : Act _ ε _).run st = (.ok (.resume (.failure e), rs'), st) ∧
        rs'.result = .error e ∧ rs'.get Reg.a1 = 0) := by
  obtain ⟨p, w⟩ := st
  refine ⟨fun action rs' st' hrun => ⟨?_, ?_, ?_⟩, fun call hrs hh => ?_, fun e hrs => ?_⟩
  · intro s h0 h1
    rw [ecall_run_ok hrun]
    exact action.get_deliver_other rs h0 h1
  · intro haction
    rw [ecall_run_ok hrun, haction]
    rfl
  · intro call hrs hcall
    rw [ecall_run_call hrs hcall caller] at hrun
    obtain ⟨r, st₁, hproduce, hpure⟩ := Act.run_bind_ok hrun
    cases hpure
    exact ⟨r, hproduce, rfl, delivered_of r rs⟩
  · exact ⟨_, ecall_run_noHart hrs hh caller, Registers.result_failure _ rs, Return.get_a1_deliver _ rs⟩
  · exact ⟨_, ecall_run_noCall hrs caller, Registers.result_failure e rs, Return.get_a1_deliver _ rs⟩

/-- The registers with the given words in `a0` to `a2`, `a6` and `a7`. -/
def callRegisters (a b c f ext : Word) : Registers :=
  ((((Registers.zero.set Reg.a0 a).set Reg.a1 b).set ⟨12, by decide⟩ c).set Reg.a6 f).set Reg.a7 ext

/-- The injection of a timer interrupt, which the host refuses: hart 0 reads the host's error. Hart 5, which
    there is not, reads that the call is not supported, and so does hart 0 of a twelfth function. -/
theorem ecall_delivers_refused :
    let st : Platform × World Nat :=
      ({ config := {}, harts := #[{}] }, { state := 0, memory := .zero })
    let injects := callRegisters 0 6 0 6 AccelCall.extension
    let unknown := callRegisters 0 6 0 11 AccelCall.extension
    let out (id : Word) (rs : Registers) :=
      (ecall (Env.refusing 0) id .supervisor rs : Act _ Empty _).run st
    (∃ rs', (out 0 injects).1 = .ok (.resume (.failure .io), rs') ∧ rs'.result = .error .io ∧
      rs'.get Reg.a1 = 0 ∧ rs'.get Reg.a6 = 6) ∧
    (∃ rs', out 5 injects = (.ok (.unhandled, rs'), st) ∧ rs'.result = .error .notSupported) ∧
    ∃ rs', out 0 unknown = (.ok (.resume (.failure .notSupported), rs'), st) ∧
      rs'.result = .error .notSupported := by
  intro st injects unknown out
  have hinjects : Call.ofRegisters injects = .ok (.accel (.injectInterrupt 0 6 0)) := rfl
  refine ⟨?_, ?_, ?_⟩
  · have hrefused : (out 0 injects).1 = .ok (.resume (.failure .io), (Return.failure .io).deliver injects) := by
      decide +kernel
    obtain ⟨hothers, _, hcall⟩ :=
      (ecall_delivers (ε := Empty) (Env.refusing 0) 0 .supervisor injects st).1 _ _ (out 0 injects).2
        (Prod.ext hrefused rfl)
    obtain ⟨r, _, haction, hdelivered⟩ := hcall _ hinjects rfl
    have hr : r = .error .io := by
      rcases r with e | ⟨v | _⟩
      · cases e <;> first | rfl | exact absurd haction (by decide)
      · cases haction
      · cases haction
    subst hr
    exact ⟨_, hrefused, hdelivered.1, hdelivered.2, hothers Reg.a6 (by decide) (by decide)⟩
  · obtain ⟨rs', hout, hresult, _⟩ :=
      (ecall_delivers (ε := Empty) (Env.refusing 0) 5 .supervisor injects st).2.1 _ hinjects rfl
    exact ⟨rs', hout, hresult⟩
  · obtain ⟨rs', hout, hresult, _⟩ :=
      (ecall_delivers (ε := Empty) (Env.refusing 0) 0 .supervisor unknown st).2.2 .notSupported rfl
    exact ⟨rs', hout, hresult⟩

end Platform

end NestedAccel
