import NestedAccel.Proofs.Applied
import NestedAccel.Proofs.Drain

/-!
# `NestedAccel.Proofs.SyncedSlots` — what the calls that apply CSRs leave dirty

Two calls apply CSRs themselves, and the eager mode has no drain before them. What is dirty after such a
call is therefore up to the mask of the call (`Hart.handle_sync_applies`): every slot that is dirty and
selected has been applied, and every other dirty slot still waits, **in the eager mode as in the deferred
one**. A trap return selects every slot, and so does the mask without a bit; any other mask can leave dirty
slots behind in the eager mode (`Hart.handle_syncCsr_eager_left`).
-/

namespace NestedAccel

variable {σ ε ε' α β : Type} {env : Env σ} {a : Area}

/-- The slots that the call selects, if it applies CSRs itself. -/
def AccelCall.slotMask? : AccelCall → Option SlotMask
  | .syncCsr low high => some ⟨low, high⟩
  | .syncSret _ => some .all
  | _ => none

theorem AccelCall.syncsCsrs_of_slotMask? {call : AccelCall} {mask : SlotMask}
    (h : call.slotMask? = some mask) : Hart.syncsCsrs call = true := by
  cases call with
  | syncCsr low high => rfl
  | syncSret flags => rfl
  | _ => cases h

namespace Hart

variable {cfg : Config} {claimed : List Word} {call : AccelCall} {h h' : Hart} {w w' : World σ}

/-! ## Runs with a result -/

theorem requireFeature_run_ok {f : Feature} {st st' : Hart × World σ} {u : Unit}
    (hrun : (requireFeature cfg f).run st = (.ok u, st')) : st' = st := by
  unfold requireFeature at hrun
  split at hrun
  · cases hrun
    rfl
  · cases hrun

theorem undrained_run_ok {id : Word} {caller : Privilege} {st st' : Hart × World σ} {r : CallResult}
    (hrun : (undrained env cfg id claimed caller call).run st = (.ok r, st')) :
    (perform env cfg id claimed caller call).run st = (.ok r, st') := by
  obtain ⟨answer, st₁, hanswer, hconclude⟩ := Act.run_bind_ok hrun
  cases answer with
  | error e => cases e <;> cases hconclude
  | ok r' =>
    cases hconclude
    exact Act.run_attempt_ok hanswer

/-- The synchronization call that a hart with area `a` makes, and what comes after it. -/
theorem requireArea_bind_run (harea : h.session.area = some a) {x : Area → Act (Phase × World σ) ε α}
    {e : ε → SbiError} {k : α → Act (Hart × World σ) SbiError β} (w : World σ) :
    (requireArea >>= fun a => (onPhase (x a)).mapError e >>= k).run (h, w) =
      match (x a).run (h.phase, w) with
      | (.ok r, (phase, w')) => (k r).run ({ h with phase }, w')
      | (.error e', (phase, w')) => (.error (e e'), ({ h with phase }, w'))
      | (.abandoned, (phase, w')) => (.abandoned, ({ h with phase }, w')) := by
  have hrequire : (requireArea : Act (Hart × World σ) SbiError Area).run (h, w) = (.ok a, (h, w)) :=
    requireArea_run harea
  rw [Act.bind_run, hrequire, Act.next_ok, Act.bind_run, Act.mapError_run, onPhase, Act.zoom_run]
  rcases (x a).run (h.phase, w) with ⟨_ | _ | _, phase, w'⟩ <;> rfl

/-- With a result, the synchronization call has had one. -/
theorem requireArea_bind_run_ok (harea : h.session.area = some a)
    {x : Area → Act (Phase × World σ) ε α} {e : ε → SbiError}
    {k : α → Act (Hart × World σ) SbiError β} {b : β} (hk : ∀ r st, ((k r).run st).2.2 = st.2)
    (hrun : (requireArea >>= fun a => (onPhase (x a)).mapError e >>= k).run (h, w) = (.ok b, (h', w'))) :
    ∃ r phase, (x a).run (h.phase, w) = (.ok r, (phase, w')) := by
  rw [requireArea_bind_run harea] at hrun
  rcases hx : (x a).run (h.phase, w) with ⟨o, phase, w₁⟩
  rw [hx] at hrun
  cases o with
  | ok r =>
    have hworld := hk r ({ h with phase }, w₁)
    have hrun : (k r).run ({ h with phase }, w₁) = (.ok b, (h', w')) := hrun
    rw [hrun] at hworld
    exact ⟨r, phase, by rw [show w' = w₁ from hworld]⟩
  | error e' => cases hrun
  | abandoned => cases hrun

/-! ## Calls that apply CSRs -/

section
variable (hquiet : env.Quiet)
include hquiet

/-- With a result, such a call has taken effect on the dirty slots that it selects. -/
theorem perform_sync_applies {mask : SlotMask} (hmask : call.slotMask? = some mask) {id : Word}
    {caller : Privilege} (harea : h.session.area = some a) {r : CallResult}
    (hrun : (perform env cfg id claimed caller call).run (h, w) = (.ok r, (h', w'))) :
    ∃ entries, Applies a (a.dirtySlots w.memory mask) entries w w' := by
  cases call with
  | syncCsr low high =>
    cases hmask
    obtain ⟨_, st₁, hfeature, hsync⟩ := Act.run_bind_ok hrun
    obtain rfl := requireFeature_run_ok hfeature
    obtain ⟨_, st₂, hcount, hsync⟩ := Act.run_bind_ok hsync
    cases hcount
    obtain ⟨n, phase, hsync⟩ := requireArea_bind_run_ok
      (h := { h with counters := h.counters.add .syncCsrCalls (.ofNat 1) }) harea (fun _ _ => rfl) hsync
    obtain ⟨slots, heffect⟩ := Env.syncCsrs_takesEffect hquiet (a := a) ⟨low, high⟩ (h.phase, w)
    have happlies := heffect.applies
    rw [hsync] at happlies
    obtain ⟨rfl, _⟩ := heffect.ok n _ hsync
    exact ⟨[], happlies⟩
  | syncSret flags =>
    cases hmask
    obtain ⟨_, st₁, hfeature, hsync⟩ := Act.run_bind_ok hrun
    obtain rfl := requireFeature_run_ok hfeature
    obtain ⟨_, st₂, hcount, hsync⟩ := Act.run_bind_ok hsync
    cases hcount
    obtain ⟨summary, phase, hsync⟩ := requireArea_bind_run_ok
      (h := { h with counters := h.counters.add .syncSretCalls (.ofNat 1) })
      (x := fun a => env.syncReturn a flags caller (cfg.features.contains .autoswapCsr)) harea
      (fun _ _ => rfl) hsync
    obtain ⟨slots, entries, heffect⟩ := Env.syncReturn_takesEffect hquiet (a := a) flags caller
      (cfg.features.contains .autoswapCsr) (h.phase, w)
    have happlies := heffect.applies
    rw [hsync] at happlies
    obtain ⟨rfl, _⟩ := heffect.ok summary _ hsync
    exact ⟨entries, happlies⟩
  | _ => cases hmask

/-- **A call that applies CSRs applies the dirty slots that it selects, and leaves the others dirty.** The
    host gets their values in the order of the slots. So nothing is dirty after the call if and only if
    every dirty slot was selected; the mode of the hart makes no difference. -/
theorem handle_sync_applies {mask : SlotMask} (hmask : call.slotMask? = some mask) {id : Word}
    {caller : Privilege} (harea : h.session.area = some a) {r : CallResult}
    (hrun : (handle env cfg id claimed caller call).run (h, w) = (.ok r, (h', w'))) :
    (∃ new, w'.events = w.events ++ new ∧
      ((a.dirtySlots w.memory mask).map fun s => .writeCsr (a.slotUpdate w.memory s)).Sublist
        (requestsDone new)) ∧
    (∀ s, a.isDirty w'.memory s = (a.isDirty w.memory s && !mask.selects s)) ∧
    ((∀ i, a.dirtyWord w'.memory i = 0) ↔
      ∀ s, a.isDirty w.memory s = true → mask.selects s = true) := by
  rw [handle_run_undrained env cfg id claimed caller (.inl (AccelCall.syncsCsrs_of_slotMask? hmask))]
    at hrun
  obtain ⟨entries, happlies⟩ := perform_sync_applies hquiet hmask harea (undrained_run_ok hrun)
  obtain ⟨new, hevents, hwrites, _⟩ := happlies.record
  have hdirty : ∀ s, a.isDirty w'.memory s = (a.isDirty w.memory s && !mask.selects s) := by
    intro s
    have hstep : a.isDirty w'.memory s =
        (a.isDirty w.memory s && !decide (s ∈ a.dirtySlots w.memory mask)) := happlies.dirty s
    rw [hstep, Bool.eq_iff_iff]
    simp only [Bool.and_eq_true, Bool.not_eq_true', decide_eq_false_iff_not, Area.mem_dirtySlots, not_and,
      Bool.not_eq_true]
    constructor
    · rintro ⟨hs, hnot⟩
      refine ⟨hs, Bool.eq_false_iff.2 fun hselected => ?_⟩
      rw [hs] at hnot
      exact Bool.true_eq_false_eq_False (hnot hselected)
    · rintro ⟨hs, hnot⟩
      refine ⟨hs, fun hselected => ?_⟩
      rw [hselected] at hnot
      cases hnot
  refine ⟨⟨new, hevents, hwrites⟩, hdirty, ?_⟩
  constructor
  · intro hclear s hs
    have hafter := Area.isDirty_of_dirtyWord hclear s
    rw [hdirty, hs, Bool.true_and, Bool.not_eq_false'] at hafter
    exact hafter
  · intro hall i
    refine Area.dirtyWord_eq_zero (fun s => ?_) i
    rw [hdirty]
    cases hs : a.isDirty w.memory s with
    | false => rfl
    | true =>
      rw [hall s hs]
      rfl

end

/-- In the eager mode, a call that selects every slot leaves nothing dirty. -/
theorem handle_sync_applies_all :
    let a := Area.ofGuest 0x3000
    let h : Hart := { session := { area := some a, mode := .eager } }
    let ws : List CsrWrite := [⟨CsrNumber.vsscratch, 1⟩, ⟨CsrNumber.hcounteren, 7⟩]
    let w : World Nat := { state := 0, memory := a.writeCsrs ws .zero }
    ∃ h' w', (handle (Env.refusing 9) {} 0 [0x3000] .supervisor (.syncCsr 0 0)).run (h, w) =
        (.ok (.value 2), (h', w')) ∧
      requestsDone w'.events = ws.map .writeCsr ∧ ∀ i, a.dirtyWord w'.memory i = 0 := by
  intro a h ws w
  have hrun : ∃ h' w', (handle (Env.refusing 9) {} 0 [0x3000] .supervisor (.syncCsr 0 0)).run (h, w) =
      (.ok (.value 2), (h', w')) := ⟨_, _, Prod.ext (by decide +kernel) rfl⟩
  obtain ⟨h', w', hrun⟩ := hrun
  have hmask : AccelCall.slotMask? (.syncCsr 0 0) = some .all := rfl
  obtain ⟨_, _, hiff⟩ := handle_sync_applies (Env.refusing_quiet 9) hmask rfl hrun
  refine ⟨h', w', hrun, ?_, hiff.2 fun s _ => rfl⟩
  have hworld : w' = ((handle (Env.refusing 9) {} 0 [0x3000] .supervisor (.syncCsr 0 0)).run (h, w)).2.2 := by
    rw [hrun]
  rw [hworld]
  decide +kernel

/-- In the eager mode, a call that selects one group succeeds with one slot applied. The other dirty slot is
    neither applied nor clean. -/
theorem handle_syncCsr_eager_left :
    let a := Area.ofGuest 0x3000
    let h : Hart := { session := { area := some a, mode := .eager } }
    let ws : List CsrWrite := [⟨CsrNumber.vsscratch, 1⟩, ⟨CsrNumber.hcounteren, 7⟩]
    let w : World Nat := { state := 0, memory := a.writeCsrs ws .zero }
    let out := (handle (Env.refusing 9) {} 0 [0x3000] .supervisor (.syncCsr 0x100 0)).run (h, w)
    (Env.refusing 9).Quiet ∧ out.1 = .ok (.value 1) ∧
      requestsDone out.2.2.events = [.writeCsr ⟨CsrNumber.vsscratch, 1⟩] ∧
      a.isDirty w.memory (.ofCsr CsrNumber.hcounteren) = true ∧
      a.isDirty out.2.2.memory (.ofCsr CsrNumber.hcounteren) = true := by
  intro a h ws w out
  refine ⟨Env.refusing_quiet 9, ?_, ?_, ?_, ?_⟩ <;> decide +kernel

end Hart

end NestedAccel
