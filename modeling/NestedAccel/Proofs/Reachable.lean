import NestedAccel.Proofs.Handle
import NestedAccel.Proofs.Steps

/-!
# `NestedAccel.Proofs.Reachable` — the states a platform can come to

The operations on a platform are made by one hart each. `Platform.Move env id` bounds what a step of
hart `id` can do, in five kinds of move, and `Operation.moves` shows that **every operation is a sequence
of such moves**, whether it succeeds, fails or is abandoned. A property of all reachable states is proved
for one move at a time.

Nothing is assumed about the guest hypervisor: between two operations, memory and the environment's
state may become anything (`Reachable.elsewhere`).
-/

namespace NestedAccel

open Relation (ReflTransGen)
open World (Reaches)
open Act (Moves)

variable {σ ε α β : Type}

/-! ## Configurations -/

/-- What a configuration that passes validation offers. -/
theorem Config.validate_ok {c : Config} (h : c.validate = .ok ()) :
    c.harts ≠ 0 ∧ c.harts ≤ maxHarts ∧ c.maxBatch ≠ 0 ∧ c.maxBatch ≤ batchLimit := by
  unfold validate at h
  split at h
  · cases h
  · rename_i hsome
    split at h
    · cases h
    · rename_i hmax
      split at h
      · cases h
      · rename_i hbatch
        rw [not_or, Nat.not_lt] at hbatch
        exact ⟨hsome, Nat.not_lt.1 hmax, hbatch⟩

namespace Platform

/-! ## Moves -/

/-- What an operation of hart `id` does to a platform and its world, one thing at a time. -/
inductive Move (env : Env σ) (id : Word) : Platform × World σ → Platform × World σ → Prop where
  /-- Ranges are mapped and unmapped, messages are shown. -/
  | quiet {p : Platform} {w w' : World σ}
    (hw : Reaches env (fun _ => False) (fun _ => False) w w') : Move env id (p, w) (p, w')
  /-- The hart answers a call. -/
  | call {p : Platform} {w w' : World σ} {h h' : Hart} (hh : p.hart? id = some h)
    (hw : Hart.Within env p.config p.claimed (h, w) (h', w')) :
    Move env id (p, w) (p.setHart id h', w')
  /-- The area `a` is registered. -/
  | establish {p : Platform} {w w' : World σ} {h : Hart} {a : Area} (hh : p.hart? id = some h)
    (hfree : h.session.area = none) (haligned : a.gpa % areaAlign = 0)
    (hclear : ∀ c ∈ p.claims, c.hart ≠ id → rangesOverlap c.gpa areaBytes a.gpa areaBytes = false)
    (hmap : ∃ m, (env.map a.gpa areaBytes w.state).1 = .ok m ∧ m.aligned = true ∧ a.base = m.base)
    (hw : Reaches env (fun _ => False) a.Owns w w') :
    Move env id (p, w)
      ({ p.setHart id { h with session := { h.session with area := some a } } with
        claims := p.claims ++ [⟨id, a.gpa⟩] }, w')
  /-- The area `a` is released. -/
  | release {p : Platform} {w w' : World σ} {h : Hart} {a : Area} (hh : p.hart? id = some h)
    (harea : h.session.area = some a) (hw : Reaches env (fun _ => False) a.Owns w w') :
    Move env id (p, w)
      ({ p.setHart id { h with session := { h.session with area := none } } with
        claims := p.claims.filter fun c => c.hart != id }, w')
  /-- The mode becomes the one a hart starts with. -/
  | resetMode {p : Platform} {w : World σ} {h : Hart} (hh : p.hart? id = some h) :
    Move env id (p, w) (p.setHart id { h with session := h.session.resetMode }, w)

/-! ## Operations are sequences of moves -/

variable {env : Env σ} {id : Word}

theorem Registration.moves {gpa flags : Word} {p : Platform} {w : World σ}
    {out : Outcome PlatformError Unit × (Platform × World σ)}
    (h : Registration env id gpa flags p w out) : ReflTransGen (Move env id) (p, w) out.2 := by
  have hmap : Reaches env (fun _ => False) (fun _ => False) w (w.afterMap env gpa areaBytes) := by
    rw [← World.mapRange_run_snd]
    exact Env.mapRange_moves gpa areaBytes w
  cases h with
  | noHart _ => exact .refl
  | refused _ _ => exact .refl
  | overlap _ _ _ => exact .single (.quiet (.single (.message w _)))
  | notMapped _ _ => exact .single (.quiet hmap)
  | misaligned _ _ _ => exact .single (.quiet (hmap.tail (.unmap _ gpa areaBytes)))
  | @done h m console hadmits hm haligned =>
    obtain ⟨halign, _, _, hfree⟩ := Session.checkEstablish_ok hadmits.check
    have hregistered : ∀ b, ¬Area.Owns ⟨gpa, m.base⟩ b →
        (Session.registered ⟨gpa, m.base⟩ flags w.memory).read b = w.memory.read b := by
      intro b hb
      unfold Session.registered
      split
      · rfl
      · exact Area.read_zeroed hb
    have hwritten : Reaches env (fun _ => False) (Area.Owns ⟨gpa, m.base⟩) w
        { w.afterMap env gpa areaBytes with
          memory := Session.registered ⟨gpa, m.base⟩ flags w.memory } :=
      hmap.weaken.tail (.write hregistered)
    exact .single (.establish hadmits.hart hfree halign hadmits.clear ⟨m, hm, haligned, rfl⟩
      (hwritten.tail (.message _ console)))

theorem Step.moves {st st' : Platform × World σ} (h : Step env id st st') :
    ReflTransGen (Move env id) st st' := by
  cases h with
  | call hh caller call =>
    rw [handle_run env hh]
    exact .single (.call hh (Hart.handle_moves id caller call (_, _)))
  | establish hout => exact hout.moves
  | @release p w h a console hh harea =>
    have hclear : Reaches env (fun _ => False) a.Owns w { w with memory := a.clearBitmap w.memory } :=
      .single (.write fun b hb => Area.read_clearBitmap hb)
    exact .single (.release hh harea ((hclear.tail (.unmap _ a.gpa areaBytes)).tail (.message _ console)))
  | resetMode hh => exact .single (.resetMode hh)

end Platform

/-- **Every operation is a sequence of moves** by the hart that makes it. -/
theorem Operation.moves (env : Env σ) (id : Word) (op : Operation) (st : Platform × World σ) :
    ReflTransGen (Platform.Move env id) st (op.run env id st) := by
  have hsteps := op.steps env id st
  generalize op.run env id st = st' at hsteps
  -- on the steps that the operation is made of
  induction hsteps with
  | refl => exact .refl
  | tail _ hstep ih => exact ih.trans hstep.moves

/-! ## Reachable states -/

namespace Platform

/-- The states that a platform with the given configuration can come to, from the time it is created
    with any environment state and any memory. -/
inductive Reachable (env : Env σ) (config : Config) : Platform × World σ → Prop where
  | new {p : Platform} {w : World σ} (hp : create config = .ok p) (hw : w.events = []) :
    Reachable env config (p, w)
  /-- Any hart makes any operation. -/
  | step {st : Platform × World σ} (h : Reachable env config st) (id : Word) (op : Operation) :
    Reachable env config (op.run env id st)
  /-- Between operations, the guest hypervisor changes memory and the host its state. -/
  | elsewhere {p : Platform} {w : World σ} (h : Reachable env config (p, w)) (state : σ)
    (memory : Memory) : Reachable env config (p, { w with state, memory })

variable {env : Env σ} {config : Config} {st : Platform × World σ}

/-- What holds of a new platform and survives every move and all that happens in between holds of
    every reachable state. -/
theorem Reachable.invariant {I : Platform × World σ → Prop}
    (hcreate : ∀ p w, create config = .ok p → w.events = [] → I (p, w))
    (hmove : ∀ id st st', I st → Move env id st st' → I st')
    (helsewhere : ∀ p w state memory, I (p, w) → I (p, { w with state, memory }))
    (h : Reachable env config st) : I st := by
  -- on the operations made so far, and for the last one on its moves
  induction h with
  | new hp hw => exact hcreate _ _ hp hw
  | @step st _ id op ih =>
    have hmoves := op.moves env id st
    generalize op.run env id st = st' at hmoves
    induction hmoves with
    | refl => exact ih
    | tail _ hm ih => exact hmove id _ _ ih hm
  | elsewhere _ state memory ih => exact helsewhere _ _ state memory ih

theorem create_ok {p : Platform} (h : create config = .ok p) :
    config.validate = .ok () ∧
      p = { config := config, harts := Array.replicate config.harts {}, claims := [] } := by
  obtain ⟨_, hv, hp⟩ := Check.ok_of_bind h
  cases hp
  exact ⟨hv, rfl⟩

/-- A platform with one hart, as it is created. -/
theorem Reachable.one (env : Env σ) (w : World σ) (hw : w.events = []) :
    Reachable env {} ({ config := {}, harts := #[{}] }, w) := .new rfl hw

/-- A platform with two harts, as it is created. -/
theorem Reachable.two (env : Env σ) (w : World σ) (hw : w.events = []) :
    Reachable env { harts := 2 } ({ config := { harts := 2 }, harts := #[{}, {}] }, w) := .new rfl hw

theorem Reachable.validate (h : Reachable env config st) : config.validate = .ok () := by
  induction h with
  | new hp _ => exact (create_ok hp).1
  | step _ _ _ ih => exact ih
  | elsewhere _ _ _ ih => exact ih

theorem Move.config_eq {id : Word} {st st' : Platform × World σ} (h : Move env id st st') :
    st'.1.config = st.1.config := by
  cases h <;> rfl

theorem Reachable.config_eq (h : Reachable env config st) : st.1.config = config := by
  refine h.invariant (I := fun st => st.1.config = config) ?_ ?_ fun _ _ _ _ h => h
  · intro p w hp _
    rw [(create_ok hp).2]
  · intro id st st' ih hm
    rw [hm.config_eq, ih]

end Platform

end NestedAccel
