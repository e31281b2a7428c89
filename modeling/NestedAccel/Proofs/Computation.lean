import Mathlib.Order.Defs.Unbundled
import NestedAccel.Effect

/-!
# `NestedAccel.Proofs.Computation` — what a computation does, whatever it ends with

A computation can fail or be abandoned half way, and the changes made so far stay. A property of the
state that has to survive a call must therefore hold **however** the call ends. The two notions here
speak of all three endings at once and are carried through a computation step by step:

* `Act.Moves R x` — from every state, `x` ends in a state related to it by the preorder `R`;
* `Act.Returns x` — `x` is never abandoned.

Where a later step depends on what an earlier one has read, the uniform rule `Moves.bind` forgets too
much. `Act.bind_moves` is the rule at **one** state: it hands the result of the first step on together
with the state it was read from.
-/

namespace NestedAccel

/-- The computation has come to a result. -/
def Outcome.isOk {ε α : Type} : Outcome ε α → Bool
  | .ok _ => true
  | _ => false

/-- The outcome with its result changed. -/
def Outcome.map {ε α β : Type} (f : α → β) : Outcome ε α → Outcome ε β
  | .ok a => .ok (f a)
  | .error e => .error e
  | .abandoned => .abandoned

@[simp] theorem Outcome.isOk_map {ε α β : Type} (f : α → β) (o : Outcome ε α) :
    (o.map f).isOk = o.isOk := by
  cases o <;> rfl

namespace Act

variable {s t ε ε' α β : Type}

/-! ## Results of the operations -/

/-- What comes to a computation's result last does not change how it ends. -/
theorem run_bind_pure (x : Act s ε α) (f : α → β) (st : s) :
    (x >>= fun a => pure (f a)).run st = ((x.run st).1.map f, (x.run st).2) := by
  rw [bind_run]
  rcases x.run st with ⟨_ | _ | _, _⟩ <;> rfl

/-- A computation with a result has had a result at each step. -/
theorem run_bind_ok {x : Act s ε α} {f : α → Act s ε β} {st st' : s} {b : β}
    (h : (x >>= f).run st = (.ok b, st')) :
    ∃ a st₁, x.run st = (.ok a, st₁) ∧ (f a).run st₁ = (.ok b, st') := by
  rw [bind_run] at h
  rcases hr : x.run st with ⟨r, st₁⟩
  rw [hr] at h
  cases r with
  | ok a => exact ⟨a, st₁, rfl, h⟩
  | error e => injection h with hb; cases hb
  | abandoned => injection h with hb; cases hb

/-- A computation that fails has failed at one of its steps. -/
theorem run_bind_error {x : Act s ε α} {f : α → Act s ε β} {st st' : s} {e : ε}
    (h : (x >>= f).run st = (.error e, st')) :
    x.run st = (.error e, st') ∨
      ∃ a st₁, x.run st = (.ok a, st₁) ∧ (f a).run st₁ = (.error e, st') := by
  rw [bind_run] at h
  rcases hr : x.run st with ⟨r, st₁⟩
  rw [hr] at h
  cases r with
  | ok a => exact .inr ⟨a, st₁, rfl, h⟩
  | error e' =>
    cases h
    exact .inl rfl
  | abandoned => cases h

theorem run_ofExcept_ok {e : Except ε α} {st st' : s} {a : α}
    (h : (ofExcept e : Act s ε α).run st = (.ok a, st')) : e = .ok a ∧ st' = st := by
  cases e with
  | ok b =>
    injection h with hb hst
    injection hb with hb
    exact ⟨by rw [hb], hst.symm⟩
  | error e => injection h with hb; cases hb

theorem run_mapError_ok {f : ε → ε'} {x : Act s ε α} {st st' : s} {a : α}
    (h : (mapError f x).run st = (.ok a, st')) : x.run st = (.ok a, st') := by
  rw [mapError_run] at h
  rcases hr : x.run st with ⟨r, st₁⟩
  rw [hr] at h
  cases r with
  | ok b =>
    injection h with hb hst
    injection hb with hb
    rw [hb, hst]
  | error e => injection h with hb; cases hb
  | abandoned => injection h with hb; cases hb

theorem run_mapError_error {f : ε → ε'} {x : Act s ε α} {st st' : s} {e' : ε'}
    (h : (mapError f x).run st = (.error e', st')) :
    ∃ e, f e = e' ∧ x.run st = (.error e, st') := by
  rw [mapError_run] at h
  rcases hr : x.run st with ⟨r, st₁⟩
  rw [hr] at h
  cases r with
  | ok b => injection h with hb; cases hb
  | error e =>
    injection h with hb hst
    injection hb with hb
    exact ⟨e, hb, by rw [hst]⟩
  | abandoned => injection h with hb; cases hb

theorem run_attempt_ok {x : Act s ε α} {st st' : s} {a : α}
    (h : (attempt x : Act s ε' (Except ε α)).run st = (.ok (.ok a), st')) :
    x.run st = (.ok a, st') := by
  rw [attempt_run] at h
  rcases hr : x.run st with ⟨r, st₁⟩
  rw [hr] at h
  cases r with
  | ok b =>
    injection h with hb hst
    injection hb with hb
    injection hb with hb
    rw [hb, hst]
  | error e =>
    injection h with hb _
    injection hb with hb
    cases hb
  | abandoned => injection h with hb; cases hb

theorem run_gets_ok {f : s → α} {st st' : s} {a : α}
    (h : (gets f : Act s ε α).run st = (.ok a, st')) : a = f st ∧ st' = st := by
  injection h with hb hst
  injection hb with hb
  exact ⟨hb.symm, hst.symm⟩

@[simp] theorem ofExcept_run_snd (e : Except ε α) (st : s) : ((ofExcept e).run st).2 = st := by
  cases e <;> rfl

@[simp] theorem mapError_run_snd (f : ε → ε') (x : Act s ε α) (st : s) :
    ((mapError f x).run st).2 = (x.run st).2 := by
  rw [mapError_run]
  rcases x.run st with ⟨_ | _ | _, _⟩ <;> rfl

@[simp] theorem mapError_isOk (f : ε → ε') (x : Act s ε α) (st : s) :
    ((mapError f x).run st).1.isOk = (x.run st).1.isOk := by
  rw [mapError_run]
  rcases x.run st with ⟨_ | _ | _, _⟩ <;> rfl

@[simp] theorem attempt_run_snd (x : Act s ε α) (st : s) :
    ((attempt x : Act s ε' (Except ε α)).run st).2 = (x.run st).2 := by
  rw [attempt_run]
  rcases x.run st with ⟨_ | _ | _, _⟩ <;> rfl

@[simp] theorem fail_bind (e : ε) (f : α → Act s ε β) :
    ((fail e : Act s ε α) >>= f) = fail e := rfl

/-! ## Changing errors -/

@[simp] theorem mapError_pure (f : ε → ε') (a : α) :
    mapError f (Pure.pure a : Act s ε α) = Pure.pure a := rfl

@[simp] theorem mapError_fail (f : ε → ε') (e : ε) :
    mapError f (fail e : Act s ε α) = fail (f e) := rfl

@[simp] theorem mapError_modify (f : ε → ε') (g : s → s) :
    mapError f (modify g : Act s ε Unit) = modify g := rfl

theorem mapError_bind (f : ε → ε') (x : Act s ε α) (g : α → Act s ε β) :
    mapError f (x >>= g) = mapError f x >>= fun a => mapError f (g a) := by
  refine Act.ext fun st => ?_
  rw [mapError_run, bind_run, bind_run, mapError_run]
  rcases x.run st with ⟨_ | _ | _, _⟩ <;> rfl

/-! ## Effects on the state -/

/-- From every state, the computation ends in a state related to it. -/
def Moves (R : s → s → Prop) (x : Act s ε α) : Prop := ∀ st, R st (x.run st).2

section
variable {R : s → s → Prop} [IsPreorder s R]

/-- A first step and what comes after it, from one state: the rest only has to be looked at for the
    result and the state that the first step ends with. -/
theorem bind_moves {x : Act s ε α} {f : α → Act s ε β} {st : s} (hx : R st (x.run st).2)
    (hf : ∀ a st', x.run st = (.ok a, st') → R st' ((f a).run st').2) :
    R st ((x >>= f).run st).2 := by
  rw [bind_run]
  rcases hr : x.run st with ⟨r, st'⟩
  rw [hr] at hx
  cases r with
  -- without a result, the rest does not run
  | ok a => exact IsTrans.trans _ _ _ hx (hf a st' hr)
  | error e => exact hx
  | abandoned => exact hx

theorem Moves.bind {x : Act s ε α} {f : α → Act s ε β} (hx : Moves R x)
    (hf : ∀ a, Moves R (f a)) : Moves R (x >>= f) :=
  fun st => bind_moves (hx st) fun a st' _ => hf a st'

/-- What comes after a check only has to be looked at where the check succeeds. -/
theorem Moves.check {e : Except ε α} {f : ε → ε'} {k : α → Act s ε' β}
    (h : ∀ a, e = .ok a → Moves R (k a)) : Moves R (Act.mapError f (Act.ofExcept e) >>= k) := by
  intro st
  cases e with
  | ok a => exact h a rfl st
  | error e => exact refl_of R st

theorem Moves.pure (a : α) : Moves R (Pure.pure a : Act s ε α) := fun st => refl_of R st

theorem Moves.fail (e : ε) : Moves R (fail e : Act s ε α) := fun st => refl_of R st

theorem Moves.gets (f : s → α) : Moves R (gets f : Act s ε α) := fun st => refl_of R st

theorem Moves.ofExcept (e : Except ε α) : Moves R (ofExcept e) := by
  intro st
  rw [ofExcept_run_snd]
  exact refl_of R st

end

/-- What comes after a value has been read off the state only has to be looked at for the values that
    can be read. -/
theorem Moves.bind_gets {R : s → s → Prop} {f : s → α} {k : α → Act s ε β}
    (h : ∀ st, Moves R (k (f st))) : Moves R (Act.gets f >>= k) := fun st => h st st

theorem Moves.modify {R : s → s → Prop} {f : s → s} (h : ∀ st, R st (f st)) :
    Moves R (modify f : Act s ε Unit) := h

theorem Moves.mapError {R : s → s → Prop} {x : Act s ε α} (h : Moves R x) (f : ε → ε') :
    Moves R (mapError f x) := by
  intro st
  rw [mapError_run_snd]
  exact h st

theorem Moves.attempt {R : s → s → Prop} {x : Act s ε α} (h : Moves R x) :
    Moves R (attempt x : Act s ε' (Except ε α)) := by
  intro st
  rw [attempt_run_snd]
  exact h st

/-! ## Coming back -/

/-- The computation is never abandoned. -/
def Returns (x : Act s ε α) : Prop := ∀ st, (x.run st).1 ≠ .abandoned

theorem Returns.bind {x : Act s ε α} {f : α → Act s ε β} (hx : Returns x)
    (hf : ∀ a, Returns (f a)) : Returns (x >>= f) := by
  intro st
  have h := hx st
  rw [bind_run]
  rcases hr : x.run st with ⟨r, st'⟩
  rw [hr] at h
  cases r with
  | ok a => exact hf a st'
  | error e =>
    intro h'
    cases h'
  | abandoned => exact absurd rfl h

theorem Returns.pure (a : α) : Returns (Pure.pure a : Act s ε α) := by
  intro _ h
  cases h

theorem Returns.fail (e : ε) : Returns (fail e : Act s ε α) := by
  intro _ h
  cases h

theorem Returns.gets (f : s → α) : Returns (gets f : Act s ε α) := by
  intro _ h
  cases h

theorem Returns.modify (f : s → s) : Returns (modify f : Act s ε Unit) := by
  intro _ h
  cases h

theorem Returns.ofExcept (e : Except ε α) : Returns (ofExcept e : Act s ε α) := by
  cases e with
  | ok a => exact Returns.pure a
  | error e => exact Returns.fail e

theorem Returns.mapError {x : Act s ε α} (h : Returns x) (f : ε → ε') : Returns (mapError f x) := by
  intro st
  have h := h st
  rw [mapError_run]
  rcases hr : x.run st with ⟨r, st'⟩
  rw [hr] at h
  cases r with
  | ok a =>
    intro h'
    cases h'
  | error e =>
    intro h'
    cases h'
  | abandoned => exact absurd rfl h

theorem Returns.onSecond {x : Act t ε α} (h : Returns x) :
    Returns (onSecond x : Act (s × t) ε α) := fun st => h st.2

end Act

end NestedAccel
