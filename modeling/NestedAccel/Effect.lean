/-!
# `NestedAccel.Effect` — computations that can fail or be abandoned

Handling a call changes state, can fail, and can be abandoned: a callback into the host may never
return, and then nothing after it happens. In all three cases the changes made so far stay. An
`Act s ε α` is such a computation on states `s`, with errors `ε` and results `α`.

## Contents
- **Outcomes.** `Outcome`: a result, an error, or abandonment.
- **Computations.** `Act`, a lawful monad, with `fail`, `ofExcept`, `gets` and `modify`.
- **Errors.** `mapError` changes them, `attempt` turns them into results.
- **States.** `zoom` runs a computation on a part of the state.
- **Equations.** One `_run` lemma per operation.
-/

namespace NestedAccel

/-- How a computation ended. -/
inductive Outcome (ε α : Type) where
  | ok (value : α)
  | error (e : ε)
  /-- Control never came back. -/
  | abandoned
deriving DecidableEq, Repr

/-- A computation on states `s` with errors `ε` and results `α`. -/
def Act (s ε α : Type) : Type := s → Outcome ε α × s

namespace Act

variable {s t ε ε' α β : Type}

/-- Runs the computation from a state. -/
def run (x : Act s ε α) (st : s) : Outcome ε α × s := x st

@[ext] theorem ext {x y : Act s ε α} (h : ∀ st, x.run st = y.run st) : x = y := funext h

/-! ## The monad -/

/-- What comes after a computation that ended: `f` on its result, and nothing otherwise. -/
def next (f : α → Act s ε β) : Outcome ε α × s → Outcome ε β × s
  | (.ok a, st) => f a st
  | (.error e, st) => (.error e, st)
  | (.abandoned, st) => (.abandoned, st)

instance : Monad (Act s ε) where
  pure a := fun st => (.ok a, st)
  bind x f := fun st => next f (x st)

@[simp] theorem pure_run (a : α) (st : s) : (pure a : Act s ε α).run st = (.ok a, st) := rfl

@[simp] theorem bind_run (x : Act s ε α) (f : α → Act s ε β) (st : s) :
    (x >>= f).run st = next f (x.run st) := rfl

@[simp] theorem next_ok (f : α → Act s ε β) (a : α) (st : s) :
    next f (.ok a, st) = (f a).run st := rfl

@[simp] theorem next_error (f : α → Act s ε β) (e : ε) (st : s) :
    next f (.error e, st) = (.error e, st) := rfl

@[simp] theorem next_abandoned (f : α → Act s ε β) (st : s) :
    next f (.abandoned, st) = (.abandoned, st) := rfl

instance : LawfulMonad (Act s ε) := LawfulMonad.mk' _
  (by
    intro α x
    refine Act.ext fun st => ?_
    change next (fun a => pure a) (x.run st) = x.run st
    rcases x.run st with ⟨_ | _ | _, _⟩ <;> rfl)
  (by intros; rfl)
  (by
    intro α β γ x f g
    refine Act.ext fun st => ?_
    simp only [bind_run]
    rcases x.run st with ⟨_ | _ | _, _⟩ <;> rfl)

/-! ## Operations -/

/-- Ends with error `e`. -/
def fail (e : ε) : Act s ε α := fun st => (.error e, st)

/-- Ends as `x` says. -/
def ofExcept : Except ε α → Act s ε α
  | .ok a => pure a
  | .error e => fail e

/-- A value read off the state. -/
def gets (f : s → α) : Act s ε α := fun st => (.ok (f st), st)

/-- Changes the state. -/
def modify (f : s → s) : Act s ε Unit := fun st => (.ok (), f st)

/-- The same computation with its errors changed. -/
def mapError (f : ε → ε') (x : Act s ε α) : Act s ε' α := fun st =>
  match x.run st with
  | (.ok a, st) => (.ok a, st)
  | (.error e, st) => (.error (f e), st)
  | (.abandoned, st) => (.abandoned, st)

/-- The same computation with its error as a result. -/
def attempt (x : Act s ε α) : Act s ε' (Except ε α) := fun st =>
  match x.run st with
  | (.ok a, st) => (.ok (.ok a), st)
  | (.error e, st) => (.ok (.error e), st)
  | (.abandoned, st) => (.abandoned, st)

/-- Runs a computation on the part of the state that `get` reads and `put` replaces. -/
def zoom (get : s → t) (put : t → s → s) (x : Act t ε α) : Act s ε α := fun st =>
  ((x.run (get st)).1, put (x.run (get st)).2 st)

/-- Runs a computation on the second part of a pair. -/
def onSecond (x : Act t ε α) : Act (s × t) ε α :=
  zoom Prod.snd (fun b st => (st.1, b)) x

@[simp] theorem fail_run (e : ε) (st : s) :
    (fail e : Act s ε α).run st = (.error e, st) := rfl

@[simp] theorem ofExcept_ok (a : α) : (ofExcept (.ok a) : Act s ε α) = pure a := rfl

@[simp] theorem ofExcept_error (e : ε) : (ofExcept (.error e) : Act s ε α) = fail e := rfl

@[simp] theorem gets_run (f : s → α) (st : s) :
    (gets f : Act s ε α).run st = (.ok (f st), st) := rfl

@[simp] theorem modify_run (f : s → s) (st : s) :
    (modify f : Act s ε Unit).run st = (.ok (), f st) := rfl

theorem mapError_run (f : ε → ε') (x : Act s ε α) (st : s) :
    (mapError f x).run st =
      match x.run st with
      | (.ok a, st) => (.ok a, st)
      | (.error e, st) => (.error (f e), st)
      | (.abandoned, st) => (.abandoned, st) := rfl

theorem attempt_run (x : Act s ε α) (st : s) :
    (attempt x : Act s ε' (Except ε α)).run st =
      match x.run st with
      | (.ok a, st) => (.ok (.ok a), st)
      | (.error e, st) => (.ok (.error e), st)
      | (.abandoned, st) => (.abandoned, st) := rfl

@[simp] theorem zoom_run (get : s → t) (put : t → s → s) (x : Act t ε α) (st : s) :
    (zoom get put x).run st = ((x.run (get st)).1, put (x.run (get st)).2 st) := rfl

@[simp] theorem onSecond_run (x : Act t ε α) (st : s × t) :
    (onSecond x).run st = ((x.run st.2).1, (st.1, (x.run st.2).2)) := rfl

end Act

end NestedAccel
