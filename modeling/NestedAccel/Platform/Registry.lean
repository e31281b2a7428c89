import NestedAccel.Hart

/-!
# `NestedAccel.Platform.Registry` — all harts and their shared areas

A platform has a fixed number of harts and a registry of the shared areas they have claimed. No two
harts may claim areas that overlap, and no batch may run on top of an area, so registration,
release and batches go through the registry.

## Contents
- **Platforms.** `Claim`, `Platform`, `Platform.create`, `Platform.hart?`.
- **Errors.** `PlatformError`.
- **Operations.** `handle`, `establish`, `release`, `offline`.
-/

namespace NestedAccel

/-- A shared area claimed by a hart. -/
structure Claim where
  hart : Word
  gpa : Word
deriving DecidableEq, Repr, Inhabited

/-- All harts and the areas they have claimed. -/
structure Platform where
  config : Config
  /-- The harts by number. -/
  harts : Array Hart
  /-- The claims in the order they were made. -/
  claims : List Claim := []
deriving DecidableEq, Inhabited

/-- Why an operation on a platform failed. -/
inductive PlatformError where
  | noSuchHart (hart : Word)
  | session (e : SessionError)
deriving DecidableEq, Repr, Inhabited

namespace PlatformError

/-- The error reported to the caller. -/
def sbi : PlatformError → SbiError
  | noSuchHart _ => .invalidParam
  | session e => e.sbi

/-- The error's one-line text. -/
def text : PlatformError → String
  | noSuchHart h => Text.applied "NoSuchHart" [toString h]
  | session e => Text.applied "Session" [e.text]

end PlatformError

namespace Platform

variable {σ ε α : Type}

/-- The platform of a usable configuration, with no area registered. -/
def create (config : Config) : Except Config.Error Platform := do
  config.validate
  return { config, harts := Array.replicate config.harts {} }

/-- Hart `id`, if there is one. -/
def hart? (p : Platform) (id : Word) : Option Hart := p.harts[id.toNat]?

/-- The addresses of the registered areas. -/
def claimed (p : Platform) : List Word := p.claims.map Claim.gpa

/-! ## Parts of the state -/

/-- Acts on hart `id`; there being no such hart is the error `missing`. -/
def onHart (id : Word) (missing : ε) (x : Act (Hart × World σ) ε α) :
    Act (Platform × World σ) ε α := fun st =>
  match st.1.hart? id with
  | none => (.error missing, st)
  | some h =>
    match x.run (h, st.2) with
    | (r, h', w) => (r, ({ st.1 with harts := st.1.harts.setIfInBounds id.toNat h' }, w))

/-- Acts on the world. -/
def onWorld (x : Act (World σ) ε α) : Act (Platform × World σ) ε α := .onSecond x

/-- Changes the registry. -/
def changeClaims (f : List Claim → List Claim) : Act (Platform × World σ) ε Unit :=
  .modify fun st => ({ st.1 with claims := f st.1.claims }, st.2)

/-- Hart `id`, or the error that there is no such hart. -/
def requireHart (id : Word) : Act (Platform × World σ) PlatformError Hart := do
  match ← Act.gets fun st => st.1.hart? id with
  | some h => return h
  | none => .fail (.noSuchHart id)

/-! ## Operations -/

/-- Answers a call of hart `id` made at level `caller`. -/
def handle (env : Env σ) (id : Word) (caller : Privilege) (call : AccelCall) :
    Act (Platform × World σ) SbiError CallResult := do
  let p ← Act.gets Prod.fst
  onHart id .invalidParam (Hart.handle env p.config id p.claimed caller call)

/-- Registers the area at `gpa` for hart `id`, unless it overlaps an area of another hart. -/
def establish (env : Env σ) (id gpa flags : Word) : Act (Platform × World σ) PlatformError Unit := do
  let h ← requireHart id
  (Act.ofExcept (h.session.checkEstablish gpa areaBytes flags)).mapError .session
  let place := Text.hex gpa.toNat
  match ← Act.gets fun st => st.1.claims.find? fun c =>
      c.hart != id && rangesOverlap c.gpa areaBytes gpa areaBytes with
  | some c =>
    let other := c.hart
    onWorld (logMessage .warn s!"hart {id}: shared memory at {place} overlaps hart {other}")
    .fail (.session (.overlap gpa))
  | none =>
    onHart id (.noSuchHart id)
      ((Hart.onSession (Session.establish env gpa areaBytes flags)).mapError .session)
    changeClaims (· ++ [⟨id, gpa⟩])
    onWorld (logMessage .info s!"hart {id}: shared memory at {place}")

/-- Releases the area of hart `id`, if it has one. -/
def release (id : Word) : Act (Platform × World σ) PlatformError Unit := do
  match ← onHart id (.noSuchHart id) (Hart.onSession Session.release) with
  | none => pure ()
  | some gpa =>
    let place := Text.hex gpa.toNat
    changeClaims (·.filter fun c => c.hart != id)
    onWorld (logMessage .info s!"hart {id}: released shared memory at {place}")

/-- Takes hart `id` offline: it keeps neither area nor mode. -/
def offline (id : Word) : Act (Platform × World σ) PlatformError Unit := do
  release id
  onHart id (.noSuchHart id)
    (Hart.onSession (.modify fun st => (st.1.resetMode, st.2)))

end Platform

end NestedAccel
