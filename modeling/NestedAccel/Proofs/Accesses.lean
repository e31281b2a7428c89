import NestedAccel.Proofs.FenceCalls

/-!
# `NestedAccel.Proofs.Accesses` — computations made of primitive actions

The world that a computation ends in does not tell how it came about: a word that has only been read
leaves no trace in it. `Confined env π x w` speaks of the computation itself. It says that `x`, run from the
world `w`, is put together from the primitive actions, that the policy `π` allows every call it makes to the
environment, and that every word it reads or writes is one that `π` gives access to **at that moment**,
after the calls made so far.

Two things follow of each such computation (`Confined.events`): its calls are the ones allowed, and it is
abandoned only where the host has not come back from a request. The parts of a call are confined to requests
and to the words of the hart's area, a batch also to those of its array, whatever the world they start from.

A computation on more than the world is looked at from one value of the rest (`Act.curry`), since a word
that it accesses is a word of the world.
-/

namespace NestedAccel

variable {σ τ υ ε ε' α β : Type}

/-! ## Functions of guest memory -/

namespace Memory

variable {W V : Nat → Prop} {m m' : Memory}

/-- The memories hold the same words in the set `W`. -/
def Agree (W : Nat → Prop) (m m' : Memory) : Prop := ∀ b, W b → m.read b = m'.read b

/-- The value depends on words of the set `W` only. -/
def ReadsOnly (W : Nat → Prop) (f : Memory → α) : Prop := ∀ m m', Agree W m m' → f m = f m'

/-- Only words of the set `W` are changed, and only by what words of the set hold. -/
structure ChangesOnly (W : Nat → Prop) (f : Memory → Memory) : Prop where
  reads : ∀ m m', Agree W m m' → Agree W (f m) (f m')
  writes : ∀ m b, ¬W b → (f m).read b = m.read b

theorem Agree.mono (h : Agree V m m') (hW : ∀ b, W b → V b) : Agree W m m' :=
  fun b hb => h b (hW b hb)

theorem ReadsOnly.mono {f : Memory → α} (h : ReadsOnly W f) (hW : ∀ b, W b → V b) : ReadsOnly V f :=
  fun m m' hagree => h m m' (hagree.mono hW)

theorem ChangesOnly.mono {f : Memory → Memory} (h : ChangesOnly W f) (hW : ∀ b, W b → V b) :
    ChangesOnly V f where
  reads m m' hagree b hb := by
    by_cases hin : W b
    · exact h.reads m m' (hagree.mono hW) b hin
    · rw [h.writes m b hin, h.writes m' b hin]
      exact hagree b hb
  writes m b hb := h.writes m b fun hin => hb (hW b hin)

theorem ChangesOnly.comp {f g : Memory → Memory} (hf : ChangesOnly W f) (hg : ChangesOnly W g) :
    ChangesOnly W fun m => f (g m) where
  reads m m' hagree := hf.reads _ _ (hg.reads m m' hagree)
  writes m b hb := (hf.writes _ b hb).trans (hg.writes m b hb)

/-- A word of the set is replaced by what it holds itself. -/
theorem ChangesOnly.write {p : Nat} (hp : W p) (g : Word → Word) :
    ChangesOnly W fun m => m.write p (g (m.read p)) where
  reads m m' hagree b hb := by
    by_cases hbp : b = p
    · subst hbp
      simp [hagree b hp]
    · simp [read_write, hbp, hagree b hb]
  writes m b hb := by
    refine read_write_of_ne ?_
    rintro rfl
    exact hb hp

theorem ChangesOnly.clear {start n : Nat} (h : ∀ b, start ≤ b ∧ b < start + n → W b) :
    ChangesOnly W fun m => m.clear start n where
  reads m m' hagree b hb := by
    simp only [read_clear]
    split
    · rfl
    · exact hagree b hb
  writes m b hb := by
    rw [read_clear]
    exact if_neg fun hin => hb (h b hin)

end Memory

open Memory (Agree ReadsOnly ChangesOnly)

/-! ## Confined computations -/

/-- The host has not come back from a request. -/
def Lost (events : List Event) : Prop := ∃ q, .requested q .lost ∈ events

theorem lost_append {old new : List Event} : Lost (old ++ new) ↔ Lost old ∨ Lost new := by
  simp [Lost, exists_or]

/-- A call to the environment for the host. -/
def Event.IsRequest (e : Event) : Prop := ∃ q r, e = .requested q r

/-- What a computation may do. -/
structure Policy where
  /-- The calls that it may make to the environment. -/
  calls : Event → Prop
  /-- The words that it may access after the given calls. -/
  words : List Event → Nat → Prop

/-- Requests may be made, and the words of the set `W` accessed. -/
def Policy.requesting (W : Nat → Prop) : Policy where
  calls := Event.IsRequest
  words _ := W

/-- From the world `w`, the computation is made of primitive actions that the policy allows. -/
inductive Confined (env : Env σ) (π : Policy) :
    {ε α : Type} → Act (World σ) ε α → World σ → Prop where
  | pure {ε α : Type} (a : α) (w : World σ) : Confined env π (Pure.pure a : Act (World σ) ε α) w
  | fail {ε α : Type} (e : ε) (w : World σ) : Confined env π (Act.fail e : Act (World σ) ε α) w
  | message {ε : Type} (l : LogLevel) (text : String) (w : World σ) :
    Confined env π (logMessage l text : Act (World σ) ε Unit) w
  | read {ε α : Type} {f : Memory → α} {w : World σ} (h : ReadsOnly (π.words w.events) f) :
    Confined env π (readMemory f : Act (World σ) ε α) w
  | change {ε : Type} {f : Memory → Memory} {w : World σ} (h : ChangesOnly (π.words w.events) f) :
    Confined env π (changeMemory f : Act (World σ) ε Unit) w
  | request {q : Request} (h : ∀ r, π.calls (.requested q r)) (w : World σ) :
    Confined env π (env.request q) w
  | map {gpa len : Word} (h : ∀ r, π.calls (.mapped gpa len r)) (w : World σ) :
    Confined env π (env.mapRange gpa len) w
  | unmap {ε : Type} {gpa len : Word} (h : π.calls (.unmapped gpa len)) (w : World σ) :
    Confined env π (unmapRange gpa len : Act (World σ) ε Unit) w
  /-- What comes after a first step only has to be looked at where the first step leads. -/
  | bind {ε α β : Type} {x : Act (World σ) ε α} {f : α → Act (World σ) ε β} {w : World σ}
    (hx : Confined env π x w) (hf : ∀ a w', x.run w = (.ok a, w') → Confined env π (f a) w') :
    Confined env π (x >>= f) w
  | mapError {ε ε' α : Type} {x : Act (World σ) ε α} {w : World σ} (hx : Confined env π x w)
    (f : ε → ε') : Confined env π (x.mapError f) w
  | attempt {ε ε' α : Type} {x : Act (World σ) ε α} {w : World σ} (hx : Confined env π x w) :
    Confined env π (x.attempt : Act (World σ) ε' (Except ε α)) w

namespace Confined

variable {env : Env σ} {π π' : Policy} {x : Act (World σ) ε α} {w : World σ}

/-- **A confined computation makes the calls that are allowed,** and it is abandoned only with a request
    that the host has not come back from. -/
theorem events (h : Confined env π x w) :
    ∃ new, (x.run w).2.events = w.events ++ new ∧ (∀ e ∈ new, π.calls e) ∧
      ((x.run w).1 = .abandoned → Lost new) := by
  have hnothing : ∀ {ε α : Type} {o : Outcome ε α} {w : World σ}, o ≠ .abandoned →
      ∃ new, w.events = w.events ++ new ∧ (∀ e ∈ new, π.calls e) ∧ (o = .abandoned → Lost new) :=
    fun ho => ⟨[], by simp, by simp, fun h => absurd h ho⟩
  -- on the actions that the computation is made of
  induction h with
  | pure a w => exact hnothing (by simp)
  | fail e w => exact hnothing (by simp)
  | message l text w => exact hnothing (by simp [logMessage])
  | read _ => exact hnothing (by simp [readMemory])
  | change _ => exact hnothing (by simp [changeMemory])
  | @request q hq w =>
    rw [World.request_run]
    refine ⟨_, rfl, by simpa using hq _, ?_⟩
    cases (env.host q w.state w.memory).1 with
    | done v => simp
    | refused e => simp
    | lost => exact fun _ => ⟨q, List.mem_singleton_self _⟩
  | @map gpa len hr w =>
    rw [World.mapRange_run]
    refine ⟨_, rfl, by simpa using hr _, ?_⟩
    cases (env.map gpa len w.state).1 <;> simp
  | @unmap _ gpa len hr w => exact ⟨[.unmapped gpa len], rfl, by simpa using hr, by simp [unmapRange]⟩
  | @bind _ _ _ x f w _ _ ihx ihf =>
    obtain ⟨new, hevents, hcalls, hlost⟩ := ihx
    rw [Act.bind_run]
    rcases hrun : x.run w with ⟨o, w'⟩
    rw [hrun] at hevents hlost
    cases o with
    | ok a =>
      obtain ⟨more, hevents', hcalls', hlost'⟩ := ihf a w' hrun
      refine ⟨new ++ more, ?_, fun e he => ?_, fun h => lost_append.2 (.inr (hlost' h))⟩
      · rw [← List.append_assoc, ← hevents]
        exact hevents'
      · exact (List.mem_append.1 he).elim (hcalls e) (hcalls' e)
    | error e => exact ⟨new, hevents, hcalls, by simp⟩
    | abandoned => exact ⟨new, hevents, hcalls, fun _ => hlost rfl⟩
  | @mapError _ _ _ x w _ f ih =>
    rw [Act.mapError_run]
    revert ih
    rcases x.run w with ⟨_ | _ | _, _⟩ <;> simp
  | @attempt _ _ _ x w _ ih =>
    rw [Act.attempt_run]
    revert ih
    rcases x.run w with ⟨_ | _ | _, _⟩ <;> simp

/-- A policy that allows more than another does wherever the other one leads. -/
theorem mono (h : Confined env π x w) (hcalls : ∀ e, π.calls e → π'.calls e)
    (hwords : ∀ new, (∀ e ∈ new, π.calls e) →
      ∀ b, π.words (w.events ++ new) b → π'.words (w.events ++ new) b) : Confined env π' x w := by
  have hnow : ∀ {w : World σ}, (∀ new, (∀ e ∈ new, π.calls e) →
      ∀ b, π.words (w.events ++ new) b → π'.words (w.events ++ new) b) →
      ∀ b, π.words w.events b → π'.words w.events b := by
    intro w hw b hb
    have hnil := hw [] (by simp) b
    rw [List.append_nil] at hnil
    exact hnil hb
  induction h with
  | pure a w => exact .pure a w
  | fail e w => exact .fail e w
  | message l text w => exact .message l text w
  | read h => exact .read (h.mono (hnow hwords))
  | change h => exact .change (h.mono (hnow hwords))
  | request h w => exact .request (fun r => hcalls _ (h r)) w
  | map h w => exact .map (fun r => hcalls _ (h r)) w
  | unmap h w => exact .unmap (hcalls _ h) w
  | bind hx _ ihx ihf =>
    refine .bind (ihx hwords) fun a w' hrun => ihf a w' hrun fun new hnew b hb => ?_
    -- the second step starts after calls of the first
    obtain ⟨old, hevents, hold, _⟩ := hx.events
    rw [hrun] at hevents
    rw [hevents, List.append_assoc] at hb ⊢
    exact hwords (old ++ new) (fun e he => (List.mem_append.1 he).elim (hold e) (hnew e)) b hb
  | mapError _ f ih => exact .mapError (ih hwords) f
  | attempt _ ih => exact .attempt (ih hwords)

theorem ofExcept (e : Except ε α) (w : World σ) :
    Confined env π (Act.ofExcept e : Act (World σ) ε α) w := by
  cases e with
  | ok a => exact .pure a w
  | error e => exact .fail e w

/-- What comes after a check only has to be looked at where the check succeeds. -/
theorem check {e : Except ε α} {f : ε → ε'} {k : α → Act (World σ) ε' β}
    (h : ∀ a, e = .ok a → Confined env π (k a) w) :
    Confined env π (Act.mapError f (Act.ofExcept e) >>= k) w := by
  refine .bind ((ofExcept e w).mapError f) fun a w' hrun => ?_
  obtain ⟨he, rfl⟩ := Act.run_ofExcept_ok (Act.run_mapError_ok hrun)
  exact h a he

/-- What comes after a value has been read only has to be looked at for the value that is found. -/
theorem read_bind {f : Memory → α} {k : α → Act (World σ) ε β} (hf : ReadsOnly (π.words w.events) f)
    (hk : Confined env π (k (f w.memory)) w) : Confined env π (readMemory f >>= k) w := by
  refine .bind (.read hf) fun a w' hrun => ?_
  obtain ⟨rfl, rfl⟩ := Act.run_gets_ok hrun
  exact hk

end Confined

/-! ## Computations on more than the world -/

namespace Act

/-- The computation from the value `t` of what there is beside the world. What becomes of it is handed on
    with the result. -/
def curry (x : Act (τ × World σ) ε α) (t : τ) : Act (World σ) (ε × τ) (α × τ) := fun w =>
  match x.run (t, w) with
  | (.ok a, st) => (.ok (a, st.1), st.2)
  | (.error e, st) => (.error (e, st.1), st.2)
  | (.abandoned, st) => (.abandoned, st.2)

theorem curry_run (x : Act (τ × World σ) ε α) (t : τ) (w : World σ) :
    (curry x t).run w =
      match x.run (t, w) with
      | (.ok a, st) => (.ok (a, st.1), st.2)
      | (.error e, st) => (.error (e, st.1), st.2)
      | (.abandoned, st) => (.abandoned, st.2) := rfl

@[simp] theorem curry_run_snd (x : Act (τ × World σ) ε α) (st : τ × World σ) :
    ((curry x st.1).run st.2).2 = (x.run st).2.2 := by
  rw [curry_run]
  rcases x.run st with ⟨_ | _ | _, _⟩ <;> rfl

@[simp] theorem curry_run_abandoned (x : Act (τ × World σ) ε α) (st : τ × World σ) :
    ((curry x st.1).run st.2).1 = .abandoned ↔ (x.run st).1 = .abandoned := by
  rw [curry_run]
  rcases x.run st with ⟨_ | _ | _, _⟩ <;> simp

theorem curry_run_ok {x : Act (τ × World σ) ε α} {t t' : τ} {w w' : World σ} {a : α}
    (h : (curry x t).run w = (.ok (a, t'), w')) : x.run (t, w) = (.ok a, (t', w')) := by
  rw [curry_run] at h
  rcases hr : x.run (t, w) with ⟨_ | _ | _, st⟩
  · rw [hr] at h
    cases h
    rfl
  · rw [hr] at h
    cases h
  · rw [hr] at h
    cases h

theorem curry_bind (x : Act (τ × World σ) ε α) (f : α → Act (τ × World σ) ε β) (t : τ) :
    curry (x >>= f) t = curry x t >>= fun r => curry (f r.1) r.2 := by
  refine Act.ext fun w => ?_
  rw [curry_run, bind_run, bind_run, curry_run]
  rcases x.run (t, w) with ⟨_ | _ | _, _⟩ <;> rfl

theorem curry_mapError (f : ε → ε') (x : Act (τ × World σ) ε α) (t : τ) :
    curry (mapError f x) t = mapError (fun e => (f e.1, e.2)) (curry x t) := by
  refine Act.ext fun w => ?_
  rw [curry_run, mapError_run, mapError_run, curry_run]
  rcases x.run (t, w) with ⟨_ | _ | _, _⟩ <;> rfl

/-- What `attempt` hands on, with what has become of the rest of the state. -/
def withRest : Except (ε × τ) (α × τ) → Except ε α × τ
  | .ok r => (.ok r.1, r.2)
  | .error e => (.error e.1, e.2)

theorem curry_attempt (x : Act (τ × World σ) ε α) (t : τ) :
    curry (attempt x : Act _ ε' _) t = attempt (curry x t) >>= fun r => pure (withRest r) := by
  refine Act.ext fun w => ?_
  rw [curry_run, attempt_run, bind_run, attempt_run, curry_run]
  rcases x.run (t, w) with ⟨_ | _ | _, _⟩ <;> rfl

theorem curry_onSecond (x : Act (World σ) ε α) (t : τ) :
    curry (onSecond x) t = mapError (·, t) x >>= fun a => pure (a, t) := by
  refine Act.ext fun w => ?_
  rw [curry_run, onSecond_run, bind_run, mapError_run]
  rcases x.run w with ⟨_ | _ | _, _⟩ <;> rfl

theorem curry_zoom (get : τ → υ) (put : υ → τ → τ) (x : Act (υ × World σ) ε α) (t : τ) :
    curry (zoom (fun st => (get st.1, st.2)) (fun p st => (put p.1 st.1, p.2)) x) t =
      mapError (fun e => (e.1, put e.2 t)) (curry x (get t)) >>= fun r =>
        pure (r.1, put r.2 t) := by
  refine Act.ext fun w => ?_
  rw [curry_run, zoom_run, bind_run, mapError_run, curry_run]
  rcases x.run (get t, w) with ⟨_ | _ | _, _⟩ <;> rfl

end Act

/-- A computation on more than the world is made of primitive actions that the policy allows. -/
def ConfinedFrom (env : Env σ) (π : Policy) (x : Act (τ × World σ) ε α) (st : τ × World σ) : Prop :=
  Confined env π (x.curry st.1) st.2

namespace ConfinedFrom

variable {env : Env σ} {π : Policy} {x : Act (τ × World σ) ε α} {st : τ × World σ}

theorem events (h : ConfinedFrom env π x st) :
    ∃ new, (x.run st).2.2.events = st.2.events ++ new ∧ (∀ e ∈ new, π.calls e) ∧
      ((x.run st).1 = .abandoned → Lost new) := by
  simpa using Confined.events h

theorem mono {π' : Policy} (h : ConfinedFrom env π x st) (hcalls : ∀ e, π.calls e → π'.calls e)
    (hwords : ∀ new, (∀ e ∈ new, π.calls e) →
      ∀ b, π.words (st.2.events ++ new) b → π'.words (st.2.events ++ new) b) :
    ConfinedFrom env π' x st := Confined.mono h hcalls hwords

/-- A computation that leaves the world alone. -/
theorem still {o : Outcome ε α} {t : τ} (ho : o ≠ .abandoned)
    (hrun : ∀ w, x.run (st.1, w) = (o, (t, w))) : ConfinedFrom env π x st := by
  unfold ConfinedFrom
  cases o with
  | ok a =>
    have hpure : x.curry st.1 = pure (a, t) := Act.ext fun w => by rw [Act.curry_run, hrun]; rfl
    rw [hpure]
    exact .pure _ _
  | error e =>
    have hfail : x.curry st.1 = .fail (e, t) := Act.ext fun w => by rw [Act.curry_run, hrun]; rfl
    rw [hfail]
    exact .fail _ _
  | abandoned => exact absurd rfl ho

theorem pure (a : α) : ConfinedFrom env π (Pure.pure a : Act (τ × World σ) ε α) st :=
  .still (o := .ok a) (by simp) fun _ => rfl

theorem fail (e : ε) : ConfinedFrom env π (Act.fail e : Act (τ × World σ) ε α) st :=
  .still (o := .error e) (by simp) fun _ => rfl

theorem gets (f : τ → α) : ConfinedFrom env π (Act.gets fun st => f st.1 : Act (τ × World σ) ε α) st :=
  .still (o := .ok (f st.1)) (by simp) fun _ => rfl

theorem modify (f : τ → τ) :
    ConfinedFrom env π (Act.modify fun st => (f st.1, st.2) : Act (τ × World σ) ε Unit) st :=
  .still (o := .ok ()) (t := f st.1) (by simp) fun _ => rfl

theorem ofExcept (e : Except ε α) :
    ConfinedFrom env π (Act.ofExcept e : Act (τ × World σ) ε α) st := by
  cases e with
  | ok a => exact .pure a
  | error e => exact .fail e

theorem bind {f : α → Act (τ × World σ) ε β} (hx : ConfinedFrom env π x st)
    (hf : ∀ a st', x.run st = (.ok a, st') → ConfinedFrom env π (f a) st') :
    ConfinedFrom env π (x >>= f) st := by
  unfold ConfinedFrom
  rw [Act.curry_bind]
  exact Confined.bind hx fun r w' hrun => hf r.1 (r.2, w') (Act.curry_run_ok hrun)

theorem mapError (hx : ConfinedFrom env π x st) (f : ε → ε') :
    ConfinedFrom env π (x.mapError f) st := by
  unfold ConfinedFrom
  rw [Act.curry_mapError]
  exact Confined.mapError hx _

theorem attempt (hx : ConfinedFrom env π x st) :
    ConfinedFrom env π (x.attempt : Act (τ × World σ) ε' (Except ε α)) st := by
  unfold ConfinedFrom
  rw [Act.curry_attempt]
  exact (Confined.attempt hx).bind fun r w' _ => .pure _ w'

theorem onSecond {y : Act (World σ) ε α} (hy : Confined env π y st.2) :
    ConfinedFrom env π (Act.onSecond y : Act (τ × World σ) ε α) st := by
  unfold ConfinedFrom
  rw [Act.curry_onSecond]
  exact (hy.mapError _).bind fun a w' _ => .pure _ w'

theorem zoom {get : τ → υ} {put : υ → τ → τ} {y : Act (υ × World σ) ε α}
    (hy : ConfinedFrom env π y (get st.1, st.2)) :
    ConfinedFrom env π
      (Act.zoom (fun st => (get st.1, st.2)) (fun p st => (put p.1 st.1, p.2)) y) st := by
  unfold ConfinedFrom
  rw [Act.curry_zoom]
  exact (Confined.mapError hy _).bind fun r w' _ => .pure _ w'

end ConfinedFrom

/-! ## What is read off an area -/

namespace Area

variable {W : Nat → Prop} {a : Area} {m m' : Memory}

section
variable (h : Agree a.Owns m m')
include h

theorem slotValue_agree (s : CsrSlot) : a.slotValue m s = a.slotValue m' s :=
  h _ (owns_of_inSlots (a.inSlots_slotBase s))

theorem dirtySlots_agree (mask : SlotMask) : a.dirtySlots m mask = a.dirtySlots m' mask := by
  have hword : ∀ i, a.dirtyWord m i = a.dirtyWord m' i := fun i => h _ (a.owns_bitmapBase i)
  simp [dirtySlots, hword]

theorem fenceEntry_agree (s : FenceSlot) : a.fenceEntry m s = a.fenceEntry m' s := by
  have hword : ∀ k, k < 4 → m.read (a.fenceBase s + k) = m'.read (a.fenceBase s + k) := by
    intro k hk
    refine h _ ?_
    unfold Owns fenceBase words
    omega
  simp only [fenceEntry, hword 1 (by decide), hword 2 (by decide), hword 3 (by decide)]
  rw [show m.read (a.fenceBase s) = m'.read (a.fenceBase s) from hword 0 (by decide)]

theorem returnContext_agree : a.returnContext m = a.returnContext m' := by
  have hload : m.load a.returnBase 64 = m'.load a.returnBase 64 := by
    refine Vector.ext fun i hi => ?_
    rw [Memory.getElem_load, Memory.getElem_load]
    refine h _ ?_
    unfold Owns returnBase words
    omega
  rw [returnContext, returnContext, hload]

theorem swapContext_agree : a.swapContext m = a.swapContext m' := by
  have hload : m.load a.swapBase 16 = m'.load a.swapBase 16 := by
    refine Vector.ext fun i hi => ?_
    rw [Memory.getElem_load, Memory.getElem_load]
    refine h _ ?_
    unfold Owns swapBase words
    omega
  rw [swapContext, swapContext, hload]

theorem checkSlots_agree (slots : List CsrSlot) : a.checkSlots m slots = a.checkSlots m' slots := by
  induction slots with
  | nil => rfl
  | cons s rest ih => simp only [checkSlots, slotValue_agree h, ih]

theorem pendingFences_agree (slots : List FenceSlot) :
    a.pendingFences m slots = a.pendingFences m' slots := by
  induction slots with
  | nil => rfl
  | cons s rest ih => simp only [pendingFences, fenceEntry_agree h, ih]

end

variable (a)

theorem readsOnly_prepareCsrs (mask : SlotMask) : ReadsOnly a.Owns (a.prepareCsrs mask) := by
  intro m m' h
  simp only [prepareCsrs, dirtySlots_agree h, checkSlots_agree h]

theorem readsOnly_prepareFences (index : Word) : ReadsOnly a.Owns (a.prepareFences index) := by
  intro m m' h
  simp only [prepareFences, pendingFences_agree h]

theorem readsOnly_prepareReturn (autoswap : Bool) : ReadsOnly a.Owns (a.prepareReturn autoswap) := by
  intro m m' h
  simp only [prepareReturn, returnContext_agree h, swapContext_agree h, pendingFences_agree h,
    dirtySlots_agree h, checkSlots_agree h]

theorem changesOnly_clearDirty (s : CsrSlot) : ChangesOnly a.Owns (a.clearDirty s) :=
  .write (a.owns_bitmapBase _) fun v => Word.clearBit v (s % 64)

theorem changesOnly_finishFence (s : FenceSlot) : ChangesOnly a.Owns (a.finishFence s) :=
  .write (a.owns_fenceBase s) fun v => Word.clearBit v FenceEntry.pendingBit

theorem changesOnly_setSwapValue (v : Word) : ChangesOnly a.Owns (a.setSwapValue v) :=
  .write a.owns_swapValue fun _ => v

theorem changesOnly_zero : ChangesOnly a.Owns a.zero := .clear fun _ hb => hb

theorem changesOnly_clearBitmap : ChangesOnly a.Owns a.clearBitmap := by
  refine .clear fun b hb => ?_
  unfold Owns words
  unfold bitmapBase at hb
  omega

end Area

/-! ## Synchronization calls -/

section
variable {env : Env σ} {π : Policy} {W : Nat → Prop} {a : Area}

/-- Any request may be made. -/
theorem Confined.ask (q : Request) (w : World σ) :
    Confined env (.requesting W) (env.request q) w :=
  .request (π := .requesting W) (fun r => ⟨q, r, rfl⟩) w

variable (hW : ∀ b, a.Owns b → W b)
include hW

theorem Env.applySlots_confined (slots : List CsrSlot) (w : World σ) :
    Confined env (.requesting W) (env.applySlots a slots) w := by
  have hwrite : ∀ s v w, Confined env (.requesting W)
      (env.writeSlot SyncError.invalid SyncError.host s v) w := fun s v w =>
    .check fun c _ => ((Confined.ask (.writeCsr c) w).mapError _).bind fun _ w' _ => .pure _ w'
  show Confined env (.requesting W)
    (a.consume (env.writeSlot SyncError.invalid SyncError.host) slots) w
  induction slots generalizing w with
  | nil => exact .pure _ w
  | cons s rest ih =>
    refine .read_bind (fun m m' h => Area.slotValue_agree (h.mono hW) s) ?_
    refine (hwrite s _ w).bind fun _ w₁ _ => ?_
    refine .bind (.change ((a.changesOnly_clearDirty s).mono hW)) fun _ w₂ _ => ?_
    exact (ih w₂).bind fun n w₃ _ => .pure _ w₃

theorem Env.performFences_confined (fences : List PendingFence) (w : World σ) :
    Confined env (.requesting W) (env.performFences a fences) w := by
  induction fences generalizing w with
  | nil => exact .pure _ w
  | cons p rest ih =>
    refine ((Confined.ask (.fence p.fence) w).mapError _).bind fun _ w₁ _ => ?_
    refine .bind (.change ((a.changesOnly_finishFence p.slot).mono hW)) fun _ w₂ _ => ?_
    exact (ih w₂).bind fun n w₃ _ => .pure _ w₃

theorem Env.leave_confined (state : TrapReturn) (swap : Option CsrWrite) (w : World σ) :
    Confined env (.requesting W) (env.leave a state swap) w := by
  cases swap with
  | none => exact ((Confined.ask (.trapReturn state) w).mapError _).bind fun _ w' _ => .pure _ w'
  | some c =>
    refine ((Confined.ask (.readCsr CsrNumber.hstatus) w).mapError _).bind fun old w₁ _ => ?_
    refine ((Confined.ask (.trapReturn state) w₁).mapError _).bind fun _ w₂ _ => ?_
    refine ((Confined.ask (.writeCsr c) w₂).mapError _).bind fun _ w₃ _ => ?_
    exact .change ((a.changesOnly_setSwapValue old).mono hW)

theorem Env.applyReturn_confined (plan : ReturnPlan) (w : World σ) :
    Confined env (.requesting W) (env.applyReturn a plan) w := by
  refine (Env.applySlots_confined hW plan.slots w).bind fun csrs w₁ _ => ?_
  refine ((Env.performFences_confined hW plan.fences w₁).mapError _).bind fun fences w₂ _ => ?_
  exact (Env.leave_confined hW plan.state plan.swap w₂).bind fun _ w₃ _ => .pure _ w₃

omit hW in
/-- A call that is led through its phases looks at memory first. -/
theorem inPhases_confined {prepare : Memory → Except SyncError β}
    {apply : β → Act (World σ) SyncError α} (hprepare : ReadsOnly W prepare)
    (happly : ∀ b w, Confined env (.requesting W) (apply b) w) (st : Phase × World σ) :
    ConfinedFrom env (.requesting W) (inPhases prepare apply) st := by
  rcases st with ⟨phase, w⟩
  cases phase with
  | checking => exact .still (o := .error (.busy .checking)) (by simp) fun _ => rfl
  | applying => exact .still (o := .error (.busy .applying)) (by simp) fun _ => rfl
  | idle =>
    have hcurry : (inPhases prepare apply).curry .idle =
        readMemory prepare >>= fun b => (Act.ofExcept b).mapError (·, Phase.idle) >>= fun b =>
          (apply b).mapError (·, Phase.idle) >>= fun r => pure (r, Phase.idle) := by
      refine Act.ext fun w => ?_
      rw [Act.curry_run, inPhases_run_idle, readMemory, Act.bind_run, Act.gets_run, Act.next_ok]
      cases prepare w.memory with
      | error e => rfl
      | ok b =>
        show _ = Act.run ((apply b).mapError (·, Phase.idle) >>= fun r => pure (r, Phase.idle)) w
        rw [Act.bind_run, Act.mapError_run]
        dsimp only
        rcases (apply b).run w with ⟨_ | _ | _, _⟩ <;> rfl
    show Confined env (.requesting W) ((inPhases prepare apply).curry .idle) w
    rw [hcurry]
    refine .read_bind hprepare (.check fun b _ => ?_)
    exact ((happly b w).mapError _).bind fun r w' _ => .pure _ w'

/-- **A synchronization call makes requests and keeps to the words of its area.** -/
theorem SyncCall.act_confined (call : SyncCall α) (st : Phase × World σ) :
    ConfinedFrom env (.requesting W) (call.act env a) st := by
  cases call with
  | csrs mask =>
    exact inPhases_confined ((a.readsOnly_prepareCsrs mask).mono hW)
      (fun slots w => Env.applySlots_confined hW slots w) st
  | hfences index =>
    exact inPhases_confined ((a.readsOnly_prepareFences index).mono hW)
      (fun fences w => (Env.performFences_confined hW fences w).mapError _) st
  | sret flags caller enabled =>
    rw [SyncCall.act_sret]
    rcases env.syncReturn_cases a flags caller enabled with ⟨e, _, he⟩ | hphases
    · rw [he]
      exact .fail e
    · rw [hphases]
      exact inPhases_confined ((a.readsOnly_prepareReturn _).mono hW)
        (fun plan w => Env.applyReturn_confined hW plan w) st

/-! ## Batches -/

theorem Env.syncFences_confined (select : FenceSelect) (w : World σ) :
    Confined env (.requesting W) (env.syncFences a select) w := by
  refine .read_bind (fun m m' h => Area.pendingFences_agree (h.mono hW) select.slots) ?_
  exact (Confined.ofExcept _ w).bind fun fences w' _ => Env.performFences_confined hW fences w'

theorem Env.runOp_confined (harts : Nat) (op : BatchOp) (w : World σ) :
    Confined env (.requesting W) (env.runOp harts a op) w := by
  cases op with
  | csrRead n =>
    exact .check fun csr _ => ((Confined.ask (.readCsr csr) w).mapError _).bind fun _ w' _ => .pure _ w'
  | csrWrite n v =>
    exact .check fun c _ => ((Confined.ask (.writeCsr c) w).mapError _).bind fun _ w' _ => .pure _ w'
  | hfence i =>
    exact .check fun slot _ =>
      ((Env.syncFences_confined hW (.entry slot) w).mapError _).bind fun _ w' _ => .pure _ w'
  | injectInterrupt kind number target =>
    exact .check fun i _ => ((Confined.ask (.inject i) w).mapError _).bind fun _ w' _ => .pure _ w'

omit hW in
theorem Descriptor.readsOnly_load {p : Nat} (hp : ∀ b, p ≤ b ∧ b < p + 4 → W b) :
    ReadsOnly W fun m => Descriptor.load m p :=
  fun _ _ h => Descriptor.load_eq fun b hb => h b (hp b hb)

omit hW in
theorem Descriptor.changesOnly_report {p : Nat} (hp : ∀ b, p ≤ b ∧ b < p + 4 → W b)
    (r : Except SbiError OpResult) : ChangesOnly W (Descriptor.report p r) := by
  have hstatus : ∀ v, ChangesOnly W (Descriptor.setStatus p v) :=
    fun v => .write (hp _ (by omega)) fun _ => v
  have hvalue : ∀ v, ChangesOnly W (Descriptor.setValue p v) :=
    fun v => .write (hp _ (by omega)) fun _ => v
  unfold Descriptor.report
  split
  · exact (hstatus _).comp (hvalue _)
  · exact hstatus _
  · exact hstatus _

omit hW in
theorem unknownTag?_congr {m m' : Memory} {base count : Nat}
    (h : ∀ b, base ≤ b ∧ b < base + 4 * count → m'.read b = m.read b) :
    unknownTag? m' base count = unknownTag? m base count := by
  have htag : ∀ i ∈ List.range count, (i, (Descriptor.load m' (Descriptor.position base i)).tag) =
      (i, (Descriptor.load m (Descriptor.position base i)).tag) := by
    intro i hi
    have hlt := List.mem_range.1 hi
    have hword : m'.read (Descriptor.position base i) = m.read (Descriptor.position base i) := by
      refine h _ ?_
      unfold Descriptor.position
      omega
    show (i, m'.read _) = (i, m.read _)
    rw [hword]
  unfold unknownTag?
  rw [List.map_congr_left htag]

theorem Env.runDescriptor_confined (harts : Nat) {p : Nat} (hp : ∀ b, p ≤ b ∧ b < p + 4 → W b)
    (w : World σ) :
    Confined env (.requesting W) (env.runDescriptor harts a p : Act (World σ) ε Tally) w := by
  have hop : ∀ d w, Confined env (.requesting W) (env.runDescriptorOp harts a d) w := by
    intro d w
    unfold Env.runDescriptorOp
    split
    · exact Env.runOp_confined hW harts _ w
    · exact .fail _ w
  refine .read_bind (Descriptor.readsOnly_load hp) ?_
  refine (hop _ w).attempt.bind fun r w₁ _ => ?_
  refine .bind (.change (Descriptor.changesOnly_report hp r)) fun _ w₂ _ => ?_
  cases r with
  | ok r => exact .pure _ w₂
  | error e => exact .pure _ w₂

theorem Env.runDescriptors_confined (harts : Nat) {ps : List Nat}
    (hps : ∀ p ∈ ps, ∀ b, p ≤ b ∧ b < p + 4 → W b) (w : World σ) :
    Confined env (.requesting W) (env.runDescriptors harts a ps : Act (World σ) ε Tally) w := by
  induction ps generalizing w with
  | nil => exact .pure _ w
  | cons p rest ih =>
    refine (Env.runDescriptor_confined hW harts (hps p List.mem_cons_self) w).bind fun t w₁ _ => ?_
    have hrest := ih (fun q hq => hps q (List.mem_cons_of_mem p hq)) w₁
    exact hrest.bind fun u w₂ _ => .pure _ w₂

/-- **A mapped array is run with requests, and with the words of the area and of the array.** -/
theorem Env.runMapped_confined (harts : Nat) (addr : Word) (count : Nat) (mapping : Mapping)
    (harray : mapping.aligned = true → ∀ b, mapping.base ≤ b ∧ b < mapping.base + 4 * count → W b)
    (w : World σ) :
    Confined env (.requesting W) (env.runMapped harts a addr count mapping) w := by
  unfold Env.runMapped
  split
  · exact .fail _ w
  · rename_i haligned
    have harray := harray (Decidable.not_not.1 haligned)
    have hbounds : ∀ p ∈ (List.range count).map (Descriptor.position mapping.base),
        ∀ b, p ≤ b ∧ b < p + 4 → W b := by
      intro p hp b hb
      have hin := Descriptor.position_bounds hp
      exact harray b (by omega)
    have htags : ReadsOnly W fun m => unknownTag? m mapping.base count :=
      fun m m' h => unknownTag?_congr fun b hb => h b (harray b hb)
    refine .read_bind htags ?_
    split
    · exact .fail _ w
    · exact Env.runDescriptors_confined hW harts hbounds w

end

/-- The words of the area and those of the array, if the array can be accessed. -/
def InReach (a : Area) (count : Word) (m : Mapping) (b : Nat) : Prop :=
  a.Owns b ∨ m.aligned = true ∧ m.base ≤ b ∧ b < m.base + 4 * count.toNat

/-- **A batch maps its array, runs it and gives it back.** -/
theorem Env.runBatch_confined {env : Env σ} {π : Policy} {maxBatch : Nat} {area : Option Area}
    {claimed : List Word} {addr count : Word} {w : World σ} (hrequests : ∀ e, e.IsRequest → π.calls e)
    (harray : BatchAdmitted maxBatch claimed addr count → count ≠ 0 →
      (∀ r, π.calls (.mapped addr (Descriptor.arrayBytes count) r)) ∧
      π.calls (.unmapped addr (Descriptor.arrayBytes count)) ∧
      ∀ a m new, area = some a → (∀ e ∈ new, e.IsRequest) → ∀ b, InReach a count m b →
        π.words (w.events ++ .mapped addr (Descriptor.arrayBytes count) (.ok m) :: new) b)
    (harts : Nat) : Confined env π (env.runBatch harts maxBatch area claimed addr count) w := by
  cases area with
  | none => exact .fail _ w
  | some a =>
    rcases env.runBatch_cases harts maxBatch a claimed addr count with
      ⟨_, e, hrefused⟩ | ⟨_, _, hempty⟩ | ⟨hadmitted, hsome, hruns⟩
    · rw [hrefused]
      exact .fail e w
    · rw [hempty]
      exact .pure _ w
    · rw [hruns]
      obtain ⟨hmap, hunmap, hwords⟩ := harray hadmitted hsome
      refine ((Confined.map hmap w).mapError _).bind fun m w' hrun => ?_
      have hevents := World.mapRange_run_events (Act.run_mapError_ok hrun)
      have hmapped : Confined env (.requesting (InReach a count m))
          (env.runMapped harts a addr count.toNat m) w' :=
        Env.runMapped_confined (fun _ hb => .inl hb) harts addr _ m
          (fun haligned _ hb => .inr ⟨haligned, hb⟩) w'
      refine .bind (Confined.attempt (hmapped.mono hrequests ?_)) fun r w₂ _ => ?_
      · intro new hnew b hb
        rw [hevents, List.append_assoc]
        exact hwords a m new rfl hnew b hb
      · exact (Confined.unmap hunmap w₂).bind fun _ w₃ _ => .ofExcept r w₃

end NestedAccel
