import NestedAccel.Proofs.Applied

/-!
# `NestedAccel.Proofs.ReturnSteps` — a trap return, cut where the host is asked for it

A trap return has two halves. Up to the moment at which the host is handed the return, slots and fences are
applied and `hstatus` is read (`Env.beforeReturn`); then the host is asked, and the swap is completed
(`Env.afterReturn`). `Env.applyReturn_eq` says that the two halves, with that request between them, are what a
plan comes to.

`BeforeReturn` lists the ways in which the first half can end, with what is on record and what has become of
guest memory: everything is **ready**, or it was **stopped** somewhere in the slots or in the fences, or at the
read, and then nothing was asked that leads out of the trap handler (`Env.beforeReturn_ends`).
-/

namespace NestedAccel

open World (Reaches)
open Act (Moves)

variable {σ ε α ι : Type}

/-! ## The two halves -/

/-- Reads the host's `hstatus`, if it is to be swapped. -/
def Env.readSwap (env : Env σ) : Option CsrWrite → Act (World σ) SyncError Word
  | none => pure 0
  | some _ => (env.request (.readCsr CsrNumber.hstatus)).mapError .host

/-- What a plan does before the host is handed the return. The result is what will be reported, and the value
    of `hstatus` that has been read for the swap. -/
def Env.beforeReturn (env : Env σ) (a : Area) (plan : ReturnPlan) :
    Act (World σ) SyncError (ReturnSummary × Word) := do
  let csrs ← env.applySlots a plan.slots
  let fences ← (env.performFences a plan.fences).mapError .fence
  let old ← env.readSwap plan.swap
  return ({ csrs, fences, swapped := plan.swap.isSome }, old)

/-- What is left to do once the host has carried the return out. -/
def Env.afterReturn (env : Env σ) (a : Area) (old : Word) : Option CsrWrite → Act (World σ) SyncError Unit
  | none => pure ()
  | some c => do
    let _ ← (env.request (.writeCsr c)).mapError .host
    changeMemory (a.setSwapValue old)

/-- The host is handed the return, and then the swap is completed. -/
def Env.handOver (env : Env σ) (a : Area) (plan : ReturnPlan) (old : Word) : Act (World σ) SyncError Unit := do
  let _ ← (env.request (.trapReturn plan.state)).mapError .host
  env.afterReturn a old plan.swap

/-- **A plan is applied in two halves,** with the request to return at the start of the second. -/
theorem Env.applyReturn_eq (env : Env σ) (a : Area) (plan : ReturnPlan) :
    env.applyReturn a plan =
      env.beforeReturn a plan >>= fun r => env.handOver a plan r.2 >>= fun _ => pure r.1 := by
  unfold Env.applyReturn Env.beforeReturn Env.handOver Env.leave
  cases plan.swap with
  | none => simp [Env.readSwap, Env.afterReturn]
  | some c => simp [Env.readSwap, Env.afterReturn]

/-! ## How far the first half comes -/

/-- What comes after a computation without a result does not run. -/
theorem Act.bind_of_not_ok {s β : Type} {x : Act s ε α} {st : s} (hfail : ∀ a, (x.run st).1 ≠ .ok a)
    (f : α → Act s ε β) :
    (∀ b, ((x >>= f).run st).1 ≠ .ok b) ∧ ((x >>= f).run st).2 = (x.run st).2 := by
  rw [bind_run]
  rcases hr : x.run st with ⟨_ | e | _, st'⟩
  · rw [hr] at hfail
    exact absurd rfl (hfail _)
  · exact ⟨fun _ h => (nomatch h), rfl⟩
  · exact ⟨fun _ h => (nomatch h), rfl⟩

/-- Nor is there a result made from it. -/
theorem Outcome.map_ne_ok {β : Type} {o : Outcome ε α} (hfail : ∀ a, o ≠ .ok a) (f : α → β) (b : β) :
    o.map f ≠ .ok b := by
  cases o with
  | ok a => exact absurd rfl (hfail a)
  | _ => exact fun h => nomatch h

/-- A scan finishes, or it stops after the first of its items and has no result. -/
theorem Env.scan_ends {env : Env σ} (hquiet : env.Quiet) (task : ι → Task) (items : List ι)
    {f : HostError → ε} {x : Act (World σ) ε Nat} {w : World σ}
    (hx : x.run w = ((env.scan task items).mapError f).run w) :
    (∃ w' new, x.run w = (.ok items.length, w') ∧ CarriedOut task items new ∧
      w'.events = w.events ++ new ∧ w'.memory = finishAll task items w.memory) ∨
    ((∀ n, (x.run w).1 ≠ .ok n) ∧ ∃ done new, done <+: items ∧ (x.run w).2.events = w.events ++ new ∧
      requestsDone new = done.map (fun i => (task i).request) ∧
      (x.run w).2.memory = finishAll task done w.memory) := by
  obtain ⟨new, hevents, hprogress⟩ := Env.scan_progress hquiet task items w
  rw [hx, Act.mapError_run]
  generalize (env.scan task items).run w = out at hevents hprogress ⊢
  obtain ⟨o, w'⟩ := out
  dsimp only at hevents hprogress ⊢
  generalize hm : w'.memory = m' at hprogress
  -- a request that was not carried out leaves no trace among those that were
  have hlast : ∀ {done : List ι} {before : List Event} {q : Request} {r : Reply}, (∀ v, r ≠ .done v) →
      CarriedOut task done before →
      requestsDone (before ++ [.requested q r]) = done.map fun i => (task i).request := by
    intro done before q r hr hdone
    rw [requestsDone_append, hdone.requestsDone]
    cases r with
    | done v => exact absurd rfl (hr v)
    | _ => exact List.append_nil _
  cases hprogress with
  | finished hdone => exact .inl ⟨w', new, rfl, hdone, hevents, hm⟩
  | refused hsplit hdone =>
    exact .inr ⟨fun _ h => (nomatch h), _, _, ⟨_, hsplit.symm⟩, hevents, hlast (fun _ h => (nomatch h)) hdone, hm⟩
  | lost hsplit hdone =>
    exact .inr ⟨fun _ h => (nomatch h), _, _, ⟨_, hsplit.symm⟩, hevents, hlast (fun _ h => (nomatch h)) hdone, hm⟩

/-- The events `rs` are the read of `hstatus` for a swap, which has given `old`. Without a swap there is none. -/
def SwapRead : Option CsrWrite → Word → List Event → Prop
  | none, _, rs => rs = []
  | some _, old, rs => rs = [.requested (.readCsr CsrNumber.hstatus) (.done old)]

/-- The value of `hstatus` is read where there is a swap, or the host has not let it be read. -/
theorem Env.readSwap_ends {env : Env σ} (hquiet : env.Quiet) (swap : Option CsrWrite) (w : World σ) :
    (∃ old w' rs, (env.readSwap swap).run w = (.ok old, w') ∧ SwapRead swap old rs ∧
      w'.events = w.events ++ rs ∧ w'.memory = w.memory) ∨
    ((∀ v, ((env.readSwap swap).run w).1 ≠ .ok v) ∧ ∃ rs,
      ((env.readSwap swap).run w).2.events = w.events ++ rs ∧ requestsDone rs = [] ∧
      ((env.readSwap swap).run w).2.memory = w.memory) := by
  cases swap with
  | none => exact .inl ⟨0, w, [], rfl, rfl, (List.append_nil _).symm, rfl⟩
  | some c =>
    unfold Env.readSwap
    rw [Act.mapError_run, World.request_run, hquiet]
    cases (env.host (.readCsr CsrNumber.hstatus) w.state w.memory).1 with
    | done v => exact .inl ⟨v, _, _, rfl, rfl, rfl, rfl⟩
    | _ => exact .inr ⟨fun _ h => (nomatch h), _, rfl, rfl, rfl⟩

/-- Guest memory once slots have been applied and entries of the fence list performed. -/
def Area.applied (a : Area) (m : Memory) (slots : List CsrSlot) (fences : List PendingFence) : Memory :=
  finishAll (PendingFence.task a) fences (finishAll (a.slotTask m) slots m)

section
variable {a : Area} {m m' : Memory}

/-- Applying slots clears their dirty bits, and performing fences no others. -/
theorem Area.isDirty_applied (a : Area) (m : Memory) (slots : List CsrSlot) (fences : List PendingFence)
    (t : CsrSlot) : a.isDirty (a.applied m slots fences) t = (a.isDirty m t && !decide (t ∈ slots)) := by
  unfold applied
  rw [isDirty_congr fun b hb => read_performed hb fences _, isDirty_finishAll]

/-- A word that is neither of the bitmap or a slot nor of the fence list is as it was. -/
theorem Area.read_applied {b : Nat} (hslots : ¬a.InSlots b) (hlist : ¬a.InFenceList b) (m : Memory)
    (slots : List CsrSlot) (fences : List PendingFence) : (a.applied m slots fences).read b = m.read b := by
  have hperformed : (a.applied m slots fences).read b = (finishAll (a.slotTask m) slots m).read b := by
    refine read_finishAll (fun p _ m => Memory.read_write_of_ne ?_) _
    rintro rfl
    refine hlist ?_
    unfold InFenceList fenceBase
    omega
  have happlied : (finishAll (a.slotTask m) slots m).read b = m.read b := by
    refine read_finishAll (fun s _ m => Memory.read_write_of_ne ?_) m
    rintro rfl
    exact hslots (a.inSlots_bitmapBase _)
  exact hperformed.trans happlied

theorem Area.swapContext_congr (h : ∀ i < 16, m'.read (a.swapBase + i) = m.read (a.swapBase + i)) :
    a.swapContext m' = a.swapContext m := by
  refine SwapContext.ext (Vector.ext fun i hi => ?_)
  show (m'.load a.swapBase 16)[i] = (m.load a.swapBase 16)[i]
  rw [Memory.getElem_load, Memory.getElem_load, h i hi]

/-- The swap context is not applied. -/
theorem Area.swapContext_applied (a : Area) (m : Memory) (slots : List CsrSlot)
    (fences : List PendingFence) : a.swapContext (a.applied m slots fences) = a.swapContext m := by
  refine swapContext_congr fun i hi => read_applied (fun hin => ?_) (fun hin => ?_) m slots fences
  · unfold InSlots swapBase at hin
    omega
  · unfold InFenceList swapBase at hin
    omega

end

/-- How the first half of a plan ends, from guest memory `m`: with an outcome, events on record, and guest
    memory. -/
inductive BeforeReturn (a : Area) (plan : ReturnPlan) (m : Memory) :
    Outcome SyncError (ReturnSummary × Word) → List Event → Memory → Prop where
  /-- Everything is done, slots first. -/
  | ready {ws fs rs : List Event} {old : Word} (hslots : CarriedOut (a.slotTask m) plan.slots ws)
    (hfences : CarriedOut (PendingFence.task a) plan.fences fs) (hread : SwapRead plan.swap old rs) :
    BeforeReturn a plan m (.ok (⟨plan.slots.length, plan.fences.length, plan.swap.isSome⟩, old))
      (ws ++ fs ++ rs) (a.applied m plan.slots plan.fences)
  /-- The host has not carried something out, and what came before it is done. -/
  | stopped {o : Outcome SyncError (ReturnSummary × Word)} {new : List Event} {slots : List CsrSlot}
    {fences : List PendingFence} (hfail : ∀ r, o ≠ .ok r) (hslots : slots <+: plan.slots)
    (hfences : fences <+: plan.fences)
    (hdone : requestsDone new = slots.map (fun s => .writeCsr (a.slotUpdate m s)) ++
      fences.map fun p => .fence p.fence)
    (hstays : ∀ t r, .requested (.trapReturn t) r ∉ new) :
    BeforeReturn a plan m o new (a.applied m slots fences)

/-- The first half asks for no return. -/
theorem Env.beforeReturn_stays (env : Env σ) (a : Area) (plan : ReturnPlan) (w : World σ) :
    ∃ new, ((env.beforeReturn a plan).run w).2.events = w.events ++ new ∧
      ∀ t r, .requested (.trapReturn t) r ∉ new := by
  have hmoves : Moves (Reaches env (fun q => ∀ t, q ≠ .trapReturn t) fun _ => True)
      (env.beforeReturn a plan) := by
    refine (Env.applySlots_moves (fun _ _ _ _ _ h => by cases h) (fun _ => trivial) _).bind fun csrs => ?_
    refine Moves.bind ?_ fun fences => Moves.bind ?_ fun old => Moves.pure _
    · exact (Env.performFences_moves (fun _ => trivial) fun _ _ _ h => by cases h).mapError _
    · cases plan.swap with
      | none => exact Moves.pure 0
      | some c => exact (Env.request_moves fun _ h => by cases h).mapError _
  obtain ⟨new, hevents, hnew⟩ := (hmoves w).events
  exact ⟨new, hevents, fun t r ht => hnew _ r ht t rfl⟩

section
variable {env : Env σ} {a : Area} {plan : ReturnPlan} {w w₁ w₂ w' : World σ} {new ws fs : List Event}
  {o : Outcome SyncError (ReturnSummary × Word)}

/-- With slots and fences done, the read of `hstatus` is what is left. -/
theorem BeforeReturn.of_read (hquiet : env.Quiet) (hws : CarriedOut (a.slotTask w.memory) plan.slots ws)
    (hfs : CarriedOut (PendingFence.task a) plan.fences fs) (hbefore : w₂.events = w.events ++ (ws ++ fs))
    (hmemory : w₂.memory = a.applied w.memory plan.slots plan.fences)
    (hrun : (env.readSwap plan.swap >>= fun old =>
      pure ((⟨plan.slots.length, plan.fences.length, plan.swap.isSome⟩ : ReturnSummary), old)).run w₂ = (o, w'))
    (hevents : w'.events = w.events ++ new) (hstays : ∀ t r, .requested (.trapReturn t) r ∉ new) :
    BeforeReturn a plan w.memory o new w'.memory := by
  obtain ⟨old, w₃, rs, hran, hread, hevents₃, hmemory₃⟩ | ⟨hfail, rs, hevents₃, hrs, hmemory₃⟩ :=
    Env.readSwap_ends hquiet plan.swap w₂
  · rw [Act.bind_run, hran, Act.next_ok] at hrun
    cases hrun
    obtain rfl : new = ws ++ fs ++ rs := by
      refine List.append_cancel_left (hevents.symm.trans ?_)
      rw [hevents₃, hbefore, List.append_assoc]
    rw [hmemory₃, hmemory]
    exact .ready hws hfs hread
  · obtain ⟨hnone, hsame⟩ := Act.bind_of_not_ok hfail fun old =>
      pure ((⟨plan.slots.length, plan.fences.length, plan.swap.isSome⟩ : ReturnSummary), old)
    rw [hrun] at hnone hsame
    cases hsame
    obtain rfl : new = ws ++ fs ++ rs := by
      refine List.append_cancel_left (hevents.symm.trans ?_)
      rw [hevents₃, hbefore, List.append_assoc]
    rw [hmemory₃, hmemory]
    refine .stopped hnone List.prefix_rfl List.prefix_rfl ?_ hstays
    rw [requestsDone_append, requestsDone_append, hws.requestsDone, hfs.requestsDone, hrs, List.append_nil]
    rfl

/-- With the slots done, the fences come next. -/
theorem BeforeReturn.of_fences (hquiet : env.Quiet) (hws : CarriedOut (a.slotTask w.memory) plan.slots ws)
    (hbefore : w₁.events = w.events ++ ws) (hmemory : w₁.memory = finishAll (a.slotTask w.memory) plan.slots w.memory)
    (hrun : ((env.performFences a plan.fences).mapError SyncError.fence >>= fun fences =>
      env.readSwap plan.swap >>= fun old =>
        pure ((⟨plan.slots.length, fences, plan.swap.isSome⟩ : ReturnSummary), old)).run w₁ = (o, w'))
    (hevents : w'.events = w.events ++ new) (hstays : ∀ t r, .requested (.trapReturn t) r ∉ new) :
    BeforeReturn a plan w.memory o new w'.memory := by
  have hperform : ((env.performFences a plan.fences).mapError SyncError.fence).run w₁ =
      ((env.scan (PendingFence.task a) plan.fences).mapError fun e => .fence (.host e)).run w₁ := by
    rw [Env.performFences_eq, Act.mapError_run, Act.mapError_run, Act.mapError_run]
    rcases (env.scan (PendingFence.task a) plan.fences).run w₁ with ⟨_ | _ | _, _⟩ <;> rfl
  obtain ⟨w₂, fs, hran, hfs, hevents₂, hmemory₂⟩ | ⟨hfail, fences, fs, hprefix, hevents₂, hfs, hmemory₂⟩ :=
    Env.scan_ends hquiet (PendingFence.task a) plan.fences hperform
  · have happlied : w₂.memory = a.applied w.memory plan.slots plan.fences := by
      rw [hmemory₂, hmemory]
      rfl
    have hrecord : w₂.events = w.events ++ (ws ++ fs) := by
      rw [hevents₂, hbefore, List.append_assoc]
    rw [Act.bind_run, hran, Act.next_ok] at hrun
    exact .of_read hquiet hws hfs hrecord happlied hrun hevents hstays
  · obtain ⟨hnone, hsame⟩ := Act.bind_of_not_ok hfail fun fences => env.readSwap plan.swap >>= fun old =>
      pure ((⟨plan.slots.length, fences, plan.swap.isSome⟩ : ReturnSummary), old)
    rw [hrun] at hnone hsame
    cases hsame
    obtain rfl : new = ws ++ fs := by
      refine List.append_cancel_left (hevents.symm.trans ?_)
      rw [hevents₂, hbefore, List.append_assoc]
    rw [hmemory₂, hmemory]
    refine .stopped hnone List.prefix_rfl hprefix ?_ hstays
    rw [requestsDone_append, hws.requestsDone, hfs]
    rfl

/-- **The first half of a plan ends in one of these ways,** where the host leaves guest memory alone. -/
theorem Env.beforeReturn_ends (hquiet : env.Quiet) (hvalid : ∀ s ∈ plan.slots, a.SlotValid w.memory s) :
    ∃ new, ((env.beforeReturn a plan).run w).2.events = w.events ++ new ∧
      BeforeReturn a plan w.memory ((env.beforeReturn a plan).run w).1 new
        ((env.beforeReturn a plan).run w).2.memory := by
  obtain ⟨new, hevents, hstays⟩ := env.beforeReturn_stays a plan w
  refine ⟨new, hevents, ?_⟩
  rcases hrun : (env.beforeReturn a plan).run w with ⟨o, w'⟩
  rw [hrun] at hevents
  unfold Env.beforeReturn at hrun
  obtain ⟨w₁, ws, hran, hws, hevents₁, hmemory₁⟩ | ⟨hfail, slots, ws, hprefix, hevents₁, hws, hmemory₁⟩ :=
    Env.scan_ends hquiet (a.slotTask w.memory) plan.slots (Env.applySlots_run hquiet hvalid w fun _ => rfl)
  · rw [Act.bind_run, hran, Act.next_ok] at hrun
    exact .of_fences hquiet hws hevents₁ hmemory₁ hrun hevents hstays
  · obtain ⟨hnone, hsame⟩ := Act.bind_of_not_ok hfail fun csrs =>
      (env.performFences a plan.fences).mapError SyncError.fence >>= fun fences =>
        env.readSwap plan.swap >>= fun old =>
          pure ((⟨csrs, fences, plan.swap.isSome⟩ : ReturnSummary), old)
    rw [hrun] at hnone hsame
    cases hsame
    obtain rfl : new = ws := List.append_cancel_left (hevents.symm.trans hevents₁)
    dsimp only
    rw [hmemory₁]
    refine .stopped hnone hprefix List.nil_prefix ?_ hstays
    rw [hws, List.map_nil, List.append_nil]
    rfl

end

/-! ## The second half -/

/-- How the second half of a plan ends, from guest memory `m`: with an outcome, events on record, and guest
    memory. Only a swap that is completed changes memory. -/
inductive HandedOver (a : Area) (plan : ReturnPlan) (old : Word) (m : Memory) :
    Outcome SyncError Unit → List Event → Memory → Prop where
  | left {v : Word} (hswap : plan.swap = none) :
    HandedOver a plan old m (.ok ()) [.requested (.trapReturn plan.state) (.done v)] m
  | swapped {c : CsrWrite} {v u : Word} (hswap : plan.swap = some c) :
    HandedOver a plan old m (.ok ())
      [.requested (.trapReturn plan.state) (.done v), .requested (.writeCsr c) (.done u)]
      (a.setSwapValue old m)
  /-- The host has not carried the return out. -/
  | stayed {o : Outcome SyncError Unit} {r : Reply} (hfail : ∀ x, o ≠ .ok x) (hr : ∀ v, r ≠ .done v) :
    HandedOver a plan old m o [.requested (.trapReturn plan.state) r] m
  /-- The host has left, and has not written `hstatus` for the swap. -/
  | notSwapped {o : Outcome SyncError Unit} {c : CsrWrite} {v : Word} {r : Reply}
    (hswap : plan.swap = some c) (hfail : ∀ x, o ≠ .ok x) (hr : ∀ v, r ≠ .done v) :
    HandedOver a plan old m o
      [.requested (.trapReturn plan.state) (.done v), .requested (.writeCsr c) r] m

/-- **The second half of a plan ends in one of these ways,** where the host leaves guest memory alone. -/
theorem Env.handOver_ends {env : Env σ} (hquiet : env.Quiet) (a : Area) (plan : ReturnPlan) (old : Word)
    (w : World σ) :
    ∃ new, ((env.handOver a plan old).run w).2.events = w.events ++ new ∧
      HandedOver a plan old w.memory ((env.handOver a plan old).run w).1 new
        ((env.handOver a plan old).run w).2.memory := by
  unfold Env.handOver
  rw [Act.bind_run, Act.mapError_run, World.request_run, hquiet]
  cases (env.host (.trapReturn plan.state) w.state w.memory).1 with
  | done v =>
    dsimp only
    rw [Act.next_ok]
    cases hswap : plan.swap with
    | none => exact ⟨_, rfl, .left hswap⟩
    | some c =>
      unfold Env.afterReturn
      dsimp only
      rw [Act.bind_run, Act.mapError_run, World.request_run, hquiet]
      dsimp only
      rw [List.append_assoc]
      cases (env.host (.writeCsr c) _ w.memory).1 with
      | done u => exact ⟨_, rfl, .swapped hswap⟩
      | _ => exact ⟨_, rfl, .notSwapped hswap (fun _ h => nomatch h) fun _ h => nomatch h⟩
  | _ => exact ⟨_, rfl, .stayed (fun _ h => nomatch h) fun _ h => nomatch h⟩

/-! ## The whole call -/

/-- How a call to return from the trap handler ends, from the world `w`: with an outcome, and a world. -/
inductive ReturnCall (env : Env σ) (a : Area) (autoswap : Bool) (w : World σ) :
    Outcome SyncError ReturnSummary → World σ → Prop where
  /-- Something did not pass its check, and nothing has happened. -/
  | refused {o : Outcome SyncError ReturnSummary} (hfail : ∀ r, o ≠ .ok r) : ReturnCall env a autoswap w o w
  /-- The host has not carried out something that comes before the return. -/
  | stopped {plan : ReturnPlan} {o : Outcome SyncError ReturnSummary} {w' : World σ} {new : List Event}
    {slots : List CsrSlot} {fences : List PendingFence}
    (hplan : a.prepareReturn autoswap w.memory = .ok plan) (hfail : ∀ r, o ≠ .ok r)
    (hslots : slots <+: plan.slots) (hevents : w'.events = w.events ++ new)
    (hdone : requestsDone new = slots.map (fun s => .writeCsr (a.slotUpdate w.memory s)) ++
      fences.map fun p => .fence p.fence)
    (hstays : ∀ t r, .requested (.trapReturn t) r ∉ new)
    (hfences : fences <+: plan.fences) (hmemory : w'.memory = a.applied w.memory slots fences) :
    ReturnCall env a autoswap w o w'
  /-- The host has been handed the return in the world `w₁`. -/
  | handed {plan : ReturnPlan} {ws fs rs new : List Event} {old : Word} {w₁ w' : World σ}
    {o : Outcome SyncError Unit} (hplan : a.prepareReturn autoswap w.memory = .ok plan)
    (hrun : (env.beforeReturn a plan).run w =
      (.ok (⟨plan.slots.length, plan.fences.length, plan.swap.isSome⟩, old), w₁))
    (hslots : CarriedOut (a.slotTask w.memory) plan.slots ws)
    (hfences : CarriedOut (PendingFence.task a) plan.fences fs) (hread : SwapRead plan.swap old rs)
    (hbefore : w₁.events = w.events ++ (ws ++ fs ++ rs))
    (hmemory : w₁.memory = a.applied w.memory plan.slots plan.fences)
    (hevents : w'.events = w₁.events ++ new)
    (hafter : HandedOver a plan old w₁.memory o new w'.memory) :
    ReturnCall env a autoswap w
      (o.map fun _ => ⟨plan.slots.length, plan.fences.length, plan.swap.isSome⟩) w'

/-- A plan holds slots with values that pass. -/
theorem Area.prepareReturn_slotValid {a : Area} {autoswap : Bool} {m : Memory} {plan : ReturnPlan}
    (hplan : a.prepareReturn autoswap m = .ok plan) : ∀ s ∈ plan.slots, a.SlotValid m s := by
  obtain ⟨_, _, _, _, hchecked⟩ := Area.prepareReturn_ok hplan
  exact Area.checkSlots_ok_iff.1 hchecked

theorem Env.applyReturn_ends {env : Env σ} (hquiet : env.Quiet) {a : Area} {autoswap : Bool} {w : World σ}
    {plan : ReturnPlan} (hplan : a.prepareReturn autoswap w.memory = .ok plan) :
    ReturnCall env a autoswap w ((env.applyReturn a plan).run w).1 ((env.applyReturn a plan).run w).2 := by
  obtain ⟨new, hevents, hends⟩ := Env.beforeReturn_ends hquiet (Area.prepareReturn_slotValid hplan)
  rw [Env.applyReturn_eq]
  rcases hrun : (env.beforeReturn a plan).run w with ⟨o, w₁⟩
  rw [hrun] at hevents hends
  dsimp only at hevents hends
  generalize hmemory : w₁.memory = m₁ at hends
  cases hends with
  | ready hslots hfences hread =>
    obtain ⟨after, hafter, hover⟩ := Env.handOver_ends hquiet a plan _ w₁
    rw [Act.bind_run, hrun, Act.next_ok, Act.run_bind_pure]
    exact .handed hplan hrun hslots hfences hread hevents hmemory hafter hover
  | stopped hfail hslots hfences hdone hstays =>
    have hnot : ∀ r, ((env.beforeReturn a plan).run w).1 ≠ .ok r := by
      rw [hrun]
      exact hfail
    obtain ⟨hnone, hsame⟩ := Act.bind_of_not_ok hnot fun r =>
      env.handOver a plan r.2 >>= fun _ => pure r.1
    rw [hsame, hrun]
    exact .stopped hplan hnone hslots hevents hdone hstays hfences hmemory

/-- **Every call to return from the trap handler ends in one of these ways,** where the host leaves guest
    memory alone. -/
theorem Env.syncReturn_ends {env : Env σ} (hquiet : env.Quiet) (a : Area) (flags : Word) (caller : Privilege)
    (enabled : Bool) (st : Phase × World σ) :
    ReturnCall env a (Word.bit flags 0) st.2 ((env.syncReturn a flags caller enabled).run st).1
      ((env.syncReturn a flags caller enabled).run st).2.2 := by
  obtain ⟨e, _, he⟩ | hphases := env.syncReturn_cases a flags caller enabled
  · rw [he]
    exact .refused fun _ h => nomatch h
  · rw [hphases]
    obtain ⟨phase, w⟩ := st
    cases phase with
    -- an earlier call was abandoned
    | checking => exact .refused fun _ h => nomatch h
    | applying => exact .refused fun _ h => nomatch h
    | idle =>
      rw [inPhases_run_idle]
      cases hplan : a.prepareReturn (Word.bit flags 0) w.memory with
      | error e => exact .refused fun _ h => nomatch h
      | ok plan =>
        have hends := Env.applyReturn_ends hquiet hplan
        dsimp only
        revert hends
        rcases (env.applyReturn a plan).run w with ⟨_ | _ | _, w'⟩ <;> exact id

end NestedAccel
