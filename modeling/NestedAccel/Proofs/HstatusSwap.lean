import NestedAccel.Proofs.Accesses
import NestedAccel.Proofs.DeferredWrites
import NestedAccel.Proofs.Departure
import NestedAccel.Proofs.Retry

/-!
# `NestedAccel.Proofs.HstatusSwap` — the two copies of `hstatus` change places, or neither does

A trap return with a swap reads the host's `hstatus`, has the host leave, writes the value of the swap context to
`hstatus` and stores the value read in the context. Any of the three requests can fail, and before them the same
call may have applied a dirty slot of `hstatus`.

The record tells the value of a register that the host keeps (`Env.KeepsCsr`): it is the last one written, which
`valueAfter` picks out of the requests carried out (`Confined.csr_eq`). With the ways a call can end
(`ReturnCall`) that leaves two outcomes. The copies are **`Swapped`**, or the context is as it was and `hstatus`
is **`HstatusKept`** (`Env.syncReturn_swapped_or_kept`). **`Env.syncReturn_swap`** adds that a second swap puts
both back.
-/

namespace NestedAccel

variable {σ ε α : Type}

/-! ## A register on record -/

/-- The value that a request writes to register `n`, if it is a write to that register. -/
def Request.writes? (n : CsrNumber) : Request → Option Word
  | .writeCsr c => if c.csr = n then some c.value else none
  | _ => none

theorem Request.writes?_writeCsr (n : CsrNumber) (c : CsrWrite) :
    (Request.writeCsr c).writes? n = if c.csr = n then some c.value else none := rfl

/-- The value of register `n` after the requests `qs` have been carried out, from the value `v`. -/
def valueAfter (n : CsrNumber) (v : Word) (qs : List Request) : Word :=
  qs.foldl (fun v q => (q.writes? n).getD v) v

/-- The host keeps register `n`, whose value `csr` reads off its state. A write that it carries out stores the
    value and a read returns it. Other requests leave it alone, and so do those that are refused. -/
structure Env.KeepsCsr (env : Env σ) (n : CsrNumber) (csr : σ → Word) : Prop where
  done : ∀ q s m v, (env.host q s m).1 = .done v → csr (env.host q s m).2.1 = (q.writes? n).getD (csr s)
  read : ∀ s m v, (env.host (.readCsr n) s m).1 = .done v → v = csr s
  refused : ∀ q s m e, (env.host q s m).1 = .refused e → csr (env.host q s m).2.1 = csr s

section
variable {n : CsrNumber} {v : Word}

theorem valueAfter_append (n : CsrNumber) (v : Word) (qs rs : List Request) :
    valueAfter n v (qs ++ rs) = valueAfter n (valueAfter n v qs) rs := List.foldl_append

/-- Requests that do not write the register do not matter. -/
theorem valueAfter_eq_self {qs : List Request} (h : ∀ q ∈ qs, q.writes? n = none) :
    valueAfter n v qs = v := by
  induction qs with
  | nil => rfl
  | cons q rest ih =>
    obtain ⟨hq, hrest⟩ := List.forall_mem_cons.1 h
    show valueAfter n ((q.writes? n).getD v) rest = v
    rw [hq]
    exact ih hrest

/-- **The record tells the value of a register that the host keeps,** unless the host has not come back. -/
theorem Confined.csr_eq {env : Env σ} {π : Policy} {csr : σ → Word} {x : Act (World σ) ε α} {w : World σ}
    (hkeeps : env.KeepsCsr n csr) (hcalls : ∀ e, π.calls e → e.IsRequest) (h : Confined env π x w)
    (hback : (x.run w).1 ≠ .abandoned) :
    ∃ new, (x.run w).2.events = w.events ++ new ∧
      csr (x.run w).2.state = valueAfter n (csr w.state) (requestsDone new) := by
  have hnothing : ∀ w : World σ, ∃ new, w.events = w.events ++ new ∧
      csr w.state = valueAfter n (csr w.state) (requestsDone new) :=
    fun w => ⟨[], (List.append_nil _).symm, rfl⟩
  -- on the actions that the computation is made of
  induction h with
  | pure a w => exact hnothing w
  | fail e w => exact hnothing w
  | message l text w => exact hnothing w
  | @read _ _ f w _ => exact hnothing w
  | @change _ f w _ => exact hnothing w
  | @request q hq w =>
    rw [World.request_run] at hback ⊢
    refine ⟨_, rfl, ?_⟩
    cases hr : (env.host q w.state w.memory).1 with
    | done v => exact hkeeps.done q w.state w.memory v hr
    | refused e => exact hkeeps.refused q w.state w.memory e hr
    | lost =>
      rw [hr] at hback
      exact absurd rfl hback
  | @map gpa len hr w =>
    obtain ⟨_, _, h⟩ := hcalls _ (hr (.error .transient))
    cases h
  | unmap hr w =>
    obtain ⟨_, _, h⟩ := hcalls _ hr
    cases h
  | @bind _ _ _ x f w _ _ ihx ihf =>
    rw [Act.bind_run] at hback ⊢
    rcases hrun : x.run w with ⟨o, w'⟩
    rw [hrun] at ihx hback
    cases o with
    | ok a =>
      obtain ⟨new, hevents, hvalue⟩ := ihx fun h => nomatch h
      obtain ⟨more, hevents', hvalue'⟩ := ihf a w' hrun hback
      refine ⟨new ++ more, ?_, ?_⟩
      · rw [← List.append_assoc, ← hevents]
        exact hevents'
      · rw [requestsDone_append, valueAfter_append, ← hvalue]
        exact hvalue'
    | error e => exact ihx fun h => nomatch h
    | abandoned => exact absurd rfl hback
  | @mapError _ _ _ x w _ f ih =>
    rw [Act.mapError_run_snd]
    refine ih fun h => hback ?_
    rw [Act.mapError_run]
    revert h
    rcases x.run w with ⟨_ | _ | _, _⟩ <;> simp
  | @attempt _ _ _ x w _ ih =>
    rw [Act.attempt_run_snd]
    refine ih fun h => hback ?_
    rw [Act.attempt_run]
    revert h
    rcases x.run w with ⟨_ | _ | _, _⟩ <;> simp

end

/-! ## The slot of `hstatus` -/

/-- The slot that `hstatus` is assigned to. -/
def CsrSlot.hstatus : CsrSlot := .ofCsr CsrNumber.hstatus

section
variable {a : Area} {m : Memory}

theorem Area.slotUpdate_hstatus (a : Area) (m : Memory) :
    a.slotUpdate m .hstatus = ⟨CsrNumber.hstatus, a.slotValue m .hstatus⟩ := by
  have hnumber : ((Csr.entryAt? .hstatus).map Csr.Entry.number).getD 0 = CsrNumber.hstatus := by decide
  unfold slotUpdate
  rw [hnumber]

/-- Of the slots with values that pass, one is written to `hstatus`. -/
theorem Area.SlotValid.writes? {s : CsrSlot} (h : a.SlotValid m s) :
    (Request.writeCsr (a.slotUpdate m s)).writes? CsrNumber.hstatus =
      if s = .hstatus then some (a.slotValue m .hstatus) else none := by
  rw [Request.writes?_writeCsr]
  by_cases hs : s = .hstatus
  · rw [hs, a.slotUpdate_hstatus, if_pos rfl, if_pos rfl]
  · have hcsr : (a.slotUpdate m s).csr ≠ CsrNumber.hstatus := fun hcsr => hs (by rw [← h.ofCsr_csr, hcsr]; rfl)
    rw [if_neg hs, if_neg hcsr]

/-- Applied slots leave `hstatus` with the value of its own, if that is one of them. -/
theorem Area.valueAfter_slots {slots : List CsrSlot} (hvalid : ∀ s ∈ slots, a.SlotValid m s) (v : Word) :
    valueAfter CsrNumber.hstatus v (slots.map fun s => .writeCsr (a.slotUpdate m s)) =
      if .hstatus ∈ slots then a.slotValue m .hstatus else v := by
  induction slots generalizing v with
  | nil => rfl
  | cons s rest ih =>
    obtain ⟨hs, hrest⟩ := List.forall_mem_cons.1 hvalid
    have hstep : valueAfter CsrNumber.hstatus v
        ((s :: rest).map fun s => .writeCsr (a.slotUpdate m s)) =
          valueAfter CsrNumber.hstatus (if s = .hstatus then a.slotValue m .hstatus else v)
            (rest.map fun s => .writeCsr (a.slotUpdate m s)) := by
      rw [List.map_cons]
      show valueAfter CsrNumber.hstatus ((Request.writes? _ _).getD v) _ = _
      rw [hs.writes?]
      split <;> rfl
    rw [hstep, ih hrest]
    by_cases h : s = .hstatus
    · simp [h]
    · simp [h, Ne.symm h]

/-- Fences write no register. -/
theorem writes?_fences (n : CsrNumber) (fences : List PendingFence) :
    ∀ q ∈ fences.map (fun p => Request.fence p.fence), q.writes? n = none := by
  intro q hq
  obtain ⟨p, _, rfl⟩ := List.mem_map.1 hq
  rfl

/-- Nor does the read for a swap. -/
theorem SwapRead.writes? {swap : Option CsrWrite} {old : Word} {rs : List Event}
    (h : SwapRead swap old rs) (n : CsrNumber) : ∀ q ∈ requestsDone rs, q.writes? n = none := by
  intro q hq
  cases swap with
  | none =>
    rw [show rs = [] from h] at hq
    cases hq
  | some c =>
    rw [show rs = [_] from h] at hq
    rw [List.mem_singleton.1 hq]
    rfl

end

/-! ## The swap context -/

theorem Check.csrWrite_hstatus (v : Word) :
    Check.csrWrite CsrNumber.hstatus.toUInt64 v =
      if Csr.Rule.selects64 v then .ok ⟨CsrNumber.hstatus, v⟩
      else .error (.illegalValue CsrNumber.hstatus v) := by
  have hentry : Check.assigned CsrNumber.hstatus.toUInt64 =
      .ok ⟨CsrNumber.hstatus, .readWrite, .hstatus⟩ := rfl
  unfold Check.csrWrite
  rw [hentry]
  rfl

/-- A swap writes the value of its context. -/
theorem Check.swap_eq {c : SwapContext} {w : CsrWrite} (h : Check.swap c = .ok (some w)) :
    w = ⟨CsrNumber.hstatus, c.hstatus⟩ := by
  have hwrite := Check.swap_ok h
  rw [Check.csrWrite_hstatus] at hwrite
  split at hwrite
  · exact (Except.ok.inj hwrite).symm
  · cases hwrite

/-- A context whose flags are in order is swapped exactly if its value keeps registers 64 bits wide. -/
theorem Check.swap_eq_some_iff {c : SwapContext} (hformed : c.wellFormed = true) (hvalid : c.valid = true) :
    Check.swap c = .ok (some ⟨CsrNumber.hstatus, c.hstatus⟩) ↔ Csr.Rule.selects64 c.hstatus = true := by
  unfold Check.swap
  rw [if_neg (not_not_intro hformed), if_neg (not_not_intro hvalid), Check.csrWrite_hstatus]
  by_cases h : Csr.Rule.selects64 c.hstatus = true
  · rw [if_pos h]
    exact iff_of_true rfl h
  · rw [if_neg h]
    exact iff_of_false (fun h => nomatch h) h

theorem Check.swap_wellFormed {c : SwapContext} {o : Option CsrWrite} (h : Check.swap c = .ok o) :
    c.wellFormed = true := by
  unfold Check.swap at h
  split at h
  · cases h
  · rename_i hformed
    exact Decidable.not_not.1 hformed

/-- Storing a value in the context changes one of its words. -/
theorem Area.swapContext_setSwapValue (a : Area) (v : Word) (m : Memory) :
    (a.swapContext (a.setSwapValue v m)).words = (a.swapContext m).words.set 1 v (by decide) := by
  refine Vector.ext fun i hi => ?_
  show ((a.setSwapValue v m).load a.swapBase 16)[i] = ((m.load a.swapBase 16).set 1 v)[i]
  rw [Memory.getElem_load, Vector.getElem_set, Memory.getElem_load]
  unfold Area.setSwapValue
  rw [Memory.read_write]
  by_cases h : 1 = i
  · rw [if_pos h, if_pos (by omega)]
  · rw [if_neg h, if_neg (by omega)]

theorem Area.isDirty_setSwapValue (a : Area) (v : Word) (m : Memory) (s : CsrSlot) :
    a.isDirty (a.setSwapValue v m) s = a.isDirty m s := by
  refine Area.isDirty_congr (fun b hb => Memory.read_write_of_ne ?_) s
  unfold Area.InSlots at hb
  unfold Area.swapBase
  omega

/-! ## The two outcomes -/

/-- From the world `w` to `w'`, the value of the swap context and the host's `hstatus` have changed places, once
    the slot of `hstatus` has been applied where it was dirty. The rest of the context is as it was. -/
structure Area.Swapped (a : Area) (csr : σ → Word) (w w' : World σ) : Prop where
  host : csr w'.state = (a.swapContext w.memory).hstatus
  context : (a.swapContext w'.memory).words = (a.swapContext w.memory).words.set 1
    (if a.isDirty w.memory .hstatus then a.slotValue w.memory .hstatus else csr w.state) (by decide)

/-- From the world `w` to `w'`, `hstatus` is as it was, or its dirty slot has been written to it. -/
def Area.HstatusKept (a : Area) (csr : σ → Word) (w w' : World σ) : Prop :=
  csr w'.state = csr w.state ∨
  (a.isDirty w.memory .hstatus = true ∧ csr w'.state = a.slotValue w.memory .hstatus ∧
    ∃ new, w'.events = w.events ++ new ∧
      .writeCsr ⟨CsrNumber.hstatus, a.slotValue w.memory .hstatus⟩ ∈ requestsDone new)

section
variable {env : Env σ} {a : Area} {csr : σ → Word} {w w' w₁ : World σ} {plan : ReturnPlan}

/-- Slots and requests that write no register leave `hstatus` alone but for its dirty slot. -/
theorem Area.hstatusKept_of_slots {slots : List CsrSlot} {rest : List Request} {new : List Event}
    (hvalid : ∀ s ∈ slots, a.SlotValid w.memory s) (hdirty : ∀ s ∈ slots, a.isDirty w.memory s = true)
    (hevents : w'.events = w.events ++ new)
    (hcsr : csr w'.state = valueAfter CsrNumber.hstatus (csr w.state) (requestsDone new))
    (hdone : requestsDone new = slots.map (fun s => .writeCsr (a.slotUpdate w.memory s)) ++ rest)
    (hrest : ∀ q ∈ rest, q.writes? CsrNumber.hstatus = none) : a.HstatusKept csr w w' := by
  rw [hdone, valueAfter_append, valueAfter_eq_self hrest, Area.valueAfter_slots hvalid] at hcsr
  by_cases hslot : .hstatus ∈ slots
  · refine .inr ⟨hdirty _ hslot, hcsr.trans (if_pos hslot), new, hevents, ?_⟩
    rw [hdone, ← a.slotUpdate_hstatus]
    exact List.mem_append_left _ (List.mem_map_of_mem hslot)
  · exact .inl (hcsr.trans (if_neg hslot))

/-- The value read for the swap is the host's. -/
theorem Env.KeepsCsr.beforeReturn_read (hkeeps : env.KeepsCsr CsrNumber.hstatus csr) {c : CsrWrite}
    {r : ReturnSummary × Word} (hswap : plan.swap = some c)
    (hrun : (env.beforeReturn a plan).run w = (.ok r, w₁)) : r.2 = csr w₁.state := by
  obtain ⟨csrs, w₂, _, hrun⟩ := Act.run_bind_ok hrun
  obtain ⟨fences, w₃, _, hrun⟩ := Act.run_bind_ok hrun
  obtain ⟨old, w₄, hread, hrun⟩ := Act.run_bind_ok hrun
  cases hrun
  rw [hswap] at hread
  have hreply := Act.run_mapError_ok hread
  rw [World.request_run] at hreply
  cases hr : (env.host (.readCsr CsrNumber.hstatus) w₃.state w₃.memory).1 with
  | done v =>
    rw [hr] at hreply
    cases hreply
    rw [hkeeps.read _ _ _ hr]
    exact (hkeeps.done _ _ _ _ hr).symm
  | _ =>
    rw [hr] at hreply
    cases hreply

theorem Env.beforeReturn_confined (env : Env σ) (a : Area) (plan : ReturnPlan) (w : World σ) :
    Confined env (.requesting fun _ => True) (env.beforeReturn a plan) w := by
  refine (Env.applySlots_confined (fun _ _ => trivial) plan.slots w).bind fun csrs w₁ _ => ?_
  refine ((Env.performFences_confined (fun _ _ => trivial) plan.fences w₁).mapError _).bind fun fences w₂ _ => ?_
  refine .bind ?_ fun _ w₃ _ => .pure _ w₃
  cases plan.swap with
  | none => exact .pure _ w₂
  | some c => exact (Confined.ask _ w₂).mapError _

/-- The write of a plan is the one that its swap context asks for. -/
theorem Area.prepareReturn_swap {autoswap : Bool} {m : Memory} {c : CsrWrite}
    (hplan : a.prepareReturn autoswap m = .ok plan) (hswap : plan.swap = some c) :
    Check.swap (a.swapContext m) = .ok (some c) := by
  obtain ⟨_, hchecked, _⟩ := Area.prepareReturn_ok hplan
  rw [hswap] at hchecked
  cases autoswap with
  | false => cases hchecked
  | true => exact hchecked

/-- When the host is about to be asked to leave, `hstatus` has the value of its slot if that was dirty. -/
theorem Env.KeepsCsr.beforeReturn_csr (hkeeps : env.KeepsCsr CsrNumber.hstatus csr) {autoswap : Bool}
    {r : ReturnSummary × Word} {before : List Event} {rest : List Request}
    (hplan : a.prepareReturn autoswap w.memory = .ok plan)
    (hrun : (env.beforeReturn a plan).run w = (.ok r, w₁)) (hbefore : w₁.events = w.events ++ before)
    (hdone : requestsDone before = plan.slots.map (fun s => .writeCsr (a.slotUpdate w.memory s)) ++ rest)
    (hrest : ∀ q ∈ rest, q.writes? CsrNumber.hstatus = none) :
    csr w₁.state = if a.isDirty w.memory .hstatus then a.slotValue w.memory .hstatus else csr w.state := by
  have hback : ((env.beforeReturn a plan).run w).1 ≠ .abandoned := by
    rw [hrun]
    exact fun h => nomatch h
  obtain ⟨new, hevents, hcsr⟩ := (env.beforeReturn_confined a plan w).csr_eq hkeeps (fun _ h => h) hback
  rw [hrun] at hevents hcsr
  obtain rfl : new = before := List.append_cancel_left (hevents.symm.trans hbefore)
  rw [hcsr, hdone, valueAfter_append, valueAfter_eq_self hrest,
    Area.valueAfter_slots (Area.prepareReturn_slotValid hplan)]
  exact if_congr (Area.mem_slots_of_plan hplan .hstatus) rfl rfl

/-- The record of a call tells `hstatus`. -/
theorem Env.KeepsCsr.syncReturn_record (hkeeps : env.KeepsCsr CsrNumber.hstatus csr) (flags : Word)
    (caller : Privilege) (enabled : Bool) (st : Phase × World σ)
    (hback : ((env.syncReturn a flags caller enabled).run st).1 ≠ .abandoned) :
    ∃ new, ((env.syncReturn a flags caller enabled).run st).2.2.events = st.2.events ++ new ∧
      csr ((env.syncReturn a flags caller enabled).run st).2.2.state =
        valueAfter CsrNumber.hstatus (csr st.2.state) (requestsDone new) := by
  have hconfined : Confined env (.requesting fun _ => True)
      ((env.syncReturn a flags caller enabled).curry st.1) st.2 :=
    SyncCall.act_confined (fun _ _ => trivial) (.sret flags caller enabled) st
  have hrecord := hconfined.csr_eq hkeeps (fun _ h => h) fun h => hback ((Act.curry_run_abandoned _ st).1 h)
  rwa [Act.curry_run_snd] at hrecord

/-- What has been carried out when the host is about to be asked to leave: the slots, and then nothing that writes
    a register. -/
theorem requestsDone_beforeReturn {m : Memory} {ws fs rs : List Event} {old : Word}
    (hslots : CarriedOut (a.slotTask m) plan.slots ws) (hfences : CarriedOut (PendingFence.task a) plan.fences fs)
    (hread : SwapRead plan.swap old rs) :
    ∃ rest, requestsDone (ws ++ fs ++ rs) =
        plan.slots.map (fun s => .writeCsr (a.slotUpdate m s)) ++ rest ∧
      ∀ q ∈ rest, q.writes? CsrNumber.hstatus = none := by
  refine ⟨plan.fences.map (fun p => .fence p.fence) ++ requestsDone rs, ?_, ?_⟩
  · rw [requestsDone_append, requestsDone_append, hslots.requestsDone, hfences.requestsDone, List.append_assoc]
    rfl
  · exact List.forall_mem_append.2 ⟨writes?_fences _ plan.fences, hread.writes? _⟩

section
variable {autoswap : Bool} {before new : List Event} {rest : List Request}
  (hplan : a.prepareReturn autoswap w.memory = .ok plan) (hbefore : w₁.events = w.events ++ before)
  (hdone : requestsDone before = plan.slots.map (fun s => .writeCsr (a.slotUpdate w.memory s)) ++ rest)
  (hrest : ∀ q ∈ rest, q.writes? CsrNumber.hstatus = none) (hevents : w'.events = w₁.events ++ new)
  (hrecord : ∃ all, w'.events = w.events ++ all ∧
    csr w'.state = valueAfter CsrNumber.hstatus (csr w.state) (requestsDone all))
include hplan hbefore hdone hrest hevents hrecord

/-- If no register is written from the time that the host is asked to leave, that does not matter. -/
theorem Area.hstatusKept_of_handed (hnew : ∀ q ∈ requestsDone new, q.writes? CsrNumber.hstatus = none) :
    a.HstatusKept csr w w' := by
  obtain ⟨all, hevents', hcsr⟩ := hrecord
  obtain rfl : all = before ++ new := by
    refine List.append_cancel_left (hevents'.symm.trans ?_)
    rw [hevents, hbefore, List.append_assoc]
  refine Area.hstatusKept_of_slots (Area.prepareReturn_slotValid hplan)
    (fun s hs => (Area.mem_slots_of_plan hplan s).1 hs) hevents' hcsr ?_ (List.forall_mem_append.2 ⟨hrest, hnew⟩)
  rw [requestsDone_append, hdone, List.append_assoc]

/-- If the write for the swap is the last, and the value read is stored in the context, the copies are swapped. -/
theorem Area.swapped_of_handed (hkeeps : env.KeepsCsr CsrNumber.hstatus csr) {r : ReturnSummary × Word}
    {c : CsrWrite} (hrun : (env.beforeReturn a plan).run w = (.ok r, w₁)) (hswap : plan.swap = some c)
    (hlast : ∃ asked, requestsDone new = asked ++ [.writeCsr c])
    (hcontext : a.swapContext w₁.memory = a.swapContext w.memory)
    (hmemory : w'.memory = a.setSwapValue r.2 w₁.memory) : a.Swapped csr w w' := by
  have hwrite : c = ⟨CsrNumber.hstatus, (a.swapContext w.memory).hstatus⟩ :=
    Check.swap_eq (Area.prepareReturn_swap hplan hswap)
  have hold : r.2 = _ := (hkeeps.beforeReturn_read hswap hrun).trans
    (hkeeps.beforeReturn_csr hplan hrun hbefore hdone hrest)
  obtain ⟨all, hevents', hcsr⟩ := hrecord
  obtain ⟨asked, hasked⟩ := hlast
  obtain rfl : all = before ++ new := by
    refine List.append_cancel_left (hevents'.symm.trans ?_)
    rw [hevents, hbefore, List.append_assoc]
  constructor
  · rw [hcsr, requestsDone_append, hasked, ← List.append_assoc, valueAfter_append, hwrite]
    rfl
  · rw [hmemory, Area.swapContext_setSwapValue, hcontext, hold]

end

/-- **A trap return swaps `hstatus` or leaves both copies alone.** It swaps exactly where it succeeds, has been
    asked to, and the context is marked as valid. -/
theorem Env.syncReturn_swapped_or_kept (hquiet : env.Quiet) (hkeeps : env.KeepsCsr CsrNumber.hstatus csr)
    {flags : Word} {caller : Privilege} {enabled : Bool} {st st' : Phase × World σ}
    {o : Outcome SyncError ReturnSummary}
    (hcall : (env.syncReturn a flags caller enabled).run st = (o, st')) :
    ((∃ r, o = .ok r) ∧ (Word.bit flags 0 && (a.swapContext st.2.memory).valid) = true ∧
      a.Swapped csr st.2 st'.2) ∨
    (((∀ r, o ≠ .ok r) ∨ (Word.bit flags 0 && (a.swapContext st.2.memory).valid) = false) ∧
      a.swapContext st'.2.memory = a.swapContext st.2.memory ∧
      (o ≠ .abandoned → a.HstatusKept csr st.2 st'.2)) := by
  have hrecord := hkeeps.syncReturn_record (a := a) flags caller enabled st
  have hends := Env.syncReturn_ends hquiet a flags caller enabled st
  rw [hcall] at hrecord hends
  obtain ⟨phase, w'⟩ := st'
  dsimp only at hends hrecord ⊢
  cases hends with
  | refused hfail => exact .inr ⟨.inl hfail, rfl, fun _ => .inl rfl⟩
  | @stopped plan _ _ new slots fences hplan hfail hslots hevents hdone hstays hfences hmemory =>
    refine .inr ⟨.inl hfail, by rw [hmemory, Area.swapContext_applied], fun hback => ?_⟩
    obtain ⟨new', hevents', hcsr⟩ := hrecord hback
    obtain rfl : new' = new := List.append_cancel_left (hevents'.symm.trans hevents)
    refine Area.hstatusKept_of_slots (fun s hs => Area.prepareReturn_slotValid hplan s (hslots.subset hs))
      (fun s hs => (Area.mem_slots_of_plan hplan s).1 (hslots.subset hs)) hevents hcsr hdone ?_
    exact writes?_fences _ fences
  | @handed plan ws fs rs new old w₁ _ o hplan hrun hslots hfences hread hbefore hmemory hevents hafter =>
    have hcontext : a.swapContext w₁.memory = a.swapContext st.2.memory := by
      rw [hmemory, Area.swapContext_applied]
    obtain ⟨rest, hdone, hrest⟩ := requestsDone_beforeReturn hslots hfences hread
    -- what comes after the host has been asked to leave does not matter, if it writes no register
    have hkept : _ → _ → a.HstatusKept csr st.2 w' := Area.hstatusKept_of_handed hplan hbefore hdone hrest hevents
    have hasked := Area.swap_of_plan hplan
    generalize hmemory' : w'.memory = m' at hafter ⊢
    cases hafter with
    | left hswap =>
      refine .inr ⟨.inr (hasked ▸ hswap ▸ rfl), hcontext, fun hback => hkept (hrecord hback) fun q hq => ?_⟩
      rw [List.mem_singleton.1 hq]
      rfl
    | @swapped c v u hswap =>
      have hflags : (Word.bit flags 0 && (a.swapContext st.2.memory).valid) = true := by
        rw [← hasked, hswap]
        rfl
      exact .inl ⟨⟨_, rfl⟩, hflags, Area.swapped_of_handed hplan hbefore hdone hrest hevents
        (hrecord fun h => nomatch h) hkeeps hrun hswap ⟨[_], rfl⟩ hcontext hmemory'⟩
    | stayed hfail hr =>
      refine .inr ⟨.inl (Outcome.map_ne_ok hfail _), hcontext, fun hback => hkept (hrecord hback) fun q hq => ?_⟩
      obtain ⟨v, hq⟩ := mem_requestsDone.1 hq
      cases List.mem_singleton.1 hq
      rfl
    | notSwapped hswap hfail hr =>
      refine .inr ⟨.inl (Outcome.map_ne_ok hfail _), hcontext, fun hback => hkept (hrecord hback) fun q hq => ?_⟩
      obtain ⟨u, hq⟩ := mem_requestsDone.1 hq
      rcases List.mem_cons.1 hq with hq | hq
      · cases hq
        rfl
      · cases List.mem_singleton.1 hq
        exact absurd rfl (hr u)

/-! ## Swapping twice -/

/-- A call that succeeds has passed its checks and leaves no slot dirty. -/
theorem ReturnCall.of_ok {autoswap : Bool} {o : Outcome SyncError ReturnSummary} {r : ReturnSummary}
    (h : ReturnCall env a autoswap w o w') (ho : o = .ok r) :
    (∃ plan, a.prepareReturn autoswap w.memory = .ok plan) ∧ ∀ s, a.isDirty w'.memory s = false := by
  cases h with
  | refused hfail => exact absurd ho (hfail r)
  | stopped _ hfail => exact absurd ho (hfail r)
  | @handed plan _ _ _ _ old w₁ _ o hplan _ hslots _ _ _ hmemory _ hafter =>
    have hclean : ∀ s, a.isDirty w₁.memory s = false :=
      hmemory ▸ (Area.slotsDone_of_plan hplan hslots plan.fences).clean
    generalize w'.memory = m' at hafter ⊢
    cases hafter with
    | left => exact ⟨⟨plan, hplan⟩, hclean⟩
    | swapped => exact ⟨⟨plan, hplan⟩, fun s => (a.isDirty_setSwapValue old w₁.memory s).trans (hclean s)⟩
    | stayed hfail => exact absurd ho (Outcome.map_ne_ok hfail _ r)
    | notSwapped _ hfail => exact absurd ho (Outcome.map_ne_ok hfail _ r)

/-- The flags of the context stay. -/
theorem Area.Swapped.flags_eq (h : a.Swapped csr w w') :
    (a.swapContext w'.memory).flags = (a.swapContext w.memory).flags := by
  unfold SwapContext.flags
  simp [h.context]

theorem Area.Swapped.valid_eq (h : a.Swapped csr w w') :
    (a.swapContext w'.memory).valid = (a.swapContext w.memory).valid := by
  unfold SwapContext.valid
  rw [h.flags_eq]

/-- What has been swapped in passes the check of the next swap exactly if it keeps registers 64 bits wide. -/
theorem Area.Swapped.check_iff {o : Option CsrWrite} (h : a.Swapped csr w w')
    (hdirty : a.isDirty w.memory .hstatus = false) (hchecked : Check.swap (a.swapContext w.memory) = .ok o)
    (hvalid : (a.swapContext w.memory).valid = true) :
    Check.swap (a.swapContext w'.memory) = .ok (some ⟨CsrNumber.hstatus, csr w.state⟩) ↔
      Csr.Rule.selects64 (csr w.state) = true := by
  -- the flags are those that have passed the check already
  have hformed : (a.swapContext w'.memory).wellFormed = true := by
    unfold SwapContext.wellFormed
    rw [h.flags_eq]
    exact Check.swap_wellFormed hchecked
  have hvalue : (a.swapContext w'.memory).hstatus = csr w.state := by
    unfold SwapContext.hstatus
    simp [h.context, hdirty]
  have hiff := Check.swap_eq_some_iff hformed (h.valid_eq.trans hvalid)
  rwa [hvalue] at hiff

/-- **Two swaps put both copies back.** -/
theorem Area.Swapped.back {w₂ w₃ : World σ} (h : a.Swapped csr w w')
    (hdirty : a.isDirty w.memory .hstatus = false) (hback : a.Swapped csr w₂ w₃)
    (hcsr : csr w₂.state = csr w'.state) (hcontext : a.swapContext w₂.memory = a.swapContext w'.memory)
    (hdirty' : a.isDirty w₂.memory .hstatus = false) :
    csr w₃.state = csr w.state ∧ a.swapContext w₃.memory = a.swapContext w.memory := by
  have hleft : (a.swapContext w'.memory).words = (a.swapContext w.memory).words.set 1 (csr w.state) := by
    rw [h.context, hdirty]
    rfl
  constructor
  · rw [hback.host, hcontext]
    show (a.swapContext w'.memory).words[1] = _
    simp [hleft]
  · refine SwapContext.ext ?_
    rw [hback.context, hdirty', hcontext, hleft, hcsr, h.host]
    show (((a.swapContext w.memory).words.set 1 (csr w.state)).set 1 (a.swapContext w.memory).words[1]) = _
    simp

/-- **The swap of `hstatus` is all or nothing.** A call of an idle hart has been made with the swap flag.

    * If it succeeds and the context is marked as valid, the two copies have changed places.
    * If it does not succeed, or the context is not marked as valid, the context is as it was, and `hstatus` is
      kept or has the value of its dirty slot.
    * After a swap with the slot of `hstatus` clean, it is clean still, the value swapped in passes the check of
      the next swap exactly if it keeps registers 64 bits wide, and a next swap that succeeds puts both copies
      back. -/
theorem Env.syncReturn_swap (hquiet : env.Quiet) (hkeeps : env.KeepsCsr CsrNumber.hstatus csr)
    {flags : Word} (hflag : Word.bit flags 0 = true) {caller : Privilege} {st' : Phase × World σ}
    {o : Outcome SyncError ReturnSummary}
    (hcall : (env.syncReturn a flags caller true).run (.idle, w) = (o, st')) :
    (∀ r, o = .ok r → (a.swapContext w.memory).valid = true → a.Swapped csr w st'.2) ∧
    ((∀ r, o ≠ .ok r) ∨ (a.swapContext w.memory).valid = false →
      a.swapContext st'.2.memory = a.swapContext w.memory ∧ (o ≠ .abandoned → a.HstatusKept csr w st'.2)) ∧
    (∀ r, o = .ok r → (a.swapContext w.memory).valid = true → a.isDirty w.memory .hstatus = false →
      a.isDirty st'.2.memory .hstatus = false ∧
      (Check.swap (a.swapContext st'.2.memory) = .ok (some ⟨CsrNumber.hstatus, csr w.state⟩) ↔
        Csr.Rule.selects64 (csr w.state) = true) ∧
      ∀ flags₂ caller₂ w₂ r₂ st₂, Word.bit flags₂ 0 = true → csr w₂.state = csr st'.2.state →
        a.swapContext w₂.memory = a.swapContext st'.2.memory → a.isDirty w₂.memory .hstatus = false →
        (env.syncReturn a flags₂ caller₂ true).run (.idle, w₂) = (.ok r₂, st₂) →
        csr st₂.2.state = csr w.state ∧ a.swapContext st₂.2.memory = a.swapContext w.memory) := by
  -- a call with the flag that succeeds where the context is valid has swapped
  have hswaps : ∀ {flags caller w o r st'}, Word.bit flags 0 = true →
      (env.syncReturn a flags caller true).run (.idle, w) = (o, st') → o = .ok r →
      (a.swapContext w.memory).valid = true → a.Swapped csr w st'.2 := by
    intro flags caller w o r st' hflag hcall ho hvalid
    obtain ⟨_, _, hswapped⟩ | ⟨hnot, _⟩ := Env.syncReturn_swapped_or_kept hquiet hkeeps hcall
    · exact hswapped
    · obtain hfail | hflags := hnot
      · exact absurd ho (hfail r)
      · rw [hflag, hvalid] at hflags
        cases hflags
  refine ⟨fun r ho hvalid => hswaps hflag hcall ho hvalid, fun hnot => ?_, fun r ho hvalid hdirty => ?_⟩
  · obtain ⟨⟨r, hok⟩, hflags, _⟩ | ⟨_, hkept⟩ := Env.syncReturn_swapped_or_kept hquiet hkeeps hcall
    · obtain hfail | hinvalid := hnot
      · exact absurd hok (hfail r)
      · rw [hinvalid, Bool.and_false] at hflags
        cases hflags
    · exact hkept
  · have hswapped := hswaps hflag hcall ho hvalid
    have hends := Env.syncReturn_ends hquiet a flags caller true (.idle, w)
    rw [hcall, hflag] at hends
    obtain ⟨⟨plan, hplan⟩, hclean⟩ := hends.of_ok ho
    obtain ⟨_, hchecked, _⟩ := Area.prepareReturn_ok hplan
    refine ⟨hclean .hstatus, hswapped.check_iff hdirty hchecked hvalid, ?_⟩
    intro flags₂ caller₂ w₂ r₂ st₂ hflag₂ hcsr hcontext hdirty₂ hcall₂
    have hvalid₂ : (a.swapContext w₂.memory).valid = true := by
      rw [hcontext, hswapped.valid_eq, hvalid]
    exact hswapped.back hdirty (hswaps hflag₂ hcall₂ rfl hvalid₂) hcsr hcontext hdirty₂

end

/-- A host that keeps a register file keeps each of its registers. -/
theorem Env.registerFile_keepsCsr (n : CsrNumber) : Env.registerFile.KeepsCsr n fun f => f n where
  done q f m v _ := by
    cases q with
    | writeCsr c =>
      show Function.update f c.csr c.value n = (if c.csr = n then some c.value else none).getD (f n)
      by_cases h : c.csr = n
      · subst h
        simp
      · simp [h, Function.update_of_ne (Ne.symm h)]
    | _ => rfl
  read f m v h := by
    cases h
    rfl
  refused q f m e h := by cases q <;> cases h

/-- A host with a register file, and an area at address zero that asks for `hstatus` to be swapped. -/
def swapping : World (CsrNumber → Word) where
  state := fun _ => 0x200000080
  memory := (((Memory.zero.write 0 1).write 33 0x200000000).write 64 1).write 65 0x200000100

/-- Two swaps one after the other, and both copies are as they were. -/
theorem Env.syncReturn_swap_twice :
    ∃ st st', (Env.registerFile.syncReturn ⟨0, 0⟩ 1 .supervisor true).run (.idle, swapping) =
        (.ok ⟨0, 0, true⟩, st) ∧
      (Env.registerFile.syncReturn ⟨0, 0⟩ 1 .supervisor true).run (.idle, st.2) = (.ok ⟨0, 0, true⟩, st') ∧
      st.2.state CsrNumber.hstatus = 0x200000100 ∧ st'.2.state CsrNumber.hstatus = 0x200000080 ∧
      Area.swapContext ⟨0, 0⟩ st'.2.memory = Area.swapContext ⟨0, 0⟩ swapping.memory := by
  have hfirst : ((Env.registerFile.syncReturn ⟨0, 0⟩ 1 .supervisor true).run (.idle, swapping)).1 =
      .ok ⟨0, 0, true⟩ := by decide +kernel
  have hsecond : ((Env.registerFile.syncReturn ⟨0, 0⟩ 1 .supervisor true).run (.idle,
      ((Env.registerFile.syncReturn ⟨0, 0⟩ 1 .supervisor true).run (.idle, swapping)).2.2)).1 =
        .ok ⟨0, 0, true⟩ := by decide +kernel
  rcases hrun : (Env.registerFile.syncReturn ⟨0, 0⟩ 1 .supervisor true).run (.idle, swapping) with ⟨o, st⟩
  rw [hrun] at hfirst hsecond
  rcases hrun' : (Env.registerFile.syncReturn ⟨0, 0⟩ 1 .supervisor true).run (.idle, st.2) with ⟨o', st'⟩
  rw [hrun'] at hsecond
  subst hfirst hsecond
  obtain ⟨hswaps, _, htwice⟩ := Env.syncReturn_swap Env.registerFile_quiet
    (Env.registerFile_keepsCsr CsrNumber.hstatus) (by decide) hrun
  have hvalid : (Area.swapContext ⟨0, 0⟩ swapping.memory).valid = true := by decide +kernel
  have hclean : Area.isDirty ⟨0, 0⟩ swapping.memory .hstatus = false := by decide +kernel
  obtain ⟨hclean', _, hback⟩ := htwice _ rfl hvalid hclean
  obtain ⟨hhost, hcontext⟩ := hback 1 .supervisor st.2 _ st' (by decide) rfl rfl hclean' hrun'
  exact ⟨st, st', rfl, hrun', (hswaps _ rfl hvalid).host, hhost, hcontext⟩

end NestedAccel
