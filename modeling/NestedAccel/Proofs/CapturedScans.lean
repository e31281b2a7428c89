import NestedAccel.Proofs.Abandonment
import NestedAccel.Proofs.CsrAddressing
import NestedAccel.Proofs.Drain

/-!
# `NestedAccel.Proofs.CapturedScans` — scans that a hostile guest cannot stretch

Between any two requests of a synchronization call the guest hypervisor may rewrite its area: mark slots again, put
other values into them, fill the fence list anew. Nothing is assumed here about what the host does to guest memory,
so none of the facts about quiet hosts apply, and nothing is known of the area once the first request has been made.

What still holds comes from the shape of the loops alone. Each goes through a list captured when the call began,
reads what it needs for an item anew, and asks for one request per item or stops (`Env.pass`). So whatever the host
does, the requests are those of the items, each once at most and in the order of the list, and a result is their
number (`Env.pass_ends`). The lists themselves are what the bitmap and the fence list held at the start
(`Area.dirtySlots_lists`, `Area.fencesAt_lists`), and the phases of a trap return are such loops one after the
other (`Env.applyReturn_passes`).
-/

namespace NestedAccel

variable {σ ε ε' α β ι : Type}

/-! ## Passes over a list -/

/-- The events are requests for the first of the items, one for each and in their order. -/
def AskedInOrder (asks : ι → Request → Prop) (items : List ι) (new : List Event) : Prop :=
  ∃ asked, asked <+: items ∧ List.Forall₂ (fun i e => ∃ q r, asks i q ∧ e = .requested q r) asked new

/-- The events are what a pass over the items has asked for, and `o` is what it has come to. -/
structure Pass (asks : ι → Request → Prop) (items : List ι) (o : Outcome ε Nat) (new : List Event) :
    Prop where
  inOrder : AskedInOrder asks items new
  bounded : new.length ≤ items.length
  /-- A result is the number of requests and of items, and the host has carried every request out. -/
  result : ∀ n, o = .ok n → n = new.length ∧ n = items.length ∧ ∀ e ∈ new, ∃ q v, e = .requested q (.done v)

section
variable {asks asks' : ι → Request → Prop} {items rest : List ι} {i : ι} {o : Outcome ε Nat}
  {o' : Outcome ε' Nat} {new : List Event} {q : Request}

theorem AskedInOrder.nil (asks : ι → Request → Prop) (items : List ι) : AskedInOrder asks items [] :=
  ⟨[], List.nil_prefix, .nil⟩

theorem AskedInOrder.cons (hq : asks i q) (r : Reply) (h : AskedInOrder asks rest new) :
    AskedInOrder asks (i :: rest) (.requested q r :: new) := by
  obtain ⟨asked, hprefix, hnew⟩ := h
  exact ⟨i :: asked, (List.prefix_cons_inj i).2 hprefix, .cons ⟨q, r, hq, rfl⟩ hnew⟩

namespace Pass

/-- A pass that asks for nothing has no result to give. -/
theorem none (asks : ι → Request → Prop) (items : List ι) (hfail : o.isOk = false) : Pass asks items o [] where
  inOrder := .nil asks items
  bounded := Nat.zero_le _
  result n h := by
    rw [h] at hfail
    cases hfail

/-- A pass that stops at its first request. -/
theorem first (hq : asks i q) (r : Reply) (hfail : o.isOk = false) :
    Pass asks (i :: rest) o [.requested q r] where
  inOrder := .cons hq r (.nil asks rest)
  bounded := by simp
  result n h := by
    rw [h] at hfail
    cases hfail

/-- A pass that goes on after its first request. -/
theorem cons (hq : asks i q) (v : Word) (h : Pass asks rest o new) :
    Pass asks (i :: rest) (o.map (· + 1)) (.requested q (.done v) :: new) where
  inOrder := .cons hq (.done v) h.inOrder
  bounded := Nat.succ_le_succ h.bounded
  result n hn := by
    cases o with
    | ok k =>
      cases hn
      obtain ⟨hlength, hitems, hdone⟩ := h.result k rfl
      refine ⟨congrArg (· + 1) hlength, congrArg (· + 1) hitems, ?_⟩
      rw [List.forall_mem_cons]
      exact ⟨⟨q, v, rfl⟩, hdone⟩
    | error e => cases hn
    | abandoned => cases hn

theorem mono (h : Pass asks items o new) (hasks : ∀ i q, asks i q → asks' i q)
    (ho : ∀ n, o' = .ok n → o = .ok n) : Pass asks' items o' new where
  inOrder := by
    obtain ⟨asked, hprefix, hnew⟩ := h.inOrder
    refine ⟨asked, hprefix, hnew.imp ?_⟩
    rintro i e ⟨q, r, hq, rfl⟩
    exact ⟨q, r, hasks i q hq, rfl⟩
  bounded := h.bounded
  result n hn := h.result n (ho n hn)

end Pass

end

/-! ## The loop -/

/-- For each of the items, reads off guest memory what to ask, has it carried out and leaves a mark in guest memory.
    The result is the number of items. -/
def Env.pass (env : Env σ) (failed : HostError → ε) (find : ι → Memory → Except ε Request)
    (finish : ι → Memory → Memory) : List ι → Act (World σ) ε Nat
  | [] => pure 0
  | i :: rest => do
    let q ← Act.ofExcept (← readMemory (find i))
    let _ ← (env.request q).mapError failed
    changeMemory (finish i)
    return (← env.pass failed find finish rest) + 1

/-- **A pass asks for its items, whatever the host does.** Guest memory is read anew in each turn, so what is asked
    for an item is what can be found for it in some memory. -/
theorem Env.pass_ends (env : Env σ) (failed : HostError → ε) (find : ι → Memory → Except ε Request)
    (finish : ι → Memory → Memory) (items : List ι) (w : World σ) :
    ∃ new, ((env.pass failed find finish items).run w).2.events = w.events ++ new ∧
      Pass (fun i q => ∃ m, find i m = .ok q) items ((env.pass failed find finish items).run w).1 new := by
  -- the world is general, since nothing is known of the one in which the rest goes on
  induction items generalizing w with
  | nil =>
    refine ⟨[], (List.append_nil _).symm, .nil _ _, Nat.le_refl _, ?_⟩
    intro n hn
    cases hn
    exact ⟨rfl, rfl, List.forall_mem_nil _⟩
  | cons i rest ih =>
    unfold Env.pass
    rw [Act.bind_run, readMemory, Act.gets_run, Act.next_ok]
    cases hq : find i w.memory with
    | error e => exact ⟨[], (List.append_nil _).symm, .none _ _ rfl⟩
    | ok q =>
      have hasks : ∃ m, find i m = .ok q := ⟨w.memory, hq⟩
      rw [Act.ofExcept_ok, pure_bind, Act.bind_run, Act.mapError_run, World.request_run]
      cases (env.host q w.state w.memory).1 with
      | refused e => exact ⟨_, rfl, .first hasks _ rfl⟩
      | lost => exact ⟨_, rfl, .first hasks _ rfl⟩
      | done v =>
        let w' : World σ := { w with
          state := (env.host q w.state w.memory).2.1
          memory := finish i (env.host q w.state w.memory).2.2
          events := w.events ++ [.requested q (.done v)] }
        obtain ⟨new, hevents, hpass⟩ := ih w'
        refine ⟨.requested q (.done v) :: new, ?_, ?_⟩
        all_goals
          dsimp only
          rw [Act.next_ok, Act.bind_run, changeMemory, Act.modify_run, Act.next_ok, Act.run_bind_pure]
        · exact hevents.trans (List.append_assoc _ _ _)
        · exact hpass.cons hasks v

/-! ## The two passes -/

/-- What is asked for a slot: to write a value, which its check has passed, to the register of the slot. -/
def WritesSlot (s : CsrSlot) (q : Request) : Prop :=
  ∃ c, q = .writeCsr c ∧ CsrSlot.ofCsr c.csr = s ∧ Check.slotWrite s c.value = .ok c

/-- What is asked for a captured fence: to perform it as it was captured. -/
def AsksFence (p : PendingFence) (q : Request) : Prop := q = .fence p.fence

/-- What is asked for a slot whose value is the one in guest memory, if that passes its check. -/
def Area.findWrite (a : Area) (s : CsrSlot) (m : Memory) : Except SyncError Request :=
  match Check.slotWrite s (a.slotValue m s) with
  | .ok c => .ok (.writeCsr c)
  | .error r => .error (.invalid r)

theorem Area.findWrite_writesSlot {a : Area} {s : CsrSlot} {m : Memory} {q : Request}
    (h : a.findWrite s m = .ok q) : WritesSlot s q := by
  unfold findWrite at h
  split at h
  · rename_i c hc
    cases h
    obtain ⟨hvalue, hslot⟩ := Check.slotWrite_ok hc
    exact ⟨c, rfl, hslot, by rw [hvalue, hc]⟩
  · cases h

/-- Applying slots is a pass over them. -/
theorem Env.applySlots_eq_pass (env : Env σ) (a : Area) (slots : List CsrSlot) :
    env.applySlots a slots = env.pass .host a.findWrite (fun s => a.clearDirty s) slots := by
  unfold Env.applySlots
  induction slots with
  | nil => rfl
  | cons s rest ih =>
    unfold Area.consume Env.pass
    rw [ih]
    apply Act.ext
    intro w
    rw [Act.bind_run, Act.bind_run, readMemory, readMemory, Act.gets_run, Act.gets_run, Act.next_ok, Act.next_ok]
    unfold Env.writeSlot Area.findWrite
    cases Check.slotWrite s (a.slotValue w.memory s) with
    | error r => rfl
    | ok c =>
      rw [Act.ofExcept_ok, Act.mapError_pure, pure_bind, bind_assoc]
      rfl

/-- Performing fences is a pass over them, for which guest memory is not read at all. -/
theorem Env.performFences_eq_pass (env : Env σ) (a : Area) (fences : List PendingFence) :
    env.performFences a fences =
      env.pass .host (fun p _ => .ok (.fence p.fence)) (fun p => a.finishFence p.slot) fences := by
  induction fences with
  | nil => rfl
  | cons p rest ih =>
    unfold Env.performFences Env.pass
    rw [ih]
    rfl

theorem Env.applySlots_pass (env : Env σ) (a : Area) (slots : List CsrSlot) (w : World σ) :
    ∃ new, ((env.applySlots a slots).run w).2.events = w.events ++ new ∧
      Pass WritesSlot slots ((env.applySlots a slots).run w).1 new := by
  rw [Env.applySlots_eq_pass]
  obtain ⟨new, hevents, hpass⟩ := env.pass_ends .host a.findWrite (fun s => a.clearDirty s) slots w
  refine ⟨new, hevents, hpass.mono ?_ fun n h => h⟩
  rintro s q ⟨m, hm⟩
  exact Area.findWrite_writesSlot hm

theorem Env.performFences_pass (env : Env σ) (a : Area) (fences : List PendingFence) (w : World σ) :
    ∃ new, (((env.performFences a fences).mapError SyncError.fence).run w).2.events = w.events ++ new ∧
      Pass AsksFence fences (((env.performFences a fences).mapError SyncError.fence).run w).1 new := by
  rw [Act.mapError_run_snd, Env.performFences_eq_pass]
  obtain ⟨new, hevents, hpass⟩ := env.pass_ends FenceError.host (fun (p : PendingFence) _ => .ok (.fence p.fence))
    (fun p => a.finishFence p.slot) fences w
  refine ⟨new, hevents, hpass.mono ?_ ?_⟩
  · rintro p q ⟨_, hq⟩
    cases hq
    rfl
  · intro n hn
    exact congrArg Prod.fst (Act.run_mapError_ok (Prod.ext hn rfl))

/-! ## What is captured -/

namespace Area

variable {a : Area} {m : Memory}

/-- The list has the slots that are dirty in `m` and selected by the mask, each once and in ascending order. -/
structure ListsDirty (a : Area) (m : Memory) (mask : SlotMask) (slots : List CsrSlot) : Prop where
  ascending : slots.Pairwise (· < ·)
  mem_iff : ∀ s, s ∈ slots ↔ mask.selects s = true ∧ a.isDirty m s = true

/-- The list has the fences that entries of the fence list ask for in `m` and pass the check for, if they are
    selected, each entry once and in list order. -/
structure ListsPending (a : Area) (m : Memory) (selected : FenceSlot → Prop) (fences : List PendingFence) :
    Prop where
  ascending : (fences.map PendingFence.slot).Pairwise (· < ·)
  mem_iff : ∀ p : PendingFence,
    p ∈ fences ↔ selected p.slot ∧ Check.fence (a.fenceEntry m p.slot) = .ok (some p.fence)

theorem dirtySlots_lists (a : Area) (m : Memory) (mask : SlotMask) : a.ListsDirty m mask (a.dirtySlots m mask) where
  ascending := a.dirtySlots_pairwise m mask
  mem_iff _ := mem_dirtySlots

theorem fence?_eq_some_iff {s : FenceSlot} {f : Fence} :
    a.fence? m s = some f ↔ Check.fence (a.fenceEntry m s) = .ok (some f) := by
  unfold fence?
  cases Check.fence (a.fenceEntry m s) with
  | ok o => simp
  | error r => simp

theorem fencesAt_lists (a : Area) (m : Memory) {slots : List FenceSlot} (hslots : slots.Pairwise (· < ·)) :
    a.ListsPending m (· ∈ slots) (a.fencesAt m slots) where
  ascending := hslots.sublist (a.fencesAt_slots_sublist m slots)
  mem_iff p := by
    rw [← fence?_eq_some_iff]
    constructor
    · intro hp
      have hslot : p.slot ∈ (a.fencesAt m slots).map PendingFence.slot := List.mem_map_of_mem hp
      exact ⟨(a.fencesAt_slots_sublist m slots).subset hslot, fence?_of_mem_fencesAt hp⟩
    · rintro ⟨hslot, hf⟩
      exact List.mem_filterMap.2 ⟨p.slot, hslot, by rw [hf]; rfl⟩

/-- The entry of the fence list is selected by the index. -/
def SelectedBy (index : Word) (s : FenceSlot) : Prop :=
  ∃ select, FenceSelect.ofIndex index = .ok select ∧ s ∈ select.slots

/-- The fences of the entries that the index selects. -/
def fencesBy (a : Area) (m : Memory) (index : Word) : List PendingFence :=
  match FenceSelect.ofIndex index with
  | .ok select => a.fencesAt m select.slots
  | .error _ => []

theorem fencesBy_lists (a : Area) (m : Memory) (index : Word) :
    a.ListsPending m (SelectedBy index) (a.fencesBy m index) := by
  unfold fencesBy SelectedBy
  cases FenceSelect.ofIndex index with
  | ok select => simpa using a.fencesAt_lists m select.slots_pairwise
  | error e => exact ⟨.nil, by simp⟩

theorem prepareFences_eq {index : Word} {fences : List PendingFence} (h : a.prepareFences index m = .ok fences) :
    fences = a.fencesBy m index := by
  obtain ⟨select, hselect, hfences⟩ := of_prepareFences h
  unfold fencesBy
  rw [hselect]
  exact pendingFences_eq hfences

/-- A plan has every dirty slot, and every pending fence if fences were asked for. -/
theorem prepareReturn_lists {autoswap : Bool} {plan : ReturnPlan} (h : a.prepareReturn autoswap m = .ok plan) :
    a.ListsDirty m .all plan.slots ∧ a.ListsPending m (fun _ => autoswap = true) plan.fences := by
  obtain ⟨_, _, hfences, hslots, _⟩ := prepareReturn_ok h
  constructor
  · rw [hslots]
    exact a.dirtySlots_lists m .all
  · cases autoswap with
    | true =>
      rw [pendingFences_eq hfences]
      simpa [FenceSelect.slots] using a.fencesAt_lists m FenceSelect.all.slots_pairwise
    | false =>
      have hnone : plan.fences = [] := hfences
      rw [hnone]
      exact ⟨.nil, by simp⟩

end Area

/-! ## Synchronization calls -/

/-- A call that is led through its phases is refused, and asks for nothing, or it applies what was captured. -/
theorem inPhases_asks {prepare : Memory → Except SyncError β} {apply : β → Act (World σ) SyncError α}
    {Q : Outcome SyncError α → List Event → Prop} (st : Phase × World σ)
    (hrefused : ∀ o, o.isOk = false → Q o [])
    (happly : ∀ b, prepare st.2.memory = .ok b →
      ∃ new, ((apply b).run st.2).2.events = st.2.events ++ new ∧ Q ((apply b).run st.2).1 new) :
    ∃ new, ((inPhases prepare apply).run st).2.2.events = st.2.events ++ new ∧
      Q ((inPhases prepare apply).run st).1 new := by
  obtain ⟨phase, w⟩ := st
  by_cases hphase : phase = .idle
  · subst hphase
    rw [inPhases_run_idle]
    cases hprepared : prepare w.memory with
    | error e => exact ⟨[], (List.append_nil _).symm, hrefused _ rfl⟩
    | ok b =>
      obtain ⟨new, hevents, hq⟩ := happly b hprepared
      dsimp only at hevents hq ⊢
      rcases hrun : (apply b).run w with ⟨o, w'⟩
      rw [hrun] at hevents hq
      cases o with
      | ok x => exact ⟨new, hevents, hq⟩
      | error e => exact ⟨new, hevents, hq⟩
      | abandoned => exact ⟨new, hevents, hq⟩
  · rw [inPhases_run_busy hphase]
    exact ⟨[], (List.append_nil _).symm, hrefused _ rfl⟩

theorem Env.syncCsrs_pass (env : Env σ) (a : Area) (mask : SlotMask) (st : Phase × World σ) :
    ∃ new, ((env.syncCsrs a mask).run st).2.2.events = st.2.events ++ new ∧
      Pass WritesSlot (a.dirtySlots st.2.memory mask) ((env.syncCsrs a mask).run st).1 new := by
  refine inPhases_asks st (fun o hfail => .none _ _ hfail) ?_
  intro slots hslots
  rw [(Area.of_prepareCsrs hslots).1]
  exact env.applySlots_pass a _ st.2

theorem Env.syncHfences_pass (env : Env σ) (a : Area) (index : Word) (st : Phase × World σ) :
    ∃ new, ((env.syncHfences a index).run st).2.2.events = st.2.events ++ new ∧
      Pass AsksFence (a.fencesBy st.2.memory index) ((env.syncHfences a index).run st).1 new := by
  refine inPhases_asks st (fun o hfail => .none _ _ hfail) ?_
  intro fences hfences
  rw [Area.prepareFences_eq hfences]
  exact env.performFences_pass a _ st.2

/-! ## Trap returns -/

/-- What the host is asked for once slots and fences are done. -/
def ReturnPlan.tail (plan : ReturnPlan) : List Request :=
  match plan.swap with
  | none => [.trapReturn plan.state]
  | some c => [.readCsr CsrNumber.hstatus, .trapReturn plan.state, .writeCsr c]

/-- The events `ws`, `fs` and `rs` are those of the phases of a trap return: a pass over the slots, a pass over the
    fences, and what comes last. Each phase waits for the one before it to be done. -/
structure ReturnPasses (plan : ReturnPlan) (o : Outcome SyncError ReturnSummary)
    (applied performed : Outcome SyncError Nat) (ws fs rs : List Event) : Prop where
  slots : Pass WritesSlot plan.slots applied ws
  fences : Pass AsksFence plan.fences performed fs
  tail : AskedInOrder Eq plan.tail rs
  fencesWait : fs ≠ [] → applied.isOk = true
  tailWaits : rs ≠ [] → applied.isOk = true ∧ performed.isOk = true
  result : ∀ r, o = .ok r → applied = .ok r.csrs ∧ performed = .ok r.fences

section
variable {plan : ReturnPlan} {o : Outcome SyncError ReturnSummary} {applied performed : Outcome SyncError Nat}
  {ws fs : List Event}

/-- A return that stops in its slots. -/
theorem ReturnPasses.of_slots (hslots : Pass WritesSlot plan.slots applied ws) (hfail : o.isOk = false) :
    ReturnPasses plan o applied .abandoned ws [] [] where
  slots := hslots
  fences := .none _ _ rfl
  tail := .nil _ _
  fencesWait h := absurd rfl h
  tailWaits h := absurd rfl h
  result r h := by
    rw [h] at hfail
    cases hfail

/-- A return that stops in its fences. -/
theorem ReturnPasses.of_fences (hslots : Pass WritesSlot plan.slots applied ws) (happlied : applied.isOk = true)
    (hfences : Pass AsksFence plan.fences performed fs) (hfail : o.isOk = false) :
    ReturnPasses plan o applied performed ws fs [] where
  slots := hslots
  fences := hfences
  tail := .nil _ _
  fencesWait _ := happlied
  tailWaits h := absurd rfl h
  result r h := by
    rw [h] at hfail
    cases hfail

end

/-- The computation asks for the given requests in their order, or for the first of them. -/
def AsksInOrder (qs : List Request) (x : Act (World σ) ε α) : Prop :=
  ∀ w, ∃ new, (x.run w).2.events = w.events ++ new ∧ AskedInOrder Eq qs new

/-- A computation that asks for nothing. -/
theorem AsksInOrder.silent {x : Act (World σ) ε α} (h : ∀ w, (x.run w).2.events = w.events) (qs : List Request) :
    AsksInOrder qs x := by
  intro w
  exact ⟨[], (h w).trans (List.append_nil _).symm, .nil _ _⟩

/-- A request, and what comes after it if the host has carried it out. -/
theorem AsksInOrder.request_bind {env : Env σ} {f : HostError → ε} {k : Word → Act (World σ) ε α}
    {qs : List Request} (hk : ∀ v, AsksInOrder qs (k v)) (q : Request) :
    AsksInOrder (q :: qs) ((env.request q).mapError f >>= k) := by
  intro w
  rw [Act.bind_run, Act.mapError_run, World.request_run]
  cases (env.host q w.state w.memory).1 with
  | refused e => exact ⟨_, rfl, .cons rfl _ (.nil _ _)⟩
  | lost => exact ⟨_, rfl, .cons rfl _ (.nil _ _)⟩
  | done v =>
    dsimp only
    rw [Act.next_ok]
    let w' : World σ := { w with
      state := (env.host q w.state w.memory).2.1
      memory := (env.host q w.state w.memory).2.2
      events := w.events ++ [.requested q (.done v)] }
    obtain ⟨new, hevents, hnew⟩ := hk v w'
    exact ⟨_, hevents.trans (List.append_assoc _ _ _), .cons rfl _ hnew⟩

theorem Env.leave_asks (env : Env σ) (a : Area) (plan : ReturnPlan) :
    AsksInOrder plan.tail (env.leave a plan.state plan.swap) := by
  unfold ReturnPlan.tail Env.leave
  cases plan.swap with
  | none =>
    apply AsksInOrder.request_bind
    intro _
    exact .silent (fun _ => rfl) _
  | some c =>
    -- the read, the return, and the write; then only guest memory changes
    apply AsksInOrder.request_bind
    intro old
    apply AsksInOrder.request_bind
    intro _
    apply AsksInOrder.request_bind
    intro _
    exact .silent (fun _ => rfl) _

/-- With the slots done, the fences come next, and then what comes last. -/
theorem Env.fencesAndLeave_passes (env : Env σ) (a : Area) (plan : ReturnPlan) (csrs : Nat) (w : World σ) :
    let rest := (env.performFences a plan.fences).mapError SyncError.fence >>= fun fences =>
      env.leave a plan.state plan.swap >>= fun _ =>
        pure ({ csrs, fences, swapped := plan.swap.isSome } : ReturnSummary)
    ∃ performed fs rs, (rest.run w).2.events = w.events ++ (fs ++ rs) ∧
      ∀ ws, Pass WritesSlot plan.slots (.ok csrs : Outcome SyncError Nat) ws →
        ReturnPasses plan (rest.run w).1 (.ok csrs) performed ws fs rs := by
  intro rest
  obtain ⟨fs, hfs, hfences⟩ := env.performFences_pass a plan.fences w
  rcases hrun : ((env.performFences a plan.fences).mapError SyncError.fence).run w with ⟨n | e | _, w'⟩
  all_goals rw [hrun] at hfs hfences
  case ok =>
    obtain ⟨rs, hrs, htail⟩ := env.leave_asks a plan w'
    have hrest : rest.run w =
        (((env.leave a plan.state plan.swap).run w').1.map fun _ => ⟨csrs, n, plan.swap.isSome⟩,
          ((env.leave a plan.state plan.swap).run w').2) := by
      rw [Act.bind_run, hrun, Act.next_ok, Act.run_bind_pure]
    rw [hrest]
    refine ⟨.ok n, fs, rs, ?_, fun ws hslots => ⟨hslots, hfences, htail, fun _ => rfl, fun _ => ⟨rfl, rfl⟩, ?_⟩⟩
    · rw [hrs, hfs, List.append_assoc]
    · intro r hr
      cases hleft : ((env.leave a plan.state plan.swap).run w').1 with
      | ok =>
        rw [hleft] at hr
        cases hr
        exact ⟨rfl, rfl⟩
      | error e => rw [hleft] at hr; cases hr
      | abandoned => rw [hleft] at hr; cases hr
  case error =>
    have hrest : rest.run w = (.error e, w') := by rw [Act.bind_run, hrun, Act.next_error]
    rw [hrest]
    exact ⟨_, fs, [], by rw [hfs, List.append_nil], fun ws hslots => .of_fences hslots rfl hfences rfl⟩
  case abandoned =>
    have hrest : rest.run w = (.abandoned, w') := by rw [Act.bind_run, hrun, Act.next_abandoned]
    rw [hrest]
    exact ⟨_, fs, [], by rw [hfs, List.append_nil], fun ws hslots => .of_fences hslots rfl hfences rfl⟩

/-- **A plan is applied in passes over what it has captured,** whatever the host does. -/
theorem Env.applyReturn_passes (env : Env σ) (a : Area) (plan : ReturnPlan) (w : World σ) :
    ∃ applied performed ws fs rs,
      ((env.applyReturn a plan).run w).2.events = w.events ++ (ws ++ fs ++ rs) ∧
      ReturnPasses plan ((env.applyReturn a plan).run w).1 applied performed ws fs rs := by
  unfold Env.applyReturn
  obtain ⟨ws, hws, hslots⟩ := env.applySlots_pass a plan.slots w
  rw [Act.bind_run]
  rcases hrun : (env.applySlots a plan.slots).run w with ⟨csrs | e | _, w'⟩
  all_goals rw [hrun] at hws hslots
  case ok =>
    obtain ⟨performed, fs, rs, hevents, hpasses⟩ := env.fencesAndLeave_passes a plan csrs w'
    rw [Act.next_ok]
    refine ⟨.ok csrs, performed, ws, fs, rs, ?_, hpasses ws hslots⟩
    rw [hevents, hws, List.append_assoc, List.append_assoc]
  case error =>
    refine ⟨_, _, ws, [], [], ?_, .of_slots hslots rfl⟩
    rw [Act.next_error, hws, List.append_nil, List.append_nil]
  case abandoned =>
    refine ⟨_, _, ws, [], [], ?_, .of_slots hslots rfl⟩
    rw [Act.next_abandoned, hws, List.append_nil, List.append_nil]

/-- What a call to return asks for, from guest memory `m`: with an outcome, and events. -/
inductive ReturnAsks (a : Area) (m : Memory) (autoswap : Bool) :
    Outcome SyncError ReturnSummary → List Event → Prop where
  | refused {o : Outcome SyncError ReturnSummary} (hfail : o.isOk = false) : ReturnAsks a m autoswap o []
  /-- The plan is the one that was made of `m`. -/
  | planned {plan : ReturnPlan} {o : Outcome SyncError ReturnSummary} {applied performed : Outcome SyncError Nat}
    {ws fs rs : List Event} (hplan : a.prepareReturn autoswap m = .ok plan) (hslots : a.ListsDirty m .all plan.slots)
    (hfences : a.ListsPending m (fun _ => autoswap = true) plan.fences)
    (hpasses : ReturnPasses plan o applied performed ws fs rs) : ReturnAsks a m autoswap o (ws ++ fs ++ rs)

theorem Env.syncReturn_asks (env : Env σ) (a : Area) (flags : Word) (caller : Privilege) (enabled : Bool)
    (st : Phase × World σ) :
    ∃ new, ((env.syncReturn a flags caller enabled).run st).2.2.events = st.2.events ++ new ∧
      ReturnAsks a st.2.memory (Word.bit flags 0) ((env.syncReturn a flags caller enabled).run st).1 new := by
  obtain ⟨e, _, he⟩ | hphases := env.syncReturn_cases a flags caller enabled
  · rw [he]
    exact ⟨[], (List.append_nil _).symm, .refused rfl⟩
  · rw [hphases]
    refine inPhases_asks st (fun o hfail => .refused hfail) ?_
    intro plan hplan
    obtain ⟨applied, performed, ws, fs, rs, hevents, hpasses⟩ := env.applyReturn_passes a plan st.2
    obtain ⟨hslots, hfences⟩ := Area.prepareReturn_lists hplan
    exact ⟨_, hevents, .planned hplan hslots hfences hpasses⟩

/-! ## Whatever the host does -/

/-- **Synchronization asks for what the area held when it began.** Nothing is assumed about the host: it may rewrite
    the bitmap, the slots and the fence list whenever it is asked for something.

    The writes of a call that applies CSRs, and of the drain of an eager hart, are for slots that were dirty and
    selected when the call began, each once at most and in ascending order. The requests of a call that performs
    fences are those that pending entries asked for when it began, each once at most and in list order. A result is
    the number of requests made, and there is one for every slot or fence captured.

    A trap return that is not refused at once goes through both lists in that way, first the slots and then the
    fences, and then asks for the return, with the swap around it if there is one. -/
theorem Env.sync_captured (env : Env σ) (a : Area) :
    (∀ mask (st : Phase × World σ), ∃ slots new, a.ListsDirty st.2.memory mask slots ∧
      ((env.syncCsrs a mask).run st).2.2.events = st.2.events ++ new ∧
      Pass WritesSlot slots ((env.syncCsrs a mask).run st).1 new) ∧
    (∀ (h : Hart) (w : World σ), h.session.mode = .eager → h.session.area = some a →
      ∃ slots new o, a.ListsDirty w.memory .all slots ∧
        ((Hart.drain env).run (h, w)).2.2.events = w.events ++ new ∧
        Pass WritesSlot slots (o : Outcome SyncError Nat) new ∧
        (((Hart.drain env).run (h, w)).1 = .ok () → o = .ok new.length ∧
          ((Hart.drain env).run (h, w)).2.1.counters = h.counters.add .csrsSynced (.ofNat new.length))) ∧
    (∀ index (st : Phase × World σ), ∃ fences new, a.ListsPending st.2.memory (Area.SelectedBy index) fences ∧
      ((env.syncHfences a index).run st).2.2.events = st.2.events ++ new ∧
      Pass AsksFence fences ((env.syncHfences a index).run st).1 new) ∧
    ∀ flags caller enabled (st : Phase × World σ), ∃ new,
      ((env.syncReturn a flags caller enabled).run st).2.2.events = st.2.events ++ new ∧
      ReturnAsks a st.2.memory (Word.bit flags 0) ((env.syncReturn a flags caller enabled).run st).1 new := by
  refine ⟨?_, ?_, ?_, ?_⟩
  · intro mask st
    obtain ⟨new, hevents, hpass⟩ := env.syncCsrs_pass a mask st
    exact ⟨_, new, a.dirtySlots_lists _ mask, hevents, hpass⟩
  · intro h w hmode harea
    obtain ⟨new, hevents, hpass⟩ := env.syncCsrs_pass a .all (h.phase, w)
    rw [Hart.drain_run_eager (Hart.drainArea?_eq_some hmode harea)]
    rcases hrun : (env.syncCsrs a .all).run (h.phase, w) with ⟨o, phase, w'⟩
    rw [hrun] at hevents hpass
    refine ⟨_, new, o, a.dirtySlots_lists w.memory .all, ?_, hpass, ?_⟩
    · cases o <;> exact hevents
    · intro hok
      cases o with
      | ok n =>
        obtain ⟨hlength, _, _⟩ := hpass.result n rfl
        rw [← hlength]
        exact ⟨rfl, rfl⟩
      | error e => cases hok
      | abandoned => cases hok
  · intro index st
    obtain ⟨new, hevents, hpass⟩ := env.syncHfences_pass a index st
    exact ⟨_, new, a.fencesBy_lists _ index, hevents, hpass⟩
  · intro flags caller enabled st
    exact env.syncReturn_asks a flags caller enabled st

/-- The host does all that it is asked for, and each time the guest marks every slot as dirty again and overwrites
    every entry of the fence list. -/
def Env.refilling (a : Area) : Env Unit where
  host _ _ m := (.done 0, (), ⟨fun b => if a.base + 96 ≤ b ∧ b < a.base + 512 then ~~~0 else m.read b⟩)
  map _ _ _ := (.error .outOfMemory, ())

/-- Two dirty CSRs come to two writes, and one pending fence to one, although every slot is dirty and every entry of
    the fence list is filled by then. -/
theorem Env.sync_captured_refilling :
    let a := Area.ofGuest 0x3000
    let h : Hart := { session := { area := some a, mode := .eager } }
    let ws : List CsrWrite := [⟨CsrNumber.vsscratch, 1⟩, ⟨CsrNumber.hcounteren, 7⟩]
    let w : World Unit := { state := (), memory := a.fillFence 5 (.make .gvma 3 0 16 2) (a.writeCsrs ws .zero) }
    let csrs := ((refilling a).syncCsrs a .all).run (.idle, w)
    let drain := (Hart.drain (refilling a)).run (h, w)
    let fences := ((refilling a).syncHfences a FenceSelect.allIndex).run (.idle, w)
    (csrs.1 = .ok 2 ∧ csrs.2.2.events.length = 2 ∧ a.isDirty csrs.2.2.memory 3 = true) ∧
    (drain.1 = .ok () ∧ drain.2.1.counters = h.counters.add .csrsSynced 2) ∧
    fences.1 = .ok 1 ∧ fences.2.2.events.length = 1 ∧ (a.fenceEntry fences.2.2.memory 6).pending = true := by
  intro a h ws w csrs drain fences
  obtain ⟨hcsrs, hdrain, hfences, _⟩ := Env.sync_captured (refilling a) a
  refine ⟨?_, ?_, ?_⟩
  · obtain ⟨slots, new, _, hevents, hpass⟩ := hcsrs .all (.idle, w)
    have hok : csrs.1 = .ok 2 := by decide +kernel
    obtain ⟨hlength, _⟩ := hpass.result 2 hok
    refine ⟨hok, ?_, by decide +kernel⟩
    rw [hevents]
    exact hlength.symm
  · obtain ⟨slots, new, o, _, hevents, _, hcounted⟩ := hdrain h w rfl rfl
    have hok : drain.1 = .ok () := by decide +kernel
    have hevents' : drain.2.2.events.length = 2 := by decide +kernel
    have hlength : new.length = 2 := (congrArg List.length hevents).symm.trans hevents'
    refine ⟨hok, ?_⟩
    rw [(hcounted hok).2, hlength]
    rfl
  · obtain ⟨list, new, _, hevents, hpass⟩ := hfences FenceSelect.allIndex (.idle, w)
    have hok : fences.1 = .ok 1 := by decide +kernel
    obtain ⟨hlength, _⟩ := hpass.result 1 hok
    refine ⟨hok, ?_, by decide +kernel⟩
    rw [hevents]
    exact hlength.symm

end NestedAccel
