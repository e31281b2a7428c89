import NestedAccel.Proofs.Bitmap
import NestedAccel.Proofs.Footprint

/-!
# `NestedAccel.Proofs.Scan` — how far a scan comes

Applying dirty slots and performing pending fences are loops of one kind. There is a list of items; for
each, a request is made to the host and, once the host has carried it out, a mark in the shared area; the
first request that is not carried out ends the loop. `Env.scan` is that loop by itself. Performing fences
**is** a scan (`Env.performFences_eq`), and so is applying slots (`Env.applySlots_run`) as long as the
host leaves guest memory alone, although it reads and checks every value a second time.

`Progress` lists the ways a scan can end, with what is on record and what has become of memory: all items
are done, or some are done and the next one was refused, or the host never came back from it. What holds
of every call, of every retry and of every run is derived from this list (`Env.scan_progress`).
-/

namespace NestedAccel

variable {σ ε ι : Type}

/-! ## The record -/

/-- The request that the event is about. -/
def Event.request? : Event → Option Request
  | .requested q _ => some q
  | _ => none

/-- The request that the host has carried out. -/
def Event.done? : Event → Option Request
  | .requested q (.done _) => some q
  | _ => none

/-- What the host was asked. -/
def requestsMade (events : List Event) : List Request := events.filterMap Event.request?

/-- What the host has carried out. -/
def requestsDone (events : List Event) : List Request := events.filterMap Event.done?

@[simp] theorem requestsMade_append (old new : List Event) :
    requestsMade (old ++ new) = requestsMade old ++ requestsMade new := List.filterMap_append

@[simp] theorem requestsDone_append (old new : List Event) :
    requestsDone (old ++ new) = requestsDone old ++ requestsDone new := List.filterMap_append

theorem mem_requestsDone {events : List Event} {q : Request} :
    q ∈ requestsDone events ↔ ∃ v, .requested q (.done v) ∈ events := by
  unfold requestsDone
  rw [List.mem_filterMap]
  constructor
  · rintro ⟨e, he, hq⟩
    cases e with
    | requested q' r =>
      cases r with
      | done v =>
        cases hq
        exact ⟨v, he⟩
      | refused => cases hq
      | lost => cases hq
    | mapped => cases hq
    | unmapped => cases hq
  · rintro ⟨v, hv⟩
    exact ⟨_, hv, rfl⟩

/-! ## Scans -/

/-- A request, and the mark to be made in guest memory once it has been carried out. -/
structure Task where
  request : Request
  finish : Memory → Memory

/-- Does the tasks of the items in order. The result is their number. -/
def Env.scan (env : Env σ) (task : ι → Task) : List ι → Act (World σ) HostError Nat
  | [] => pure 0
  | i :: rest => do
    let _ ← env.request (task i).request
    changeMemory (task i).finish
    return (← env.scan task rest) + 1

section

variable {task : ι → Task} {items : List ι} {events : List Event}

/-- Guest memory once the tasks of the items are done. -/
def finishAll (task : ι → Task) (items : List ι) (m : Memory) : Memory :=
  items.foldl (fun m i => (task i).finish m) m

/-- The events say that the host has carried out the requests of the items, in order. -/
def CarriedOut (task : ι → Task) (items : List ι) (events : List Event) : Prop :=
  List.Forall₂ (fun i e => ∃ v, e = .requested (task i).request (.done v)) items events

theorem CarriedOut.requestsMade (h : CarriedOut task items events) :
    requestsMade events = items.map fun i => (task i).request := by
  induction h with
  | nil => rfl
  | cons hd _ ih =>
    obtain ⟨v, rfl⟩ := hd
    exact congrArg _ ih

theorem CarriedOut.requestsDone (h : CarriedOut task items events) :
    requestsDone events = items.map fun i => (task i).request := by
  induction h with
  | nil => rfl
  | cons hd _ ih =>
    obtain ⟨v, rfl⟩ := hd
    exact congrArg _ ih

/-- How a scan can end, from guest memory `m`: with an outcome, events on record, and guest memory. -/
inductive Progress (task : ι → Task) (items : List ι) (m : Memory) :
    Outcome HostError Nat → List Event → Memory → Prop where
  /-- Every item is done. -/
  | finished {new : List Event} (hdone : CarriedOut task items new) :
    Progress task items m (.ok items.length) new (finishAll task items m)
  /-- The host has refused an item, and the ones before it are done. -/
  | refused {done rest : List ι} {i : ι} {new : List Event} {e : HostError}
    (hsplit : items = done ++ i :: rest) (hdone : CarriedOut task done new) :
    Progress task items m (.error e) (new ++ [.requested (task i).request (.refused e)])
      (finishAll task done m)
  /-- The host never came back from an item, and the ones before it are done. -/
  | lost {done rest : List ι} {i : ι} {new : List Event}
    (hsplit : items = done ++ i :: rest) (hdone : CarriedOut task done new) :
    Progress task items m .abandoned (new ++ [.requested (task i).request .lost])
      (finishAll task done m)

/-- The ways a scan can end once its first item is done. -/
theorem Progress.cons {i : ι} {rest : List ι} {m m' : Memory} {o : Outcome HostError Nat} {v : Word}
    {new : List Event} (h : Progress task rest ((task i).finish m) o new m') :
    Progress task (i :: rest) m (o.map (· + 1)) (.requested (task i).request (.done v) :: new) m' := by
  cases h with
  | finished hdone => exact .finished (.cons ⟨v, rfl⟩ hdone)
  | refused hsplit hdone =>
    subst hsplit
    exact .refused rfl (.cons ⟨v, rfl⟩ hdone)
  | lost hsplit hdone =>
    subst hsplit
    exact .lost rfl (.cons ⟨v, rfl⟩ hdone)

/-- A scan with a result has done every item. -/
theorem Progress.of_ok {m m' : Memory} {n : Nat} {new : List Event}
    (h : Progress task items m (.ok n) new m') :
    n = items.length ∧ CarriedOut task items new ∧ m' = finishAll task items m := by
  cases h with
  | finished hdone => exact ⟨rfl, hdone, rfl⟩

/-- A scan that failed has stopped at the item that the host refused. -/
theorem Progress.of_error {m m' : Memory} {e : HostError} {new : List Event}
    (h : Progress task items m (.error e) new m') :
    ∃ done i rest before, items = done ++ i :: rest ∧ CarriedOut task done before ∧
      new = before ++ [.requested (task i).request (.refused e)] ∧ m' = finishAll task done m := by
  cases h with
  | refused hsplit hdone => exact ⟨_, _, _, _, hsplit, hdone, rfl, rfl⟩

theorem finishAll_append (first second : List ι) (m : Memory) :
    finishAll task (first ++ second) m = finishAll task second (finishAll task first m) :=
  List.foldl_append

/-- **These are the ways a scan can end,** where the host leaves guest memory alone. -/
theorem Env.scan_progress {env : Env σ} (hquiet : env.Quiet) (task : ι → Task) (items : List ι)
    (w : World σ) :
    ∃ new, ((env.scan task items).run w).2.events = w.events ++ new ∧
      Progress task items w.memory ((env.scan task items).run w).1 new
        ((env.scan task items).run w).2.memory := by
  induction items generalizing w with
  | nil => exact ⟨[], (List.append_nil _).symm, .finished .nil⟩
  | cons i rest ih =>
    unfold Env.scan
    rw [Act.bind_run, World.request_run, hquiet]
    cases (env.host (task i).request w.state w.memory).1 with
    | refused e => exact ⟨_, rfl, .refused (List.nil_append (i :: rest)).symm .nil⟩
    | lost => exact ⟨_, rfl, .lost (List.nil_append (i :: rest)).symm .nil⟩
    | done v =>
      -- the rest goes on from the world in which the first item is marked
      let w' : World σ := { w with
        state := (env.host (task i).request w.state w.memory).2.1
        memory := (task i).finish w.memory
        events := w.events ++ [.requested (task i).request (.done v)] }
      obtain ⟨new, hnew, hp⟩ := ih w'
      refine ⟨.requested (task i).request (.done v) :: new, ?_, ?_⟩
      all_goals
        rw [Act.next_ok, Act.bind_run, changeMemory, Act.modify_run, Act.next_ok, Act.run_bind_pure]
      · exact hnew.trans (List.append_assoc _ _ _)
      · exact hp.cons

/-- A scan has a result where the host never fails. -/
theorem Env.NeverFails.scan_run {env : Env σ} (h : env.NeverFails) (task : ι → Task) (items : List ι)
    (w : World σ) : ((env.scan task items).run w).1 = .ok items.length := by
  induction items generalizing w with
  | nil => rfl
  | cons i rest ih =>
    obtain ⟨v, hv⟩ := h (task i).request w.state w.memory
    unfold Env.scan
    rw [Act.bind_run, World.request_run, hv]
    dsimp only
    rw [Act.next_ok, Act.bind_run, changeMemory, Act.modify_run, Act.next_ok, Act.run_bind_pure, ih]
    rfl

end

/-! ## Scans of ascending lists -/

/-- Either everything in a list is as it should be, or there is a first thing that is not. -/
theorem forall_or_exists_first (p : ι → Prop) (l : List ι) :
    (∀ i ∈ l, p i) ∨ ∃ before i after, l = before ++ i :: after ∧ (∀ j ∈ before, p j) ∧ ¬p i := by
  induction l with
  | nil => exact .inl fun i hi => absurd hi List.not_mem_nil
  | cons i rest ih =>
    by_cases hi : p i
    · rcases ih with hall | ⟨before, j, after, rfl, hbefore, hj⟩
      · exact .inl (List.forall_mem_cons.2 ⟨hi, hall⟩)
      · exact .inr ⟨i :: before, j, after, rfl, List.forall_mem_cons.2 ⟨hi, hbefore⟩, hj⟩
    · exact .inr ⟨[], i, rest, rfl, fun j hj => absurd hj List.not_mem_nil, hi⟩

/-- In an ascending list, what comes before an item is what is smaller. -/
theorem exists_split_of_pairwise {n : Nat} {l : List (Fin n)} (hl : l.Pairwise (· < ·)) {i : Fin n}
    (hi : i ∈ l) : ∃ before after, l = before ++ i :: after ∧ (∀ j ∈ before, j < i) ∧
      ∀ j ∈ after, i < j := by
  obtain ⟨before, after, rfl⟩ := List.append_of_mem hi
  rw [List.pairwise_append] at hl
  obtain ⟨_, hrest, hbefore⟩ := hl
  exact ⟨before, after, rfl, fun j hj => hbefore j hj i List.mem_cons_self,
    fun j hj => List.rel_of_pairwise_cons hrest hj⟩

/-! ## Fences -/

namespace Area

variable {a : Area} {m : Memory} {s : FenceSlot}

/-- The fence that entry `s` of the fence list asks for, if the entry is pending. -/
def fence? (a : Area) (m : Memory) (s : FenceSlot) : Option Fence :=
  match Check.fence (a.fenceEntry m s) with
  | .ok f => f
  | .error _ => none

/-- Entry `s` of the fence list passes its check. -/
def FenceValid (a : Area) (m : Memory) (s : FenceSlot) : Prop :=
  Check.fence (a.fenceEntry m s) = .ok (a.fence? m s)

theorem fenceValid_or_refused (a : Area) (m : Memory) (s : FenceSlot) :
    a.FenceValid m s ∨ ∃ r, Check.fence (a.fenceEntry m s) = .error r := by
  unfold FenceValid fence?
  cases Check.fence (a.fenceEntry m s) with
  | ok f => exact .inl rfl
  | error r => exact .inr ⟨r, rfl⟩

/-- The fences that the given entries ask for. -/
def fencesAt (a : Area) (m : Memory) (slots : List FenceSlot) : List PendingFence :=
  slots.filterMap fun s => (a.fence? m s).map (PendingFence.mk s)

theorem pendingFences_ok {slots : List FenceSlot} (h : ∀ s ∈ slots, a.FenceValid m s) :
    a.pendingFences m slots = .ok (a.fencesAt m slots) := by
  induction slots with
  | nil => rfl
  | cons s rest ih =>
    have hs : Check.fence (a.fenceEntry m s) = .ok (a.fence? m s) := h s List.mem_cons_self
    have hrest := ih fun t ht => h t (List.mem_cons_of_mem s ht)
    unfold pendingFences
    rw [hs, hrest]
    cases hf : a.fence? m s with
    | none =>
      have hskip : a.fencesAt m (s :: rest) = a.fencesAt m rest :=
        List.filterMap_cons_none (by rw [hf]; rfl)
      rw [hskip]
    | some f =>
      have hkeep : a.fencesAt m (s :: rest) = ⟨s, f⟩ :: a.fencesAt m rest :=
        List.filterMap_cons_some (by rw [hf]; rfl)
      rw [hkeep]
      rfl

/-- The refusal of the first entry that does not pass is the one reported. -/
theorem pendingFences_error {before after : List FenceSlot} {r : Refusal}
    (hbefore : ∀ t ∈ before, a.FenceValid m t) (hs : Check.fence (a.fenceEntry m s) = .error r) :
    a.pendingFences m (before ++ s :: after) = .error (.invalid s r) := by
  induction before with
  | nil =>
    rw [List.nil_append]
    unfold pendingFences
    rw [hs]
  | cons t rest ih =>
    have ht : Check.fence (a.fenceEntry m t) = .ok (a.fence? m t) := hbefore t List.mem_cons_self
    have hrest := ih fun u hu => hbefore u (List.mem_cons_of_mem t hu)
    rw [List.cons_append]
    unfold pendingFences
    rw [ht, hrest]
    cases a.fence? m t with
    | none => rfl
    | some f => rfl

end Area

/-- The task of performing a captured fence. -/
def PendingFence.task (a : Area) (p : PendingFence) : Task := ⟨.fence p.fence, a.finishFence p.slot⟩

theorem Env.performFences_eq (env : Env σ) (a : Area) (fences : List PendingFence) :
    env.performFences a fences = (env.scan (PendingFence.task a) fences).mapError FenceError.host := by
  induction fences with
  | nil => rfl
  | cons p rest ih =>
    unfold Env.performFences
    rw [ih, Env.scan]
    simp only [Act.mapError_bind, Act.mapError_pure]
    rfl

/-! ## Slots -/

namespace Area

variable {a : Area} {m m' : Memory} {s t : CsrSlot}

/-- The write that slot `s` stands for. -/
def slotUpdate (a : Area) (m : Memory) (s : CsrSlot) : CsrWrite :=
  ⟨((Csr.entryAt? s).map Csr.Entry.number).getD 0, a.slotValue m s⟩

/-- The value in slot `s` passes its check. -/
def SlotValid (a : Area) (m : Memory) (s : CsrSlot) : Prop :=
  Check.slotWrite s (a.slotValue m s) = .ok (a.slotUpdate m s)

theorem slotUpdate_of_ok {w : CsrWrite} (h : Check.slotWrite s (a.slotValue m s) = .ok w) :
    w = a.slotUpdate m s := by
  unfold Check.slotWrite at h
  unfold slotUpdate
  cases he : Csr.entryAt? s with
  | none => rw [he] at h; cases h
  | some e =>
    rw [he] at h
    dsimp only [Check.write] at h
    split at h
    · cases h
    · split at h
      · cases h
        rfl
      · cases h

theorem slotValid_or_refused (a : Area) (m : Memory) (s : CsrSlot) :
    a.SlotValid m s ∨ ∃ r, Check.slotWrite s (a.slotValue m s) = .error r := by
  cases h : Check.slotWrite s (a.slotValue m s) with
  | ok w => exact .inl (h.trans (congrArg _ (slotUpdate_of_ok h)))
  | error r => exact .inr ⟨r, rfl⟩

/-- Only the value in the slot matters. -/
theorem slotUpdate_congr (h : a.slotValue m' s = a.slotValue m s) :
    a.slotUpdate m' s = a.slotUpdate m s := by
  unfold slotUpdate
  rw [h]

theorem slotValid_congr (h : a.slotValue m' s = a.slotValue m s) :
    a.SlotValid m' s ↔ a.SlotValid m s := by
  unfold SlotValid
  rw [slotUpdate_congr h, h]

/-- The task of applying slot `s`. -/
def slotTask (a : Area) (m : Memory) (s : CsrSlot) : Task :=
  ⟨.writeCsr (a.slotUpdate m s), a.clearDirty s⟩

@[simp] theorem slotTask_request (a : Area) (m : Memory) (s : CsrSlot) :
    (a.slotTask m s).request = .writeCsr (a.slotUpdate m s) := rfl

@[simp] theorem slotTask_finish (a : Area) (m : Memory) (s : CsrSlot) :
    (a.slotTask m s).finish = a.clearDirty s := rfl

/-- Once slots have been applied, they are no longer dirty and the others are as before. -/
theorem isDirty_finishAll (a : Area) (m₀ m : Memory) (slots : List CsrSlot) (t : CsrSlot) :
    a.isDirty (finishAll (a.slotTask m₀) slots m) t = (a.isDirty m t && !decide (t ∈ slots)) := by
  induction slots generalizing m with
  | nil => simp [finishAll]
  | cons s rest ih =>
    have hstep : finishAll (a.slotTask m₀) (s :: rest) m =
        finishAll (a.slotTask m₀) rest (a.clearDirty s m) := rfl
    rw [hstep, ih, isDirty_clearDirty, Bool.and_assoc, ← Bool.not_or, ← Bool.decide_or]
    simp only [List.mem_cons, eq_comm]

theorem slotValue_finishAll (a : Area) (m₀ m : Memory) (slots : List CsrSlot) (t : CsrSlot) :
    a.slotValue (finishAll (a.slotTask m₀) slots m) t = a.slotValue m t := by
  induction slots generalizing m with
  | nil => rfl
  | cons s rest ih => exact (ih _).trans (slotValue_clearDirty a m s t)

/-- The values have not changed, and so the slots still stand for the same writes. -/
theorem slotUpdate_finishAll (a : Area) (m₀ m : Memory) (slots : List CsrSlot) :
    a.slotUpdate (finishAll (a.slotTask m₀) slots m) = a.slotUpdate m := by
  funext s
  exact slotUpdate_congr (slotValue_finishAll a m₀ m slots s)

theorem slotTask_finishAll (a : Area) (m₀ m : Memory) (slots : List CsrSlot) :
    a.slotTask (finishAll (a.slotTask m₀) slots m) = a.slotTask m := by
  funext s
  show Task.mk _ _ = Task.mk _ _
  rw [slotUpdate_finishAll]

/-! ### Checking slots -/

theorem checkSlots_ok {slots : List CsrSlot} (h : ∀ s ∈ slots, a.SlotValid m s) :
    a.checkSlots m slots = .ok () := by
  induction slots with
  | nil => rfl
  | cons s rest ih =>
    have hs : Check.slotWrite s (a.slotValue m s) = .ok (a.slotUpdate m s) := h s List.mem_cons_self
    unfold checkSlots
    rw [hs]
    exact ih fun t ht => h t (List.mem_cons_of_mem s ht)

/-- The refusal of the first slot that does not pass is the one reported. -/
theorem checkSlots_error {before after : List CsrSlot} {r : Refusal}
    (hbefore : ∀ t ∈ before, a.SlotValid m t)
    (hs : Check.slotWrite s (a.slotValue m s) = .error r) :
    a.checkSlots m (before ++ s :: after) = .error r := by
  induction before with
  | nil =>
    rw [List.nil_append]
    unfold checkSlots
    rw [hs]
  | cons t rest ih =>
    have ht : Check.slotWrite t (a.slotValue m t) = .ok (a.slotUpdate m t) :=
      hbefore t List.mem_cons_self
    rw [List.cons_append]
    unfold checkSlots
    rw [ht]
    exact ih fun u hu => hbefore u (List.mem_cons_of_mem t hu)

/-- Every slot that a call would apply holds a value that passes. -/
def SelectedValid (a : Area) (m : Memory) (mask : SlotMask) : Prop :=
  ∀ s, mask.selects s = true → a.isDirty m s = true → a.SlotValid m s

theorem SelectedValid.mem_dirtySlots {mask : SlotMask} (h : a.SelectedValid m mask) :
    ∀ s ∈ a.dirtySlots m mask, a.SlotValid m s := by
  intro s hs
  obtain ⟨hmask, hdirty⟩ := Area.mem_dirtySlots.1 hs
  exact h s hmask hdirty

/-- What is valid stays so when slots are applied. -/
theorem SelectedValid.finishAll {mask : SlotMask} (h : a.SelectedValid m mask) (m₀ : Memory)
    (slots : List CsrSlot) : a.SelectedValid (finishAll (a.slotTask m₀) slots m) mask := by
  intro s hselected hdirty
  rw [isDirty_finishAll, Bool.and_eq_true] at hdirty
  exact (slotValid_congr (slotValue_finishAll a m₀ m slots s)).2 (h s hselected hdirty.1)

theorem prepareCsrs_ok {mask : SlotMask} (hmask : mask.exceeds Csr.span = false)
    (hvalid : a.SelectedValid m mask) : a.prepareCsrs mask m = .ok (a.dirtySlots m mask) := by
  unfold prepareCsrs
  rw [hmask, if_neg Bool.false_ne_true, checkSlots_ok hvalid.mem_dirtySlots]

end Area

/-! ### Applying slots -/

/-- Writing a slot whose value passes is one request. -/
theorem Env.writeSlot_eq (env : Env σ) (refused : Refusal → ε) (failed : HostError → ε)
    {s : CsrSlot} {v : Word} {c : CsrWrite} (h : Check.slotWrite s v = .ok c) :
    env.writeSlot refused failed s v =
      (env.request (.writeCsr c)).mapError failed >>= fun _ => pure () := by
  unfold Env.writeSlot
  rw [h]
  rfl

/-- Applying slots is a scan, where the host leaves guest memory alone: the values read and checked
    again are still the ones that have passed. -/
theorem Env.applySlots_run {env : Env σ} (hquiet : env.Quiet) {a : Area} {m : Memory}
    {slots : List CsrSlot} (hvalid : ∀ s ∈ slots, a.SlotValid m s) (w : World σ)
    (hsame : ∀ s, a.slotValue w.memory s = a.slotValue m s) :
    (env.applySlots a slots).run w = ((env.scan (a.slotTask m) slots).mapError SyncError.host).run w := by
  unfold Env.applySlots
  induction slots generalizing w with
  | nil => rfl
  | cons s rest ih =>
    have hs : Check.slotWrite s (a.slotValue w.memory s) = .ok (a.slotUpdate m s) := by
      rw [hsame]
      exact hvalid s List.mem_cons_self
    unfold Area.consume
    rw [Env.scan, readMemory, Act.bind_run, Act.gets_run, Act.next_ok, env.writeSlot_eq _ _ hs]
    simp only [Act.mapError_bind, Act.bind_run, Act.mapError_run, Area.slotTask_request]
    rw [World.request_run, hquiet]
    cases (env.host (.writeCsr (a.slotUpdate m s)) w.state w.memory).1 with
    | refused e => rfl
    | lost => rfl
    | done v =>
      simp only [Act.next_ok, Act.pure_run, Act.bind_run, changeMemory, Act.modify_run,
        Act.mapError_modify, Act.mapError_pure, Area.slotTask_finish]
      -- clearing the bit leaves every value as it was, so the rest is a scan as well
      rw [ih fun t ht => hvalid t (List.mem_cons_of_mem s ht)]
      intro t
      rw [Area.slotValue_clearDirty]
      exact hsame t

/-- How a call ends when the scan that it makes has ended so. -/
def endCall : Outcome HostError Nat × World σ → Outcome SyncError Nat × (Phase × World σ)
  | (.ok n, w) => (.ok n, (.idle, w))
  | (.error e, w) => (.error (.host e), (.idle, w))
  | (.abandoned, w) => (.abandoned, (.applying, w))

/-- **What a call to apply CSRs comes to** when everything it selects passes: its scan, in the phases of
    the call. -/
theorem Env.syncCsrs_run {env : Env σ} (hquiet : env.Quiet) {a : Area} {mask : SlotMask} {w : World σ}
    (hmask : mask.exceeds Csr.span = false) (hvalid : a.SelectedValid w.memory mask) :
    (env.syncCsrs a mask).run (.idle, w) =
      endCall ((env.scan (a.slotTask w.memory) (a.dirtySlots w.memory mask)).run w) := by
  have hslots := Env.applySlots_run hquiet hvalid.mem_dirtySlots w fun _ => rfl
  unfold Env.syncCsrs
  rw [inPhases_run_idle, Area.prepareCsrs_ok hmask hvalid]
  dsimp only
  rw [hslots, Act.mapError_run]
  rcases (env.scan (a.slotTask w.memory) (a.dirtySlots w.memory mask)).run w with ⟨n | e | _, w'⟩ <;>
    rfl

end NestedAccel
