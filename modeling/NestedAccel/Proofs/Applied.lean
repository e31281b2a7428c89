import NestedAccel.Proofs.FenceCalls

/-!
# `NestedAccel.Proofs.Applied` — which slots and which entries a call has taken effect on

A slot takes effect when the host has carried out the write of its value and its dirty bit has been
cleared; an entry of the fence list, when the host has performed its fence and the pending bit has been
cleared. `Applies a slots entries w w'` says that from `w` to `w'` exactly these slots and entries have
taken effect. Lists are appended when computations follow each other (`Applies.trans`), and with empty
lists it is a preorder.

For every part of a call that can have such an effect there is one lemma here. It names the slots and
entries, and says what the result counts. Where such a part fails, either nothing has taken effect or the
host has refused the request made last (`Refused`).
-/

namespace NestedAccel

open World (Reaches)
open Act (Moves)

variable {σ ε α β ι : Type} {env : Env σ} {a : Area} {m m' : Memory}

/-! ## Slots and entries beside each other -/

namespace Area

theorem isDirty_congr (h : ∀ b, a.InSlots b → m'.read b = m.read b) (s : CsrSlot) :
    a.isDirty m' s = a.isDirty m s := by
  have hword : a.dirtyWord m' (bitmapIndex s) = a.dirtyWord m (bitmapIndex s) :=
    h _ (a.inSlots_bitmapBase _)
  unfold isDirty
  rw [hword]

theorem slotValue_congr (h : ∀ b, a.InSlots b → m'.read b = m.read b) (s : CsrSlot) :
    a.slotValue m' s = a.slotValue m s := h _ (a.inSlots_slotBase s)

end Area

theorem read_finishAll {task : ι → Task} {items : List ι} {b : Nat}
    (h : ∀ i ∈ items, ∀ m : Memory, ((task i).finish m).read b = m.read b) (m : Memory) :
    (finishAll task items m).read b = m.read b := by
  induction items generalizing m with
  | nil => rfl
  | cons i rest ih =>
    have hrest := ih (fun j hj => h j (List.mem_cons_of_mem i hj)) ((task i).finish m)
    exact hrest.trans (h i List.mem_cons_self m)

namespace Area

theorem fenceEntry_applied (a : Area) (m₀ m : Memory) (slots : List CsrSlot) (s : FenceSlot) :
    a.fenceEntry (finishAll (a.slotTask m₀) slots m) s = a.fenceEntry m s := by
  refine fenceEntry_congr (fun b hb => read_finishAll (fun t _ m => ?_) m) s
  refine Memory.read_write_of_ne ?_
  rintro rfl
  exact a.not_inFenceList_bitmapBase _ hb

variable {done : List PendingFence}

theorem read_performed {b : Nat} (hb : a.InSlots b) (done : List PendingFence) (m : Memory) :
    (finishAll (PendingFence.task a) done m).read b = m.read b := by
  refine read_finishAll (fun p _ m => Memory.read_write_of_ne ?_) m
  rintro rfl
  exact a.not_inSlots_fenceBase _ hb

/-- Performing fences leaves the other entries as they are. -/
theorem fenceEntry_performed_of_not_mem (a : Area) {t : FenceSlot}
    (ht : t ∉ done.map PendingFence.slot) (m : Memory) :
    a.fenceEntry (finishAll (PendingFence.task a) done m) t = a.fenceEntry m t := by
  refine fenceEntry_eq fun k hk => read_finishAll (fun p hp m => Memory.read_write_of_ne ?_) m
  have hne : t ≠ p.slot := fun heq => ht (heq ▸ List.mem_map_of_mem hp)
  have hval : (t : Nat) ≠ p.slot := Fin.val_ne_of_ne hne
  unfold fenceBase
  omega

theorem not_pending_performed {t : FenceSlot} (ht : t ∈ done.map PendingFence.slot) (m : Memory) :
    (a.fenceEntry (finishAll (PendingFence.task a) done m) t).pending = false := by
  induction done generalizing m with
  | nil => exact absurd ht List.not_mem_nil
  | cons p rest ih =>
    by_cases hrest : t ∈ rest.map PendingFence.slot
    · exact ih hrest _
    · have hslot : t = p.slot := (List.mem_cons.1 ht).resolve_right hrest
      have hlater := a.fenceEntry_performed_of_not_mem hrest (a.finishFence p.slot m)
      have hfirst := a.not_pending_finishFence m p.slot
      show (a.fenceEntry (finishAll (PendingFence.task a) rest (a.finishFence p.slot m)) t).pending = false
      rw [hlater, hslot]
      exact hfirst

theorem pending_of_fence? {s : FenceSlot} {f : Fence} (h : a.fence? m s = some f) :
    (a.fenceEntry m s).pending = true := pending_of_fence (fence?_eq_some.1 h)

end Area

/-! ## What takes effect -/

/-- From `w` to `w'` the given slots of the area have been applied and the given entries performed, and no
    others. -/
structure Applies (a : Area) (slots : List CsrSlot) (entries : List FenceSlot) (w w' : World σ) :
    Prop where
  slots_nodup : slots.Nodup
  slots_dirty : ∀ s ∈ slots, a.isDirty w.memory s = true
  dirty : ∀ s, a.isDirty w'.memory s = (a.isDirty w.memory s && !decide (s ∈ slots))
  values : ∀ s, a.slotValue w'.memory s = a.slotValue w.memory s
  entries_nodup : entries.Nodup
  finished : ∀ s ∈ entries, (a.fenceEntry w'.memory s).pending = false
  others : ∀ s, s ∉ entries → a.fenceEntry w'.memory s = a.fenceEntry w.memory s
  /-- The host has carried out the writes and the fences, in this order. -/
  record : ∃ new, w'.events = w.events ++ new ∧
    (slots.map fun s => .writeCsr (a.slotUpdate w.memory s)).Sublist (requestsDone new) ∧
    entries.map (a.fence? w.memory) = (fencesDone new).map some

namespace Applies

variable {slots more : List CsrSlot} {entries others : List FenceSlot} {w w' w'' : World σ}

/-- An entry that is performed has asked for a fence. -/
theorem exists_fence (h : Applies a slots entries w w') {s : FenceSlot} (hs : s ∈ entries) :
    ∃ f, a.fence? w.memory s = some f := by
  obtain ⟨new, _, _, hfences⟩ := h.record
  have hmem : a.fence? w.memory s ∈ (fencesDone new).map some := hfences ▸ List.mem_map_of_mem hs
  obtain ⟨f, _, hf⟩ := List.mem_map.1 hmem
  exact ⟨f, hf.symm⟩

theorem entries_pending (h : Applies a slots entries w w') {s : FenceSlot} (hs : s ∈ entries) :
    (a.fenceEntry w.memory s).pending = true := by
  obtain ⟨f, hf⟩ := h.exists_fence hs
  exact Area.pending_of_fence? hf

/-- Nothing takes effect where no slot and no entry changes and no fence is performed. -/
theorem nothing {new : List Event} (hevents : w'.events = w.events ++ new)
    (hfences : fencesDone new = []) (hdirty : ∀ s, a.isDirty w'.memory s = a.isDirty w.memory s)
    (hvalues : ∀ s, a.slotValue w'.memory s = a.slotValue w.memory s)
    (hentries : ∀ s, a.fenceEntry w'.memory s = a.fenceEntry w.memory s) : Applies a [] [] w w' where
  slots_nodup := List.nodup_nil
  slots_dirty _ hs := absurd hs List.not_mem_nil
  dirty s := by simp [hdirty]
  values := hvalues
  entries_nodup := List.nodup_nil
  finished _ hs := absurd hs List.not_mem_nil
  others s _ := hentries s
  record := ⟨new, hevents, List.nil_sublist _, by rw [hfences]; rfl⟩

theorem refl (a : Area) (w : World σ) : Applies a [] [] w w :=
  nothing (List.append_nil _).symm rfl (fun _ => rfl) (fun _ => rfl) fun _ => rfl

theorem message (a : Area) (w : World σ) (console : Console) : Applies a [] [] w { w with console } :=
  nothing (List.append_nil _).symm rfl (fun _ => rfl) (fun _ => rfl) fun _ => rfl

/-- What takes effect later has not taken effect before. -/
theorem trans (h : Applies a slots entries w w') (h' : Applies a more others w' w'') :
    Applies a (slots ++ more) (entries ++ others) w w'' where
  slots_nodup := by
    refine h.slots_nodup.append h'.slots_nodup fun s hs hmore => ?_
    have hdirty := h'.slots_dirty s hmore
    rw [h.dirty, decide_eq_true hs] at hdirty
    simp at hdirty
  slots_dirty s hs := by
    rcases List.mem_append.1 hs with hs | hs
    · exact h.slots_dirty s hs
    · have hdirty := h'.slots_dirty s hs
      rw [h.dirty, Bool.and_eq_true] at hdirty
      exact hdirty.1
  dirty s := by
    rw [h'.dirty, h.dirty]
    simp [Bool.and_assoc]
  values s := (h'.values s).trans (h.values s)
  entries_nodup := by
    refine h.entries_nodup.append h'.entries_nodup fun s hs hmore => ?_
    have hpending := h'.entries_pending hmore
    rw [h.finished s hs] at hpending
    cases hpending
  finished s hs := by
    by_cases hmore : s ∈ others
    · exact h'.finished s hmore
    · rw [h'.others s hmore]
      exact h.finished s ((List.mem_append.1 hs).resolve_right hmore)
  others s hs := by
    rw [List.mem_append, not_or] at hs
    rw [h'.others s hs.2, h.others s hs.1]
  record := by
    obtain ⟨new, hevents, hwrites, hfences⟩ := h.record
    obtain ⟨new', hevents', hwrites', hfences'⟩ := h'.record
    -- an entry still pending in between is as it was at first
    have hsame : others.map (a.fence? w'.memory) = others.map (a.fence? w.memory) := by
      refine List.map_congr_left fun s hs => Area.fence?_congr (h.others s fun hbefore => ?_)
      have hpending := h'.entries_pending hs
      rw [h.finished s hbefore] at hpending
      cases hpending
    have hupdates : (more.map fun s => Request.writeCsr (a.slotUpdate w'.memory s)) =
        more.map fun s => Request.writeCsr (a.slotUpdate w.memory s) :=
      List.map_congr_left fun s _ => congrArg _ (Area.slotUpdate_congr (h.values s))
    refine ⟨new ++ new', ?_, ?_, ?_⟩
    · rw [hevents', hevents, List.append_assoc]
    · rw [List.map_append, requestsDone_append, ← hupdates]
      exact hwrites.append hwrites'
    · rw [List.map_append, hfences, ← hsame, hfences', fencesDone_append, List.map_append]

theorem then_still (h : Applies a slots entries w w') (h' : Applies a [] [] w' w'') :
    Applies a slots entries w w'' := by
  have htotal := h.trans h'
  rw [List.append_nil, List.append_nil] at htotal
  exact htotal

end Applies

section
variable {w w' : World σ}

/-- Moves that perform no fence and write no word of the slots or of the fence list have no effect. -/
theorem Applies.of_reaches (hquiet : env.Quiet)
    (h : Reaches env (fun q => q.fence? = none) (fun b => ¬a.InSlots b ∧ ¬a.InFenceList b) w w') :
    Applies a [] [] w w' := by
  obtain ⟨new, hevents, hnew⟩ := h.events
  have hslots : ∀ b, a.InSlots b → w'.memory.read b = w.memory.read b := by
    intro b hb
    exact h.read_eq hquiet fun hbeside => hbeside.1 hb
  refine .nothing hevents (fencesDone_eq_nil hnew) (Area.isDirty_congr hslots)
    (Area.slotValue_congr hslots) (Area.fenceEntry_congr fun b hb => ?_)
  exact h.read_eq hquiet fun hbeside => hbeside.2 hb

/-- Slots that have been applied one after the other have taken effect. -/
theorem Applies.of_slots {done : List CsrSlot} {new more : List Event} (hnodup : done.Nodup)
    (hdirty : ∀ s ∈ done, a.isDirty w.memory s = true)
    (hdone : CarriedOut (a.slotTask w.memory) done new)
    (hevents : w'.events = w.events ++ (new ++ more)) (hmore : requestsDone more = [])
    (hmemory : w'.memory = finishAll (a.slotTask w.memory) done w.memory) :
    Applies a done [] w w' where
  slots_nodup := hnodup
  slots_dirty := hdirty
  dirty s := by rw [hmemory, Area.isDirty_finishAll]
  values s := by rw [hmemory, Area.slotValue_finishAll]
  entries_nodup := List.nodup_nil
  finished _ hs := absurd hs List.not_mem_nil
  others s _ := by rw [hmemory, Area.fenceEntry_applied]
  record := by
    have hwrites : requestsDone (new ++ more) =
        done.map fun s => .writeCsr (a.slotUpdate w.memory s) := by
      rw [requestsDone_append, hmore, List.append_nil, hdone.requestsDone]
      rfl
    refine ⟨new ++ more, hevents, by rw [hwrites], ?_⟩
    have hnone : fencesDone (new ++ more) = [] := by
      rw [fencesDone, hwrites, List.filterMap_map]
      exact List.filterMap_eq_nil_iff.2 fun s _ => rfl
    rw [hnone]
    rfl

/-- Pending entries whose fences have been performed one after the other have taken effect. -/
theorem Applies.of_fences {done : List PendingFence} {new more : List Event}
    (hpending : ∀ p ∈ done, a.fence? w.memory p.slot = some p.fence)
    (hnodup : (done.map PendingFence.slot).Nodup)
    (hdone : CarriedOut (PendingFence.task a) done new)
    (hevents : w'.events = w.events ++ (new ++ more)) (hmore : requestsDone more = [])
    (hmemory : w'.memory = finishAll (PendingFence.task a) done w.memory) :
    Applies a [] (done.map PendingFence.slot) w w' where
  slots_nodup := List.nodup_nil
  slots_dirty _ hs := absurd hs List.not_mem_nil
  dirty s := by
    rw [hmemory, Area.isDirty_congr fun b hb => Area.read_performed hb done w.memory]
    simp
  values s := by rw [hmemory, Area.slotValue_congr fun b hb => Area.read_performed hb done w.memory]
  entries_nodup := hnodup
  finished s hs := by
    rw [hmemory]
    exact Area.not_pending_performed hs w.memory
  others s hs := by rw [hmemory, a.fenceEntry_performed_of_not_mem hs]
  record := by
    refine ⟨new ++ more, hevents, List.nil_sublist _, ?_⟩
    have hfences : fencesDone (new ++ more) = done.map PendingFence.fence := by
      rw [fencesDone, requestsDone_append, hmore, List.append_nil]
      exact hdone.fences.2
    rw [hfences, List.map_map, List.map_map]
    exact List.map_congr_left hpending

/-- If no dirty bit has changed, no slot has been applied. -/
theorem Applies.slots_eq_nil {slots : List CsrSlot} {entries : List FenceSlot}
    (h : Applies a slots entries w w') (hsame : ∀ s, a.isDirty w'.memory s = a.isDirty w.memory s) :
    slots = [] := by
  refine List.eq_nil_iff_forall_not_mem.2 fun s hs => ?_
  have hdirty := h.dirty s
  rw [hsame, h.slots_dirty s hs, decide_eq_true hs] at hdirty
  cases hdirty

/-- If no entry has changed, none has been performed. -/
theorem Applies.entries_eq_nil {slots : List CsrSlot} {entries : List FenceSlot}
    (h : Applies a slots entries w w')
    (hsame : ∀ s, a.fenceEntry w'.memory s = a.fenceEntry w.memory s) : entries = [] := by
  refine List.eq_nil_iff_forall_not_mem.2 fun s hs => ?_
  have hpending := h.finished s hs
  rw [hsame, h.entries_pending hs] at hpending
  cases hpending

/-! ## Failures -/

/-- From `w` to `w'` the host has been asked for something, and has refused the last request made. -/
def Refused (w w' : World σ) (e : HostError) : Prop :=
  ∃ new q, w'.events = w.events ++ (new ++ [.requested q (.refused e)])

theorem Refused.after {w₀ : World σ} {e : HostError} {new : List Event}
    (hevents : w.events = w₀.events ++ new) (h : Refused w w' e) : Refused w₀ w' e := by
  obtain ⟨more, q, hmore⟩ := h
  exact ⟨new ++ more, q, by rw [hmore, hevents]; simp⟩

/-- From `w`, the computation has an effect on slots and entries, for which `Q` holds if it has a result.
    If it fails, the host has refused its last request, and the error says so. -/
def TakesEffect (a : Area) (report : ε → SbiError) (Q : α → List CsrSlot → List FenceSlot → Prop)
    (x : Act (World σ) ε α) (w : World σ) : Prop :=
  ∃ slots entries, Applies a slots entries w (x.run w).2 ∧
    (∀ b w', x.run w = (.ok b, w') → Q b slots entries) ∧
    ∀ e w', x.run w = (.error e, w') → ∃ he, report e = he.sbi ∧ Refused w w' he

namespace TakesEffect

variable {report : ε → SbiError} {Q : α → List CsrSlot → List FenceSlot → Prop}
  {x : Act (World σ) ε α}

/-- The effects of two steps add up. -/
theorem bind {Q' : β → List CsrSlot → List FenceSlot → Prop} {f : α → Act (World σ) ε β}
    (hx : TakesEffect a report Q x w)
    (hf : ∀ b w' slots entries, Q b slots entries → Applies a slots entries w w' →
      TakesEffect a report (fun c more others => Q' c (slots ++ more) (entries ++ others)) (f b) w') :
    TakesEffect a report Q' (x >>= f) w := by
  obtain ⟨slots, entries, happlies, hok, herror⟩ := hx
  unfold TakesEffect
  rw [Act.bind_run]
  rcases hr : x.run w with ⟨r, w'⟩
  rw [hr] at happlies
  cases r with
  | ok b =>
    obtain ⟨more, others, hmore, hok', herror'⟩ := hf b w' slots entries (hok b w' hr) happlies
    refine ⟨slots ++ more, entries ++ others, happlies.trans hmore, hok', fun e w'' he => ?_⟩
    obtain ⟨he', hreport, hrefused⟩ := herror' e w'' he
    obtain ⟨new, hnew, _⟩ := happlies.record
    exact ⟨he', hreport, hrefused.after hnew⟩
  | error e =>
    refine ⟨slots, entries, happlies, fun b w'' hb => ?_, fun e' w'' he => ?_⟩
    · cases hb
    · cases he
      exact herror e w' hr
  | abandoned =>
    refine ⟨slots, entries, happlies, fun b w'' hb => ?_, fun e w'' he => ?_⟩
    · cases hb
    · cases he

theorem mapError {report' : ε' → SbiError} {f : ε → ε'} (hx : TakesEffect a report Q x w)
    (hf : ∀ e, report' (f e) = report e) : TakesEffect a report' Q (Act.mapError f x) w := by
  obtain ⟨slots, entries, happlies, hok, herror⟩ := hx
  refine ⟨slots, entries, ?_, fun b w' hb => hok b w' (Act.run_mapError_ok hb), fun e' w' he => ?_⟩
  · rw [Act.mapError_run_snd]
    exact happlies
  · obtain ⟨e, rfl, hrun⟩ := Act.run_mapError_error he
    obtain ⟨he', hreport, hrefused⟩ := herror e w' hrun
    exact ⟨he', (hf e).trans hreport, hrefused⟩

theorem pure {b : α} (hQ : Q b [] []) (w : World σ) :
    TakesEffect a report Q (Pure.pure b : Act (World σ) ε α) w := by
  refine ⟨[], [], .refl a w, fun c w' hc => ?_, fun e w' he => ?_⟩
  · cases hc
    exact hQ
  · cases he

/-- A request that is not for a fence has no effect. -/
theorem request (hquiet : env.Quiet) {q : Request} (hq : q.fence? = none) (w : World σ) :
    TakesEffect a HostError.sbi (fun _ slots entries => slots = [] ∧ entries = []) (env.request q) w := by
  refine ⟨[], [], .of_reaches hquiet (Env.request_moves hq w), fun _ _ _ => ⟨rfl, rfl⟩,
    fun e w' he => ?_⟩
  rw [World.request_run] at he
  cases hreply : (env.host q w.state w.memory).1 with
  | done v =>
    rw [hreply] at he
    cases he
  | lost =>
    rw [hreply] at he
    cases he
  | refused he' =>
    rw [hreply] at he
    cases he
    exact ⟨_, rfl, [], q, rfl⟩

end TakesEffect

/-! ## Slots, fences and trap returns -/

/-- How far a scan has come: the items done, and what is on record after them. -/
theorem Env.scan_split (hquiet : env.Quiet) (task : ι → Task) (items : List ι) (w : World σ) :
    ∃ done rest new more, items = done ++ rest ∧ CarriedOut task done new ∧
      ((env.scan task items).run w).2.events = w.events ++ (new ++ more) ∧ requestsDone more = [] ∧
      ((env.scan task items).run w).2.memory = finishAll task done w.memory ∧
      (∀ n w', (env.scan task items).run w = (.ok n, w') → rest = [] ∧ n = done.length) ∧
      ∀ e w', (env.scan task items).run w = (.error e, w') →
        rest ≠ [] ∧ ∃ q, more = [.requested q (.refused e)] := by
  obtain ⟨new, hevents, hprogress⟩ := Env.scan_progress hquiet task items w
  generalize (env.scan task items).run w = out at hevents hprogress ⊢
  obtain ⟨o, w'⟩ := out
  dsimp only at hevents hprogress ⊢
  generalize w'.memory = m' at hprogress ⊢
  cases hprogress with
  | finished hdone =>
    refine ⟨items, [], new, [], by simp, hdone, by simpa using hevents, rfl, rfl, ?_, ?_⟩
    · rintro n _ ⟨⟩
      exact ⟨rfl, rfl⟩
    · rintro e _ ⟨⟩
  | @refused done rest i before e hsplit hdone =>
    refine ⟨done, i :: rest, before, _, hsplit, hdone, hevents, rfl, rfl, ?_, ?_⟩
    · rintro n _ ⟨⟩
    · rintro e _ ⟨⟩
      exact ⟨List.cons_ne_nil i rest, _, rfl⟩
  | @lost done rest i before hsplit hdone =>
    refine ⟨done, i :: rest, before, _, hsplit, hdone, hevents, rfl, rfl, ?_, ?_⟩
    · rintro n _ ⟨⟩
    · rintro e _ ⟨⟩

section
variable (hquiet : env.Quiet)
include hquiet

/-- **Applying slots takes effect on them,** and the result is their number. -/
theorem Env.applySlots_takesEffect {slots : List CsrSlot}
    (hvalid : ∀ s ∈ slots, a.SlotValid w.memory s) (hnodup : slots.Nodup)
    (hdirty : ∀ s ∈ slots, a.isDirty w.memory s = true) :
    TakesEffect a SyncError.sbi
      (fun n applied entries => applied = slots ∧ entries = [] ∧ n = slots.length)
      (env.applySlots a slots) w := by
  have hrun := Env.applySlots_run hquiet hvalid w fun _ => rfl
  obtain ⟨done, rest, new, more, hsplit, hdone, hevents, hmore, hmemory, hok, herror⟩ :=
    Env.scan_split hquiet (a.slotTask w.memory) slots w
  have hsub : done.Sublist slots := hsplit ▸ List.sublist_append_left _ _
  have happlies := Applies.of_slots (hnodup.sublist hsub) (fun s hs => hdirty s (hsub.subset hs)) hdone
    hevents hmore hmemory
  unfold TakesEffect
  rw [hrun]
  refine ⟨done, [], ?_, fun n w' hn => ?_, fun e w' he => ?_⟩
  · rw [Act.mapError_run_snd]
    exact happlies
  · obtain ⟨rfl, rfl⟩ := hok n w' (Act.run_mapError_ok hn)
    rw [List.append_nil] at hsplit
    exact ⟨hsplit.symm, rfl, by rw [hsplit]⟩
  · obtain ⟨he', rfl, hfailed⟩ := Act.run_mapError_error he
    obtain ⟨_, q, rfl⟩ := herror he' w' hfailed
    rw [hfailed] at hevents
    exact ⟨he', rfl, new, q, hevents⟩

/-- How far performing captured fences comes. -/
theorem Env.performFences_split {slots : List FenceSlot} (hslots : slots.Nodup)
    (hsame : ∀ s, a.fence? w.memory s = a.fence? m s) :
    ∃ done rest, a.fencesAt m slots = done ++ rest ∧
      Applies a [] (done.map PendingFence.slot) w
        ((env.performFences a (a.fencesAt m slots)).run w).2 ∧
      (∀ n w', (env.performFences a (a.fencesAt m slots)).run w = (.ok n, w') →
        rest = [] ∧ n = done.length) ∧
      ∀ e w', (env.performFences a (a.fencesAt m slots)).run w = (.error e, w') →
        rest ≠ [] ∧ ∃ he, e = .host he ∧ Refused w w' he := by
  obtain ⟨done, rest, new, more, hsplit, hdone, hevents, hmore, hmemory, hok, herror⟩ :=
    Env.scan_split hquiet (PendingFence.task a) (a.fencesAt m slots) w
  have hsub : done.Sublist (a.fencesAt m slots) := hsplit ▸ List.sublist_append_left _ _
  have happlies := Applies.of_fences
    (fun p hp => (hsame p.slot).trans (Area.fence?_of_mem_fencesAt (hsub.subset hp)))
    ((a.fencesAt_slots_nodup hslots).sublist (hsub.map _)) hdone hevents hmore hmemory
  rw [Env.performFences_eq]
  refine ⟨done, rest, hsplit, ?_, fun n w' hn => hok n w' (Act.run_mapError_ok hn), fun e w' he => ?_⟩
  · rw [Act.mapError_run_snd]
    exact happlies
  · obtain ⟨he', rfl, hfailed⟩ := Act.run_mapError_error he
    obtain ⟨hrest, q, rfl⟩ := herror he' w' hfailed
    rw [hfailed] at hevents
    exact ⟨hrest, he', rfl, new, q, hevents⟩

/-- **Performing captured fences takes effect on their entries,** and the result is their number. -/
theorem Env.performFences_takesEffect {slots : List FenceSlot} (hslots : slots.Nodup)
    (hsame : ∀ s, a.fence? w.memory s = a.fence? m s) :
    TakesEffect a FenceError.sbi (fun n applied entries => applied = [] ∧ n = entries.length)
      (env.performFences a (a.fencesAt m slots)) w := by
  obtain ⟨done, rest, _, happlies, hok, herror⟩ := Env.performFences_split hquiet hslots hsame
  refine ⟨[], done.map PendingFence.slot, happlies, fun n w' hn => ⟨rfl, ?_⟩, fun e w' he => ?_⟩
  · rw [List.length_map]
    exact (hok n w' hn).2
  · obtain ⟨_, he', rfl, hrefused⟩ := herror e w' he
    exact ⟨he', rfl, hrefused⟩

/-- Leaving the trap handler takes effect on no slot and no entry. -/
theorem Env.leave_takesEffect (state : TrapReturn) (swap : Option CsrWrite) (w : World σ) :
    TakesEffect a SyncError.sbi (fun _ slots entries => slots = [] ∧ entries = [])
      (env.leave a state swap) w := by
  have hrequest : ∀ q : Request, q.fence? = none → ∀ w : World σ,
      TakesEffect a SyncError.sbi (fun _ slots entries => slots = [] ∧ entries = [])
        ((env.request q).mapError SyncError.host) w :=
    fun q hq w => (TakesEffect.request hquiet hq w).mapError fun _ => rfl
  cases swap with
  | none =>
    refine (hrequest _ rfl w).bind ?_
    rintro _ w₁ _ _ ⟨rfl, rfl⟩ _
    exact .pure ⟨rfl, rfl⟩ w₁
  | some c =>
    refine (hrequest _ rfl w).bind ?_
    rintro old w₁ _ _ ⟨rfl, rfl⟩ _
    refine (hrequest _ rfl w₁).bind ?_
    rintro _ w₂ _ _ ⟨rfl, rfl⟩ _
    refine (hrequest _ rfl w₂).bind ?_
    rintro _ w₃ _ _ ⟨rfl, rfl⟩ _
    refine ⟨[], [], ?_, fun _ _ _ => ⟨rfl, rfl⟩, fun e w' he => ?_⟩
    · refine .of_reaches hquiet (changeMemory_moves (fun m b hb => ?_) w₃)
      refine Memory.read_write_of_ne fun h => hb ?_
      rw [h]
      exact ⟨a.not_inSlots_swapValue, a.not_inFenceList_swapValue⟩
    · cases he

/-- **A trap return takes effect on every dirty slot, and on the pending entries of its plan.** -/
theorem Env.applyReturn_takesEffect {autoswap : Bool} {plan : ReturnPlan}
    (hplan : a.prepareReturn autoswap w.memory = .ok plan) :
    TakesEffect a SyncError.sbi
      (fun summary slots entries => slots = a.dirtySlots w.memory .all ∧
        summary.csrs = slots.length ∧ summary.fences = entries.length)
      (env.applyReturn a plan) w := by
  obtain ⟨_, _, _, hslots, hcheck⟩ := Area.prepareReturn_ok hplan
  have hentries : (if autoswap then FenceSelect.all.slots else []).Nodup := by
    cases autoswap with
    | true => exact FenceSelect.all.slots_nodup
    | false => exact List.nodup_nil
  have happly : TakesEffect a SyncError.sbi
      (fun n applied entries => applied = plan.slots ∧ entries = [] ∧ n = plan.slots.length)
      (env.applySlots a plan.slots) w := by
    refine Env.applySlots_takesEffect hquiet (Area.checkSlots_ok_iff.1 hcheck) ?_ fun s hs => ?_
    · rw [hslots]
      exact a.dirtySlots_nodup w.memory .all
    · rw [hslots] at hs
      exact (Area.mem_dirtySlots.1 hs).2
  refine happly.bind ?_
  rintro n w₁ slots _ ⟨hall, rfl, rfl⟩ happlied
  have hfences : TakesEffect a SyncError.sbi
      (fun n applied entries => applied = [] ∧ n = entries.length)
      ((env.performFences a plan.fences).mapError SyncError.fence) w₁ := by
    rw [Area.prepareReturn_fences hplan]
    refine (Env.performFences_takesEffect hquiet hentries fun s => ?_).mapError fun _ => rfl
    exact Area.fence?_congr (happlied.others s List.not_mem_nil)
  refine hfences.bind ?_
  rintro k w₂ _ entries ⟨rfl, rfl⟩ _
  refine (Env.leave_takesEffect hquiet plan.state plan.swap w₂).bind ?_
  rintro _ w₃ _ _ ⟨rfl, rfl⟩ _
  refine .pure ?_ w₃
  simp [hall, hslots]

end

/-! ## Synchronization calls -/

/-- From `st`, a synchronization call takes effect on the given slots and entries, and `Q` holds of its
    result if it has one. If it fails, it has had no effect, or the host has refused its last request. -/
structure CallTakesEffect (a : Area) (slots : List CsrSlot) (entries : List FenceSlot) (Q : α → Prop)
    (x : Act (Phase × World σ) SyncError α) (st : Phase × World σ) : Prop where
  applies : Applies a slots entries st.2 (x.run st).2.2
  ok : ∀ b st', x.run st = (.ok b, st') → Q b
  error : ∀ e st', x.run st = (.error e, st') →
    slots = [] ∧ entries = [] ∨ ∃ he, e.sbi = he.sbi ∧ Refused st.2 st'.2 he

/-- A call that fails before it is led through the phases has no effect. -/
theorem CallTakesEffect.fail {Q : α → Prop} (e : SyncError) (st : Phase × World σ) :
    CallTakesEffect a [] [] Q (Act.fail e) st where
  applies := .refl a st.2
  ok b st' hb := by cases hb
  error e' st' _ := .inl ⟨rfl, rfl⟩

/-- A synchronization call takes effect as its second phase does. -/
theorem inPhases_takesEffect {Q : α → List CsrSlot → List FenceSlot → Prop}
    {prepare : Memory → Except SyncError β} {apply : β → Act (World σ) SyncError α}
    {st : Phase × World σ}
    (h : ∀ b, prepare st.2.memory = .ok b → TakesEffect a SyncError.sbi Q (apply b) st.2) :
    ∃ slots entries,
      CallTakesEffect a slots entries (fun b => Q b slots entries) (inPhases prepare apply) st := by
  -- without a second phase, nothing happens
  have hnothing : ∀ {x : Act (Phase × World σ) SyncError α} (e : SyncError) (phase : Phase),
      x.run st = (.error e, (phase, st.2)) → ∃ slots entries,
        CallTakesEffect a slots entries (fun b => Q b slots entries) x st := by
    intro x e phase hx
    refine ⟨[], [], ?_, fun b st' hb => ?_, fun e' st' _ => .inl ⟨rfl, rfl⟩⟩
    · rw [hx]
      exact .refl a st.2
    · rw [hx] at hb
      cases hb
  rcases st with ⟨phase, w⟩
  cases phase with
  | checking => exact hnothing (.busy .checking) .checking rfl
  | applying => exact hnothing (.busy .applying) .applying rfl
  | idle =>
    have hrun := inPhases_run_idle prepare apply w
    cases hp : prepare w.memory with
    | error e =>
      rw [hp] at hrun
      exact hnothing e .idle hrun
    | ok b =>
      rw [hp] at hrun
      obtain ⟨slots, entries, happlies, hok, herror⟩ := h b hp
      dsimp only at hrun happlies hok herror
      rcases hr : (apply b).run w with ⟨o, w'⟩
      rw [hr] at hrun happlies
      refine ⟨slots, entries, ?_, fun r st' hb => ?_, fun e st' he => ?_⟩
      · rw [hrun]
        cases o <;> exact happlies
      · rw [hrun] at hb
        cases o with
        | ok r' =>
          cases hb
          exact hok r w' hr
        | error e => cases hb
        | abandoned => cases hb
      · rw [hrun] at he
        cases o with
        | ok r => cases he
        | error e' =>
          cases he
          exact .inr (herror e w' hr)
        | abandoned => cases he

section
variable (hquiet : env.Quiet)
include hquiet

/-- **A call to apply CSRs takes effect on slots only,** and with a result on all that it selects. -/
theorem Env.syncCsrs_takesEffect (mask : SlotMask) (st : Phase × World σ) :
    ∃ slots, CallTakesEffect a slots []
      (fun n => slots = a.dirtySlots st.2.memory mask ∧ n = slots.length) (env.syncCsrs a mask) st := by
  have hphases : ∃ slots entries, CallTakesEffect a slots entries
      (fun n => slots = a.dirtySlots st.2.memory mask ∧ n = slots.length) (env.syncCsrs a mask) st := by
    refine inPhases_takesEffect
      (Q := fun n slots _ => slots = a.dirtySlots st.2.memory mask ∧ n = slots.length) fun slots h => ?_
    obtain ⟨rfl, hcheck⟩ := Area.of_prepareCsrs h
    have hslots := Env.applySlots_takesEffect hquiet (Area.checkSlots_ok_iff.1 hcheck)
      (a.dirtySlots_nodup st.2.memory mask) fun s hs => (Area.mem_dirtySlots.1 hs).2
    obtain ⟨applied, entries, happlies, hok, herror⟩ := hslots
    refine ⟨applied, entries, happlies, fun n w' hn => ?_, herror⟩
    obtain ⟨rfl, _, rfl⟩ := hok n w' hn
    exact ⟨rfl, rfl⟩
  obtain ⟨slots, entries, heffect⟩ := hphases
  have hbitmap : Reaches env (fun _ => True) (fun b => ∃ i, b = a.bitmapBase i) st.2
      ((env.syncCsrs a mask).run st).2.2 :=
    Env.syncCsrs_reaches (fun _ _ _ _ => trivial) (fun i => ⟨i, rfl⟩) mask st
  obtain rfl : entries = [] := by
    refine heffect.applies.entries_eq_nil (Area.fenceEntry_congr fun b hb => ?_)
    refine hbitmap.read_eq hquiet ?_
    rintro ⟨i, rfl⟩
    exact a.not_inFenceList_bitmapBase i hb
  exact ⟨slots, heffect⟩

/-- **A call to perform fences takes effect on entries only.** -/
theorem Env.syncHfences_takesEffect (index : Word) (st : Phase × World σ) :
    ∃ entries, CallTakesEffect a [] entries (fun n => n = entries.length) (env.syncHfences a index) st := by
  have hphases : ∃ slots entries, CallTakesEffect a slots entries (fun n => n = entries.length)
      (env.syncHfences a index) st := by
    refine inPhases_takesEffect (Q := fun n _ entries => n = entries.length) fun fences h => ?_
    obtain ⟨select, _, hpending⟩ := Area.of_prepareFences h
    rw [Area.pendingFences_eq hpending]
    have hfences := Env.performFences_takesEffect hquiet (a := a) (w := st.2) select.slots_nodup
      fun _ => rfl
    have hreported : TakesEffect a SyncError.sbi (fun n applied entries =>
        applied = [] ∧ n = entries.length)
        ((env.performFences a (a.fencesAt st.2.memory select.slots)).mapError .fence) st.2 :=
      hfences.mapError fun _ => rfl
    obtain ⟨applied, entries, happlies, hok, herror⟩ := hreported
    exact ⟨applied, entries, happlies, fun n w' hn => (hok n w' hn).2, herror⟩
  obtain ⟨slots, entries, heffect⟩ := hphases
  have hlist : Reaches env (fun _ => True) (fun b => ∃ s, b = a.fenceBase s) st.2
      ((env.syncHfences a index).run st).2.2 :=
    Env.syncHfences_reaches (fun s => ⟨s, rfl⟩) (fun _ _ => trivial) index st
  obtain rfl : slots = [] := by
    refine heffect.applies.slots_eq_nil (Area.isDirty_congr fun b hb => ?_)
    refine hlist.read_eq hquiet ?_
    rintro ⟨s, rfl⟩
    exact a.not_inSlots_fenceBase s hb
  exact ⟨entries, heffect⟩

/-- **A trap return takes effect on both,** and with a result on every dirty slot. -/
theorem Env.syncReturn_takesEffect (flags : Word) (caller : Privilege) (enabled : Bool)
    (st : Phase × World σ) :
    ∃ slots entries, CallTakesEffect a slots entries
      (fun summary : ReturnSummary => slots = a.dirtySlots st.2.memory .all ∧ summary.csrs = slots.length ∧
        summary.fences = entries.length)
      (env.syncReturn a flags caller enabled) st := by
  rcases env.syncReturn_cases a flags caller enabled with ⟨e, _, he⟩ | hphases
  · rw [he]
    exact ⟨[], [], .fail e st⟩
  · rw [hphases]
    exact inPhases_takesEffect
      (Q := fun (summary : ReturnSummary) slots entries => slots = a.dirtySlots st.2.memory .all ∧
        summary.csrs = slots.length ∧ summary.fences = entries.length)
      fun plan h => Env.applyReturn_takesEffect hquiet h

end

end

end NestedAccel
