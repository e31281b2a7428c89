import NestedAccel.Proofs.Scan

/-!
# `NestedAccel.Proofs.Retry` — calls that fail half way and are made again

When the host refuses a write, the call to apply CSRs ends there. The slots before the one refused have
been applied and are no longer dirty; that slot and the ones after it still are. So the same call, made
again, goes on where the last one has stopped.

`FailedCalls` is any number of calls with one mask that have all ended in an error, for whatever reasons
the host may have had. The invariant that carries the induction is that the slots selected at the start
have been cut in two (`Interrupted`): the first part has been applied and the second has not been touched.
A further call is a scan of the second part, and moves the cut. It follows that **across all the calls each
register is written exactly once and in order**, as by one call that never fails (`Env.retried_once`).
-/

namespace NestedAccel

variable {σ : Type}

/-- The world `w₁` comes out of `w` by any number of calls to apply the CSRs selected by `mask`, all of
    which have failed. Between the calls the host changes its state as it likes. -/
inductive FailedCalls (env : Env σ) (a : Area) (mask : SlotMask) (w : World σ) : World σ → Prop where
  | none : FailedCalls env a mask w w
  | again {w₁ w₂ : World σ} {e : SyncError} (h : FailedCalls env a mask w w₁) (state : σ)
    (hrun : (env.syncCsrs a mask).run (.idle, { w₁ with state }) = (.error e, (.idle, w₂))) :
    FailedCalls env a mask w w₂

/-- What a call leaves behind that the host has stopped with error `e` at slot `f`: of the selected slots
    that were dirty in `w`, those before `f` have been applied. -/
structure StoppedAt (a : Area) (mask : SlotMask) (w w₂ : World σ) (f : CsrSlot) (e : HostError) :
    Prop where
  selected : mask.selects f = true
  dirty : a.isDirty w.memory f = true
  /-- The write of slot `f` is the one that was refused. -/
  last : w₂.events.getLast? =
    some (.requested (.writeCsr (a.slotUpdate w.memory f)) (.refused e))
  remaining : ∀ s, mask.selects s = true →
    (a.isDirty w₂.memory s = true ↔ a.isDirty w.memory s = true ∧ f ≤ s)
  unselected : ∀ s, mask.selects s = false → a.isDirty w₂.memory s = a.isDirty w.memory s

variable {env : Env σ} {a : Area} {mask : SlotMask} {w w₁ w₂ : World σ} {done rest : List CsrSlot}

/-! ## Interrupted scans -/

/-- Of the selected slots that were dirty in `w`, the first ones have been applied, and the others have
    not. -/
structure Interrupted (a : Area) (mask : SlotMask) (w w₁ : World σ) (done rest : List CsrSlot) :
    Prop where
  split : a.dirtySlots w.memory mask = done ++ rest
  memory : w₁.memory = finishAll (a.slotTask w.memory) done w.memory
  record : ∃ new, w₁.events = w.events ++ new ∧
    requestsDone new = done.map fun s => .writeCsr (a.slotUpdate w.memory s)

namespace Interrupted

theorem start (a : Area) (mask : SlotMask) (w : World σ) :
    Interrupted a mask w w [] (a.dirtySlots w.memory mask) :=
  ⟨(List.nil_append _).symm, rfl, [], (List.append_nil _).symm, rfl⟩

/-- Only memory and the record matter. -/
theorem withState (h : Interrupted a mask w w₁ done rest) (state : σ) :
    Interrupted a mask w { w₁ with state } done rest :=
  ⟨h.split, h.memory, h.record⟩

theorem isDirty_eq (h : Interrupted a mask w w₁ done rest) (s : CsrSlot) :
    a.isDirty w₁.memory s = (a.isDirty w.memory s && !decide (s ∈ done)) := by
  rw [h.memory, Area.isDirty_finishAll]

/-- The second part is what another call finds to apply. -/
theorem dirtySlots_eq (h : Interrupted a mask w w₁ done rest) :
    a.dirtySlots w₁.memory mask = rest := by
  have hsorted := a.dirtySlots_pairwise w.memory mask
  rw [h.split, List.pairwise_append] at hsorted
  obtain ⟨_, hrest, hbefore⟩ := hsorted
  refine (Area.eq_dirtySlots hrest fun s => ?_).symm
  have hmem : mask.selects s = true ∧ a.isDirty w.memory s = true ↔ s ∈ done ∨ s ∈ rest := by
    rw [← Area.mem_dirtySlots, h.split, List.mem_append]
  have hdisjoint : s ∈ rest → s ∉ done := fun hs hs' => lt_irrefl s (hbefore s hs' s hs)
  rw [h.isDirty_eq, Bool.and_eq_true, Bool.not_eq_true', decide_eq_false_iff_not, ← and_assoc, hmem]
  constructor
  · exact fun hs => ⟨.inr hs, hdisjoint hs⟩
  · exact fun hs => hs.1.resolve_left hs.2

theorem slotTask_eq (h : Interrupted a mask w w₁ done rest) :
    a.slotTask w₁.memory = a.slotTask w.memory := by
  rw [h.memory, Area.slotTask_finishAll]

theorem selectedValid (h : Interrupted a mask w w₁ done rest)
    (hvalid : a.SelectedValid w.memory mask) : a.SelectedValid w₁.memory mask := by
  rw [h.memory]
  exact hvalid.finishAll w.memory done

/-- **Another call goes on with the second part.** -/
theorem run (hquiet : env.Quiet) (hmask : mask.exceeds Csr.span = false)
    (hvalid : a.SelectedValid w.memory mask) (h : Interrupted a mask w w₁ done rest) :
    (env.syncCsrs a mask).run (.idle, w₁) =
      endCall ((env.scan (a.slotTask w.memory) rest).run w₁) := by
  rw [Env.syncCsrs_run hquiet hmask (h.selectedValid hvalid), h.dirtySlots_eq, h.slotTask_eq]

/-- The cut moves past the slots that have been applied since. -/
theorem extend {more : List CsrSlot} {before new : List Event}
    (h : Interrupted a mask w w₁ done (more ++ rest))
    (hdone : CarriedOut (a.slotTask w.memory) more before) (hnew : requestsDone new = requestsDone before)
    (hevents : w₂.events = w₁.events ++ new)
    (hmemory : w₂.memory = finishAll (a.slotTask w.memory) more w₁.memory) :
    Interrupted a mask w w₂ (done ++ more) rest := by
  obtain ⟨old, hold, hdoneOld⟩ := h.record
  refine ⟨by rw [h.split, List.append_assoc], ?_, old ++ new, ?_, ?_⟩
  · rw [hmemory, h.memory, finishAll_append]
  · rw [hevents, hold, List.append_assoc]
  · rw [requestsDone_append, hnew, hdoneOld, hdone.requestsDone, List.map_append]
    rfl

/-- A call that fails has been stopped at one of the remaining slots, and has moved the cut there. -/
theorem of_error (hquiet : env.Quiet) (hmask : mask.exceeds Csr.span = false)
    (hvalid : a.SelectedValid w.memory mask) (h : Interrupted a mask w w₁ done rest) {e : SyncError}
    {st : Phase × World σ} (hrun : (env.syncCsrs a mask).run (.idle, w₁) = (.error e, st)) :
    ∃ e' f before after, e = .host e' ∧ st.1 = .idle ∧
      Interrupted a mask w st.2 (done ++ before) (f :: after) ∧
      st.2.events.getLast? =
        some (.requested (.writeCsr (a.slotUpdate w.memory f)) (.refused e')) := by
  obtain ⟨new, hevents, hprogress⟩ := Env.scan_progress hquiet (a.slotTask w.memory) rest w₁
  rw [h.run hquiet hmask hvalid] at hrun
  rcases hscan : (env.scan (a.slotTask w.memory) rest).run w₁ with ⟨n | e' | _, w'⟩
  · rw [hscan] at hrun
    cases hrun
  · rw [hscan] at hrun hevents hprogress
    cases hrun
    obtain ⟨before, f, after, done', rfl, hdone, rfl, hmemory⟩ := hprogress.of_error
    refine ⟨e', f, before, after, rfl, rfl, h.extend hdone ?_ hevents hmemory, ?_⟩
    · rw [requestsDone_append]
      exact List.append_nil _
    · dsimp only at hevents ⊢
      rw [hevents, ← List.append_assoc, List.getLast?_concat]
      rfl
  · rw [hscan] at hrun
    cases hrun

/-- A call that succeeds has applied all the remaining slots. -/
theorem of_ok (hquiet : env.Quiet) (hmask : mask.exceeds Csr.span = false)
    (hvalid : a.SelectedValid w.memory mask) (h : Interrupted a mask w w₁ done rest) {n : Nat}
    {st : Phase × World σ} (hrun : (env.syncCsrs a mask).run (.idle, w₁) = (.ok n, st)) :
    ∃ new, st.2.events = w₁.events ++ new ∧
      requestsDone new = rest.map (fun s => .writeCsr (a.slotUpdate w.memory s)) ∧
      n = (requestsDone new).length := by
  obtain ⟨new, hevents, hprogress⟩ := Env.scan_progress hquiet (a.slotTask w.memory) rest w₁
  rw [h.run hquiet hmask hvalid] at hrun
  rcases hscan : (env.scan (a.slotTask w.memory) rest).run w₁ with ⟨k | e' | _, w'⟩
  · rw [hscan] at hrun hevents hprogress
    cases hrun
    obtain ⟨rfl, hdone, _⟩ := hprogress.of_ok
    refine ⟨new, hevents, hdone.requestsDone, ?_⟩
    rw [hdone.requestsDone, List.length_map]
  · rw [hscan] at hrun
    cases hrun
  · rw [hscan] at hrun
    cases hrun

/-- The slots that are still dirty are those from the cut on. -/
theorem stoppedAt {f : CsrSlot} {after : List CsrSlot} {e : HostError}
    (h : Interrupted a mask w w₁ done (f :: after))
    (hlast : w₁.events.getLast? =
      some (.requested (.writeCsr (a.slotUpdate w.memory f)) (.refused e))) :
    StoppedAt a mask w w₁ f e := by
  have hsorted := a.dirtySlots_pairwise w.memory mask
  rw [h.split, List.pairwise_append, List.pairwise_cons] at hsorted
  obtain ⟨_, ⟨hafter, _⟩, hbefore⟩ := hsorted
  have hmem : ∀ s, s ∈ a.dirtySlots w.memory mask ↔ s ∈ done ∨ s = f ∨ s ∈ after := by
    intro s
    rw [h.split, List.mem_append, List.mem_cons]
  obtain ⟨hselected, hdirty⟩ := Area.mem_dirtySlots.1 ((hmem f).2 (.inr (.inl rfl)))
  refine ⟨hselected, hdirty, hlast, ?_, ?_⟩
  · intro s hs
    rw [h.isDirty_eq, Bool.and_eq_true, Bool.not_eq_true', decide_eq_false_iff_not]
    refine and_congr_right fun hd => ?_
    constructor
    · intro hnot
      rcases (hmem s).1 (Area.mem_dirtySlots.2 ⟨hs, hd⟩) with hs' | rfl | hs'
      · exact absurd hs' hnot
      · exact le_refl s
      · exact le_of_lt (hafter s hs')
    · exact fun hle hs' => absurd (hbefore s hs' f List.mem_cons_self) (not_lt.2 hle)
  · intro s hs
    have hnot : s ∉ done := by
      intro hs'
      rw [(Area.mem_dirtySlots.1 ((hmem s).2 (.inl hs'))).1] at hs
      cases hs
    rw [h.isDirty_eq, decide_eq_false hnot, Bool.not_false, Bool.and_true]

end Interrupted

/-- Any number of failed calls have cut the slots in two. -/
theorem FailedCalls.interrupted (hquiet : env.Quiet) (hmask : mask.exceeds Csr.span = false)
    (hvalid : a.SelectedValid w.memory mask) (h : FailedCalls env a mask w w₁) :
    ∃ done rest, Interrupted a mask w w₁ done rest := by
  induction h with
  | none => exact ⟨_, _, .start a mask w⟩
  | again _ state hrun ih =>
    obtain ⟨done, rest, hcut⟩ := ih
    obtain ⟨_, _, _, _, _, _, hcut', _⟩ := (hcut.withState state).of_error hquiet hmask hvalid hrun
    exact ⟨_, _, hcut'⟩

/-! ## Each write once -/

/-- A value that passes is written to a register whose slot it is in. -/
theorem Area.SlotValid.ofCsr_csr {m : Memory} {s : CsrSlot} (h : a.SlotValid m s) :
    CsrSlot.ofCsr (a.slotUpdate m s).csr = s := by
  unfold Area.SlotValid Check.slotWrite at h
  cases he : Csr.entryAt? s with
  | none =>
    rw [he] at h
    cases h
  | some e =>
    rw [he] at h
    rw [Check.write_csr h]
    exact Csr.slot_of_entryAt? he

/-- Slots with values that pass belong to different registers. -/
theorem Area.csr_injOn {m : Memory} {s t : CsrSlot} (hs : a.SlotValid m s) (ht : a.SlotValid m t)
    (h : (a.slotUpdate m s).csr = (a.slotUpdate m t).csr) : s = t := by
  rw [← hs.ofCsr_csr, ← ht.ofCsr_csr, h]

theorem Area.slotUpdate_injOn {m : Memory} {s t : CsrSlot} (hs : a.SlotValid m s)
    (ht : a.SlotValid m t) (h : a.slotUpdate m s = a.slotUpdate m t) : s = t :=
  Area.csr_injOn hs ht (congrArg CsrWrite.csr h)

/-- The writes that a call has to make. -/
theorem Area.writes_nodup (hvalid : a.SelectedValid w.memory mask) :
    ((a.dirtySlots w.memory mask).map fun s =>
      Request.writeCsr (a.slotUpdate w.memory s)).Nodup := by
  refine List.Nodup.map_on (fun s hs t ht heq => ?_) (a.dirtySlots_nodup w.memory mask)
  exact Area.slotUpdate_injOn (hvalid.mem_dirtySlots s hs) (hvalid.mem_dirtySlots t ht)
    (Request.writeCsr.inj heq)

/-- **Calls that are made again apply each CSR exactly once.** Any number of calls with the same mask have
    failed. If the next one fails as well, it is for one slot that the host has refused: of the selected
    slots, that one and the ones after it are still dirty, the ones before it are not, and slots that are
    not selected are as they were. If it succeeds, the writes that the host has carried out over all the
    calls are, in order and without repetition, those of a single call that never fails, and the result
    counts the ones of this call. -/
theorem Env.retried_once (hquiet : env.Quiet) (hmask : mask.exceeds Csr.span = false)
    (hvalid : a.SelectedValid w.memory mask) (h : FailedCalls env a mask w w₁) (state : σ) :
    let next := (env.syncCsrs a mask).run (.idle, { w₁ with state })
    let writes := (a.dirtySlots w.memory mask).map fun s =>
      Request.writeCsr (a.slotUpdate w.memory s)
    (∀ e st, next = (.error e, st) →
      st.1 = .idle ∧ ∃ f e', e = .host e' ∧ StoppedAt a mask w st.2 f e') ∧
    (∀ n st, next = (.ok n, st) →
      ∃ old new, w₁.events = w.events ++ old ∧ st.2.events = w₁.events ++ new ∧
        requestsDone old ++ requestsDone new = writes ∧ n = (requestsDone new).length) ∧
    writes.Nodup ∧
    ∀ {τ : Type} (env' : Env τ) (w' : World τ), env'.Quiet → env'.NeverFails →
      w'.memory = w.memory →
      ∃ st new, (env'.syncCsrs a mask).run (.idle, w') = (.ok writes.length, st) ∧
        st.2.events = w'.events ++ new ∧ requestsDone new = writes := by
  intro next writes
  obtain ⟨done, rest, hcut⟩ := h.interrupted hquiet hmask hvalid
  have hcut' := hcut.withState state
  refine ⟨?_, ?_, Area.writes_nodup hvalid, ?_⟩
  · intro e st hrun
    obtain ⟨e', f, before, after, he, hphase, hstopped, hlast⟩ :=
      hcut'.of_error hquiet hmask hvalid hrun
    exact ⟨hphase, f, e', he, hstopped.stoppedAt hlast⟩
  · intro n st hrun
    obtain ⟨old, hold, hdoneOld⟩ := hcut.record
    obtain ⟨new, hnew, hdoneNew, hn⟩ := hcut'.of_ok hquiet hmask hvalid hrun
    refine ⟨old, new, hold, hnew, ?_, hn⟩
    rw [hdoneOld, hdoneNew, ← List.map_append, ← hcut.split]
  · intro τ env' w' hquiet' hnever hsame
    have hsingle : writes.length = (a.dirtySlots w'.memory mask).length := by
      rw [hsame, List.length_map]
    have hvalid' : a.SelectedValid w'.memory mask := hsame ▸ hvalid
    have hresult := hnever.scan_run (a.slotTask w'.memory) (a.dirtySlots w'.memory mask) w'
    have hrun : ∃ st, (env'.syncCsrs a mask).run (.idle, w') = (.ok writes.length, st) := by
      rw [Env.syncCsrs_run hquiet' hmask hvalid', hsingle]
      rcases hscan : (env'.scan (a.slotTask w'.memory) (a.dirtySlots w'.memory mask)).run w' with ⟨r, w''⟩
      rw [hscan] at hresult
      subst hresult
      exact ⟨_, rfl⟩
    obtain ⟨st, hrun⟩ := hrun
    obtain ⟨new, hevents, hdone, _⟩ :=
      (Interrupted.start a mask w').of_ok hquiet' hmask hvalid' hrun
    rw [hsame] at hdone
    exact ⟨st, new, hrun, hevents, hdone⟩

/-- Of three writes the host refuses the second. The next call makes it and the third. -/
theorem Env.retried_once_second_refused :
    let a := Area.ofGuest 0x80000000
    let m := a.writeCsr CsrNumber.vstvec 4 (a.writeCsr CsrNumber.hcounteren 7
      (a.writeCsr CsrNumber.vsscratch 1 .zero))
    let call := (Env.refusing 1).syncCsrs a .all
    ∃ w₁ st, call.run (.idle, { state := 0, memory := m }) = (.error (.host .io), (.idle, w₁)) ∧
      call.run (.idle, w₁) = (.ok 2, st) ∧
      requestsDone st.2.events = [.writeCsr ⟨CsrNumber.vstvec, 4⟩,
        .writeCsr ⟨CsrNumber.vsscratch, 1⟩, .writeCsr ⟨CsrNumber.hcounteren, 7⟩] := by
  intro a m call
  let w : World Nat := { state := 0, memory := m }
  have hvalid : ∀ s, a.isDirty m s = true →
      Check.slotWrite s (a.slotValue m s) = .ok (a.slotUpdate m s) := by decide +kernel
  have hwrites : (a.dirtySlots m .all).map (fun s => Request.writeCsr (a.slotUpdate m s)) =
      [.writeCsr ⟨CsrNumber.vstvec, 4⟩, .writeCsr ⟨CsrNumber.vsscratch, 1⟩,
        .writeCsr ⟨CsrNumber.hcounteren, 7⟩] := by decide +kernel
  have hfirst : (call.run (.idle, w)).1 = .error (.host .io) := by decide +kernel
  have hidle : (call.run (.idle, w)).2.1 = .idle := by decide +kernel
  have hsecond : (call.run (.idle, (call.run (.idle, w)).2.2)).1 = .ok 2 := by decide +kernel
  rcases hrun : call.run (.idle, w) with ⟨o, phase, w₁⟩
  rw [hrun] at hfirst hidle hsecond
  cases hfirst
  cases hidle
  rcases hagain : call.run (.idle, w₁) with ⟨o', st⟩
  rw [hagain] at hsecond
  cases hsecond
  refine ⟨w₁, st, rfl, hagain, ?_⟩
  obtain ⟨_, hok, _⟩ := Env.retried_once (w := w) (Env.refusing_quiet 1) (by decide)
    (fun s _ hs => hvalid s hs) (.again .none 0 hrun) w₁.state
  obtain ⟨old, new, hold, hnew, hdone, _⟩ := hok 2 st hagain
  rw [hnew, hold, requestsDone_append, requestsDone_append, List.append_assoc, hdone]
  exact hwrites

end NestedAccel
