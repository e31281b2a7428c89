import Mathlib.Data.List.Dedup
import Mathlib.Data.List.Induction
import Mathlib.Logic.Function.Basic
import NestedAccel.Proofs.Handle
import NestedAccel.Proofs.Scan

/-!
# `NestedAccel.Proofs.DeferredWrites` — deferred writes are writes

The guest hypervisor writes a register by storing the value in the shared area and marking the slot. No
host sees that until a call has every marked slot applied. This module shows that the detour through the
area makes no difference: after any sequence of such writes, **one call leaves the host's registers as
the writes themselves would have left them** (`Hart.handle_syncCsr_deferred`), although the host receives
one write per register only.

Three views of a sequence of writes meet here. `lastValue?` says what it comes to for one register.
`writeAll` is what it does to a register file. `Condenses` relates it to the shorter sequence that the
host receives, and that sequence comes to the same.
-/

namespace NestedAccel

variable {σ : Type}

/-! ## Sequences of writes -/

/-- The last value that the writes give to register `n`. -/
def lastValue? (ws : List CsrWrite) (n : CsrNumber) : Option Word :=
  (ws.reverse.find? fun c => c.csr == n).map CsrWrite.value

/-- A register file after the writes have been made one by one. -/
def writeAll (ws : List CsrWrite) (f : CsrNumber → Word) : CsrNumber → Word :=
  ws.foldl (fun f c => Function.update f c.csr c.value) f

variable {ws : List CsrWrite} {n : CsrNumber} {v : Word}

theorem lastValue?_concat (ws : List CsrWrite) (c : CsrWrite) (n : CsrNumber) :
    lastValue? (ws ++ [c]) n = if c.csr = n then some c.value else lastValue? ws n := by
  unfold lastValue?
  rw [List.reverse_append, List.reverse_singleton, List.singleton_append, List.find?_cons]
  by_cases h : c.csr = n
  · rw [if_pos h, beq_iff_eq.2 h]
    rfl
  · rw [if_neg h, beq_eq_false_iff_ne.2 h]

theorem mem_of_lastValue? (h : lastValue? ws n = some v) : ⟨n, v⟩ ∈ ws := by
  obtain ⟨c, hc, rfl⟩ := Option.map_eq_some_iff.1 h
  have hn : c.csr = n := by simpa using List.find?_some hc
  rw [← hn]
  exact List.mem_reverse.1 (List.mem_of_find?_eq_some hc)

theorem lastValue?_eq_none : lastValue? ws n = none ↔ ∀ c ∈ ws, c.csr ≠ n := by
  simp [lastValue?]

/-- Every register written has a last value. -/
theorem exists_lastValue? {c : CsrWrite} (hc : c ∈ ws) : ∃ v, lastValue? ws c.csr = some v := by
  cases h : lastValue? ws c.csr with
  | some v => exact ⟨v, rfl⟩
  | none => exact absurd rfl (lastValue?_eq_none.1 h c hc)

/-- **The last write to a register decides.** -/
theorem writeAll_apply (ws : List CsrWrite) (f : CsrNumber → Word) (n : CsrNumber) :
    writeAll ws f n = (lastValue? ws n).getD (f n) := by
  induction ws using List.reverseRecOn with
  | nil => rfl
  | append_singleton ws c ih =>
    unfold writeAll at ih ⊢
    rw [List.foldl_append, List.foldl_cons, List.foldl_nil, lastValue?_concat]
    by_cases h : c.csr = n
    · rw [if_pos h, ← h, Function.update_self, Option.getD_some]
    · rw [if_neg h, Function.update_of_ne (Ne.symm h), ih]

/-! ## Writing each register once -/

/-- The sequence `applied` writes each register of `ws` once, with its last value, in the order of the
    slots. -/
structure Condenses (ws applied : List CsrWrite) : Prop where
  mem : ∀ c, c ∈ applied ↔ lastValue? ws c.csr = some c.value
  ascending : applied.Pairwise fun c d => CsrSlot.ofCsr c.csr < CsrSlot.ofCsr d.csr

namespace Condenses

variable {applied : List CsrWrite}

theorem nodup (h : Condenses ws applied) : (applied.map CsrWrite.csr).Nodup := by
  unfold List.Nodup
  rw [List.pairwise_map]
  refine h.ascending.imp fun hlt heq => ?_
  rw [heq] at hlt
  exact lt_irrefl _ hlt

/-- There are as many writes as there are registers written. -/
theorem length_eq (h : Condenses ws applied) :
    applied.length = (ws.map CsrWrite.csr).dedup.length := by
  have hperm : List.Perm (applied.map CsrWrite.csr) (ws.map CsrWrite.csr).dedup := by
    rw [List.perm_ext_iff_of_nodup h.nodup (List.nodup_dedup _)]
    intro n
    rw [List.mem_dedup, List.mem_map, List.mem_map]
    constructor
    · rintro ⟨c, hc, rfl⟩
      exact ⟨_, mem_of_lastValue? ((h.mem c).1 hc), rfl⟩
    · rintro ⟨c, hc, rfl⟩
      obtain ⟨v, hv⟩ := exists_lastValue? hc
      exact ⟨⟨c.csr, v⟩, (h.mem _).2 hv, rfl⟩
  rw [← hperm.length_eq, List.length_map]

theorem lastValue?_eq (h : Condenses ws applied) (n : CsrNumber) :
    lastValue? applied n = lastValue? ws n := by
  cases ha : lastValue? applied n with
  | some v => exact ((h.mem _).1 (mem_of_lastValue? ha)).symm
  | none =>
    cases hw : lastValue? ws n with
    | none => rfl
    | some v => exact absurd rfl (lastValue?_eq_none.1 ha _ ((h.mem ⟨n, v⟩).2 hw))

end Condenses

/-! ## Writes that are granted -/

/-- The register is one that the guest hypervisor may write. -/
def CsrWrite.Writable (c : CsrWrite) : Prop :=
  ∃ e ∈ Csr.table, e.number = c.csr ∧ e.access = .readWrite

theorem Csr.slot_injOn {e e' : Csr.Entry} (he : e ∈ Csr.table) (he' : e' ∈ Csr.table)
    (h : e.slot = e'.slot) : e = e' :=
  List.inj_on_of_nodup_map Csr.nodup_slots he he' h

/-- Registers that may be written have slots of their own. -/
theorem CsrWrite.Writable.slot_inj {c d : CsrWrite} (hc : c.Writable) (hd : d.Writable)
    (h : CsrSlot.ofCsr c.csr = CsrSlot.ofCsr d.csr) : c.csr = d.csr := by
  obtain ⟨e, he, hec, _⟩ := hc
  obtain ⟨e', he', hed, _⟩ := hd
  rw [← hec, ← hed] at h ⊢
  rw [Csr.slot_injOn he he' h]

/-- A legal value for such a register passes the check of its slot. -/
theorem Check.slotWrite_of_legal {c : CsrWrite} (hc : c.Writable)
    (hlegal : Csr.ValueLegal c.csr c.value) : Check.slotWrite (.ofCsr c.csr) c.value = .ok c := by
  obtain ⟨e, he, hnumber, haccess⟩ := hc
  rw [← hnumber] at hlegal
  unfold Check.slotWrite
  rw [← hnumber, show CsrSlot.ofCsr e.number = e.slot from rfl, Csr.entryAt?_slot he]
  dsimp only [Check.write]
  rw [haccess]
  dsimp only
  rw [if_pos (Csr.allows_of_valueLegal he hlegal), hnumber]

/-! ## The guest's side -/

namespace Area

variable {a : Area} {m : Memory}

/-- Guest memory after the guest hypervisor's writes. -/
def writeCsrs (a : Area) (ws : List CsrWrite) (m : Memory) : Memory :=
  ws.foldl (fun m c => a.writeCsr c.csr c.value m) m

theorem writeCsrs_concat (a : Area) (ws : List CsrWrite) (c : CsrWrite) (m : Memory) :
    a.writeCsrs (ws ++ [c]) m = a.writeCsr c.csr c.value (a.writeCsrs ws m) := by
  unfold writeCsrs
  rw [List.foldl_append, List.foldl_cons, List.foldl_nil]

theorem isDirty_writeCsr (a : Area) (m : Memory) (n : CsrNumber) (v : Word) (s : CsrSlot) :
    a.isDirty (a.writeCsr n v m) s = (a.isDirty m s || decide (CsrSlot.ofCsr n = s)) := by
  have hvalue : a.isDirty (m.write (a.slotBase (.ofCsr n)) v) s = a.isDirty m s := by
    have hne : a.bitmapBase (bitmapIndex s) ≠ a.slotBase (.ofCsr n) := by
      unfold bitmapBase slotBase
      omega
    unfold isDirty dirtyWord
    rw [Memory.read_write_of_ne hne]
  rw [writeCsr, isDirty_setDirty, hvalue]

theorem slotValue_writeCsr (a : Area) (m : Memory) (n : CsrNumber) (v : Word) (s : CsrSlot) :
    a.slotValue (a.writeCsr n v m) s = if CsrSlot.ofCsr n = s then v else a.slotValue m s := by
  have hbase : a.slotBase s = a.slotBase (.ofCsr n) ↔ CsrSlot.ofCsr n = s := by
    unfold slotBase
    rw [Fin.ext_iff]
    omega
  rw [writeCsr, slotValue_setDirty, slotValue, Memory.read_write]
  simp only [hbase]
  rfl

/-- The slots marked are those of the registers written. -/
theorem isDirty_writeCsrs (a : Area) (m : Memory) (ws : List CsrWrite) (s : CsrSlot) :
    a.isDirty (a.writeCsrs ws m) s =
      (a.isDirty m s || ws.any fun c => decide (CsrSlot.ofCsr c.csr = s)) := by
  induction ws using List.reverseRecOn with
  | nil => exact (Bool.or_false _).symm
  | append_singleton ws c ih =>
    rw [writeCsrs_concat, isDirty_writeCsr, ih, List.any_append, List.any_cons, List.any_nil,
      Bool.or_false, Bool.or_assoc]

/-- The slot of a register holds the last value written to it. -/
theorem slotValue_writeCsrs (hws : ∀ c ∈ ws, c.Writable) (h : lastValue? ws n = some v) :
    a.slotValue (a.writeCsrs ws m) (.ofCsr n) = v := by
  induction ws using List.reverseRecOn with
  | nil => cases h
  | append_singleton ws c ih =>
    have hinit : ∀ d ∈ ws, d.Writable := fun d hd => hws d (List.mem_append_left _ hd)
    have hlast : c.Writable := hws c (List.mem_append_right _ (List.mem_singleton_self c))
    rw [lastValue?_concat] at h
    rw [writeCsrs_concat, slotValue_writeCsr]
    by_cases hn : c.csr = n
    · rw [if_pos hn] at h
      rw [if_pos (congrArg _ hn)]
      exact Option.some.inj h
    · rw [if_neg hn] at h
      -- another register, and so another slot
      have hslot : CsrSlot.ofCsr c.csr ≠ CsrSlot.ofCsr n :=
        fun heq => hn (hlast.slot_inj (hinit _ (mem_of_lastValue? h)) heq)
      rw [if_neg hslot]
      exact ih hinit h

/-! ### What is there to apply -/

section
variable (hws : ∀ c ∈ ws, c.Writable)
  (hlegal : ∀ n v, lastValue? ws n = some v → Csr.ValueLegal n v)
include hws hlegal

/-- What is found in the slot of a register that has been written passes, and stands for the last write. -/
theorem slotWrite_writeCsrs (h : lastValue? ws n = some v) :
    Check.slotWrite (.ofCsr n) (a.slotValue (a.writeCsrs ws m) (.ofCsr n)) = .ok ⟨n, v⟩ := by
  have hcheck := Check.slotWrite_of_legal (hws _ (mem_of_lastValue? h)) (hlegal n v h)
  rw [slotValue_writeCsrs hws h]
  exact hcheck

variable (hclean : ∀ s, a.isDirty m s = false)
include hclean

/-- A slot is dirty because the register that it belongs to has been written. -/
theorem exists_of_isDirty_writeCsrs {s : CsrSlot} (hs : a.isDirty (a.writeCsrs ws m) s = true) :
    ∃ c, lastValue? ws c.csr = some c.value ∧ CsrSlot.ofCsr c.csr = s ∧
      Check.slotWrite s (a.slotValue (a.writeCsrs ws m) s) = .ok c := by
  rw [isDirty_writeCsrs, hclean, Bool.false_or, List.any_eq_true] at hs
  obtain ⟨c, hc, hslot⟩ := hs
  obtain ⟨v, hv⟩ := exists_lastValue? hc
  have hslot : CsrSlot.ofCsr c.csr = s := of_decide_eq_true hslot
  subst hslot
  exact ⟨⟨c.csr, v⟩, hv, rfl, slotWrite_writeCsrs hws hlegal hv⟩

theorem selectedValid_writeCsrs (mask : SlotMask) : a.SelectedValid (a.writeCsrs ws m) mask := by
  intro s _ hs
  obtain ⟨c, _, _, hcheck⟩ := exists_of_isDirty_writeCsrs hws hlegal hclean hs
  exact hcheck.trans (congrArg _ (slotUpdate_of_ok hcheck))

/-- **What a call finds to apply are the last writes, in the order of the slots.** -/
theorem condenses_dirtySlots :
    Condenses ws ((a.dirtySlots (a.writeCsrs ws m) .all).map (a.slotUpdate (a.writeCsrs ws m))) := by
  have hslot : ∀ s ∈ a.dirtySlots (a.writeCsrs ws m) .all,
      CsrSlot.ofCsr (a.slotUpdate (a.writeCsrs ws m) s).csr = s := by
    intro s hs
    obtain ⟨c, _, hc, hcheck⟩ := exists_of_isDirty_writeCsrs hws hlegal hclean (mem_dirtySlots.1 hs).2
    rw [← slotUpdate_of_ok hcheck]
    exact hc
  constructor
  · intro c
    rw [List.mem_map]
    constructor
    · rintro ⟨s, hs, rfl⟩
      obtain ⟨d, hd, _, hcheck⟩ := exists_of_isDirty_writeCsrs hws hlegal hclean (mem_dirtySlots.1 hs).2
      rw [← slotUpdate_of_ok hcheck]
      exact hd
    · intro hc
      have hdirty : a.isDirty (a.writeCsrs ws m) (.ofCsr c.csr) = true := by
        rw [isDirty_writeCsrs, Bool.or_eq_true, List.any_eq_true]
        exact .inr ⟨c, mem_of_lastValue? hc, decide_eq_true rfl⟩
      refine ⟨.ofCsr c.csr, mem_dirtySlots.2 ⟨selects_all _, hdirty⟩, ?_⟩
      exact (slotUpdate_of_ok (slotWrite_writeCsrs hws hlegal hc)).symm
  · rw [List.pairwise_map]
    refine List.Pairwise.imp_of_mem (fun hs ht hlt => ?_) (a.dirtySlots_pairwise _ _)
    rw [hslot _ hs, hslot _ ht]
    exact hlt

end

end Area

/-! ## The host's side -/

/-- The host keeps the registers that `csr` reads off its state: it always carries a write out, and the
    register then holds the value. -/
structure Env.StoresCsrs (env : Env σ) (csr : σ → CsrNumber → Word) : Prop where
  done : ∀ c s m, ∃ v, (env.host (.writeCsr c) s m).1 = .done v
  stored : ∀ c s m,
    csr (env.host (.writeCsr c) s m).2.1 = Function.update (csr s) c.csr c.value

/-- A host that keeps a register file and carries every request out. -/
def Env.registerFile : Env (CsrNumber → Word) where
  host q f m :=
    match q with
    | .readCsr n => (.done (f n), f, m)
    | .writeCsr c => (.done 0, Function.update f c.csr c.value, m)
    | _ => (.done 0, f, m)
  map gpa _ f := (.ok ⟨gpa.toNat⟩, f)

theorem Env.registerFile_quiet : Env.registerFile.Quiet := by
  intro q f m
  cases q <;> rfl

theorem Env.registerFile_stores : Env.registerFile.StoresCsrs id where
  done _ _ _ := ⟨0, rfl⟩
  stored _ _ _ := rfl

section
variable {env : Env σ} {csr : σ → CsrNumber → Word}

/-- A scan of writes finishes, and makes them. -/
theorem Env.StoresCsrs.scan_run (h : env.StoresCsrs csr) {ι : Type} {task : ι → Task}
    {write : ι → CsrWrite} (htask : ∀ i, (task i).request = .writeCsr (write i)) (items : List ι)
    (w : World σ) :
    ∃ w', (env.scan task items).run w = (.ok items.length, w') ∧
      csr w'.state = writeAll (items.map write) (csr w.state) := by
  induction items generalizing w with
  | nil => exact ⟨w, rfl, rfl⟩
  | cons i rest ih =>
    obtain ⟨v, hv⟩ := h.done (write i) w.state w.memory
    unfold Env.scan
    rw [Act.bind_run, World.request_run, htask, hv]
    dsimp only
    rw [Act.next_ok, Act.bind_run, changeMemory, Act.modify_run, Act.next_ok, Act.run_bind_pure]
    obtain ⟨w', hrun, hcsr⟩ := ih
      { state := (env.host (.writeCsr (write i)) w.state w.memory).2.1
        memory := (task i).finish (env.host (.writeCsr (write i)) w.state w.memory).2.2
        events := w.events ++ [.requested (.writeCsr (write i)) (.done v)]
        console := w.console }
    rw [hrun]
    refine ⟨w', rfl, ?_⟩
    rw [hcsr, h.stored]
    rfl

variable {a : Area} {m : Memory}

/-- A call that finds no slot to apply does nothing. -/
theorem Env.syncCsrs_clean (env : Env σ) {mask : SlotMask} (hmask : mask.exceeds Csr.span = false)
    {w : World σ} (hclean : ∀ s, a.isDirty w.memory s = false) :
    (env.syncCsrs a mask).run (.idle, w) = (.ok 0, (.idle, w)) := by
  have hslots : a.dirtySlots w.memory mask = [] := by
    rw [List.eq_nil_iff_forall_not_mem]
    intro s hs
    rw [Area.mem_dirtySlots, hclean] at hs
    exact Bool.false_ne_true hs.2
  have hprepare : a.prepareCsrs mask w.memory = .ok [] := by
    simp [Area.prepareCsrs, hmask, hslots, Area.checkSlots]
  unfold Env.syncCsrs
  rw [inPhases_run_idle, hprepare]
  rfl

/-- From `w` to `w'` the host has been given the values of the slots: it has been asked for one write for each, in
    this order, it has carried each of them out, and the slots are marked as applied. -/
structure Flushed (csr : σ → CsrNumber → Word) (a : Area) (slots : List CsrSlot) (w w' : World σ) : Prop where
  memory : w'.memory = finishAll (a.slotTask w.memory) slots w.memory
  registers : csr w'.state = writeAll (slots.map (a.slotUpdate w.memory)) (csr w.state)
  record : ∃ new, w'.events = w.events ++ new ∧
    requestsMade new = slots.map (fun s => .writeCsr (a.slotUpdate w.memory s)) ∧
    requestsDone new = requestsMade new

/-- A call flushes the slots that it selects, if what it finds in them passes. -/
theorem Env.syncCsrs_flushes (hquiet : env.Quiet) (hstores : env.StoresCsrs csr) {mask : SlotMask}
    (hmask : mask.exceeds Csr.span = false) {w : World σ} (hvalid : a.SelectedValid w.memory mask) :
    ∃ w', (env.syncCsrs a mask).run (.idle, w) =
        (.ok (a.dirtySlots w.memory mask).length, (.idle, w')) ∧
      Flushed csr a (a.dirtySlots w.memory mask) w w' := by
  let slots := a.dirtySlots w.memory mask
  obtain ⟨w', hrun, hcsr⟩ := hstores.scan_run (a.slotTask_request w.memory) slots w
  obtain ⟨new, hevents, hprogress⟩ := Env.scan_progress hquiet (a.slotTask w.memory) slots w
  have hsync := Env.syncCsrs_run hquiet hmask hvalid
  rw [hrun] at hsync hevents hprogress
  obtain ⟨_, hdone, hmemory⟩ := hprogress.of_ok
  exact ⟨w', hsync, hmemory, hcsr, new, hevents, hdone.requestsMade,
    hdone.requestsDone.trans hdone.requestsMade.symm⟩

/-- What one call comes to after a sequence of deferred writes. -/
theorem Env.syncCsrs_deferred (hquiet : env.Quiet) (hstores : env.StoresCsrs csr)
    (hws : ∀ c ∈ ws, c.Writable) (hlegal : ∀ n v, lastValue? ws n = some v → Csr.ValueLegal n v)
    (hclean : ∀ s, a.isDirty m s = false) {w : World σ} (hw : w.memory = a.writeCsrs ws m) :
    ∃ w' applied new,
      (env.syncCsrs a .all).run (.idle, w) = (.ok applied.length, (.idle, w')) ∧
      csr w'.state = writeAll applied (csr w.state) ∧
      w'.events = w.events ++ new ∧ requestsMade new = applied.map .writeCsr ∧
      Condenses ws applied ∧ (∀ s, a.isDirty w'.memory s = false) ∧
      ∀ s, a.slotValue w'.memory s = a.slotValue w.memory s := by
  have hvalid : a.SelectedValid w.memory .all := by
    rw [hw]
    exact Area.selectedValid_writeCsrs hws hlegal hclean .all
  have hcondenses := Area.condenses_dirtySlots (a := a) hws hlegal hclean
  rw [← hw] at hcondenses
  obtain ⟨w', hsync, hflushed⟩ := Env.syncCsrs_flushes hquiet hstores (by decide) hvalid
  obtain ⟨new, hevents, hmade, _⟩ := hflushed.record
  refine ⟨w', (a.dirtySlots w.memory .all).map (a.slotUpdate w.memory), new, ?_, hflushed.registers,
    hevents, ?_, hcondenses, ?_, ?_⟩
  · rw [List.length_map]
    exact hsync
  · rw [hmade, List.map_map]
    rfl
  · intro s
    rw [hflushed.memory, Area.isDirty_finishAll]
    cases hdirty : a.isDirty w.memory s with
    | false => rfl
    | true =>
      rw [decide_eq_true (Area.mem_dirtySlots.2 ⟨Area.selects_all s, hdirty⟩)]
      rfl
  · intro s
    rw [hflushed.memory, Area.slotValue_finishAll]

end

/-! ## The call -/

namespace Hart

variable {env : Env σ} {cfg : Config}

/-- A call to apply CSRs needs no drain. -/
theorem dispatch_syncCsr (env : Env σ) (hfeature : cfg.features.contains .syncCsr = true) (id : Word)
    (claimed : List Word) (caller : Privilege) (low high : Word) :
    dispatch env cfg id claimed caller (.syncCsr low high) = syncCsrs env ⟨low, high⟩ := by
  have hperform : perform env cfg id claimed caller (.syncCsr low high) =
      requireFeature cfg .syncCsr >>= fun _ => syncCsrs env ⟨low, high⟩ := rfl
  unfold dispatch
  rw [hperform, requireFeature, if_pos hfeature]
  rfl

/-- It shows a message on the console, and is a synchronization from there. -/
theorem handle_syncCsr_run (env : Env σ) (hfeature : cfg.features.contains .syncCsr = true)
    (id : Word) (claimed : List Word) (caller : Privilege) (low high : Word) {h : Hart} {a : Area}
    (harea : h.session.area = some a) (w : World σ) :
    ∃ console, ∀ n phase w',
      (env.syncCsrs a ⟨low, high⟩).run (h.phase, { w with console }) = (.ok n, (phase, w')) →
      ∃ h', (handle env cfg id claimed caller (.syncCsr low high)).run (h, w) =
          (.ok (.value (.ofNat n)), (h', w')) ∧
        h'.session = h.session ∧ h'.phase = phase := by
  let what := AccelCall.text (.syncCsr low high)
  refine ⟨w.console.log .debug s!"hart {id}: {what}", fun n phase w' hrun => ?_⟩
  unfold handle
  rw [dispatch_syncCsr env hfeature]
  unfold syncCsrs requireArea Session.requireArea
  simp only [Act.bind_run, onWorld, logMessage, Act.onSecond_run, Act.modify_run, Act.next_ok,
    Act.attempt_run, count, Act.gets_run, harea, Act.mapError_run, Act.ofExcept_ok, Act.pure_run,
    onPhase, Act.zoom_run]
  rw [hrun]
  exact ⟨_, rfl, rfl, rfl⟩

/-- **Deferred writes are writes.** The bitmap is clear, the guest hypervisor writes any registers it may
    write, in any order and as often as it likes, ending with a legal value for each, and then has
    everything applied. If the host carries out every write and both sides see the area at the same
    place, each register of the host then holds the last value written to it, or what it held before;
    the host has received one write for each register written, in the order of the slots; the result is
    their number; nothing is left to apply, and the array is as the guest hypervisor has left it. A second
    call does nothing.

    Neither the mode of the hart nor the level of the caller matters. -/
theorem handle_syncCsr_deferred {csr : σ → CsrNumber → Word} (hquiet : env.Quiet)
    (hstores : env.StoresCsrs csr) (hfeature : cfg.features.contains .syncCsr = true)
    (id : Word) (claimed : List Word) (caller : Privilege) {h : Hart} {a : Area}
    (harea : h.session.area = some a) (hphase : h.phase = .idle) {ws : List CsrWrite}
    (hws : ∀ c ∈ ws, c.Writable) (hlegal : ∀ n v, lastValue? ws n = some v → Csr.ValueLegal n v)
    {w : World σ} (hclean : ∀ i, a.dirtyWord w.memory i = 0) :
    let sync := handle env cfg id claimed caller (.syncCsr 0 0)
    ∃ h' w' applied new,
      sync.run (h, { w with memory := a.writeCsrs ws w.memory }) =
        (.ok (.value (.ofNat (ws.map CsrWrite.csr).dedup.length)), (h', w')) ∧
      (∀ n, csr w'.state n = (lastValue? ws n).getD (csr w.state n)) ∧
      w'.events = w.events ++ new ∧ requestsMade new = applied.map .writeCsr ∧
      Condenses ws applied ∧
      (∀ i, a.dirtyWord w'.memory i = 0) ∧
      (∀ s, a.slotValue w'.memory s = a.slotValue (a.writeCsrs ws w.memory) s) ∧
      ∃ st, sync.run (h', w') = (.ok (.value 0), st) ∧ st.2.events = w'.events := by
  intro sync
  obtain ⟨console, hfirst⟩ := handle_syncCsr_run env hfeature id claimed caller 0 0 harea
    { w with memory := a.writeCsrs ws w.memory }
  obtain ⟨w', applied, new, hrun, hcsr, hevents, hmade, hcondenses, hdirty, hvalues⟩ :=
    Env.syncCsrs_deferred hquiet hstores hws hlegal (Area.isDirty_of_dirtyWord hclean)
      (w := { w with memory := a.writeCsrs ws w.memory, console }) rfl
  rw [hphase] at hfirst
  obtain ⟨h', hhandle, hsession, hidle⟩ := hfirst _ _ _ hrun
  rw [hcondenses.length_eq] at hhandle
  refine ⟨h', w', applied, new, hhandle, ?_, hevents, hmade, hcondenses,
    Area.dirtyWord_eq_zero hdirty, hvalues, ?_⟩
  · intro n
    rw [hcsr, writeAll_apply, hcondenses.lastValue?_eq]
  · obtain ⟨console', hsecond⟩ := handle_syncCsr_run env hfeature id claimed caller 0 0
      (hsession ▸ harea) w'
    rw [hidle] at hsecond
    have hclean' : ∀ s, a.isDirty ({ w' with console := console' } : World σ).memory s = false :=
      hdirty
    obtain ⟨h'', hagain, _, _⟩ := hsecond _ _ _ (Env.syncCsrs_clean env (by decide) hclean')
    exact ⟨_, hagain, rfl⟩

/-- Three writes to two registers. -/
theorem handle_syncCsr_deferred_three :
    let a := Area.ofGuest 0x80000000
    let ws : List CsrWrite :=
      [⟨CsrNumber.vsscratch, 1⟩, ⟨CsrNumber.hcounteren, 7⟩, ⟨CsrNumber.vsscratch, 3⟩]
    ∃ h' w',
      (handle Env.registerFile {} 0 [0x80000000] .supervisor (.syncCsr 0 0)).run
          ({ session := { area := some a } },
            { state := fun _ => 0, memory := a.writeCsrs ws .zero }) =
        (.ok (.value 2), (h', w')) ∧
      w'.state CsrNumber.vsscratch = 3 ∧ w'.state CsrNumber.hcounteren = 7 ∧
      ∀ i, a.dirtyWord w'.memory i = 0 := by
  intro a ws
  have hgranted : ∀ c ∈ ws, ∃ e ∈ Csr.table, e.number = c.csr ∧ e.access = .readWrite ∧
      e.rule.allows c.value = true := by decide
  have hws : ∀ c ∈ ws, c.Writable := by
    intro c hc
    obtain ⟨e, he, hnumber, haccess, _⟩ := hgranted c hc
    exact ⟨e, he, hnumber, haccess⟩
  have hlegal : ∀ n v, lastValue? ws n = some v → Csr.ValueLegal n v := by
    intro n v hv
    obtain ⟨e, he, hnumber, _, hallows⟩ := hgranted _ (mem_of_lastValue? hv)
    subst hnumber
    exact Csr.valueLegal_of_allows he hallows
  have hfeature : ({} : Config).features.contains .syncCsr = true := FeatureSet.contains_full _
  obtain ⟨h', w', _, _, hrun, hcsr, _, _, _, hclear, _⟩ :=
    handle_syncCsr_deferred Env.registerFile_quiet Env.registerFile_stores hfeature 0 [0x80000000]
      .supervisor
      (h := { session := { area := some a } }) rfl rfl hws hlegal
      (w := { state := fun _ => 0, memory := .zero }) fun _ => rfl
  exact ⟨h', w', hrun, hcsr _, hcsr _, hclear⟩

end Hart

end NestedAccel
