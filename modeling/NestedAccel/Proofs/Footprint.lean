import NestedAccel.Batch.Run
import NestedAccel.Proofs.Legal
import NestedAccel.Proofs.World
import NestedAccel.Sync.Call

/-!
# `NestedAccel.Proofs.Footprint` — what the parts of a call request and where they write

Every part of a call is a sequence of moves (`World.Reaches env P W`). The requests it makes are the
ones its checks have produced, and the words it writes are bitmap bits, pending bits and the swap
value of the calling hart's own area, or words of the batch array that has been mapped for it.

The lemmas take the two sets `P` and `W` as parameters and ask of each only what the part in question
needs, so that the same lemma serves the whole of a call and a single phase of it.
-/

namespace NestedAccel

open World (Reaches)
open Act (Moves)

variable {σ ε : Type}

/-! ## The words of an area -/

namespace Area

/-- Word `b` belongs to the area. -/
def Owns (a : Area) (b : Nat) : Prop := a.base ≤ b ∧ b < a.base + words

variable (a : Area)

theorem owns_bitmapBase (i : Fin 16) : a.Owns (a.bitmapBase i) := by
  unfold Owns bitmapBase words
  omega

theorem owns_fenceBase (s : FenceSlot) : a.Owns (a.fenceBase s) := by
  unfold Owns fenceBase words
  omega

theorem owns_swapValue : a.Owns (a.swapBase + 1) := by
  unfold Owns swapBase words
  omega

variable {a} {m : Memory} {b : Nat}

theorem read_clearBitmap (hb : ¬a.Owns b) : (a.clearBitmap m).read b = m.read b := by
  have hout : ¬(a.bitmapBase 0 ≤ b ∧ b < a.bitmapBase 0 + 16) := by
    unfold Owns words at hb
    unfold bitmapBase
    omega
  rw [clearBitmap, Memory.read_clear, if_neg hout]

theorem read_zeroed (hb : ¬a.Owns b) : (a.zero m).read b = m.read b := if_neg hb

/-- Word `b` belongs to the dirty bitmap or to the CSR array. -/
def InSlots (a : Area) (b : Nat) : Prop := a.base + 496 ≤ b ∧ b < a.base + 1536

theorem inSlots_bitmapBase (a : Area) (i : Fin 16) : a.InSlots (a.bitmapBase i) := by
  unfold InSlots bitmapBase
  omega

theorem inSlots_slotBase (a : Area) (s : CsrSlot) : a.InSlots (a.slotBase s) := by
  unfold InSlots slotBase
  omega

theorem owns_of_inSlots (h : a.InSlots b) : a.Owns b := by
  unfold InSlots at h
  unfold Owns words
  omega

theorem not_inSlots_fenceBase (a : Area) (s : FenceSlot) : ¬a.InSlots (a.fenceBase s) := by
  unfold InSlots fenceBase
  omega

theorem not_inSlots_swapValue (a : Area) : ¬a.InSlots (a.swapBase + 1) := by
  unfold InSlots swapBase
  omega

end Area

/-! ## Applying slots and fences -/

section
variable {env : Env σ} {P : Request → Prop} {W : Nat → Prop} {a : Area}

theorem Env.writeSlot_moves {refused : Refusal → ε} {failed : HostError → ε}
    (hP : ∀ s v w, Check.slotWrite s v = .ok w → P (.writeCsr w)) (s : CsrSlot) (v : Word) :
    Moves (Reaches env P W) (env.writeSlot refused failed s v) :=
  Moves.check fun w hw =>
    ((Env.request_moves (hP s v w hw)).mapError failed).bind fun _ => Moves.pure _

theorem Area.consume_moves {apply : CsrSlot → Word → Act (World σ) ε Unit}
    (hW : ∀ i, W (a.bitmapBase i)) (happly : ∀ s v, Moves (Reaches env P W) (apply s v))
    (slots : List CsrSlot) : Moves (Reaches env P W) (a.consume apply slots) := by
  -- on the slots captured: what the bitmap has become meanwhile does not matter
  induction slots with
  | nil => exact Moves.pure _
  | cons s rest ih =>
    refine (readMemory_moves _).bind fun v => (happly s v).bind fun _ => ?_
    refine (changeMemory_moves fun m b hb => ?_).bind fun _ => ih.bind fun _ => Moves.pure _
    exact Memory.read_write_of_ne fun h => hb (h ▸ hW _)

theorem Env.applySlots_moves (hP : ∀ s v w, Check.slotWrite s v = .ok w → P (.writeCsr w))
    (hW : ∀ i, W (a.bitmapBase i)) (slots : List CsrSlot) :
    Moves (Reaches env P W) (env.applySlots a slots) :=
  Area.consume_moves hW (fun s v => Env.writeSlot_moves hP s v) slots

/-- Every captured fence has passed its check. -/
theorem Area.pendingFences_legal {m : Memory} {slots : List FenceSlot} {fences : List PendingFence}
    (h : a.pendingFences m slots = .ok fences) : ∀ p ∈ fences, p.fence.Legal := by
  induction slots generalizing fences with
  | nil =>
    cases h
    exact fun p hp => absurd hp List.not_mem_nil
  | cons s rest ih =>
    unfold Area.pendingFences at h
    cases hf : Check.fence (a.fenceEntry m s) with
    | error r => rw [hf] at h; cases h
    | ok o =>
      rw [hf] at h
      cases o with
      | none => exact ih h
      | some f =>
        obtain ⟨more, hmore, rfl⟩ := Check.ok_of_map h
        intro p hp
        rcases List.mem_cons.mp hp with rfl | hp
        · exact Check.fence_legal hf
        · exact ih hmore p hp

theorem Env.performFences_moves (hW : ∀ s, W (a.fenceBase s)) {fences : List PendingFence}
    (hP : ∀ p ∈ fences, P (.fence p.fence)) :
    Moves (Reaches env P W) (env.performFences a fences) := by
  induction fences with
  | nil => exact Moves.pure _
  | cons p rest ih =>
    refine ((Env.request_moves (hP p List.mem_cons_self)).mapError _).bind fun _ => ?_
    refine (changeMemory_moves fun m b hb => ?_).bind fun _ => ?_
    · exact Memory.read_write_of_ne fun h => hb (h ▸ hW p.slot)
    · exact (ih fun q hq => hP q (List.mem_cons_of_mem p hq)).bind fun _ => Moves.pure _

theorem Env.syncFences_moves (hW : ∀ s, W (a.fenceBase s)) (hP : ∀ f : Fence, f.Legal → P (.fence f))
    (select : FenceSelect) : Moves (Reaches env P W) (env.syncFences a select) := by
  -- every fence selected is captured before the first one is performed
  refine Moves.bind_gets fun w => fun st => ?_
  refine Act.bind_moves (Moves.ofExcept _ st) fun fences st' h => ?_
  have hf := Area.pendingFences_legal (Act.run_ofExcept_ok h).1
  exact Env.performFences_moves hW (fun p hp => hP _ (hf p hp)) st'

/-! ## What has been prepared -/

/-- Slots that have been prepared are all that are dirty and selected, and have been checked. -/
theorem Area.of_prepareCsrs {mask : SlotMask} {m : Memory} {slots : List CsrSlot}
    (h : a.prepareCsrs mask m = .ok slots) :
    slots = a.dirtySlots m mask ∧ a.checkSlots m slots = .ok () := by
  unfold Area.prepareCsrs at h
  split at h
  · cases h
  · split at h
    · rename_i hchecked
      cases h
      exact ⟨rfl, hchecked⟩
    · cases h

/-- Fences that have been prepared are captured from the entries that the index selects. -/
theorem Area.of_prepareFences {index : Word} {m : Memory} {fences : List PendingFence}
    (h : a.prepareFences index m = .ok fences) :
    ∃ select, FenceSelect.ofIndex index = .ok select ∧ a.pendingFences m select.slots = .ok fences := by
  unfold Area.prepareFences at h
  split at h
  · cases h
  · rename_i select hselect
    split at h
    · cases h
    · rename_i fences' hfences
      cases h
      exact ⟨select, hselect, hfences⟩

/-! ## Trap returns -/

/-- What a plan for a trap return holds. -/
theorem Area.prepareReturn_ok {autoswap : Bool} {m : Memory} {plan : ReturnPlan}
    (h : a.prepareReturn autoswap m = .ok plan) :
    Check.trapReturn (a.returnContext m) = .ok plan.state ∧
    (if autoswap then Check.swap (a.swapContext m) = .ok plan.swap else plan.swap = none) ∧
    (if autoswap then a.pendingFences m FenceSelect.all.slots = .ok plan.fences
      else plan.fences = []) ∧
    plan.slots = a.dirtySlots m .all ∧ a.checkSlots m plan.slots = .ok () := by
  obtain ⟨state, hstate, h⟩ := Check.ok_of_bind h
  cases autoswap with
  | false =>
    obtain ⟨swap, hswap, h⟩ := Check.ok_of_bind h
    obtain ⟨fences, hfences, h⟩ := Check.ok_of_bind h
    obtain ⟨_, hslots, h⟩ := Check.ok_of_bind h
    cases hswap
    cases hfences
    cases h
    exact ⟨Check.ok_of_mapError hstate, rfl, rfl, rfl, Check.ok_of_mapError hslots⟩
  | true =>
    obtain ⟨swap, hswap, h⟩ := Check.ok_of_bind h
    obtain ⟨fences, hfences, h⟩ := Check.ok_of_bind h
    obtain ⟨_, hslots, h⟩ := Check.ok_of_bind h
    cases h
    exact ⟨Check.ok_of_mapError hstate, Check.ok_of_mapError hswap, Check.ok_of_mapError hfences,
      rfl, Check.ok_of_mapError hslots⟩

/-- What a plan is made of has passed its checks. -/
theorem Area.prepareReturn_legal (harts : Nat) {autoswap : Bool} {m : Memory} {plan : ReturnPlan}
    (h : a.prepareReturn autoswap m = .ok plan) :
    plan.state.Legal ∧ (∀ w, plan.swap = some w → Request.Legal harts (.writeCsr w)) ∧
      ∀ p ∈ plan.fences, p.fence.Legal := by
  obtain ⟨hstate, hswap, hfences, _, _⟩ := Area.prepareReturn_ok h
  refine ⟨Check.trapReturn_legal hstate, ?_, ?_⟩
  · intro w hw
    cases autoswap with
    | false => rw [show plan.swap = none from hswap] at hw; cases hw
    | true =>
      rw [hw] at hswap
      exact Check.swap_legal hswap
  · intro p hp
    cases autoswap with
    | false => rw [show plan.fences = [] from hfences] at hp; cases hp
    | true => exact Area.pendingFences_legal hfences p hp

theorem Env.leave_moves (hW : W (a.swapBase + 1)) {state : TrapReturn} {swap : Option CsrWrite}
    (hread : P (.readCsr CsrNumber.hstatus)) (hreturn : P (.trapReturn state))
    (hswap : ∀ w, swap = some w → P (.writeCsr w)) :
    Moves (Reaches env P W) (env.leave a state swap) := by
  cases swap with
  | none => exact ((Env.request_moves hreturn).mapError _).bind fun _ => Moves.pure _
  | some w =>
    refine ((Env.request_moves hread).mapError _).bind fun old => ?_
    refine ((Env.request_moves hreturn).mapError _).bind fun _ => ?_
    refine ((Env.request_moves (hswap w rfl)).mapError _).bind fun _ => ?_
    exact changeMemory_moves fun m b hb => Memory.read_write_of_ne fun h => hb (h ▸ hW)

/-- A trap return asks for anything legal but injections. -/
theorem Env.applyReturn_moves {harts : Nat} (hW : ∀ b, a.Owns b → W b)
    (hP : ∀ q : Request, q.Legal harts → (∀ i, q ≠ .inject i) → P q) {autoswap : Bool} {m : Memory}
    {plan : ReturnPlan} (hplan : a.prepareReturn autoswap m = .ok plan) :
    Moves (Reaches env P W) (env.applyReturn a plan) := by
  obtain ⟨hstate, hswap, hfences⟩ := Area.prepareReturn_legal harts hplan
  have hread : Request.Legal harts (.readCsr CsrNumber.hstatus) :=
    ⟨⟨CsrNumber.hstatus, .readWrite, .hstatus⟩, by decide, rfl⟩
  have hslots : Moves (Reaches env P W) (env.applySlots a plan.slots) :=
    Env.applySlots_moves (fun _ _ _ h => hP _ (Check.slotWrite_legal h) (by simp))
      (fun i => hW _ (a.owns_bitmapBase i)) _
  have hperform : Moves (Reaches env P W) (env.performFences a plan.fences) :=
    Env.performFences_moves (fun s => hW _ (a.owns_fenceBase s))
      fun p hp => hP _ (hfences p hp) (by simp)
  have hleave : Moves (Reaches env P W) (env.leave a plan.state plan.swap) :=
    Env.leave_moves (hW _ a.owns_swapValue) (hP _ hread (by simp)) (hP _ hstate (by simp))
      fun w hw => hP _ (hswap w hw) (by simp)
  refine hslots.bind fun _ => (hperform.mapError _).bind fun _ => ?_
  exact hleave.bind fun _ => Moves.pure _

end

/-! ## Phases -/

/-- What a synchronization call comes to when no other is under way: `prepare` looks at memory and
    `apply` runs on the same world. -/
theorem inPhases_run_idle {α β : Type} (prepare : Memory → Except SyncError β)
    (apply : β → Act (World σ) SyncError α) (w : World σ) :
    (inPhases prepare apply).run (.idle, w) =
      match prepare w.memory with
      | .error e => (.error e, (.idle, w))
      | .ok b =>
        match (apply b).run w with
        | (.abandoned, w') => (.abandoned, (.applying, w'))
        | (r, w') => (r, (.idle, w')) := by
  rw [Act.run, inPhases]
  simp only [Act.bind_run, readMemory, Act.onSecond_run, Act.gets_run, Act.next_ok]
  cases prepare w.memory with
  | error e => rfl
  | ok b =>
    simp only [Act.ofExcept_ok, Act.bind_run, Act.pure_run, Act.next_ok, Act.modify_run,
      Act.onSecond_run]
    rcases Act.run (apply b) w with ⟨r | e | _, w'⟩ <;> rfl

section
variable {env : Env σ} {P : Request → Prop} {W : Nat → Prop} {a : Area}

/-- A synchronization call moves as its second phase does. -/
theorem inPhases_reaches {α β : Type} {prepare : Memory → Except SyncError β}
    {apply : β → Act (World σ) SyncError α}
    (h : ∀ m b, prepare m = .ok b → Moves (Reaches env P W) (apply b)) (st : Phase × World σ) :
    Reaches env P W st.2 ((inPhases prepare apply).run st).2.2 := by
  rcases st with ⟨phase, w⟩
  cases phase with
  -- an earlier call was abandoned, so this one is refused
  | checking => exact refl_of _ w
  | applying => exact refl_of _ w
  | idle =>
    rw [inPhases_run_idle]
    cases hp : prepare w.memory with
    | error e => exact refl_of _ w
    | ok b =>
      have hb := h w.memory b hp w
      dsimp only
      revert hb
      rcases (apply b).run w with ⟨r | e | _, w'⟩ <;> exact id

variable {harts : Nat}

theorem Env.syncCsrs_reaches (hP : ∀ s v w, Check.slotWrite s v = .ok w → P (.writeCsr w))
    (hW : ∀ i, W (a.bitmapBase i)) (mask : SlotMask) (st : Phase × World σ) :
    Reaches env P W st.2 ((env.syncCsrs a mask).run st).2.2 :=
  inPhases_reaches (fun _ _ _ => Env.applySlots_moves hP hW _) st

theorem Env.syncHfences_reaches (hW : ∀ s, W (a.fenceBase s))
    (hP : ∀ f : Fence, f.Legal → P (.fence f)) (index : Word) (st : Phase × World σ) :
    Reaches env P W st.2 ((env.syncHfences a index).run st).2.2 := by
  refine inPhases_reaches (fun m fences h => ?_) st
  obtain ⟨select, _, hpending⟩ := Area.of_prepareFences h
  have hlegal := Area.pendingFences_legal hpending
  exact (Env.performFences_moves hW fun p hp => hP _ (hlegal p hp)).mapError _

/-- A trap return either fails for its operands alone or is led through the phases. -/
theorem Env.syncReturn_cases (env : Env σ) (a : Area) (flags : Word) (caller : Privilege)
    (enabled : Bool) :
    (∃ e, (∀ phase, e ≠ .busy phase) ∧ env.syncReturn a flags caller enabled = .fail e) ∨
    env.syncReturn a flags caller enabled =
      inPhases (a.prepareReturn (Word.bit flags 0)) (env.applyReturn a) := by
  unfold Env.syncReturn
  by_cases hflags : ¬Word.within autoswapFlag flags
  · exact .inl ⟨_, by simp, if_pos hflags⟩
  · by_cases hswap : Word.bit flags 0 ∧ ¬enabled
    · exact .inl ⟨_, by simp, (if_neg hflags).trans (if_pos hswap)⟩
    · by_cases hcaller : caller ≠ .supervisor
      · exact .inl ⟨_, by simp, (if_neg hflags).trans ((if_neg hswap).trans (if_pos hcaller))⟩
      · exact .inr ((if_neg hflags).trans ((if_neg hswap).trans (if_neg hcaller)))

theorem Env.syncReturn_reaches (hW : ∀ b, a.Owns b → W b)
    (hP : ∀ q : Request, q.Legal harts → (∀ i, q ≠ .inject i) → P q) (flags : Word)
    (caller : Privilege) (enabled : Bool) (st : Phase × World σ) :
    Reaches env P W st.2 ((env.syncReturn a flags caller enabled).run st).2.2 := by
  rcases env.syncReturn_cases a flags caller enabled with ⟨e, _, he⟩ | hphases
  · rw [he]
    exact refl_of _ st.2
  · rw [hphases]
    exact inPhases_reaches (fun m plan h => Env.applyReturn_moves hW hP h) st

/-! ## Batches -/

theorem Env.runOp_moves (hW : ∀ s, W (a.fenceBase s)) (op : BatchOp) :
    Moves (Reaches env (Request.Legal harts) W) (env.runOp harts a op) := by
  cases op with
  | csrRead n =>
    refine Moves.check fun csr h => ?_
    exact ((Env.request_moves (Check.csrRead_legal h)).mapError _).bind fun _ => Moves.pure _
  | csrWrite n v =>
    refine Moves.check fun w h => ?_
    exact ((Env.request_moves (Check.csrWrite_legal h)).mapError _).bind fun _ => Moves.pure _
  | hfence i =>
    refine Moves.check fun slot _ => ?_
    exact ((Env.syncFences_moves hW (fun f hf => hf) _).mapError _).bind fun _ => Moves.pure _
  | injectInterrupt kind number target =>
    refine Moves.check fun i h => ?_
    have hlegal : Request.Legal harts (.inject i) := Check.injection_legal h
    exact ((Env.request_moves hlegal).mapError _).bind fun _ => Moves.pure _

theorem Env.runDescriptorOp_moves (hW : ∀ s, W (a.fenceBase s)) (d : Descriptor) :
    Moves (Reaches env (Request.Legal harts) W) (env.runDescriptorOp harts a d) := by
  unfold Env.runDescriptorOp
  split
  · exact Env.runOp_moves hW _
  · exact Moves.fail _

/-- A report changes two words of its descriptor, at most. -/
theorem Descriptor.read_report (p : Nat) (r : Except SbiError OpResult) (m : Memory) {b : Nat}
    (hb : ¬(p ≤ b ∧ b < p + 4)) : (Descriptor.report p r m).read b = m.read b := by
  have hvalue : b ≠ p + 2 := by omega
  have hstatus : b ≠ p + 3 := by omega
  unfold Descriptor.report
  split
  · rw [setStatus, Memory.read_write_of_ne hstatus, setValue, Memory.read_write_of_ne hvalue]
  · rw [setStatus, Memory.read_write_of_ne hstatus]
  · rw [setStatus, Memory.read_write_of_ne hstatus]

theorem Env.runDescriptor_moves (hW : ∀ s, W (a.fenceBase s)) {p : Nat}
    (hp : ∀ b, p ≤ b ∧ b < p + 4 → W b) :
    Moves (Reaches env (Request.Legal harts) W)
      (env.runDescriptor harts a p : Act (World σ) ε Tally) := by
  refine (readMemory_moves _).bind fun d => ?_
  refine (Env.runDescriptorOp_moves hW d).attempt.bind fun r => ?_
  refine (changeMemory_moves fun m b hb => ?_).bind fun _ => ?_
  · exact Descriptor.read_report p r m fun h => hb (hp b h)
  · cases r with
    | ok r => exact Moves.pure _
    | error e => exact Moves.pure _

theorem Env.runDescriptors_moves (hW : ∀ s, W (a.fenceBase s)) {ps : List Nat}
    (hps : ∀ p ∈ ps, ∀ b, p ≤ b ∧ b < p + 4 → W b) :
    Moves (Reaches env (Request.Legal harts) W)
      (env.runDescriptors harts a ps : Act (World σ) ε Tally) := by
  induction ps with
  | nil => exact Moves.pure _
  | cons p rest ih =>
    refine (Env.runDescriptor_moves hW (hps p List.mem_cons_self)).bind fun t => ?_
    exact (ih fun q hq => hps q (List.mem_cons_of_mem p hq)).bind fun _ => Moves.pure _

theorem Env.runMapped_moves (hW : ∀ s, W (a.fenceBase s)) (addr : Word) (count : Nat)
    (mapping : Mapping) (harray : ∀ b, mapping.base ≤ b ∧ b < mapping.base + 4 * count → W b) :
    Moves (Reaches env (Request.Legal harts) W) (env.runMapped harts a addr count mapping) := by
  unfold Env.runMapped
  split
  · exact Moves.fail _
  · refine (readMemory_moves _).bind fun u => ?_
    cases u with
    | some u => exact Moves.fail _
    | none =>
      refine Env.runDescriptors_moves hW fun p hp b hb => ?_
      -- descriptor `i` lies in the array because there are more than `i`
      obtain ⟨i, hi, rfl⟩ := List.mem_map.mp hp
      have hi := List.mem_range.mp hi
      unfold Descriptor.position at hb
      exact harray b (by omega)

end

/-- The number of bytes of an array of `count` descriptors. -/
def Descriptor.arrayBytes (count : Word) : Word := .ofNat (count.toNat * Descriptor.bytes)

/-- Nothing stands against the batch as far as its array has not been looked at. -/
structure BatchAdmitted (maxBatch : Nat) (claimed : List Word) (addr count : Word) : Prop where
  count_le : count.toNat ≤ maxBatch
  range : Check.guestRange addr (Descriptor.arrayBytes count) 8 = .ok addr
  /-- An empty batch has no array to be clear of anything. -/
  clear : count ≠ 0 → ∀ g ∈ claimed,
    rangesOverlap addr (Descriptor.arrayBytes count) g areaBytes = false

/-- The array is mapped for as long as it runs. -/
def Env.runArray (env : Env σ) (harts : Nat) (a : Area) (addr count : Word) :
    Act (World σ) BatchError Tally := do
  let mapping ← (env.mapRange addr (Descriptor.arrayBytes count)).mapError .map
  let r ← (env.runMapped harts a addr count.toNat mapping).attempt
  unmapRange addr (Descriptor.arrayBytes count)
  Act.ofExcept r

/-- A batch is refused, or has nothing to do, or runs its array. -/
theorem Env.runBatch_cases (env : Env σ) (harts maxBatch : Nat) (a : Area) (claimed : List Word)
    (addr count : Word) :
    (¬BatchAdmitted maxBatch claimed addr count ∧
      ∃ e, env.runBatch harts maxBatch (some a) claimed addr count = .fail e) ∨
    (BatchAdmitted maxBatch claimed addr count ∧ count = 0 ∧
      env.runBatch harts maxBatch (some a) claimed addr count = pure {}) ∨
    (BatchAdmitted maxBatch claimed addr count ∧ count ≠ 0 ∧
      env.runBatch harts maxBatch (some a) claimed addr count = env.runArray harts a addr count) := by
  unfold Env.runBatch
  dsimp only
  split
  · rename_i hcount
    exact .inl ⟨fun h => Nat.not_lt.2 h.count_le hcount, _, rfl⟩
  · rename_i hcount
    cases hrange : Check.guestRange addr (Descriptor.arrayBytes count) 8 with
    | error r =>
      refine .inl ⟨fun h => ?_, .address r, ?_⟩
      · cases hrange.symm.trans h.range
      · rw [show Check.guestRange addr (.ofNat (count.toNat * Descriptor.bytes)) 8 = _ from hrange]
        rfl
    | ok addr' =>
      obtain ⟨rfl, _, _⟩ := Check.guestRange_ok hrange
      rw [show Check.guestRange addr' (.ofNat (count.toNat * Descriptor.bytes)) 8 = _ from hrange,
        Act.ofExcept_ok, Act.mapError_pure, pure_bind]
      have hle : count.toNat ≤ maxBatch := Nat.le_of_not_lt hcount
      by_cases hzero : count = 0
      · rw [if_pos hzero]
        exact .inr (.inl ⟨⟨hle, hrange, fun hne => absurd hzero hne⟩, hzero, rfl⟩)
      · rw [if_neg hzero]
        cases hfound : claimed.find? (fun g =>
            rangesOverlap addr' (.ofNat (count.toNat * Descriptor.bytes)) g areaBytes) with
        | some g =>
          have hoverlap := List.find?_some hfound
          refine .inl ⟨fun h => ?_, _, rfl⟩
          cases hoverlap.symm.trans (h.clear hzero g (List.mem_of_find?_eq_some hfound))
        | none =>
          have hclear : ∀ g ∈ claimed,
              rangesOverlap addr' (Descriptor.arrayBytes count) g areaBytes = false := fun g hg =>
            Bool.eq_false_iff.2 (List.find?_eq_none.1 hfound g hg)
          exact .inr (.inr ⟨⟨hle, hrange, fun _ => hclear⟩, hzero, rfl⟩)

/-- What the array comes to. It is given back unless the host does not come back. -/
theorem Env.runArray_run (env : Env σ) (harts : Nat) (a : Area) (addr count : Word) (w : World σ) :
    (env.runArray harts a addr count).run w =
      match (env.map addr (Descriptor.arrayBytes count) w.state).1 with
      | .error e => (.error (.map e), w.afterMap env addr (Descriptor.arrayBytes count))
      | .ok m =>
        match (env.runMapped harts a addr count.toNat m).run
            (w.afterMap env addr (Descriptor.arrayBytes count)) with
        | (.ok t, w') => (.ok t, w'.record (.unmapped addr (Descriptor.arrayBytes count)))
        | (.error e, w') => (.error e, w'.record (.unmapped addr (Descriptor.arrayBytes count)))
        | (.abandoned, w') => (.abandoned, w') := by
  unfold Env.runArray
  rw [Act.bind_run, Act.mapError_run, World.mapRange_run]
  unfold World.afterMap
  cases (env.map addr (Descriptor.arrayBytes count) w.state).1 with
  | error e => rfl
  | ok m =>
    dsimp only
    rw [Act.next_ok, Act.bind_run, Act.attempt_run]
    rcases (env.runMapped harts a addr count.toNat m).run _ with ⟨_ | _ | _, w'⟩ <;> rfl

/-- Word `b` belongs to an array of at most `maxBatch` descriptors that can be mapped clear of the
    claimed areas. -/
def Env.InBatch (env : Env σ) (maxBatch : Nat) (claimed : List Word) (b : Nat) : Prop :=
  ∃ (addr : Word) (count : Nat) (state : σ) (m : Mapping), count ≤ maxBatch ∧
    Check.guestRange addr (.ofNat (count * Descriptor.bytes)) 8 = .ok addr ∧
    (∀ g ∈ claimed, rangesOverlap addr (.ofNat (count * Descriptor.bytes)) g areaBytes = false) ∧
    (env.map addr (.ofNat (count * Descriptor.bytes)) state).1 = .ok m ∧
    m.base ≤ b ∧ b < m.base + 4 * count

section
variable {env : Env σ} {W : Nat → Prop} {harts maxBatch : Nat}

/-- The words of the array that a batch has mapped. -/
theorem Env.inBatch_of_mapped {claimed : List Word} {addr count : Word} {state : σ} {m : Mapping}
    (hadmitted : BatchAdmitted maxBatch claimed addr count) (hsome : count ≠ 0)
    (hm : (env.map addr (Descriptor.arrayBytes count) state).1 = .ok m) (b : Nat)
    (hb : m.base ≤ b ∧ b < m.base + 4 * count.toNat) : env.InBatch maxBatch claimed b :=
  ⟨addr, count.toNat, state, m, hadmitted.count_le, hadmitted.range, hadmitted.clear hsome, hm, hb⟩

theorem Env.runBatch_moves {area : Option Area} {claimed : List Word}
    (hW : ∀ a s, area = some a → W (a.fenceBase s)) (hbatch : ∀ b, env.InBatch maxBatch claimed b → W b)
    (addr count : Word) :
    Moves (Reaches env (Request.Legal harts) W)
      (env.runBatch harts maxBatch area claimed addr count) := by
  cases area with
  | none => exact Moves.fail _
  | some a =>
    rcases env.runBatch_cases harts maxBatch a claimed addr count with
      ⟨_, e, hrefused⟩ | ⟨_, _, hempty⟩ | ⟨hadmitted, hsome, hruns⟩
    · rw [hrefused]
      exact Moves.fail e
    · rw [hempty]
      exact Moves.pure _
    · rw [hruns]
      intro w
      refine Act.bind_moves ((Env.mapRange_moves _ _).mapError _ w) fun m w' hm => ?_
      -- the mapping is the one the environment has given for this very range
      have hm := World.mapRange_run_ok (Act.run_mapError_ok hm)
      have harray := fun b hb => hbatch b (Env.inBatch_of_mapped hadmitted hsome hm b hb)
      refine Moves.bind ?_ (fun r => ?_) w'
      · exact (Env.runMapped_moves (fun s => hW a s rfl) addr _ m harray).attempt
      · exact (unmapRange_moves _ _).bind fun _ => Moves.ofExcept r

end

end NestedAccel
