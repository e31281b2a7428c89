import NestedAccel.Proofs.Scan

/-!
# `NestedAccel.Proofs.Validation` — a call is checked before any of it is applied

A synchronization call looks at guest memory twice, first to check what it is about to apply and then to
apply it. `SyncCall.Invalid` lists what can be wrong with each of the three calls, in terms of the slots
and entries themselves and not of the order in which they are looked at. The two passes agree on this
list (`SyncCall.checked_first`): **where anything on it applies, the call comes to an error and to nothing
else**, not a request, not a word of memory, not a change of phase; **where nothing on it applies, only the
host can make the call fail.**

When several slots or entries are at fault, the lowest one is reported (`SyncCall.Blames`).
-/

namespace NestedAccel

variable {σ ε ε' α β : Type}

/-! ## The calls -/

/-- A synchronization call, by the type of its result. -/
inductive SyncCall : Type → Type where
  | csrs (mask : SlotMask) : SyncCall Nat
  | hfences (index : Word) : SyncCall Nat
  | sret (flags : Word) (caller : Privilege) (autoswapEnabled : Bool) : SyncCall ReturnSummary

namespace SyncCall

/-- What the call does. -/
def act (env : Env σ) (a : Area) : SyncCall α → Act (Phase × World σ) SyncError α
  | csrs mask => env.syncCsrs a mask
  | hfences index => env.syncHfences a index
  | sret flags caller autoswapEnabled => env.syncReturn a flags caller autoswapEnabled

theorem act_csrs (env : Env σ) (a : Area) (mask : SlotMask) :
    (csrs mask).act env a = env.syncCsrs a mask := rfl

theorem act_hfences (env : Env σ) (a : Area) (index : Word) :
    (hfences index).act env a = env.syncHfences a index := rfl

theorem act_sret (env : Env σ) (a : Area) (flags : Word) (caller : Privilege) (enabled : Bool) :
    (sret flags caller enabled).act env a = env.syncReturn a flags caller enabled := rfl

/-- Something about the call, or something that it would apply, is invalid. -/
inductive Invalid (a : Area) (m : Memory) : {α : Type} → SyncCall α → Prop where
  /-- The mask selects slots past the assigned ones. -/
  | mask {mask : SlotMask} (h : mask.exceeds Csr.span = true) : Invalid a m (csrs mask)
  /-- A selected dirty slot holds a value that is refused. -/
  | slot {mask : SlotMask} {s : CsrSlot} {r : Refusal} (hselected : mask.selects s = true)
    (hdirty : a.isDirty m s = true) (h : Check.slotWrite s (a.slotValue m s) = .error r) :
    Invalid a m (csrs mask)
  /-- The index is neither that of an entry nor the one that selects all of them. -/
  | index {index : Word} (hall : index ≠ FenceSelect.allIndex) (h : 56 ≤ index.toNat) :
    Invalid a m (hfences index)
  /-- A selected entry is pending and refused. -/
  | entry {index : Word} {select : FenceSelect} {s : FenceSlot} {r : Refusal}
    (hindex : FenceSelect.ofIndex index = .ok select) (hselected : s ∈ select.slots)
    (hpending : (a.fenceEntry m s).pending = true)
    (h : Check.fence (a.fenceEntry m s) = .error r) : Invalid a m (hfences index)
  /-- The flags have a bit that means nothing. -/
  | flags {flags : Word} {caller : Privilege} {enabled : Bool} (h : flags ≠ 0 ∧ flags ≠ 1) :
    Invalid a m (sret flags caller enabled)
  /-- Swapping is asked for and not available. -/
  | autoswap {caller : Privilege} : Invalid a m (sret 1 caller false)
  /-- The call does not come from the supervisor level. -/
  | caller {flags : Word} {caller : Privilege} {enabled : Bool} (h : caller ≠ .supervisor) :
    Invalid a m (sret flags caller enabled)
  /-- The trap return context is refused. -/
  | context {flags : Word} {caller : Privilege} {enabled : Bool} {r : Refusal}
    (h : Check.trapReturn (a.returnContext m) = .error r) : Invalid a m (sret flags caller enabled)
  /-- A dirty slot holds a value that is refused. -/
  | dirty {flags : Word} {caller : Privilege} {enabled : Bool} {s : CsrSlot} {r : Refusal}
    (hdirty : a.isDirty m s = true) (h : Check.slotWrite s (a.slotValue m s) = .error r) :
    Invalid a m (sret flags caller enabled)
  /-- Swapping is asked for and its context is refused. -/
  | swap {caller : Privilege} {enabled : Bool} {r : Refusal}
    (h : Check.swap (a.swapContext m) = .error r) : Invalid a m (sret 1 caller enabled)
  /-- Swapping is asked for and an entry of the fence list is pending and refused. -/
  | fence {caller : Privilege} {enabled : Bool} {s : FenceSlot} {r : Refusal}
    (hpending : (a.fenceEntry m s).pending = true)
    (h : Check.fence (a.fenceEntry m s) = .error r) : Invalid a m (sret 1 caller enabled)

/-- The error reported is the one for the lowest slot or entry at fault. -/
inductive Blames (a : Area) (m : Memory) : {α : Type} → SyncCall α → SyncError → Prop where
  | slot {mask : SlotMask} {s : CsrSlot} {r : Refusal} (hmask : mask.exceeds Csr.span = false)
    (hselected : mask.selects s = true) (hdirty : a.isDirty m s = true)
    (h : Check.slotWrite s (a.slotValue m s) = .error r)
    (hlowest : ∀ t, t < s → mask.selects t = true → a.isDirty m t = true →
      ∃ c, Check.slotWrite t (a.slotValue m t) = .ok c) :
    Blames a m (csrs mask) (.invalid r)
  | entry {index : Word} {select : FenceSelect} {s : FenceSlot} {r : Refusal}
    (hindex : FenceSelect.ofIndex index = .ok select) (hselected : s ∈ select.slots)
    (h : Check.fence (a.fenceEntry m s) = .error r)
    (hlowest : ∀ t ∈ select.slots, t < s → ∃ f, Check.fence (a.fenceEntry m t) = .ok f) :
    Blames a m (hfences index) (.fence (.invalid s r))

end SyncCall

/-! ## Checking slots and entries -/

namespace Area

variable {a : Area} {m : Memory}

theorem slotValid_iff {s : CsrSlot} :
    a.SlotValid m s ↔ ∀ r, Check.slotWrite s (a.slotValue m s) ≠ .error r := by
  constructor
  · intro h r hr
    rw [show Check.slotWrite s (a.slotValue m s) = .ok _ from h] at hr
    cases hr
  · intro h
    rcases a.slotValid_or_refused m s with hvalid | ⟨r, hr⟩
    · exact hvalid
    · exact absurd hr (h r)

theorem fenceValid_iff {s : FenceSlot} :
    a.FenceValid m s ↔ ∀ r, Check.fence (a.fenceEntry m s) ≠ .error r := by
  constructor
  · intro h r hr
    rw [show Check.fence (a.fenceEntry m s) = .ok _ from h] at hr
    cases hr
  · intro h
    rcases a.fenceValid_or_refused m s with hvalid | ⟨r, hr⟩
    · exact hvalid
    · exact absurd hr (h r)

theorem checkSlots_ok_iff {slots : List CsrSlot} :
    a.checkSlots m slots = .ok () ↔ ∀ s ∈ slots, a.SlotValid m s := by
  refine ⟨fun h => ?_, checkSlots_ok⟩
  rcases forall_or_exists_first (a.SlotValid m) slots with hall | ⟨before, s, after, rfl, hbefore, hs⟩
  · exact hall
  · obtain ⟨r, hr⟩ := (a.slotValid_or_refused m s).resolve_left hs
    rw [checkSlots_error hbefore hr] at h
    cases h

theorem pendingFences_ok_iff {slots : List FenceSlot} :
    (∃ fences, a.pendingFences m slots = .ok fences) ↔ ∀ s ∈ slots, a.FenceValid m s := by
  refine ⟨?_, fun h => ⟨_, pendingFences_ok h⟩⟩
  rintro ⟨fences, h⟩
  rcases forall_or_exists_first (a.FenceValid m) slots with hall | ⟨before, s, after, rfl, hbefore, hs⟩
  · exact hall
  · obtain ⟨r, hr⟩ := (a.fenceValid_or_refused m s).resolve_left hs
    rw [pendingFences_error hbefore hr] at h
    cases h

/-- Only a pending entry can be refused. -/
theorem pending_of_refused {e : FenceEntry} {r : Refusal} (h : Check.fence e = .error r) :
    e.pending = true :=
  Check.pending_of_fence_ne fun hok => by cases h.symm.trans hok

end Area

/-- A selection lists its entries in ascending order. -/
theorem FenceSelect.slots_pairwise (select : FenceSelect) : select.slots.Pairwise (· < ·) := by
  cases select with
  | all => exact List.pairwise_lt_finRange 56
  | entry s => exact List.pairwise_singleton _ s

theorem FenceSelect.ofIndex_ok {index : Word}
    (h : ¬(index ≠ FenceSelect.allIndex ∧ 56 ≤ index.toNat)) :
    ∃ select, FenceSelect.ofIndex index = .ok select := by
  unfold FenceSelect.ofIndex FenceSlot.ofIndex?
  by_cases hall : index = FenceSelect.allIndex
  · exact ⟨_, if_pos hall⟩
  · rw [if_neg hall, dif_pos (Nat.lt_of_not_le fun hle => h ⟨hall, hle⟩)]
    exact ⟨_, rfl⟩

theorem FenceSelect.ofIndex_error {index : Word} (hall : index ≠ FenceSelect.allIndex)
    (h : 56 ≤ index.toNat) : FenceSelect.ofIndex index = .error (.badIndex index) := by
  unfold FenceSelect.ofIndex FenceSlot.ofIndex?
  rw [if_neg hall, dif_neg (Nat.not_lt.2 h)]

/-! ## Operands of a trap return -/

/-- A word with no bit but the lowest is zero or one. -/
theorem Word.within_one {w : Word} : Word.within 1 w = true ↔ w = 0 ∨ w = 1 := by
  constructor
  · intro h
    have hrest : ∀ i, i < 64 → i ≠ 0 → Word.bit w i = false := by
      have hbits : ∀ i : Fin 64, i.val ≠ 0 → Word.bit (~~~1) i = true := by decide
      intro i hi h0
      have hbit := congrArg (Word.bit · i) (Word.within_iff.1 h)
      rw [Word.bit_and, hbits ⟨i, hi⟩ h0, Bool.and_true, Word.bit_zero] at hbit
      exact hbit
    have hone : ∀ i : Fin 64, i.val ≠ 0 → Word.bit 1 i = false := by decide
    cases h0 : Word.bit w 0 with
    | false =>
      refine .inl (Word.ext_bit fun i hi => ?_)
      rw [Word.bit_zero]
      by_cases hi0 : i = 0
      · rw [hi0, h0]
      · exact hrest i hi hi0
    | true =>
      refine .inr (Word.ext_bit fun i hi => ?_)
      by_cases hi0 : i = 0
      · rw [hi0, h0]
        rfl
      · rw [hrest i hi hi0, hone ⟨i, hi⟩ hi0]
  · rintro (rfl | rfl) <;> decide

section
variable (env : Env σ) (a : Area) {flags : Word} {caller : Privilege} {enabled : Bool}

/-- A trap return with unknown flags, or from elsewhere, or with a swap that is not available is refused
    for its operands. -/
theorem Env.syncReturn_eq_fail
    (h : ¬((flags = 0 ∨ flags = 1) ∧ (flags = 1 → enabled = true) ∧ caller = .supervisor)) :
    ∃ e, env.syncReturn a flags caller enabled = .fail e := by
  unfold Env.syncReturn
  by_cases hflags : Word.within autoswapFlag flags = true
  · have hcases := Word.within_one.1 hflags
    by_cases hswap : Word.bit flags 0 = true ∧ ¬enabled = true
    · exact ⟨_, (if_neg (not_not.2 hflags)).trans (if_pos hswap)⟩
    · have hcaller : caller ≠ .supervisor := by
        intro hcaller
        refine h ⟨hcases, ?_, hcaller⟩
        rintro rfl
        exact Decidable.of_not_not fun henabled => hswap ⟨by decide, henabled⟩
      exact ⟨_, (if_neg (not_not.2 hflags)).trans ((if_neg hswap).trans (if_pos hcaller))⟩
  · exact ⟨_, if_pos hflags⟩

/-- Any other trap return is led through the phases. -/
theorem Env.syncReturn_eq_phases (hflags : flags = 0 ∨ flags = 1)
    (hswap : flags = 1 → enabled = true) (hcaller : caller = .supervisor) :
    env.syncReturn a flags caller enabled =
      inPhases (a.prepareReturn (flags == 1)) (env.applyReturn a) := by
  subst hcaller
  rcases hflags with rfl | rfl
  · rfl
  · rw [hswap rfl]
    rfl

end

/-- What there must be for a plan to be made. -/
theorem Area.prepareReturn_of_checks {a : Area} {m : Memory} {autoswap : Bool} {state : TrapReturn}
    {swap : Option CsrWrite} {fences : List PendingFence}
    (hstate : Check.trapReturn (a.returnContext m) = .ok state)
    (hswap : if autoswap then Check.swap (a.swapContext m) = .ok swap else swap = none)
    (hfences : if autoswap then a.pendingFences m FenceSelect.all.slots = .ok fences else fences = [])
    (hslots : a.checkSlots m (a.dirtySlots m .all) = .ok ()) :
    a.prepareReturn autoswap m = .ok ⟨state, swap, fences, a.dirtySlots m .all⟩ := by
  cases autoswap with
  | false =>
    cases show swap = none from hswap
    cases show fences = [] from hfences
    simp only [Area.prepareReturn, hstate, hslots]
    rfl
  | true =>
    have hswap : Check.swap (a.swapContext m) = .ok swap := hswap
    have hfences : a.pendingFences m FenceSelect.all.slots = .ok fences := hfences
    simp only [Area.prepareReturn, hstate, hswap, hfences, hslots]
    rfl

/-! ## What fails only with the host -/

/-- The host has carried out everything it was asked for. -/
def Performed (events : List Event) : Prop := ∀ q r, .requested q r ∈ events → ∃ v, r = .done v

theorem Performed.right {old new : List Event} (h : Performed (old ++ new)) : Performed new :=
  fun q r hq => h q r (List.mem_append_right old hq)

/-- From `w`, the computation has a result if the host carries out everything it is asked for. -/
def FailsOnlyWithHost (x : Act (World σ) ε α) (w : World σ) : Prop :=
  ∃ new, (x.run w).2.events = w.events ++ new ∧ (Performed new → ∃ b, (x.run w).1 = .ok b)

namespace FailsOnlyWithHost

variable {x : Act (World σ) ε α} {w : World σ}

theorem pure (b : α) (w : World σ) : FailsOnlyWithHost (Pure.pure b : Act (World σ) ε α) w :=
  ⟨[], (List.append_nil _).symm, fun _ => ⟨b, rfl⟩⟩

theorem bind {f : α → Act (World σ) ε β} (hx : FailsOnlyWithHost x w)
    (hf : ∀ b w', x.run w = (.ok b, w') → FailsOnlyWithHost (f b) w') :
    FailsOnlyWithHost (x >>= f) w := by
  obtain ⟨new, hevents, hok⟩ := hx
  unfold FailsOnlyWithHost
  rw [Act.bind_run]
  rcases hr : x.run w with ⟨r, w'⟩
  rw [hr] at hevents hok
  cases r with
  | ok b =>
    obtain ⟨more, hmore, hok'⟩ := hf b w' hr
    refine ⟨new ++ more, ?_, fun h => hok' h.right⟩
    rw [← List.append_assoc, ← hevents]
    exact hmore
  | error e =>
    refine ⟨new, hevents, fun h => ?_⟩
    obtain ⟨b, hb⟩ := hok h
    cases hb
  | abandoned =>
    refine ⟨new, hevents, fun h => ?_⟩
    obtain ⟨b, hb⟩ := hok h
    cases hb

theorem mapError (hx : FailsOnlyWithHost x w) (f : ε → ε') :
    FailsOnlyWithHost (Act.mapError f x) w := by
  obtain ⟨new, hevents, hok⟩ := hx
  refine ⟨new, by rw [Act.mapError_run_snd, hevents], fun h => ?_⟩
  obtain ⟨b, hb⟩ := hok h
  rw [Act.mapError_run]
  rcases hr : x.run w with ⟨r, w'⟩
  rw [hr] at hb
  subst hb
  exact ⟨b, rfl⟩

theorem changeMemory (f : Memory → Memory) (w : World σ) :
    FailsOnlyWithHost (NestedAccel.changeMemory f : Act (World σ) ε Unit) w :=
  ⟨[], (List.append_nil _).symm, fun _ => ⟨(), rfl⟩⟩

variable {env : Env σ}

theorem request (q : Request) (w : World σ) : FailsOnlyWithHost (env.request q) w := by
  unfold FailsOnlyWithHost
  rw [World.request_run]
  refine ⟨_, rfl, fun h => ?_⟩
  obtain ⟨v, hv⟩ := h q _ (List.mem_singleton_self _)
  rw [hv]
  exact ⟨v, rfl⟩

theorem scan {ι : Type} (task : ι → Task) (items : List ι) (w : World σ) :
    FailsOnlyWithHost (env.scan task items) w := by
  induction items generalizing w with
  | nil => exact pure 0 w
  | cons i rest ih =>
    refine (request _ w).bind fun _ w₁ _ => ?_
    refine (changeMemory _ w₁).bind fun _ w₂ _ => ?_
    exact (ih w₂).bind fun n w₃ _ => pure (n + 1) w₃

theorem performFences (a : Area) (fences : List PendingFence) (w : World σ) :
    FailsOnlyWithHost (env.performFences a fences) w := by
  rw [Env.performFences_eq]
  exact (scan _ fences w).mapError _

/-- Slots that have passed their checks are not refused afterwards, unless the host interferes. -/
theorem applySlots (hquiet : env.Quiet) {a : Area} {slots : List CsrSlot}
    (hvalid : ∀ s ∈ slots, a.SlotValid w.memory s) :
    FailsOnlyWithHost (env.applySlots a slots) w := by
  unfold FailsOnlyWithHost
  rw [Env.applySlots_run hquiet hvalid w fun _ => rfl]
  exact (scan _ slots w).mapError _

theorem leave (a : Area) (state : TrapReturn) (swap : Option CsrWrite) (w : World σ) :
    FailsOnlyWithHost (env.leave a state swap) w := by
  cases swap with
  | none => exact ((request _ w).mapError _).bind fun _ w₁ _ => pure () w₁
  | some c =>
    refine ((request _ w).mapError _).bind fun old w₁ _ => ?_
    refine ((request _ w₁).mapError _).bind fun _ w₂ _ => ?_
    refine ((request _ w₂).mapError _).bind fun _ w₃ _ => ?_
    exact changeMemory _ w₃

theorem applyReturn (hquiet : env.Quiet) {a : Area} {plan : ReturnPlan}
    (hvalid : ∀ s ∈ plan.slots, a.SlotValid w.memory s) :
    FailsOnlyWithHost (env.applyReturn a plan) w := by
  refine (applySlots hquiet hvalid).bind fun csrs w₁ _ => ?_
  refine ((performFences a plan.fences w₁).mapError _).bind fun fences w₂ _ => ?_
  exact (leave a plan.state plan.swap w₂).bind fun _ w₃ _ => pure _ w₃

end FailsOnlyWithHost

/-! ## Phases -/

section
variable {prepare : Memory → Except SyncError β} {apply : β → Act (World σ) SyncError α} {w : World σ}

/-- A call that does not pass its checks comes to an error and to nothing else. -/
theorem inPhases_run_error {e : SyncError} (h : prepare w.memory = .error e) :
    (inPhases prepare apply).run (.idle, w) = (.error e, (.idle, w)) := by
  rw [inPhases_run_idle, h]

/-- A call that passes them fails only with the host. -/
theorem inPhases_run_checked {b : β} (h : prepare w.memory = .ok b)
    (happly : FailsOnlyWithHost (apply b) w) :
    ∃ new, ((inPhases prepare apply).run (.idle, w)).2.2.events = w.events ++ new ∧
      (Performed new → ∃ x, ((inPhases prepare apply).run (.idle, w)).1 = .ok x ∧
        ((inPhases prepare apply).run (.idle, w)).2.1 = .idle) := by
  obtain ⟨new, hevents, hok⟩ := happly
  rw [inPhases_run_idle, h]
  dsimp only
  rcases hr : (apply b).run w with ⟨r, w'⟩
  rw [hr] at hevents hok
  refine ⟨new, ?_, fun hperformed => ?_⟩
  · cases r <;> exact hevents
  · obtain ⟨x, hx⟩ := hok hperformed
    subst hx
    exact ⟨x, rfl, rfl⟩

end

/-! ## The calls are checked first -/

namespace SyncCall

variable {env : Env σ} {a : Area} {w : World σ} {call : SyncCall α}

section
variable {flags : Word} {caller : Privilege} {enabled : Bool}

/-- A trap return for which no plan can be made comes to an error. -/
theorem sret_error (h : flags = 0 ∨ flags = 1 →
      ∀ plan, a.prepareReturn (flags == 1) w.memory ≠ .ok plan) :
    ∃ e, ((sret flags caller enabled).act env a).run (.idle, w) = (.error e, (.idle, w)) := by
  rw [act_sret]
  by_cases hoperands : (flags = 0 ∨ flags = 1) ∧ (flags = 1 → enabled = true) ∧ caller = .supervisor
  · obtain ⟨hflags, hswap, hcaller⟩ := hoperands
    rw [env.syncReturn_eq_phases a hflags hswap hcaller]
    cases hplan : a.prepareReturn (flags == 1) w.memory with
    | error e => exact ⟨e, inPhases_run_error hplan⟩
    | ok plan => exact absurd hplan (h hflags plan)
  · obtain ⟨e, he⟩ := env.syncReturn_eq_fail a hoperands
    rw [he]
    exact ⟨e, rfl⟩

/-- A trap return is refused for its operands, whatever the area holds. -/
theorem sret_operands
    (h : ¬((flags = 0 ∨ flags = 1) ∧ (flags = 1 → enabled = true) ∧ caller = .supervisor)) :
    ∃ e, ((sret flags caller enabled).act env a).run (.idle, w) = (.error e, (.idle, w)) := by
  obtain ⟨e, he⟩ := env.syncReturn_eq_fail a h
  rw [act_sret, he]
  exact ⟨e, rfl⟩

end

/-- The lowest slot or entry at fault is the one reported. -/
theorem Blames.run {e : SyncError} (h : call.Blames a w.memory e) :
    (call.act env a).run (.idle, w) = (.error e, (.idle, w)) := by
  cases h with
  | @slot mask s r hmask hselected hdirty hs hlowest =>
    have hmem : s ∈ a.dirtySlots w.memory mask := Area.mem_dirtySlots.2 ⟨hselected, hdirty⟩
    obtain ⟨before, after, hsplit, hbefore, _⟩ :=
      exists_split_of_pairwise (a.dirtySlots_pairwise w.memory mask) hmem
    have hvalid : ∀ t ∈ before, a.SlotValid w.memory t := by
      intro t ht
      obtain ⟨htmask, htdirty⟩ := Area.mem_dirtySlots.1 (hsplit ▸ List.mem_append_left _ ht)
      obtain ⟨c, hc⟩ := hlowest t (hbefore t ht) htmask htdirty
      exact hc.trans (congrArg _ (Area.slotUpdate_of_ok hc))
    refine inPhases_run_error ?_
    unfold Area.prepareCsrs
    rw [hmask, if_neg Bool.false_ne_true, hsplit, Area.checkSlots_error hvalid hs]
  | @entry index select s r hindex hselected hs hlowest =>
    obtain ⟨before, after, hsplit, hbefore, _⟩ :=
      exists_split_of_pairwise select.slots_pairwise hselected
    have hvalid : ∀ t ∈ before, a.FenceValid w.memory t := by
      intro t ht
      obtain ⟨f, hf⟩ := hlowest t (hsplit ▸ List.mem_append_left _ ht) (hbefore t ht)
      rw [Area.fenceValid_iff, hf]
      intro r hr
      cases hr
    refine inPhases_run_error ?_
    unfold Area.prepareFences
    rw [hindex]
    dsimp only
    rw [hsplit, Area.pendingFences_error hvalid hs]

/-- A call with something invalid about it comes to an error and to nothing else. -/
theorem Invalid.run (h : call.Invalid a w.memory) :
    ∃ e, (call.act env a).run (.idle, w) = (.error e, (.idle, w)) := by
  cases h with
  | mask hmask =>
    refine ⟨.maskOutOfRange, inPhases_run_error ?_⟩
    unfold Area.prepareCsrs
    rw [if_pos hmask]
  | @slot mask s r hselected hdirty hs =>
    rw [act_csrs, Env.syncCsrs]
    cases hprepare : a.prepareCsrs mask w.memory with
    | error e => exact ⟨e, inPhases_run_error hprepare⟩
    | ok slots =>
      -- the slot would have passed
      obtain ⟨rfl, hchecked⟩ := Area.of_prepareCsrs hprepare
      have hmem := Area.mem_dirtySlots.2 ⟨hselected, hdirty⟩
      exact absurd hs (Area.slotValid_iff.1 (Area.checkSlots_ok_iff.1 hchecked s hmem) r)
  | @index index hall hindex =>
    refine ⟨.fence (.badIndex index), inPhases_run_error ?_⟩
    unfold Area.prepareFences
    rw [FenceSelect.ofIndex_error hall hindex]
  | @entry index select s r hindex hselected _ hs =>
    rw [act_hfences, Env.syncHfences]
    cases hprepare : a.prepareFences index w.memory with
    | error e => exact ⟨e, inPhases_run_error hprepare⟩
    | ok fences =>
      obtain ⟨select', hselect, hfences⟩ := Area.of_prepareFences hprepare
      cases hindex.symm.trans hselect
      exact absurd hs (Area.fenceValid_iff.1 (Area.pendingFences_ok_iff.1 ⟨_, hfences⟩ s hselected) r)
  | flags hflags => exact sret_operands fun h => h.1.elim hflags.1 hflags.2
  | autoswap => exact sret_operands fun h => Bool.false_ne_true (h.2.1 rfl)
  | caller hcaller => exact sret_operands fun h => hcaller h.2.2
  -- in the cases that are left, every plan would hold what is refused
  | context hcontext =>
    refine sret_error fun _ plan hplan => ?_
    have hstate := (Area.prepareReturn_ok hplan).1
    rw [hcontext] at hstate
    cases hstate
  | @dirty _ _ _ s r hdirty hs =>
    refine sret_error fun _ plan hplan => ?_
    obtain ⟨_, _, _, hslots, hchecked⟩ := Area.prepareReturn_ok hplan
    have hmem : s ∈ plan.slots := hslots ▸ Area.mem_dirtySlots.2 ⟨Area.selects_all s, hdirty⟩
    exact Area.slotValid_iff.1 (Area.checkSlots_ok_iff.1 hchecked s hmem) r hs
  | swap hswap =>
    refine sret_error fun _ plan hplan => ?_
    have hplanned : Check.swap (a.swapContext w.memory) = .ok plan.swap :=
      (Area.prepareReturn_ok hplan).2.1
    rw [hswap] at hplanned
    cases hplanned
  | @fence _ _ s r _ hs =>
    refine sret_error fun _ plan hplan => ?_
    have hplanned : a.pendingFences w.memory FenceSelect.all.slots = .ok plan.fences :=
      (Area.prepareReturn_ok hplan).2.2.1
    have hmem : s ∈ FenceSelect.all.slots := List.mem_finRange s
    exact Area.fenceValid_iff.1 (Area.pendingFences_ok_iff.1 ⟨_, hplanned⟩ s hmem) r hs

/-- Dirty slots that are not refused pass. -/
theorem selectedValid_of_not_invalid {mask : SlotMask} (h : ¬(csrs mask).Invalid a w.memory) :
    a.SelectedValid w.memory mask := by
  intro s hselected hdirty
  rw [Area.slotValid_iff]
  exact fun r hr => h (.slot hselected hdirty hr)

/-- A plan can be made for a trap return with nothing invalid about it. -/
theorem exists_plan {flags : Word} {caller : Privilege} {enabled : Bool}
    (h : ¬(sret flags caller enabled).Invalid a w.memory) :
    ∃ plan, a.prepareReturn (flags == 1) w.memory = .ok plan := by
  have hslots : a.checkSlots w.memory (a.dirtySlots w.memory .all) = .ok () := by
    refine Area.checkSlots_ok fun s hs => Area.slotValid_iff.2 fun r hr => ?_
    exact h (.dirty (Area.mem_dirtySlots.1 hs).2 hr)
  cases hstate : Check.trapReturn (a.returnContext w.memory) with
  | error r => exact absurd (.context hstate) h
  | ok state =>
    by_cases hflag : flags = 1
    · subst hflag
      have hfences : ∀ s ∈ FenceSelect.all.slots, a.FenceValid w.memory s := by
        refine fun s _ => Area.fenceValid_iff.2 fun r hr => ?_
        exact h (.fence (Area.pending_of_refused hr) hr)
      cases hswap : Check.swap (a.swapContext w.memory) with
      | error r => exact absurd (.swap hswap) h
      | ok swap =>
        exact ⟨_, Area.prepareReturn_of_checks hstate ((if_pos rfl).mpr hswap)
          ((if_pos rfl).mpr (Area.pendingFences_ok hfences)) hslots⟩
    · rw [beq_eq_false_iff_ne.2 hflag]
      exact ⟨_, Area.prepareReturn_of_checks hstate rfl rfl hslots⟩

/-- **A call is checked before any of it is applied.** If anything about it, or anything that it would
    apply, is invalid, the call ends in an error, for the lowest slot or entry at fault, and everything is
    as it was: the host has not been asked for anything, memory is unchanged and no call is under way.
    Otherwise it has a result, unless the host fails one of its requests. -/
theorem checked_first (hquiet : env.Quiet) (a : Area) (call : SyncCall α) (w : World σ) :
    (call.Invalid a w.memory → ∃ e, (call.act env a).run (.idle, w) = (.error e, (.idle, w)) ∧
      ∀ e', call.Blames a w.memory e' → e = e') ∧
    (¬call.Invalid a w.memory →
      ∃ new, ((call.act env a).run (.idle, w)).2.2.events = w.events ++ new ∧
        (Performed new → ∃ x, ((call.act env a).run (.idle, w)).1 = .ok x ∧
          ((call.act env a).run (.idle, w)).2.1 = .idle)) := by
  constructor
  · intro h
    obtain ⟨e, he⟩ : ∃ e, (call.act env a).run (.idle, w) = (.error e, (.idle, w)) := h.run
    refine ⟨e, he, fun e' hblames => ?_⟩
    have hboth := he.symm.trans hblames.run
    exact Outcome.error.inj (congrArg Prod.fst hboth)
  · intro h
    cases call with
    | csrs mask =>
      have hmask : mask.exceeds Csr.span = false := Bool.eq_false_iff.2 fun hmask => h (.mask hmask)
      have hvalid := selectedValid_of_not_invalid h
      exact inPhases_run_checked (Area.prepareCsrs_ok hmask hvalid)
        (FailsOnlyWithHost.applySlots hquiet hvalid.mem_dirtySlots)
    | hfences index =>
      obtain ⟨select, hindex⟩ := FenceSelect.ofIndex_ok fun hbad => h (.index hbad.1 hbad.2)
      have hvalid : ∀ s ∈ select.slots, a.FenceValid w.memory s := by
        refine fun s hs => Area.fenceValid_iff.2 fun r hr => ?_
        exact h (.entry hindex hs (Area.pending_of_refused hr) hr)
      have hprepare : a.prepareFences index w.memory = .ok (a.fencesAt w.memory select.slots) := by
        unfold Area.prepareFences
        rw [hindex]
        dsimp only
        rw [Area.pendingFences_ok hvalid]
      exact inPhases_run_checked hprepare ((FailsOnlyWithHost.performFences a _ w).mapError _)
    | sret flags caller enabled =>
      have hflags : flags = 0 ∨ flags = 1 := by
        by_contra hne
        exact h (.flags (not_or.1 hne))
      have hswap : flags = 1 → enabled = true := by
        rintro rfl
        by_contra hoff
        rw [Bool.not_eq_true] at hoff
        subst hoff
        exact h .autoswap
      have hcaller : caller = .supervisor := by
        by_contra hne
        exact h (.caller hne)
      obtain ⟨plan, hplan⟩ := exists_plan h
      obtain ⟨_, _, _, hslots, hchecked⟩ := Area.prepareReturn_ok hplan
      rw [act_sret, env.syncReturn_eq_phases a hflags hswap hcaller]
      exact inPhases_run_checked hplan
        (FailsOnlyWithHost.applyReturn hquiet (Area.checkSlots_ok_iff.1 hchecked))

/-- Of two registers with values that are refused, the one with the lower slot is reported, and the
    legal value in a slot below is not applied. -/
theorem checked_first_two_refused :
    let a := Area.ofGuest 0x80000000
    let m := a.writeCsr CsrNumber.hstatus 5 (a.writeCsr CsrNumber.vsatp 1
      (a.writeCsr CsrNumber.vsscratch 7 .zero))
    let w : World Nat := { state := 0, memory := m }
    ((csrs .all).act (Env.refusing 0) a).run (.idle, w) =
      (.error (.invalid (.illegalValue CsrNumber.vsatp 1)), (.idle, w)) := by
  intro a m w
  have hdirty : a.isDirty m (.ofCsr CsrNumber.vsatp) = true := by decide
  have hrefused : Check.slotWrite (.ofCsr CsrNumber.vsatp) (a.slotValue m (.ofCsr CsrNumber.vsatp)) =
      .error (.illegalValue CsrNumber.vsatp 1) := by decide
  have hbelow : ∀ t : CsrSlot, t < .ofCsr CsrNumber.vsatp → a.isDirty m t = true →
      t = .ofCsr CsrNumber.vsscratch := by decide +kernel
  have hblames : (csrs .all).Blames a m (.invalid (.illegalValue CsrNumber.vsatp 1)) := by
    refine .slot (by decide) (Area.selects_all _) hdirty hrefused fun t hlt _ ht => ?_
    rw [hbelow t hlt ht]
    exact ⟨⟨CsrNumber.vsscratch, 7⟩, by decide⟩
  obtain ⟨e, hrun, hlowest⟩ := (checked_first (Env.refusing_quiet 0) a (csrs .all) w).1
    (.slot (Area.selects_all _) hdirty hrefused)
  rw [hrun, hlowest _ hblames]

end SyncCall

end NestedAccel
