import NestedAccel.Proofs.BatchTally
import NestedAccel.Proofs.SyncedSlots

/-!
# `NestedAccel.Proofs.SyncCounters` — what the counters of slots and fences count

Two counters of a hart say how many slots have been applied and how many fences performed. Slots and
fences take effect one by one, and are counted together once the part of the call that they belong to has
a result. So **a call that succeeds has counted exactly what has taken effect, and so has a call that
fails, unless the host has refused a request of the part that failed**: what that part had done by then is
not counted (`Platform.Reachable.counters_count`).

`Hart.Accounts` is this statement for any computation of a hart, with a parameter that says whether there
can be an exception. It is carried through a call by what leaves the two counters, the slots and the fences
alone (`Hart.Still`).
-/

namespace NestedAccel

open Act (Moves)
open World (Reaches)

variable {σ ε ε' α β : Type} {env : Env σ} {a : Area}

/-! ## Counters -/

/-- From `c` to `c'` the two counters have grown by the number of slots applied and of entries performed,
    modulo 2^64. -/
structure Grown (slots entries : Nat) (c c' : Counters) : Prop where
  csrs : c'.get .csrsSynced = c.get .csrsSynced + .ofNat slots
  fences : c'.get .hfencesApplied = c.get .hfencesApplied + .ofNat entries

namespace Grown

variable {slots more entries others : Nat} {c c' c'' : Counters}

theorem refl (c : Counters) : Grown 0 0 c c :=
  ⟨(UInt64.add_zero _).symm, (UInt64.add_zero _).symm⟩

theorem trans (h : Grown slots entries c c') (h' : Grown more others c' c'') :
    Grown (slots + more) (entries + others) c c'' where
  csrs := by rw [h'.csrs, h.csrs, UInt64.ofNat_add, UInt64.add_assoc]
  fences := by rw [h'.fences, h.fences, UInt64.ofNat_add, UInt64.add_assoc]

theorem then_still (h : Grown slots entries c c') (h' : Grown 0 0 c' c'') : Grown slots entries c c'' :=
  h.trans h'

theorem after (h : Grown 0 0 c c') (h' : Grown slots entries c' c'') : Grown slots entries c c'' := by
  have htotal := h.trans h'
  rw [Nat.zero_add, Nat.zero_add] at htotal
  exact htotal

/-- Counting anything else. -/
theorem of_other {k : Counter} (hcsrs : k ≠ .csrsSynced) (hfences : k ≠ .hfencesApplied) (c : Counters)
    (n : Word) : Grown 0 0 c (c.add k n) where
  csrs := by rw [Counters.get_add, if_neg hcsrs]; exact (UInt64.add_zero _).symm
  fences := by rw [Counters.get_add, if_neg hfences]; exact (UInt64.add_zero _).symm

theorem of_csrs (c : Counters) (n : Nat) : Grown n 0 c (c.add .csrsSynced (.ofNat n)) where
  csrs := by rw [Counters.get_add, if_pos rfl]
  fences := by rw [Counters.get_add, if_neg (by decide)]; exact (UInt64.add_zero _).symm

theorem of_fences (c : Counters) (n : Nat) : Grown 0 n c (c.add .hfencesApplied (.ofNat n)) where
  csrs := by rw [Counters.get_add, if_neg (by decide)]; exact (UInt64.add_zero _).symm
  fences := by rw [Counters.get_add, if_pos rfl]

end Grown

/-- The counters once the tally of a batch has been added to them. -/
def Tally.addTo (t : Tally) (c : Counters) : Counters :=
  ((((c.add .batchOpsSucceeded (.ofNat t.succeeded)).add .batchOpsFailed (.ofNat t.failed)).add
    .denials (.ofNat t.denied)).add .hfencesApplied (.ofNat t.fences)).add .interruptsInjected
    (.ofNat t.interrupts)

/-- Of a tally, the two counters take the fences. -/
theorem Grown.of_tally (t : Tally) (c : Counters) : Grown 0 t.fences c (t.addTo c) := by
  have hbefore : Grown 0 0 c (((c.add .batchOpsSucceeded (.ofNat t.succeeded)).add .batchOpsFailed
      (.ofNat t.failed)).add .denials (.ofNat t.denied)) :=
    ((Grown.of_other (by decide) (by decide) _ _).trans
      (.of_other (by decide) (by decide) _ _)).trans (.of_other (by decide) (by decide) _ _)
  have hcounted := hbefore.after (.of_fences _ t.fences)
  exact hcounted.then_still (.of_other (by decide) (by decide) _ _)

/-! ## What a call has cleared -/

namespace Area

/-- The slots that are dirty in `m` and clean in `m'`. -/
def slotsCleared (a : Area) (m m' : Memory) : List CsrSlot :=
  (a.dirtySlots m .all).filter fun s => !a.isDirty m' s

/-- The entries of the fence list that are pending in `m` and not in `m'`. -/
def entriesCleared (a : Area) (m m' : Memory) : List FenceSlot :=
  FenceSelect.all.slots.filter fun s => (a.fenceEntry m s).pending && !(a.fenceEntry m' s).pending

end Area

section
variable {slots : List CsrSlot} {entries : List FenceSlot} {w w' : World σ}

/-- The slots applied are those cleared. -/
theorem Applies.perm_slotsCleared (h : Applies a slots entries w w') :
    slots.Perm (a.slotsCleared w.memory w'.memory) := by
  refine (List.perm_ext_iff_of_nodup h.slots_nodup ((a.dirtySlots_nodup _ _).filter _)).2 fun s => ?_
  rw [List.mem_filter, Area.mem_dirtySlots, h.dirty]
  constructor
  · intro hs
    have hbefore := h.slots_dirty s hs
    exact ⟨⟨rfl, hbefore⟩, by rw [decide_eq_true hs, hbefore]; rfl⟩
  · rintro ⟨⟨_, hbefore⟩, hafter⟩
    rw [hbefore, Bool.true_and, Bool.not_not] at hafter
    exact of_decide_eq_true hafter

/-- The entries performed are those cleared. -/
theorem Applies.perm_entriesCleared (h : Applies a slots entries w w') :
    entries.Perm (a.entriesCleared w.memory w'.memory) := by
  refine (List.perm_ext_iff_of_nodup h.entries_nodup ((List.nodup_finRange 56).filter _)).2 fun s => ?_
  rw [List.mem_filter, Bool.and_eq_true]
  constructor
  · intro hs
    refine ⟨List.mem_finRange s, h.entries_pending hs, ?_⟩
    rw [h.finished s hs]
    rfl
  · rintro ⟨_, hbefore, hafter⟩
    by_contra hs
    rw [h.others s hs, hbefore] at hafter
    cases hafter

end

/-- The slots of the hart's area that a call has cleared; without an area there are none. -/
def Hart.slotsCleared (h : Hart) (m m' : Memory) : List CsrSlot :=
  h.session.area.elim [] fun a => a.slotsCleared m m'

/-- The entries of the hart's fence list that a call has cleared; without an area there are none. -/
def Hart.entriesCleared (h : Hart) (m m' : Memory) : List FenceSlot :=
  h.session.area.elim [] fun a => a.entriesCleared m m'

/-! ## Effects of a hart -/

/-- The slots and entries of the area that have taken effect; without an area there are none. -/
def AppliesIn (area : Option Area) (slots : List CsrSlot) (entries : List FenceSlot) (w w' : World σ) :
    Prop :=
  match area with
  | some a => Applies a slots entries w w'
  | none => slots = [] ∧ entries = []

section
variable {area : Option Area} {slots more : List CsrSlot} {entries others : List FenceSlot}
  {w w' w'' : World σ}

theorem AppliesIn.trans (h : AppliesIn area slots entries w w')
    (h' : AppliesIn area more others w' w'') :
    AppliesIn area (slots ++ more) (entries ++ others) w w'' := by
  cases area with
  | some a => exact Applies.trans h h'
  | none =>
    obtain ⟨rfl, rfl⟩ := h
    obtain ⟨rfl, rfl⟩ := h'
    exact ⟨rfl, rfl⟩

theorem AppliesIn.then_still (h : AppliesIn area slots entries w w')
    (h' : ∀ a, Applies a [] [] w' w'') : AppliesIn area slots entries w w'' := by
  cases area with
  | some a => exact Applies.then_still h (h' a)
  | none => exact h

theorem AppliesIn.of_forall (h : ∀ a, Applies a [] [] w w') : AppliesIn area [] [] w w' := by
  cases area with
  | some a => exact h a
  | none => exact ⟨rfl, rfl⟩

/-- What has taken effect in a hart's area is what has been cleared. -/
theorem AppliesIn.perm_cleared {hart : Hart} (h : AppliesIn hart.session.area slots entries w w') :
    slots.Perm (hart.slotsCleared w.memory w'.memory) ∧
      entries.Perm (hart.entriesCleared w.memory w'.memory) := by
  unfold Hart.slotsCleared Hart.entriesCleared
  cases harea : hart.session.area with
  | some a =>
    rw [harea] at h
    exact ⟨Applies.perm_slotsCleared h, Applies.perm_entriesCleared h⟩
  | none =>
    rw [harea] at h
    obtain ⟨rfl, rfl⟩ := h
    exact ⟨List.Perm.nil, List.Perm.nil⟩

end

namespace Hart

variable {cfg : Config} {claimed : List Word} {area : Option Area} {call : AccelCall}

/-- The hart keeps its area, nothing takes effect in any area, and the two counters stay as they are. -/
structure Still (st st' : Hart × World σ) : Prop where
  area_eq : st'.1.session.area = st.1.session.area
  applies : ∀ a, Applies a [] [] st.2 st'.2
  grown : Grown 0 0 st.1.counters st'.1.counters

instance : IsPreorder (Hart × World σ) Still where
  refl st := ⟨rfl, fun a => .refl a st.2, .refl _⟩
  trans _ _ _ h h' :=
    ⟨h'.area_eq.trans h.area_eq, fun a => (h.applies a).trans (h'.applies a), h.grown.trans h'.grown⟩

/-- What has taken effect when a computation of a hart has ended with outcome `o`, and what the counters
    say about it if it has come back. If `short`, they may say nothing where the host has refused the last
    request and the computation has failed for that. -/
structure Outturn (short : Prop) (area : Option Area) (slots : List CsrSlot) (entries : List FenceSlot)
    (st : Hart × World σ) (o : Outcome SbiError α) (st' : Hart × World σ) : Prop where
  area_eq : st'.1.session.area = area
  applies : AppliesIn area slots entries st.2 st'.2
  grown : o ≠ .abandoned → Grown slots.length entries.length st.1.counters st'.1.counters ∨
    short ∧ ∃ he, o = .error he.sbi ∧ Refused st.2 st'.2 he ∧ Grown 0 0 st.1.counters st'.1.counters

/-- From every state in which the hart has the given area, the computation ends so, with slots and entries
    of the kind `P`. -/
def Accounts (short : Prop) (P : List CsrSlot → List FenceSlot → Prop) (area : Option Area)
    (x : Act (Hart × World σ) SbiError α) : Prop :=
  ∀ st, st.1.session.area = area → ∃ slots entries, P slots entries ∧
    Outturn short area slots entries st (x.run st).1 (x.run st).2

namespace Accounts

variable {short : Prop} {P : List CsrSlot → List FenceSlot → Prop}
  {x : Act (Hart × World σ) SbiError α}

theorem of_still (hP : P [] []) (hx : Moves Still x) : Accounts short P area x := by
  intro st harea
  have hstill := hx st
  exact ⟨[], [], hP, hstill.area_eq.trans harea, .of_forall hstill.applies, fun _ => .inl hstill.grown⟩

/-- What comes first has no effect. -/
theorem still_bind (hP : P [] []) (hx : Moves Still x) {f : α → Act (Hart × World σ) SbiError β}
    (hf : ∀ b, Accounts short P area (f b)) : Accounts short P area (x >>= f) := by
  intro st harea
  have hstill := hx st
  rw [Act.bind_run]
  rcases hr : x.run st with ⟨o, st'⟩
  rw [hr] at hstill
  have harea' := hstill.area_eq.trans harea
  cases o with
  | ok b =>
    obtain ⟨slots, entries, hslots, hend⟩ := hf b st' harea'
    refine ⟨slots, entries, hslots, hend.area_eq, ?_, fun hback => ?_⟩
    · exact AppliesIn.trans (.of_forall hstill.applies) hend.applies
    · rcases hend.grown hback with hgrown | ⟨hshort, he, ho, hrefused, hgrown⟩
      · exact .inl (hstill.grown.after hgrown)
      · obtain ⟨new, hevents, _⟩ := (hstill.applies default).record
        exact .inr ⟨hshort, he, ho, hrefused.after hevents, hstill.grown.trans hgrown⟩
  | error e => exact ⟨[], [], hP, harea', .of_forall hstill.applies, fun _ => .inl hstill.grown⟩
  | abandoned => exact ⟨[], [], hP, harea', .of_forall hstill.applies, fun _ => .inl hstill.grown⟩

theorem mono {short' : Prop} {P' : List CsrSlot → List FenceSlot → Prop} (hx : Accounts short P area x)
    (hshort : short → short') (hP : ∀ slots entries, P slots entries → P' slots entries) :
    Accounts short' P' area x := by
  intro st harea
  obtain ⟨slots, entries, hslots, hend⟩ := hx st harea
  refine ⟨slots, entries, hP _ _ hslots, hend.area_eq, hend.applies, fun hback => ?_⟩
  exact (hend.grown hback).imp_right fun ⟨h, hrest⟩ => ⟨hshort h, hrest⟩

end Accounts

/-! ## Parts of a call without effect -/

theorem onWorld_still {x : Act (World σ) ε α} (h : ∀ a, Moves (Applies a [] []) x) :
    Moves Still (onWorld x) := fun st => ⟨rfl, fun a => h a st.2, .refl _⟩

theorem logMessage_still (l : LogLevel) (text : String) :
    Moves Still (onWorld (logMessage l text) : Act (Hart × World σ) ε Unit) :=
  onWorld_still fun a => Moves.modify fun w => .message a w _

theorem count_still {k : Counter} (hcsrs : k ≠ .csrsSynced) (hfences : k ≠ .hfencesApplied) (n : Nat) :
    Moves Still (count k n : Act (Hart × World σ) ε Unit) :=
  fun st => ⟨rfl, fun a => .refl a st.2, .of_other hcsrs hfences _ _⟩

theorem requireFeature_still (f : Feature) :
    Moves Still (requireFeature cfg f : Act (Hart × World σ) SbiError Unit) := by
  unfold requireFeature
  split
  · exact Moves.pure _
  · exact Moves.fail _

theorem changeMode_still (id mode flags : Word) :
    Moves Still (changeMode id mode flags : Act (Hart × World σ) SbiError CallResult) := by
  intro st
  refine Act.bind_moves (Moves.gets _ st) fun r st' hr => ?_
  obtain ⟨rfl, rfl⟩ := Act.run_gets_ok hr
  refine Act.bind_moves ((Moves.ofExcept _).mapError _ _) fun s st₁ hs => ?_
  obtain ⟨hs, rfl⟩ := Act.run_ofExcept_ok (Act.run_mapError_ok hs)
  refine Act.bind_moves ?_ fun _ st₂ _ => ?_
  · exact ⟨setMode_area hs, fun a => .refl a st₁.2, .refl _⟩
  · exact ((logMessage_still _ _).bind fun _ => Moves.pure _) st₂

/-- A counter that is read and not cleared stays as it is. -/
theorem readCounter_still (counter : Word) :
    Moves Still (readCounter counter 0 : Act (Hart × World σ) SbiError CallResult) := by
  unfold readCounter
  split
  · exact Moves.fail _
  · exact fun st => ⟨rfl, fun a => .refl a st.2, .refl _⟩

theorem inject_still (hquiet : env.Quiet) (kind number target : Word) :
    Moves Still (inject env cfg kind number target) := by
  refine Moves.check fun i _ => ?_
  have hrequest : ∀ a, Moves (Applies a [] []) (env.request (.inject i)) := by
    intro a w
    have hnone : (Request.inject i).fence? = none := rfl
    exact .of_reaches hquiet (Env.request_moves hnone w)
  refine ((onWorld_still hrequest).mapError _).bind fun _ => ?_
  exact (count_still (by decide) (by decide) _).bind fun _ => Moves.pure _

/-! ## Synchronization calls -/

theorem requireArea_bind_run_none {h : Hart} (harea : h.session.area = none)
    {k : Area → Act (Hart × World σ) SbiError β} (w : World σ) :
    (requireArea >>= k).run (h, w) = (.error .noShmem, (h, w)) := by
  have hrequire : (requireArea : Act (Hart × World σ) SbiError Area).run (h, w) =
      (.error .noShmem, (h, w)) := by
    unfold requireArea Session.requireArea
    rw [Act.bind_run, Act.gets_run, Act.next_ok, harea]
    rfl
  rw [Act.bind_run, hrequire, Act.next_error]

/-- A synchronization call that counts what it has a result for. -/
theorem accounts_sync {P : List CsrSlot → List FenceSlot → Prop} (hP : P [] [])
    {x : Area → Act (Phase × World σ) SyncError α} {Q : α → List CsrSlot → List FenceSlot → Prop}
    {k : α → Act (Hart × World σ) SbiError CallResult}
    (hx : ∀ a st, ∃ slots entries, P slots entries ∧
      CallTakesEffect a slots entries (fun r => Q r slots entries) (x a) st)
    (hk : ∀ r slots entries, Q r slots entries → ∀ st, ∃ b counters,
      (k r).run st = (.ok b, ({ st.1 with counters }, st.2)) ∧
      Grown slots.length entries.length st.1.counters counters) :
    Accounts True P area (requireArea >>= fun a => (onPhase (x a)).mapError SyncError.sbi >>= k) := by
  rintro ⟨h, w⟩ rfl
  cases harea : h.session.area with
  | none =>
    rw [requireArea_bind_run_none harea]
    exact ⟨[], [], hP, harea, ⟨rfl, rfl⟩, fun _ => .inl (.refl _)⟩
  | some a =>
    rw [requireArea_bind_run harea]
    obtain ⟨slots, entries, hslots, happlies, hok, herror⟩ := hx a (h.phase, w)
    refine ⟨slots, entries, hslots, ?_⟩
    rcases hr : (x a).run (h.phase, w) with ⟨o, phase, w'⟩
    rw [hr] at happlies
    cases o with
    | ok r =>
      obtain ⟨b, counters, hrun, hgrown⟩ := hk r slots entries (hok r _ hr) ({ h with phase }, w')
      dsimp only
      rw [hrun]
      exact ⟨harea, happlies, fun _ => .inl hgrown⟩
    | error e =>
      refine ⟨harea, happlies, fun _ => ?_⟩
      rcases herror e _ hr with ⟨rfl, rfl⟩ | ⟨he, hsbi, hrefused⟩
      · exact .inl (.refl _)
      · exact .inr ⟨trivial, he, congrArg _ hsbi, hrefused, .refl _⟩
    | abandoned => exact ⟨harea, happlies, fun hback => absurd rfl hback⟩

section
variable (hquiet : env.Quiet)
include hquiet

theorem syncCsrs_accounts (mask : SlotMask) :
    Accounts True (fun _ entries => entries = []) area (syncCsrs env mask) := by
  refine .still_bind rfl (count_still (by decide) (by decide) _) fun _ => ?_
  refine accounts_sync (Q := fun n slots entries => n = slots.length ∧ entries = []) rfl
    (fun a st => ?_) fun n slots entries hn st => ?_
  · obtain ⟨slots, happlies, hok, herror⟩ := Env.syncCsrs_takesEffect hquiet (a := a) mask st
    exact ⟨slots, [], rfl, happlies, fun n st' hn => ⟨(hok n st' hn).2, rfl⟩, herror⟩
  · obtain ⟨rfl, rfl⟩ := hn
    exact ⟨_, _, rfl, .of_csrs _ _⟩

theorem syncHfences_accounts (index : Word) :
    Accounts True (fun slots _ => slots = []) area (syncHfences env index) := by
  refine .still_bind rfl (count_still (by decide) (by decide) _) fun _ => ?_
  refine accounts_sync (Q := fun n slots entries => n = entries.length ∧ slots = []) rfl
    (fun a st => ?_) fun n slots entries hn st => ?_
  · obtain ⟨entries, happlies, hok, herror⟩ := Env.syncHfences_takesEffect hquiet (a := a) index st
    exact ⟨[], entries, rfl, happlies, fun n st' hn => ⟨hok n st' hn, rfl⟩, herror⟩
  · obtain ⟨rfl, rfl⟩ := hn
    exact ⟨_, _, rfl, .of_fences _ _⟩

theorem syncReturn_accounts (flags : Word) (caller : Privilege) :
    Accounts True (fun _ _ => True) area (syncReturn env cfg flags caller) := by
  refine .still_bind trivial (count_still (by decide) (by decide) _) fun _ => ?_
  refine accounts_sync (Q := fun (summary : ReturnSummary) slots entries =>
    summary.csrs = slots.length ∧ summary.fences = entries.length) trivial
    (fun a st => ?_) fun summary slots entries hsummary st => ?_
  · obtain ⟨slots, entries, happlies, hok, herror⟩ := Env.syncReturn_takesEffect hquiet (a := a) flags
      caller (cfg.features.contains .autoswapCsr) st
    exact ⟨slots, entries, trivial, happlies, fun r st' hr => (hok r st' hr).2, herror⟩
  · refine ⟨_, _, rfl, ?_⟩
    rw [hsummary.1, hsummary.2]
    have htotal := (Grown.of_csrs st.1.counters slots.length).trans (.of_fences _ entries.length)
    rw [Nat.zero_add, Nat.add_zero] at htotal
    exact htotal

end

/-! ## Batches -/

/-- A batch that could not be run is only reported. -/
theorem reportBatch_still (id addr : Word) (e : BatchError) :
    Moves Still (reportBatch id addr (.error e) : Act (Hart × World σ) SbiError CallResult) :=
  (logMessage_still _ _).bind fun _ => Moves.fail _

/-- The tally of a batch is added to the counters, one part after the other. -/
theorem reportBatch_run (id addr : Word) (tally : Tally) (h : Hart) (w : World σ) :
    ∃ console, (reportBatch id addr (.ok tally)).run (h, w) =
      (.ok (.value (.ofNat tally.succeeded)),
        ({ h with counters := tally.addTo h.counters }, { w with console })) := by
  by_cases hdenied : tally.denied ≠ 0
  · simp only [reportBatch, if_pos hdenied]
    exact ⟨_, rfl⟩
  · refine ⟨w.console, ?_⟩
    simp only [reportBatch, if_neg hdenied]
    rfl

/-- The fences of a tally are counted. -/
theorem reportBatch_run_ok (id addr : Word) (tally : Tally) (h : Hart) (w : World σ) :
    ∃ counters console, (reportBatch id addr (.ok tally)).run (h, w) =
        (.ok (.value (.ofNat tally.succeeded)), ({ h with counters }, { w with console })) ∧
      Grown 0 tally.fences h.counters counters := by
  obtain ⟨console, hrun⟩ := reportBatch_run id addr tally h w
  exact ⟨_, console, hrun, .of_tally tally h.counters⟩

/-- **A batch counts its fences,** whatever becomes of them, as long as its array is clear of the area. -/
theorem runBatch_accounts (hquiet : env.Quiet)
    (hclear : ∀ a, area = some a → ∀ b, env.InBatch cfg.maxBatch claimed b → ¬a.Owns b)
    (id addr len : Word) :
    Accounts False (fun slots _ => slots = []) area (runBatch env cfg id claimed addr len) := by
  rw [runBatch_eq]
  refine .still_bind rfl (count_still (by decide) (by decide) _) fun _ => ?_
  rintro ⟨h, w⟩ rfl
  rw [Act.bind_run, Act.gets_run, Act.next_ok]
  cases harea : h.session.area with
  | none =>
    have hstill : Still (h, w) ((reportBatch id addr (.error .noSession)).run (h, w)).2 :=
      reportBatch_still id addr .noSession (h, w)
    exact ⟨[], [], rfl, hstill.area_eq.trans harea, ⟨rfl, rfl⟩, fun _ => .inl hstill.grown⟩
  | some a =>
    have hcounts : Tallies a Tally.fences
        (env.runBatch cfg.harts cfg.maxBatch (some a) claimed addr len) w :=
      Env.runBatch_tallies hquiet (hclear a harea) addr len w
    obtain ⟨entries, happlies, hok, herror⟩ := hcounts
    refine ⟨[], entries, rfl, ?_⟩
    rw [Act.bind_run, Act.attempt_run, onWorld, Act.onSecond_run]
    rcases hr : (env.runBatch cfg.harts cfg.maxBatch (some a) claimed addr len).run w with ⟨o, w'⟩
    rw [hr] at happlies
    cases o with
    | ok tally =>
      obtain ⟨counters, console, hrun, hgrown⟩ := reportBatch_run_ok id addr tally h w'
      dsimp only
      rw [Act.next_ok, hrun]
      rw [hok tally w' hr] at hgrown
      have happlied : Applies a [] entries w { w' with console } :=
        happlies.then_still (.message a w' console)
      exact ⟨harea, happlied, fun _ => .inl hgrown⟩
    | error e =>
      obtain rfl := herror e w' hr
      have hstill : Still (h, w') ((reportBatch id addr (.error e)).run (h, w')).2 :=
        reportBatch_still id addr e (h, w')
      refine ⟨hstill.area_eq.trans harea, ?_, fun _ => .inl hstill.grown⟩
      exact happlies.then_still (hstill.applies a)
    | abandoned => exact ⟨harea, happlies, fun hback => absurd rfl hback⟩

/-! ## Calls -/

/-- The host can refuse a request of the call itself after some of its effects have been had. -/
def Synchronizes (call : AccelCall) : Prop :=
  syncsCsrs call = true ∨ ∃ index, call = .syncHfence index

section
variable (hquiet : env.Quiet)
  (hclear : ∀ a, area = some a → ∀ b, env.InBatch cfg.maxBatch claimed b → ¬a.Owns b)
  (hstat : ∀ counter clear, call = .getStatistic counter clear → clear = 0) (id : Word)
  (caller : Privilege)
include hquiet hclear hstat

/-- What a call does counts what takes effect, and only the calls that apply CSRs take effect on slots. -/
theorem perform_accounts :
    Accounts (Synchronizes call) (fun slots _ => syncsCsrs call = false → slots = []) area
      (perform env cfg id claimed caller call) := by
  have hstill : ∀ {x : Act (Hart × World σ) SbiError CallResult}, Moves Still x →
      Accounts (Synchronizes call) (fun slots _ => syncsCsrs call = false → slots = []) area x :=
    .of_still fun _ => rfl
  have hfeature : ∀ f {k : Act (Hart × World σ) SbiError CallResult},
      Accounts (Synchronizes call) (fun slots _ => syncsCsrs call = false → slots = []) area k →
      Accounts (Synchronizes call) (fun slots _ => syncsCsrs call = false → slots = []) area
        (requireFeature cfg f >>= fun _ => k) :=
    fun f _ hk => .still_bind (fun _ => rfl) (requireFeature_still f) fun _ => hk
  cases call with
  | probeFeature feature => exact hstill (Moves.pure _)
  | setShmem => exact hstill (Moves.fail _)
  | syncCsr low high =>
    refine hfeature _ ((syncCsrs_accounts hquiet _).mono (fun _ => .inl rfl) fun _ _ _ h => ?_)
    cases h
  | syncHfence index =>
    exact hfeature _ ((syncHfences_accounts hquiet index).mono (fun _ => .inr ⟨index, rfl⟩)
      fun _ _ h _ => h)
  | syncSret flags =>
    refine hfeature _ ((syncReturn_accounts hquiet flags caller).mono (fun _ => .inl rfl)
      fun _ _ _ h => ?_)
    cases h
  | batchExecute addr len =>
    exact hfeature _ ((runBatch_accounts hquiet hclear id addr len).mono False.elim fun _ _ h _ => h)
  | injectInterrupt kind number target => exact hfeature _ (hstill (inject_still hquiet _ _ _))
  | getVersion => exact hstill (Moves.pure _)
  | getMode => exact hstill ((Moves.gets _).bind fun _ => Moves.pure _)
  | setMode mode flags => exact hstill (changeMode_still _ _ _)
  | getStatistic counter clear =>
    obtain rfl := hstat counter clear rfl
    exact hfeature _ (hstill (readCounter_still counter))

end

/-- An error is concluded with no effect on what is accounted for. -/
theorem conclude_error_grown (id : Word) (call : AccelCall) (e : SbiError) (h : Hart) (w : World σ) :
    ∃ counters console, (conclude id call (.error e)).run (h, w) =
        (.error e, ({ h with counters }, { w with console })) ∧ Grown 0 0 h.counters counters := by
  obtain ⟨console, hrun⟩ := conclude_error_run id call e h w
  refine ⟨_, console, hrun, ?_⟩
  split
  · exact .of_other (by decide) (by decide) _ _
  · exact .refl _

theorem Accounts.concluded {short : Prop} {P : List CsrSlot → List FenceSlot → Prop}
    {x : Act (Hart × World σ) SbiError CallResult} (hx : Accounts short P area x) (id : Word)
    (call : AccelCall) : Accounts short P area (x.attempt >>= conclude id call) := by
  intro st harea
  obtain ⟨slots, entries, hslots, hend⟩ := hx st harea
  refine ⟨slots, entries, hslots, ?_⟩
  rw [Act.bind_run, Act.attempt_run]
  rcases hr : x.run st with ⟨o, h, w⟩
  rw [hr] at hend
  cases o with
  | ok r => exact hend
  | abandoned => exact ⟨hend.area_eq, hend.applies, fun hback => absurd rfl hback⟩
  | error e =>
    obtain ⟨counters, console, hrun, hgrown⟩ := conclude_error_grown id call e h w
    dsimp only
    rw [Act.next_ok, hrun]
    refine ⟨hend.area_eq, hend.applies.then_still fun a => .message a w console, fun _ => ?_⟩
    have hback : (.error e : Outcome SbiError CallResult) ≠ .abandoned := by
      intro hlost
      cases hlost
    rcases hend.grown hback with hcounted | ⟨hshort, he, herror, hrefused, hcounted⟩
    · exact .inl (hcounted.then_still hgrown)
    · exact .inr ⟨hshort, he, herror, hrefused, hcounted.then_still hgrown⟩

/-- What the counters say once a call has come back: the slots and entries that have taken effect are
    counted, or the host has refused the last request and the call has failed for that. Then the effects of
    the part that failed are missing: all of them, or those of a fence call after a drain. -/
def Counted (call : AccelCall) (slots : List CsrSlot) (entries : List FenceSlot) (st : Hart × World σ)
    (o : Outcome SbiError CallResult) (st' : Hart × World σ) : Prop :=
  Grown slots.length entries.length st.1.counters st'.1.counters ∨
    ∃ he, o = .error he.sbi ∧ Refused st.2 st'.2 he ∧
      (Grown 0 0 st.1.counters st'.1.counters ∨
        (∃ index, call = .syncHfence index) ∧ Grown slots.length 0 st.1.counters st'.1.counters)

section
variable (hquiet : env.Quiet)
  (hclear : ∀ a, area = some a → ∀ b, env.InBatch cfg.maxBatch claimed b → ¬a.Owns b)
  (hstat : ∀ counter clear, call = .getStatistic counter clear → clear = 0) (id : Word)
  (caller : Privilege) {h : Hart} {w : World σ}
include hquiet hclear hstat

theorem undrained_accounts :
    Accounts (Synchronizes call) (fun slots _ => syncsCsrs call = false → slots = []) area
      (undrained env cfg id claimed caller call) :=
  (perform_accounts hquiet hclear hstat id caller).concluded id call

/-- Without a drain, a call counts what it does. -/
theorem handle_undrained_counts (harea : h.session.area = area)
    (hnone : syncsCsrs call = true ∨ h.drainArea? = none) :
    let out := (handle env cfg id claimed caller call).run (h, w)
    ∃ slots entries, AppliesIn area slots entries w out.2.2 ∧
      (out.1 ≠ .abandoned → Counted call slots entries (h, w) out.1 out.2) := by
  intro out
  have hrun : out = (undrained env cfg id claimed caller call).run (h, announced id call w) :=
    handle_run_undrained env cfg id claimed caller hnone w
  obtain ⟨slots, entries, _, hend⟩ :=
    undrained_accounts hquiet hclear hstat id caller (h, announced id call w) harea
  rw [← hrun] at hend
  have hmessage : AppliesIn area [] [] w (announced id call w) := .of_forall fun a => .message a w _
  refine ⟨slots, entries, hmessage.trans hend.applies, fun hback => ?_⟩
  refine (hend.grown hback).imp_right ?_
  rintro ⟨_, he, ho, hrefused, hgrown⟩
  exact ⟨he, ho, hrefused, .inl hgrown⟩

/-- With a drain, a call counts what the drain has done and then what it does itself. -/
theorem handle_eager_counts (harea : area = some a) (hcall : syncsCsrs call = false)
    (hdrainArea : h.drainArea? = some a) :
    let out := (handle env cfg id claimed caller call).run (h, w)
    ∃ slots entries, Applies a slots entries w out.2.2 ∧
      (out.1 ≠ .abandoned → Counted call slots entries (h, w) out.1 out.2) := by
  intro out
  have hrun : out = _ := handle_run_eager env cfg id claimed caller hcall hdrainArea w
  obtain ⟨slots, happlies, hok, herror⟩ :=
    Env.syncCsrs_takesEffect hquiet (a := a) .all (h.phase, announced id call w)
  rcases hr : (env.syncCsrs a .all).run (h.phase, announced id call w) with ⟨o, phase, w'⟩
  rw [hr] at hrun happlies
  have hdrained : Applies a slots [] w w' := (Applies.message a w _).trans happlies
  cases o with
  | ok n =>
    obtain ⟨_, rfl⟩ := hok n _ hr
    have hcounted := Grown.of_csrs h.counters slots.length
    have hsession : h.session.area = area := (drainArea?_some hdrainArea).trans harea.symm
    obtain ⟨more, entries, hmore, hend⟩ := undrained_accounts hquiet hclear hstat id caller
      ({ h with phase, counters := h.counters.add .csrsSynced (.ofNat slots.length) }, w') hsession
    obtain rfl := hmore hcall
    -- the call goes on from where the drain has ended, and applies no more slots
    dsimp only at hrun
    have happlied := hend.applies
    rw [← hrun] at hend
    rw [← hrun, harea] at happlied
    refine ⟨slots ++ [], entries, hdrained.trans happlied, fun hback => ?_⟩
    rw [List.append_nil]
    rcases hend.grown hback with hgrown | ⟨hsync, he, ho, hrefused, hgrown⟩
    · have hboth := hcounted.trans hgrown
      rw [Nat.zero_add] at hboth
      exact .inl hboth
    -- what the drain has done is counted all the same
    · have hfence : ∃ index, call = .syncHfence index :=
        hsync.resolve_left (by rw [hcall]; exact Bool.false_ne_true)
      obtain ⟨new, hevents, _⟩ := hdrained.record
      exact .inr ⟨he, ho, hrefused.after hevents, .inr ⟨hfence, hcounted.then_still hgrown⟩⟩
  | error e =>
    obtain ⟨counters, console, hconclude, hgrown⟩ :=
      conclude_error_grown id call e.sbi { h with phase } w'
    dsimp only at hrun
    rw [hconclude] at hrun
    rw [hrun]
    refine ⟨slots, [], hdrained.then_still (.message a w' console), fun _ => ?_⟩
    rcases herror e _ hr with ⟨rfl, _⟩ | ⟨he, hsbi, hrefused⟩
    · exact .inl hgrown
    · exact .inr ⟨he, congrArg _ hsbi, hrefused, .inl hgrown⟩
  | abandoned =>
    rw [hrun]
    exact ⟨slots, [], hdrained, fun hback => absurd rfl hback⟩

/-- **What a call counts,** in either mode. -/
theorem handle_counts (harea : h.session.area = area) :
    let out := (handle env cfg id claimed caller call).run (h, w)
    ∃ slots entries, AppliesIn area slots entries w out.2.2 ∧
      (out.1 ≠ .abandoned → Counted call slots entries (h, w) out.1 out.2) := by
  by_cases hnone : syncsCsrs call = true ∨ h.drainArea? = none
  · exact handle_undrained_counts hquiet hclear hstat id caller harea hnone
  · rw [not_or, Bool.not_eq_true] at hnone
    obtain ⟨a, hdrainArea⟩ := Option.ne_none_iff_exists'.1 hnone.2
    have hsome : area = some a := harea.symm.trans (drainArea?_some hdrainArea)
    obtain ⟨slots, entries, happlies, hcounted⟩ :=
      handle_eager_counts hquiet hclear hstat id caller hsome hnone.1 hdrainArea (w := w)
    exact ⟨slots, entries, hsome ▸ happlies, hcounted⟩

end

end Hart

/-! ## Reachable states -/

namespace Platform

variable {config : Config} {st st' : Platform × World σ}

/-- **The counters of slots and fences count what has taken effect.** Let any hart make a call that comes
    back, but not one that clears a counter. The slots it has cleared in the hart's area are those whose
    values the host has been given, and the entries it has cleared are those whose fences the host has
    performed. The two counters have grown by their numbers, modulo 2^64, **unless the host has refused its
    last request and the call has failed for that.** Then the effects of the part that failed are missing:
    all of them, or those on entries if it was a fence call, after a drain. -/
theorem Reachable.counters_count (hquiet : env.Quiet) (hmap : env.Faithful)
    (hreach : Reachable env config st) {id : Word} {hart : Hart} (hh : st.1.hart? id = some hart)
    {call : AccelCall} (hstat : ∀ counter clear, call = .getStatistic counter clear → clear = 0)
    {caller : Privilege} {o : Outcome SbiError CallResult}
    (hrun : (handle env id caller call).run st = (o, st')) (hback : o ≠ .abandoned) :
    let slots := hart.slotsCleared st.2.memory st'.2.memory
    let entries := hart.entriesCleared st.2.memory st'.2.memory
    ∃ hart' new, st'.1.hart? id = some hart' ∧ st'.2.events = st.2.events ++ new ∧
      (∀ a, hart.session.area = some a →
        (∀ s ∈ slots, .writeCsr (a.slotUpdate st.2.memory s) ∈ requestsDone new) ∧
        (entries.map (a.fence? st.2.memory)).Perm ((fencesDone new).map some)) ∧
      (Grown slots.length entries.length hart.counters hart'.counters ∨
        ∃ e before q, o = .error e.sbi ∧ new = before ++ [.requested q (.refused e)] ∧
          (Grown 0 0 hart.counters hart'.counters ∨
            (∃ index, call = .syncHfence index) ∧
              Grown slots.length 0 hart.counters hart'.counters)) := by
  rcases st with ⟨p, w⟩
  rw [handle_run env hh] at hrun
  have hclear : ∀ a, hart.session.area = some a → ∀ b, env.InBatch p.config.maxBatch p.claimed b →
      ¬a.Owns b := fun a ha b => (hreach.placed hmap.ifAligned).array_apart hmap hh ha
  have hcounts := Hart.handle_counts hquiet hclear hstat id caller (h := hart) (w := w) rfl
  have hwithin : Hart.Within env p.config p.claimed (hart, w)
      ((Hart.handle env p.config id p.claimed caller call).run (hart, w)).2 :=
    Hart.handle_moves id caller call (hart, w)
  rcases hr : (Hart.handle env p.config id p.claimed caller call).run (hart, w) with ⟨o₁, hart', w'⟩
  rw [hr] at hrun hcounts hwithin
  cases hrun
  obtain ⟨applied, performed, happlies, hgrown⟩ := hcounts
  obtain ⟨hslots, hentries⟩ := happlies.perm_cleared
  obtain ⟨new, hevents, _⟩ := hwithin.2.events
  have hnew : ∀ {more : List Event}, w'.events = w.events ++ more → more = new := fun h =>
    List.append_cancel_left (h.symm.trans hevents)
  intro slots entries
  refine ⟨hart', new, hart?_setHart_same hh hart', hevents, fun a ha => ?_, ?_⟩
  · rw [ha] at happlies
    obtain ⟨more, hmore, hwrites, hfences⟩ := Applies.record happlies
    obtain rfl := hnew hmore
    refine ⟨fun s hs => hwrites.subset ?_, ?_⟩
    · exact List.mem_map_of_mem (hslots.mem_iff.2 hs)
    · rw [← hfences]
      exact hentries.symm.map _
  · rw [← hslots.length_eq, ← hentries.length_eq]
    refine (hgrown hback).imp_right ?_
    rintro ⟨e, ho, ⟨before, q, hrefused⟩, hcounted⟩
    exact ⟨e, before, q, ho, (hnew hrefused).symm, hcounted⟩

/-- One hart with its area, and two dirty CSRs in it. -/
def twoDirty (n : Nat) : Platform × World Nat :=
  let created : Platform × World Nat :=
    ({ config := {}, harts := #[{}] }, { state := 0, memory := .zero })
  let st := (Operation.establish 0x3000 0).run (Env.refusing n) 0 created
  (st.1, { st.2 with
    state := 0
    memory := (Area.ofGuest 0x3000).writeCsrs
      [⟨CsrNumber.vsscratch, 1⟩, ⟨CsrNumber.hcounteren, 7⟩] st.2.memory })

theorem reachable_twoDirty (n : Nat) : Reachable (Env.refusing n) {} (twoDirty n) := by
  have hnew := Reachable.one (Env.refusing n) { state := 0, memory := .zero } rfl
  exact (hnew.step 0 (.establish 0x3000 0)).elsewhere _ _

theorem hart?_twoDirty (n : Nat) :
    (twoDirty n).1.hart? 0 = some { session := { area := some (.ofGuest 0x3000) } } := rfl

/-- Both are applied by one call, and counted. -/
theorem counters_count_two :
    let out := (handle (Env.refusing 9) 0 .supervisor (.syncCsr 0 0)).run (twoDirty 9)
    Reachable (Env.refusing 9) {} (twoDirty 9) ∧ out.1 = .ok (.value 2) ∧
    (requestsDone out.2.2.events).length = 2 ∧
    ∃ hart', out.2.1.hart? 0 = some hart' ∧ hart'.counters.get .csrsSynced = 2 := by
  intro out
  have hresult : out.1 = .ok (.value 2) := by decide +kernel
  have hback : out.1 ≠ .abandoned := by
    rw [hresult]
    intro h
    cases h
  have hstat : ∀ counter clear, AccelCall.syncCsr 0 0 = .getStatistic counter clear → clear = 0 := by
    intro counter clear h
    cases h
  have hrun : (handle (Env.refusing 9) 0 .supervisor (.syncCsr 0 0)).run (twoDirty 9) = (out.1, out.2) := rfl
  obtain ⟨hart', new, hhart', hevents, _, hgrown⟩ :=
    (reachable_twoDirty 9).counters_count (Env.refusing_quiet 9) (Env.refusing_faithful 9)
      (hart?_twoDirty 9) hstat hrun hback
  refine ⟨reachable_twoDirty 9, hresult, by decide +kernel, hart', hhart', ?_⟩
  rcases hgrown with hcounted | ⟨e, _, _, herror, _⟩
  · rw [hcounted.csrs]
    decide +kernel
  · rw [hresult] at herror
    cases herror

/-- If the host refuses the second write, the first slot has been applied and is clean, and the counter has
    not moved. -/
theorem uncounted_slot :
    let out := (handle (Env.refusing 1) 0 .supervisor (.syncCsr 0 0)).run (twoDirty 1)
    let hart : Hart := { session := { area := some (.ofGuest 0x3000) } }
    Reachable (Env.refusing 1) {} (twoDirty 1) ∧ (Env.refusing 1).Quiet ∧ out.1 = .error .io ∧
    (twoDirty 1).1.hart? 0 = some hart ∧
    (hart.slotsCleared (twoDirty 1).2.memory out.2.2.memory).length = 1 ∧
    requestsDone out.2.2.events = [.writeCsr ⟨CsrNumber.vsscratch, 1⟩] ∧
    ∃ hart', out.2.1.hart? 0 = some hart' ∧
      hart'.counters.get .csrsSynced = hart.counters.get .csrsSynced := by
  intro out hart
  refine ⟨reachable_twoDirty 1, Env.refusing_quiet 1, ?_, hart?_twoDirty 1, ?_, ?_, ?_⟩
  · decide +kernel
  · decide +kernel
  · decide +kernel
  · refine ⟨_, rfl, ?_⟩
    decide +kernel

end Platform

end NestedAccel
