import NestedAccel.Proofs.FenceTraffic

/-!
# `NestedAccel.Proofs.BatchRequests` — a batch asks for what its descriptors say

A batch reaches the host on behalf of its descriptors, and a descriptor is read at the moment its turn
comes. By then the descriptors before it have been reported on and fences of the area may have been
finished. Neither touches a later descriptor, since the array lies clear of the area: **every request
that a batch makes, fences aside, is one that a descriptor has asked for in guest memory as it was before
the batch** (`Env.runBatch_asked`), and that also holds from before the call on (`Hart.perform_asked`).

Nothing here looks at the features of the configuration, and neither does a batch: what a descriptor
asks for depends on its operands only (`Descriptor.ask?`).
-/

namespace NestedAccel

open World (Reaches)
open Act (Moves)

variable {σ ε : Type} {env : Env σ} {a : Area} {harts : Nat}

/-! ## What descriptors ask for -/

/-- The request that a descriptor asks for, if its operation is not a fence and its operands pass. -/
def Descriptor.ask? (harts : Nat) (d : Descriptor) : Option Request :=
  match BatchOp.ofDescriptor? d with
  | some (.csrRead n) => (Check.csrRead n).toOption.map .readCsr
  | some (.csrWrite n v) => (Check.csrWrite n v).toOption.map .writeCsr
  | some (.injectInterrupt kind number target) =>
    (Check.injection harts kind number target).toOption.map .inject
  | some (.hfence _) => none
  | none => none

/-- The words of the descriptors of a batch. -/
def Descriptor.positions (addr count : Word) : List Nat :=
  (List.range count.toNat).map (Descriptor.position (addr.toNat / 8))

/-- The request is a fence, or one of the descriptors at the given words asks for it. -/
def Asked (harts : Nat) (m : Memory) (ps : List Nat) (q : Request) : Prop :=
  q.fence? = none → ∃ p ∈ ps, (Descriptor.load m p).ask? harts = some q

theorem Asked.mono {m m' : Memory} {ps qs : List Nat} {q : Request} (h : Asked harts m ps q)
    (hsub : ∀ p ∈ ps, p ∈ qs ∧ Descriptor.load m' p = Descriptor.load m p) :
    Asked harts m' qs q := by
  intro hq
  obtain ⟨p, hp, hask⟩ := h hq
  obtain ⟨hmem, hload⟩ := hsub p hp
  exact ⟨p, hmem, by rw [hload, hask]⟩

/-! ## Single descriptors -/

/-- The operation of a descriptor makes no other request than the one asked for. -/
theorem Env.runDescriptorOp_asked (d : Descriptor) :
    Moves (Reaches env (fun q => q.fence? = none → d.ask? harts = some q) fun _ => True)
      (env.runDescriptorOp harts a d) := by
  unfold Env.runDescriptorOp Descriptor.ask?
  cases BatchOp.ofDescriptor? d with
  | none => exact Moves.fail _
  | some op =>
    cases op with
    | csrRead n =>
      refine Moves.check fun csr h => ?_
      have hasked : (Check.csrRead n).toOption.map Request.readCsr = some (.readCsr csr) := by
        rw [h]
        rfl
      exact ((Env.request_moves fun _ => hasked).mapError _).bind fun _ => Moves.pure _
    | csrWrite n v =>
      refine Moves.check fun w h => ?_
      have hasked : (Check.csrWrite n v).toOption.map Request.writeCsr = some (.writeCsr w) := by
        rw [h]
        rfl
      exact ((Env.request_moves fun _ => hasked).mapError _).bind fun _ => Moves.pure _
    | hfence i =>
      refine Moves.check fun slot _ => ?_
      refine Moves.bind (Moves.mapError ?_ _) fun _ => Moves.pure _
      refine Env.syncFences_moves (fun _ => trivial) (fun f _ hnone => ?_) _
      cases hnone
    | injectInterrupt kind number target =>
      refine Moves.check fun i h => ?_
      have hasked : (Check.injection harts kind number target).toOption.map Request.inject =
          some (.inject i) := by
        rw [h]
        rfl
      exact ((Env.request_moves fun _ => hasked).mapError _).bind fun _ => Moves.pure _

/-- Neither does the descriptor, as it is found when its turn comes. -/
theorem Env.runDescriptor_asked (p : Nat) (w : World σ) :
    Reaches env (Asked harts w.memory [p]) (fun _ => True) w
      ((env.runDescriptor harts a p : Act (World σ) ε Tally).run w).2 := by
  unfold Env.runDescriptor
  refine Act.bind_moves (readMemory_moves _ w) fun d w' hread => ?_
  obtain ⟨rfl, rfl⟩ := Act.run_gets_ok hread
  have hop : Moves (Reaches env (Asked harts w'.memory [p]) fun _ => True)
      (env.runDescriptorOp harts a (Descriptor.load w'.memory p)) := fun w =>
    (Env.runDescriptorOp_asked _ w).mono
      (fun q hq hnone => ⟨p, List.mem_singleton_self p, hq hnone⟩) fun _ h => h
  refine Moves.bind hop.attempt (fun r => ?_) w'
  refine (changeMemory_moves fun m b hb => absurd trivial hb).bind fun _ => ?_
  cases r with
  | ok r => exact Moves.pure _
  | error e => exact Moves.pure _

/-! ## Batches -/

section
variable (hquiet : env.Quiet)
include hquiet

/-- The descriptors that come later are still the ones that were there at first. -/
theorem Env.runDescriptors_asked {ps : List Nat} (hapart : ps.Pairwise fun p q => p + 4 ≤ q)
    (hout : ∀ p ∈ ps, ∀ b, p ≤ b ∧ b < p + 4 → ¬a.Owns b) (w : World σ) :
    Reaches env (Asked harts w.memory ps) (fun _ => True) w
      ((env.runDescriptors harts a ps : Act (World σ) ε Tally).run w).2 := by
  induction ps generalizing w with
  | nil => exact refl_of _ w
  | cons p rest ih =>
    obtain ⟨hp, hrest⟩ := List.pairwise_cons.1 hapart
    have hfirst : Reaches env (Asked harts w.memory [p]) (fun _ => True) w
        ((env.runDescriptor harts a p : Act (World σ) ε Tally).run w).2 := Env.runDescriptor_asked p w
    have hlater : ∀ q ∈ rest,
        Descriptor.load ((env.runDescriptor harts a p : Act (World σ) ε Tally).run w).2.memory q =
          Descriptor.load w.memory q :=
      fun q hq => Env.load_runDescriptor hquiet (hp q hq) (hout q (List.mem_cons_of_mem p hq)) w
    have hhead : ∀ q, Asked harts w.memory [p] q → Asked harts w.memory (p :: rest) q := by
      intro q hq
      refine hq.mono fun r hr => ?_
      rw [List.mem_singleton.1 hr]
      exact ⟨List.mem_cons_self, rfl⟩
    unfold Env.runDescriptors
    refine Act.bind_moves (hfirst.mono hhead fun _ h => h) fun t w' hrun => ?_
    rw [hrun] at hlater
    have htail : ∀ q, Asked harts w'.memory rest q → Asked harts w.memory (p :: rest) q := by
      intro q hq
      exact hq.mono fun r hr => ⟨List.mem_cons_of_mem p hr, (hlater r hr).symm⟩
    have hothers := ih hrest (fun q hq => hout q (List.mem_cons_of_mem p hq)) w'
    exact Act.bind_moves (hothers.mono htail fun _ h => h) fun u w'' _ => Moves.pure _ w''

theorem Env.runMapped_asked (addr : Word) (count : Nat) (mapping : Mapping)
    (hout : ∀ b, mapping.base ≤ b ∧ b < mapping.base + 4 * count → ¬a.Owns b) (w : World σ) :
    Reaches env
      (Asked harts w.memory ((List.range count).map (Descriptor.position mapping.base)))
      (fun _ => True) w ((env.runMapped harts a addr count mapping).run w).2 := by
  unfold Env.runMapped
  split
  · exact Moves.fail _ w
  · refine Act.bind_moves (readMemory_moves _ w) fun u w' hread => ?_
    obtain ⟨rfl, rfl⟩ := Act.run_gets_ok hread
    split
    · exact Moves.fail _ w'
    · refine Env.runDescriptors_asked hquiet (Descriptor.positions_apart _ _) (fun p hp b hb => ?_) w'
      have hbounds := Descriptor.position_bounds hp
      exact hout b (by omega)

/-- **A batch makes no request that its descriptors have not asked for,** fences aside. What has happened
    to the area alone since `w₀` makes no difference to that. -/
theorem Env.runBatch_asked (hmap : env.Faithful) {maxBatch : Nat} {claimed : List Word}
    (hclear : ∀ b, env.InBatch maxBatch claimed b → ¬a.Owns b) (addr count : Word) {w₀ w : World σ}
    (houtside : ∀ b, ¬a.Owns b → w.memory.read b = w₀.memory.read b) :
    Reaches env (Asked harts w₀.memory (Descriptor.positions addr count)) (fun _ => True) w
      ((env.runBatch harts maxBatch (some a) claimed addr count).run w).2 := by
  rcases env.runBatch_cases harts maxBatch a claimed addr count with
    ⟨_, e, hrefused⟩ | ⟨_, _, hempty⟩ | ⟨hadmitted, hsome, hruns⟩
  · rw [hrefused]
    exact Moves.fail e w
  · rw [hempty]
    exact Moves.pure _ w
  · rw [hruns]
    have hmapped : Reaches env (fun _ => False) (fun _ => False) w
        (((env.mapRange addr (Descriptor.arrayBytes count)).mapError BatchError.map).run w).2 :=
      (Env.mapRange_moves _ _).mapError _ w
    refine Act.bind_moves hmapped.weaken fun m w' hrun => ?_
    rw [hrun] at hmapped
    have hm := World.mapRange_run_ok (Act.run_mapError_ok hrun)
    have hbase : m.base = addr.toNat / 8 := by rw [Mapping.base, hmap _ _ _ m hm]
    have hout : ∀ b, m.base ≤ b ∧ b < m.base + 4 * count.toNat → ¬a.Owns b := fun b hb =>
      hclear b (Env.inBatch_of_mapped hadmitted hsome hm b hb)
    -- what has been mapped is as it was in `w₀`
    have hsame : ∀ p ∈ Descriptor.positions addr count,
        p ∈ Descriptor.positions addr count ∧
          Descriptor.load w₀.memory p = Descriptor.load w'.memory p := by
      intro p hp
      refine ⟨hp, Descriptor.load_eq fun b hb => ?_⟩
      have hbounds := Descriptor.position_bounds hp
      rw [hmapped.read_eq hquiet fun h => h]
      exact (houtside b (hout b (by omega))).symm
    have hasked : Reaches env (Asked harts w'.memory (Descriptor.positions addr count))
        (fun _ => True) w' ((env.runMapped harts a addr count.toNat m).run w').2 := by
      rw [Descriptor.positions, ← hbase]
      exact Env.runMapped_asked hquiet addr count.toNat m hout w'
    refine Act.bind_moves ?_ fun r w₁ _ =>
      ((unmapRange_moves _ _).bind fun _ => Moves.ofExcept r) w₁
    rw [Act.attempt_run_snd]
    exact hasked.mono (fun q hq => hq.mono hsame) fun _ h => h

end

/-! ## The call -/

namespace Hart

variable {cfg : Config} {claimed : List Word} {area : Option Area} {call : AccelCall} {w₀ : World σ}

/-- The call runs a batch: batches are on, and the hart has an area. -/
def RunsBatch (cfg : Config) (area : Option Area) (call : AccelCall) : Prop :=
  cfg.features.contains .batch = true ∧ area.isSome = true ∧
    ∃ addr len, call = .batchExecute addr len

/-- Only such a call gets as far as a request or a write. -/
theorem runBatch_moves {W : Nat → Prop} (hW : ∀ a, area = some a → ∀ s, W (a.fenceBase s))
    (hbatch : ∀ a, area = some a → ∀ b, env.InBatch cfg.maxBatch claimed b → W b)
    (hon : cfg.features.contains .batch = true) {addr len : Word}
    (hcall : call = .batchExecute addr len) :
    Moves (Reaches env (fun _ => RunsBatch cfg area call) W)
      (env.runBatch cfg.harts cfg.maxBatch area claimed addr len) := by
  cases area with
  | none => exact Moves.fail _
  | some a =>
    intro w
    have hmoves : Reaches env (Request.Legal cfg.harts) W w
        ((env.runBatch cfg.harts cfg.maxBatch (some a) claimed addr len).run w).2 :=
      Env.runBatch_moves (fun a' s ha => hW a' ha s) (hbatch a rfl) addr len w
    exact hmoves.mono (fun _ _ => ⟨hon, rfl, addr, len, hcall⟩) fun _ h => h

/-- What comes before a batch: CSRs are written, and bits of the bitmap. -/
def Drained (env : Env σ) (a : Area) : World σ → World σ → Prop :=
  Reaches env (fun q => ∃ c, q = .writeCsr c) fun b => ∃ i, b = a.bitmapBase i

instance : IsPreorder (World σ) (Drained env a) := inferInstanceAs (IsPreorder _ (Reaches env _ _))

theorem drained_message (w : World σ) (console : Console) : Drained env a w { w with console } :=
  Relation.ReflTransGen.single (.message w console)

theorem drain_drained : Moves (Follows (some a) (Drained env a)) (drain env) :=
  drain_follows fun _ ha st => by
    cases ha
    exact Env.syncCsrs_reaches (fun _ _ w _ => ⟨w, rfl⟩) (fun i => ⟨i, rfl⟩) .all st

theorem Drained.outside {w : World σ} (hquiet : env.Quiet) (h : Drained env a w₀ w) (b : Nat)
    (hb : ¬a.Owns b) : w.memory.read b = w₀.memory.read b := by
  refine h.read_eq hquiet ?_
  rintro ⟨i, rfl⟩
  exact hb (a.owns_bitmapBase i)

section
variable (hquiet : env.Quiet) (hmap : env.Faithful)
  (hclear : ∀ b, env.InBatch cfg.maxBatch claimed b → ¬a.Owns b) (id : Word) (caller : Privilege)
  (addr len : Word)
include hquiet hmap hclear

/-- A batch call asks for what the descriptors have said from `w₀` on. -/
theorem perform_asked {st : Hart × World σ} (hbefore : Drained env a w₀ st.2) :
    Follows (some a)
      (Reaches env (Asked cfg.harts w₀.memory (Descriptor.positions addr len)) fun _ => True) st
      ((perform env cfg id claimed caller (.batchExecute addr len)).run st).2 := by
  have hperform : perform env cfg id claimed caller (.batchExecute addr len) =
      requireFeature cfg .batch >>= fun _ => runBatch env cfg id claimed addr len := rfl
  rw [hperform]
  refine requireFeature_bind st fun _ => ?_
  rw [runBatch_eq]
  refine Act.bind_moves (count_follows _ _ st) fun _ st' hcount => ?_
  injection hcount with _ hst
  subst hst
  refine Act.bind_moves (Moves.gets _ _) fun area st' hfound => ?_
  obtain ⟨rfl, rfl⟩ := Act.run_gets_ok hfound
  refine Act.bind_moves ?_ fun r st'' _ =>
    reportBatch_follows (fun w c => Relation.ReflTransGen.single (.message w c)) id addr r st''
  rw [Act.attempt_run_snd]
  intro harea
  refine ⟨harea, ?_⟩
  rw [harea]
  exact Env.runBatch_asked hquiet hmap hclear addr len (hbefore.outside hquiet)

/-- **A batch call asks for what the descriptors have said before the call,** apart from the CSRs that the
    drain writes. -/
theorem handle_asked {st : Hart × World σ} (harea : st.1.session.area = some a) :
    Reaches env (fun q => (∃ c, q = .writeCsr c) ∨
        Asked cfg.harts st.2.memory (Descriptor.positions addr len) q) (fun _ => True) st.2
      ((handle env cfg id claimed caller (.batchExecute addr len)).run st).2.2 := by
  let P : Request → Prop := fun q =>
    (∃ c, q = .writeCsr c) ∨ Asked cfg.harts st.2.memory (Descriptor.positions addr len) q
  have hmessage : ∀ w console, Reaches env P (fun _ => True) w ({ w with console } : World σ) :=
    fun w c => Relation.ReflTransGen.single (.message w c)
  have hdispatch : dispatch env cfg id claimed caller (.batchExecute addr len) =
      drain env >>= fun _ => perform env cfg id claimed caller (.batchExecute addr len) := rfl
  suffices h : Follows (some a) (Reaches env P fun _ => True) st
      ((handle env cfg id claimed caller (.batchExecute addr len)).run st).2 from (h harea).2
  rw [handle_eq, hdispatch]
  refine Act.bind_moves (logMessage_follows hmessage _ _ st) fun _ st₁ hlog => ?_
  injection hlog with _ hst
  refine Act.bind_moves ?_ fun r st₂ _ => conclude_follows hmessage id _ r st₂
  rw [Act.attempt_run_snd]
  -- the descriptors are still what they were when the drain is over
  have hdrained : Follows (some a) (Drained env a) st₁ ((drain env).run st₁).2 := drain_drained st₁
  have hannounced : Drained env a st.2 st₁.2 := by
    rw [← hst]
    exact drained_message st.2 _
  have harea₁ : st₁.1.session.area = some a := by
    rw [← hst]
    exact harea
  refine Act.bind_moves (fun h => ?_) fun _ st₂ hrun => ?_
  · obtain ⟨harea', hreach⟩ := hdrained h
    exact ⟨harea', hreach.mono (fun _ hq => .inl hq) fun _ _ => trivial⟩
  · rw [hrun] at hdrained
    have hbefore : Drained env a st.2 st₂.2 := IsTrans.trans _ _ _ hannounced (hdrained harea₁).2
    intro h
    obtain ⟨harea', hreach⟩ := perform_asked hquiet hmap hclear id caller addr len hbefore h
    exact ⟨harea', hreach.mono (fun _ hq => .inr hq) fun _ hb => hb⟩

end

end Hart

end NestedAccel
