import NestedAccel.Proofs.Accesses
import NestedAccel.Proofs.Registration
import NestedAccel.Proofs.SyncCounters
import NestedAccel.Proofs.Turns

/-!
# `NestedAccel.Proofs.BatchOutcome` — when a batch runs, and what it leaves behind

A batch has to pass several checks before any of its operations runs. `BatchRefused` lists what can stand
against it, in terms of the bytes of guest memory. **A batch fails exactly if one of these does**
(`Env.runBatch_end`), and then neither the host nor guest memory has been touched. Otherwise its descriptors
take their turns (`Ran`), and the two lemmas about turns say what is found in memory afterwards.

Around a batch, a call announces itself and counts (`Hart.handle_batch_end`), and
`Platform.Reachable.batch_outcome` says what becomes of the call as a guest hypervisor makes it.
-/

namespace NestedAccel

variable {σ ε : Type} {env : Env σ} {a : Area} {w w' : World σ} {harts maxBatch : Nat}
  {area : Option Area} {claimed : List Word} {addr count : Word}

/-! ## What stands against a batch -/

/-- Why the batch of `count` descriptors at `addr` does not run, with the environment in state `s` and guest
    memory `m`. -/
inductive BatchRefused (env : Env σ) (maxBatch : Nat) (area : Option Area) (claimed : List Word)
    (addr count : Word) (s : σ) (m : Memory) : Prop where
  | noArea (h : area = none)
  | tooMany (h : maxBatch < count.toNat)
  | misaligned (h : addr.toNat % 8 ≠ 0)
  | pastEnd (h : UInt64.size ≤ addr.toNat + 32 * count.toNat)
  /-- The array has a byte in common with a registered area. -/
  | onArea {g : Word} {x : Nat} (hg : g ∈ claimed) (hx : InRange g areaBytes x)
    (hx' : addr.toNat ≤ x ∧ x < addr.toNat + 32 * count.toNat)
  /-- It has not been mapped, or not where its words can be accessed. -/
  | notMapped (hsome : count ≠ 0)
    (h : ∀ m, (env.map addr (Descriptor.arrayBytes count) s).1 = .ok m → m.aligned = false)
  | unknownTag {p : Nat} (hp : p ∈ Descriptor.positions addr count)
    (h : BatchTag.ofCode? (Descriptor.load m p).tag = none)

theorem and_seven_iff : addr &&& (8 - 1) = 0 ↔ addr.toNat % 8 = 0 := by
  constructor
  · exact Platform.toNat_mod_eight
  · intro h
    apply UInt64.toNat_inj.1
    rw [UInt64.toNat_and]
    exact (Nat.and_two_pow_sub_one_eq_mod addr.toNat 3).trans h

theorem Check.guestRange_iff {len : Word} :
    guestRange addr len 8 = .ok addr ↔ addr.toNat % 8 = 0 ∧ addr.toNat + len.toNat < UInt64.size := by
  constructor
  · intro h
    obtain ⟨_, halign, hend⟩ := guestRange_ok h
    exact ⟨and_seven_iff.1 halign, hend⟩
  · rintro ⟨halign, hend⟩
    unfold guestRange
    rw [if_neg (not_not.2 (and_seven_iff.2 halign)), if_neg (Nat.not_le.2 hend)]

/-- An array with a descriptor is not empty. -/
theorem Descriptor.ne_zero_of_mem {p : Nat} (hp : p ∈ positions addr count) : count ≠ 0 := by
  rintro rfl
  exact absurd hp List.not_mem_nil

/-- A batch against which nothing stands is admitted. -/
theorem BatchAdmitted.of_not_refused (hmax : maxBatch ≤ Config.batchLimit)
    (h : ¬BatchRefused env maxBatch area claimed addr count w.state w.memory) :
    BatchAdmitted maxBatch claimed addr count := by
  have hle : count.toNat ≤ maxBatch := Nat.le_of_not_lt fun hlt => h (.tooMany hlt)
  have hlen := Platform.arrayBytes_toNat (Nat.le_trans hle hmax)
  refine ⟨hle, Check.guestRange_iff.2 ⟨?_, ?_⟩, fun hsome g hg => ?_⟩
  · by_contra halign
    exact h (.misaligned halign)
  · rw [hlen]
    exact Nat.lt_of_not_le fun hend => h (.pastEnd hend)
  · rw [Bool.eq_false_iff]
    intro hoverlap
    have hpos := Platform.arrayBytes_pos (Nat.le_trans hle hmax) hsome
    obtain ⟨x, hx, hx'⟩ := exists_common_of_overlap hpos (by decide) hoverlap
    unfold InRange at hx
    exact h (.onArea hg hx' (by omega))

/-- A batch that is admitted, for a hart with an area, can only be refused for what is found at the array. -/
theorem BatchAdmitted.refused_cases (hmax : maxBatch ≤ Config.batchLimit)
    (haligned : ∀ g ∈ claimed, g.toNat % 4096 = 0) (h : BatchAdmitted maxBatch claimed addr count)
    (hrefused : BatchRefused env maxBatch (some a) claimed addr count w.state w.memory) :
    count ≠ 0 ∧ ((∀ m, (env.map addr (Descriptor.arrayBytes count) w.state).1 = .ok m → m.aligned = false) ∨
      ∃ p ∈ Descriptor.positions addr count,
        BatchTag.ofCode? (Descriptor.load w.memory p).tag = none) := by
  have hlen := Platform.arrayBytes_toNat (Nat.le_trans h.count_le hmax)
  obtain ⟨halign, hend⟩ := Check.guestRange_iff.1 h.range
  rw [hlen] at hend
  cases hrefused with
  | noArea hnone => cases hnone
  | tooMany hlt => exact absurd h.count_le (Nat.not_le.2 hlt)
  | misaligned hne => exact absurd halign hne
  | pastEnd hle => exact absurd hend (Nat.not_lt.2 hle)
  | @onArea g x hg hx hx' =>
    have hsome : count ≠ 0 := by
      rintro rfl
      have hzero : (0 : Word).toNat = 0 := rfl
      omega
    have hin : InRange addr (Descriptor.arrayBytes count) x := by
      unfold InRange
      omega
    exact absurd hx (disjoint_of_not_overlap (Platform.lt_of_guestRange h.range)
      (lt_of_aligned (haligned g hg)) (h.clear hsome g hg) hin)
  | notMapped hsome hnot => exact ⟨hsome, .inl hnot⟩
  | @unknownTag p hp htag => exact ⟨Descriptor.ne_zero_of_mem hp, .inr ⟨p, hp, htag⟩⟩

/-! ## Arrays -/

theorem unknownTag?_eq_none {m : Memory} {base n : Nat} :
    unknownTag? m base n = none ↔ ∀ p ∈ (List.range n).map (Descriptor.position base),
      BatchTag.ofCode? (Descriptor.load m p).tag ≠ none := by
  unfold unknownTag?
  simp [List.find?_eq_none]

/-- Neither the host nor guest memory is touched between the worlds. -/
def Untouched (w w' : World σ) : Prop :=
  w'.memory = w.memory ∧ ∃ new, w'.events = w.events ++ new ∧ ∀ e ∈ new, ¬e.IsRequest

theorem Untouched.refl (w : World σ) : Untouched w w := ⟨rfl, [], by simp, by simp⟩

theorem Untouched.trans {w'' : World σ} (h : Untouched w w') (h' : Untouched w' w'') : Untouched w w'' := by
  obtain ⟨hmemory, new, hevents, hnew⟩ := h
  obtain ⟨hmemory', new', hevents', hnew'⟩ := h'
  refine ⟨hmemory'.trans hmemory, new ++ new', by rw [hevents', hevents, List.append_assoc], ?_⟩
  intro e he
  exact (List.mem_append.1 he).elim (hnew e) (hnew' e)

theorem Untouched.message (w : World σ) (console : Console) : Untouched w { w with console } :=
  ⟨rfl, [], by simp, by simp⟩

theorem Untouched.record (w : World σ) {e : Event} (he : ¬e.IsRequest) : Untouched w (w.record e) :=
  ⟨rfl, [e], rfl, by simpa using he⟩

theorem Untouched.afterMap (env : Env σ) (gpa len : Word) (w : World σ) :
    Untouched w (w.afterMap env gpa len) := by
  refine ⟨rfl, _, rfl, ?_⟩
  rintro e he ⟨q, r, rfl⟩
  cases List.mem_singleton.1 he

theorem Untouched.unmapped (w : World σ) (gpa len : Word) : Untouched w (w.record (.unmapped gpa len)) := by
  refine .record w ?_
  rintro ⟨q, r, hqr⟩
  cases hqr

/-- A mapped array has a tag that is unknown, or its descriptors take their turns. -/
theorem Env.runMapped_cases (hquiet : env.Quiet) (hback : env.Returns) {m : Mapping}
    (halign : m.aligned = true) (hshown : m.base = addr.toNat / 8)
    (hout : ∀ p ∈ Descriptor.positions addr count, ∀ b, p ≤ b ∧ b < p + 4 → ¬a.Owns b) (harts : Nat)
    (w : World σ) :
    ((∃ p ∈ Descriptor.positions addr count, BatchTag.ofCode? (Descriptor.load w.memory p).tag = none) ∧
      ∃ e, (env.runMapped harts a addr count.toNat m).run w = (.error e, w)) ∨
    ((∀ p ∈ Descriptor.positions addr count, BatchTag.ofCode? (Descriptor.load w.memory p).tag ≠ none) ∧
      ∃ tally turns w', (env.runMapped harts a addr count.toNat m).run w = (.ok tally, w') ∧
        turns.map Turn.word = Descriptor.positions addr count ∧
        (∀ t ∈ turns, t.descriptor = Descriptor.load w.memory t.word) ∧
        Ran env harts a w turns w' ∧ tally.succeeded = succeeded turns) := by
  have hpositions : (List.range count.toNat).map (Descriptor.position m.base) =
      Descriptor.positions addr count := by rw [hshown, Descriptor.positions]
  unfold Env.runMapped
  rw [if_neg (by simp [halign]), readMemory, Act.bind_run, Act.gets_run, Act.next_ok]
  cases hunknown : unknownTag? w.memory m.base count.toNat with
  | some found =>
    refine .inl ⟨?_, _, rfl⟩
    by_contra hknown
    have hnone : unknownTag? w.memory m.base count.toNat = none := by
      refine unknownTag?_eq_none.2 fun p hp htag => hknown ⟨p, ?_, htag⟩
      rwa [← hpositions]
    cases hunknown.symm.trans hnone
  | none =>
    rw [hpositions]
    refine .inr ⟨fun p hp => ?_, ?_⟩
    · rw [← hpositions] at hp
      exact unknownTag?_eq_none.1 hunknown p hp
    · exact Env.runDescriptors_ran hquiet hback (Descriptor.positions_apart _ _) hout w

/-- The descriptors of a batch take their turns, and beside them nothing is touched. The first of them finds
    the environment as it is once the array has been mapped. -/
structure BatchRan (env : Env σ) (harts : Nat) (a : Area) (addr count : Word) (w : World σ)
    (turns : List Turn) (w' : World σ) : Prop where
  words : turns.map Turn.word = Descriptor.positions addr count
  loaded : ∀ t ∈ turns, t.descriptor = Descriptor.load w.memory t.word
  ran : ∃ start stop, Untouched w start ∧
    (count ≠ 0 → start.state = (env.map addr (Descriptor.arrayBytes count) w.state).2) ∧
    Ran env harts a start turns stop ∧ Untouched stop w' ∧ w'.state = stop.state

/-- Messages before and after a batch make no difference. -/
theorem BatchRan.message {turns : List Turn} {console : Console}
    (h : BatchRan env harts a addr count { w with console } turns w') (console' : Console) :
    BatchRan env harts a addr count w turns { w' with console := console' } := by
  obtain ⟨start, stop, hstart, hmapped, hran, hstop, hstate⟩ := h.ran
  have hbefore : Untouched w { w with console } := .message w console
  have hafter : Untouched w' { w' with console := console' } := .message w' console'
  exact ⟨h.words, h.loaded, start, stop, hbefore.trans hstart, hmapped, hran, hstop.trans hafter, hstate⟩

/-- How a batch ends. -/
inductive BatchEnd (env : Env σ) (harts maxBatch : Nat) (area : Option Area) (claimed : List Word)
    (addr count : Word) (w : World σ) : Outcome BatchError Tally × World σ → Prop where
  | refused {e : BatchError} {w' : World σ}
    (hrefused : BatchRefused env maxBatch area claimed addr count w.state w.memory)
    (huntouched : Untouched w w') :
    BatchEnd env harts maxBatch area claimed addr count w (.error e, w')
  | ran {a : Area} {tally : Tally} {turns : List Turn} {w' : World σ} (harea : area = some a)
    (hnot : ¬BatchRefused env maxBatch area claimed addr count w.state w.memory)
    (hran : BatchRan env harts a addr count w turns w') (hcount : tally.succeeded = succeeded turns) :
    BatchEnd env harts maxBatch area claimed addr count w (.ok tally, w')

section
variable (hmax : maxBatch ≤ Config.batchLimit) (haligned : ∀ g ∈ claimed, g.toNat % 4096 = 0)
include hmax haligned

/-- The words of an array that passes are not those of a claimed area. -/
theorem BatchAdmitted.not_owns (h : BatchAdmitted maxBatch claimed addr count)
    (hclaimed : a.gpa ∈ claimed) (hbase : a.base = a.gpa.toNat / 8) {p : Nat}
    (hp : p ∈ Descriptor.positions addr count) {b : Nat} (hb : p ≤ b ∧ b < p + 4) : ¬a.Owns b := by
  intro howns
  have hbounds := Descriptor.position_bounds hp
  have hclear := h.clear (Descriptor.ne_zero_of_mem hp) _ hclaimed
  obtain ⟨halign, hend⟩ := Check.guestRange_iff.1 h.range
  rw [Platform.arrayBytes_toNat (Nat.le_trans h.count_le hmax)] at hend
  have hword : 8 * b / 8 = b := Nat.mul_div_cancel_left b (by decide)
  have hin : InRange a.gpa areaBytes (8 * b) :=
    Platform.inRange_of_owns hbase (haligned _ hclaimed) (hword.symm ▸ howns)
  have hin' : InRange addr (Descriptor.arrayBytes count) (8 * b) := by
    unfold InRange
    rw [Platform.arrayBytes_toNat (Nat.le_trans h.count_le hmax)]
    omega
  exact disjoint_of_not_overlap (Platform.lt_of_guestRange h.range) (lt_of_aligned (haligned _ hclaimed))
    hclear hin' hin

/-- What becomes of the array of a batch that is admitted: mapping it fails, or a tag in it is unknown, or its
    descriptors take their turns. -/
theorem Env.runArray_end (hquiet : env.Quiet) (hback : env.Returns) (hmap : env.FaithfulIfAligned)
    (hadmitted : BatchAdmitted maxBatch claimed addr count) (hsome : count ≠ 0)
    (hclaimed : a.gpa ∈ claimed) (hbase : a.base = a.gpa.toNat / 8) (harts : Nat) (w : World σ) :
    BatchEnd env harts maxBatch (some a) claimed addr count w
      ((env.runArray harts a addr count).run w) := by
  rw [Env.runArray_run]
  have huntouched := Untouched.afterMap env addr (Descriptor.arrayBytes count) w
  cases hm : (env.map addr (Descriptor.arrayBytes count) w.state).1 with
  | error e =>
    refine .refused (.notMapped hsome fun m hok => ?_) huntouched
    cases hm.symm.trans hok
  | ok m =>
    dsimp only
    cases halign : m.aligned with
    | false =>
      have hfails : (env.runMapped harts a addr count.toNat m).run
          (w.afterMap env addr (Descriptor.arrayBytes count)) =
          (.error (.badMapping addr), w.afterMap env addr (Descriptor.arrayBytes count)) := by
        unfold Env.runMapped
        rw [if_pos (by simp [halign])]
        rfl
      rw [hfails]
      refine .refused (.notMapped hsome fun m' hok => ?_) (huntouched.trans (.unmapped _ _ _))
      cases hm.symm.trans hok
      exact halign
    | true =>
      -- the array is shown where it is
      have hshown : m.base = addr.toNat / 8 := by
        rw [Mapping.base, hmap _ _ _ m hm halign]
      have hout : ∀ p ∈ Descriptor.positions addr count, ∀ b, p ≤ b ∧ b < p + 4 → ¬a.Owns b :=
        fun p hp b => hadmitted.not_owns hmax haligned hclaimed hbase hp
      rcases Env.runMapped_cases hquiet hback halign hshown hout harts
          (w.afterMap env addr (Descriptor.arrayBytes count)) with
        ⟨hunknown, e, hfails⟩ | ⟨hknown, tally, turns, w', hok, hwords, hloaded, hran, hcount⟩
      · rw [hfails]
        obtain ⟨p, hp, htag⟩ := hunknown
        exact .refused (.unknownTag hp htag) (huntouched.trans (.unmapped _ _ _))
      · rw [hok]
        have hbatch : BatchRan env harts a addr count w turns
            (w'.record (.unmapped addr (Descriptor.arrayBytes count))) :=
          ⟨hwords, hloaded, _, w', huntouched, fun _ => rfl, hran, .unmapped _ _ _, rfl⟩
        refine .ran rfl (fun hrefused => ?_) hbatch hcount
        obtain ⟨_, hnot | ⟨p, hp, htag⟩⟩ := hadmitted.refused_cases hmax haligned hrefused
        · cases halign.symm.trans (hnot m hm)
        · exact hknown p hp htag

/-- **A batch ends in one of these ways.** -/
theorem Env.runBatch_end (hquiet : env.Quiet) (hback : env.Returns) (hmap : env.FaithfulIfAligned)
    (harea : ∀ a, area = some a → a.gpa ∈ claimed ∧ a.base = a.gpa.toNat / 8) (harts : Nat)
    (w : World σ) :
    BatchEnd env harts maxBatch area claimed addr count w
      ((env.runBatch harts maxBatch area claimed addr count).run w) := by
  cases area with
  | none => exact .refused (.noArea rfl) (.refl w)
  | some a =>
    rcases env.runBatch_cases harts maxBatch a claimed addr count with
      ⟨hnot, e, hfails⟩ | ⟨hadmitted, hzero, hempty⟩ | ⟨hadmitted, hsome, hruns⟩
    · rw [hfails]
      refine .refused ?_ (.refl w)
      by_contra hrefused
      exact hnot (.of_not_refused hmax hrefused)
    · rw [hempty]
      have hran : BatchRan env harts a addr count w [] w := by
        refine ⟨?_, by simp, w, w, .refl w, fun hsome => absurd hzero hsome, .nil w, .refl w, rfl⟩
        rw [hzero]
        rfl
      refine .ran rfl (fun hrefused => ?_) hran rfl
      exact (hadmitted.refused_cases hmax haligned hrefused).1 hzero
    · rw [hruns]
      exact Env.runArray_end hmax haligned hquiet hback hmap hadmitted hsome (harea a rfl).1 (harea a rfl).2
        harts w

end

/-- **What a batch that has run leaves behind.** Each descriptor holds the report of its own turn, and beside
    the array only entries of performed fences have changed. -/
theorem BatchRan.written (hquiet : env.Quiet) {turns : List Turn}
    (h : BatchRan env harts a addr count w turns w')
    (hout : ∀ p ∈ Descriptor.positions addr count, ∀ b, p ≤ b ∧ b < p + 4 → ¬a.Owns b) :
    (∀ t ∈ turns, t.Reported (Descriptor.load w'.memory t.word)) ∧
    ∀ b, (∀ p ∈ Descriptor.positions addr count, ¬(p ≤ b ∧ b < p + 4)) →
      w'.memory.read b = w.memory.read b ∨ Finished a turns w.memory w'.memory b := by
  obtain ⟨start, stop, ⟨hbefore, _⟩, _, hran, ⟨hafter, _⟩, _⟩ := h.ran
  have hword : ∀ t ∈ turns, t.word ∈ Descriptor.positions addr count := fun t ht =>
    h.words ▸ List.mem_map_of_mem ht
  have hapart : turns.Pairwise fun t t' => t.word + 4 ≤ t'.word := by
    have hps : (Descriptor.positions addr count).Pairwise fun p q => p + 4 ≤ q :=
      Descriptor.positions_apart _ _
    rwa [← h.words, List.pairwise_map] at hps
  have hload : ∀ t ∈ turns, t.descriptor = Descriptor.load start.memory t.word := by
    rw [hbefore]
    exact h.loaded
  rw [hafter, ← hbefore]
  refine ⟨hran.reported hquiet hload hapart fun t ht => hout _ (hword t ht), fun b hb => ?_⟩
  exact hran.frame hquiet fun t ht => hb _ (hword t ht)

/-- The turns that have succeeded are counted by the statuses. -/
theorem countP_status {turns : List Turn} {ps : List Nat} {m : Memory} (hwords : turns.map Turn.word = ps)
    (hreported : ∀ t ∈ turns, t.Reported (Descriptor.load m t.word)) :
    (ps.countP fun p => (Descriptor.load m p).status.isOk) = succeeded turns := by
  rw [← hwords, List.countP_map, succeeded]
  refine List.countP_congr fun t ht => ?_
  show (Descriptor.load m t.word).status.isOk = true ↔ _
  rw [(hreported t ht).status]
  cases t.outcome <;> rfl

/-- No more turns succeed than there are descriptors, so their number fits in a register. -/
theorem BatchRan.toNat_succeeded {turns : List Turn} (h : BatchRan env harts a addr count w turns w') :
    (UInt64.ofNat (succeeded turns)).toNat = succeeded turns := by
  have hlength : turns.length = count.toNat := by
    rw [← List.length_map Turn.word, h.words]
    simp [Descriptor.positions]
  have hle : succeeded turns ≤ count.toNat := hlength ▸ List.countP_le_length
  exact UInt64.toNat_ofNat_of_lt (Nat.lt_of_le_of_lt hle count.toNat_lt)

/-! ## Calls -/

namespace Hart

variable {cfg : Config} {h : Hart}

/-- What becomes of a batch: its tally is counted, and an error reported. -/
theorem runBatch_run (env : Env σ) (cfg : Config) (id : Word) (claimed : List Word) (addr count : Word)
    (h : Hart) (w : World σ) :
    ∃ counters console, (runBatch env cfg id claimed addr count).run (h, w) =
      match (env.runBatch cfg.harts cfg.maxBatch h.session.area claimed addr count).run w with
      | (.ok t, w') => (.ok (.value (.ofNat t.succeeded)), ({ h with counters }, { w' with console }))
      | (.error e, w') => (.error e.sbi, ({ h with counters }, { w' with console }))
      | (.abandoned, w') => (.abandoned, ({ h with counters }, { w' with console })) := by
  have hcount : (Hart.count .batchCalls 1 : Act (Hart × World σ) SbiError Unit).run (h, w) =
      (.ok (), ({ h with counters := h.counters.add .batchCalls (.ofNat 1) }, w)) := rfl
  rw [runBatch_eq, Act.bind_run, hcount, Act.next_ok, Act.bind_run, Act.gets_run, Act.next_ok,
    Act.bind_run, Act.attempt_run, onWorld, Act.onSecond_run]
  dsimp only
  rcases (env.runBatch cfg.harts cfg.maxBatch h.session.area claimed addr count).run w with
    ⟨tally | e | _, w'⟩
  · obtain ⟨counters, console, hreport, _⟩ := reportBatch_run_ok id addr tally
      { h with counters := h.counters.add .batchCalls (.ofNat 1) } w'
    exact ⟨counters, console, hreport⟩
  · exact ⟨_, _, rfl⟩
  · exact ⟨_, w'.console, rfl⟩

/-- The call ends as the batch does, where there is no drain before it. -/
theorem handle_run_batch (env : Env σ) (cfg : Config) (id : Word) (claimed : List Word)
    (caller : Privilege) (addr count : Word) (hon : cfg.features.contains .batch = true)
    (hnone : h.drainArea? = none) (w : World σ) :
    ∃ counters console,
      (handle env cfg id claimed caller (.batchExecute addr count)).run (h, w) =
        match (env.runBatch cfg.harts cfg.maxBatch h.session.area claimed addr count).run
            (announced id (.batchExecute addr count) w) with
        | (.ok t, w') =>
          (.ok (.value (.ofNat t.succeeded)), ({ h with counters }, { w' with console }))
        | (.error e, w') => (.error e.sbi, ({ h with counters }, { w' with console }))
        | (.abandoned, w') => (.abandoned, ({ h with counters }, { w' with console })) := by
  have hperform : perform env cfg id claimed caller (.batchExecute addr count) =
      runBatch env cfg id claimed addr count := by
    show (requireFeature cfg .batch >>= fun _ => runBatch env cfg id claimed addr count) = _
    unfold requireFeature
    rw [if_pos hon, pure_bind]
  obtain ⟨counters, console, hrun⟩ := runBatch_run env cfg id claimed addr count h
    (announced id (.batchExecute addr count) w)
  rw [handle_run_undrained env cfg id claimed caller (.inr hnone), undrained, hperform, Act.bind_run,
    Act.attempt_run, hrun]
  rcases (env.runBatch cfg.harts cfg.maxBatch h.session.area claimed addr count).run
    (announced id (.batchExecute addr count) w) with ⟨tally | e | _, w'⟩
  · exact ⟨counters, console, rfl⟩
  · obtain ⟨console', hconclude⟩ := conclude_error_run id (.batchExecute addr count) e.sbi
      { h with counters } { w' with console }
    exact ⟨_, console', hconclude⟩
  · exact ⟨counters, console, rfl⟩

/-- A batch call fails if batches are off. -/
theorem handle_run_batch_off (env : Env σ) (cfg : Config) (id : Word) (claimed : List Word)
    (caller : Privilege) (addr count : Word) (hoff : cfg.features.contains .batch = false)
    (hnone : h.drainArea? = none) (w : World σ) :
    ∃ console, (handle env cfg id claimed caller (.batchExecute addr count)).run (h, w) =
      (.error .notSupported, (h, { w with console })) := by
  have hperform : perform env cfg id claimed caller (.batchExecute addr count) =
      (Act.fail .notSupported : Act (Hart × World σ) SbiError CallResult) := by
    show (requireFeature cfg .batch >>= fun _ => runBatch env cfg id claimed addr count) = _
    unfold requireFeature
    rw [if_neg (by simp [hoff]), Act.fail_bind]
  rw [handle_run_undrained env cfg id claimed caller (.inr hnone), undrained, hperform]
  exact conclude_error_run id (.batchExecute addr count) .notSupported h
    (announced id (.batchExecute addr count) w)

/-- How a batch call ends. -/
inductive BatchCallEnd (env : Env σ) (cfg : Config) (claimed : List Word) (addr count : Word) (h : Hart)
    (w : World σ) : Outcome SbiError CallResult × Hart × World σ → Prop where
  | failed {e : SbiError} {h' : Hart} {w' : World σ}
    (hwhy : cfg.features.contains .batch = false ∨
      BatchRefused env cfg.maxBatch h.session.area claimed addr count w.state w.memory)
    (huntouched : Untouched w w') : BatchCallEnd env cfg claimed addr count h w (.error e, h', w')
  | ran {a : Area} {turns : List Turn} {h' : Hart} {w' : World σ} (harea : h.session.area = some a)
    (hon : cfg.features.contains .batch = true)
    (hnot : ¬BatchRefused env cfg.maxBatch h.session.area claimed addr count w.state w.memory)
    (hran : BatchRan env cfg.harts a addr count w turns w') :
    BatchCallEnd env cfg claimed addr count h w (.ok (.value (.ofNat (succeeded turns))), h', w')

/-- **A batch call ends in one of these ways**, where there is no drain before it. -/
theorem handle_batch_end (hquiet : env.Quiet) (hback : env.Returns) (hmap : env.FaithfulIfAligned)
    (hmax : cfg.maxBatch ≤ Config.batchLimit) (haligned : ∀ g ∈ claimed, g.toNat % 4096 = 0)
    (harea : ∀ a, h.session.area = some a → a.gpa ∈ claimed ∧ a.base = a.gpa.toNat / 8)
    (hnone : h.drainArea? = none) (id : Word) (caller : Privilege) (addr count : Word) (w : World σ) :
    BatchCallEnd env cfg claimed addr count h w
      ((handle env cfg id claimed caller (.batchExecute addr count)).run (h, w)) := by
  cases hfeature : cfg.features.contains .batch with
  | false =>
    obtain ⟨console, hrun⟩ := handle_run_batch_off env cfg id claimed caller addr count hfeature hnone w
    rw [hrun]
    exact .failed (.inl hfeature) (.message w console)
  | true =>
    let start := announced id (.batchExecute addr count) w
    have hstart : Untouched w start := .message w start.console
    obtain ⟨counters, console, hrun⟩ :=
      handle_run_batch env cfg id claimed caller addr count hfeature hnone w
    have hend : BatchEnd env cfg.harts cfg.maxBatch h.session.area claimed addr count start _ :=
      Env.runBatch_end hmax haligned hquiet hback hmap harea cfg.harts start
    rw [hrun]
    generalize (env.runBatch cfg.harts cfg.maxBatch h.session.area claimed addr count).run start = ending
      at hend
    cases hend with
    | @refused e w' hrefused huntouched =>
      exact .failed (.inr hrefused) ((hstart.trans huntouched).trans (.message w' console))
    | @ran a tally turns w' harea hnot hran hcount =>
      dsimp only
      rw [hcount]
      exact .ran harea hfeature hnot (hran.message console)

end Hart

namespace Platform

variable {config : Config} {st : Platform × World σ} {id : Word} {hart : Hart}

/-- **What becomes of a batch.** The host leaves guest memory alone and comes back, mappings that can be
    accessed show what they should, and the hart is in the deferred mode.

    The call fails exactly if batches are off or something stands against this one, and then neither the host
    nor guest memory has been touched. Otherwise the descriptors take their turns in the order of the array,
    whatever the outcome of each. In the end every descriptor holds the report of its turn, the result is the
    number of descriptors with a status of success, and of the words outside the array only the entries of
    fences that have been performed have changed. -/
theorem Reachable.batch_outcome (hquiet : env.Quiet) (hback : env.Returns)
    (hmap : env.FaithfulIfAligned) (h : Reachable env config st) (hh : st.1.hart? id = some hart)
    (hmode : hart.session.mode = .deferred) (caller : Privilege) (addr count : Word) :
    let out := (handle env id caller (.batchExecute addr count)).run st
    let array := Descriptor.positions addr count
    ((∃ e, out.1 = .error e) ↔ config.features.contains .batch = false ∨
      BatchRefused env config.maxBatch hart.session.area st.1.claimed addr count st.2.state st.2.memory) ∧
    ((∃ e, out.1 = .error e) → Untouched st.2 out.2.2) ∧
    ((¬∃ e, out.1 = .error e) → ∃ a turns, hart.session.area = some a ∧
      BatchRan env config.harts a addr count st.2 turns out.2.2 ∧
      (∀ t ∈ turns, t.Reported (Descriptor.load out.2.2.memory t.word)) ∧
      (∃ v, out.1 = .ok (.value v) ∧
        v.toNat = array.countP fun p => (Descriptor.load out.2.2.memory p).status.isOk) ∧
      ∀ b, (∀ p ∈ array, ¬(p ≤ b ∧ b < p + 4)) →
        out.2.2.memory.read b = st.2.memory.read b ∨
          Finished a turns st.2.memory out.2.2.memory b) := by
  intro out array
  have hp : st.1.Placed := h.placed hmap
  have hconfig : st.1.config = config := h.config_eq
  have hmax : config.maxBatch ≤ Config.batchLimit := hconfig ▸ hp.maxBatch_le
  have haligned : ∀ g ∈ st.1.claimed, g.toNat % 4096 = 0 := List.forall_mem_map.2 hp.registered.aligned
  have harea : ∀ a, hart.session.area = some a → a.gpa ∈ st.1.claimed ∧ a.base = a.gpa.toNat / 8 :=
    fun a ha => ⟨List.mem_map_of_mem (hp.registered.mem_claims hh ha), hp.base_eq id hart a hh ha⟩
  have hnone : hart.drainArea? = none := Hart.drainArea?_eq_none (.inl hmode)
  have hend := Hart.handle_batch_end hquiet hback hmap hmax haligned harea hnone id caller addr count st.2
  have hrun : out = _ := handle_run env hh caller (.batchExecute addr count) st.2
  rw [hconfig] at hrun
  generalize (Hart.handle env config id st.1.claimed caller (.batchExecute addr count)).run
    (hart, st.2) = ending at hend hrun
  rw [hrun]
  cases hend with
  | @failed e h' w' hwhy huntouched =>
    exact ⟨⟨fun _ => hwhy, fun _ => ⟨e, rfl⟩⟩, fun _ => huntouched, fun hok => absurd ⟨e, rfl⟩ hok⟩
  | @ran a turns h' w' ha hon hnot hran =>
    have hends : ¬∃ e, (Outcome.ok (.value (.ofNat (succeeded turns))) : Outcome SbiError CallResult) =
        .error e := nofun
    have hout : ∀ p ∈ array, ∀ b, p ≤ b ∧ b < p + 4 → ¬a.Owns b := fun p hp b =>
      (BatchAdmitted.of_not_refused hmax hnot).not_owns hmax haligned (harea a ha).1 (harea a ha).2 hp
    obtain ⟨hreported, hframe⟩ := hran.written hquiet hout
    have hvalue := hran.toNat_succeeded.trans (countP_status hran.words hreported).symm
    refine ⟨⟨fun he => absurd he hends, fun hwhy => ?_⟩, fun he => absurd he hends, fun _ => ?_⟩
    · rcases hwhy with hoff | hrefused
      · cases hon.symm.trans hoff
      · exact absurd hrefused hnot
    · exact ⟨a, turns, ha, hran, hreported, ⟨_, rfl, hvalue⟩, hframe⟩

/-- One hart with its area and an array of three descriptors, which read a CSR, write it, and ask for the fence
    that is pending in entry 4. The host is going to refuse the second of these. -/
def threeDescribed : Platform × World Nat :=
  let created := (Operation.establish 0x3000 0).run (Env.refusing 1) 0
    ({ config := {}, harts := #[{}] }, { state := 0, memory := .zero })
  let fenced := (Area.ofGuest 0x3000).fillFence 4 (.make .vvma 1 7 0 0) created.2.memory
  let read : Descriptor := ⟨1, 0x240, 5, 9⟩
  let write : Descriptor := ⟨2, 0x240, 6, 9⟩
  let fence : Descriptor := ⟨3, 4, 0, 9⟩
  (created.1, { created.2 with
    memory := fence.store 0x1008 (write.store 0x1004 (read.store 0x1000 fenced)) })

theorem reachable_threeDescribed : Reachable (Env.refusing 1) {} threeDescribed := by
  have hnew := Reachable.one (Env.refusing 1) { state := 0, memory := .zero } rfl
  exact (hnew.step 0 (.establish 0x3000 0)).elsewhere _ _

theorem hart?_threeDescribed :
    threeDescribed.1.hart? 0 = some { session := { area := some (.ofGuest 0x3000) } } := rfl

/-- The second operation fails and the third takes place all the same. -/
theorem batch_outcome_three :
    let out := (handle (Env.refusing 1) 0 .supervisor (.batchExecute 0x8000 3)).run threeDescribed
    let found (p : Nat) := Descriptor.load out.2.2.memory p
    let pending (m : Memory) := ((Area.ofGuest 0x3000).fenceEntry m 4).pending
    Reachable (Env.refusing 1) {} threeDescribed ∧ (Env.refusing 1).Quiet ∧ (Env.refusing 1).Returns ∧
    out.1 = .ok (.value 2) ∧ found 0x1000 = ⟨1, 0x240, 0, 0⟩ ∧ (found 0x1004).status = .error .io ∧
    (found 0x1008).status = .ok () ∧ pending threeDescribed.2.memory = true ∧
    pending out.2.2.memory = false ∧
    ∃ turns, BatchRan (Env.refusing 1) 1 (.ofGuest 0x3000) 0x8000 3 threeDescribed.2 turns out.2.2 ∧
      ∀ t ∈ turns, t.Reported (found t.word) := by
  intro out found pending
  obtain ⟨_, _, hruns⟩ := reachable_threeDescribed.batch_outcome (Env.refusing_quiet 1)
    (Env.refusing_returns 1) (Env.refusing_faithful 1).ifAligned hart?_threeDescribed rfl .supervisor
    0x8000 3
  have hresult : out.1 = .ok (.value 2) := by decide +kernel
  have hends : ¬∃ e, out.1 = .error e := by
    rintro ⟨e, he⟩
    cases hresult.symm.trans he
  obtain ⟨a, turns, ha, hran, hreported, _⟩ := hruns hends
  cases ha
  refine ⟨reachable_threeDescribed, Env.refusing_quiet 1, Env.refusing_returns 1, hresult, ?_, ?_, ?_, ?_, ?_,
    turns, hran, hreported⟩
  · decide +kernel
  · decide +kernel
  · decide +kernel
  · decide +kernel
  · decide +kernel

end Platform

end NestedAccel
