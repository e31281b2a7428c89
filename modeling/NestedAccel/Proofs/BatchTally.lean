import NestedAccel.Proofs.Applied

/-!
# `NestedAccel.Proofs.BatchTally` — a batch counts the fences that it performs

An operation of a batch that fails does not stop the batch, and what it reports goes into its descriptor.
The tally of the batch still counts every fence that has been performed: an operation names one entry, so
if its fence fails, nothing has been performed by it (`Env.syncFences_tallies`). From there the counts are
added up, one descriptor after the other. A batch applies no slot.
-/

namespace NestedAccel

open Act (Moves)

variable {σ ε ε' α β : Type} {env : Env σ} {a : Area} {w : World σ} {harts : Nat}

/-- From `w`, the computation performs entries, whose number is the `count` of its result if it has one.
    If it fails, it has performed none. -/
def Tallies (a : Area) (count : α → Nat) (x : Act (World σ) ε α) (w : World σ) : Prop :=
  ∃ entries, Applies a [] entries w (x.run w).2 ∧
    (∀ b w', x.run w = (.ok b, w') → count b = entries.length) ∧
    ∀ e w', x.run w = (.error e, w') → entries = []

namespace Tallies

variable {count : α → Nat} {x : Act (World σ) ε α}

theorem of_nothing (hx : Applies a [] [] w (x.run w).2)
    (hcount : ∀ b w', x.run w = (.ok b, w') → count b = 0) : Tallies a count x w :=
  ⟨[], hx, hcount, fun _ _ _ => rfl⟩

theorem fail (e : ε) (w : World σ) : Tallies a count (Act.fail e : Act (World σ) ε α) w :=
  of_nothing (.refl a w) fun b w' hb => by cases hb

/-- What comes first performs nothing. -/
theorem nothing_bind {count : β → Nat} {f : α → Act (World σ) ε β}
    (hx : Applies a [] [] w (x.run w).2)
    (hf : ∀ b w', x.run w = (.ok b, w') → Tallies a count (f b) w') : Tallies a count (x >>= f) w := by
  unfold Tallies
  rw [Act.bind_run]
  rcases hr : x.run w with ⟨o, w'⟩
  rw [hr] at hx
  cases o with
  | ok b =>
    obtain ⟨entries, happlies, hok, herror⟩ := hf b w' hr
    exact ⟨entries, hx.trans happlies, hok, herror⟩
  | error e => exact ⟨[], hx, fun b w' hb => (by cases hb), fun _ _ _ => rfl⟩
  | abandoned => exact ⟨[], hx, fun b w' hb => (by cases hb), fun _ _ _ => rfl⟩

/-- The result is turned into another with the same count. -/
theorem bind_pure {count' : β → Nat} (hx : Tallies a count x w) {f : α → β}
    (hf : ∀ b, count' (f b) = count b) : Tallies a count' (x >>= fun b => Pure.pure (f b)) w := by
  obtain ⟨entries, happlies, hok, herror⟩ := hx
  unfold Tallies
  rw [Act.run_bind_pure]
  rcases hr : x.run w with ⟨o, w'⟩
  rw [hr] at happlies
  refine ⟨entries, happlies, fun c w'' hc => ?_, fun e w'' he => ?_⟩
  · cases o with
    | ok b =>
      cases hc
      exact (hf b).trans (hok b w' hr)
    | error e => cases hc
    | abandoned => cases hc
  · cases o with
    | ok b => cases he
    | error e' => exact herror e' w' hr
    | abandoned => cases he

theorem mapError (hx : Tallies a count x w) (f : ε → ε') : Tallies a count (Act.mapError f x) w := by
  obtain ⟨entries, happlies, hok, herror⟩ := hx
  refine ⟨entries, ?_, fun b w' hb => hok b w' (Act.run_mapError_ok hb), fun e w' he => ?_⟩
  · rw [Act.mapError_run_snd]
    exact happlies
  · obtain ⟨e', _, hrun⟩ := Act.run_mapError_error he
    exact herror e' w' hrun

end Tallies

section
variable (hquiet : env.Quiet)
include hquiet

/-! ## Operations -/

/-- A fence for one entry is performed or not at all. -/
theorem Env.syncFences_tallies (s : FenceSlot) (w : World σ) :
    Tallies a id (env.syncFences a (.entry s)) w := by
  refine .nothing_bind (.refl a w) fun r w' hread => ?_
  obtain ⟨rfl, rfl⟩ := Act.run_gets_ok hread
  dsimp only
  cases hpending : a.pendingFences w'.memory (FenceSelect.entry s).slots with
  | error e => exact .fail e w'
  | ok fences =>
    rw [Area.pendingFences_eq hpending]
    show Tallies a id (env.performFences a _) w'
    obtain ⟨done, rest, hsplit, happlies, hok, herror⟩ :=
      Env.performFences_split hquiet (a := a) (w := w') (List.nodup_singleton s) fun _ => rfl
    have hlength : (done ++ rest).length ≤ 1 := by
      rw [← hsplit]
      exact List.length_filterMap_le _ _
    refine ⟨_, happlies, fun n w'' hn => ?_, fun e w'' he => ?_⟩
    · rw [List.length_map]
      exact (hok n w'' hn).2
    -- the one fence there was has been refused
    · have hrest := List.length_pos_iff.2 (herror e w'' he).1
      rw [List.length_append] at hlength
      have hdone : done.length = 0 := by omega
      rw [List.length_eq_zero_iff.1 hdone]
      rfl

/-- The tally of an operation counts the fence that it performs. -/
theorem Env.runOp_tallies (op : BatchOp) (w : World σ) :
    Tallies a (fun r : OpResult => r.tally.fences) (env.runOp harts a op) w := by
  have hrequest : ∀ {q : Request}, q.fence? = none → ∀ w : World σ,
      Applies a [] [] w (((env.request q).mapError HostError.sbi).run w).2 := by
    intro q hq w
    rw [Act.mapError_run_snd]
    exact .of_reaches hquiet (Env.request_moves hq w)
  have hchecked : ∀ {γ : Type} (e : Except Refusal γ) (w : World σ),
      Applies a [] [] w (((Act.ofExcept e).mapError Refusal.sbi).run w).2 := by
    intro γ e w
    rw [Act.mapError_run_snd, Act.ofExcept_run_snd]
    exact .refl a w
  cases op with
  | csrRead n =>
    refine .nothing_bind (hchecked _ w) fun csr w₁ _ => ?_
    refine .nothing_bind (hrequest rfl w₁) fun v w₂ _ => ?_
    refine .of_nothing (.refl a w₂) ?_
    rintro _ _ ⟨⟩
    rfl
  | csrWrite n v =>
    refine .nothing_bind (hchecked _ w) fun write w₁ _ => ?_
    refine .nothing_bind (hrequest rfl w₁) fun _ w₂ _ => ?_
    refine .of_nothing (.refl a w₂) ?_
    rintro _ _ ⟨⟩
    rfl
  | hfence i =>
    refine .nothing_bind (hchecked _ w) fun slot w₁ _ => ?_
    have hfences := (Env.syncFences_tallies hquiet (a := a) slot w₁).mapError FenceError.sbi
    exact hfences.bind_pure fun n => rfl
  | injectInterrupt kind number target =>
    refine .nothing_bind (hchecked _ w) fun i w₁ _ => ?_
    refine .nothing_bind (hrequest rfl w₁) fun _ w₂ _ => ?_
    refine .of_nothing (.refl a w₂) ?_
    rintro _ _ ⟨⟩
    rfl

omit hquiet in
/-- What a descriptor comes to once its operation has been run. -/
theorem Env.runDescriptor_run (env : Env σ) (harts : Nat) (a : Area) (p : Nat) (w : World σ) :
    (env.runDescriptor harts a p : Act (World σ) ε Tally).run w =
      match (env.runDescriptorOp harts a (Descriptor.load w.memory p)).run w with
      | (.ok r, w') => (.ok r.tally, { w' with memory := Descriptor.report p (.ok r) w'.memory })
      | (.error e, w') =>
        (.ok (.ofError e), { w' with memory := Descriptor.report p (.error e) w'.memory })
      | (.abandoned, w') => (.abandoned, w') := by
  unfold Env.runDescriptor
  rw [readMemory, Act.bind_run, Act.gets_run, Act.next_ok, Act.bind_run, Act.attempt_run]
  rcases (env.runDescriptorOp harts a (Descriptor.load w.memory p)).run w with ⟨_ | _ | _, _⟩ <;> rfl

/-- A descriptor always has a tally, and a report that goes elsewhere. -/
theorem Env.runDescriptor_tallies {p : Nat} (hout : ∀ b, p ≤ b ∧ b < p + 4 → ¬a.Owns b) (w : World σ) :
    Tallies a Tally.fences (env.runDescriptor harts a p : Act (World σ) ε Tally) w := by
  have hop : Tallies a (fun r : OpResult => r.tally.fences)
      (env.runDescriptorOp harts a (Descriptor.load w.memory p)) w := by
    unfold Env.runDescriptorOp
    split
    · exact Env.runOp_tallies hquiet _ w
    · exact .fail _ w
  have hreport : ∀ (r : Except SbiError OpResult) (w' : World σ),
      Applies a [] [] w' { w' with memory := Descriptor.report p r w'.memory } := by
    intro r w'
    refine .of_reaches hquiet (Relation.ReflTransGen.single (.write fun b hb => ?_))
    refine Descriptor.read_report p r w'.memory fun h => hb ⟨fun hin => ?_, fun hin => ?_⟩
    · exact hout b h (Area.owns_of_inSlots hin)
    · exact hout b h (Area.owns_of_inFenceList hin)
  obtain ⟨entries, happlies, hok, herror⟩ := hop
  unfold Tallies
  rw [Env.runDescriptor_run]
  rcases hr : (env.runDescriptorOp harts a (Descriptor.load w.memory p)).run w with ⟨o, w'⟩
  rw [hr] at happlies
  cases o with
  | ok r =>
    refine ⟨entries ++ [], happlies.trans (hreport _ w'), ?_, ?_⟩
    · rintro _ _ ⟨⟩
      rw [List.append_nil]
      exact hok r w' hr
    · rintro _ _ ⟨⟩
  | error e =>
    obtain rfl := herror e w' hr
    refine ⟨[] ++ [], happlies.trans (hreport _ w'), ?_, fun _ _ _ => rfl⟩
    rintro _ _ ⟨⟩
    rfl
  | abandoned =>
    refine ⟨entries, happlies, ?_, ?_⟩
    · rintro _ _ ⟨⟩
    · rintro _ _ ⟨⟩

/-! ## Batches -/

omit hquiet in
/-- A descriptor does not fail: its operation may, and then its tally says so. -/
theorem Env.runDescriptor_ne_error (env : Env σ) (harts : Nat) (a : Area) (p : Nat) (w w' : World σ)
    (e : ε) : (env.runDescriptor harts a p).run w ≠ (.error e, w') := by
  rw [Env.runDescriptor_run]
  rcases (env.runDescriptorOp harts a (Descriptor.load w.memory p)).run w with ⟨_ | _ | _, w₁⟩
  · rintro ⟨⟩
  · rintro ⟨⟩
  · rintro ⟨⟩

omit hquiet in
/-- Neither do several. -/
theorem Env.runDescriptors_ne_error (env : Env σ) (harts : Nat) (a : Area) (ps : List Nat)
    (w w' : World σ) (e : ε) : (env.runDescriptors harts a ps).run w ≠ (.error e, w') := by
  intro h
  induction ps generalizing w with
  | nil => cases h
  | cons p rest ih =>
    unfold Env.runDescriptors at h
    rcases Act.run_bind_error h with hfirst | ⟨t, w₁, _, hlater⟩
    · exact Env.runDescriptor_ne_error env harts a p w w' e hfirst
    · rcases Act.run_bind_error hlater with hrest | ⟨u, w₂, _, hsum⟩
      · exact ih w₁ hrest
      · cases hsum

/-- **The tally of descriptors counts the fences that they perform.** -/
theorem Env.runDescriptors_tallies {ps : List Nat}
    (hout : ∀ p ∈ ps, ∀ b, p ≤ b ∧ b < p + 4 → ¬a.Owns b) (w : World σ) :
    Tallies a Tally.fences (env.runDescriptors harts a ps : Act (World σ) ε Tally) w := by
  induction ps generalizing w with
  | nil =>
    refine .of_nothing (.refl a w) ?_
    rintro _ _ ⟨⟩
    rfl
  | cons p rest ih =>
    have hfirst : Tallies a Tally.fences (env.runDescriptor harts a p : Act (World σ) ε Tally) w :=
      Env.runDescriptor_tallies hquiet (hout p List.mem_cons_self) w
    obtain ⟨entries, happlies, hok, _⟩ := hfirst
    -- there is no error to speak of, so only a result has to agree with what has been performed
    suffices hsum : ∃ entries,
        Applies a [] entries w ((env.runDescriptors harts a (p :: rest) : Act (World σ) ε Tally).run w).2 ∧
        ∀ t w', (env.runDescriptors harts a (p :: rest) : Act (World σ) ε Tally).run w = (.ok t, w') →
          t.fences = entries.length by
      obtain ⟨all, hall, hcount⟩ := hsum
      exact ⟨all, hall, hcount, fun e w' he =>
        absurd he (Env.runDescriptors_ne_error env harts a (p :: rest) w w' e)⟩
    unfold Env.runDescriptors
    rw [Act.bind_run]
    rcases hr : (env.runDescriptor harts a p : Act (World σ) ε Tally).run w with ⟨o, w'⟩
    rw [hr] at happlies
    cases o with
    | ok t =>
      obtain ⟨others, happlies', hok', _⟩ := ih (fun q hq => hout q (List.mem_cons_of_mem p hq)) w'
      rw [Act.next_ok]
      refine ⟨entries ++ others, ?_, fun u w'' hu => ?_⟩
      · rw [Act.run_bind_pure]
        exact happlies.trans happlies'
      · obtain ⟨t', _, hrest, hsum⟩ := Act.run_bind_ok hu
        cases hsum
        show t.fences + t'.fences = (entries ++ others).length
        rw [hok t w' hr, hok' t' _ hrest, List.length_append]
    | error e =>
      refine ⟨entries, happlies, ?_⟩
      rintro _ _ ⟨⟩
    | abandoned =>
      refine ⟨entries, happlies, ?_⟩
      rintro _ _ ⟨⟩

theorem Env.runMapped_tallies (addr : Word) (count : Nat) (mapping : Mapping)
    (hout : ∀ b, mapping.base ≤ b ∧ b < mapping.base + 4 * count → ¬a.Owns b) (w : World σ) :
    Tallies a Tally.fences (env.runMapped harts a addr count mapping) w := by
  unfold Env.runMapped
  split
  · exact .fail _ w
  · refine .nothing_bind (.refl a w) fun u w' hread => ?_
    obtain ⟨rfl, rfl⟩ := Act.run_gets_ok hread
    split
    · exact .fail _ w'
    · refine Env.runDescriptors_tallies hquiet (fun p hp b hb => hout b ?_) w'
      have hbounds := Descriptor.position_bounds hp
      omega

/-- **The tally of a batch counts the fences that it performs.** A batch that could not run has performed
    none. -/
theorem Env.runBatch_tallies {maxBatch : Nat} {claimed : List Word}
    (hclear : ∀ b, env.InBatch maxBatch claimed b → ¬a.Owns b) (addr count : Word) (w : World σ) :
    Tallies a Tally.fences (env.runBatch harts maxBatch (some a) claimed addr count) w := by
  rcases env.runBatch_cases harts maxBatch a claimed addr count with
    ⟨_, e, hrefused⟩ | ⟨_, _, hempty⟩ | ⟨hadmitted, hsome, hruns⟩
  · rw [hrefused]
    exact .fail e w
  · rw [hempty]
    refine .of_nothing (.refl a w) ?_
    rintro _ _ ⟨⟩
    rfl
  · rw [hruns, Env.runArray]
    have hstays : Applies a [] [] w
        (((env.mapRange addr (Descriptor.arrayBytes count)).mapError BatchError.map).run w).2 :=
      .of_reaches hquiet ((Env.mapRange_moves _ _).mapError _ w)
    refine .nothing_bind hstays fun m w' hmapped => ?_
    have hm := World.mapRange_run_ok (Act.run_mapError_ok hmapped)
    have htallies : Tallies a Tally.fences (env.runMapped harts a addr count.toNat m) w' :=
      Env.runMapped_tallies hquiet addr count.toNat m
        (fun b hb => hclear b (Env.inBatch_of_mapped hadmitted hsome hm b hb)) w'
    obtain ⟨entries, happlies, hok, herror⟩ := htallies
    have hunmap : ∀ w₁ : World σ,
        Applies a [] [] w₁ (w₁.record (.unmapped addr (Descriptor.arrayBytes count))) :=
      fun w₁ => .of_reaches hquiet (Relation.ReflTransGen.single (.unmap w₁ _ _))
    -- the array is given back however the descriptors have ended
    unfold Tallies
    rw [Act.bind_run, Act.attempt_run]
    rcases hr : (env.runMapped harts a addr count.toNat m).run w' with ⟨o, w₁⟩
    rw [hr] at happlies
    cases o with
    | ok t =>
      refine ⟨entries ++ [], happlies.trans (hunmap w₁), ?_, ?_⟩
      · rintro _ _ ⟨⟩
        rw [List.append_nil]
        exact hok t w₁ hr
      · rintro _ _ ⟨⟩
    | error e =>
      obtain rfl := herror e w₁ hr
      refine ⟨[] ++ [], happlies.trans (hunmap w₁), ?_, fun _ _ _ => rfl⟩
      rintro _ _ ⟨⟩
    | abandoned =>
      refine ⟨entries, happlies, ?_, ?_⟩
      · rintro _ _ ⟨⟩
      · rintro _ _ ⟨⟩

end

end NestedAccel
