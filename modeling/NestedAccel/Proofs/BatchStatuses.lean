import NestedAccel.Proofs.BatchSplit

/-!
# `NestedAccel.Proofs.BatchStatuses` — a tally, the statuses given, and the interrupts injected

The tally of a batch is added up from what its operations come to. The same is to be seen from outside: each
descriptor is given a status, and the host is asked to inject interrupts. `Env.batchStatuses` reads the statuses,
each at the moment it has been given, since nothing keeps a host from changing it afterwards.

A tally **describes** these statuses, and counts the injections that have been carried out (`Env.runBatch_ok`).
A batch that fails has injected nothing. If the host leaves guest memory alone, the statuses are the ones
that are found in the array in the end (`Env.batchStatuses_eq`).
-/

namespace NestedAccel

open World (Reaches)

variable {σ ε α β : Type} {env : Env σ} {a : Area} {w w' w'' : World σ} {harts : Nat}

/-! ## Injections on record -/

/-- The event is an injection that the host has carried out. -/
def Event.isInjection : Event → Bool
  | .requested (.inject _) (.done _) => true
  | _ => false

/-- The number of injections that the host has carried out. -/
def injectionsIn (events : List Event) : Nat := events.countP Event.isInjection

theorem injectionsIn_append (old new : List Event) :
    injectionsIn (old ++ new) = injectionsIn old + injectionsIn new := List.countP_append

/-- A request that is not for an injection is none. -/
theorem injectionsIn_eq_zero {events : List Event}
    (h : ∀ q r, .requested q r ∈ events → ∀ i, q ≠ .inject i) : injectionsIn events = 0 := by
  rw [injectionsIn, List.countP_eq_zero]
  intro e he hinjection
  unfold Event.isInjection at hinjection
  split at hinjection
  · exact h _ _ he _ rfl
  · cases hinjection

/-- From `w` to `w'` the host has carried out `n` injections. -/
def Injected (n : Nat) (w w' : World σ) : Prop :=
  ∃ new, w'.events = w.events ++ new ∧ injectionsIn new = n

namespace Injected

variable {n m : Nat}

theorem of_events (h : w'.events = w.events) : Injected 0 w w' := ⟨[], by rw [h, List.append_nil], rfl⟩

theorem refl (w : World σ) : Injected 0 w w := of_events rfl

theorem trans (h : Injected n w w') (h' : Injected m w' w'') : Injected (n + m) w w'' := by
  obtain ⟨new, hevents, rfl⟩ := h
  obtain ⟨more, hevents', rfl⟩ := h'
  exact ⟨new ++ more, by rw [hevents', hevents, List.append_assoc], injectionsIn_append new more⟩

theorem then_still (h : Injected n w w') (h' : Injected 0 w' w'') : Injected n w w'' := h.trans h'

theorem after (h : Injected 0 w w') (h' : Injected n w' w'') : Injected n w w'' := by
  have htotal := h.trans h'
  rwa [Nat.zero_add] at htotal

/-- Moves that ask for no injection inject nothing. -/
theorem of_reaches {P : Request → Prop} {W : Nat → Prop} (hP : ∀ i, ¬P (.inject i))
    (h : Reaches env P W w w') : Injected 0 w w' := by
  obtain ⟨new, hevents, hnew⟩ := h.events
  refine ⟨new, hevents, injectionsIn_eq_zero fun q r hq i hi => ?_⟩
  subst hi
  exact hP i (hnew _ r hq)

/-- The injections are found in what has been added to the record. -/
theorem drop (h : Injected n w w') : injectionsIn (w'.events.drop w.events.length) = n := by
  obtain ⟨new, hevents, hnew⟩ := h
  rw [hevents, List.drop_left, hnew]

end Injected

/-! ## Operations -/

/-- From `w`, the computation injects as many interrupts as its result says, and none without a result. -/
def Injects (interrupts : α → Nat) (x : Act (World σ) ε α) (w : World σ) : Prop :=
  match x.run w with
  | (.ok b, w') => Injected (interrupts b) w w'
  | (.error _, w') => Injected 0 w w'
  | (.abandoned, w') => Injected 0 w w'

/-- A computation that asks for no injection, with results that speak of none. -/
theorem Injects.of_reaches {interrupts : α → Nat} {x : Act (World σ) ε α} {P : Request → Prop}
    {W : Nat → Prop} (hP : ∀ i, ¬P (.inject i)) (hx : Reaches env P W w (x.run w).2)
    (hnone : ∀ b w', x.run w = (.ok b, w') → interrupts b = 0) : Injects interrupts x w := by
  unfold Injects
  rcases hr : x.run w with ⟨b | e | _, w'⟩
  · dsimp only
    rw [hnone b w' hr]
    rw [hr] at hx
    exact .of_reaches hP hx
  · rw [hr] at hx
    exact .of_reaches hP hx
  · rw [hr] at hx
    exact .of_reaches hP hx

/-- A request for operands that pass a check. -/
theorem Env.checkedRequest_injects (check : Except Refusal β) {q : β → Request} {g : Word → OpResult}
    (hg : ∀ b v, (g v).tally.interrupts = injectionsIn [.requested (q b) (.done v)]) (w : World σ) :
    Injects (fun r : OpResult => r.tally.interrupts)
      (Act.mapError Refusal.sbi (Act.ofExcept check) >>= fun x =>
        Act.mapError HostError.sbi (env.request (q x)) >>= fun v => pure (g v)) w := by
  unfold Injects
  cases check with
  | error e => exact .refl w
  | ok x =>
    rw [Act.ofExcept_ok, Act.mapError_pure, pure_bind, Act.bind_run, Act.mapError_run, World.request_run]
    cases (env.host (q x) w.state w.memory).1 with
    | done v => exact ⟨_, rfl, (hg x v).symm⟩
    | refused e => exact ⟨_, rfl, by cases q x <;> rfl⟩
    | lost => exact ⟨_, rfl, by cases q x <;> rfl⟩

/-- An operation injects what its tally says. -/
theorem Env.runOp_injects (env : Env σ) (harts : Nat) (a : Area) (op : BatchOp) (w : World σ) :
    Injects (fun r : OpResult => r.tally.interrupts) (env.runOp harts a op) w := by
  cases op with
  | csrRead n => exact Env.checkedRequest_injects _ (fun _ _ => rfl) w
  | csrWrite n v => exact Env.checkedRequest_injects _ (fun _ _ => rfl) w
  | injectInterrupt kind number target => exact Env.checkedRequest_injects _ (fun _ _ => rfl) w
  | hfence i =>
    have hfences : Reaches env (fun q => ∃ f, q.fence? = some f) (fun _ => True) w
        ((env.runOp harts a (.hfence i)).run w).2 := by
      refine Act.Moves.check (fun slot _ => Act.Moves.bind ?_ fun _ => Act.Moves.pure _) w
      exact (Env.syncFences_moves (fun _ => trivial) (fun f _ => ⟨f, rfl⟩) _).mapError _
    refine .of_reaches (fun _ h => ?_) hfences fun r w' hr => ?_
    · obtain ⟨f, hf⟩ := h
      cases hf
    · obtain ⟨slot, w₁, _, hslot⟩ := Act.run_bind_ok hr
      obtain ⟨n, w₂, _, hpure⟩ := Act.run_bind_ok hslot
      cases hpure
      rfl

theorem Env.runDescriptorOp_injects (env : Env σ) (harts : Nat) (a : Area) (d : Descriptor) (w : World σ) :
    Injects (fun r : OpResult => r.tally.interrupts) (env.runDescriptorOp harts a d) w := by
  unfold Env.runDescriptorOp
  split
  · exact Env.runOp_injects env harts a _ w
  · exact .refl w

/-! ## Statuses -/

/-- The tally says how many descriptors there are, and how many have the status of a denial. -/
structure Tally.Describes (t : Tally) (statuses : List (Except SbiError Unit)) : Prop where
  total : t.succeeded + t.failed = statuses.length
  denied : t.denied = statuses.count (.error .denied)

theorem Tally.Describes.add {t u : Tally} {statuses others : List (Except SbiError Unit)}
    (ht : t.Describes statuses) (hu : u.Describes others) : (t + u).Describes (statuses ++ others) where
  total := by
    show t.succeeded + u.succeeded + (t.failed + u.failed) = _
    rw [List.length_append, ← ht.total, ← hu.total]
    omega
  denied := by
    show t.denied + u.denied = _
    rw [List.count_append, ht.denied, hu.denied]

/-- The tally of what an operation has come to describes the status that is reported. -/
theorem Tally.describes_reported (p : Nat) (r : Except SbiError OpResult) (m : Memory) :
    Tally.Describes (match r with | .ok r => r.tally | .error e => .ofError e)
      [(Descriptor.load (Descriptor.report p r m) p).status] := by
  have hstatus : (Descriptor.load (Descriptor.report p r m) p).status = r.map fun _ => () := by
    rw [Descriptor.load_report]
    exact Descriptor.readStatus_reported r
  rw [hstatus]
  cases r with
  | ok r => cases r <;> exact ⟨rfl, rfl⟩
  | error e =>
    refine ⟨rfl, ?_⟩
    show (if e = .denied then 1 else 0) = List.count (Except.error SbiError.denied) [Except.error e]
    by_cases he : e = .denied
    · rw [if_pos he, he]
      rfl
    · rw [if_neg he, List.count_singleton, if_neg (by simpa using he)]

/-- The statuses that the descriptors at the given words are given when they are run in order. -/
def Env.statusesGiven (env : Env σ) (harts : Nat) (a : Area) :
    List Nat → World σ → List (Except SbiError Unit)
  | [], _ => []
  | p :: rest, w =>
    let w' := ((env.runDescriptor harts a p : Act (World σ) BatchError Tally).run w).2
    (Descriptor.load w'.memory p).status :: env.statusesGiven harts a rest w'

/-- The statuses that the descriptors of a batch are given. -/
def Env.batchStatuses (env : Env σ) (harts : Nat) (a : Area) (addr count : Word) (w : World σ) :
    List (Except SbiError Unit) :=
  match (env.map addr (Descriptor.arrayBytes count) w.state).1 with
  | .ok m => env.statusesGiven harts a ((List.range count.toNat).map (Descriptor.position m.base))
      (w.afterMap env addr (Descriptor.arrayBytes count))
  | .error _ => []

theorem Env.length_statusesGiven (env : Env σ) (harts : Nat) (a : Area) (ps : List Nat) (w : World σ) :
    (env.statusesGiven harts a ps w).length = ps.length := by
  induction ps generalizing w with
  | nil => rfl
  | cons p rest ih => exact congrArg (· + 1) (ih _)

/-! ## Batches -/

theorem Env.runDescriptor_ok {p : Nat} {t : Tally}
    (h : (env.runDescriptor harts a p : Act (World σ) ε Tally).run w = (.ok t, w')) :
    t.Describes [(Descriptor.load w'.memory p).status] ∧ Injected t.interrupts w w' := by
  have hinjects := Env.runDescriptorOp_injects env harts a (Descriptor.load w.memory p) w
  unfold Injects at hinjects
  rw [Env.runDescriptor_run] at h
  rcases hr : (env.runDescriptorOp harts a (Descriptor.load w.memory p)).run w with ⟨r | e | _, w₁⟩
  · rw [hr] at h hinjects
    cases h
    exact ⟨Tally.describes_reported p (.ok r) w₁.memory, hinjects.then_still (.of_events rfl)⟩
  · rw [hr] at h hinjects
    cases h
    exact ⟨Tally.describes_reported p (.error e) w₁.memory, hinjects.then_still (.of_events rfl)⟩
  · rw [hr] at h
    cases h

theorem Env.runDescriptors_ok {ps : List Nat} {t : Tally}
    (h : (env.runDescriptors harts a ps : Act (World σ) BatchError Tally).run w = (.ok t, w')) :
    t.Describes (env.statusesGiven harts a ps w) ∧ Injected t.interrupts w w' := by
  induction ps generalizing w t with
  | nil =>
    cases h
    exact ⟨⟨rfl, rfl⟩, .refl w'⟩
  | cons p rest ih =>
    rw [Env.runDescriptors_cons] at h
    obtain ⟨first, w₁, hfirst, h⟩ := Act.run_bind_ok h
    obtain ⟨others, w₂, hothers, h⟩ := Act.run_bind_ok h
    cases h
    obtain ⟨hstatus, hinjected⟩ := Env.runDescriptor_ok hfirst
    obtain ⟨hstatuses, hinjected'⟩ := ih hothers
    unfold Env.statusesGiven
    rw [hfirst]
    exact ⟨hstatus.add hstatuses, hinjected.trans hinjected'⟩

/-- What a mapped array that has come to a tally has gone through. -/
theorem Env.runMapped_run_ok {addr : Word} {n : Nat} {m : Mapping} {t : Tally}
    (h : (env.runMapped harts a addr n m).run w = (.ok t, w')) :
    m.aligned = true ∧
    (env.runDescriptors harts a ((List.range n).map (Descriptor.position m.base)) :
      Act (World σ) BatchError Tally).run w = (.ok t, w') := by
  unfold Env.runMapped at h
  split at h
  · cases h
  · rename_i haligned
    rw [readMemory, Act.bind_run, Act.gets_run, Act.next_ok] at h
    split at h
    · cases h
    · exact ⟨Decidable.not_not.1 haligned, h⟩

/-- A mapped array that has come to nothing has not been run. -/
theorem Env.runMapped_run_error {addr : Word} {n : Nat} {m : Mapping} {e : BatchError}
    (h : (env.runMapped harts a addr n m).run w = (.error e, w')) : w' = w := by
  unfold Env.runMapped at h
  split at h
  · cases h
    rfl
  · rw [readMemory, Act.bind_run, Act.gets_run, Act.next_ok] at h
    split at h
    · cases h
      rfl
    · exact absurd h (Env.runDescriptors_ne_error env harts a _ w w' e)

theorem Injected.afterMap (env : Env σ) (addr len : Word) (w : World σ) :
    Injected 0 w (w.afterMap env addr len) := ⟨[_], rfl, rfl⟩

theorem Injected.unmapped (addr len : Word) (w : World σ) : Injected 0 w (w.record (.unmapped addr len)) :=
  ⟨[_], rfl, rfl⟩

/-- What an array that has come to a tally has gone through: it has been mapped, run, and unmapped. -/
theorem Env.runArray_run_ok {addr count : Word} {t : Tally}
    (h : (env.runArray harts a addr count).run w = (.ok t, w')) :
    ∃ m w₁, (env.map addr (Descriptor.arrayBytes count) w.state).1 = .ok m ∧ m.aligned = true ∧
      (env.runDescriptors harts a ((List.range count.toNat).map (Descriptor.position m.base)) :
          Act (World σ) BatchError Tally).run (w.afterMap env addr (Descriptor.arrayBytes count)) =
        (.ok t, w₁) ∧
      w' = w₁.record (.unmapped addr (Descriptor.arrayBytes count)) := by
  rw [Env.runArray_run] at h
  cases hm : (env.map addr (Descriptor.arrayBytes count) w.state).1 with
  | error e =>
    rw [hm] at h
    cases h
  | ok m =>
    rw [hm] at h
    dsimp only at h
    rcases hr : (env.runMapped harts a addr count.toNat m).run
      (w.afterMap env addr (Descriptor.arrayBytes count)) with ⟨t' | e | _, w₁⟩
    · rw [hr] at h
      cases h
      obtain ⟨haligned, hran⟩ := Env.runMapped_run_ok hr
      exact ⟨m, w₁, rfl, haligned, hran, rfl⟩
    · rw [hr] at h
      cases h
    · rw [hr] at h
      cases h

/-- An array that fails has injected nothing. -/
theorem Env.runArray_error {addr count : Word} {e : BatchError}
    (h : (env.runArray harts a addr count).run w = (.error e, w')) : Injected 0 w w' := by
  have hmapped := Injected.afterMap env addr (Descriptor.arrayBytes count) w
  rw [Env.runArray_run] at h
  cases hm : (env.map addr (Descriptor.arrayBytes count) w.state).1 with
  | error e =>
    rw [hm] at h
    cases h
    exact hmapped
  | ok m =>
    rw [hm] at h
    dsimp only at h
    rcases hr : (env.runMapped harts a addr count.toNat m).run
      (w.afterMap env addr (Descriptor.arrayBytes count)) with ⟨t' | e | _, w₁⟩
    · rw [hr] at h
      cases h
    · rw [hr] at h
      cases h
      rw [Env.runMapped_run_error hr]
      exact hmapped.then_still (.unmapped _ _ _)
    · rw [hr] at h
      cases h

/-- What a batch that has come to a tally has gone through: an empty one nothing, and any other the mapping of
    its array, its descriptors, and the unmapping. -/
theorem Env.runBatch_run_ok {maxBatch : Nat} {claimed : List Word} {addr count : Word} {t : Tally}
    (h : (env.runBatch harts maxBatch (some a) claimed addr count).run w = (.ok t, w')) :
    BatchAdmitted maxBatch claimed addr count ∧
    ((count = 0 ∧ t = {} ∧ w' = w) ∨
      ∃ m w₁, count ≠ 0 ∧ (env.map addr (Descriptor.arrayBytes count) w.state).1 = .ok m ∧ m.aligned = true ∧
        (env.runDescriptors harts a ((List.range count.toNat).map (Descriptor.position m.base)) :
            Act (World σ) BatchError Tally).run (w.afterMap env addr (Descriptor.arrayBytes count)) =
          (.ok t, w₁) ∧
        w' = w₁.record (.unmapped addr (Descriptor.arrayBytes count))) := by
  rcases env.runBatch_cases harts maxBatch a claimed addr count with
    ⟨_, e, hrefused⟩ | ⟨hadmitted, hzero, hempty⟩ | ⟨hadmitted, hsome, hruns⟩
  · rw [hrefused] at h
    cases h
  · rw [hempty] at h
    cases h
    exact ⟨hadmitted, .inl ⟨hzero, rfl, rfl⟩⟩
  · rw [hruns] at h
    obtain ⟨m, w₁, harray⟩ := Env.runArray_run_ok h
    exact ⟨hadmitted, .inr ⟨m, w₁, hsome, harray⟩⟩

/-- **The tally of a batch describes the statuses that its descriptors are given,** one for each, and counts the
    interrupts that the host has injected. -/
theorem Env.runBatch_ok {maxBatch : Nat} {claimed : List Word} {addr count : Word} {t : Tally}
    (h : (env.runBatch harts maxBatch (some a) claimed addr count).run w = (.ok t, w')) :
    t.Describes (env.batchStatuses harts a addr count w) ∧
    (env.batchStatuses harts a addr count w).length = count.toNat ∧ Injected t.interrupts w w' := by
  obtain ⟨_, ⟨rfl, rfl, rfl⟩ | ⟨m, w₁, _, hm, _, hran, rfl⟩⟩ := Env.runBatch_run_ok h
  · have hnone : env.batchStatuses harts a addr 0 w' = [] := by
      unfold Env.batchStatuses
      split <;> rfl
    rw [hnone]
    exact ⟨⟨rfl, rfl⟩, rfl, .refl w'⟩
  · obtain ⟨hstatuses, hinjected⟩ := Env.runDescriptors_ok hran
    unfold Env.batchStatuses
    rw [hm]
    refine ⟨hstatuses, ?_, ?_⟩
    · rw [Env.length_statusesGiven, List.length_map, List.length_range]
    · have hmapped := Injected.afterMap env addr (Descriptor.arrayBytes count) w
      exact (hmapped.after hinjected).then_still (.unmapped _ _ _)

/-- A batch that fails has injected nothing. -/
theorem Env.runBatch_error {maxBatch : Nat} {area : Option Area} {claimed : List Word} {addr count : Word}
    {e : BatchError}
    (h : (env.runBatch harts maxBatch area claimed addr count).run w = (.error e, w')) : Injected 0 w w' := by
  cases area with
  | none =>
    cases h
    exact .refl w
  | some a =>
    rcases env.runBatch_cases harts maxBatch a claimed addr count with
      ⟨_, e, hrefused⟩ | ⟨_, _, hempty⟩ | ⟨_, _, hruns⟩
    · rw [hrefused] at h
      cases h
      exact .refl w
    · rw [hempty] at h
      cases h
    · rw [hruns] at h
      exact Env.runArray_error h

/-! ## Statuses in the end -/

section
variable (hquiet : env.Quiet)
include hquiet

/-- The status of a descriptor stays as it has been given while the others have their turns. -/
theorem Env.statusesGiven_eq {ps : List Nat} {t : Tally} (hapart : ps.Pairwise fun p q => p + 4 ≤ q)
    (hout : ∀ p ∈ ps, ∀ b, p ≤ b ∧ b < p + 4 → ¬a.Owns b)
    (h : (env.runDescriptors harts a ps : Act (World σ) BatchError Tally).run w = (.ok t, w')) :
    env.statusesGiven harts a ps w = ps.map fun p => (Descriptor.load w'.memory p).status := by
  induction ps generalizing w t with
  | nil => rfl
  | cons p rest ih =>
    obtain ⟨hp, hrest⟩ := List.pairwise_cons.1 hapart
    rw [Env.runDescriptors_cons] at h
    obtain ⟨first, w₁, hfirst, h⟩ := Act.run_bind_ok h
    obtain ⟨others, w₂, hothers, h⟩ := Act.run_bind_ok h
    cases h
    have hkept := Env.load_runDescriptors_apart (ε := BatchError) hquiet harts (fun q hq => .inr (hp q hq))
      (hout p List.mem_cons_self) w₁
    rw [hothers] at hkept
    unfold Env.statusesGiven
    rw [hfirst, List.map_cons, hkept]
    exact congrArg _ (ih hrest (fun q hq => hout q (List.mem_cons_of_mem p hq)) hothers)

/-- **The statuses given are those found in the array in the end,** if it is shown where it is and clear of the
    area. -/
theorem Env.batchStatuses_eq (hmap : env.FaithfulIfAligned) {maxBatch : Nat} {claimed : List Word}
    {addr count : Word} {t : Tally} (hclear : ∀ b, env.InBatch maxBatch claimed b → ¬a.Owns b)
    (h : (env.runBatch harts maxBatch (some a) claimed addr count).run w = (.ok t, w')) :
    env.batchStatuses harts a addr count w =
      (Descriptor.positions addr count).map fun p => (Descriptor.load w'.memory p).status := by
  obtain ⟨hadmitted, ⟨rfl, rfl, rfl⟩ | ⟨m, w₁, hsome, hm, haligned, hran, rfl⟩⟩ := Env.runBatch_run_ok h
  · unfold Env.batchStatuses
    split <;> rfl
  · have hbase : m.base = addr.toNat / 8 := by rw [Mapping.base, hmap _ _ _ m hm haligned]
    have hout : ∀ p ∈ (List.range count.toNat).map (Descriptor.position m.base),
        ∀ b, p ≤ b ∧ b < p + 4 → ¬a.Owns b := by
      intro p hp b hb
      have hbounds := Descriptor.position_bounds hp
      exact hclear b (Env.inBatch_of_mapped hadmitted hsome hm b (by omega))
    unfold Env.batchStatuses
    rw [hm]
    dsimp only
    rw [Env.statusesGiven_eq hquiet (Descriptor.positions_apart _ _) hout hran, hbase]
    rfl

end

end NestedAccel
