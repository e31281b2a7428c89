import NestedAccel.Proofs.BatchOutcome

/-!
# `NestedAccel.Proofs.Lockstep` — runs that the host cannot tell apart

Two ways of asking for the same thing differ in what they map, and the mapper keeps its own books of that. The
host does not see them. What it works on is a part of the environment's state, which mapping leaves alone
(`Env.HostPart`); and two worlds are `Alike` if that part, guest memory and the host's callbacks so far are the
same in both.

From worlds that are alike, whatever the library asks of the host gets the same reply and leads to worlds that
are alike again. `Act.Matches` says so of two runs and is carried through a computation step by step;
`Act.Respects` says it of one computation run twice. Mapping is the one thing that does not respect what is
alike, since its answer comes from the mapper; what it changes does (`Alike.mapped`).
-/

namespace NestedAccel

variable {σ η ε ε' α β s : Type}

/-! ## Callbacks -/

/-- The callback that the event is, with the host's reply. -/
def Event.callback? : Event → Option (Request × Reply)
  | .requested q r => some (q, r)
  | _ => none

/-- The callbacks into the host, each with its reply. -/
def callbacks (events : List Event) : List (Request × Reply) := events.filterMap Event.callback?

@[simp] theorem callbacks_append (old new : List Event) :
    callbacks (old ++ new) = callbacks old ++ callbacks new := List.filterMap_append

/-! ## Two runs -/

namespace Act

variable {R : s → s → Prop}

/-- Two runs have come to the same and have ended in states that are related. -/
def Matches (R : s → s → Prop) (r r' : Outcome ε α × s) : Prop := r.1 = r'.1 ∧ R r.2 r'.2

theorem Matches.symm [Std.Symm R] {r r' : Outcome ε α × s} (h : Matches R r r') : Matches R r' r :=
  ⟨h.1.symm, symm_of R h.2⟩

theorem Matches.trans [IsTrans s R] {r r' r'' : Outcome ε α × s} (h : Matches R r r')
    (h' : Matches R r' r'') : Matches R r r'' := ⟨h.1.trans h'.1, trans_of R h.2 h'.2⟩

theorem Matches.ok {r : Outcome ε α × s} {a : α} {st' : s} (h : Matches R r (.ok a, st')) :
    ∃ st, r = (.ok a, st) ∧ R st st' := ⟨r.2, Prod.ext h.1 rfl, h.2⟩

theorem Matches.abandoned {r : Outcome ε α × s} {st' : s} (h : Matches R r (.abandoned, st')) :
    ∃ st, r = (.abandoned, st) ∧ R st st' := ⟨r.2, Prod.ext h.1 rfl, h.2⟩

/-- The steps that come first match, and so does the rest from where they have ended. -/
theorem Matches.bind {x y : Act s ε α} {f g : α → Act s ε β} {st st' : s}
    (hx : Matches R (x.run st) (y.run st'))
    (hf : ∀ a st₁ st₁', x.run st = (.ok a, st₁) → y.run st' = (.ok a, st₁') → R st₁ st₁' →
      Matches R ((f a).run st₁) ((g a).run st₁')) :
    Matches R ((x >>= f).run st) ((y >>= g).run st') := by
  rw [bind_run, bind_run]
  rcases hxrun : x.run st with ⟨o, st₁⟩
  rcases hyrun : y.run st' with ⟨o', st₁'⟩
  rw [hxrun, hyrun] at hx
  obtain ⟨houtcome, hR⟩ := hx
  cases houtcome
  cases o with
  | ok a => exact hf a st₁ st₁' hxrun hyrun hR
  | error e => exact ⟨rfl, hR⟩
  | abandoned => exact ⟨rfl, hR⟩

/-- From related states, the computation comes to the same and ends in related states. -/
def Respects (R : s → s → Prop) (x : Act s ε α) : Prop :=
  ∀ st st', R st st' → Matches R (x.run st) (x.run st')

namespace Respects

variable {x : Act s ε α} {f : α → Act s ε β}

theorem pure (a : α) : Respects R (Pure.pure a : Act s ε α) := fun _ _ h => ⟨rfl, h⟩

theorem fail (e : ε) : Respects R (Act.fail e : Act s ε α) := fun _ _ h => ⟨rfl, h⟩

theorem ofExcept (r : Except ε α) : Respects R (Act.ofExcept r) := by
  cases r with
  | ok a => exact .pure a
  | error e => exact .fail e

theorem bind (hx : Respects R x) (hf : ∀ a, Respects R (f a)) : Respects R (x >>= f) :=
  fun _ _ h => (hx _ _ h).bind fun a st₁ st₁' _ _ hR => hf a st₁ st₁' hR

theorem gets {g : s → α} (hg : ∀ st st', R st st' → g st = g st') :
    Respects R (Act.gets g : Act s ε α) := fun st st' h => ⟨congrArg Outcome.ok (hg st st' h), h⟩

theorem modify {g : s → s} (hg : ∀ st st', R st st' → R (g st) (g st')) :
    Respects R (Act.modify g : Act s ε Unit) := fun st st' h => ⟨rfl, hg st st' h⟩

/-- A computation whose outcome follows from that of another, and which ends in the same state. -/
theorem of_outcome {y : Act s ε' β} (hx : Respects R x) (hstate : ∀ st, (y.run st).2 = (x.run st).2)
    (houtcome : ∀ st st', (x.run st).1 = (x.run st').1 → (y.run st).1 = (y.run st').1) : Respects R y := by
  intro st st' h
  obtain ⟨hsame, hR⟩ := hx st st' h
  refine ⟨houtcome st st' hsame, ?_⟩
  rw [hstate, hstate]
  exact hR

theorem mapError (hx : Respects R x) (g : ε → ε') : Respects R (Act.mapError g x) := by
  refine hx.of_outcome (fun st => mapError_run_snd g x st) fun st st' hsame => ?_
  rw [mapError_run, mapError_run]
  generalize x.run st = r, x.run st' = r' at hsame
  obtain ⟨o, _⟩ := r
  obtain ⟨o', _⟩ := r'
  cases hsame
  cases o <;> rfl

theorem attempt (hx : Respects R x) : Respects R (Act.attempt x : Act s ε' (Except ε α)) := by
  refine hx.of_outcome (fun st => attempt_run_snd x st) fun st st' hsame => ?_
  rw [attempt_run, attempt_run]
  generalize x.run st = r, x.run st' = r' at hsame
  obtain ⟨o, _⟩ := r
  obtain ⟨o', _⟩ := r'
  cases hsame
  cases o <;> rfl

end Respects

end Act

/-! ## What the host sees -/

/-- The host works on the part of the environment's state that `view` shows, and on guest memory. Mapping leaves
    that part alone. -/
structure Env.HostPart (env : Env σ) (view : σ → η) : Prop where
  reply : ∀ q st st' m, view st = view st' → (env.host q st m).1 = (env.host q st' m).1
  state : ∀ q st st' m, view st = view st' → view (env.host q st m).2.1 = view (env.host q st' m).2.1
  memory : ∀ q st st' m, view st = view st' → (env.host q st m).2.2 = (env.host q st' m).2.2
  mapped : ∀ gpa len st, view (env.map gpa len st).2 = view st

/-- Any host next to any mapper, each with a state of its own. -/
def Env.ofParts {μ : Type} (host : Request → η → Memory → Reply × η × Memory)
    (map : Word → Word → μ → Except MapError Mapping × μ) : Env (η × μ) where
  host q st m := ((host q st.1 m).1, ((host q st.1 m).2.1, st.2), (host q st.1 m).2.2)
  map gpa len st := ((map gpa len st.2).1, (st.1, (map gpa len st.2).2))

theorem Env.ofParts_hostPart {μ : Type} (host : Request → η → Memory → Reply × η × Memory)
    (map : Word → Word → μ → Except MapError Mapping × μ) : (Env.ofParts host map).HostPart Prod.fst where
  reply q _ _ m h := congrArg (fun n => (host q n m).1) h
  state q _ _ m h := congrArg (fun n => (host q n m).2.1) h
  memory q _ _ m h := congrArg (fun n => (host q n m).2.2) h
  mapped _ _ _ := rfl

/-- The host cannot tell the worlds apart, and neither can the guest. -/
structure World.Alike (view : σ → η) (w w' : World σ) : Prop where
  state : view w.state = view w'.state
  memory : w.memory = w'.memory
  callbacks : callbacks w.events = callbacks w'.events

namespace World.Alike

variable {env : Env σ} {view : σ → η} {w w' : World σ}

instance : IsEquiv (World σ) (Alike view) where
  refl _ := ⟨rfl, rfl, rfl⟩
  symm _ _ h := ⟨h.state.symm, h.memory.symm, h.callbacks.symm⟩
  trans _ _ _ h h' := ⟨h.state.trans h'.state, h.memory.trans h'.memory, h.callbacks.trans h'.callbacks⟩

/-- Mapping a range is nothing to the host. -/
theorem mapped (hview : env.HostPart view) (w : World σ) (gpa len : Word) :
    Alike view (w.afterMap env gpa len) w where
  state := hview.mapped gpa len w.state
  memory := rfl
  callbacks := (callbacks_append _ _).trans (List.append_nil _)

theorem unmapped (view : σ → η) (w : World σ) (gpa len : Word) :
    Alike view (w.record (.unmapped gpa len)) w :=
  ⟨rfl, rfl, (callbacks_append _ _).trans (List.append_nil _)⟩

theorem change (h : Alike view w w') (f : Memory → Memory) :
    Alike view { w with memory := f w.memory } { w' with memory := f w'.memory } :=
  ⟨h.state, congrArg f h.memory, h.callbacks⟩

end World.Alike

section
open Act (Respects)
variable {env : Env σ} {view : σ → η} {a : Area} {harts : Nat}

/-- A value read off guest memory. -/
theorem readMemory_respects (f : Memory → α) :
    Respects (World.Alike view) (readMemory f : Act (World σ) ε α) :=
  .gets fun _ _ h => congrArg f h.memory

theorem changeMemory_respects (f : Memory → Memory) :
    Respects (World.Alike view) (changeMemory f : Act (World σ) ε Unit) :=
  .modify fun _ _ h => h.change f

variable (hview : env.HostPart view)
include hview

/-- The host replies the same, and does the same. -/
theorem Env.request_respects (q : Request) : Respects (World.Alike view) (env.request q) := by
  intro w w' h
  have hreply := hview.reply q w.state w'.state w.memory h.state
  have hstate := hview.state q w.state w'.state w.memory h.state
  have hmemory := hview.memory q w.state w'.state w.memory h.state
  rw [h.memory] at hreply hstate hmemory
  rw [World.request_run, World.request_run, h.memory]
  refine ⟨by rw [hreply], hstate, hmemory, ?_⟩
  rw [callbacks_append, callbacks_append, h.callbacks, hreply]

theorem Env.performFences_respects (fences : List PendingFence) :
    Respects (World.Alike view) (env.performFences a fences) := by
  induction fences with
  | nil => exact .pure 0
  | cons p rest ih =>
    refine ((Env.request_respects hview _).mapError _).bind fun _ => ?_
    exact (changeMemory_respects _).bind fun _ => ih.bind fun _ => .pure _

theorem Env.syncFences_respects (select : FenceSelect) :
    Respects (World.Alike view) (env.syncFences a select) :=
  (readMemory_respects _).bind fun found => (Respects.ofExcept found).bind fun fences =>
    Env.performFences_respects hview fences

theorem Env.runOp_respects (op : BatchOp) : Respects (World.Alike view) (env.runOp harts a op) := by
  cases op with
  | csrRead n =>
    refine ((Respects.ofExcept _).mapError _).bind fun csr => ?_
    exact ((Env.request_respects hview _).mapError _).bind fun _ => .pure _
  | csrWrite n v =>
    refine ((Respects.ofExcept _).mapError _).bind fun write => ?_
    exact ((Env.request_respects hview _).mapError _).bind fun _ => .pure _
  | hfence i =>
    refine ((Respects.ofExcept _).mapError _).bind fun slot => ?_
    exact ((Env.syncFences_respects hview _).mapError _).bind fun _ => .pure _
  | injectInterrupt kind number target =>
    refine ((Respects.ofExcept _).mapError _).bind fun injection => ?_
    exact ((Env.request_respects hview _).mapError _).bind fun _ => .pure _

theorem Env.runDescriptorOp_respects (d : Descriptor) :
    Respects (World.Alike view) (env.runDescriptorOp harts a d) := by
  unfold Env.runDescriptorOp
  cases BatchOp.ofDescriptor? d with
  | none => exact .fail _
  | some op => exact Env.runOp_respects hview op

theorem Env.runDescriptor_respects (p : Nat) :
    Respects (World.Alike view) (env.runDescriptor harts a p : Act (World σ) ε Tally) := by
  refine (readMemory_respects _).bind fun d => ?_
  refine (Env.runDescriptorOp_respects hview d).attempt.bind fun r => ?_
  refine (changeMemory_respects _).bind fun _ => ?_
  cases r with
  | ok r => exact .pure _
  | error e => exact .pure _

/-- **Descriptors do the same in worlds that are alike.** -/
theorem Env.runDescriptors_respects (ps : List Nat) :
    Respects (World.Alike view) (env.runDescriptors harts a ps : Act (World σ) ε Tally) := by
  induction ps with
  | nil => exact .pure _
  | cons p rest ih => exact (Env.runDescriptor_respects hview p).bind fun t => ih.bind fun u => .pure _

end

/-! ## Batches -/

/-- The words of the descriptors of an array of `n` that is found from word `base` on. -/
def Descriptor.array (base n : Nat) : List Nat := (List.range n).map (position base)

/-- The array of `count` descriptors at `addr` is mapped where its words can be accessed, and is found from word
    `base` on. -/
def Env.Shows (env : Env σ) (addr count : Word) (state : σ) (base : Nat) : Prop :=
  ∃ m, (env.map addr (Descriptor.arrayBytes count) state).1 = .ok m ∧ m.aligned = true ∧ m.base = base

/-- The tags of the array are known. -/
def Descriptor.Known (m : Memory) (base n : Nat) : Prop :=
  ∀ p ∈ array base n, BatchTag.ofCode? (load m p).tag ≠ none

/-- An array with known tags is run as it stands. -/
theorem Env.runMapped_run_known (env : Env σ) (harts : Nat) (a : Area) (addr : Word) {count : Nat}
    {m : Mapping} {w : World σ} (halign : m.aligned = true)
    (hknown : Descriptor.Known w.memory m.base count) :
    (env.runMapped harts a addr count m).run w =
      (env.runDescriptors harts a (Descriptor.array m.base count)).run w := by
  unfold Env.runMapped
  rw [if_neg (by simp [halign]), readMemory, Act.bind_run, Act.gets_run, Act.next_ok,
    unknownTag?_eq_none.2 hknown]
  rfl

/-- **A batch does what its descriptors do,** once it has passed its checks. -/
theorem Env.runBatch_matches {env : Env σ} {view : σ → η} (hview : env.HostPart view) {maxBatch base : Nat}
    {claimed : List Word} {addr count : Word} {w : World σ}
    (hadmitted : BatchAdmitted maxBatch claimed addr count) (hsome : count ≠ 0)
    (hshown : env.Shows addr count w.state base) (hknown : Descriptor.Known w.memory base count.toNat)
    (harts : Nat) (a : Area) :
    Act.Matches (World.Alike view)
      ((env.runBatch harts maxBatch (some a) claimed addr count).run w)
      ((env.runDescriptors harts a (Descriptor.array base count.toNat)).run w) := by
  rcases env.runBatch_cases harts maxBatch a claimed addr count with
    ⟨hnot, _⟩ | ⟨_, hzero, _⟩ | ⟨_, _, hruns⟩
  · exact absurd hadmitted hnot
  · exact absurd hzero hsome
  obtain ⟨m, hm, halign, rfl⟩ := hshown
  have hmapped := World.Alike.mapped hview w addr (Descriptor.arrayBytes count)
  have hsame : Act.Respects (World.Alike view)
      (env.runDescriptors harts a (Descriptor.array m.base count.toNat) : Act _ BatchError Tally) :=
    Env.runDescriptors_respects hview _
  obtain ⟨houtcome, halike⟩ := hsame _ _ hmapped
  rw [hruns, Env.runArray_run, hm]
  dsimp only
  have hknown' : Descriptor.Known (w.afterMap env addr (Descriptor.arrayBytes count)).memory m.base
      count.toNat := hknown
  rw [Env.runMapped_run_known env harts a addr halign hknown']
  rcases hrun : (env.runDescriptors harts a (Descriptor.array m.base count.toNat)).run
    (w.afterMap env addr (Descriptor.arrayBytes count)) with ⟨o, w'⟩
  rw [hrun] at houtcome halike
  have hunmapped := World.Alike.unmapped view w' addr (Descriptor.arrayBytes count)
  -- the array is given back unless the host does not come back
  cases o with
  | ok t => exact ⟨houtcome, trans_of _ hunmapped halike⟩
  | error e => exact ⟨houtcome, trans_of _ hunmapped halike⟩
  | abandoned => exact ⟨houtcome, halike⟩

end NestedAccel
