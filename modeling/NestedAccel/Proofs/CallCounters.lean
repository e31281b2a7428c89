import NestedAccel.Proofs.Abandonment
import NestedAccel.Proofs.BatchStatuses
import NestedAccel.Proofs.ModeLock

/-!
# `NestedAccel.Proofs.CallCounters` — what one call adds to the counters of batches, denials and injections

Four counters of a hart say what its batches, its denied calls and its injections have come to. They are increased
in three places: where a batch has come to a tally, where an injection has been carried out, and where a denied call
is concluded. Nothing else touches them but a read that clears one of them.

A call is looked at once, for all four (**`Hart.handle_handled`**): it is a read that clears a counter, a batch that
has come to a tally, or neither of these. In each case the host has injected what is counted (`Hart.Gains`).
**`Hart.handle_getStatistic_ok`** says what a read that clears a counter returns and leaves.
-/

namespace NestedAccel

open Act (Moves)
open World (Reaches)

variable {σ ε α : Type} {env : Env σ}

/-! ## Counters -/

/-- The counters of what batches, denied calls and injections have come to. -/
def Counter.tallied : List Counter := [.batchOpsSucceeded, .batchOpsFailed, .denials, .interruptsInjected]

/-- What a tally adds to such a counter. -/
def Tally.count (t : Tally) : Counter → Nat
  | .batchOpsSucceeded => t.succeeded
  | .batchOpsFailed => t.failed
  | .denials => t.denied
  | .interruptsInjected => t.interrupts
  | _ => 0

theorem Tally.count_empty (k : Counter) : ({} : Tally).count k = 0 := by cases k <;> rfl

theorem Tally.count_add (t u : Tally) (k : Counter) : (t + u).count k = t.count k + u.count k := by
  cases k <;> rfl

/-- From `c` to `c'` the four counters have grown by what the tally says, modulo 2^64. -/
def Gained (t : Tally) (c c' : Counters) : Prop :=
  ∀ k ∈ Counter.tallied, c'.get k = c.get k + .ofNat (t.count k)

namespace Gained

variable {t u : Tally} {c c' c'' : Counters}

theorem refl (c : Counters) : Gained {} c c := by
  intro k _
  rw [Tally.count_empty]
  exact (UInt64.add_zero _).symm

theorem trans (h : Gained t c c') (h' : Gained u c' c'') : Gained (t + u) c c'' := by
  intro k hk
  rw [h' k hk, h k hk, Tally.count_add, UInt64.ofNat_add, UInt64.add_assoc]

/-- Counting anything else. -/
theorem of_other {k : Counter} (hk : k ∉ Counter.tallied) (c : Counters) (n : Word) :
    Gained {} c (c.add k n) := by
  intro k' hk'
  have hne : k ≠ k' := fun h => hk (h ▸ hk')
  rw [Counters.get_add, if_neg hne, Tally.count_empty]
  exact (UInt64.add_zero _).symm

/-- Counting `n` in one of the four counters, with a tally that says so. -/
theorem of_add {k : Counter} {n : Nat} (ht : ∀ k' ∈ Counter.tallied, t.count k' = if k = k' then n else 0)
    (c : Counters) : Gained t c (c.add k (.ofNat n)) := by
  intro k' hk'
  rw [Counters.get_add, ht k' hk']
  split
  · rename_i hsame
    rw [hsame]
  · exact (UInt64.add_zero _).symm

/-- The tally of a batch. -/
theorem of_tally (t : Tally) (c : Counters) : Gained t c (t.addTo c) := by
  intro k hk
  simp only [Counter.tallied, List.mem_cons, List.not_mem_nil, or_false] at hk
  rcases hk with rfl | rfl | rfl | rfl <;> simp [Tally.addTo, Counters.get_add, Tally.count]

end Gained

namespace Hart

variable {cfg : Config} {id : Word} {claimed : List Word} {caller : Privilege} {call : AccelCall}

/-! ## What is gained -/

/-- The four counters grow by what the tally says, and the host injects as many interrupts. -/
structure Gains (t : Tally) (st st' : Hart × World σ) : Prop where
  counters : Gained t st.1.counters st'.1.counters
  injected : Injected t.interrupts st.2 st'.2

namespace Gains

variable {t u : Tally} {st st' st'' : Hart × World σ}

theorem refl (st : Hart × World σ) : Gains {} st st := ⟨.refl _, .refl _⟩

theorem trans (h : Gains t st st') (h' : Gains u st' st'') : Gains (t + u) st st'' :=
  ⟨h.counters.trans h'.counters, h.injected.trans h'.injected⟩

theorem then_nothing (h : Gains t st st') (h' : Gains {} st' st'') : Gains t st st'' := h.trans h'

theorem after (h : Gains {} st st') (h' : Gains t st' st'') : Gains t st st'' := by
  have htotal := h.trans h'
  rwa [Tally.empty_add] at htotal

end Gains

instance : IsPreorder (Hart × World σ) (Gains {}) where
  refl := .refl
  trans _ _ _ h h' := h.then_nothing h'

theorem logMessage_gains (l : LogLevel) (text : String) :
    Moves (Gains {}) (onWorld (logMessage l text) : Act (Hart × World σ) ε Unit) :=
  fun _ => ⟨.refl _, .of_events rfl⟩

theorem count_gains {k : Counter} (hk : k ∉ Counter.tallied) (n : Nat) :
    Moves (Gains {}) (count k n : Act (Hart × World σ) ε Unit) :=
  fun st => ⟨.of_other hk _ _, .refl st.2⟩

theorem requireFeature_gains (f : Feature) :
    Moves (Gains {}) (requireFeature cfg f : Act (Hart × World σ) SbiError Unit) := by
  unfold requireFeature
  split
  · exact Moves.pure _
  · exact Moves.fail _

/-! ## Parts of a call that gain nothing -/

/-- A synchronization that asks for no injection. -/
theorem onPhase_gains {x : Act (Phase × World σ) ε α} {W : Nat → Prop}
    (hx : ∀ st, Reaches env (fun q => ∀ i, q ≠ .inject i) W st.2 (x.run st).2.2) (f : ε → SbiError) :
    Moves (Gains {}) ((onPhase x).mapError f) := by
  have hphase : Moves (Gains {}) (onPhase x) := fun st =>
    ⟨.refl _, .of_reaches (fun _ h => h _ rfl) (hx (st.1.phase, st.2))⟩
  exact hphase.mapError f

theorem requireArea_gains {x : Area → Act (Phase × World σ) ε α} {W : Nat → Prop}
    (hx : ∀ a st, Reaches env (fun q => ∀ i, q ≠ .inject i) W st.2 ((x a).run st).2.2) (f : ε → SbiError) :
    Moves (Gains {}) (requireArea >>= fun a => (onPhase (x a)).mapError f) := by
  refine Moves.bind ?_ fun a => onPhase_gains (hx a) f
  exact Moves.bind_gets fun _ => (Moves.ofExcept _).mapError _

theorem syncCsrs_uninjected (env : Env σ) (a : Area) (mask : SlotMask) (st : Phase × World σ) :
    Reaches env (fun q => ∀ i, q ≠ .inject i) (fun _ => True) st.2 ((env.syncCsrs a mask).run st).2.2 :=
  Env.syncCsrs_reaches (fun _ _ _ _ _ h => nomatch h) (fun _ => trivial) mask st

theorem drain_gains (env : Env σ) : Moves (Gains {}) (drain env) := by
  refine Moves.bind_gets fun st => ?_
  split
  · exact Moves.pure _
  · exact (onPhase_gains (syncCsrs_uninjected env _ _) _).bind fun n => count_gains (by decide) _

theorem syncCsrs_gains (env : Env σ) (mask : SlotMask) : Moves (Gains {}) (syncCsrs env mask) := by
  refine (count_gains (by decide) _).bind fun _ => ?_
  rw [← bind_assoc]
  refine (requireArea_gains (fun a => syncCsrs_uninjected env a mask) _).bind fun n => ?_
  exact (count_gains (by decide) _).bind fun _ => Moves.pure _

theorem syncHfences_gains (env : Env σ) (index : Word) : Moves (Gains {}) (syncHfences env index) := by
  have hfences : ∀ a (st : Phase × World σ), Reaches env (fun q => ∀ i, q ≠ .inject i) (fun _ => True) st.2
      ((env.syncHfences a index).run st).2.2 := fun a =>
    Env.syncHfences_reaches (fun _ => trivial) (fun _ _ i h => nomatch h) index
  refine (count_gains (by decide) _).bind fun _ => ?_
  rw [← bind_assoc]
  refine (requireArea_gains hfences _).bind fun n => ?_
  exact (count_gains (by decide) _).bind fun _ => Moves.pure _

theorem syncReturn_gains (env : Env σ) (cfg : Config) (flags : Word) (caller : Privilege) :
    Moves (Gains {}) (syncReturn env cfg flags caller) := by
  have hreturn : ∀ a (st : Phase × World σ), Reaches env (fun q => ∀ i, q ≠ .inject i) (fun _ => True) st.2
      ((env.syncReturn a flags caller (cfg.features.contains .autoswapCsr)).run st).2.2 := fun a =>
    Env.syncReturn_reaches (fun _ _ => trivial) (fun q (_ : q.Legal cfg.harts) hq => hq) flags caller _
  refine (count_gains (by decide) _).bind fun _ => ?_
  rw [← bind_assoc]
  refine (requireArea_gains hreturn _).bind fun summary => ?_
  refine (count_gains (by decide) _).bind fun _ => ?_
  exact (count_gains (by decide) _).bind fun _ => Moves.pure _

theorem changeMode_gains (id mode flags : Word) :
    Moves (Gains {}) (changeMode id mode flags : Act (Hart × World σ) SbiError CallResult) := by
  refine (Moves.gets _).bind fun _ => ((Moves.ofExcept _).mapError _).bind fun session => ?_
  have hset : Moves (Gains {}) (Act.modify fun st => ({ st.1 with session }, st.2) :
      Act (Hart × World σ) SbiError Unit) := fun st => ⟨.refl _, .refl st.2⟩
  exact hset.bind fun _ => (logMessage_gains _ _).bind fun _ => Moves.pure _

/-! ## What a call comes to -/

/-- The counter that has been cleared by a call with this outcome. -/
def clearedBy? : AccelCall → Outcome SbiError CallResult → Option Counter
  | .getStatistic counter clear, .ok _ => if clear = 0 then none else Counter.ofId? counter
  | _, _ => none

/-- The number of descriptors of a batch, and the value that its call has returned. -/
structure BatchAnswer where
  count : Word
  value : Word
deriving DecidableEq

/-- The batch that has been run by a call with this outcome. -/
def batchBy? : AccelCall → Outcome SbiError CallResult → Option BatchAnswer
  | .batchExecute _ count, .ok (.value v) => some ⟨count, v⟩
  | _, _ => none

/-- What a call that has come back has done from state `st` on, as far as the four counters are concerned. -/
inductive Performed (env : Env σ) (cfg : Config) (claimed : List Word) (st : Hart × World σ) :
    AccelCall → Outcome SbiError CallResult × (Hart × World σ) → Prop where
  | cleared {counter clear : Word} {c : Counter} (hclear : clear ≠ 0) (hc : Counter.ofId? counter = some c) :
    Performed env cfg claimed st (.getStatistic counter clear)
      (.ok (.value (st.1.counters.get c)), ({ st.1 with counters := st.1.counters.set c 0 }, st.2))
  | batch {addr count : Word} {a : Area} {t : Tally} {w : World σ} {st' : Hart × World σ}
    (harea : st.1.session.area = some a)
    (hran : (env.runBatch cfg.harts cfg.maxBatch (some a) claimed addr count).run st.2 = (.ok t, w))
    (hmemory : st'.2.memory = w.memory) (h : Gains t st st') :
    Performed env cfg claimed st (.batchExecute addr count) (.ok (.value (.ofNat t.succeeded)), st')
  | other {call : AccelCall} {o : Outcome SbiError CallResult} {n : Nat} {st' : Hart × World σ}
    (hcleared : clearedBy? call o = none) (hbatch : batchBy? call o = none)
    (h : Gains { interrupts := n } st st') : Performed env cfg claimed st call (o, st')

variable {st : Hart × World σ}

/-- An injection is counted if it has been carried out. -/
theorem inject_gains (env : Env σ) (cfg : Config) (kind number target : Word) (st : Hart × World σ) :
    ∃ n, Gains { interrupts := n } st ((inject env cfg kind number target).run st).2 := by
  unfold inject
  cases Check.injection cfg.harts kind number target with
  | error e => exact ⟨0, .refl st⟩
  | ok i =>
    rw [Act.ofExcept_ok, Act.mapError_pure, pure_bind, Act.bind_run, Act.mapError_run, onWorld,
      Act.onSecond_run, World.request_run]
    cases (env.host (.inject i) st.2.state st.2.memory).1 with
    | done v =>
      have hcounted : Gained { interrupts := 1 } st.1.counters (st.1.counters.add .interruptsInjected (.ofNat 1)) :=
        .of_add (by decide) _
      exact ⟨1, hcounted, [_], rfl, rfl⟩
    | refused e => exact ⟨0, .refl _, [_], rfl, rfl⟩
    | lost => exact ⟨0, .refl _, [_], rfl, rfl⟩

/-- A batch gains its tally, if it has one. -/
theorem runBatch_performed (env : Env σ) (cfg : Config) (id : Word) (claimed : List Word) (addr count : Word)
    (st : Hart × World σ) (hback : ((runBatch env cfg id claimed addr count).run st).1 ≠ .abandoned) :
    Performed env cfg claimed st (.batchExecute addr count) ((runBatch env cfg id claimed addr count).run st) := by
  have hcalled : Gains {} st ({ st.1 with counters := st.1.counters.add .batchCalls (.ofNat 1) }, st.2) :=
    ⟨.of_other (by decide) _ _, .refl st.2⟩
  have hrun : (runBatch env cfg id claimed addr count).run st =
      ((onWorld (env.runBatch cfg.harts cfg.maxBatch st.1.session.area claimed addr count)).attempt >>=
        reportBatch id addr).run
          ({ st.1 with counters := st.1.counters.add .batchCalls (.ofNat 1) }, st.2) := rfl
  rw [hrun, Act.bind_run, Act.attempt_run, onWorld, Act.onSecond_run] at hback ⊢
  dsimp only at hback ⊢
  rcases hr : (env.runBatch cfg.harts cfg.maxBatch st.1.session.area claimed addr count).run st.2 with
    ⟨t | e | _, w'⟩
  · cases harea : st.1.session.area with
    | none =>
      rw [harea] at hr
      cases hr
    | some a =>
      rw [harea] at hr
      obtain ⟨_, _, hinjected⟩ := Env.runBatch_ok hr
      obtain ⟨console, hreport⟩ := reportBatch_run id addr t
        { st.1 with counters := st.1.counters.add .batchCalls (.ofNat 1) } w'
      dsimp only
      rw [Act.next_ok, hreport]
      refine .batch harea hr rfl (hcalled.after ⟨.of_tally t _, ?_⟩)
      exact hinjected.then_still (.of_events rfl)
  · have hfailed : Gains {} st ((reportBatch id addr (.error e)).run
        ({ st.1 with counters := st.1.counters.add .batchCalls (.ofNat 1) }, w')).2 := by
      have hran : Gains {} st ({ st.1 with counters := st.1.counters.add .batchCalls (.ofNat 1) }, w') :=
        ⟨hcalled.counters, Env.runBatch_error hr⟩
      exact hran.then_nothing (((logMessage_gains _ _).bind fun _ => Moves.fail _) _)
    exact .other (n := 0) rfl rfl hfailed
  · rw [hr] at hback
    exact absurd rfl hback

theorem readCounter_run_none {counter : Word} (hc : Counter.ofId? counter = none) (clear : Word)
    (st : Hart × World σ) : (readCounter counter clear).run st = (.error .invalidParam, st) := by
  unfold readCounter
  rw [hc]
  rfl

/-- A read returns the counter, and leaves it cleared or as it was. -/
theorem readCounter_run {counter : Word} {c : Counter} (hc : Counter.ofId? counter = some c) (clear : Word)
    (st : Hart × World σ) :
    (readCounter counter clear).run st = (.ok (.value (st.1.counters.get c)),
      ({ st.1 with counters := if clear = 0 then st.1.counters else st.1.counters.set c 0 }, st.2)) := by
  have htake : st.1.counters.take c (decide (clear ≠ 0)) =
      (st.1.counters.get c, if clear = 0 then st.1.counters else st.1.counters.set c 0) := by
    unfold Counters.take
    by_cases hclear : clear = 0 <;> simp [hclear]
  unfold readCounter
  rw [hc]
  dsimp only
  rw [Act.bind_run, Act.gets_run, htake]
  rfl

/-- A read clears the counter that it returns, or gains nothing. -/
theorem readCounter_performed (env : Env σ) (cfg : Config) (claimed : List Word) (counter clear : Word)
    (st : Hart × World σ) :
    Performed env cfg claimed st (.getStatistic counter clear) ((readCounter counter clear).run st) := by
  cases hc : Counter.ofId? counter with
  | none =>
    rw [readCounter_run_none hc]
    exact .other (n := 0) rfl rfl (.refl st)
  | some c =>
    rw [readCounter_run hc]
    by_cases hclear : clear = 0
    · rw [if_pos hclear]
      refine .other (n := 0) ?_ rfl (.refl st)
      rw [clearedBy?, if_pos hclear]
    · rw [if_neg hclear]
      exact .cleared hclear hc

/-- What comes after a feature has been asked for. -/
theorem requireFeature_performed (f : Feature) {k : Act (Hart × World σ) SbiError CallResult}
    (hcleared : ∀ e, clearedBy? call (.error e) = none) (hbatch : ∀ e, batchBy? call (.error e) = none)
    (hback : ((requireFeature cfg f >>= fun _ => k).run st).1 ≠ .abandoned)
    (hk : (k.run st).1 ≠ .abandoned → Performed env cfg claimed st call (k.run st)) :
    Performed env cfg claimed st call ((requireFeature cfg f >>= fun _ => k).run st) := by
  unfold requireFeature at hback ⊢
  split
  · rename_i hon
    rw [if_pos hon] at hback
    exact hk hback
  · exact .other (n := 0) (hcleared _) (hbatch _) (.refl st)

/-- **What a call does** is one of three things. -/
theorem perform_performed (env : Env σ) (cfg : Config) (id : Word) (claimed : List Word) (caller : Privilege)
    (call : AccelCall) (st : Hart × World σ)
    (hback : ((perform env cfg id claimed caller call).run st).1 ≠ .abandoned) :
    Performed env cfg claimed st call ((perform env cfg id claimed caller call).run st) := by
  have hnothing : ∀ {x : Act (Hart × World σ) SbiError CallResult}, (∀ o, clearedBy? call o = none) →
      (∀ o, batchBy? call o = none) → Moves (Gains {}) x → Performed env cfg claimed st call (x.run st) :=
    fun hcleared hbatch hx => .other (n := 0) (hcleared _) (hbatch _) (hx st)
  cases call with
  | probeFeature feature => exact hnothing (fun _ => rfl) (fun _ => rfl) (Moves.pure _)
  | setShmem => exact hnothing (fun _ => rfl) (fun _ => rfl) (Moves.fail _)
  | syncCsr low high =>
    exact hnothing (fun _ => rfl) (fun _ => rfl) ((requireFeature_gains _).bind fun _ => syncCsrs_gains _ _)
  | syncHfence index =>
    exact hnothing (fun _ => rfl) (fun _ => rfl) ((requireFeature_gains _).bind fun _ => syncHfences_gains _ _)
  | syncSret flags =>
    exact hnothing (fun _ => rfl) (fun _ => rfl) ((requireFeature_gains _).bind fun _ => syncReturn_gains _ _ _ _)
  | batchExecute addr count =>
    exact requireFeature_performed .batch (fun _ => rfl) (fun _ => rfl) hback
      (runBatch_performed env cfg id claimed addr count st)
  | injectInterrupt kind number target =>
    refine requireFeature_performed .injectInterrupt (fun _ => rfl) (fun _ => rfl) hback fun _ => ?_
    obtain ⟨n, hgains⟩ := inject_gains env cfg kind number target st
    exact .other rfl rfl hgains
  | getVersion => exact hnothing (fun _ => rfl) (fun _ => rfl) (Moves.pure _)
  | getMode => exact hnothing (fun _ => rfl) (fun _ => rfl) ((Moves.gets _).bind fun _ => Moves.pure _)
  | setMode mode flags => exact hnothing (fun _ => rfl) (fun _ => rfl) (changeMode_gains _ _ _)
  | getStatistic counter clear =>
    exact requireFeature_performed .statistics (fun _ => rfl) (fun _ => rfl) hback fun _ =>
      readCounter_performed env cfg claimed counter clear st

/-! ## Calls -/

/-- What a call of hart `id` that has come back comes to from state `st` on, with the drain before it and its
    conclusion. -/
inductive Handled (env : Env σ) (cfg : Config) (id : Word) (claimed : List Word) (st : Hart × World σ)
    (call : AccelCall) :
    Outcome SbiError CallResult × (Hart × World σ) → Prop where
  /-- A read has cleared the counter that it returns. -/
  | cleared {counter clear : Word} {c : Counter} {drained : Hart × World σ}
    (hcall : call = .getStatistic counter clear) (hclear : clear ≠ 0) (hc : Counter.ofId? counter = some c)
    (hdrain : (drain env).run (st.1, announced id call st.2) = (.ok (), drained)) (hgains : Gains {} st drained) :
    Handled env cfg id claimed st call (.ok (.value (drained.1.counters.get c)),
      ({ drained.1 with counters := drained.1.counters.set c 0 }, drained.2))
  /-- A batch has come to a tally. -/
  | batch {addr count : Word} {a : Area} {t : Tally} {w : World σ} {drained st' : Hart × World σ}
    (hcall : call = .batchExecute addr count)
    (hdrain : (drain env).run (st.1, announced id call st.2) = (.ok (), drained))
    (harea : st.1.session.area = some a)
    (hran : (env.runBatch cfg.harts cfg.maxBatch (some a) claimed addr count).run drained.2 = (.ok t, w))
    (hmemory : st'.2.memory = w.memory) (hgains : Gains t st st') :
    Handled env cfg id claimed st call (.ok (.value (.ofNat t.succeeded)), st')
  | other {o : Outcome SbiError CallResult} {n : Nat} {st' : Hart × World σ}
    (hcleared : clearedBy? call o = none) (hbatch : batchBy? call o = none)
    (hgains : Gains { denied := if o = .error .denied then 1 else 0, interrupts := n } st st') :
    Handled env cfg id claimed st call (o, st')

/-- A denial is counted when the call is concluded. -/
theorem conclude_error_gains (id : Word) (call : AccelCall) (e : SbiError) (st : Hart × World σ) :
    ∃ st', (conclude id call (.error e)).run st = (.error e, st') ∧
      Gains { denied := if e = .denied then 1 else 0 } st st' := by
  obtain ⟨console, hrun⟩ := conclude_error_run id call e st.1 st.2
  refine ⟨_, hrun, ?_, .of_events rfl⟩
  split
  · have hdenied : Gained { denied := 1 } st.1.counters (st.1.counters.add .denials (.ofNat 1)) :=
      .of_add (by decide) _
    exact hdenied
  · exact .refl _

/-- A call that has failed, with what has been gained before it is concluded. -/
theorem Handled.of_error {start : Hart × World σ} {n : Nat} (hgains : Gains { interrupts := n } st start)
    (e : SbiError) : Handled env cfg id claimed st call ((conclude id call (.error e)).run start) := by
  obtain ⟨st', hrun, hdenied⟩ := conclude_error_gains id call e start
  rw [hrun]
  refine .other (n := n) ?_ ?_ ?_
  · cases call <;> rfl
  · cases call <;> rfl
  · have htotal := hgains.trans hdenied
    have hsame : ({ interrupts := n } + { denied := if e = .denied then 1 else 0 } : Tally) =
        { denied := if (Outcome.error e : Outcome SbiError CallResult) = .error .denied then 1 else 0,
          interrupts := n } := by
      by_cases he : e = .denied
      · subst he
        rfl
      · have he' : (Outcome.error e : Outcome SbiError CallResult) ≠ .error .denied := fun h => by
          injection h with h
          exact he h
        rw [if_neg he, if_neg he']
        rfl
    rwa [hsame] at htotal

/-- A call goes on from where the drain has left it. -/
theorem Handled.of_undrained {start : Hart × World σ} (hstill : Gains {} st start)
    (hsession : start.1.session = st.1.session)
    (hdrain : syncsCsrs call = false → (drain env).run (st.1, announced id call st.2) = (.ok (), start))
    (hback : ((undrained env cfg id claimed caller call).run start).1 ≠ .abandoned) :
    Handled env cfg id claimed st call ((undrained env cfg id claimed caller call).run start) := by
  rw [undrained, Act.bind_run, Act.attempt_run] at hback ⊢
  have hperformed := perform_performed env cfg id claimed caller call start
  have hok : ∀ r, (.ok r : Outcome SbiError CallResult) ≠ .abandoned := fun r h => by cases h
  have herror : ∀ e, (.error e : Outcome SbiError CallResult) ≠ .abandoned := fun e h => by cases h
  rcases hr : (perform env cfg id claimed caller call).run start with ⟨r | e | _, st'⟩
  · rw [hr] at hperformed
    show Handled env cfg id claimed st call (.ok r, st')
    cases hperformed (hok r) with
    | cleared hclear hc => exact .cleared rfl hclear hc (hdrain rfl) hstill
    | batch harea hran hmemory h =>
      exact .batch rfl (hdrain rfl) (hsession ▸ harea) hran hmemory (hstill.after h)
    | other hcleared hbatch h => exact .other hcleared hbatch (hstill.after h)
  · rw [hr] at hperformed
    show Handled env cfg id claimed st call ((conclude id call (.error e)).run st')
    cases hperformed (herror e) with
    | other _ _ h => exact .of_error (hstill.after h) e
  · rw [hr] at hback
    exact absurd rfl hback

/-- **What a call comes to** is one of three things. -/
theorem handle_handled (env : Env σ) (cfg : Config) (id : Word) (claimed : List Word) (caller : Privilege)
    (call : AccelCall) (st : Hart × World σ)
    (hback : ((handle env cfg id claimed caller call).run st).1 ≠ .abandoned) :
    Handled env cfg id claimed st call ((handle env cfg id claimed caller call).run st) := by
  have hannounced : Gains {} st (st.1, announced id call st.2) := ⟨.refl _, .of_events rfl⟩
  cases hsyncs : syncsCsrs call with
  | true =>
    have hrun := handle_run_undrained (h := st.1) env cfg id claimed caller (.inl hsyncs) st.2
    rw [hrun] at hback ⊢
    exact .of_undrained hannounced rfl (fun h => absurd hsyncs (by rw [h]; exact Bool.false_ne_true)) hback
  | false =>
    have hrun := handle_run_drain (h := st.1) env cfg id claimed caller hsyncs st.2
    have hdrained := drain_gains env (st.1, announced id call st.2)
    have hsession := drain_sameSession env (st.1, announced id call st.2)
    rw [hrun] at hback ⊢
    rcases hr : (drain env).run (st.1, announced id call st.2) with ⟨_ | e | _, start⟩
    · rw [hr] at hback hdrained hsession
      exact .of_undrained (hannounced.after hdrained) hsession (fun _ => hr) hback
    · rw [hr] at hdrained
      exact .of_error (n := 0) (hannounced.after hdrained) e
    · rw [hr] at hback
      exact absurd rfl hback

/-! ## Reads that clear -/

/-- The counters are as they were, but for that of the slots applied. -/
def OthersKept (st st' : Hart × World σ) : Prop :=
  ∀ k, k ≠ .csrsSynced → st'.1.counters.get k = st.1.counters.get k

instance : IsPreorder (Hart × World σ) OthersKept where
  refl _ _ _ := rfl
  trans _ _ _ h h' k hk := (h' k hk).trans (h k hk)

theorem drain_othersKept (env : Env σ) : Moves OthersKept (drain env) := by
  refine Moves.bind_gets fun st => ?_
  split
  · exact Moves.pure _
  · have hphase : ∀ x : Act (Phase × World σ) SyncError Nat, Moves OthersKept (onPhase x) := fun _ _ _ _ => rfl
    refine ((hphase _).mapError _).bind fun n => ?_
    intro st k hk
    show (st.1.counters.add .csrsSynced (.ofNat n)).get k = _
    rw [Counters.get_add, if_neg (Ne.symm hk)]

/-- **A read that clears a counter returns its value after the drain, and clears that counter only.** -/
theorem handle_getStatistic_ok {counter clear : Word} (hclear : clear ≠ 0) {r : CallResult}
    {st' : Hart × World σ}
    (hrun : (handle env cfg id claimed caller (.getStatistic counter clear)).run st = (.ok r, st')) :
    ∃ c drained, Counter.ofId? counter = some c ∧
      (drain env).run (st.1, announced id (.getStatistic counter clear) st.2) = (.ok (), drained) ∧
      OthersKept st drained ∧ r = .value (drained.1.counters.get c) ∧
      st' = ({ drained.1 with counters := drained.1.counters.set c 0 }, drained.2) := by
  have hsyncs : syncsCsrs (.getStatistic counter clear) = false := rfl
  have hkept := drain_othersKept env (st.1, announced id (.getStatistic counter clear) st.2)
  have hdrains := handle_run_drain (h := st.1) env cfg id claimed caller hsyncs st.2
  rcases hr : (drain env).run (st.1, announced id (.getStatistic counter clear) st.2) with ⟨_ | e | _, drained⟩
  · rw [hr] at hdrains hkept
    obtain ⟨_, start, hfeature, hread⟩ := Act.run_bind_ok (undrained_run_ok (hdrains.symm.trans hrun))
    obtain rfl := requireFeature_run_ok hfeature
    cases hc : Counter.ofId? counter with
    | none =>
      rw [readCounter_run_none hc] at hread
      cases hread
    | some c =>
      rw [readCounter_run hc, if_neg hclear] at hread
      cases hread
      exact ⟨c, start, rfl, rfl, hkept, rfl, rfl⟩
  · obtain ⟨console, hconclude⟩ := conclude_error_run id (.getStatistic counter clear) e drained.1 drained.2
    rw [hr] at hdrains
    cases (hconclude.symm.trans hdrains.symm).trans hrun
  · rw [hr] at hdrains
    cases hdrains.symm.trans hrun

end Hart

end NestedAccel
