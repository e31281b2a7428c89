import Mathlib.Algebra.GroupWithZero.Nat
import Mathlib.Data.List.DropRight
import NestedAccel.Proofs.CallCounters

/-!
# `NestedAccel.Proofs.RunCounters` — counters of batches, denials and injections over a run

`Platform.Run` is a run of a platform together with the calls that its harts have made, so that the counters of a
hart can be compared with **what the calls of the run have come to since the last read that cleared the counter**
(`Platform.Run.counters_gained`, **`Platform.Run.counters_exact`**). What is seen of a call (`Platform.Made.tally`)
is read off the call and its outcome, the statuses that a batch has given, and the events on record.
-/

namespace NestedAccel

open Act (Moves)
open World (Reaches)

variable {σ ε α : Type} {env : Env σ}

/-! ## Calls that have been made -/

namespace Platform

/-- A call that a hart has made, with its outcome and the states before and after it. -/
structure Made (σ : Type) where
  id : Word
  caller : Privilege
  call : AccelCall
  outcome : Outcome SbiError CallResult
  before : Platform × World σ
  after : Platform × World σ

namespace Made

/-- The counter that the call has cleared. -/
def cleared? (m : Made σ) : Option Counter := Hart.clearedBy? m.call m.outcome

/-- The batch that the call has run. -/
def batch? (m : Made σ) : Option Hart.BatchAnswer := Hart.batchBy? m.call m.outcome

/-- The calls to the environment that have been made meanwhile. -/
def events (m : Made σ) : List Event := m.after.2.events.drop m.before.2.events.length

/-- The statuses that the descriptors have been given, if the call has run a batch. -/
def statuses (env : Env σ) (m : Made σ) : List (Except SbiError Unit) :=
  match m.batch?, m.call, m.before.1.hart? m.id with
  | some _, .batchExecute addr count, some h => h.session.area.elim [] fun a =>
    let drained := ((Hart.drain env).run (h, Hart.announced m.id m.call m.before.2)).2
    env.batchStatuses m.before.1.config.harts a addr count drained.2
  | _, _, _ => []

/-- What is seen of the call, as a tally. -/
def tally (env : Env σ) (m : Made σ) : Tally where
  succeeded := m.batch?.elim 0 fun b => b.value.toNat
  failed := m.batch?.elim 0 fun b => b.count.toNat - b.value.toNat
  denied := (if m.outcome = .error .denied then 1 else 0) + (m.statuses env).count (.error .denied)
  interrupts := injectionsIn m.events

/-- The call has been answered from the state before it. -/
def Answered (env : Env σ) (m : Made σ) : Prop :=
  (handle env m.id m.caller m.call).run m.before = (m.outcome, m.after)

variable {m : Made σ}

theorem statuses_eq_nil (env : Env σ) (hnone : m.batch? = none) : m.statuses env = [] := by
  unfold statuses
  rw [hnone]

/-- A call of a hart that does not exist has failed, and nothing has happened. -/
theorem Answered.of_noHart (h : m.Answered env) (hh : m.before.1.hart? m.id = none) :
    m.outcome = .error .invalidParam ∧ m.after = m.before := by
  have hrun := (handle_run_none env hh m.caller m.call m.before.2).symm.trans h
  exact ⟨(congrArg Prod.fst hrun).symm, (congrArg Prod.snd hrun).symm⟩

/-- Any other call has been answered by its hart. -/
theorem Answered.of_hart (h : m.Answered env) {hart : Hart} (hh : m.before.1.hart? m.id = some hart) :
    ∃ hart', m.after.1 = m.before.1.setHart m.id hart' ∧
      (Hart.handle env m.before.1.config m.id m.before.1.claimed m.caller m.call).run (hart, m.before.2) =
        (m.outcome, (hart', m.after.2)) := by
  have hrun := (handle_run env hh m.caller m.call m.before.2).symm.trans h
  have houtcome := congrArg Prod.fst hrun
  have hafter := congrArg Prod.snd hrun
  dsimp only at houtcome hafter
  refine ⟨_, (congrArg Prod.fst hafter).symm, ?_⟩
  rw [← houtcome, ← hafter]

/-- What a hart has come to with a call. -/
theorem Answered.handled (h : m.Answered env) (hback : m.outcome ≠ .abandoned) {hart : Hart}
    (hh : m.before.1.hart? m.id = some hart) :
    ∃ hart', m.after.1 = m.before.1.setHart m.id hart' ∧
      Hart.Handled env m.before.1.config m.id m.before.1.claimed (hart, m.before.2) m.call
        (m.outcome, (hart', m.after.2)) := by
  obtain ⟨hart', hafter, hrun⟩ := h.of_hart hh
  have hhandled := Hart.handle_handled env m.before.1.config m.id m.before.1.claimed m.caller m.call
    (hart, m.before.2)
  rw [hrun] at hhandled
  exact ⟨hart', hafter, hhandled hback⟩

/-- The call has run a batch of the hart with area `a`, from the world `w` on that the drain has left. -/
structure RanBatch (env : Env σ) (m : Made σ) (b : Hart.BatchAnswer) (hart hart' : Hart) (addr : Word) (a : Area)
    (t : Tally) (w w' : World σ) : Prop where
  call : m.call = .batchExecute addr b.count
  outcome : m.outcome = .ok (.value b.value)
  before : m.before.1.hart? m.id = some hart
  area : hart.session.area = some a
  value : b.value = .ofNat t.succeeded
  ran : (env.runBatch m.before.1.config.harts m.before.1.config.maxBatch (some a) m.before.1.claimed addr
    b.count).run w = (.ok t, w')
  statuses : m.statuses env = env.batchStatuses m.before.1.config.harts a addr b.count w
  after : m.after.1 = m.before.1.setHart m.id hart'
  memory : m.after.2.memory = w'.memory
  gains : Hart.Gains t (hart, m.before.2) (hart', m.after.2)

/-- A call that has been abandoned has lost the host. -/
theorem Answered.lost (h : m.Answered env) (hlost : m.outcome = .abandoned) : Lost m.after.2.events := by
  cases hh : m.before.1.hart? m.id with
  | none =>
    obtain ⟨herror, _⟩ := h.of_noHart hh
    cases hlost.symm.trans herror
  | some hart =>
    obtain ⟨hart', _, hrun⟩ := h.of_hart hh
    have hphased := Hart.handle_phased env m.before.1.config m.id m.before.1.claimed m.caller m.call
      (hart, m.before.2)
    rw [hrun, hlost] at hphased
    exact hphased.lost rfl

theorem batch?_eq_some {b : Hart.BatchAnswer} (hb : m.batch? = some b) :
    (∃ addr, m.call = .batchExecute addr b.count) ∧ m.outcome = .ok (.value b.value) := by
  unfold batch? Hart.batchBy? at hb
  split at hb
  · rename_i addr count v hcall houtcome
    cases hb
    exact ⟨⟨addr, hcall⟩, houtcome⟩
  · cases hb

theorem Answered.ranBatch (h : m.Answered env) {b : Hart.BatchAnswer} (hb : m.batch? = some b) :
    ∃ hart hart' addr a t w w', m.RanBatch env b hart hart' addr a t w w' := by
  obtain ⟨_, houtcome⟩ := batch?_eq_some hb
  have hback : m.outcome ≠ .abandoned := by
    rw [houtcome]
    exact nofun
  cases hh : m.before.1.hart? m.id with
  | none =>
    obtain ⟨herror, _⟩ := h.of_noHart hh
    cases houtcome.symm.trans herror
  | some hart =>
    obtain ⟨hart', hafter, hhandled⟩ := h.handled hback hh
    rcases m with ⟨id, caller, call, outcome, before, p', w'⟩
    dsimp only at *
    cases hhandled with
    | cleared hcall _ _ _ _ =>
      subst hcall
      cases hb
    | @batch addr count a t w drained st' hcall hdrain harea hran hmemory hgains =>
      subst hcall
      cases hb
      have hstatuses : statuses env ⟨id, caller, .batchExecute addr count, .ok (.value (.ofNat t.succeeded)), before,
          p', w'⟩ = env.batchStatuses before.1.config.harts a addr count drained.2 := by
        unfold statuses
        dsimp only
        rw [hh]
        show hart.session.area.elim [] _ = _
        rw [harea, hdrain]
        rfl
      exact ⟨hart, hart', addr, a, t, drained.2, w, rfl, rfl, hh, harea, rfl, hran, hstatuses, hafter, hmemory,
        hgains⟩
    | other _ hbatch _ => cases hbatch.symm.trans hb

namespace RanBatch

variable {b : Hart.BatchAnswer} {hart hart' : Hart} {addr : Word} {a : Area} {t : Tally} {w w' : World σ}

theorem total (h : m.RanBatch env b hart hart' addr a t w w') : t.succeeded + t.failed = b.count.toNat := by
  obtain ⟨ht, hlength, _⟩ := Env.runBatch_ok h.ran
  exact ht.total.trans hlength

/-- There are no more successes than descriptors, so their number fits in a register. -/
theorem toNat_value (h : m.RanBatch env b hart hart' addr a t w w') : b.value.toNat = t.succeeded := by
  have hle : t.succeeded ≤ b.count.toNat := h.total ▸ Nat.le_add_right _ _
  rw [h.value]
  exact UInt64.toNat_ofNat_of_lt (Nat.lt_of_le_of_lt hle b.count.toNat_lt)

/-- What is seen of the call is the tally of the batch, but for its fences. -/
theorem tally_eq (h : m.RanBatch env b hart hart' addr a t w w') (hb : m.batch? = some b) :
    m.tally env = { t with fences := 0 } := by
  obtain ⟨ht, _, _⟩ := Env.runBatch_ok h.ran
  have htotal := h.total
  unfold tally
  rw [hb, h.outcome, if_neg nofun, h.statuses, ← ht.denied]
  ext
  · exact h.toNat_value
  · show b.count.toNat - b.value.toNat = t.failed
    rw [h.toNat_value]
    omega
  · exact Nat.zero_add _
  · rfl
  · exact h.gains.injected.drop

theorem gained (h : m.RanBatch env b hart hart' addr a t w w') (hb : m.batch? = some b) :
    ∀ k ∈ Counter.tallied, hart'.counters.get k = if m.cleared? = some k then 0
      else hart.counters.get k + .ofNat ((m.tally env).count k) := by
  intro k hk
  have hcleared : m.cleared? = none := by
    unfold cleared?
    rw [h.call]
    rfl
  have hcount : (m.tally env).count k = t.count k := by
    rw [h.tally_eq hb]
    cases k <;> rfl
  rw [hcleared, if_neg nofun, hcount]
  exact h.gains.counters k hk

end RanBatch

/-- A batch returns no more than the number of its descriptors. -/
theorem Answered.value_le (h : m.Answered env) {b : Hart.BatchAnswer} (hb : m.batch? = some b) :
    b.value.toNat ≤ b.count.toNat := by
  obtain ⟨_, _, _, _, t, _, _, hran⟩ := h.ranBatch hb
  rw [hran.toNat_value, ← hran.total]
  exact Nat.le_add_right _ _

/-- What is seen of a call that has run no batch: whether it has been denied, and the injections. -/
theorem tally_of_none {n : Nat} (hb : m.batch? = none) (hinjected : Injected n m.before.2 m.after.2) :
    m.tally env = { denied := if m.outcome = .error .denied then 1 else 0, interrupts := n } := by
  unfold tally
  rw [hb, statuses_eq_nil env hb]
  ext
  · rfl
  · rfl
  · rfl
  · rfl
  · exact hinjected.drop

theorem gained_of_none {hart hart' : Hart} (hb : m.batch? = none)
    (hhandled : Hart.Handled env m.before.1.config m.id m.before.1.claimed (hart, m.before.2) m.call
      (m.outcome, (hart', m.after.2))) :
    ∀ k ∈ Counter.tallied, hart'.counters.get k = if m.cleared? = some k then 0
      else hart.counters.get k + .ofNat ((m.tally env).count k) := by
  intro k hk
  rcases m with ⟨id, caller, call, outcome, before, p', w'⟩
  dsimp only at hhandled
  cases hhandled with
  | @cleared counter clear c drained hcall hclear hc _ hgains =>
    have hcleared : cleared? ⟨id, caller, call, .ok (.value (drained.1.counters.get c)), before, p', drained.2⟩ =
        some c := by
      subst hcall
      show (if clear = 0 then none else Counter.ofId? counter) = some c
      rw [if_neg hclear, hc]
    rw [hcleared, Counters.get_set, tally_of_none hb hgains.injected]
    by_cases hsame : c = k
    · rw [if_pos hsame, if_pos (congrArg some hsame)]
    · rw [if_neg hsame, if_neg fun h => hsame (Option.some.inj h)]
      exact hgains.counters k hk
  | @batch _ _ _ _ _ _ _ hcall _ _ _ _ _ =>
    subst hcall
    cases hb
  | other hcleared _ hgains =>
    have hcleared' : cleared? ⟨id, caller, call, outcome, before, p', w'⟩ = none := hcleared
    rw [hcleared', if_neg nofun, tally_of_none hb hgains.injected]
    exact hgains.counters k hk

/-- **The four counters grow by what is seen of a call,** but for the one that it clears. -/
theorem Answered.gained (h : m.Answered env) (hback : m.outcome ≠ .abandoned) {hart : Hart}
    (hh : m.before.1.hart? m.id = some hart) :
    ∃ hart', m.after.1 = m.before.1.setHart m.id hart' ∧ ∀ k ∈ Counter.tallied,
      hart'.counters.get k = if m.cleared? = some k then 0
        else hart.counters.get k + .ofNat ((m.tally env).count k) := by
  cases hb : m.batch? with
  | some b =>
    obtain ⟨hart₀, hart', _, _, _, _, _, hran⟩ := h.ranBatch hb
    cases hh.symm.trans hran.before
    exact ⟨hart', hran.after, hran.gained hb⟩
  | none =>
    obtain ⟨hart', hafter, hhandled⟩ := h.handled hback hh
    exact ⟨hart', hafter, gained_of_none hb hhandled⟩

end Made

/-! ## Other operations -/

/-- No registration changes a counter. -/
theorem establish_sameCounters (env : Env σ) (id gpa flags : Word) :
    Moves (Same Hart.counters) (establish env id gpa flags) :=
  fun st => (establish_same env id gpa flags st).comp Hart.counters

theorem release_sameCounters (id : Word) : Moves (Same (σ := σ) Hart.counters) (release id) :=
  fun st => (release_same id st).comp Hart.counters

theorem offline_sameCounters (id : Word) : Moves (Same (σ := σ) Hart.counters) (offline id) := by
  refine (release_sameCounters id).bind fun _ => ?_
  rintro ⟨p, w⟩
  cases hh : p.hart? id with
  | none =>
    rw [onHart_run_none hh]
    exact refl_of _ (p, w)
  | some h =>
    rw [onHart_run hh]
    show Same Hart.counters (p, w)
      ({ p.setHart id { h with session := h.session.resetMode } with claims := p.claims }, w)
    exact .setHart hh rfl

/-- A call other than for the shared area is answered by the hart, if by anything. -/
theorem answer_run_snd {call : AccelCall} (hcall : ∀ addr flags, call ≠ .setShmem addr flags) (id : Word)
    (caller : Privilege) (st : Platform × World σ) :
    ((answer env id caller call : Act _ ε EcallAction).run st).2 = ((handle env id caller call).run st).2 := by
  rcases st with ⟨p, w⟩
  cases call with
  | setShmem addr flags => exact absurd rfl (hcall addr flags)
  | _ =>
    unfold answer
    rw [Act.bind_run, Act.gets_run, Act.next_ok]
    cases hh : p.hart? id with
    | none =>
      rw [handle_run_none env hh]
      rfl
    | some h =>
      rw [if_neg (by simp), Act.bind_run, Act.attempt_run]
      rcases (handle env id caller _).run (p, w) with ⟨(_ | _) | _ | _, _⟩ <;> rfl

end Platform

open Platform in
/-- The call that a hart answers by the operation, if it does: it is made directly or by an environment call. -/
def Operation.answered? : Operation → Option (Privilege × AccelCall)
  | handle caller call => some (caller, call)
  | ecall caller rs =>
    match Call.ofRegisters rs with
    | .ok (.accel (.setShmem ..)) => none
    | .ok (.accel call) => some (caller, call)
    | _ => none
  | _ => none

theorem Operation.run_answered {op : Operation} {caller : Privilege} {call : AccelCall}
    (h : op.answered? = some (caller, call)) (env : Env σ) (id : Word) (st : Platform × World σ) :
    op.run env id st = ((Platform.handle env id caller call).run st).2 := by
  cases op with
  | handle caller' call' =>
    cases h
    rfl
  | ecall caller' rs =>
    show ((Platform.ecall env id caller' rs : Act _ Empty _).run st).2 = _
    unfold Platform.ecall
    rw [answered?] at h
    cases hrs : Call.ofRegisters rs with
    | error e =>
      rw [hrs] at h
      cases h
    | ok decoded =>
      rw [hrs] at h
      cases decoded with
      | base _ => cases h
      | accel call' =>
        cases call' with
        | setShmem addr flags => cases h
        | _ =>
          cases h
          dsimp only
          rw [Act.run_bind_pure]
          exact Platform.answer_run_snd (fun _ _ hcall => by cases hcall) id caller st
  | establish gpa flags => cases h
  | release => cases h
  | offline => cases h

/-- Other operations leave all counters as they are. -/
theorem Operation.sameCounters {op : Operation} (h : op.answered? = none) (env : Env σ) (id : Word)
    (st : Platform × World σ) : Platform.Same Hart.counters st (op.run env id st) := by
  cases op with
  | handle caller call => cases h
  | ecall caller rs =>
    show Platform.Same Hart.counters st ((Platform.ecall env id caller rs : Act _ Empty _).run st).2
    unfold Platform.ecall
    rw [answered?] at h
    cases hrs : Call.ofRegisters rs with
    | error e => exact refl_of _ st
    | ok decoded =>
      rw [hrs] at h
      cases decoded with
      | base _ => exact refl_of _ st
      | accel call =>
        cases call with
        | setShmem addr flags =>
          dsimp only
          rw [Act.run_bind_pure]
          have hshmem := Platform.setShmem_moves (Platform.establish_sameCounters env id)
            (Platform.release_sameCounters id) addr flags
          refine hshmem.attempt.bind (fun r => ?_) st
          split <;> exact Moves.pure _
        | _ => cases h
  | establish gpa flags => exact Platform.establish_sameCounters env id gpa flags st
  | release => exact Platform.release_sameCounters id st
  | offline => exact Platform.offline_sameCounters id st

/-! ## Runs -/

/-- The call that has been made if the operation is one that the hart answers. -/
def Operation.made (env : Env σ) (id : Word) (op : Operation) (st : Platform × World σ) : List (Platform.Made σ) :=
  match op.answered? with
  | some (caller, call) =>
    let out := (Platform.handle env id caller call).run st
    [⟨id, caller, call, out.1, st, out.2⟩]
  | none => []

namespace Platform

variable {config : Config} {id : Word} {st st' : Platform × World σ} {calls : List (Made σ)}

/-- A run of a platform, from the time it is created, with the calls that its harts have made and the state that it
    has come to. -/
inductive Run (env : Env σ) (config : Config) : List (Made σ) → Platform × World σ → Prop where
  | new {p : Platform} {w : World σ} (hp : create config = .ok p) (hw : w.events = []) : Run env config [] (p, w)
  /-- Any hart makes any operation. -/
  | step {calls : List (Made σ)} {st : Platform × World σ} (h : Run env config calls st) (id : Word)
    (op : Operation) : Run env config (calls ++ op.made env id st) (op.run env id st)
  /-- Between operations, the guest hypervisor changes memory and the host its state. -/
  | elsewhere {calls : List (Made σ)} {p : Platform} {w : World σ} (h : Run env config calls (p, w)) (state : σ)
    (memory : Memory) : Run env config calls (p, { w with state, memory })

theorem Run.reachable (h : Run env config calls st) : Reachable env config st := by
  induction h with
  | new hp hw => exact .new hp hw
  | step _ id op ih => exact ih.step id op
  | elsewhere _ state memory ih => exact ih.elsewhere state memory

/-- Every state that can be reached is what some run has come to. -/
theorem Reachable.run (h : Reachable env config st) : ∃ calls, Run env config calls st := by
  induction h with
  | new hp hw => exact ⟨[], .new hp hw⟩
  | step _ id op ih =>
    obtain ⟨calls, h⟩ := ih
    exact ⟨_, h.step id op⟩
  | elsewhere _ state memory ih =>
    obtain ⟨calls, h⟩ := ih
    exact ⟨calls, h.elsewhere state memory⟩

/-- Every call has been answered, from a state that the run had come to. -/
theorem Run.answered (h : Run env config calls st) {m : Made σ} (hm : m ∈ calls) :
    m.Answered env ∧ Reachable env config m.before := by
  induction h with
  | new _ _ => exact absurd hm List.not_mem_nil
  | @step calls st h id op ih =>
    rcases List.mem_append.1 hm with hold | hnew
    · exact ih hold
    · unfold Operation.made at hnew
      split at hnew
      · cases List.mem_singleton.1 hnew
        exact ⟨rfl, h.reachable⟩
      · exact absurd hnew List.not_mem_nil
  | elsewhere _ _ _ ih => exact ih hm

/-- The calls of hart `id` since it has last cleared counter `k`. -/
def sinceCleared (k : Counter) (id : Word) (calls : List (Made σ)) : List (Made σ) :=
  (calls.filter fun m => m.id = id).rtakeWhile fun m => m.cleared? ≠ some k

theorem sinceCleared_concat (k : Counter) (id : Word) (calls : List (Made σ)) (m : Made σ) :
    sinceCleared k id (calls ++ [m]) =
      if m.id = id then if m.cleared? = some k then [] else sinceCleared k id calls ++ [m]
      else sinceCleared k id calls := by
  unfold sinceCleared
  rw [List.filter_append]
  by_cases hid : m.id = id
  · rw [if_pos hid, List.filter_singleton, decide_eq_true hid, cond_true, List.rtakeWhile_concat]
    by_cases hcleared : m.cleared? = some k
    · rw [if_pos hcleared, if_neg (by simp [hcleared])]
    · rw [if_neg hcleared, if_pos (by simp [hcleared])]
  · rw [if_neg hid, List.filter_singleton, decide_eq_false hid]
    simp

/-- What has been seen of these calls, as far as the counter is concerned. -/
def gainedSince (env : Env σ) (k : Counter) (id : Word) (calls : List (Made σ)) : Nat :=
  ((sinceCleared k id calls).map fun m => (m.tally env).count k).sum

theorem gainedSince_concat (env : Env σ) (k : Counter) (id : Word) (calls : List (Made σ)) (m : Made σ) :
    gainedSince env k id (calls ++ [m]) =
      if m.id = id then if m.cleared? = some k then 0
        else gainedSince env k id calls + (m.tally env).count k
      else gainedSince env k id calls := by
  unfold gainedSince
  rw [sinceCleared_concat]
  split
  · split
    · rfl
    · rw [List.map_append, List.sum_append, List.map_singleton, List.sum_singleton]
  · rfl

/-- One operation: if a counter is what has been gained before it, it is what has been gained after it. -/
theorem gainedSince_step {k : Counter} (hk : k ∈ Counter.tallied) (id' : Word) (op : Operation)
    (hback : ¬Lost (op.run env id' st).2.events)
    (hbefore : ∀ hart, st.1.hart? id = some hart → hart.counters.get k = .ofNat (gainedSince env k id calls))
    {hart : Hart} (hh : (op.run env id' st).1.hart? id = some hart) :
    hart.counters.get k = .ofNat (gainedSince env k id (calls ++ op.made env id' st)) := by
  -- an operation that a hart answers is a call with its gain, and others change no counter
  cases hanswered : op.answered? with
  | none =>
    have hsame := Operation.sameCounters hanswered env id' st id
    rw [hh] at hsame
    obtain ⟨hart₀, hh₀, hcounters⟩ := Option.map_eq_some_iff.1 hsame.symm
    rw [Operation.made, hanswered, List.append_nil, ← hcounters]
    exact hbefore hart₀ hh₀
  | some answered =>
    obtain ⟨caller, call⟩ := answered
    let m : Made σ := ⟨id', caller, call, ((handle env id' caller call).run st).1, st,
      ((handle env id' caller call).run st).2⟩
    have hm : m.Answered env := rfl
    have hmade : op.made env id' st = [m] := by rw [Operation.made, hanswered]
    have hafter : op.run env id' st = m.after := Operation.run_answered hanswered env id' st
    rw [hmade, gainedSince_concat]
    rw [hafter] at hh hback
    by_cases hid : id' = id
    · rw [if_pos hid]
      subst hid
      cases hh₀ : st.1.hart? id' with
      | none =>
        obtain ⟨_, hsame⟩ := hm.of_noHart hh₀
        rw [hsame] at hh
        cases hh.symm.trans hh₀
      | some hart₀ =>
        obtain ⟨hart', hset, hgained⟩ := hm.gained (fun ho => hback (hm.lost ho)) hh₀
        rw [hset, hart?_setHart_same hh₀] at hh
        cases hh
        rw [hgained k hk, hbefore hart₀ hh₀]
        split
        · rfl
        · exact (UInt64.ofNat_add _ _).symm
    · rw [if_neg hid]
      rw [← hafter, Operation.hart?_other op (Ne.symm hid) st] at hh
      exact hbefore hart hh

/-- **Each of the four counters is what has been gained since it was last cleared,** modulo 2^64, as long as the host
    has come back from every request. -/
theorem Run.counters_gained (hrun : Run env config calls st) (hback : ¬Lost st.2.events) {hart : Hart}
    (hh : st.1.hart? id = some hart) {k : Counter} (hk : k ∈ Counter.tallied) :
    hart.counters.get k = .ofNat (gainedSince env k id calls) := by
  induction hrun generalizing hart with
  | new hp hw =>
    obtain ⟨_, rfl⟩ := create_ok hp
    unfold hart? at hh
    rw [Array.getElem?_replicate] at hh
    split at hh
    · cases hh
      exact Counters.get_zero k
    · cases hh
  | @step calls st hrun id' op ih =>
    have hback' : ¬Lost st.2.events := fun hlost => hback ((Operation.phasesKept env id' op st).kept hlost)
    exact gainedSince_step hk id' op hback (fun _ hh₀ => ih hback' hh₀) hh
  | elsewhere _ _ _ ih => exact ih hback hh

/-! ## What is seen of the calls -/

/-- The batches that calls have run. -/
def batches (calls : List (Made σ)) : List Hart.BatchAnswer := calls.filterMap Made.batch?

theorem sum_batches (f : Hart.BatchAnswer → Nat) (calls : List (Made σ)) :
    (calls.map fun m => m.batch?.elim 0 f).sum = ((batches calls).map f).sum := by
  induction calls with
  | nil => rfl
  | cons m rest ih =>
    rw [List.map_cons, List.sum_cons, ih, batches, batches, List.filterMap_cons]
    cases m.batch? with
    | none => exact Nat.zero_add _
    | some b => rw [Option.elim_some, List.map_cons, List.sum_cons]

/-- The denials of calls, and those among the statuses of batches. -/
theorem sum_denied (env : Env σ) (calls : List (Made σ)) :
    (calls.map fun m => (m.tally env).denied).sum =
      (calls.countP fun m => m.outcome = .error .denied) +
        (calls.flatMap (Made.statuses env)).count (.error .denied) := by
  induction calls with
  | nil => rfl
  | cons m rest ih =>
    rw [List.map_cons, List.sum_cons, ih, List.countP_cons, List.flatMap_cons, List.count_append, Made.tally]
    simp only [decide_eq_true_eq]
    omega

theorem sum_interrupts (env : Env σ) (calls : List (Made σ)) :
    (calls.map fun m => (m.tally env).interrupts).sum = injectionsIn (calls.flatMap Made.events) := by
  rw [injectionsIn, List.countP_flatMap]
  rfl

/-- With a value for each batch that is not greater than the number of descriptors, the two parts add up. -/
theorem sum_count (answers : List Hart.BatchAnswer) (hle : ∀ b ∈ answers, b.value.toNat ≤ b.count.toNat) :
    (answers.map fun b => b.value.toNat).sum + (answers.map fun b => b.count.toNat - b.value.toNat).sum =
      (answers.map fun b => b.count.toNat).sum := by
  induction answers with
  | nil => rfl
  | cons b rest ih =>
    have hrest := ih fun b hb => hle b (List.mem_cons_of_mem _ hb)
    have hb := hle b List.mem_cons_self
    simp only [List.map_cons, List.sum_cons]
    omega

theorem mem_of_sinceCleared {k : Counter} {m : Made σ} (hm : m ∈ sinceCleared k id calls) : m ∈ calls :=
  List.mem_of_mem_filter ((List.rtakeWhile_suffix _ _).subset hm)

/-- **The statuses that a batch of the run has given are those found in its array when the call is over,** if the host
    leaves guest memory alone and shows ranges where they are. -/
theorem Run.statuses_eq (hrun : Run env config calls st) (hquiet : env.Quiet) (hmap : env.Faithful) {m : Made σ}
    (hm : m ∈ calls) {addr count v : Word} (hcall : m.call = .batchExecute addr count)
    (hok : m.outcome = .ok (.value v)) :
    m.statuses env =
      (Descriptor.positions addr count).map fun p => (Descriptor.load m.after.2.memory p).status := by
  obtain ⟨hanswered, hreach⟩ := hrun.answered hm
  have hb : m.batch? = some ⟨count, v⟩ := by
    unfold Made.batch?
    rw [hcall, hok]
    rfl
  obtain ⟨_, _, addr', a, _, _, _, hbatch⟩ := hanswered.ranBatch hb
  have haddr : addr' = addr := by
    have hsame := hbatch.call.symm.trans hcall
    injection hsame
  subst haddr
  have hclear : ∀ b, env.InBatch m.before.1.config.maxBatch m.before.1.claimed b → ¬a.Owns b := fun b hb =>
    (hreach.placed hmap.ifAligned).array_apart hmap hbatch.before hbatch.area hb
  rw [hbatch.statuses, hbatch.memory]
  exact Env.batchStatuses_eq hquiet hmap.ifAligned hclear hbatch.ran

/-- A read that clears a counter, on a platform. -/
theorem getStatistic_ok {hart : Hart} (hh : st.1.hart? id = some hart) {caller : Privilege} {counter clear : Word}
    (hclear : clear ≠ 0) {r : CallResult}
    (hrun : (handle env id caller (.getStatistic counter clear)).run st = (.ok r, st')) :
    ∃ c drained, Counter.ofId? counter = some c ∧
      (Hart.drain env).run (hart, Hart.announced id (.getStatistic counter clear) st.2) = (.ok (), drained) ∧
      (∀ k, k ≠ .csrsSynced → drained.1.counters.get k = hart.counters.get k) ∧
      r = .value (drained.1.counters.get c) ∧
      st' = (st.1.setHart id { drained.1 with counters := drained.1.counters.set c 0 }, drained.2) := by
  rcases st with ⟨p, w⟩
  rw [handle_run env hh] at hrun
  rcases hr : (Hart.handle env p.config id p.claimed caller (.getStatistic counter clear)).run (hart, w) with
    ⟨o, hart', w'⟩
  rw [hr] at hrun
  cases hrun
  obtain ⟨c, drained, hc, hdrain, hkept, hvalue, hafter⟩ := Hart.handle_getStatistic_ok hclear hr
  cases hafter
  exact ⟨c, drained, hc, hdrain, hkept, hvalue, rfl⟩

/-- **The counters of batches, denials and injections are exact over runs.** Let a run of the platform have come to a
    state, and let the host have come back from every request of the run. Consider the calls that a hart has made
    since it last cleared a counter by a read. Modulo 2^64,

    * `interruptsInjected` is the number of injections that the host has carried out for these calls;
    * `batchOpsSucceeded` is the sum of the values that batches have returned, and where no batch has been run between
      the last clearing of `batchOpsSucceeded` and that of `batchOpsFailed`, the two together are the sum of the
      numbers of descriptors;
    * `denials` is the number of calls that have been denied, together with the number of descriptors of batches that
      have been given the status of a denial. If the host leaves guest memory alone and shows ranges where they are,
      these are the statuses found in the array after the call.

    A read that clears a counter returns the value that it has after the drain, and clears that counter only. The
    drain changes no counter but that of the slots applied. -/
theorem Run.counters_exact (hrun : Run env config calls st) (hback : ¬Lost st.2.events) {hart : Hart}
    (hh : st.1.hart? id = some hart) :
    let since (k : Counter) := sinceCleared k id calls
    hart.counters.get .interruptsInjected =
      .ofNat (injectionsIn ((since .interruptsInjected).flatMap Made.events)) ∧
    hart.counters.get .batchOpsSucceeded =
      .ofNat ((batches (since .batchOpsSucceeded)).map fun b => b.value.toNat).sum ∧
    (batches (since .batchOpsSucceeded) = batches (since .batchOpsFailed) →
      hart.counters.get .batchOpsSucceeded + hart.counters.get .batchOpsFailed =
        .ofNat ((batches (since .batchOpsSucceeded)).map fun b => b.count.toNat).sum) ∧
    hart.counters.get .denials =
      .ofNat (((since .denials).countP fun m => m.outcome = .error .denied) +
        ((since .denials).flatMap (Made.statuses env)).count (.error .denied)) ∧
    (env.Quiet → env.Faithful → ∀ m ∈ calls, ∀ addr count v, m.call = .batchExecute addr count →
      m.outcome = .ok (.value v) → m.statuses env =
        (Descriptor.positions addr count).map fun p => (Descriptor.load m.after.2.memory p).status) ∧
    ∀ caller counter clear r st', clear ≠ 0 →
      (handle env id caller (.getStatistic counter clear)).run st = (.ok r, st') →
      ∃ c drained, Counter.ofId? counter = some c ∧
        (Hart.drain env).run (hart, Hart.announced id (.getStatistic counter clear) st.2) = (.ok (), drained) ∧
        (∀ k, k ≠ .csrsSynced → drained.1.counters.get k = hart.counters.get k) ∧
        r = .value (drained.1.counters.get c) ∧
        st' = (st.1.setHart id { drained.1 with counters := drained.1.counters.set c 0 }, drained.2) := by
  intro since
  have hgained : ∀ k ∈ Counter.tallied, hart.counters.get k = .ofNat (gainedSince env k id calls) := fun k hk =>
    hrun.counters_gained hback hh hk
  have hsucceeded := hgained .batchOpsSucceeded (by decide)
  have hfailed := hgained .batchOpsFailed (by decide)
  have hvalues : gainedSince env .batchOpsSucceeded id calls =
      ((batches (since .batchOpsSucceeded)).map fun b => b.value.toNat).sum := sum_batches _ _
  have hothers : gainedSince env .batchOpsFailed id calls =
      ((batches (since .batchOpsFailed)).map fun b => b.count.toNat - b.value.toNat).sum := sum_batches _ _
  refine ⟨?_, ?_, fun hsame => ?_, ?_, ?_, ?_⟩
  · rw [hgained .interruptsInjected (by decide), ← sum_interrupts env]
    rfl
  · rw [hsucceeded, hvalues]
  · have hle : ∀ b ∈ batches (since .batchOpsSucceeded), b.value.toNat ≤ b.count.toNat := by
      intro b hb
      obtain ⟨m, hm, hmb⟩ := List.mem_filterMap.1 hb
      exact (hrun.answered (mem_of_sinceCleared hm)).1.value_le hmb
    rw [hsucceeded, hfailed, hvalues, hothers, ← hsame, ← UInt64.ofNat_add, sum_count _ hle]
  · rw [hgained .denials (by decide), ← sum_denied]
    rfl
  · intro hquiet hmap m hm addr count v hcall hok
    exact hrun.statuses_eq hquiet hmap hm hcall hok
  · intro caller counter clear r st' hclear hread
    exact getStatistic_ok hh hclear hread

/-! ## A host that comes back -/

end Platform

theorem World.Reaches.lost {P : Request → Prop} {W : Nat → Prop} {w w' : World σ} (hreturns : env.Returns)
    (h : Reaches env P W w w') (hlost : Lost w'.events) : Lost w.events := by
  induction h with
  | refl => exact hlost
  | tail _ hmove ih =>
    refine ih ?_
    cases hmove with
    | @request q _ =>
      rw [World.request_run] at hlost
      refine (lost_append.1 hlost).resolve_right ?_
      rintro ⟨q', hq'⟩
      injection List.mem_singleton.1 hq' with _ hreply
      exact hreturns q _ _ hreply.symm
    | map gpa len =>
      rw [World.mapRange_run] at hlost
      refine (lost_append.1 hlost).resolve_right ?_
      rintro ⟨q', hq'⟩
      cases List.mem_singleton.1 hq'
    | unmap gpa len =>
      refine (lost_append.1 hlost).resolve_right ?_
      rintro ⟨q', hq'⟩
      cases List.mem_singleton.1 hq'
    | write _ => exact hlost
    | message _ => exact hlost

namespace Platform

/-- If the host always comes back, it has come back from every request of a run. -/
theorem Reachable.not_lost (hreturns : env.Returns) {config : Config} {st : Platform × World σ}
    (h : Reachable env config st) : ¬Lost st.2.events := by
  refine h.invariant (I := fun st => ¬Lost st.2.events) ?_ ?_ fun _ _ _ _ hnot => hnot
  · rintro p w _ hw ⟨q, hq⟩
    rw [hw] at hq
    exact List.not_mem_nil hq
  · intro id st st' hnot hmove hlost
    refine hnot ?_
    cases hmove with
    | quiet hw => exact hw.lost hreturns hlost
    | call _ hw => exact hw.2.lost hreturns hlost
    | establish _ _ _ _ _ hw => exact hw.lost hreturns hlost
    | release _ _ hw => exact hw.lost hreturns hlost
    | resetMode _ => exact hlost

/-- One hart, and an array of three descriptors: they inject an interrupt, write a CSR that is not assigned, and read
    one that is. -/
def threeRequests : Platform × World Nat :=
  let timer : Descriptor := ⟨4, 6, 0, 9⟩
  let write : Descriptor := ⟨2, 0x300, 0, 9⟩
  let read : Descriptor := ⟨1, 0x240, 5, 9⟩
  ({ config := {}, harts := #[{}] },
    { state := 0, memory := read.store 0x1008 (write.store 0x1004 (timer.store 0x1000 .zero)) })

/-- The calls that the hart makes, and the state that they come to. It runs the batch, reads and clears the counter of
    injections, and asks for another injection. -/
def counted : List (Made Nat) × (Platform × World Nat) :=
  let operations : List Operation := [.establish 0x3000 0, .handle .supervisor (.batchExecute 0x8000 3),
    .handle .supervisor (.getStatistic 9 1), .handle .supervisor (.injectInterrupt 0 6 0)]
  operations.foldl (fun r op => (r.1 ++ op.made (Env.refusing 9) 0 r.2, op.run (Env.refusing 9) 0 r.2))
    ([], threeRequests)

theorem run_counted : Run (Env.refusing 9) {} counted.1 counted.2 := by
  have hnew : Run (Env.refusing 9) {} [] threeRequests := .new rfl rfl
  have hbatch := (hnew.step 0 (.establish 0x3000 0)).step 0 (.handle .supervisor (.batchExecute 0x8000 3))
  exact (hbatch.step 0 (.handle .supervisor (.getStatistic 9 1))).step 0
    (.handle .supervisor (.injectInterrupt 0 6 0))

/-- Only the second injection is still counted. -/
theorem counters_exact_batch :
    Run (Env.refusing 9) {} counted.1 counted.2 ∧ ¬Lost counted.2.2.events ∧
    counted.1.map Made.outcome = [.ok (.value 2), .ok (.value 1), .ok (.value 0)] ∧
    ∃ hart, counted.2.1.hart? 0 = some hart ∧ hart.counters.get .interruptsInjected = 1 ∧
      hart.counters.get .batchOpsSucceeded = 2 ∧
      hart.counters.get .batchOpsSucceeded + hart.counters.get .batchOpsFailed = 3 ∧
      hart.counters.get .denials = 1 := by
  have hback : ¬Lost counted.2.2.events := run_counted.reachable.not_lost (Env.refusing_returns 9)
  have hsome : (counted.2.1.hart? 0).isSome = true := by decide +kernel
  obtain ⟨hart, hh⟩ := Option.isSome_iff_exists.1 hsome
  obtain ⟨hinterrupts, hsucceeded, hboth, hdenials, _, _⟩ := run_counted.counters_exact hback hh
  refine ⟨run_counted, hback, by decide +kernel, hart, hh, ?_, ?_, ?_, ?_⟩
  · rw [hinterrupts]
    decide +kernel
  · rw [hsucceeded]
    decide +kernel
  · rw [hboth (by decide +kernel)]
    decide +kernel
  · rw [hdenials]
    decide +kernel

end Platform

end NestedAccel
