import NestedAccel.Proofs.BatchTally
import NestedAccel.Proofs.TrapReturn

/-!
# `NestedAccel.Proofs.Turns` — descriptors take their turns

The descriptors of a batch are run one after the other, and what an operation comes to is written into the
very array that the later ones are read from. A `Turn` is one descriptor of the array with the outcome of its
operation and the calls it has made; `Ran env harts a w turns w'` says that the turns take place in their order,
each on the world that the one before has left, **whatever their outcomes**.

How the operation of a descriptor can end is said once (`OpEnd`): memory stays as it was, or a fence has been
performed and its entry has lost its pending bit. Everything about memory is derived from that, first for one
turn and then along a whole run:

* `Ran.frame` — a word outside the array is changed only as the entry of a performed fence;
* `Ran.reported` — in the end, each descriptor holds the report of its own turn.

Descriptors that do not overlap, and keep clear of the area, take such turns (`Env.runDescriptors_ran`).
-/

namespace NestedAccel

open World (Reaches)

variable {σ ε ε' α β : Type} {env : Env σ} {a : Area} {w w' : World σ} {harts : Nat}

/-! ## Ends of operations -/

/-- An attempt has ended as the computation has. -/
theorem Act.run_attempt_cases {s : Type} {x : Act s ε α} {st st' : s} {r : Except ε α}
    (h : (Act.attempt x : Act s ε' (Except ε α)).run st = (.ok r, st')) :
    (∃ b, r = .ok b ∧ x.run st = (.ok b, st')) ∨ ∃ e, r = .error e ∧ x.run st = (.error e, st') := by
  rw [Act.attempt_run] at h
  rcases hr : x.run st with ⟨o, st₁⟩
  rw [hr] at h
  cases o with
  | ok b =>
    cases h
    exact .inl ⟨b, rfl, rfl⟩
  | error e =>
    cases h
    exact .inr ⟨e, rfl, rfl⟩
  | abandoned => cases h

/-- The tag of an operation. -/
def BatchOp.tag : BatchOp → BatchTag
  | csrRead _ => .csrRead
  | csrWrite .. => .csrWrite
  | hfence _ => .hfence
  | injectInterrupt .. => .injectInterrupt

theorem BatchOp.tag_eq {d : Descriptor} {op : BatchOp} (h : ofDescriptor? d = some op) :
    BatchTag.ofCode? d.tag = some op.tag := by
  unfold ofDescriptor? at h
  split at h
  · cases h
    assumption
  · cases h
    assumption
  · cases h
    assumption
  · cases h
    assumption
  · cases h

/-- A descriptor that names an entry of the fence list asks for a fence. -/
theorem Descriptor.tag_of_named {d : Descriptor} {s : FenceSlot} (h : d.named? = some s) :
    BatchTag.ofCode? d.tag = some .hfence := by
  unfold named? at h
  split at h
  · rename_i i hop
    exact BatchOp.tag_eq hop
  · cases h

/-- How the operation of the descriptor `d` ends, next to a host that leaves guest memory alone. -/
inductive OpEnd (a : Area) (d : Descriptor) (w : World σ) :
    Except SbiError OpResult → World σ → Prop where
  | failed {e : SbiError} {w' : World σ} (hmemory : w'.memory = w.memory) : OpEnd a d w (.error e) w'
  /-- The host has returned the value of a CSR. -/
  | read {v : Word} {csr : CsrNumber} {w' : World σ} (htag : BatchTag.ofCode? d.tag = some .csrRead)
    (hmemory : w'.memory = w.memory)
    (hevents : w'.events = w.events ++ [.requested (.readCsr csr) (.done v)]) :
    OpEnd a d w (.ok (.value v)) w'
  | acted {r : OpResult} {w' : World σ} (htag : BatchTag.ofCode? d.tag ≠ some .csrRead)
    (hr : ∀ v, r ≠ .value v) (hmemory : w'.memory = w.memory) : OpEnd a d w (.ok r) w'
  /-- The pending fence of the entry that the descriptor names has been performed. -/
  | fenced {s : FenceSlot} {w' : World σ} (hslot : d.named? = some s)
    (hmemory : w'.memory = a.finishFence s w.memory) : OpEnd a d w (.ok (.fences 1)) w'

section
variable (hquiet : env.Quiet)
include hquiet

theorem World.request_run_memory (q : Request) (w : World σ) :
    ((env.request q).run w).2.memory = w.memory := by
  rw [request_run]
  exact hquiet q w.state w.memory

/-- What a request for operands that pass a check comes to. -/
theorem Env.checkedRequest_end {check : Except Refusal β} {q : β → Request} {g : Word → OpResult}
    {o : Outcome SbiError OpResult}
    (hrun : (Act.mapError Refusal.sbi (Act.ofExcept check) >>= fun x =>
      Act.mapError HostError.sbi (env.request (q x)) >>= fun v => pure (g v)).run w = (o, w')) :
    w'.memory = w.memory ∧ ∀ r, o = .ok r → ∃ x v, r = g v ∧
      w'.events = w.events ++ [.requested (q x) (.done v)] := by
  cases check with
  | error e =>
    cases hrun
    exact ⟨rfl, fun _ hr => nomatch hr⟩
  | ok x =>
    have hmemory := World.request_run_memory hquiet (q x) w
    rw [Act.ofExcept_ok, Act.mapError_pure, pure_bind, Act.bind_run, Act.mapError_run] at hrun
    rw [World.request_run] at hrun hmemory
    cases hreply : (env.host (q x) w.state w.memory).1 with
    | done v =>
      rw [hreply] at hrun
      cases hrun
      refine ⟨hmemory, fun r hr => ?_⟩
      cases hr
      exact ⟨x, v, rfl, rfl⟩
    | refused e =>
      rw [hreply] at hrun
      cases hrun
      exact ⟨hmemory, fun _ hr => nomatch hr⟩
    | lost =>
      rw [hreply] at hrun
      cases hrun
      exact ⟨hmemory, fun _ hr => nomatch hr⟩

/-- A fence for one entry is performed, or memory stays as it was. -/
theorem Env.syncFences_end {s : FenceSlot} {o : Outcome FenceError Nat}
    (hrun : (env.syncFences a (.entry s)).run w = (o, w')) :
    o = .ok 1 ∧ w'.memory = a.finishFence s w.memory ∨ o ≠ .ok 1 ∧ w'.memory = w.memory := by
  unfold Env.syncFences at hrun
  rw [readMemory, Act.bind_run, Act.gets_run, Act.next_ok] at hrun
  unfold FenceSelect.slots Area.pendingFences Area.pendingFences at hrun
  cases hfence : Check.fence (a.fenceEntry w.memory s) with
  | error e =>
    rw [hfence] at hrun
    cases hrun
    exact .inr ⟨by simp, rfl⟩
  | ok pending =>
    rw [hfence] at hrun
    cases pending with
    | none =>
      cases hrun
      exact .inr ⟨by simp, rfl⟩
    | some f =>
      have hmemory := World.request_run_memory hquiet (.fence f) w
      have hperform : (env.performFences a [⟨s, f⟩]).run w = (o, w') := hrun
      unfold Env.performFences Env.performFences at hperform
      rw [Act.bind_run, Act.mapError_run] at hperform
      rw [World.request_run] at hperform hmemory
      cases hreply : (env.host (.fence f) w.state w.memory).1 with
      | done v =>
        rw [hreply] at hperform
        cases hperform
        refine .inl ⟨rfl, ?_⟩
        show a.finishFence s (env.host (.fence f) w.state w.memory).2.2 = a.finishFence s w.memory
        rw [hquiet]
      | refused e =>
        rw [hreply] at hperform
        cases hperform
        exact .inr ⟨by simp, hmemory⟩
      | lost =>
        rw [hreply] at hperform
        cases hperform
        exact .inr ⟨by simp, hmemory⟩

/-- An operation that fails leaves memory as it was. -/
theorem Env.runOp_error {op : BatchOp} {e : SbiError}
    (hrun : (env.runOp harts a op).run w = (.error e, w')) : w'.memory = w.memory := by
  cases op with
  | csrRead n => exact (Env.checkedRequest_end hquiet hrun).1
  | csrWrite n v => exact (Env.checkedRequest_end hquiet hrun).1
  | injectInterrupt kind number target => exact (Env.checkedRequest_end hquiet hrun).1
  | hfence i =>
    rcases Act.run_bind_error hrun with hcheck | ⟨s, w₁, hslot, hrest⟩
    · obtain ⟨_, _, hcheck⟩ := Act.run_mapError_error hcheck
      have hw : w' = w := by
        have hsnd := Act.ofExcept_run_snd (Check.fenceSlot i) w
        rwa [hcheck] at hsnd
      rw [hw]
    · obtain ⟨_, rfl⟩ := Act.run_ofExcept_ok (Act.run_mapError_ok hslot)
      rcases Act.run_bind_error hrest with hfences | ⟨_, _, _, hpure⟩
      · obtain ⟨_, _, hfences⟩ := Act.run_mapError_error hfences
        rcases Env.syncFences_end hquiet hfences with ⟨hn, _⟩ | ⟨_, hmemory⟩
        · cases hn
        · exact hmemory
      · cases hpure

theorem Env.runOp_ok {d : Descriptor} {op : BatchOp} {r : OpResult}
    (hop : BatchOp.ofDescriptor? d = some op)
    (hrun : (env.runOp harts a op).run w = (.ok r, w')) : OpEnd a d w (.ok r) w' := by
  have htag := BatchOp.tag_eq hop
  cases op with
  | csrRead n =>
    obtain ⟨hmemory, hok⟩ := Env.checkedRequest_end hquiet hrun
    obtain ⟨csr, v, rfl, hevents⟩ := hok r rfl
    exact .read htag hmemory hevents
  | csrWrite n v =>
    obtain ⟨hmemory, hok⟩ := Env.checkedRequest_end hquiet hrun
    obtain ⟨_, _, rfl, _⟩ := hok r rfl
    exact .acted (by simp [htag, BatchOp.tag]) nofun hmemory
  | injectInterrupt kind number target =>
    obtain ⟨hmemory, hok⟩ := Env.checkedRequest_end hquiet hrun
    obtain ⟨_, _, rfl, _⟩ := hok r rfl
    exact .acted (by simp [htag, BatchOp.tag]) nofun hmemory
  | hfence i =>
    obtain ⟨s, w₁, hslot, hrest⟩ := Act.run_bind_ok hrun
    obtain ⟨hslot, rfl⟩ := Act.run_ofExcept_ok (Act.run_mapError_ok hslot)
    obtain ⟨n, w₂, hfences, hpure⟩ := Act.run_bind_ok hrest
    cases hpure
    rcases Env.syncFences_end hquiet (Act.run_mapError_ok hfences) with ⟨hn, hmemory⟩ | ⟨_, hmemory⟩
    · cases hn
      refine .fenced ?_ hmemory
      -- the entry that passes its check is the one that is named
      unfold Check.fenceSlot at hslot
      unfold Descriptor.named?
      rw [hop]
      dsimp only
      cases hindex : FenceSlot.ofIndex? i with
      | none =>
        rw [hindex] at hslot
        cases hslot
      | some s' =>
        rw [hindex] at hslot
        cases hslot
        rfl
    · exact .acted (by simp [htag, BatchOp.tag]) nofun hmemory

/-- **The operation of a descriptor ends in one of these ways.** -/
theorem Env.runDescriptorOp_end {d : Descriptor} {r : Except SbiError OpResult}
    (hrun : ((env.runDescriptorOp harts a d).attempt : Act (World σ) ε _).run w = (.ok r, w')) :
    OpEnd a d w r w' := by
  unfold Env.runDescriptorOp at hrun
  cases hop : BatchOp.ofDescriptor? d with
  | none =>
    rw [hop] at hrun
    cases hrun
    exact .failed rfl
  | some op =>
    rw [hop] at hrun
    rcases Act.run_attempt_cases hrun with ⟨res, rfl, hok⟩ | ⟨e, rfl, herror⟩
    · exact Env.runOp_ok hquiet hop hok
    · exact .failed (Env.runOp_error hquiet herror)

end

/-- An operation comes to an end if the host comes back. -/
theorem Env.runDescriptorOp_returns (hback : env.Returns) (d : Descriptor) :
    Act.Returns (env.runDescriptorOp harts a d) := by
  have hrequest : ∀ {β : Type} (check : Except Refusal β) (q : β → Request) (g : Word → OpResult),
      Act.Returns (Act.mapError Refusal.sbi (Act.ofExcept check) >>= fun x =>
        Act.mapError HostError.sbi (env.request (q x)) >>= fun v => pure (g v)) := fun check q g =>
    ((Act.Returns.ofExcept check).mapError _).bind fun x =>
      ((Env.request_returns hback (q x)).mapError _).bind fun v => Act.Returns.pure (g v)
  unfold Env.runDescriptorOp
  cases BatchOp.ofDescriptor? d with
  | none => exact Act.Returns.fail _
  | some op =>
    cases op with
    | csrRead n => exact hrequest (Check.csrRead n) Request.readCsr OpResult.value
    | csrWrite n v => exact hrequest (Check.csrWrite n v) Request.writeCsr fun _ => .nothing
    | injectInterrupt kind number target =>
      exact hrequest (Check.injection harts kind number target) Request.inject fun _ => .interrupt
    | hfence i =>
      refine ((Act.Returns.ofExcept _).mapError _).bind fun s => ?_
      refine Act.Returns.bind (Act.Returns.mapError ?_ _) fun n => Act.Returns.pure _
      exact (Act.Returns.gets _).bind fun _ => (Act.Returns.ofExcept _).bind fun fences =>
        Env.performFences_returns hback a fences

/-! ## Turns -/

/-- The turn of one descriptor of a batch. -/
structure Turn where
  /-- The first word of the descriptor. -/
  word : Nat
  /-- The descriptor as it was before the batch. -/
  descriptor : Descriptor
  /-- What its operation has come to. -/
  outcome : Except SbiError OpResult
  /-- The calls that its operation has made to the environment. -/
  calls : List Event

/-- The world once the outcome of the turn has been reported. -/
def Turn.report (t : Turn) (w : World σ) : World σ :=
  { w with memory := Descriptor.report t.word t.outcome w.memory }

theorem Turn.report_memory (t : Turn) (w : World σ) :
    (t.report w).memory = Descriptor.report t.word t.outcome w.memory := rfl

/-- The turns take place one after the other, each with its operation and the report that follows. -/
inductive Ran (env : Env σ) (harts : Nat) (a : Area) : World σ → List Turn → World σ → Prop where
  | nil (w : World σ) : Ran env harts a w [] w
  | cons {t : Turn} {ts : List Turn} {w w₁ w₂ : World σ}
    (hop : ((env.runDescriptorOp harts a t.descriptor).attempt : Act (World σ) Empty _).run w =
      (.ok t.outcome, w₁))
    (hcalls : w₁.events = w.events ++ t.calls)
    (hrest : Ran env harts a (t.report w₁) ts w₂) : Ran env harts a w (t :: ts) w₂

/-! ## Reports -/

/-- What a report puts in the place of the second operand. -/
def Descriptor.reportedValue (d : Descriptor) : Except SbiError OpResult → Word
  | .ok (.value v) => v
  | _ => d.arg1

/-- The status that is reported for an outcome. -/
def Descriptor.reportedStatus : Except SbiError OpResult → Word
  | .ok _ => 0
  | .error e => e.word

theorem Descriptor.load_report (p : Nat) (r : Except SbiError OpResult) (m : Memory) :
    load (report p r m) p =
      { load m p with arg1 := (load m p).reportedValue r, ret := reportedStatus r } := by
  cases r with
  | error e =>
    simp [load, report, reportedValue, reportedStatus, setStatus, Memory.read_write]
  | ok res =>
    cases res <;>
      simp [load, report, reportedValue, reportedStatus, setStatus, setValue, Memory.read_write]

theorem Descriptor.readStatus_reported (r : Except SbiError OpResult) :
    readStatus (reportedStatus r) = r.map fun _ => () := by
  cases r with
  | ok res => rfl
  | error e =>
    show (if e.word = 0 then Except.ok () else .error (SbiError.ofWord e.word)) = .error e
    rw [if_neg e.word_ne_zero, SbiError.ofWord_word]

/-- What is found of a descriptor after its turn. -/
structure Turn.Reported (t : Turn) (d : Descriptor) : Prop where
  tag : d.tag = t.descriptor.tag
  arg0 : d.arg0 = t.descriptor.arg0
  status : d.status = t.outcome.map fun _ => ()
  /-- The second operand is replaced by the value of a CSR that has been read, and by nothing else. -/
  arg1 : (BatchTag.ofCode? t.descriptor.tag = some .csrRead ∧ t.outcome = .ok (.value d.arg1) ∧
      ∃ csr, t.calls = [.requested (.readCsr csr) (.done d.arg1)]) ∨
    (d.arg1 = t.descriptor.arg1 ∧
      ¬(BatchTag.ofCode? t.descriptor.tag = some .csrRead ∧ t.outcome.isOk = true))

namespace OpEnd

variable {d : Descriptor} {r : Except SbiError OpResult} {t : Turn}

/-- A word outside the area is as before. -/
theorem read_eq (h : OpEnd a d w r w') {b : Nat} (hb : ¬a.Owns b) : w'.memory.read b = w.memory.read b := by
  cases h with
  | failed hmemory => rw [hmemory]
  | read _ hmemory _ => rw [hmemory]
  | acted _ _ hmemory => rw [hmemory]
  | @fenced s _ _ hmemory =>
    rw [hmemory]
    refine Memory.read_write_of_ne ?_
    rintro rfl
    exact hb (a.owns_fenceBase s)

theorem reported (h : OpEnd a t.descriptor w t.outcome w') (hcalls : w'.events = w.events ++ t.calls)
    (hload : t.descriptor = Descriptor.load w.memory t.word)
    (hout : ∀ b, t.word ≤ b ∧ b < t.word + 4 → ¬a.Owns b) :
    t.Reported (Descriptor.load (t.report w').memory t.word) := by
  have hsame : Descriptor.load w'.memory t.word = t.descriptor := by
    rw [hload]
    exact Descriptor.load_eq fun b hb => h.read_eq (hout b hb)
  rw [Turn.report_memory, Descriptor.load_report, hsame]
  refine ⟨rfl, rfl, Descriptor.readStatus_reported t.outcome, ?_⟩
  generalize t.outcome = r at h
  cases h with
  | failed _ => exact .inr ⟨rfl, fun hok => nomatch hok.2⟩
  | @read v csr _ htag _ hevents =>
    exact .inl ⟨htag, rfl, csr, List.append_cancel_left (hcalls.symm.trans hevents)⟩
  | @acted res _ htag hr _ =>
    refine .inr ⟨?_, fun hread => htag hread.1⟩
    cases res with
    | value v => exact absurd rfl (hr v)
    | nothing | fences n | interrupt => rfl
  | @fenced s _ hslot _ =>
    refine .inr ⟨rfl, fun hread => ?_⟩
    cases (Descriptor.tag_of_named hslot).symm.trans hread.1

end OpEnd

/-! ## Words outside the array -/

/-- Word `b` has lost the pending bit of an entry of the fence list, whose fence has been performed in one of
    the turns. -/
def Finished (a : Area) (turns : List Turn) (m m' : Memory) (b : Nat) : Prop :=
  ∃ t ∈ turns, ∃ s, t.descriptor.named? = some s ∧ t.outcome = .ok (.fences 1) ∧ b = a.fenceBase s ∧
    m'.read b = Word.clearBit (m.read b) FenceEntry.pendingBit

/-- One turn changes no other word outside its descriptor. -/
theorem OpEnd.frame {t : Turn} (h : OpEnd a t.descriptor w t.outcome w') {b : Nat}
    (hb : ¬(t.word ≤ b ∧ b < t.word + 4)) :
    (t.report w').memory.read b = w.memory.read b ∨ Finished a [t] w.memory (t.report w').memory b := by
  unfold Finished
  rw [Turn.report_memory, Descriptor.read_report t.word t.outcome w'.memory hb]
  generalize hr : t.outcome = r at h
  cases h with
  | failed hmemory => exact .inl (by rw [hmemory])
  | read _ hmemory _ => exact .inl (by rw [hmemory])
  | acted _ _ hmemory => exact .inl (by rw [hmemory])
  | @fenced s _ hslot hmemory =>
    rw [hmemory]
    by_cases hbs : b = a.fenceBase s
    · refine .inr ⟨t, List.mem_singleton_self t, s, hslot, hr, hbs, ?_⟩
      rw [hbs]
      exact Memory.read_write_same _ _ _
    · exact .inl (Memory.read_write_of_ne hbs)

theorem Word.clearBit_clearBit (v : Word) (i : Nat) : clearBit (clearBit v i) i = clearBit v i := by
  ext j _
  simp only [bit_clearBit]
  cases bit v j <;> cases decide (i = j) <;> rfl

section
variable (hquiet : env.Quiet)
include hquiet

/-- **A word outside the array is changed only as the entry of a performed fence.** -/
theorem Ran.frame {turns : List Turn} (h : Ran env harts a w turns w') {b : Nat}
    (hb : ∀ t ∈ turns, ¬(t.word ≤ b ∧ b < t.word + 4)) :
    w'.memory.read b = w.memory.read b ∨ Finished a turns w.memory w'.memory b := by
  induction h with
  | nil w => exact .inl rfl
  | @cons t ts w w₁ w₂ hop _ _ ih =>
    have hend := Env.runDescriptorOp_end hquiet hop
    have hrest := ih fun t' ht' => hb t' (List.mem_cons_of_mem t ht')
    have hfirst := hend.frame (hb t List.mem_cons_self)
    rcases hrest with hsame | ⟨t', ht', s, hslot, hok, hbs, hcleared⟩
    · rcases hfirst with hsame' | ⟨t', ht', s, hslot, hok, hbs, hcleared⟩
      · exact .inl (hsame.trans hsame')
      · cases List.mem_singleton.1 ht'
        exact .inr ⟨t, List.mem_cons_self, s, hslot, hok, hbs, hsame.trans hcleared⟩
    · refine .inr ⟨t', List.mem_cons_of_mem t ht', s, hslot, hok, hbs, ?_⟩
      rcases hfirst with hsame | ⟨_, _, _, _, _, _, hcleared'⟩
      · rw [hcleared, hsame]
      -- the fence of one entry has been performed twice
      · rw [hcleared, hcleared', Word.clearBit_clearBit]

/-- Turns that have not come yet, and the area, have no part in a turn. -/
theorem Ran.frame_array {turns : List Turn} (h : Ran env harts a w turns w') {b : Nat}
    (hb : ∀ t ∈ turns, ¬(t.word ≤ b ∧ b < t.word + 4)) (hout : ¬a.Owns b) :
    w'.memory.read b = w.memory.read b := by
  rcases h.frame hquiet hb with hsame | ⟨_, _, s, _, _, rfl, _⟩
  · exact hsame
  · exact absurd (a.owns_fenceBase s) hout

/-- **In the end, each descriptor holds the report of its own turn.** -/
theorem Ran.reported {turns : List Turn} (h : Ran env harts a w turns w')
    (hload : ∀ t ∈ turns, t.descriptor = Descriptor.load w.memory t.word)
    (hapart : turns.Pairwise fun t t' => t.word + 4 ≤ t'.word)
    (hout : ∀ t ∈ turns, ∀ b, t.word ≤ b ∧ b < t.word + 4 → ¬a.Owns b) :
    ∀ t ∈ turns, t.Reported (Descriptor.load w'.memory t.word) := by
  induction h with
  | nil w => exact fun t ht => absurd ht List.not_mem_nil
  | @cons t ts w w₁ w₂ hop hcalls hrest ih =>
    obtain ⟨hfirst, hothers⟩ := List.pairwise_cons.1 hapart
    have hend := Env.runDescriptorOp_end hquiet hop
    have hout' := fun t' ht' => hout t' (List.mem_cons_of_mem t ht')
    intro t' ht'
    rcases List.mem_cons.1 ht' with rfl | ht'
    · have hreported := hend.reported hcalls (hload t' List.mem_cons_self) (hout t' List.mem_cons_self)
      -- the later turns leave the report alone
      have hkept : Descriptor.load w₂.memory t'.word =
          Descriptor.load (t'.report w₁).memory t'.word := by
        refine Descriptor.load_eq fun b hb => ?_
        refine hrest.frame_array hquiet (fun t ht hin => ?_) (hout t' List.mem_cons_self b hb)
        have hlater := hfirst t ht
        omega
      rw [hkept]
      exact hreported
    · refine ih (fun t'' ht'' => ?_) hothers hout' t' ht'
      rw [hload t'' (List.mem_cons_of_mem t ht'')]
      refine (Descriptor.load_eq fun b hb => ?_).symm
      have hlater := hfirst t'' ht''
      rw [Turn.report_memory, Descriptor.read_report t.word t.outcome w₁.memory (by omega)]
      exact hend.read_eq (hout' t'' ht'' b hb)

end

/-! ## Arrays -/

/-- The number of turns that have succeeded. -/
def succeeded (turns : List Turn) : Nat := turns.countP fun t => t.outcome.isOk

/-- A descriptor takes its turn. -/
theorem Env.runDescriptor_turn (hback : env.Returns) (harts : Nat) (a : Area) (p : Nat) (w : World σ) :
    ∃ (t : Turn) (w₁ : World σ) (tally : Tally), t.word = p ∧ t.descriptor = Descriptor.load w.memory p ∧
      ((env.runDescriptorOp harts a t.descriptor).attempt : Act (World σ) Empty _).run w =
        (.ok t.outcome, w₁) ∧
      w₁.events = w.events ++ t.calls ∧
      (env.runDescriptor harts a p : Act (World σ) ε Tally).run w = (.ok tally, t.report w₁) ∧
      tally.succeeded = succeeded [t] := by
  have hends : ((env.runDescriptorOp harts a (Descriptor.load w.memory p)).run w).1 ≠ .abandoned :=
    Env.runDescriptorOp_returns hback _ w
  have hmoves : Reaches env (Request.Legal harts) (fun _ => True) w
      ((env.runDescriptorOp harts a (Descriptor.load w.memory p)).run w).2 :=
    Env.runDescriptorOp_moves (fun _ => trivial) _ w
  obtain ⟨calls, hcalls, _⟩ := hmoves.events
  rw [Env.runDescriptor_run]
  rcases hr : (env.runDescriptorOp harts a (Descriptor.load w.memory p)).run w with ⟨o, w₁⟩
  rw [hr] at hends hcalls
  cases o with
  | ok r =>
    have hop : ((env.runDescriptorOp harts a (Descriptor.load w.memory p)).attempt :
        Act (World σ) Empty _).run w = (.ok (.ok r), w₁) := by rw [Act.attempt_run, hr]
    refine ⟨⟨p, _, .ok r, calls⟩, w₁, _, rfl, rfl, hop, hcalls, rfl, ?_⟩
    cases r <;> rfl
  | error e =>
    have hop : ((env.runDescriptorOp harts a (Descriptor.load w.memory p)).attempt :
        Act (World σ) Empty _).run w = (.ok (.error e), w₁) := by rw [Act.attempt_run, hr]
    exact ⟨⟨p, _, .error e, calls⟩, w₁, _, rfl, rfl, hop, hcalls, rfl, rfl⟩
  | abandoned => exact absurd rfl hends

/-- **Descriptors that do not overlap, clear of the area, take their turns.** The tally counts those that have
    succeeded. -/
theorem Env.runDescriptors_ran (hquiet : env.Quiet) (hback : env.Returns) {ps : List Nat}
    (hapart : ps.Pairwise fun p q => p + 4 ≤ q)
    (hout : ∀ p ∈ ps, ∀ b, p ≤ b ∧ b < p + 4 → ¬a.Owns b) (w : World σ) :
    ∃ tally turns w', (env.runDescriptors harts a ps : Act (World σ) ε Tally).run w = (.ok tally, w') ∧
      turns.map Turn.word = ps ∧ (∀ t ∈ turns, t.descriptor = Descriptor.load w.memory t.word) ∧
      Ran env harts a w turns w' ∧ tally.succeeded = succeeded turns := by
  induction ps generalizing w with
  | nil => exact ⟨{}, [], w, rfl, rfl, fun t ht => absurd ht List.not_mem_nil, .nil w, rfl⟩
  | cons p rest ih =>
    obtain ⟨hp, hrest⟩ := List.pairwise_cons.1 hapart
    have hout' := fun q hq => hout q (List.mem_cons_of_mem p hq)
    obtain ⟨t, w₁, tally, rfl, hload, hop, hcalls, hfirst, hcount⟩ :=
      Env.runDescriptor_turn (ε := ε) hback harts a p w
    obtain ⟨tally', turns, w₂, hlater, hwords, hloads, hran, hcount'⟩ := ih hrest hout' (t.report w₁)
    refine ⟨tally + tally', t :: turns, w₂, ?_, ?_, ?_, .cons hop hcalls hran, ?_⟩
    · unfold Env.runDescriptors
      rw [Act.bind_run, hfirst, Act.next_ok, Act.bind_run, hlater]
      rfl
    · rw [List.map_cons, hwords]
    · intro t' ht'
      rcases List.mem_cons.1 ht' with rfl | ht'
      · exact hload
      -- what is read of a later descriptor is what was there before the first turn
      · have hmem : t'.word ∈ rest := hwords ▸ List.mem_map_of_mem ht'
        have hsame : Descriptor.load ((env.runDescriptor harts a t.word : Act (World σ) ε Tally).run
            w).2.memory t'.word = Descriptor.load w.memory t'.word :=
          Env.load_runDescriptor hquiet (hp _ hmem) (hout' _ hmem) w
        rw [hfirst] at hsame
        exact (hloads t' ht').trans hsame
    · show tally.succeeded + tally'.succeeded = succeeded ([t] ++ turns)
      rw [hcount, hcount', succeeded, succeeded, succeeded, List.countP_append]

end NestedAccel
