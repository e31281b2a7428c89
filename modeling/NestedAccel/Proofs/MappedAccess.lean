import NestedAccel.Proofs.HeldRanges
import NestedAccel.Proofs.Isolation

/-!
# `NestedAccel.Proofs.MappedAccess` — words are accessed while they are mapped

A range may be read and written from the time it has been mapped until it is given back. `Shown events b` says
that word `b` lies in a range that the record `events` leaves mapped, and `Policy.mapped` lets a computation
access just the words that are shown at the moment. **Every operation keeps to it**
(`Platform.Backed.operation`): the words of an area are accessed while a hart has it, before the area
is given back and not after, and those of a batch array between the two ends of its batch.

What carries this from one operation to the next is that the area of each hart stays mapped
(`Platform.Reachable.backed`). A call gives back a range of the size of an area never, since an array is
shorter. A registration that fails gives back a range that no other hart has, and so does a release.

With the ledger of the module before, **`Platform.Reachable.mappings_balanced`** says what becomes of every
range that is mapped.
-/

namespace NestedAccel

variable {σ ε α : Type}

/-! ## Mappings in force -/

/-- The range has been mapped with the given mapping, and has not been given back since. -/
def InForce (events : List Event) (gpa len : Word) (m : Mapping) : Prop :=
  ∃ before after, events = before ++ .mapped gpa len (.ok m) :: after ∧ .unmapped gpa len ∉ after

/-- Word `b` can be accessed through a mapping in force. -/
def Shown (events : List Event) (b : Nat) : Prop :=
  ∃ gpa len m, InForce events gpa len m ∧ m.aligned = true ∧ m.start ≤ 8 * b ∧
    8 * b + 8 ≤ m.start + len.toNat

section
variable {events new : List Event} {gpa len : Word} {m : Mapping} {a : Area}

theorem InForce.append (h : InForce events gpa len m) (hnew : .unmapped gpa len ∉ new) :
    InForce (events ++ new) gpa len m := by
  obtain ⟨before, after, rfl, hafter⟩ := h
  refine ⟨before, after ++ new, by simp, fun hin => ?_⟩
  exact (List.mem_append.1 hin).elim hafter hnew

theorem InForce.shown (h : InForce events gpa len m) (haligned : m.aligned = true) {b : Nat}
    (hb : m.base ≤ b) (hend : 8 * b + 8 ≤ 8 * m.base + len.toNat) : Shown events b := by
  have hstart : m.start = 8 * m.base := by
    unfold Mapping.aligned at haligned
    rw [beq_iff_eq] at haligned
    unfold Mapping.base
    omega
  exact ⟨gpa, len, m, h, haligned, by omega, by omega⟩

/-- The area is mapped where its words are found. -/
def Area.Mapped (a : Area) (events : List Event) : Prop :=
  ∃ m, InForce events a.gpa areaBytes m ∧ m.aligned = true ∧ a.base = m.base

theorem Area.Mapped.append (h : a.Mapped events) (hnew : .unmapped a.gpa areaBytes ∉ new) :
    a.Mapped (events ++ new) := by
  obtain ⟨m, hin, haligned, hbase⟩ := h
  exact ⟨m, hin.append hnew, haligned, hbase⟩

theorem Area.Mapped.shown (h : a.Mapped events) {b : Nat} (hb : a.Owns b) : Shown events b := by
  obtain ⟨m, hin, haligned, hbase⟩ := h
  have hbytes : areaBytes.toNat = 12288 := rfl
  unfold Area.Owns Area.words at hb
  exact hin.shown haligned (by omega) (by omega)

/-- A range that has just been mapped. -/
theorem Area.mapped_now (haligned : m.aligned = true) :
    Area.Mapped ⟨gpa, m.base⟩ (events ++ [.mapped gpa areaBytes (.ok m)]) :=
  ⟨m, ⟨events, [], rfl, List.not_mem_nil⟩, haligned, rfl⟩

end

/-! ## Calls -/

/-- Words are accessed while they are mapped. -/
def Policy.mapped : Policy where
  calls _ := True
  words := Shown

/-- No range of the size of an area is given back, and words are accessed while they are mapped. -/
def Policy.areasKept : Policy where
  calls e := ∀ gpa, e ≠ .unmapped gpa areaBytes
  words := Shown

theorem Event.IsRequest.ne_unmapped {e : Event} (h : e.IsRequest) (gpa len : Word) :
    e ≠ .unmapped gpa len := by
  obtain ⟨q, r, rfl⟩ := h
  exact fun heq => nomatch heq

namespace Hart

variable {env : Env σ} {cfg : Config} {claimed : List Word} {area : Option Area} {call : AccelCall}

/-- The area, if there is one, is mapped. -/
def AreaMapped (area : Option Area) (events : List Event) : Prop := ∀ a, area = some a → a.Mapped events

theorem AreaMapped.of_calls {events new : List Event} (h : AreaMapped area events)
    (hnew : ∀ e ∈ new, Policy.areasKept.calls e) : AreaMapped area (events ++ new) :=
  fun a ha => (h a ha).append fun hin => hnew _ hin a.gpa rfl

/-- A hart whose area is mapped keeps it, and accesses words while they are mapped. -/
structure AccessesFrom (env : Env σ) (area : Option Area) (x : Act (Hart × World σ) ε α)
    (st : Hart × World σ) : Prop where
  confined : ConfinedFrom env .areasKept x st
  area_eq : (x.run st).2.1.session.area = area

/-- The computation does so from every state. -/
def Accesses (env : Env σ) (area : Option Area) (x : Act (Hart × World σ) ε α) : Prop :=
  ∀ st, st.1.session.area = area → AreaMapped area st.2.events → AccessesFrom env area x st

/-- What leaves the world alone, and the area of the hart. -/
theorem Accesses.still {x : Act (Hart × World σ) ε α}
    (hx : ∀ st, ConfinedFrom env .areasKept x st ∧ (x.run st).2.1.session.area = st.1.session.area) :
    Accesses env area x := fun st harea _ => ⟨(hx st).1, (hx st).2.trans harea⟩

theorem AccessesFrom.bind {x : Act (Hart × World σ) ε α} {f : α → Act (Hart × World σ) ε β}
    {st : Hart × World σ} (hmapped : AreaMapped area st.2.events) (hx : AccessesFrom env area x st)
    (hf : ∀ a st', x.run st = (.ok a, st') → st'.1.session.area = area →
      AreaMapped area st'.2.events → AccessesFrom env area (f a) st') :
    AccessesFrom env area (x >>= f) st := by
  obtain ⟨new, hevents, hcalls, _⟩ := hx.confined.events
  have hnext : ∀ a st', x.run st = (.ok a, st') → AccessesFrom env area (f a) st' := by
    intro a st' hrun
    have harea := hx.area_eq
    rw [hrun] at hevents harea
    have hlater := hmapped.of_calls hcalls
    rw [← hevents] at hlater
    exact hf a st' hrun harea hlater
  refine ⟨hx.confined.bind fun a st' hrun => (hnext a st' hrun).confined, ?_⟩
  rw [Act.bind_run]
  have harea := hx.area_eq
  rcases hrun : x.run st with ⟨_ | _ | _, st'⟩
  · exact (hnext _ st' hrun).area_eq
  · rwa [hrun] at harea
  · rwa [hrun] at harea

theorem carried_accesses : Carried (σ := σ) fun {ε α} (x : Act (Hart × World σ) ε α) =>
    Accesses env area x where
  pure a := .still fun _ => ⟨.pure a, rfl⟩
  fail e := .still fun _ => ⟨.fail e, rfl⟩
  bind hx hf st harea hmapped :=
    AccessesFrom.bind hmapped (hx st harea hmapped) fun a st' _ harea' hmapped' => hf a st' harea' hmapped'
  mapError hx f st harea hmapped := by
    refine ⟨(hx st harea hmapped).confined.mapError f, ?_⟩
    rw [Act.mapError_run_snd]
    exact (hx st harea hmapped).area_eq
  attempt hx st harea hmapped := by
    refine ⟨(hx st harea hmapped).confined.attempt, ?_⟩
    rw [Act.attempt_run_snd]
    exact (hx st harea hmapped).area_eq
  gets f := .still fun _ => ⟨.gets f, rfl⟩
  counters f := .still fun _ => ⟨.modify fun h : Hart => { h with counters := f h.counters }, rfl⟩
  message l text := .still fun st => ⟨.onSecond (.message l text st.2), rfl⟩

theorem onPhase_confined {π : Policy} {x : Act (Phase × World σ) ε α} {st : Hart × World σ}
    (hx : ConfinedFrom env π x (st.1.phase, st.2)) : ConfinedFrom env π (onPhase x) st :=
  @ConfinedFrom.zoom _ _ _ _ _ env π st Hart.phase (fun phase h => { h with phase }) x hx

theorem onSession_confined {π : Policy} {x : Act (Session × World σ) ε α} {st : Hart × World σ}
    (hx : ConfinedFrom env π x (st.1.session, st.2)) : ConfinedFrom env π (onSession x) st :=
  @ConfinedFrom.zoom _ _ _ _ _ env π st Hart.session (fun session h => { h with session }) x hx

/-- A synchronization call keeps to the words of the area. -/
theorem sync_accesses (call : SyncCall α) {a : Area} {st : Hart × World σ} (f : SyncError → ε)
    (harea : st.1.session.area = some a) (hmapped : AreaMapped (some a) st.2.events) :
    AccessesFrom env (some a) ((onPhase (call.act env a)).mapError f) st := by
  have hconfined : ConfinedFrom env .areasKept (call.act env a) (st.1.phase, st.2) := by
    refine ConfinedFrom.mono (call.act_confined (fun _ hb => hb) (st.1.phase, st.2))
      (fun e he gpa => he.ne_unmapped gpa areaBytes) fun new hnew b hb => ?_
    have hlater := hmapped.of_calls fun e he gpa => (hnew e he).ne_unmapped gpa areaBytes
    exact (hlater a rfl).shown hb
  refine ⟨(onPhase_confined hconfined).mapError f, ?_⟩
  rw [Act.mapError_run_snd]
  exact harea

theorem requireArea_accesses (call : SyncCall α) (f : SyncError → SbiError) :
    Accesses env area (requireArea >>= fun a => (onPhase (call.act env a)).mapError f) := by
  have hrequire : Accesses env area requireArea := by
    unfold requireArea
    exact carried_accesses.bind (carried_accesses.gets fun h => h.session.requireArea) fun found =>
      .still fun st => ⟨(ConfinedFrom.ofExcept found).mapError _, by simp⟩
  intro st harea hmapped
  refine (hrequire st harea hmapped).bind hmapped fun a st' hrun harea' hmapped' => ?_
  obtain ⟨rfl, hown⟩ := requireArea_run_ok hrun
  have hsome : area = some a := harea.symm.trans hown
  subst hsome
  exact sync_accesses call f harea' hmapped'

theorem drain_accesses : Accesses env area (drain env) := by
  intro st harea hmapped
  refine (carried_accesses.gets drainArea? st harea hmapped).bind hmapped ?_
  intro found st' hfound harea' hmapped'
  obtain ⟨rfl, rfl⟩ := Act.run_gets_ok hfound
  split
  · exact carried_accesses.pure () _ harea' hmapped'
  · rename_i a hdrain
    have hsome : area = some a := harea.symm.trans (drainArea?_some hdrain)
    subst hsome
    refine (sync_accesses (.csrs .all) SyncError.sbi harea' hmapped').bind hmapped' ?_
    exact fun n st'' _ => carried_accesses.count _ _ st''

theorem changeMode_accesses (id mode flags : Word) :
    Accesses env area (changeMode (σ := σ) id mode flags) := by
  intro st harea hmapped
  refine (carried_accesses.gets (fun h => h.session.setMode mode flags) st harea hmapped).bind hmapped ?_
  intro r st₁ hr harea₁ hmapped₁
  obtain ⟨rfl, rfl⟩ := Act.run_gets_ok hr
  refine AccessesFrom.bind hmapped₁ ⟨(ConfinedFrom.ofExcept _).mapError _, by simpa⟩ ?_
  intro s st₂ hs harea₂ hmapped₂
  obtain ⟨hs, rfl⟩ := Act.run_ofExcept_ok (Act.run_mapError_ok hs)
  -- the new session is another mode of the one that was read
  refine AccessesFrom.bind hmapped₂
    ⟨.modify fun h : Hart => { h with session := s }, (setMode_area hs).trans harea⟩ fun _ st₃ _ => ?_
  exact carried_accesses.bind (carried_accesses.message _ _) (fun _ => carried_accesses.pure _) st₃

/-- A batch accesses its array while it is mapped. -/
theorem runBatch_accesses (hmax : cfg.maxBatch ≤ Config.batchLimit) (addr count : Word) :
    Accesses env area (Act.gets (fun st => st.1.session.area) >>= fun area =>
      (onWorld (env.runBatch cfg.harts cfg.maxBatch area claimed addr count)).attempt :
      Act (Hart × World σ) SbiError (Except BatchError Tally)) := by
  intro st harea hmapped
  refine (carried_accesses.gets (fun h => h.session.area) st harea hmapped).bind hmapped ?_
  intro found st' hfound harea' hmapped'
  obtain ⟨rfl, rfl⟩ := Act.run_gets_ok hfound
  have hbatch : Confined env .areasKept
      (env.runBatch cfg.harts cfg.maxBatch st'.1.session.area claimed addr count) st'.2 := by
    refine Env.runBatch_confined (fun e he gpa => he.ne_unmapped gpa areaBytes)
      (fun hadmitted _ => ?_) cfg.harts
    have hcount := Nat.le_trans hadmitted.count_le hmax
    have hlen := Platform.arrayBytes_toNat hcount
    refine ⟨fun r gpa heq => (nomatch heq), fun gpa heq => ?_, fun a m new ha hnew b hb => ?_⟩
    -- the array is shorter than an area
    · injection heq with _ heq
      have hlimit : Config.batchLimit = 256 := rfl
      have hbytes : areaBytes.toNat = 12288 := rfl
      rw [heq] at hlen
      omega
    · rcases hb with howns | ⟨haligned, hstart, hend⟩
      · have hkept : .unmapped a.gpa areaBytes ∉
            .mapped addr (Descriptor.arrayBytes count) (.ok m) :: new := by
          intro hin
          rcases List.mem_cons.1 hin with heq | hin
          · cases heq
          · exact (hnew _ hin).ne_unmapped _ _ rfl
        exact ((hmapped' a (harea'.symm.trans ha)).append hkept).shown howns
      · have hin : InForce (st'.2.events ++ .mapped addr (Descriptor.arrayBytes count) (.ok m) :: new)
            addr (Descriptor.arrayBytes count) m :=
          ⟨_, new, rfl, fun hin => (hnew _ hin).ne_unmapped _ _ rfl⟩
        exact hin.shown haligned hstart (by omega)
  refine ⟨(ConfinedFrom.onSecond hbatch).attempt, ?_⟩
  rw [Act.attempt_run_snd]
  exact harea'

theorem parts_accesses (hmax : cfg.maxBatch ≤ Config.batchLimit) (id : Word) (caller : Privilege) :
    Parts env cfg id claimed caller call
      fun {ε α} (x : Act (Hart × World σ) ε α) => Accesses env area x where
  csrs low high _ := requireArea_accesses (.csrs ⟨low, high⟩) SyncError.sbi
  hfences index _ := requireArea_accesses (.hfences index) SyncError.sbi
  sret flags _ :=
    requireArea_accesses (.sret flags caller (cfg.features.contains .autoswapCsr)) SyncError.sbi
  batch _ addr len _ := runBatch_accesses hmax addr len
  inject _ _ _ _ _ i _ := fun st harea _ => by
    refine ⟨.onSecond (.request (fun r gpa heq => ?_) st.2), harea⟩
    cases heq
  mode mode flags _ := changeMode_accesses id mode flags

/-- **A call accesses words while they are mapped,** and gives no range of the size of an area back. -/
theorem handle_accesses (hmax : cfg.maxBatch ≤ Config.batchLimit) (env : Env σ) (id : Word)
    (claimed : List Word) (caller : Privilege) (call : AccelCall) (area : Option Area) :
    Accesses env area (handle env cfg id claimed caller call) :=
  carried_accesses.handle (parts_accesses hmax id caller) drain_accesses

end Hart

/-! ## Registrations and releases -/

namespace Session

variable {env : Env σ}

/-- The area is zeroed once it has been mapped. -/
theorem establish_confined (gpa flags : Word) (st : Session × World σ) :
    ConfinedFrom env .mapped (establish env gpa areaBytes flags) st := by
  unfold establish
  refine (ConfinedFrom.gets fun s : Session => s.checkEstablish gpa areaBytes flags).bind ?_
  intro check st₁ _
  refine (ConfinedFrom.ofExcept check).bind fun _ st₂ _ => ?_
  refine (ConfinedFrom.onSecond ((Confined.map (fun _ => trivial) _).mapError _)).bind fun m st₃ hm => ?_
  split
  · exact (ConfinedFrom.onSecond (.unmap trivial _)).bind fun _ _ _ => .fail _
  · rename_i haligned
    refine (ConfinedFrom.modify fun s : Session => { s with area := some ⟨gpa, m.base⟩ }).bind
      fun _ st₄ hst => ?_
    split
    · exact .pure ()
    · have hrun : (Act.mapError SessionError.map (env.mapRange gpa areaBytes)).run st₂.2 =
          (.ok m, st₃.2) := by
        rw [Act.onSecond_run] at hm
        obtain ⟨ho, hst₃⟩ := Prod.mk.inj hm
        rw [← ho, ← hst₃]
      have hevents := World.mapRange_run_events (Act.run_mapError_ok hrun)
      cases hst
      refine .onSecond (.change ((Area.changesOnly_zero ⟨gpa, m.base⟩).mono fun b hb => ?_))
      show Shown st₃.2.events b
      rw [hevents]
      exact (Area.mapped_now (Decidable.not_not.1 haligned)).shown hb

/-- The bitmap is cleared before the area is given back. -/
theorem release_confined {st : Session × World σ} (hmapped : Hart.AreaMapped st.1.area st.2.events) :
    ConfinedFrom env .mapped (release : Act (Session × World σ) ε (Option Word)) st := by
  unfold release
  refine (ConfinedFrom.gets Session.area).bind fun found st₁ hfound => ?_
  obtain ⟨rfl, rfl⟩ := Act.run_gets_ok hfound
  split
  · exact .pure none
  · rename_i a harea
    refine (ConfinedFrom.modify fun s : Session => { s with area := none }).bind fun _ st₂ hst => ?_
    cases hst
    refine (ConfinedFrom.onSecond (.change ?_)).bind fun _ st₃ _ => ?_
    · exact a.changesOnly_clearBitmap.mono fun b hb => (hmapped a harea).shown hb
    · exact (ConfinedFrom.onSecond (.unmap trivial _)).bind fun _ _ _ => .pure _

end Session

namespace Platform

variable {env : Env σ} {config : Config} {p : Platform} {id : Word} {st st' : Platform × World σ}

theorem onHart_confined {π : Policy} {missing : ε} {x : Act (Hart × World σ) ε α}
    (hx : ∀ h, st.1.hart? id = some h → ConfinedFrom env π x (h, st.2)) :
    ConfinedFrom env π (onHart id missing x) st := by
  cases hh : st.1.hart? id with
  | none =>
    exact .still (by simp) fun w => onHart_run_none hh missing x w
  | some h =>
    have hcurry : (onHart id missing x).curry st.1 =
        Act.mapError (fun e => (e.1, st.1.setHart id e.2)) (x.curry h) >>= fun r =>
          pure (r.1, st.1.setHart id r.2) := by
      refine Act.ext fun w => ?_
      rw [Act.curry_run, onHart_run hh, Act.bind_run, Act.mapError_run, Act.curry_run]
      rcases x.run (h, w) with ⟨_ | _ | _, _⟩ <;> rfl
    show Confined env π ((onHart id missing x).curry st.1) st.2
    rw [hcurry]
    exact (Confined.mapError (hx h hh) _).bind fun r w' _ => .pure _ w'

theorem establish_confined (id gpa flags : Word) (st : Platform × World σ) :
    ConfinedFrom env .mapped (establish env id gpa flags) st := by
  have hrequire : ConfinedFrom env .mapped (requireHart id) st := by
    refine (ConfinedFrom.gets fun p : Platform => p.hart? id).bind fun found st' _ => ?_
    cases found with
    | none => exact .fail _
    | some h => exact .pure h
  unfold establish
  refine hrequire.bind fun h st₁ _ => ?_
  refine ((ConfinedFrom.ofExcept _).mapError _).bind fun _ st₂ _ => ?_
  refine (ConfinedFrom.gets fun p : Platform => p.claims.find? fun c =>
    c.hart != id && rangesOverlap c.gpa areaBytes gpa areaBytes).bind fun found st₃ _ => ?_
  split
  · exact (ConfinedFrom.onSecond (.message _ _ _)).bind fun _ _ _ => .fail _
  · refine (onHart_confined fun h' _ => ?_).bind fun _ st₄ _ => ?_
    · exact (Hart.onSession_confined (Session.establish_confined gpa flags _)).mapError _
    · refine (ConfinedFrom.modify fun p : Platform =>
        { p with claims := p.claims ++ [⟨id, gpa⟩] }).bind fun _ st₅ _ => ?_
      exact .onSecond (.message _ _ _)

/-! ## The areas of a platform -/

/-- The areas of the harts are mapped. -/
structure Backed (st : Platform × World σ) : Prop where
  mapped : ∀ id h, st.1.hart? id = some h → Hart.AreaMapped h.session.area st.2.events
  maxBatch_le : st.1.config.maxBatch ≤ Config.batchLimit

theorem Backed.handle_confined (h : Backed st) (id : Word) (caller : Privilege) (call : AccelCall) :
    ConfinedFrom env .mapped (handle env id caller call) st := by
  unfold handle
  refine (ConfinedFrom.gets fun p : Platform => p).bind fun p st' hp => ?_
  obtain ⟨rfl, rfl⟩ := Act.run_gets_ok hp
  refine onHart_confined fun hart hh => ?_
  have haccesses := Hart.handle_accesses h.maxBatch_le env id st'.1.claimed caller call
    hart.session.area (hart, st'.2) rfl (h.mapped id hart hh)
  exact haccesses.confined.mono (fun _ _ => trivial) fun _ _ _ hb => hb

theorem Backed.release_confined (h : Backed st) (id : Word) : ConfinedFrom env .mapped (release id) st := by
  unfold release
  refine (onHart_confined fun hart hh => ?_).bind fun found st' _ => ?_
  · exact Hart.onSession_confined (Session.release_confined (h.mapped id hart hh))
  · cases found with
    | none => exact .pure ()
    | some gpa =>
      refine (ConfinedFrom.modify fun p : Platform =>
        { p with claims := p.claims.filter fun c => c.hart != id }).bind fun _ st₂ _ => ?_
      exact .onSecond (.message _ _ _)

theorem Backed.offline_confined (h : Backed st) (id : Word) : ConfinedFrom env .mapped (offline id) st := by
  unfold offline
  refine (h.release_confined id).bind fun _ st' _ => onHart_confined fun hart _ => ?_
  exact Hart.onSession_confined (.modify Session.resetMode)

theorem Backed.setShmem_confined (h : Backed st) (id addr flags : Word) :
    ConfinedFrom env .mapped (setShmem env id addr flags) st := by
  unfold setShmem
  split
  · exact h.release_confined id
  · exact establish_confined id addr flags st

theorem Backed.answer_confined (h : Backed st) (id : Word) (caller : Privilege) (call : AccelCall) :
    ConfinedFrom env .mapped (answer env id caller call : Act _ ε EcallAction) st := by
  cases call with
  | setShmem addr flags =>
    refine (h.setShmem_confined id addr flags).attempt.bind fun r _ _ => ?_
    split <;> exact .pure _
  | _ =>
    refine (ConfinedFrom.gets fun p : Platform => p.hart? id).bind fun found st' hfound => ?_
    obtain ⟨rfl, rfl⟩ := Act.run_gets_ok hfound
    split
    · exact .pure _
    · refine (h.handle_confined id caller _).attempt.bind fun r _ _ => ?_
      split <;> exact .pure _

theorem Backed.ecall_confined (h : Backed st) (id : Word) (caller : Privilege) (rs : Registers) :
    ConfinedFrom env .mapped (ecall env id caller rs : Act _ ε (EcallAction × Registers)) st := by
  unfold ecall
  split
  · exact (ConfinedFrom.pure _).bind fun _ _ _ => .pure _
  · exact (h.answer_confined id caller _).bind fun _ _ _ => .pure _
  · exact (ConfinedFrom.pure _).bind fun _ _ _ => .pure _

/-! ## Areas stay mapped -/

/-- No hart has an area where another one may be registered. -/
theorem Admits.gpa_ne {gpa flags : Word} {h h' : Hart} {id' : Word} {a : Area}
    (hadmits : p.Admits id gpa flags h) (hp : p.Registered) (hh' : p.hart? id' = some h')
    (harea : h'.session.area = some a) : a.gpa ≠ gpa := by
  obtain ⟨halign, _, _, hfree⟩ := Session.checkEstablish_ok hadmits.check
  by_cases hid : id' = id
  · subst hid
    cases hh'.symm.trans hadmits.hart
    cases hfree.symm.trans harea
  · have hclaim := hp.mem_claims hh' harea
    rintro rfl
    have hstart := lt_of_aligned (toNat_mod_page halign)
    have hclear : rangesOverlap a.gpa areaBytes a.gpa areaBytes = false :=
      hadmits.clear ⟨id', a.gpa⟩ hclaim hid
    exact disjoint_of_not_overlap hstart hstart hclear (inRange_first a.gpa) (inRange_first a.gpa)

/-- The areas of two harts are registered at different addresses. -/
theorem Registered.gpa_ne (hp : p.Registered) {h h' : Hart} {id' : Word} {a a' : Area} (hne : id' ≠ id)
    (hh : p.hart? id = some h) (harea : h.session.area = some a) (hh' : p.hart? id' = some h')
    (harea' : h'.session.area = some a') : a'.gpa ≠ a.gpa := fun heq =>
  hne (hp.hart_eq (hp.mem_claims hh' harea') (hp.mem_claims hh harea) heq)

/-- What happens while the platform stays as it is gives no area back. -/
theorem Backed.kept {w w' : World σ} (h : Backed (p, w)) {new : List Event}
    (hevents : w'.events = w.events ++ new)
    (hnew : ∀ id h a, p.hart? id = some h → h.session.area = some a →
      .unmapped a.gpa areaBytes ∉ new) : Backed (p, w') where
  mapped id hart hh a ha := by
    show a.Mapped w'.events
    rw [hevents]
    exact (h.mapped id hart hh a ha).append (hnew id hart a hh ha)
  maxBatch_le := h.maxBatch_le

/-- A hart changes, and what happens gives no area of another hart back. -/
theorem Backed.setHart {w w' : World σ} {claims : List Claim} {hart hart' : Hart} (h : Backed (p, w))
    (hh : p.hart? id = some hart) {new : List Event} (hevents : w'.events = w.events ++ new)
    (hmine : Hart.AreaMapped hart'.session.area w'.events)
    (hothers : ∀ id' h' a, id' ≠ id → p.hart? id' = some h' → h'.session.area = some a →
      .unmapped a.gpa areaBytes ∉ new) : Backed ({ p.setHart id hart' with claims := claims }, w') where
  mapped id' found hfound := by
    by_cases hid : id' = id
    · subst hid
      cases (hart?_setHart_same hh hart').symm.trans hfound
      exact hmine
    · have hother : p.hart? id' = some found := (hart?_setHart_other hid hart').symm.trans hfound
      intro a ha
      show a.Mapped w'.events
      rw [hevents]
      exact (h.mapped id' found hother a ha).append (hothers id' found a hid hother ha)
  maxBatch_le := h.maxBatch_le

theorem Registration.backed {gpa flags : Word} {w : World σ}
    {out : Outcome PlatformError Unit × (Platform × World σ)}
    (hout : Registration env id gpa flags p w out) (hp : p.Registered) (h : Backed (p, w)) :
    Backed out.2 := by
  cases hout with
  | noHart _ => exact h
  | refused _ _ => exact h
  | overlap _ _ _ => exact h.kept (List.append_nil _).symm fun _ _ _ _ _ => List.not_mem_nil
  | notMapped _ hm =>
    refine h.kept rfl fun _ _ _ _ _ hin => ?_
    cases List.mem_singleton.1 hin
  | @misaligned _ m hadmits hm _ =>
    have hevents : ((w.afterMap env gpa areaBytes).record (.unmapped gpa areaBytes)).events =
        w.events ++ [.mapped gpa areaBytes (env.map gpa areaBytes w.state).1, .unmapped gpa areaBytes] := by
      simp [World.record, World.afterMap]
    refine h.kept hevents fun _ _ a hh ha hin => ?_
    rcases List.mem_cons.1 hin with heq | hin
    · cases heq
    -- the range given back is one that could be registered
    · injection List.mem_singleton.1 hin with heq _
      exact hadmits.gpa_ne hp hh ha heq
  | @done _ m console hadmits hm haligned =>
    refine h.setHart hadmits.hart rfl ?_ fun _ _ _ _ _ _ hin => ?_
    · intro a ha
      cases ha
      show Area.Mapped _ (w.events ++ [.mapped gpa areaBytes (env.map gpa areaBytes w.state).1])
      rw [hm]
      exact Area.mapped_now haligned
    · cases List.mem_singleton.1 hin

theorem Step.backed (hstep : Step env id st st') (hp : st.1.Registered) (h : Backed st) : Backed st' := by
  cases hstep with
  | @call p w hart hh caller call =>
    have haccesses := Hart.handle_accesses h.maxBatch_le env id p.claimed caller call
      hart.session.area (hart, w) rfl (h.mapped id hart hh)
    obtain ⟨new, hevents, hcalls, _⟩ := haccesses.confined.events
    rw [handle_run env hh]
    refine h.setHart hh hevents ?_ fun _ _ a _ _ _ hin => hcalls _ hin a.gpa rfl
    rw [haccesses.area_eq, hevents]
    exact (h.mapped id hart hh).of_calls hcalls
  | establish hout => exact hout.backed hp h
  | @release p w hart a console hh harea =>
    refine h.setHart hh rfl (fun a ha => by cases ha) fun _ _ a' hne hh' ha' hin => ?_
    injection List.mem_singleton.1 hin with heq _
    exact hp.gpa_ne hne hh harea hh' ha' heq
  | @resetMode p w hart hh =>
    exact h.setHart hh (List.append_nil _).symm (h.mapped id hart hh)
      fun _ _ _ _ _ _ => List.not_mem_nil

theorem backed_create {w : World σ} (h : create config = .ok p) : Backed (p, w) := by
  obtain ⟨hvalid, rfl⟩ := create_ok h
  obtain ⟨_, _, _, hbatch⟩ := Config.validate_ok hvalid
  refine ⟨fun id hart hh a ha => ?_, hbatch⟩
  unfold hart? at hh
  rw [Array.getElem?_replicate] at hh
  split at hh
  · cases hh
    cases ha
  · cases hh

theorem Reachable.backed (h : Reachable env config st) : Backed st :=
  h.step_invariant (fun _ _ hp _ => backed_create hp) (fun _ _ _ hp hI hstep => hstep.backed hp hI)
    fun _ _ _ _ hI => ⟨hI.mapped, hI.maxBatch_le⟩

end Platform

/-! ## Operations -/

/-- The operation, made by hart `id`, is put together from primitive actions that the policy allows. -/
def Operation.ConfinedTo (env : Env σ) (π : Policy) (id : Word) :
    Operation → Platform × World σ → Prop
  | handle caller call, st => ConfinedFrom env π (Platform.handle env id caller call) st
  | ecall caller rs, st =>
    ConfinedFrom env π (Platform.ecall env id caller rs : Act _ Empty (EcallAction × Registers)) st
  | establish gpa flags, st => ConfinedFrom env π (Platform.establish env id gpa flags) st
  | release, st => ConfinedFrom env π (Platform.release id) st
  | offline, st => ConfinedFrom env π (Platform.offline id) st

namespace Platform

variable {env : Env σ} {config : Config} {st : Platform × World σ}

/-- **Every operation accesses words while they are mapped.** -/
theorem Backed.operation (h : Backed st) (env : Env σ) (id : Word) (op : Operation) :
    op.ConfinedTo env .mapped id st := by
  cases op with
  | handle caller call => exact h.handle_confined id caller call
  | ecall caller rs => exact h.ecall_confined id caller rs
  | establish gpa flags => exact establish_confined id gpa flags st
  | release => exact h.release_confined id
  | offline => exact h.offline_confined id

/-- **Every range is given back, once, and none is accessed in between times.** As long as the host comes back
    from its requests, the ranges mapped and not unmapped are those of the registered areas, each of them
    once; an unmapped range is one that is mapped at the time. Every operation keeps to the words that are
    mapped when it accesses them. -/
theorem Reachable.mappings_balanced (h : Reachable env config st) :
    (¬Lost st.2.events →
      let held := rangesMapped st.2.events - rangesUnmapped st.2.events
      rangesUnmapped st.2.events ≤ rangesMapped st.2.events ∧ held.Nodup ∧
      (∀ r, r ∈ held ↔ ∃ id hart g, st.1.hart? id = some hart ∧ hart.session.gpa? = some g ∧
        r = (g, areaBytes)) ∧
      ∀ before after gpa len, st.2.events = before ++ .unmapped gpa len :: after →
        (gpa, len) ∈ rangesMapped before - rangesUnmapped before) ∧
    ∀ id (op : Operation), op.ConfinedTo env .mapped id st := by
  refine ⟨fun hback => ?_, h.backed.operation env⟩
  intro held
  have hleads : Leads 0 st.2.events st.1.established := h.settled.resolve_left hback
  have hheld : held = st.1.established := hleads.held
  rw [hheld]
  refine ⟨?_, h.registered.established_nodup, fun r => h.registered.mem_established, ?_⟩
  · have hbalance := hleads.balance
    rw [zero_add] at hbalance
    rw [hbalance]
    exact Multiset.le_add_right _ _
  · intro before after gpa len hevents
    rw [hevents] at hleads
    exact hleads.mem_of_unmapped

/-- An environment that shows the range at `gpa` in the middle of a word, and others where they are. -/
def askew (gpa : Word) : Env Nat where
  host _ k m := (.done 0, k, m)
  map g _ k := (.ok ⟨if g = gpa then g.toNat + 4 else g.toNat⟩, k)

/-- Hart 0 has registered an area. It has made a batch at the crooked address, and hart 1 has asked for an area
    there. -/
def leftAskew : Platform × World Nat :=
  let created := (Operation.establish 0x3000 0).run (askew 0x7000) 0
    ({ config := { harts := 2 }, harts := #[{}, {}] }, { state := 0, memory := .zero })
  let batched := (Operation.handle .supervisor (.batchExecute 0x7000 1)).run (askew 0x7000) 0 created
  (Operation.establish 0x7000 0).run (askew 0x7000) 1 batched

theorem reachable_leftAskew : Reachable (askew 0x7000) { harts := 2 } leftAskew := by
  have hnew := Reachable.two (askew 0x7000) { state := 0, memory := .zero } rfl
  have hbatched := (hnew.step 0 (.establish 0x3000 0)).step 0 (.handle .supervisor (.batchExecute 0x7000 1))
  exact hbatched.step 1 (.establish 0x7000 0)

/-- The batch and the second registration have been given up. What is left is the area of hart 0. -/
theorem mappings_balanced_askew :
    let st := leftAskew
    Reachable (askew 0x7000) { harts := 2 } st ∧ ¬Lost st.2.events ∧ (rangesMapped st.2.events).card = 3 ∧
    (∀ r, r ∈ rangesMapped st.2.events - rangesUnmapped st.2.events ↔
      ∃ id hart g, st.1.hart? id = some hart ∧ hart.session.gpa? = some g ∧ r = (g, areaBytes)) ∧
    st.1.areaOf? 0 = some 0x3000 ∧ st.1.areaOf? 1 = none ∧
    (Operation.handle .supervisor (.syncCsr 0 0)).ConfinedTo (askew 0x7000) .mapped 0 st := by
  intro st
  have hevents : st.2.events =
      [.mapped 0x3000 areaBytes (.ok ⟨0x3000⟩), .mapped 0x7000 32 (.ok ⟨0x7004⟩), .unmapped 0x7000 32,
        .mapped 0x7000 areaBytes (.ok ⟨0x7004⟩), .unmapped 0x7000 areaBytes] := rfl
  have hback : ¬Lost st.2.events := by
    rw [hevents]
    rintro ⟨q, hq⟩
    simp at hq
  obtain ⟨hbalanced, hconfined⟩ := reachable_leftAskew.mappings_balanced
  obtain ⟨_, _, hheld, _⟩ := hbalanced hback
  refine ⟨reachable_leftAskew, hback, ?_, hheld, rfl, rfl, hconfined 0 _⟩
  rw [hevents]
  rfl

end Platform

end NestedAccel
