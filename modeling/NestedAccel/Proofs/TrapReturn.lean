import NestedAccel.Proofs.Reachable
import NestedAccel.Simulation.Environment

/-!
# `NestedAccel.Proofs.TrapReturn` — what a trap return reports and what the host has done

A trap return writes CSRs, performs fences, reads `hstatus`, hands the return to the host and writes
`hstatus`, and the host can refuse any of it. The report should agree with the host: the caller is told
of a failure exactly if the host has not carried the return out.

The record of a call is classified by `ReturnReport`: the host **stayed**, it has **left**, or it has
left and then refused the swap of `hstatus`. The first two agree with what is reported and the third
does not. `ecall_syncReturn` shows that there is no other, so the report is right **exactly if the host
does not refuse that one write.**
-/

namespace NestedAccel

open World (Reaches)
open Act (Moves Returns)

/-! ## Trap returns on record -/

/-- The event is a trap return that the host has carried out. -/
def Event.isReturn : Event → Bool
  | .requested (.trapReturn _) (.done _) => true
  | _ => false

/-- The number of trap returns that the host has carried out. -/
def returnsIn (events : List Event) : Nat := events.countP Event.isReturn

/-- The last that was asked of the host is to write `hstatus` after a trap return, and it has refused
    to with error `e`. -/
def SwapRefused (events : List Event) (e : HostError) : Prop :=
  ∃ before t v x, events = before ++
    [.requested (.trapReturn t) (.done v), .requested (.writeCsr ⟨CsrNumber.hstatus, x⟩) (.refused e)]

theorem returnsIn_append (old new : List Event) :
    returnsIn (old ++ new) = returnsIn old + returnsIn new := List.countP_append

variable {s σ ε ε' α β : Type}

/-- How a trap return can end, with the events of the call. A result satisfies `Q`, an error is made
    from the host's by `f`, and only with `autoswap` is there a write to refuse. -/
inductive ReturnReport (autoswap : Bool) (f : HostError → ε) (Q : α → Prop) :
    Outcome ε α → List Event → Prop where
  | stayed {e : ε} {new : List Event} (hnone : returnsIn new = 0) :
    ReturnReport autoswap f Q (.error e) new
  | left {a : α} {before : List Event} {q : Request} {v : Word} (ha : Q a)
    (hone : returnsIn (before ++ [.requested q (.done v)]) = 1) :
    ReturnReport autoswap f Q (.ok a) (before ++ [.requested q (.done v)])
  | swapRefused {e : HostError} {new : List Event} (hflag : autoswap = true)
    (hone : returnsIn new = 1) (hlast : SwapRefused new e) :
    ReturnReport autoswap f Q (.error (f e)) new

variable {autoswap : Bool} {f : HostError → ε} {Q : α → Prop}

/-- What happened before the trap return does not matter, as long as it was none. -/
theorem ReturnReport.prepend {o : Outcome ε α} {old new : List Event} (hold : returnsIn old = 0)
    (h : ReturnReport autoswap f Q o new) : ReturnReport autoswap f Q o (old ++ new) := by
  cases h with
  | stayed hnone =>
    refine .stayed ?_
    rw [returnsIn_append, hold, hnone]
  | @left a before q v ha hone =>
    rw [← List.append_assoc]
    refine .left ha ?_
    rw [List.append_assoc, returnsIn_append, hold, hone]
  | swapRefused hflag hone hlast =>
    obtain ⟨before, t, v, x, rfl⟩ := hlast
    refine .swapRefused hflag ?_ ⟨old ++ before, t, v, x, (List.append_assoc _ _ _).symm⟩
    rw [returnsIn_append, hold, hone]

/-- The report and the record agree unless the swap was refused. -/
theorem ReturnReport.not_swapRefused {a : α} {new : List Event} {e : HostError}
    (h : ReturnReport autoswap f Q (.ok a) new) : ¬SwapRefused new e := by
  rintro ⟨before, t, v, x, hnew⟩
  cases h with
  | left ha hone =>
    -- the record ends with a request that was carried out
    have hlast := congrArg List.getLast? hnew
    rw [List.getLast?_concat, List.append_cons, List.getLast?_concat] at hlast
    cases hlast

/-! ## Computations that report a trap return -/

/-- Whatever the computation ends with is one of the three ways. -/
def Reports (world : s → World σ) (autoswap : Bool) (f : HostError → ε) (Q : α → Prop)
    (x : Act s ε α) : Prop :=
  ∀ st, ∃ new, (world (x.run st).2).events = (world st).events ++ new ∧
    ReturnReport autoswap f Q (x.run st).1 new

/-- The computation comes back, and has made no trap return. -/
def Stays (world : s → World σ) (x : Act s ε α) : Prop :=
  Returns x ∧ ∀ st, ∃ new, (world (x.run st).2).events = (world st).events ++ new ∧
    returnsIn new = 0

/-- The computation has a result and asks nothing of the environment. -/
def Concludes (world : s → World σ) (Q : β → Prop) (x : Act s ε β) : Prop :=
  ∀ st, (∃ b, (x.run st).1 = .ok b ∧ Q b) ∧ (world (x.run st).2).events = (world st).events

variable {world : s → World σ} {x : Act s ε α}

theorem Stays.bind_reports {g : β → Act s ε α} {y : Act s ε β} (hy : Stays world y)
    (hg : ∀ b, Reports world autoswap f Q (g b)) : Reports world autoswap f Q (y >>= g) := by
  intro st
  obtain ⟨old, hold, hnone⟩ := hy.2 st
  have hback := hy.1 st
  rw [Act.bind_run]
  rcases hr : y.run st with ⟨r, st'⟩
  rw [hr] at hold hback
  cases r with
  | ok b =>
    obtain ⟨new, hnew, hreport⟩ := hg b st'
    refine ⟨old ++ new, ?_, hreport.prepend hnone⟩
    rw [Act.next_ok, hnew, hold, List.append_assoc]
  | error e => exact ⟨old, hold, .stayed hnone⟩
  | abandoned => exact absurd rfl hback

theorem Reports.bind_concludes {Q' : β → Prop} {g : α → Act s ε β}
    (hx : Reports world autoswap f Q x) (hg : ∀ a, Q a → Concludes world Q' (g a)) :
    Reports world autoswap f Q' (x >>= g) := by
  intro st
  obtain ⟨new, hnew, hreport⟩ := hx st
  rw [Act.bind_run]
  rcases hr : x.run st with ⟨r, st'⟩
  rw [hr] at hnew hreport
  cases hreport with
  | stayed hnone => exact ⟨new, hnew, .stayed hnone⟩
  | left ha hone =>
    obtain ⟨⟨b, hb, hQ⟩, hsame⟩ := hg _ ha st'
    refine ⟨_, hsame.trans hnew, ?_⟩
    rw [Act.next_ok, hb]
    exact .left hQ hone
  | swapRefused hflag hone hlast => exact ⟨new, hnew, .swapRefused hflag hone hlast⟩

theorem Reports.mapError (hx : Reports world autoswap f Q x) (g : ε → ε') :
    Reports world autoswap (g ∘ f) Q (Act.mapError g x) := by
  intro st
  obtain ⟨new, hnew, hreport⟩ := hx st
  refine ⟨new, by rw [Act.mapError_run_snd]; exact hnew, ?_⟩
  rw [Act.mapError_run]
  rcases hr : x.run st with ⟨r, st'⟩
  rw [hr] at hreport
  cases hreport with
  | stayed hnone => exact .stayed hnone
  | left ha hone => exact .left ha hone
  | swapRefused hflag hone hlast => exact .swapRefused hflag hone hlast

/-- A computation whose error is looked at and then failed with again. -/
theorem Reports.attempt_bind {Q' : β → Prop} {k : Except ε α → Act s ε β}
    (hx : Reports world autoswap f Q x) (hok : ∀ a, Q a → Concludes world Q' (k (.ok a)))
    (herr : ∀ e st, ((k (.error e)).run st).1 = .error e ∧
      (world ((k (.error e)).run st).2).events = (world st).events) :
    Reports world autoswap f Q' (Act.attempt x >>= k) := by
  intro st
  obtain ⟨new, hnew, hreport⟩ := hx st
  rw [Act.bind_run, Act.attempt_run]
  rcases hr : x.run st with ⟨r, st'⟩
  rw [hr] at hnew hreport
  cases hreport with
  | @stayed e _ hnone =>
    obtain ⟨hfail, hsame⟩ := herr e st'
    refine ⟨new, hsame.trans hnew, ?_⟩
    rw [Act.next_ok, hfail]
    exact .stayed hnone
  | left ha hone =>
    obtain ⟨⟨b, hb, hQ⟩, hsame⟩ := hok _ ha st'
    refine ⟨_, hsame.trans hnew, ?_⟩
    rw [Act.next_ok, hb]
    exact .left hQ hone
  | @swapRefused e _ hflag hone hlast =>
    obtain ⟨hfail, hsame⟩ := herr (f e) st'
    refine ⟨new, hsame.trans hnew, ?_⟩
    rw [Act.next_ok, hfail]
    exact .swapRefused hflag hone hlast

theorem Reports.fail (e : ε) : Reports world autoswap f Q (Act.fail e) :=
  fun _ => ⟨[], (List.append_nil _).symm, .stayed rfl⟩

/-- Moves without trap returns are none that the host carries out. -/
theorem Stays.of_moves {env : Env σ} {P : Request → Prop} {W : Nat → Prop} {x : Act (World σ) ε α}
    (hback : Returns x) (hx : Moves (Reaches env P W) x) (hP : ∀ t, ¬P (.trapReturn t)) :
    Stays id x := by
  refine ⟨hback, ?_⟩
  intro w
  obtain ⟨new, hnew, hreq⟩ := (hx w).events
  refine ⟨new, hnew, ?_⟩
  rw [returnsIn, List.countP_eq_zero]
  intro e he hret
  -- a trap return on record would be a request of the kind that is excluded
  unfold Event.isReturn at hret
  split at hret
  · exact hP _ (hreq _ _ he)
  · cases hret

theorem Stays.mapError (hx : Stays world x) (g : ε → ε') : Stays world (Act.mapError g x) :=
  ⟨hx.1.mapError g, fun st => by rw [Act.mapError_run_snd]; exact hx.2 st⟩

/-! ## Before the return -/

section
variable {env : Env σ} (hback : env.Returns) (a : Area)
include hback

theorem Env.applySlots_returns (slots : List CsrSlot) : Act.Returns (env.applySlots a slots) := by
  unfold Env.applySlots
  induction slots with
  | nil => exact Returns.pure _
  | cons slot rest ih =>
    refine (Returns.gets _).bind fun v => Returns.bind ?_ fun _ => ?_
    · refine ((Returns.ofExcept _).mapError _).bind fun w => ?_
      exact ((Env.request_returns hback _).mapError _).bind fun _ => Returns.pure _
    · exact (Returns.modify _).bind fun _ => ih.bind fun _ => Returns.pure _

theorem Env.performFences_returns (fences : List PendingFence) :
    Act.Returns (env.performFences a fences) := by
  induction fences with
  | nil => exact Returns.pure _
  | cons p rest ih =>
    refine ((Env.request_returns hback _).mapError _).bind fun _ => ?_
    exact (Returns.modify _).bind fun _ => ih.bind fun _ => Returns.pure _

theorem Env.applySlots_stays (slots : List CsrSlot) : Stays id (env.applySlots a slots) := by
  have hmoves : Moves (Reaches env (fun q => ∃ w, q = .writeCsr w) fun _ => True)
      (env.applySlots a slots) :=
    Env.applySlots_moves (fun _ _ w _ => ⟨w, rfl⟩) (fun _ => trivial) slots
  refine Stays.of_moves (Env.applySlots_returns hback a slots) hmoves ?_
  rintro t ⟨w, hw⟩
  cases hw

theorem Env.performFences_stays (fences : List PendingFence) :
    Stays id (env.performFences a fences) := by
  have hmoves : Moves (Reaches env (fun q => ∃ f, q = .fence f) fun _ => True)
      (env.performFences a fences) :=
    Env.performFences_moves (fun _ => trivial) fun p _ => ⟨p.fence, rfl⟩
  refine Stays.of_moves (Env.performFences_returns hback a fences) hmoves ?_
  rintro t ⟨f, hf⟩
  cases hf

omit a in
theorem Env.readCsr_stays (n : CsrNumber) : Stays id (env.request (.readCsr n)) := by
  have hmoves : Moves (Reaches env (fun q => q = .readCsr n) fun _ => True)
      (env.request (.readCsr n)) := Env.request_moves rfl
  exact Stays.of_moves (Env.request_returns hback _) hmoves fun t h => by cases h

end

/-! ## The return itself -/

section
variable {env : Env σ} {a : Area}

/-- The trap return, the swap after it, and the ways these end. -/
theorem Env.leave_reports (hback : env.Returns) (state : TrapReturn) {swap : Option CsrWrite}
    (hswap : ∀ w, swap = some w → autoswap = true ∧ w.csr = CsrNumber.hstatus) :
    Reports id autoswap SyncError.host (fun _ => True) (env.leave a state swap) := by
  cases swap with
  | none =>
    intro w
    unfold Env.leave
    rcases Env.request_cases hback (.trapReturn state) w with ⟨v, w', hr, hw⟩ | ⟨e, w', hr, hw⟩
    · simp only [Act.bind_run, Act.mapError_run, hr, Act.next_ok, Act.pure_run]
      -- without a swap nothing comes after the return that could fail
      refine ⟨[] ++ [.requested (.trapReturn state) (.done v)], ?_, .left trivial rfl⟩
      exact hw
    · simp only [Act.bind_run, Act.mapError_run, hr, Act.next_error]
      exact ⟨[.requested (.trapReturn state) (.refused e)], hw, .stayed rfl⟩
  | some swap =>
    obtain ⟨hflag, hcsr⟩ := hswap swap rfl
    refine ((Env.readCsr_stays hback _).mapError _).bind_reports fun old => fun w => ?_
    rcases Env.request_cases hback (.trapReturn state) w with ⟨v, w', hr, hw⟩ | ⟨e, w', hr, hw⟩
    · simp only [Act.bind_run, Act.mapError_run, hr, Act.next_ok]
      rcases Env.request_cases hback (.writeCsr swap) w' with
        ⟨u, w'', hr', hw'⟩ | ⟨e, w'', hr', hw'⟩
      · simp only [hr', Act.next_ok]
        refine ⟨[.requested (.trapReturn state) (.done v)] ++
          [.requested (.writeCsr swap) (.done u)], ?_, .left trivial rfl⟩
        rw [← List.append_assoc]
        rw [hw] at hw'
        exact hw'
      · simp only [hr', Act.next_error]
        -- the host has left by now, and the error of the write is all that is reported
        have hlast : SwapRefused [.requested (.trapReturn state) (.done v),
            .requested (.writeCsr swap) (.refused e)] e :=
          ⟨[], state, v, swap.value, by rw [← hcsr]; rfl⟩
        refine ⟨_, ?_, .swapRefused hflag rfl hlast⟩
        rw [List.append_cons]
        rw [hw] at hw'
        exact hw'
    · simp only [Act.bind_run, Act.mapError_run, hr, Act.next_error]
      exact ⟨[.requested (.trapReturn state) (.refused e)], hw, .stayed rfl⟩

theorem Env.applyReturn_reports (hback : env.Returns) {m : Memory} {plan : ReturnPlan}
    (hplan : a.prepareReturn autoswap m = .ok plan) :
    Reports id autoswap SyncError.host (fun _ => True) (env.applyReturn a plan) := by
  obtain ⟨_, hswap, _, _, _⟩ := Area.prepareReturn_ok hplan
  have hwrite : ∀ w, plan.swap = some w → autoswap = true ∧ w.csr = CsrNumber.hstatus := by
    intro w hw
    cases autoswap with
    | false => rw [show plan.swap = none from hswap] at hw; cases hw
    | true =>
      rw [hw] at hswap
      exact ⟨rfl, Check.swap_csr hswap⟩
  -- CSRs and fences come first, and a failure among them is one without a return
  refine (Env.applySlots_stays hback a _).bind_reports fun csrs => ?_
  refine ((Env.performFences_stays hback a _).mapError _).bind_reports fun fences => ?_
  refine (Env.leave_reports hback plan.state hwrite).bind_concludes fun _ _ => fun w => ?_
  exact ⟨⟨_, rfl, trivial⟩, rfl⟩

theorem Env.syncReturn_reports (hback : env.Returns) (flags : Word) (caller : Privilege)
    (enabled : Bool) :
    Reports Prod.snd (Word.bit flags 0) SyncError.host (fun _ => True)
      (env.syncReturn a flags caller enabled) := by
  rcases env.syncReturn_cases a flags caller enabled with ⟨e, _, he⟩ | hphases
  · rw [he]
    exact Reports.fail e
  · rw [hphases]
    rintro ⟨phase, w⟩
    cases phase with
    -- an earlier call was abandoned, so this one is refused
    | checking => exact ⟨[], (List.append_nil _).symm, .stayed rfl⟩
    | applying => exact ⟨[], (List.append_nil _).symm, .stayed rfl⟩
    | idle =>
      rw [inPhases_run_idle]
      cases hplan : a.prepareReturn (Word.bit flags 0) w.memory with
      | error e => exact ⟨[], (List.append_nil _).symm, .stayed rfl⟩
      | ok plan =>
        obtain ⟨new, hnew, hreport⟩ := Env.applyReturn_reports hback hplan w
        refine ⟨new, ?_⟩
        dsimp only
        revert hnew hreport
        rcases (env.applyReturn a plan).run w with ⟨r | e | _, w'⟩
        · exact fun hnew hreport => ⟨hnew, hreport⟩
        · exact fun hnew hreport => ⟨hnew, hreport⟩
        · exact fun hnew hreport => ⟨hnew, hreport⟩

end

/-! ## The call of a hart -/

namespace Hart

variable {env : Env σ} {cfg : Config}

theorem stays_of_events {x : Act (Hart × World σ) ε α} (hback : Returns x)
    (hx : ∀ st, (x.run st).2.2.events = st.2.events) : Stays Prod.snd x :=
  ⟨hback, fun st => ⟨[], by rw [hx, List.append_nil], rfl⟩⟩

theorem count_stays (c : Counter) (n : Nat) :
    Stays Prod.snd (count c n : Act (Hart × World σ) ε Unit) :=
  stays_of_events (Returns.modify _) fun _ => rfl

theorem requireArea_stays : Stays Prod.snd (requireArea : Act (Hart × World σ) SbiError Area) := by
  refine stays_of_events ((Returns.gets _).bind fun _ => (Returns.ofExcept _).mapError _) fun st => ?_
  unfold requireArea
  rw [Act.bind_run, Act.gets_run, Act.next_ok, Act.mapError_run_snd, Act.ofExcept_run_snd]

theorem requireFeature_stays (f : Feature) :
    Stays Prod.snd (requireFeature cfg f : Act (Hart × World σ) SbiError Unit) := by
  unfold requireFeature
  split
  · exact stays_of_events (Returns.pure _) fun _ => rfl
  · exact stays_of_events (Returns.fail _) fun _ => rfl

theorem logMessage_stays (l : LogLevel) (text : String) :
    Stays Prod.snd (onWorld (logMessage l text) : Act (Hart × World σ) ε Unit) :=
  stays_of_events (Returns.modify _).onSecond fun _ => rfl

theorem syncReturn_reports (hback : env.Returns) (flags : Word) (caller : Privilege) :
    Reports Prod.snd (Word.bit flags 0) HostError.sbi (· = .trapReturned)
      (syncReturn env cfg flags caller) := by
  refine (count_stays _ _).bind_reports fun _ => requireArea_stays.bind_reports fun a => ?_
  have hphase : Reports Prod.snd (Word.bit flags 0) SyncError.host (fun _ => True)
      (onPhase (env.syncReturn a flags caller (cfg.features.contains .autoswapCsr))) :=
    fun st => Env.syncReturn_reports hback flags caller _ (st.1.phase, st.2)
  exact (hphase.mapError SyncError.sbi).bind_concludes fun _ _ _ => ⟨⟨_, rfl, rfl⟩, rfl⟩

theorem handle_reports (hback : env.Returns) (id : Word) (claimed : List Word)
    (caller : Privilege) (flags : Word) :
    Reports Prod.snd (Word.bit flags 0) HostError.sbi (· = .trapReturned)
      (handle env cfg id claimed caller (.syncSret flags)) := by
  have hdispatch : Reports Prod.snd (Word.bit flags 0) HostError.sbi (· = .trapReturned)
      (dispatch env cfg id claimed caller (.syncSret flags)) :=
    (requireFeature_stays _).bind_reports fun _ => syncReturn_reports hback flags caller
  refine (logMessage_stays _ _).bind_reports fun _ => hdispatch.attempt_bind ?_ ?_
  · exact fun r hr _ => ⟨⟨r, rfl, hr⟩, rfl⟩
  · intro e st
    -- a denied call is counted as well
    cases e with
    | denied => exact ⟨rfl, rfl⟩
    | _ => exact ⟨rfl, rfl⟩

end Hart

/-! ## The environment call -/

theorem SwapRefused.returnsIn_ne_zero {new : List Event} {e : HostError} (h : SwapRefused new e) :
    returnsIn new ≠ 0 := by
  obtain ⟨before, t, v, x, rfl⟩ := h
  rw [returnsIn_append]
  exact Nat.ne_of_gt (Nat.lt_add_left _ Nat.one_pos)

theorem SwapRefused.unique {new : List Event} {e e' : HostError} (h : SwapRefused new e)
    (h' : SwapRefused new e') : e = e' := by
  obtain ⟨before, t, v, x, rfl⟩ := h
  obtain ⟨before', t', v', x', heq⟩ := h'
  have hlast := congrArg List.getLast? heq
  rw [List.append_cons, List.getLast?_concat, List.append_cons, List.getLast?_concat] at hlast
  cases hlast
  rfl

/-- How the action reported for a trap return relates to what the call has put on record. -/
structure ReturnVerdict (flags : Word) (action : EcallAction) (new : List Event) : Prop where
  /-- The host carries out one return at most. -/
  once : returnsIn new ≤ 1
  /-- Where a return is reported, the host has carried it out. -/
  reported : action = .trapReturn → returnsIn new = 1
  /-- The converse holds exactly if the host has not refused the swap afterwards. -/
  agrees_iff : (action = .trapReturn ↔ returnsIn new = 1) ↔ ∀ e, ¬SwapRefused new e
  /-- That takes the swap flag, and the caller is told of the host's error. -/
  refused : ∀ e, SwapRefused new e → Word.bit flags 0 = true ∧ action = .resume (.failure e.sbi)

variable {flags : Word} {action : EcallAction} {new : List Event}

theorem ReturnVerdict.of_stayed (haction : action ≠ .trapReturn) (hnone : returnsIn new = 0) :
    ReturnVerdict flags action new where
  once := hnone ▸ Nat.zero_le 1
  reported h := absurd h haction
  agrees_iff := by
    constructor
    · intro _ e hr
      exact hr.returnsIn_ne_zero hnone
    · intro _
      constructor
      · intro h
        exact absurd h haction
      · intro h
        rw [hnone] at h
        cases h
  refused _ h := absurd hnone h.returnsIn_ne_zero

theorem ReturnVerdict.of_left (haction : action = .trapReturn) (hone : returnsIn new = 1)
    (hswap : ∀ e, ¬SwapRefused new e) : ReturnVerdict flags action new where
  once := Nat.le_of_eq hone
  reported _ := hone
  agrees_iff := ⟨fun _ => hswap, fun _ => ⟨fun _ => hone, fun _ => haction⟩⟩
  refused e h := absurd h (hswap e)

theorem ReturnVerdict.of_swapRefused {e : HostError} (hflag : Word.bit flags 0 = true)
    (haction : action = .resume (.failure e.sbi)) (hone : returnsIn new = 1)
    (hlast : SwapRefused new e) : ReturnVerdict flags action new where
  once := Nat.le_of_eq hone
  reported _ := hone
  agrees_iff := by
    constructor
    · intro h
      have hreturn := h.2 hone
      rw [haction] at hreturn
      cases hreturn
    · intro h
      exact absurd hlast (h e)
  refused e' h := ⟨hflag, h.unique hlast ▸ haction⟩

namespace Platform

variable {env : Env σ}

theorem handle_reports (hback : env.Returns) (id : Word) (caller : Privilege) (flags : Word) :
    Reports Prod.snd (Word.bit flags 0) HostError.sbi (· = .trapReturned)
      (handle env id caller (.syncSret flags)) := by
  rintro ⟨p, w⟩
  unfold handle
  rw [Act.bind_run, Act.gets_run, Act.next_ok]
  cases hh : p.hart? id with
  | none =>
    rw [onHart_run_none hh]
    exact ⟨[], (List.append_nil _).symm, .stayed rfl⟩
  | some h =>
    rw [onHart_run hh]
    exact Hart.handle_reports hback id p.claimed caller flags (h, w)

theorem answer_syncReturn (hback : env.Returns) (id : Word) (caller : Privilege) (flags : Word)
    (st : Platform × World σ) :
    ∃ action st' new,
      (answer env id caller (.syncSret flags) : Act _ ε _).run st = (.ok action, st') ∧
      st'.2.events = st.2.events ++ new ∧ ReturnVerdict flags action new := by
  obtain ⟨new, hnew, hreport⟩ := handle_reports hback id caller flags st
  unfold answer
  simp only [Act.bind_run, Act.gets_run, Act.next_ok]
  cases hh : st.1.hart? id with
  | none =>
    have hverdict : ReturnVerdict flags .unhandled [] := .of_stayed (fun h => by cases h) rfl
    exact ⟨_, _, _, rfl, (List.append_nil _).symm, hverdict⟩
  | some h =>
    rw [if_neg (by simp), Act.bind_run, Act.attempt_run]
    rcases hr : (handle env id caller (.syncSret flags)).run st with ⟨r, st'⟩
    rw [hr] at hnew hreport
    have hleft : ∀ a, r = .ok a → ∀ e, ¬SwapRefused new e := by
      rintro a rfl e
      exact hreport.not_swapRefused
    cases hreport with
    | stayed hnone => exact ⟨_, _, _, rfl, hnew, .of_stayed (fun h => by cases h) hnone⟩
    | left ha hone =>
      cases ha
      exact ⟨_, _, _, rfl, hnew, .of_left rfl hone (hleft _ rfl)⟩
    | swapRefused hflag hone hlast => exact ⟨_, _, _, rfl, hnew, .of_swapRefused hflag rfl hone hlast⟩

/-- **What a trap return reports agrees with what the host has done exactly if the host has not refused
    to write `hstatus` afterwards.** Where it has, the caller is told of a failure and is sent to the new
    context all the same. -/
theorem ecall_syncReturn (hback : env.Returns) {rs : Registers} {flags : Word}
    (hrs : Call.ofRegisters rs = .ok (.accel (.syncSret flags))) (id : Word) (caller : Privilege)
    (st : Platform × World σ) :
    ∃ action st' new,
      (ecall env id caller rs : Act _ ε _).run st = (.ok (action, action.deliver rs), st') ∧
      st'.2.events = st.2.events ++ new ∧ ReturnVerdict flags action new := by
  obtain ⟨action, st', new, hrun, hnew, hverdict⟩ := answer_syncReturn hback id caller flags st
  refine ⟨action, st', new, ?_, hnew, hverdict⟩
  unfold ecall
  rw [hrs]
  dsimp only
  rw [Act.bind_run, hrun]
  rfl

/-- A hart with an area at address zero, in which the guest hypervisor has asked for a trap return with
    a swap. -/
def ready (n : Nat) : Platform × World Nat :=
  let st := (Operation.establish 0 Session.keepFlag).run (Env.refusing n) 0
    ({ config := {}, harts := #[{}] }, { state := 0, memory := .zero })
  (st.1, { st.2 with
    state := 0
    memory := (((Memory.zero.write 0 1).write 33 0x200000000).write 64 1).write 65 0x200000000 })

/-- The registers of a trap return call with the swap flag. -/
def readyCall : Registers :=
  ((Registers.zero.set Reg.a0 1).set Reg.a6 4).set Reg.a7 AccelCall.extension

theorem ready_reachable (n : Nat) : Reachable (Env.refusing n) {} (ready n) :=
  .elsewhere (.step (.new rfl rfl) 0 (.establish 0 Session.keepFlag)) _ _

/-- A call in which the host refuses nothing. -/
theorem ecall_syncReturn_ready :
    (Env.refusing 9).Returns ∧ Call.ofRegisters readyCall = .ok (.accel (.syncSret 1)) ∧
    ∃ action st' new,
      (ecall (Env.refusing 9) 0 .supervisor readyCall : Act _ Empty _).run (ready 9) =
        (.ok (action, action.deliver readyCall), st') ∧
      st'.2.events = (ready 9).2.events ++ new ∧ ReturnVerdict 1 action new :=
  ⟨Env.refusing_returns 9, rfl,
    ecall_syncReturn (Env.refusing_returns 9) rfl 0 .supervisor (ready 9)⟩

/-- A call in which the host refuses the swap: it has left, and the caller is told of an error. -/
theorem ecall_syncReturn_swapRefused :
    Reachable (Env.refusing 2) {} (ready 2) ∧ returnsIn (ready 2).2.events = 0 ∧
    ((ecall (Env.refusing 2) 0 .supervisor readyCall : Act _ Empty _).run (ready 2)).1 =
      .ok (.resume (.failure .io), (EcallAction.resume (.failure .io)).deliver readyCall) ∧
    returnsIn
      ((ecall (Env.refusing 2) 0 .supervisor readyCall : Act _ Empty _).run (ready 2)).2.2.events
        = 1 := by
  refine ⟨ready_reachable 2, rfl, ?_, ?_⟩
  · rfl
  · rfl

end Platform

end NestedAccel
