import Mathlib.Algebra.Order.Group.Multiset
import NestedAccel.Proofs.Accesses
import NestedAccel.Proofs.Registration

/-!
# `NestedAccel.Proofs.HeldRanges` — ranges of guest memory are given back

A range is asked for to register an area, or to run a batch, and there are several ways out between getting it
and giving it back. The record of calls is read as a ledger: `Leads M events M'` says that the events take the
ranges held from `M` to `M'` and **never give back a range that is not held**. It has no rule for that, so a
record with such an event leads nowhere.

A call of a hart leads from what is held to the same (`Hart.handle_evens`), unless the host does not come back
in the middle of it; a registration adds one range and a release removes it. So in every reachable state the
ranges held are those of the registered areas (`Platform.Reachable.settled`).
-/

namespace NestedAccel

open Act (Moves)
open Hart (Follows Permits)

variable {σ ε α : Type}

/-! ## The ledger -/

/-- A range of guest memory, by its address and its number of bytes. -/
abbrev Range := Word × Word

namespace Event

/-- The range that the event has given access to. -/
def gained? : Event → Option Range
  | .mapped gpa len (.ok _) => some (gpa, len)
  | _ => none

/-- The range that the event has given back. -/
def returned? : Event → Option Range
  | .unmapped gpa len => some (gpa, len)
  | _ => none

end Event

/-- The ranges that have been mapped, each as often as it has been. -/
def rangesMapped (events : List Event) : Multiset Range := ↑(events.filterMap Event.gained?)

/-- The ranges that have been unmapped, each as often as it has been. -/
def rangesUnmapped (events : List Event) : Multiset Range := ↑(events.filterMap Event.returned?)

/-- The events take the ranges held from one multiset to another. -/
inductive Leads : Multiset Range → List Event → Multiset Range → Prop where
  | nil (M : Multiset Range) : Leads M [] M
  | requested {M M' : Multiset Range} {events : List Event} (q : Request) (r : Reply)
    (h : Leads M events M') : Leads M (.requested q r :: events) M'
  | refused {M M' : Multiset Range} {events : List Event} (gpa len : Word) (e : MapError)
    (h : Leads M events M') : Leads M (.mapped gpa len (.error e) :: events) M'
  | mapped {M M' : Multiset Range} {events : List Event} {gpa len : Word} (m : Mapping)
    (h : Leads ((gpa, len) ::ₘ M) events M') : Leads M (.mapped gpa len (.ok m) :: events) M'
  /-- Only a range that is held can be given back. -/
  | unmapped {M M' : Multiset Range} {events : List Event} {gpa len : Word} (h : Leads M events M') :
    Leads ((gpa, len) ::ₘ M) (.unmapped gpa len :: events) M'

namespace Leads

variable {M M' M'' : Multiset Range} {events more : List Event}

theorem append (h : Leads M events M') (h' : Leads M' more M'') : Leads M (events ++ more) M'' := by
  induction h with
  | nil _ => exact h'
  | requested q r _ ih => exact .requested q r (ih h')
  | refused gpa len e _ ih => exact .refused gpa len e (ih h')
  | mapped m _ ih => exact .mapped m (ih h')
  | unmapped _ ih => exact .unmapped (ih h')

theorem split (h : Leads M (events ++ more) M'') : ∃ M', Leads M events M' ∧ Leads M' more M'' := by
  induction events generalizing M with
  | nil => exact ⟨M, .nil M, h⟩
  | cons e events ih =>
    cases h with
    | requested q r h =>
      obtain ⟨M', h, h'⟩ := ih h
      exact ⟨M', .requested q r h, h'⟩
    | refused gpa len e h =>
      obtain ⟨M', h, h'⟩ := ih h
      exact ⟨M', .refused gpa len e h, h'⟩
    | mapped m h =>
      obtain ⟨M', h, h'⟩ := ih h
      exact ⟨M', .mapped m h, h'⟩
    | unmapped h =>
      obtain ⟨M', h, h'⟩ := ih h
      exact ⟨M', .unmapped h, h'⟩

/-- What was held and what has come in is what has gone out and what is held. -/
theorem balance (h : Leads M events M') : M + rangesMapped events = rangesUnmapped events + M' := by
  induction h with
  | nil M => simp [rangesMapped, rangesUnmapped]
  | requested q r _ ih => exact ih
  | refused gpa len e _ ih => exact ih
  | @mapped M M' events gpa len m _ ih =>
    have hcons : rangesMapped (.mapped gpa len (.ok m) :: events) =
        (gpa, len) ::ₘ rangesMapped events := rfl
    rw [hcons, Multiset.add_cons, ← Multiset.cons_add]
    exact ih
  | @unmapped M M' events gpa len _ ih =>
    have hcons : rangesUnmapped (.unmapped gpa len :: events) =
        (gpa, len) ::ₘ rangesUnmapped events := rfl
    rw [hcons, Multiset.cons_add, Multiset.cons_add]
    exact congrArg _ ih

theorem requests (hnew : ∀ e ∈ events, e.IsRequest) (M : Multiset Range) : Leads M events M := by
  induction events with
  | nil => exact .nil M
  | cons e events ih =>
    obtain ⟨q, r, rfl⟩ := hnew e List.mem_cons_self
    exact .requested q r (ih fun e he => hnew e (List.mem_cons_of_mem _ he))

/-- From nothing, what is held is what has been mapped and not unmapped. -/
theorem held (h : Leads 0 events M) : rangesMapped events - rangesUnmapped events = M := by
  have hbalance := h.balance
  rw [zero_add] at hbalance
  rw [hbalance, add_tsub_cancel_left]

/-- Every range has been given back while it was held. -/
theorem mem_of_unmapped {before after : List Event} {gpa len : Word}
    (h : Leads 0 (before ++ .unmapped gpa len :: after) M) :
    (gpa, len) ∈ rangesMapped before - rangesUnmapped before := by
  obtain ⟨M', hbefore, hafter⟩ := h.split
  rw [hbefore.held]
  cases hafter with
  | unmapped _ => exact Multiset.mem_cons_self _ _

end Leads

/-! ## Calls -/

/-- What has happened between the worlds leads from any ranges held to the same, or the host has not come
    back. -/
def Evens (w w' : World σ) : Prop :=
  ∃ new, w'.events = w.events ++ new ∧ (Lost new ∨ ∀ M, Leads M new M)

instance : IsPreorder (World σ) Evens where
  refl w := ⟨[], (List.append_nil _).symm, .inr .nil⟩
  trans w₁ w₂ w₃ := by
    rintro ⟨new, hevents, heven⟩ ⟨more, hevents', heven'⟩
    refine ⟨new ++ more, by rw [hevents', hevents, List.append_assoc], ?_⟩
    rcases heven with hlost | hleads
    · exact .inl (lost_append.2 (.inl hlost))
    · rcases heven' with hlost | hleads'
      · exact .inl (lost_append.2 (.inr hlost))
      · exact .inr fun M => (hleads M).append (hleads' M)

section
variable {env : Env σ}

theorem SyncCall.act_evens (call : SyncCall α) (a : Area) (st : Phase × World σ) :
    Evens st.2 ((call.act env a).run st).2.2 := by
  have hconfined : ConfinedFrom env (.requesting fun _ => True) (call.act env a) st :=
    call.act_confined (fun _ _ => trivial) st
  obtain ⟨new, hevents, hnew, _⟩ := hconfined.events
  exact ⟨new, hevents, .inr (.requests hnew)⟩

/-- An array is given back if it has been mapped, unless the host does not come back. -/
theorem Env.runArray_evens (env : Env σ) (harts : Nat) (a : Area) (addr count : Word) :
    Moves Evens (env.runArray harts a addr count) := by
  intro w
  rw [Env.runArray_run]
  cases hm : (env.map addr (Descriptor.arrayBytes count) w.state).1 with
  | error e =>
    refine ⟨[.mapped addr (Descriptor.arrayBytes count) (.error e)], ?_, .inr fun M => ?_⟩
    · simp [World.afterMap, hm]
    · exact .refused addr _ e (.nil M)
  | ok m =>
    -- while it is mapped, the array is run with requests only
    have hmapped : Confined env (.requesting fun _ => True) (env.runMapped harts a addr count.toNat m)
        (w.afterMap env addr (Descriptor.arrayBytes count)) :=
      Env.runMapped_confined (fun _ _ => trivial) harts addr count.toNat m (fun _ _ _ => trivial) _
    obtain ⟨new, hevents, hnew, hlost⟩ := hmapped.events
    have hbefore : (w.afterMap env addr (Descriptor.arrayBytes count)).events =
        w.events ++ [.mapped addr (Descriptor.arrayBytes count) (.ok m)] := by
      simp [World.afterMap, hm]
    rw [hbefore, List.append_assoc] at hevents
    have hreturned : ∀ M, Leads M ([.mapped addr (Descriptor.arrayBytes count) (.ok m)] ++ new ++
        [.unmapped addr (Descriptor.arrayBytes count)]) M := fun M =>
      ((Leads.mapped m (.nil _)).append (.requests hnew _)).append (.unmapped (.nil M))
    dsimp only
    rcases hr : (env.runMapped harts a addr count.toNat m).run
      (w.afterMap env addr (Descriptor.arrayBytes count)) with ⟨_ | _ | _, w'⟩
    · rw [hr] at hevents
      dsimp only at hevents
      refine ⟨_, ?_, .inr hreturned⟩
      simp [World.record, hevents]
    · rw [hr] at hevents
      dsimp only at hevents
      refine ⟨_, ?_, .inr hreturned⟩
      simp [World.record, hevents]
    · rw [hr] at hevents hlost
      exact ⟨_, hevents, .inl (lost_append.2 (.inr (hlost rfl)))⟩

theorem Env.runBatch_evens (env : Env σ) (harts maxBatch : Nat) (area : Option Area)
    (claimed : List Word) (addr count : Word) :
    Moves Evens (env.runBatch harts maxBatch area claimed addr count) := by
  cases area with
  | none => exact Moves.fail _
  | some a =>
    rcases env.runBatch_cases harts maxBatch a claimed addr count with
      ⟨_, e, hrefused⟩ | ⟨_, _, hempty⟩ | ⟨_, _, hruns⟩
    · rw [hrefused]
      exact Moves.fail e
    · rw [hempty]
      exact Moves.pure _
    · rw [hruns]
      exact env.runArray_evens harts a addr count

end

namespace Hart

variable {env : Env σ} {cfg : Config} {claimed : List Word} {area : Option Area} {call : AccelCall}

theorem permits_evens : Permits env cfg claimed area call Evens where
  message w console := ⟨[], (List.append_nil _).symm, .inr .nil⟩
  csrs low high _ a _ st := SyncCall.act_evens (.csrs ⟨low, high⟩) a st
  hfences index _ a _ st := SyncCall.act_evens (.hfences index) a st
  sret flags _ a _ caller enabled st := SyncCall.act_evens (.sret flags caller enabled) a st
  batch _ addr len _ := Env.runBatch_evens env cfg.harts cfg.maxBatch area claimed addr len
  inject _ _ _ _ _ i _ w := by
    rw [World.request_run]
    exact ⟨_, rfl, .inr fun M => .requested _ _ (.nil M)⟩

/-- **A call holds afterwards what it has held before,** unless the host does not come back. -/
theorem handle_evens (env : Env σ) (cfg : Config) (id : Word) (claimed : List Word) (caller : Privilege)
    (call : AccelCall) (h : Hart) (w : World σ) :
    Evens w ((handle env cfg id claimed caller call).run (h, w)).2.2 :=
  (handle_follows permits_evens (fun a _ st => SyncCall.act_evens (.csrs .all) a st) id caller (h, w)
    rfl).2

end Hart

/-! ## Platforms -/

namespace Platform

variable {env : Env σ} {config : Config} {p : Platform} {id : Word} {st st' : Platform × World σ}

/-- The ranges of the registered areas. -/
def established (p : Platform) : Multiset Range := ↑(p.claims.map fun c => (c.gpa, areaBytes))

theorem established_enter (id : Word) (h : Hart) (a : Area) :
    (p.enter id h a).established = (a.gpa, areaBytes) ::ₘ p.established := by
  unfold established enter
  rw [List.map_append, ← Multiset.coe_add, add_comm]
  rfl

theorem Registered.mem_established (hp : p.Registered) {r : Range} :
    r ∈ p.established ↔
      ∃ id hart g, p.hart? id = some hart ∧ hart.session.gpa? = some g ∧ r = (g, areaBytes) := by
  unfold established
  rw [Multiset.mem_coe, List.mem_map]
  constructor
  · rintro ⟨c, hc, rfl⟩
    obtain ⟨hart, hh, hgpa⟩ := Option.bind_eq_some_iff.1 ((hp.claim_iff c.hart c.gpa).1 hc)
    exact ⟨c.hart, hart, c.gpa, hh, hgpa, rfl⟩
  · rintro ⟨id, hart, g, hh, hgpa, rfl⟩
    exact ⟨⟨id, g⟩, (hp.claim_iff id g).2 ((areaOf?_of_hart? hh).trans hgpa), rfl⟩

/-- No range is registered twice. -/
theorem Registered.established_nodup (hp : p.Registered) : p.established.Nodup := by
  refine Multiset.coe_nodup.2 (List.Nodup.map_on (fun c hc c' hc' heq => ?_) (List.Nodup.of_map _ hp.once))
  have hgpa : c.gpa = c'.gpa := congrArg Prod.fst heq
  have hhart := hp.hart_eq hc hc' hgpa
  cases c
  cases c'
  subst hgpa hhart
  rfl

/-- A claim, and the claims of the other harts. -/
theorem perm_cons_filter {claims : List Claim} {c : Claim} (honce : (claims.map Claim.hart).Nodup)
    (hc : c ∈ claims) : claims.Perm (c :: claims.filter fun c' => c'.hart != c.hart) := by
  induction claims with
  | nil => cases hc
  | cons c' rest ih =>
    obtain ⟨hnot, hrest⟩ := List.nodup_cons.1 honce
    rcases List.mem_cons.1 hc with rfl | hc
    · have hothers : rest.filter (fun c' => c'.hart != c.hart) = rest := by
        refine List.filter_eq_self.2 fun c' hc' => bne_iff_ne.2 fun heq => hnot ?_
        exact List.mem_map.2 ⟨c', hc', heq⟩
      rw [List.filter_cons_of_neg (by simp), hothers]
    · have hne : c'.hart ≠ c.hart := fun heq => hnot (List.mem_map.2 ⟨c, hc, heq.symm⟩)
      have hkept : (c'.hart != c.hart) = true := bne_iff_ne.2 hne
      rw [List.filter_cons, if_pos hkept]
      exact ((ih hrest hc).cons c').trans (List.Perm.swap _ _ _)

/-- What a hart's area adds to the ranges is taken away with it. -/
theorem Registered.established_leave (hp : p.Registered) {h : Hart} (hh : p.hart? id = some h) {a : Area}
    (harea : h.session.area = some a) :
    p.established = (a.gpa, areaBytes) ::ₘ (p.leave id h).established := by
  exact Multiset.coe_eq_coe.2 ((perm_cons_filter hp.once (hp.mem_claims hh harea)).map _)

/-- A registration that fails holds what has been held before. -/
theorem NotHeld.leads {gpa len : Word} {events : List Event} (h : NotHeld gpa len events)
    (M : Multiset Range) : Leads M events M := by
  cases h with
  | unasked => exact .nil M
  | refused e => exact .refused gpa len e (.nil M)
  | returned m => exact .mapped m (.unmapped (.nil M))

/-- The ranges held are those of the registered areas, unless the host has not come back. -/
def Settled (st : Platform × World σ) : Prop :=
  Lost st.2.events ∨ Leads 0 st.2.events st.1.established

theorem Settled.next {w : World σ} (h : Settled (p, w)) (new : List Event)
    (hevents : st'.2.events = w.events ++ new)
    (hnew : Lost new ∨ Leads p.established new st'.1.established) : Settled st' := by
  unfold Settled
  rw [hevents]
  rcases h with hlost | hleads
  · exact .inl (lost_append.2 (.inl hlost))
  · rcases hnew with hlost | hnew
    · exact .inl (lost_append.2 (.inr hlost))
    · exact .inr (hleads.append hnew)

theorem Registration.settled {gpa flags : Word} {w : World σ}
    {out : Outcome PlatformError Unit × (Platform × World σ)}
    (hout : Registration env id gpa flags p w out) (h : Settled (p, w)) : Settled out.2 := by
  by_cases hok : out.1 = .ok ()
  · cases hout with
    | @done h' m console hadmits hm haligned =>
      refine h.next _ rfl (.inr ?_)
      rw [established_enter, hm]
      exact .mapped m (.nil _)
    | _ => cases hok
  · obtain ⟨_, hplatform, _, new, hevents, hheld⟩ := hout.failed hok
    refine h.next new hevents (.inr ?_)
    rw [hplatform]
    exact hheld.leads _

theorem Step.settled (hstep : Step env id st st') (hp : st.1.Registered) (h : Settled st) : Settled st' := by
  cases hstep with
  | @call p w hart hh caller call =>
    obtain ⟨new, hevents, heven⟩ := Hart.handle_evens env p.config id p.claimed caller call hart w
    rw [handle_run env hh]
    exact h.next new hevents (heven.imp_right fun heven => heven p.established)
  | establish hout => exact hout.settled h
  | @release p w hart a console hh harea =>
    refine h.next [.unmapped a.gpa areaBytes] rfl (.inr ?_)
    rw [hp.established_leave hh harea]
    exact .unmapped (.nil _)
  | resetMode hh => exact h.next [] (List.append_nil _).symm (.inr (.nil _))

theorem Reachable.settled (h : Reachable env config st) : Settled st := by
  refine h.step_invariant (fun p w hp hw => .inr ?_) (fun _ _ _ hp hI hstep => hstep.settled hp hI)
    fun _ _ _ _ hI => hI
  obtain ⟨_, rfl⟩ := create_ok hp
  rw [show w.events = [] from hw]
  exact .nil 0

end Platform

end NestedAccel
