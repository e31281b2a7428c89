import NestedAccel.Proofs.FenceList
import NestedAccel.Proofs.Footprint

/-!
# `NestedAccel.Proofs.FenceRuns` — fences performed, and the entries they came from

`Settles a seen w w'` is what a part of a call may do to the fences of an area: the host has seen the
fences `seen`, in this order, and the list has lost one entry for each that the host has carried out. The
relation composes, and the lists are then appended; with the empty list it is a preorder, so what never
asks for a fence is dealt with by the rules of `Proofs.Computation`.

`Shows world a Q x st` says how much of a plan the host sees in one run. The plan is the list of fences
that the call selects: a synchronization call goes through it in order and breaks off at the first failure
(`InOrder`); a batch goes through it in turn, and a failure does not stop it (`InTurn`).
-/

namespace NestedAccel

open World (Reaches)
open Act (Moves)

variable {σ s ε ε' α β : Type}

/-! ## The record -/

/-- The fence asked for. -/
def Request.fence? : Request → Option Fence
  | .fence f => some f
  | _ => none

/-- The fences that the host was asked to perform. -/
def fencesSeen (events : List Event) : List Fence := (requestsMade events).filterMap Request.fence?

/-- The fences that the host has performed. -/
def fencesDone (events : List Event) : List Fence := (requestsDone events).filterMap Request.fence?

@[simp] theorem fencesSeen_append (old new : List Event) :
    fencesSeen (old ++ new) = fencesSeen old ++ fencesSeen new := by simp [fencesSeen]

@[simp] theorem fencesDone_append (old new : List Event) :
    fencesDone (old ++ new) = fencesDone old ++ fencesDone new := by simp [fencesDone]

theorem fencesSeen_eq_nil {events : List Event}
    (h : ∀ q r, .requested q r ∈ events → q.fence? = none) : fencesSeen events = [] := by
  refine List.filterMap_eq_nil_iff.2 fun q hq => ?_
  obtain ⟨e, he, heq⟩ := List.mem_filterMap.1 hq
  cases e with
  | requested q' r =>
    cases heq
    exact h _ r he
  | mapped => cases heq
  | unmapped => cases heq

theorem fencesDone_eq_nil {events : List Event}
    (h : ∀ q r, .requested q r ∈ events → q.fence? = none) : fencesDone events = [] := by
  refine List.filterMap_eq_nil_iff.2 fun q hq => ?_
  obtain ⟨e, he, heq⟩ := List.mem_filterMap.1 hq
  cases e with
  | requested q' r =>
    cases r with
    | done v =>
      cases heq
      exact h _ _ he
    | refused => cases heq
    | lost => cases heq
  | mapped => cases heq
  | unmapped => cases heq

/-! ## What becomes of the list -/

/-- Every entry of the fence list passes its check. -/
def Area.ListValid (a : Area) (m : Memory) : Prop := ∀ s, a.FenceValid m s

/-- From `w` to `w'` the host has seen the fences `seen`, in this order, and the list has lost the ones
    among them that the host has carried out. -/
structure Settles (a : Area) (seen : List Fence) (w w' : World σ) : Prop where
  valid : a.ListValid w.memory → a.ListValid w'.memory
  /-- An entry no longer pending has been seen. -/
  entries : ∀ s, a.fence? w'.memory s = a.fence? w.memory s ∨
    a.fence? w'.memory s = none ∧ ∃ f ∈ seen, a.fence? w.memory s = some f
  record : ∃ new, w'.events = w.events ++ new ∧ fencesSeen new = seen ∧
    (fencesDone new : Multiset Fence) + a.pendingOf w'.memory = a.pendingOf w.memory

namespace Settles

variable {a : Area} {w w' w'' : World σ} {first second : List Fence}

/-- Nothing has been seen, and the list is as it was. -/
theorem of_same {new : List Event} (hevents : w'.events = w.events ++ new)
    (hnew : ∀ q r, .requested q r ∈ new → q.fence? = none)
    (hsame : ∀ s, a.fenceEntry w'.memory s = a.fenceEntry w.memory s) : Settles a [] w w' where
  valid h s := (Area.fenceValid_congr (hsame s)).2 (h s)
  entries s := .inl (Area.fence?_congr (hsame s))
  record := by
    refine ⟨new, hevents, fencesSeen_eq_nil hnew, ?_⟩
    rw [fencesDone_eq_nil hnew, Area.pendingOf_congr fun s => Area.fence?_congr (hsame s)]
    exact zero_add _

theorem refl (a : Area) (w : World σ) : Settles a [] w w :=
  of_same (List.append_nil _).symm (fun _ _ h => absurd h List.not_mem_nil) fun _ => rfl

theorem trans (h : Settles a first w w') (h' : Settles a second w' w'') :
    Settles a (first ++ second) w w'' where
  valid hvalid := h'.valid (h.valid hvalid)
  entries s := by
    rcases h'.entries s with hs | ⟨hs, f, hf, hs'⟩
    · rw [hs]
      rcases h.entries s with hs' | ⟨hs', f, hf, hs''⟩
      · exact .inl hs'
      · exact .inr ⟨hs', f, List.mem_append_left _ hf, hs''⟩
    · rcases h.entries s with hs'' | ⟨hs'', _⟩
      · exact .inr ⟨hs, f, List.mem_append_right _ hf, by rw [← hs'', hs']⟩
      · rw [hs''] at hs'
        cases hs'
  record := by
    obtain ⟨new, hnew, hseen, hdone⟩ := h.record
    obtain ⟨more, hmore, hseen', hdone'⟩ := h'.record
    refine ⟨new ++ more, ?_, ?_, ?_⟩
    · rw [hmore, hnew, List.append_assoc]
    · rw [fencesSeen_append, hseen, hseen']
    · rw [fencesDone_append, ← Multiset.coe_add, add_assoc, hdone', hdone]

/-- With nothing seen, every entry is as it was. -/
theorem fence?_eq (h : Settles a [] w w') (s : FenceSlot) :
    a.fence? w'.memory s = a.fence? w.memory s := by
  rcases h.entries s with hs | ⟨_, f, hf, _⟩
  · exact hs
  · exact absurd hf List.not_mem_nil

end Settles

instance {a : Area} : IsPreorder (World σ) (Settles a []) where
  refl w := .refl a w
  trans _ _ _ h h' := h.trans h'

section
variable {env : Env σ} {a : Area} {w w' : World σ}

/-- Moves that ask for no fence and write no word of the fence list settle nothing. -/
theorem Settles.of_reaches (hquiet : env.Quiet)
    (h : Reaches env (fun q => q.fence? = none) (fun b => ¬a.InFenceList b) w w') :
    Settles a [] w w' := by
  obtain ⟨new, hevents, hnew⟩ := h.events
  refine .of_same hevents hnew fun s => Area.fenceEntry_congr (fun b hb => ?_) s
  exact h.read_eq hquiet fun hnot => hnot hb

/-- The fences are not touched, and nothing outside the area is written. -/
structure Silent (a : Area) (w w' : World σ) : Prop where
  settles : Settles a [] w w'
  outside : ∀ b, ¬a.Owns b → w'.memory.read b = w.memory.read b

instance {a : Area} : IsPreorder (World σ) (Silent a) where
  refl w := ⟨.refl a w, fun _ _ => rfl⟩
  trans _ _ _ h h' := ⟨h.settles.trans h'.settles, fun b hb => (h'.outside b hb).trans (h.outside b hb)⟩

theorem Area.not_inFenceList_bitmapBase (a : Area) (i : Fin 16) :
    ¬a.InFenceList (a.bitmapBase i) := by
  unfold Area.InFenceList Area.bitmapBase
  omega

theorem Area.not_inFenceList_swapValue (a : Area) : ¬a.InFenceList (a.swapBase + 1) := by
  unfold Area.InFenceList Area.swapBase
  omega

theorem Area.owns_of_inFenceList {b : Nat} (h : a.InFenceList b) : a.Owns b := by
  unfold Area.InFenceList at h
  unfold Area.Owns Area.words
  omega

/-- Moves that write a word of the bitmap at most, and ask for no fence, are silent. -/
theorem Silent.of_reaches (hquiet : env.Quiet)
    (h : Reaches env (fun q => q.fence? = none) (fun b => ∃ i, b = a.bitmapBase i) w w') :
    Silent a w w' := by
  constructor
  · refine .of_reaches hquiet (h.mono (fun _ hq => hq) ?_)
    rintro b ⟨i, rfl⟩
    exact a.not_inFenceList_bitmapBase i
  · intro b hb
    refine h.read_eq hquiet ?_
    rintro ⟨i, rfl⟩
    exact hb (a.owns_bitmapBase i)

/-- Applying CSRs is silent. -/
theorem Env.applySlots_silent (hquiet : env.Quiet) (a : Area) (slots : List CsrSlot) :
    Moves (Silent a) (env.applySlots a slots) := fun w =>
  .of_reaches hquiet (Env.applySlots_moves (fun _ _ _ _ => rfl) (fun i => ⟨i, rfl⟩) slots w)

theorem Env.syncCsrs_silent (hquiet : env.Quiet) (a : Area) (mask : SlotMask) (st : Phase × World σ) :
    Silent a st.2 ((env.syncCsrs a mask).run st).2.2 :=
  .of_reaches hquiet (Env.syncCsrs_reaches (fun _ _ _ _ => rfl) (fun i => ⟨i, rfl⟩) mask st)

/-- Asking for anything but a fence is silent. -/
theorem Env.request_silent (hquiet : env.Quiet) {q : Request} (hq : q.fence? = none) :
    Moves (Silent a) (env.request q) := fun w => .of_reaches hquiet (Env.request_moves hq w)

end

/-! ## Plans -/

/-- The host sees the plan from its start, and all of it if the call has a result. -/
def InOrder (plan : List Fence) (ok : Bool) (seen : List Fence) : Prop :=
  seen <+: plan ∧ (ok = true → seen = plan)

/-- The host sees a part of the plan in the order of the plan, and every fence of it if the call has a
    result. -/
def InTurn (plan : List Fence) (ok : Bool) (seen : List Fence) : Prop :=
  seen.Sublist plan ∧ (ok = true → ∀ f ∈ plan, f ∈ seen)

/-- What can be asked of the fences seen: a failure may come at any time. -/
structure Aim (Q : Bool → List Fence → Prop) : Prop where
  nothing : Q false []
  weaken : ∀ seen, Q true seen → Q false seen

theorem inOrder_aim (plan : List Fence) : Aim (InOrder plan) where
  nothing := ⟨List.nil_prefix, fun h => by cases h⟩
  weaken _ h := ⟨h.1, fun h => by cases h⟩

theorem inTurn_aim (plan : List Fence) : Aim (InTurn plan) where
  nothing := ⟨List.nil_sublist _, fun h => by cases h⟩
  weaken _ h := ⟨h.1, fun h => by cases h⟩

/-- In the run from `st`, the host sees fences as `Q` asks, and the list settles. -/
def Shows (world : s → World σ) (a : Area) (Q : Bool → List Fence → Prop) (x : Act s ε α) (st : s) :
    Prop :=
  ∃ seen, Settles a seen (world st) (world (x.run st).2) ∧ Q (x.run st).1.isOk seen

namespace Shows

variable {world : s → World σ} {a : Area} {Q : Bool → List Fence → Prop} {x : Act s ε α} {st : s}

theorem fail (hQ : Aim Q) (e : ε) (st : s) : Shows world a Q (Act.fail e : Act s ε α) st :=
  ⟨[], .refl a _, hQ.nothing⟩

theorem settles_bind {f : α → Act s ε β} (hQ : Aim Q)
    (hx : Settles a [] (world st) (world (x.run st).2))
    (hf : ∀ b st', x.run st = (.ok b, st') → Shows world a Q (f b) st') :
    Shows world a Q (x >>= f) st := by
  unfold Shows
  rw [Act.bind_run]
  rcases hr : x.run st with ⟨r, st'⟩
  rw [hr] at hx
  cases r with
  | ok b =>
    obtain ⟨seen, hseen, hq⟩ := hf b st' hr
    exact ⟨seen, hx.trans hseen, hq⟩
  | error e => exact ⟨[], hx, hQ.nothing⟩
  | abandoned => exact ⟨[], hx, hQ.nothing⟩

theorem bind_settles {f : α → Act s ε β} (hQ : Aim Q) (hx : Shows world a Q x st)
    (hf : ∀ b st', Settles a [] (world st') (world ((f b).run st').2)) :
    Shows world a Q (x >>= f) st := by
  obtain ⟨seen, hseen, hq⟩ := hx
  unfold Shows
  rw [Act.bind_run]
  rcases hr : x.run st with ⟨r, st'⟩
  rw [hr] at hseen hq
  cases r with
  | ok b =>
    refine ⟨seen ++ [], hseen.trans (hf b st'), ?_⟩
    rw [List.append_nil, Act.next_ok]
    cases ((f b).run st').1.isOk with
    | true => exact hq
    | false => exact hQ.weaken _ hq
  | error e => exact ⟨seen, hseen, hq⟩
  | abandoned => exact ⟨seen, hseen, hq⟩

theorem mapError (hx : Shows world a Q x st) (f : ε → ε') : Shows world a Q (Act.mapError f x) st := by
  obtain ⟨seen, hseen, hq⟩ := hx
  unfold Shows
  rw [Act.mapError_run]
  rcases hr : x.run st with ⟨_ | _ | _, st'⟩ <;> rw [hr] at hseen hq <;> exact ⟨seen, hseen, hq⟩

/-- A computation whose error is looked at and then failed with again. -/
theorem attempt_bind {k : Except ε α → Act s ε' β} (hQ : Aim Q) (hx : Shows world a Q x st)
    (hk : ∀ r st', Settles a [] (world st') (world ((k r).run st').2))
    (herr : ∀ e st', ((k (.error e)).run st').1.isOk = false) :
    Shows world a Q (Act.attempt x >>= k) st := by
  obtain ⟨seen, hseen, hq⟩ := hx
  unfold Shows
  rw [Act.bind_run, Act.attempt_run]
  rcases hr : x.run st with ⟨r, st'⟩
  rw [hr] at hseen hq
  cases r with
  | ok b =>
    refine ⟨seen ++ [], hseen.trans (hk (.ok b) st'), ?_⟩
    rw [List.append_nil, Act.next_ok]
    cases ((k (.ok b)).run st').1.isOk with
    | true => exact hq
    | false => exact hQ.weaken _ hq
  | error e =>
    refine ⟨seen ++ [], hseen.trans (hk (.error e) st'), ?_⟩
    rw [List.append_nil, Act.next_ok, herr]
    exact hq
  | abandoned => exact ⟨seen, hseen, hq⟩

end Shows

/-! ## Performing captured fences -/

section
variable {env : Env σ} {a : Area} {m : Memory} {slots : List FenceSlot}

theorem Area.fencesAt_fences (a : Area) (m : Memory) (slots : List FenceSlot) :
    (a.fencesAt m slots).map PendingFence.fence = slots.filterMap (a.fence? m) := by
  unfold Area.fencesAt
  rw [List.map_filterMap]
  refine List.filterMap_congr fun s _ => ?_
  cases a.fence? m s <;> rfl

theorem Area.fence?_of_mem_fencesAt {p : PendingFence} (hp : p ∈ a.fencesAt m slots) :
    a.fence? m p.slot = some p.fence := by
  obtain ⟨s, _, hs⟩ := List.mem_filterMap.1 hp
  obtain ⟨f, hf, rfl⟩ := Option.map_eq_some_iff.1 hs
  exact hf

/-- The entries of captured fences are some of those that were looked at, in their order. -/
theorem Area.fencesAt_slots_sublist (a : Area) (m : Memory) (slots : List FenceSlot) :
    ((a.fencesAt m slots).map PendingFence.slot).Sublist slots := by
  unfold Area.fencesAt
  rw [List.map_filterMap]
  induction slots with
  | nil => exact List.Sublist.refl _
  | cons s rest ih =>
    cases hs : a.fence? m s with
    | none =>
      rw [List.filterMap_cons_none (by rw [hs]; rfl)]
      exact ih.cons s
    | some f =>
      rw [List.filterMap_cons_some (by rw [hs]; rfl)]
      exact ih.cons_cons s

theorem Area.fencesAt_slots_nodup (a : Area) (hslots : slots.Nodup) :
    ((a.fencesAt m slots).map PendingFence.slot).Nodup :=
  hslots.sublist (a.fencesAt_slots_sublist m slots)

/-- The fences of the entries that have been finished are no longer in the list. -/
theorem Area.finishAll_fences {done : List PendingFence}
    (hdone : ∀ p ∈ done, a.fence? m p.slot = some p.fence)
    (hnodup : (done.map PendingFence.slot).Nodup) :
    (↑(done.map PendingFence.fence) : Multiset Fence) +
        a.pendingOf (finishAll (PendingFence.task a) done m) = a.pendingOf m ∧
      (∀ t, a.fence? (finishAll (PendingFence.task a) done m) t =
        if t ∈ done.map PendingFence.slot then none else a.fence? m t) ∧
      (a.ListValid m → a.ListValid (finishAll (PendingFence.task a) done m)) := by
  induction done generalizing m with
  | nil => exact ⟨zero_add _, fun t => rfl, id⟩
  | cons p rest ih =>
    have hp : a.fence? m p.slot = some p.fence := hdone p List.mem_cons_self
    rw [List.map_cons, List.nodup_cons] at hnodup
    obtain ⟨hfresh, hrest⟩ := hnodup
    -- the entries of the others are still pending once the first is finished
    have hstill : ∀ q ∈ rest, a.fence? (a.finishFence p.slot m) q.slot = some q.fence := by
      intro q hq
      have hne : q.slot ≠ p.slot := fun heq => hfresh (heq ▸ List.mem_map_of_mem hq)
      rw [Area.fence?_finishFence, if_neg hne]
      exact hdone q (List.mem_cons_of_mem p hq)
    have hstep : finishAll (PendingFence.task a) (p :: rest) m =
        finishAll (PendingFence.task a) rest (a.finishFence p.slot m) := rfl
    obtain ⟨hsum, hentries, hvalid⟩ := ih hstill hrest
    rw [hstep]
    refine ⟨?_, fun t => ?_, fun h => hvalid fun t => Area.fenceValid_finishFence (h t)⟩
    · rw [List.map_cons, ← Multiset.cons_coe, Multiset.cons_add, hsum, Area.pendingOf_finishFence hp]
    · rw [hentries, Area.fence?_finishFence, List.map_cons]
      by_cases hp' : t = p.slot
      · have hmem : t ∈ p.slot :: rest.map PendingFence.slot := hp' ▸ List.mem_cons_self
        rw [if_pos hp', ite_self, if_pos hmem]
      · have hiff : t ∈ p.slot :: rest.map PendingFence.slot ↔ t ∈ rest.map PendingFence.slot := by
          rw [List.mem_cons, or_iff_right hp']
        rw [if_neg hp']
        simp only [hiff]

/-- The fences on record once items have been carried out. -/
theorem CarriedOut.fences {done : List PendingFence} {new : List Event}
    (h : CarriedOut (PendingFence.task a) done new) :
    fencesSeen new = done.map PendingFence.fence ∧ fencesDone new = done.map PendingFence.fence := by
  have hfilter : (done.map fun p => (PendingFence.task a p).request).filterMap Request.fence? =
      done.map PendingFence.fence := by
    rw [List.filterMap_map, ← List.filterMap_eq_map]
    rfl
  exact ⟨(congrArg _ h.requestsMade).trans hfilter, (congrArg _ h.requestsDone).trans hfilter⟩

/-- The list settles when pending entries have been finished and the record says so, whatever the record
    ends with. -/
theorem Settles.of_finished {done : List PendingFence} {w w' : World σ} {new : List Event}
    {seen : List Fence} (hpending : ∀ p ∈ done, a.fence? w.memory p.slot = some p.fence)
    (hnodup : (done.map PendingFence.slot).Nodup) (hevents : w'.events = w.events ++ new)
    (hseen : fencesSeen new = seen) (hdone : fencesDone new = done.map PendingFence.fence)
    (hsub : done.map PendingFence.fence ⊆ seen)
    (hmemory : w'.memory = finishAll (PendingFence.task a) done w.memory) : Settles a seen w w' := by
  obtain ⟨hsum, hentries, hvalid⟩ := Area.finishAll_fences hpending hnodup
  rw [← hmemory] at hsum hentries hvalid
  refine ⟨hvalid, fun t => ?_, new, hevents, hseen, by rw [hdone, hsum]⟩
  rw [hentries]
  by_cases ht : t ∈ done.map PendingFence.slot
  · rw [if_pos ht]
    obtain ⟨p, hp, rfl⟩ := List.mem_map.1 ht
    exact .inr ⟨rfl, p.fence, hsub (List.mem_map_of_mem hp), hpending p hp⟩
  · rw [if_neg ht]
    exact .inl rfl

/-- The list settles when the host has been asked for one more fence than it has carried out. -/
theorem Settles.of_interrupted {items done rest : List PendingFence} {i : PendingFence} {w w' : World σ}
    {before : List Event} {reply : Reply}
    (hpending : ∀ p ∈ items, a.fence? w.memory p.slot = some p.fence)
    (hnodup : (items.map PendingFence.slot).Nodup) (hsplit : items = done ++ i :: rest)
    (hdone : CarriedOut (PendingFence.task a) done before) (hreply : ∀ v, reply ≠ .done v)
    (hevents : w'.events = w.events ++ (before ++ [.requested (.fence i.fence) reply]))
    (hmemory : w'.memory = finishAll (PendingFence.task a) done w.memory) :
    Settles a (done.map PendingFence.fence ++ [i.fence]) w w' := by
  obtain ⟨hseen, hperformed⟩ := hdone.fences
  have hsub : done.Sublist items := hsplit ▸ List.sublist_append_left _ _
  have hlast : fencesDone [.requested (.fence i.fence) reply] = [] := by
    cases reply with
    | done v => exact absurd rfl (hreply v)
    | refused e => rfl
    | lost => rfl
  refine .of_finished (fun p hp => hpending p (hsub.subset hp)) (hnodup.sublist (hsub.map _)) hevents
    ?_ ?_ (List.subset_append_left _ _) hmemory
  · rw [fencesSeen_append, hseen]
    rfl
  · rw [fencesDone_append, hperformed, hlast, List.append_nil]

/-- What has been seen then is the start of the plan, and the first fence of the plan is part of it. -/
theorem inOrder_interrupted {items done rest : List PendingFence} {i : PendingFence}
    (hsplit : items = done ++ i :: rest) :
    InOrder (items.map PendingFence.fence) false (done.map PendingFence.fence ++ [i.fence]) ∧
      (done.map PendingFence.fence ++ [i.fence]).head? = (items.map PendingFence.fence).head? := by
  have hplan : items.map PendingFence.fence =
      (done.map PendingFence.fence ++ [i.fence]) ++ rest.map PendingFence.fence := by
    rw [hsplit, List.map_append, List.map_cons, List.append_assoc, List.singleton_append]
  rw [hplan]
  refine ⟨⟨List.prefix_append _ _, fun h => by cases h⟩, ?_⟩
  cases done with
  | nil => rfl
  | cons p rest => rfl

/-- **A scan over pending entries goes through them in order.** The host sees the first of them in any
    case, and what it has carried out is no longer in the list. -/
theorem Env.scan_settles (hquiet : env.Quiet) {items : List PendingFence} {w : World σ}
    (hpending : ∀ p ∈ items, a.fence? w.memory p.slot = some p.fence)
    (hnodup : (items.map PendingFence.slot).Nodup) :
    ∃ seen, Settles a seen w ((env.scan (PendingFence.task a) items).run w).2 ∧
      InOrder (items.map PendingFence.fence)
        ((env.scan (PendingFence.task a) items).run w).1.isOk seen ∧
      seen.head? = (items.map PendingFence.fence).head? := by
  obtain ⟨new, hevents, hprogress⟩ := Env.scan_progress hquiet (PendingFence.task a) items w
  generalize (env.scan (PendingFence.task a) items).run w = out at hevents hprogress ⊢
  obtain ⟨r, w'⟩ := out
  dsimp only at hevents hprogress ⊢
  generalize hmemory : w'.memory = m' at hprogress
  cases hprogress with
  | finished hdone =>
    obtain ⟨hseen, hperformed⟩ := hdone.fences
    exact ⟨_, .of_finished hpending hnodup hevents hseen hperformed (List.Subset.refl _) hmemory,
      ⟨List.prefix_refl _, fun _ => rfl⟩, rfl⟩
  | refused hsplit hdone =>
    exact ⟨_, .of_interrupted hpending hnodup hsplit hdone (fun _ h => by cases h) hevents hmemory,
      inOrder_interrupted hsplit⟩
  | lost hsplit hdone =>
    exact ⟨_, .of_interrupted hpending hnodup hsplit hdone (fun _ h => by cases h) hevents hmemory,
      inOrder_interrupted hsplit⟩

/-- **Captured fences are performed in list order,** as long as their entries are what they were. -/
theorem Env.performFences_settles (hquiet : env.Quiet) (hslots : slots.Nodup) {w : World σ}
    (hsame : ∀ s, a.fence? w.memory s = a.fence? m s) :
    ∃ seen, Settles a seen w ((env.performFences a (a.fencesAt m slots)).run w).2 ∧
      InOrder (slots.filterMap (a.fence? m))
        ((env.performFences a (a.fencesAt m slots)).run w).1.isOk seen ∧
      seen.head? = (slots.filterMap (a.fence? m)).head? := by
  have hscan := Env.scan_settles hquiet
    (fun p hp => (hsame p.slot).trans (Area.fence?_of_mem_fencesAt hp))
    (a.fencesAt_slots_nodup hslots)
  rw [a.fencesAt_fences] at hscan
  rw [Env.performFences_eq, Act.mapError_run_snd, Act.mapError_isOk]
  exact hscan

end

end NestedAccel
