import NestedAccel.Proofs.SyncedSlots

/-!
# `NestedAccel.Proofs.Registration` — registering and releasing an area is all or nothing

A registration passes through the hart, the registry and the mapper, and can fail at each of them. Here its
six endings (`Platform.Registration`) are read as **one condition and two effects**: what it takes to succeed
is said in bytes and natural numbers (`Registered.admits_iff`), a failure leaves nothing behind
(`Registration.failed`), and a success enters exactly one area (`Registration.succeeded`).

A release discards what has not been applied. That lasts for as long as nobody writes to guest memory: an area
registered again with its contents kept has nothing to apply (`Hart.handle_syncCsr_clear`).
-/

namespace NestedAccel

variable {σ : Type} {env : Env σ}

/-! ## The test for overlap -/

/-- Aligned areas pass the test exactly if they have no byte in common. -/
theorem rangesOverlap_eq_false_iff {a b : Word} (ha : a.toNat % 4096 = 0) (hb : b.toNat % 4096 = 0) :
    rangesOverlap a areaBytes b areaBytes = false ↔
      ∀ x, InRange a areaBytes x → ¬InRange b areaBytes x := by
  rw [Bool.eq_false_iff, ne_eq,
    rangesOverlap_iff (lt_of_aligned ha) (lt_of_aligned hb) (by decide) (by decide)]
  simp only [not_exists, not_and]

namespace Session

theorem checkEstablish_ok_iff {s : Session} {gpa flags : Word} :
    s.checkEstablish gpa areaBytes flags = .ok () ↔
      gpa.toNat % 4096 = 0 ∧ (flags = 0 ∨ flags = 1) ∧ s.area = none := by
  constructor
  · intro h
    obtain ⟨haligned, _, hflags, hfree⟩ := checkEstablish_ok h
    exact ⟨toNat_mod_page haligned, Word.within_one.1 hflags, hfree⟩
  · rintro ⟨haligned, hflags, hfree⟩
    have hgpa : gpa % areaAlign = 0 := by
      rw [← UInt64.toNat_inj, UInt64.toNat_mod]
      exact haligned
    simp [checkEstablish, hgpa, keepFlag, Word.within_one.2 hflags, hfree]

end Session

/-! ## The bytes of an area -/

namespace Area

variable {gpa : Word} {m : Memory}

theorem owns_ofGuest_iff (hgpa : gpa.toNat % 4096 = 0) {x : Nat} :
    (ofGuest gpa).Owns (x / 8) ↔ InRange gpa areaBytes x := by
  have hbytes : areaBytes.toNat = 12288 := rfl
  have hbase : (ofGuest gpa).base = gpa.toNat / 8 := rfl
  unfold Owns InRange words
  rw [hbase]
  omega

theorem read_zero_of_owns {a : Area} {b : Nat} (hb : a.Owns b) : (a.zero m).read b = 0 := if_pos hb

/-- Clearing the bitmap clears its words and no others. -/
theorem read_clearBitmap_eq (a : Area) (m : Memory) (b : Nat) [Decidable (∃ i, b = a.bitmapBase i)] :
    (a.clearBitmap m).read b = if ∃ i, b = a.bitmapBase i then 0 else m.read b := by
  have hiff : (∃ i, b = a.bitmapBase i) ↔ a.bitmapBase 0 ≤ b ∧ b < a.bitmapBase 0 + 16 := by
    unfold bitmapBase
    constructor
    · rintro ⟨i, rfl⟩
      omega
    · intro hb
      refine ⟨⟨b - (a.base + 496), by omega⟩, ?_⟩
      show b = a.base + 496 + (b - (a.base + 496))
      omega
  simp only [clearBitmap, Memory.read_clear, hiff]

theorem dirtyWord_clearBitmap (a : Area) (m : Memory) (i : Fin 16) :
    a.dirtyWord (a.clearBitmap m) i = 0 := by
  classical
  rw [dirtyWord, read_clearBitmap_eq, if_pos ⟨i, rfl⟩]

end Area

/-! ## Nothing to apply -/

/-- If the bitmap is clear, nothing has been asked for since and guest memory is as before. -/
def StillIfClear (a : Area) (w w' : World σ) : Prop :=
  (∀ i, a.dirtyWord w.memory i = 0) → w'.events = w.events ∧ w'.memory = w.memory

instance (a : Area) : IsPreorder (World σ) (StillIfClear a) where
  refl _ _ := ⟨rfl, rfl⟩
  trans w₁ w₂ w₃ h h' hclear := by
    obtain ⟨hevents, hmemory⟩ := h hclear
    obtain ⟨hevents', hmemory'⟩ := h' (by rwa [hmemory])
    exact ⟨hevents'.trans hevents, hmemory'.trans hmemory⟩

theorem Env.syncCsrs_stillIfClear (env : Env σ) (a : Area) {mask : SlotMask}
    (hmask : mask.exceeds Csr.span = false) (st : Phase × World σ) :
    StillIfClear a st.2 ((env.syncCsrs a mask).run st).2.2 := by
  intro hclear
  rcases st with ⟨phase, w⟩
  cases phase with
  -- an earlier call was abandoned, so this one is refused
  | checking => exact ⟨rfl, rfl⟩
  | applying => exact ⟨rfl, rfl⟩
  | idle =>
    rw [Env.syncCsrs_clean env hmask (Area.isDirty_of_dirtyWord hclear)]
    exact ⟨rfl, rfl⟩

namespace Hart

variable {cfg : Config} {claimed : List Word} {h : Hart} {a : Area} {w : World σ}

/-- **A call to apply every CSR that finds the bitmap clear asks for nothing** and leaves guest memory alone,
    whether it succeeds or not. -/
theorem handle_syncCsr_clear (id : Word) (caller : Privilege) (harea : h.session.area = some a)
    (hclear : ∀ i, a.dirtyWord w.memory i = 0) :
    let out := (handle env cfg id claimed caller (.syncCsr 0 0)).run (h, w)
    out.2.2.events = w.events ∧ out.2.2.memory = w.memory ∧
      (cfg.features.contains .syncCsr = true → h.phase = .idle → out.1 = .ok (.value 0)) := by
  intro out
  have hmask : SlotMask.exceeds ⟨0, 0⟩ Csr.span = false := by decide
  have hpermits : Permits env cfg claimed (some a) (.syncCsr 0 0) (StillIfClear a) := {
    message := fun _ _ _ => ⟨rfl, rfl⟩
    csrs := fun low high hcall a' ha' st => by
      cases hcall
      cases ha'
      exact Env.syncCsrs_stillIfClear env a hmask st
    hfences := fun _ hcall => by cases hcall
    sret := fun _ hcall => by cases hcall
    batch := fun _ _ _ hcall => by cases hcall
    inject := fun _ _ _ _ hcall => by cases hcall }
  have hdrain : ∀ a', some a = some a' → ∀ st,
      StillIfClear a st.2 ((env.syncCsrs a' .all).run st).2.2 := by
    intro a' ha' st
    cases ha'
    exact Env.syncCsrs_stillIfClear env a hmask st
  obtain ⟨hevents, hmemory⟩ := (handle_follows hpermits hdrain id caller (h, w) harea).2 hclear
  refine ⟨hevents, hmemory, fun hfeature hphase => ?_⟩
  obtain ⟨console, hrun⟩ := handle_syncCsr_run env hfeature id claimed caller 0 0 harea w
  rw [hphase] at hrun
  have hclean : ∀ s, a.isDirty ({ w with console } : World σ).memory s = false :=
    Area.isDirty_of_dirtyWord hclear
  obtain ⟨h', hok, _, _⟩ := hrun 0 .idle _ (Env.syncCsrs_clean env hmask hclean)
  show ((handle env cfg id claimed caller (.syncCsr 0 0)).run (h, w)).1 = .ok (.value 0)
  rw [hok]
  rfl

end Hart

namespace Platform

open Relation (ReflTransGen)

variable {config : Config} {p : Platform} {w : World σ} {id gpa flags : Word}
  {out : Outcome PlatformError Unit × (Platform × World σ)}

/-! ## Registrations -/

/-- What a registration asks of the platform. -/
theorem Registered.admits_iff (hp : p.Registered) {h : Hart} :
    p.Admits id gpa flags h ↔
      p.hart? id = some h ∧ gpa.toNat % 4096 = 0 ∧ (flags = 0 ∨ flags = 1) ∧ h.session.area = none ∧
        ∀ c ∈ p.claims, c.hart ≠ id → ∀ x, InRange c.gpa areaBytes x → ¬InRange gpa areaBytes x := by
  constructor
  · intro hadmits
    obtain ⟨haligned, hflags, hfree⟩ := Session.checkEstablish_ok_iff.1 hadmits.check
    refine ⟨hadmits.hart, haligned, hflags, hfree, fun c hc hne => ?_⟩
    exact (rangesOverlap_eq_false_iff (hp.aligned c hc) haligned).1 (hadmits.clear c hc hne)
  · rintro ⟨hh, haligned, hflags, hfree, hclear⟩
    refine ⟨hh, Session.checkEstablish_ok_iff.2 ⟨haligned, hflags, hfree⟩, fun c hc hne => ?_⟩
    exact (rangesOverlap_eq_false_iff (hp.aligned c hc) haligned).2 (hclear c hc hne)

/-- A registration succeeds if the platform admits it and the area is mapped where it can be accessed. -/
theorem Registration.ok_iff (hout : Registration env id gpa flags p w out) :
    out.1 = .ok () ↔ ∃ h m, p.Admits id gpa flags h ∧ (env.map gpa areaBytes w.state).1 = .ok m ∧
      m.aligned = true := by
  have hfailed : ∀ {e : PlatformError}, (¬∃ h m, p.Admits id gpa flags h ∧
      (env.map gpa areaBytes w.state).1 = .ok m ∧ m.aligned = true) →
      ((.error e : Outcome PlatformError Unit) = .ok () ↔ ∃ h m, p.Admits id gpa flags h ∧
        (env.map gpa areaBytes w.state).1 = .ok m ∧ m.aligned = true) :=
    fun hnot => iff_of_false (by simp) hnot
  cases hout with
  | noHart hh =>
    refine hfailed ?_
    rintro ⟨h, m, hadmits, _⟩
    cases hh.symm.trans hadmits.hart
  | refused hh hcheck =>
    refine hfailed ?_
    rintro ⟨h, m, hadmits, _⟩
    cases hh.symm.trans hadmits.hart
    cases hcheck.symm.trans hadmits.check
  | overlap hc hne hoverlap =>
    refine hfailed ?_
    rintro ⟨h, m, hadmits, _⟩
    cases hoverlap.symm.trans (hadmits.clear _ hc hne)
  | notMapped _ hm =>
    refine hfailed ?_
    rintro ⟨h, m, _, hm', _⟩
    cases hm.symm.trans hm'
  | misaligned _ hm haligned =>
    refine hfailed ?_
    rintro ⟨h, m, _, hm', haligned'⟩
    cases hm.symm.trans hm'
    cases haligned.symm.trans haligned'
  | done hadmits hm haligned => exact ⟨fun _ => ⟨_, _, hadmits, hm, haligned⟩, fun _ => rfl⟩

/-- The range has not been asked for, or has not been given, or has been given back. -/
inductive NotHeld (gpa len : Word) : List Event → Prop where
  | unasked : NotHeld gpa len []
  | refused (e : MapError) : NotHeld gpa len [.mapped gpa len (.error e)]
  | returned (m : Mapping) : NotHeld gpa len [.mapped gpa len (.ok m), .unmapped gpa len]

/-- A registration that fails leaves nothing behind. -/
theorem Registration.failed (hout : Registration env id gpa flags p w out) (hne : out.1 ≠ .ok ()) :
    (∃ e, out.1 = .error e) ∧ out.2.1 = p ∧ out.2.2.memory = w.memory ∧
      ∃ new, out.2.2.events = w.events ++ new ∧ NotHeld gpa areaBytes new := by
  have hnothing : ∃ new, w.events = w.events ++ new ∧ NotHeld gpa areaBytes new :=
    ⟨[], (List.append_nil _).symm, .unasked⟩
  cases hout with
  | noHart _ => exact ⟨⟨_, rfl⟩, rfl, rfl, hnothing⟩
  | refused _ _ => exact ⟨⟨_, rfl⟩, rfl, rfl, hnothing⟩
  | overlap _ _ _ => exact ⟨⟨_, rfl⟩, rfl, rfl, hnothing⟩
  | notMapped _ hm =>
    refine ⟨⟨_, rfl⟩, rfl, rfl, _, rfl, ?_⟩
    rw [hm]
    exact .refused _
  | @misaligned h m _ hm _ =>
    refine ⟨⟨_, rfl⟩, rfl, rfl, [.mapped gpa areaBytes (.ok m), .unmapped gpa areaBytes], ?_, .returned m⟩
    simp [World.record, World.afterMap, hm]
  | done _ _ _ => exact absurd rfl hne

/-- A registration that succeeds enters the area where it was asked for. -/
theorem Registration.succeeded (hmap : env.FaithfulIfAligned)
    (hout : Registration env id gpa flags p w out) (hok : out.1 = .ok ()) :
    ∃ h m, p.Admits id gpa flags h ∧ out.2.1 = p.enter id h (.ofGuest gpa) ∧
      out.2.2.memory = Session.registered (.ofGuest gpa) flags w.memory ∧
      out.2.2.events = w.events ++ [.mapped gpa areaBytes (.ok m)] := by
  cases hout with
  | @done h m _ hadmits hm haligned =>
    have hshown : (⟨gpa, m.base⟩ : Area) = .ofGuest gpa := by
      rw [Mapping.base, hmap _ _ _ m hm haligned]
      rfl
    refine ⟨h, m, hadmits, ?_, ?_, ?_⟩
    · rw [← hshown]
    · rw [← hshown]
    · simp [World.afterMap, hm]
  | _ => cases hok

/-- What is left of guest memory outside the area, and what the area holds. -/
theorem read_registered (hgpa : gpa.toNat % 4096 = 0) (m : Memory) :
    (∀ x, ¬InRange gpa areaBytes x →
      (Session.registered (.ofGuest gpa) flags m).read (x / 8) = m.read (x / 8)) ∧
    (flags = 0 → ∀ x, InRange gpa areaBytes x →
      (Session.registered (.ofGuest gpa) flags m).read (x / 8) = 0) ∧
    (flags = 1 → Session.registered (.ofGuest gpa) flags m = m) := by
  refine ⟨fun x hx => ?_, ?_, ?_⟩
  · unfold Session.registered
    split
    · rfl
    · exact Area.read_zeroed fun howns => hx ((Area.owns_ofGuest_iff hgpa).1 howns)
  · rintro rfl x hx
    exact Area.read_zero_of_owns ((Area.owns_ofGuest_iff hgpa).2 hx)
  · rintro rfl
    rfl

/-! ## Releases -/

theorem Placed.area_eq (hp : p.Placed) {h : Hart} (hh : p.hart? id = some h) {a : Area}
    (harea : h.session.area = some a) : a = .ofGuest a.gpa := by
  rcases a with ⟨gpa, base⟩
  have hbase : base = gpa.toNat / 8 := hp.base_eq id h _ hh harea
  rw [hbase]
  rfl

/-- Having everything applied for hart `id` asks the host for nothing and leaves guest memory alone. -/
def NothingToApply (env : Env σ) (id : Word) (st : Platform × World σ) : Prop :=
  ∀ h, st.1.hart? id = some h → ∀ caller,
    let sync := (handle env id caller (.syncCsr 0 0)).run st
    sync.2.2.events = st.2.events ∧ sync.2.2.memory = st.2.memory ∧
      (st.1.config.features.contains .syncCsr = true → h.phase = .idle → sync.1 = .ok (.value 0))

theorem Placed.nothingToApply (hp : p.Placed) (harea : p.areaOf? id = some gpa)
    (hclear : ∀ i, (Area.ofGuest gpa).dirtyWord w.memory i = 0) : NothingToApply env id (p, w) := by
  intro h hh caller
  rw [areaOf?_of_hart? hh] at harea
  obtain ⟨a, ha, rfl⟩ := Option.map_eq_some_iff.1 harea
  rw [← hp.area_eq hh ha] at hclear
  rw [handle_run env hh]
  exact Hart.handle_syncCsr_clear id caller ha hclear

/-- **Registering and releasing an area is all or nothing, and exact.** A registration succeeds exactly if the
    hart exists and has no area, the operands are in order, no byte belongs to another hart's area, and the
    range is mapped where its words can be accessed. If it fails, the platform and guest memory are as before
    and the range is not held. If it succeeds, the hart has the area at that address, and memory has changed
    inside it at most: it is all zero, or as it was if that was asked for.

    A release by a hart that exists succeeds. Without an area it does nothing; otherwise it removes the area
    and clears the words of its bitmap, which is all that changes in memory. If guest memory then stays as it
    is until some hart has registered the same area with its contents kept, there is nothing to apply. -/
theorem Reachable.registration_exact (hmap : env.FaithfulIfAligned) (h : Reachable env config (p, w))
    (id gpa flags : Word) :
    let out := (establish env id gpa flags).run (p, w)
    let gone := (release id).run (p, w)
    (out.1 = .ok () ↔ ∃ hart m, p.hart? id = some hart ∧ gpa.toNat % 4096 = 0 ∧
      (flags = 0 ∨ flags = 1) ∧ hart.session.area = none ∧
      (∀ c ∈ p.claims, c.hart ≠ id → ∀ x, InRange c.gpa areaBytes x → ¬InRange gpa areaBytes x) ∧
      (env.map gpa areaBytes w.state).1 = .ok m ∧ m.aligned = true) ∧
    (out.1 ≠ .ok () → (∃ e, out.1 = .error e) ∧ out.2.1 = p ∧ out.2.2.memory = w.memory ∧
      ∃ new, out.2.2.events = w.events ++ new ∧ NotHeld gpa areaBytes new) ∧
    (out.1 = .ok () → ∃ hart, p.hart? id = some hart ∧ out.2.1 = p.enter id hart (.ofGuest gpa) ∧
      (∀ x, ¬InRange gpa areaBytes x → out.2.2.memory.read (x / 8) = w.memory.read (x / 8)) ∧
      (flags = 0 → ∀ x, InRange gpa areaBytes x → out.2.2.memory.read (x / 8) = 0) ∧
      (flags = 1 → out.2.2.memory = w.memory)) ∧
    ∀ hart, p.hart? id = some hart →
      gone.1 = .ok () ∧ (hart.session.area = none → gone.2 = (p, w)) ∧
      ∀ a, hart.session.area = some a → a = .ofGuest a.gpa ∧ gone.2.1 = p.leave id hart ∧
        (∀ i, gone.2.2.memory.read (a.bitmapBase i) = 0) ∧
        (∀ b, (∀ i, b ≠ a.bitmapBase i) → gone.2.2.memory.read b = w.memory.read b) ∧
        ∀ id' st₁ st₂ st₃, Reachable env config st₁ → st₁.2.memory = gone.2.2.memory →
          (establish env id' a.gpa 1).run st₁ = (.ok (), st₂) →
          Reachable env config st₃ → st₃.1.areaOf? id' = some a.gpa →
          st₃.2.memory = st₂.2.memory → NothingToApply env id' st₃ := by
  intro out gone
  have hp := h.placed hmap
  have hout := establish_run env id gpa flags p w
  refine ⟨?_, hout.failed, fun hok => ?_, fun hart hh => ?_⟩
  · rw [show out.1 = .ok () ↔ _ from hout.ok_iff]
    simp only [hp.registered.admits_iff, and_assoc, exists_and_left]
  · obtain ⟨hart, _, hadmits, hplatform, hmemory, _⟩ := hout.succeeded hmap hok
    refine ⟨hart, hadmits.hart, hplatform, ?_⟩
    rw [show out.2.2.memory = _ from hmemory]
    exact read_registered (Session.checkEstablish_ok_iff.1 hadmits.check).1 w.memory
  · cases harea : hart.session.area with
    | none =>
      have hrun : gone = (.ok (), (p, w)) := release_run_none hh harea w
      rw [hrun]
      exact ⟨rfl, fun _ => rfl, fun a ha => by cases ha⟩
    | some a =>
      obtain ⟨console, hrun⟩ := release_run_some hh harea w
      have hmemory : gone.2.2.memory = a.clearBitmap w.memory := by rw [show gone = _ from hrun]
      have hclear : ∀ i, a.dirtyWord gone.2.2.memory i = 0 := by
        intro i
        rw [hmemory]
        exact Area.dirtyWord_clearBitmap a w.memory i
      have hshown := hp.area_eq hh harea
      refine ⟨congrArg Prod.fst hrun, (nomatch ·), fun a' ha' => ?_⟩
      cases ha'
      refine ⟨hshown, by rw [show gone = _ from hrun], hclear, fun b hb => ?_, ?_⟩
      · classical
        rw [hmemory, Area.read_clearBitmap_eq, if_neg]
        rintro ⟨i, hi⟩
        exact hb i hi
      · rintro id' st₁ st₂ ⟨p₃, w₃⟩ _ hbefore hagain hreach hagainArea hafter
        -- the area was registered with its contents kept, so memory is still what the release left
        have hregistered := establish_run env id' a.gpa 1 st₁.1 st₁.2
        rw [hagain] at hregistered
        obtain ⟨_, _, _, _, hkept, _⟩ := hregistered.succeeded hmap rfl
        have hsame : w₃.memory = gone.2.2.memory := hafter.trans (hkept.trans hbefore)
        refine (hreach.placed hmap).nothingToApply hagainArea fun i => ?_
        rw [← hshown, hsame]
        exact hclear i

/-- Hart 0 has an area. Hart 1 asks for one that overlaps it and gets none; hart 0 releases its own,
    registers it again and has nothing to apply. -/
theorem registration_exact_two :
    let env := Env.refusing 0
    let st := Operation.run env 0 (.establish 0x3000 0)
      ({ config := { harts := 2 }, harts := #[{}, {}] }, { state := 0, memory := .zero })
    let other := (establish env 1 0x5000 0).run st
    let gone := Operation.run env 0 .release st
    let again := Operation.run env 0 (.establish 0x3000 1) gone
    env.FaithfulIfAligned ∧ Reachable env { harts := 2 } st ∧
      other.1 ≠ .ok () ∧ other.2.1 = st.1 ∧ other.2.2.memory = st.2.memory ∧
      ((release 0).run st).1 = .ok () ∧ again.1.areaOf? 0 = some 0x3000 ∧ NothingToApply env 0 again := by
  intro env st other gone again
  have hmap : env.FaithfulIfAligned := (Env.refusing_faithful 0).ifAligned
  have hnew := Reachable.two env { state := 0, memory := .zero } rfl
  have hreach : Reachable env { harts := 2 } st := hnew.step 0 (.establish 0x3000 0)
  have hgone := hreach.step 0 .release
  have hagain := hgone.step 0 (.establish 0x3000 1)
  have hfails : other.1 ≠ .ok () := by decide +kernel
  obtain ⟨_, hfailed, _⟩ := hreach.registration_exact hmap 1 0x5000 0
  obtain ⟨_, hplatform, hmemory, _⟩ := hfailed hfails
  obtain ⟨_, _, _, hrelease⟩ := hreach.registration_exact hmap 0 0 0
  obtain ⟨hok, _, hsome⟩ := hrelease { session := { area := some (.ofGuest 0x3000) } } rfl
  obtain ⟨_, _, _, _, hnothing⟩ := hsome (.ofGuest 0x3000) rfl
  refine ⟨hmap, hreach, hfails, hplatform, hmemory, hok, rfl, ?_⟩
  exact hnothing 0 gone again again hgone rfl rfl hagain rfl rfl

end Platform

end NestedAccel
