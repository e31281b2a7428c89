import Mathlib.Algebra.Group.Nat.Defs
import Mathlib.Logic.Relation
import NestedAccel.Proofs.Computation
import NestedAccel.World

/-!
# `NestedAccel.Proofs.World` — what a computation does to its environment

Everything a computation does to the world is a sequence of **moves**: it asks the host to carry a
request out, maps or unmaps a range, changes guest memory, or shows a message. `World.Reaches env P W`
says that a world comes out of another by moves that make requests of the kind `P` only and change words
of the set `W` only. It is a preorder, so it is carried through a computation by the rules of
`Proofs.Computation`, once for the requests and the memory together:

* `Reaches.events` — the record has grown, and every new request is of the kind `P`;
* `Reaches.read_eq` — if the host leaves guest memory alone, every word outside `W` is as before.

Nothing is assumed about the environment in the first: the host may change all of guest memory while it
carries out a request, and `P` still has to hold of the request it was handed.
-/

namespace NestedAccel

open Relation (ReflTransGen)

variable {σ ε α β : Type}

/-! ## Assumptions about an environment -/

namespace Env

/-- The host leaves guest memory alone. -/
def Quiet (env : Env σ) : Prop := ∀ q s m, (env.host q s m).2.2 = m

/-- The host leaves word `b` of guest memory alone. -/
def Spares (env : Env σ) (b : Nat) : Prop := ∀ q s m, (env.host q s m).2.2.read b = m.read b

theorem Quiet.spares {env : Env σ} (h : env.Quiet) (b : Nat) : env.Spares b := by
  intro q s m
  rw [h]

/-- A range is shown where it is. -/
def Faithful (env : Env σ) : Prop :=
  ∀ gpa len s m, (env.map gpa len s).1 = .ok m → m.start = gpa.toNat

/-- A range that is shown where its words can be accessed is shown where it is. -/
def FaithfulIfAligned (env : Env σ) : Prop :=
  ∀ gpa len s m, (env.map gpa len s).1 = .ok m → m.aligned = true → m.start = gpa.toNat

theorem Faithful.ifAligned {env : Env σ} (h : env.Faithful) : env.FaithfulIfAligned :=
  fun gpa len s m hm _ => h gpa len s m hm

/-- The host always comes back. -/
def Returns (env : Env σ) : Prop := ∀ q s m, (env.host q s m).1 ≠ .lost

/-- The host carries out whatever it is asked for. -/
def NeverFails (env : Env σ) : Prop := ∀ q s m, ∃ v, (env.host q s m).1 = .done v

/-- An environment with a megabyte of guest memory, shown where it is. The host counts the requests and
    refuses the one with number `n`. -/
def refusing (n : Nat) : Env Nat where
  host _ k m := (if k = n then .refused .io else .done 0, k + 1, m)
  map gpa len k :=
    (if gpa.toNat + len.toNat ≤ 2 ^ 20 then .ok ⟨gpa.toNat⟩ else .error (.unmapped gpa), k)

theorem refusing_quiet (n : Nat) : (refusing n).Quiet := fun _ _ _ => rfl

theorem refusing_faithful (n : Nat) : (refusing n).Faithful := by
  intro gpa len k m h
  unfold refusing at h
  dsimp only at h
  split at h
  · cases h
    rfl
  · cases h

theorem refusing_returns (n : Nat) : (refusing n).Returns := by
  intro q k m h
  unfold refusing at h
  dsimp only at h
  split at h
  · cases h
  · cases h

end Env

/-! ## Moves -/

namespace World

/-- One thing that is done to the world: requests are of the kind `P`, and words outside the set `W`
    are not written. -/
inductive Move (env : Env σ) (P : Request → Prop) (W : Nat → Prop) : World σ → World σ → Prop where
  | request {w : World σ} {q : Request} (h : P q) : Move env P W w ((env.request q).run w).2
  | map (w : World σ) (gpa len : Word) : Move env P W w ((env.mapRange gpa len).run w).2
  | unmap (w : World σ) (gpa len : Word) : Move env P W w (w.record (.unmapped gpa len))
  | write {w : World σ} {m : Memory} (h : ∀ b, ¬W b → m.read b = w.memory.read b) :
    Move env P W w { w with memory := m }
  | message (w : World σ) (c : Console) : Move env P W w { w with console := c }

/-- A sequence of moves. -/
def Reaches (env : Env σ) (P : Request → Prop) (W : Nat → Prop) : World σ → World σ → Prop :=
  ReflTransGen (Move env P W)

variable {env : Env σ} {P Q : Request → Prop} {W V : Nat → Prop} {w w' : World σ}

instance : IsPreorder (World σ) (Reaches env P W) :=
  inferInstanceAs (IsPreorder (World σ) (ReflTransGen (Move env P W)))

theorem Move.mono (hP : ∀ q, P q → Q q) (hW : ∀ b, W b → V b) (h : Move env P W w w') :
    Move env Q V w w' := by
  cases h with
  | request h => exact .request (hP _ h)
  | map gpa len => exact .map w gpa len
  | unmap gpa len => exact .unmap w gpa len
  | write h => exact .write fun b hb => h b fun hw => hb (hW b hw)
  | message c => exact .message w c

/-- Moves stay moves when more is allowed. -/
theorem Reaches.mono (hP : ∀ q, P q → Q q) (hW : ∀ b, W b → V b) (h : Reaches env P W w w') :
    Reaches env Q V w w' :=
  ReflTransGen.mono (fun _ _ hm => Move.mono hP hW hm) _ _ h

theorem Reaches.weaken (h : Reaches env (fun _ => False) (fun _ => False) w w') :
    Reaches env P W w w' :=
  h.mono (fun _ hq => hq.elim) fun _ hb => hb.elim

/-! ## What moves say about requests and memory -/

/-- A request ends as the host replies, and is recorded with the reply. -/
theorem request_run (env : Env σ) (q : Request) (w : World σ) :
    (env.request q).run w =
      (match (env.host q w.state w.memory).1 with
        | .done v => .ok v
        | .refused e => .error e
        | .lost => .abandoned,
      { w with
        state := (env.host q w.state w.memory).2.1
        memory := (env.host q w.state w.memory).2.2
        events := w.events ++ [.requested q (env.host q w.state w.memory).1] }) := by
  simp only [Act.run, Env.request]
  -- one case for each reply
  split <;> rename_i h <;> rw [h] <;> rfl

/-- Mapping ends as the environment says, and is never abandoned. -/
theorem mapRange_run (env : Env σ) (gpa len : Word) (w : World σ) :
    (env.mapRange gpa len).run w =
      (match (env.map gpa len w.state).1 with
        | .ok m => .ok m
        | .error e => .error e,
      { w with
        state := (env.map gpa len w.state).2
        events := w.events ++ [.mapped gpa len (env.map gpa len w.state).1] }) := by
  simp only [Act.run, Env.mapRange]
  split <;> rename_i h <;> rw [h] <;> rfl

/-- The world once a range has been asked for, whatever the answer. -/
def afterMap (env : Env σ) (gpa len : Word) (w : World σ) : World σ :=
  { w with
    state := (env.map gpa len w.state).2
    events := w.events ++ [.mapped gpa len (env.map gpa len w.state).1] }

theorem mapRange_run_snd (env : Env σ) (gpa len : Word) (w : World σ) :
    ((env.mapRange gpa len).run w).2 = w.afterMap env gpa len := by
  rw [mapRange_run]
  rfl

theorem mapRange_run_ok {gpa len : Word} {w w' : World σ} {m : Mapping}
    (h : (env.mapRange gpa len).run w = (.ok m, w')) : (env.map gpa len w.state).1 = .ok m := by
  rw [mapRange_run] at h
  injection h with h _
  revert h
  cases (env.map gpa len w.state).1 with
  | ok m' =>
    intro h
    injection h with h
    rw [h]
  | error e =>
    intro h
    cases h

theorem mapRange_run_events {gpa len : Word} {w w' : World σ} {m : Mapping}
    (h : (env.mapRange gpa len).run w = (.ok m, w')) :
    w'.events = w.events ++ [.mapped gpa len (.ok m)] := by
  have hw : w.afterMap env gpa len = w' := by
    rw [← mapRange_run_snd, h]
  rw [← hw, afterMap, mapRange_run_ok h]

theorem Move.events (h : Move env P W w w') :
    ∃ new, w'.events = w.events ++ new ∧ ∀ q r, .requested q r ∈ new → P q := by
  cases h with
  | @request q hq =>
    rw [request_run]
    refine ⟨_, rfl, ?_⟩
    intro q' r hm
    injection List.mem_singleton.mp hm with hq' _
    rw [hq']
    exact hq
  | map gpa len =>
    rw [mapRange_run]
    refine ⟨_, rfl, ?_⟩
    intro q r hm
    cases List.mem_singleton.mp hm
  | unmap gpa len =>
    refine ⟨[.unmapped gpa len], rfl, ?_⟩
    intro q r hm
    cases List.mem_singleton.mp hm
  | write _ => exact ⟨[], (List.append_nil _).symm, fun _ _ hm => absurd hm List.not_mem_nil⟩
  | message _ => exact ⟨[], (List.append_nil _).symm, fun _ _ hm => absurd hm List.not_mem_nil⟩

/-- **The record grows, by requests of the kind `P` only.** -/
theorem Reaches.events (h : Reaches env P W w w') :
    ∃ new, w'.events = w.events ++ new ∧ ∀ q r, .requested q r ∈ new → P q := by
  -- on the moves: each adds its own events after those of the others
  induction h with
  | refl => exact ⟨[], (List.append_nil _).symm, fun _ _ hm => absurd hm List.not_mem_nil⟩
  | tail _ hm ih =>
    obtain ⟨new, he, hnew⟩ := ih
    obtain ⟨more, he', hmore⟩ := hm.events
    refine ⟨new ++ more, by rw [he', he, List.append_assoc], ?_⟩
    intro q r hq
    rcases List.mem_append.mp hq with hq | hq
    · exact hnew q r hq
    · exact hmore q r hq

theorem Move.read_eq {b : Nat} (hspares : env.Spares b) (h : Move env P W w w') (hb : ¬W b) :
    w'.memory.read b = w.memory.read b := by
  cases h with
  | @request q _ =>
    rw [request_run]
    exact hspares q w.state w.memory
  | map gpa len => rw [mapRange_run]
  | unmap gpa len => rfl
  | write h => exact h b hb
  | message _ => rfl

/-- **A word outside `W` is as before,** if the host leaves it alone. -/
theorem Reaches.read_spared {b : Nat} (hspares : env.Spares b) (h : Reaches env P W w w') (hb : ¬W b) :
    w'.memory.read b = w.memory.read b := by
  induction h with
  | refl => rfl
  | tail _ hm ih => rw [hm.read_eq hspares hb, ih]

/-- So is every such word, if the host leaves all of guest memory alone. -/
theorem Reaches.read_eq (hquiet : env.Quiet) (h : Reaches env P W w w') {b : Nat} (hb : ¬W b) :
    w'.memory.read b = w.memory.read b := h.read_spared (hquiet.spares b) hb

end World

/-! ## The primitive actions -/

section
open World
variable {env : Env σ} {P : Request → Prop} {W : Nat → Prop}

theorem Env.request_moves {q : Request} (h : P q) :
    Act.Moves (Reaches env P W) (env.request q) :=
  fun _ => ReflTransGen.single (.request h)

theorem Env.mapRange_moves (gpa len : Word) :
    Act.Moves (Reaches env P W) (env.mapRange gpa len) :=
  fun w => ReflTransGen.single (.map w gpa len)

theorem unmapRange_moves (gpa len : Word) :
    Act.Moves (Reaches env P W) (unmapRange gpa len : Act (World σ) ε Unit) :=
  fun w => ReflTransGen.single (.unmap w gpa len)

theorem readMemory_moves (f : Memory → α) :
    Act.Moves (Reaches env P W) (readMemory f : Act (World σ) ε α) :=
  Act.Moves.gets _

theorem changeMemory_moves {f : Memory → Memory} (h : ∀ m b, ¬W b → (f m).read b = m.read b) :
    Act.Moves (Reaches env P W) (changeMemory f : Act (World σ) ε Unit) :=
  fun w => ReflTransGen.single (.write (h w.memory))

/-- A host that comes back either carries the request out or refuses it. -/
theorem Env.request_cases (h : env.Returns) (q : Request) (w : World σ) :
    (∃ v w', (env.request q).run w = (.ok v, w') ∧
      w'.events = w.events ++ [.requested q (.done v)]) ∨
    ∃ e w', (env.request q).run w = (.error e, w') ∧
      w'.events = w.events ++ [.requested q (.refused e)] := by
  have hq := h q w.state w.memory
  rw [request_run]
  cases hr : (env.host q w.state w.memory).1 with
  | done v => exact .inl ⟨v, _, rfl, rfl⟩
  | refused e => exact .inr ⟨e, _, rfl, rfl⟩
  | lost => exact absurd hr hq

theorem Env.request_returns (h : env.Returns) (q : Request) : Act.Returns (env.request q) := by
  intro w
  rcases Env.request_cases h q w with ⟨v, w', hr, _⟩ | ⟨e, w', hr, _⟩
  · rw [hr]
    intro h'
    cases h'
  · rw [hr]
    intro h'
    cases h'

end

end NestedAccel
