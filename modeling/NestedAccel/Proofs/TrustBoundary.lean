import NestedAccel.Proofs.Reachable
import NestedAccel.Simulation.Environment

/-!
# `NestedAccel.Proofs.TrustBoundary` — the host is handed legal requests only

Requests reach the host by five routes: a CSR synchronization, the drain of the eager mode, a fence
synchronization, a trap return and a batch. The words they are made from lie in guest memory, are
fetched more than once, and can be different at each fetch, since both the guest hypervisor and the
host may change memory in between.

`Reachable.requests_legal` says that none of this matters: **every request ever handed to the host is
legal.** The invariant is on the record of requests alone. It survives each move because each request is
made from the word that was checked, and never from one that is fetched again afterwards.
-/

namespace NestedAccel.Platform

open World (Reaches)

variable {σ : Type} {env : Env σ} {config : Config} {id : Word} {st st' : Platform × World σ}

/-- Every request on record is legal. -/
def RequestsLegal (harts : Nat) (w : World σ) : Prop :=
  ∀ q r, .requested q r ∈ w.events → q.Legal harts

theorem RequestsLegal.reaches {harts : Nat} {P : Request → Prop} {W : Nat → Prop} {w w' : World σ}
    (hw : RequestsLegal harts w) (hP : ∀ q, P q → q.Legal harts) (h : Reaches env P W w w') :
    RequestsLegal harts w' := by
  obtain ⟨new, hevents, hnew⟩ := h.events
  intro q r hq
  rw [hevents] at hq
  rcases List.mem_append.mp hq with hold | hq
  · exact hw q r hold
  · exact hP q (hnew q r hq)

theorem Move.requestsLegal (hw : RequestsLegal st.1.config.harts st.2) (h : Move env id st st') :
    RequestsLegal st.1.config.harts st'.2 := by
  cases h with
  | quiet hm => exact hw.reaches (fun _ hq => hq.elim) hm
  | call _ hm => exact hw.reaches (fun _ hq => hq) hm.2
  | establish _ _ _ _ _ hm => exact hw.reaches (fun _ hq => hq.elim) hm
  | release _ _ hm => exact hw.reaches (fun _ hq => hq.elim) hm
  | resetMode _ => exact hw

/-- **Every request ever handed to the host is legal,** whatever the memory, the operations and the
    host, and also where a request was refused or the host never returned. -/
theorem Reachable.requests_legal (h : Reachable env config st) :
    ∀ q r, .requested q r ∈ st.2.events → q.Legal config.harts := by
  have hinv : st.1.config = config ∧ RequestsLegal config.harts st.2 := by
    refine h.invariant (I := fun st => st.1.config = config ∧ RequestsLegal config.harts st.2)
      ?_ ?_ fun _ _ _ _ h => h
    · intro p w hp hw
      refine ⟨by rw [(create_ok hp).2], ?_⟩
      intro q r hq
      rw [hw] at hq
      exact absurd hq List.not_mem_nil
    -- legality refers to the configuration, which no move changes
    · intro id st st' ⟨hconfig, hlegal⟩ hm
      rw [← hconfig] at hlegal ⊢
      exact ⟨hm.config_eq, hm.requestsLegal hlegal⟩
  exact hinv.2

/-- A run in which a request is made: a hart makes a virtual timer interrupt pending. -/
theorem requests_legal_injection :
    ∃ st : Platform × World Simulation, Reachable Simulation.env {} st ∧
      st.2.events = [.requested (.inject (.vsLocal 0 .virtualSupervisorTimer)) (.done 0)] ∧
      ∀ q r, .requested q r ∈ st.2.events → q.Legal ({} : Config).harts := by
  have hnew : Reachable Simulation.env {}
      ({ config := {}, harts := #[{}] }, { state := { base := 0, size := 0 }, memory := .zero }) :=
    .new rfl rfl
  have hreach := hnew.step 0 (.handle .supervisor (.injectInterrupt 0 6 0))
  exact ⟨_, hreach, rfl, hreach.requests_legal⟩

end NestedAccel.Platform
