import Mathlib.Data.Finset.Card
import Mathlib.Logic.Relation

/-!
# Reachability in a bounded number of edges

`ReachIn edge n` is reachability by at most `n` edges, the relation that `n` rounds of a
round-by-round closure computes. Two facts say when such a closure is complete: `n` edges suffice
when at least as many nodes are counted as have outgoing edges (`reachIn_card`), and as soon as one
more round finds nothing new, no later round does (`reach_of_stable`).
-/

namespace Library

open Relation (ReflTransGen)

variable {α γ : Type} {edge : α → α → Prop}

/-- `target` is reached from `source` by at most `n` edges. -/
inductive ReachIn (edge : α → α → Prop) : Nat → α → α → Prop where
  | refl (n : Nat) (node : α) : ReachIn edge n node node
  | head {n : Nat} {source next target : α} :
      edge source next → ReachIn edge n next target → ReachIn edge (n + 1) source target

/-- One more edge may always be allowed. -/
theorem ReachIn.succ {n : Nat} {source target : α} (h : ReachIn edge n source target) :
    ReachIn edge (n + 1) source target := by
  induction h with
  | refl n node => exact .refl _ node
  | head hedge _ ih => exact .head hedge ih

/-- Any larger number of edges may be allowed. -/
theorem ReachIn.mono {n m : Nat} {source target : α} (h : ReachIn edge n source target)
    (hle : n ≤ m) : ReachIn edge m source target := by
  induction hle with
  | refl => exact h
  | step _ ih => exact ih.succ

/-- Forgetting the bound gives reachability. -/
theorem ReachIn.reflTransGen {n : Nat} {source target : α}
    (h : ReachIn edge n source target) : ReflTransGen edge source target := by
  induction h with
  | refl => exact .refl
  | head hedge _ ih => exact .head hedge ih

/-- A path can be cut after its last departure from `node`: what remains never leaves `node`. -/
theorem reach_avoiding {sources : Finset α} [DecidableEq α] (node : α) {source target : α}
    (h : ReflTransGen (fun a b => a ∈ sources ∧ edge a b) source target) :
    ReflTransGen (fun a b => a ∈ sources.erase node ∧ edge a b) source target ∨
      node ∈ sources ∧ ∃ next, edge node next ∧
        ReflTransGen (fun a b => a ∈ sources.erase node ∧ edge a b) next target := by
  induction h using ReflTransGen.head_induction_on with
  | refl => exact .inl .refl
  | @head first second hstep _ ih =>
      rcases ih with hrest | hlater
      · by_cases h : first = node
        · subst first
          exact .inr ⟨hstep.1, second, hstep.2, hrest⟩
        · exact .inl (.head ⟨Finset.mem_erase.mpr ⟨h, hstep.1⟩, hstep.2⟩ hrest)
      · exact .inr hlater

/-- When only `sources` have outgoing edges, a reachable node is reached by at most as many edges
as there are sources. -/
theorem reachIn_card [DecidableEq α] {sources : Finset α} {source target : α}
    (h : ReflTransGen (fun a b => a ∈ sources ∧ edge a b) source target) :
    ReachIn edge sources.card source target := by
  -- Each departure from a node is the last one from it, so every edge of the path uses up a source.
  induction hcard : sources.card generalizing sources source with
  | zero =>
      rw [Finset.card_eq_zero] at hcard
      subst sources
      cases h.cases_head with
      | inl heq => exact heq ▸ .refl 0 source
      | inr hstep =>
          obtain ⟨_, ⟨hmem, _⟩, _⟩ := hstep
          simp at hmem
  | succ n ih =>
      rcases reach_avoiding source h with hrest | ⟨hmem, next, hedge, hrest⟩
      · cases hrest.cases_head with
        | inl heq => exact heq ▸ .refl _ source
        | inr hstep =>
            obtain ⟨_, ⟨hmem, _⟩, _⟩ := hstep
            simp at hmem
      · have hcount : (sources.erase source).card = n := by
          rw [Finset.card_erase_of_mem hmem, hcard]
          omega
        exact .head hedge (ih hrest hcount)

/-- When one more edge reaches no new fact, the facts within `n` edges are all reachable facts. -/
theorem reach_of_stable {fact : α → γ → Prop} {n : Nat}
    (hstable : ∀ source item,
      (∃ target, ReachIn edge (n + 1) source target ∧ fact target item) →
        ∃ target, ReachIn edge n source target ∧ fact target item)
    {source target : α} {item : γ} (h : ReflTransGen edge source target)
    (hfact : fact target item) :
    ∃ target, ReachIn edge n source target ∧ fact target item := by
  induction h using ReflTransGen.head_induction_on with
  | refl => exact ⟨target, .refl n target, hfact⟩
  | @head first second hedge _ ih =>
      obtain ⟨found, hreach, hitem⟩ := ih
      exact hstable first item ⟨found, .head hedge hreach, hitem⟩

end Library
