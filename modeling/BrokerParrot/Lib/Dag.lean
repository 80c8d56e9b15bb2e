import Mathlib.Data.Set.Finite.Basic

/-!
# Acyclic graphs of dependencies

A finite acyclic graph whose nodes are started in order: a node only once all that it needs is done.
-/

structure Dag (α : Type) where
  nodes : Set α
  needs : α → α → Prop
  finite : nodes.Finite
  inside : ∀ a b, needs a b → a ∈ nodes ∧ b ∈ nodes
  acyclic : ∀ a, ¬ Relation.TransGen needs a a

namespace Dag

open Relation

variable {α : Type} {graph : Dag α} {started done : α → Prop}

theorem wellFounded_of_acyclic {below : α → α → Prop} {nodes : Set α} (hfinite : nodes.Finite)
    (hinside : ∀ a b, below a b → a ∈ nodes) (hacyclic : ∀ a, ¬ TransGen below a a) :
    WellFounded below := by
  have hsub : WellFounded fun a b : nodes => TransGen below a b := by
    have hfiniteType : Finite nodes := hfinite.to_subtype
    have hirrefl : Std.Irrefl fun a b : nodes => TransGen below a b :=
      ⟨fun a => hacyclic a⟩
    exact Finite.wellFounded_of_trans_of_irrefl _
  have hacc : ∀ a : nodes, Acc below a := by
    intro a
    induction a using hsub.induction with
    | _ a ih =>
      refine Acc.intro _ fun b hbelow => ?_
      exact ih ⟨b, hinside b a hbelow⟩ (TransGen.single hbelow)
  exact ⟨fun a => Acc.intro a fun b hbelow => hacc ⟨b, hinside b a hbelow⟩⟩

theorem wellFounded_needs (graph : Dag α) : WellFounded graph.needs :=
  wellFounded_of_acyclic graph.finite (fun a b hneeds => (graph.inside a b hneeds).1) graph.acyclic

theorem wellFounded_needed (graph : Dag α) : WellFounded fun a b => graph.needs b a := by
  refine wellFounded_of_acyclic graph.finite (fun a b hneeds => (graph.inside b a hneeds).2) ?_
  intro a hcycle
  exact graph.acyclic a (transGen_swap.mp hcycle)

structure Progress (graph : Dag α) (started done : α → Prop) : Prop where
  started_of_done : ∀ a, done a → started a
  in_order : ∀ a b, started a → graph.needs a b → done b

theorem Progress.exists_source (hprogress : graph.Progress started done) {a : α}
    (hmem : a ∈ graph.nodes) (hstarted : started a) :
    ∃ source ∈ graph.nodes, started source ∧ ∀ b, ¬ graph.needs source b := by
  induction a using graph.wellFounded_needed.induction with
  | _ a ih =>
    by_cases hneeds : ∃ b, graph.needs a b
    · obtain ⟨b, hb⟩ := hneeds
      exact ih b hb (graph.inside a b hb).2
        (hprogress.started_of_done b (hprogress.in_order a b hstarted hb))
    · exact ⟨a, hmem, hstarted, fun b hb => hneeds ⟨b, hb⟩⟩

theorem Progress.all_done (hprogress : graph.Progress started done)
    (hleaves : ∀ a ∈ graph.nodes, (∀ b, ¬ graph.needs b a) → done a) :
    ∀ a ∈ graph.nodes, done a := by
  intro a
  induction a using graph.wellFounded_needs.induction with
  | _ a ih =>
    intro hmem
    by_cases hneeded : ∃ b, graph.needs b a
    · obtain ⟨b, hb⟩ := hneeded
      have hdone := ih b hb (graph.inside b a hb).1
      exact hprogress.in_order b a (hprogress.started_of_done b hdone) hb
    · exact hleaves a hmem fun b hb => hneeded ⟨b, hb⟩

end Dag
