import Mathlib
import Phrasebook.Proofs.Graph.Search

/-!
The marks on the edges of a graph. An edge has a mark exactly when it is part of a closed walk, so
without the edges that have one no closed walk is left.
-/

namespace Phrasebook.Graph

open Relation (ReflTransGen TransGen)

variable {pairs : List (String × String)}

/-- No walk comes back to where it began. -/
def IsAcyclic (pairs : List (String × String)) : Prop := ∀ u, ¬TransGen (Leads pairs) u u

/-- The pairs of the edges without a mark. -/
def unmarked (edges : List Edge) : List (String × String) :=
  (edges.filter fun e => !e.cyclic).map fun e => (e.source, e.target)

theorem mem_unmarked_iff {edges : List Edge} {u v : String} :
    (u, v) ∈ unmarked edges ↔ ⟨u, v, false⟩ ∈ edges := by
  rw [unmarked, List.mem_map]
  constructor
  · rintro ⟨⟨x, y, cyclic⟩, hListed, hSame⟩
    obtain ⟨rfl, rfl⟩ := Prod.mk.inj hSame
    obtain ⟨hEdge, hPlain⟩ := List.mem_filter.1 hListed
    have hMark : cyclic = false := by simpa using hPlain
    rwa [hMark] at hEdge
  · exact fun hEdge => ⟨⟨u, v, false⟩, List.mem_filter.2 ⟨hEdge, rfl⟩, rfl⟩

/-- A closed walk begins with a step to a name from which it leads back. -/
theorem exists_of_closed {u : String} (h : TransGen (Leads pairs) u u) :
    ∃ v, (u, v) ∈ pairs ∧ ReflTransGen (Leads pairs) v u :=
  TransGen.head'_iff.1 h

theorem isAcyclic_iff :
    IsAcyclic pairs ↔ ∀ e ∈ classify pairs, e.cyclic = false := by
  constructor
  · intro hAcyclic e hEdge
    obtain ⟨hPair, hMark⟩ := mem_classify_iff.1 hEdge
    rw [← Bool.not_eq_true, hMark]
    exact fun hBack => hAcyclic e.source (TransGen.head' hPair hBack)
  · intro hNone u hClosed
    obtain ⟨v, hPair, hBack⟩ := exists_of_closed hClosed
    have hEdge : ⟨u, v, true⟩ ∈ classify pairs := mem_classify_iff.2 ⟨hPair, iff_of_true rfl hBack⟩
    exact Bool.noConfusion (hNone _ hEdge)

/-- A closed walk of edges without marks would give its first edge a mark. -/
theorem isAcyclic_unmarked (pairs : List (String × String)) :
    IsAcyclic (unmarked (classify pairs)) := by
  intro u hClosed
  obtain ⟨v, hPair, hBack⟩ := exists_of_closed hClosed
  obtain ⟨-, hMark⟩ := mem_classify_iff.1 (mem_unmarked_iff.1 hPair)
  refine Bool.noConfusion (hMark.2 (ReflTransGen.mono (fun x y hStep => ?_) v u hBack))
  exact (mem_classify_iff.1 (mem_unmarked_iff.1 hStep)).1

/-- The edges and their marks only depend on which pairs there are. -/
theorem mem_classify_congr {others : List (String × String)}
    (hSame : ∀ pair, pair ∈ others ↔ pair ∈ pairs) {e : Edge} :
    e ∈ classify others ↔ e ∈ classify pairs := by
  have hLeads : Leads others = Leads pairs := by
    funext u v
    exact propext (hSame (u, v))
  rw [mem_classify_iff, mem_classify_iff, hLeads, hSame]

/-- There is one edge for each pair, and in the same order. An edge has a mark exactly when its ends are
the same or a walk leads back from its target to its source. So there is no mark exactly in a graph
without closed walks, the edges without marks have no closed walk, and a mark depends neither on the
order of the pairs nor on repeated ones. Every search that a mark needs comes to an end. -/
theorem classify_marks_cycles (pairs : List (String × String)) :
    List.Forall₂ (fun pair e => (e.source, e.target) = pair ∧
        (e.cyclic = true ↔ pair.1 = pair.2 ∨ TransGen (Leads pairs) pair.2 pair.1))
      pairs (classify pairs) ∧
    ((∀ e ∈ classify pairs, e.cyclic = false) ↔ IsAcyclic pairs) ∧
    IsAcyclic (unmarked (classify pairs)) ∧
    (∀ others : List (String × String), (∀ pair, pair ∈ others ↔ pair ∈ pairs) →
      ∀ e, e ∈ classify others ↔ e ∈ classify pairs) ∧
    ∀ origin goal, (Search.start origin).run pairs goal (pairs.length + 2) =
      some (reaches pairs origin goal) := by
  refine ⟨?_, isAcyclic_iff.symm, isAcyclic_unmarked pairs, fun others hSame e =>
    mem_classify_congr hSame, Search.run_start pairs⟩
  rw [classify, List.forall₂_map_right_iff, List.forall₂_same]
  intro pair _
  refine ⟨rfl, ?_⟩
  dsimp only
  rw [cyclic_iff, Relation.reflTransGen_iff_eq_or_transGen]

/-- Two names that lead to each other, and a way out of them. -/
def knot : List (String × String) := [("a", "b"), ("b", "a"), ("b", "c")]

/-- The way out has no mark, also when it comes first and another pair is repeated. -/
theorem knot_marks :
    classify knot = [⟨"a", "b", true⟩, ⟨"b", "a", true⟩, ⟨"b", "c", false⟩] ∧
    ⟨"b", "c", false⟩ ∈ classify [("b", "c"), ("b", "a"), ("a", "b"), ("b", "a")] := by
  have hMarks : classify knot = [⟨"a", "b", true⟩, ⟨"b", "a", true⟩, ⟨"b", "c", false⟩] := by cbv
  obtain ⟨-, -, -, hCongr, -⟩ := classify_marks_cycles knot
  refine ⟨hMarks, (hCongr _ (fun pair => ?_) _).2 (by simp [hMarks])⟩
  simp only [knot, List.mem_cons, List.not_mem_nil, or_false]
  tauto

end Phrasebook.Graph
