import Mathlib.Data.List.Basic
import Mathlib.Logic.Relation
import Phrasebook.Graph.Basic

/-!
Walks in a graph of categories. The search that marks edges finds a name exactly when a walk leads to it, so
an edge is marked as cyclic exactly when a walk leads from its target back to its source.
-/

namespace Phrasebook.Graph

variable {pairs : List (String × String)}

/-- One step of a walk. -/
def Leads (pairs : List (String × String)) (u v : String) : Prop := (u, v) ∈ pairs

/-- One step of a walk that leaves no other names than those in `pending`. -/
def LeadsWithin (pairs : List (String × String)) (pending : List String) (u v : String) : Prop :=
  u ∈ pending ∧ (u, v) ∈ pairs

open Relation (ReflTransGen)

theorem mem_targets_iff {u v : String} : v ∈ targets pairs u ↔ (u, v) ∈ pairs := by
  simp [targets]

/-- A walk to another name than `u` either never leaves `u` or has a part behind `u` that does not
leave it again. -/
theorem leadsWithin_erase {pending : List String} {u w goal : String}
    (h : ReflTransGen (LeadsWithin pairs pending) w goal) :
    ReflTransGen (LeadsWithin pairs (pending.erase u)) w goal ∨
      ∃ v, (u, v) ∈ pairs ∧ ReflTransGen (LeadsWithin pairs (pending.erase u)) v goal := by
  induction h using ReflTransGen.head_induction_on with
  | refl => exact Or.inl .refl
  | @head a b step rest ih =>
      rcases ih with hAvoids | hBehind
      · by_cases hSame : a = u
        · subst hSame
          exact Or.inr ⟨b, step.2, hAvoids⟩
        · exact Or.inl (hAvoids.head ⟨(List.mem_erase_of_ne hSame).2 step.1, step.2⟩)
      · exact Or.inr hBehind

/-- The search finds everything to which a walk leads that leaves pending names only. -/
theorem reachesFrom_of_leadsWithin {goal : String} {pending stack : List String} {w : String}
    (hw : w ∈ stack) (h : ReflTransGen (LeadsWithin pairs pending) w goal) :
    reachesFrom pairs goal pending stack = true := by
  fun_induction reachesFrom pairs goal pending stack generalizing w with
  | case1 => exact absurd hw List.not_mem_nil
  | case2 => rfl
  | case3 pending u stack hGoal hPending ih =>
      rcases leadsWithin_erase (u := u) h with hAvoids | ⟨v, hPair, hRest⟩
      · rcases List.mem_cons.1 hw with rfl | hw
        · -- A walk from `u` to another name leaves `u`.
          rcases ReflTransGen.cases_head hAvoids with hEq | ⟨v, step, hRest⟩
          · exact absurd hEq hGoal
          · exact ih (List.mem_append_left _ (mem_targets_iff.2 step.2)) hRest
        · exact ih (List.mem_append_right _ hw) hAvoids
      · exact ih (List.mem_append_left _ (mem_targets_iff.2 hPair)) hRest
  | case4 pending u stack hGoal hPending ih =>
      rcases List.mem_cons.1 hw with rfl | hw
      · rcases ReflTransGen.cases_head h with hEq | ⟨v, step, -⟩
        · exact absurd hEq hGoal
        · exact absurd step.1 hPending
      · exact ih hw h

theorem exists_walk_of_reachesFrom {goal : String} {pending stack : List String}
    (h : reachesFrom pairs goal pending stack = true) :
    ∃ w ∈ stack, ReflTransGen (Leads pairs) w goal := by
  fun_induction reachesFrom pairs goal pending stack with
  | case1 => exact absurd h Bool.false_ne_true
  | case2 pending stack => exact ⟨goal, List.mem_cons_self, .refl⟩
  | case3 pending u stack hGoal hPending ih =>
      obtain ⟨w, hw, hWalk⟩ := ih h
      rcases List.mem_append.1 hw with hw | hw
      · exact ⟨u, List.mem_cons_self, hWalk.head (mem_targets_iff.1 hw)⟩
      · exact ⟨w, List.mem_cons_of_mem _ hw, hWalk⟩
  | case4 pending u stack hGoal hPending ih =>
      obtain ⟨w, hw, hWalk⟩ := ih h
      exact ⟨w, List.mem_cons_of_mem _ hw, hWalk⟩

theorem reaches_iff {u goal : String} :
    reaches pairs u goal = true ↔ ReflTransGen (Leads pairs) u goal := by
  constructor
  · intro h
    obtain ⟨w, hw, hWalk⟩ := exists_walk_of_reachesFrom h
    rwa [List.mem_singleton.1 hw] at hWalk
  · intro hWalk
    have hAll : ReflTransGen (LeadsWithin pairs (pairs.map (·.1)).eraseDups) u goal :=
      ReflTransGen.mono (fun _ _ hPair =>
        ⟨List.mem_eraseDups.2 (List.mem_map_of_mem hPair), hPair⟩) u goal hWalk
    exact reachesFrom_of_leadsWithin (List.mem_singleton_self u) hAll

theorem cyclic_iff {u v : String} :
    (u == v || reaches pairs v u) = true ↔ ReflTransGen (Leads pairs) v u := by
  rw [Bool.or_eq_true, beq_iff_eq, reaches_iff]
  exact ⟨fun h => h.elim (fun hEq => hEq ▸ .refl) id, Or.inr⟩

/-- An edge is cyclic exactly when a walk leads from its target to its source. -/
theorem mem_classify_iff {e : Edge} :
    e ∈ classify pairs ↔ (e.source, e.target) ∈ pairs ∧
      (e.cyclic = true ↔ ReflTransGen (Leads pairs) e.target e.source) := by
  rw [classify, List.mem_map]
  constructor
  · rintro ⟨⟨u, v⟩, hPair, rfl⟩
    exact ⟨hPair, cyclic_iff⟩
  · obtain ⟨u, v, cyclic⟩ := e
    rintro ⟨hPair, hCyclic⟩
    have hSame : (u == v || reaches pairs v u) = cyclic := by
      rw [Bool.eq_iff_iff, cyclic_iff]
      exact hCyclic.symm
    exact ⟨(u, v), hPair, by dsimp only; rw [hSame]⟩

/-- The pairs of names between which some entries make an edge, each of them once. -/
def pairsOf (entries : List Pack.Entry) : List (String × String) :=
  (entries.flatMap entryPairs).eraseDups

theorem mem_pairsOf_iff {entries : List Pack.Entry} {pair : String × String} :
    pair ∈ pairsOf entries ↔ ∃ e ∈ entries, pair ∈ entryPairs e := by
  rw [pairsOf, List.mem_eraseDups, List.mem_flatMap]

theorem mem_edges_iff {entries : List Pack.Entry} {e : Edge} :
    e ∈ (ofEntries entries).edges ↔ (e.source, e.target) ∈ pairsOf entries ∧
      (e.cyclic = true ↔ ReflTransGen (Leads (pairsOf entries)) e.target e.source) :=
  mem_classify_iff

end Phrasebook.Graph
