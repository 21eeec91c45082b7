import Mathlib.Data.List.Perm.Subperm
import Phrasebook.Proofs.Graph.Walks

/-!
The search for a walk, round by round. A search keeps a stack of the names that it has come to and
remembers the steps that it has made, not the names: a name can come onto the stack once for every pair
that leads to it. It ends all the same, since every round takes a name off the stack and a name is put
there only with a new step. Its answer is the one of `reaches`.
-/

namespace Phrasebook.Graph

open Relation (ReflTransGen)

/-- A search under way: the steps that it has made, and the names that it has still to leave. -/
structure Search where
  taken : List (String × String)
  stack : List String
  deriving DecidableEq, Repr

namespace Search

def start (u : String) : Search := ⟨[], [u]⟩

/-- The step from `u` to `v`, unless it was made before. -/
def step (u : String) (search : Search) (v : String) : Search :=
  if (u, v) ∈ search.taken then search
  else ⟨(u, v) :: search.taken, v :: search.stack⟩

/-- All new steps from `u`. -/
def leave (pairs : List (String × String)) (u : String) (search : Search) : Search :=
  (targets pairs u).foldl (step u) search

/-- The answer of a search, if it comes within the given number of rounds. Each round takes the name on
top of the stack. -/
def run (pairs : List (String × String)) (goal : String) : (rounds : Nat) → Search → Option Bool
  | 0, _ => none
  | _ + 1, ⟨_, []⟩ => some false
  | rounds + 1, ⟨taken, u :: stack⟩ =>
    if u = goal then some true else run pairs goal rounds (leave pairs u ⟨taken, stack⟩)

variable {pairs : List (String × String)} {origin goal u : String} {search : Search}

/-- New steps put their targets on the stack, one name for each step. -/
theorem foldl_step (u : String) (names : List String) (search : Search) :
    ∃ new, names.foldl (step u) search = ⟨new.map (u, ·) ++ search.taken, new ++ search.stack⟩ ∧
      new ⊆ names ∧ (∀ v ∈ names, v ∈ new ∨ (u, v) ∈ search.taken) ∧
      (search.taken.Nodup → (new.map (u, ·) ++ search.taken).Nodup) := by
  induction names generalizing search with
  | nil => exact ⟨[], rfl, List.Subset.refl _, nofun, id⟩
  | cons v names ih =>
      obtain ⟨new, hFold, hSubset, hAll, hNodup⟩ := ih (step u search v)
      rw [List.foldl_cons]
      by_cases hTaken : (u, v) ∈ search.taken
      · rw [step, if_pos hTaken] at hFold hAll hNodup
        rw [step, if_pos hTaken]
        refine ⟨new, hFold, fun w hw => List.mem_cons_of_mem _ (hSubset hw), ?_, hNodup⟩
        exact List.forall_mem_cons.2 ⟨Or.inr hTaken, hAll⟩
      · rw [step, if_neg hTaken] at hFold hAll hNodup
        rw [step, if_neg hTaken]
        refine ⟨new ++ [v], by simpa using hFold, ?_, ?_, ?_⟩
        · exact List.append_subset.2 ⟨fun w hw => List.mem_cons_of_mem _ (hSubset hw), by simp⟩
        · refine List.forall_mem_cons.2 ⟨Or.inl (by simp), fun w hw => ?_⟩
          rcases hAll w hw with hNew | hOld
          · exact Or.inl (List.mem_append_left _ hNew)
          · rcases List.mem_cons.1 hOld with hSame | hOld
            · exact Or.inl (by simp [(Prod.mk.inj hSame).2])
            · exact Or.inr hOld
        · intro hDistinct
          simpa using hNodup (List.nodup_cons.2 ⟨hTaken, hDistinct⟩)

/-- What is true of a search from `origin` for `goal` before every round. A name that the search has come
to is on the stack, or it is not the goal and every step from it has been made. -/
structure IsUnderWay (pairs : List (String × String)) (origin goal : String) (search : Search) :
    Prop where
  nodup : search.taken.Nodup
  subset : search.taken ⊆ pairs
  walk : ∀ w ∈ search.stack, ReflTransGen (Leads pairs) origin w
  left : ∀ w, (w = origin ∨ ∃ u, (u, w) ∈ search.taken) →
    w ∈ search.stack ∨ (w ≠ goal ∧ ∀ v, (w, v) ∈ pairs → (w, v) ∈ search.taken)

theorem isUnderWay_start (pairs : List (String × String)) (u goal : String) :
    IsUnderWay pairs u goal (.start u) where
  nodup := List.nodup_nil
  subset := List.nil_subset _
  walk w hw := by
    rw [List.mem_singleton.1 hw]
  left w hw := by
    rcases hw with rfl | ⟨v, hTaken⟩
    · exact Or.inl (List.mem_singleton_self w)
    · exact absurd hTaken List.not_mem_nil

namespace IsUnderWay

theorem length_le (h : IsUnderWay pairs origin goal search) : search.taken.length ≤ pairs.length :=
  (List.subperm_of_subset h.nodup h.subset).length_le

/-- A round that leaves `u`. -/
theorem leave {taken : List (String × String)} {stack : List String}
    (h : IsUnderWay pairs origin goal ⟨taken, u :: stack⟩) (hGoal : u ≠ goal) :
    IsUnderWay pairs origin goal (leave pairs u ⟨taken, stack⟩) := by
  obtain ⟨new, hLeave, hSubset, hAll, hNodup⟩ := foldl_step u (targets pairs u) ⟨taken, stack⟩
  have hPair : ∀ v ∈ new, (u, v) ∈ pairs := fun v hv => mem_targets_iff.1 (hSubset hv)
  rw [Search.leave, hLeave]
  refine ⟨hNodup h.nodup, ?_, ?_, ?_⟩
  · refine List.append_subset.2 ⟨fun pair hNew => ?_, h.subset⟩
    obtain ⟨v, hv, rfl⟩ := List.mem_map.1 hNew
    exact hPair v hv
  · intro w hw
    rcases List.mem_append.1 hw with hNew | hOld
    · exact (h.walk u List.mem_cons_self).tail (hPair w hNew)
    · exact h.walk w (List.mem_cons_of_mem _ hOld)
  · intro w hw
    have hBefore : w ∈ new ∨ w = origin ∨ ∃ x, (x, w) ∈ taken := by
      rcases hw with hOrigin | ⟨x, hx⟩
      · exact Or.inr (Or.inl hOrigin)
      · rcases List.mem_append.1 hx with hNew | hOld
        · obtain ⟨v, hv, hSame⟩ := List.mem_map.1 hNew
          exact Or.inl ((Prod.mk.inj hSame).2 ▸ hv)
        · exact Or.inr (Or.inr ⟨x, hOld⟩)
    by_cases hSame : w = u
    · -- All steps from `u` have now been made.
      subst hSame
      refine Or.inr ⟨hGoal, fun v hv => ?_⟩
      rcases hAll v (mem_targets_iff.2 hv) with hNew | hOld
      · exact List.mem_append_left _ (List.mem_map_of_mem hNew)
      · exact List.mem_append_right _ hOld
    · rcases hBefore with hNew | hSeen
      · exact Or.inl (List.mem_append_left _ hNew)
      · rcases h.left w hSeen with hStack | ⟨hOther, hSteps⟩
        · have hBelow : w ∈ stack := (List.mem_cons.1 hStack).resolve_left hSame
          exact Or.inl (List.mem_append_right _ hBelow)
        · exact Or.inr ⟨hOther, fun v hv => List.mem_append_right _ (hSteps v hv)⟩

/-- With an empty stack every name to which a walk leads has been left, and none of them is the goal. -/
theorem not_walk {taken : List (String × String)}
    (h : IsUnderWay pairs origin goal ⟨taken, []⟩) : ¬ReflTransGen (Leads pairs) origin goal := by
  have hLeft : ∀ w, (w = origin ∨ ∃ u, (u, w) ∈ taken) →
      w ≠ goal ∧ ∀ v, (w, v) ∈ pairs → (w, v) ∈ taken :=
    fun w hw => (h.left w hw).resolve_left List.not_mem_nil
  have hSeen : ∀ w, ReflTransGen (Leads pairs) origin w → w = origin ∨ ∃ u, (u, w) ∈ taken := by
    intro w hWalk
    induction hWalk with
    | refl => exact Or.inl rfl
    | tail _ hStep ih => exact Or.inr ⟨_, (hLeft _ ih).2 _ hStep⟩
  exact fun hWalk => (hLeft goal (hSeen goal hWalk)).1 rfl

end IsUnderWay

/-- A search has its answer when all names on the stack and one for each step not yet made have been
taken off. -/
theorem run_eq {rounds : Nat} (h : IsUnderWay pairs origin goal search)
    (hRounds : search.stack.length + pairs.length < rounds + search.taken.length) :
    search.run pairs goal rounds = some (reaches pairs origin goal) := by
  induction rounds generalizing search with
  | zero =>
      have := h.length_le
      omega
  | succ rounds ih =>
      obtain ⟨taken, stack⟩ := search
      cases stack with
      | nil =>
          have hNot : reaches pairs origin goal = false := by
            rw [← Bool.not_eq_true, reaches_iff]
            exact h.not_walk
          rw [run, hNot]
      | cons u stack =>
          rw [run]
          by_cases hGoal : u = goal
          · have hWalk : reaches pairs origin goal = true :=
              reaches_iff.2 (hGoal ▸ h.walk u List.mem_cons_self)
            rw [if_pos hGoal, hWalk]
          · rw [if_neg hGoal]
            refine ih (h.leave hGoal) ?_
            -- A new name on the stack is paid for by its step.
            obtain ⟨new, hLeave, -⟩ := foldl_step u (targets pairs u) ⟨taken, stack⟩
            rw [Search.leave, hLeave]
            simp only [List.length_cons, List.length_append, List.length_map] at hRounds ⊢
            omega

/-- Every search ends, with the answer whether a walk leads from `u` to `goal`. -/
theorem run_start (pairs : List (String × String)) (u goal : String) :
    (start u).run pairs goal (pairs.length + 2) = some (reaches pairs u goal) := by
  refine run_eq (isUnderWay_start pairs u goal) ?_
  simp only [start, List.length_cons, List.length_nil]
  omega

end Search

end Phrasebook.Graph
