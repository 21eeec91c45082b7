import Mathlib.Data.List.Basic
import Mathlib.Data.List.Infix
import Mathlib.Data.Set.Function
import Phrasebook.Group
import Phrasebook.Proofs.Text.Search

/-!
Names in groups. Replacing one name by another is a substitution at the leaves: the shape stays, and so
does every other name. A name that is a leaf is seen in the text that the groups are written as.
-/

namespace Phrasebook

namespace Json

theorem infix_joined_of_mem (sep : List Char) {piece : List Char} {pieces : List (List Char)}
    (h : piece ∈ pieces) : piece <:+: joined sep pieces := by
  induction pieces with
  | nil => exact absurd h List.not_mem_nil
  | cons first more ih =>
      cases more with
      | nil =>
          obtain rfl := List.mem_singleton.1 h
          exact List.infix_rfl
      | cons next more =>
          rw [joined]
          rcases List.mem_cons.1 h with rfl | h
          · rw [List.append_assoc]
            exact List.infix_append_of_infix_left List.infix_rfl
          · exact List.infix_append_of_infix_right (ih h)

end Json

namespace Group

/-- `new` in the stead of `old`; every other name stays. -/
def swap (old new name : String) : String := if name = old then new else name

theorem swap_eq_self_iff {old new : String} (hNe : old ≠ new) {name : String} :
    swap old new name = name ↔ name ≠ old := by
  unfold swap
  split
  next hOld =>
    subst hOld
    simp [hNe.symm]
  next hOther => simp [hOther]

/-- Apart from the new name itself, no two names become one. -/
theorem swap_injOn (old new : String) : Set.InjOn (swap old new) {name | name ≠ new} := by
  intro x hx y hy hSame
  unfold swap at hSame
  split at hSame <;> split at hSame
  next hOld hAlso => rw [hOld, hAlso]
  next => exact absurd hSame.symm hy
  next => exact absurd hSame hx
  next => exact hSame

/-- Another name than the new one comes back. -/
theorem swap_swap {old new name : String} (h : name ≠ new) : swap new old (swap old new name) = name := by
  unfold swap
  by_cases hOld : name = old
  · rw [if_pos hOld, if_pos rfl, hOld]
  · rw [if_neg hOld, if_neg h]

theorem swap_ne_old {old new : String} (hNe : old ≠ new) (name : String) : swap old new name ≠ old := by
  unfold swap
  split
  next => exact hNe.symm
  next hOther => exact hOther

mutual

/-- Relabelling substitutes the name and counts the leaves that had it. -/
theorem relabel_eq (old new : String) : ∀ g : Group,
    relabel old new g = (mapNames (swap old new) g, (leaves g).count old)
  | .name category => by
      rw [relabel, mapNames, leaves, swap, List.count_singleton]
      by_cases hOld : category = old <;> simp [hOld]
  | .null => rfl
  | .list entries => by
      rw [relabel, relabelAll_eq old new entries, mapNames, leaves]

theorem relabelAll_eq (old new : String) : ∀ groups : List Group,
    relabelAll old new groups = (mapNamesOf (swap old new) groups, (leavesOf groups).count old)
  | [] => rfl
  | g :: more => by
      rw [relabelAll, relabel_eq old new g, relabelAll_eq old new more, mapNamesOf, leavesOf,
        List.count_append]

end

theorem mention_iff {groups : List Group} {category : String} :
    mention groups category = true ↔ category ∈ leavesOf groups := by
  rw [mention, List.contains_iff_mem]

/-- A name is counted exactly when the groups have it. -/
theorem relabelAll_count_ne_zero (old new : String) (groups : List Group) :
    ((relabelAll old new groups).2 != 0) = mention groups old := by
  rw [relabelAll_eq, Bool.eq_iff_iff, mention_iff, ← List.count_pos_iff, bne_iff_ne]
  exact Nat.pos_iff_ne_zero.symm

mutual

theorem leaves_mapNames (f : String → String) : ∀ g : Group,
    leaves (mapNames f g) = (leaves g).map f
  | .name _ => rfl
  | .null => rfl
  | .list entries => leavesOf_mapNamesOf f entries

theorem leavesOf_mapNamesOf (f : String → String) : ∀ groups : List Group,
    leavesOf (mapNamesOf f groups) = (leavesOf groups).map f
  | [] => rfl
  | g :: more => by
      rw [mapNamesOf, leavesOf, leavesOf, leaves_mapNames f g, leavesOf_mapNamesOf f more,
        List.map_append]

end

mutual

theorem mapNames_eq_self (f : String → String) : ∀ g : Group,
    (∀ name ∈ leaves g, f name = name) → mapNames f g = g
  | .name category, h => by rw [mapNames, h category (List.mem_singleton_self _)]
  | .null, _ => rfl
  | .list entries, h => by rw [mapNames, mapNamesOf_eq_self f entries h]

theorem mapNamesOf_eq_self (f : String → String) : ∀ groups : List Group,
    (∀ name ∈ leavesOf groups, f name = name) → mapNamesOf f groups = groups
  | [], _ => rfl
  | g :: more, h => by
      rw [leavesOf, List.forall_mem_append] at h
      rw [mapNamesOf, mapNames_eq_self f g h.1, mapNamesOf_eq_self f more h.2]

end

/-- Groups stay the same exactly when each of their names does. -/
theorem mapNamesOf_eq_self_iff {f : String → String} {groups : List Group} :
    mapNamesOf f groups = groups ↔ ∀ name ∈ leavesOf groups, f name = name := by
  constructor
  · intro hSame
    have hLeaves := leavesOf_mapNamesOf f groups
    rw [hSame] at hLeaves
    exact List.map_inj_left.1 (hLeaves.symm.trans (List.map_id _).symm)
  · exact mapNamesOf_eq_self f groups

theorem mapNamesOf_eq_map (f : String → String) (groups : List Group) :
    mapNamesOf f groups = groups.map (mapNames f) := by
  induction groups with
  | nil => rfl
  | cons g more ih => rw [mapNamesOf, List.map_cons, ih]

mutual

theorem mapNames_mapNames (f g : String → String) : ∀ x : Group,
    mapNames f (mapNames g x) = mapNames (f ∘ g) x
  | .name _ => rfl
  | .null => rfl
  | .list entries => by
      rw [mapNames, mapNames, mapNames, mapNamesOf_mapNamesOf f g entries]

theorem mapNamesOf_mapNamesOf (f g : String → String) : ∀ groups : List Group,
    mapNamesOf f (mapNamesOf g groups) = mapNamesOf (f ∘ g) groups
  | [] => rfl
  | x :: more => by
      rw [mapNamesOf, mapNamesOf, mapNamesOf, mapNames_mapNames f g x,
        mapNamesOf_mapNamesOf f g more]

end

/-- The name stands somewhere in an entry, however deep. -/
inductive HasLeaf (name : String) : Group → Prop
  | here : HasLeaf name (.name name)
  | inside {entries : List Group} {g : Group} (hMem : g ∈ entries) (hLeaf : HasLeaf name g) :
      HasLeaf name (.list entries)

mutual

theorem mem_leaves_iff {name : String} : ∀ {g : Group}, name ∈ leaves g ↔ HasLeaf name g
  | .name category => by
      rw [leaves, List.mem_singleton]
      constructor
      · rintro rfl
        exact .here
      · rintro ⟨⟩
        rfl
  | .null => iff_of_false List.not_mem_nil nofun
  | .list entries => by
      rw [leaves, mem_leavesOf_iff]
      constructor
      · rintro ⟨g, hMem, hLeaf⟩
        exact .inside hMem hLeaf
      · rintro (_ | ⟨hMem, hLeaf⟩)
        exact ⟨_, hMem, hLeaf⟩

theorem mem_leavesOf_iff {name : String} : ∀ {groups : List Group},
    name ∈ leavesOf groups ↔ ∃ g ∈ groups, HasLeaf name g
  | [] => iff_of_false List.not_mem_nil (by simp)
  | g :: more => by
      rw [leavesOf, List.mem_append, mem_leaves_iff, mem_leavesOf_iff]
      simp only [List.mem_cons, exists_eq_or_imp]

end

instance (name : String) (g : Group) : Decidable (HasLeaf name g) :=
  decidable_of_iff (name ∈ leaves g) mem_leaves_iff

mutual

theorem quoted_infix_of_mem_leaves {name : String} : ∀ {g : Group}, name ∈ leaves g →
    Json.quoted name <:+: Json.compactChars (toJson g)
  | .name category, h => by
      obtain rfl := List.mem_singleton.1 h
      exact List.infix_rfl
  | .null, h => absurd h List.not_mem_nil
  | .list entries, h => by
      have hEntries : name ∈ leavesOf entries := h
      obtain ⟨piece, hPiece, hName⟩ := exists_piece_of_mem_leavesOf hEntries
      rw [toJson, Json.compactChars]
      exact List.infix_append_of_infix_left
        (List.infix_cons (hName.trans (Json.infix_joined_of_mem _ hPiece)))

/-- Every name is seen in one of the pieces that the groups are written in. -/
theorem exists_piece_of_mem_leavesOf {name : String} : ∀ {groups : List Group}, name ∈ leavesOf groups →
    ∃ piece ∈ Json.compactItems (toJsons groups), Json.quoted name <:+: piece
  | [], h => absurd h List.not_mem_nil
  | g :: more, h => by
      rw [leavesOf, List.mem_append] at h
      rw [toJsons, Json.compactItems]
      rcases h with hHere | hThere
      · exact ⟨_, List.mem_cons_self, quoted_infix_of_mem_leaves hHere⟩
      · obtain ⟨piece, hPiece, hName⟩ := exists_piece_of_mem_leavesOf hThere
        exact ⟨piece, List.mem_cons_of_mem _ hPiece, hName⟩

end

/-- The groups as a text hold every name as it is written in JSON. -/
theorem quoted_infix_compact {name : String} {groups : List Group} (h : name ∈ leavesOf groups) :
    Json.quoted name <:+: (listToJson groups).compact.toList := by
  rw [Json.compact, String.toList_ofList]
  exact quoted_infix_of_mem_leaves (g := .list groups) h

end Group

end Phrasebook
