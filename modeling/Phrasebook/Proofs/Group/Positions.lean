import Mathlib.Data.List.Basic
import Mathlib.Data.List.Forall2
import Phrasebook.Proofs.Group.Names
import Phrasebook.Proofs.Text.Numeral

/-!
Positions in groups. A path of positions, counted from one, leads to at most one entry. The labels of the groups name
each leaf and each null once, by the path that leads to it, in the order in which the leaves are listed. A
relabelling changes the names that it counts and nothing else, so every path leads where it led before.
-/

namespace Phrasebook.Group

/-- The entry to which a path leads; positions are counted from one at every depth. -/
def entryAt? : Group → List Nat → Option Group
  | g, [] => some g
  | .list entries, (n + 1) :: path => entries[n]?.bind fun g => entryAt? g path
  | _, _ :: _ => none

/-- A leaf, or a null where there is no name. -/
def ofName? : Option String → Group
  | some category => .name category
  | none => .null

variable {path front : List Nat} {entry : Option String}

theorem entryAt?_list_cons (entries : List Group) (n : Nat) (path : List Nat) :
    entryAt? (.list entries) ((n + 1) :: path) = entries[n]?.bind fun g => entryAt? g path := rfl

theorem entryAt?_name_eq_some_iff {category : String} :
    entryAt? (.name category) path = some (ofName? entry) ↔ path = [] ∧ entry = some category := by
  cases path with
  | nil => cases entry <;> simp [entryAt?, ofName?, eq_comm]
  | cons n path => simp [entryAt?]

theorem entryAt?_null_eq_some_iff :
    entryAt? .null path = some (ofName? entry) ↔ path = [] ∧ entry = none := by
  cases path with
  | nil => cases entry <;> simp [entryAt?, ofName?]
  | cons n path => simp [entryAt?]

/-- A path leads to a leaf or a null of a list through one of its positions. -/
theorem entryAt?_list_eq_some_iff {entries : List Group} :
    entryAt? (.list entries) path = some (ofName? entry) ↔
      ∃ n rest g, path = (n + 1) :: rest ∧ entries[n]? = some g ∧ entryAt? g rest = some (ofName? entry) := by
  rcases path with _ | ⟨_ | n, rest⟩
  · cases entry <;> simp [entryAt?, ofName?]
  · simp [entryAt?]
  · simp [entryAt?_list_cons, Option.bind_eq_some_iff]

mutual

/-- The leaves and nulls of an entry are listed with the paths that lead to them. -/
theorem mem_entriesAt_iff : ∀ {g : Group} {front : List Nat},
    (path, entry) ∈ entriesAt front g ↔ ∃ rest, path = front ++ rest ∧ entryAt? g rest = some (ofName? entry)
  | .name category, front => by
      simp [entriesAt, entryAt?_name_eq_some_iff]
  | .null, front => by
      simp [entriesAt, entryAt?_null_eq_some_iff]
  | .list entries, front => by
      rw [entriesAt, mem_entriesFrom_iff]
      simp only [entryAt?_list_eq_some_iff]
      constructor
      · rintro ⟨n, rest, g, rfl, hEntry, hLeads⟩
        exact ⟨(n + 1) :: rest, by rw [Nat.add_comm], n, rest, g, rfl, hEntry, hLeads⟩
      · rintro ⟨_, rfl, n, rest, g, rfl, hEntry, hLeads⟩
        exact ⟨n, rest, g, by rw [Nat.add_comm], hEntry, hLeads⟩

theorem mem_entriesFrom_iff : ∀ {groups : List Group} {front : List Nat} {position : Nat},
    (path, entry) ∈ entriesFrom front position groups ↔
      ∃ n rest g, path = front ++ (position + n) :: rest ∧ groups[n]? = some g ∧
        entryAt? g rest = some (ofName? entry)
  | [], front, position => by simp [entriesFrom]
  | g :: more, front, position => by
      rw [entriesFrom, List.mem_append, mem_entriesAt_iff, mem_entriesFrom_iff]
      constructor
      · rintro (⟨rest, rfl, hLeads⟩ | ⟨n, rest, g', rfl, hEntry, hLeads⟩)
        · exact ⟨0, rest, g, by simp, rfl, hLeads⟩
        · exact ⟨n + 1, rest, g', by rw [Nat.add_assoc, Nat.add_comm 1], hEntry, hLeads⟩
      · rintro ⟨_ | n, rest, g', rfl, hEntry, hLeads⟩
        · left
          obtain rfl : g = g' := Option.some.inj hEntry
          exact ⟨rest, by simp, hLeads⟩
        · right
          exact ⟨n, rest, g', by rw [Nat.add_assoc, Nat.add_comm 1], hEntry, hLeads⟩

end

theorem mem_pathEntries_iff {groups : List Group} :
    (path, entry) ∈ pathEntries groups ↔ entryAt? (.list groups) path = some (ofName? entry) := by
  have hEntries : pathEntries groups = entriesAt [] (.list groups) := by rw [pathEntries, entriesAt]
  rw [hEntries, mem_entriesAt_iff]
  simp

mutual

/-- The paths are in the order of their first different positions. -/
theorem entriesAt_pairwise (front : List Nat) : ∀ g : Group,
    (entriesAt front g).Pairwise fun a b => a.1 < b.1
  | .name category => List.pairwise_singleton _ _
  | .null => List.pairwise_singleton _ _
  | .list entries => by
      rw [entriesAt]
      exact entriesFrom_pairwise front 1 entries

theorem entriesFrom_pairwise (front : List Nat) (position : Nat) : ∀ groups : List Group,
    (entriesFrom front position groups).Pairwise fun a b => a.1 < b.1
  | [] => List.Pairwise.nil
  | g :: more => by
      rw [entriesFrom, List.pairwise_append]
      refine ⟨entriesAt_pairwise _ g, entriesFrom_pairwise front (position + 1) more, ?_⟩
      rintro ⟨path, entry⟩ hHere ⟨path', entry'⟩ hThere
      obtain ⟨rest, rfl, -⟩ := mem_entriesAt_iff.1 hHere
      obtain ⟨n, rest', g', rfl, -, -⟩ := mem_entriesFrom_iff.1 hThere
      rw [List.append_assoc, List.singleton_append]
      exact List.append_left_lt (List.Lex.rel (by omega))

end

mutual

/-- Without the nulls, the labels name the leaves in their order. -/
theorem filterMap_entriesAt (front : List Nat) : ∀ g : Group,
    (entriesAt front g).filterMap (·.2) = leaves g
  | .name _ => rfl
  | .null => rfl
  | .list entries => by rw [entriesAt, leaves, filterMap_entriesFrom front 1 entries]

theorem filterMap_entriesFrom (front : List Nat) (position : Nat) : ∀ groups : List Group,
    (entriesFrom front position groups).filterMap (·.2) = leavesOf groups
  | [] => rfl
  | g :: more => by
      rw [entriesFrom, leavesOf, List.filterMap_append, filterMap_entriesAt _ g,
        filterMap_entriesFrom front (position + 1) more]

end

variable {old new : String}

/-- An entry and what becomes of it: the old name gives way to the new one, and everything else stays. -/
inductive IsRelabelled (old new : String) : Group → Group → Prop
  | renamed : IsRelabelled old new (.name old) (.name new)
  | name {category : String} (h : category ≠ old) : IsRelabelled old new (.name category) (.name category)
  | null : IsRelabelled old new .null .null
  | list {entries after : List Group} (h : after.length = entries.length) :
      IsRelabelled old new (.list entries) (.list after)

theorem mapNames_isRelabelled (old new : String) (g : Group) :
    IsRelabelled old new g (mapNames (swap old new) g) := by
  cases g with
  | name category =>
      rw [mapNames, swap]
      split
      next hOld =>
        subst hOld
        exact .renamed
      next hOther => exact .name hOther
  | null => exact .null
  | list entries =>
      rw [mapNames, mapNamesOf_eq_map]
      exact .list (List.length_map _)

/-- A path leads to the same entry with its names changed. -/
theorem entryAt?_mapNames (f : String → String) (g : Group) (path : List Nat) :
    entryAt? (mapNames f g) path = (entryAt? g path).map (mapNames f) := by
  induction path generalizing g with
  | nil => rfl
  | cons n path ih =>
      cases g with
      | name category => cases n <;> rfl
      | null => cases n <;> rfl
      | list entries =>
          rw [mapNames, mapNamesOf_eq_map]
          cases n with
          | zero => rfl
          | succ n =>
              rw [entryAt?_list_cons, entryAt?_list_cons, List.getElem?_map, Option.bind_map, Option.map_bind]
              refine congrArg (entries[n]?.bind ·) ?_
              funext g
              exact ih g

mutual

theorem entriesAt_mapNames (f : String → String) (front : List Nat) : ∀ g : Group,
    entriesAt front (mapNames f g) = (entriesAt front g).map fun e => (e.1, e.2.map f)
  | .name _ => rfl
  | .null => rfl
  | .list entries => by
      rw [mapNames, entriesAt, entriesAt]
      exact entriesFrom_mapNamesOf f front 1 entries

theorem entriesFrom_mapNamesOf (f : String → String) (front : List Nat) (position : Nat) :
    ∀ groups : List Group, entriesFrom front position (mapNamesOf f groups) =
      (entriesFrom front position groups).map fun e => (e.1, e.2.map f)
  | [] => rfl
  | g :: more => by
      rw [mapNamesOf, entriesFrom, entriesFrom, entriesAt_mapNames f _ g,
        entriesFrom_mapNamesOf f front (position + 1) more, List.map_append]

end

/-- A label in back quotes: the positions on a path, each with a colon behind it, and the name there, or "null". -/
inductive IsLabel : List Nat × Option String → String → Prop
  | name (path : List Nat) (name : String) :
      IsLabel (path, some name) ("`" ++ String.join (path.map fun n => toString n ++ ":") ++ name ++ "`")
  | null (path : List Nat) :
      IsLabel (path, none) ("`" ++ String.join (path.map fun n => toString n ++ ":") ++ "null`")

/-- What the labels of groups tell: each leaf and each null once, by the path that leads to it, in the order of the
leaves. -/
structure AreLabelled (groups : List Group) : Prop where
  labels : ∃ all, List.Forall₂ IsLabel (pathEntries groups) all ∧ labels groups = " ".intercalate all
  leads : ∀ path entry,
    (path, entry) ∈ pathEntries groups ↔ entryAt? (.list groups) path = some (ofName? entry)
  ordered : (pathEntries groups).Pairwise fun a b => a.1 < b.1
  leaves : (pathEntries groups).filterMap (·.2) = leavesOf groups

/-- What becomes of groups in which `count` names are replaced. -/
structure AreRelabelled (old new : String) (groups after : List Group) (count : Nat) : Prop where
  count : count = (leavesOf groups).count old
  leaves : leavesOf after = (leavesOf groups).map fun name => if name = old then new else name
  entries : ∀ path,
    Option.Rel (IsRelabelled old new) (entryAt? (.list groups) path) (entryAt? (.list after) path)
  gone : old ≠ new → mention after old = false
  paths : (pathEntries after).map (·.1) = (pathEntries groups).map (·.1)

theorem isLabel_pathLabel (entry : List Nat × Option String) : IsLabel entry ("`" ++ pathLabel entry ++ "`") := by
  obtain ⟨path, name?⟩ := entry
  have hPath : path.map (fun n => Text.decimal n ++ ":") = path.map fun n => toString n ++ ":" :=
    List.map_congr_left fun n _ => by rw [Text.decimal_eq_toString]
  rw [pathLabel, hPath, ← String.append_assoc]
  cases name? with
  | some name => exact .name path name
  | none =>
      rw [Option.getD_none, String.append_assoc]
      exact .null path

theorem labels_areLabels (groups : List Group) :
    ∃ all, List.Forall₂ IsLabel (pathEntries groups) all ∧ labels groups = " ".intercalate all :=
  ⟨_, List.forall₂_map_right_iff.2 (List.forall₂_same.2 fun entry _ => isLabel_pathLabel entry), rfl⟩

theorem mention_mapNamesOf_swap (hNe : old ≠ new) (groups : List Group) :
    mention (mapNamesOf (swap old new) groups) old = false := by
  rw [← Bool.not_eq_true, mention_iff, leavesOf_mapNamesOf, List.mem_map]
  rintro ⟨name, -, hOld⟩
  exact swap_ne_old hNe name hOld

/-- The counting, changing and labelling of names go through the same entries, however deep the groups are. -/
theorem edits_agree_with_views (groups : List Group) (old new : String) :
    AreLabelled groups ∧
      AreRelabelled old new groups (relabelAll old new groups).1 (relabelAll old new groups).2 := by
  rw [relabelAll_eq]
  constructor
  · exact ⟨labels_areLabels groups, fun path entry => mem_pathEntries_iff, entriesFrom_pairwise [] 1 groups,
      filterMap_entriesFrom [] 1 groups⟩
  · refine ⟨rfl, leavesOf_mapNamesOf _ groups, fun path => ?_, fun hNe => mention_mapNamesOf_swap hNe groups, ?_⟩
    · have hPath := entryAt?_mapNames (swap old new) (.list groups) path
      rw [mapNames] at hPath
      rw [hPath]
      cases entryAt? (.list groups) path with
      | none => exact .none
      | some g => exact .some (mapNames_isRelabelled old new g)
    · rw [pathEntries, pathEntries, entriesFrom_mapNamesOf, List.map_map]
      rfl

/-- Two towns in lists of lists, and an entry without a name. -/
def townGroups : List Group := [.name "town", .list [.null, .list [.name "town", .name "river"]]]

/-- Both towns are found where the labels say. -/
theorem towns_labelled :
    AreLabelled townGroups ∧
      AreRelabelled "town" "city" townGroups
        [.name "city", .list [.null, .list [.name "city", .name "river"]]] 2 ∧
      labels townGroups = "`1:town` `2:1:null` `2:2:1:town` `2:2:2:river`" := by
  obtain ⟨hLabelled, hRelabelled⟩ := edits_agree_with_views townGroups "town" "city"
  exact ⟨hLabelled, hRelabelled, by decide +kernel⟩

end Phrasebook.Group
