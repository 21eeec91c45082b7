import Phrasebook.FileTree.Basic
import Phrasebook.Proofs.Text.Search

/-!
Names in paths. A path that is one ordinary name longer has the names of the shorter path and then this
name, whether or not the shorter one ends with a slash.
-/

namespace Phrasebook

namespace FileTree

/-- A name that stands for itself in a path. -/
structure IsOrdinary (name : String) : Prop where
  ne_empty : name ≠ ""
  ne_dot : name ≠ "."
  ne_dots : name ≠ ".."
  slash : '/' ∉ name.toList

/-- The names in a path as they are written, without a dot for a slash at the end. -/
def pieces (path : String) : List String :=
  (Text.splitAll '/' path).filter fun s => !s.isEmpty

theorem pieces_of_ordinary {name : String} (h : IsOrdinary name) : pieces name = [name] := by
  have hNone : ∀ c ∈ name.toList, (c == '/') = false := by
    intro c hc
    have hNe : c ≠ '/' := fun hEq => h.slash (hEq ▸ hc)
    simpa using hNe
  have hPresent : name.isEmpty = false := by simpa using h.ne_empty
  rw [pieces, Text.splitAll, Text.splitList_of_none hNone]
  simp [hPresent]

theorem pieces_slash (path name : String) : pieces (path ++ "/" ++ name) = pieces path ++ pieces name := by
  have hChars : (path ++ "/" ++ name).toList = path.toList ++ '/' :: name.toList := by simp
  rw [pieces, pieces, pieces, Text.splitAll, Text.splitAll, Text.splitAll, hChars,
    Text.splitList_append_cons (by simp), List.map_append, List.filter_append]

theorem endsWith_slash_iff {path : String} :
    path.endsWith "/" = true ↔ ∃ front, path = front ++ "/" := by
  rw [String.endsWith, String.Slice.endsWith_string_iff, String.copy_toSlice]
  constructor
  · rintro ⟨front, hFront⟩
    refine ⟨String.ofList front, String.toList_inj.1 ?_⟩
    simp [← hFront]
  · rintro ⟨front, rfl⟩
    exact ⟨front.toList, by rw [String.toList_append]⟩

theorem isAbsolute_iff {path : String} : isAbsolute path = true ↔ ['/'] <+: path.toList := by
  rw [isAbsolute, String.startsWith_string_iff]
  rfl

theorem isAbsolute_append {path : String} (h : path ≠ "") (more : String) :
    isAbsolute (path ++ more) = isAbsolute path := by
  rw [Bool.eq_iff_iff, isAbsolute_iff, isAbsolute_iff, String.toList_append]
  cases hChars : path.toList with
  | nil => exact absurd (String.toList_eq_nil_iff.1 hChars) h
  | cons c rest => simp [List.cons_prefix_cons]

theorem isAbsolute_of_ordinary {name : String} (h : IsOrdinary name) : isAbsolute name = false := by
  rw [Bool.eq_false_iff, ne_eq, isAbsolute_iff]
  rintro ⟨rest, hRest⟩
  exact h.slash (hRest ▸ List.mem_cons_self)

/-- A longer path is the path, a slash unless it has one at its end, and the name. -/
theorem join_cases (root : String) {name : String} (h : IsOrdinary name) :
    (root = "" ∧ join root name = name) ∨
      (∃ front, root = front ++ "/" ∧ join root name = front ++ "/" ++ name) ∨
      (root ≠ "" ∧ join root name = root ++ "/" ++ name) := by
  have hRelative := isAbsolute_of_ordinary h
  rw [join, hRelative, Bool.false_or]
  by_cases hEmpty : root = ""
  · exact Or.inl ⟨hEmpty, by simp [hEmpty]⟩
  rw [if_neg (by simpa using hEmpty)]
  by_cases hSlash : root.endsWith "/" = true
  · rw [if_pos hSlash]
    obtain ⟨front, rfl⟩ := endsWith_slash_iff.1 hSlash
    exact Or.inr (Or.inl ⟨front, rfl, rfl⟩)
  · rw [if_neg hSlash]
    exact Or.inr (Or.inr ⟨hEmpty, rfl⟩)

theorem pieces_join (root : String) {name : String} (h : IsOrdinary name) :
    pieces (join root name) = pieces root ++ [name] := by
  have hNone : pieces "" = [] := by decide
  rcases join_cases root h with ⟨rfl, hJoin⟩ | ⟨front, rfl, hJoin⟩ | ⟨-, hJoin⟩
  · rw [hJoin, hNone, pieces_of_ordinary h, List.nil_append]
  · have hFront := pieces_slash front ""
    rw [String.append_empty, hNone, List.append_nil] at hFront
    rw [hJoin, hFront, pieces_slash, pieces_of_ordinary h]
  · rw [hJoin, pieces_slash, pieces_of_ordinary h]

theorem exists_join_eq_append (root : String) {name : String} (h : IsOrdinary name) :
    ∃ front, join root name = front ++ name := by
  rcases join_cases root h with ⟨-, hJoin⟩ | ⟨_, -, hJoin⟩ | ⟨-, hJoin⟩
  · exact ⟨"", by rw [hJoin, String.empty_append]⟩
  · exact ⟨_, hJoin⟩
  · exact ⟨_, hJoin⟩

theorem isEmpty_join (root : String) {name : String} (h : IsOrdinary name) :
    (join root name).isEmpty = false := by
  obtain ⟨front, hFront⟩ := exists_join_eq_append root h
  simp [hFront, h.ne_empty]

/-- A path does not end with a slash when an ordinary name stands at its end. -/
theorem names_join (root : String) {name : String} (h : IsOrdinary name) :
    names (join root name) = pieces root ++ [name] := by
  have hEnd : (join root name).endsWith "/" = false := by
    rw [Bool.eq_false_iff, ne_eq, endsWith_slash_iff]
    rintro ⟨front, hFront⟩
    obtain ⟨before, hBefore⟩ := exists_join_eq_append root h
    have hChars := congrArg String.toList (hBefore.symm.trans hFront)
    rw [String.toList_append, String.toList_append] at hChars
    cases hLast : name.toList.getLast? with
    | none => exact h.ne_empty (String.toList_eq_nil_iff.1 (List.getLast?_eq_none_iff.1 hLast))
    | some c =>
        have hSlash := congrArg List.getLast? hChars
        rw [List.getLast?_append, hLast, List.getLast?_append] at hSlash
        obtain rfl : c = '/' := by simpa using hSlash
        exact h.slash (List.mem_of_getLast? hLast)
  rw [names, hEnd, ← pieces, pieces_join root h]
  rfl

theorem origin_join (cwd : Place) (root : String) {name : String} (h : IsOrdinary name) :
    origin cwd (join root name) = origin cwd root := by
  have hRelative := isAbsolute_of_ordinary h
  rw [origin, origin]
  rcases join_cases root h with ⟨rfl, hJoin⟩ | ⟨front, rfl, hJoin⟩ | ⟨hNe, hJoin⟩
  · rw [hJoin, hRelative]
    rfl
  · rw [hJoin, isAbsolute_append (by simp)]
  · rw [hJoin, String.append_assoc, isAbsolute_append hNe]

end FileTree

end Phrasebook
