import Mathlib.Data.List.Basic
import Phrasebook.FileTree.Confined
import Phrasebook.Proofs.FileTree.Walk

/-!
Where paths lead. The names of a path are taken one after another from a folder on, and a link is replaced by
the names in its target. What a path leads to that way has no link on the way to it, whatever links the path
went through. A path is confined to a folder when it has no step upwards and leads into the folder.
-/

namespace Phrasebook.FileTree

/-- From the folder `base` the names lead to a place, through so many links. Behind a file there are no
names. -/
inductive Resolves (t : FileTree) : Nat → Place → List String → Place → Prop where
  | here (base : Place) : Resolves t 0 base [] base
  | dot {links : Nat} {base p : Place} {rest : List String} (h : Resolves t links base rest p) :
      Resolves t links base ("." :: rest) p
  | up {links : Nat} {base p : Place} {rest : List String}
      (h : Resolves t links base.dropLast rest p) : Resolves t links base (".." :: rest) p
  | file {base : Place} {name : String} {content : List UInt8} {modified : Int} (hDot : name ≠ ".")
      (hDots : name ≠ "..") (hNode : t.node? (base ++ [name]) = some (.file content modified)) :
      Resolves t 0 base [name] (base ++ [name])
  | folder {links : Nat} {base p : Place} {name : String} {rest : List String} (hDot : name ≠ ".")
      (hDots : name ≠ "..") (hNode : t.node? (base ++ [name]) = some .folder)
      (h : Resolves t links (base ++ [name]) rest p) : Resolves t links base (name :: rest) p
  | link {links : Nat} {base p : Place} {name target : String} {rest : List String} (hDot : name ≠ ".")
      (hDots : name ≠ "..") (hNode : t.node? (base ++ [name]) = some (.link target))
      (h : Resolves t links (origin base target) (names target ++ rest) p) :
      Resolves t (links + 1) base (name :: rest) p

variable {t : FileTree} {base p : Place} {todo : List String}

theorem exists_resolves_of_walk {links : Nat} (h : t.walk false links base todo = .ok p) :
    ∃ used ≤ links, t.Resolves used base todo p := by
  fun_induction walk t false links base todo with
  | case1 links base =>
      obtain rfl := Except.ok.inj h
      exact ⟨0, Nat.zero_le _, .here base⟩
  | case2 links base rest ih =>
      obtain ⟨used, hUsed, hRest⟩ := ih h
      exact ⟨used, hUsed, .dot hRest⟩
  | case3 links base rest hDot ih =>
      obtain ⟨used, hUsed, hRest⟩ := ih h
      exact ⟨used, hUsed, .up hRest⟩
  | case4 links base name rest hDot hDots here hNode hCreate => simp at hCreate
  | case5 => simp at h
  | case6 links base name rest hDot hDots here hNode ih =>
      obtain ⟨used, hUsed, hRest⟩ := ih h
      exact ⟨used, hUsed, .folder hDot hDots hNode hRest⟩
  | case7 links base name rest hDot hDots here content modified hNode hLast =>
      obtain rfl := Except.ok.inj h
      obtain rfl := List.isEmpty_iff.1 hLast
      exact ⟨0, Nat.zero_le _, .file hDot hDots hNode⟩
  | case8 => simp at h
  | case9 => simp at h
  | case10 base name rest hDot hDots here target hNode links ih =>
      obtain ⟨used, hUsed, hRest⟩ := ih h
      exact ⟨used + 1, Nat.succ_le_succ hUsed, .link hDot hDots hNode hRest⟩

theorem Resolves.walk_eq {used links : Nat} (h : t.Resolves used base todo p) (hUsed : used ≤ links) :
    t.walk false links base todo = .ok p := by
  induction h generalizing links with
  | here base => rw [walk]
  | dot _ ih => rw [walk_dot, ih hUsed]
  | up _ ih => rw [walk_dots, ih hUsed]
  | file hDot hDots hNode => rw [walk_file hDot hDots hNode]; rfl
  | folder hDot hDots hNode _ ih => rw [walk_folder hDot hDots hNode, ih hUsed]
  | link hDot hDots hNode _ ih =>
      obtain ⟨left, rfl⟩ := Nat.exists_eq_add_of_lt hUsed
      rw [walk_link_succ hDot hDots hNode, ih (Nat.le_add_right _ _)]

theorem walk_eq_ok_iff {links : Nat} :
    t.walk false links base todo = .ok p ↔ ∃ used ≤ links, t.Resolves used base todo p :=
  ⟨exists_resolves_of_walk, fun ⟨_, hUsed, h⟩ => h.walk_eq hUsed⟩

/-- A path leads to a place, through no more links than are followed. -/
def Locates (t : FileTree) (cwd : Place) (path : String) (p : Place) : Prop :=
  path ≠ "" ∧ ∃ links ≤ linkLimit, t.Resolves links (origin cwd path) (names path) p

theorem find_eq_ok_iff {cwd : Place} {path : String} :
    t.find cwd path = .ok p ↔ t.Locates cwd path p := by
  rw [find, Locates, ← walk_eq_ok_iff]
  by_cases hEmpty : path = ""
  · simp [hEmpty]
  · simp [hEmpty]

/-- The way to a place can be cut between two names. -/
theorem Resolves.split {links : Nat} {front back : List String}
    (h : t.Resolves links base (front ++ back) p) :
    ∃ before behind q, before + behind = links ∧ t.Resolves before base front q ∧
      t.Resolves behind q back p := by
  generalize hTodo : front ++ back = todo at h
  induction h generalizing front with
  | here base =>
      obtain ⟨rfl, rfl⟩ := List.append_eq_nil_iff.1 hTodo
      exact ⟨0, 0, base, rfl, .here base, .here base⟩
  | @dot links base p rest hRest ih =>
      cases front with
      | nil =>
          obtain rfl : back = "." :: rest := hTodo
          exact ⟨0, links, base, Nat.zero_add _, .here base, .dot hRest⟩
      | cons first front =>
          obtain ⟨rfl, hFront⟩ := List.cons_eq_cons.1 hTodo
          obtain ⟨before, behind, q, hLinks, hBefore, hBehind⟩ := ih hFront
          exact ⟨before, behind, q, hLinks, .dot hBefore, hBehind⟩
  | @up links base p rest hRest ih =>
      cases front with
      | nil =>
          obtain rfl : back = ".." :: rest := hTodo
          exact ⟨0, links, base, Nat.zero_add _, .here base, .up hRest⟩
      | cons first front =>
          obtain ⟨rfl, hFront⟩ := List.cons_eq_cons.1 hTodo
          obtain ⟨before, behind, q, hLinks, hBefore, hBehind⟩ := ih hFront
          exact ⟨before, behind, q, hLinks, .up hBefore, hBehind⟩
  | @file base name content modified hDot hDots hNode =>
      cases front with
      | nil =>
          obtain rfl : back = [name] := hTodo
          exact ⟨0, 0, base, rfl, .here base, .file hDot hDots hNode⟩
      | cons first front =>
          obtain ⟨rfl, hFront⟩ := List.cons_eq_cons.1 hTodo
          obtain ⟨rfl, rfl⟩ := List.append_eq_nil_iff.1 hFront
          exact ⟨0, 0, _, rfl, .file hDot hDots hNode, .here _⟩
  | @folder links base p name rest hDot hDots hNode hRest ih =>
      cases front with
      | nil =>
          obtain rfl : back = name :: rest := hTodo
          exact ⟨0, links, base, Nat.zero_add _, .here base, .folder hDot hDots hNode hRest⟩
      | cons first front =>
          obtain ⟨rfl, hFront⟩ := List.cons_eq_cons.1 hTodo
          obtain ⟨before, behind, q, hLinks, hBefore, hBehind⟩ := ih hFront
          exact ⟨before, behind, q, hLinks, .folder hDot hDots hNode hBefore, hBehind⟩
  | @link links base p name target rest hDot hDots hNode hRest ih =>
      cases front with
      | nil =>
          obtain rfl : back = name :: rest := hTodo
          exact ⟨0, links + 1, base, Nat.zero_add _, .here base, .link hDot hDots hNode hRest⟩
      | cons first front =>
          obtain ⟨rfl, hFront⟩ := List.cons_eq_cons.1 hTodo
          -- The names in the target come in front of what is left of the names in front.
          have hNames : names target ++ front ++ back = names target ++ rest := by
            rw [List.append_assoc]
            exact congrArg (names target ++ ·) hFront
          obtain ⟨before, behind, q, hLinks, hBefore, hBehind⟩ := ih hNames
          exact ⟨before + 1, behind, q, by omega, .link hDot hDots hNode hBefore, hBehind⟩

namespace LeadsTo

variable {cwd : Place} {root : String}

/-- A slash at the end of a path to a folder changes nothing. -/
theorem walk_names (h : t.LeadsTo cwd root base) :
    t.walk false linkLimit (origin cwd root) (names root) = .ok base := by
  have hNames : names root = pieces root ∨ names root = pieces root ++ ["."] := by
    rw [names]
    split
    next => exact Or.inr rfl
    next => exact Or.inl rfl
  rcases hNames with hNames | hNames
  · rw [hNames, h.walk]
  · obtain ⟨left, hLeft⟩ := walk_append h.walk h.folder
    rw [hNames, hLeft false _ (List.cons_ne_nil _ _), walk_dot, FileTree.walk]

theorem find_eq (h : t.LeadsTo cwd root base) (hRoot : root ≠ "") : t.find cwd root = .ok base := by
  rw [find, if_neg (by simpa using hRoot), h.walk_names]

end LeadsTo

/-- A way that leads somewhere is made out of nothing new. -/
theorem Resolves.makeFoldersFrom_eq {t' : FileTree} {links : Nat} (h : t.Resolves links base todo p)
    (hLinks : links ≤ linkLimit) (hMake : t.makeFoldersFrom base todo = some t') : t' = t := by
  induction todo generalizing base links with
  | nil => exact (Option.some.inj hMake).symm
  | cons name rest ih =>
      have hCut : t.Resolves links base ([name] ++ rest) p := h
      obtain ⟨before, behind, q, hSum, hFirst, hRest⟩ := hCut.split
      rw [makeFoldersFrom, hFirst.walk_eq (by omega)] at hMake
      simp only at hMake
      split at hMake
      next => exact ih hRest (by omega) hMake
      next => simp at hMake

/-- Folders that are there are not made again. -/
theorem LeadsTo.makeFolders?_eq {t' : FileTree} {cwd : Place} {root : String}
    (h : t.LeadsTo cwd root base) (hMake : t.makeFolders? cwd root = some t') : t' = t := by
  obtain ⟨links, hLinks, hResolves⟩ := walk_eq_ok_iff.1 h.walk_names
  exact hResolves.makeFoldersFrom_eq hLinks hMake

/-- From the top only folders lead to the place, and it is no link. -/
structure IsCanonical (t : FileTree) (p : Place) : Prop where
  folders : ∀ front, front <+: p → front ≠ p → t.node? front = some .folder
  noLink : ∀ target, t.node? p ≠ some (.link target)

theorem isCanonical_top (t : FileTree) : t.IsCanonical [] where
  folders front hFront hNe := absurd (List.prefix_nil.1 hFront) hNe
  noLink target := by simp [node?]

/-- Folders on the way to a canonical place are canonical. -/
theorem IsCanonical.of_prefix (h : t.IsCanonical p) {front : Place} (hFront : front <+: p) :
    t.IsCanonical front := by
  by_cases hSame : front = p
  · rwa [hSame]
  · refine ⟨fun shorter hShorter hNe => h.folders shorter (hShorter.trans hFront) ?_, fun target => ?_⟩
    · rintro rfl
      exact hNe (hShorter.eq_of_length_le hFront.length_le)
    · rw [h.folders front hFront hSame]
      simp

/-- What lies in a canonical folder is canonical, unless it is a link. -/
theorem IsCanonical.child (h : t.IsCanonical base) (hFolder : t.node? base = some .folder)
    {name : String} (hLink : ∀ target, t.node? (base ++ [name]) ≠ some (.link target)) :
    t.IsCanonical (base ++ [name]) := by
  refine ⟨fun front hFront hNe => ?_, hLink⟩
  rcases List.prefix_concat_iff.1 hFront with hSame | hFront
  · exact absurd hSame hNe
  · by_cases hBase : front = base
    · rw [hBase, hFolder]
    · exact h.folders front hFront hBase

theorem node?_top (t : FileTree) : t.node? [] = some .folder := by simp [node?]

/-- Every way from a canonical folder leads to a canonical place, through whatever links it goes. -/
theorem Resolves.isCanonical {links : Nat} (h : t.Resolves links base todo p)
    (hBase : t.IsCanonical base) (hFolder : t.node? base = some .folder) : t.IsCanonical p := by
  induction h with
  | here base => exact hBase
  | dot _ ih => exact ih hBase hFolder
  | @up links base p rest _ ih =>
      have hPrefix : base.dropLast <+: base := List.dropLast_prefix base
      refine ih (hBase.of_prefix hPrefix) ?_
      by_cases hSame : base.dropLast = base
      · rwa [hSame]
      · exact hBase.folders _ hPrefix hSame
  | file hDot hDots hNode => exact hBase.child hFolder fun target => by simp [hNode]
  | folder hDot hDots hNode _ ih =>
      exact ih (hBase.child hFolder fun target => by simp [hNode]) hNode
  | @link links base p name target rest hDot hDots hNode _ ih =>
      rw [origin] at ih
      split at ih
      next => exact ih (isCanonical_top t) (node?_top t)
      next => exact ih hBase hFolder

theorem Locates.isCanonical {cwd : Place} {path : String} (h : t.Locates cwd path p)
    (hCwd : t.IsCanonical cwd) (hFolder : t.node? cwd = some .folder) : t.IsCanonical p := by
  obtain ⟨-, links, -, hResolves⟩ := h
  rw [origin] at hResolves
  split at hResolves
  next => exact hResolves.isCanonical (isCanonical_top t) (node?_top t)
  next => exact hResolves.isCanonical hCwd hFolder

/-- Without the slashes in front the path has no step upwards. It leads from the folder `root` to a place in
the folder or below. -/
structure LiesUnder (t : FileTree) (cwd : Place) (root relative : String) (p : Place) : Prop where
  noDots : ".." ∉ Text.splitAll '/' (Text.trimCharLeft '/' relative)
  leads : ∃ base, t.Locates cwd root base ∧ t.node? base = some .folder ∧ base <+: p ∧
    ∃ links ≤ linkLimit, t.Resolves links base (names (Text.trimCharLeft '/' relative)) p

theorem mem_names_iff {path name : String} (hNe : name ≠ "") (hDot : name ≠ ".") :
    name ∈ names path ↔ name ∈ Text.splitAll '/' path := by
  rw [names]
  split <;> simp [hNe, hDot]

theorem confined_eq_ok_iff {cwd : Place} {root relative : String} :
    t.confined cwd root relative = .ok p ↔ t.LiesUnder cwd root relative p := by
  have hDots : ".." ∈ names (Text.trimCharLeft '/' relative) ↔
      ".." ∈ Text.splitAll '/' (Text.trimCharLeft '/' relative) :=
    mem_names_iff (by decide) (by decide)
  constructor
  · intro h
    unfold confined at h
    dsimp only at h
    split at h
    next => simp at h
    next hNoDots =>
      refine ⟨fun hMem => hNoDots (List.contains_iff_mem.2 (hDots.2 hMem)), ?_⟩
      split at h
      next => simp at h
      next base hFind =>
        split at h
        next => simp at h
        next hFolder =>
          split at h
          next => simp at h
          next place hWalk =>
            split at h
            next hPrefix =>
              obtain rfl := Except.ok.inj h
              exact ⟨base, find_eq_ok_iff.1 hFind, not_not.1 hFolder, List.isPrefixOf_iff_prefix.1 hPrefix,
                walk_eq_ok_iff.1 hWalk⟩
            next => simp at h
  · rintro ⟨hNoDots, base, hLocates, hFolder, hPrefix, hResolves⟩
    have hNone : (names (Text.trimCharLeft '/' relative)).contains ".." = false := by
      rw [Bool.eq_false_iff, ne_eq, List.contains_iff_mem, hDots]
      exact hNoDots
    unfold confined
    simp only [hNone, find_eq_ok_iff.2 hLocates, hFolder, walk_eq_ok_iff.2 hResolves,
      List.isPrefixOf_iff_prefix.2 hPrefix]
    rfl

theorem LiesUnder.isCanonical {cwd : Place} {root relative : String}
    (h : t.LiesUnder cwd root relative p) (hCwd : t.IsCanonical cwd)
    (hFolder : t.node? cwd = some .folder) : t.IsCanonical p := by
  obtain ⟨base, hLocates, hBase, -, links, -, hResolves⟩ := h.leads
  exact hResolves.isCanonical (hLocates.isCanonical hCwd hFolder) hBase

end Phrasebook.FileTree
