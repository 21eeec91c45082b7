import Phrasebook.Proofs.FileTree.Names

/-!
Walking through a tree. Where a path leads depends on the folders and links of a tree only, so a path to a
folder leads there as long as these are kept. What is done to a name in a folder is done at one place,
whatever path leads to the folder.
-/

namespace Phrasebook.FileTree

section

variable {t : FileTree} {create : Bool} {links : Nat} {base : Place} {name : String}
  {rest : List String}

theorem walk_dot : t.walk create links base ("." :: rest) = t.walk create links base rest := by
  rw [walk, if_pos rfl]

theorem walk_dots :
    t.walk create links base (".." :: rest) = t.walk create links base.dropLast rest := by
  rw [walk, if_neg (by decide), if_pos rfl]

theorem walk_none (hDot : name ≠ ".") (hDots : name ≠ "..") (h : t.node? (base ++ [name]) = none) :
    t.walk create links base (name :: rest) =
      if create && rest.isEmpty then .ok (base ++ [name]) else .error .missing := by
  rw [walk, if_neg hDot, if_neg hDots]
  simp only [h]

theorem walk_folder (hDot : name ≠ ".") (hDots : name ≠ "..")
    (h : t.node? (base ++ [name]) = some .folder) :
    t.walk create links base (name :: rest) = t.walk create links (base ++ [name]) rest := by
  rw [walk, if_neg hDot, if_neg hDots]
  simp only [h]

theorem walk_file (hDot : name ≠ ".") (hDots : name ≠ "..") {content : List UInt8} {modified : Int}
    (h : t.node? (base ++ [name]) = some (.file content modified)) :
    t.walk create links base (name :: rest) =
      if rest.isEmpty then .ok (base ++ [name]) else .error .notFolder := by
  rw [walk, if_neg hDot, if_neg hDots]
  simp only [h]

theorem walk_link_succ (hDot : name ≠ ".") (hDots : name ≠ "..") {target : String}
    (h : t.node? (base ++ [name]) = some (.link target)) :
    t.walk create (links + 1) base (name :: rest) =
      t.walk create links (origin base target) (names target ++ rest) := by
  rw [walk, if_neg hDot, if_neg hDots]
  simp only [h]

end

/-- Another tree has the same folders and links, and maybe more. -/
structure Kept (t t' : FileTree) : Prop where
  folder : ∀ p, t.node? p = some .folder → t'.node? p = some .folder
  link : ∀ p target, t.node? p = some (.link target) → t'.node? p = some (.link target)

theorem Kept.refl (t : FileTree) : Kept t t := ⟨fun _ h => h, fun _ _ h => h⟩

theorem Kept.trans {t t' t'' : FileTree} (h : Kept t t') (k : Kept t' t'') : Kept t t'' :=
  ⟨fun p hp => k.folder p (h.folder p hp), fun p target hp => k.link p target (h.link p target hp)⟩

/-- A walk to a folder passes through folders and links only. -/
theorem walk_kept {t t' : FileTree} (hKept : Kept t t') {links : Nat} {base p : Place}
    {todo : List String} (h : t.walk false links base todo = .ok p)
    (hFolder : t.node? p = some .folder) : t'.walk false links base todo = .ok p := by
  fun_induction walk t false links base todo with
  | case1 links base => rwa [walk]
  | case2 links base rest ih => rw [walk_dot, ih h]
  | case3 links base rest hDot ih => rw [walk_dots, ih h]
  | case4 links base name rest hDot hDots here hNode hCreate => simp at hCreate
  | case5 => simp at h
  | case6 links base name rest hDot hDots here hNode ih =>
      rw [walk_folder hDot hDots (hKept.folder _ hNode), ih h]
  | case7 links base name rest hDot hDots here content modified hNode hLast =>
      obtain rfl := Except.ok.inj h
      exact absurd (hNode.symm.trans hFolder) (by simp)
  | case8 => simp at h
  | case9 => simp at h
  | case10 base name rest hDot hDots here target hNode links ih =>
      rw [walk_link_succ hDot hDots (hKept.link _ _ hNode), ih h]

/-- A walk to a folder can be continued: it goes on from this folder, with the links that are left. -/
theorem walk_append {t : FileTree} {links : Nat} {base p : Place} {todo : List String}
    (h : t.walk false links base todo = .ok p) (hFolder : t.node? p = some .folder) :
    ∃ left, ∀ create more, more ≠ [] →
      t.walk create links base (todo ++ more) = t.walk create left p more := by
  fun_induction walk t false links base todo with
  | case1 links base =>
      obtain rfl := Except.ok.inj h
      exact ⟨links, fun _ _ _ => rfl⟩
  | case2 links base rest ih =>
      obtain ⟨left, hLeft⟩ := ih h
      exact ⟨left, fun create more hMore => by rw [List.cons_append, walk_dot, hLeft create more hMore]⟩
  | case3 links base rest hDot ih =>
      obtain ⟨left, hLeft⟩ := ih h
      exact ⟨left, fun create more hMore => by rw [List.cons_append, walk_dots, hLeft create more hMore]⟩
  | case4 links base name rest hDot hDots here hNode hCreate => simp at hCreate
  | case5 => simp at h
  | case6 links base name rest hDot hDots here hNode ih =>
      obtain ⟨left, hLeft⟩ := ih h
      exact ⟨left, fun create more hMore => by
        rw [List.cons_append, walk_folder hDot hDots hNode, hLeft create more hMore]⟩
  | case7 links base name rest hDot hDots here content modified hNode hLast =>
      obtain rfl := Except.ok.inj h
      exact absurd (hNode.symm.trans hFolder) (by simp)
  | case8 => simp at h
  | case9 => simp at h
  | case10 base name rest hDot hDots here target hNode links ih =>
      obtain ⟨left, hLeft⟩ := ih h
      exact ⟨left, fun create more hMore => by
        rw [List.cons_append, walk_link_succ hDot hDots hNode, ← List.append_assoc,
          hLeft create more hMore]⟩

/-- The path leads to a folder at the place `base`. -/
structure LeadsTo (t : FileTree) (cwd : Place) (path : String) (base : Place) : Prop where
  walk : t.walk false linkLimit (origin cwd path) (pieces path) = .ok base
  folder : t.node? base = some .folder

namespace LeadsTo

variable {t t' : FileTree} {cwd base base' : Place} {root name : String}

theorem kept (h : t.LeadsTo cwd root base) (hKept : Kept t t') : t'.LeadsTo cwd root base :=
  ⟨walk_kept hKept h.walk h.folder, hKept.folder base h.folder⟩

theorem unique (h : t.LeadsTo cwd root base) (k : t.LeadsTo cwd root base') : base = base' :=
  Except.ok.inj (h.walk.symm.trans k.walk)

/-- The place of a name in the folder, when it is no link. -/
theorem walk_join (h : t.LeadsTo cwd root base) (hName : IsOrdinary name)
    (hLink : ∀ target, t.node? (base ++ [name]) ≠ some (.link target)) (create : Bool) :
    t.walk create linkLimit (origin cwd (join root name)) (names (join root name)) =
      if create || (t.node? (base ++ [name])).isSome then .ok (base ++ [name])
      else .error .missing := by
  obtain ⟨left, hLeft⟩ := walk_append h.walk h.folder
  rw [origin_join cwd root hName, names_join root hName, hLeft create _ (List.cons_ne_nil _ _)]
  cases hNode : t.node? (base ++ [name]) with
  | none => rw [walk_none hName.ne_dot hName.ne_dots hNode]; simp
  | some n =>
      cases n with
      | folder => rw [walk_folder hName.ne_dot hName.ne_dots hNode]; simp [FileTree.walk]
      | file content modified => rw [walk_file hName.ne_dot hName.ne_dots hNode]; simp
      | link target => exact absurd hNode (hLink target)

end LeadsTo

end Phrasebook.FileTree
