import Mathlib.Logic.Function.Basic
import Phrasebook.Proofs.FileTree.Walk

/-!
Edits of a folder. In a folder that a path leads to, the names of ordinary files are read, written and
moved as in a table, and no edit of a file changes folders or links.
-/

namespace Phrasebook.FileTree

theorem lookup_filter (nodes : List (Place × Node)) (p q : Place) :
    (nodes.filter (·.1 != p)).lookup q = if q = p then none else nodes.lookup q := by
  induction nodes with
  | nil => simp
  | cons head rest ih =>
      obtain ⟨r, n⟩ := head
      by_cases hRemoved : r = p
      · rw [List.filter_cons_of_neg (by simp [hRemoved]), ih, List.lookup_cons]
        by_cases hSame : q = p
        · rw [if_pos hSame, if_pos hSame]
        · have hOther : (q == r) = false := by simpa [hRemoved] using hSame
          rw [if_neg hSame, if_neg hSame, hOther]
      · rw [List.filter_cons_of_pos (by simpa using hRemoved), List.lookup_cons, List.lookup_cons, ih]
        by_cases hHere : q = r
        · have hKept : q ≠ p := fun hSame => hRemoved (hHere.symm.trans hSame)
          rw [if_neg hKept, if_neg hKept]
        · have hOther : (q == r) = false := by simpa using hHere
          rw [hOther]

theorem node?_put (t : FileTree) {p : Place} (hp : p ≠ []) (n : Node) (q : Place) :
    (t.put p n).node? q = if q = p then some n else t.node? q := by
  unfold node? put
  by_cases hTop : q = []
  · simp [hTop, hp.symm]
  · have hPresent : q.isEmpty = false := by simpa using hTop
    rw [hPresent, List.lookup_cons, lookup_filter]
    by_cases hSame : q = p
    · simp [hSame]
    · have hOther : (q == p) = false := by simpa using hSame
      simp [hSame, hOther]

theorem node?_remove (t : FileTree) {p : Place} (hp : p ≠ []) (q : Place) :
    (t.remove p).node? q = if q = p then none else t.node? q := by
  unfold node? remove
  by_cases hTop : q = []
  · simp [hTop, hp.symm]
  · have hEmpty : q.isEmpty = false := by simpa using hTop
    rw [hEmpty]
    simp only [Bool.false_eq_true, if_false, lookup_filter]

section

variable {f t : FileTree} {p : Place}

/-- Where a tree differs at one place only, and neither folder nor link is to be kept there, the rest is
kept. -/
theorem Kept.of_others {t' : FileTree} (h : Kept f t) (hOthers : ∀ q, q ≠ p → t'.node? q = t.node? q)
    (hFolder : f.node? p ≠ some .folder) (hLink : ∀ target, f.node? p ≠ some (.link target)) :
    Kept f t' where
  folder q hq := by
    have hOther : q ≠ p := by
      rintro rfl
      exact hFolder hq
    rw [hOthers q hOther, h.folder q hq]
  link q target hq := by
    have hOther : q ≠ p := by
      rintro rfl
      exact hLink target hq
    rw [hOthers q hOther, h.link q target hq]

/-- Something is put where neither folder nor link is to be kept. -/
theorem Kept.put (h : Kept f t) (hp : p ≠ []) (hFolder : f.node? p ≠ some .folder)
    (hLink : ∀ target, f.node? p ≠ some (.link target)) (n : Node) : Kept f (t.put p n) :=
  h.of_others (fun q hOther => by rw [node?_put t hp, if_neg hOther]) hFolder hLink

theorem Kept.remove (h : Kept f t) (hp : p ≠ []) (hFolder : f.node? p ≠ some .folder)
    (hLink : ∀ target, f.node? p ≠ some (.link target)) : Kept f (t.remove p) :=
  h.of_others (fun q hOther => by rw [node?_remove t hp, if_neg hOther]) hFolder hLink

/-- A tree has all folders and links of the tree with a file put somewhere. -/
theorem kept_of_put_file (hp : p ≠ []) (content : List UInt8) (now : Int) :
    Kept (t.put p (.file content now)) t :=
  (Kept.refl _).of_others (fun q hOther => by rw [node?_put t hp, if_neg hOther])
    (by simp [node?_put t hp]) (by simp [node?_put t hp])

/-- A tree has everything that is left when something is removed from it. -/
theorem kept_of_remove (hp : p ≠ []) : Kept (t.remove p) t :=
  (Kept.refl _).of_others (fun q hOther => by rw [node?_remove t hp, if_neg hOther])
    (by simp [node?_remove t hp]) (by simp [node?_remove t hp])

end

/-- A folder without links. -/
def HasNoLinks (t : FileTree) (base : Place) : Prop :=
  ∀ name target, t.node? (base ++ [name]) ≠ some (.link target)

/-- What is under each name in a folder. -/
def listing (t : FileTree) (base : Place) (name : String) : Option Node := t.node? (base ++ [name])

theorem listing_put (t : FileTree) (base : Place) (name : String) (n : Node) :
    (t.put (base ++ [name]) n).listing base = Function.update (t.listing base) name (some n) := by
  funext other
  rw [listing, node?_put t (by simp), Function.update_apply]
  simp [listing]

theorem listing_remove (t : FileTree) (base : Place) (name : String) :
    (t.remove (base ++ [name])).listing base = Function.update (t.listing base) name none := by
  funext other
  rw [listing, node?_remove t (by simp), Function.update_apply]
  simp [listing]

/-- Another tree has everything that is in a tree, and folders besides. -/
structure Extended (t t' : FileTree) : Prop where
  kept : ∀ p n, t.node? p = some n → t'.node? p = some n
  more : ∀ p n, t'.node? p = some n → t.node? p = some n ∨ n = .folder

theorem Extended.refl (t : FileTree) : Extended t t := ⟨fun _ _ h => h, fun _ _ h => Or.inl h⟩

theorem Extended.trans {t t' t'' : FileTree} (h : Extended t t') (k : Extended t' t'') :
    Extended t t'' where
  kept p n hp := k.kept p n (h.kept p n hp)
  more p n hp := by
    rcases k.more p n hp with hp | hFolder
    · exact h.more p n hp
    · exact Or.inr hFolder

theorem Extended.toKept {t t' : FileTree} (h : Extended t t') : Kept t t' :=
  ⟨fun p => h.kept p _, fun p _ => h.kept p _⟩

theorem extended_put_folder {t : FileTree} {p : Place} (hp : p ≠ []) (hNone : t.node? p = none) :
    Extended t (t.put p .folder) where
  kept q n hq := by
    have hOther : q ≠ p := by
      rintro rfl
      exact absurd (hq.symm.trans hNone) (by simp)
    rw [node?_put t hp, if_neg hOther, hq]
  more q n hq := by
    rw [node?_put t hp] at hq
    split at hq
    next => exact Or.inr (Option.some.inj hq).symm
    next => exact Or.inl hq

theorem makeFoldersFrom_extended {names : List String} {t t' : FileTree} {base : Place}
    (h : t.makeFoldersFrom base names = some t') : Extended t t' := by
  induction names generalizing t base with
  | nil =>
      obtain rfl := Option.some.inj h
      exact .refl t
  | cons name rest ih =>
      rw [makeFoldersFrom] at h
      split at h
      next =>
        split at h
        next => exact ih h
        next => simp at h
      next =>
        dsimp only at h
        split at h
        next => simp at h
        next hFree =>
          have hNone : t.node? (base ++ [name]) = none := by simpa using hFree
          exact (extended_put_folder (by simp) hNone).trans (ih h)

/-- Making folders adds folders and changes nothing else. -/
theorem makeFolders?_extended {t t' : FileTree} {cwd : Place} {path : String}
    (h : t.makeFolders? cwd path = some t') : Extended t t' := makeFoldersFrom_extended h

section

variable {t t' : FileTree} {cwd base : Place} {root name other : String}

theorem nodeAt?_join (h : t.LeadsTo cwd root base) (hLinks : t.HasNoLinks base)
    (hName : IsOrdinary name) : t.nodeAt? cwd (join root name) = t.listing base name := by
  have hWalk := h.walk_join hName (hLinks name) false
  rw [nodeAt?, find, isEmpty_join root hName]
  simp only [Bool.false_eq_true, if_false, hWalk, Bool.false_or, listing]
  cases hNode : t.node? (base ++ [name]) with
  | none => rfl
  | some n => simp [hNode]

theorem read?_join (h : t.LeadsTo cwd root base) (hLinks : t.HasNoLinks base)
    (hName : IsOrdinary name) :
    t.read? cwd (join root name) =
      match t.listing base name with
      | some (.file content _) => some content
      | _ => none := by
  rewrite [read?, nodeAt?_join h hLinks hName]
  rfl

/-- Writing puts a file under a name, unless a folder is there. -/
theorem write?_join_eq (h : t.LeadsTo cwd root base)
    (hLink : ∀ target, t.listing base name ≠ some (.link target)) (hName : IsOrdinary name)
    (content : List UInt8) (now : Int) :
    t.write? cwd (join root name) content now =
      if t.listing base name = some .folder then none
      else some (t.put (base ++ [name]) (.file content now)) := by
  have hWalk := h.walk_join hName hLink true
  rw [write?, isEmpty_join root hName, hWalk, listing]
  by_cases hFolder : t.node? (base ++ [name]) = some .folder
  · simp [hFolder]
  · simp [hFolder]

theorem write?_join (h : t.LeadsTo cwd root base) (hLinks : t.HasNoLinks base)
    (hName : IsOrdinary name) {content : List UInt8} {now : Int}
    (hWrite : t.write? cwd (join root name) content now = some t') :
    Kept t t' ∧
      t'.listing base = Function.update (t.listing base) name (some (.file content now)) := by
  rw [write?_join_eq h (hLinks name) hName] at hWrite
  split at hWrite
  next => simp at hWrite
  next hFolder =>
    obtain rfl := Option.some.inj hWrite
    exact ⟨(Kept.refl t).put (by simp) hFolder (hLinks name) _, listing_put t base name _⟩

/-- Writing makes neither folders nor links. -/
theorem kept_of_write? {path : String} {content : List UInt8} {now : Int}
    (hWrite : t.write? cwd path content now = some t') : Kept t' t := by
  rw [write?] at hWrite
  split at hWrite
  next => simp at hWrite
  split at hWrite
  next p hWalk =>
    split at hWrite
    next => simp at hWrite
    next hFolder =>
      obtain rfl := Option.some.inj hWrite
      have hp : p ≠ [] := by
        rintro rfl
        exact hFolder (by simp [node?])
      exact kept_of_put_file hp content now
  next => simp at hWrite

/-- Moving succeeds only in a folder. -/
theorem leadsTo_of_rename? (hName : IsOrdinary name) {target : String}
    (hRename : t.rename? cwd (join root name) target = some t') : ∃ base, t.LeadsTo cwd root base := by
  cases hEntry : t.entryAt? cwd (join root name) with
  | none => simp [rename?, hEntry] at hRename
  | some p =>
      rw [entryAt?, names_join root hName, origin_join cwd root hName, List.getLast?_concat,
        List.dropLast_concat] at hEntry
      simp only at hEntry
      split at hEntry
      next base hWalk =>
        split at hEntry
        next hFolder => exact ⟨base, hWalk, by simpa using hFolder⟩
        next => simp at hEntry
      next => simp at hEntry

theorem entryAt?_join (h : t.LeadsTo cwd root base) (hName : IsOrdinary name) :
    t.entryAt? cwd (join root name) = some (base ++ [name]) := by
  rw [entryAt?, names_join root hName, origin_join cwd root hName, List.getLast?_concat,
    List.dropLast_concat]
  simp [h.walk, h.folder]

/-- What is removed is not a folder. -/
theorem removeFile?_join_eq (h : t.LeadsTo cwd root base) (hName : IsOrdinary name)
    (hRemove : t.removeFile? cwd (join root name) = some t') :
    t.listing base name ≠ some .folder ∧ t' = t.remove (base ++ [name]) := by
  rw [removeFile?, entryAt?_join h hName] at hRemove
  simp only at hRemove
  split at hRemove
  next => simp at hRemove
  next => simp at hRemove
  next n hNotFolder hNode =>
    refine ⟨?_, (Option.some.inj hRemove).symm⟩
    rw [listing, hNode]
    exact fun hFolder => hNotFolder (Option.some.inj hFolder)

theorem removeFile?_join (h : t.LeadsTo cwd root base) (hLinks : t.HasNoLinks base)
    (hName : IsOrdinary name) (hRemove : t.removeFile? cwd (join root name) = some t') :
    Kept t t' ∧ t'.listing base = Function.update (t.listing base) name none := by
  obtain ⟨hFolder, rfl⟩ := removeFile?_join_eq h hName hRemove
  exact ⟨(Kept.refl t).remove (by simp) hFolder (hLinks name), listing_remove t base name⟩

/-- A file is moved to another name, unless a folder is there. -/
theorem rename?_join_eq (h : t.LeadsTo cwd root base) (hName : IsOrdinary name)
    (hOther : IsOrdinary other) {content : List UInt8} {modified : Int}
    (hFile : t.listing base name = some (.file content modified)) :
    t.rename? cwd (join root name) (join root other) =
      if t.listing base other = some .folder then none
      else some ((t.remove (base ++ [name])).put (base ++ [other]) (.file content modified)) := by
  rw [listing] at hFile
  rw [rename?, entryAt?_join h hName, entryAt?_join h hOther, listing]
  by_cases hFolder : t.node? (base ++ [other]) = some .folder
  · simp [hFile, hFolder]
  · simp [hFile, hFolder]

/-- Moving takes a file from one name and puts it under another, where no folder is. -/
theorem rename?_join (h : t.LeadsTo cwd root base) (hLinks : t.HasNoLinks base)
    (hName : IsOrdinary name) (hOther : IsOrdinary other)
    (hRename : t.rename? cwd (join root name) (join root other) = some t') :
    ∃ content modified, t.listing base name = some (.file content modified) ∧ Kept t t' ∧
      t'.listing base = Function.update (Function.update (t.listing base) name none) other
        (some (.file content modified)) := by
  rw [rename?, entryAt?_join h hName, entryAt?_join h hOther] at hRename
  simp only at hRename
  split at hRename
  next => simp at hRename
  next => simp at hRename
  next n hNotFolder hNode =>
    split at hRename
    next => simp at hRename
    next hFolder =>
      obtain rfl := Option.some.inj hRename
      cases n with
      | folder => exact absurd rfl hNotFolder
      | link target => exact absurd hNode (hLinks name target)
      | file content modified =>
          have hRemove : Kept t (t.remove (base ++ [name])) :=
            (Kept.refl t).remove (by simp) (by simp [hNode]) (hLinks name)
          have hTarget : t.node? (base ++ [other]) ≠ some .folder := by simpa using hFolder
          refine ⟨content, modified, hNode, hRemove.put (by simp) hTarget (hLinks other) _, ?_⟩
          rw [listing_put, listing_remove]

end

end Phrasebook.FileTree
