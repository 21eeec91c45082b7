import Mathlib.Data.String.Basic
import Phrasebook.Proofs.FileTree.Edits
import Phrasebook.Proofs.FileTree.Resolution
import Phrasebook.Proofs.Text.Search

/-!
The names in a folder. They are those under which something is, in ascending order, and no edit of files
makes a name appear twice.
-/

namespace Phrasebook.FileTree

variable {t t' : FileTree} {cwd base p q : Place} {root path source target name : String}

/-- The last name of a place that lies in the folder `p`. -/
def nameIn? (p q : Place) : Option String := if q.dropLast = p then q.getLast? else none

/-- The names in the folder at a place, in the order in which the tree has them. -/
def namesIn (t : FileTree) (p : Place) : List String := t.nodes.filterMap fun node => nameIn? p node.1

theorem nameIn?_eq_some_iff : nameIn? p q = some name ↔ q = p ++ [name] := by
  rw [nameIn?, Option.ite_none_right_eq_some]
  constructor
  · rintro ⟨rfl, hLast⟩
    rw [List.dropLast_append_getLast? name hLast]
  · rintro rfl
    simp

theorem children_perm (t : FileTree) (p : Place) : (t.children p).Perm (t.namesIn p) :=
  List.mergeSort_perm _ _

theorem children_pairwise (t : FileTree) (p : Place) : (t.children p).Pairwise (· ≤ ·) := by
  have hLe : ∀ a b : String, (!decide (b < a)) = true ↔ a ≤ b := fun a b => by
    simp only [Bool.not_eq_true', decide_eq_false_iff_not, not_lt]
  have hSorted : (t.children p).Pairwise fun a b => (!decide (b < a)) = true := by
    refine List.pairwise_mergeSort (fun a b c hab hbc => ?_) (fun a b => ?_) _
    · exact (hLe a c).2 (le_trans ((hLe a b).1 hab) ((hLe b c).1 hbc))
    · rw [Bool.or_eq_true, hLe, hLe]
      exact le_total a b
  exact hSorted.imp (hLe _ _).1

theorem mem_namesIn_iff : name ∈ t.namesIn p ↔ ∃ n, (p ++ [name], n) ∈ t.nodes := by
  simp only [namesIn, List.mem_filterMap, nameIn?_eq_some_iff]
  constructor
  · rintro ⟨⟨q, n⟩, hMem, rfl⟩
    exact ⟨n, hMem⟩
  · rintro ⟨n, hMem⟩
    exact ⟨_, hMem, rfl⟩

/-- A folder has the names under which something is. -/
theorem mem_children_iff : name ∈ t.children p ↔ ∃ n, t.listing p name = some n := by
  have hPresent : (p ++ [name]).isEmpty = false := by simp
  rw [(t.children_perm p).mem_iff, mem_namesIn_iff, listing, node?, hPresent]
  constructor
  · rintro ⟨n, hMem⟩
    refine Option.ne_none_iff_exists'.1 fun hNone => ?_
    have hOther := List.lookup_eq_none_iff.1 hNone _ hMem
    simp at hOther
  · rintro ⟨n, hNode⟩
    obtain ⟨front, back, hNodes, -⟩ := List.lookup_eq_some_iff.1 hNode
    exact ⟨n, hNodes ▸ List.mem_append_right front List.mem_cons_self⟩

theorem LeadsTo.list?_eq (h : t.LeadsTo cwd root base) (hRoot : root ≠ "") :
    t.list? cwd root = some (t.children base) := by
  simp only [list?, h.find_eq hRoot, h.folder]
  rfl

theorem LeadsTo.exists_node_of_list? (h : t.LeadsTo cwd root base)
    (hName : name ∈ (t.list? cwd root).getD []) : ∃ n, t.listing base name = some n := by
  by_cases hRoot : root = ""
  · subst hRoot
    have hNone : t.list? cwd "" = none := by simp [list?, find]
    rw [hNone] at hName
    exact absurd hName List.not_mem_nil
  · rw [h.list?_eq hRoot] at hName
    exact mem_children_iff.1 hName

theorem namesIn_put (t : FileTree) (p q : Place) (n : Node) :
    (t.put q n).namesIn p = (nameIn? p q).toList ++ (t.remove q).namesIn p := by
  rw [namesIn, put, List.filterMap_cons]
  cases nameIn? p q with
  | none => rfl
  | some name => rfl

theorem nodup_namesIn_remove (h : (t.namesIn p).Nodup) (q : Place) : ((t.remove q).namesIn p).Nodup :=
  h.sublist (List.filter_sublist.filterMap _)

/-- What is put somewhere replaces what was there, name and all. -/
theorem nodup_namesIn_put (h : (t.namesIn p).Nodup) (q : Place) (n : Node) :
    ((t.put q n).namesIn p).Nodup := by
  have hRest := nodup_namesIn_remove h q
  rw [namesIn_put]
  cases hName : nameIn? p q with
  | none => exact hRest
  | some name =>
      obtain rfl := nameIn?_eq_some_iff.1 hName
      refine List.nodup_cons.2 ⟨fun hMem => ?_, hRest⟩
      obtain ⟨n', hOther⟩ := mem_namesIn_iff.1 hMem
      simp [remove] at hOther

theorem nodup_namesIn_write? (h : (t.namesIn p).Nodup) {content : List UInt8} {now : Int}
    (hWrite : t.write? cwd path content now = some t') : (t'.namesIn p).Nodup := by
  rw [write?] at hWrite
  split at hWrite
  next => simp at hWrite
  split at hWrite
  next q _ =>
    split at hWrite
    next => simp at hWrite
    next => exact Option.some.inj hWrite ▸ nodup_namesIn_put h q _
  next => simp at hWrite

theorem nodup_namesIn_rename? (h : (t.namesIn p).Nodup)
    (hRename : t.rename? cwd source target = some t') : (t'.namesIn p).Nodup := by
  rw [rename?] at hRename
  split at hRename
  next q q' _ _ =>
    split at hRename
    next => simp at hRename
    next => simp at hRename
    next n _ _ =>
      split at hRename
      next => simp at hRename
      next => exact Option.some.inj hRename ▸ nodup_namesIn_put (nodup_namesIn_remove h q) q' n
  next => simp at hRename

theorem nodup_namesIn_removeFile? (h : (t.namesIn p).Nodup)
    (hRemove : t.removeFile? cwd path = some t') : (t'.namesIn p).Nodup := by
  rw [removeFile?] at hRemove
  split at hRemove
  next q _ =>
    split at hRemove
    next => simp at hRemove
    next => simp at hRemove
    next => exact Option.some.inj hRemove ▸ nodup_namesIn_remove h q
  next => simp at hRemove

theorem extension?_json {own : String} (h : own ≠ "") : extension? (own ++ ".json") = some "json" := by
  have hReverse : (own ++ ".json").toList.reverse = ['n', 'o', 's', 'j'] ++ '.' :: own.toList.reverse := by
    simp
  rw [extension?, hReverse, Text.cutAt?_cons (by decide)]
  cases hChars : own.toList.reverse with
  | nil => exact absurd (String.toList_eq_nil_iff.1 (List.reverse_eq_nil_iff.1 hChars)) h
  | cons c rest => rfl

/-- The extension is there with something in front of it only. -/
theorem exists_of_extension? (h : extension? name = some "json") : ∃ own, own ≠ "" ∧ name = own ++ ".json" := by
  rw [extension?] at h
  split at h
  next => exact nomatch h
  next => exact nomatch h
  next ext front hFront hCut =>
    have hExt : ext.reverse = ['j', 's', 'o', 'n'] := by
      rw [← String.toList_ofList (l := ext.reverse), Option.some.inj h]
      rfl
    have hChars := congrArg List.reverse (Text.eq_of_cutAt? hCut)
    rw [List.reverse_reverse, List.reverse_append, List.reverse_append, hExt] at hChars
    refine ⟨String.ofList front.reverse, fun hEmpty => ?_, ?_⟩
    · have hNil : front.reverse = [] := by simpa using congrArg String.toList hEmpty
      exact hFront (List.reverse_eq_nil_iff.1 hNil)
    · rw [← String.toList_inj, hChars, String.toList_append, String.toList_ofList]
      simp

/-- The name of a JSON file without its extension. -/
theorem stem_json {own : String} (h : own ≠ "") : stem (own ++ ".json") = own := by
  have hJson : ".json".length = 5 := by decide
  have hLength : (own ++ ".json").length - "json".length - 1 = own.toList.length := by
    rw [String.length_append, hJson, String.length_toList]
    exact Nat.add_sub_cancel own.length 5
  simp only [stem, extension?_json h]
  rw [hLength, String.toList_append, List.take_left, String.ofList_toList]

end Phrasebook.FileTree
