import Phrasebook.Build.Listing
import Phrasebook.Proofs.Build.Folder
import Phrasebook.Proofs.FileTree.Children

/-!
The list of builds. In a folder that is in order every build that is listed is a file, and its address is the
prefix with the encoded name behind it.
-/

namespace Phrasebook.Build

open FileTree

variable {t : FileTree} {cwd base : Place} {root url ext name : String}

theorem exists_mapM_eq_ok {α β ε : Type} {f : α → Except ε β} {g : β → α} {P : β → Prop}
    {xs : List α} (h : ∀ x ∈ xs, ∃ y, f x = .ok y ∧ g y = x ∧ P y) :
    ∃ ys, xs.mapM f = .ok ys ∧ ys.map g = xs ∧ ∀ y ∈ ys, P y := by
  induction xs with
  | nil => exact ⟨[], rfl, rfl, by simp⟩
  | cons x more ih =>
      rw [List.forall_mem_cons] at h
      obtain ⟨⟨y, hFirst, hx, hy⟩, hMore⟩ := h
      obtain ⟨ys, hRest, hxs, hys⟩ := ih hMore
      refine ⟨y :: ys, ?_, by rw [List.map_cons, hx, hxs], List.forall_mem_cons.2 ⟨hy, hys⟩⟩
      rw [List.mapM_cons, hFirst, hRest]
      rfl

theorem exists_of_mem_mapM {α β ε : Type} {f : α → Except ε β} {xs : List α} {ys : List β}
    (h : xs.mapM f = .ok ys) {y : β} (hy : y ∈ ys) : ∃ x ∈ xs, f x = .ok y := by
  induction xs generalizing ys with
  | nil =>
      obtain rfl := Except.ok.inj h
      exact absurd hy List.not_mem_nil
  | cons x more ih =>
      rw [List.mapM_cons] at h
      cases hFirst : f x with
      | error e => simp [hFirst, bind, Except.bind] at h
      | ok first =>
          cases hMore : more.mapM f with
          | error e => simp [hFirst, hMore, bind, Except.bind] at h
          | ok rest =>
              obtain rfl : first :: rest = ys := by
                simpa [hFirst, hMore, bind, Except.bind, pure, Except.pure] using h
              rcases List.mem_cons.1 hy with rfl | hRest
              · exact ⟨x, List.mem_cons_self, hFirst⟩
              · obtain ⟨x', hx', hEq⟩ := ih hMore hRest
                exact ⟨x', List.mem_cons_of_mem _ hx', hEq⟩

/-- The names of the builds in a folder, in the order of the list. -/
def listedNames (t : FileTree) (cwd : Place) (root : String) : List String :=
  (if t.isFile cwd (join root (latestStem ++ ".json")) then [latestStem ++ ".json"] else []) ++
    (((t.list? cwd root).getD []).filter isKept).reverse

theorem isKept_iff : isKept name = true ↔ keptFront.toList <+: name.toList ∧ ".json".toList <:+ name.toList := by
  rw [isKept, Bool.and_eq_true, String.startsWith_string_iff, String.endsWith,
    String.Slice.endsWith_string_iff, String.copy_toSlice]

/-- Names of builds are longer than the slashes at the ends of a prefix. -/
theorem three_le_length_of_isKept (h : isKept name = true) : 3 ≤ name.length := by
  have hLength := (isKept_iff.1 h).1.length_le
  rw [String.length_toList, String.length_toList] at hLength
  have hFront : keptFront.length = 17 := by decide
  omega

theorem isOrdinary_latest : IsOrdinary (latestStem ++ ".json") :=
  (areDistinct (Or.inl rfl : IsGraphExtension "dot")).isOrdinary_pack

/-- What is listed of a file. -/
theorem entryOf_of_file (h : Ready t cwd root base) (hName : IsOrdinary name) {content : List UInt8}
    {modified : Int} (hFile : t.listing base name = some (.file content modified)) :
    entryOf t cwd root url ext name = .ok
      { name, modified
        size := content.length
        url := url ++ Text.percentEncode name
        graph :=
          if t.isFile cwd (join root (withExtension name ext)) then some (withExtension name ext) else none } := by
  have hAt := nodeAt?_join h.leadsTo h.noLinks hName
  rw [hFile, FileTree.nodeAt?] at hAt
  rw [entryOf]
  cases hFind : t.find cwd (join root name) with
  | error f => simp [hFind] at hAt
  | ok p =>
      rw [hFind] at hAt
      dsimp only at hAt ⊢
      rw [hAt]

/-- The entry of a file has its name, and the address under which it is listed. -/
theorem entryOf_eq_ok (h : Ready t cwd root base) (hName : IsOrdinary name) {content : List UInt8}
    {modified : Int} (hFile : t.listing base name = some (.file content modified)) :
    ∃ e, entryOf t cwd root url ext name = .ok e ∧ e.name = name ∧
      e.url = url ++ Text.percentEncode name := ⟨_, entryOf_of_file h hName hFile, rfl, rfl⟩

/-- The name of a pack with the extension of its graph. -/
theorem withExtension_json {stem : String} (hStem : stem ≠ "") (hExt : ext ≠ "") :
    withExtension (stem ++ ".json") ext = stem ++ "." ++ ext := by
  rw [withExtension, if_neg (by simpa using hExt), stem_json hStem]

/-- The entry of a pack that has a graph beside it. -/
theorem entryOf_pair (h : Ready t cwd root base) {stem : String} (hStem : stem ≠ "") (hExt : ext ≠ "")
    (hPackName : IsOrdinary (stem ++ ".json")) (hGraphName : IsOrdinary (stem ++ "." ++ ext))
    {text drawing : List UInt8} {modified drawnAt : Int}
    (hPack : t.listing base (stem ++ ".json") = some (.file text modified))
    (hGraph : t.listing base (stem ++ "." ++ ext) = some (.file drawing drawnAt)) :
    entryOf t cwd root url ext (stem ++ ".json") =
      .ok ⟨stem ++ ".json", text.length, modified, url ++ Text.percentEncode (stem ++ ".json"),
        some (stem ++ "." ++ ext)⟩ := by
  have hIsFile : t.isFile cwd (join root (stem ++ "." ++ ext)) = true := by
    rw [isFile, nodeAt?_join h.leadsTo h.noLinks hGraphName, hGraph]
  rw [entryOf_of_file h hPackName hPack, withExtension_json hStem hExt, hIsFile]
  rfl

theorem Orderly.of_mem_listedNames (h : Orderly t cwd root base) (hName : name ∈ listedNames t cwd root) :
    3 ≤ name.length ∧ ∃ n, t.listing base name = some n := by
  rcases List.mem_append.1 hName with hLatest | hKept
  · split at hLatest
    next hFile =>
      obtain rfl := List.mem_singleton.1 hLatest
      refine ⟨by decide, ?_⟩
      rw [isFile, nodeAt?_join h.leadsTo h.noLinks isOrdinary_latest] at hFile
      split at hFile
      next hNode => exact ⟨_, hNode⟩
      next => simp at hFile
    next => exact absurd hLatest List.not_mem_nil
  · rw [List.mem_reverse, List.mem_filter] at hKept
    exact ⟨three_le_length_of_isKept hKept.2, h.leadsTo.exists_node_of_list? hKept.1⟩

/-- The builds in a folder that is in order can be listed. What is listed is a file in the folder. -/
theorem Orderly.exists_list_eq_ok (h : Orderly t cwd root base) (url ext : String) :
    ∃ entries, list t cwd root url ext = .ok entries ∧
      entries.map Entry.name = listedNames t cwd root ∧ ∀ e ∈ entries,
        e.url = url ++ Text.percentEncode e.name ∧ 3 ≤ e.name.length ∧
          ∃ content modified, t.listing base e.name = some (.file content modified) := by
  refine exists_mapM_eq_ok fun name hName => ?_
  obtain ⟨hLength, n, hNode⟩ := h.of_mem_listedNames hName
  obtain ⟨content, modified, rfl⟩ := h.exists_file hNode
  obtain ⟨e, hEntry, rfl, hUrl⟩ := entryOf_eq_ok h.toReady (h.ordinary name _ hNode) hNode
  exact ⟨e, hEntry, rfl, hUrl, hLength, content, modified, hNode⟩

/-- The latest build is listed when it can be read. -/
theorem latest_mem_listedNames {content : List UInt8}
    (h : t.read? cwd (join root (latestStem ++ ".json")) = some content) :
    latestStem ++ ".json" ∈ listedNames t cwd root := by
  have hFile : t.isFile cwd (join root (latestStem ++ ".json")) = true := by
    unfold read? at h
    unfold isFile
    split at h
    next => rfl
    next => simp at h
  rw [listedNames, if_pos hFile]
  exact List.mem_append_left _ (List.mem_singleton_self _)

end Phrasebook.Build
