import Mathlib.Data.List.Nodup
import Phrasebook.Import
import Phrasebook.Proofs.FileTree.Children
import Phrasebook.Proofs.Text.Percent

/-!
What an import finds in a folder. Every file with the extension "json" counts, in the order of the names, and is
imported under its name without the extension. The texts in it are the strings of a list, or of the list that an
object has as its messages; a document of another kind is malformed, as is one that is no JSON.
-/

namespace Phrasebook.Import

/-- The strings among the items of a list, in their order. -/
inductive AreStrings : List Json → List String → Prop
  | nil : AreStrings [] []
  | string (s : String) {items : List Json} {texts : List String} (more : AreStrings items texts) :
      AreStrings (.string s :: items) (s :: texts)
  | other {item : Json} {items : List Json} {texts : List String} (hOther : ∀ s, item ≠ .string s)
      (more : AreStrings items texts) : AreStrings (item :: items) texts

/-- The texts of a document. The last messages of an object count; those that are no list have no texts. -/
inductive HasTexts : Json → List String → Prop
  | list {items : List Json} {texts : List String} (strings : AreStrings items texts) : HasTexts (.array items) texts
  | messages {before after : List (String × Json)} {items : List Json} {texts : List String}
      (hLast : ∀ field ∈ after, field.1 ≠ "messages") (strings : AreStrings items texts) :
      HasTexts (.object (before ++ ("messages", .array items) :: after)) texts
  | otherMessages {before after : List (String × Json)} {value : Json}
      (hLast : ∀ field ∈ after, field.1 ≠ "messages") (hOther : ∀ items, value ≠ .array items) :
      HasTexts (.object (before ++ ("messages", value) :: after)) []
  | noMessages {fields : List (String × Json)} (hNone : ∀ field ∈ fields, field.1 ≠ "messages") :
      HasTexts (.object fields) []

/-- The file at a path can be read and is well-formed, and these are the texts in it. -/
def HoldsTexts (t : FileTree) (cwd : Place) (path : String) (texts : List String) : Prop :=
  ∃ text j, t.read? cwd path = some (Text.utf8 text) ∧ Json.parseSound? text = some j ∧ HasTexts j texts

theorem areStrings_iff {items : List Json} {found : List String} :
    AreStrings items found ↔ texts items = found := by
  constructor
  · intro h
    induction h with
    | nil => rfl
    | string s _ ih => rw [texts, List.filterMap_cons, ← texts, ih]; rfl
    | @other item items found hOther _ ih =>
        have hNone : item.string? = none := by
          cases item with
          | string s => exact absurd rfl (hOther s)
          | _ => rfl
        rw [texts, List.filterMap_cons, hNone]
        exact ih
  · rintro rfl
    induction items with
    | nil => exact .nil
    | cons item more ih =>
        cases item with
        | string s => exact .string s ih
        | _ => exact .other (fun s hEq => nomatch hEq) ih

theorem lookup_reverse_eq_some_iff {fields : List (String × Json)} {name : String} {value : Json} :
    fields.reverse.lookup name = some value ↔
      ∃ before after, fields = before ++ (name, value) :: after ∧ ∀ field ∈ after, field.1 ≠ name := by
  rw [List.lookup_eq_some_iff]
  constructor
  · rintro ⟨front, back, hFields, hFront⟩
    refine ⟨back.reverse, front.reverse, ?_, fun field hMem => ?_⟩
    · rw [← List.reverse_reverse fields, hFields]
      simp
    · have hNe := hFront field (List.mem_reverse.1 hMem)
      simpa using Ne.symm (by simpa using hNe)
  · rintro ⟨before, after, rfl, hAfter⟩
    refine ⟨after.reverse, before.reverse, by simp, fun field hMem => ?_⟩
    simpa using Ne.symm (hAfter field (List.mem_reverse.1 hMem))

theorem recordsOf?_object (fields : List (String × Json)) :
    ∃ texts, recordsOf? (.object fields) = some texts ∧ HasTexts (.object fields) texts := by
  rw [recordsOf?]
  cases hMessages : fields.reverse.lookup "messages" with
  | none =>
      refine ⟨_, rfl, .noMessages fun field hMem => ?_⟩
      have hNe := List.lookup_eq_none_iff.1 hMessages field (List.mem_reverse.2 hMem)
      simpa using Ne.symm (by simpa using hNe)
  | some value =>
      obtain ⟨before, after, rfl, hLast⟩ := lookup_reverse_eq_some_iff.1 hMessages
      cases value with
      | array items => exact ⟨_, rfl, .messages hLast (areStrings_iff.2 rfl)⟩
      | _ => exact ⟨_, rfl, .otherMessages hLast fun items hEq => nomatch hEq⟩

theorem hasTexts_iff {j : Json} {found : List String} : HasTexts j found ↔ recordsOf? j = some found := by
  constructor
  · intro h
    cases h with
    | list strings => rw [recordsOf?, areStrings_iff.1 strings]
    | messages hLast strings =>
        rw [recordsOf?, lookup_reverse_eq_some_iff.2 ⟨_, _, rfl, hLast⟩]
        exact congrArg some (areStrings_iff.1 strings)
    | @otherMessages before after value hLast hOther =>
        rw [recordsOf?, lookup_reverse_eq_some_iff.2 ⟨_, _, rfl, hLast⟩]
        cases value with
        | array items => exact absurd rfl (hOther items)
        | _ => rfl
    | @noMessages fields hNone =>
        have hLookup : fields.reverse.lookup "messages" = none :=
          List.lookup_eq_none_iff.2 fun field hMem => by
            simpa using Ne.symm (hNone field (List.mem_reverse.1 hMem))
        rw [recordsOf?, hLookup]
  · intro h
    cases j with
    | array items =>
        obtain rfl := Option.some.inj h
        exact .list (areStrings_iff.2 rfl)
    | object fields =>
        obtain ⟨texts, hTexts, hHas⟩ := recordsOf?_object fields
        obtain rfl := Option.some.inj (hTexts.symm.trans h)
        exact hHas
    | _ => exact nomatch h

variable {t : FileTree} {cwd base : Place} {folder path : String}

theorem readText?_eq_some_iff {text : String} :
    t.readText? cwd path = some text ↔ t.read? cwd path = some (Text.utf8 text) := by
  rw [FileTree.readText?, FileTree.readText, FileTree.read?, FileTree.nodeAt?]
  cases hFind : t.find cwd path with
  | error f => simp [Except.toOption]
  | ok p =>
      dsimp only
      cases hNode : t.node? p with
      | none => simp [Except.toOption]
      | some n =>
          cases n with
          | link target => simp [Except.toOption]
          | folder => simp [Except.toOption]
          | file content modified =>
              dsimp only
              cases hText : Text.ofUtf8? content with
              | none =>
                  have hNoText : content ≠ Text.utf8 text := by
                    rintro rfl
                    simp [Text.ofUtf8?_utf8] at hText
                  simp [Except.toOption, hNoText]
              | some found =>
                  rw [← Text.utf8_of_ofUtf8? hText]
                  simp only [Except.toOption, Option.some.injEq]
                  refine ⟨congrArg Text.utf8, fun hSame => Option.some.inj ?_⟩
                  rw [← Text.ofUtf8?_utf8 found, hSame, Text.ofUtf8?_utf8]

theorem load?_eq_some_iff {found : List String} : load? t cwd path = some found ↔ HoldsTexts t cwd path found := by
  simp only [load?, Option.bind_eq_some_iff, readText?_eq_some_iff, ← hasTexts_iff, HoldsTexts]
  constructor
  · rintro ⟨j, ⟨text, hRead, hParse⟩, hTexts⟩
    exact ⟨text, j, hRead, hParse, hTexts⟩
  · rintro ⟨text, j, hRead, hParse, hTexts⟩
    exact ⟨j, ⟨text, hRead, hParse⟩, hTexts⟩

/-- What an import finds in the folder at `base`: the JSON files by their names without the extension, each with
its texts, or with none when it cannot be read or is malformed. -/
structure Finds (t : FileTree) (cwd base : Place) (folder : String) (files : List (String × Option (List String))) :
    Prop where
  mem_iff : ∀ own, own ∈ files.map Prod.fst ↔ own ≠ "" ∧ (∃ n, t.listing base (own ++ ".json") = some n) ∧
    ∃ content modified, t.nodeAt? cwd (FileTree.join folder (own ++ ".json")) = some (.file content modified)
  texts : ∀ own found, (own, some found) ∈ files → HoldsTexts t cwd (FileTree.join folder (own ++ ".json")) found
  malformed : ∀ own, (own, none) ∈ files →
    ∀ found, ¬ HoldsTexts t cwd (FileTree.join folder (own ++ ".json")) found
  ordered : files.Pairwise fun a b => a.1 ++ ".json" ≤ b.1 ++ ".json"
  once : (t.nodes.map Prod.fst).Nodup → (files.map Prod.fst).Nodup

/-- A file of an import, with what is in it. -/
def fileOf (t : FileTree) (cwd : Place) (folder name : String) : String × Option (List String) :=
  (FileTree.stem name, load? t cwd (FileTree.join folder name))

theorem isFile_iff :
    t.isFile cwd path = true ↔ ∃ content modified, t.nodeAt? cwd path = some (.file content modified) := by
  rw [FileTree.isFile]
  cases t.nodeAt? cwd path with
  | none => simp
  | some n => cases n <;> simp

theorem fileNames?_eq (hFind : t.find cwd folder = .ok base) (hFolder : t.node? base = some .folder) :
    fileNames? t cwd folder = some ((t.children base).filter fun name =>
      FileTree.extension? name == some "json" && t.isFile cwd (FileTree.join folder name)) := by
  rw [fileNames?, FileTree.list?, hFind]
  dsimp only
  rw [hFolder]
  rfl

theorem mem_fileNames_iff {names : List String} (hNames : fileNames? t cwd folder = some names)
    (hFind : t.find cwd folder = .ok base) (hFolder : t.node? base = some .folder) {name : String} :
    name ∈ names ↔ ∃ own, own ≠ "" ∧ name = own ++ ".json" ∧ (∃ n, t.listing base name = some n) ∧
      ∃ content modified, t.nodeAt? cwd (FileTree.join folder name) = some (.file content modified) := by
  rw [fileNames?_eq hFind hFolder] at hNames
  obtain rfl := Option.some.inj hNames
  rw [List.mem_filter, Bool.and_eq_true, beq_iff_eq, FileTree.mem_children_iff, isFile_iff]
  constructor
  · rintro ⟨hThere, hExtension, hFile⟩
    obtain ⟨own, hOwn, hName⟩ := FileTree.exists_of_extension? hExtension
    exact ⟨own, hOwn, hName, hThere, hFile⟩
  · rintro ⟨own, hOwn, rfl, hThere, hFile⟩
    exact ⟨hThere, FileTree.extension?_json hOwn, hFile⟩

theorem nodup_children (h : (t.nodes.map Prod.fst).Nodup) (base : Place) : (t.children base).Nodup := by
  rw [(t.children_perm base).nodup_iff, FileTree.namesIn]
  have hFilter : t.nodes.filterMap (fun node => FileTree.nameIn? base node.1) =
      (t.nodes.map Prod.fst).filterMap (FileTree.nameIn? base) := by rw [List.filterMap_map]; rfl
  rw [hFilter]
  refine List.Nodup.filterMap (fun p q name hp hq => ?_) h
  rw [Option.mem_def, FileTree.nameIn?_eq_some_iff] at hp hq
  rw [hp, hq]

theorem finds_fileNames {names : List String} (hNames : fileNames? t cwd folder = some names)
    (hFind : t.find cwd folder = .ok base) (hFolder : t.node? base = some .folder) :
    Finds t cwd base folder (names.map (fileOf t cwd folder)) := by
  have hMem {name : String} : name ∈ names ↔ ∃ own, own ≠ "" ∧ name = own ++ ".json" ∧
      (∃ n, t.listing base name = some n) ∧
      ∃ content modified, t.nodeAt? cwd (FileTree.join folder name) = some (.file content modified) :=
    mem_fileNames_iff hNames hFind hFolder
  -- A name is put together again from what it is imported under.
  have hName {name : String} (h : name ∈ names) : FileTree.stem name ++ ".json" = name := by
    obtain ⟨own, hOwn, rfl, -⟩ := hMem.1 h
    rw [FileTree.stem_json hOwn]
  have hEntry {own : String} {found : Option (List String)} (h : (own, found) ∈ names.map (fileOf t cwd folder)) :
      load? t cwd (FileTree.join folder (own ++ ".json")) = found := by
    obtain ⟨name, hIn, hEq⟩ := List.mem_map.1 h
    obtain ⟨rfl, hLoad⟩ := Prod.mk.inj hEq
    rw [hName hIn]
    exact hLoad
  have hChildren := fileNames?_eq hFind hFolder
  rw [hNames] at hChildren
  constructor
  case mem_iff =>
    intro own
    rw [List.map_map, List.mem_map]
    constructor
    · rintro ⟨name, hIn, rfl⟩
      obtain ⟨own, hOwn, rfl, hRest⟩ := hMem.1 hIn
      have hStem := FileTree.stem_json hOwn
      simp only [Function.comp_apply, fileOf, hStem]
      exact ⟨hOwn, hRest⟩
    · rintro ⟨hOwn, hRest⟩
      exact ⟨own ++ ".json", hMem.2 ⟨own, hOwn, rfl, hRest⟩, FileTree.stem_json hOwn⟩
  case texts => exact fun own found h => load?_eq_some_iff.1 (hEntry h)
  case malformed =>
    intro own h found hHolds
    have hNone := hEntry h
    rw [load?_eq_some_iff.2 hHolds] at hNone
    exact nomatch hNone
  case ordered =>
    rw [List.pairwise_map]
    have hSorted : names.Pairwise (· ≤ ·) := by
      rw [Option.some.inj hChildren]
      exact (t.children_pairwise base).filter _
    refine hSorted.imp_of_mem fun ha hb hLe => ?_
    rw [fileOf, fileOf, hName ha, hName hb]
    exact hLe
  case once =>
    intro hNodes
    have hNodup : names.Nodup := by
      rw [Option.some.inj hChildren]
      exact (nodup_children hNodes base).filter _
    rw [List.map_map]
    refine List.Nodup.map_on (fun a ha b hb hEq => ?_) hNodup
    rw [← hName ha, ← hName hb]
    exact congrArg (· ++ ".json") hEq

end Phrasebook.Import
