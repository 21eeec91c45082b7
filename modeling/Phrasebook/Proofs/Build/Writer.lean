import Mathlib
import Phrasebook.Build.Writer
import Phrasebook.Proofs.FileTree.Edits
import Phrasebook.Proofs.Text.Numeral

/-!
Writing a build. When a build is written without a failure, the latest pack and the latest graph are what
was to be written, and the folder is ready for the next build.
-/

namespace Phrasebook

namespace Text

theorem slash_notMem_padded (width n : Nat) : '/' ∉ (padded width n).toList := by
  rw [padded, padLeft, String.toList_append, String.toList_ofList, decimal, String.toList_ofList]
  intro h
  rcases List.mem_append.1 h with h | h
  · exact absurd (List.eq_of_mem_replicate h) (by decide)
  · exact absurd (isDigit_of_mem_digitsFrom h) (by decide)

end Text

theorem Calendar.slash_notMem_yearText (y : Int) : '/' ∉ (yearText y).toList := by
  have hPadded := Text.slash_notMem_padded 4
  unfold yearText
  split
  · exact hPadded _
  · split
    · simpa using hPadded y.natAbs
    · simpa using hPadded y.natAbs

theorem Calendar.slash_notMem_fileStamp (ms : Int) : '/' ∉ (fileStamp ms).toList := by
  have hTwo : ∀ n, '/' ∉ (twoDigits n).toList := Text.slash_notMem_padded 2
  simp [fileStamp, slash_notMem_yearText, hTwo]

/-- A name that does not begin with a dot and has no slash. -/
theorem FileTree.isOrdinary_of_head {name : String} {c : Char} {rest : List Char}
    (hHead : name.toList = c :: rest) (hDot : c ≠ '.') (hSlash : '/' ∉ name.toList) :
    IsOrdinary name := by
  refine ⟨?_, ?_, ?_, hSlash⟩
  all_goals
    rintro rfl
    simp at hHead
  · exact hDot hHead.1.symm
  · exact hDot hHead.1.symm

namespace Build

open FileTree

/-- The path leads to the folder `base`, and no link is in it. -/
structure Ready (t : FileTree) (cwd : Place) (root : String) (base : Place) : Prop where
  leadsTo : t.LeadsTo cwd root base
  noLinks : t.HasNoLinks base

section

variable {t t' : FileTree} {cwd base : Place} {root name other : String}

theorem Ready.of_kept (h : Ready t cwd root base) (hKept : Kept t t')
    (hLinks : ∀ name target, t'.listing base name ≠ some (.link target)) :
    Ready t' cwd root base :=
  ⟨h.leadsTo.kept hKept, hLinks⟩

theorem Ready.write (h : Ready t cwd root base) (hName : IsOrdinary name) {content : List UInt8}
    {now : Int} (hWrite : t.write? cwd (join root name) content now = some t') :
    Ready t' cwd root base ∧
      t'.listing base = Function.update (t.listing base) name (some (.file content now)) := by
  obtain ⟨hKept, hListing⟩ := write?_join h.leadsTo h.noLinks hName hWrite
  refine ⟨h.of_kept hKept fun n target => ?_, hListing⟩
  rw [hListing, Function.update_apply]
  split
  · simp
  · exact h.noLinks n target

theorem Ready.rename (h : Ready t cwd root base) (hName : IsOrdinary name)
    (hOther : IsOrdinary other)
    (hRename : t.rename? cwd (join root name) (join root other) = some t') :
    Ready t' cwd root base ∧
      ∃ content modified, t.listing base name = some (.file content modified) ∧
        t'.listing base = Function.update (Function.update (t.listing base) name none) other
          (some (.file content modified)) := by
  obtain ⟨content, modified, hFile, hKept, hListing⟩ :=
    rename?_join h.leadsTo h.noLinks hName hOther hRename
  refine ⟨h.of_kept hKept fun n target => ?_, content, modified, hFile, hListing⟩
  rw [hListing, Function.update_apply, Function.update_apply]
  split
  · simp
  · split
    · simp
    · exact h.noLinks n target

theorem Ready.read?_eq (h : Ready t cwd root base) (hName : IsOrdinary name) {content : List UInt8}
    {modified : Int} (hFile : t.listing base name = some (.file content modified)) :
    t.read? cwd (join root name) = some content := by
  rw [read?_join h.leadsTo h.noLinks hName, hFile]

end

/-- Once its folders are made, nothing in the folder is in the way of a build: it holds no link, and no
file under the name `drawn`. -/
def IsUndisturbed (t : FileTree) (cwd : Place) (root drawn : String) : Prop :=
  ∀ t' base, t.makeFolders? cwd root = some t' → t'.LeadsTo cwd root base →
    t'.HasNoLinks base ∧ ∀ content modified, t'.listing base drawn ≠ some (.file content modified)

/-- A folder that is there and in which nothing is in the way is undisturbed. -/
theorem isUndisturbed_of_ready {t : FileTree} {cwd base : Place} {root drawn : String}
    (h : Ready t cwd root base) (hDrawn : t.listing base drawn = none) :
    IsUndisturbed t cwd root drawn := by
  intro t' base' hMake hLeads
  have hExtended := makeFolders?_extended hMake
  obtain rfl := hLeads.unique (h.leadsTo.kept hExtended.toKept)
  refine ⟨fun name target hLink => ?_, fun content modified hFile => ?_⟩
  · rcases hExtended.more _ _ hLink with hOld | hFolder
    · exact h.noLinks name target hOld
    · simp at hFolder
  · rcases hExtended.more _ _ hFile with hOld | hFolder
    · exact absurd (hDrawn.symm.trans hOld) (by simp)
    · simp at hFolder

theorem isUndisturbed_of_makeFolders {t t₁ : FileTree} {cwd base : Place} {root drawn : String}
    (hMake : t.makeFolders? cwd root = some t₁) (h : Ready t₁ cwd root base)
    (hDrawn : t₁.listing base drawn = none) : IsUndisturbed t cwd root drawn := by
  intro t' base' hMake' hLeads
  obtain rfl := Option.some.inj (hMake.symm.trans hMake')
  obtain rfl := hLeads.unique h.leadsTo
  exact ⟨h.noLinks, by simp [hDrawn]⟩

section

variable {σ α β : Type} {x : EStateM Failure σ α} {f : α → EStateM Failure σ β}

theorem bind_eq_ok_iff {s s' : σ} {b : β} :
    (x >>= f) s = .ok b s' ↔ ∃ a v, x s = .ok a v ∧ f a v = .ok b s' := by
  simp only [bind, EStateM.bind]
  cases x s with
  | ok a v => simp
  | error e v => simp

end

theorem step_eq_ok_iff {g : FileTree → Option FileTree} {t t' : FileTree} {u : Unit} :
    Work.step g t = .ok u t' ↔ g t = some t' := by
  unfold Work.step
  cases g t <;> simp

theorem drawTo_eq_ok {r : Renderer} {cwd : Place} {graph path : String} {seconds : Int}
    {t t' : FileTree} {u : Unit} (h : drawTo r cwd graph path seconds t = .ok u t') :
    (r.draw graph = .ok none ∧ t' = t) ∨
      ∃ content, r.draw graph = .ok (some content) ∧ t.write? cwd path content seconds = some t' := by
  unfold drawTo at h
  dsimp only at h
  split at h
  next => simp at h
  next hDraw =>
    simp only [EStateM.Result.ok.injEq] at h
    exact Or.inl ⟨hDraw, h.2.symm⟩
  next content hDraw =>
    split at h
    next v hWrite =>
      obtain ⟨-, rfl⟩ := EStateM.Result.ok.inj h
      exact Or.inr ⟨content, hDraw, hWrite⟩
    next => simp at h

theorem writeWhole_eq_ok {cwd : Place} {root name : String} {content : List UInt8} {seconds : Int}
    {t t' : FileTree} {u : Unit} (h : writeWhole cwd root name content seconds t = .ok u t') :
    ∃ v, t.write? cwd (join root (withExtension name "tmp")) content seconds = some v ∧
      v.rename? cwd (join root (withExtension name "tmp")) (join root name) = some t' := by
  unfold writeWhole at h
  obtain ⟨_, v, hWrite, hRename⟩ := bind_eq_ok_iff.1 h
  rw [step_eq_ok_iff] at hWrite hRename
  exact ⟨v, hWrite, hRename⟩

theorem copyFile_eq_ok {cwd : Place} {source target : String} {seconds : Int} {t t' : FileTree}
    {u : Unit} (h : copyFile cwd source target seconds t = .ok u t') :
    ∃ content, t.read? cwd source = some content ∧ t.write? cwd target content seconds = some t' :=
  Option.bind_eq_some_iff.1 (step_eq_ok_iff.1 h)

/-- What a build does that is written without a failure. -/
theorem steps_of_write {r : Renderer} {cwd : Place} {root graph : String} {pack : Pack} {keep : Bool}
    {now : Int} {t t' : FileTree} {written : Written}
    (h : write r cwd root pack graph keep now t = .ok written t') :
    ∃ t₁ t₂ t₃ t₄, t.makeFolders? cwd root = some t₁ ∧
      drawTo r cwd graph (join root (latestStem ++ "." ++ r.extension ++ ".tmp"))
        (Calendar.secondsOfMillis now) t₁ = .ok () t₂ ∧
      writeWhole cwd root (latestStem ++ ".json") (Text.utf8 pack.text) (Calendar.secondsOfMillis now) t₂ =
        .ok () t₃ ∧
      t₃.rename? cwd (join root (latestStem ++ "." ++ r.extension ++ ".tmp"))
        (join root (latestStem ++ "." ++ r.extension)) = some t₄ ∧
      (keep = false ∧ t' = t₄ ∨ keep = true ∧ ∃ t₅ content,
        t₄.write? cwd (join root (keptFront ++ Calendar.fileStamp now ++ ".json")) (Text.utf8 pack.text)
          (Calendar.secondsOfMillis now) = some t₅ ∧
        t₅.read? cwd (join root (latestStem ++ "." ++ r.extension)) = some content ∧
        t₅.write? cwd (join root (keptFront ++ Calendar.fileStamp now ++ "." ++ r.extension)) content
          (Calendar.secondsOfMillis now) = some t') := by
  obtain ⟨_, t₁, hMake, h⟩ := bind_eq_ok_iff.1 h
  obtain ⟨_, t₂, hDraw, h⟩ := bind_eq_ok_iff.1 h
  obtain ⟨_, t₃, hPack, h⟩ := bind_eq_ok_iff.1 h
  obtain ⟨_, t₄, hMove, h⟩ := bind_eq_ok_iff.1 h
  refine ⟨t₁, t₂, t₃, t₄, step_eq_ok_iff.1 hMake, hDraw, ?_, step_eq_ok_iff.1 hMove, ?_⟩
  · split at hPack
    next hOk => rw [hOk, ← (EStateM.Result.ok.inj hPack).2]
    next => simp at hPack
  · split at h
    next hKeep =>
      obtain ⟨_, t₅, hKept, h⟩ := bind_eq_ok_iff.1 h
      obtain ⟨_, t₆, hCopy, h⟩ := bind_eq_ok_iff.1 h
      obtain ⟨-, rfl⟩ := EStateM.Result.ok.inj h
      obtain ⟨content, hRead, hWrite⟩ := copyFile_eq_ok hCopy
      exact Or.inr ⟨hKeep, t₅, content, step_eq_ok_iff.1 hKept, hRead, hWrite⟩
    next hKeep => exact Or.inl ⟨by simpa using hKeep, (EStateM.Result.ok.inj h).2.symm⟩

/-- The extensions of graphs. -/
def IsGraphExtension (ext : String) : Prop := ext = "dot" ∨ ext = "svg"

/-- The name under which graphs are drawn before they are moved. -/
def drawnName (ext : String) : String := latestStem ++ "." ++ ext ++ ".tmp"

/-- The names of the kept copies are none of those of the latest build. -/
theorem kept_head (now : Int) (ext : String) :
    ∃ rest, (keptFront ++ Calendar.fileStamp now ++ ext).toList = 't' :: rest := by
  refine ⟨"ranslation_file_".toList ++ (Calendar.fileStamp now).toList ++ ext.toList, ?_⟩
  rw [String.toList_append, String.toList_append]
  rfl

theorem isOrdinary_kept (now : Int) {ext : String} (h : '/' ∉ ext.toList) :
    IsOrdinary (keptFront ++ Calendar.fileStamp now ++ ext) := by
  obtain ⟨rest, hHead⟩ := kept_head now ext
  refine isOrdinary_of_head hHead (by decide) ?_
  have hFront : '/' ∉ keptFront.toList := by decide
  simp [hFront, h, Calendar.slash_notMem_fileStamp]

theorem kept_ne {now : Int} {ext name : String} (h : name.toList.head? = some 'l') :
    name ≠ keptFront ++ Calendar.fileStamp now ++ ext := by
  rintro rfl
  obtain ⟨rest, hHead⟩ := kept_head now ext
  rw [hHead] at h
  simp at h

theorem slash_notMem_extension {ext : String} (h : IsGraphExtension ext) :
    '/' ∉ ("." ++ ext).toList := by
  rcases h with rfl | rfl
  · decide
  · decide

/-- The latest build is written, and the folder is ready for the kept copies. -/
structure IsLatest (t : FileTree) (cwd : Place) (root : String) (base : Place) (ext : String)
    (pack graph : List UInt8) : Prop where
  ready : Ready t cwd root base
  pack : ∃ modified, t.listing base (latestStem ++ ".json") = some (.file pack modified)
  graph : ∃ modified, t.listing base (latestStem ++ "." ++ ext) = some (.file graph modified)
  drawn : t.listing base (drawnName ext) = none

/-- A file under another name does no harm to the latest build. -/
theorem IsLatest.write_kept {t t' : FileTree} {cwd base : Place} {root ext kept : String}
    {pack graph content : List UInt8} {now seconds : Int}
    (h : IsLatest t cwd root base ext pack graph) (hKept : '/' ∉ kept.toList)
    (hWrite : t.write? cwd (join root (keptFront ++ Calendar.fileStamp now ++ kept)) content
      seconds = some t') : IsLatest t' cwd root base ext pack graph := by
  obtain ⟨hReady, hListing⟩ := h.ready.write (isOrdinary_kept now hKept) hWrite
  refine ⟨hReady, ?_, ?_, ?_⟩
  all_goals rw [hListing, Function.update_of_ne (kept_ne (by simp [latestStem, drawnName]))]
  · exact h.pack
  · exact h.graph
  · exact h.drawn

/-- The names of a build before copies are kept: they stand for themselves, and they differ. -/
structure AreDistinct (ext : String) : Prop where
  temporary : withExtension (latestStem ++ ".json") "tmp" = "latest.tmp"
  isOrdinary_temporary : IsOrdinary "latest.tmp"
  isOrdinary_pack : IsOrdinary (latestStem ++ ".json")
  isOrdinary_graph : IsOrdinary (latestStem ++ "." ++ ext)
  isOrdinary_drawn : IsOrdinary (drawnName ext)
  drawn_ne_temporary : drawnName ext ≠ "latest.tmp"
  drawn_ne_pack : drawnName ext ≠ latestStem ++ ".json"
  drawn_ne_graph : drawnName ext ≠ latestStem ++ "." ++ ext
  pack_ne_graph : latestStem ++ ".json" ≠ latestStem ++ "." ++ ext

theorem areDistinct {ext : String} (h : IsGraphExtension ext) : AreDistinct ext := by
  rcases h with rfl | rfl
  all_goals
    refine ⟨by decide, ⟨?_, ?_, ?_, ?_⟩, ⟨?_, ?_, ?_, ?_⟩, ⟨?_, ?_, ?_, ?_⟩, ⟨?_, ?_, ?_, ?_⟩,
      ?_, ?_, ?_, ?_⟩
    all_goals decide

/-- The folder is known from the first move. Only the first step makes folders, and no step makes links. -/
theorem exists_leadsTo_of_steps {r : Renderer} {cwd : Place} {root graph name path : String}
    {pack : List UInt8} {seconds : Int} {t₁ t₂ t₃ : FileTree} {u v : Unit}
    (hTemporary : IsOrdinary (withExtension name "tmp"))
    (hDraw : drawTo r cwd graph path seconds t₁ = .ok u t₂)
    (hPack : writeWhole cwd root name pack seconds t₂ = .ok v t₃) : ∃ base, t₁.LeadsTo cwd root base := by
  obtain ⟨t', hWrite, hRename⟩ := writeWhole_eq_ok hPack
  obtain ⟨base, hLeads⟩ := leadsTo_of_rename? hTemporary hRename
  have hLeads₂ := hLeads.kept (kept_of_write? hWrite)
  rcases drawTo_eq_ok hDraw with ⟨-, rfl⟩ | ⟨content, -, hDrawn⟩
  · exact ⟨base, hLeads₂⟩
  · exact ⟨base, hLeads₂.kept (kept_of_write? hDrawn)⟩

/-- What is in the folder when the pack and the graph are in their places: these two, nothing under the
names that were used on the way, and what was there before under all other names. -/
theorem listing_of_steps {r : Renderer} {cwd base : Place} {root graph : String} {pack : List UInt8}
    {seconds : Int} {t₁ t₂ t₃ t₄ : FileTree} {u v : Unit} (hExt : IsGraphExtension r.extension)
    (hReady : Ready t₁ cwd root base)
    (hNotDrawn : ∀ content modified, t₁.listing base (drawnName r.extension) ≠ some (.file content modified))
    (hDraw : drawTo r cwd graph (join root (drawnName r.extension)) seconds t₁ = .ok u t₂)
    (hPack : writeWhole cwd root (latestStem ++ ".json") pack seconds t₂ = .ok v t₃)
    (hMove : t₃.rename? cwd (join root (drawnName r.extension))
      (join root (latestStem ++ "." ++ r.extension)) = some t₄) :
    ∃ content, r.draw graph = .ok (some content) ∧ Ready t₄ cwd root base ∧ ∀ name, t₄.listing base name =
      if name = latestStem ++ "." ++ r.extension then some (.file content seconds)
      else if name = latestStem ++ ".json" then some (.file pack seconds)
      else if name = drawnName r.extension ∨ name = "latest.tmp" then none
      else t₁.listing base name := by
  have hNames := areDistinct hExt
  obtain ⟨t', hWrite, hRename⟩ := writeWhole_eq_ok hPack
  rw [hNames.temporary] at hWrite hRename
  have hReady₂ : Ready t₂ cwd root base := by
    rcases drawTo_eq_ok hDraw with ⟨-, rfl⟩ | ⟨content, -, hDrawn⟩
    · exact hReady
    · exact (hReady.write hNames.isOrdinary_drawn hDrawn).1
  obtain ⟨hReady', hListing'⟩ := hReady₂.write hNames.isOrdinary_temporary hWrite
  obtain ⟨hReady₃, content₃, modified₃, hFile₃, hListing₃⟩ :=
    hReady'.rename hNames.isOrdinary_temporary hNames.isOrdinary_pack hRename
  obtain ⟨hReady₄, content₄, modified₄, hFile₄, hListing₄⟩ :=
    hReady₃.rename hNames.isOrdinary_drawn hNames.isOrdinary_graph hMove
  rw [hListing', Function.update_self] at hFile₃
  obtain ⟨rfl, rfl⟩ := Node.file.inj (Option.some.inj hFile₃)
  -- What is moved to the graph is what was drawn.
  have hDrawn₂ : t₂.listing base (drawnName r.extension) = some (.file content₄ modified₄) := by
    rw [hListing₃, Function.update_of_ne hNames.drawn_ne_pack,
      Function.update_of_ne hNames.drawn_ne_temporary, hListing',
      Function.update_of_ne hNames.drawn_ne_temporary] at hFile₄
    exact hFile₄
  rcases drawTo_eq_ok hDraw with ⟨-, rfl⟩ | ⟨content, hContent, hDrawn⟩
  · exact absurd hDrawn₂ (hNotDrawn content₄ modified₄)
  · obtain ⟨-, hListing₂⟩ := hReady.write hNames.isOrdinary_drawn hDrawn
    rw [hListing₂, Function.update_self] at hDrawn₂
    obtain ⟨rfl, rfl⟩ := Node.file.inj (Option.some.inj hDrawn₂)
    refine ⟨content, hContent, hReady₄, fun name => ?_⟩
    simp only [hListing₄, hListing₃, hListing', hListing₂, Function.update_apply]
    by_cases hDrawnName : name = drawnName r.extension
    · simp [hDrawnName, hNames.drawn_ne_graph, hNames.drawn_ne_pack]
    · by_cases hTemporary : name = "latest.tmp"
      · simp [hTemporary, hNames.drawn_ne_temporary.symm]
      · simp [hDrawnName, hTemporary]

/-- What a build writes in an undisturbed folder before it keeps copies. -/
theorem isLatest_of_steps {r : Renderer} {cwd : Place} {root graph : String} {pack : List UInt8}
    {seconds : Int} {t t₁ t₂ t₃ t₄ : FileTree} {u v : Unit} (hExt : IsGraphExtension r.extension)
    (hUndisturbed : IsUndisturbed t cwd root (drawnName r.extension))
    (hMake : t.makeFolders? cwd root = some t₁)
    (hDraw : drawTo r cwd graph (join root (drawnName r.extension)) seconds t₁ = .ok u t₂)
    (hPack : writeWhole cwd root (latestStem ++ ".json") pack seconds t₂ = .ok v t₃)
    (hMove : t₃.rename? cwd (join root (drawnName r.extension))
      (join root (latestStem ++ "." ++ r.extension)) = some t₄) :
    ∃ base content, r.draw graph = .ok (some content) ∧
      IsLatest t₄ cwd root base r.extension pack content := by
  have hNames := areDistinct hExt
  obtain ⟨base, hLeads⟩ :=
    exists_leadsTo_of_steps (hNames.temporary ▸ hNames.isOrdinary_temporary) hDraw hPack
  obtain ⟨hNoLinks, hNotDrawn⟩ := hUndisturbed t₁ base hMake hLeads
  obtain ⟨content, hContent, hReady, hListing⟩ :=
    listing_of_steps hExt ⟨hLeads, hNoLinks⟩ hNotDrawn hDraw hPack hMove
  refine ⟨base, content, hContent, hReady, ⟨seconds, ?_⟩, ⟨seconds, ?_⟩, ?_⟩
  · rw [hListing, if_neg hNames.pack_ne_graph, if_pos rfl]
  · rw [hListing, if_pos rfl]
  · rw [hListing, if_neg hNames.drawn_ne_graph, if_neg hNames.drawn_ne_pack, if_pos (Or.inl rfl)]

/-- The latest build can be read, and the folder is undisturbed. -/
theorem IsLatest.published {t : FileTree} {cwd base : Place} {root ext : String}
    {pack graph : List UInt8} (h : IsLatest t cwd root base ext pack graph)
    (hExt : IsGraphExtension ext) :
    t.read? cwd (join root (latestStem ++ ".json")) = some pack ∧
      t.read? cwd (join root (latestStem ++ "." ++ ext)) = some graph ∧
      IsUndisturbed t cwd root (drawnName ext) := by
  have hNames := areDistinct hExt
  obtain ⟨modified, hPack⟩ := h.pack
  obtain ⟨drawnAt, hGraph⟩ := h.graph
  exact ⟨h.ready.read?_eq hNames.isOrdinary_pack hPack,
    h.ready.read?_eq hNames.isOrdinary_graph hGraph, isUndisturbed_of_ready h.ready h.drawn⟩

/-- A build that is written without a failure in an undisturbed folder can be read there, and it leaves the
folder undisturbed. -/
theorem read?_of_write {r : Renderer} {cwd : Place} {root graph : String} {pack : Pack} {keep : Bool}
    {now : Int} {t t' : FileTree} {written : Written} (hExt : IsGraphExtension r.extension)
    (hUndisturbed : IsUndisturbed t cwd root (drawnName r.extension))
    (h : write r cwd root pack graph keep now t = .ok written t') :
    ∃ content, r.draw graph = .ok (some content) ∧
      t'.read? cwd (join root (latestStem ++ ".json")) = some (Text.utf8 pack.text) ∧
      t'.read? cwd (join root (latestStem ++ "." ++ r.extension)) = some content ∧
      IsUndisturbed t' cwd root (drawnName r.extension) := by
  obtain ⟨t₁, t₂, t₃, t₄, hMake, hDraw, hPack, hMove, hCopies⟩ := steps_of_write h
  obtain ⟨base, content, hContent, hLatest⟩ := isLatest_of_steps hExt hUndisturbed hMake hDraw hPack hMove
  suffices hKept : IsLatest t' cwd root base r.extension (Text.utf8 pack.text) content from
    ⟨content, hContent, hKept.published hExt⟩
  rcases hCopies with ⟨-, rfl⟩ | ⟨-, t₅, copied, hKept, -, hCopied⟩
  · exact hLatest
  · rw [String.append_assoc] at hCopied
    exact (hLatest.write_kept (by decide) hKept).write_kept (slash_notMem_extension hExt) hCopied

/-- The path leads to the folder `base`, and nothing but files is in it. -/
structure Open (t : FileTree) (cwd : Place) (root : String) (base : Place) : Prop
    extends Ready t cwd root base where
  noFolders : ∀ name, t.listing base name ≠ some .folder

section

variable {t : FileTree} {cwd base : Place} {root name other : String} {content : List UInt8}

theorem Open.write (h : Open t cwd root base) (hName : IsOrdinary name) (content : List UInt8)
    (now : Int) :
    ∃ t', t.write? cwd (join root name) content now = some t' ∧ Open t' cwd root base ∧
      t'.listing base = Function.update (t.listing base) name (some (.file content now)) := by
  have hWrite := write?_join_eq h.leadsTo (h.noLinks name) hName content now
  rw [if_neg (h.noFolders name)] at hWrite
  obtain ⟨hReady, hListing⟩ := h.toReady.write hName hWrite
  refine ⟨_, hWrite, ⟨hReady, fun n => ?_⟩, hListing⟩
  rw [hListing, Function.update_apply]
  split
  · simp
  · exact h.noFolders n

theorem Open.rename (h : Open t cwd root base) (hName : IsOrdinary name) (hOther : IsOrdinary other)
    {modified : Int} (hFile : t.listing base name = some (.file content modified)) :
    ∃ t', t.rename? cwd (join root name) (join root other) = some t' ∧ Open t' cwd root base ∧
      t'.listing base = Function.update (Function.update (t.listing base) name none) other
        (some (.file content modified)) := by
  have hRename := rename?_join_eq h.leadsTo hName hOther hFile
  rw [if_neg (h.noFolders other)] at hRename
  obtain ⟨hReady, content', modified', hFile', hListing⟩ := h.toReady.rename hName hOther hRename
  rw [hFile, Option.some.injEq, Node.file.injEq] at hFile'
  obtain ⟨rfl, rfl⟩ := hFile'
  refine ⟨_, hRename, ⟨hReady, fun n => ?_⟩, hListing⟩
  rw [hListing, Function.update_apply, Function.update_apply]
  split
  · simp
  · split
    · simp
    · exact h.noFolders n

end

theorem drawTo_of_write {r : Renderer} {cwd : Place} {graph path : String} {seconds : Int}
    {content : List UInt8} {t t' : FileTree} (hDraw : r.draw graph = .ok (some content))
    (hWrite : t.write? cwd path content seconds = some t') :
    drawTo r cwd graph path seconds t = .ok () t' := by
  unfold drawTo
  simp only [hDraw, hWrite]

/-- Where the folder holds nothing but files, a build of which the graph can be drawn is written. -/
theorem exists_write_eq_ok {r : Renderer} {cwd base : Place} {root graph : String}
    {content : List UInt8} {t t₁ : FileTree} (hExt : IsGraphExtension r.extension)
    (hMake : t.makeFolders? cwd root = some t₁) (hOpen : Open t₁ cwd root base)
    (hDraw : r.draw graph = .ok (some content)) (pack : Pack) (keep : Bool) (now : Int) :
    ∃ written t', write r cwd root pack graph keep now t = .ok written t' := by
  have hNames := areDistinct hExt
  obtain ⟨t₂, hDrawn, hOpen₂, hListing₂⟩ :=
    hOpen.write hNames.isOrdinary_drawn content (Calendar.secondsOfMillis now)
  obtain ⟨t', hWrite, hOpen', hListing'⟩ :=
    hOpen₂.write hNames.isOrdinary_temporary (Text.utf8 pack.text) (Calendar.secondsOfMillis now)
  obtain ⟨t₃, hRename, hOpen₃, hListing₃⟩ :=
    hOpen'.rename hNames.isOrdinary_temporary hNames.isOrdinary_pack
      (by rw [hListing', Function.update_self])
  have hDrawn₃ : t₃.listing base (drawnName r.extension) =
      some (.file content (Calendar.secondsOfMillis now)) := by
    rw [hListing₃, Function.update_of_ne hNames.drawn_ne_pack,
      Function.update_of_ne hNames.drawn_ne_temporary, hListing',
      Function.update_of_ne hNames.drawn_ne_temporary, hListing₂, Function.update_self]
  obtain ⟨t₄, hMove, hOpen₄, hListing₄⟩ :=
    hOpen₃.rename hNames.isOrdinary_drawn hNames.isOrdinary_graph hDrawn₃
  have hPack : writeWhole cwd root (latestStem ++ ".json") (Text.utf8 pack.text)
      (Calendar.secondsOfMillis now) t₂ = .ok () t₃ := by
    rw [← hNames.temporary] at hWrite hRename
    exact bind_eq_ok_iff.2 ⟨(), t', step_eq_ok_iff.2 hWrite, step_eq_ok_iff.2 hRename⟩
  -- What comes before the kept copies leads to `t₄`.
  suffices hKept : ∃ written t', (if keep then _ else _ : Work Written) t₄ = .ok written t' by
    obtain ⟨written, t', hKept⟩ := hKept
    refine ⟨written, t', bind_eq_ok_iff.2 ⟨(), t₁, step_eq_ok_iff.2 hMake, bind_eq_ok_iff.2
      ⟨(), t₂, drawTo_of_write hDraw hDrawn, bind_eq_ok_iff.2 ⟨(), t₃, ?_, bind_eq_ok_iff.2
        ⟨(), t₄, step_eq_ok_iff.2 hMove, hKept⟩⟩⟩⟩⟩
    simp only [hPack]
  cases keep with
  | false => exact ⟨_, t₄, rfl⟩
  | true =>
      have hKeptPack : IsOrdinary (keptFront ++ Calendar.fileStamp now ++ ".json") :=
        isOrdinary_kept now (by decide)
      have hKeptGraph : IsOrdinary (keptFront ++ Calendar.fileStamp now ++ "." ++ r.extension) := by
        rw [String.append_assoc]
        exact isOrdinary_kept now (slash_notMem_extension hExt)
      obtain ⟨t₅, hWrite₅, hOpen₅, hListing₅⟩ :=
        hOpen₄.write hKeptPack (Text.utf8 pack.text) (Calendar.secondsOfMillis now)
      obtain ⟨t₆, hWrite₆, -, -⟩ :=
        hOpen₅.write hKeptGraph content (Calendar.secondsOfMillis now)
      have hGraph : t₅.read? cwd (join root (latestStem ++ "." ++ r.extension)) = some content := by
        have hFile := congrFun hListing₄ (latestStem ++ "." ++ r.extension)
        rw [Function.update_self] at hFile
        refine hOpen₅.read?_eq hNames.isOrdinary_graph (Eq.trans ?_ hFile)
        rw [hListing₅, Function.update_of_ne (kept_ne (by simp [latestStem]))]
      refine ⟨_, t₆, bind_eq_ok_iff.2 ⟨(), t₅, step_eq_ok_iff.2 hWrite₅, bind_eq_ok_iff.2
        ⟨(), t₆, step_eq_ok_iff.2 ?_, rfl⟩⟩⟩
      rw [hGraph]
      exact hWrite₆

theorem makeFolders?_empty :
    FileTree.empty.makeFolders? [] "build" = some (.ofNodes [(["build"], .folder)]) := by
  cbv

theorem listing_build (name : String) :
    FileTree.listing (.ofNodes [(["build"], .folder)]) ["build"] name = none := by
  simp [listing, node?, ofNodes, List.lookup]

theorem open_build : Open (.ofNodes [(["build"], .folder)]) [] "build" ["build"] where
  leadsTo := ⟨by cbv, by cbv⟩
  noLinks name target := by
    rw [← listing, listing_build]
    simp
  noFolders name := by
    rw [listing_build]
    simp

theorem isUndisturbed_empty (drawn : String) : IsUndisturbed .empty [] "build" drawn :=
  isUndisturbed_of_makeFolders makeFolders?_empty open_build.toReady (listing_build drawn)

end Build

end Phrasebook
