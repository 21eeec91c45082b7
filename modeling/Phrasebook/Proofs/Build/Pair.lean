import Phrasebook.Proofs.Build.Folder

/-!
The latest pair. A build replaces the latest pack and the latest graph one after the other, so what can go
wrong in between decides whether they belong together behind it. Where the build can go wrong there is said
exactly; everywhere else it leaves both as they were or writes both.
-/

namespace Phrasebook

namespace FileTree

/-- What is left of a tree has everything that leads to the folder, and one name of the folder may differ. -/
structure EditedAt (f : FileTree) (base : Place) (name : String) (t t' : FileTree) : Prop where
  kept : Kept f t'
  others : ∀ other, other ≠ name → t'.listing base other = t.listing base other

section

variable {f t : FileTree} {cwd base : Place} {root name other : String} {content : List UInt8}
  {modified : Int}

theorem exists_write (hFrame : f.LeadsTo cwd root base) (h : Kept f t) (hName : IsOrdinary name)
    (hLink : ∀ target, t.listing base name ≠ some (.link target))
    (hFolder : t.listing base name ≠ some .folder) (content : List UInt8) (now : Int) :
    ∃ t', t.write? cwd (join root name) content now = some t' ∧ Kept f t' ∧
      t'.listing base = Function.update (t.listing base) name (some (.file content now)) := by
  have hWrite := write?_join_eq (hFrame.kept h) hLink hName content now
  rw [if_neg hFolder] at hWrite
  exact ⟨_, hWrite, h.put (by simp) (fun hf => hFolder (h.folder _ hf))
    (fun target hf => hLink target (h.link _ target hf)) _, listing_put t base name _⟩

/-- A file is moved to a name where no folder is, in the stead of what the frame does not have. -/
theorem exists_rename (hFrame : f.LeadsTo cwd root base) (h : Kept f t) (hName : IsOrdinary name)
    (hOther : IsOrdinary other) (hFile : t.listing base name = some (.file content modified))
    (hFolder : t.listing base other ≠ some .folder) (hFree : f.listing base other = none) :
    ∃ t', t.rename? cwd (join root name) (join root other) = some t' ∧ Kept f t' ∧
      t'.listing base = Function.update (Function.update (t.listing base) name none) other
        (some (.file content modified)) := by
  have hRename := rename?_join_eq (hFrame.kept h) hName hOther hFile
  rw [if_neg hFolder] at hRename
  have hNotFolder : f.node? (base ++ [name]) ≠ some .folder := by
    intro hf
    have hSame := h.folder _ hf
    rw [← listing, hFile] at hSame
    simp at hSame
  have hNotLink : ∀ target, f.node? (base ++ [name]) ≠ some (.link target) := by
    intro target hf
    have hSame := h.link _ target hf
    rw [← listing, hFile] at hSame
    simp at hSame
  have hRemoved : Kept f (t.remove (base ++ [name])) := h.remove (by simp) hNotFolder hNotLink
  rw [listing] at hFree
  refine ⟨_, hRename, hRemoved.put (by simp) (by simp [hFree]) (by simp [hFree]) _, ?_⟩
  rw [listing_put, listing_remove]

theorem rename?_eq_none (hFrame : f.LeadsTo cwd root base) (h : Kept f t) (hName : IsOrdinary name)
    (hOther : IsOrdinary other)
    (hBlocked : t.listing base name = none ∨ t.listing base name = some .folder ∨
      t.listing base other = some .folder) :
    t.rename? cwd (join root name) (join root other) = none := by
  have hLeads := hFrame.kept h
  rw [rename?, entryAt?_join hLeads hName, entryAt?_join hLeads hOther]
  simp only [listing] at hBlocked ⊢
  rcases hBlocked with hNone | hFolder | hFolder
  · simp [hNone]
  · simp [hFolder]
  · cases t.node? (base ++ [name]) with
    | none => rfl
    | some n => cases n <;> simp [hFolder]

/-- Clearing a name away leaves the rest, whether or not it can be cleared away. -/
theorem editedAt_removeFile? (hFrame : f.LeadsTo cwd root base) (h : Kept f t)
    (hName : IsOrdinary name) (hLink : ∀ target, t.listing base name ≠ some (.link target)) :
    EditedAt f base name t ((t.removeFile? cwd (join root name)).getD t) := by
  cases hRemove : t.removeFile? cwd (join root name) with
  | none => exact ⟨h, fun _ _ => rfl⟩
  | some t' =>
      obtain ⟨hFolder, rfl⟩ := removeFile?_join_eq (hFrame.kept h) hName hRemove
      refine ⟨h.remove (by simp) (fun hf => hFolder (h.folder _ hf))
        (fun target hf => hLink target (h.link _ target hf)), fun other hOther => ?_⟩
      rw [Option.getD_some, listing_remove, Function.update_of_ne hOther]

end

end FileTree

namespace Build

open FileTree

/-- The latest pack and the latest graph in a folder. -/
def latestPair (t : FileTree) (base : Place) (ext : String) : Option Node × Option Node :=
  (t.listing base (latestStem ++ ".json"), t.listing base (latestStem ++ "." ++ ext))

/-- The names of the copies that a build keeps. -/
def copyNames (ext : String) (keep : Bool) (now : Int) : List String :=
  if keep then [keptFront ++ Calendar.fileStamp now ++ ".json",
    keptFront ++ Calendar.fileStamp now ++ "." ++ ext]
  else []

/-- No link is in the way of a build: not where it writes before it moves, and not where it keeps copies. -/
def HasNoLinksFor (t : FileTree) (base : Place) (ext : String) (keep : Bool) (now : Int) : Prop :=
  ∀ name ∈ drawnName ext :: "latest.tmp" :: copyNames ext keep now, ∀ target,
    t.listing base name ≠ some (.link target)

/-- The folder of a build beside a frame that has everything that leads to the folder, but not the pair. -/
structure Framed (f t : FileTree) (base : Place) (ext : String) (keep : Bool) (now : Int) : Prop where
  kept : Kept f t
  pack : f.listing base (latestStem ++ ".json") = none
  graph : f.listing base (latestStem ++ "." ++ ext) = none
  noLinks : HasNoLinksFor t base ext keep now

theorem temporary_ne_graph {ext : String} (h : IsGraphExtension ext) :
    "latest.tmp" ≠ latestStem ++ "." ++ ext := by
  rcases h with rfl | rfl
  · decide
  · decide

theorem latestPair_of_editedAt {f t t' : FileTree} {base : Place} {ext name : String}
    (h : EditedAt f base name t t') (hPack : latestStem ++ ".json" ≠ name)
    (hGraph : latestStem ++ "." ++ ext ≠ name) : latestPair t' base ext = latestPair t base ext := by
  rw [latestPair, latestPair, h.others _ hPack, h.others _ hGraph]

section

variable {r : Renderer} {f t : FileTree} {cwd base : Place} {root graph name : String} {seconds : Int}

/-- Drawing fails and clears its name away, or succeeds without a file, or leaves a file. -/
theorem drawTo_cases (hFrame : f.LeadsTo cwd root base) (h : Kept f t) (hName : IsOrdinary name)
    (hLink : ∀ target, t.listing base name ≠ some (.link target)) (r : Renderer) (graph : String)
    (seconds : Int) :
    (∃ e t', drawTo r cwd graph (join root name) seconds t = .error e t' ∧ EditedAt f base name t t' ∧
      r.draw graph ≠ .ok none ∧
      ∀ content, r.draw graph = .ok (some content) → t.listing base name = some .folder) ∨
    (drawTo r cwd graph (join root name) seconds t = .ok () t ∧ r.draw graph = .ok none) ∨
    ∃ content t', drawTo r cwd graph (join root name) seconds t = .ok () t' ∧
      r.draw graph = .ok (some content) ∧ t.listing base name ≠ some .folder ∧ Kept f t' ∧
      t'.listing base = Function.update (t.listing base) name (some (.file content seconds)) := by
  have hCleared := editedAt_removeFile? hFrame h hName hLink
  rcases hDraw : r.draw graph with e | _ | content
  · exact Or.inl ⟨e, _, by simp only [drawTo, hDraw], hCleared, by simp, by simp⟩
  · exact Or.inr (Or.inl ⟨by simp only [drawTo, hDraw], rfl⟩)
  · by_cases hFolder : t.listing base name = some .folder
    · have hWrite := write?_join_eq (hFrame.kept h) hLink hName content seconds
      rw [if_pos hFolder] at hWrite
      exact Or.inl ⟨r.blocked, _, by simp only [drawTo, hDraw, hWrite], hCleared, by simp,
        fun _ _ => hFolder⟩
    · obtain ⟨t', hWrite, hKept, hListing⟩ := exists_write hFrame h hName hLink hFolder content seconds
      exact Or.inr (Or.inr ⟨content, t', drawTo_of_write hDraw hWrite, rfl, hFolder, hKept, hListing⟩)

/-- A file is written under another name and then moved, unless a folder is in the way at one of the names. -/
theorem writeWhole_cases (hFrame : f.LeadsTo cwd root base) (h : Kept f t) (hName : IsOrdinary name)
    (hTemporary : IsOrdinary (withExtension name "tmp")) (hNe : name ≠ withExtension name "tmp")
    (hLink : ∀ target, t.listing base (withExtension name "tmp") ≠ some (.link target))
    (hFree : f.listing base name = none) (content : List UInt8) (seconds : Int) :
    (∃ e t', writeWhole cwd root name content seconds t = .error e t' ∧
      EditedAt f base (withExtension name "tmp") t t' ∧
      (t.listing base (withExtension name "tmp") = some .folder ∨ t.listing base name = some .folder)) ∨
    ∃ t', writeWhole cwd root name content seconds t = .ok () t' ∧
      t.listing base (withExtension name "tmp") ≠ some .folder ∧ t.listing base name ≠ some .folder ∧
      Kept f t' ∧ t'.listing base = Function.update
        (Function.update (t.listing base) (withExtension name "tmp") none) name
        (some (.file content seconds)) := by
  by_cases hBlocked : t.listing base (withExtension name "tmp") = some .folder
  · have hWrite := write?_join_eq (hFrame.kept h) hLink hTemporary content seconds
    rw [if_pos hBlocked] at hWrite
    refine Or.inl ⟨.io, t, ?_, ⟨h, fun _ _ => rfl⟩, Or.inl hBlocked⟩
    simp only [writeWhole, Work.step, bind, EStateM.bind, hWrite]
  obtain ⟨v, hWrite, hKept, hListing⟩ := exists_write hFrame h hTemporary hLink hBlocked content seconds
  have hWritten : v.listing base (withExtension name "tmp") = some (.file content seconds) := by
    rw [hListing, Function.update_self]
  have hSame : v.listing base name = t.listing base name := by
    rw [hListing, Function.update_of_ne hNe]
  by_cases hFolder : t.listing base name = some .folder
  · have hRename := rename?_eq_none hFrame hKept hTemporary hName
      (Or.inr (Or.inr (hSame.trans hFolder)))
    refine Or.inl ⟨.io, v, ?_, ⟨hKept, fun other hOther => ?_⟩, Or.inr hFolder⟩
    · simp only [writeWhole, Work.step, bind, EStateM.bind, hWrite, hRename]
    · rw [hListing, Function.update_of_ne hOther]
  · obtain ⟨t', hRename, hKept', hListing'⟩ := exists_rename hFrame hKept hTemporary hName hWritten
      (hSame ▸ hFolder) hFree
    refine Or.inr ⟨t', ?_, hBlocked, hFolder, hKept', ?_⟩
    · simp only [writeWhole, Work.step, bind, EStateM.bind, hWrite, hRename]
    · rw [hListing', hListing, Function.update_idem]

end

theorem update_ne_link {listing : String → Option Node} {name other target : String} {n : Option Node}
    (h : listing name ≠ some (.link target)) (hNew : n ≠ some (.link target)) :
    Function.update listing other n name ≠ some (.link target) := by
  rw [Function.update_apply]
  split
  next => exact hNew
  next => exact h

/-- The folder has this latest pair, and no links in the way of copies. -/
structure HasPair (f : FileTree) (base : Place) (ext : String) (keep : Bool) (now : Int)
    (pair : Option Node × Option Node) (t : FileTree) : Prop where
  kept : Kept f t
  pair : latestPair t base ext = pair
  noLinks : ∀ name ∈ copyNames ext keep now, ∀ target, t.listing base name ≠ some (.link target)

section

variable {r : Renderer} {f t t' : FileTree} {cwd base : Place} {root ext ending : String} {keep : Bool}
  {now seconds : Int} {pair : Option Node × Option Node} {content : List UInt8}

/-- A copy does no harm to the pair. -/
theorem HasPair.write (h : HasPair f base ext keep now pair t) (hFrame : f.LeadsTo cwd root base)
    (hEnding : '/' ∉ ending.toList)
    (hCopy : keptFront ++ Calendar.fileStamp now ++ ending ∈ copyNames ext keep now)
    (hWrite : t.write? cwd (join root (keptFront ++ Calendar.fileStamp now ++ ending)) content seconds =
      some t') : HasPair f base ext keep now pair t' := by
  have hName : IsOrdinary (keptFront ++ Calendar.fileStamp now ++ ending) := isOrdinary_kept now hEnding
  have hLink := h.noLinks _ hCopy
  have hFolder : t.listing base (keptFront ++ Calendar.fileStamp now ++ ending) ≠ some .folder := by
    intro hFolder
    rw [write?_join_eq (hFrame.kept h.kept) hLink hName, if_pos hFolder] at hWrite
    simp at hWrite
  obtain ⟨v, hWritten, hKept, hListing⟩ := exists_write hFrame h.kept hName hLink hFolder content seconds
  obtain rfl := Option.some.inj (hWritten.symm.trans hWrite)
  refine ⟨hKept, ?_, fun name hMem target => ?_⟩
  · rw [← h.pair, latestPair, latestPair, hListing,
      Function.update_of_ne (kept_ne (by simp [latestStem])),
      Function.update_of_ne (kept_ne (by simp [latestStem]))]
  · rw [hListing]
    exact update_ne_link (h.noLinks name hMem target) (by simp)

theorem keepCopies_keeps_pair (hFrame : f.LeadsTo cwd root base) (hExt : IsGraphExtension r.extension) :
    Keeps (HasPair f base r.extension keep now pair) (keepCopies r cwd root content keep now) := by
  unfold keepCopies
  dsimp only
  cases keep with
  | false => exact .pure _
  | true =>
      have hPack : keptFront ++ Calendar.fileStamp now ++ ".json" ∈ copyNames r.extension true now :=
        List.mem_cons_self
      have hGraph : keptFront ++ Calendar.fileStamp now ++ ("." ++ r.extension) ∈
          copyNames r.extension true now := by
        rw [← String.append_assoc]
        exact List.mem_cons_of_mem _ (List.mem_singleton_self _)
      refine .bind (.step fun t t' h => h.write hFrame (by decide) hPack) fun _ =>
        .bind (.step fun t t' h hCopy => ?_) fun _ => .pure _
      obtain ⟨copied, -, hWrite⟩ := Option.bind_eq_some_iff.1 hCopy
      rw [String.append_assoc] at hWrite
      exact h.write hFrame (slash_notMem_extension hExt) hGraph hWrite

end

section

variable {r : Renderer} {f t : FileTree} {cwd base : Place} {root : String} {content drawn : List UInt8}
  {keep : Bool} {now seconds modified : Int}

/-- A folder is in the way of the pack. -/
def IsBlocked (t : FileTree) (base : Place) : Prop :=
  t.listing base "latest.tmp" = some .folder ∨ t.listing base (latestStem ++ ".json") = some .folder

theorem putPack_cases (hExt : IsGraphExtension r.extension) (hFrame : f.LeadsTo cwd root base)
    (h : Framed f t base r.extension keep now) (content : List UInt8) (seconds : Int) :
    IsBlocked t base ∧ (∃ e t', putPack cwd root (join root (drawnName r.extension)) content seconds t =
        .error e t' ∧ latestPair t' base r.extension = latestPair t base r.extension) ∨
      ¬IsBlocked t base ∧ ∃ t', putPack cwd root (join root (drawnName r.extension)) content seconds t =
        .ok () t' ∧ Kept f t' ∧ t'.listing base = Function.update
          (Function.update (t.listing base) "latest.tmp" none) (latestStem ++ ".json")
          (some (.file content seconds)) := by
  have hNames := areDistinct hExt
  have hNe : latestStem ++ ".json" ≠ "latest.tmp" := by decide
  have hLink := h.noLinks "latest.tmp" (List.mem_cons_of_mem _ List.mem_cons_self)
  have hCases := writeWhole_cases hFrame h.kept hNames.isOrdinary_pack
    (hNames.temporary.symm ▸ hNames.isOrdinary_temporary) (hNames.temporary.symm ▸ hNe)
    (hNames.temporary.symm ▸ hLink) h.pack content seconds
  rw [hNames.temporary] at hCases
  rcases hCases with ⟨e, v, hWhole, hEdited, hBlocked⟩ | ⟨t', hWhole, hRoom, hNoFolder, hKept, hListing⟩
  · have hDrawn : ∀ target, v.listing base (drawnName r.extension) ≠ some (.link target) := by
      rw [hEdited.others _ hNames.drawn_ne_temporary]
      exact h.noLinks _ List.mem_cons_self
    have hCleared := editedAt_removeFile? hFrame hEdited.kept hNames.isOrdinary_drawn hDrawn
    refine Or.inl ⟨hBlocked, e, (v.removeFile? cwd (join root (drawnName r.extension))).getD v,
      by simp only [putPack, hWhole], ?_⟩
    rw [latestPair_of_editedAt hCleared hNames.drawn_ne_pack.symm hNames.drawn_ne_graph.symm,
      latestPair_of_editedAt hEdited hNe (temporary_ne_graph hExt).symm]
  · refine Or.inr ⟨fun hBlocked => hBlocked.elim hRoom hNoFolder, t', ?_, hKept, hListing⟩
    simp only [putPack, hWhole]

/-- The pair stays when a folder is in the way of the pack. -/
theorem latestPair_of_isBlocked (hExt : IsGraphExtension r.extension) (hFrame : f.LeadsTo cwd root base)
    (h : Framed f t base r.extension keep now) (hBlocked : IsBlocked t base) (content : List UInt8) :
    latestPair (endOf (putPair r cwd root content keep now t)) base r.extension =
      latestPair t base r.extension := by
  rcases putPack_cases hExt hFrame h content (Calendar.secondsOfMillis now) with
    ⟨-, e, t', hFailed, hPair⟩ | ⟨hRoom, -⟩
  · rw [putPair, endOf_bind_of_error hFailed, hPair]
  · exact absurd hBlocked hRoom

/-- Otherwise the pack is replaced. The graph is replaced as well when there is a drawing to put there and no
folder in the way, and else it stays. -/
theorem latestPair_of_not_isBlocked (hExt : IsGraphExtension r.extension)
    (hFrame : f.LeadsTo cwd root base) (h : Framed f t base r.extension keep now)
    (hRoom : ¬IsBlocked t base) (content : List UInt8) :
    (∀ drawn modified, t.listing base (drawnName r.extension) = some (.file drawn modified) →
      t.listing base (latestStem ++ "." ++ r.extension) ≠ some .folder →
      latestPair (endOf (putPair r cwd root content keep now t)) base r.extension =
        (some (.file content (Calendar.secondsOfMillis now)), some (.file drawn modified))) ∧
    ((∀ drawn modified, t.listing base (drawnName r.extension) ≠ some (.file drawn modified)) ∨
        t.listing base (latestStem ++ "." ++ r.extension) = some .folder →
      latestPair (endOf (putPair r cwd root content keep now t)) base r.extension =
        (some (.file content (Calendar.secondsOfMillis now)),
          t.listing base (latestStem ++ "." ++ r.extension))) := by
  have hNames := areDistinct hExt
  rcases putPack_cases hExt hFrame h content (Calendar.secondsOfMillis now) with
    ⟨hBlocked, -⟩ | ⟨-, v, hPut, hKept, hListing⟩
  · exact absurd hBlocked hRoom
  have hDrawn : v.listing base (drawnName r.extension) = t.listing base (drawnName r.extension) := by
    rw [hListing, Function.update_of_ne hNames.drawn_ne_pack,
      Function.update_of_ne hNames.drawn_ne_temporary]
  have hGraph : v.listing base (latestStem ++ "." ++ r.extension) =
      t.listing base (latestStem ++ "." ++ r.extension) := by
    rw [hListing, Function.update_of_ne hNames.pack_ne_graph.symm,
      Function.update_of_ne (temporary_ne_graph hExt).symm]
  have hPack : v.listing base (latestStem ++ ".json") =
      some (.file content (Calendar.secondsOfMillis now)) := by
    rw [hListing, Function.update_self]
  constructor
  · intro drawn modified hFile hFolder
    obtain ⟨t', hRename, hKept', hListing'⟩ := exists_rename hFrame hKept hNames.isOrdinary_drawn
      hNames.isOrdinary_graph (hDrawn.trans hFile) (hGraph ▸ hFolder) h.graph
    have hMoved : Work.step (fun t => t.rename? cwd (join root (drawnName r.extension))
        (join root (latestStem ++ "." ++ r.extension))) v = .ok () t' := step_eq_ok_iff.2 hRename
    rw [putPair, endOf_bind_of_ok hPut, endOf_bind_of_ok hMoved]
    refine (keepCopies_keeps_pair hFrame hExt t' ⟨hKept', ?_, ?_⟩).pair
    · rw [latestPair, hListing', Function.update_self, Function.update_of_ne hNames.pack_ne_graph,
        Function.update_of_ne hNames.drawn_ne_pack.symm, hPack]
    · intro name hCopy target
      have hOld := h.noLinks name (List.mem_cons_of_mem _ (List.mem_cons_of_mem _ hCopy)) target
      rw [hListing', hListing]
      exact update_ne_link (update_ne_link (update_ne_link (update_ne_link hOld (by simp)) (by simp))
        (by simp)) (by simp)
  · intro hNothing
    have hRename : v.rename? cwd (join root (drawnName r.extension))
        (join root (latestStem ++ "." ++ r.extension)) = none := by
      refine rename?_eq_none hFrame hKept hNames.isOrdinary_drawn hNames.isOrdinary_graph ?_
      rw [hDrawn, hGraph]
      rcases hNothing with hNoFile | hFolder
      · have hNoLink := h.noLinks _ List.mem_cons_self
        rcases hNode : t.listing base (drawnName r.extension) with _ | ⟨_ | _ | _⟩
        · exact Or.inl rfl
        · exact absurd hNode (hNoFile _ _)
        · exact absurd hNode (hNoLink _)
        · exact Or.inr (Or.inl rfl)
      · exact Or.inr (Or.inr hFolder)
    have hFailed : Work.step (fun t => t.rename? cwd (join root (drawnName r.extension))
        (join root (latestStem ++ "." ++ r.extension))) v = .error .io v := by
      simp only [Work.step, hRename]
    rw [putPair, endOf_bind_of_ok hPut, endOf_bind_of_error hFailed, latestPair, hPack, hGraph]

end

/-- The tree without the latest pair of a folder. -/
def withoutPair (t : FileTree) (base : Place) (ext : String) : FileTree :=
  (t.remove (base ++ [latestStem ++ ".json"])).remove (base ++ [latestStem ++ "." ++ ext])

/-- The path leads to the folder without going through the pair in it, and no link is in the way of a build. -/
structure Untangled (t : FileTree) (cwd : Place) (root : String) (base : Place) (ext : String)
    (keep : Bool) (now : Int) : Prop where
  leadsTo : (withoutPair t base ext).LeadsTo cwd root base
  noLinks : HasNoLinksFor t base ext keep now

theorem framed_withoutPair {t : FileTree} {base : Place} {ext : String} {keep : Bool} {now : Int}
    (h : HasNoLinksFor t base ext keep now) : Framed (withoutPair t base ext) t base ext keep now where
  kept := (kept_of_remove (by simp)).trans (kept_of_remove (by simp))
  pack := by
    rw [withoutPair, listing_remove, listing_remove, Function.update_apply, Function.update_self]
    split <;> rfl
  graph := by rw [withoutPair, listing_remove, Function.update_self]
  noLinks := h

/-- A build comes to replace the pack, but drawing has left no file to put beside it, or a folder is in the
way of the graph. -/
def Tears (r : Renderer) (t : FileTree) (base : Place) (graph : String) : Prop :=
  ¬IsBlocked t base ∧ (r.draw graph = .ok none ∨ ∃ drawn, r.draw graph = .ok (some drawn) ∧
    t.listing base (drawnName r.extension) ≠ some .folder ∧
    t.listing base (latestStem ++ "." ++ r.extension) = some .folder)

section

variable {r : Renderer} {cwd base : Place} {root graph : String} {pack : Pack} {keep : Bool} {now : Int}
  {t t₁ t₂ : FileTree}

theorem endOf_write_of_drawn (hMake : t.makeFolders? cwd root = some t₁)
    (hDraw : drawTo r cwd graph (join root (drawnName r.extension)) (Calendar.secondsOfMillis now) t₁ =
      .ok () t₂) :
    endOf (write r cwd root pack graph keep now t) =
      endOf (putPair r cwd root (Text.utf8 pack.text) keep now t₂) := by
  rw [endOf_write_of_folder hMake, endOf_bind_of_ok hDraw]

theorem endOf_write_of_not_drawn (hMake : t.makeFolders? cwd root = some t₁) {e : Failure}
    (hDraw : drawTo r cwd graph (join root (drawnName r.extension)) (Calendar.secondsOfMillis now) t₁ =
      .error e t₂) : endOf (write r cwd root pack graph keep now t) = t₂ := by
  rw [endOf_write_of_folder hMake, endOf_bind_of_error hDraw]

/-- A drawing in its place changes nothing else in the folder. -/
structure IsDrawn (f t₁ t₂ : FileTree) (base : Place) (ext : String) (keep : Bool) (now : Int)
    (drawn : List UInt8) (seconds : Int) : Prop where
  framed : Framed f t₂ base ext keep now
  file : t₂.listing base (drawnName ext) = some (.file drawn seconds)
  blocked : IsBlocked t₂ base ↔ IsBlocked t₁ base
  pair : latestPair t₂ base ext = latestPair t₁ base ext

theorem Framed.isDrawn {f : FileTree} {ext : String} {drawn : List UInt8} {seconds : Int}
    (h : Framed f t₁ base ext keep now) (hExt : IsGraphExtension ext) (hKept : Kept f t₂)
    (hListing : t₂.listing base =
      Function.update (t₁.listing base) (drawnName ext) (some (.file drawn seconds))) :
    IsDrawn f t₁ t₂ base ext keep now drawn seconds := by
  have hNames := areDistinct hExt
  refine ⟨⟨hKept, h.pack, h.graph, fun name hMem target => ?_⟩, ?_, ?_, ?_⟩
  · rw [hListing]
    exact update_ne_link (h.noLinks name hMem target) (by simp)
  · rw [hListing, Function.update_self]
  · rw [IsBlocked, IsBlocked, hListing, Function.update_of_ne hNames.drawn_ne_temporary.symm,
      Function.update_of_ne hNames.drawn_ne_pack.symm]
  · rw [latestPair, latestPair, hListing, Function.update_of_ne hNames.drawn_ne_pack.symm,
      Function.update_of_ne hNames.drawn_ne_graph.symm]

/-- Where a build tears the pair, it replaces the pack, and the graph stays or makes room for what was left
under the name of the drawing. -/
theorem latestPair_of_tears (hExt : IsGraphExtension r.extension)
    (hMake : t.makeFolders? cwd root = some t₁) (h : Untangled t₁ cwd root base r.extension keep now)
    (hTears : Tears r t₁ base graph) :
    (latestPair (endOf (write r cwd root pack graph keep now t)) base r.extension).1 =
        some (.file (Text.utf8 pack.text) (Calendar.secondsOfMillis now)) ∧
      ((latestPair (endOf (write r cwd root pack graph keep now t)) base r.extension).2 =
          (latestPair t₁ base r.extension).2 ∨
        r.draw graph = .ok none ∧
          (latestPair (endOf (write r cwd root pack graph keep now t)) base r.extension).2 =
            t₁.listing base (drawnName r.extension)) := by
  have hNames := areDistinct hExt
  have hFramed := framed_withoutPair h.noLinks
  obtain ⟨hRoom, hGraph⟩ := hTears
  rcases drawTo_cases h.leadsTo hFramed.kept hNames.isOrdinary_drawn (h.noLinks _ List.mem_cons_self) r
      graph (Calendar.secondsOfMillis now) with
    ⟨e, t₂, -, -, hDrawn, hFolder⟩ | ⟨hDraw, hNone⟩ | ⟨drawn, t₂, hDraw, hDrawn, -, hKept, hListing⟩
  · rcases hGraph with hNone | ⟨drawn, hSome, hNoFolder, -⟩
    · exact absurd hNone hDrawn
    · exact absurd (hFolder drawn hSome) hNoFolder
  · rw [endOf_write_of_drawn hMake hDraw]
    obtain ⟨hMoved, hStays⟩ :=
      latestPair_of_not_isBlocked hExt h.leadsTo hFramed hRoom (Text.utf8 pack.text)
    by_cases hLeft : (∀ drawn modified, t₁.listing base (drawnName r.extension) ≠
        some (.file drawn modified)) ∨ t₁.listing base (latestStem ++ "." ++ r.extension) = some .folder
    · rw [hStays hLeft]
      exact ⟨rfl, Or.inl rfl⟩
    · obtain ⟨hFile, hNoFolder⟩ := not_or.1 hLeft
      push Not at hFile
      obtain ⟨drawn, modified, hFile⟩ := hFile
      rw [hMoved drawn modified hFile hNoFolder]
      exact ⟨rfl, Or.inr ⟨hNone, hFile.symm⟩⟩
  · have hIsDrawn := hFramed.isDrawn hExt hKept hListing
    have hFolder : t₂.listing base (latestStem ++ "." ++ r.extension) = some .folder := by
      rcases hGraph with hNone | ⟨-, -, -, hFolder⟩
      · simp [hNone] at hDrawn
      · exact (congrArg Prod.snd hIsDrawn.pair).trans hFolder
    have hSame : t₂.listing base (latestStem ++ "." ++ r.extension) = (latestPair t₁ base r.extension).2 :=
      congrArg Prod.snd hIsDrawn.pair
    have hStays := (latestPair_of_not_isBlocked hExt h.leadsTo hIsDrawn.framed
      (hIsDrawn.blocked.not.2 hRoom) (Text.utf8 pack.text)).2 (Or.inr hFolder)
    rw [endOf_write_of_drawn hMake hDraw, hStays]
    exact ⟨rfl, Or.inl hSame⟩

/-- Elsewhere it leaves the pair alone or writes both. -/
theorem latestPair_of_not_tears (hExt : IsGraphExtension r.extension)
    (hMake : t.makeFolders? cwd root = some t₁) (h : Untangled t₁ cwd root base r.extension keep now)
    (hTears : ¬Tears r t₁ base graph) :
    latestPair (endOf (write r cwd root pack graph keep now t)) base r.extension =
        latestPair t₁ base r.extension ∨
      ∃ drawn, r.draw graph = .ok (some drawn) ∧
        latestPair (endOf (write r cwd root pack graph keep now t)) base r.extension =
          (some (.file (Text.utf8 pack.text) (Calendar.secondsOfMillis now)),
            some (.file drawn (Calendar.secondsOfMillis now))) := by
  have hNames := areDistinct hExt
  have hFramed := framed_withoutPair h.noLinks
  rcases drawTo_cases h.leadsTo hFramed.kept hNames.isOrdinary_drawn (h.noLinks _ List.mem_cons_self) r
      graph (Calendar.secondsOfMillis now) with
    ⟨e, t₂, hDraw, hEdited, -, -⟩ | ⟨hDraw, hNone⟩ |
    ⟨drawn, t₂, hDraw, hDrawn, hFolder, hKept, hListing⟩
  · rw [endOf_write_of_not_drawn hMake hDraw]
    exact Or.inl (latestPair_of_editedAt hEdited hNames.drawn_ne_pack.symm hNames.drawn_ne_graph.symm)
  · have hBlocked : IsBlocked t₁ base := by
      by_contra hRoom
      exact hTears ⟨hRoom, Or.inl hNone⟩
    rw [endOf_write_of_drawn hMake hDraw]
    exact Or.inl (latestPair_of_isBlocked hExt h.leadsTo hFramed hBlocked _)
  · have hIsDrawn := hFramed.isDrawn hExt hKept hListing
    rw [endOf_write_of_drawn hMake hDraw]
    by_cases hBlocked : IsBlocked t₁ base
    · have hStays := latestPair_of_isBlocked hExt h.leadsTo hIsDrawn.framed
        (hIsDrawn.blocked.2 hBlocked) (Text.utf8 pack.text)
      exact Or.inl (hStays.trans hIsDrawn.pair)
    · have hRoom : t₂.listing base (latestStem ++ "." ++ r.extension) ≠ some .folder := fun hGraph =>
        hTears ⟨hBlocked, Or.inr ⟨drawn, hDrawn, hFolder,
          (congrArg Prod.snd hIsDrawn.pair).symm.trans hGraph⟩⟩
      exact Or.inr ⟨drawn, hDrawn, (latestPair_of_not_isBlocked hExt h.leadsTo hIsDrawn.framed
        (hIsDrawn.blocked.not.2 hBlocked) _).1 drawn _ hIsDrawn.file hRoom⟩

/-- What becomes of the latest pair in every attempt at a build, whether it succeeds or fails. Nothing is done
at all when the folder is not there and cannot be made, and a folder that is there is not made again. In a
folder that is not tangled up the pair stays as it was or is replaced by the new one, unless the build tears
the pair: then the pack is the new one, but the graph is not drawn from it. -/
theorem latestPair_of_write (hExt : IsGraphExtension r.extension) :
    (t.makeFolders? cwd root = none → endOf (write r cwd root pack graph keep now t) = t) ∧
    ∀ t₁ base, t.makeFolders? cwd root = some t₁ → Untangled t₁ cwd root base r.extension keep now →
      (t.LeadsTo cwd root base → t₁ = t) ∧
      (¬Tears r t₁ base graph →
        latestPair (endOf (write r cwd root pack graph keep now t)) base r.extension =
            latestPair t₁ base r.extension ∨
          ∃ drawn, r.draw graph = .ok (some drawn) ∧
            latestPair (endOf (write r cwd root pack graph keep now t)) base r.extension =
              (some (.file (Text.utf8 pack.text) (Calendar.secondsOfMillis now)),
                some (.file drawn (Calendar.secondsOfMillis now)))) ∧
      (Tears r t₁ base graph →
        (latestPair (endOf (write r cwd root pack graph keep now t)) base r.extension).1 =
            some (.file (Text.utf8 pack.text) (Calendar.secondsOfMillis now)) ∧
          ((latestPair (endOf (write r cwd root pack graph keep now t)) base r.extension).2 =
              (latestPair t₁ base r.extension).2 ∨
            r.draw graph = .ok none ∧
              (latestPair (endOf (write r cwd root pack graph keep now t)) base r.extension).2 =
                t₁.listing base (drawnName r.extension))) :=
  ⟨endOf_write_of_no_folder, fun _ _ hMake h => ⟨fun hThere => hThere.makeFolders?_eq hMake,
    latestPair_of_not_tears hExt hMake h, latestPair_of_tears hExt hMake h⟩⟩

/-- A folder with nothing but files in it is not tangled up. -/
theorem Open.untangled (h : Open t cwd root base) (ext : String) (keep : Bool) (now : Int) :
    Untangled t cwd root base ext keep now where
  leadsTo := by
    refine h.leadsTo.kept (((Kept.refl t).remove (by simp) (h.noFolders _) (h.noLinks _)).remove (by simp)
      (h.noFolders _) (h.noLinks _))
  noLinks name _ := h.noLinks name

/-- The first build of all writes both. -/
theorem latestPair_of_first_write :
    Untangled (.ofNodes [(["build"], .folder)]) [] "build" ["build"] "dot" true 0 ∧
    (latestPair (endOf (write .text [] "build" (.make [] "" 0) "" true 0 .empty)) ["build"] "dot" =
        (none, none) ∨
      ∃ drawn, Renderer.text.draw "" = .ok (some drawn) ∧
        latestPair (endOf (write .text [] "build" (.make [] "" 0) "" true 0 .empty)) ["build"] "dot" =
          (some (.file (Text.utf8 (Pack.make [] "" 0).text) 0), some (.file drawn 0))) := by
  have hNotTorn : ¬Tears .text (.ofNodes [(["build"], .folder)]) ["build"] "" := by
    rintro ⟨-, hNone | ⟨drawn, -, -, hFolder⟩⟩
    · simp [Renderer.text] at hNone
    · rw [listing_build] at hFolder
      simp at hFolder
  have hExt : IsGraphExtension Renderer.text.extension := Or.inl rfl
  refine ⟨open_build.untangled "dot" true 0, ?_⟩
  exact ((latestPair_of_write hExt).2 _ ["build"] makeFolders?_empty
    (open_build.untangled "dot" true 0)).2.1 hNotTorn

/-- A folder in which an old pack lies beside a folder under the name of the graph. -/
def crowdedFolder : FileTree :=
  .ofNodes [(["build"], .folder), (["build", "latest.json"], .file [111, 108, 100] 0),
    (["build", "latest.dot"], .folder)]

theorem makeFolders?_crowdedFolder : crowdedFolder.makeFolders? [] "build" = some crowdedFolder := by
  cbv

theorem latestPair_crowdedFolder :
    latestPair crowdedFolder ["build"] "dot" = (some (.file [111, 108, 100] 0), some .folder) := by
  have hPack : latestStem ++ ".json" = "latest.json" := by decide
  have hGraph : latestStem ++ "." ++ "dot" = "latest.dot" := by decide
  rw [latestPair, hPack, hGraph]
  simp [listing, node?, crowdedFolder, ofNodes, List.lookup]

theorem crowdedFolder_drawn : crowdedFolder.listing ["build"] (drawnName "dot") = none := by
  have hDrawn : drawnName "dot" = "latest.dot.tmp" := by decide
  rw [hDrawn]
  simp [listing, node?, crowdedFolder, ofNodes, List.lookup]

theorem crowdedFolder_temporary : crowdedFolder.listing ["build"] "latest.tmp" = none := by
  simp [listing, node?, crowdedFolder, ofNodes, List.lookup]

theorem crowdedFolder_untangled : Untangled crowdedFolder [] "build" ["build"] "dot" false 0 where
  leadsTo := by
    have hPack : latestStem ++ ".json" = "latest.json" := by decide
    have hGraph : latestStem ++ "." ++ "dot" = "latest.dot" := by decide
    rw [withoutPair, hPack, hGraph]
    exact ⟨by cbv, by cbv⟩
  noLinks name hName target := by
    have hNone : copyNames "dot" false 0 = [] := rfl
    rw [hNone, List.mem_cons, List.mem_singleton] at hName
    rcases hName with rfl | rfl
    · simp [crowdedFolder_drawn]
    · simp [crowdedFolder_temporary]

theorem crowdedFolder_tears : Tears .text crowdedFolder ["build"] "" := by
  have hPair := latestPair_crowdedFolder
  rw [latestPair, Prod.mk.injEq] at hPair
  refine ⟨?_, Or.inr ⟨_, rfl, ?_, hPair.2⟩⟩
  · rintro (hFolder | hFolder)
    · simp [crowdedFolder_temporary] at hFolder
    · simp [hPair.1] at hFolder
  · rw [Renderer.text, crowdedFolder_drawn]
    simp

/-- The new pack comes to lie beside the folder. -/
theorem crowdedFolder_torn :
    latestPair crowdedFolder ["build"] "dot" = (some (.file [111, 108, 100] 0), some .folder) ∧
      latestPair (endOf (write .text [] "build" (.make [] "" 0) "" false 0 crowdedFolder)) ["build"] "dot" =
        (some (.file (Text.utf8 (Pack.make [] "" 0).text) 0), some .folder) ∧
      Text.utf8 (Pack.make [] "" 0).text ≠ [111, 108, 100] := by
  have hExt : IsGraphExtension Renderer.text.extension := Or.inl rfl
  have hTorn : (latestPair (endOf (write .text [] "build" (.make [] "" 0) "" false 0 crowdedFolder))
        ["build"] "dot").1 = some (.file (Text.utf8 (Pack.make [] "" 0).text) 0) ∧
      ((latestPair (endOf (write .text [] "build" (.make [] "" 0) "" false 0 crowdedFolder))
        ["build"] "dot").2 = (latestPair crowdedFolder ["build"] "dot").2 ∨ _) :=
    latestPair_of_tears hExt makeFolders?_crowdedFolder crowdedFolder_untangled crowdedFolder_tears
  obtain ⟨hNew, hOld | ⟨hNone, -⟩⟩ := hTorn
  · rw [latestPair_crowdedFolder] at hOld
    exact ⟨latestPair_crowdedFolder, Prod.ext hNew hOld, by decide +kernel⟩
  · simp [Renderer.text] at hNone

end

end Build

end Phrasebook
