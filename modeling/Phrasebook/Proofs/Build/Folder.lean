import Phrasebook.Proofs.Build.Writer
import Phrasebook.Proofs.FileTree.Resolution
import Phrasebook.Proofs.Store.Table

/-!
The folder of builds. As long as nothing else writes into it, it holds nothing but files, whose names stand
for themselves. Every attempt at a build keeps it like that, wherever it fails.
-/

namespace Phrasebook.Build

open FileTree

/-- The path leads to the folder `base`, which holds nothing but files under ordinary names. -/
structure Orderly (t : FileTree) (cwd : Place) (root : String) (base : Place) : Prop
    extends Open t cwd root base where
  ordinary : ∀ name n, t.listing base name = some n → IsOrdinary name

section

variable {t t' : FileTree} {cwd base : Place} {root name other : String}

theorem Orderly.exists_file (h : Orderly t cwd root base) {n : Node}
    (hNode : t.listing base name = some n) : ∃ content modified, n = .file content modified := by
  cases n with
  | file content modified => exact ⟨content, modified, rfl⟩
  | link target => exact absurd hNode (h.noLinks name target)
  | folder => exact absurd hNode (h.noFolders name)

/-- What comes into the folder has to be a file under an ordinary name. -/
theorem Orderly.of_listing (h : Orderly t cwd root base) (hReady : Ready t' cwd root base)
    (hListing : ∀ name n, t'.listing base name = some n →
      t.listing base name = some n ∨ n ≠ .folder ∧ IsOrdinary name) : Orderly t' cwd root base where
  toReady := hReady
  noFolders name hFolder := (hListing name _ hFolder).elim (h.noFolders name) fun hNew => hNew.1 rfl
  ordinary name n hNode := (hListing name n hNode).elim (h.ordinary name n) And.right

theorem Orderly.write (h : Orderly t cwd root base) (hName : IsOrdinary name) {content : List UInt8}
    {now : Int} (hWrite : t.write? cwd (join root name) content now = some t') :
    Orderly t' cwd root base := by
  obtain ⟨hReady, hListing⟩ := h.toReady.write hName hWrite
  refine h.of_listing hReady fun n node hNode => ?_
  rw [hListing, Function.update_apply] at hNode
  split at hNode
  next hSame =>
    obtain rfl := Option.some.inj hNode
    exact Or.inr ⟨by simp, hSame ▸ hName⟩
  next => exact Or.inl hNode

theorem Orderly.rename (h : Orderly t cwd root base) (hName : IsOrdinary name)
    (hOther : IsOrdinary other)
    (hRename : t.rename? cwd (join root name) (join root other) = some t') :
    Orderly t' cwd root base := by
  obtain ⟨hReady, content, modified, -, hListing⟩ := h.toReady.rename hName hOther hRename
  refine h.of_listing hReady fun n node hNode => ?_
  rw [hListing, Function.update_apply, Function.update_apply] at hNode
  split at hNode
  next hSame =>
    obtain rfl := Option.some.inj hNode
    exact Or.inr ⟨by simp, hSame ▸ hOther⟩
  next =>
    split at hNode
    next => simp at hNode
    next => exact Or.inl hNode

theorem Orderly.remove (h : Orderly t cwd root base) (hName : IsOrdinary name)
    (hRemove : t.removeFile? cwd (join root name) = some t') : Orderly t' cwd root base := by
  obtain ⟨hKept, hListing⟩ := removeFile?_join h.leadsTo h.noLinks hName hRemove
  refine h.of_listing (h.toReady.of_kept hKept fun n target hLink => ?_) fun n node hNode => ?_
  · rw [hListing, Function.update_apply] at hLink
    split at hLink
    next => simp at hLink
    next => exact h.noLinks n target hLink
  · rw [hListing, Function.update_apply] at hNode
    split at hNode
    next => simp at hNode
    next => exact Or.inl hNode

end

section

variable {α β : Type} {P : FileTree → Prop}

/-- Whether work succeeds or fails, the tree behind it has the property when the tree before has it. -/
def Keeps (P : FileTree → Prop) (work : Work α) : Prop := ∀ t, P t → P (endOf (work t))

theorem endOf_bind_of_ok {work : Work α} {f : α → Work β} {t t' : FileTree} {a : α}
    (h : work t = .ok a t') : endOf ((work >>= f) t) = endOf (f a t') := by
  simp only [bind, EStateM.bind, h]

theorem endOf_bind_of_error {work : Work α} {f : α → Work β} {t t' : FileTree} {e : Failure}
    (h : work t = .error e t') : endOf ((work >>= f) t) = t' := by
  simp only [bind, EStateM.bind, h]
  rfl

theorem Keeps.bind {work : Work α} {f : α → Work β} (h : Keeps P work) (k : ∀ a, Keeps P (f a)) :
    Keeps P (work >>= f) := by
  intro t ht
  have hFirst := h t ht
  cases hWork : work t with
  | error e t' =>
      rw [endOf_bind_of_error hWork]
      rwa [hWork] at hFirst
  | ok a t' =>
      rw [endOf_bind_of_ok hWork]
      rw [hWork] at hFirst
      exact k a t' hFirst

theorem Keeps.pure (a : α) : Keeps P (Pure.pure a) := fun _ h => h

theorem Keeps.step {f : FileTree → Option FileTree} (h : ∀ t t', P t → f t = some t' → P t') :
    Keeps P (Work.step f) := by
  intro t ht
  unfold Work.step
  split
  next t' hStep => exact h t t' ht hStep
  next => exact ht

/-- A property of trees that is kept when a file in the folder is written, moved or removed. -/
structure IsKeptByEdits (P : FileTree → Prop) (cwd : Place) (root : String) : Prop where
  write : ∀ {t t' name content now}, IsOrdinary name → P t →
    t.write? cwd (join root name) content now = some t' → P t'
  rename : ∀ {t t' name other}, IsOrdinary name → IsOrdinary other → P t →
    t.rename? cwd (join root name) (join root other) = some t' → P t'
  remove : ∀ {t t' name}, IsOrdinary name → P t → t.removeFile? cwd (join root name) = some t' → P t'

theorem orderly_isKeptByEdits (cwd : Place) (root : String) (base : Place) :
    IsKeptByEdits (Orderly · cwd root base) cwd root :=
  ⟨fun hName h => h.write hName, fun hName hOther h => h.rename hName hOther, fun hName h => h.remove hName⟩

/-- Clearing away what is under a name, if it can be cleared away. -/
theorem of_getD_removeFile? {cwd : Place} {path : String}
    (h : ∀ t t', P t → t.removeFile? cwd path = some t' → P t') {t : FileTree} (ht : P t) :
    P ((t.removeFile? cwd path).getD t) := by
  cases hRemove : t.removeFile? cwd path with
  | none => exact ht
  | some t' => exact h t t' ht hRemove

end

section

variable {r : Renderer} {cwd base : Place} {root graph name : String} {content : List UInt8}
  {keep : Bool} {now seconds : Int} {P : FileTree → Prop}

/-- Puts the pack in its place. When that fails, the drawing is cleared away. -/
def putPack (cwd : Place) (root drawn : String) (content : List UInt8) (seconds : Int) : Work Unit := fun t =>
  match writeWhole cwd root (latestStem ++ ".json") content seconds t with
  | .ok () t => .ok () t
  | .error f t => .error f ((t.removeFile? cwd drawn).getD t)

/-- Keeps copies of the latest build on request. -/
def keepCopies (r : Renderer) (cwd : Place) (root : String) (content : List UInt8) (keep : Bool)
    (now : Int) : Work Written := do
  let path (name : String) : String := join root name
  let latestPack := path (latestStem ++ ".json")
  let latestGraph := path (latestStem ++ "." ++ r.extension)
  if keep then
    let keptPack := path (keptFront ++ Calendar.fileStamp now ++ ".json")
    let keptGraph := path (keptFront ++ Calendar.fileStamp now ++ "." ++ r.extension)
    Work.step fun t => t.write? cwd keptPack content (Calendar.secondsOfMillis now)
    copyFile cwd latestGraph keptGraph (Calendar.secondsOfMillis now)
    return ⟨latestPack, latestGraph, some keptPack, some keptGraph⟩
  else return ⟨latestPack, latestGraph, none, none⟩

/-- Puts the pack and then the drawing in their places. -/
def putPair (r : Renderer) (cwd : Place) (root : String) (content : List UInt8) (keep : Bool) (now : Int) :
    Work Written := do
  putPack cwd root (join root (drawnName r.extension)) content (Calendar.secondsOfMillis now)
  Work.step fun t => t.rename? cwd (join root (drawnName r.extension))
    (join root (latestStem ++ "." ++ r.extension))
  keepCopies r cwd root content keep now

theorem write_eq (r : Renderer) (cwd : Place) (root : String) (pack : Pack) (graph : String) (keep : Bool)
    (now : Int) :
    write r cwd root pack graph keep now = (do
      Work.step fun t => t.makeFolders? cwd root
      drawTo r cwd graph (join root (drawnName r.extension)) (Calendar.secondsOfMillis now)
      putPair r cwd root (Text.utf8 pack.text) keep now) := rfl

theorem drawTo_keeps (hP : IsKeptByEdits P cwd root) (hName : IsOrdinary name) :
    Keeps P (drawTo r cwd graph (join root name) seconds) := by
  intro t h
  have hClear : P ((t.removeFile? cwd (join root name)).getD t) :=
    of_getD_removeFile? (fun _ _ h => hP.remove hName h) h
  unfold drawTo
  dsimp only
  split
  next => exact hClear
  next => exact h
  next content _ =>
    split
    next t' hWrite => exact hP.write hName h hWrite
    next => exact hClear

theorem writeWhole_keeps (hP : IsKeptByEdits P cwd root) (hTemporary : IsOrdinary (withExtension name "tmp"))
    (hName : IsOrdinary name) (content : List UInt8) :
    Keeps P (writeWhole cwd root name content seconds) :=
  .bind (.step fun _ _ h => hP.write hTemporary h) fun _ => .step fun _ _ h => hP.rename hTemporary hName h

theorem copyFile_keeps (hP : IsKeptByEdits P cwd root) (hName : IsOrdinary name) (source : String) :
    Keeps P (copyFile cwd source (join root name) seconds) := by
  refine .step fun t t' h hCopy => ?_
  obtain ⟨content, -, hWrite⟩ := Option.bind_eq_some_iff.1 hCopy
  exact hP.write hName h hWrite

theorem putPack_keeps (hP : IsKeptByEdits P cwd root) (hNames : AreDistinct r.extension) :
    Keeps P (putPack cwd root (join root (drawnName r.extension)) content seconds) := by
  intro t h
  have hTemporary : IsOrdinary (withExtension (latestStem ++ ".json") "tmp") :=
    hNames.temporary ▸ hNames.isOrdinary_temporary
  have hPack : P (endOf (writeWhole cwd root (latestStem ++ ".json") content seconds t)) :=
    writeWhole_keeps hP hTemporary hNames.isOrdinary_pack content t h
  unfold putPack
  split
  next hWhole => rwa [hWhole] at hPack
  next hWhole =>
    rw [hWhole] at hPack
    exact of_getD_removeFile? (fun _ _ h => hP.remove hNames.isOrdinary_drawn h) hPack

theorem keepCopies_keeps (hP : IsKeptByEdits P cwd root) (hExt : IsGraphExtension r.extension) :
    Keeps P (keepCopies r cwd root content keep now) := by
  unfold keepCopies
  dsimp only
  split
  next =>
    refine .bind (.step fun _ _ h => hP.write (isOrdinary_kept now (by decide)) h) fun _ =>
      .bind (copyFile_keeps hP ?_ _) fun _ => .pure _
    rw [String.append_assoc]
    exact isOrdinary_kept now (slash_notMem_extension hExt)
  next => exact .pure _

section

variable {t t₁ : FileTree} {pack : Pack}

theorem endOf_write_of_no_folder (hMake : t.makeFolders? cwd root = none) :
    endOf (Build.write r cwd root pack graph keep now t) = t := by
  have hFailed : Work.step (fun t => t.makeFolders? cwd root) t = .error .io t := by
    simp only [Work.step, hMake]
  rw [write_eq, endOf_bind_of_error hFailed]

theorem endOf_write_of_folder (hMake : t.makeFolders? cwd root = some t₁) :
    endOf (Build.write r cwd root pack graph keep now t) = endOf ((do
      drawTo r cwd graph (join root (drawnName r.extension)) (Calendar.secondsOfMillis now)
      putPair r cwd root (Text.utf8 pack.text) keep now) t₁) := by
  have hMade : Work.step (fun t => t.makeFolders? cwd root) t = .ok () t₁ := step_eq_ok_iff.2 hMake
  rw [write_eq, endOf_bind_of_ok hMade]

/-- Once its folders are made, a build keeps what is kept by edits, wherever it fails. -/
theorem IsKeptByEdits.endOf_write (hP : IsKeptByEdits P cwd root) (hExt : IsGraphExtension r.extension)
    (hMake : t.makeFolders? cwd root = some t₁) (h : P t₁) (pack : Pack) (graph : String) (keep : Bool)
    (now : Int) : P (endOf (Build.write r cwd root pack graph keep now t)) := by
  have hNames := areDistinct hExt
  rw [endOf_write_of_folder hMake]
  exact Keeps.bind (drawTo_keeps hP hNames.isOrdinary_drawn)
    (fun _ => .bind (putPack_keeps hP hNames) fun _ =>
      .bind (.step fun _ _ h => hP.rename hNames.isOrdinary_drawn hNames.isOrdinary_graph h) fun _ =>
        keepCopies_keeps hP hExt) t₁ h

/-- So a folder stays in order. -/
theorem Orderly.endOf_write (hExt : IsGraphExtension r.extension)
    (hMake : t.makeFolders? cwd root = some t₁) (h : Orderly t₁ cwd root base) (pack : Pack)
    (graph : String) (keep : Bool) (now : Int) :
    Orderly (endOf (Build.write r cwd root pack graph keep now t)) cwd root base :=
  (orderly_isKeptByEdits cwd root base).endOf_write hExt hMake h pack graph keep now

end

/-- The folder is in order, or it will be as soon as it is made. -/
def StaysOrderly (t : FileTree) (cwd : Place) (root : String) : Prop :=
  ∃ base, Orderly t cwd root base ∨
    ∃ t₁, t.makeFolders? cwd root = some t₁ ∧ Orderly t₁ cwd root base

theorem StaysOrderly.makeFolders {t t₁ : FileTree} (h : StaysOrderly t cwd root)
    (hMake : t.makeFolders? cwd root = some t₁) : ∃ base, Orderly t₁ cwd root base := by
  obtain ⟨base, hThere | ⟨t', hMade, hOrderly⟩⟩ := h
  · obtain rfl := hThere.leadsTo.makeFolders?_eq hMake
    exact ⟨base, hThere⟩
  · obtain rfl := Option.some.inj (hMake.symm.trans hMade)
    exact ⟨base, hOrderly⟩

variable {t t' : FileTree} {pack : Pack} {keep : Bool} {now : Int}

/-- An attempt at a build leaves a folder in order, whatever becomes of it. -/
theorem Orderly.keeps_write (h : Orderly t cwd root base) (hExt : IsGraphExtension r.extension) :
    Orderly (endOf (Build.write r cwd root pack graph keep now t)) cwd root base := by
  cases hMake : t.makeFolders? cwd root with
  | none => rwa [endOf_write_of_no_folder hMake]
  | some t₁ =>
      obtain rfl := h.leadsTo.makeFolders?_eq hMake
      exact h.endOf_write hExt hMake pack graph keep now

/-- So it does when the folder is made in its course. -/
theorem StaysOrderly.endOf_write (h : StaysOrderly t cwd root) (hExt : IsGraphExtension r.extension) :
    StaysOrderly (endOf (Build.write r cwd root pack graph keep now t)) cwd root := by
  cases hMake : t.makeFolders? cwd root with
  | none => rwa [endOf_write_of_no_folder hMake]
  | some t₁ =>
      obtain ⟨base, hOrderly⟩ := h.makeFolders hMake
      exact ⟨base, Or.inl (hOrderly.endOf_write hExt hMake pack graph keep now)⟩

theorem StaysOrderly.exists_of_write {written : Written} (h : StaysOrderly t cwd root)
    (hExt : IsGraphExtension r.extension)
    (hWrite : Build.write r cwd root pack graph keep now t = .ok written t') :
    ∃ base, Orderly t' cwd root base := by
  obtain ⟨_, t₁, hMade, -⟩ := bind_eq_ok_iff.1 hWrite
  obtain ⟨base, hOrderly⟩ := h.makeFolders (step_eq_ok_iff.1 hMade)
  refine ⟨base, ?_⟩
  have hEnd := hOrderly.endOf_write hExt (step_eq_ok_iff.1 hMade) pack graph keep now
  rwa [hWrite] at hEnd

end

theorem staysOrderly_empty : StaysOrderly .empty [] "build" := by
  refine ⟨["build"], Or.inr ⟨_, makeFolders?_empty, open_build, fun name n hNode => ?_⟩⟩
  rw [listing_build] at hNode
  simp at hNode

end Phrasebook.Build
