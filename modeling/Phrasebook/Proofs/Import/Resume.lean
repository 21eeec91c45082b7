import Mathlib
import Phrasebook.Proofs.Import.Batches

/-!
Imports that were cut short. When a batch cannot be stored, an import ends, and the batches before are in
the store. A second import goes on where the first one ended, and with it the store is the same as if
nothing had happened.
-/

namespace Phrasebook

namespace Store

open Import (Record)

theorem prefix_put (s : Store) (r : Record) : s.phrases <+: (s.put r).phrases := by
  by_cases h : s.Has r
  · exact (put_of_has h).symm ▸ List.prefix_rfl
  · exact put_phrases h ▸ List.prefix_append _ _

theorem prefix_putAll (s : Store) (records : List Record) :
    s.phrases <+: (s.putAll records).phrases := by
  induction records generalizing s with
  | nil => exact List.prefix_rfl
  | cons r more ih => exact (prefix_put s r).trans (ih (s.put r))

/-- On the way of a plain import phrases are added behind those that are there. -/
theorem Reaches.prefix_phrases {s t : Store} {records : List Record} (h : s.Reaches records t) :
    s.phrases <+: t.phrases ∧ t.phrases <+: (s.putAll records).phrases := by
  obtain ⟨done, rest, rfl, rfl⟩ := h
  rw [putAll_append]
  exact ⟨prefix_putAll s done, prefix_putAll _ rest⟩

end Store

namespace Import

variable {σ : Type}

/-- A target that takes only so many batches more. After them every batch is refused, and nothing
changes. -/
def Target.limited (target : Target σ) : Target (σ × Nat) where
  known source digests := fun (w, left) =>
    match target.known source digests w with
    | .ok found v => .ok found (v, left)
    | .error e v => .error e (v, left)
  add source batch
    | (w, 0) => .error .database (w, 0)
    | (w, left + 1) =>
      match target.add source batch w with
      | .ok count v => .ok count (v, left)
      | .error e v => .error e (v, left + 1)

theorem Target.Serves.limited {target : Target σ} {store : σ → Store} {Fails : Failure → σ → Prop}
    (h : target.Serves store Fails) :
    target.limited.Serves (fun w => store w.1)
      fun e w => (e = .database ∧ w.2 = 0) ∨ Fails e w.1 where
  known source digests w := by
    obtain ⟨found, hResult, hFound⟩ := h.known source digests w.1
    refine ⟨found, ?_, hFound⟩
    simp only [Target.limited, hResult]
  add source batch := by
    rintro ⟨w, left⟩
    cases left with
    | zero => exact ⟨Or.inl ⟨rfl, rfl⟩, rfl⟩
    | succ left =>
        have hAdd := h.add source batch w
        simp only [Target.limited]
        cases hResult : target.add source batch w with
        | ok count v =>
            rw [hResult] at hAdd
            exact hAdd
        | error e v =>
            rw [hResult] at hAdd
            exact ⟨Or.inr hAdd.1, hAdd.2⟩

variable (limits : Limits) (t : FileTree) (cwd : Place) (folder : String)

/-- An import of a folder that is cut short when a batch is to be stored behind the first so many.
Beside the store is the number of batches that could still have been stored. -/
def runWithin (batches : Nat) (s : Store) : EStateM.Result Failure (Store × Nat) Report :=
  runOn (Target.store limits.lookup).limited limits.batch t cwd folder (s, batches)

variable {names : List String} {s : Store}

/-- An import that is cut short ends on the way of the plain import, behind as many batches as could be
stored. Otherwise it ends like any other. -/
theorem runWithin_ends (hNames : fileNames? t cwd folder = some names) (batches : Nat)
    {report : Report} (hTells : report.Tells t cwd folder names s) :
    ∃ cut left, s.Reaches (recordsIn t cwd folder names) cut ∧
      ((runWithin limits t cwd folder batches s = .ok report (cut, left) ∧
          cut = s.putAll (recordsIn t cwd folder names)) ∨
        (runWithin limits t cwd folder batches s = .error .database (cut, left) ∧ left = 0)) := by
  have hEnds : Ends (fun w : Store × Nat => w.1)
      (fun e w => (e = .database ∧ w.2 = 0) ∨ False) s (recordsIn t cwd folder names)
      (fun report => report.Tells t cwd folder names s) (runWithin limits t cwd folder batches s) :=
    runOn_ends t cwd folder hNames (Target.store_serves limits.lookup).limited (s, batches)
  cases hWithin : runWithin limits t cwd folder batches s with
  | ok r w =>
      rw [hWithin] at hEnds
      obtain ⟨hStore, hResult⟩ := hEnds
      have hReaches := Store.Reaches.finish s (recordsIn t cwd folder names)
      rw [← hStore] at hReaches
      obtain rfl := hResult.unique t cwd folder hTells
      exact ⟨w.1, w.2, hReaches, Or.inl ⟨rfl, hStore⟩⟩
  | error e w =>
      rw [hWithin] at hEnds
      obtain ⟨rfl, hLeft⟩ := hEnds.1.resolve_right id
      exact ⟨w.1, w.2, hEnds.2, Or.inr ⟨rfl, hLeft⟩⟩

/-- An import that begins on the way of another one ends where that one does, and inserts what is
missing. -/
theorem run_of_reaches (hNames : fileNames? t cwd folder = some names) {cut : Store}
    (h : s.Reaches (recordsIn t cwd folder names) cut) :
    ∃ rest : Report,
      run limits t cwd folder cut = .ok rest (s.putAll (recordsIn t cwd folder names)) ∧
      rest.inserted + cut.phrases.length =
        (s.putAll (recordsIn t cwd folder names)).phrases.length ∧
      rest.inserted + rest.duplicates = rest.totalRecords := by
  obtain ⟨rest, hTells, hRun⟩ := run_eq limits t cwd folder cut hNames
  have hInserted := hTells.inserted
  rw [h.putAll_eq] at hRun hInserted
  exact ⟨rest, hRun, hInserted, hTells.counted⟩

/-- Wherever an import of a folder is cut short, with none of its batches stored, with some of them
or with all, the phrases in the store are the first ones of those that the whole import leaves. A
second import from there leads to the same store as the whole one and inserts what was missing, and
any further import finds duplicates only and changes nothing. -/
theorem run_resumes (hNames : fileNames? t cwd folder = some names) (batches : Nat) (s : Store) :
    ∃ report full, run limits t cwd folder s = .ok report full ∧
      ∃ cut left,
        ((runWithin limits t cwd folder batches s = .ok report (cut, left) ∧ cut = full) ∨
          (runWithin limits t cwd folder batches s = .error .database (cut, left) ∧ left = 0)) ∧
        s.phrases <+: cut.phrases ∧ cut.phrases <+: full.phrases ∧
        (∃ rest : Report, run limits t cwd folder cut = .ok rest full ∧
          rest.inserted + cut.phrases.length = full.phrases.length) ∧
        ∃ idle : Report, run limits t cwd folder full = .ok idle full ∧
          idle.inserted = 0 ∧ idle.duplicates = idle.totalRecords := by
  obtain ⟨report, hTells, hRun⟩ := run_eq limits t cwd folder s hNames
  obtain ⟨cut, left, hReaches, hEnd⟩ := runWithin_ends limits t cwd folder hNames batches hTells
  obtain ⟨rest, hRest, hMissing, -⟩ := run_of_reaches limits t cwd folder hNames hReaches
  obtain ⟨idle, hIdle, hNothing, hAll⟩ :=
    run_of_reaches limits t cwd folder hNames (.finish s _)
  exact ⟨report, _, hRun, cut, left, hEnd, hReaches.prefix_phrases.1, hReaches.prefix_phrases.2,
    ⟨rest, hRest, hMissing⟩, idle, hIdle, by omega, by omega⟩

/-- With batches of one text and one batch left, the import of the folder is cut short behind its
first text. The next import inserts the second one. -/
theorem shelf_resumes :
    ∃ cut full : Store, ∃ report rest idle : Report,
      runWithin ⟨1, 1⟩ shelf [] "packs" 1 .empty = .error .database (cut, 0) ∧
      cut.phrases.map (·.content) = ["Busan"] ∧
      run ⟨1, 1⟩ shelf [] "packs" .empty = .ok report full ∧
      full.phrases.map (·.content) = ["Busan", "Seoul"] ∧
      run ⟨1, 1⟩ shelf [] "packs" cut = .ok rest full ∧ rest.inserted = 1 ∧
      run ⟨1, 1⟩ shelf [] "packs" full = .ok idle full ∧ idle.duplicates = idle.totalRecords := by
  have hPart : (endOf (runWithin ⟨1, 1⟩ shelf [] "packs" 1 .empty)).1.phrases.map (·.content) =
      ["Busan"] := by
    simp only [runWithin, runOn, fileNames_shelf, List.map_cons, load_towns, importFiles]
    decide +kernel
  have hWhole : (endOf (run ⟨1, 1⟩ shelf [] "packs" .empty)).phrases.map (·.content) =
      ["Busan", "Seoul"] := by
    simp only [run, runOn, fileNames_shelf, List.map_cons, load_towns, importFiles]
    decide +kernel
  obtain ⟨report, full, hRun, cut, left, hEnd, -, -, ⟨rest, hRest, hMissing⟩, idle, hIdle, -, hAll⟩ :=
    run_resumes ⟨1, 1⟩ shelf [] "packs" fileNames_shelf 1 .empty
  rw [hRun] at hWhole
  rcases hEnd with ⟨hWithin, rfl⟩ | ⟨hWithin, rfl⟩
  · rw [hWithin] at hPart
    exact absurd (hPart.symm.trans hWhole) (by decide)
  · rw [hWithin] at hPart
    have hCut := congrArg List.length hPart
    have hFull := congrArg List.length hWhole
    simp only [endOf, List.length_map, List.length_cons, List.length_nil] at hCut hFull
    exact ⟨cut, full, report, rest, idle, hWithin, hPart, hRun, hWhole, hRest, by omega, hIdle, hAll⟩

end Import

end Phrasebook
