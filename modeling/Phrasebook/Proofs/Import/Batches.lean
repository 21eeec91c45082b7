import Mathlib
import Phrasebook.Proofs.Import.Files
import Phrasebook.Proofs.Import.Plain

/-!
Imports in batches. Whatever the sizes of batches and lookups are, an import puts the same phrases into
the store as a plain import, under the same ids, and its report counts them. When a batch is refused,
the store is one that the plain import comes through.
-/

namespace Phrasebook.Import

open Store (putPhrases)

variable {σ : Type}

/-- A target stands for a store. Digests are looked up there, and a batch is stored or refused as a
whole. Only such failures occur as `Fails` says. -/
structure Target.Serves (target : Target σ) (store : σ → Store) (Fails : Failure → σ → Prop) :
    Prop where
  known : ∀ source digests w, ∃ found, target.known source digests w = .ok found w ∧
    ∀ digest ∈ digests, digest ∈ found ↔ (store w).hasPhrase source digest = true
  add : ∀ source batch w,
    match target.add source batch w with
    | .ok count v => putPhrases source batch (store w) = (store v, count)
    | .error e v => Fails e v ∧ store v = store w

theorem Target.store_serves (lookup : Nat) : (Target.store lookup).Serves id fun _ _ => False where
  known source digests s :=
    ⟨s.knownDigests lookup source digests, rfl, fun _ h => Store.mem_knownDigests_iff h⟩
  add _ _ _ := rfl

/-- How an import of records ends that began in the store `s`. All of them are put, and the result
is as `Q` says, or it failed on the way. -/
def Ends {α : Type} (store : σ → Store) (Fails : Failure → σ → Prop) (s : Store)
    (records : List Record) (Q : α → Prop) : EStateM.Result Failure σ α → Prop
  | .ok a v => store v = s.putAll records ∧ Q a
  | .error e v => Fails e v ∧ s.Reaches records (store v)

namespace Ends

variable {α β : Type} {store : σ → Store} {Fails : Failure → σ → Prop} {s : Store}
  {records more : List Record} {Q : α → Prop} {R : β → Prop}

theorem mono {Q' : α → Prop} {result : EStateM.Result Failure σ α}
    (h : Ends store Fails s records Q result) (hImp : ∀ a, Q a → Q' a) :
    Ends store Fails s records Q' result := by
  cases result with
  | ok a v => exact ⟨h.1, hImp a h.2⟩
  | error e v => exact h

theorem bind {op : EStateM Failure σ α} {f : α → EStateM Failure σ β} {w : σ}
    (h : Ends store Fails s records Q (op w))
    (k : ∀ a v, store v = s.putAll records → Q a →
      Ends store Fails (s.putAll records) more R (f a v)) :
    Ends store Fails s (records ++ more) R ((op >>= f) w) := by
  cases hOp : op w with
  | ok a v =>
      rw [hOp] at h
      have hRest := k a v h.1 h.2
      simp only [Bind.bind, EStateM.bind, hOp]
      cases hLast : f a v with
      | ok b u =>
          rw [hLast] at hRest
          exact ⟨hRest.1.trans (Store.putAll_append ..).symm, hRest.2⟩
      | error e u =>
          rw [hLast] at hRest
          exact ⟨hRest.1, hRest.2.after⟩
  | error e v =>
      rw [hOp] at h
      simp only [Bind.bind, EStateM.bind, hOp]
      exact ⟨h.1, h.2.append more⟩

theorem map {op : EStateM Failure σ α} {f : α → β} {w : σ}
    (h : Ends store Fails s records Q (op w)) (hImp : ∀ a, Q a → R (f a)) :
    Ends store Fails s records R ((op >>= fun a => pure (f a)) w) := by
  have hBoth : Ends store Fails s (records ++ []) R ((op >>= fun a => pure (f a)) w) :=
    h.bind fun a v hStore hResult => ⟨hStore, hImp a hResult⟩
  rwa [List.append_nil] at hBoth

/-- A record whose text is there when its turn comes is passed over. -/
theorem skip {result : EStateM.Result Failure σ α} {r : Record}
    (h : Ends store Fails s (records ++ more) Q result) (hHas : (s.putAll records).Has r) :
    Ends store Fails s (records ++ r :: more) Q result := by
  cases result with
  | ok a v =>
      refine ⟨h.1.trans ?_, h.2⟩
      rw [Store.putAll_append, Store.putAll_append, Store.putAll_cons, Store.put_of_has hHas]
  | error e v => exact ⟨h.1, h.2.skip hHas⟩

end Ends

/-- How a tally goes on with an import of records into the store `s`. -/
structure Tally.Counts (tally : Tally) (s : Store) (records : List Record) (result : Tally) : Prop where
  inserted : result.inserted + s.phrases.length =
    tally.inserted + (s.putAll records).phrases.length
  counted : result.inserted + result.duplicates =
    tally.inserted + tally.duplicates + records.length

namespace Tally.Counts

variable {tally next result : Tally} {s : Store} {records more : List Record}

theorem refl (tally : Tally) (s : Store) : tally.Counts s [] tally := ⟨rfl, rfl⟩

theorem trans (h : tally.Counts s records next) (k : next.Counts (s.putAll records) more result) :
    tally.Counts s (records ++ more) result := by
  obtain ⟨hInserted, hCounted⟩ := h
  obtain ⟨kInserted, kCounted⟩ := k
  refine ⟨?_, ?_⟩
  · rw [Store.putAll_append]
    omega
  · rw [List.length_append]
    omega

/-- A record that is passed over is one more duplicate. -/
theorem skip {r : Record} (h : tally.passOver.Counts s (records ++ more) result)
    (hHas : (s.putAll records).Has r) : tally.Counts s (records ++ r :: more) result := by
  obtain ⟨hInserted, hCounted⟩ := h
  refine ⟨?_, ?_⟩
  · rw [Store.putAll_append, Store.putAll_cons, Store.put_of_has hHas, ← Store.putAll_append]
    exact hInserted
  · simp only [List.length_append, List.length_cons, passOver] at hCounted ⊢
    omega

end Tally.Counts

/-- The texts of a source. -/
def recordsOf (source : String) (texts : List String) : List Record := texts.map (Record.mk source)

@[simp]
theorem recordsOf_append (source : String) (texts more : List String) :
    recordsOf source (texts ++ more) = recordsOf source texts ++ recordsOf source more :=
  List.map_append

@[simp]
theorem recordsOf_cons (source content : String) (more : List String) :
    recordsOf source (content :: more) = ⟨source, content⟩ :: recordsOf source more := rfl

@[simp]
theorem recordsOf_nil (source : String) : recordsOf source [] = [] := rfl

theorem digested_cons (content : String) (more : List String) :
    digested (content :: more) = (content, Text.digest content) :: digested more := rfl

theorem digested_concat (texts : List String) (content : String) :
    digested (texts ++ [content]) = digested texts ++ [(content, Text.digest content)] :=
  List.map_append

/-- Texts of a source that are new to the store, each of them also behind those before it. So they
are when they wait for a batch. -/
def AreNew (source : String) (s : Store) (texts : List String) : Prop :=
  putPhrases source (digested texts) s = (s.putAll (recordsOf source texts), texts.length)

namespace AreNew

variable {source : String} {s : Store} {texts : List String}

theorem nil (source : String) (s : Store) : AreNew source s [] := rfl

theorem concat (h : AreNew source s texts) {content : String}
    (hFresh : ¬(s.putAll (recordsOf source texts)).Has ⟨source, content⟩) :
    AreNew source s (texts ++ [content]) := by
  rw [AreNew] at h ⊢
  rw [digested_concat, Store.putPhrases_append, h]
  simp only [putPhrases, recordsOf_append, recordsOf_cons, recordsOf_nil, Store.putAll_concat,
    List.length_append, List.length_singleton]
  rw [Store.putPhrase_of_fresh hFresh]

/-- A batch of them has as many phrases as texts. -/
theorem length_eq (h : AreNew source s texts) :
    (s.putAll (recordsOf source texts)).phrases.length = s.phrases.length + texts.length := by
  have hLength := Store.length_putPhrases source (digested texts) s
  rw [AreNew] at h
  rw [h] at hLength
  exact hLength

end AreNew

section

variable {target : Target σ} {store : σ → Store} {Fails : Failure → σ → Prop} {size : Nat}
  {source : String}

theorem addBatch_ends (hServes : target.Serves store Fails) {texts : List String} {w : σ}
    (hNew : AreNew source (store w) texts) (tally : Tally) :
    Ends store Fails (store w) (recordsOf source texts)
      (tally.Counts (store w) (recordsOf source texts))
      (addBatch target source (digested texts) tally w) := by
  have hAdd := hServes.add source (digested texts) w
  cases hResult : target.add source (digested texts) w with
  | ok count v =>
      rw [hResult] at hAdd
      obtain ⟨hStore, hCount⟩ := Prod.mk.inj (hNew.symm.trans hAdd)
      simp only [addBatch, Bind.bind, EStateM.bind, hResult]
      refine ⟨hStore.symm, ?_, ?_⟩
      · simp only [hNew.length_eq, hCount]
        omega
      · simp only [digested, recordsOf, List.length_map, ← hCount]
        omega
  | error e v =>
      rw [hResult] at hAdd
      simp only [addBatch, Bind.bind, EStateM.bind, hResult]
      refine ⟨hAdd.1, ?_⟩
      rw [hAdd.2]
      exact .start _ _

/-- The loop over the texts of a source. The texts that wait are new, and a digest counts as known
when the store would have it with these texts. -/
theorem addTexts_ends (hServes : target.Serves store Fails) {waiting texts known : List String}
    {w : σ} (hNew : AreNew source (store w) waiting)
    (hKnown : ∀ content ∈ texts, Text.digest content ∈ known ↔
      ((store w).putAll (recordsOf source waiting)).Has ⟨source, content⟩) (tally : Tally) :
    Ends store Fails (store w) (recordsOf source (waiting ++ texts))
      (tally.Counts (store w) (recordsOf source (waiting ++ texts)))
      (addTexts target size source known (digested waiting) tally (digested texts) w) := by
  induction texts generalizing waiting known tally w with
  | nil =>
      rw [List.append_nil]
      cases waiting with
      | nil => exact ⟨rfl, .refl tally _⟩
      | cons first rest => exact addBatch_ends hServes hNew tally
  | cons content more ih =>
      rw [List.forall_mem_cons] at hKnown
      obtain ⟨hHere, hMore⟩ := hKnown
      simp only [recordsOf_append, recordsOf_cons, digested_cons, addTexts]
      rw [← digested_concat]
      split
      next hIn =>
        have hHas := hHere.1 (List.contains_iff_mem.1 hIn)
        have hRest := ih hNew hMore tally.passOver
        rw [recordsOf_append] at hRest
        exact (hRest.mono fun _ h => h.skip hHas).skip hHas
      next hOut =>
        have hFresh := mt hHere.2 (mt List.contains_iff_mem.2 hOut)
        have hNext := hNew.concat hFresh
        -- Behind the new text its digest is known, and so is every digest that was known before it.
        have hGrown : ∀ text ∈ more, Text.digest text ∈ Text.digest content :: known ↔
            ((store w).putAll (recordsOf source (waiting ++ [content]))).Has ⟨source, text⟩ := by
          intro text hText
          rw [recordsOf_append, recordsOf_cons, recordsOf_nil, Store.putAll_concat,
            Store.has_put_iff, List.mem_cons, hMore text hText]
          simp [or_comm, eq_comm]
        have hRecords : recordsOf source waiting ++ ⟨source, content⟩ :: recordsOf source more =
            recordsOf source (waiting ++ [content]) ++ recordsOf source more := by simp
        rw [hRecords]
        split
        next =>
          have hRest := ih hNext hGrown tally
          rwa [recordsOf_append] at hRest
        next =>
          refine (addBatch_ends hServes hNext tally).bind fun next v hStore hCounts => ?_
          rw [← hStore] at hGrown ⊢
          exact (ih (.nil source _) hGrown next).mono fun _ h => hCounts.trans (hStore ▸ h)

theorem importSource_ends (hServes : target.Serves store Fails) (texts : List String) (tally : Tally)
    (w : σ) :
    Ends store Fails (store w) (recordsOf source texts)
      (tally.Counts (store w) (recordsOf source texts))
      (importSource target size source texts tally w) := by
  obtain ⟨known, hResult, hKnown⟩ :=
    hServes.known source ((digested texts).map (·.2)) w
  simp only [importSource, Bind.bind, EStateM.bind, hResult]
  refine addTexts_ends hServes (.nil source _) (fun content hText => ?_) tally
  rw [recordsOf_nil, Store.putAll_nil, Store.has_iff]
  exact hKnown _ (List.mem_map_of_mem (List.mem_map_of_mem hText))

variable (t : FileTree) (cwd : Place) (folder : String)

/-- The texts in a file, none when it cannot be read. -/
def recordsAt (name : String) : List Record :=
  recordsOf (FileTree.stem name) ((load? t cwd (FileTree.join folder name)).getD [])

/-- The texts in files, one file after the other. -/
def recordsIn (names : List String) : List Record := names.flatMap (recordsAt t cwd folder)

theorem importFiles_ends (hServes : target.Serves store Fails) (names : List String) (tally : Tally)
    (w : σ) :
    Ends store Fails (store w) (recordsIn t cwd folder names)
      (tally.Counts (store w) (recordsIn t cwd folder names))
      (importFiles target size t cwd folder names tally w) := by
  induction names generalizing tally w with
  | nil => exact ⟨rfl, .refl tally _⟩
  | cons name more ih =>
      rw [recordsIn, List.flatMap_cons, importFiles, recordsAt]
      cases load? t cwd (FileTree.join folder name) with
      | none => exact ih tally w
      | some texts =>
          refine (importSource_ends hServes texts tally w).bind fun next v hStore hCounts => ?_
          rw [← hStore]
          exact (ih next v).mono fun _ h => hCounts.trans (hStore ▸ h)

/-- The report of an import into the store `s` says what happened. -/
structure Report.Tells (report : Report) (names : List String) (s : Store) : Prop where
  files : report.files = names.length
  skippedFiles : report.skippedFiles =
    names.countP fun name => (load? t cwd (FileTree.join folder name)).isNone
  totalRecords : report.totalRecords = (recordsIn t cwd folder names).length
  inserted : report.inserted + s.phrases.length =
    (s.putAll (recordsIn t cwd folder names)).phrases.length
  counted : report.inserted + report.duplicates = report.totalRecords

theorem length_recordsIn (names : List String) :
    (recordsIn t cwd folder names).length =
      ((names.map fun name => load? t cwd (FileTree.join folder name)).flatMap (·.getD [])).length := by
  simp only [recordsIn, recordsAt, recordsOf, List.flatMap_map, List.length_flatMap, List.length_map]

/-- An import of a folder. -/
theorem runOn_ends {names : List String} (hNames : fileNames? t cwd folder = some names)
    (hServes : target.Serves store Fails) (w : σ) :
    Ends store Fails (store w) (recordsIn t cwd folder names)
      (fun report => report.Tells t cwd folder names (store w))
      (runOn target size t cwd folder w) := by
  have hSkipped : (names.map fun name => load? t cwd (FileTree.join folder name)).countP
      Option.isNone = names.countP fun name => (load? t cwd (FileTree.join folder name)).isNone :=
    List.countP_map
  simp only [runOn, hNames, ← length_recordsIn, hSkipped]
  split
  next hNone =>
    rw [List.length_eq_zero_iff] at hNone
    rw [hNone]
    refine ⟨rfl, rfl, rfl, ?_, ?_, ?_⟩ <;> simp [hNone]
  next =>
    refine (importFiles_ends t cwd folder hServes names ⟨0, 0⟩ w).map fun tally hCounts => ?_
    obtain ⟨hInserted, hCounted⟩ := hCounts
    exact ⟨rfl, rfl, rfl, by simpa using hInserted, by simpa using hCounted⟩

/-- There is one report that tells what happened. -/
theorem Report.Tells.unique {report other : Report} {names : List String} {s : Store}
    (h : report.Tells t cwd folder names s) (k : other.Tells t cwd folder names s) :
    report = other := by
  obtain ⟨hFiles, hSkipped, hTotal, hInserted, hCounted⟩ := h
  obtain ⟨kFiles, kSkipped, kTotal, kInserted, kCounted⟩ := k
  cases report
  cases other
  simp only [Report.mk.injEq] at *
  omega

end

section

variable (limits : Limits) (t : FileTree) (cwd : Place) (folder : String) (s : Store)

/-- An import of a folder ends well, and whatever its limits are, it ends like the plain import. -/
theorem run_eq {names : List String} (hNames : fileNames? t cwd folder = some names) :
    ∃ report : Report, report.Tells t cwd folder names s ∧
      run limits t cwd folder s = .ok report (s.putAll (recordsIn t cwd folder names)) := by
  have hEnds : Ends id (fun _ _ => False) s (recordsIn t cwd folder names)
      (fun report => report.Tells t cwd folder names s) (run limits t cwd folder s) :=
    runOn_ends t cwd folder hNames (Target.store_serves limits.lookup) s
  cases hRun : run limits t cwd folder s with
  | ok report u =>
      rw [hRun] at hEnds
      exact ⟨report, hEnds.2, congrArg (EStateM.Result.ok report) hEnds.1⟩
  | error e u =>
      rw [hRun] at hEnds
      exact hEnds.1.elim

/-- The texts that are imported are those of the files, under the names of the files. -/
theorem recordsIn_eq (names : List String) :
    recordsIn t cwd folder names =
      (names.map (fileOf t cwd folder)).flatMap fun file => (file.2.getD []).map (Record.mk file.1) := by
  rw [List.flatMap_map]
  rfl

/-- An import fails when its path leads to no folder, and then the store stays as it is. Otherwise the texts in the
files of the folder are put into the store one at a time, in the order of the files and of the texts in them, unless
their source has them; the report counts what happened; matchers and log stay as they are; and batches and lookups of
other sizes lead to the same. -/
theorem run_eq_plain :
    (t.nodeAt? cwd folder ≠ some .folder → run limits t cwd folder s = .error .io s) ∧
      ∀ base, t.find cwd folder = .ok base → t.node? base = some .folder →
        ∃ files, Finds t cwd base folder files ∧
          let records := files.flatMap fun file => (file.2.getD []).map (Record.mk file.1)
          ∃ report phrases lastPhrase,
            run limits t cwd folder s = .ok report (s.putAll records) ∧
            s.putAll records = { s with phrases, lastPhrase } ∧
            report.files = files.length ∧
            report.skippedFiles = files.countP (fun file => file.2.isNone) ∧
            report.totalRecords = records.length ∧
            report.inserted + s.phrases.length = (s.putAll records).phrases.length ∧
            report.inserted + report.duplicates = report.totalRecords ∧
            ∀ other : Limits, run other t cwd folder s = run limits t cwd folder s := by
  constructor
  · intro hNoFolder
    have hNames : fileNames? t cwd folder = none := by
      rw [FileTree.nodeAt?] at hNoFolder
      rw [fileNames?, FileTree.list?]
      cases hFind : t.find cwd folder with
      | error f => rfl
      | ok p =>
          rw [hFind] at hNoFolder
          dsimp only at hNoFolder ⊢
          rw [if_neg (by simpa using hNoFolder)]
          rfl
    simp only [run, runOn, hNames]
    rfl
  · intro base hFind hFolder
    have hNames := fileNames?_eq hFind hFolder
    obtain ⟨report, hTells, hRun⟩ := run_eq limits t cwd folder s hNames
    obtain ⟨phrases, lastPhrase, hPhrases⟩ := s.exists_putAll_eq (recordsIn t cwd folder _)
    refine ⟨_, finds_fileNames hNames hFind hFolder, ?_⟩
    rw [← recordsIn_eq]
    refine ⟨report, phrases, lastPhrase, hRun, hPhrases, ?_, ?_, hTells.totalRecords, hTells.inserted,
      hTells.counted, fun other => ?_⟩
    · rw [hTells.files, List.length_map]
    · rw [hTells.skippedFiles, List.countP_map]
      rfl
    · obtain ⟨report', hTells', hRun'⟩ := run_eq other t cwd folder s hNames
      rw [hRun, hRun', hTells'.unique t cwd folder hTells]

end

/-- In the file one of two texts is given twice. -/
def shelf : FileTree :=
  .ofNodes [(["packs"], .folder),
    (["packs", "towns.json"], .file (Text.utf8 "[\"Busan\", \"Seoul\", \"Busan\"]") 0)]

theorem find_towns :
    shelf.find [] (FileTree.join "packs" "towns.json") = .ok ["packs", "towns.json"] := by
  have hJoin : FileTree.join "packs" "towns.json" = "packs/towns.json" := by decide +kernel
  have hNames : FileTree.names "packs/towns.json" = ["packs", "towns.json"] := by decide +kernel
  have hOrigin : FileTree.origin [] "packs/towns.json" = [] := by decide +kernel
  rw [hJoin, FileTree.find, hNames, hOrigin, if_neg (by decide +kernel)]
  cbv

theorem fileNames_shelf : fileNames? shelf [] "packs" = some ["towns.json"] := by
  have hList : shelf.list? [] "packs" = some ["towns.json"] := by cbv
  have hFile : shelf.isFile [] (FileTree.join "packs" "towns.json") = true := by
    rw [FileTree.isFile, FileTree.nodeAt?, find_towns]
    decide +kernel
  rw [fileNames?, hList, Option.map_some, List.filter_cons, hFile]
  decide +kernel

theorem load_towns :
    load? shelf [] (FileTree.join "packs" "towns.json") = some ["Busan", "Seoul", "Busan"] := by
  rw [load?, FileTree.readText?, FileTree.readText, find_towns]
  decide +kernel

theorem nodeAt?_towns : shelf.nodeAt? [] (FileTree.join "packs" ("towns" ++ ".json")) =
    some (.file (Text.utf8 "[\"Busan\", \"Seoul\", \"Busan\"]") 0) := by
  have hName : "towns" ++ ".json" = "towns.json" := by decide
  rw [hName, FileTree.nodeAt?, find_towns]
  cbv

theorem find_packs : shelf.find [] "packs" = .ok ["packs"] := by
  have hNames : FileTree.names "packs" = ["packs"] := by decide +kernel
  have hOrigin : FileTree.origin [] "packs" = [] := by decide +kernel
  rw [FileTree.find, hNames, hOrigin, if_neg (by decide +kernel)]
  cbv

/-- The only file of the folder. -/
theorem eq_towns_of_listing {own : String} {n : Node} (h : shelf.listing ["packs"] (own ++ ".json") = some n) :
    own = "towns" := by
  have hNode : List.lookup ["packs", own ++ ".json"] shelf.nodes = some n := h
  obtain ⟨front, back, hNodes, -⟩ := List.lookup_eq_some_iff.1 hNode
  have hMem : (["packs", own ++ ".json"], n) ∈ shelf.nodes :=
    hNodes ▸ List.mem_append_right front List.mem_cons_self
  simp only [shelf, FileTree.ofNodes, List.mem_cons, Prod.mk.injEq, List.cons.injEq, List.not_mem_nil,
    or_false] at hMem
  obtain ⟨⟨-, hName, -⟩, -⟩ := hMem.resolve_left (by simp)
  have hSame : own ++ ".json" = "towns" ++ ".json" := hName
  exact (String.append_left_inj _).1 hSame

/-- The texts of the one file are put into an empty store, the text that is given twice only once. -/
theorem shelf_imported :
    shelf.find [] "packs" = .ok ["packs"] ∧ shelf.node? ["packs"] = some .folder ∧
      ∃ report s, run limits shelf [] "packs" .empty = .ok report s ∧ report = ⟨1, 0, 3, 2, 1⟩ ∧
        s.phrases.map (fun p => (p.id, p.source, p.content)) = [(1, "towns", "Busan"), (2, "towns", "Seoul")] := by
  have hFolder : shelf.node? ["packs"] = some .folder := by cbv
  obtain ⟨files, hFinds, report, phrases, lastPhrase, hRun, -, hFiles, hSkipped, hTotal, hInserted, hCounted, -⟩ :=
    (run_eq_plain limits shelf [] "packs" .empty).2 ["packs"] find_packs hFolder
  have hOnly : ∀ own ∈ files.map Prod.fst, own = "towns" := fun own hOwn => by
    obtain ⟨-, ⟨n, hThere⟩, -⟩ := (hFinds.mem_iff own).1 hOwn
    exact eq_towns_of_listing hThere
  have hTowns : "towns" ∈ files.map Prod.fst :=
    (hFinds.mem_iff "towns").2 ⟨by decide, ⟨_, rfl⟩, _, _, nodeAt?_towns⟩
  have hHolds : HoldsTexts shelf [] (FileTree.join "packs" ("towns" ++ ".json")) ["Busan", "Seoul", "Busan"] :=
    load?_eq_some_iff.1 load_towns
  have hFound : ∀ found, ("towns", found) ∈ files → found = some ["Busan", "Seoul", "Busan"] := fun found hMem => by
    cases found with
    | none => exact absurd hHolds (hFinds.malformed _ hMem _)
    | some texts =>
        have hTexts := load?_eq_some_iff.2 (hFinds.texts _ _ hMem)
        exact hTexts.symm.trans load_towns
  have hNames : files.map Prod.fst = ["towns"] := by
    refine List.perm_singleton.1 ((List.perm_ext_iff_of_nodup (hFinds.once (by decide)) (by simp)).2 fun own => ?_)
    rw [List.mem_singleton]
    exact ⟨hOnly own, fun hOwn => hOwn ▸ hTowns⟩
  have hAll : files = [("towns", some ["Busan", "Seoul", "Busan"])] := by
    obtain ⟨⟨own, found⟩, hFiles, hOwn⟩ := List.map_eq_singleton_iff.1 hNames
    obtain rfl : own = "towns" := hOwn
    rw [hFiles, hFound found (by rw [hFiles]; exact List.mem_singleton_self _)]
  subst hAll
  refine ⟨find_packs, hFolder, report, _, hRun, ?_, by decide +kernel⟩
  have hStored : (Store.empty.putAll ([("towns", some ["Busan", "Seoul", "Busan"])].flatMap
      fun file => (file.2.getD []).map (Record.mk file.1))).phrases.length = 2 := by decide +kernel
  have hTwo : report.inserted = 2 := hInserted.trans hStored
  have hThree : report.totalRecords = 3 := hTotal
  have hOne : report.duplicates = 1 := by omega
  cases report
  exact Report.mk.injEq .. ▸ ⟨hFiles, hSkipped, hThree, hTwo, hOne⟩

end Phrasebook.Import
