import Phrasebook.Proofs.Build.Writer
import Phrasebook.Proofs.Pack.RoundTrip
import Phrasebook.Proofs.Text.Percent
import Phrasebook.Proofs.Workspace.Exports
import Phrasebook.Proofs.Workspace.Validity

/-!
The published build. As long as every export succeeds and nothing else writes into the folder of builds,
the latest build is that of the store, whatever commands are carried out after the first export.
-/

namespace Phrasebook

namespace Store

theorem contributors_matcher_eq (s : Store) :
    s.contributors .matcher =
      match s.matcherLines with
      | some lines => .ok ((countsOf lines).mergeSort fun a b => b.2 ≤ a.2)
      | none => .error .database := by
  rw [contributors, entries, matcherLines]
  cases s.log <;> rfl

/-- Contributors are known as long as there is a log. -/
theorem Holds.exists_contributors {s : Store} {ms : List Matcher} (hs : s.Holds ms) :
    ∃ counts, s.contributors .matcher = .ok counts := by
  obtain ⟨entries, hLog⟩ := Option.isSome_iff_exists.1 hs.logged
  rw [contributors_matcher_eq, matcherLines, hLog]
  exact ⟨_, rfl⟩

theorem SameTable.allMatchers_eq {s t : Store} (h : SameTable s t) :
    t.allMatchers = s.allMatchers := by
  rw [allMatchers, allMatchers, selectMatchers, selectMatchers, h.rows]

theorem SameTable.contributors_eq {s t : Store} (h : SameTable s t) :
    t.contributors .matcher = s.contributors .matcher := by
  rw [contributors_matcher_eq, contributors_matcher_eq, h.lines]

/-- The pack of a store that holds `ms`. -/
theorem Holds.pack_eq {s : Store} {ms : List Matcher} (hs : s.Holds ms)
    {counts : List (String × Nat)} (hCounts : s.contributors .matcher = .ok counts) (now : Int) :
    s.pack now = .ok (.make ms (Pack.contributorSummary counts) now) := by
  rw [pack, hs.allMatchers_eq, hCounts]
  rfl

end Store

theorem Setup.make_extension (settings : Settings) (cwd : Place)
    (draw : String → Except Failure (Option (List UInt8))) :
    (make settings cwd draw).renderer.extension = settings.graphExtension := by
  rw [make, Settings.graphExtension]
  split <;> rfl

theorem Settings.isGraphExtension (settings : Settings) :
    Build.IsGraphExtension settings.graphExtension := by
  rw [graphExtension]
  split
  · exact Or.inl rfl
  · exact Or.inr rfl

/-- The export of a command succeeds, if the command comes to one. -/
def Command.ExportSucceeds (u : Setup) (now : Int) (w : Workspace) (c : Command) : Prop :=
  ∀ keep v, c.exportFrom? now w = some (keep, v) →
    ∃ report v', Workspace.exportPack u keep now v = .ok report v'

/-- Commands to try things with. -/
def Command.addGreeting : Command := .createMatcher (.ofContent .greeting) "ann"

def Command.addHello : Command := .addPhrase "welcome" "hello" "ann"

namespace Workspace

/-- The latest build is that of the matchers `ms`, which are all matchers of the store in the order of their
ids, and its pack was made at the time `now`. The line in the pack names the contributors of matchers, and
the graph is drawn from the same matchers. Where numbers fit words and groups do not nest too deep, the pack is
read back from its file. -/
structure Publishes (u : Setup) (w : Workspace) (ms : List Matcher) (counts : List (String × Nat))
    (now : Int) (drawn : List UInt8) : Prop where
  all : w.store.allMatchers = .ok ms
  ascending : ms.Pairwise (·.id < ·.id)
  contributors : w.store.contributors .matcher = .ok counts
  pack : w.files.read? u.cwd (FileTree.join u.settings.buildRoot (Build.latestStem ++ ".json")) =
    some (Text.utf8 (Pack.make ms (Pack.contributorSummary counts) now).text)
  readBack : (∀ m ∈ ms, (Json.isWord m.priority ∧ Json.isWord m.id) ∧
      Group.nestingOf m.groups + 4 ≤ Json.maxDepth) →
    ((w.files.read? u.cwd (FileTree.join u.settings.buildRoot (Build.latestStem ++ ".json"))).bind
      Text.ofUtf8?).bind Pack.ofText? = some (Pack.make ms (Pack.contributorSummary counts) now)
  drawing : u.renderer.draw
      ((Graph.ofEntries (ms.map Pack.Entry.ofMatcher)).text u.settings.categoryLink) =
    .ok (some drawn)
  graph : w.files.read? u.cwd
      (FileTree.join u.settings.buildRoot (Build.latestStem ++ "." ++ u.settings.graphExtension)) =
    some drawn

/-- The latest build is that of the store. -/
def IsPublished (u : Setup) (w : Workspace) : Prop :=
  ∃ ms counts now drawn, Publishes u w ms counts now drawn

theorem ofText?_of_read {content? : Option (List UInt8)} {ms : List Matcher} {message : String} {now : Int}
    (hRead : content? = some (Text.utf8 (Pack.make ms message now).text))
    (h : ∀ m ∈ ms, (Json.isWord m.priority ∧ Json.isWord m.id) ∧ Group.nestingOf m.groups + 4 ≤ Json.maxDepth) :
    (content?.bind Text.ofUtf8?).bind Pack.ofText? = some (Pack.make ms message now) := by
  have hWords : (Pack.make ms message now).HasWords := List.forall_mem_map.2 fun m hm => (h m hm).1
  have hSound : (Pack.make ms message now).toJson.isSound Json.maxDepth = true := by
    refine (Pack.isSound_toJson _ (Json.maxDepth - 4)).2 (List.forall_mem_map.2 fun m hm => ?_)
    exact Nat.le_sub_of_add_le (h m hm).2
  rw [hRead, Option.bind_some, Text.ofUtf8?_utf8, Option.bind_some, Pack.ofText?_text hWords, if_pos hSound]

theorem SameBuild.isPublished {u : Setup} {w v : Workspace} (h : SameBuild w v)
    (hPublished : IsPublished u w) : IsPublished u v := by
  obtain ⟨ms, counts, now, drawn, hWas⟩ := hPublished
  refine ⟨ms, counts, now, drawn, ?_, hWas.ascending, ?_, ?_, ?_, hWas.drawing, ?_⟩
  · rw [h.table.allMatchers_eq, hWas.all]
  · rw [h.table.contributors_eq, hWas.contributors]
  · rw [h.files, hWas.pack]
  · rw [h.files]
    exact hWas.readBack
  · rw [h.files, hWas.graph]

/-- A workspace from which builds come out right: the graph is drawn as the kind of file that the settings
name, the store holds matchers, and nothing is in the way in the folder of builds. -/
structure IsSound (u : Setup) (w : Workspace) : Prop where
  kind : u.renderer.extension = u.settings.graphExtension
  holds : ∃ ms, w.store.Holds ms
  undisturbed : Build.IsUndisturbed w.files u.cwd u.settings.buildRoot
    (Build.drawnName u.settings.graphExtension)

theorem SameBuild.isSound {u : Setup} {w v : Workspace} (h : SameBuild w v) (hSound : IsSound u w) :
    IsSound u v := by
  obtain ⟨ms, hHolds⟩ := hSound.holds
  refine ⟨hSound.kind, ⟨ms, h.table.holds hHolds⟩, ?_⟩
  rw [h.files]
  exact hSound.undisturbed

theorem askStore_eq_ok {α : Type} {f : Store → Except Failure α} {w v : Workspace} {a : α}
    (h : askStore f w = .ok a v) : f w.store = .ok a ∧ v = w := by
  cases hAnswer : f w.store with
  | error e => simp [askStore, onStore, Store.ask, hAnswer] at h
  | ok b =>
      simp only [askStore, onStore, Store.ask, hAnswer, EStateM.Result.ok.injEq] at h
      exact ⟨by rw [h.1], h.2.symm⟩

theorem onFiles_eq_ok {α : Type} {work : Build.Work α} {w v : Workspace} {a : α}
    (h : onFiles work w = .ok a v) : v.store = w.store ∧ work w.files = .ok a v.files := by
  cases hWork : work w.files with
  | error e t => simp [onFiles, hWork] at h
  | ok b t =>
      simp only [onFiles, hWork, EStateM.Result.ok.injEq] at h
      obtain ⟨rfl, rfl⟩ := h
      exact ⟨rfl, rfl⟩

section

variable {u : Setup} {keep : Bool} {now : Int} {w v : Workspace} {c : Command}
  {report : ExportReport}

/-- What an export writes when it succeeds. -/
theorem exportPack_eq_ok (h : exportPack u keep now w = .ok report v) :
    ∃ pack written, w.store.pack now = .ok pack ∧ v.store = w.store ∧
      Build.write u.renderer u.cwd u.settings.buildRoot pack
        ((Graph.ofEntries pack.matchers).text u.settings.categoryLink) keep now w.files =
        .ok written v.files := by
  obtain ⟨pack, x, hAsk, hRest⟩ := Build.bind_eq_ok_iff.1 h
  obtain ⟨written, y, hWrite, hEnd⟩ := Build.bind_eq_ok_iff.1 hRest
  obtain ⟨hPack, rfl⟩ := askStore_eq_ok hAsk
  obtain ⟨hStore, hFiles⟩ := onFiles_eq_ok hWrite
  obtain ⟨-, rfl⟩ := EStateM.Result.ok.inj hEnd
  exact ⟨pack, written, hPack, hStore, hFiles⟩

theorem exists_exportPack_eq_ok {pack : Pack} {written : Build.Written} {t : FileTree}
    (hPack : w.store.pack now = .ok pack)
    (hWrite : Build.write u.renderer u.cwd u.settings.buildRoot pack
      ((Graph.ofEntries pack.matchers).text u.settings.categoryLink) keep now w.files =
      .ok written t) :
    ∃ report v, exportPack u keep now w = .ok report v := by
  have hAsk : askStore (·.pack now) w = .ok pack w := by
    simp only [askStore, onStore, Store.ask, hPack]
  refine ⟨_, { w with files := t }, Build.bind_eq_ok_iff.2
    ⟨pack, w, hAsk, Build.bind_eq_ok_iff.2 ⟨written, { w with files := t }, ?_, rfl⟩⟩⟩
  rw [onFiles, hWrite]

/-- An export that succeeds publishes the store. -/
theorem IsSound.export (h : IsSound u w) (hExport : exportPack u keep now w = .ok report v) :
    IsSound u v ∧ IsPublished u v := by
  obtain ⟨ms, hHolds⟩ := h.holds
  obtain ⟨counts, hCounts⟩ := hHolds.exists_contributors
  obtain ⟨pack, written, hPack, hStore, hWrite⟩ := exportPack_eq_ok hExport
  obtain rfl := Except.ok.inj (hPack.symm.trans (hHolds.pack_eq hCounts now))
  obtain ⟨drawn, hDrawing, hLatest, hGraph, hUndisturbed⟩ :=
    Build.read?_of_write (h.kind ▸ u.settings.isGraphExtension) (h.kind ▸ h.undisturbed) hWrite
  rw [h.kind] at hGraph hUndisturbed
  refine ⟨⟨h.kind, ⟨ms, hStore ▸ hHolds⟩, hUndisturbed⟩, ms, counts, now, drawn, ?_⟩
  refine ⟨?_, hHolds.ascending, ?_, hLatest, ofText?_of_read hLatest, hDrawing, hGraph⟩
  · rw [hStore, hHolds.allMatchers_eq]
  · rw [hStore, hCounts]

/-- An export begins with the store that the command leaves. -/
theorem IsSound.holds_start (h : IsSound u w) (hReadable : c.IsReadable)
    (hFrom : c.exportFrom? now w = some (keep, v)) : ∃ ms, v.store.Holds ms := by
  obtain ⟨ms, hHolds⟩ := h.holds
  obtain ⟨changes, hProper, hEnd⟩ := Command.run_madeOf u now hReadable w
  obtain ⟨ns, hFollows⟩ := hHolds.after_follows fun c hc => (hProper c hc).1
  refine ⟨ns, ?_⟩
  rw [← (Command.run_exportsAt (u := u) hFrom).store, hEnd]
  exact hFollows.holds

/-- Every command whose export succeeds keeps a workspace sound. The store is published behind it when it was
before, or when the command comes to an export. -/
theorem IsSound.run (h : IsSound u w) (hReadable : c.IsReadable)
    (hExport : c.ExportSucceeds u now w) :
    IsSound u (endOf (c.run u now w)) ∧
      (IsPublished u w ∨ (c.exportFrom? now w).isSome → IsPublished u (endOf (c.run u now w))) := by
  obtain ⟨ms, hHolds⟩ := h.holds
  cases hFrom : c.exportFrom? now w with
  | none =>
      have hSame := Command.sameBuild_run (u := u) hReadable hHolds hFrom
      refine ⟨hSame.isSound h, ?_⟩
      rintro (hPublished | hSome)
      · exact hSame.isPublished hPublished
      · simp at hSome
  | some start =>
      obtain ⟨keep, v⟩ := start
      have hRun := Command.run_exportsAt (u := u) hFrom
      obtain ⟨report, v', hOk⟩ := hExport keep v hFrom
      have hStart : IsSound u v := by
        refine ⟨h.kind, h.holds_start hReadable hFrom, ?_⟩
        rw [hRun.begun]
        exact h.undisturbed
      obtain ⟨hSound, hPublished⟩ := hStart.export hOk
      have hSame : SameBuild v' (endOf (c.run u now w)) := by
        obtain ⟨-, -, -, hStore, -⟩ := exportPack_eq_ok hOk
        refine ⟨by rw [hRun.files, hOk, endOf], ?_⟩
        rw [hRun.store, hStore]
        exact .refl v.store
      exact ⟨hSame.isSound hSound, fun _ => hSame.isPublished hPublished⟩

/-- Where the folder of builds holds nothing but files and every graph can be drawn, exports succeed. -/
theorem IsSound.exportSucceeds (h : IsSound u w) (hReadable : c.IsReadable) {t : FileTree}
    {base : Place} (hMake : w.files.makeFolders? u.cwd u.settings.buildRoot = some t)
    (hOpen : Build.Open t u.cwd u.settings.buildRoot base)
    (hDraw : ∀ graph, ∃ content, u.renderer.draw graph = .ok (some content)) :
    c.ExportSucceeds u now w := by
  intro keep v hFrom
  have hRun := Command.run_exportsAt (u := u) hFrom
  obtain ⟨ms, hHolds⟩ := h.holds_start hReadable hFrom
  obtain ⟨counts, hCounts⟩ := hHolds.exists_contributors
  rw [← hRun.begun] at hMake
  obtain ⟨content, hContent⟩ := hDraw
    ((Graph.ofEntries (ms.map Pack.Entry.ofMatcher)).text u.settings.categoryLink)
  obtain ⟨written, t', hWrite⟩ :=
    Build.exists_write_eq_ok (h.kind ▸ u.settings.isGraphExtension) hMake hOpen hContent
      (.make ms (Pack.contributorSummary counts) now) keep now
  exact exists_exportPack_eq_ok (hHolds.pack_eq hCounts now) hWrite

/-- A command that fails although its export would succeed comes to no export. -/
theorem exportFrom?_of_error (hExport : c.ExportSucceeds u now w) {e : Failure}
    (h : c.run u now w = .error e v) : c.exportFrom? now w = none := by
  cases hFrom : c.exportFrom? now w with
  | none => rfl
  | some start =>
      obtain ⟨keep, x⟩ := start
      obtain ⟨report, x', hOk⟩ := hExport keep x hFrom
      obtain ⟨a, y, hRun⟩ := (Command.run_exportsAt (u := u) hFrom).succeeds report x' hOk
      rw [h] at hRun
      simp at hRun

end

/-- Every export of a history succeeds. -/
def EveryExportSucceeds (u : Setup) : Workspace → List (Int × Command) → Prop
  | _, [] => True
  | w, (now, c) :: more =>
    c.ExportSucceeds u now w ∧ EveryExportSucceeds u (endOf (c.run u now w)) more

/-- A history comes to an export. -/
def ComesToExport (u : Setup) : Workspace → List (Int × Command) → Prop
  | _, [] => False
  | w, (now, c) :: more =>
    (c.exportFrom? now w).isSome ∨ ComesToExport u (endOf (c.run u now w)) more

variable {u : Setup}

theorem everyExportSucceeds_append {w : Workspace} {history more : List (Int × Command)} :
    EveryExportSucceeds u w (history ++ more) ↔
      EveryExportSucceeds u w history ∧ EveryExportSucceeds u (after u w history) more := by
  induction history generalizing w with
  | nil => exact ⟨fun h => ⟨trivial, h⟩, fun h => h.2⟩
  | cons e rest ih => exact (and_congr_right fun _ => ih).trans and_assoc.symm

/-- A history of commands whose exports succeed keeps a workspace sound. The store is published behind it
when it was before, or when the history comes to an export. -/
theorem IsSound.after {w : Workspace} {history : List (Int × Command)} (h : IsSound u w)
    (hReadable : ∀ e ∈ history, e.2.IsReadable) (hExports : EveryExportSucceeds u w history) :
    IsSound u (Workspace.after u w history) ∧
      (IsPublished u w ∨ ComesToExport u w history →
        IsPublished u (Workspace.after u w history)) := by
  induction history generalizing w with
  | nil =>
      refine ⟨h, ?_⟩
      rintro (hPublished | hExport)
      · exact hPublished
      · exact hExport.elim
  | cons e more ih =>
      obtain ⟨now, c⟩ := e
      rw [List.forall_mem_cons] at hReadable
      obtain ⟨hSound, hFirst⟩ := h.run hReadable.1 hExports.1
      obtain ⟨hEnd, hLast⟩ := ih hSound hReadable.2 hExports.2
      refine ⟨hEnd, ?_⟩
      rintro (hPublished | hExport | hExport)
      · exact hLast (Or.inl (hFirst (Or.inl hPublished)))
      · exact hLast (Or.inl (hFirst (Or.inr hExport)))
      · exact hLast (Or.inr hExport)

/-- In a history of commands whose exports succeed, the latest build is that of the store behind every
command, once there was an export. A command that fails, and one that is none of those that export,
leaves the files as they are. -/
theorem isPublished_after {settings : Settings} {cwd : Place}
    {draw : String → Except Failure (Option (List UInt8))} {files : FileTree} {sent : List Notice}
    {history before later : List (Int × Command)} {now : Int} {c : Command}
    (hMade : u = .make settings cwd draw) (hReadable : ∀ e ∈ history, e.2.IsReadable)
    (hUndisturbed : Build.IsUndisturbed files cwd settings.buildRoot
      (Build.drawnName settings.graphExtension))
    (hExports : EveryExportSucceeds u ⟨.empty, files, sent⟩ history)
    (hCommand : history = before ++ (now, c) :: later) :
    (ComesToExport u ⟨.empty, files, sent⟩ (before ++ [(now, c)]) →
      IsPublished u (after u ⟨.empty, files, sent⟩ (before ++ [(now, c)]))) ∧
    ((c.mayExport = false ∨
        ∃ e v, c.run u now (after u ⟨.empty, files, sent⟩ before) = .error e v) →
      (after u ⟨.empty, files, sent⟩ (before ++ [(now, c)])).files =
        (after u ⟨.empty, files, sent⟩ before).files) := by
  subst hCommand
  have hStart : IsSound u ⟨.empty, files, sent⟩ := by
    subst hMade
    exact ⟨Setup.make_extension settings cwd draw, ⟨[], Store.empty_holds⟩, hUndisturbed⟩
  rw [List.forall_mem_append, List.forall_mem_cons] at hReadable
  obtain ⟨hBefore, hNow, -⟩ := hReadable
  obtain ⟨hExportsBefore, hExportNow, -⟩ := everyExportSucceeds_append.1 hExports
  have hEnd : after u ⟨.empty, files, sent⟩ (before ++ [(now, c)]) =
      endOf (c.run u now (after u ⟨.empty, files, sent⟩ before)) := by
    rw [after, after, List.foldl_append]
    rfl
  refine ⟨fun hExport => ?_, fun hNone => ?_⟩
  · refine (hStart.after ?_ ?_).2 (Or.inr hExport)
    · exact List.forall_mem_append.2 ⟨hBefore, by simpa using hNow⟩
    · exact everyExportSucceeds_append.2 ⟨hExportsBefore, hExportNow, trivial⟩
  · obtain ⟨ms, hHolds⟩ := (hStart.after hBefore hExportsBefore).1.holds
    have hFrom : c.exportFrom? now (after u ⟨.empty, files, sent⟩ before) = none := by
      rcases hNone with hMay | ⟨e, v, hError⟩
      · exact Command.exportFrom?_of_mayExport hMay now _
      · exact exportFrom?_of_error hExportNow hError
    rw [hEnd]
    exact (Command.sameBuild_run hNow hHolds hFrom).files

/-- A matcher is added, which publishes it, and then a phrase, which leaves the files alone. -/
theorem isPublished_after_greeting :
    IsPublished .plain (after .plain ⟨.empty, .empty, []⟩ [(0, .addGreeting), (1, .addHello)]) ∧
      (after .plain ⟨.empty, .empty, []⟩ [(0, .addGreeting), (1, .addHello)]).files =
        (after .plain ⟨.empty, .empty, []⟩ [(0, .addGreeting)]).files := by
  have hMade : Setup.plain = .make {} [] fun _ => .ok (some []) := rfl
  have hUndisturbed := Build.isUndisturbed_empty (Build.drawnName Setup.plain.settings.graphExtension)
  have hSound : IsSound .plain ⟨.empty, .empty, []⟩ :=
    ⟨Setup.make_extension {} [] _, ⟨[], Store.empty_holds⟩, hUndisturbed⟩
  have hGreeting : Command.addGreeting.IsReadable := by
    show Group.AreReadable Matcher.Content.greeting.groups
    decide
  have hStorable : Matcher.Content.greeting.IsStorable :=
    ⟨Matcher.Content.isLegal_greeting.spec, hGreeting⟩
  have hStart : (Command.exportFrom? 0 ⟨.empty, .empty, []⟩ .addGreeting).isSome := by
    rw [Command.addGreeting, Command.exportFrom?,
      Draft.validate_ofContent Matcher.Content.isLegal_greeting]
    simp only [renewalAfter?]
    rw [Store.empty_holds.addMatcher_of_fresh hStorable (by simp)]
    rfl
  have hExports : EveryExportSucceeds .plain ⟨.empty, .empty, []⟩
      [(0, .addGreeting), (1, .addHello)] := by
    refine ⟨?_, ?_, trivial⟩
    · exact hSound.exportSucceeds hGreeting Build.makeFolders?_empty Build.open_build fun _ => ⟨[], rfl⟩
    · intro keep v hFrom
      simp [Command.addHello, Command.exportFrom?] at hFrom
  have hReadable : ∀ e ∈ [((0 : Int), Command.addGreeting), (1, .addHello)], e.2.IsReadable := by
    simp only [List.forall_mem_cons]
    exact ⟨hGreeting, trivial, by simp⟩
  have hCommand : [((0 : Int), Command.addGreeting), (1, .addHello)] =
      [(0, .addGreeting)] ++ (1, .addHello) :: [] := rfl
  obtain ⟨hPublished, hFiles⟩ :=
    isPublished_after hMade hReadable hUndisturbed hExports hCommand
  exact ⟨hPublished (Or.inl hStart), hFiles (Or.inl rfl)⟩

end Workspace

end Phrasebook
