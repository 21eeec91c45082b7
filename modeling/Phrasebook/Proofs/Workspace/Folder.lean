import Phrasebook.Proofs.Server.Addresses
import Phrasebook.Proofs.Workspace.Published

/-!
The folder of builds through a history. Commands keep it in order, whether or not their exports succeed, so
the builds in it can be listed after an export, and what is listed can be asked for at its address, as far as
the prefix in the settings is in the form of the site.
-/

namespace Phrasebook

open Build (Orderly StaysOrderly)

namespace Workspace

variable {α β : Type} {u : Setup} {keep : Bool} {now : Int} {w v : Workspace}

/-- An export does with the files what the build does, if it comes to one. -/
theorem files_exportPack (u : Setup) (keep : Bool) (now : Int) (w : Workspace) :
    (endOf (exportPack u keep now w)).files = w.files ∨ ∃ pack graph,
      (endOf (exportPack u keep now w)).files =
        endOf (Build.write u.renderer u.cwd u.settings.buildRoot pack graph keep now w.files) := by
  cases hPack : w.store.pack now with
  | error e =>
      have hAsk : askStore (·.pack now) w = .error e w := by
        simp only [askStore, onStore, Store.ask, hPack]
      refine Or.inl ?_
      simp only [exportPack, bind, EStateM.bind, hAsk]
      rfl
  | ok pack =>
      have hAsk : askStore (·.pack now) w = .ok pack w := by
        simp only [askStore, onStore, Store.ask, hPack]
      refine Or.inr ⟨pack, (Graph.ofEntries pack.matchers).text u.settings.categoryLink, ?_⟩
      simp only [exportPack, bind, EStateM.bind, hAsk, onFiles]
      cases Build.write u.renderer u.cwd u.settings.buildRoot pack
        ((Graph.ofEntries pack.matchers).text u.settings.categoryLink) keep now w.files <;> rfl

end Workspace

/-- The command comes to an export, and this succeeds. -/
def Command.Exports (u : Setup) (now : Int) (w : Workspace) (c : Command) : Prop :=
  ∃ keep v report v', c.exportFrom? now w = some (keep, v) ∧
    Workspace.exportPack u keep now v = .ok report v'

/-- The standard settings with another prefix. Every graph is drawn as an empty file. -/
def Setup.under (url : String) : Setup := .make { buildUrl := url } [] fun _ => .ok (some [])

theorem Setup.under_renderer (url : String) :
    (Setup.under url).renderer = ⟨"svg", fun _ => .ok (some []), .render "no file"⟩ := by
  have hDrawn : Settings.keepsGraphText { buildUrl := url } = false := by
    have hDot : (Text.lowerAscii "dot" == "none") = false := by decide +kernel
    exact hDot
  have hExtension : Settings.graphExtension { buildUrl := url } = "svg" := by
    rw [Settings.graphExtension, hDrawn]
    rfl
  simp only [under, make, hDrawn, hExtension]
  rfl

namespace Workspace

/-- Some export of a history succeeds. -/
def HasExported (u : Setup) : Workspace → List (Int × Command) → Prop
  | _, [] => False
  | w, (now, c) :: more => c.Exports u now w ∨ HasExported u (endOf (c.run u now w)) more

/-- The folder of builds is there and in order. -/
def HasFolder (u : Setup) (w : Workspace) : Prop :=
  ∃ base, Orderly w.files u.cwd u.settings.buildRoot base

/-- The folder of builds is in order, or it will be when it is made. -/
def MayBuild (u : Setup) (w : Workspace) : Prop := StaysOrderly w.files u.cwd u.settings.buildRoot

theorem HasFolder.of_files {u : Setup} {w v : Workspace} (h : HasFolder u w)
    (hFiles : v.files = w.files) : HasFolder u v := by rwa [HasFolder, hFiles]

theorem MayBuild.of_files {u : Setup} {w v : Workspace} (h : MayBuild u w)
    (hFiles : v.files = w.files) : MayBuild u v := by rwa [MayBuild, hFiles]

section

variable {u : Setup} {keep : Bool} {now : Int} {w v : Workspace} {c : Command}
  (hExt : Build.IsGraphExtension u.renderer.extension)

include hExt

theorem MayBuild.endOf_export (h : MayBuild u w) : MayBuild u (endOf (exportPack u keep now w)) := by
  rcases files_exportPack u keep now w with hSame | ⟨pack, graph, hBuild⟩
  · exact h.of_files hSame
  · rw [MayBuild, hBuild]
    exact StaysOrderly.endOf_write h hExt

theorem HasFolder.endOf_export (h : HasFolder u w) : HasFolder u (endOf (exportPack u keep now w)) := by
  rcases files_exportPack u keep now w with hSame | ⟨pack, graph, hBuild⟩
  · exact h.of_files hSame
  · obtain ⟨base, hOrderly⟩ := h
    rw [HasFolder, hBuild]
    exact ⟨base, hOrderly.keeps_write hExt⟩

theorem MayBuild.hasFolder_of_export (h : MayBuild u w) {report : ExportReport}
    (hExport : exportPack u keep now w = .ok report v) : HasFolder u v := by
  obtain ⟨pack, written, -, -, hWrite⟩ := exportPack_eq_ok hExport
  exact StaysOrderly.exists_of_write h hExt hWrite

/-- A command leaves the folder in order, and behind an export that succeeds it is there. -/
theorem MayBuild.run (h : MayBuild u w) (now : Int) (c : Command) :
    MayBuild u (endOf (c.run u now w)) ∧
      (HasFolder u w ∨ c.Exports u now w → HasFolder u (endOf (c.run u now w))) := by
  cases hFrom : c.exportFrom? now w with
  | none =>
      have hFiles := Command.files_run (u := u) hFrom
      refine ⟨h.of_files hFiles, ?_⟩
      rintro (hFolder | ⟨keep, v, report, v', hSome, -⟩)
      · exact hFolder.of_files hFiles
      · simp [hFrom] at hSome
  | some start =>
      obtain ⟨keep, v⟩ := start
      have hRun := Command.run_exportsAt (u := u) hFrom
      have hStart : MayBuild u v := h.of_files hRun.begun
      refine ⟨(hStart.endOf_export hExt).of_files hRun.files, ?_⟩
      rintro (hFolder | ⟨_, _, report, v', hSome, hOk⟩)
      · exact ((hFolder.of_files hRun.begun).endOf_export hExt).of_files hRun.files
      · obtain ⟨rfl, rfl⟩ := Prod.mk.inj (Option.some.inj (hFrom.symm.trans hSome))
        refine (hStart.hasFolder_of_export hExt hOk).of_files ?_
        rw [hRun.files, hOk, endOf]

/-- A history of commands leaves the folder in order, and once an export has succeeded it is there. -/
theorem MayBuild.after {history : List (Int × Command)} (h : MayBuild u w) :
    MayBuild u (Workspace.after u w history) ∧
      (HasFolder u w ∨ HasExported u w history → HasFolder u (Workspace.after u w history)) := by
  induction history generalizing w with
  | nil => exact ⟨h, fun hFolder => hFolder.elim id False.elim⟩
  | cons e more ih =>
      obtain ⟨now, c⟩ := e
      obtain ⟨hNext, hFirst⟩ := h.run hExt now c
      obtain ⟨hEnd, hLast⟩ := ih hNext
      refine ⟨hEnd, ?_⟩
      rintro (hFolder | hExport | hExport)
      · exact hLast (Or.inl (hFirst (Or.inl hFolder)))
      · exact hLast (Or.inl (hFirst (Or.inr hExport)))
      · exact hLast (Or.inr hExport)

end

theorem builds_eq_ok {u : Setup} {w : Workspace} {entries : List Build.Entry}
    (h : Build.list w.files u.cwd u.settings.buildRoot u.settings.buildUrl u.settings.graphExtension =
      .ok entries) : builds u w = .ok entries w := by
  rw [builds, h]

/-- Behind every history with an export that succeeds the builds can be listed, and all that is listed can be
read in the folder of builds. The site of the settings serves a build at its address exactly when the folder
is named and the prefix in the settings begins with the form that the site gives it: this prefix with one
slash at each end. -/
theorem serves_builds_iff {settings : Settings} {cwd : Place}
    {draw : String → Except Failure (Option (List UInt8))} {u : Setup} {w : Workspace}
    {history : List (Int × Command)} (hMade : u = .make settings cwd draw)
    (hStart : StaysOrderly w.files cwd settings.buildRoot) (hExported : HasExported u w history)
    (hQuery : '?' ∉ settings.buildUrl.toList) (hFragment : '#' ∉ settings.buildUrl.toList) :
    ∃ entries, builds u (after u w history) = .ok entries (after u w history) ∧
      ∀ e ∈ entries, ∃ content,
        (after u w history).files.read? cwd (FileTree.join settings.buildRoot e.name) = some content ∧
        ((Server.Site.make settings.buildRoot settings.buildUrl settings.graphExtension).Serves
            (after u w history).files cwd e.url content ↔
          settings.buildRoot ≠ "" ∧
            (Server.normalBase settings.buildUrl).toList <+: settings.buildUrl.toList) := by
  subst hMade
  have hExt : Build.IsGraphExtension (Setup.make settings cwd draw).renderer.extension :=
    Setup.make_extension settings cwd draw ▸ settings.isGraphExtension
  have hMay : MayBuild (.make settings cwd draw) w := hStart
  obtain ⟨base, hOrderly⟩ := (hMay.after hExt).2 (Or.inr hExported)
  obtain ⟨entries, hList, -, hEntries⟩ :=
    hOrderly.exists_list_eq_ok settings.buildUrl settings.graphExtension
  refine ⟨entries, builds_eq_ok hList, fun e he => ?_⟩
  obtain ⟨hUrl, hLength, content, modified, hFile⟩ := hEntries e he
  refine ⟨content, hOrderly.read?_eq (hOrderly.ordinary _ _ hFile) hFile, ?_⟩
  rw [hUrl]
  exact Server.Site.serves_address_iff hOrderly hFile hLength hQuery hFragment

/-- Nothing, and then an export. -/
def afterExport (url : String) : Workspace :=
  after (.under url) ⟨.empty, .empty, []⟩ [(0, .exportPack false)]

/-- The export succeeds, and the latest build can be read behind it. -/
theorem exported_under (url : String) :
    HasExported (.under url) ⟨.empty, .empty, []⟩ [(0, .exportPack false)] ∧
      ∃ content, (afterExport url).files.read? []
        (FileTree.join "build" (Build.latestStem ++ ".json")) = some content := by
  have hUndisturbed := Build.isUndisturbed_empty
    (Build.drawnName (Setup.under url).settings.graphExtension)
  have hSound : IsSound (.under url) ⟨.empty, .empty, []⟩ :=
    ⟨Setup.make_extension { buildUrl := url } [] _, ⟨[], Store.empty_holds⟩, hUndisturbed⟩
  have hFrom : (Command.exportPack false).exportFrom? 0 ⟨.empty, .empty, []⟩ =
      some (false, ⟨.empty, .empty, []⟩) := rfl
  have hDraw : ∀ graph, ∃ content, (Setup.under url).renderer.draw graph = .ok (some content) := by
    rw [Setup.under_renderer]
    exact fun _ => ⟨[], rfl⟩
  obtain ⟨report, v, hOk⟩ := hSound.exportSucceeds (c := .exportPack false) trivial
    Build.makeFolders?_empty Build.open_build hDraw false _ hFrom
  refine ⟨Or.inl ⟨false, _, report, v, hFrom, hOk⟩, ?_⟩
  obtain ⟨-, ms, counts, now, drawn, hPublishes⟩ := hSound.export hOk
  refine ⟨_, Eq.trans ?_ hPublishes.pack⟩
  have hFiles := (Command.run_exportsAt (u := .under url) hFrom).files
  rw [hOk] at hFiles
  exact congrArg (FileTree.read? · [] _) hFiles

/-- The latest build is listed behind the export, under the prefix as it is written. -/
theorem exists_latest_entry (url : String) :
    ∃ entries e, builds (.under url) (afterExport url) = .ok entries (afterExport url) ∧ e ∈ entries ∧
      e.url = url ++ Text.percentEncode "latest.json" := by
  obtain ⟨hExported, content, hRead⟩ := exported_under url
  have hStart : MayBuild (.under url) ⟨.empty, .empty, []⟩ := Build.staysOrderly_empty
  have hExt : Build.IsGraphExtension (Setup.under url).renderer.extension := by
    rw [Setup.under_renderer]
    exact Or.inr rfl
  obtain ⟨base, hOrderly⟩ := (hStart.after hExt).2 (Or.inr hExported)
  obtain ⟨entries, hList, hNames, hEntries⟩ :=
    hOrderly.exists_list_eq_ok (Setup.under url).settings.buildUrl
    (Setup.under url).settings.graphExtension
  have hMem : Build.latestStem ++ ".json" ∈ entries.map Build.Entry.name :=
    hNames ▸ Build.latest_mem_listedNames hRead
  obtain ⟨e, he, hName⟩ := List.mem_map.1 hMem
  have hLatest : Build.latestStem ++ ".json" = "latest.json" := by decide
  rw [hLatest] at hName
  refine ⟨entries, e, builds_eq_ok hList, he, ?_⟩
  rw [(hEntries e he).1, hName, Setup.under, Setup.make]

theorem serves_latest :
    ∃ entries e content, builds (.under "/build/") (afterExport "/build/") =
        .ok entries (afterExport "/build/") ∧ e ∈ entries ∧ e.url = "/build/latest.json" ∧
      (Server.Site.make "build" "/build/" "svg").Serves (afterExport "/build/").files [] e.url content := by
  obtain ⟨entries, e, hList, he, hUrl⟩ := exists_latest_entry "/build/"
  obtain ⟨entries', hList', hServes⟩ := serves_builds_iff (u := .under "/build/") rfl
    Build.staysOrderly_empty (exported_under "/build/").1 (by decide) (by decide)
  obtain ⟨rfl, -⟩ := EStateM.Result.ok.inj (hList.symm.trans hList')
  obtain ⟨content, -, hIff⟩ := hServes e he
  refine ⟨entries, e, content, hList, he, ?_, hIff.2 ⟨by decide, by decide +kernel⟩⟩
  rw [hUrl]
  decide +kernel

/-- Without a slash at the end of the prefix the latest build is listed at an address that is not served. -/
theorem latest_not_served :
    HasExported (.under "/build") ⟨.empty, .empty, []⟩ [(0, .exportPack false)] ∧
    ∃ entries e, builds (.under "/build") (afterExport "/build") = .ok entries (afterExport "/build") ∧
      e ∈ entries ∧ e.url = "/buildlatest.json" ∧
      ((Server.Site.make "build" "/build" "svg").handle (afterExport "/build").files []
        (.make "GET" e.url)).status ≠ 200 := by
  obtain ⟨entries, e, hList, he, hUrl⟩ := exists_latest_entry "/build"
  refine ⟨(exported_under "/build").1, entries, e, hList, he, ?_, ?_⟩
  · rw [hUrl]
    decide +kernel
  · rw [hUrl]
    intro hOk
    obtain ⟨-, hPrefix⟩ := Server.Site.prefix_of_isServed (by decide) (by decide) (by decide) (Or.inl hOk)
    exact absurd hPrefix (by decide +kernel)

end Workspace

end Phrasebook
