import Phrasebook.Proofs.Json.RoundTrip
import Phrasebook.Proofs.Pack.RoundTrip
import Phrasebook.Proofs.Server.Addresses

/-!
Downloads. When a site answers with the list of builds, every file in the list can be fetched from the same
site: the prefix and the encoded name lead back to it, whatever characters are in the name.
-/

namespace Phrasebook

namespace FileTree

/-- A path that leads to a folder leads there without the slash at its end, too. -/
theorem LeadsTo.of_find {t : FileTree} {cwd base : Place} {root : String} (hFind : t.find cwd root = .ok base)
    (hFolder : t.node? base = some .folder) : t.LeadsTo cwd root base := by
  refine ⟨?_, hFolder⟩
  obtain ⟨-, links, hLinks, hResolves⟩ := find_eq_ok_iff.1 hFind
  have hNames : names root = pieces root ∨ names root = pieces root ++ ["."] := by
    rw [names]
    split
    next => exact Or.inr rfl
    next => exact Or.inl rfl
  rcases hNames with hNames | hNames
  · rw [hNames] at hResolves
    exact hResolves.walk_eq hLinks
  · rw [hNames] at hResolves
    obtain ⟨before, behind, q, hSum, hFront, hDot⟩ := hResolves.split
    have hStays : t.walk false linkLimit q ["."] = .ok base := hDot.walk_eq (by omega)
    rw [walk_dot, FileTree.walk] at hStays
    exact Except.ok.inj hStays ▸ hFront.walk_eq (by omega)

end FileTree

namespace Build

open FileTree

variable {t : FileTree} {cwd base : Place} {root url ext name : String}

/-- A folder with nothing but files under ordinary names is in order. -/
theorem Orderly.of_files (hLeads : t.LeadsTo cwd root base)
    (hFiles : ∀ name n, t.listing base name = some n →
      IsOrdinary name ∧ ∃ content modified, n = .file content modified) : Orderly t cwd root base where
  leadsTo := hLeads
  noLinks name target hLink := by
    obtain ⟨-, content, modified, hFile⟩ := hFiles name _ hLink
    simp at hFile
  noFolders name hFolder := by
    obtain ⟨-, content, modified, hFile⟩ := hFiles name _ hFolder
    simp at hFile
  ordinary name n hNode := (hFiles name n hNode).1

/-- The name of a build is a name with an extension, and does not begin with a dot. -/
theorem exists_stem_of_mem_listedNames (h : name ∈ listedNames t cwd root) :
    ∃ own c rest, name = own ++ ".json" ∧ own.toList = c :: rest ∧ c ≠ '.' := by
  rcases List.mem_append.1 h with hLatest | hKept
  · split at hLatest
    next => exact ⟨latestStem, 'l', _, List.mem_singleton.1 hLatest, rfl, by decide⟩
    next => exact absurd hLatest List.not_mem_nil
  · rw [List.mem_reverse, List.mem_filter] at hKept
    obtain ⟨⟨behind, hFront⟩, front, hEnd⟩ := isKept_iff.1 hKept.2
    have hName : name = String.ofList front ++ ".json" := by
      rw [← String.toList_inj, String.toList_append, String.toList_ofList, hEnd]
    have hHead : name.toList.head? = some 't' := by
      rw [← hFront]
      rfl
    cases front with
    | nil =>
        rw [← hEnd] at hHead
        exact absurd hHead (by decide)
    | cons c rest =>
        rw [← hEnd, List.cons_append, List.head?_cons] at hHead
        obtain rfl := Option.some.inj hHead
        exact ⟨_, 't', rest, hName, String.toList_ofList, by decide⟩

/-- The graph of a build lies beside it, whatever its extension, as long as no slash is in it. -/
theorem isOrdinary_graph (h : name ∈ listedNames t cwd root) (hName : IsOrdinary name)
    (hExt : '/' ∉ ext.toList) : IsOrdinary (withExtension name ext) := by
  obtain ⟨own, c, rest, rfl, hOwn, hDot⟩ := exists_stem_of_mem_listedNames h
  have hPresent : own ≠ "" := by
    rintro rfl
    simp at hOwn
  have hSlash : '/' ∉ own.toList := fun hc =>
    hName.slash (by rw [String.toList_append]; exact List.mem_append_left _ hc)
  obtain ⟨more, hGraph, hMore⟩ :
      ∃ more, withExtension (own ++ ".json") ext = own ++ more ∧ '/' ∉ more.toList := by
    by_cases hNone : ext = ""
    · refine ⟨"", ?_, by simp⟩
      rw [withExtension, if_pos (by simpa using hNone), stem_json hPresent, String.append_empty]
    · refine ⟨"." ++ ext, by rw [withExtension_json hPresent hNone, String.append_assoc], ?_⟩
      rw [String.toList_append, List.mem_append]
      exact fun hc => hc.elim (by decide) hExt
  have hHead : (own ++ more).toList.head? = some c := by
    rw [String.toList_append, hOwn]
    rfl
  have hNe : ∀ other : String, other.toList.head? ≠ some c → own ++ more ≠ other := by
    rintro other hOther rfl
    exact hOther hHead
  rw [hGraph]
  refine ⟨hNe "" (by simp), hNe "." ?_, hNe ".." ?_, ?_⟩
  · exact fun hSame => hDot (Option.some.inj hSame).symm
  · exact fun hSame => hDot (Option.some.inj hSame).symm
  · rw [String.toList_append, List.mem_append]
    exact fun hc => hc.elim hSlash hMore

/-- What an entry tells of a folder with files: the size of the file with its name, the address, and the graph
when it is a file there too. -/
structure Entry.Describes (e : Entry) (t : FileTree) (base : Place) (url ext : String) : Prop where
  file : ∃ content modified, t.listing base e.name = some (.file content modified) ∧ e.size = content.length
  address : e.url = url ++ Text.percentEncode e.name
  graph_iff : ∀ g, e.graph = some g ↔ g = withExtension e.name ext ∧
    ∃ content modified, t.listing base g = some (.file content modified)

theorem isFile_join (h : Ready t cwd root base) (hName : IsOrdinary name) :
    t.isFile cwd (join root name) = true ↔
      ∃ content modified, t.listing base name = some (.file content modified) := by
  rw [isFile, nodeAt?_join h.leadsTo h.noLinks hName]
  cases t.listing base name with
  | none => simp
  | some n => cases n <;> simp

theorem Orderly.describes (h : Orderly t cwd root base) (hExt : '/' ∉ ext.toList) {entries : List Entry}
    (hList : list t cwd root url ext = .ok entries) {e : Entry} (he : e ∈ entries) :
    e.Describes t base url ext := by
  obtain ⟨name, hListed, hEntry⟩ := exists_of_mem_mapM hList he
  obtain ⟨-, n, hNode⟩ := h.of_mem_listedNames hListed
  obtain ⟨content, modified, rfl⟩ := h.exists_file hNode
  have hName := h.ordinary name _ hNode
  have hGraph := isFile_join h.toReady (isOrdinary_graph hListed hName hExt)
  rw [entryOf_of_file h.toReady hName hNode] at hEntry
  obtain rfl := Except.ok.inj hEntry
  refine ⟨⟨content, modified, hNode, rfl⟩, rfl, fun g => ?_⟩
  dsimp only
  rw [Option.ite_none_right_eq_some, Option.some.injEq, hGraph]
  constructor
  · rintro ⟨hFile, rfl⟩
    exact ⟨rfl, hFile⟩
  · rintro ⟨rfl, hFile⟩
    exact ⟨hFile, rfl⟩

theorem isPlain_toJson {e : Entry} (h : e.size < Text.unsignedEnd) : e.toJson.isPlain = true := by
  have hSize : (Json.ofNat e.size).isPlain = true := by
    simp only [Json.ofNat, Json.isPlain, Json.Number.isPlain, Bool.and_eq_true, decide_eq_true_eq]
    omega
  have hGraph : (Json.ofOption Json.string e.graph).isPlain = true := by
    cases e.graph <;> rfl
  simp [Entry.toJson, Json.isPlain, Json.arePlainFields, hSize, hGraph]

/-- The text of a list of builds is read back as this list. -/
theorem parse?_entries {entries : List Entry} (h : ∀ e ∈ entries, e.size < Text.unsignedEnd) :
    (Text.ofUtf8? (Text.utf8 (Json.array (entries.map Entry.toJson)).pretty)).bind Json.parse? =
      some (.array (entries.map Entry.toJson)) := by
  have hPlain : (Json.array (entries.map Entry.toJson)).isPlain = true := by
    rw [Json.isPlain, Json.arePlain_map, List.all_eq_true]
    exact fun e he => isPlain_toJson (h e he)
  rw [Text.ofUtf8?_utf8, Option.bind_some, Json.parse?_pretty hPlain]

end Build

namespace Server.Site

variable {t : FileTree} {cwd base : Place} {root url ext name path : String} {content : List UInt8}
  {modified : Int}

/-- With the beginning of a query or a fragment in the prefix, every path is cut before it has the prefix. -/
theorem notMem_base_of_ok {c : Char} (hCut : c = '?' ∨ c = '#')
    (hOk : ((make root url ext).handle t cwd (.make "GET" path)).status = 200) :
    c ∉ (make root url ext).base.toList := by
  intro hc
  have hBare : c ∉ (barePath path).toList := by
    intro hMem
    rw [barePath, String.toList_ofList] at hMem
    have hKept := List.mem_takeWhile_imp hMem
    rcases hCut with rfl | rfl <;> simp at hKept
  have hElsewhere : ¬(make root url ext).IsHome (barePath path) := by
    rintro (hSame | ⟨-, hSame⟩)
    · exact hBare (hSame ▸ hc)
    · rw [← hSame, String.toList_append, List.mem_append] at hc
      refine hc.elim hBare fun hSlash => ?_
      rcases hCut with rfl | rfl <;> exact absurd hSlash (by decide)
  have hBehind : ¬(make root url ext).base.toList <+: (barePath path).toList := fun hPrefix =>
    hBare (hPrefix.subset hc)
  rw [handle_of_elsewhere (r := .make "GET" path) (Or.inl rfl) hElsewhere hBehind] at hOk
  simp [Response.ofStatus] at hOk

/-- A site that lists has a prefix that is never cut. -/
theorem listing_of_ok (hHome : (make root url ext).IsHome path)
    (hOk : ((make root url ext).handle t cwd (.make "GET" path)).status = 200) :
    '?' ∉ (make root url ext).base.toList ∧ '#' ∉ (make root url ext).base.toList ∧
      (make root url ext).handle t cwd (.make "GET" path) = (make root url ext).listing t cwd := by
  have hQuery := notMem_base_of_ok (Or.inl rfl) hOk
  have hFragment := notMem_base_of_ok (Or.inr rfl) hOk
  have hClean : ∀ c, c ∉ (make root url ext).base.toList → c ∉ path.toList := by
    rintro c hc hMem
    rcases hHome with rfl | ⟨-, hSame⟩
    · exact hc hMem
    · exact hc (by rw [← hSame, String.toList_append]; exact List.mem_append_left _ hMem)
  have hBare := barePath_eq_self (hClean _ hQuery) (hClean _ hFragment)
  refine ⟨hQuery, hFragment, handle_of_isHome (r := .make "GET" path) (Or.inl rfl) ?_⟩
  rwa [Request.make, hBare]

/-- The prefix and the encoded name of a file lead to the file. -/
theorem serves_encoded (h : Build.Orderly t cwd root base) (hRoot : root ≠ "")
    (hQuery : '?' ∉ (make root url ext).base.toList) (hFragment : '#' ∉ (make root url ext).base.toList)
    (hFile : t.listing base name = some (.file content modified)) :
    (make root url ext).Serves t cwd ((make root url ext).base ++ Text.percentEncode name) content := by
  have hDecoded : Text.percentDecode? (Text.percentEncode name) = some name := by
    have hNothing : '%' ∉ "".toList := by simp
    have hWhole := Text.percentDecode?_append hNothing name
    rwa [String.empty_append, String.empty_append] at hWhole
  have hLies : t.LiesUnder cwd root name (base ++ [name]) := by
    have hWhole := h.leadsTo.liesUnder hRoot (h.ordinary _ _ hFile) hFile 0
    rwa [List.replicate_zero, String.ofList_nil, String.empty_append] at hWhole
  have hBare := barePath_address hQuery hFragment name
  exact serves_of_namesFile ⟨Text.percentEncode name, name, hBare, hDecoded, hLies, hFile⟩

theorem listing_of_list {s : Site} {entries : List Build.Entry}
    (h : Build.list t cwd s.root s.base s.graphExt = .ok entries) :
    s.listing t cwd = (Response.ofStatus 200).withBody "application/json; charset=utf-8"
      (Text.utf8 (Json.array (entries.map Build.Entry.toJson)).pretty) := by
  simp only [listing, h]

/-- A site whose folder is in order has a list of its builds. -/
theorem exists_listing (h : Build.Orderly t cwd root base) (url ext : String) :
    ∃ entries, Build.list t cwd root (make root url ext).base ext = .ok entries ∧
      (make root url ext).listing t cwd = (Response.ofStatus 200).withBody "application/json; charset=utf-8"
        (Text.utf8 (Json.array (entries.map Build.Entry.toJson)).pretty) := by
  obtain ⟨entries, hList, -⟩ := h.exists_list_eq_ok (make root url ext).base ext
  exact ⟨entries, hList, listing_of_list hList⟩

/-- Everything that is listed can be fetched. When a site whose folder holds nothing but files answers with
the list of its builds, the address of each entry is answered with the bytes of the file of its name, which are
as many as the entry says, and a graph in an entry is found behind the prefix. -/
theorem listed_builds_are_served (hFind : t.find cwd root = .ok base) (hFolder : t.node? base = some .folder)
    (hFiles : ∀ name n, t.listing base name = some n →
      FileTree.IsOrdinary name ∧ ∃ content modified, n = .file content modified)
    (hExt : '/' ∉ ext.toList) (hHome : (make root url ext).IsHome path)
    (hOk : ((make root url ext).handle t cwd (.make "GET" path)).status = 200) :
    ∃ entries, Build.list t cwd root (make root url ext).base ext = .ok entries ∧
      ((make root url ext).handle t cwd (.make "GET" path)).body =
        Text.utf8 (Json.array (entries.map Build.Entry.toJson)).pretty ∧
      ((∀ e ∈ entries, e.size < Text.unsignedEnd) →
        (Text.ofUtf8? ((make root url ext).handle t cwd (.make "GET" path)).body).bind Json.parse? =
          some (.array (entries.map Build.Entry.toJson))) ∧
      ∀ e ∈ entries,
        (∃ content modified, t.listing base e.name = some (.file content modified) ∧
          e.size = content.length ∧ (make root url ext).Serves t cwd e.url content) ∧
        ∀ g, e.graph = some g → ∃ content modified, t.listing base g = some (.file content modified) ∧
          (make root url ext).Serves t cwd ((make root url ext).base ++ Text.percentEncode g) content := by
  have hOrderly : Build.Orderly t cwd root base := .of_files (.of_find hFind hFolder) hFiles
  have hRoot : root ≠ "" := (FileTree.find_eq_ok_iff.1 hFind).1
  obtain ⟨hQuery, hFragment, hAnswer⟩ := listing_of_ok hHome hOk
  obtain ⟨entries, hList, hListing⟩ := exists_listing hOrderly url ext
  have hBody : ((make root url ext).handle t cwd (.make "GET" path)).body =
      Text.utf8 (Json.array (entries.map Build.Entry.toJson)).pretty := by
    rw [hAnswer, hListing]
    rfl
  refine ⟨entries, hList, hBody, fun hSizes => by rw [hBody, Build.parse?_entries hSizes], fun e he => ?_⟩
  have hDescribes := hOrderly.describes hExt hList he
  obtain ⟨content, modified, hFile, hSize⟩ := hDescribes.file
  refine ⟨⟨content, modified, hFile, hSize, ?_⟩, fun g hg => ?_⟩
  · rw [hDescribes.address]
    exact serves_encoded hOrderly hRoot hQuery hFragment hFile
  · obtain ⟨-, drawing, drawnAt, hGraph⟩ := (hDescribes.graph_iff g).1 hg
    exact ⟨drawing, drawnAt, hGraph, serves_encoded hOrderly hRoot hQuery hFragment hGraph⟩

/-- A build and its graph under a name full of characters with a meaning in URLs. -/
def oddFolder : FileTree :=
  .ofNodes [(["srv"], .folder), (["srv", "translation_file_a %?#+한.json"], .file [91, 93] 0),
    (["srv", "translation_file_a %?#+한.svg"], .file [42] 0)]

theorem find_oddFolder : oddFolder.find [] "srv" = .ok ["srv"] := by
  have hNames : FileTree.names "srv" = ["srv"] := by decide +kernel
  have hOrigin : FileTree.origin [] "srv" = [] := by decide +kernel
  rw [FileTree.find, hNames, hOrigin, if_neg (by decide +kernel)]
  cbv

theorem oddFolder_files {name : String} {n : Node} (h : oddFolder.listing ["srv"] name = some n) :
    FileTree.IsOrdinary name ∧ ∃ content modified, n = .file content modified := by
  obtain ⟨front, back, hNodes, -⟩ := List.lookup_eq_some_iff.1 h
  have hMem : (["srv"] ++ [name], n) ∈ oddFolder.nodes :=
    hNodes ▸ List.mem_append_right front List.mem_cons_self
  simp only [oddFolder, FileTree.ofNodes, List.mem_cons, Prod.mk.injEq, List.cons_append, List.nil_append,
    List.cons.injEq, List.not_mem_nil, or_false] at hMem
  rcases hMem with ⟨⟨-, hNone⟩, -⟩ | ⟨⟨-, rfl, -⟩, rfl⟩ | ⟨⟨-, rfl, -⟩, rfl⟩
  · exact absurd hNone (by simp)
  · exact ⟨⟨by decide, by decide, by decide, by decide⟩, _, _, rfl⟩
  · exact ⟨⟨by decide, by decide, by decide, by decide⟩, _, _, rfl⟩

/-- The odd name is listed, and it leads back to the build and to its graph. -/
theorem oddFolder_fetched :
    ∃ e : Build.Entry, e.name = "translation_file_a %?#+한.json" ∧ e.size = 2 ∧
      (make "srv" "build" "svg").Serves oddFolder [] e.url [91, 93] ∧
      e.graph = some "translation_file_a %?#+한.svg" ∧
      (make "srv" "build" "svg").Serves oddFolder []
        ((make "srv" "build" "svg").base ++ Text.percentEncode "translation_file_a %?#+한.svg") [42] := by
  have hFolder : oddFolder.node? ["srv"] = some .folder := by cbv
  have hLeads : oddFolder.LeadsTo [] "srv" ["srv"] := .of_find find_oddFolder hFolder
  have hOrderly : Build.Orderly oddFolder [] "srv" ["srv"] := .of_files hLeads fun _ _ => oddFolder_files
  have hHome : (make "srv" "build" "svg").IsHome "/build" := Or.inr (by decide +kernel)
  have hBare : barePath "/build" = "/build" := by decide +kernel
  have hOk : ((make "srv" "build" "svg").handle oddFolder [] (.make "GET" "/build")).status = 200 := by
    obtain ⟨entries, -, hListing⟩ := exists_listing hOrderly "build" "svg"
    rw [handle_of_isHome (Or.inl rfl) (by rwa [Request.make, hBare]), hListing]
    rfl
  obtain ⟨entries, hList, -, -, hFetched⟩ := listed_builds_are_served find_oddFolder hFolder
    (fun _ _ => oddFolder_files) (by decide) hHome hOk
  obtain ⟨entries', hList', hNames, -⟩ := hOrderly.exists_list_eq_ok (make "srv" "build" "svg").base "svg"
  obtain rfl := Except.ok.inj (hList.symm.trans hList')
  have hPack : oddFolder.listing ["srv"] "translation_file_a %?#+한.json" = some (.file [91, 93] 0) := by cbv
  have hDrawing : oddFolder.listing ["srv"] "translation_file_a %?#+한.svg" = some (.file [42] 0) := by cbv
  have hListed : "translation_file_a %?#+한.json" ∈ entries.map Build.Entry.name := by
    rw [hNames, Build.listedNames, hLeads.list?_eq (by decide), Option.getD_some, List.mem_append,
      List.mem_reverse, List.mem_filter]
    exact Or.inr ⟨FileTree.mem_children_iff.2 ⟨_, hPack⟩, by decide +kernel⟩
  obtain ⟨e, he, hName⟩ := List.mem_map.1 hListed
  obtain ⟨⟨content, modified, hFile, hSize, hServes⟩, hGraph⟩ := hFetched e he
  rw [hName, hPack] at hFile
  obtain ⟨rfl, rfl⟩ := Node.file.inj (Option.some.inj hFile)
  have hDrawn : e.graph = some "translation_file_a %?#+한.svg" := by
    refine ((hOrderly.describes (by decide) hList he).graph_iff _).2 ⟨?_, _, _, hDrawing⟩
    rw [hName]
    decide +kernel
  obtain ⟨drawing, drawnAt, hThere, hShown⟩ := hGraph _ hDrawn
  rw [hDrawing] at hThere
  obtain ⟨rfl, rfl⟩ := Node.file.inj (Option.some.inj hThere)
  exact ⟨e, hName, hSize, hServes, hDrawn, hShown⟩

end Server.Site

end Phrasebook
