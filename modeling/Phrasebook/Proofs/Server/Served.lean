import Mathlib
import Phrasebook.Proofs.FileTree.Resolution
import Phrasebook.Proofs.Text.Ends
import Phrasebook.Server.Handler

/-!
What a site serves. Besides the list of builds at its prefix, a site answers with a file exactly when the path
behind the prefix leads, links included, to a file in or below the root, without a step upwards.
-/

namespace Phrasebook.Server

/-- A prefix is a single slash, or a text that has no slash at its ends between two slashes. -/
theorem normalBase_cases (base : String) :
    (normalBase base = "/" ∧ (Text.trimChar '/' base).toList = []) ∨
      (normalBase base).toList = '/' :: (Text.trimChar '/' base).toList ++ ['/'] ∧
        (Text.trimChar '/' base).toList ≠ [] := by
  have hCases : normalBase base = if (Text.trimChar '/' base).isEmpty then "/"
      else "/" ++ Text.trimChar '/' base ++ "/" := rfl
  by_cases hEmpty : Text.trimChar '/' base = ""
  · exact Or.inl (by simp [hCases, hEmpty])
  · refine Or.inr ⟨?_, fun hNil => hEmpty (String.toList_eq_nil_iff.1 hNil)⟩
    rw [hCases, if_neg (by simpa using hEmpty), String.toList_append, String.toList_append]
    rfl

namespace Site

/-- The path is the prefix, with or without the slash at its end. -/
def IsHome (s : Site) (path : String) : Prop := path = s.base ∨ path ≠ "" ∧ path ++ "/" = s.base

variable {root base ext : String} {path : String}

@[simp]
theorem make_base (root base ext : String) : (make root base ext).base = normalBase base := by
  simp only [make]

/-- Without its slash at the end a prefix is the path that is one slash shorter. -/
theorem isHome_iff :
    (make root base ext).IsHome path ↔ path = (make root base ext).base ∨
      (Text.trimCharRight '/' (make root base ext).base ≠ "" ∧
        path = Text.trimCharRight '/' (make root base ext).base) := by
  rw [IsHome, make_base]
  refine or_congr_right ?_
  obtain ⟨i, j, -, hTrimmed⟩ := Text.exists_trimChar '/' base
  rcases normalBase_cases base with ⟨hBase, -⟩ | ⟨hBase, hInner⟩
  · have hShort : Text.trimCharRight '/' "/" = "" := by decide
    rw [hBase, hShort]
    simp
  · have hLast : ('/' :: (Text.trimChar '/' base).toList).getLast? ≠ some '/' := by
      have hLast := hTrimmed.last
      rw [List.getLast?_eq_some_getLast hInner] at hLast
      rwa [List.getLast?_cons, List.getLast?_eq_some_getLast hInner, Option.getD_some]
    have hShort := Text.trimCharRight_concat '/' hLast
    rw [← hBase, String.ofList_toList] at hShort
    have hSlash : path ++ "/" = normalBase base ↔
        path.toList ++ ['/'] = '/' :: (Text.trimChar '/' base).toList ++ ['/'] := by
      rw [← hBase, ← String.toList_inj, String.toList_append]
      rfl
    have hPath : path.toList = '/' :: (Text.trimChar '/' base).toList ↔
        path = String.ofList ('/' :: (Text.trimChar '/' base).toList) := by
      rw [← String.toList_inj, String.toList_ofList]
    rw [hShort, hSlash, List.append_cancel_right_eq, hPath]
    constructor
    · rintro ⟨-, rfl⟩
      exact ⟨by simp, rfl⟩
    · rintro ⟨-, rfl⟩
      exact ⟨by simp, rfl⟩

/-- A request for a file or for its headers. -/
def IsRead (r : Request) : Prop := r.method = "GET" ∨ r.method = "HEAD"

/-- The answer gives something, or tells that the client has it already. -/
def IsServed (a : Response) : Prop := a.status = 200 ∨ a.status = 304

variable {s : Site} {t : FileTree} {cwd place : Place} {r : Request} {rest relative : String}
  {content : List UInt8} {modified : Int}

theorem serveFile_isServed (r : Request) (name : String) (content : List UInt8) (modified : Int) :
    IsServed (serveFile r name content modified) := by
  unfold serveFile
  dsimp only
  split
  · exact Or.inr rfl
  · exact Or.inl rfl

theorem body_serveFile {name : String}
    (h : (serveFile r name content modified).status = 200) :
    (serveFile r name content modified).body = content := by
  unfold serveFile at h ⊢
  dsimp only at h ⊢
  split at h
  next => simp [Response.withHeader, Response.ofStatus] at h
  next hStale => rw [if_neg hStale]; rfl

theorem answerPath_eq (hDecoded : Text.percentDecode? rest = some relative)
    (hLies : t.LiesUnder cwd s.root relative place)
    (hFile : t.node? place = some (.file content modified)) :
    s.answerPath t cwd r rest = serveFile r (place.getLast?.getD "") content modified := by
  simp only [answerPath, hDecoded, FileTree.confined_eq_ok_iff.2 hLies, hFile]

/-- Nothing but a file in or below the root is served behind the prefix. -/
theorem exists_of_answerPath (h : IsServed (s.answerPath t cwd r rest)) :
    ∃ relative place content modified, Text.percentDecode? rest = some relative ∧
      t.LiesUnder cwd s.root relative place ∧ t.node? place = some (.file content modified) := by
  have hRefused : ∀ status, status ≠ 200 → status ≠ 304 → ¬IsServed (Response.ofStatus status) :=
    fun _ hOk hSame hServed => hServed.elim hOk hSame
  unfold answerPath at h
  split at h
  next => exact absurd h (hRefused 400 (by decide) (by decide))
  next relative hDecoded =>
    split at h
    next => exact absurd h (hRefused 404 (by decide) (by decide))
    next place hConfined =>
      split at h
      next content modified hFile =>
        exact ⟨relative, place, content, modified, hDecoded, FileTree.confined_eq_ok_iff.1 hConfined, hFile⟩
      next => exact absurd h (hRefused 404 (by decide) (by decide))

theorem handle_of_read (hRead : IsRead r) :
    s.handle t cwd r =
      if barePath r.path = s.base ∨ (Text.trimCharRight '/' s.base ≠ "" ∧
          barePath r.path = Text.trimCharRight '/' s.base) then s.listing t cwd
      else
        match Text.dropFront? s.base.toList (barePath r.path).toList with
        | some rest => s.answerPath t cwd r (String.ofList rest)
        | none => .ofStatus 404 := by
  have hAllowed : ¬(r.method ≠ "GET" ∧ r.method ≠ "HEAD") := fun hOther =>
    hRead.elim hOther.1 hOther.2
  rewrite [handle, if_neg hAllowed]
  rfl

theorem handle_of_isHome (hRead : IsRead r) (hHome : (make root base ext).IsHome (barePath r.path)) :
    (make root base ext).handle t cwd r = (make root base ext).listing t cwd := by
  rw [handle_of_read hRead]
  exact if_pos (isHome_iff.1 hHome)

theorem handle_of_behind (hRead : IsRead r)
    (hElsewhere : ¬(make root base ext).IsHome (barePath r.path))
    (hPath : barePath r.path = (make root base ext).base ++ rest) :
    (make root base ext).handle t cwd r = (make root base ext).answerPath t cwd r rest := by
  have hDrop : Text.dropFront? (make root base ext).base.toList (barePath r.path).toList =
      some rest.toList := by
    rw [Text.dropFront?_eq_some_iff, hPath, String.toList_append]
  rw [handle_of_read hRead, if_neg fun hHome => hElsewhere (isHome_iff.2 hHome)]
  simp only [hDrop, String.ofList_toList]

theorem handle_of_elsewhere (hRead : IsRead r)
    (hElsewhere : ¬(make root base ext).IsHome (barePath r.path))
    (hPath : ¬(make root base ext).base.toList <+: (barePath r.path).toList) :
    (make root base ext).handle t cwd r = .ofStatus 404 := by
  rw [handle_of_read hRead, if_neg fun hHome => hElsewhere (isHome_iff.2 hHome)]
  simp only [Text.dropFront?_eq_none_iff.2 hPath]

/-- A path names a file: behind the prefix, and decoded, it leads from the root to a file in or below the
root. -/
def NamesFile (s : Site) (t : FileTree) (cwd : Place) (path : String) (place : Place)
    (content : List UInt8) (modified : Int) : Prop :=
  ∃ rest relative, path = s.base ++ rest ∧ Text.percentDecode? rest = some relative ∧
    t.LiesUnder cwd s.root relative place ∧ t.node? place = some (.file content modified)

/-- The prefix alone leads to the root, which is a folder. -/
theorem NamesFile.not_isHome (h : s.NamesFile t cwd path place content modified) :
    ¬s.IsHome path := by
  obtain ⟨rest, relative, hPath, hDecoded, hLies, hFile⟩ := h
  rintro (hHome | ⟨-, hHome⟩)
  · have hRest : rest = "" := by
      have hChars := congrArg String.toList (hHome.symm.trans hPath)
      rw [String.toList_append] at hChars
      exact String.toList_eq_nil_iff.1 (List.self_eq_append_right.1 hChars)
    rw [hRest] at hDecoded
    obtain rfl := Option.some.inj (hDecoded.symm.trans (by decide : Text.percentDecode? "" = some ""))
    obtain ⟨base, -, hFolder, -, links, -, hResolves⟩ := hLies.leads
    have hNames : FileTree.names (Text.trimCharLeft '/' "") = [] := by decide
    rw [hNames] at hResolves
    cases hResolves
    rw [hFolder] at hFile
    simp at hFile
  · -- The prefix would be longer than itself.
    have hLength := congrArg String.length hHome
    rw [hPath, String.length_append, String.length_append] at hLength
    have hSlash : "/".length = 1 := rfl
    omega

theorem NamesFile.handle_eq
    (h : (make root base ext).NamesFile t cwd (barePath r.path) place content modified)
    (hRead : IsRead r) :
    (make root base ext).handle t cwd r = serveFile r (place.getLast?.getD "") content modified := by
  have hElsewhere := h.not_isHome
  obtain ⟨rest, relative, hPath, hDecoded, hLies, hFile⟩ := h
  rw [handle_of_behind hRead hElsewhere hPath, answerPath_eq hDecoded hLies hFile]

/-- Nothing is served elsewhere. -/
theorem exists_namesFile (hRead : IsRead r)
    (hElsewhere : ¬(make root base ext).IsHome (barePath r.path))
    (hServed : IsServed ((make root base ext).handle t cwd r)) :
    ∃ place content modified,
      (make root base ext).NamesFile t cwd (barePath r.path) place content modified := by
  by_cases hBehind : (make root base ext).base.toList <+: (barePath r.path).toList
  · obtain ⟨rest, hRest⟩ := hBehind
    have hPath : barePath r.path = (make root base ext).base ++ String.ofList rest :=
      String.toList_inj.1 (by rw [String.toList_append, String.toList_ofList, hRest])
    rw [handle_of_behind hRead hElsewhere hPath] at hServed
    obtain ⟨relative, place, content, modified, hDecoded, hLies, hFile⟩ := exists_of_answerPath hServed
    exact ⟨place, content, modified, _, relative, hPath, hDecoded, hLies, hFile⟩
  · rw [handle_of_elsewhere hRead hElsewhere hBehind] at hServed
    simp [IsServed, Response.ofStatus] at hServed

/-- What answers to requests for a file or its headers can be. When one gives something, the path is the
prefix and the answer is the list of builds, or the path names a file under the root and the answer has the
bytes of this file or none, since the client has them. All paths of the second kind are answered that way.
The file lies where its place says, with no link on the way to it from the top. -/
theorem serves_files_under_root (t : FileTree) (cwd : Place) (root base ext : String) {r : Request}
    (hRead : IsRead r) :
    (IsServed ((make root base ext).handle t cwd r) →
      ((make root base ext).IsHome (barePath r.path) ∧
        (make root base ext).handle t cwd r = (make root base ext).listing t cwd) ∨
      ∃ place content modified,
        (make root base ext).NamesFile t cwd (barePath r.path) place content modified ∧
        (((make root base ext).handle t cwd r).status = 200 →
          ((make root base ext).handle t cwd r).body = content)) ∧
    ∀ place content modified,
      (make root base ext).NamesFile t cwd (barePath r.path) place content modified →
      IsServed ((make root base ext).handle t cwd r) ∧
      (((make root base ext).handle t cwd r).status = 200 →
        ((make root base ext).handle t cwd r).body = content) ∧
      (t.IsCanonical cwd → t.node? cwd = some .folder → t.IsCanonical place) := by
  constructor
  · intro hServed
    by_cases hHome : (make root base ext).IsHome (barePath r.path)
    · exact Or.inl ⟨hHome, handle_of_isHome hRead hHome⟩
    · obtain ⟨place, content, modified, hNames⟩ := exists_namesFile hRead hHome hServed
      refine Or.inr ⟨place, content, modified, hNames, ?_⟩
      rw [hNames.handle_eq hRead]
      exact body_serveFile
  · intro place content modified hNames
    rw [hNames.handle_eq hRead]
    obtain ⟨rest, relative, -, -, hLies, -⟩ := hNames
    exact ⟨serveFile_isServed r _ content modified, body_serveFile, hLies.isCanonical⟩

/-- A folder with a file, a link to the folder itself and a link out of it. -/
def publicFolder : FileTree :=
  .ofNodes [(["srv"], .folder), (["srv", "a b.json"], .file [123, 125] 0), (["srv", "here"], .link "."),
    (["srv", "out"], .link "../secret"), (["secret"], .file [42] 0)]

theorem find_srv : publicFolder.find [] "srv" = .ok ["srv"] := by
  have hNames : FileTree.names "srv" = ["srv"] := by decide +kernel
  have hOrigin : FileTree.origin [] "srv" = [] := by decide +kernel
  rw [FileTree.find, hNames, hOrigin, if_neg (by decide +kernel)]
  cbv

theorem here_liesUnder : publicFolder.LiesUnder [] "srv" "/here/a b.json" ["srv", "a b.json"] := by
  have hNames : FileTree.names (Text.trimCharLeft '/' "/here/a b.json") = ["here", "a b.json"] := by
    decide +kernel
  have hNoDots : ".." ∉ Text.splitAll '/' (Text.trimCharLeft '/' "/here/a b.json") := by decide +kernel
  have hTarget : FileTree.names "." = ["."] := by decide +kernel
  have hOrigin : FileTree.origin ["srv"] "." = ["srv"] := by decide +kernel
  have hFolder : publicFolder.node? ["srv"] = some .folder := by cbv
  have hFile : publicFolder.node? (["srv"] ++ ["a b.json"]) = some (.file [123, 125] 0) := by cbv
  have hLink : publicFolder.node? (["srv"] ++ ["here"]) = some (.link ".") := by cbv
  have hEnd : publicFolder.Resolves 0 ["srv"] ["a b.json"] (["srv"] ++ ["a b.json"]) :=
    .file (by decide) (by decide) hFile
  have hResolves : publicFolder.Resolves 1 ["srv"] ["here", "a b.json"] ["srv", "a b.json"] := by
    refine .link (by decide) (by decide) hLink ?_
    rw [hOrigin, hTarget]
    exact .dot hEnd
  rw [← hNames] at hResolves
  exact ⟨hNoDots, ["srv"], FileTree.find_eq_ok_iff.1 find_srv, hFolder, by decide, 1, by decide, hResolves⟩

theorem confined_out : publicFolder.confined [] "srv" "out" = .error (FileTree.escapes "out") := by
  have hNames : FileTree.names (Text.trimCharLeft '/' "out") = ["out"] := by decide +kernel
  have hTarget : FileTree.names "../secret" = ["..", "secret"] := by decide +kernel
  have hLink : publicFolder.node? (["srv"] ++ ["out"]) = some (.link "../secret") := by cbv
  have hWalk : publicFolder.walk false FileTree.linkLimit ["srv"] ["out"] = .ok ["secret"] := by
    rw [FileTree.linkLimit, FileTree.walk_link_succ (by decide) (by decide) hLink, hTarget]
    cbv
  simp only [FileTree.confined, hNames, find_srv, hWalk]
  decide +kernel

/-- A request for a file with slashes, percent signs and a link on its path. -/
def askHere : Request := .make "GET" "/build//here/%61%20b.json?v=1"

/-- A request that leads out of the folder. -/
def askOut : Request := .make "GET" "/build/out"

theorem askHere_namesFile :
    (make "srv" "build" "dot").NamesFile publicFolder [] (barePath askHere.path) ["srv", "a b.json"]
      [123, 125] 0 := by
  have hBehind : barePath askHere.path = (make "srv" "build" "dot").base ++ "/here/%61%20b.json" := by
    decide +kernel
  have hDecoded : Text.percentDecode? "/here/%61%20b.json" = some "/here/a b.json" := by decide +kernel
  have hFile : publicFolder.node? ["srv", "a b.json"] = some (.file [123, 125] 0) := by cbv
  exact ⟨"/here/%61%20b.json", "/here/a b.json", hBehind, hDecoded, here_liesUnder, hFile⟩

theorem handle_askOut : (make "srv" "build" "dot").handle publicFolder [] askOut = .ofStatus 404 := by
  have hHome : ¬(make "srv" "build" "dot").IsHome (barePath askOut.path) := by
    rw [isHome_iff]
    decide +kernel
  have hBehind : barePath askOut.path = (make "srv" "build" "dot").base ++ "out" := by decide +kernel
  have hDecoded : Text.percentDecode? "out" = some "out" := by decide +kernel
  have hConfined : publicFolder.confined [] (make "srv" "build" "dot").root "out" =
      .error (FileTree.escapes "out") := confined_out
  rw [handle_of_behind (Or.inl rfl) hHome hBehind, answerPath, hDecoded]
  simp only [hConfined]

/-- A file is found through slashes, percent signs and a link, but nothing through the link out of the
folder. -/
theorem publicFolder_serves :
    IsServed ((make "srv" "build" "dot").handle publicFolder [] askHere) ∧
      ¬IsServed ((make "srv" "build" "dot").handle publicFolder [] askOut) := by
  have hRead : IsRead askHere := Or.inl rfl
  refine ⟨((serves_files_under_root publicFolder [] "srv" "build" "dot" hRead).2 _ _ _
    askHere_namesFile).1, ?_⟩
  rw [handle_askOut]
  simp [IsServed, Response.ofStatus]

end Site

end Phrasebook.Server
