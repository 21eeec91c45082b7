import Phrasebook.Proofs.Build.Listing
import Phrasebook.Proofs.Server.Served
import Phrasebook.Proofs.Text.Percent

/-!
Addresses of builds. A site brings its prefix into one form, while the address of a build has the prefix as it
is written in the settings. The address is that of the build exactly when the prefix is in this form, up to
slashes at its end.
-/

namespace Phrasebook

namespace FileTree

theorem names_of_ordinary {name : String} (h : IsOrdinary name) : names name = [name] := by
  have hJoin : join "" name = name := by simp [join]
  have hNames := names_join "" h
  rwa [hJoin] at hNames

/-- A file in a folder is under the folder, however many slashes are in front of its name. -/
theorem LeadsTo.liesUnder {t : FileTree} {cwd base : Place} {root name : String}
    (h : t.LeadsTo cwd root base) (hRoot : root ≠ "") (hName : IsOrdinary name) {content : List UInt8}
    {modified : Int} (hFile : t.listing base name = some (.file content modified)) (slashes : Nat) :
    t.LiesUnder cwd root (String.ofList (List.replicate slashes '/') ++ name) (base ++ [name]) := by
  have hHead : name.toList.head? ≠ some '/' := fun hSlash => hName.slash (List.mem_of_head? hSlash)
  have hTrimmed : Text.trimCharLeft '/' (String.ofList (List.replicate slashes '/') ++ name) = name := by
    have hDrop := Text.trimCharLeft_replicate '/' slashes hHead
    rwa [String.ofList_append, String.ofList_toList] at hDrop
  have hResolves : t.Resolves 0 base [name] (base ++ [name]) := .file hName.ne_dot hName.ne_dots hFile
  refine ⟨?_, base, find_eq_ok_iff.1 (h.find_eq hRoot), h.folder, List.prefix_append _ _, 0,
    Nat.zero_le _, ?_⟩
  · rw [hTrimmed, ← mem_names_iff (by decide) (by decide), names_of_ordinary hName, List.mem_singleton]
    exact Ne.symm hName.ne_dots
  · rwa [hTrimmed, names_of_ordinary hName]

end FileTree

namespace Server

/-- When a text begins with its own prefix, there are only slashes behind the prefix. -/
theorem exists_slashes {url : String} (h : (normalBase url).toList <+: url.toList) :
    ∃ k, url = normalBase url ++ String.ofList (List.replicate k '/') := by
  obtain ⟨rest, hRest⟩ := h
  suffices hSlashes : ∀ c ∈ rest, c = '/' by
    refine ⟨rest.length, String.toList_inj.1 ?_⟩
    rw [String.toList_append, String.toList_ofList, ← List.eq_replicate_of_mem hSlashes, hRest]
  obtain ⟨i, j, hUrl, hTrimmed⟩ := Text.exists_trimChar '/' url
  rcases normalBase_cases url with ⟨-, hInner⟩ | ⟨hBase, hInner⟩
  · intro c hc
    have hMem : c ∈ url.toList := hRest ▸ List.mem_append_right _ hc
    rw [hUrl, hInner, List.append_nil, List.mem_append] at hMem
    exact hMem.elim List.eq_of_mem_replicate List.eq_of_mem_replicate
  · -- Without the slashes in front both sides begin with the inner text.
    have hHead : ∀ more, ((Text.trimChar '/' url).toList ++ more).head? ≠ some '/' := by
      intro more
      rw [List.head?_append_of_ne_nil _ hInner]
      exact hTrimmed.head
    have hBoth : List.replicate 1 '/' ++ ((Text.trimChar '/' url).toList ++ '/' :: rest) =
        List.replicate i '/' ++ ((Text.trimChar '/' url).toList ++ List.replicate j '/') := by
      rw [← List.append_assoc (List.replicate i '/'), ← hUrl, ← hRest, hBase]
      simp
    have hDropped := congrArg (List.dropWhile (· == '/')) hBoth
    rw [Text.dropWhile_replicate_append _ _ (hHead _), Text.dropWhile_replicate_append _ _ (hHead _),
      List.append_cancel_left_eq] at hDropped
    intro c hc
    have hMem : c ∈ List.replicate j '/' := hDropped ▸ List.mem_cons_of_mem _ hc
    exact List.eq_of_mem_replicate hMem

theorem length_normalBase_le (url : String) : (normalBase url).length ≤ url.length + 2 := by
  obtain ⟨i, j, hUrl, -⟩ := Text.exists_trimChar '/' url
  have hLength := congrArg List.length hUrl
  simp only [List.length_append, List.length_replicate, String.length_toList] at hLength
  rcases normalBase_cases url with ⟨hBase, -⟩ | ⟨hBase, -⟩
  · rw [hBase]
    have hSlash : "/".length = 1 := rfl
    omega
  · have hBase := congrArg List.length hBase
    simp only [List.length_append, List.length_cons, List.length_nil, String.length_toList] at hBase
    omega

/-- A prefix ends with a slash. -/
theorem exists_normalBase_eq_concat (url : String) :
    ∃ front, (normalBase url).toList = front ++ ['/'] := by
  rcases normalBase_cases url with ⟨hBase, -⟩ | ⟨hBase, -⟩
  · exact ⟨[], by rw [hBase]; rfl⟩
  · exact ⟨_, hBase⟩

/-- What ends with `c` stands in front of the part with a `c` in it. -/
theorem prefix_of_prefix_append {c : Char} {front text more : List Char} (hMore : c ∉ more)
    (h : front ++ [c] <+: text ++ more) : front ++ [c] <+: text := by
  rcases List.prefix_or_prefix_of_prefix h (List.prefix_append text more) with hShort | ⟨rest, hLong⟩
  · exact hShort
  rcases List.eq_nil_or_concat rest with rfl | ⟨rest, d, rfl⟩
  · rw [List.append_nil] at hLong
    rw [hLong]
  · rw [List.concat_eq_append, ← List.append_assoc] at hLong
    obtain ⟨rfl, hLast⟩ := List.append_inj' hLong rfl
    obtain rfl := List.singleton_injective hLast
    rw [List.append_assoc, List.prefix_append_right_inj] at h
    exact absurd (h.subset (List.mem_append_right _ (List.mem_singleton_self d))) hMore

namespace Site

variable {t : FileTree} {cwd base : Place} {root url ext name : String} {content : List UInt8}
  {modified : Int}

theorem barePath_eq_self {path : String} (hQuery : '?' ∉ path.toList) (hFragment : '#' ∉ path.toList) :
    barePath path = path := by
  rw [barePath, List.takeWhile_eq_self_iff.2, String.ofList_toList]
  intro c hc
  have hNoQuery : c ≠ '?' := fun hSame => hQuery (hSame ▸ hc)
  have hNoFragment : c ≠ '#' := fun hSame => hFragment (hSame ▸ hc)
  simp [hNoQuery, hNoFragment]

/-- Asked for without any headers, a path is answered with the bytes. -/
def Serves (s : Site) (t : FileTree) (cwd : Place) (path : String) (content : List UInt8) : Prop :=
  (s.handle t cwd (.make "GET" path)).status = 200 ∧ (s.handle t cwd (.make "GET" path)).body = content

theorem serveFile_make (path name : String) (content : List UInt8) (modified : Int) :
    (serveFile (.make "GET" path) name content modified).status = 200 ∧
      (serveFile (.make "GET" path) name content modified).body = content := ⟨rfl, rfl⟩

theorem serves_of_namesFile {path : String} {place : Place}
    (h : (make root url ext).NamesFile t cwd (barePath path) place content modified) :
    (make root url ext).Serves t cwd path content := by
  have hHandle := NamesFile.handle_eq (r := .make "GET" path) h (Or.inl rfl)
  rw [Serves, hHandle]
  exact serveFile_make path _ content modified

/-- The address of a build is not that of the list of builds. -/
theorem address_not_isHome (hLength : 3 ≤ name.length) :
    ¬(make root url ext).IsHome (url ++ Text.percentEncode name) := by
  have hBase := length_normalBase_le url
  have hEncoded := Text.length_le_percentEncode name
  rintro (hHome | ⟨-, hHome⟩)
  · have hSame := congrArg String.length hHome
    rw [String.length_append, make_base] at hSame
    omega
  · have hSame := congrArg String.length hHome
    rw [String.length_append, String.length_append, make_base] at hSame
    omega

theorem barePath_address (hQuery : '?' ∉ url.toList) (hFragment : '#' ∉ url.toList) (name : String) :
    barePath (url ++ Text.percentEncode name) = url ++ Text.percentEncode name := by
  refine barePath_eq_self ?_ ?_
  · rw [String.toList_append, List.mem_append]
    exact fun h => h.elim hQuery (Text.notMem_percentEncode (by decide) (by decide) name)
  · rw [String.toList_append, List.mem_append]
    exact fun h => h.elim hFragment (Text.notMem_percentEncode (by decide) (by decide) name)

/-- An address is served only below the prefix of the site. -/
theorem prefix_of_isServed (hLength : 3 ≤ name.length) (hQuery : '?' ∉ url.toList)
    (hFragment : '#' ∉ url.toList)
    (hServed : IsServed
      ((make root url ext).handle t cwd (.make "GET" (url ++ Text.percentEncode name)))) :
    root ≠ "" ∧ (normalBase url).toList <+: url.toList := by
  have hPath := barePath_address hQuery hFragment name
  have hElsewhere : ¬(make root url ext).IsHome
      (barePath (Request.make "GET" (url ++ Text.percentEncode name)).path) := by
    rw [Request.make, hPath]
    exact address_not_isHome hLength
  obtain ⟨place, content, modified, rest, relative, hBehind, -, hLies, -⟩ :=
    exists_namesFile (Or.inl rfl) hElsewhere hServed
  obtain ⟨folder, hLocates, -⟩ := hLies.leads
  refine ⟨hLocates.1, ?_⟩
  rw [Request.make, hPath, make_base] at hBehind
  have hPrefix : (normalBase url).toList <+: url.toList ++ (Text.percentEncode name).toList := by
    rw [← String.toList_append, hBehind, String.toList_append]
    exact List.prefix_append _ _
  obtain ⟨front, hFront⟩ := exists_normalBase_eq_concat url
  rw [hFront] at hPrefix ⊢
  exact prefix_of_prefix_append (Text.notMem_percentEncode (by decide) (by decide) name) hPrefix

/-- The address of a build in a folder that is in order is served as this build exactly when the prefix in it
is in the form of the site, up to slashes at its end. No path is served when the folder is not named. -/
theorem serves_address_iff (h : Build.Orderly t cwd root base)
    (hFile : t.listing base name = some (.file content modified)) (hLength : 3 ≤ name.length)
    (hQuery : '?' ∉ url.toList) (hFragment : '#' ∉ url.toList) :
    (make root url ext).Serves t cwd (url ++ Text.percentEncode name) content ↔
      root ≠ "" ∧ (normalBase url).toList <+: url.toList := by
  constructor
  · rintro ⟨hOk, -⟩
    exact prefix_of_isServed hLength hQuery hFragment (Or.inl hOk)
  · rintro ⟨hRoot, hPrefix⟩
    obtain ⟨k, hUrl⟩ := exists_slashes hPrefix
    refine serves_of_namesFile ⟨String.ofList (List.replicate k '/') ++ Text.percentEncode name, _, ?_, ?_,
      h.leadsTo.liesUnder hRoot (h.ordinary _ _ hFile) hFile k, hFile⟩
    · rw [barePath_address hQuery hFragment, make_base, ← String.append_assoc, ← hUrl]
    · refine Text.percentDecode?_append ?_ name
      rw [String.toList_ofList]
      exact fun hPercent => absurd (List.eq_of_mem_replicate hPercent) (by decide)

end Site

end Server

end Phrasebook
