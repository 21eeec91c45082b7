import Mathlib.Data.List.Basic
import Phrasebook.Env.Lenient
import Phrasebook.Proofs.Env.Strict
import Phrasebook.Proofs.Env.Values
import Phrasebook.Proofs.Text.Canonical
import Phrasebook.Proofs.Text.Ends
import Phrasebook.Proofs.Text.Search

/-!
The two readings of an environment file against each other. The lenient one takes a line for what the strict one
takes it for when its value has one of the plain forms, and it does so whatever the other lines of the file are.
-/

namespace Phrasebook.Env

variable {line key value : String} {cs head rest text meaning : List Char}

/-- The known variables are words that are not "export" and have nothing in them that a line could end in. -/
theorem visible_of_mem (hKey : key ∈ Settings.variableNames) :
    (key.toList ≠ [] ∧ key.toList.head? ≠ some 'e') ∧
      ∀ c ∈ key.toList, Text.isBlank c = false ∧ c ≠ '=' ∧ LineState.IsPlain c := by
  have hAll : ∀ name ∈ Settings.variableNames, (name.toList ≠ [] ∧ name.toList.head? ≠ some 'e') ∧
      ∀ c ∈ name.toList, Text.isBlank c = false ∧ c ≠ '=' ∧ c ≠ '\\' ∧ c ≠ '"' ∧ c ≠ '\'' ∧ c ≠ '#' := by
    simp [Settings.variableNames, Text.isBlank]
  exact hAll key hKey

theorem exists_cons_of_mem (hKey : key ∈ Settings.variableNames) :
    ∃ c more, key.toList = c :: more ∧ Text.isBlank c = false ∧ c ≠ '#' ∧ c ≠ 'e' := by
  obtain ⟨⟨hNe, hHead⟩, hAll⟩ := visible_of_mem hKey
  obtain ⟨c, more, hChars⟩ := List.exists_cons_of_ne_nil hNe
  obtain ⟨hVisible, -, -, -, -, hHash⟩ := hAll c (by rw [hChars]; exact List.mem_cons_self)
  exact ⟨c, more, hChars, hVisible, hHash, fun hEq => hHead (by rw [hChars, hEq]; rfl)⟩

theorem plain_of_isBlank {c : Char} (h : Text.isBlank c = true) : c ≠ '=' ∧ LineState.IsPlain c := by
  refine ⟨?_, ?_, ?_, ?_, ?_⟩ <;> rintro rfl <;> exact absurd h (by decide)

namespace IsHead

/-- No equality sign, quote, backslash or hash sign is in a head. -/
theorem plain (h : IsHead key head) (hKey : key ∈ Settings.variableNames) :
    ∀ c ∈ head, c ≠ '=' ∧ LineState.IsPlain c := by
  have hName : ∀ c ∈ key.toList, c ≠ '=' ∧ LineState.IsPlain c := fun c hc => ((visible_of_mem hKey).2 c hc).2
  have hWord : ∀ c ∈ "export".toList, c ≠ '=' ∧ c ≠ '\\' ∧ c ≠ '"' ∧ c ≠ '\'' ∧ c ≠ '#' := by simp
  cases h with
  | bare hPad => exact List.forall_mem_append.2 ⟨hName, fun c hc => plain_of_isBlank (hPad c hc)⟩
  | exported hGap hPad =>
      exact List.forall_mem_append.2 ⟨hWord, List.forall_mem_append.2 ⟨fun c hc => plain_of_isBlank (hGap c hc),
        List.forall_mem_append.2 ⟨hName, fun c hc => plain_of_isBlank (hPad c hc)⟩⟩⟩

theorem exists_cons (h : IsHead key head) (hKey : key ∈ Settings.variableNames) :
    ∃ c more, head = c :: more ∧ Text.isBlank c = false ∧ c ≠ '#' := by
  cases h with
  | bare hPad =>
      obtain ⟨c, more, hChars, hVisible, hHash, -⟩ := exists_cons_of_mem hKey
      exact ⟨c, more ++ _, by rw [hChars]; rfl, hVisible, hHash⟩
  | exported hGap hPad => exact ⟨'e', _, rfl, by decide, by decide⟩

/-- Behind the word "export" and a space, the key is left. -/
theorem exists_key (h : IsHead key head) (hKey : key ∈ Settings.variableNames)
    (hExport : "export".toList <+: head → "export ".toList <+: head) (text : List Char) :
    ∃ name, dropExport (String.ofList (head ++ '=' :: text)) = String.ofList (name ++ '=' :: text) ∧ '=' ∉ name ∧
      Text.trim (String.ofList name) = key := by
  have hEqual : '=' ∉ head := fun hMem => (h.plain hKey '=' hMem).1 rfl
  have hTrim : Text.trim key = key := Text.trim_eq_self fun c hc => ((visible_of_mem hKey).2 c hc).1
  have hText : (String.ofList (head ++ '=' :: text)).toList = head ++ '=' :: text := String.toList_ofList
  obtain ⟨c, more, hChars, hVisible, -, hWord⟩ := exists_cons_of_mem hKey
  cases h with
  | @bare pad hPad =>
      have hFront : Text.dropFront? "export ".toList (key.toList ++ pad ++ '=' :: text) = none := by
        rw [Text.dropFront?_eq_none_iff, hChars]
        intro hPrefix
        exact hWord (List.cons_prefix_cons.1 hPrefix).1.symm
      refine ⟨key.toList ++ pad, ?_, hEqual, ?_⟩
      · rw [dropExport, hText, hFront]
      · rw [← List.nil_append (key.toList ++ pad), Text.trim_append (by simp) hPad, hTrim]
  | @exported gap pad hGap hPad =>
      have hSpace : [' '] <+: gap ++ (key.toList ++ pad) :=
        (List.prefix_append_right_inj "export".toList).1 (hExport (List.prefix_append _ _))
      cases gap with
      | nil =>
          rw [List.nil_append, hChars] at hSpace
          rw [← (List.cons_prefix_cons.1 hSpace).1] at hVisible
          exact absurd hVisible (by decide)
      | cons d gap =>
          obtain rfl : ' ' = d := (List.cons_prefix_cons.1 hSpace).1
          have hFront : Text.dropFront? "export ".toList ("export".toList ++ (' ' :: gap ++ (key.toList ++ pad)) ++
              '=' :: text) = some (gap ++ (key.toList ++ pad) ++ '=' :: text) := Text.dropFront?_eq_some_iff.2 rfl
          refine ⟨gap ++ (key.toList ++ pad), ?_, ?_, ?_⟩
          · rw [dropExport, hText, hFront]
          · exact fun hMem => hEqual (List.mem_append_right _ (List.mem_cons_of_mem _ hMem))
          · rw [Text.trim_append (fun e he => hGap e (List.mem_cons_of_mem _ he)) hPad, hTrim]

end IsHead

theorem lenientLine?_eq (hHead : IsHead key head) (hKey : key ∈ Settings.variableNames)
    (hExport : "export".toList <+: head → "export ".toList <+: head)
    (hLine : (Text.trim line).toList = head ++ '=' :: text) :
    lenientLine? line = some (key, (unquote? (Text.trim (String.ofList text))).getD
      (dropComment (Text.trim (String.ofList text)))) := by
  obtain ⟨name, hDrop, hEqual, hName⟩ := hHead.exists_key hKey hExport text
  obtain ⟨c, more, rfl, -, hHash⟩ := hHead.exists_cons hKey
  have hTrimmed : Text.trim line = String.ofList (c :: more ++ '=' :: text) := by
    rw [← hLine, String.ofList_toList]
  have hNotComment : (Text.trim line).startsWith "#" = false := by
    rw [Bool.eq_false_iff, ne_eq, String.startsWith_string_iff, hLine]
    exact fun hPrefix => hHash (List.cons_prefix_cons.1 hPrefix).1.symm
  have hNotEmpty : (Text.trim line).isEmpty = false := by
    rw [hTrimmed]
    simp
  have hSplit : Text.splitOnce? '=' (dropExport (Text.trim line)) =
      some (String.ofList name, String.ofList text) := by
    rw [hTrimmed, hDrop, Text.splitOnce?, String.toList_ofList, Text.cutAt?_cons hEqual]
    rfl
  simp [lenientLine?, hNotEmpty, hNotComment, hSplit, hName, hKey]

/-- The trimmed line is what the strict reading keeps, or goes on with blanks and a comment. -/
theorem IsReadAs.trim_eq (h : IsReadAs line cs) {kept : List Char}
    (hKept : Text.trimLeft (Text.trimRight cs) = kept) (hNe : kept ≠ []) :
    (Text.trim line).toList = kept ∨ ∃ lead blanks more, (∀ c ∈ lead, Text.isBlank c = true) ∧ blanks ≠ [] ∧
      (∀ c ∈ blanks, Text.isBlank c = true) ∧ (Text.trim line).toList = kept ++ (blanks ++ '#' :: more) ∧
      (lead ++ (kept ++ blanks)).foldl LineState.step .plain = .blank := by
  have hTrim : (Text.trim line).toList = Text.trimRight (Text.trimLeft line.toList) := String.toList_ofList
  rcases h with hWhole | ⟨rest, hCut, hFold⟩
  · left
    rw [hTrim, ← Text.trimLeft_trimRight, ← hWhole, hKept]
  · right
    obtain ⟨lead, hLead, hFront⟩ := Text.exists_trimLeft cs
    obtain ⟨blanks, hBlanks, hBack⟩ := Text.exists_trimRight (Text.trimLeft cs)
    rw [Text.trimLeft_trimRight] at hKept
    rw [hKept] at hBack
    rw [hBack] at hFront
    refine ⟨lead, blanks, Text.trimRight rest, hLead, ?_, hBlanks, ?_, by rw [← hFront, hFold]⟩
    · -- The hash sign stands behind a blank, and none is at the end of what is kept.
      rintro rfl
      obtain ⟨front, b, hEnd, hBlank⟩ := LineState.exists_blank_of_foldl hFold
      obtain ⟨begin, last, rfl⟩ := (List.eq_nil_or_concat kept).resolve_left hNe
      rw [List.concat_eq_append] at hKept hFront
      rw [hFront, List.append_nil, ← List.append_assoc] at hEnd
      obtain rfl : last = b := (List.cons.inj (List.append_inj' hEnd rfl).2).1
      rw [Text.last_trimRight hKept] at hBlank
      exact Bool.false_ne_true hBlank
    · obtain ⟨c, more, rfl⟩ := List.exists_cons_of_ne_nil hNe
      have hVisible : Text.isBlank c = false := by
        rw [← Text.trimLeft_trimRight] at hKept
        exact Text.head_trimLeft hKept
      rw [hTrim, hCut, hFront, List.append_assoc, Text.trimLeft_append hLead, List.cons_append, List.cons_append,
        Text.trimLeft_cons hVisible, ← List.cons_append, ← List.cons_append,
        Text.trimRight_append_cons (by decide), List.append_assoc]

/-- Behind the equality sign of a line stands a comment, or nothing, or a value of which the strict reading keeps
what is behind the equality sign in the kept line. -/
theorem IsReadAs.exists_kept (h : IsReadAs line cs) (hHead : IsHead key head) (hKey : key ∈ Settings.variableNames)
    (hKept : Text.trimLeft (Text.trimRight cs) = head ++ '=' :: rest) :
    ∃ text, (Text.trim line).toList = head ++ '=' :: text ∧
      ((Text.trimLeft text).head? = some '#' ∨ (Text.trimLeft rest = [] ∧ Text.trimLeft text = []) ∨
        (Text.trimLeft rest ≠ [] ∧ IsKeptOf (Text.trimLeft rest) (Text.trimLeft text))) := by
  rcases h.trim_eq hKept (by simp) with hWhole | ⟨lead, blanks, more, hLead, hNe, hBlanks, hText, hFold⟩
  · refine ⟨rest, hWhole, Or.inr ?_⟩
    by_cases hRest : Text.trimLeft rest = []
    · exact Or.inl ⟨hRest, hRest⟩
    · exact Or.inr ⟨hRest, Or.inl rfl⟩
  · refine ⟨rest ++ (blanks ++ '#' :: more), by rw [hText, List.append_assoc, List.cons_append], ?_⟩
    obtain ⟨pad, hPad, hFront⟩ := Text.exists_trimLeft rest
    cases hValue : Text.trimLeft rest with
    | nil =>
        left
        rw [hFront, hValue, List.append_nil, Text.trimLeft_append hPad, Text.trimLeft_append hBlanks,
          Text.trimLeft_cons (by decide)]
        rfl
    | cons c value =>
        right; right
        have hOutside : ((lead ++ (head ++ '=' :: pad)).foldl LineState.step .plain).IsOutside := by
          refine LineState.IsOutside.foldl (Or.inl rfl) fun d hd => ?_
          simp only [List.mem_append, List.mem_cons] at hd
          rcases hd with hd | hd | rfl | hd
          · exact (plain_of_isBlank (hLead d hd)).2
          · exact (hHead.plain hKey d hd).2
          · exact ⟨by decide, by decide, by decide, by decide⟩
          · exact (plain_of_isBlank (hPad d hd)).2
        refine ⟨List.cons_ne_nil _ _, Or.inr ⟨_, blanks, more, hOutside, hNe, hBlanks, ?_, ?_⟩⟩
        · rw [hFront, hValue, List.append_assoc, Text.trimLeft_append hPad, List.cons_append,
            Text.trimLeft_cons (Text.head_trimLeft hValue)]
        · rw [hFront, hValue] at hFold
          rw [← List.foldl_append, ← hFold]
          simp only [List.append_assoc, List.cons_append]

/-- A line whose value has one of the plain forms, with a space behind the word "export" if it begins so. -/
def IsPlainLine (line : String) : Prop :=
  ∃ head text meaning, (Text.trim line).toList = head ++ '=' :: text ∧ '=' ∉ head ∧
    ("export".toList <+: head → "export ".toList <+: head) ∧ Denotes (Text.trimLeft text) meaning

theorem lenientLine?_of_assigns (hFeed : '\n' ∉ line.toList) (hDollar : '$' ∉ line.toList)
    (hBackslash : '\\' ∉ line.toList) (hKey : key ∈ Settings.variableNames) (h : Assigns line key value)
    (hPlain : IsPlainLine line) :
    lenientLine? line = some (key, value) := by
  obtain ⟨cs, v, hRead, hStatement, rfl⟩ := h.exists_statement hFeed
  obtain ⟨rest, hAssignment, hValue⟩ := readLine_eq_assignment hStatement
  obtain ⟨head, hKept, hHead⟩ := readAssignment_eq_some hAssignment
  obtain ⟨text, hLine, hText⟩ := hRead.exists_kept hHead hKey hKept
  obtain ⟨head', text', meaning, hLine', hEqual, hExport, hDenotes⟩ := hPlain
  -- Both descriptions cut the line at its first equality sign.
  have hEqual' : '=' ∉ head := fun hMem => (hHead.plain hKey '=' hMem).1 rfl
  obtain ⟨rfl, rfl⟩ : head' = head ∧ text' = text := by
    have hCut := Text.cutAt?_cons hEqual text'
    rw [← hLine', hLine, Text.cutAt?_cons hEqual'] at hCut
    exact Prod.mk.inj (Option.some.inj hCut.symm)
  have hTrim : Text.trim (String.ofList text') = String.ofList (Text.trimLeft text') := by
    have hEnd : Text.trimRight text' = text' :=
      Text.trimRight_of_trimRight (by decide) (String.toList_ofList.symm.trans hLine)
    rw [Text.trim, String.toList_ofList, ← Text.trimLeft_trimRight, hEnd]
  have hMem : ∀ c ∈ Text.trimLeft text', c ≠ '$' ∧ c ≠ '\\' := fun c hc => by
    have hIn : c ∈ line.toList := by
      refine Text.mem_of_mem_trim ?_
      rw [hLine]
      exact List.mem_append_right _ (List.mem_cons_of_mem _ ((List.dropWhile_sublist _).subset hc))
    exact ⟨fun hEq => hDollar (hEq ▸ hIn), fun hEq => hBackslash (hEq ▸ hIn)⟩
  rw [lenientLine?_eq hHead hKey hExport hLine, hTrim, hDenotes.lenient]
  have hTrimmed : Text.trimRight (Text.trimLeft rest) = Text.trimLeft rest := by
    rw [← Text.trimLeft_trimRight, Text.trimRight_of_trimRight (by decide) (Text.trimLeft_trimRight cs ▸ hKept)]
  rw [hDenotes.value_eq hMem hTrimmed (hText.resolve_left hDenotes.head_ne) hValue]

theorem lenientLine?_congr {shown : String} (h : Text.trim shown = Text.trim line) :
    lenientLine? shown = lenientLine? line := by
  unfold lenientLine?
  rw [h]

/-- Every line of a file is read for itself. -/
theorem filterMap_lines {all : List String} (h : ∀ line ∈ all, '\n' ∉ line.toList) :
    (Text.lines ("\n".intercalate all)).filterMap lenientLine? = all.filterMap lenientLine? := by
  induction all with
  | nil => rfl
  | cons line more ih =>
      rw [List.forall_mem_cons] at h
      cases more with
      | nil =>
          have hAll := Text.linesFrom_append h.1 [] []
          rw [List.append_nil, List.append_nil] at hAll
          rw [String.intercalate_singleton, Text.lines, hAll, Text.linesFrom]
          split
          next hEmpty =>
            have hLine : line = "" := by simpa using hEmpty
            rw [hLine]
            rfl
          next => rw [List.reverse_reverse, String.ofList_toList]
      | cons next more =>
          have hChars : ("\n".intercalate (line :: next :: more)).toList =
              line.toList ++ '\n' :: ("\n".intercalate (next :: more)).toList := by
            rw [String.intercalate_cons_cons, String.toList_append, String.toList_append, List.append_assoc]
            rfl
          obtain ⟨shown, hShown, hTrim⟩ := Text.exists_linesFrom h.1 ("\n".intercalate (next :: more)).toList
          rw [Text.lines, hChars, hShown, List.filterMap_cons, lenientLine?_congr hTrim, ← Text.lines, ih h.2,
            List.filterMap_cons (a := line)]

/-- Where the strict reading takes a plain line for an assignment of a known variable, the lenient one takes it for
the same assignment, and it does so in every file, whatever stands on the other lines. -/
theorem readings_agree (hFeed : '\n' ∉ line.toList) (hDollar : '$' ∉ line.toList)
    (hBackslash : '\\' ∉ line.toList) (hKey : key ∈ Settings.variableNames) (h : Assigns line key value)
    (hPlain : IsPlainLine line) :
    lenientLine? line = some (key, value) ∧
      ∀ before after : List String, (∀ other ∈ before ++ after, '\n' ∉ other.toList) →
        (Text.lines ("\n".intercalate (before ++ line :: after))).filterMap lenientLine? =
          before.filterMap lenientLine? ++ (key, value) :: after.filterMap lenientLine? := by
  have hLine := lenientLine?_of_assigns hFeed hDollar hBackslash hKey h hPlain
  refine ⟨hLine, fun before after hOthers => ?_⟩
  have hAll : ∀ other ∈ before ++ line :: after, '\n' ∉ other.toList := by
    rw [List.forall_mem_append] at hOthers
    exact List.forall_mem_append.2 ⟨hOthers.1, List.forall_mem_cons.2 ⟨hFeed, hOthers.2⟩⟩
  rw [filterMap_lines hAll, List.filterMap_append, List.filterMap_cons, hLine]

/-- An address with spaces around its equality sign and a comment behind it. -/
def publicAddress : String := "export BIND_ADDR = 0.0.0.0:9000  # public"

theorem publicAddress_isPlainLine : IsPlainLine publicAddress := by
  have hWord : IsWord "0.0.0.0:9000".toList := ⟨by decide, by decide, by simp [Text.isBlank], by simp, by decide⟩
  have hGap : IsGap [' ', ' '] := ⟨by simp, by decide⟩
  exact ⟨"export BIND_ADDR ".toList, " 0.0.0.0:9000  # public".toList, "0.0.0.0:9000".toList, by decide, by decide,
    fun _ => by decide, Denotes.commented hWord hGap " public".toList⟩

theorem publicAddress_agrees : Assigns publicAddress "BIND_ADDR" "0.0.0.0:9000" ∧
    (Text.lines ("\n".intercalate ["```", publicAddress, "BUILD_ROOT=/srv"])).filterMap lenientLine? =
      [("BIND_ADDR", "0.0.0.0:9000"), ("BUILD_ROOT", "/srv")] := by
  have hAssigns : Assigns publicAddress "BIND_ADDR" "0.0.0.0:9000" := by decide +kernel
  have hFile := (readings_agree (by decide) (by decide) (by decide) (by decide) hAssigns publicAddress_isPlainLine).2
    ["```"] ["BUILD_ROOT=/srv"] (by decide)
  exact ⟨hAssigns, hFile.trans (by decide +kernel)⟩

/-- Lines for a folder of packs that are not plain, with the strict value and the lenient assignment: a comment
behind a quotation, a quotation that is a part of a value only, a hash sign right behind the equality sign, a comment
behind a tab or a no-break space, a no-break space at the end of a value in front of a comment, and "export" in front
of a tab. -/
def oddFolders : List (String × String × Option (String × String)) :=
  [("BUILD_URL='/packs/' # public", "/packs/", some ("BUILD_URL", "'/packs/'")),
    ("BUILD_URL=/packs/\"v 1\"/", "/packs/v 1/", some ("BUILD_URL", "/packs/\"v 1\"/")),
    ("BUILD_URL=#packs", "", some ("BUILD_URL", "#packs")),
    ("BUILD_URL=/packs/\t# public", "/packs/", some ("BUILD_URL", "/packs/\t# public")),
    ("BUILD_URL=/packs/\u00a0# public", "/packs/", some ("BUILD_URL", "/packs/\u00a0# public")),
    ("BUILD_URL=/packs/\u00a0 # public", "/packs/\u00a0", some ("BUILD_URL", "/packs/")),
    ("export\tBUILD_URL=/packs/", "/packs/", none)]

/-- The lenient reading takes other lines for something else than the strict one does, although they have neither a
dollar sign nor a backslash in them. -/
theorem readings_differ : "BUILD_URL" ∈ Settings.variableNames ∧ ∀ entry ∈ oddFolders,
    ('\n' ∉ entry.1.toList ∧ '$' ∉ entry.1.toList ∧ '\\' ∉ entry.1.toList) ∧
      Assigns entry.1 "BUILD_URL" entry.2.1 ∧ lenientLine? entry.1 = entry.2.2 ∧
      entry.2.2 ≠ some ("BUILD_URL", entry.2.1) := by
  decide +kernel

end Phrasebook.Env
