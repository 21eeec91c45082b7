import Phrasebook.Proofs.Calendar.HttpDate
import Phrasebook.Proofs.Server.Served
import Phrasebook.Proofs.Text.Search

/-!
Answers to clients that have a file already. The mark of a file tells its second and its size, and its date
is read back to the second, so that a client that sends one of them gets the file exactly when it has
changed. The mark comes before the date.
-/

namespace Phrasebook.Server

/-- The characters of a mark: those of a number, the line between the numbers and the quotes. -/
theorem mem_etag {modified size : Nat} {c : Char} (h : c ∈ (etag modified size).toList) :
    (∃ d < 16, c = Text.digitChar d) ∨ c = '-' ∨ c = '"' := by
  have hHex : ∀ n : Nat, c ∈ Text.digitsFrom 16 n [] → ∃ d < 16, c = Text.digitChar d := fun n =>
    Text.exists_of_mem_digitsFrom (by decide)
  simp only [etag, Text.hex, String.toList_append, String.toList_ofList, List.mem_append] at h
  rcases h with (((h | h) | h) | h) | h
  · exact Or.inr (Or.inr (List.mem_singleton.1 h))
  · exact Or.inl (hHex modified h)
  · exact Or.inr (Or.inl (List.mem_singleton.1 h))
  · exact Or.inl (hHex size h)
  · exact Or.inr (Or.inr (List.mem_singleton.1 h))

/-- Neither a comma nor a blank is in a mark. -/
theorem comma_notMem_etag (modified size : Nat) : ',' ∉ (etag modified size).toList := by
  have hDigit : ∀ d < 16, ',' ≠ Text.digitChar d := by decide
  intro h
  rcases mem_etag h with ⟨d, hLt, hSame⟩ | h | h
  · exact hDigit d hLt hSame
  · exact absurd h (by decide)
  · exact absurd h (by decide)

theorem trim_etag (modified size : Nat) : Text.trim (etag modified size) = etag modified size := by
  have hDigit : ∀ d < 16, Text.isBlank (Text.digitChar d) = false := by decide
  refine Text.trim_eq_self fun c h => ?_
  rcases mem_etag h with ⟨d, hLt, rfl⟩ | rfl | rfl
  · exact hDigit d hLt
  · decide
  · decide

theorem etag_ne_star (modified size : Nat) : etag modified size ≠ "*" := by
  intro hSame
  have hHead := congrArg (fun s : String => s.toList.head?) hSame
  simp [etag] at hHead

/-- Files of another second or size have another mark. -/
theorem etag_inj {modified size modified' size' : Nat} (h : etag modified size = etag modified' size') :
    modified = modified' ∧ size = size' := by
  have hDigit : ∀ d < 16, '-' ≠ Text.digitChar d := by decide
  have hLine : ∀ n : Nat, '-' ∉ (Text.hex n).toList := fun n hMem => by
    rw [Text.hex, String.toList_ofList] at hMem
    obtain ⟨d, hLt, hSame⟩ := Text.exists_of_mem_digitsFrom (by decide) hMem
    exact hDigit d hLt hSame
  -- The line between the numbers is the only one, so the marks are cut at the same place.
  have hChars := congrArg String.toList h
  simp only [etag, String.toList_append, List.append_assoc] at hChars
  have hInner := List.append_cancel_left hChars
  obtain ⟨hModified, -, hSize⟩ := (List.append_cons_inj_of_notMem (hLine modified) (by
    simpa using hLine size)).1 hInner
  exact ⟨Text.hex_injective (String.toList_inj.1 hModified),
    Text.hex_injective (String.toList_inj.1 (List.append_cancel_right hSize))⟩

/-- A list of marks, between commas and with blanks around them, that has a given mark or the star, which
stands for every mark. -/
def Lists (tags tag : String) : Prop :=
  ∃ items : List String, tags = ",".intercalate items ∧
    ∃ item ∈ items, Text.trim item = tag ∨ Text.trim item = "*"

/-- An item that is no list itself is among the parts of the list. -/
theorem mem_splitAll_intercalate {items : List String} {item : String} (hMem : item ∈ items)
    (hComma : ',' ∉ (Text.trim item).toList) : item ∈ Text.splitAll ',' (",".intercalate items) := by
  have hPlain : ∀ c ∈ item.toList, (c == ',') = false := by
    intro c hc
    refine beq_eq_false_iff_ne.2 ?_
    rintro rfl
    exact hComma (Text.mem_trim hc (by decide))
  rw [Text.splitAll, String.toList_intercalate, List.mem_map]
  exact ⟨item.toList, Text.mem_splitList_intercalate (by decide) (List.mem_map_of_mem hMem) hPlain,
    String.ofList_toList⟩

namespace Site

variable {s : Site} {t t' : FileTree} {cwd cwd' place place' : Place} {r q : Request} {tag tags : String}
  {content content' : List UInt8} {modified modified' : Int} {name root base ext : String} {seconds : Nat}

theorem isCurrent_of_tags (hTags : r.header? "if-none-match" = some tags) :
    isCurrent r tag seconds = true ↔
      ∃ item ∈ Text.splitAll ',' tags, Text.trim item = tag ∨ Text.trim item = "*" := by
  simp [isCurrent, hTags]

theorem isCurrent_of_lists {m n : Nat} (hTags : r.header? "if-none-match" = some tags)
    (hLists : Lists tags (etag m n)) : isCurrent r (etag m n) seconds = true := by
  obtain ⟨items, rfl, item, hMem, hItem⟩ := hLists
  refine (isCurrent_of_tags hTags).2 ⟨item, mem_splitAll_intercalate hMem ?_, hItem⟩
  rcases hItem with hItem | hItem
  · rw [hItem]
    exact comma_notMem_etag m n
  · rw [hItem]
    decide

/-- One mark alone is that of one second and size. -/
theorem isCurrent_of_etag {m n m' n' : Nat} (hTag : r.header? "if-none-match" = some (etag m n)) :
    isCurrent r (etag m' n') seconds = true ↔ m = m' ∧ n = n' := by
  have hAlone : Text.splitAll ',' (etag m n) = [etag m n] := by
    rw [Text.splitAll, Text.splitList_of_none, List.map_singleton, String.ofList_toList]
    intro c hc
    refine beq_eq_false_iff_ne.2 ?_
    rintro rfl
    exact comma_notMem_etag m n hc
  rw [isCurrent_of_tags hTag, hAlone]
  simp only [List.mem_singleton, exists_eq_left, trim_etag, etag_ne_star, or_false]
  constructor
  · exact etag_inj
  · rintro ⟨rfl, rfl⟩
    rfl

theorem isCurrent_of_httpDate {since : Int} (hNoTags : r.header? "if-none-match" = none)
    (hDate : r.header? "if-modified-since" = some (Calendar.httpDate since))
    (hYear : Calendar.HasFourDigitYear since) :
    isCurrent r tag seconds = true ↔ (seconds : Int) ≤ since := by
  simp [isCurrent, hNoTags, hDate, Calendar.parseHttpDate?_httpDate hYear]

/-- The client is told that it has the file, which is not sent. -/
def IsNotModified (a : Response) : Prop := a.status = 304 ∧ a.body = []

/-- An answer with a file has its mark and its date behind the headers that all answers have. -/
theorem headers_serveFile (r : Request) (name : String) (content : List UInt8) (modified : Int) :
    ∃ more, (serveFile r name content modified).headers =
      (Response.ofStatus 200).headers ++ ("ETag", etag modified.toNat content.length) ::
        ("Last-Modified", Calendar.httpDate modified.toNat) :: more := by
  unfold serveFile
  dsimp only
  split
  · exact ⟨[], rfl⟩
  · exact ⟨[("Content-Type", contentType name)], rfl⟩

theorem header?_serveFile (r : Request) (name : String) (content : List UInt8) (modified : Int) :
    (serveFile r name content modified).header? "ETag" = some (etag modified.toNat content.length) ∧
      (serveFile r name content modified).header? "Last-Modified" =
        some (Calendar.httpDate modified.toNat) := by
  obtain ⟨more, hHeaders⟩ := headers_serveFile r name content modified
  have hOther : ∀ name ∈ ["Access-Control-Allow-Origin", "Cache-Control"], ∀ other ∈ ["ETag", "Last-Modified"],
      (Text.lowerAscii name == Text.lowerAscii other) = false := by decide
  have hBoth : (Text.lowerAscii "ETag" == Text.lowerAscii "Last-Modified") = false := by decide
  constructor
  all_goals
    rw [Response.header?, hHeaders]
    simp [Response.ofStatus, hOther, hBoth]

theorem serveFile_isNotModified
    (h : isCurrent r (etag modified.toNat content.length) modified.toNat = true) :
    IsNotModified (serveFile r name content modified) := by
  unfold serveFile
  simp only [modifiedSeconds, h]
  exact ⟨rfl, rfl⟩

theorem status_serveFile
    (h : ¬isCurrent r (etag modified.toNat content.length) modified.toNat = true) :
    (serveFile r name content modified).status = 200 := by
  unfold serveFile
  simp only [modifiedSeconds, h]
  rfl

/-- Requests for a file whose second and size tell whether a client has it already. An answer gives a mark
and a date. As long as the second and the size of the file stay, a client that sends a list with this mark
or the star has the file, and so has one that sends no marks but this date or a later one, while one that
sends an earlier date gets the file. When the second or the size has changed, the mark alone is no longer
enough. -/
theorem conditional_get (hRead : IsRead r)
    (hNames : (make root base ext).NamesFile t cwd (barePath r.path) place content modified)
    (hEpoch : 0 ≤ modified) (hYear : Calendar.HasFourDigitYear modified) :
    ∃ tag date, ((make root base ext).handle t cwd r).header? "ETag" = some tag ∧
      ((make root base ext).handle t cwd r).header? "Last-Modified" = some date ∧
      ∀ (q : Request) (t' : FileTree) (place' : Place) (content' : List UInt8) (modified' : Int),
        IsRead q → barePath q.path = barePath r.path →
        (make root base ext).NamesFile t' cwd (barePath q.path) place' content' modified' →
        (modified' = modified ∧ content'.length = content.length →
          (∀ tags, q.header? "if-none-match" = some tags → Lists tags tag →
            IsNotModified ((make root base ext).handle t' cwd q)) ∧
          (q.header? "if-none-match" = none →
            (q.header? "if-modified-since" = some date →
              IsNotModified ((make root base ext).handle t' cwd q)) ∧
            ∀ since, Calendar.HasFourDigitYear since →
              q.header? "if-modified-since" = some (Calendar.httpDate since) →
              (modified < since → IsNotModified ((make root base ext).handle t' cwd q)) ∧
              (since < modified → ((make root base ext).handle t' cwd q).status = 200))) ∧
        (0 ≤ modified' ∧ modified' ≠ modified ∨ content'.length ≠ content.length →
          q.header? "if-none-match" = some tag →
            ((make root base ext).handle t' cwd q).status = 200) := by
  have hSecond : (modified.toNat : Int) = modified := Int.toNat_of_nonneg hEpoch
  obtain ⟨hTag, hDate⟩ := header?_serveFile r (place.getLast?.getD "") content modified
  rw [hNames.handle_eq hRead]
  refine ⟨_, _, hTag, hDate, fun q t' place' content' modified' hRead' hPath hNames' => ?_⟩
  rw [hNames'.handle_eq hRead']
  constructor
  · rintro ⟨rfl, hSize⟩
    constructor
    · intro tags hTags hLists
      refine serveFile_isNotModified ?_
      rw [hSize]
      exact isCurrent_of_lists hTags hLists
    · intro hNoTags
      rw [hSecond]
      constructor
      · intro hDate'
        refine serveFile_isNotModified ((isCurrent_of_httpDate hNoTags hDate' hYear).2 ?_)
        exact hSecond.le
      · intro since hSince hDate'
        have hCurrent : isCurrent q (etag modified'.toNat content'.length) modified'.toNat = true ↔
            modified' ≤ since := by
          rw [isCurrent_of_httpDate hNoTags hDate' hSince, hSecond]
        constructor
        · intro hLater
          exact serveFile_isNotModified (hCurrent.2 hLater.le)
        · intro hEarlier
          exact status_serveFile fun h => absurd (hCurrent.1 h) (not_le.2 hEarlier)
  · intro hChanged hTag'
    refine status_serveFile fun h => ?_
    obtain ⟨hModified, hSize⟩ := (isCurrent_of_etag hTag').1 h
    omega

/-- A client that lists the mark of a file behind another one is told that it has the file. -/
theorem publicFolder_notModified :
    ((make "srv" "build" "dot").handle publicFolder [] askHere).header? "ETag" = some "\"0-2\"" ∧
      IsNotModified ((make "srv" "build" "dot").handle publicFolder []
        (askHere.withHeader "If-None-Match" "\"0-0\", \"0-2\"")) := by
  have hRead : IsRead askHere := Or.inl rfl
  have hMark : etag (0 : Int).toNat ([123, 125] : List UInt8).length = "\"0-2\"" := by decide +kernel
  have hTag : ((make "srv" "build" "dot").handle publicFolder [] askHere).header? "ETag" =
      some "\"0-2\"" := by
    rw [askHere_namesFile.handle_eq hRead, (header?_serveFile _ _ _ _).1, hMark]
  obtain ⟨tag, date, hTag', -, hAnswers⟩ :=
    conditional_get hRead askHere_namesFile le_rfl ⟨by decide, by decide⟩
  obtain rfl := Option.some.inj (hTag.symm.trans hTag')
  have hFile := hAnswers (askHere.withHeader "If-None-Match" "\"0-0\", \"0-2\"") publicFolder _ _ _
    (Or.inl rfl) rfl askHere_namesFile
  refine ⟨hTag, (hFile.1 ⟨rfl, rfl⟩).1 "\"0-0\", \"0-2\"" (by decide) ?_⟩
  exact ⟨["\"0-0\"", " \"0-2\""], by decide, " \"0-2\"", by decide, Or.inl (by decide)⟩

end Site

end Phrasebook.Server
