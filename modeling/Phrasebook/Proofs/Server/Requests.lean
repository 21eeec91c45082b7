import Phrasebook.Proofs.Text.Bytes
import Phrasebook.Proofs.Text.Canonical
import Phrasebook.Proofs.Text.Percent
import Phrasebook.Proofs.Text.Search
import Phrasebook.Server.Request

/-!
Requests on the wire. A request that is written line by line is read back, whichever line ends it is written
with and whatever comes behind its empty line.
-/

namespace Phrasebook

namespace Text

theorem wordsFrom_append {front : List Char} (hPlain : ∀ c ∈ front, isBlank c = false) {blank : Char}
    (hBlank : isBlank blank = true) (word rest : List Char) (hNe : word ≠ [] ∨ front ≠ []) :
    wordsFrom word (front ++ blank :: rest) = String.ofList (word.reverse ++ front) :: wordsFrom [] rest := by
  induction front generalizing word with
  | nil =>
      have hWord : word ≠ [] := hNe.resolve_right fun hNil => hNil rfl
      rw [List.nil_append, wordsFrom, if_pos hBlank, if_neg (by simpa using hWord), List.append_nil]
  | cons c front ih =>
      rw [List.forall_mem_cons] at hPlain
      rw [List.cons_append, wordsFrom, if_neg (by simp [hPlain.1]),
        ih hPlain.2 (c :: word) (Or.inl (List.cons_ne_nil _ _))]
      simp

end Text

namespace Server.Request

inductive LineEnd where
  | feed
  | returnFeed
  deriving DecidableEq, Repr

def LineEnd.text : LineEnd → String
  | feed => "\n"
  | returnFeed => "\r\n"

/-- Lines one after the other, each with an end of its own. -/
def writeLines : (Nat → LineEnd) → List String → List UInt8
  | _, [] => []
  | ends, line :: more => Text.utf8 (line ++ (ends 0).text) ++ writeLines (fun i => ends (i + 1)) more

def headerLine (h : String × String) : String := h.1 ++ ": " ++ h.2

/-- A request as it is written: a line with method and path, one for each header, and an empty one. -/
def written (r : Request) (ends : Nat → LineEnd) : List UInt8 :=
  writeLines ends ((r.method ++ " " ++ r.path ++ " HTTP/1.1") :: (r.headers.map headerLine ++ [""]))

/-- A header that fits one line. -/
structure IsHeader (h : String × String) : Prop where
  lower : Text.lowerAscii h.1 = h.1
  trimmed : Text.trim h.1 = h.1 ∧ Text.trim h.2 = h.2
  colon : ':' ∉ h.1.toList
  feed : '\n' ∉ h.1.toList ∧ '\n' ∉ h.2.toList

instance (h : String × String) : Decidable (IsHeader h) :=
  decidable_of_iff (Text.lowerAscii h.1 = h.1 ∧ (Text.trim h.1 = h.1 ∧ Text.trim h.2 = h.2) ∧
      ':' ∉ h.1.toList ∧ '\n' ∉ h.1.toList ∧ '\n' ∉ h.2.toList)
    ⟨fun ⟨hLower, hTrimmed, hColon, hFeed⟩ => ⟨hLower, hTrimmed, hColon, hFeed⟩,
      fun h => ⟨h.lower, h.trimmed, h.colon, h.feed⟩⟩

/-- A word without blanks. -/
structure IsWord (s : String) : Prop where
  ne_empty : s ≠ ""
  plain : ∀ c ∈ s.toList, Text.isBlank c = false

instance (s : String) : Decidable (IsWord s) :=
  decidable_of_iff (s ≠ "" ∧ s.toList.all (fun c => !Text.isBlank c) = true)
    ⟨fun ⟨hNe, hPlain⟩ => ⟨hNe, fun c hc => by simpa using List.all_eq_true.1 hPlain c hc⟩,
      fun h => ⟨h.ne_empty, List.all_eq_true.2 fun c hc => by simpa using h.plain c hc⟩⟩

/-- A request that can be written. -/
structure IsWritable (r : Request) : Prop where
  method : IsWord r.method
  path : IsWord r.path
  count : r.headers.length ≤ headerLimit
  headers : ∀ h ∈ r.headers, IsHeader h
  distinct : (r.headers.map Prod.fst).Nodup

instance (r : Request) : Decidable (IsWritable r) :=
  decidable_of_iff (IsWord r.method ∧ IsWord r.path ∧ r.headers.length ≤ headerLimit ∧
      (∀ h ∈ r.headers, IsHeader h) ∧ (r.headers.map Prod.fst).Nodup)
    ⟨fun ⟨hMethod, hPath, hCount, hHeaders, hDistinct⟩ => ⟨hMethod, hPath, hCount, hHeaders, hDistinct⟩,
      fun h => ⟨h.method, h.path, h.count, h.headers, h.distinct⟩⟩

variable {r : Request} {ends : Nat → LineEnd} {rest : List UInt8}

theorem LineEnd.isBlank_text (e : LineEnd) : ∀ c ∈ e.text.toList, Text.isBlank c = true := by
  cases e <;> simp [LineEnd.text, Text.isBlank]

theorem readLine_append {line : String} (h : '\n' ∉ line.toList) (e : LineEnd) (rest : List UInt8) :
    readLine (Text.utf8 (line ++ e.text) ++ rest) = some (line ++ e.text, rest) := by
  obtain ⟨front, hFront, hFeed⟩ : ∃ front : String, line ++ e.text = front ++ "\n" ∧ '\n' ∉ front.toList := by
    cases e with
    | feed => exact ⟨line, rfl, h⟩
    | returnFeed =>
        refine ⟨line ++ "\r", by rw [String.append_assoc]; rfl, ?_⟩
        rw [String.toList_append, List.mem_append]
        exact fun hMem => hMem.elim h (by decide)
  have hNone : ∀ b ∈ Text.utf8 front, decide (b ≠ 10) = true := by
    intro b hb
    have hOther : b ≠ 10 := by
      rintro rfl
      exact Text.byte_notMem_utf8 rfl (by decide) hFeed hb
    simpa using hOther
  have hBytes : Text.utf8 (front ++ "\n") ++ rest = Text.utf8 front ++ 10 :: rest := by
    rw [Text.utf8_append, List.append_assoc]
    rfl
  have hLine : (Text.utf8 front ++ 10 :: rest).takeWhile (fun b => decide (b ≠ 10)) = Text.utf8 front := by
    rw [List.takeWhile_append_of_pos hNone, List.takeWhile_cons_of_neg (by simp), List.append_nil]
  have hText : Text.utf8 front ++ [10] = Text.utf8 (front ++ "\n") := by
    rw [Text.utf8_append]
    rfl
  rw [hFront, hBytes, readLine, hLine, List.drop_left]
  simp only [List.take_succ_cons, List.take_zero, List.drop_succ_cons, List.drop_zero]
  rw [hText, Text.ofUtf8?_utf8, Option.map_some]

theorem isEmpty_line (line : String) (e : LineEnd) (rest : List UInt8) :
    (Text.utf8 (line ++ e.text) ++ rest).isEmpty = false := by
  rw [Text.utf8_append]
  cases e <;> simp [LineEnd.text, Text.utf8]

/-- What is left of a line when its end is taken off. -/
theorem trimRight_headerLine (h : String × String) (e : LineEnd) :
    Text.trimRight (headerLine h ++ e.text).toList =
      h.1.toList ++ ':' :: Text.trimRight (' ' :: h.2.toList) := by
  have hChars : (headerLine h).toList = h.1.toList ++ ':' :: ' ' :: h.2.toList := by
    rw [headerLine, String.toList_append, String.toList_append, List.append_assoc]
    rfl
  rw [String.toList_append, Text.trimRight_append e.isBlank_text, hChars,
    Text.trimRight_append_cons (by decide)]

theorem trim_value {value : String} (h : Text.trim value = value) :
    Text.trim (String.ofList (Text.trimRight (' ' :: value.toList))) = value := by
  have hBlank : Text.trim (String.ofList (' ' :: value.toList)) = Text.trim value := by
    rw [Text.trim, String.toList_ofList, Text.trimLeft, List.dropWhile_cons_of_pos (by decide)]
    rfl
  rw [Text.trim_trimRight, hBlank, h]

/-- A header that is not there yet comes in front of the others. -/
theorem withHeader_of_new {name value : String} (hLower : Text.lowerAscii name = name)
    (hNew : name ∉ r.headers.map Prod.fst) :
    r.withHeader name value = { r with headers := (name, value) :: r.headers } := by
  have hKept : r.headers.filter (·.1 != name) = r.headers := by
    refine List.filter_eq_self.2 fun h hMem => ?_
    have hOther : h.1 ≠ name := fun hSame => hNew (hSame ▸ List.mem_map_of_mem hMem)
    simpa using hOther
  rw [withHeader, hLower, hKept]

/-- One line of a header is read. -/
theorem readHeaders_cons {h : String × String} (hHeader : IsHeader h)
    (hNew : h.1 ∉ r.headers.map Prod.fst) (left : Nat) (e : LineEnd) (rest : List UInt8) :
    readHeaders (left + 1) r (Text.utf8 (headerLine h ++ e.text) ++ rest) =
      readHeaders left { r with headers := h :: r.headers } rest := by
  have hFeed : '\n' ∉ (headerLine h).toList := by
    rw [headerLine, String.toList_append, String.toList_append, List.mem_append, List.mem_append]
    exact fun hMem => hMem.elim (fun hFront => hFront.elim hHeader.feed.1 (by decide)) hHeader.feed.2
  have hVisible : (String.ofList (h.1.toList ++ ':' :: Text.trimRight (' ' :: h.2.toList))).isEmpty = false := by
    simp
  have hSplit : Text.splitOnce? ':' (String.ofList (h.1.toList ++ ':' :: Text.trimRight (' ' :: h.2.toList))) =
      some (h.1, String.ofList (Text.trimRight (' ' :: h.2.toList))) := by
    rw [Text.splitOnce?, String.toList_ofList, Text.cutAt?_cons hHeader.colon]
    simp
  rw [readHeaders, if_neg (by simp only [isEmpty_line, Bool.false_eq_true, not_false_eq_true]),
    readLine_append hFeed]
  simp only [trimRight_headerLine, hVisible, hSplit, Bool.false_eq_true, if_false, hHeader.trimmed.1,
    trim_value hHeader.trimmed.2, withHeader_of_new hHeader.lower hNew]

/-- At an empty line, or when enough lines are read, no more is read. -/
theorem readHeaders_empty (left : Nat) (e : LineEnd) (rest : List UInt8) :
    readHeaders left r (Text.utf8 ("" ++ e.text) ++ rest) = some r := by
  cases left with
  | zero => rfl
  | succ left =>
      have hNone : (String.ofList (Text.trimRight ("" ++ e.text).toList)).isEmpty = true := by
        cases e <;> decide
      rw [readHeaders, if_neg (by simp only [isEmpty_line, Bool.false_eq_true, not_false_eq_true]),
        readLine_append (by simp)]
      simp only [hNone, if_true]

theorem readHeaders_written {hs : List (String × String)} (hHeaders : ∀ h ∈ hs, IsHeader h) {left : Nat}
    (hCount : hs.length ≤ left) (hDistinct : (hs.map Prod.fst ++ r.headers.map Prod.fst).Nodup)
    (ends : Nat → LineEnd) (rest : List UInt8) :
    readHeaders left r (writeLines ends (hs.map headerLine ++ [""]) ++ rest) =
      some { r with headers := hs.reverse ++ r.headers } := by
  induction hs generalizing left r ends with
  | nil =>
      rw [List.map_nil, List.nil_append, writeLines, writeLines, List.append_nil, readHeaders_empty]
      rfl
  | cons h hs ih =>
      obtain ⟨left, rfl⟩ := Nat.exists_eq_add_one_of_ne_zero (Nat.ne_of_gt (Nat.lt_of_lt_of_le (by simp) hCount))
      rw [List.forall_mem_cons] at hHeaders
      have hParts := hDistinct
      rw [List.map_cons, List.cons_append, List.nodup_cons, List.mem_append, not_or] at hParts
      have hMoved : (hs.map Prod.fst ++ (h :: r.headers).map Prod.fst).Nodup := by
        refine (List.Perm.nodup_iff ?_).1 hDistinct
        rw [List.map_cons, List.map_cons, List.cons_append]
        exact List.perm_middle.symm
      rw [List.map_cons, List.cons_append, writeLines, List.append_assoc,
        readHeaders_cons hHeaders.1 hParts.1.2,
        ih (r := { r with headers := h :: r.headers }) hHeaders.2 (Nat.le_of_succ_le_succ hCount) hMoved _]
      simp

/-- A request that is written is read back, with its headers in the opposite order. -/
theorem read_written (h : r.IsWritable) (ends : Nat → LineEnd) (rest : List UInt8) :
    read (r.written ends ++ rest) = .request { r with headers := r.headers.reverse } := by
  have hPlain : ∀ {word : String}, IsWord word → '\n' ∉ word.toList := fun hWord hMem =>
    absurd (hWord.plain _ hMem) (by decide)
  have hNe : ∀ {word : String}, IsWord word → word.toList ≠ [] := fun hWord hNil =>
    hWord.ne_empty (String.toList_eq_nil_iff.1 hNil)
  have hFeed : '\n' ∉ (r.method ++ " " ++ r.path ++ " HTTP/1.1").toList := by
    simp only [String.toList_append, List.mem_append, not_or]
    exact ⟨⟨⟨hPlain h.method, by decide⟩, hPlain h.path⟩, by decide⟩
  have hChars : (r.method ++ " " ++ r.path ++ " HTTP/1.1" ++ (ends 0).text).toList =
      r.method.toList ++ ' ' :: (r.path.toList ++ ' ' :: ("HTTP/1.1" ++ (ends 0).text).toList) := by
    simp
  have hWords : ∃ more, Text.words (r.method ++ " " ++ r.path ++ " HTTP/1.1" ++ (ends 0).text) =
      r.method :: r.path :: more := by
    rw [Text.words, hChars, Text.wordsFrom_append h.method.plain (by decide) _ _ (Or.inr (hNe h.method)),
      Text.wordsFrom_append h.path.plain (by decide) _ _ (Or.inr (hNe h.path))]
    simp
  obtain ⟨more, hWords⟩ := hWords
  have hHeaders := readHeaders_written (r := make r.method r.path) h.headers h.count
    (by simpa [make] using h.distinct) (fun i => ends (i + 1)) rest
  rw [read, written, writeLines, List.append_assoc, readLine_append hFeed]
  simp only [hWords, hHeaders]
  simp [make]

end Server.Request

end Phrasebook
