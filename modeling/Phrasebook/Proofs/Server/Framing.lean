import Phrasebook.Proofs.Json.RoundTrip
import Phrasebook.Proofs.Server.Requests
import Phrasebook.Proofs.Server.Served

/-!
Answers on the wire. What a site sends is read back as one answer: a status, the headers, each in a line of its
own, and a body. Nothing that is asked for, and no name or time of a file, can put another line into it.
-/

namespace Phrasebook

namespace Text

/-- A text without line ends. -/
structure IsLine (s : String) : Prop where
  carriage : '\r' ∉ s.toList
  feed : '\n' ∉ s.toList

instance (s : String) : Decidable (IsLine s) :=
  decidable_of_iff ('\r' ∉ s.toList ∧ '\n' ∉ s.toList) ⟨fun h => ⟨h.1, h.2⟩, fun h => ⟨h.carriage, h.feed⟩⟩

theorem IsLine.append {s t : String} (h : IsLine s) (k : IsLine t) : IsLine (s ++ t) := by
  constructor
  all_goals rw [String.toList_append, List.mem_append, not_or]
  · exact ⟨h.carriage, k.carriage⟩
  · exact ⟨h.feed, k.feed⟩

theorem IsLine.getD (names : List String) (h : ∀ name ∈ names, IsLine name) (i : Nat) :
    IsLine (names.getD i "") := by
  rcases Nat.lt_or_ge i names.length with hLt | hLe
  · rw [List.getD_eq_getElem _ _ hLt]
    exact h _ (List.getElem_mem hLt)
  · rw [List.getD_eq_default _ _ hLe]
    decide

theorem isLine_digits {base n : Nat} (hBase : 1 < base) (hHigh : base ≤ 16) :
    IsLine (String.ofList (digitsFrom base n [])) := by
  have hDigit : ∀ d < 16, digitChar d ≠ '\r' ∧ digitChar d ≠ '\n' := by decide
  constructor
  all_goals
    rw [String.toList_ofList]
    intro hMem
    obtain ⟨d, hLt, hSame⟩ := exists_of_mem_digitsFrom hBase hMem
  · exact (hDigit d (by omega)).1 hSame.symm
  · exact (hDigit d (by omega)).2 hSame.symm

theorem isLine_decimal (n : Nat) : IsLine (decimal n) := isLine_digits (by decide) (by decide)

theorem isLine_hex (n : Nat) : IsLine (hex n) := isLine_digits (by decide) (by decide)

theorem isLine_padded (width n : Nat) : IsLine (padded width n) := by
  refine IsLine.append ⟨?_, ?_⟩ (isLine_decimal n)
  all_goals
    rw [String.toList_ofList]
    exact fun hMem => absurd (List.eq_of_mem_replicate hMem) (by decide)

theorem cutAt?_pair {d e : Char} {front : List Char} (h : d ∉ front) (rest : List Char) :
    cutAt? [d, e] (front ++ d :: e :: rest) = some (front, rest) := by
  induction front with
  | nil => simp [cutAt?, dropFront?]
  | cons c front ih =>
      rw [List.mem_cons, not_or] at h
      simp [cutAt?, dropFront?, h.1, ih h.2]

end Text

namespace Calendar

theorem isLine_yearText (y : Int) : Text.IsLine (yearText y) := by
  rw [yearText]
  split_ifs
  · exact Text.isLine_padded 4 _
  · exact Text.IsLine.append (by decide) (Text.isLine_padded 4 _)
  · exact Text.IsLine.append (by decide) (Text.isLine_padded 4 _)

theorem isLine_httpDate (seconds : Int) : Text.IsLine (httpDate seconds) := by
  have hTwo : ∀ n, Text.IsLine (twoDigits n) := Text.isLine_padded 2
  have hClock : ∀ m : Moment, Text.IsLine m.clock := fun m =>
    ((((hTwo _).append (by decide)).append (hTwo _)).append (by decide)).append (hTwo _)
  have hWeekday := Text.IsLine.getD weekdayNames (by decide)
  have hMonth := Text.IsLine.getD monthNames (by decide)
  exact ((((((((((hWeekday _).append (by decide)).append (hTwo _)).append (by decide)).append (hMonth _)).append
    (by decide)).append (isLine_yearText _)).append (by decide)).append (hClock _)).append (by decide))

end Calendar

namespace Server

open Text (IsLine)

/-- What is received. -/
structure Received where
  status : Nat
  headers : List (String × String)
  body : List UInt8
  deriving DecidableEq

namespace Received

/-- The lines up to the first empty one, and what comes behind it. A line ends with a carriage return and a
line feed; `line` holds the one that is being read, backwards. -/
def linesFrom (line : List UInt8) : List UInt8 → Option (List (List UInt8) × List UInt8)
  | 13 :: 10 :: rest =>
    if line.isEmpty then some ([], rest)
    else (linesFrom [] rest).map fun (lines, body) => (line.reverse :: lines, body)
  | b :: rest => linesFrom (b :: line) rest
  | [] => none

/-- The number between the first two blanks of a status line. -/
def status? (line : String) : Option Nat :=
  match Text.splitOnce? ' ' line with
  | some ("HTTP/1.1", rest) => (Text.splitOnce? ' ' rest).bind fun (code, _) => Text.natural? code.toList
  | _ => none

def header? (line : String) : Option (String × String) :=
  (Text.cutAt? [':', ' '] line.toList).map fun (name, value) => (String.ofList name, String.ofList value)

/-- Reads an answer: a status line and headers up to the first empty line, and a body behind. -/
def read? (bytes : List UInt8) : Option Received :=
  (linesFrom [] bytes).bind fun (lines, body) =>
    match lines.mapM Text.ofUtf8? with
    | some (first :: more) =>
      (status? first).bind fun status => (more.mapM header?).map fun headers => ⟨status, headers, body⟩
    | _ => none

theorem linesFrom_append {front : List UInt8} (h : 13 ∉ front) (line rest : List UInt8)
    (hNe : line ≠ [] ∨ front ≠ []) :
    linesFrom line (front ++ 13 :: 10 :: rest) =
      (linesFrom [] rest).map fun (lines, body) => ((line.reverse ++ front) :: lines, body) := by
  induction front generalizing line with
  | nil =>
      have hLine : line ≠ [] := hNe.resolve_right fun hNil => hNil rfl
      rw [List.nil_append, linesFrom, if_neg (by simpa using hLine), List.append_nil]
  | cons b front ih =>
      rw [List.mem_cons, not_or] at h
      rw [List.cons_append, linesFrom, ih h.2 (b :: line) (Or.inl (List.cons_ne_nil _ _))]
      · simp
      · rintro rest' hSame -
        exact h.1 hSame.symm

/-- Lines that are sent one after the other are read up to the empty one. -/
theorem linesFrom_lines {lines : List String} (h : ∀ line ∈ lines, line ≠ "" ∧ '\r' ∉ line.toList)
    (body : List UInt8) :
    linesFrom [] (lines.flatMap (fun line => Text.utf8 line ++ [13, 10]) ++ 13 :: 10 :: body) =
      some (lines.map Text.utf8, body) := by
  induction lines with
  | nil => rfl
  | cons line more ih =>
      rw [List.forall_mem_cons] at h
      have hNe : Text.utf8 line ≠ [] := by
        intro hNil
        have hBack := Text.ofUtf8?_utf8 line
        rw [hNil] at hBack
        exact h.1.1 (Option.some.inj (hBack.symm.trans (by decide : Text.ofUtf8? [] = some "")))
      have hReturn : 13 ∉ Text.utf8 line := Text.byte_notMem_utf8 rfl (by decide) h.1.2
      rw [List.flatMap_cons, List.append_assoc, List.append_assoc, List.cons_append, List.cons_append,
        List.nil_append, linesFrom_append hReturn [] _ (Or.inr hNe), ih h.2]
      rfl

end Received

namespace Response

/-- The names of headers that an answer can have, before those of the framing. -/
def headerNames : List (List String) :=
  let all := ["Access-Control-Allow-Origin", "Cache-Control"]
  [all, all ++ ["Allow"], all ++ ["Content-Type"], all ++ ["ETag", "Last-Modified"],
    all ++ ["ETag", "Last-Modified", "Content-Type"]]

/-- An answer whose headers have the names of one kind of answer, and each header fits a line. -/
structure IsProper (a : Response) : Prop where
  names : a.headers.map Prod.fst ∈ headerNames
  values : ∀ h ∈ a.headers, IsLine h.2

/-- The headers of the framing. -/
def framing (a : Response) : List (String × String) :=
  [("Content-Length", Text.decimal a.body.length), ("Connection", "close")]

/-- A name that is no value. -/
def IsName (name : String) : Prop := IsLine name ∧ ':' ∉ name.toList

instance (name : String) : Decidable (IsName name) := inferInstanceAs (Decidable (_ ∧ _))

variable {a : Response}

theorem IsProper.isName (h : a.IsProper) {x : String × String} (hx : x ∈ a.headers) : IsName x.1 := by
  have hAll : ∀ names ∈ headerNames, ∀ name ∈ names, IsName name := by decide
  exact hAll _ h.names _ (List.mem_map_of_mem hx)

theorem isName_of_mem_framing {x : String × String} (hx : x ∈ a.framing) : IsName x.1 := by
  have hAll : ∀ name ∈ ["Content-Length", "Connection"], IsName name := by decide
  exact hAll _ (List.mem_map_of_mem (f := Prod.fst) hx)

theorem isLine_of_mem_framing {x : String × String} (hx : x ∈ a.framing) : IsLine x.2 := by
  simp only [framing, List.mem_cons, List.not_mem_nil, or_false] at hx
  rcases hx with rfl | rfl
  · exact Text.isLine_decimal _
  · exact (by decide : IsLine "close")

/-- The lines of the head of an answer, without their ends. -/
def lines (a : Response) : List String :=
  ("HTTP/1.1 " ++ Text.decimal a.status ++ " " ++ reason a.status) ::
    (a.headers ++ a.framing).map fun h => h.1 ++ ": " ++ h.2

theorem utf8_head (a : Response) :
    Text.utf8 a.head = a.lines.flatMap (fun line => Text.utf8 line ++ [13, 10]) ++ [13, 10] := by
  have hEnd : ∀ line : String, Text.utf8 (line ++ "\r\n") = Text.utf8 line ++ [13, 10] := fun line => by
    rw [Text.utf8_append]
    rfl
  have hHeaders : Text.utf8 (String.join (a.headers.map headerLine)) =
      (a.headers.map fun h => h.1 ++ ": " ++ h.2).flatMap fun line => Text.utf8 line ++ [13, 10] := by
    induction a.headers with
    | nil => rfl
    | cons h more ih =>
        rw [List.map_cons, String.join_cons, Text.utf8_append, ih, List.map_cons, List.flatMap_cons, headerLine,
          hEnd]
  rw [head, statusLine, hEnd, Text.utf8_append, Text.utf8_append, Text.utf8_append, hHeaders, hEnd, headerLine,
    headerLine, hEnd, hEnd]
  simp [lines, framing]

theorem isLine_reason (status : Nat) : IsLine (reason status) := by
  unfold reason
  split <;> decide

theorem isLine_of_mem_lines (h : a.IsProper) {line : String} (hLine : line ∈ a.lines) :
    line ≠ "" ∧ IsLine line := by
  rcases List.mem_cons.1 hLine with rfl | hLine
  · refine ⟨by simp, ?_⟩
    exact ((IsLine.append (by decide) (Text.isLine_decimal _)).append (by decide)).append (isLine_reason _)
  · obtain ⟨x, hx, rfl⟩ := List.mem_map.1 hLine
    refine ⟨by simp, ?_⟩
    rcases List.mem_append.1 hx with hx | hx
    · exact ((h.isName hx).1.append (by decide)).append (h.values x hx)
    · exact ((isName_of_mem_framing hx).1.append (by decide)).append (isLine_of_mem_framing hx)

theorem status?_line (status : Nat) :
    Received.status? ("HTTP/1.1 " ++ Text.decimal status ++ " " ++ reason status) = some status := by
  have hDigits : ' ' ∉ (Text.decimal status).toList := fun hMem => by
    rw [Text.decimal, String.toList_ofList] at hMem
    exact absurd (Text.isDigit_of_mem_digitsFrom hMem) (by decide)
  have hChars : ("HTTP/1.1 " ++ Text.decimal status ++ " " ++ reason status).toList =
      "HTTP/1.1".toList ++ ' ' :: ((Text.decimal status).toList ++ ' ' :: (reason status).toList) := by
    simp
  have hFirst : Text.splitOnce? ' ' ("HTTP/1.1 " ++ Text.decimal status ++ " " ++ reason status) =
      some ("HTTP/1.1", String.ofList ((Text.decimal status).toList ++ ' ' :: (reason status).toList)) := by
    rw [Text.splitOnce?, hChars, Text.cutAt?_cons (by decide)]
    simp
  have hSecond : Text.splitOnce? ' ' (String.ofList ((Text.decimal status).toList ++ ' ' ::
      (reason status).toList)) = some (Text.decimal status, reason status) := by
    rw [Text.splitOnce?, String.toList_ofList, Text.cutAt?_cons hDigits]
    simp
  simp only [Received.status?, hFirst, hSecond, Option.bind_some, Text.natural?_decimal]

theorem mapM_header? {headers : List (String × String)} (h : ∀ x ∈ headers, ':' ∉ x.1.toList) :
    (headers.map fun x => x.1 ++ ": " ++ x.2).mapM Received.header? = some headers := by
  induction headers with
  | nil => rfl
  | cons x more ih =>
      rw [List.forall_mem_cons] at h
      have hChars : (x.1 ++ ": " ++ x.2).toList = x.1.toList ++ ':' :: ' ' :: x.2.toList := by simp
      have hFirst : Received.header? (x.1 ++ ": " ++ x.2) = some x := by
        rw [Received.header?, hChars, Text.cutAt?_pair h.1]
        simp
      rw [List.map_cons, List.mapM_cons, hFirst, ih h.2]
      rfl

/-- What is sent of a proper answer is read back: its status, its headers and those of the framing, and the
body as far as it is sent. -/
theorem read?_toBytes (h : a.IsProper) (withBody : Bool) :
    Received.read? (a.toBytes withBody) =
      some ⟨a.status, a.headers ++ a.framing, if withBody then a.body else []⟩ := by
  have hLines := Received.linesFrom_lines (fun line hLine =>
    ⟨(isLine_of_mem_lines h hLine).1, (isLine_of_mem_lines h hLine).2.carriage⟩)
    (if withBody then a.body else [])
  have hTexts : (a.lines.map Text.utf8).mapM Text.ofUtf8? = some a.lines :=
    Json.mapM_map_eq_some Text.ofUtf8?_utf8 a.lines
  have hNames : ∀ x ∈ a.headers ++ a.framing, ':' ∉ x.1.toList := by
    intro x hx
    exact (List.mem_append.1 hx).elim (fun hx => (h.isName hx).2) fun hx => (isName_of_mem_framing hx).2
  rw [toBytes, utf8_head, List.append_assoc, List.cons_append, List.cons_append, List.nil_append, Received.read?,
    hLines, Option.bind_some]
  simp only [hTexts]
  simp only [lines, status?_line, Option.bind_some, mapM_header? hNames, Option.map_some]

theorem IsProper.of_headers (hs : List (String × String)) (h : a.headers = hs)
    (hNames : hs.map Prod.fst ∈ headerNames) (hValues : ∀ x ∈ hs, IsLine x.2) : a.IsProper := by
  subst h
  exact ⟨hNames, hValues⟩

theorem ofStatus_isProper (status : Nat) : (ofStatus status).IsProper :=
  .of_headers (ofStatus 200).headers rfl (by decide) (by decide)

end Response

theorem isLine_etag (modified size : Nat) : IsLine (etag modified size) :=
  ((((IsLine.append (by decide) (Text.isLine_hex _)).append (by decide)).append (Text.isLine_hex _)).append
    (by decide))

namespace Site

variable {s : Site} {t : FileTree} {cwd : Place} {r q : Request}

theorem isLine_contentType (name : String) : IsLine (contentType name) := by
  unfold contentType
  split <;> decide

theorem listing_isProper : (s.listing t cwd).IsProper := by
  unfold listing
  split
  next =>
    exact .of_headers ((Response.ofStatus 200).withBody "application/json; charset=utf-8" []).headers
      rfl (by decide) (by decide)
  next => exact Response.ofStatus_isProper 500

theorem serveFile_isProper (r : Request) (name : String) (content : List UInt8) (modified : Int) :
    (serveFile r name content modified).IsProper := by
  have hTag := isLine_etag (modifiedSeconds modified) content.length
  have hDate := Calendar.isLine_httpDate (modifiedSeconds modified)
  have hStar : IsLine "*" := by decide
  have hCache : IsLine "no-cache" := by decide
  unfold serveFile
  dsimp only
  split
  · refine ⟨by simp [Response.headerNames, Response.withHeader, Response.ofStatus], ?_⟩
    simp [Response.withHeader, Response.ofStatus, hTag, hDate, hStar, hCache]
  · refine ⟨by simp [Response.headerNames, Response.withBody, Response.withHeader, Response.ofStatus], ?_⟩
    simp [Response.withBody, Response.withHeader, Response.ofStatus, hTag, hDate, hStar, hCache,
      isLine_contentType]

/-- Every answer is proper, whatever is asked for and whatever is in the folder. -/
theorem handle_isProper (s : Site) (t : FileTree) (cwd : Place) (r : Request) : (s.handle t cwd r).IsProper := by
  have hAnswer : ∀ rest, (s.answerPath t cwd r rest).IsProper := by
    intro rest
    unfold answerPath
    split
    next => exact Response.ofStatus_isProper 400
    next =>
      split
      next => exact Response.ofStatus_isProper 404
      next =>
        split
        next => exact serveFile_isProper r _ _ _
        next => exact Response.ofStatus_isProper 404
  unfold handle
  split
  · exact ⟨by decide, by decide⟩
  · dsimp only
    split
    · exact listing_isProper
    · split
      next => exact hAnswer _
      next => exact Response.ofStatus_isProper 404

/-- An answer depends on the headers of a request by name only, and is the same for its headers alone. -/
theorem handle_congr (hRead : IsRead r ↔ IsRead q) (hPath : r.path = q.path)
    (hHeaders : ∀ name, r.header? name = q.header? name) : s.handle t cwd r = s.handle t cwd q := by
  have hCurrent : isCurrent r = isCurrent q := by
    funext tag seconds
    rw [isCurrent, isCurrent, hHeaders "if-none-match", hHeaders "if-modified-since"]
  have hAnswer : ∀ rest, s.answerPath t cwd r rest = s.answerPath t cwd q rest := fun rest => by
    simp only [answerPath, serveFile, hCurrent]
  by_cases hGet : IsRead r
  · rw [handle_of_read hGet, handle_of_read (hRead.1 hGet), hPath]
    simp only [hAnswer]
  · have hOther : ¬IsRead q := fun hq => hGet (hRead.2 hq)
    rw [handle, handle, if_pos (not_or.1 hGet), if_pos (not_or.1 hOther)]

theorem lookup_reverse {headers : List (String × String)} (h : (headers.map Prod.fst).Nodup) (name : String) :
    headers.reverse.lookup name = headers.lookup name := by
  induction headers with
  | nil => rfl
  | cons x more ih =>
      rw [List.map_cons, List.nodup_cons] at h
      have hRest := ih h.2
      rw [List.reverse_cons, List.lookup_append, hRest]
      by_cases hName : name = x.1
      · have hNone : more.lookup name = none := List.lookup_eq_none_iff.2 fun y hy => by
          have hOther : name ≠ y.1 := fun hSame => h.1 (hName ▸ hSame ▸ List.mem_map_of_mem hy)
          simpa using hOther
        rw [hNone, hName, List.lookup_cons_self, List.lookup_cons_self]
        rfl
      · have hOther : (name == x.1) = false := by simpa using hName
        rw [List.lookup_cons, List.lookup_cons, hOther]
        simp

theorem converse_written (s : Site) (t : FileTree) (cwd : Place) (h : r.IsWritable)
    (ends : Nat → Request.LineEnd) (behind : List UInt8) :
    s.converse t cwd (r.written ends ++ behind) = (s.handle t cwd r).toBytes (r.method ≠ "HEAD") := by
  have hSame : s.handle t cwd { r with headers := r.headers.reverse } = s.handle t cwd r :=
    handle_congr Iff.rfl rfl fun name => lookup_reverse h.distinct name
  rw [converse, Request.read_written h]
  simp only [hSame]

/-- Whatever bytes come in, what goes out is nothing or one proper answer. -/
theorem converse_isProper (s : Site) (t : FileTree) (cwd : Place) (bytes : List UInt8) :
    s.converse t cwd bytes = [] ∨
      ∃ (a : Response) (withBody : Bool), a.IsProper ∧ s.converse t cwd bytes = a.toBytes withBody ∧
        Received.read? (s.converse t cwd bytes) =
          some ⟨a.status, a.headers ++ a.framing, if withBody then a.body else []⟩ := by
  unfold converse
  split
  next => exact Or.inl rfl
  next =>
    have hProper := Response.ofStatus_isProper 400
    exact Or.inr ⟨_, _, hProper, rfl, Response.read?_toBytes hProper true⟩
  next r _ =>
    have hProper := handle_isProper s t cwd r
    exact Or.inr ⟨_, _, hProper, rfl, Response.read?_toBytes hProper _⟩

/-- Requests that are written on the wire are answered as they are handled. What is sent is read back as the
status and the headers of the answer, which are those of an answer of its kind, then the length of its body and
the end of the connection, and behind the empty line its body, unless only the head is asked for. That is what
is sent of the whole answer when the body is cut off. Other bytes are answered with one proper answer or nothing. -/
theorem answers_are_framed (s : Site) (t : FileTree) (cwd : Place) {r : Request} (h : r.IsWritable)
    (ends : Nat → Request.LineEnd) (behind : List UInt8) :
    s.converse t cwd (r.written ends ++ behind) = (s.handle t cwd r).toBytes (r.method ≠ "HEAD") ∧
      Received.read? (s.converse t cwd (r.written ends ++ behind)) =
        some ⟨(s.handle t cwd r).status,
          (s.handle t cwd r).headers ++
            [("Content-Length", Text.decimal (s.handle t cwd r).body.length), ("Connection", "close")],
          if r.method = "HEAD" then [] else (s.handle t cwd r).body⟩ ∧
      (s.handle t cwd r).IsProper ∧
      (r.method = "GET" →
        s.converse t cwd (r.written ends ++ behind) =
          s.converse t cwd ({ r with method := "HEAD" }.written ends ++ behind) ++ (s.handle t cwd r).body) ∧
      ∀ bytes, s.converse t cwd bytes = [] ∨
        ∃ (a : Response) (withBody : Bool), a.IsProper ∧ s.converse t cwd bytes = a.toBytes withBody ∧
          Received.read? (s.converse t cwd bytes) =
            some ⟨a.status, a.headers ++ a.framing, if withBody then a.body else []⟩ := by
  have hProper := handle_isProper s t cwd r
  have hSent := converse_written s t cwd h ends behind
  refine ⟨hSent, ?_, hProper, fun hGet => ?_, converse_isProper s t cwd⟩
  · rw [hSent, Response.read?_toBytes hProper]
    by_cases hHead : r.method = "HEAD" <;> simp [hHead, Response.framing]
  · have hHead : Request.IsWritable { r with method := "HEAD" } :=
      ⟨(by decide : Request.IsWord "HEAD"), h.path, h.count, h.headers, h.distinct⟩
    have hSame : s.handle t cwd { r with method := "HEAD" } = s.handle t cwd r :=
      handle_congr ⟨fun _ => Or.inl hGet, fun _ => Or.inr rfl⟩ rfl fun _ => rfl
    rw [hSent, converse_written s t cwd hHead, hSame, hGet]
    simp [Response.toBytes]

/-- A request for a file, with a mark of another state of it and a header without a value. -/
def askAloud : Request :=
  ⟨"GET", "/build//here/%61%20b.json?v=1", [("host", "a:80"), ("if-none-match", "\"0-0\""), ("x", "")]⟩

/-- Lines that end one way and the other in turn. -/
def mixedEnds (i : Nat) : Request.LineEnd := if i % 2 = 0 then .returnFeed else .feed

theorem askAloud_isWritable : askAloud.IsWritable := by decide +kernel

theorem written_askAloud : askAloud.written mixedEnds =
    Text.utf8 "GET /build//here/%61%20b.json?v=1 HTTP/1.1\r\nhost: a:80\nif-none-match: \"0-0\"\r\nx: \n\r\n" := by
  simp [Request.written, Request.writeLines, askAloud, Request.headerLine, mixedEnds, Request.LineEnd.text,
    ← Text.utf8_append]

theorem handle_askAloud : (make "srv" "build" "dot").handle publicFolder [] askAloud =
    ⟨200, [("Access-Control-Allow-Origin", "*"), ("Cache-Control", "no-cache"), ("ETag", "\"0-2\""),
      ("Last-Modified", "Thu, 01 Jan 1970 00:00:00 GMT"), ("Content-Type", "application/json; charset=utf-8")],
      [123, 125]⟩ := by
  have hTag : etag 0 2 = "\"0-2\"" := by decide +kernel
  have hDate : Calendar.httpDate 0 = "Thu, 01 Jan 1970 00:00:00 GMT" := by decide +kernel
  have hType : contentType "a b.json" = "application/json; charset=utf-8" := by decide +kernel
  have hChanged : isCurrent askAloud "\"0-2\"" 0 = false := by decide +kernel
  rw [NamesFile.handle_eq (r := askAloud) askHere_namesFile (Or.inl rfl)]
  simp [serveFile, modifiedSeconds, hTag, hDate, hType, hChanged, Response.withBody, Response.withHeader,
    Response.ofStatus]

/-- The file goes over the wire, and another request behind the first one changes nothing. -/
theorem askAloud_answered :
    (make "srv" "build" "dot").converse publicFolder [] (Text.utf8
        "GET /build//here/%61%20b.json?v=1 HTTP/1.1\r\nhost: a:80\nif-none-match: \"0-0\"\r\nx: \n\r\n" ++
          Text.utf8 "GET / HTTP/1.1\r\n\r\n") =
      Text.utf8 ("HTTP/1.1 200 OK\r\nAccess-Control-Allow-Origin: *\r\nCache-Control: no-cache\r\n" ++
        "ETag: \"0-2\"\r\nLast-Modified: Thu, 01 Jan 1970 00:00:00 GMT\r\n" ++
        "Content-Type: application/json; charset=utf-8\r\nContent-Length: 2\r\nConnection: close\r\n\r\n") ++
        [123, 125] := by
  have hOk : Text.decimal 200 = "200" := by decide +kernel
  have hTwo : Text.decimal 2 = "2" := by decide +kernel
  rw [← written_askAloud, (answers_are_framed (make "srv" "build" "dot") publicFolder [] askAloud_isWritable
    mixedEnds (Text.utf8 "GET / HTTP/1.1\r\n\r\n")).1, handle_askAloud, Response.toBytes]
  simp [Response.head, Response.statusLine, Response.headerLine, Response.reason, hOk, hTwo, askAloud]

end Site

end Server

end Phrasebook
