import Mathlib.Data.List.Basic
import Phrasebook.Env.Strict
import Phrasebook.Proofs.Text.Bytes
import Phrasebook.Proofs.Text.Canonical
import Phrasebook.Proofs.Text.Percent

/-!
One line of an environment file, read strictly. Outside of quotations a line is left only for a quotation or a
comment, a quotation goes on up to its own quote, and what stands in front of the equality sign is a key, maybe
behind the word "export".
-/

namespace Phrasebook.Env

namespace LineState

/-- Neither a quotation nor an escape nor a comment. -/
def IsOutside (s : LineState) : Prop := s = .plain ∨ s = .blank

/-- Behind an opening quote. -/
def inside (quote : Char) : LineState := if quote = '"' then .weak else .strong

variable {s : LineState} {c : Char} {cs : List Char}

theorem step_eq_comment (hStart : s ≠ .comment) (h : s.step c = .comment) : s = .blank ∧ c = '#' := by
  cases s with
  | comment => contradiction
  | blank =>
      refine ⟨rfl, by_contra fun hHash => ?_⟩
      simp only [step, if_neg hHash] at h
      split_ifs at h
  | plain | weak | strong =>
      simp only [step] at h
      split_ifs at h
  | escape | weakEscape | strongEscape => simp [step] at h

theorem isBlank_of_step (h : s.step c = .blank) : Text.isBlank c = true := by
  cases s with
  | plain =>
      simp only [step] at h
      split_ifs at h with hBlank
      exact hBlank.1
  | blank | weak | strong =>
      simp only [step] at h
      split_ifs at h
  | escape | weakEscape | strongEscape | comment => simp [step] at h

/-- A line that stands behind a blank has one at its end. -/
theorem exists_blank_of_foldl (h : cs.foldl step .plain = .blank) :
    ∃ front b, cs = front ++ [b] ∧ Text.isBlank b = true := by
  rcases List.eq_nil_or_concat cs with rfl | ⟨front, b, rfl⟩
  · exact absurd h (by decide)
  · rw [List.concat_eq_append, List.foldl_append] at h
    exact ⟨front, b, List.concat_eq_append, isBlank_of_step h⟩

/-- A character without a meaning to the scan. -/
def IsPlain (c : Char) : Prop := c ≠ '\\' ∧ c ≠ '"' ∧ c ≠ '\'' ∧ c ≠ '#'

theorem IsOutside.step (h : s.IsOutside) (hPlain : IsPlain c) : (s.step c).IsOutside := by
  obtain ⟨hBackslash, hWeak, hStrong, hHash⟩ := hPlain
  rcases h with rfl | rfl <;> simp only [LineState.step, hBackslash, hWeak, hStrong, hHash, if_false] <;>
    [split; skip]
  · exact Or.inr rfl
  · exact Or.inl rfl
  · exact Or.inl rfl

theorem IsOutside.foldl (h : s.IsOutside) (hPlain : ∀ c ∈ cs, IsPlain c) :
    (cs.foldl LineState.step s).IsOutside := by
  induction cs generalizing s with
  | nil => exact h
  | cons c cs ih =>
      rw [List.forall_mem_cons] at hPlain
      exact ih (h.step hPlain.1) hPlain.2

variable {quote : Char}

theorem IsOutside.step_quote (h : s.IsOutside) (hQuote : quote = '"' ∨ quote = '\'') :
    s.step quote = inside quote := by
  rcases h with rfl | rfl <;> rcases hQuote with rfl | rfl <;> decide

/-- A quotation goes on until its quote comes. -/
theorem foldl_inside (hQuote : quote = '"' ∨ quote = '\'') (h : ∀ c ∈ cs, c ≠ quote ∧ c ≠ '\\') :
    cs.foldl step (inside quote) = inside quote := by
  induction cs with
  | nil => rfl
  | cons c cs ih =>
      rw [List.forall_mem_cons] at h
      have hStep : (inside quote).step c = inside quote := by
        rcases hQuote with rfl | rfl <;> simp [inside, step, h.1]
      rw [List.foldl_cons, hStep, ih h.2]

end LineState

/-- A line is scanned up to its end, or up to a hash sign behind a blank. -/
theorem scanLine_cases {s : LineState} (hStart : s ≠ .comment) (cs : List Char) :
    (cs.foldl LineState.step s ≠ .comment ∧ scanLine s cs = (cs, cs.foldl LineState.step s)) ∨
      ∃ front rest, cs = front ++ '#' :: rest ∧ front.foldl LineState.step s = .blank ∧
        scanLine s cs = (front, .comment) := by
  induction cs generalizing s with
  | nil => exact Or.inl ⟨hStart, rfl⟩
  | cons c cs ih =>
      by_cases hComment : s.step c = .comment
      · obtain ⟨rfl, rfl⟩ := LineState.step_eq_comment hStart hComment
        exact Or.inr ⟨[], cs, rfl, rfl, by rw [scanLine, hComment]⟩
      · have hScan : scanLine s (c :: cs) =
            (c :: (scanLine (s.step c) cs).1, (scanLine (s.step c) cs).2) := by
          rw [scanLine]
          split
          next h => exact absurd h hComment
          next => rfl
        rcases ih hComment with ⟨hEnd, hAll⟩ | ⟨front, rest, hCut, hBlank, hFront⟩
        · exact Or.inl ⟨hEnd, by rw [hScan, hAll]; rfl⟩
        · exact Or.inr ⟨c :: front, rest, by rw [hCut]; rfl, hBlank, by rw [hScan, hFront]⟩

theorem cutLine_of_notMem {bytes : List UInt8} (h : 10 ∉ bytes) :
    cutLine (bytes ++ [10]) = (bytes ++ [10], []) := by
  induction bytes with
  | nil => rfl
  | cons b more ih =>
      rw [List.mem_cons, not_or] at h
      rw [List.cons_append, cutLine, if_neg (Ne.symm h.1), ih h.2]

theorem trimRight_chomp (cs : List Char) : Text.trimRight (chomp (cs ++ ['\n'])) = Text.trimRight cs := by
  have hReverse : (cs ++ ['\n']).reverse = '\n' :: cs.reverse := by simp
  rw [chomp, hReverse]
  split
  next front hFront =>
    have hCut : cs = front.reverse ++ ['\r'] := by
      rw [← List.reverse_reverse cs, List.tail_eq_of_cons_eq hFront, List.reverse_cons]
    rw [hCut, Text.trimRight_append (by simp [Text.isBlank])]
  next front _ hFront =>
    rw [← List.tail_eq_of_cons_eq hFront, List.reverse_reverse]
  next hOther => exact absurd rfl (hOther cs.reverse)

variable {line key value : String} {cs rest : List Char} {lookup : String → String}

/-- What is read of a line: the whole of it, up to blanks at its end, or the part in front of a hash sign behind a
blank. -/
def IsReadAs (line : String) (cs : List Char) : Prop :=
  Text.trimRight cs = Text.trimRight line.toList ∨
    ∃ rest, line.toList = cs ++ '#' :: rest ∧ cs.foldl LineState.step .plain = .blank

theorem linesFrom_line (hLine : '\n' ∉ line.toList) (fuel : Nat) :
    linesFrom (fuel + 2) .plain [] (Text.utf8 (line ++ "\n")) = [.text []] ∨
      linesFrom (fuel + 2) .plain [] (Text.utf8 (line ++ "\n")) = [.fault] ∨
      ∃ cs, IsReadAs line cs ∧ linesFrom (fuel + 2) .plain [] (Text.utf8 (line ++ "\n")) = [.text cs] := by
  have hBytes : Text.utf8 (line ++ "\n") = Text.utf8 line ++ [10] := Text.utf8_append line "\n"
  have hCut : cutLine (Text.utf8 (line ++ "\n")) = (Text.utf8 (line ++ "\n"), []) := by
    rw [hBytes, cutLine_of_notMem (Text.byte_notMem_utf8 rfl (by decide) hLine)]
  have hChars : (line ++ "\n").toList = line.toList ++ ['\n'] := String.toList_append
  have hEnd : ∀ state joined, linesFrom (fuel + 1) state joined [] = if state = .plain then [] else [.fault] :=
    fun _ _ => rfl
  have hSome : (Text.utf8 (line ++ "\n")).isEmpty = false := by simp [hBytes]
  rw [linesFrom, if_neg (by simp [hSome]), hCut]
  simp only [Text.ofUtf8?_utf8, List.nil_append]
  split
  · exact Or.inl (by rw [hEnd]; rfl)
  · rw [hChars]
    rcases scanLine_cases (s := .plain) (by decide) (line.toList ++ ['\n']) with
      ⟨hState, hScan⟩ | ⟨front, rest, hCut, hBlank, hScan⟩
    · rw [hScan]
      cases hLast : (line.toList ++ ['\n']).foldl LineState.step .plain with
      | plain =>
          refine Or.inr (Or.inr ⟨_, Or.inl (trimRight_chomp line.toList), ?_⟩)
          simp only [hEnd, if_true]
      | comment => exact absurd hLast hState
      | _ => exact Or.inr (Or.inl (by simp only [hEnd]; rfl))
    · rw [hScan]
      refine Or.inr (Or.inr ⟨front, Or.inr ?_, by simp only [hEnd, if_true]⟩)
      -- The line feed at the end of the line is behind the hash sign.
      rcases List.eq_nil_or_concat rest with rfl | ⟨before, last, rfl⟩
      · exact absurd (List.append_inj' hCut rfl).2 (by decide)
      · rw [List.concat_eq_append, ← List.cons_append, ← List.append_assoc] at hCut
        exact ⟨before, (List.append_inj' hCut rfl).1, hBlank⟩

/-- What lines assign, in their order and up to the first that is malformed, and whether none is. Others stand in
front of them; a reference is to the environment, or else to the first assignment in front of it. -/
def assignments (get : String → Option String) (before : List (String × String)) :
    List Line → List (String × String) × Bool
  | [] => ([], true)
  | .fault :: _ => ([], false)
  | .text cs :: more =>
    match readLine (referred get before) cs with
    | .nothing => assignments get before more
    | .malformed => ([], false)
    | .assignment key value =>
      let (behind, wellFormed) := assignments get (before ++ [(key, value.getD "")]) more
      ((key, value.getD "") :: behind, wellFormed)

/-- Read strictly, a line assigns one variable. It is read behind an empty line, since a mark of the byte order in
front of a file is no part of a line. -/
def Assigns (line key value : String) : Prop :=
  assignments (fun _ => none) [] (lines (Text.utf8 ("\n" ++ line ++ "\n"))) = ([(key, value)], true)

instance : Decidable (Assigns line key value) := inferInstanceAs (Decidable (_ = _))

theorem Assigns.exists_statement (h : Assigns line key value) (hLine : '\n' ∉ line.toList) :
    ∃ cs v, IsReadAs line cs ∧ readLine (referred (fun _ => none) []) cs = .assignment key v ∧ v.getD "" = value := by
  have hBytes : Text.utf8 ("\n" ++ line ++ "\n") = 10 :: Text.utf8 (line ++ "\n") := by
    rw [String.append_assoc, Text.utf8_append]
    rfl
  obtain ⟨fuel, hFuel⟩ : ∃ fuel, (Text.utf8 (line ++ "\n")).length + 1 = fuel + 2 := by
    refine ⟨(Text.utf8 line).length, ?_⟩
    rw [Text.utf8_append, List.length_append]
    rfl
  have hFirst : lines (Text.utf8 ("\n" ++ line ++ "\n")) =
      .text [] :: linesFrom (fuel + 2) .plain [] (Text.utf8 (line ++ "\n")) := by
    rw [hBytes, ← hFuel]
    rfl
  have hNothing : readLine (referred (fun _ => none) []) [] = .nothing := rfl
  rw [Assigns, hFirst, assignments, hNothing] at h
  rcases linesFrom_line hLine fuel with hLines | hLines | ⟨cs, hOrigin, hLines⟩
  · rw [hLines, assignments, hNothing] at h
    simp [assignments] at h
  · rw [hLines] at h
    simp [assignments] at h
  · rw [hLines, assignments] at h
    cases hRead : readLine (referred (fun _ => none) []) cs with
    | nothing => simp [hRead, assignments] at h
    | malformed => simp [hRead] at h
    | assignment k v =>
        simp only [hRead, assignments, Prod.mk.injEq, List.cons.injEq, and_true] at h
        obtain ⟨rfl, hValue⟩ := h
        exact ⟨cs, v, hOrigin, hRead, hValue⟩

/-- What stands in front of an equality sign. -/
inductive IsHead (key : String) : List Char → Prop
  | bare {pad : List Char} (hPad : ∀ c ∈ pad, Text.isBlank c = true) : IsHead key (key.toList ++ pad)
  | exported {gap pad : List Char} (hGap : ∀ c ∈ gap, Text.isBlank c = true)
      (hPad : ∀ c ∈ pad, Text.isBlank c = true) :
      IsHead key ("export".toList ++ (gap ++ (key.toList ++ pad)))

theorem readKey_eq_some (h : readKey cs = some (key, rest)) : cs = key.toList ++ rest := by
  unfold readKey at h
  split at h
  next c more =>
    split at h
    next =>
      obtain ⟨rfl, rfl⟩ := Prod.mk.inj (Option.some.inj h)
      rw [String.toList_ofList, List.takeWhile_append_dropWhile]
    next => simp at h
  next => simp at h

theorem dropEqual_eq_some (h : dropEqual cs = some rest) : cs = '=' :: rest := by
  unfold dropEqual at h
  split at h
  next => rw [Option.some.inj h]
  next => simp at h

theorem readAssignment_eq_some (h : readAssignment cs = some (key, rest)) :
    ∃ head, cs = head ++ '=' :: rest ∧ IsHead key head := by
  unfold readAssignment at h
  obtain ⟨⟨first, behind⟩, hFirst, hRead⟩ := Option.bind_eq_some_iff.1 h
  obtain rfl := readKey_eq_some hFirst
  obtain ⟨blanks, hBlanks, hBehind⟩ := Text.exists_trimLeft behind
  dsimp only at hRead
  cases hEqual : dropEqual (Text.trimLeft behind) with
  | some found =>
      rw [hEqual] at hRead
      obtain ⟨rfl, rfl⟩ := Prod.mk.inj (Option.some.inj hRead)
      refine ⟨first.toList ++ blanks, ?_, .bare hBlanks⟩
      rw [List.append_assoc, ← dropEqual_eq_some hEqual, ← hBehind]
  | none =>
      rw [hEqual] at hRead
      dsimp only at hRead
      split at hRead
      next hExport =>
        obtain ⟨⟨second, last⟩, hSecond, hBehindKey⟩ := Option.bind_eq_some_iff.1 hRead
        obtain ⟨found, hFound, hPair⟩ := Option.bind_eq_some_iff.1 hBehindKey
        obtain ⟨rfl, rfl⟩ := Prod.mk.inj (Option.some.inj hPair)
        obtain ⟨pad, hPad, hLast⟩ := Text.exists_trimLeft last
        refine ⟨_, ?_, .exported hBlanks hPad⟩
        rw [hExport, List.append_assoc, List.append_assoc, List.append_assoc, ← dropEqual_eq_some hFound, ← hLast,
          ← readKey_eq_some hSecond, ← hBehind]
      next => simp at hRead

/-- What a line has to be for a statement: a head, an equality sign, and behind it nothing but a comment or a
value. -/
theorem readLine_eq_assignment {v : Option String} (h : readLine lookup cs = .assignment key v) :
    ∃ rest, readAssignment (Text.trimLeft (Text.trimRight cs)) = some (key, rest) ∧
      ((Text.trimLeft rest = [] ∨ ∃ more, Text.trimLeft rest = '#' :: more) ∧ v = none ∨
        ∃ value, readValue lookup (Text.trimLeft rest) = some value ∧ v = some value) := by
  unfold readLine at h
  split at h
  next => simp at h
  next => simp at h
  next =>
    split at h
    next => simp at h
    next k rest hAssignment =>
      split at h
      next hNone =>
        obtain ⟨rfl, rfl⟩ := Statement.assignment.inj h
        exact ⟨rest, hAssignment, Or.inl ⟨Or.inl hNone, rfl⟩⟩
      next more hComment =>
        obtain ⟨rfl, rfl⟩ := Statement.assignment.inj h
        exact ⟨rest, hAssignment, Or.inl ⟨Or.inr ⟨more, hComment⟩, rfl⟩⟩
      next =>
        split at h
        next value hValue =>
          obtain ⟨rfl, rfl⟩ := Statement.assignment.inj h
          exact ⟨rest, hAssignment, Or.inr ⟨value, hValue, rfl⟩⟩
        next => simp at h

end Phrasebook.Env
