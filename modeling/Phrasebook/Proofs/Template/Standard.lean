import Mathlib.Data.List.Infix
import Phrasebook.Proofs.Template.Pieces
import Phrasebook.Proofs.Text.Numeral

/-!
Templates by the rules of ECMAScript. The standard takes a stretch from the front of a template, finds what
replaces it, and goes on behind it. Filling in a template at a hit gives the same text, whatever the template
and whichever captures took part.
-/

namespace Phrasebook.Template

/-- What a substitution is told of a match. A capture that took no part has no text, and a pattern without
names has none to look up. -/
structure Occurrence where
  matched : List Char
  text : List Char
  position : Nat
  captures : List (Option (List Char))
  named? : Option (List Char → Option (List Char))

namespace Occurrence

/-- The digits behind a dollar sign at the front of a template, two of them at most. -/
def digitsOf : List Char → List Char
  | '$' :: rest => (rest.takeWhile Text.isDigit).take 2
  | _ => []

/-- The text of a capture, counted from one. -/
def capture (m : Occurrence) (index : Nat) : List Char := (m.captures[index - 1]?.join).getD []

def behind (m : Occurrence) : List Char :=
  m.text.drop (min (m.position + m.matched.length) m.text.length)

/-- A reference by number, with its replacement. Two digits that are more than there are captures give way to
the first of them, and a number without a capture replaces itself. -/
def numbered (m : Occurrence) (digits : List Char) : List Char × List Char :=
  let digits :=
    if m.captures.length < Text.digitsValue digits ∧ digits.length = 2 then digits.take 1 else digits
  let index := Text.digitsValue digits
  let reference := '$' :: digits
  (reference, if 1 ≤ index ∧ index ≤ m.captures.length then m.capture index else reference)

/-- A reference by name, with its replacement. Without names or without a closing bracket, what opens the name
replaces itself. -/
def byName (m : Occurrence) (template : List Char) : List Char × List Char :=
  match m.named?, template.idxOf? '>' with
  | some lookup, some stop =>
    (template.take (stop + 1), (lookup ((template.take stop).drop 2)).getD [])
  | _, _ => (['$', '<'], ['$', '<'])

/-- The stretch at the front of a template that is replaced next, with its replacement. -/
def next (m : Occurrence) (template : List Char) : List Char × List Char :=
  if ['$', '$'] <+: template then (['$', '$'], ['$'])
  else if ['$', '`'] <+: template then (['$', '`'], m.text.take m.position)
  else if ['$', '&'] <+: template then (['$', '&'], m.matched)
  else if ['$', '\''] <+: template then (['$', '\''], m.behind)
  else if digitsOf template ≠ [] then m.numbered (digitsOf template)
  else if ['$', '<'] <+: template then m.byName template
  else (template.take 1, template.take 1)

theorem byName_ne_nil (m : Occurrence) {template : List Char} (h : template ≠ []) :
    (m.byName template).1 ≠ [] := by
  obtain ⟨c, rest, rfl⟩ := List.exists_cons_of_ne_nil h
  rw [byName]
  split
  next => exact List.cons_ne_nil _ _
  next => exact List.cons_ne_nil _ _

/-- Every step takes something. -/
theorem next_ne_nil (m : Occurrence) {template : List Char} (h : template ≠ []) :
    (m.next template).1 ≠ [] := by
  obtain ⟨c, rest, rfl⟩ := List.exists_cons_of_ne_nil h
  unfold next
  split_ifs
  · exact List.cons_ne_nil _ _
  · exact List.cons_ne_nil _ _
  · exact List.cons_ne_nil _ _
  · exact List.cons_ne_nil _ _
  · exact List.cons_ne_nil _ _
  · exact m.byName_ne_nil h
  · exact List.cons_ne_nil _ _

/-- What is left of a template behind the next stretch is shorter. -/
theorem length_drop_lt (m : Occurrence) {template : List Char} (h : template ≠ []) :
    (template.drop (m.next template).1.length).length < template.length := by
  have hTaken := List.length_pos_iff.2 (m.next_ne_nil h)
  have hTemplate := List.length_pos_iff.2 h
  rw [List.length_drop]
  omega

/-- The text that a template gives. -/
def substitute (m : Occurrence) (template : List Char) : List Char :=
  if _h : template = [] then []
  else (m.next template).2 ++ m.substitute (template.drop (m.next template).1.length)
termination_by template.length
decreasing_by exact m.length_drop_lt _h

/-- References stand for what an occurrence tells of them. -/
structure Tells (m : Occurrence) (captures : Nat) (hasNames : Bool) (value : Reference → List Char) :
    Prop where
  count : m.captures.length = captures
  names : m.named?.isSome = hasNames
  dollar : value .dollar = ['$']
  whole : value .whole = m.matched
  front : value .front = m.text.take m.position
  behind : value .behind = m.behind
  capture : ∀ index, value (.capture index) = m.capture index
  named : ∀ lookup, m.named? = some lookup →
    ∀ name, value (.named (String.ofList name)) = (lookup name).getD []

end Occurrence

section

variable {captures : Nat} {hasNames : Bool} {value : Reference → List Char}

/-- A reference that has been read is left behind. -/
theorem fill_eq_fill_drop (skip : Nat) (template : List Char) :
    fill captures hasNames value skip template =
      fill captures hasNames value 0 (template.drop skip) := by
  induction template generalizing skip with
  | nil => cases skip <;> rfl
  | cons c rest ih =>
      cases skip with
      | zero => rfl
      | succ skip => rw [fill, ih, List.drop_succ_cons]

theorem fill_of_reference (rest : List Char) {r : Reference} {size : Nat}
    (h : reference? captures hasNames rest = some (r, size)) :
    fill captures hasNames value 0 ('$' :: rest) =
      value r ++ fill captures hasNames value 0 (rest.drop size) := by
  rw [fill, if_pos rfl, h]
  dsimp only
  rw [fill_eq_fill_drop]

/-- A dollar sign that refers to nothing stands for itself, and so do characters behind it. -/
theorem fill_of_no_reference (cs : List Char) {rest : List Char}
    (h : reference? captures hasNames (cs ++ rest) = none) (hPlain : '$' ∉ cs) :
    fill captures hasNames value 0 ('$' :: (cs ++ rest)) =
      '$' :: cs ++ fill captures hasNames value 0 rest := by
  rw [fill, if_pos rfl, h]
  dsimp only
  rw [fill_append_of_notMem hPlain, List.cons_append]

end

/-- Characters that have a meaning of their own behind a dollar sign. -/
def marks : List Char := ['$', '&', '`', '\'', '<']

theorem notMem_marks_of_isDigit {d : Char} (h : Text.isDigit d = true) : d ∉ marks := by
  have hNone : marks.all (fun c => !Text.isDigit c) = true := by decide
  intro hMem
  have hDigit := List.all_eq_true.1 hNone d hMem
  rw [h] at hDigit
  exact Bool.noConfusion hDigit

theorem reference?_of_notMem_marks (captures : Nat) (hasNames : Bool) {d : Char} (h : d ∉ marks)
    (rest : List Char) :
    reference? captures hasNames (d :: rest) =
      if Text.isDigit d then numbered? captures d rest else none := by
  rw [reference?]
  all_goals
    rintro rfl
    exact absurd h (by decide)

/-- What stands at the front decides which rule applies. -/
theorem Occurrence.next_of_notMem_marks (m : Occurrence) {d : Char} (h : d ∉ marks) (rest : List Char) :
    m.next ('$' :: d :: rest) =
      if Text.isDigit d then m.numbered (digitsOf ('$' :: d :: rest)) else (['$'], ['$']) := by
  have hNe : ∀ c ∈ marks, ¬['$', c] <+: '$' :: d :: rest := by
    intro c hc hFront
    rw [List.cons_prefix_cons, List.cons_prefix_cons] at hFront
    exact h (hFront.2.1 ▸ hc)
  have hDigits : digitsOf ('$' :: d :: rest) ≠ [] ↔ Text.isDigit d = true := by
    cases hDigit : Text.isDigit d <;> simp [digitsOf, hDigit]
  rw [next, if_neg (hNe '$' (by decide)), if_neg (hNe '`' (by decide)), if_neg (hNe '&' (by decide)),
    if_neg (hNe '\'' (by decide)), if_neg (hNe '<' (by decide))]
  simp only [hDigits]
  rfl

section

variable {m : Occurrence} {captures : Nat} {hasNames : Bool} {value : Reference → List Char}

/-- One digit, with a character behind it that is none. -/
theorem numbered?_of_one {d : Char} {rest : List Char} (hRest : rest.takeWhile Text.isDigit = []) :
    numbered? captures d rest =
      if 1 ≤ Text.digitValue d ∧ Text.digitValue d ≤ captures then
        some (.capture (Text.digitValue d), 1)
      else none := by
  cases rest with
  | nil => simp [numbered?]
  | cons e more =>
      have hDigit : Text.isDigit e = false := by
        cases h : Text.isDigit e with
        | false => rfl
        | true => simp [h] at hRest
      simp [numbered?, hDigit]

theorem numbered?_of_two {d e : Char} (he : Text.isDigit e = true) (more : List Char) :
    numbered? captures d (e :: more) =
      if 1 ≤ 10 * Text.digitValue d + Text.digitValue e ∧
          10 * Text.digitValue d + Text.digitValue e ≤ captures then
        some (.capture (10 * Text.digitValue d + Text.digitValue e), 2)
      else if 1 ≤ Text.digitValue d ∧ Text.digitValue d ≤ captures then
        some (.capture (Text.digitValue d), 1)
      else none := by
  by_cases hTwo : 1 ≤ 10 * Text.digitValue d + Text.digitValue e ∧
      10 * Text.digitValue d + Text.digitValue e ≤ captures
  · simp [numbered?, he, hTwo, Option.filter_some]
  · simp [numbered?, he, hTwo, Option.filter_some]

theorem digitsValue_one (d : Char) : Text.digitsValue [d] = Text.digitValue d := by
  simp [Text.digitsValue]

theorem digitsValue_two (d e : Char) :
    Text.digitsValue [d, e] = 10 * Text.digitValue d + Text.digitValue e := by
  simp [Text.digitsValue]

/-- Digits that are read as a number, or stand for themselves when there is no such capture. -/
theorem fill_of_index (hTells : m.Tells captures hasNames value) (digits : List Char)
    {rest : List Char} {index : Nat} (hPlain : '$' ∉ digits)
    (h : reference? captures hasNames (digits ++ rest) =
      if 1 ≤ index ∧ index ≤ captures then some (.capture index, digits.length) else none) :
    fill captures hasNames value 0 ('$' :: (digits ++ rest)) =
      (if 1 ≤ index ∧ index ≤ captures then m.capture index else '$' :: digits) ++
        fill captures hasNames value 0 rest := by
  by_cases hIndex : 1 ≤ index ∧ index ≤ captures
  · rw [if_pos hIndex] at h ⊢
    rw [fill_of_reference _ h, hTells.capture, List.drop_left]
  · rw [if_neg hIndex] at h ⊢
    exact fill_of_no_reference digits h hPlain

theorem notMem_of_isDigit {digits : List Char} (h : ∀ d ∈ digits, Text.isDigit d = true) :
    '$' ∉ digits :=
  fun hMem => absurd (h '$' hMem) (by decide)

/-- One digit, read as a number. -/
def Occurrence.ofDigit (m : Occurrence) (d : Char) : List Char × List Char :=
  (['$', d],
    if 1 ≤ Text.digitValue d ∧ Text.digitValue d ≤ m.captures.length then
      m.capture (Text.digitValue d)
    else ['$', d])

theorem Occurrence.numbered_one (m : Occurrence) (d : Char) : m.numbered [d] = m.ofDigit d := by
  simp [numbered, ofDigit, digitsValue_one]

theorem Occurrence.numbered_two (m : Occurrence) (d e : Char) :
    m.numbered [d, e] =
      if m.captures.length < 10 * Text.digitValue d + Text.digitValue e then m.ofDigit d
      else
        (['$', d, e],
          if 1 ≤ 10 * Text.digitValue d + Text.digitValue e ∧
              10 * Text.digitValue d + Text.digitValue e ≤ m.captures.length then
            m.capture (10 * Text.digitValue d + Text.digitValue e)
          else ['$', d, e]) := by
  by_cases hMany : m.captures.length < 10 * Text.digitValue d + Text.digitValue e
  · simp [numbered, ofDigit, digitsValue_one, digitsValue_two, hMany]
  · simp [numbered, digitsValue_two, hMany]

theorem fill_ofDigit (hTells : m.Tells captures hasNames value) {d : Char}
    (hd : Text.isDigit d = true) {rest : List Char}
    (h : numbered? captures d rest =
      if 1 ≤ Text.digitValue d ∧ Text.digitValue d ≤ captures then
        some (.capture (Text.digitValue d), 1)
      else none) :
    fill captures hasNames value 0 ('$' :: d :: rest) =
      (m.ofDigit d).2 ++ fill captures hasNames value 0 rest := by
  have hRead := reference?_of_notMem_marks captures hasNames
    (notMem_marks_of_isDigit hd) rest
  rw [if_pos hd, h] at hRead
  have hPlain : '$' ∉ [d] := notMem_of_isDigit (by simpa using hd)
  rw [Occurrence.ofDigit, hTells.count]
  exact fill_of_index hTells [d] hPlain hRead

theorem fill_numbered (hTells : m.Tells captures hasNames value) {d : Char}
    (hd : Text.isDigit d = true) (rest : List Char) :
    fill captures hasNames value 0 ('$' :: d :: rest) =
      (m.numbered (Occurrence.digitsOf ('$' :: d :: rest))).2 ++
        fill captures hasNames value 0 (('$' :: d :: rest).drop
          (m.numbered (Occurrence.digitsOf ('$' :: d :: rest))).1.length) := by
  by_cases hSecond : ∃ e more, rest = e :: more ∧ Text.isDigit e = true
  · obtain ⟨e, more, rfl, he⟩ := hSecond
    have hDigits : Occurrence.digitsOf ('$' :: d :: e :: more) = [d, e] := by
      simp [Occurrence.digitsOf, hd, he]
    rw [hDigits, m.numbered_two]
    split
    next hMany =>
      -- Two digits are too many, so the second one is literal.
      refine fill_ofDigit hTells hd ?_
      rw [numbered?_of_two he, if_neg (by rw [← hTells.count]; omega)]
    next hFew =>
      have hRead := reference?_of_notMem_marks captures hasNames
        (notMem_marks_of_isDigit hd) (e :: more)
      have hPlain : '$' ∉ [d, e] := notMem_of_isDigit (by simp [hd, he])
      -- When the two digits are zero, so is the first.
      have hFirst : ¬(1 ≤ 10 * Text.digitValue d + Text.digitValue e ∧
          10 * Text.digitValue d + Text.digitValue e ≤ captures) →
            ¬(1 ≤ Text.digitValue d ∧ Text.digitValue d ≤ captures) := by
        rw [hTells.count] at hFew
        omega
      rw [if_pos hd, numbered?_of_two he] at hRead
      rw [hTells.count]
      refine fill_of_index hTells [d, e] hPlain (hRead.trans ?_)
      split
      next => rfl
      next hZero => exact if_neg (hFirst hZero)
  · have hRest : rest.takeWhile Text.isDigit = [] := by
      cases rest with
      | nil => rfl
      | cons e more =>
          refine List.takeWhile_cons_of_neg fun he => hSecond ⟨e, more, rfl, he⟩
    have hDigits : Occurrence.digitsOf ('$' :: d :: rest) = [d] := by
      simp [Occurrence.digitsOf, hd, hRest]
    rw [hDigits, m.numbered_one]
    exact fill_ofDigit hTells hd (numbered?_of_one hRest)

end

theorem cutAt?_singleton (d : Char) (text : List Char) :
    Text.cutAt? [d] text = (text.idxOf? d).map fun i => (text.take i, text.drop (i + 1)) := by
  induction text with
  | nil => rfl
  | cons c rest ih =>
      rw [Text.cutAt?, List.idxOf?_cons]
      by_cases hSame : c = d
      · simp [Text.dropFront?, hSame]
      · have hOther : d ≠ c := fun h => hSame h.symm
        simp [Text.dropFront?, hSame, hOther, ih, Function.comp_def]

section

variable {m : Occurrence} {captures : Nat} {hasNames : Bool} {value : Reference → List Char}

theorem fill_byName (hTells : m.Tells captures hasNames value) (rest : List Char) :
    fill captures hasNames value 0 ('$' :: '<' :: rest) =
      (m.byName ('$' :: '<' :: rest)).2 ++
        fill captures hasNames value 0 (('$' :: '<' :: rest).drop
          (m.byName ('$' :: '<' :: rest)).1.length) := by
  have hStop : ('$' :: '<' :: rest).idxOf? '>' = (rest.idxOf? '>').map (· + 2) := by
    simp [List.idxOf?_cons, Function.comp_def]
  have hRead : reference? captures hasNames ('<' :: rest) =
      if hasNames then (rest.idxOf? '>').map fun i =>
        (.named (String.ofList (rest.take i)), (rest.take i).length + 2)
      else none := by
    rw [reference?, cutAt?_singleton, Option.map_map]
    rfl
  rw [Occurrence.byName, hStop]
  cases hNames : m.named? with
  | none =>
      have hNone : hasNames = false := by rw [← hTells.names, hNames]; rfl
      rw [hNone, if_neg Bool.false_ne_true] at hRead
      exact fill_of_no_reference ['<'] (hNone ▸ hRead) (by decide)
  | some lookup =>
      have hSome : hasNames = true := by rw [← hTells.names, hNames]; rfl
      rw [if_pos hSome] at hRead
      cases hIndex : rest.idxOf? '>' with
      | none =>
          rw [hIndex, Option.map_none] at hRead
          exact fill_of_no_reference ['<'] hRead (by decide)
      | some i =>
          rw [hIndex, Option.map_some] at hRead
          have hLt : i < rest.length := (List.idxOf?_eq_some_iff.1 hIndex).1
          have hLength : (rest.take i).length = i := List.length_take_of_le (Nat.le_of_lt hLt)
          have hTaken : (('$' :: '<' :: rest).take (i + 2 + 1)).length = i + 2 + 1 :=
            List.length_take_of_le (by rw [List.length_cons, List.length_cons]; omega)
          rw [fill_of_reference _ hRead, hTells.named lookup hNames, hLength]
          dsimp only [Option.map_some]
          rw [hTaken]
          rfl

/-- One step of the standard is a part of filling in. -/
theorem fill_eq_next (hTells : m.Tells captures hasNames value) {template : List Char}
    (h : template ≠ []) :
    fill captures hasNames value 0 template =
      (m.next template).2 ++
        fill captures hasNames value 0 (template.drop (m.next template).1.length) := by
  obtain ⟨c, rest, rfl⟩ := List.exists_cons_of_ne_nil h
  by_cases hDollar : c = '$'
  · subst hDollar
    cases rest with
    | nil => rfl
    | cons d rest =>
        by_cases hMark : d ∈ marks
        · simp only [marks, List.mem_cons, List.not_mem_nil, or_false] at hMark
          rcases hMark with rfl | rfl | rfl | rfl | rfl
          · exact (fill_of_reference _ rfl).trans (by rw [hTells.dollar]; rfl)
          · exact (fill_of_reference _ rfl).trans (by rw [hTells.whole]; rfl)
          · exact (fill_of_reference _ rfl).trans (by rw [hTells.front]; rfl)
          · exact (fill_of_reference _ rfl).trans (by rw [hTells.behind]; rfl)
          · exact fill_byName hTells rest
        · rw [m.next_of_notMem_marks hMark]
          cases hDigit : Text.isDigit d with
          | true => exact fill_numbered hTells hDigit rest
          | false =>
              have hRead := reference?_of_notMem_marks captures hasNames hMark rest
              rw [hDigit, if_neg Bool.false_ne_true] at hRead
              exact fill_of_no_reference [] hRead List.not_mem_nil
  · have hNext : m.next (c :: rest) = ([c], [c]) := by
      have hNo : ∀ d, ¬['$', d] <+: c :: rest := fun d hFront =>
        hDollar (List.cons_prefix_cons.1 hFront).1.symm
      have hDigits : Occurrence.digitsOf (c :: rest) = [] := by
        rw [Occurrence.digitsOf]
        exact fun more hFront => hDollar (List.cons.inj hFront).1
      simp [Occurrence.next, hNo, hDigits]
    rw [hNext]
    have hPlain : '$' ∉ [c] := by simpa using Ne.symm hDollar
    exact fill_append_of_notMem hPlain rest

/-- Step by step, the standard fills in the whole template. -/
theorem fill_eq_substitute (hTells : m.Tells captures hasNames value) (template : List Char) :
    fill captures hasNames value 0 template = m.substitute template := by
  induction hLength : template.length using Nat.strong_induction_on generalizing template with
  | _ length ih =>
      rw [Occurrence.substitute]
      split
      next hEmpty => rw [hEmpty]; rfl
      next hMore =>
        rw [fill_eq_next hTells hMore, ih _ (hLength ▸ m.length_drop_lt hMore) _ rfl]

end

/-- A hit as a substitution is told of it. A name stands for the capture at its place. -/
def occurrenceOf (c : Regex.Compiled) (text : List Char) (hit : Regex.Hit) : Occurrence where
  matched := hit.whole.of text
  text := text
  position := hit.whole.start
  captures := hit.groups.map (Option.map (·.of text))
  named? :=
    if c.isNamed then
      some fun name => ((c.names.idxOf? (some (String.ofList name))).bind
        fun i => hit.groups[i]?.join).map (·.of text)
    else none

theorem tells_occurrenceOf (c : Regex.Compiled) (text : List Char) {hit : Regex.Hit}
    (hSpan : hit.whole.start ≤ hit.whole.stop) :
    (occurrenceOf c text hit).Tells hit.groups.length c.isNamed (valueAt c text hit) where
  count := List.length_map _
  names := by cases h : c.isNamed <;> simp [occurrenceOf, h]
  dollar := rfl
  whole := rfl
  front := rfl
  behind := by
    have hLength : (hit.whole.of text).length = min hit.whole.stop text.length - hit.whole.start := by
      rw [Regex.Span.of, List.length_drop, List.length_take]
    rw [Occurrence.behind, valueAt, Regex.Span.behind]
    dsimp only [occurrenceOf]
    rw [hLength]
    rcases Nat.lt_or_ge text.length hit.whole.stop with hBeyond | hWithin
    · rw [List.drop_of_length_le (by omega), List.drop_of_length_le (by omega)]
    · exact congrArg (text.drop ·) (by omega)
  capture index := by
    rw [valueAt, Occurrence.capture]
    dsimp only [occurrenceOf]
    rw [List.getElem?_map]
    cases hit.groups[index - 1]? <;> rfl
  named lookup hLookup name := by
    rw [valueAt, Regex.Compiled.named?, find?_zip_eq]
    simp only [occurrenceOf, Option.ite_none_right_eq_some] at hLookup
    rw [← Option.some.inj hLookup.2]

/-- A text with every dollar sign written twice. -/
def doubled (s : List Char) : List Char := s.flatMap fun c => if c = '$' then ['$', '$'] else [c]

theorem fill_doubled {captures : Nat} {hasNames : Bool} {value : Reference → List Char}
    (h : value .dollar = ['$']) (s : List Char) :
    fill captures hasNames value 0 (doubled s) = s := by
  induction s with
  | nil => rfl
  | cons c rest ih =>
      rw [doubled, List.flatMap_cons, ← doubled]
      by_cases hDollar : c = '$'
      · rw [if_pos hDollar, hDollar]
        refine (fill_of_reference ('$' :: doubled rest) rfl).trans ?_
        rw [h, List.drop_one, List.tail_cons, ih, List.singleton_append]
      · rw [if_neg hDollar, fill_append_of_notMem (by simpa using Ne.symm hDollar), ih,
          List.singleton_append]

/-- Filling in a template at a hit gives what the standard gives. The template alone tells into which pieces
it is taken apart, and every piece is replaced on its own, so what is inserted is not read again. A text
whose dollar signs are all doubled gives itself. -/
theorem expand_follows_standard (c : Regex.Compiled) (template text : List Char) {hit : Regex.Hit}
    (hSpan : hit.whole.start ≤ hit.whole.stop) :
    expand c template text hit = (occurrenceOf c text hit).substitute template ∧
    expand c template text hit =
      (pieces hit.groups.length c.isNamed 0 template).flatMap (Piece.text (valueAt c text hit)) ∧
    ∀ s, expand c (doubled s) text hit = s :=
  ⟨fill_eq_substitute (tells_occurrenceOf c text hSpan) template,
    fill_eq_flatMap hit.groups.length c.isNamed (valueAt c text hit) 0 template,
    fill_doubled rfl⟩

/-- A hit at the end of a text, with a capture that has a name and one that took no part. -/
def orcHit : Regex.Hit := ⟨⟨3, 6⟩, [some ⟨3, 6⟩, none]⟩

/-- References of all kinds, some of them to nothing. -/
theorem orc_follows_standard :
    orcHit.whole.start ≤ orcHit.whole.stop ∧
    (occurrenceOf ⟨[some "who", none], fun _ _ => none⟩ "an orc".toList orcHit).substitute
      "<$`|$<who>|$&$10|$2$3|$00$$1|$<none>$<|$'$".toList = "<an |orc|orcorc0|$3|$00$1|$<|$".toList := by
  have hSpan : orcHit.whole.start ≤ orcHit.whole.stop := by decide
  refine ⟨hSpan, ?_⟩
  rw [← (expand_follows_standard ⟨[some "who", none], fun _ _ => none⟩ _ "an orc".toList hSpan).1]
  decide

end Phrasebook.Template
