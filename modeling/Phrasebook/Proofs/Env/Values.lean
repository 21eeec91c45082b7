import Mathlib.Data.List.Basic
import Mathlib.Data.List.Chain
import Phrasebook.Env.Lenient
import Phrasebook.Proofs.Env.Strict
import Phrasebook.Proofs.Text.Search

/-!
The values that both readings of an environment file take the same way: nothing at all, a word, maybe with a
comment behind it, and a quotation. For each of these forms both readings find the same meaning.
-/

namespace Phrasebook.Env

/-- No hash sign stands directly behind a blank, where it would begin a comment. -/
def HasNoComment (cs : List Char) : Prop := cs.IsChain fun b c => c = '#' → Text.isBlank b = false

instance (cs : List Char) : Decidable (HasNoComment cs) :=
  inferInstanceAs (Decidable (cs.IsChain fun b c => c = '#' → Text.isBlank b = false))

/-- A value without quotes and gaps, that no comment begins or ends. -/
structure IsWord (word : List Char) : Prop where
  nonempty : word ≠ []
  start : word.head? ≠ some '#'
  stop : ∀ c ∈ word.getLast?, Text.isBlank c = false
  plain : ∀ c ∈ word, c ≠ '"' ∧ c ≠ '\'' ∧ c ≠ ' ' ∧ c ≠ '\t'
  joined : HasNoComment word

/-- The space between a word and a comment, which ends with a space. -/
structure IsGap (gap : List Char) : Prop where
  chars : ∀ c ∈ gap, c = ' ' ∨ c = '\t'
  stop : gap.getLast? = some ' '

/-- What a text behind an equality sign means. -/
inductive Denotes : List Char → List Char → Prop
  | nothing : Denotes [] []
  | word {word : List Char} (hWord : IsWord word) : Denotes word word
  | commented {word gap : List Char} (hWord : IsWord word) (hGap : IsGap gap) (comment : List Char) :
      Denotes (word ++ (gap ++ '#' :: comment)) word
  | quoted {quote : Char} {inner : List Char} (hQuote : quote = '"' ∨ quote = '\'') (hInner : quote ∉ inner) :
      Denotes (quote :: (inner ++ [quote])) inner

variable {word gap text meaning kept inner rest : List Char} {quote : Char} {lookup : String → String}

namespace IsGap

theorem isBlank (hGap : IsGap gap) : ∀ c ∈ gap, Text.isBlank c = true := fun c hc => by
  rcases hGap.chars c hc with rfl | rfl <;> decide

theorem hash_notMem (hGap : IsGap gap) : '#' ∉ gap := fun hMem =>
  absurd (hGap.isBlank '#' hMem) (by decide)

theorem exists_concat (hGap : IsGap gap) : ∃ front, gap = front ++ [' '] :=
  ⟨gap.dropLast, (List.dropLast_append_getLast? ' ' hGap.stop).symm⟩

end IsGap

namespace IsWord

theorem exists_cons (hWord : IsWord word) : ∃ c more, word = c :: more ∧ c ≠ '#' ∧ c ≠ '"' ∧ c ≠ '\'' := by
  obtain ⟨c, more, rfl⟩ := List.exists_cons_of_ne_nil hWord.nonempty
  obtain ⟨hWeak, hStrong, -⟩ := hWord.plain c List.mem_cons_self
  exact ⟨c, more, rfl, fun hHash => hWord.start (by rw [hHash]; rfl), hWeak, hStrong⟩

theorem space_notMem (hWord : IsWord word) : ' ' ∉ word := fun hMem => (hWord.plain ' ' hMem).2.2.1 rfl

theorem trimRight_append (hWord : IsWord word) {blanks : List Char}
    (hBlanks : ∀ c ∈ blanks, Text.isBlank c = true) :
    Text.trimRight (word ++ blanks) = word := by
  obtain ⟨front, last, rfl⟩ := (List.eq_nil_or_concat word).resolve_left hWord.nonempty
  have hLast : Text.isBlank last = false := hWord.stop last (by simp)
  rw [Text.trimRight_append hBlanks, List.concat_eq_append, Text.trimRight_append_cons hLast]
  rfl

end IsWord

/-- No value that means something begins like a comment. -/
theorem Denotes.head_ne (h : Denotes text meaning) : text.head? ≠ some '#' := by
  cases h with
  | nothing => simp
  | word hWord => exact hWord.start
  | commented hWord hGap comment =>
      obtain ⟨c, more, rfl, hHash, -⟩ := hWord.exists_cons
      simpa using hHash
  | quoted hQuote hInner => rcases hQuote with rfl | rfl <;> simp

theorem Denotes.eq_nil (h : Denotes text meaning) (hText : text = []) : meaning = [] := by
  cases h with
  | nothing => rfl
  | word hWord => exact hText
  | commented hWord hGap comment => simp at hText
  | quoted hQuote hInner => simp at hText

theorem unquote?_cons {c : Char} (hWeak : c ≠ '"') (hStrong : c ≠ '\'') (rest : List Char) :
    unquote? (String.ofList (c :: rest)) = none := by
  simp [unquote?, hWeak, hStrong]

theorem unquote?_quoted (hQuote : quote = '"' ∨ quote = '\'') (inner : List Char) :
    unquote? (String.ofList (quote :: (inner ++ [quote]))) = some (String.ofList inner) := by
  simp [unquote?, hQuote]

theorem dropComment_word (hWord : IsWord word) : dropComment (String.ofList word) = String.ofList word := by
  have hCut := Text.cutAt?_append hWord.space_notMem ['#'] []
  have hTrim : Text.trimRight (word ++ []) = word := hWord.trimRight_append (by simp)
  rw [List.append_nil] at hCut hTrim
  rw [dropComment, String.toList_ofList, hCut]
  exact congrArg String.ofList hTrim

/-- The space right in front of a hash sign is found behind a text without hash signs. -/
theorem cutAt?_space {front : List Char} (h : '#' ∉ front) (rest : List Char) :
    Text.cutAt? [' ', '#'] (front ++ ' ' :: '#' :: rest) = some (front, rest) := by
  induction front with
  | nil => rfl
  | cons c front ih =>
      rw [List.mem_cons, not_or] at h
      have hNext : Text.dropFront? ['#'] (front ++ ' ' :: '#' :: rest) = none := by
        cases front with
        | nil => rfl
        | cons d front =>
            have hHead : '#' ≠ d := fun hEq => h.2 (hEq ▸ List.mem_cons_self)
            simp [Text.dropFront?, hHead]
      simp [Text.cutAt?, Text.dropFront?, hNext, ih h.2]

theorem dropComment_commented (hWord : IsWord word) (hGap : IsGap gap) (comment : List Char) :
    dropComment (String.ofList (word ++ (gap ++ '#' :: comment))) = String.ofList word := by
  obtain ⟨front, rfl⟩ := hGap.exists_concat
  have hHash : '#' ∉ front := fun hMem => hGap.hash_notMem (List.mem_append_left _ hMem)
  have hBlank : ∀ c ∈ front, Text.isBlank c = true := fun c hc => hGap.isBlank c (List.mem_append_left _ hc)
  rw [dropComment, String.toList_ofList, List.append_assoc, List.singleton_append,
    Text.cutAt?_append hWord.space_notMem, cutAt?_space hHash]
  exact congrArg String.ofList (hWord.trimRight_append hBlank)

/-- The lenient reading takes a value for what it means. -/
theorem Denotes.lenient (h : Denotes text meaning) :
    (unquote? (String.ofList text)).getD (dropComment (String.ofList text)) = String.ofList meaning := by
  cases h with
  | nothing => rfl
  | word hWord =>
      obtain ⟨c, more, rfl, -, hWeak, hStrong⟩ := hWord.exists_cons
      rw [unquote?_cons hWeak hStrong, Option.getD_none, dropComment_word hWord]
  | commented hWord hGap comment =>
      rw [dropComment_commented hWord hGap]
      obtain ⟨c, more, rfl, -, hWeak, hStrong⟩ := hWord.exists_cons
      rw [List.cons_append, unquote?_cons hWeak hStrong, Option.getD_none]
  | quoted hQuote hInner => rw [unquote?_quoted hQuote, Option.getD_some]

namespace ValueState

/-- Outside of quotations, with what has been put out so far. -/
def outside (output : List Char) : ValueState := { output }

/-- Behind a value, where only a comment may follow. -/
def behind (output : List Char) : ValueState := { output, ended := true }

/-- Inside a quotation. -/
def inside (quote : Char) (output : List Char) : ValueState :=
  { output, strong := quote = '\'', weak := quote = '"' }

theorem run_cons {s next : ValueState} {c : Char} (h : s.step lookup c = some (next, false)) (cs : List Char) :
    run lookup s (c :: cs) = run lookup next cs := by
  rw [run, h]

theorem run_outside (lookup : String → String) (output rest : List Char)
    (h : ∀ c ∈ word, c ≠ '"' ∧ c ≠ '\'' ∧ c ≠ ' ' ∧ c ≠ '\t')
    (hPlain : ∀ c ∈ word, c ≠ '$' ∧ c ≠ '\\') :
    run lookup (outside output) (word ++ rest) = run lookup (outside (word.reverse ++ output)) rest := by
  induction word generalizing output with
  | nil => rfl
  | cons c more ih =>
      rw [List.forall_mem_cons] at h hPlain
      obtain ⟨⟨hWeak, hStrong, hSpace, hTab⟩, hMore⟩ := h
      have hStep : (outside output).step lookup c = some (outside (c :: output), false) := by
        simp [step, outside, push, hWeak, hStrong, hSpace, hTab, hPlain.1]
      rw [List.cons_append, run_cons hStep, ih _ hMore hPlain.2, List.reverse_cons, List.append_assoc,
        List.singleton_append]

theorem run_behind (output : List Char) (h : ∀ c ∈ gap, c = ' ' ∨ c = '\t') :
    run lookup (behind output) (gap ++ '#' :: rest) = some (behind output) := by
  induction gap with
  | nil => simp [run, step, behind]
  | cons c more ih =>
      rw [List.forall_mem_cons] at h
      have hStep : (behind output).step lookup c = some (behind output, false) := by
        simp [step, behind, h.1]
      rw [List.cons_append, run_cons hStep, ih h.2]

theorem run_gap (output : List Char) (hGap : IsGap gap) :
    run lookup (outside output) (gap ++ '#' :: rest) = some (behind output) := by
  cases gap with
  | nil => exact absurd hGap.stop (by simp)
  | cons c more =>
      have hChars := List.forall_mem_cons.1 hGap.chars
      have hStep : (outside output).step lookup c = some (behind output, false) := by
        rcases hChars.1 with rfl | rfl <;> simp [step, outside, behind]
      rw [List.cons_append, run_cons hStep]
      exact run_behind output hChars.2

theorem run_inside (output : List Char) (hQuote : quote = '"' ∨ quote = '\'') (h : quote ∉ inner)
    (hPlain : ∀ c ∈ inner, c ≠ '$' ∧ c ≠ '\\') :
    run lookup (inside quote output) (inner ++ rest) =
      run lookup (inside quote (inner.reverse ++ output)) rest := by
  induction inner generalizing output with
  | nil => rfl
  | cons c more ih =>
      rw [List.forall_mem_cons] at hPlain
      rw [List.mem_cons, not_or] at h
      have hStep : (inside quote output).step lookup c = some (inside quote (c :: output), false) := by
        rcases hQuote with rfl | rfl <;> simp [step, inside, push, Ne.symm h.1, hPlain.1]
      rw [List.cons_append, run_cons hStep, ih _ h.2 hPlain.2, List.reverse_cons, List.append_assoc,
        List.singleton_append]

theorem run_quotation (lookup : String → String) (output : List Char)
    (hQuote : quote = '"' ∨ quote = '\'') (h : quote ∉ inner) (hPlain : ∀ c ∈ inner, c ≠ '$' ∧ c ≠ '\\') :
    run lookup (outside output) (quote :: (inner ++ [quote])) = some (outside (inner.reverse ++ output)) := by
  have hOpen : (outside output).step lookup quote = some (inside quote output, false) := by
    rcases hQuote with rfl | rfl <;> simp [step, inside, outside]
  have hClose (out : List Char) : (inside quote out).step lookup quote = some (outside out, false) := by
    rcases hQuote with rfl | rfl <;> simp [step, inside, outside]
  rw [run_cons hOpen, run_inside _ hQuote h hPlain, run_cons (hClose _)]
  rfl

end ValueState

/-- What the strict reading keeps of a value: the whole of it, or what is in front of blanks and a hash sign that
stand outside of quotations. -/
def IsKeptOf (kept text : List Char) : Prop :=
  kept = text ∨ ∃ (s : LineState) (blanks more : List Char), s.IsOutside ∧ blanks ≠ [] ∧
    (∀ b ∈ blanks, Text.isBlank b = true) ∧ text = kept ++ (blanks ++ '#' :: more) ∧
    (kept ++ blanks).foldl LineState.step s = .blank

theorem IsKeptOf.head?_eq (h : IsKeptOf kept text) (hNe : kept ≠ []) : text.head? = kept.head? := by
  rcases h with rfl | ⟨s, blanks, more, -, -, -, rfl, -⟩
  · rfl
  · exact List.head?_append_of_ne_nil kept hNe

theorem readValue_of_run {output : List Char} {s : ValueState} (hEmpty : lookup "" = "")
    (hEnd : s = .outside output ∨ s = .behind output) (h : ValueState.run lookup (.outside []) kept = some s) :
    readValue lookup kept = some (String.ofList output.reverse) := by
  have hRun : ValueState.run lookup {} kept = some s := h
  rcases hEnd with rfl | rfl <;>
    simp [readValue, hRun, ValueState.outside, ValueState.behind, ValueState.resolve, hEmpty]

theorem readValue_word (hEmpty : lookup "" = "") (hWord : IsWord word) (hPlain : ∀ c ∈ word, c ≠ '$' ∧ c ≠ '\\') :
    readValue lookup word = some (String.ofList word) := by
  have hRun := ValueState.run_outside lookup [] [] hWord.plain hPlain
  rw [List.append_nil, List.append_nil] at hRun
  rw [readValue_of_run hEmpty (Or.inl rfl) (hRun.trans rfl), List.reverse_reverse]

theorem readValue_commented (hEmpty : lookup "" = "") (hWord : IsWord word) (hGap : IsGap gap)
    (hPlain : ∀ c ∈ word, c ≠ '$' ∧ c ≠ '\\') (comment : List Char) :
    readValue lookup (word ++ (gap ++ '#' :: comment)) = some (String.ofList word) := by
  have hRun := ValueState.run_outside lookup [] (gap ++ '#' :: comment) hWord.plain hPlain
  rw [List.append_nil, ValueState.run_gap _ hGap] at hRun
  rw [readValue_of_run hEmpty (Or.inr rfl) hRun, List.reverse_reverse]

theorem readValue_quoted (hEmpty : lookup "" = "") (hQuote : quote = '"' ∨ quote = '\'') (h : quote ∉ inner)
    (hPlain : ∀ c ∈ inner, c ≠ '$' ∧ c ≠ '\\') :
    readValue lookup (quote :: (inner ++ [quote])) = some (String.ofList inner) := by
  have hRun := ValueState.run_quotation lookup [] hQuote h hPlain
  rw [List.append_nil] at hRun
  rw [readValue_of_run hEmpty (Or.inl rfl) hRun, List.reverse_reverse]

/-- The hash sign that ends a kept text is not in a word. -/
theorem HasNoComment.exists_append {front blanks more : List Char} (h : HasNoComment word) (hNe : blanks ≠ [])
    (hBlanks : ∀ b ∈ blanks, Text.isBlank b = true) (hText : word ++ rest = front ++ (blanks ++ '#' :: more)) :
    ∃ between, front ++ blanks = word ++ between ∧ rest = between ++ '#' :: more := by
  rw [← List.append_assoc, List.append_eq_append_iff] at hText
  rcases hText with ⟨between, hFront, hRest⟩ | ⟨between, hWord, hRest⟩
  · exact ⟨between, hFront, hRest⟩
  · cases between with
    | nil => exact ⟨[], by rw [hWord, List.append_nil, List.append_nil], hRest.symm⟩
    | cons c between =>
        obtain ⟨rfl, -⟩ := List.cons.inj hRest
        obtain ⟨begin, b, rfl⟩ := (List.eq_nil_or_concat blanks).resolve_left hNe
        have hBlank : Text.isBlank b = true := hBlanks b (by simp)
        have hSplit : word = (front ++ begin) ++ b :: '#' :: between := by simp [hWord]
        rw [HasNoComment, hSplit, List.isChain_append_cons_cons] at h
        rw [h.2.1 rfl] at hBlank
        exact absurd hBlank Bool.false_ne_true

/-- A comment that is cut off leaves the word alone, or takes with it a part of the comment behind the word. -/
theorem eq_of_cut {blanks more comment : List Char} (hWord : IsWord word) (hGap : IsGap gap) (hNe : blanks ≠ [])
    (hBlanks : ∀ b ∈ blanks, Text.isBlank b = true) (hTrim : Text.trimRight kept = kept)
    (hText : word ++ (gap ++ '#' :: comment) = kept ++ (blanks ++ '#' :: more)) :
    kept = word ∨ ∃ left, kept = word ++ (gap ++ '#' :: left) := by
  obtain ⟨between, hKept, hRest⟩ := hWord.joined.exists_append hNe hBlanks hText
  have hVisible : kept = Text.trimRight (word ++ between) := by
    rw [← hKept, Text.trimRight_append hBlanks, hTrim]
  have hBetween : between = gap ∨ ∃ left, between = gap ++ '#' :: left := by
    rcases List.append_eq_append_iff.1 hRest with ⟨left, hLeft, hHash⟩ | ⟨left, hLeft, hHash⟩
    · cases left with
      | nil => exact Or.inl (by rw [hLeft, List.append_nil])
      | cons c left => exact Or.inr ⟨left, by rw [hLeft, (List.cons.inj hHash).1]⟩
    · cases left with
      | nil => exact Or.inl (by rw [hLeft, List.append_nil])
      | cons c left =>
          refine absurd ?_ hGap.hash_notMem
          rw [hLeft, ← (List.cons.inj hHash).1]
          exact List.mem_append_right _ List.mem_cons_self
  rcases hBetween with rfl | ⟨left, rfl⟩
  · exact Or.inl (hVisible.trans (hWord.trimRight_append hGap.isBlank))
  · refine Or.inr ⟨Text.trimRight left, ?_⟩
    rw [hVisible, ← List.append_assoc, Text.trimRight_append_cons (by decide), List.append_assoc]

/-- No comment begins inside a quotation. -/
theorem foldl_quoted {s : LineState} {cs more : List Char} (hQuote : quote = '"' ∨ quote = '\'')
    (hInner : quote ∉ inner) (hPlain : ∀ c ∈ inner, c ≠ '\\') (hOutside : s.IsOutside) (hNe : cs ≠ [])
    (hText : quote :: (inner ++ [quote]) = cs ++ '#' :: more) : cs.foldl LineState.step s ≠ .blank := by
  obtain ⟨c, front, rfl⟩ := List.exists_cons_of_ne_nil hNe
  obtain ⟨rfl, hTail⟩ := List.cons.inj hText
  have hFront : front <+: inner := by
    rcases List.append_eq_append_iff.1 hTail with ⟨left, rfl, hLeft⟩ | ⟨left, rfl, -⟩
    · cases left with
      | nil => exact ⟨[], by simp⟩
      | cons d left => simp at hLeft
    · exact List.prefix_append front left
  have hChars : ∀ d ∈ front, d ≠ quote ∧ d ≠ '\\' := fun d hd =>
    ⟨fun hEq => hInner (hEq ▸ hFront.subset hd), hPlain d (hFront.subset hd)⟩
  rw [List.foldl_cons, hOutside.step_quote hQuote, LineState.foldl_inside hQuote hChars]
  rcases hQuote with rfl | rfl <;> decide

/-- The strict reading takes what it keeps of a value for what the value means. -/
theorem Denotes.strict (h : Denotes text meaning) (hPlain : ∀ c ∈ text, c ≠ '$' ∧ c ≠ '\\')
    (hEmpty : lookup "" = "") (hKept : IsKeptOf kept text) (hNe : kept ≠ []) (hTrim : Text.trimRight kept = kept) :
    readValue lookup kept = some (String.ofList meaning) := by
  cases h with
  | nothing =>
      rcases hKept with rfl | ⟨s, blanks, more, -, -, -, hText, -⟩
      · exact absurd rfl hNe
      · exact absurd (List.append_eq_nil_iff.1 hText.symm).1 hNe
  | word hWord =>
      rcases hKept with rfl | ⟨s, blanks, more, -, hBlanksNe, hBlanks, hText, -⟩
      · exact readValue_word hEmpty hWord hPlain
      · rw [← List.append_nil text] at hText
        obtain ⟨between, -, hRest⟩ := hWord.joined.exists_append hBlanksNe hBlanks hText
        simp at hRest
  | commented hWord hGap comment =>
      have hPlainWord := fun c hc => hPlain c (List.mem_append_left _ hc)
      rcases hKept with rfl | ⟨s, blanks, more, -, hBlanksNe, hBlanks, hText, -⟩
      · exact readValue_commented hEmpty hWord hGap hPlainWord comment
      · rcases eq_of_cut hWord hGap hBlanksNe hBlanks hTrim hText with rfl | ⟨left, rfl⟩
        · exact readValue_word hEmpty hWord hPlainWord
        · exact readValue_commented hEmpty hWord hGap hPlainWord left
  | quoted hQuote hInner =>
      have hPlainInner := fun c hc => hPlain c (List.mem_cons_of_mem _ (List.mem_append_left _ hc))
      rcases hKept with rfl | ⟨s, blanks, more, hOutside, hBlanksNe, -, hText, hFold⟩
      · exact readValue_quoted hEmpty hQuote hInner hPlainInner
      · rw [← List.append_assoc] at hText
        exact absurd hFold (foldl_quoted hQuote hInner (fun c hc => (hPlainInner c hc).2) hOutside
          (by simp [hNe]) hText)

/-- However the strict reading goes on behind an equality sign, it comes to what the value means. -/
theorem Denotes.value_eq {v : Option String} (h : Denotes text meaning) (hPlain : ∀ c ∈ text, c ≠ '$' ∧ c ≠ '\\')
    (hTrim : Text.trimRight kept = kept) (hKept : (kept = [] ∧ text = []) ∨ (kept ≠ [] ∧ IsKeptOf kept text))
    (hValue : (kept = [] ∨ ∃ more, kept = '#' :: more) ∧ v = none ∨
      ∃ value, readValue (referred (fun _ => none) []) kept = some value ∧ v = some value) :
    v.getD "" = String.ofList meaning := by
  rcases hKept with ⟨rfl, hNil⟩ | ⟨hNe, hKeptOf⟩
  · rw [h.eq_nil hNil]
    rcases hValue with ⟨-, rfl⟩ | ⟨value, hValue, rfl⟩
    · rfl
    · exact (Option.some.inj hValue).symm
  · have hEmpty : referred (fun _ => none) [] "" = "" := rfl
    have hStrict := h.strict hPlain hEmpty hKeptOf hNe hTrim
    rcases hValue with ⟨hNone | ⟨more, hHash⟩, rfl⟩ | ⟨value, hValue, rfl⟩
    · exact absurd hNone hNe
    · exact absurd (by rw [hKeptOf.head?_eq hNe, hHash]; rfl) h.head_ne
    · rw [hStrict] at hValue
      rw [← Option.some.inj hValue, Option.getD_some]

end Phrasebook.Env
