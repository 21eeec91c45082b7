import Phrasebook.Proofs.Book.Lookups

/-!
Languages without replacements. A target for which there is no replacement is its own template: it is put in the
stead of every hit, and read as a template there. So an answer keeps its target throughout when this gives the target
again wherever a pattern was come to. Where the target has no dollar sign, this is so when the pattern takes
the whole of it at once, and otherwise the answer is longer than the target.
-/

namespace Phrasebook

/-- Without a dollar sign a template has no references. -/
theorem Template.fill_of_notMem {captures : Nat} {hasNames : Bool}
    {value : Template.Reference → List Char} {template : List Char} (h : '$' ∉ template) :
    Template.fill captures hasNames value 0 template = template := by
  calc
    _ = Template.fill captures hasNames value 0 (template ++ []) := by rw [List.append_nil]
    _ = template ++ [] := Template.fill_append_of_notMem h []
    _ = template := List.append_nil template

namespace Regex.Compiled

/-- Every hit adds what is put in its stead. -/
theorem length_mul_le_substitute (text replacement : List Char) (done : Nat) (hits : List Hit) :
    hits.length * replacement.length ≤
      (substitute text (fun _ => replacement) done hits).length := by
  induction hits generalizing done with
  | nil => simp
  | cons hit more ih =>
      have hMore := ih hit.whole.stop
      rw [substitute, List.length_cons, Nat.succ_mul, List.length_append, List.length_append]
      omega

theorem substitute_nil (done : Nat) (hits : List Hit) :
    substitute [] (fun _ => []) done hits = [] := by
  induction hits generalizing done with
  | nil => simp [substitute]
  | cons hit more ih => simp [substitute, Span.of, ih]

theorem substitute_singleton (text : List Char) (expand : Hit → List Char) (hit : Hit) :
    substitute text expand 0 [hit] = hit.whole.front text ++ expand hit ++ hit.whole.behind text := by
  simp [substitute, Span.of, Span.front, Span.behind]

/-- There is one hit, and it takes the whole text. -/
def TakeWhole (text : List Char) (hits : List Hit) : Prop :=
  ∃ hit, hits = [hit] ∧ hit.whole.front text = [] ∧ hit.whole.behind text = []

/-- A text that is put in the stead of hits in itself is there in full. -/
theorem length_le_substitute_self (text : List Char) (hit : Hit) (more : List Hit) :
    text.length ≤ (substitute text (fun _ => text) 0 (hit :: more)).length := by
  have hAll := length_mul_le_substitute text text 0 (hit :: more)
  rw [List.length_cons, Nat.succ_mul] at hAll
  omega

theorem takeWhole_of_length_le {text : List Char} {hit : Hit} {more : List Hit}
    (h : (substitute text (fun _ => text) 0 (hit :: more)).length ≤ text.length) :
    text = [] ∨ TakeWhole text (hit :: more) := by
  by_cases hEmpty : text = []
  · exact Or.inl hEmpty
  · have hPos := List.length_pos_of_ne_nil hEmpty
    have hAll := length_mul_le_substitute text text 0 (hit :: more)
    have hOne : more = [] := by
      by_contra hMore
      have hSome := Nat.mul_le_mul_right text.length (List.length_pos_of_ne_nil hMore)
      rw [List.length_cons, Nat.succ_mul] at hAll
      omega
    subst hOne
    rw [substitute_singleton, List.length_append, List.length_append] at h
    exact Or.inr ⟨hit, rfl, List.length_eq_zero_iff.1 (by omega), List.length_eq_zero_iff.1 (by omega)⟩

theorem substitute_self {text : List Char} {hits : List Hit} (h : text = [] ∨ TakeWhole text hits) :
    substitute text (fun _ => text) 0 hits = text := by
  rcases h with rfl | ⟨hit, rfl, hFront, hBehind⟩
  · exact substitute_nil 0 _
  · rw [substitute_singleton, hFront, hBehind, List.nil_append, List.append_nil]

end Regex.Compiled

namespace Book

open Relation (ReflTransGen)

variable {b : Book} {language : String} {l : Lookup} {rule : Rule} {compiled : Regex.Compiled}
  {hit : Regex.Hit}

/-- No rule has a replacement for the language. -/
def Lacks (b : Book) (language : String) : Prop :=
  ∀ r ∈ b.rules, r.entry.replacements.get? language = none

theorem lacks_ofEntries {engine : Regex.Engine} {entries : List Pack.Entry}
    (h : ∀ e ∈ entries, e.replacements.get? language = none) :
    (ofEntries engine entries).Lacks language := by
  intro r hr
  obtain ⟨e, he, rfl⟩ := List.mem_map.1 (List.mem_mergeSort.1 hr)
  exact h e he

theorem patch_of_kept {child : Rendition} (h : child.text = child.target) (text : List Char) :
    patch text child = text := by
  rw [patch, h, Text.replaceFirst_self, ite_self]

theorem foldl_patch_of_kept {children : List Rendition}
    (h : ∀ child ∈ children, child.text = child.target) (text : List Char) :
    children.foldl patch text = text := by
  induction children with
  | nil => rfl
  | cons child more ih =>
      rw [List.forall_mem_cons] at h
      rw [List.foldl_cons, patch_of_kept h.1, ih h.2]

/-- Texts that are not shorter than what they stand for make the whole no shorter. -/
theorem length_le_foldl_patch {children : List Rendition}
    (h : ∀ child ∈ children, child.target.toList.length ≤ child.text.toList.length)
    (text : List Char) : text.length ≤ (children.foldl patch text).length := by
  induction children generalizing text with
  | nil => exact le_refl _
  | cons child more ih =>
      rw [List.forall_mem_cons] at h
      have hChild : text.length ≤ (patch text child).length := by
        rw [patch]
        split
        · exact Text.length_le_replaceFirst h.1 text
        · exact le_refl _
      exact hChild.trans (ih h.2 _)

/-- Texts that are longer than what they stand for, or the same, are not shorter. -/
theorem length_le_of_grow {children : List Rendition}
    (h : ∀ child ∈ children, child.text ≠ child.target →
      child.coverage = .full ∧ child.target.toList.length < child.text.toList.length) :
    ∀ child ∈ children, child.target.toList.length ≤ child.text.toList.length := by
  intro child hChild
  by_cases hSame : child.text = child.target
  · rw [hSame]
  · exact (h child hChild hSame).2.le

/-- Where every text for a stretch of the whole is longer than the stretch or the same, and the whole has not
become longer, all of them are the same. -/
theorem kept_of_length_foldl_patch {children : List Rendition} {text : List Char}
    (hStretch : ∀ child ∈ children, child.target.toList <:+: text)
    (hFull : ∀ child ∈ children, child.text ≠ child.target →
      child.coverage = .full ∧ child.target.toList.length < child.text.toList.length)
    (hLength : (children.foldl patch text).length ≤ text.length) :
    ∀ child ∈ children, child.text = child.target := by
  induction children with
  | nil => exact fun _ h => absurd h List.not_mem_nil
  | cons child more ih =>
      rw [List.forall_mem_cons] at hStretch hFull
      have hChild : child.text = child.target := by
        by_contra hOther
        obtain ⟨hCoverage, hLonger⟩ := hFull.1 hOther
        have hPatched := Text.length_replaceFirst hStretch.1 child.text.toList
        have hRest := length_le_foldl_patch (length_le_of_grow hFull.2) (patch text child)
        rw [List.foldl_cons] at hLength
        rw [patch, if_pos hCoverage] at hRest hLength
        omega
      rw [List.foldl_cons, patch_of_kept hChild] at hLength
      exact List.forall_mem_cons.2 ⟨hChild, ih hStretch.2 hFull.2 hLength⟩

namespace Lookup

/-- Where a pattern was come to, the target as its own template gives the target again. -/
def Reproduces (b : Book) (l : Lookup) : Prop :=
  ∀ rule compiled hit, b.verdict l.category l.target = .pattern rule compiled hit →
    Regex.Compiled.substitute l.target.toList
      (Template.expand compiled l.target.toList l.target.toList) 0
      (replacedHits rule compiled hit l.target.toList) = l.target.toList

/-- Where a pattern was come to, it takes the whole target at once. -/
def TakesWhole (b : Book) (l : Lookup) : Prop :=
  ∀ rule compiled hit, b.verdict l.category l.target = .pattern rule compiled hit →
    l.target.toList = [] ∨
      Regex.Compiled.TakeWhole l.target.toList (replacedHits rule compiled hit l.target.toList)

theorem fillIn_of_lacks (hLacks : b.Lacks language)
    (hVerdict : b.verdict l.category l.target = .pattern rule compiled hit) :
    fillIn rule compiled hit language l.target.toList =
      Regex.Compiled.substitute l.target.toList
        (Template.expand compiled l.target.toList l.target.toList) 0
        (replacedHits rule compiled hit l.target.toList) := by
  have hRule := hLacks rule (List.mem_of_mem_filter (mem_rulesOf_of_verdict hVerdict).1)
  rw [fillIn_eq, templateFor, hRule, Option.map_none, Option.getD_none]

/-- Raw texts are kept, and what is not found. -/
theorem text_of_no_pattern (hLacks : b.Lacks language)
    (h : ∀ rule compiled hit, b.verdict l.category l.target ≠ .pattern rule compiled hit) :
    (l.answer b language).text = l.target := by
  rw [answer_eq]
  cases hVerdict : b.verdict l.category l.target with
  | raw r =>
      obtain ⟨rule, hRule, rfl⟩ := Option.map_eq_some_iff.1 (verdict_eq_raw_iff.1 hVerdict)
      have hMem := List.mem_of_mem_filter (List.mem_of_find?_eq_some hRule)
      rw [answerBy, hLacks rule hMem]
      rfl
  | pattern rule compiled hit => exact absurd hVerdict (h rule compiled hit)
  | nothing => rfl

theorem children_kept (h : ∀ next, l.Yields b language next →
      (next.answer b language).text = next.target) :
    ∀ child ∈ (l.answer b language).children, child.text = child.target := by
  intro child hChild
  rcases cases_of_mem_children hChild with hMissing | ⟨next, hNext, rfl⟩
  · rw [hMissing]
    rfl
  · rw [h next hNext, target_answer]

/-- When the texts of all captures are kept, the target is kept where it is reproduced. -/
theorem text_of_children_kept (hLacks : b.Lacks language)
    (hVerdict : b.verdict l.category l.target = .pattern rule compiled hit)
    (h : ∀ next, l.Yields b language next → (next.answer b language).text = next.target) :
    (l.answer b language).text.toList =
      Regex.Compiled.substitute l.target.toList
        (Template.expand compiled l.target.toList l.target.toList) 0
        (replacedHits rule compiled hit l.target.toList) := by
  rw [text_of_pattern hVerdict, foldl_patch_of_kept (children_kept h), fillIn_of_lacks hLacks hVerdict]

theorem kept_iff_reproduces (hLacks : b.Lacks language) (l : Lookup) :
    (∀ inner ∈ l.lookups b language, (inner.answer b language).text = inner.target) ↔
      ∀ inner ∈ l.lookups b language, inner.Reproduces b := by
  constructor
  · intro hKept inner hInner rule compiled hit hVerdict
    have hNext : ∀ next, inner.Yields b language next →
        (next.answer b language).text = next.target :=
      fun next hNext => hKept next (ReflTransGen.tail hInner hNext)
    rw [← text_of_children_kept hLacks hVerdict hNext, hKept inner hInner]
  · intro hReproduces inner hInner
    induction inner using Lookup.induction b language with
    | step inner ih =>
      have hNext : ∀ next, inner.Yields b language next →
          (next.answer b language).text = next.target :=
        fun next hNext => ih next hNext (ReflTransGen.tail hInner hNext)
      cases hVerdict : b.verdict inner.category inner.target with
      | pattern rule compiled hit =>
          rw [← String.toList_inj, text_of_children_kept hLacks hVerdict hNext]
          exact hReproduces inner hInner rule compiled hit hVerdict
      | raw r => exact text_of_no_pattern hLacks fun _ _ _ h => by cases hVerdict.symm.trans h
      | nothing => exact text_of_no_pattern hLacks fun _ _ _ h => by cases hVerdict.symm.trans h

theorem expand_self {c : Regex.Compiled} {text : List Char} (h : '$' ∉ text) :
    Template.expand c text text = fun _ => text :=
  funext fun _ => Template.fill_of_notMem h

theorem TakesWhole.reproduces (hDollar : '$' ∉ l.target.toList) (h : l.TakesWhole b) :
    l.Reproduces b := by
  intro rule compiled hit hVerdict
  rw [expand_self hDollar]
  exact Regex.Compiled.substitute_self (h rule compiled hit hVerdict)

/-- What holds of lengths: an answer is not shorter than its target, and if it is no longer either, it is the target
and all patterns that were come to take the whole of theirs. -/
structure Grows (b : Book) (language : String) (l : Lookup) : Prop where
  le : l.target.toList.length ≤ (l.answer b language).text.toList.length
  kept : (l.answer b language).text.toList.length ≤ l.target.toList.length →
    (l.answer b language).text = l.target ∧ ∀ inner ∈ l.lookups b language, inner.TakesWhole b

theorem grows_of_no_pattern (hLacks : b.Lacks language)
    (h : ∀ rule compiled hit, b.verdict l.category l.target ≠ .pattern rule compiled hit) :
    l.Grows b language := by
  have hText := text_of_no_pattern hLacks h
  refine ⟨le_of_eq (by rw [hText]), fun _ => ⟨hText, fun inner hInner => ?_⟩⟩
  rcases mem_lookups_iff.1 hInner with rfl | ⟨next, ⟨rule, compiled, hit, hVerdict, -⟩, -⟩
  · exact fun rule compiled hit hVerdict => absurd hVerdict (h rule compiled hit)
  · exact absurd hVerdict (h rule compiled hit)

/-- A child that is not kept comes from a further lookup, so it is longer than what it stands for. -/
theorem children_grow (hNext : ∀ next, l.Yields b language next → next.Grows b language) :
    ∀ child ∈ (l.answer b language).children, child.text ≠ child.target →
      child.coverage = .full ∧ child.target.toList.length < child.text.toList.length := by
  intro child hChild hOther
  rcases cases_of_mem_children hChild with hMissing | ⟨next, hYields, rfl⟩
  · exact absurd (by rw [hMissing]; rfl) hOther
  · rw [target_answer] at hOther ⊢
    refine ⟨hYields.coverage_eq, ?_⟩
    by_contra hShort
    exact hOther ((hNext next hYields).kept (Nat.le_of_not_lt hShort)).1

theorem grows_of_pattern (hLacks : b.Lacks language) (hDollar : '$' ∉ l.target.toList)
    (hVerdict : b.verdict l.category l.target = .pattern rule compiled hit)
    (hNext : ∀ next, l.Yields b language next → next.Grows b language) : l.Grows b language := by
  obtain ⟨more, hHits⟩ := exists_replacedHits_eq hVerdict
  have hText : (l.answer b language).text.toList = _ := text_of_pattern hVerdict
  rw [fillIn_of_lacks hLacks hVerdict, expand_self hDollar, hHits] at hText
  -- Neither filling in nor putting the children in place makes the text shorter.
  have hFilled := Regex.Compiled.length_le_substitute_self l.target.toList hit more
  have hPatched := length_le_foldl_patch (length_le_of_grow (children_grow hNext))
    (Regex.Compiled.substitute l.target.toList (fun _ => l.target.toList) 0 (hit :: more))
  rw [← hText] at hPatched
  refine ⟨hFilled.trans hPatched, fun hLength => ?_⟩
  -- When the text is no longer in the end, neither of the two has made it longer.
  have hWhole := Regex.Compiled.takeWhole_of_length_le (hPatched.trans hLength)
  rw [Regex.Compiled.substitute_self hWhole] at hText
  have hKept := kept_of_length_foldl_patch (fun child hChild => infix_of_mem_children hChild)
    (children_grow hNext) (hText ▸ hLength)
  rw [foldl_patch_of_kept hKept, String.toList_inj] at hText
  refine ⟨hText, fun inner hInner => ?_⟩
  rcases mem_lookups_iff.1 hInner with rfl | ⟨next, hYields, hLater⟩
  · intro rule' compiled' hit' hSame
    cases hVerdict.symm.trans hSame
    rwa [hHits]
  · have hNextKept := hKept _ hYields.answer_mem
    rw [target_answer] at hNextKept
    exact ((hNext next hYields).kept (le_of_eq (by rw [hNextKept]))).2 inner hLater

theorem grows (hLacks : b.Lacks language) (l : Lookup) (hDollar : '$' ∉ l.target.toList) :
    l.Grows b language := by
  induction l using Lookup.induction b language with
  | step l ih =>
    have hNext : ∀ next, l.Yields b language next → next.Grows b language := by
      intro next hYields
      have hStretch := infix_of_mem_lookups (mem_lookups_iff.2 (Or.inr
        ⟨next, hYields, next.self_mem_lookups b language⟩))
      exact ih next hYields fun hMem => hDollar (hStretch.subset hMem)
    cases hVerdict : b.verdict l.category l.target with
    | pattern rule compiled hit => exact grows_of_pattern hLacks hDollar hVerdict hNext
    | raw r => exact grows_of_no_pattern hLacks fun _ _ _ h => by cases hVerdict.symm.trans h
    | nothing => exact grows_of_no_pattern hLacks fun _ _ _ h => by cases hVerdict.symm.trans h

theorem text_eq_target_iff (hLacks : b.Lacks language) (hDollar : '$' ∉ l.target.toList) :
    (l.answer b language).text = l.target ↔ ∀ inner ∈ l.lookups b language, inner.TakesWhole b := by
  constructor
  · intro hText
    exact ((grows hLacks l hDollar).kept (le_of_eq (by rw [hText]))).2
  · intro hWhole
    refine (kept_iff_reproduces hLacks l).2 (fun inner hInner => ?_) l (l.self_mem_lookups b language)
    refine TakesWhole.reproduces (fun hMem => hDollar ?_) (hWhole inner hInner)
    exact (infix_of_mem_lookups hInner).subset hMem

end Lookup

/-- Answers in a language for which no entry has a replacement. Raw texts are kept, and what is not found. All parts
of an answer are kept exactly when every target is reproduced as its own template. A target without a dollar sign
is kept exactly when every pattern that is come to takes the whole of its own target, and otherwise it gets
longer. -/
theorem text_without_replacements (engine : Regex.Engine) {entries : List Pack.Entry} {language : String}
    (hLacks : ∀ e ∈ entries, e.replacements.get? language = none) (target category : String) :
    let b := ofEntries engine entries
    let l : Lookup := ⟨[], category, target⟩
    ((∀ rule compiled hit, b.verdict category target ≠ .pattern rule compiled hit) →
      (b.render target language category).text = target) ∧
    ((∀ s ∈ (b.render target language category).parts, s.text = s.target) ↔
      ∀ inner ∈ l.lookups b language, inner.Reproduces b) ∧
    ('$' ∉ target.toList →
      target.toList.length ≤ (b.render target language category).text.toList.length ∧
      ((b.render target language category).text = target ↔
        ∀ inner ∈ l.lookups b language, inner.TakesWhole b)) := by
  intro b l
  have hBook : b.Lacks language := lacks_ofEntries hLacks
  refine ⟨Lookup.text_of_no_pattern (l := l) hBook, ?_, fun hDollar =>
    ⟨(Lookup.grows hBook l hDollar).le, Lookup.text_eq_target_iff (l := l) hBook hDollar⟩⟩
  rw [← Lookup.kept_iff_reproduces hBook l]
  constructor
  · intro hParts inner hInner
    rw [hParts _ (Lookup.answer_mem_parts hInner), Lookup.target_answer]
  · intro hKept s hs
    rcases Lookup.origin_of_mem_parts (l := l) hs with hMissing | ⟨inner, hInner, rfl⟩
    · rw [hMissing]
      rfl
    · rw [hKept inner hInner, Lookup.target_answer]

/-- An entry for texts with a certain letter. -/
def firstLetter : Pack.Entry :=
  { category := "letters", replacements := .ofList [("ko", "가")], raw := none
    regex := some (.bare "a"), groups := [], ignorePart := false, priority := 0, id := 6 }

/-- The pattern for ways takes the whole text, and that for letters does not. -/
theorem way_kept :
    (∀ e ∈ [wayTo, townBusan, firstLetter], e.replacements.get? "ja" = none) ∧
    '$' ∉ "to Busan".toList ∧ '$' ∉ "ab".toList ∧
    ((ofEntries Regex.engine [wayTo, townBusan, firstLetter]).render "to Busan" "ja" "way").text =
      "to Busan" ∧
    (∀ inner ∈ Lookup.lookups (ofEntries Regex.engine [wayTo, townBusan, firstLetter]) "ja"
        ⟨[], "way", "to Busan"⟩,
      inner.TakesWhole (ofEntries Regex.engine [wayTo, townBusan, firstLetter])) ∧
    ((ofEntries Regex.engine [wayTo, townBusan, firstLetter]).render "ab" "ja" "letters").text = "abb" ∧
    ¬∀ inner ∈ Lookup.lookups (ofEntries Regex.engine [wayTo, townBusan, firstLetter]) "ja"
        ⟨[], "letters", "ab"⟩,
      inner.TakesWhole (ofEntries Regex.engine [wayTo, townBusan, firstLetter]) := by
  have hLacks : ∀ e ∈ [wayTo, townBusan, firstLetter], e.replacements.get? "ja" = none := by decide
  have hWay : '$' ∉ "to Busan".toList := by decide
  have hLetters : '$' ∉ "ab".toList := by decide
  have hKept : ((ofEntries Regex.engine [wayTo, townBusan, firstLetter]).render "to Busan" "ja"
      "way").text = "to Busan" := by cbv
  have hLonger : ((ofEntries Regex.engine [wayTo, townBusan, firstLetter]).render "ab" "ja"
      "letters").text = "abb" := by cbv
  refine ⟨hLacks, hWay, hLetters, hKept, ?_, hLonger, fun hWhole => ?_⟩
  · exact ((text_without_replacements Regex.engine hLacks "to Busan" "way").2.2 hWay).2.1 hKept
  · have hSame := ((text_without_replacements Regex.engine hLacks "ab" "letters").2.2 hLetters).2.2 hWhole
    exact absurd (hLonger.symm.trans hSame) (by decide)

/-- A text is not always kept in a language for which there is no replacement. -/
theorem not_text_eq_target :
    ¬∀ (entries : List Pack.Entry) (target language category : String),
      (∀ e ∈ entries, e.replacements.get? language = none) →
        ((ofEntries Regex.engine entries).render target language category).text = target := by
  intro h
  have hSame := h [firstLetter] "ab" "ja" "letters" (by decide)
  have hLonger : ((ofEntries Regex.engine [firstLetter]).render "ab" "ja" "letters").text = "abb" := by
    cbv
  exact absurd (hLonger.symm.trans hSame) (by decide)

end Book

end Phrasebook
