import Phrasebook.Proofs.Book.Lookups

/-!
Rules that replace every hit. All hits are replaced in the text of the answer, but only the captures of the first
one are looked up. So the coverage tells whether these are found, and nothing about the hits behind it.
-/

namespace Phrasebook.Book

variable {language : String} {l : Lookup} {rule : Rule} {compiled : Regex.Compiled} {hit : Regex.Hit}

/-- Every capture that took part in a hit has a full answer in one of the lookups that are open to it. -/
def Lookup.FindsAll (b : Book) (language : String) (l : Lookup) (rule : Rule) (hit : Regex.Hit) : Prop :=
  ∀ capture ∈ captured l.target.toList hit, ∃ inner ∈ l.innerLookups b rule capture,
    (inner.answer b language).coverage = .full

theorem Lookup.findsAll_iff {b : Book} : l.FindsAll b language rule hit ↔
    ∀ capture ∈ captured l.target.toList hit,
      (l.finding b language rule capture).coverage = .full :=
  forall₂_congr fun _ _ => coverage_finding_eq_full_iff.symm

/-- A lookup that comes to a rule which replaces every hit, and for which every capture must be found. -/
theorem coverage_of_every_hit (b : Book) (language : String)
    (hVerdict : b.verdict l.category l.target = .pattern rule compiled hit)
    (hGlobal : rule.isGlobal = true) (hStrict : rule.entry.ignorePart = false) :
    ∃ more, compiled.hits l.target.toList = hit :: more ∧
      (l.answer b language).text.toList = (l.answer b language).children.foldl patch
        (Regex.Compiled.substitute l.target.toList
          (Template.expand compiled (templateFor rule language l.target.toList) l.target.toList) 0
          (hit :: more)) ∧
      (l.answer b language).children.map (·.target) = (captured l.target.toList hit).map (·.2) ∧
      ((l.answer b language).coverage = .full ↔ l.FindsAll b language rule hit) ∧
      ((l.answer b language).coverage = .part ↔ ¬l.FindsAll b language rule hit) ∧
      ((∀ h ∈ compiled.hits l.target.toList, l.FindsAll b language rule h) ↔
        (l.answer b language).coverage = .full ∧ ∀ h ∈ more, l.FindsAll b language rule h) := by
  have hFull : (l.answer b language).coverage = .full ↔ l.FindsAll b language rule hit := by
    rw [Lookup.coverage_eq_full_iff hVerdict, hStrict, Lookup.findsAll_iff,
      or_iff_left Bool.false_ne_true]
  obtain ⟨more, hHits⟩ := exists_hits_eq (mem_rulesOf_of_verdict hVerdict).2
  refine ⟨more, hHits, ?_, ?_, hFull, ?_, ?_⟩
  · rw [Lookup.text_of_pattern hVerdict, fillIn_eq, replacedHits, if_pos hGlobal, hHits]
  · rw [Lookup.children_of_pattern hVerdict, List.map_map]
    exact List.map_congr_left fun capture _ => l.target_finding b language rule capture
  · rw [Lookup.coverage_eq_part_iff hVerdict, Ne, hFull]
  · rw [hHits, List.forall_mem_cons, hFull]

/-- A name, and words of which every single letter is looked up among the names. -/
def wordEntries : List Pack.Entry :=
  [{ category := "names", replacements := .ofList [("ko", "아")], raw := some "a", regex := none
     groups := [], ignorePart := false, priority := 0, id := 1 },
    { category := "words", replacements := .ofList [("ko", "글")], raw := none
      regex := some (.flagged "([a-z])" "g"), groups := [.name "names"], ignorePart := false
      priority := 0, id := 2 }]

/-- Looking up two words of which the second one is no name. -/
def wordLookup : Lookup := ⟨[], "words", "a b"⟩

theorem words_rule :
    ∃ rule compiled, (ofEntries Regex.engine wordEntries).verdict "words" "a b" =
        .pattern rule compiled ⟨⟨0, 1⟩, [some ⟨0, 1⟩]⟩ ∧
      rule.isGlobal = true ∧ rule.entry.ignorePart = false ∧ rule.candidates 0 = ["names"] ∧
      compiled.hits "a b".toList = [⟨⟨0, 1⟩, [some ⟨0, 1⟩]⟩, ⟨⟨2, 3⟩, [some ⟨2, 3⟩]⟩] := by
  have hRaw : (ofEntries Regex.engine wordEntries).rawFor? "words" "a b" = none := by cbv
  have hSome : ((ofEntries Regex.engine wordEntries).patternFor? "words" "a b".toList).isSome := by cbv
  have hHit : (((ofEntries Regex.engine wordEntries).patternFor? "words" "a b".toList).get hSome).2.2 =
      ⟨⟨0, 1⟩, [some ⟨0, 1⟩]⟩ := by cbv
  refine ⟨(((ofEntries Regex.engine wordEntries).patternFor? "words" "a b".toList).get hSome).1,
    (((ofEntries Regex.engine wordEntries).patternFor? "words" "a b".toList).get hSome).2.1,
    verdict_eq_pattern_iff.2 ⟨hRaw, ?_⟩, by cbv, by cbv, by cbv, by cbv⟩
  rw [← hHit]
  exact (Option.some_get hSome).symm

theorem not_findsAll_second {rule : Rule} (hCandidates : rule.candidates 0 = ["names"]) :
    ¬wordLookup.FindsAll (ofEntries Regex.engine wordEntries) "ko" rule ⟨⟨2, 3⟩, [some ⟨2, 3⟩]⟩ := by
  intro h
  have hCaptured : captured wordLookup.target.toList ⟨⟨2, 3⟩, [some ⟨2, 3⟩]⟩ = [(0, "b")] := by cbv
  obtain ⟨inner, hInner, hFull⟩ := h (0, "b") (by rw [hCaptured]; exact List.mem_singleton_self _)
  obtain ⟨name, hName, rfl⟩ := List.mem_map.1 hInner
  have hCandidate := List.mem_of_mem_filter hName
  rw [hCandidates] at hCandidate
  obtain rfl := List.mem_singleton.1 hCandidate
  have hMissing : (Lookup.answer (ofEntries Regex.engine wordEntries) "ko"
      ⟨["words"], "names", "b"⟩).coverage = .missing := by cbv
  cases hMissing.symm.trans hFull

/-- Both words are replaced and the answer covers the target, as the first word is a name. -/
theorem words_covered :
    ∃ rule compiled first second,
      (ofEntries Regex.engine wordEntries).verdict wordLookup.category wordLookup.target =
        .pattern rule compiled first ∧
      rule.isGlobal = true ∧ rule.entry.ignorePart = false ∧
      compiled.hits wordLookup.target.toList = [first, second] ∧
      (wordLookup.answer (ofEntries Regex.engine wordEntries) "ko").coverage = .full ∧
      (wordLookup.answer (ofEntries Regex.engine wordEntries) "ko").text = "글 글" ∧
      wordLookup.FindsAll (ofEntries Regex.engine wordEntries) "ko" rule first ∧
      ¬wordLookup.FindsAll (ofEntries Regex.engine wordEntries) "ko" rule second := by
  obtain ⟨rule, compiled, hVerdict, hGlobal, hStrict, hCandidates, hHits⟩ := words_rule
  have hFull : (wordLookup.answer (ofEntries Regex.engine wordEntries) "ko").coverage = .full := by cbv
  obtain ⟨more, -, -, -, hFound, -, -⟩ :=
    coverage_of_every_hit (l := wordLookup) _ "ko" hVerdict hGlobal hStrict
  exact ⟨rule, compiled, _, _, hVerdict, hGlobal, hStrict, hHits, hFull, by cbv, hFound.1 hFull,
    not_findsAll_second hCandidates⟩

/-- That an answer covers its target does not say that the captures of every hit are found. -/
theorem not_findsAll_of_full :
    ¬∀ (entries : List Pack.Entry) (target language category : String) (rule : Rule)
      (compiled : Regex.Compiled) (hit : Regex.Hit),
      (ofEntries Regex.engine entries).verdict category target = .pattern rule compiled hit →
      rule.isGlobal = true → rule.entry.ignorePart = false →
      ((ofEntries Regex.engine entries).render target language category).coverage = .full →
      ∀ h ∈ compiled.hits target.toList,
        Lookup.FindsAll (ofEntries Regex.engine entries) language ⟨[], category, target⟩ rule h := by
  intro h
  obtain ⟨rule, compiled, hVerdict, hGlobal, hStrict, hCandidates, hHits⟩ := words_rule
  have hFull : ((ofEntries Regex.engine wordEntries).render "a b" "ko" "words").coverage = .full := by cbv
  have hAll := h wordEntries "a b" "ko" "words" rule compiled _ hVerdict hGlobal hStrict hFull
  rw [hHits] at hAll
  exact not_findsAll_second hCandidates (hAll _ (by simp))

end Phrasebook.Book
