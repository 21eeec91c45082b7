import Phrasebook.Proofs.Book.Lookups

/-!
The shape of answers. A part for which nothing was found stands for itself, a pattern has one child for each capture
that took part in its hit, and no child is found in part. An answer has no more levels than there are categories,
and one.
-/

namespace Phrasebook

namespace Rendition

mutual

/-- How many answers are one within the other. -/
def levels : Rendition → Nat
  | node _ _ _ children => levelsOf children + 1

def levelsOf : List Rendition → Nat
  | [] => 0
  | r :: more => max (levels r) (levelsOf more)

end

theorem levels_eq (r : Rendition) : r.levels = levelsOf r.children + 1 := by
  cases r with
  | node target text coverage children => rw [levels, Rendition.children]

theorem levelsOf_le_iff {rs : List Rendition} {n : Nat} :
    levelsOf rs ≤ n ↔ ∀ r ∈ rs, r.levels ≤ n := by
  induction rs with
  | nil => simp [levelsOf]
  | cons r more ih => rw [levelsOf, Nat.max_le, ih, List.forall_mem_cons]

end Rendition

namespace Book

variable {b : Book} {language : String}

/-- The texts of the captures that took part, in the order of the captures. -/
theorem captured_texts (target : List Char) (hit : Regex.Hit) :
    (captured target hit).map (·.2) =
      hit.groups.filterMap (·.map fun span => String.ofList (span.of target)) := by
  conv_rhs => rw [← List.zipIdx_map_fst 0 hit.groups, List.filterMap_map]
  rw [captured, List.map_filterMap]
  refine List.filterMap_congr ?_
  rintro ⟨span?, i⟩ -
  cases span? <;> rfl

/-- A category that is looked up leaves one category fewer. -/
theorem unvisited_lt_of_knows {category : String} (h : b.knows category = true) :
    b.unvisited [category] < b.categories.length := by
  have hMem := mem_categories.2 h
  refine lt_of_le_of_ne List.countP_le_length fun hAll => ?_
  rw [unvisited, List.countP_eq_length] at hAll
  simpa using hAll category hMem

namespace Lookup

/-- Every further level belongs to a category that was not looked up before, apart from the last one, where nothing
may have been found. -/
theorem levels_answer_le (b : Book) (language : String) (l : Lookup) :
    (l.answer b language).levels ≤ b.unvisited (l.category :: l.trail) + 2 := by
  induction l using Lookup.induction b language with
  | step l ih =>
    rw [Rendition.levels_eq, Nat.add_le_add_iff_right, Rendition.levelsOf_le_iff]
    intro child hChild
    rcases cases_of_mem_children hChild with hMissing | ⟨inner, hInner, rfl⟩
    · rw [hMissing, Rendition.levels_eq]
      exact Nat.le_add_left 1 _
    · have hLess := hInner.unvisited_lt
      have hLevels := ih inner hInner
      omega

/-- What an answer looks like: a part for which nothing was found stands for itself; every other part is the answer
of a lookup, and where a pattern was come to, it has a child for each capture that took part in the first hit,
in their order. -/
structure HasShape (b : Book) (language : String) (l : Lookup) (r : Rendition) : Prop where
  missing : ∀ s ∈ r.parts, s.coverage = .missing → s.text = s.target ∧ s.children = []
  origin : ∀ s ∈ r.parts, s = .missing s.target ∨
    ∃ inner ∈ l.lookups b language, s = inner.answer b language
  captures : ∀ inner ∈ l.lookups b language, ∀ rule compiled hit,
    b.verdict inner.category inner.target = .pattern rule compiled hit →
      compiled.first? inner.target.toList = some hit ∧
      (inner.answer b language).children.map (·.target) =
        hit.groups.filterMap (·.map fun span => String.ofList (span.of inner.target.toList))
  children : ∀ s ∈ r.parts, ∀ child ∈ s.children, child.coverage = .full ∨ child.coverage = .missing
  part : r.coverage = .part ↔ ∃ rule compiled hit,
    b.verdict l.category l.target = .pattern rule compiled hit ∧ rule.entry.ignorePart = false ∧
      ∃ child ∈ r.children, child.coverage = .missing
  levels : r.levels ≤ b.categories.length + 1

theorem part_iff (b : Book) (language : String) (l : Lookup) :
    (l.answer b language).coverage = .part ↔ ∃ rule compiled hit,
      b.verdict l.category l.target = .pattern rule compiled hit ∧ rule.entry.ignorePart = false ∧
        ∃ child ∈ (l.answer b language).children, child.coverage = .missing := by
  constructor
  · intro hPart
    cases hVerdict : b.verdict l.category l.target with
    | raw r =>
        rw [answer_eq, hVerdict] at hPart
        cases hPart
    | nothing =>
        rw [answer_eq, hVerdict] at hPart
        cases hPart
    | pattern rule compiled hit =>
        have hNotFull := (coverage_eq_part_iff hVerdict).1 hPart
        rw [Ne, coverage_eq_full_iff hVerdict, not_or, Bool.not_eq_true] at hNotFull
        obtain ⟨hSome, hStrict⟩ := hNotFull
        push Not at hSome
        obtain ⟨capture, hCapture, hMissing⟩ := hSome
        refine ⟨rule, compiled, hit, rfl, hStrict, l.finding b language rule capture, ?_, ?_⟩
        · rw [children_of_pattern hVerdict]
          exact List.mem_map_of_mem hCapture
        · exact (coverage_finding b language l rule capture).resolve_left hMissing
  · rintro ⟨rule, compiled, hit, hVerdict, hStrict, child, hChild, hMissing⟩
    rw [coverage_eq_part_iff hVerdict, Ne, coverage_eq_full_iff hVerdict, hStrict]
    rintro (hAll | hIgnored)
    · rw [children_of_pattern hVerdict] at hChild
      obtain ⟨capture, hCapture, rfl⟩ := List.mem_map.1 hChild
      rw [hAll capture hCapture] at hMissing
      cases hMissing
    · cases hIgnored

theorem levels_answer_root_le (b : Book) (language target category : String) :
    (answer b language ⟨[], category, target⟩).levels ≤ b.categories.length + 1 := by
  cases hVerdict : b.verdict category target with
  | pattern rule compiled hit =>
      have hKnown : b.knows category = true := by
        rw [knows_eq, List.any_eq_true]
        exact ⟨rule, (mem_rulesOf_of_verdict hVerdict).1, rfl⟩
      have hLess := unvisited_lt_of_knows hKnown
      have hLevels := levels_answer_le b language ⟨[], category, target⟩
      dsimp only at hLevels
      omega
  | raw r =>
      rw [answer_eq, hVerdict, Rendition.levels_eq]
      exact Nat.le_add_left 1 _
  | nothing =>
      rw [answer_eq, hVerdict, Rendition.levels_eq]
      exact Nat.le_add_left 1 _

/-- A part for which nothing was found stands for itself, whether it is a capture or the answer of a lookup. -/
theorem answer_of_missing {l : Lookup} (h : (l.answer b language).coverage = .missing) :
    l.answer b language = .missing l.target := by
  cases hVerdict : b.verdict l.category l.target with
  | raw r =>
      rw [answer_eq, hVerdict] at h
      cases h
  | nothing => rw [answer_eq, hVerdict]; rfl
  | pattern rule compiled hit =>
      rw [coverage_of_pattern hVerdict] at h
      split at h <;> cases h

end Lookup

/-- Whatever the entries are, and whatever the patterns fit, the answers have this shape. -/
theorem render_hasShape (engine : Regex.Engine) (entries : List Pack.Entry)
    (target language category : String) :
    Lookup.HasShape (ofEntries engine entries) language ⟨[], category, target⟩
      ((ofEntries engine entries).render target language category) := by
  let l : Lookup := ⟨[], category, target⟩
  have hAnswer : (ofEntries engine entries).render target language category =
      l.answer (ofEntries engine entries) language := rfl
  rw [hAnswer]
  refine ⟨fun s hs hMissing => ?_, fun s hs => Lookup.origin_of_mem_parts hs,
    fun inner _ rule compiled hit hVerdict => ⟨(mem_rulesOf_of_verdict hVerdict).2, ?_⟩,
    fun s hs child hChild => ?_, Lookup.part_iff _ language l,
    Lookup.levels_answer_root_le _ language target category⟩
  · rcases Lookup.origin_of_mem_parts hs with hEq | ⟨inner, -, rfl⟩
    · rw [hEq]
      exact ⟨rfl, rfl⟩
    · rw [Lookup.answer_of_missing hMissing]
      exact ⟨rfl, rfl⟩
  · rw [Lookup.children_of_pattern hVerdict, ← captured_texts, List.map_map]
    exact List.map_congr_left fun capture _ => Lookup.target_finding _ language inner rule capture
  · rcases Lookup.origin_of_mem_parts hs with hEq | ⟨inner, -, rfl⟩
    · rw [hEq] at hChild
      exact absurd hChild List.not_mem_nil
    · rcases Lookup.cases_of_mem_children hChild with hMissing | ⟨next, hNext, rfl⟩
      · rw [hMissing]
        exact Or.inr rfl
      · exact Or.inl hNext.coverage_eq

end Book

end Phrasebook
