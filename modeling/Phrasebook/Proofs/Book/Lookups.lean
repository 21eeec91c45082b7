import Phrasebook.Proofs.Book.Coverage
import Phrasebook.Proofs.Book.Substitution

/-!
The lookups of which an answer is made. What a book has for a target in a category decides how the answer is put
together; where this is a pattern, its captures are looked up in turn. So every part of an answer is the answer
of a lookup that was come to, or it is a capture for which nothing was found.
-/

namespace Phrasebook

open Relation (ReflTransGen)

/-- The answer, and at every depth the answers of which it is made. -/
def Rendition.parts (r : Rendition) : Set Rendition :=
  {s | ReflTransGen (fun outer inner => inner ∈ outer.children) r s}

namespace Book

/-- What a book has for a target in a category. -/
inductive Verdict where
  | raw (replacements : Replacements)
  | pattern (rule : Rule) (compiled : Regex.Compiled) (hit : Regex.Hit)
  | nothing

def verdict (b : Book) (category target : String) : Verdict :=
  match b.rawFor? category target with
  | some r => .raw r
  | none =>
    match b.patternFor? category target.toList with
    | some (rule, compiled, hit) => .pattern rule compiled hit
    | none => .nothing

/-- A target that is looked up in a category, while the categories of the trail are being looked up. -/
structure Lookup where
  trail : List String
  category : String
  target : String

namespace Lookup

def answer (b : Book) (language : String) (l : Lookup) : Rendition :=
  b.renderIn language l.trail l.category l.target

/-- The lookups of a capture in the categories that are open to it, in their order. -/
def innerLookups (b : Book) (l : Lookup) (rule : Rule) (capture : Nat × String) : List Lookup :=
  (b.openCandidates (l.category :: l.trail) rule capture.1).map fun name =>
    ⟨l.category :: l.trail, name, capture.2⟩

/-- The first lookup that has a full answer for a capture. -/
def inner? (b : Book) (language : String) (l : Lookup) (rule : Rule) (capture : Nat × String) :
    Option Lookup :=
  (l.innerLookups b rule capture).find? fun inner => (inner.answer b language).coverage = .full

def finding (b : Book) (language : String) (l : Lookup) (rule : Rule) (capture : Nat × String) :
    Rendition :=
  ((l.inner? b language rule capture).map (answer b language)).getD (.missing capture.2)

/-- The answer that goes with a verdict. -/
def answerBy (b : Book) (language : String) (l : Lookup) : Verdict → Rendition
  | .raw r => .node l.target ((r.get? language).getD l.target) .full []
  | .pattern rule compiled hit =>
    let children := (captured l.target.toList hit).map (l.finding b language rule)
    let patched := children.foldl patch (fillIn rule compiled hit language l.target.toList)
    let complete := children.all (·.coverage = .full) || rule.entry.ignorePart
    .node l.target (String.ofList patched) (if complete then .full else .part) children
  | .nothing => .missing l.target

/-- The verdict on `l` is a pattern, and the text of one of its captures is found in `inner`. -/
def Yields (b : Book) (language : String) (l inner : Lookup) : Prop :=
  ∃ rule compiled hit, b.verdict l.category l.target = .pattern rule compiled hit ∧
    ∃ capture ∈ captured l.target.toList hit, l.inner? b language rule capture = some inner

/-- The lookups of which the answer is made, the lookup itself among them. -/
def lookups (b : Book) (language : String) (l : Lookup) : Set Lookup :=
  {inner | ReflTransGen (Yields b language) l inner}

end Lookup

variable {b : Book} {language : String} {l inner : Lookup} {rule : Rule} {compiled : Regex.Compiled}
  {hit : Regex.Hit} {capture : Nat × String}

theorem verdict_eq_raw_iff {category target : String} {r : Replacements} :
    b.verdict category target = .raw r ↔ b.rawFor? category target = some r := by
  rw [verdict]
  cases b.rawFor? category target with
  | some r' => simp
  | none => cases b.patternFor? category target.toList <;> simp

theorem verdict_eq_pattern_iff {category target : String} :
    b.verdict category target = .pattern rule compiled hit ↔
      b.rawFor? category target = none ∧
        b.patternFor? category target.toList = some (rule, compiled, hit) := by
  rw [verdict]
  cases b.rawFor? category target with
  | some r => simp
  | none => cases b.patternFor? category target.toList <;> simp [Prod.ext_iff]

theorem verdict_eq_nothing_iff {category target : String} :
    b.verdict category target = .nothing ↔
      b.rawFor? category target = none ∧ b.patternFor? category target.toList = none := by
  rw [verdict]
  cases b.rawFor? category target with
  | some r => simp
  | none => cases b.patternFor? category target.toList <;> simp

/-- The rule that is come to is one of the category, and the hit is the first one of its pattern. -/
theorem mem_rulesOf_of_verdict {category target : String}
    (h : b.verdict category target = .pattern rule compiled hit) :
    rule ∈ b.rulesOf category ∧ compiled.first? target.toList = some hit := by
  obtain ⟨-, hPattern⟩ := verdict_eq_pattern_iff.1 h
  obtain ⟨r, hRule, hFits⟩ := List.exists_of_findSome?_eq_some hPattern
  obtain ⟨c, -, hHit⟩ := Option.bind_eq_some_iff.1 hFits
  obtain ⟨first, hFirst, hEq⟩ := Option.map_eq_some_iff.1 hHit
  cases hEq
  exact ⟨hRule, hFirst⟩

theorem firstAnswer_eq_find? {answer : String → Rendition} (names : List String) :
    firstAnswer answer names = (names.find? fun name => (answer name).coverage = .full).map answer := by
  induction names with
  | nil => rfl
  | cons name more ih =>
      rw [firstAnswer] at ih ⊢
      rw [List.findSome?_cons, List.find?_cons, ih]
      by_cases hFull : (answer name).coverage = .full
      · simp [hFull]
      · simp [hFull]

theorem infix_of_mem_captured {target : List Char} (h : capture ∈ captured target hit) :
    capture.2.toList <:+: target := by
  obtain ⟨⟨span?, i⟩, -, hSpan⟩ := List.mem_filterMap.1 h
  obtain ⟨span, -, rfl⟩ := Option.map_eq_some_iff.1 hSpan
  rw [String.toList_ofList, Regex.Span.of]
  exact (List.drop_suffix _ _).isInfix.trans (List.take_prefix _ _).isInfix

/-- The first hit is the one at which the hits begin. -/
theorem exists_hits_eq {target : List Char} (h : compiled.first? target = some hit) :
    ∃ more, compiled.hits target = hit :: more := by
  rw [Regex.Compiled.first?] at h
  rw [Regex.Compiled.hits, Regex.Compiled.hitsFrom, h]
  dsimp only
  rw [if_neg fun hLast => by cases hLast.2]
  exact ⟨_, rfl⟩

def replacedHits (rule : Rule) (compiled : Regex.Compiled) (hit : Regex.Hit) (target : List Char) :
    List Regex.Hit :=
  if rule.isGlobal then compiled.hits target else [hit]

/-- What is put in the stead of a hit; the target is its own template where there is no other one. -/
def templateFor (rule : Rule) (language : String) (target : List Char) : List Char :=
  ((rule.entry.replacements.get? language).map String.toList).getD target

theorem fillIn_eq (rule : Rule) (compiled : Regex.Compiled) (hit : Regex.Hit) (language : String)
    (target : List Char) :
    fillIn rule compiled hit language target =
      Regex.Compiled.substitute target
        (Template.expand compiled (templateFor rule language target) target) 0
        (replacedHits rule compiled hit target) := rfl

theorem exists_replacedHits_eq {category target : String}
    (h : b.verdict category target = .pattern rule compiled hit) :
    ∃ more, replacedHits rule compiled hit target.toList = hit :: more := by
  rw [replacedHits]
  split
  · exact exists_hits_eq (mem_rulesOf_of_verdict h).2
  · exact ⟨[], rfl⟩

namespace Lookup

theorem finding_eq (b : Book) (language : String) (l : Lookup) (rule : Rule) (capture : Nat × String) :
    l.finding b language rule capture =
      (firstAnswer (b.renderIn language (l.category :: l.trail) · capture.2)
        (b.openCandidates (l.category :: l.trail) rule capture.1)).getD (.missing capture.2) := by
  rw [finding, inner?, innerLookups, List.find?_map, Option.map_map, firstAnswer_eq_find?]
  rfl

/-- The answer goes with the verdict. -/
theorem answer_eq (b : Book) (language : String) (l : Lookup) :
    l.answer b language = l.answerBy b language (b.verdict l.category l.target) := by
  rw [answer, renderIn_eq, verdict]
  cases b.rawFor? l.category l.target with
  | some r => rfl
  | none =>
      cases b.patternFor? l.category l.target.toList with
      | none => rfl
      | some found =>
          have hFinding := funext (finding_eq b language l found.1)
          rw [answerBy, hFinding]

theorem target_answer (b : Book) (language : String) (l : Lookup) :
    (l.answer b language).target = l.target :=
  target_renderIn b language l.trail l.category l.target

theorem children_of_pattern (h : b.verdict l.category l.target = .pattern rule compiled hit) :
    (l.answer b language).children =
      (captured l.target.toList hit).map (l.finding b language rule) := by
  rw [answer_eq, h]
  rfl

theorem text_of_pattern (h : b.verdict l.category l.target = .pattern rule compiled hit) :
    (l.answer b language).text.toList =
      (l.answer b language).children.foldl patch
        (fillIn rule compiled hit language l.target.toList) := by
  rw [children_of_pattern h, answer_eq, h]
  exact String.toList_ofList

/-- Only patterns have children. -/
theorem exists_of_mem_children {child : Rendition} (h : child ∈ (l.answer b language).children) :
    ∃ rule compiled hit, b.verdict l.category l.target = .pattern rule compiled hit ∧
      ∃ capture ∈ captured l.target.toList hit, child = l.finding b language rule capture := by
  cases hVerdict : b.verdict l.category l.target with
  | raw r =>
      rw [answer_eq, hVerdict] at h
      exact absurd h List.not_mem_nil
  | nothing =>
      rw [answer_eq, hVerdict] at h
      exact absurd h List.not_mem_nil
  | pattern rule compiled hit =>
      rw [children_of_pattern hVerdict] at h
      obtain ⟨capture, hCapture, rfl⟩ := List.mem_map.1 h
      exact ⟨rule, compiled, hit, rfl, capture, hCapture, rfl⟩

theorem coverage_of_inner? (h : l.inner? b language rule capture = some inner) :
    (inner.answer b language).coverage = .full := by
  have hFull := List.find?_some h
  simpa using hFull

theorem target_of_inner? (h : l.inner? b language rule capture = some inner) :
    inner.target = capture.2 := by
  obtain ⟨name, -, rfl⟩ := List.mem_map.1 (List.mem_of_find?_eq_some h)
  rfl

theorem unvisited_of_inner? (h : l.inner? b language rule capture = some inner) :
    b.unvisited (inner.category :: inner.trail) < b.unvisited (l.category :: l.trail) := by
  obtain ⟨name, hName, rfl⟩ := List.mem_map.1 (List.mem_of_find?_eq_some h)
  exact unvisited_lt hName

theorem finding_of_some (h : l.inner? b language rule capture = some inner) :
    l.finding b language rule capture = inner.answer b language := by
  rw [finding, h, Option.map_some, Option.getD_some]

theorem finding_of_none (h : l.inner? b language rule capture = none) :
    l.finding b language rule capture = .missing capture.2 := by
  rw [finding, h, Option.map_none, Option.getD_none]

theorem target_finding (b : Book) (language : String) (l : Lookup) (rule : Rule)
    (capture : Nat × String) : (l.finding b language rule capture).target = capture.2 := by
  cases hInner : l.inner? b language rule capture with
  | none => rw [finding_of_none hInner]; rfl
  | some inner => rw [finding_of_some hInner, target_answer, target_of_inner? hInner]

/-- A child stands for a stretch of the target. -/
theorem infix_of_mem_children {child : Rendition} (h : child ∈ (l.answer b language).children) :
    child.target.toList <:+: l.target.toList := by
  obtain ⟨rule, compiled, hit, -, capture, hCapture, rfl⟩ := exists_of_mem_children h
  rw [target_finding]
  exact infix_of_mem_captured hCapture

/-- A capture is found in full or not at all. -/
theorem coverage_finding (b : Book) (language : String) (l : Lookup) (rule : Rule)
    (capture : Nat × String) :
    (l.finding b language rule capture).coverage = .full ∨
      (l.finding b language rule capture).coverage = .missing := by
  cases hInner : l.inner? b language rule capture with
  | none => rw [finding_of_none hInner]; exact Or.inr rfl
  | some inner => rw [finding_of_some hInner]; exact Or.inl (coverage_of_inner? hInner)

/-- A capture is found when one of the lookups that are open to it has a full answer. -/
theorem coverage_finding_eq_full_iff :
    (l.finding b language rule capture).coverage = .full ↔
      ∃ inner ∈ l.innerLookups b rule capture, (inner.answer b language).coverage = .full := by
  rw [finding_eq, coverage_firstAnswer, innerLookups]
  simp only [List.mem_map, exists_exists_and_eq_and]
  rfl

theorem coverage_of_pattern (h : b.verdict l.category l.target = .pattern rule compiled hit) :
    (l.answer b language).coverage =
      if (l.answer b language).children.all (·.coverage = .full) || rule.entry.ignorePart then .full
      else .part := by
  rw [children_of_pattern h, answer_eq, h]
  rfl

/-- A pattern covers all when every capture is found, or need not be. -/
theorem coverage_eq_full_iff (h : b.verdict l.category l.target = .pattern rule compiled hit) :
    (l.answer b language).coverage = .full ↔
      (∀ capture ∈ captured l.target.toList hit,
        (l.finding b language rule capture).coverage = .full) ∨ rule.entry.ignorePart = true := by
  have hComplete : ((l.answer b language).children.all (·.coverage = .full) ||
      rule.entry.ignorePart) = true ↔ (∀ capture ∈ captured l.target.toList hit,
        (l.finding b language rule capture).coverage = .full) ∨ rule.entry.ignorePart = true := by
    rw [children_of_pattern h, List.all_map, Bool.or_eq_true, List.all_eq_true]
    simp only [Function.comp_apply, decide_eq_true_eq]
  rw [coverage_of_pattern h, ← hComplete]
  split
  next hAll => exact iff_of_true rfl hAll
  next hSome => exact iff_of_false (fun h => by cases h) hSome

theorem coverage_eq_part_iff (h : b.verdict l.category l.target = .pattern rule compiled hit) :
    (l.answer b language).coverage = .part ↔ (l.answer b language).coverage ≠ .full := by
  rw [coverage_of_pattern h]
  split
  · exact iff_of_false (fun h => by cases h) fun h => h rfl
  · exact iff_of_true rfl fun h => by cases h

theorem Yields.unvisited_lt (h : l.Yields b language inner) :
    b.unvisited (inner.category :: inner.trail) < b.unvisited (l.category :: l.trail) := by
  obtain ⟨rule, compiled, hit, -, capture, -, hInner⟩ := h
  exact unvisited_of_inner? hInner

theorem Yields.answer_mem (h : l.Yields b language inner) :
    inner.answer b language ∈ (l.answer b language).children := by
  obtain ⟨rule, compiled, hit, hVerdict, capture, hCapture, hInner⟩ := h
  rw [children_of_pattern hVerdict, ← finding_of_some hInner]
  exact List.mem_map_of_mem hCapture

/-- A child is a capture for which nothing was found, or the answer of a further lookup. -/
theorem cases_of_mem_children {child : Rendition} (h : child ∈ (l.answer b language).children) :
    child = .missing child.target ∨
      ∃ next, l.Yields b language next ∧ child = next.answer b language := by
  obtain ⟨rule, compiled, hit, hVerdict, capture, hCapture, rfl⟩ := exists_of_mem_children h
  cases hInner : l.inner? b language rule capture with
  | none =>
      rw [finding_of_none hInner]
      exact Or.inl rfl
  | some next =>
      exact Or.inr ⟨next, ⟨rule, compiled, hit, hVerdict, capture, hCapture, hInner⟩,
        finding_of_some hInner⟩

theorem Yields.coverage_eq (h : l.Yields b language inner) :
    (inner.answer b language).coverage = .full := by
  obtain ⟨rule, compiled, hit, -, capture, -, hInner⟩ := h
  exact coverage_of_inner? hInner

/-- What holds of a lookup when it holds of all lookups in which its captures are found, holds of every lookup:
each further lookup leaves fewer categories to be looked up. -/
@[elab_as_elim]
theorem induction (b : Book) (language : String) {P : Lookup → Prop}
    (step : ∀ l, (∀ inner, l.Yields b language inner → P inner) → P l) (l : Lookup) : P l := by
  induction hSize : b.unvisited (l.category :: l.trail) using Nat.strong_induction_on
    generalizing l with
  | _ size ih => exact step l fun inner hInner => ih _ (hSize ▸ hInner.unvisited_lt) inner rfl

theorem self_mem_lookups (b : Book) (language : String) (l : Lookup) : l ∈ l.lookups b language :=
  ReflTransGen.refl

/-- A further lookup is the lookup itself, or one of which an answer for a capture is made. -/
theorem mem_lookups_iff : inner ∈ l.lookups b language ↔
    inner = l ∨ ∃ next, l.Yields b language next ∧ inner ∈ next.lookups b language := by
  refine Relation.ReflTransGen.cases_head_iff.trans (or_congr_left eq_comm)

/-- What is looked up is a stretch of the target. -/
theorem infix_of_mem_lookups (h : inner ∈ l.lookups b language) :
    inner.target.toList <:+: l.target.toList := by
  induction h with
  | refl => exact List.infix_rfl
  | tail _ hLast ih =>
      obtain ⟨rule, compiled, hit, -, capture, hCapture, hInner⟩ := hLast
      rw [target_of_inner? hInner]
      exact (infix_of_mem_captured hCapture).trans ih

/-- The answers of the lookups of which an answer is made are parts of it. -/
theorem answer_mem_parts (h : inner ∈ l.lookups b language) :
    inner.answer b language ∈ (l.answer b language).parts := by
  induction h with
  | refl => exact ReflTransGen.refl
  | tail _ hLast ih => exact ReflTransGen.tail ih hLast.answer_mem

/-- Every part of an answer is a capture for which nothing was found, or the answer of a lookup. -/
theorem origin_of_mem_parts {s : Rendition} (h : s ∈ (l.answer b language).parts) :
    s = .missing s.target ∨ ∃ inner ∈ l.lookups b language, s = inner.answer b language := by
  induction h with
  | refl => exact Or.inr ⟨l, l.self_mem_lookups b language, rfl⟩
  | @tail outer child _ hChild ih =>
      rcases ih with hMissing | ⟨inner, hInner, rfl⟩
      · rw [hMissing] at hChild
        exact absurd hChild List.not_mem_nil
      · refine (cases_of_mem_children hChild).imp_right fun ⟨next, hNext, hEq⟩ => ?_
        exact ⟨next, ReflTransGen.tail hInner hNext, hEq⟩

end Lookup

end Book

end Phrasebook
