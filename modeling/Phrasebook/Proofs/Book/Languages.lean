import Phrasebook.Proofs.Book.Trail
import Phrasebook.Workspace.Listing

/-!
Answers in two languages. The replacements of a language come into the texts alone, and no text is read again to
decide what fits, which candidate is taken or how much is covered. So in all languages an answer has the same
targets and the same coverage, at every depth.
-/

namespace Phrasebook

/-- What is left of an answer without its texts. -/
inductive Outline where
  | node (target : String) (coverage : Coverage) (children : List Outline)
  deriving Repr

def Outline.coverage : Outline → Coverage
  | node _ coverage _ => coverage

namespace Rendition

mutual

/-- The targets and how much of them is covered, at every depth. -/
def outline : Rendition → Outline
  | node target _ coverage children => .node target coverage (outlines children)

def outlines : List Rendition → List Outline
  | [] => []
  | r :: more => outline r :: outlines more

end

theorem outlines_eq_map (rs : List Rendition) : outlines rs = rs.map outline := by
  induction rs with
  | nil => rfl
  | cons r more ih => rw [outlines, List.map_cons, ih]

theorem coverage_outline (r : Rendition) : r.outline.coverage = r.coverage := by
  cases r with
  | node target text coverage children => rw [outline, Outline.coverage, Rendition.coverage]

theorem coverage_of_outline {r s : Rendition} (h : r.outline = s.outline) : r.coverage = s.coverage := by
  rw [← coverage_outline r, ← coverage_outline s, h]

end Rendition

namespace Book

/-- The first full answer has the same outline as the first full one among answers with the same outlines. -/
theorem outline_firstAnswer {answer other : String → Rendition} {names : List String}
    (h : ∀ name ∈ names, (answer name).outline = (other name).outline) (text : String) :
    ((firstAnswer answer names).getD (.missing text)).outline =
      ((firstAnswer other names).getD (.missing text)).outline := by
  induction names with
  | nil => rfl
  | cons name more ih =>
      rw [List.forall_mem_cons] at h
      have hCoverage := Rendition.coverage_of_outline h.1
      rw [firstAnswer, firstAnswer] at ih ⊢
      rw [List.findSome?_cons, List.findSome?_cons, ← hCoverage]
      by_cases hFull : (answer name).coverage = .full
      · rw [if_pos hFull, if_pos hFull]
        exact h.1
      · rw [if_neg hFull, if_neg hFull]
        exact ih h.2

/-- A lookup goes the same way in two languages: the same rule fits, its captures have the same candidates, and
each of these covers as much in one language as in the other. -/
theorem outline_renderIn (b : Book) (first second : String) (trail : List String) (category target : String) :
    (b.renderIn first trail category target).outline = (b.renderIn second trail category target).outline := by
  -- Every lookup of a capture leaves fewer categories that are not under way.
  induction hSize : b.unvisited (category :: trail) using Nat.strong_induction_on
    generalizing trail category target with
  | _ size ih =>
    rw [renderIn_eq, renderIn_eq b second]
    cases b.rawFor? category target with
    | some r => rfl
    | none =>
        cases b.patternFor? category target.toList with
        | none => rfl
        | some found =>
            obtain ⟨rule, compiled, hit⟩ := found
            have hChild (capture : Nat × String) :
                ((firstAnswer (b.renderIn first (category :: trail) · capture.2)
                  (b.openCandidates (category :: trail) rule capture.1)).getD (.missing capture.2)).outline =
                ((firstAnswer (b.renderIn second (category :: trail) · capture.2)
                  (b.openCandidates (category :: trail) rule capture.1)).getD (.missing capture.2)).outline :=
              outline_firstAnswer
                (fun name hName => ih _ (hSize ▸ unvisited_lt hName) (category :: trail) name capture.2 rfl) _
            simp only [Rendition.outline, Rendition.outlines_eq_map, List.map_map, List.all_map, Function.comp_def,
              hChild, Rendition.coverage_of_outline (hChild _)]

end Book

/-- How many outlines are covered in full, in part, and not at all. -/
def Outline.totals (os : List Outline) : Nat × Nat × Nat :=
  (os.countP (·.coverage = .full), os.countP (·.coverage = .part), os.countP (·.coverage = .missing))

namespace Preview

def outlines (p : Preview) : List Outline := p.results.map Rendition.outline

/-- How many results are covered in full, in part, and not at all. -/
def totals (p : Preview) : Nat × Nat × Nat := (p.count .full, p.count .part, p.count .missing)

theorem totals_eq (p : Preview) : p.totals = Outline.totals p.outlines := by
  have hCount (coverage : Coverage) : p.count coverage = p.outlines.countP (·.coverage = coverage) := by
    rw [count, outlines, List.countP_map]
    refine List.countP_congr fun r _ => ?_
    rw [Function.comp_apply, Rendition.coverage_outline]
  rw [totals, hCount, hCount, hCount, Outline.totals]

end Preview

/-- A preview in one language has the outlines of the preview in the other, or fails as that one does. -/
theorem Workspace.outlines_preview (u : Setup) (first second source : String) (text : Option String)
    (limit : Option Nat) (now : Int) (s : Store) :
    (preview u first source text limit now s).map Preview.outlines =
      (preview u second source text limit now s).map Preview.outlines := by
  unfold preview
  cases s.pack now with
  | error e => rfl
  | ok pack =>
      refine congrArg Except.ok ?_
      rw [Preview.outlines, Preview.outlines, List.map_map, List.map_map]
      exact List.map_congr_left fun target _ =>
        Book.outline_renderIn (Book.ofEntries u.engine pack.matchers) first second [] source target

/-- Whatever the entries are, and whatever the patterns fit, the answers in two languages have the same coverage and
the same targets and coverages at every depth; only their texts can differ. So a preview has the same totals in
all languages. -/
theorem Book.coverage_in_all_languages (first second : String) :
    (∀ (engine : Regex.Engine) (entries : List Pack.Entry) (target category : String),
      ((Book.ofEntries engine entries).render target first category).coverage =
        ((Book.ofEntries engine entries).render target second category).coverage ∧
      ((Book.ofEntries engine entries).render target first category).outline =
        ((Book.ofEntries engine entries).render target second category).outline) ∧
    ∀ (u : Setup) (source : String) (text : Option String) (limit : Option Nat) (now : Int) (s : Store),
      (Workspace.preview u first source text limit now s).map Preview.outlines =
        (Workspace.preview u second source text limit now s).map Preview.outlines ∧
      (Workspace.preview u first source text limit now s).map Preview.totals =
        (Workspace.preview u second source text limit now s).map Preview.totals := by
  constructor
  · intro engine entries target category
    have hOutline := Book.outline_renderIn (Book.ofEntries engine entries) first second [] category target
    exact ⟨Rendition.coverage_of_outline hOutline, hOutline⟩
  · intro u source text limit now s
    have hOutlines := Workspace.outlines_preview u first second source text limit now s
    have hTotals (result : Except Failure Preview) :
        result.map Preview.totals = (result.map Preview.outlines).map Outline.totals := by
      cases result with
      | error e => rfl
      | ok p => exact congrArg Except.ok p.totals_eq
    constructor
    · exact hOutlines
    · rw [hTotals, hOutlines, ← hTotals]

end Phrasebook
