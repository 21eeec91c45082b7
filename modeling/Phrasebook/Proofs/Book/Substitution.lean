import Mathlib
import Phrasebook.Book
import Phrasebook.Proofs.Template.Pieces
import Phrasebook.Regex.Engine

/-!
Captures in a filled template. What was found for a capture takes the place of the first occurrence of what
the capture took, wherever this occurrence lies. The answer is the template with all references to captures
replaced as long as each first occurrence is the one reference to its capture.
-/

namespace Phrasebook.Book

/-- A template that is filled in at a hit of a pattern in a target. -/
structure Application where
  compiled : Regex.Compiled
  hit : Regex.Hit
  target : List Char
  template : List Char

/-- The texts that were found for captures. -/
def foundIn (findings : List (Nat × Rendition)) (i : Nat) : Option (List Char) :=
  (findings.lookup i).map (·.text.toList)

namespace Application

/-- The target with the template in the stead of the hit. A reference to a capture stands for the text
that was found for it, or for what the capture took when nothing was found. -/
def text (a : Application) (found : Nat → Option (List Char)) : List Char :=
  a.hit.whole.front a.target ++
    Template.fill a.hit.groups.length a.compiled.isNamed
      (Template.valueWith a.compiled a.target a.hit found) 0 a.template ++
    a.hit.whole.behind a.target

/-- The text before it is filled in. -/
def pieces (a : Application) : List Template.Piece :=
  (a.hit.whole.front a.target).map .char ++
    Template.pieces a.hit.groups.length a.compiled.isNamed 0 a.template ++
    (a.hit.whole.behind a.target).map .char

/-- What stands before, between and behind the references to a capture. -/
def gaps (a : Application) (found : Nat → Option (List Char)) (i : Nat) : List (List Char) :=
  (Text.splitList (Template.Piece.isTo a.compiled.names i) a.pieces).map
    (·.flatMap (Template.Piece.text (Template.valueWith a.compiled a.target a.hit found)))

/-- What the capture took is found first at the one reference to the capture, or nowhere when there is no
reference. -/
def Fits (a : Application) (found : Nat → Option (List Char)) (i : Nat) : Prop :=
  Text.firstGaps (Template.ownText a.target a.hit i) (a.text found) = a.gaps found i

/-- Every capture for which a text was found fits, one after another. -/
def IsInPlace (a : Application) :
    List (Nat × Rendition) → List (Nat × Rendition) → Prop
  | _, [] => True
  | done, (i, child) :: more =>
    (child.coverage = .full → a.Fits (foundIn done) i) ∧ a.IsInPlace (done ++ [(i, child)]) more

variable {a : Application} {i : Nat} {found : Nat → Option (List Char)}

theorem text_eq_flatMap (a : Application) (found : Nat → Option (List Char)) :
    a.text found =
      a.pieces.flatMap
        (Template.Piece.text (Template.valueWith a.compiled a.target a.hit found)) := by
  rw [text, pieces, List.flatMap_append, List.flatMap_append, Template.flatMap_text_map_char,
    Template.flatMap_text_map_char, Template.fill_eq_flatMap]

theorem gaps_ne_nil (a : Application) (found : Nat → Option (List Char)) (i : Nat) :
    a.gaps found i ≠ [] := by
  rw [gaps, Ne, List.map_eq_nil_iff]
  exact Text.splitList_ne_nil _ _

/-- Without a text for a capture, what it took stands in the gaps. -/
theorem text_of_none (h : found i = none) :
    a.text found = (Template.ownText a.target a.hit i).intercalate (a.gaps found i) := by
  rw [text_eq_flatMap, gaps]
  exact Text.flatMap_eq_intercalate (fun p hTo => Template.text_of_isTo_of_none h hTo) a.pieces

/-- A text for one more capture fills the gaps between the references to it. -/
theorem text_update (a : Application) (found : Nat → Option (List Char)) (i : Nat) (t : List Char) :
    a.text (Function.update found i (some t)) = t.intercalate (a.gaps found i) := by
  have hGaps : a.gaps found i = a.gaps (Function.update found i (some t)) i :=
    Text.map_flatMap_splitList_congr (fun p hTo =>
      (Template.text_congr_of_not_isTo (fun j hj => Function.update_of_ne hj _ _) hTo).symm) a.pieces
  rw [hGaps, text_eq_flatMap, gaps]
  exact Text.flatMap_eq_intercalate
    (fun p hTo => Template.text_of_isTo (Function.update_self i _ found) hTo) a.pieces

/-- A capture fits exactly when replacing the first occurrence of what it took does what it should,
whatever text is found for it. -/
theorem fits_iff (a : Application) (found : Nat → Option (List Char)) (i : Nat) :
    a.Fits found i ↔
      ∀ t, Text.replaceFirst (Template.ownText a.target a.hit i) t (a.text found) =
        a.text (Function.update found i (some t)) := by
  rw [Fits, Text.firstGaps_eq_iff (a.gaps_ne_nil found i)]
  refine forall_congr' fun t => ?_
  rw [text_update]

/-- What may be found for a capture: a text that covers what it took, or nothing but that. -/
structure IsFinding (a : Application) (e : Nat × Rendition) : Prop where
  target : e.2.target.toList = Template.ownText a.target a.hit e.1
  known : e.2.coverage = .full ∨ e.2 = .missing e.2.target

theorem foundIn_of_notMem {done : List (Nat × Rendition)} (h : i ∉ done.map (·.1)) :
    foundIn done i = none := by
  have hNone : done.lookup i = none := by
    rw [List.lookup_eq_none_iff]
    intro e he
    simpa using fun hEq => h (List.mem_map.2 ⟨e, he, Eq.symm hEq⟩)
  rw [foundIn, hNone, Option.map_none]

theorem foundIn_snoc {done : List (Nat × Rendition)} (h : i ∉ done.map (·.1)) (child : Rendition) :
    foundIn (done ++ [(i, child)]) = Function.update (foundIn done) i (some child.text.toList) := by
  funext j
  have hLookup : (done ++ [(i, child)]).lookup j =
      (done.lookup j).or (if j = i then some child else none) := by
    rw [List.lookup_append]
    by_cases hj : j = i
    · simp [List.lookup, hj]
    · simp [List.lookup, hj, beq_eq_false_iff_ne.2 hj]
  rw [foundIn, hLookup, Function.update_apply]
  by_cases hj : j = i
  · have hNone := foundIn_of_notMem h
    rw [foundIn, Option.map_eq_none_iff] at hNone
    rw [if_pos hj, if_pos hj, hj, hNone]
    rfl
  · rw [if_neg hj, if_neg hj, Option.or_none, foundIn]

/-- Findings are in place when each of them, with those before it in the text, fits. -/
theorem isInPlace_iff {done todo : List (Nat × Rendition)} :
    a.IsInPlace done todo ↔ ∀ before e more, todo = before ++ e :: more →
      e.2.coverage = .full → a.Fits (foundIn (done ++ before)) e.1 := by
  induction todo generalizing done with
  | nil => exact ⟨fun _ before e more h => by simp at h, fun _ => trivial⟩
  | cons first rest ih =>
      obtain ⟨i, child⟩ := first
      rw [IsInPlace, ih]
      constructor
      · rintro ⟨hFirst, hRest⟩ before e more hSplit hFull
        cases before with
        | nil =>
            obtain ⟨rfl, rfl⟩ := List.cons.inj hSplit
            rw [List.append_nil]
            exact hFirst hFull
        | cons x before =>
            obtain ⟨rfl, hRestSplit⟩ := List.cons.inj hSplit
            rw [List.append_cons]
            exact hRest before e more hRestSplit hFull
      · intro h
        refine ⟨fun hFull => ?_, fun before e more hSplit hFull => ?_⟩
        · have hFits := h [] (i, child) rest rfl hFull
          rwa [List.append_nil] at hFits
        · have hFits := h ((i, child) :: before) e more (by rw [hSplit]; rfl) hFull
          rwa [List.append_cons] at hFits

/-- One finding, put at the first occurrence of what its capture took, goes where it should when the
capture fits. -/
theorem patch_eq {done : List (Nat × Rendition)} {child : Rendition} (hNew : i ∉ done.map (·.1))
    (hFinding : a.IsFinding (i, child)) (hFits : child.coverage = .full → a.Fits (foundIn done) i) :
    patch (a.text (foundIn done)) child = a.text (foundIn (done ++ [(i, child)])) := by
  rw [foundIn_snoc hNew]
  rcases hFinding.known with hFull | hMissing
  · rw [patch, if_pos hFull, hFinding.target, (fits_iff a _ i).1 (hFits hFull)]
  · have hChild : child = .missing child.target := hMissing
    have hCoverage : child.coverage ≠ .full := by
      rw [hChild]
      exact fun h => by cases h
    have hOwn : child.text.toList = Template.ownText a.target a.hit i := by
      rw [← hFinding.target, hChild]
      rfl
    rw [patch, if_neg hCoverage, text_update, hOwn, text_of_none (foundIn_of_notMem hNew)]

/-- Findings that go in place one after another fill the template as they should. -/
theorem foldl_patch_eq {done todo : List (Nat × Rendition)}
    (hKeys : ((done ++ todo).map (·.1)).Nodup) (hFindings : ∀ e ∈ todo, a.IsFinding e)
    (hPlace : a.IsInPlace done todo) :
    (todo.map (·.2)).foldl patch (a.text (foundIn done)) = a.text (foundIn (done ++ todo)) := by
  induction todo generalizing done with
  | nil => rw [List.append_nil]; rfl
  | cons e more ih =>
      obtain ⟨i, child⟩ := e
      rw [List.forall_mem_cons] at hFindings
      have hNew : i ∉ done.map (·.1) := by
        rw [List.map_append, List.nodup_append] at hKeys
        intro hMem
        exact hKeys.2.2 i hMem i (by simp) rfl
      rw [List.append_cons] at hKeys ⊢
      rw [List.map_cons, List.foldl_cons, patch_eq hNew hFindings.1 hPlace.1]
      exact ih hKeys hFindings.2 hPlace.2

end Application

/-- A letter under its name, and any letter with the name of the first one beside it. -/
def letters : Book :=
  .ofEntries Regex.engine
    [{ category := "names", replacements := .ofList [("ja", "あ"), ("ko", "아")], raw := some "a"
       regex := none, groups := [], ignorePart := false, priority := 0, id := 1 },
      { category := "letters", replacements := .ofList [("ja", "$1 (a)"), ("ko", "(a) $1")]
        raw := none, regex := some (.bare "^(.)$"), groups := [.name "names"], ignorePart := false
        priority := 0, id := 2 }]

theorem letters_rule :
    ∃ rule find, letters.patternFor? "letters" "a".toList =
        some (rule, ⟨[none], find⟩, ⟨⟨0, 1⟩, [some ⟨0, 1⟩]⟩) ∧
      rule.isGlobal = false ∧ rule.entry.replacements.get? "ja" = some "$1 (a)" ∧
      rule.entry.replacements.get? "ko" = some "(a) $1" := by
  have hSome : (letters.patternFor? "letters" "a".toList).isSome = true := by cbv
  have hNames : ((letters.patternFor? "letters" "a".toList).get hSome).2.1.names = [none] := by cbv
  have hHit : ((letters.patternFor? "letters" "a".toList).get hSome).2.2 =
      ⟨⟨0, 1⟩, [some ⟨0, 1⟩]⟩ := by cbv
  refine ⟨((letters.patternFor? "letters" "a".toList).get hSome).1,
    ((letters.patternFor? "letters" "a".toList).get hSome).2.1.find, ?_, by cbv, by cbv, by cbv⟩
  rw [← hNames, ← hHit]
  exact (Option.some_get hSome).symm

theorem target_renderIn (b : Book) (language : String) (trail : List String)
    (category target : String) : (b.renderIn language trail category target).target = target := by
  rw [renderIn]
  split
  · rfl
  · split <;> rfl

theorem captured_keys (target : List Char) (hit : Regex.Hit) :
    ((captured target hit).map (·.1)).Nodup := by
  have hIndexes : (hit.groups.zipIdx.map Prod.snd).Nodup := by
    rw [List.zipIdx_map_snd]
    exact List.nodup_range'
  rw [List.Nodup, List.pairwise_map] at hIndexes ⊢
  rw [captured, List.pairwise_filterMap]
  refine hIndexes.imp fun {p q} hNe e he e' he' => ?_
  obtain ⟨span, -, rfl⟩ := Option.map_eq_some_iff.1 he
  obtain ⟨span', -, rfl⟩ := Option.map_eq_some_iff.1 he'
  exact hNe

theorem ownText_of_mem_captured {target : List Char} {hit : Regex.Hit} {e : Nat × String}
    (h : e ∈ captured target hit) : e.2.toList = Template.ownText target hit e.1 := by
  obtain ⟨⟨span?, i⟩, hMem, hSpan⟩ := List.mem_filterMap.1 h
  obtain ⟨span, rfl, rfl⟩ := Option.map_eq_some_iff.1 hSpan
  rw [List.mem_zipIdx_iff_getElem?] at hMem
  rw [Template.ownText, hMem, String.toList_ofList]
  rfl

/-- How a lookup answers that fills in a template. All captures that took part have a finding. The text is
the template with what the captures took, patched with one finding after another; when the findings are in
place, it is the template with what was found. They are in place exactly when every patch, with whatever
text, changes the references to its capture and nothing else. -/
structure IsFilled (a : Application) (findings : List (Nat × Rendition)) (r : Rendition) : Prop where
  children : r.children = findings.map (·.2)
  captures : findings.map (fun e => (e.1, e.2.target)) = captured a.target a.hit
  known : ∀ e ∈ findings, e.2.coverage = .full ∨ e.2 = .missing e.2.target
  patched : r.text.toList = (findings.map (·.2)).foldl patch (a.text fun _ => none)
  filled : a.IsInPlace [] findings → r.text.toList = a.text (foundIn findings)
  exact : a.IsInPlace [] findings ↔
    ∀ done e more, findings = done ++ e :: more → e.2.coverage = .full →
      ∀ t, Text.replaceFirst e.2.target.toList t (a.text (foundIn done)) =
        a.text (Function.update (foundIn done) e.1 (some t))

/-- Filling in at a hit is filling in with what the captures took. -/
theorem fillIn_eq_text {r : Rule} {c : Regex.Compiled} {hit : Regex.Hit} {language template : String}
    {target : List Char} (hLocal : r.isGlobal = false)
    (hTemplate : r.entry.replacements.get? language = some template) :
    fillIn r c hit language target =
      Application.text ⟨c, hit, target, template.toList⟩ fun _ => none := by
  have hValue : Template.valueWith c target hit (fun _ => none) = Template.valueAt c target hit := by
    funext r
    rw [Template.valueWith]
    cases Template.captureOf? c.names r <;> rfl
  rw [fillIn, hLocal, hTemplate, Application.text, hValue]
  simp [Regex.Compiled.substitute, Regex.Span.of, Regex.Span.front, Regex.Span.behind,
    Template.expand]

/-- What is found for a capture is the first answer that covers it, or nothing. -/
theorem known_findSome?_getD {α : Type} {names : List α} {f : α → Rendition} {text : String}
    (hTarget : ∀ name, (f name).target = text) :
    let found := (names.findSome? fun name =>
      if (f name).coverage = .full then some (f name) else none).getD (.missing text)
    found.target = text ∧ (found.coverage = .full ∨ found = .missing found.target) := by
  intro found
  cases hFound : names.findSome? fun name =>
      if (f name).coverage = .full then some (f name) else none with
  | none =>
      have hMissing : found = .missing text := by simp only [found, hFound, Option.getD_none]
      rw [hMissing]
      exact ⟨rfl, Or.inr rfl⟩
  | some r =>
      have hSome : found = r := by simp only [found, hFound, Option.getD_some]
      obtain ⟨name, -, hName⟩ := List.exists_of_findSome?_eq_some hFound
      split at hName
      next hFull =>
        obtain rfl := Option.some.inj hName
        rw [hSome]
        exact ⟨hTarget name, Or.inl hFull⟩
      next => simp at hName

/-- Every lookup that comes to a pattern whose first hit alone is replaced, in a language that the
replacements have. -/
theorem exists_isFilled (b : Book) (trail : List String) {language category target : String}
    {rule : Rule} {compiled : Regex.Compiled} {hit : Regex.Hit} {template : String}
    (hRaw : b.rawFor? category target = none)
    (hRule : b.patternFor? category target.toList = some (rule, compiled, hit))
    (hLocal : rule.isGlobal = false)
    (hTemplate : rule.entry.replacements.get? language = some template) :
    ∃ findings, IsFilled ⟨compiled, hit, target.toList, template.toList⟩ findings
      (b.renderIn language trail category target) := by
  let findingFor (e : Nat × String) : Rendition :=
    ((b.openCandidates (category :: trail) rule e.1).attach.findSome? fun name =>
      let sub := b.renderIn language (category :: trail) name.1 e.2
      if sub.coverage = .full then some sub else none).getD (.missing e.2)
  have hFinding : ∀ e, (findingFor e).target = e.2 ∧
      ((findingFor e).coverage = .full ∨ findingFor e = .missing (findingFor e).target) := fun e =>
    known_findSome?_getD fun name => target_renderIn b language (category :: trail) name.1 e.2
  let findings := (captured target.toList hit).map fun e => (e.1, findingFor e)
  have hAnswer : ∃ coverage, b.renderIn language trail category target =
      .node target (String.ofList ((findings.map (·.2)).foldl patch
        (fillIn rule compiled hit language target.toList))) coverage (findings.map (·.2)) := by
    rw [renderIn, hRaw]
    simp only [hRule, findings, List.map_map]
    exact ⟨_, rfl⟩
  obtain ⟨coverage, hAnswer⟩ := hAnswer
  rw [hAnswer, fillIn_eq_text hLocal hTemplate]
  have hCaptures : findings.map (fun e => (e.1, e.2.target)) = captured target.toList hit := by
    rw [List.map_map]
    refine (List.map_congr_left fun e _ => ?_).trans (List.map_id _)
    exact Prod.ext rfl (hFinding e).1
  have hFindings : ∀ e ∈ findings,
      Application.IsFinding ⟨compiled, hit, target.toList, template.toList⟩ e := by
    intro e he
    obtain ⟨capture, hCapture, rfl⟩ := List.mem_map.1 he
    refine ⟨?_, (hFinding capture).2⟩
    rw [(hFinding capture).1]
    exact ownText_of_mem_captured hCapture
  have hKeys : (findings.map (·.1)).Nodup := by
    rw [List.map_map]
    exact captured_keys target.toList hit
  refine ⟨findings, rfl, hCaptures, fun e he => (hFindings e he).known, String.toList_ofList, ?_, ?_⟩
  · intro hPlace
    rw [Rendition.text, String.toList_ofList]
    exact Application.foldl_patch_eq hKeys hFindings hPlace
  · rw [Application.isInPlace_iff]
    refine forall_congr' fun done => forall_congr' fun e => forall_congr' fun more =>
      imp_congr_right fun hSplit => imp_congr_right fun _ => ?_
    rw [(hFindings e (by rw [hSplit]; simp)).target]
    exact Application.fits_iff _ _ _

/-- In front of its name the letter is in place. -/
theorem isFilled_letters :
    ∃ a findings, IsFilled a findings (letters.renderIn "ja" [] "letters" "a") ∧
      a.IsInPlace [] findings ∧ a.text (foundIn findings) = "あ (a)".toList := by
  obtain ⟨rule, find, hRule, hLocal, hTemplate, -⟩ := letters_rule
  have hRaw : letters.rawFor? "letters" "a" = none := by cbv
  obtain ⟨findings, hFilled⟩ := exists_isFilled letters [] hRaw hRule hLocal hTemplate
  have hChildren : (letters.renderIn "ja" [] "letters" "a").children =
      [.node "a" "あ" .full []] := by cbv
  have hCaptured : captured "a".toList ⟨⟨0, 1⟩, [some ⟨0, 1⟩]⟩ = [(0, "a")] := by cbv
  obtain ⟨⟨i, child⟩, rfl⟩ : ∃ e, findings = [e] := by
    have hOne := congrArg List.length (hFilled.children.symm.trans hChildren)
    rw [List.length_map] at hOne
    exact List.length_eq_one_iff.1 hOne
  obtain rfl : child = .node "a" "あ" .full [] := by
    have hChild := hFilled.children.symm.trans hChildren
    exact (List.cons.inj hChild).1
  obtain rfl : i = 0 := by
    have hIndex := hFilled.captures.trans hCaptured
    exact congrArg Prod.fst (List.cons.inj hIndex).1
  refine ⟨_, _, hFilled, ⟨fun _ => ?_, trivial⟩, by cbv⟩
  unfold Application.Fits
  cbv

/-- Whatever was found for the captures stands in the answer where the template refers to them. -/
def Substitutes (b : Book) (language : String) (trail : List String) (category target : String) :
    Prop :=
  ∀ rule compiled hit template findings, b.rawFor? category target = none →
    b.patternFor? category target.toList = some (rule, compiled, hit) → rule.isGlobal = false →
    rule.entry.replacements.get? language = some template →
    (b.renderIn language trail category target).children = findings.map (·.2) →
    findings.map (fun e => (e.1, e.2.target)) = captured target.toList hit →
    (b.renderIn language trail category target).text.toList =
      Application.text ⟨compiled, hit, target.toList, template.toList⟩ (foundIn findings)

/-- Behind its name the letter is not in place, and the name is replaced in its stead. -/
theorem not_substitutes_letters : ¬letters.Substitutes "ko" [] "letters" "a" := by
  intro h
  obtain ⟨rule, find, hRule, hLocal, -, hTemplate⟩ := letters_rule
  have hRaw : letters.rawFor? "letters" "a" = none := by cbv
  have hChildren : (letters.renderIn "ko" [] "letters" "a").children =
      [.node "a" "아" .full []] := by cbv
  have hCaptured : [(0, "a")] = captured "a".toList ⟨⟨0, 1⟩, [some ⟨0, 1⟩]⟩ := by cbv
  have hText := h rule _ _ _ [(0, .node "a" "아" .full [])] hRaw hRule hLocal hTemplate hChildren
    hCaptured
  have hAnswer : (letters.renderIn "ko" [] "letters" "a").text = "(아) a" := by cbv
  have hFilled : Application.text ⟨⟨[none], find⟩, ⟨⟨0, 1⟩, [some ⟨0, 1⟩]⟩, "a".toList,
      "(a) $1".toList⟩ (foundIn [(0, .node "a" "아" .full [])]) = "(a) 아".toList := by cbv
  rw [hAnswer, hFilled] at hText
  exact absurd hText (by decide)

end Phrasebook.Book
