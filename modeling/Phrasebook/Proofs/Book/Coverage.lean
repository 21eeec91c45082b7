import Mathlib.Order.Basic
import Phrasebook.Proofs.Book.Reachable

/-!
More entries cover more. When a raw text is added to the entries, or a pattern that comes behind all patterns of
its category, every target is covered as far as before or further. The answers themselves may change, since a
capture may now be found in a category in which it was not found before.
-/

namespace Phrasebook

namespace Coverage

/-- Nothing is less than a part, and a part is less than all. -/
def rank : Coverage → Nat
  | missing => 0
  | part => 1
  | full => 2

instance : PartialOrder Coverage :=
  PartialOrder.lift rank fun a b h => by cases a <;> cases b <;> simp_all [rank]

theorem le_iff {a b : Coverage} : a ≤ b ↔ a.rank ≤ b.rank := Iff.rfl

theorem missing_le (c : Coverage) : missing ≤ c := le_iff.2 (Nat.zero_le _)

theorem le_full (c : Coverage) : c ≤ full := by
  rw [le_iff]
  cases c <;> decide

theorem eq_full_of_le {c : Coverage} (h : full ≤ c) : c = full := le_antisymm (le_full c) h

/-- The coverage of what a pattern fits. -/
theorem ite_full_part_le {p q : Prop} [Decidable p] [Decidable q] (h : p → q) :
    (if p then full else part) ≤ if q then full else part := by
  by_cases hp : p
  · rw [if_pos hp, if_pos (h hp)]
  · rw [if_neg hp]
    split
    · exact le_full part
    · exact le_refl part

end Coverage

namespace Pack.Entry

/-- The entry is looked up by its pattern. A pattern beside a raw text is not used. -/
def IsPattern (e : Entry) : Prop := e.raw = none ∧ e.regex.isSome

/-- One entry comes before another one: its priority is higher, or its id is lower at the same priority. -/
def Precedes (e f : Entry) : Prop := f.priority < e.priority ∨ e.priority = f.priority ∧ e.id < f.id

end Pack.Entry

namespace Book

variable {b b' : Book} {language category target : String} {trail : List String}

/-- A capture is found when one of the names has a full answer for it. -/
theorem coverage_firstAnswer {answer : String → Rendition} {names : List String} {text : String} :
    ((firstAnswer answer names).getD (.missing text)).coverage = .full ↔
      ∃ name ∈ names, (answer name).coverage = .full := by
  induction names with
  | nil => simp [firstAnswer, Rendition.missing, Rendition.coverage]
  | cons name more ih =>
      rw [firstAnswer] at ih ⊢
      rw [List.findSome?_cons, List.exists_mem_cons_iff]
      by_cases hFull : (answer name).coverage = .full
      · simp [hFull]
      · simp only [hFull, if_false, false_or]
        exact ih

/-- What one book has for a target at the first step of a lookup, another book has as well. The pattern that
fits is the same, and raw texts may be added. -/
structure GrowsTo (b b' : Book) : Prop where
  knows : ∀ name, b.knows name = true → b'.knows name = true
  raw : ∀ category target, (b.rawFor? category target).isSome → (b'.rawFor? category target).isSome
  pattern : ∀ category target found, b.patternFor? category target = some found →
    b'.patternFor? category target = some found

theorem GrowsTo.mem_openCandidates (h : GrowsTo b b') {r : Rule} {capture : Nat} {name : String}
    (hName : name ∈ b.openCandidates trail r capture) : name ∈ b'.openCandidates trail r capture := by
  obtain ⟨hCandidate, hOpen⟩ := List.mem_filter.1 hName
  rw [Bool.and_eq_true] at hOpen
  exact List.mem_filter.2 ⟨hCandidate, Bool.and_eq_true_iff.2 ⟨hOpen.1, h.knows name hOpen.2⟩⟩

/-- The coverage grows at every depth of a lookup, while the same categories are under way. -/
theorem GrowsTo.coverage_renderIn_le (h : GrowsTo b b') :
    (b.renderIn language trail category target).coverage ≤
      (b'.renderIn language trail category target).coverage := by
  induction hSize : b.unvisited (category :: trail) using Nat.strong_induction_on
    generalizing trail category target with
  | _ size ih =>
    rw [renderIn_eq, renderIn_eq b']
    cases hRaw : b.rawFor? category target with
    | some r =>
        obtain ⟨r', hRaw'⟩ := Option.isSome_iff_exists.1 (h.raw category target (by rw [hRaw]; rfl))
        rw [hRaw']
        exact le_refl _
    | none =>
        cases hRaw' : b'.rawFor? category target with
        | some r' => exact Coverage.le_full _
        | none =>
            cases hPattern : b.patternFor? category target.toList with
            | none => exact Coverage.missing_le _
            | some found =>
                obtain ⟨rule, compiled, hit⟩ := found
                rw [h.pattern category _ _ hPattern]
                refine Coverage.ite_full_part_le fun hComplete => ?_
                rw [Bool.or_eq_true] at hComplete ⊢
                refine hComplete.imp_left fun hAll => ?_
                simp only [List.all_map, List.all_eq_true, Function.comp_apply, decide_eq_true_eq] at hAll ⊢
                intro capture hCapture
                -- A category in which the capture is found is a candidate in both books.
                obtain ⟨name, hName, hFull⟩ := coverage_firstAnswer.1 (hAll capture hCapture)
                refine coverage_firstAnswer.2 ⟨name, h.mem_openCandidates hName, ?_⟩
                refine Coverage.eq_full_of_le ?_
                rw [← hFull]
                exact ih _ (hSize ▸ unvisited_lt hName) rfl

section

variable {engine : Regex.Engine} {entries others : List Pack.Entry} {new : Pack.Entry}

theorem knows_ofEntries {name : String} :
    (ofEntries engine entries).knows name = true ↔ ∃ e ∈ entries, e.category = name := by
  rw [knows, List.any_eq_true]
  simp only [ofEntries, List.mem_mergeSort, List.mem_map, beq_iff_eq]
  constructor
  · rintro ⟨_, ⟨e, he, rfl⟩, hCategory⟩
    exact ⟨e, he, hCategory⟩
  · rintro ⟨e, he, hCategory⟩
    exact ⟨_, ⟨e, he, rfl⟩, hCategory⟩

theorem isSome_rawFor?_ofEntries :
    ((ofEntries engine entries).rawFor? category target).isSome ↔
      ∃ e ∈ entries, e.category = category ∧ e.raw = some target := by
  rw [rawFor?, Option.isSome_map, List.find?_isSome]
  simp only [beq_iff_eq, mem_rulesOf_ofEntries]
  constructor
  · rintro ⟨_, ⟨e, he, hCategory, rfl⟩, hRaw⟩
    exact ⟨e, he, hCategory, hRaw⟩
  · rintro ⟨e, he, hCategory, hRaw⟩
    exact ⟨_, ⟨e, he, hCategory, rfl⟩, hRaw⟩

/-- The rules of a category that have a pattern to be tried. -/
def patternsOf (b : Book) (category : String) : List Rule :=
  (b.rulesOf category).filter (·.compiled.isSome)

/-- Rules without a pattern have no part in the search for one that fits. -/
theorem patternFor?_eq (b : Book) (category : String) (target : List Char) :
    b.patternFor? category target = (b.patternsOf category).findSome? fun r =>
      r.compiled.bind fun c => (c.first? target).map fun hit => (r, c, hit) := by
  rw [patternFor?, patternsOf]
  induction b.rulesOf category with
  | nil => rfl
  | cons r more ih =>
      cases hCompiled : r.compiled with
      | none =>
          rw [List.filter_cons_of_neg (by simp [hCompiled]), List.findSome?_cons, hCompiled]
          exact ih
      | some c =>
          rw [List.filter_cons_of_pos (by simp [hCompiled]), List.findSome?_cons, List.findSome?_cons, ih]

theorem isPattern_of_compiled {e : Pack.Entry} (h : (Rule.ofEntry engine e).compiled.isSome) :
    e.IsPattern := by
  rw [Rule.ofEntry] at h
  dsimp only at h
  split at h
  next => simp at h
  next hRaw =>
    obtain ⟨c, hCompiled⟩ := Option.isSome_iff_exists.1 h
    obtain ⟨p, hPattern, -⟩ := Option.bind_eq_some_iff.1 hCompiled
    exact ⟨by simpa using hRaw, by rw [hPattern]; rfl⟩

theorem mem_patternsOf {r : Rule} (h : r ∈ (ofEntries engine entries).patternsOf category) :
    ∃ e ∈ entries, e.category = category ∧ e.IsPattern ∧ r = Rule.ofEntry engine e := by
  obtain ⟨hRule, hCompiled⟩ := List.mem_filter.1 h
  obtain ⟨e, he, hCategory, rfl⟩ := mem_rulesOf_ofEntries.1 hRule
  exact ⟨e, he, hCategory, isPattern_of_compiled hCompiled, rfl⟩

theorem patternsOf_pairwise (engine : Regex.Engine) (entries : List Pack.Entry) (category : String) :
    ((ofEntries engine entries).patternsOf category).Pairwise (Rule.precedes · ·) :=
  (rulesOf_pairwise engine entries category).filter _

/-- The pattern of the new entry, if it has one for the category, comes to the patterns that are there. -/
theorem patternsOf_perm (hAdded : others.Perm (new :: entries)) :
    ((ofEntries engine others).patternsOf category).Perm
      ((ofEntries engine entries).patternsOf category ++ (ofEntries engine [new]).patternsOf category) := by
  have hPatterns : ∀ es, ((ofEntries engine es).patternsOf category).Perm
      (((es.filter (·.category == category)).map (Rule.ofEntry engine)).filter (·.compiled.isSome)) :=
    fun es => (rulesOf_perm engine es category).filter _
  have hSplit := ((hAdded.filter (·.category == category)).map (Rule.ofEntry engine)).filter
    (·.compiled.isSome)
  rw [← List.singleton_append, List.filter_append, List.map_append, List.filter_append] at hSplit
  refine (hPatterns others).trans (hSplit.trans (List.perm_append_comm.trans ?_))
  exact ((hPatterns entries).symm.append (hPatterns [new]).symm)

/-- The new entry is a raw text, or it comes behind all patterns of its category. -/
def ComesLast (entries : List Pack.Entry) (new : Pack.Entry) : Prop :=
  new.raw.isSome ∨ new.IsPattern ∧
    ∀ e ∈ entries, e.IsPattern → e.category = new.category → e.Precedes new

theorem ComesLast.precedes (h : ComesLast entries new) (hNew : new.IsPattern) {e : Pack.Entry}
    (he : e ∈ entries) (hPattern : e.IsPattern) (hCategory : e.category = new.category) :
    Rule.precedes (Rule.ofEntry engine e) (Rule.ofEntry engine new) = true ∧
      ¬Rule.precedes (Rule.ofEntry engine new) (Rule.ofEntry engine e) = true := by
  rcases h with hRaw | ⟨-, hLast⟩
  · rw [hNew.1] at hRaw
    exact absurd hRaw (by simp)
  · have hPrecedes := hLast e he hPattern hCategory
    rw [Pack.Entry.Precedes] at hPrecedes
    rw [Rule.precedes_iff, Rule.precedes_iff]
    simp only [Rule.ofEntry]
    omega

/-- Patterns are tried as before, and then the new one. -/
theorem patternsOf_added (hIds : (entries.map (·.id)).Nodup) (hAdded : others.Perm (new :: entries))
    (hLast : ComesLast entries new) :
    (ofEntries engine others).patternsOf category =
      (ofEntries engine entries).patternsOf category ++ (ofEntries engine [new]).patternsOf category := by
  -- An old pattern and the new one are in a strict order.
  have hOldNew : ∀ r ∈ (ofEntries engine entries).patternsOf category,
      ∀ s ∈ (ofEntries engine [new]).patternsOf category,
        Rule.precedes r s = true ∧ ¬Rule.precedes s r = true := by
    intro r hr s hs
    obtain ⟨e, he, hCategory, hOld, rfl⟩ := mem_patternsOf hr
    obtain ⟨f, hf, hSame, hNew, rfl⟩ := mem_patternsOf hs
    obtain rfl := List.mem_singleton.1 hf
    exact hLast.precedes hNew he hOld (hCategory.trans hSame.symm)
  refine (patternsOf_perm hAdded).eq_of_pairwise (fun r s hr hs hrs hsr => ?_)
    (patternsOf_pairwise engine others category)
    (List.pairwise_append.2 ⟨patternsOf_pairwise engine entries category,
      patternsOf_pairwise engine [new] category, fun r hr s hs => (hOldNew r hr s hs).1⟩)
  rw [(patternsOf_perm hAdded).mem_iff, List.mem_append] at hr
  rw [List.mem_append] at hs
  rcases hr with hrOld | hrNew <;> rcases hs with hsOld | hsNew
  · obtain ⟨e, he, -, -, rfl⟩ := mem_patternsOf hrOld
    obtain ⟨f, hf, -, -, rfl⟩ := mem_patternsOf hsOld
    rw [List.inj_on_of_nodup_map hIds he hf (Rule.id_eq_of_precedes hrs hsr)]
  · exact absurd hsr (hOldNew r hrOld s hsNew).2
  · exact absurd hrs (hOldNew s hsOld r hrNew).2
  · obtain ⟨e, he, -, -, rfl⟩ := mem_patternsOf hrNew
    obtain ⟨f, hf, -, -, rfl⟩ := mem_patternsOf hsNew
    rw [List.mem_singleton.1 he, List.mem_singleton.1 hf]

theorem growsTo_of_added (hIds : (entries.map (·.id)).Nodup) (hAdded : others.Perm (new :: entries))
    (hLast : ComesLast entries new) : GrowsTo (ofEntries engine entries) (ofEntries engine others) where
  knows name hKnown := by
    obtain ⟨e, he, hCategory⟩ := knows_ofEntries.1 hKnown
    exact knows_ofEntries.2 ⟨e, hAdded.mem_iff.2 (List.mem_cons_of_mem _ he), hCategory⟩
  raw category target hRaw := by
    obtain ⟨e, he, hSame⟩ := isSome_rawFor?_ofEntries.1 hRaw
    exact isSome_rawFor?_ofEntries.2 ⟨e, hAdded.mem_iff.2 (List.mem_cons_of_mem _ he), hSame⟩
  pattern category target found hFound := by
    rw [patternFor?_eq] at hFound ⊢
    rw [patternsOf_added hIds hAdded hLast, List.findSome?_append, hFound, Option.some_or]

/-- When an entry is added to entries of distinct ids, in whatever place and under whatever id, and it is a raw
text or a pattern behind all patterns of its category, then no target is covered less than before. -/
theorem coverage_le_of_added (engine : Regex.Engine) (hIds : (entries.map (·.id)).Nodup)
    (hAdded : others.Perm (new :: entries)) (hLast : ComesLast entries new)
    (target language category : String) :
    ((ofEntries engine entries).render target language category).coverage ≤
      ((ofEntries engine others).render target language category).coverage :=
  (growsTo_of_added hIds hAdded hLast).coverage_renderIn_le

end

/-- An entry for what is far away, which is looked up among the hills and then among the towns. -/
def farEntry : Pack.Entry :=
  { category := "place", replacements := .ofList [("ko", "먼 $1")], raw := none
    regex := some (.bare "^far (.+)$"), groups := [.list [.name "hill", .name "town"]], ignorePart := false
    priority := 0, id := 4 }

/-- An entry for towns that are called by the kind of town they are, of which nothing more is looked up. -/
def townEntry (kind : String) (id : Int) : Pack.Entry :=
  { category := "town", replacements := .ofList [("ko", "$1 시")], raw := none
    regex := some (.bare ("^(.+) " ++ kind ++ "$")), groups := [], ignorePart := true, priority := 0, id }

def placeEntries : List Pack.Entry := [farEntry, townEntry "city" 5, hillOf []]

/-- What is far away is covered in part when it is no hill and no city. It is covered fully when it is added as a
raw text, and also when a pattern for it is added behind the one for cities. -/
theorem coverage_of_far_places :
    ComesLast placeEntries townBusan ∧ ComesLast placeEntries (townEntry "port" 9) ∧
      ((ofEntries Regex.engine placeEntries).render "far Busan" "ko" "place").coverage ≤
        ((ofEntries Regex.engine (townBusan :: placeEntries)).render "far Busan" "ko" "place").coverage ∧
      ((ofEntries Regex.engine placeEntries).render "far old port" "ko" "place").coverage ≤
        ((ofEntries Regex.engine (placeEntries ++ [townEntry "port" 9])).render "far old port" "ko"
          "place").coverage ∧
      ((ofEntries Regex.engine placeEntries).render "far Busan" "ko" "place").coverage = .part ∧
      ((ofEntries Regex.engine (townBusan :: placeEntries)).render "far Busan" "ko" "place").coverage =
        .full := by
  have hRaw : ComesLast placeEntries townBusan := Or.inl rfl
  have hPattern : ComesLast placeEntries (townEntry "port" 9) := by
    refine Or.inr ⟨⟨rfl, rfl⟩, fun e he _ hCategory => ?_⟩
    obtain rfl | rfl | rfl : e = farEntry ∨ e = townEntry "city" 5 ∨ e = hillOf [] := by
      simpa [placeEntries] using he
    · exact absurd hCategory (by decide)
    · exact Or.inr ⟨rfl, by decide⟩
    · exact absurd hCategory (by decide)
  have hIds : (placeEntries.map (·.id)).Nodup := by decide
  exact ⟨hRaw, hPattern,
    coverage_le_of_added Regex.engine hIds (List.Perm.refl _) hRaw "far Busan" "ko" "place",
    coverage_le_of_added Regex.engine hIds (List.perm_append_singleton _ _) hPattern "far old port" "ko"
      "place", by cbv, by cbv⟩

end Book

end Phrasebook
