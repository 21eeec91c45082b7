import Phrasebook.Proofs.Book.Trail
import Phrasebook.Proofs.Pack.Renaming

/-!
Books under other names. Every lookup in a book goes the same way in the book whose names are changed, as long
as the names that are in use are kept apart: the same rules fit, their captures have the changed candidates,
and a candidate is passed over in one book when it is in the other.
-/

namespace Phrasebook

def Rule.rename (f : String → String) (r : Rule) : Rule := ⟨r.entry.rename f, r.compiled⟩

theorem Rule.candidates_rename (f : String → String) (r : Rule) (capture : Nat) :
    (r.rename f).candidates capture = (r.candidates capture).map f := by
  have hNames : ∀ g : Group, namesOf (g.mapNames f) = (namesOf g).map f := by
    intro g
    cases g with
    | name category => rfl
    | null => rfl
    | list entries =>
        rw [Group.mapNames, Group.mapNamesOf_eq_map, namesOf, namesOf, List.filterMap_map,
          List.map_filterMap]
        refine List.filterMap_congr fun item _ => ?_
        cases item <;> rfl
  have hGroups : (r.rename f).entry.groups = r.entry.groups.map (Group.mapNames f) :=
    Group.mapNamesOf_eq_map f r.entry.groups
  rw [candidates, candidates, hGroups, List.getElem?_map, Option.map_map]
  cases r.entry.groups[capture]? with
  | none => rfl
  | some g => exact hNames g

namespace Book

def rename (f : String → String) (b : Book) : Book := ⟨b.rules.map (Rule.rename f)⟩

/-- All names of the rules are among some names. -/
def Uses (names : Set String) (b : Book) : Prop := ∀ r ∈ b.rules, r.entry.Uses names

/-- The order in which rules are tried has nothing to do with names. -/
theorem ofEntries_rename (f : String → String) (engine : Regex.Engine) (entries : List Pack.Entry) :
    ofEntries engine (entries.map (Pack.Entry.rename f)) = (ofEntries engine entries).rename f := by
  have hRules : (entries.map (Pack.Entry.rename f)).map (Rule.ofEntry engine) =
      (entries.map (Rule.ofEntry engine)).map (Rule.rename f) := by
    rw [List.map_map, List.map_map]
    rfl
  rw [ofEntries, ofEntries, rename, hRules]
  exact congrArg Book.mk
    (List.map_mergeSort (f := Rule.rename f) (s := Rule.precedes) fun _ _ _ _ => rfl).symm

theorem ofEntries_uses {names : Set String} {entries : List Pack.Entry}
    (h : ∀ e ∈ entries, e.Uses names) (engine : Regex.Engine) :
    (ofEntries engine entries).Uses names := by
  intro r hr
  obtain ⟨e, he, rfl⟩ := List.mem_map.1 (List.mem_mergeSort.1 hr)
  exact h e he

variable {f : String → String} {names : Set String} {b : Book} {category name : String}

section

variable (hInj : Set.InjOn f names) (hb : b.Uses names)

include hInj hb

theorem knows_rename (hName : name ∈ names) : (b.rename f).knows (f name) = b.knows name := by
  rw [knows, knows, rename, List.any_map, Bool.eq_iff_iff, List.any_eq_true, List.any_eq_true]
  refine exists_congr fun r => and_congr_right fun hr => Bool.eq_iff_iff.1 ?_
  exact beq_of_injOn hInj (hb r hr).category hName

theorem rulesOf_rename (hCategory : category ∈ names) :
    (b.rename f).rulesOf (f category) = (b.rulesOf category).map (Rule.rename f) := by
  rw [rulesOf, rulesOf, rename, List.filter_map]
  refine congrArg (List.map _) (List.filter_congr fun r hr => ?_)
  exact beq_of_injOn hInj (hb r hr).category hCategory

theorem rawFor?_rename (hCategory : category ∈ names) (target : String) :
    (b.rename f).rawFor? (f category) target = b.rawFor? category target := by
  rw [rawFor?, rawFor?, rulesOf_rename hInj hb hCategory, List.find?_map, Option.map_map]
  rfl

theorem patternFor?_rename (hCategory : category ∈ names) (target : List Char) :
    (b.rename f).patternFor? (f category) target =
      (b.patternFor? category target).map fun (r, c, hit) => (r.rename f, c, hit) := by
  rw [patternFor?, patternFor?, rulesOf_rename hInj hb hCategory, List.findSome?_map,
    List.map_findSome?]
  refine congrArg (List.findSome? · _) (funext fun r => ?_)
  cases hCompiled : r.compiled with
  | none => simp [Rule.rename, hCompiled]
  | some c => simp [Rule.rename, hCompiled, Function.comp_def]

/-- The candidates that are open in one book are those that are open in the other. -/
theorem openCandidates_rename {trail : List String} (hTrail : ∀ name ∈ trail, name ∈ names) {r : Rule}
    (hr : r ∈ b.rules) (capture : Nat) :
    (b.rename f).openCandidates (trail.map f) (r.rename f) capture =
      (b.openCandidates trail r capture).map f := by
  rw [openCandidates, openCandidates, Rule.candidates_rename, List.filter_map]
  refine congrArg (List.map f) (List.filter_congr fun name hName => ?_)
  have hUsed : name ∈ names := (hb r hr).leaf (mem_leavesOf_of_mem_candidates hName)
  rw [Function.comp_apply, contains_map_of_injOn hInj hTrail hUsed, knows_rename hInj hb hUsed]

end

/-- A lookup has the same answer under the changed names. -/
theorem renderIn_rename (hInj : Set.InjOn f names) (hb : b.Uses names) (language : String)
    {trail : List String} {category : String} (hTrail : ∀ name ∈ category :: trail, name ∈ names)
    (target : String) :
    (b.rename f).renderIn language (trail.map f) (f category) target =
      b.renderIn language trail category target := by
  -- Every lookup of a capture leaves fewer categories that are not under way.
  induction hSize : b.unvisited (category :: trail) using Nat.strong_induction_on
    generalizing trail category target with
  | _ size ih =>
    have hCategory : category ∈ names := hTrail category List.mem_cons_self
    rw [renderIn_eq, renderIn_eq b, rawFor?_rename hInj hb hCategory,
      patternFor?_rename hInj hb hCategory]
    cases b.rawFor? category target with
    | some r => rfl
    | none =>
        cases hRule : b.patternFor? category target.toList with
        | none => rfl
        | some found =>
            obtain ⟨rule, compiled, hit⟩ := found
            have hMem : rule ∈ b.rules := List.mem_of_mem_filter (mem_rulesOf_of_patternFor? hRule)
            have hCaptures : ∀ (i : Nat) (text : String),
                firstAnswer ((b.rename f).renderIn language (f category :: trail.map f) · text)
                    ((b.rename f).openCandidates (f category :: trail.map f) (rule.rename f) i) =
                  firstAnswer (b.renderIn language (category :: trail) · text)
                    (b.openCandidates (category :: trail) rule i) := by
              intro i text
              rw [← List.map_cons, openCandidates_rename hInj hb hTrail hMem]
              refine firstAnswer_map fun name hName => ?_
              have hUsed : name ∈ names :=
                (hb rule hMem).leaf (mem_leavesOf_of_mem_candidates (List.mem_of_mem_filter hName))
              exact ih _ (hSize ▸ unvisited_lt hName)
                (List.forall_mem_cons.2 ⟨hUsed, hTrail⟩) text rfl
            simp only [Option.map_some, hCaptures]
            rfl

theorem render_rename (hInj : Set.InjOn f names) (hb : b.Uses names) (hCategory : category ∈ names)
    (target language : String) :
    (b.rename f).render target language (f category) = b.render target language category :=
  renderIn_rename hInj hb language (List.forall_mem_singleton.2 hCategory) target

end Book

end Phrasebook
