import Phrasebook.Pack.Basic
import Phrasebook.Rendition
import Phrasebook.Template

/-!
Lookup in a pack. A text is looked up in a category: first among the raw texts, then among the
patterns, by priority and then by id. The captures of a pattern are looked up in turn in the
categories that its groups name; a category that is being looked up already is passed over, so every
lookup comes to an end.
-/

namespace Phrasebook

/-- An entry of a pack with its pattern made ready. An entry that has a raw text has no use for a
pattern. -/
structure Rule where
  entry : Pack.Entry
  compiled : Option Regex.Compiled

namespace Rule

def ofEntry (engine : Regex.Engine) (e : Pack.Entry) : Rule :=
  ⟨e, if e.raw.isSome then none else e.regex.bind fun p => engine p.source p.flags⟩

/-- Every hit is replaced, and not the first alone. -/
def isGlobal (r : Rule) : Bool := r.entry.regex.any fun p => p.flags.toList.contains 'g'

/-- Higher priority comes first, then the lower id. -/
def precedes (a b : Rule) : Bool :=
  b.entry.priority < a.entry.priority ||
    (a.entry.priority == b.entry.priority && a.entry.id ≤ b.entry.id)

/-- The names in a group that are not nested any deeper. -/
def namesOf : Group → List String
  | .name category => [category]
  | .list entries => entries.filterMap fun
    | .name category => some category
    | _ => none
  | .null => []

/-- The categories in which a capture is looked up; captures are counted from zero here. -/
def candidates (r : Rule) (capture : Nat) : List String :=
  (r.entry.groups[capture]?.map namesOf).getD []

end Rule

/-- The rules of a pack, in the order in which they are tried. -/
structure Book where
  rules : List Rule

namespace Book

def ofEntries (engine : Regex.Engine) (entries : List Pack.Entry) : Book :=
  ⟨(entries.map (Rule.ofEntry engine)).mergeSort Rule.precedes⟩

/-- Some rule belongs to the category, whether or not its pattern could be read. -/
def knows (b : Book) (category : String) : Bool := b.rules.any (·.entry.category == category)

def categories (b : Book) : List String := (b.rules.map (·.entry.category)).eraseDups

def rulesOf (b : Book) (category : String) : List Rule :=
  b.rules.filter (·.entry.category == category)

/-- The replacements of the raw text that is the target. -/
def rawFor? (b : Book) (category target : String) : Option Replacements :=
  ((b.rulesOf category).find? (·.entry.raw == some target)).map (·.entry.replacements)

/-- The first rule whose pattern fits the target, with its first hit. -/
def patternFor? (b : Book) (category : String) (target : List Char) :
    Option (Rule × Regex.Compiled × Regex.Hit) :=
  (b.rulesOf category).findSome? fun r =>
    r.compiled.bind fun c => (c.first? target).map fun hit => (r, c, hit)

/-- The candidates of a capture that are known and are not being looked up. -/
def openCandidates (b : Book) (trail : List String) (r : Rule) (capture : Nat) : List String :=
  (r.candidates capture).filter fun name => !trail.contains name && b.knows name

/-- How many known categories are not being looked up. -/
def unvisited (b : Book) (trail : List String) : Nat :=
  b.categories.countP fun name => !trail.contains name

theorem mem_categories {b : Book} {name : String} : name ∈ b.categories ↔ b.knows name = true := by
  simp [categories, knows, List.mem_eraseDups]

/-- Looking up a further category leaves fewer to be looked up. -/
theorem unvisited_lt {b : Book} {trail : List String} {r : Rule} {capture : Nat} {name : String}
    (h : name ∈ b.openCandidates trail r capture) :
    b.unvisited (name :: trail) < b.unvisited trail := by
  obtain ⟨-, hOpen⟩ := List.mem_filter.1 h
  simp only [Bool.and_eq_true, Bool.not_eq_true', List.contains_eq_mem, decide_eq_false_iff_not]
    at hOpen
  obtain ⟨hNew, hKnown⟩ := hOpen
  have hMem := mem_categories.2 hKnown
  unfold unvisited
  generalize b.categories = names at hMem
  induction names with
  | nil => simp at hMem
  | cons first rest ih =>
    by_cases hEq : first = name
    · have hLe : rest.countP (fun n => !(name :: trail).contains n) ≤
          rest.countP (fun n => !trail.contains n) :=
        List.countP_mono_left fun n _ hn => by
          simp only [Bool.not_eq_true', List.contains_eq_mem, decide_eq_false_iff_not,
            List.mem_cons, not_or] at hn ⊢
          exact hn.2
      simp only [List.countP_cons, hEq]
      simp [hNew] at hLe ⊢
      omega
    · have hRest : name ∈ rest := by
        rcases List.mem_cons.1 hMem with h | h
        · exact absurd h.symm hEq
        · exact h
      have := ih hRest
      simp only [List.countP_cons]
      have hSame : ((name :: trail).contains first) = trail.contains first := by
        simp [List.contains_eq_mem, hEq]
      rw [hSame]
      omega

/-- The captures that took part in a hit, each with its number, counted from zero, and its text. -/
def captured (target : List Char) (hit : Regex.Hit) : List (Nat × String) :=
  hit.groups.zipIdx.filterMap fun (span?, i) =>
    span?.map fun span => (i, String.ofList (span.of target))

/-- The template of a rule filled in at its first hit, or at every hit. Without a text for the
language the target itself is the template. -/
def fillIn (r : Rule) (c : Regex.Compiled) (hit : Regex.Hit) (language : String)
    (target : List Char) : List Char :=
  let template := ((r.entry.replacements.get? language).map String.toList).getD target
  let hits := if r.isGlobal then c.hits target else [hit]
  Regex.Compiled.substitute target (Template.expand c template target) 0 hits

/-- Puts a capture that was found in the stead of the first occurrence of its target. -/
def patch (text : List Char) (child : Rendition) : List Char :=
  if child.coverage = .full then
    Text.replaceFirst child.target.toList child.text.toList text
  else text

/-- The answer for `target` in a category, while those on the trail are being looked up. -/
def renderIn (b : Book) (language : String) (trail : List String) (category target : String) :
    Rendition :=
  match b.rawFor? category target with
  | some r => .node target ((r.get? language).getD target) .full []
  | none =>
    match b.patternFor? category target.toList with
    | none => .missing target
    | some (rule, compiled, hit) =>
      let children := (captured target.toList hit).map fun (i, text) =>
        let found? := (b.openCandidates (category :: trail) rule i).attach.findSome? fun name =>
          let sub := renderIn b language (category :: trail) name.1 text
          if sub.coverage = .full then some sub else none
        found?.getD (.missing text)
      let patched := children.foldl patch (fillIn rule compiled hit language target.toList)
      let complete := children.all (·.coverage = .full) || rule.entry.ignorePart
      .node target (String.ofList patched) (if complete then .full else .part) children
termination_by b.unvisited (category :: trail)
decreasing_by exact unvisited_lt name.2

def render (b : Book) (target language category : String) : Rendition :=
  b.renderIn language [] category target

end Book

end Phrasebook
