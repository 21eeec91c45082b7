import Mathlib
import Phrasebook.Book
import Phrasebook.Proofs.Graph.Walks
import Phrasebook.Regex.Engine

/-!
The trail of a lookup. A lookup can be carried out step by step, with a note of every category that it
enters and of every candidate that it passes over. It never enters a category that it is in already, and
whatever it passes over is the target of a cyclic edge. So without cyclic edges the trail need not be looked
at.
-/

namespace Phrasebook.Book

/-- What a lookup notes of itself. -/
inductive Event where
  /-- A lookup in the category begins, while those on the trail are under way. -/
  | enter (trail : List String) (category : String)
  /-- In a category a candidate is passed over, because it is under way itself. -/
  | passOver (trail : List String) (category candidate : String)
  deriving DecidableEq, Repr

/-- Work that takes notes. It may give up. -/
abbrev Tracing := StateT (List Event) Option

namespace Tracing

def note (e : Event) : Tracing Unit := modify (· ++ [e])

/-- Whether a candidate is looked up: it must be known and, with the guard, must not be under way. -/
def admits (b : Book) (guarded : Bool) (trail : List String) (category candidate : String) :
    Tracing Bool := do
  if guarded && (category :: trail).contains candidate then
    note (.passOver trail category candidate)
    return false
  else return b.knows candidate

/-- The first full answer that is found in the names which are admitted. -/
def firstFull (accept : String → Tracing Bool) (look : String → Tracing Rendition) :
    List String → Tracing (Option Rendition)
  | [] => return none
  | name :: more => do
    if ← accept name then
      let sub ← look name
      if sub.coverage = .full then return some sub else firstFull accept look more
    else firstFull accept look more

end Tracing

open Tracing in
/-- A lookup that takes notes, with or without the guard against categories that are under way. It
gives up when more than `depth` lookups are under way at a time. -/
def traceIn (b : Book) (language : String) (guarded : Bool) :
    Nat → List String → String → String → Tracing Rendition
  | 0, _, _, _ => failure
  | depth + 1, trail, category, target => do
    note (.enter trail category)
    match b.rawFor? category target with
    | some r => return .node target ((r.get? language).getD target) .full []
    | none =>
      match b.patternFor? category target.toList with
      | none => return .missing target
      | some (rule, compiled, hit) =>
        let children ← (captured target.toList hit).mapM fun (i, text) => do
          let found? ← firstFull (admits b guarded trail category)
            (fun name => traceIn b language guarded depth (category :: trail) name text)
            (rule.candidates i)
          return found?.getD (.missing text)
        let patched := children.foldl patch (fillIn rule compiled hit language target.toList)
        let complete := children.all (·.coverage = .full) || rule.entry.ignorePart
        return .node target (String.ofList patched) (if complete then .full else .part) children

/-- The first full answer among those for some names. -/
def firstAnswer (answer : String → Rendition) (names : List String) : Option Rendition :=
  names.findSome? fun name => if (answer name).coverage = .full then some (answer name) else none

/-- Names that have the same answers elsewhere under other names have the same first answer. -/
theorem firstAnswer_map {answer other : String → Rendition} {f : String → String} {names : List String}
    (h : ∀ name ∈ names, other (f name) = answer name) :
    firstAnswer other (names.map f) = firstAnswer answer names := by
  induction names with
  | nil => rfl
  | cons name more ih =>
      rw [List.forall_mem_cons] at h
      have hMore := ih h.2
      rw [firstAnswer, firstAnswer] at hMore ⊢
      rw [List.map_cons, List.findSome?_cons, List.findSome?_cons, h.1, hMore]

/-- Wherever it begins, the work gives `a` and notes only events that satisfy `P`. -/
def Gives {α : Type} (P : Event → Prop) (work : Tracing α) (a : α) : Prop :=
  ∀ past, ∃ events, work.run past = some (a, past ++ events) ∧ ∀ e ∈ events, P e

namespace Gives

variable {α β : Type} {P : Event → Prop}

theorem pure (a : α) : Gives P (Pure.pure a) a := fun past => ⟨[], by simp, by simp⟩

theorem note {e : Event} (h : P e) : Gives P (Tracing.note e) () :=
  fun past => ⟨[e], rfl, by simpa using h⟩

theorem bind {work : Tracing α} {a : α} {next : α → Tracing β} {b : β} (h : Gives P work a)
    (k : Gives P (next a) b) : Gives P (work >>= next) b := by
  intro past
  obtain ⟨events, hRun, hAll⟩ := h past
  obtain ⟨later, hNext, hLater⟩ := k (past ++ events)
  refine ⟨events ++ later, ?_, List.forall_mem_append.2 ⟨hAll, hLater⟩⟩
  rw [StateT.run_bind, hRun, ← List.append_assoc]
  exact hNext

theorem mapM {work : α → Tracing β} {f : α → β} {xs : List α} (h : ∀ x ∈ xs, Gives P (work x) (f x)) :
    Gives P (xs.mapM work) (xs.map f) := by
  induction xs with
  | nil => exact pure []
  | cons x xs ih =>
      rw [List.forall_mem_cons] at h
      rw [List.mapM_cons]
      exact h.1.bind ((ih h.2).bind (pure _))

theorem firstFull {accept : String → Tracing Bool} {isOpen : String → Bool}
    {look : String → Tracing Rendition} {answer : String → Rendition} {names : List String}
    (hAccept : ∀ name ∈ names, Gives P (accept name) (isOpen name))
    (hLook : ∀ name ∈ names, isOpen name = true → Gives P (look name) (answer name)) :
    Gives P (Tracing.firstFull accept look names)
      (firstAnswer answer (names.filter isOpen)) := by
  induction names with
  | nil => exact pure none
  | cons name more ih =>
      rw [List.forall_mem_cons] at hAccept hLook
      have hMore := ih hAccept.2 hLook.2
      rw [Tracing.firstFull]
      refine hAccept.1.bind ?_
      cases hOpen : isOpen name with
      | false =>
          rw [List.filter_cons_of_neg (by simp [hOpen])]
          simpa using hMore
      | true =>
          rw [List.filter_cons_of_pos hOpen, firstAnswer, List.findSome?_cons]
          refine (hLook.1 hOpen).bind ?_
          by_cases hFull : (answer name).coverage = .full
          · rw [if_pos hFull, if_pos hFull]
            exact pure _
          · rw [if_neg hFull, if_neg hFull]
            exact hMore

end Gives

variable {engine : Regex.Engine} {entries : List Pack.Entry} {b : Book}

/-- The rules of a category come from entries of the category. -/
theorem exists_entry_of_mem_rulesOf {category : String} {r : Rule}
    (h : r ∈ (ofEntries engine entries).rulesOf category) :
    r.entry ∈ entries ∧ r.entry.category = category := by
  obtain ⟨hRule, hCategory⟩ := List.mem_filter.1 h
  rw [ofEntries, List.mem_mergeSort] at hRule
  obtain ⟨e, he, rfl⟩ := List.mem_map.1 hRule
  exact ⟨he, beq_iff_eq.1 hCategory⟩

theorem mem_rulesOf_of_patternFor? {category : String} {target : List Char} {r : Rule}
    {c : Regex.Compiled} {hit : Regex.Hit} (h : b.patternFor? category target = some (r, c, hit)) :
    r ∈ b.rulesOf category := by
  obtain ⟨r', hMem, hFits⟩ := List.exists_of_findSome?_eq_some h
  obtain ⟨c', -, hHit⟩ := Option.bind_eq_some_iff.1 hFits
  obtain ⟨hit', -, hEq⟩ := Option.map_eq_some_iff.1 hHit
  rwa [← (Prod.mk.inj hEq).1]

/-- Candidates are leaves of the groups. -/
theorem mem_leavesOf_of_mem_candidates {r : Rule} {capture : Nat} {name : String}
    (h : name ∈ r.candidates capture) : name ∈ Group.leavesOf r.entry.groups := by
  have hLeaf : ∀ {groups : List Group} {g : Group}, g ∈ groups → name ∈ Group.leaves g →
      name ∈ Group.leavesOf groups := by
    intro groups g hg hName
    induction groups with
    | nil => exact absurd hg List.not_mem_nil
    | cons first more ih =>
        rw [Group.leavesOf, List.mem_append]
        rcases List.mem_cons.1 hg with rfl | hg
        · exact Or.inl hName
        · exact Or.inr (ih hg)
  rw [Rule.candidates] at h
  cases hGroup : r.entry.groups[capture]? with
  | none => simp [hGroup] at h
  | some g =>
      rw [hGroup, Option.map_some, Option.getD_some] at h
      refine hLeaf (List.mem_of_getElem? hGroup) ?_
      cases g with
      | name category => exact h
      | null => exact h
      | list items =>
          obtain ⟨item, hItem, hName⟩ := List.mem_filterMap.1 h
          refine hLeaf hItem ?_
          cases item with
          | name category => simpa [Group.leaves, eq_comm] using hName
          | null => simp at hName
          | list _ => simp at hName

/-- A candidate is the target of an edge of the category in which it is come to. -/
theorem mem_pairsOf_of_mem_candidates {category : String} {r : Rule}
    (hRule : r ∈ (ofEntries engine entries).rulesOf category) {capture : Nat} {name : String}
    (h : name ∈ r.candidates capture) : (category, name) ∈ Graph.pairsOf entries := by
  obtain ⟨hEntry, rfl⟩ := exists_entry_of_mem_rulesOf hRule
  have hPair : (r.entry.category, name) ∈ Graph.entryPairs r.entry :=
    List.mem_map_of_mem (mem_leavesOf_of_mem_candidates h)
  exact Graph.mem_pairsOf_iff.2 ⟨r.entry, hEntry, hPair⟩

open Relation (ReflTransGen)

/-- The categories of a trail, the last one before the others, with the category that they lead to:
all of them are different, and from each of them a walk leads to the category. -/
structure IsTrail (entries : List Pack.Entry) (trail : List String) (category : String) : Prop where
  nodup : (category :: trail).Nodup
  walk : ∀ name ∈ category :: trail, ReflTransGen (Graph.Leads (Graph.pairsOf entries)) name category

theorem isTrail_nil (entries : List Pack.Entry) (category : String) : IsTrail entries [] category :=
  ⟨by simp, fun name hName => by rw [List.mem_singleton.1 hName]⟩

theorem IsTrail.step {trail : List String} {category name : String} (h : IsTrail entries trail category)
    (hPair : (category, name) ∈ Graph.pairsOf entries) (hNew : name ∉ category :: trail) :
    IsTrail entries (category :: trail) name where
  nodup := List.nodup_cons.2 ⟨hNew, h.nodup⟩
  walk other hOther := by
    rcases List.mem_cons.1 hOther with rfl | hOther
    · exact .refl
    · exact (h.walk other hOther).tail hPair

/-- An edge back to the trail is cyclic. -/
theorem IsTrail.cyclic {trail : List String} {category name : String}
    (h : IsTrail entries trail category) (hPair : (category, name) ∈ Graph.pairsOf entries)
    (hBack : name ∈ category :: trail) : ⟨category, name, true⟩ ∈ (Graph.ofEntries entries).edges :=
  Graph.mem_edges_iff.2 ⟨hPair, iff_of_true rfl (h.walk name hBack)⟩

/-- What every note tells: the categories under way are different, and a candidate that is passed
over is one of them and the target of a cyclic edge. -/
def Event.IsFair (entries : List Pack.Entry) : Event → Prop
  | enter trail category => (category :: trail).Nodup
  | passOver trail category candidate =>
    (category :: trail).Nodup ∧ candidate ∈ category :: trail ∧
      ⟨category, candidate, true⟩ ∈ (Graph.ofEntries entries).edges

/-- A lookup without notes, as an equation that does not mention why it ends. -/
theorem renderIn_eq (b : Book) (language : String) (trail : List String) (category target : String) :
    b.renderIn language trail category target =
      match b.rawFor? category target with
      | some r => .node target ((r.get? language).getD target) .full []
      | none =>
        match b.patternFor? category target.toList with
        | none => .missing target
        | some (rule, compiled, hit) =>
          let children := (captured target.toList hit).map fun (i, text) =>
            (firstAnswer (b.renderIn language (category :: trail) · text)
              (b.openCandidates (category :: trail) rule i)).getD (.missing text)
          let patched := children.foldl patch (fillIn rule compiled hit language target.toList)
          let complete := children.all (·.coverage = .full) || rule.entry.ignorePart
          .node target (String.ofList patched) (if complete then .full else .part) children := by
  have hPlain : ∀ (names : List String) (text : String),
      (names.attach.findSome? fun name =>
        if (b.renderIn language (category :: trail) name.1 text).coverage = .full then
          some (b.renderIn language (category :: trail) name.1 text)
        else none) = firstAnswer (b.renderIn language (category :: trail) · text) names := by
    intro names text
    conv_rhs => rw [firstAnswer, ← List.unattach_attach (l := names)]
    exact List.findSome?_subtype fun _ _ => rfl
  have hBody := renderIn.eq_1 b language trail category target
  simp only [hPlain] at hBody
  exact hBody

/-- Without a guard a candidate on the trail would be looked up, but then there is a cyclic edge. -/
theorem admits_gives {guarded : Bool}
    (hGuard : guarded = true ∨ (Graph.ofEntries entries).cyclicEdges = []) {trail : List String}
    {category name : String} (hTrail : IsTrail entries trail category)
    (hPair : (category, name) ∈ Graph.pairsOf entries) :
    Gives (Event.IsFair entries) (Tracing.admits b guarded trail category name)
      (!(category :: trail).contains name && b.knows name) := by
  rw [Tracing.admits]
  by_cases hBack : name ∈ category :: trail
  · have hCyclic := hTrail.cyclic hPair hBack
    rcases hGuard with rfl | hAcyclic
    · rw [if_pos (by simpa using hBack), List.contains_iff_mem.2 hBack]
      exact (Gives.note ⟨hTrail.nodup, hBack, hCyclic⟩).bind (.pure false)
    · have hListed : ⟨category, name, true⟩ ∈ (Graph.ofEntries entries).cyclicEdges :=
        List.mem_filter.2 ⟨hCyclic, rfl⟩
      rw [hAcyclic] at hListed
      exact absurd hListed List.not_mem_nil
  · have hNot : (category :: trail).contains name = false := by simpa using hBack
    rw [hNot, Bool.and_false, if_neg Bool.false_ne_true]
    exact .pure _

/-- A lookup with notes gives the same answer as one without, and all its notes are fair, as long as
it has the guard or there are no cyclic edges. -/
theorem traceIn_gives (language : String) {guarded : Bool}
    (hGuard : guarded = true ∨ (Graph.ofEntries entries).cyclicEdges = []) {depth : Nat}
    {trail : List String} {category : String} (hTrail : IsTrail entries trail category)
    (hDepth : (ofEntries engine entries).unvisited (category :: trail) < depth) (target : String) :
    Gives (Event.IsFair entries)
      ((ofEntries engine entries).traceIn language guarded depth trail category target)
      ((ofEntries engine entries).renderIn language trail category target) := by
  induction depth generalizing trail category target with
  | zero => exact absurd hDepth (Nat.not_lt_zero _)
  | succ depth ih =>
      rw [traceIn, renderIn_eq]
      refine (Gives.note hTrail.nodup).bind ?_
      cases hRaw : (ofEntries engine entries).rawFor? category target with
      | some r => exact .pure _
      | none =>
          cases hRule : (ofEntries engine entries).patternFor? category target.toList with
          | none => exact .pure _
          | some found =>
              obtain ⟨rule, compiled, hit⟩ := found
              have hListed := mem_rulesOf_of_patternFor? hRule
              refine (Gives.mapM fun capture _ => ?_).bind (.pure _)
              refine (Gives.firstFull (fun name hName => ?_) fun name hName hOpen => ?_).bind (.pure _)
              · exact admits_gives hGuard hTrail (mem_pairsOf_of_mem_candidates hListed hName)
              · have hNew : name ∉ category :: trail := by
                  simp only [Bool.and_eq_true, Bool.not_eq_true', List.contains_eq_mem,
                    decide_eq_false_iff_not] at hOpen
                  exact hOpen.1
                refine ih (hTrail.step (mem_pairsOf_of_mem_candidates hListed hName) hNew) ?_ capture.2
                have hLess := unvisited_lt (List.mem_filter.2 ⟨hName, hOpen⟩)
                omega

/-- Looking up a text comes to an end with no more lookups under way than there are categories, and
one. The categories under way are always different, and a candidate is passed over only where the
graph has a cyclic edge to it. Without cyclic edges the same answer is found when nothing is ever
passed over. -/
theorem render_eq_trace (engine : Regex.Engine) (entries : List Pack.Entry)
    (language target category : String) {depth : Nat}
    (hDepth : (ofEntries engine entries).categories.length < depth) :
    (∃ events, ((ofEntries engine entries).traceIn language true depth [] category target).run [] =
        some ((ofEntries engine entries).render target language category, events) ∧
      ∀ e ∈ events, e.IsFair entries) ∧
    ((Graph.ofEntries entries).cyclicEdges = [] → ∃ events,
      ((ofEntries engine entries).traceIn language false depth [] category target).run [] =
        some ((ofEntries engine entries).render target language category, events)) := by
  have hLess : (ofEntries engine entries).unvisited [category] < depth :=
    Nat.lt_of_le_of_lt List.countP_le_length hDepth
  constructor
  · exact traceIn_gives language (Or.inl rfl) (isTrail_nil entries category) hLess target []
  · intro hAcyclic
    obtain ⟨events, hRun, -⟩ := traceIn_gives language (Or.inr hAcyclic) (isTrail_nil entries category)
      hLess target []
    exact ⟨events, hRun⟩

/-- Two categories, each of which looks its capture up in the other. -/
def circle : List Pack.Entry :=
  [{ category := "a", replacements := .ofList [("ko", "A[$1]")], raw := none
     regex := some (.bare "^(.*)$"), groups := [.list [.name "b"]], ignorePart := false, priority := 0
     id := 1 },
    { category := "b", replacements := .ofList [("ko", "B[$1]")], raw := none
      regex := some (.bare "^(.*)$"), groups := [.list [.name "a"]], ignorePart := false, priority := 0
      id := 2 }]

/-- In the circle the second category passes the first one over, and the edge back to it is cyclic. -/
theorem circle_closes :
    ∃ events, ((ofEntries Regex.engine circle).traceIn "ko" true 3 [] "a" "x").run [] =
        some ((ofEntries Regex.engine circle).render "x" "ko" "a", events) ∧
      events = [.enter [] "a", .enter ["a"] "b", .passOver ["a"] "b" "a"] ∧
      ⟨"b", "a", true⟩ ∈ (Graph.ofEntries circle).edges := by
  have hDepth : (ofEntries Regex.engine circle).categories.length < 3 := by cbv
  obtain ⟨events, hRun, hFair⟩ := (render_eq_trace Regex.engine circle "ko" "x" "a" hDepth).1
  have hNotes : (((ofEntries Regex.engine circle).traceIn "ko" true 3 [] "a" "x").run []).map (·.2) =
      some [.enter [] "a", .enter ["a"] "b", .passOver ["a"] "b" "a"] := by cbv
  rw [hRun] at hNotes
  obtain rfl := Option.some.inj hNotes
  exact ⟨_, hRun, rfl, (hFair (.passOver ["a"] "b" "a") (by simp)).2.2⟩

end Phrasebook.Book
