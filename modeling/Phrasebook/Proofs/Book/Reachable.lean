import Mathlib.Data.List.Nodup
import Mathlib.Data.List.Sort
import Phrasebook.Proofs.Book.Trail

/-!
What a lookup depends on. A lookup comes to categories only to which edges of the graph lead, and it asks for
nothing but the rules of these. So rules of other categories can be added, changed or dropped, and the order in
which entries are listed has no effect.
-/

namespace Phrasebook

namespace Graph

open Relation (ReflTransGen)

variable {entries : List Pack.Entry} {u v : String}

/-- One step along an edge. -/
def HasEdge (g : Graph) (u v : String) : Prop := ∃ e ∈ g.edges, e.source = u ∧ e.target = v

/-- The names to which edges lead from `u`, and `u` itself. -/
def reachable (g : Graph) (u : String) : Set String := {v | ReflTransGen g.HasEdge u v}

theorem hasEdge_iff : (ofEntries entries).HasEdge u v ↔ Leads (pairsOf entries) u v := by
  constructor
  · rintro ⟨e, hEdge, rfl, rfl⟩
    exact (mem_edges_iff.1 hEdge).1
  · intro hPair
    have hEdge : ⟨u, v, u == v || reaches (pairsOf entries) v u⟩ ∈ (ofEntries entries).edges :=
      mem_edges_iff.2 ⟨hPair, cyclic_iff⟩
    exact ⟨_, hEdge, rfl, rfl⟩

theorem mem_reachable_iff :
    v ∈ (ofEntries entries).reachable u ↔ reaches (pairsOf entries) u v = true := by
  have hSame : (ofEntries entries).HasEdge = Leads (pairsOf entries) :=
    funext₂ fun _ _ => propext hasEdge_iff
  rw [reaches_iff, reachable, Set.mem_ofPred_eq, hSame]

end Graph

namespace Rule

theorem precedes_iff {a b : Rule} : precedes a b = true ↔ b.entry.priority < a.entry.priority ∨
    a.entry.priority = b.entry.priority ∧ a.entry.id ≤ b.entry.id := by
  simp [precedes]

theorem precedes_trans (a b c : Rule) (hab : precedes a b = true) (hbc : precedes b c = true) :
    precedes a c = true := by
  rw [precedes_iff] at hab hbc ⊢
  omega

theorem precedes_total (a b : Rule) : (precedes a b || precedes b a) = true := by
  rw [Bool.or_eq_true, precedes_iff, precedes_iff]
  omega

/-- Rules of different ids have a definite order. -/
theorem id_eq_of_precedes {a b : Rule} (hab : precedes a b = true) (hba : precedes b a = true) :
    a.entry.id = b.entry.id := by
  rw [precedes_iff] at hab hba
  omega

end Rule

namespace Book

variable {engine : Regex.Engine} {entries others : List Pack.Entry} {category : String}

/-- Rules are tried in their order of precedence. -/
theorem rulesOf_pairwise (engine : Regex.Engine) (entries : List Pack.Entry) (category : String) :
    ((ofEntries engine entries).rulesOf category).Pairwise (Rule.precedes · ·) := by
  have hSorted : (ofEntries engine entries).rules.Pairwise (Rule.precedes · ·) :=
    List.pairwise_mergeSort Rule.precedes_trans Rule.precedes_total _
  exact hSorted.filter _

theorem rulesOf_perm (engine : Regex.Engine) (entries : List Pack.Entry) (category : String) :
    ((ofEntries engine entries).rulesOf category).Perm
      ((entries.filter (·.category == category)).map (Rule.ofEntry engine)) := by
  have hSorted : (ofEntries engine entries).rules.Perm (entries.map (Rule.ofEntry engine)) :=
    List.mergeSort_perm _ _
  have hFiltered := hSorted.filter (·.entry.category == category)
  rwa [List.filter_map] at hFiltered

theorem mem_rulesOf_ofEntries {r : Rule} : r ∈ (ofEntries engine entries).rulesOf category ↔
    ∃ e ∈ entries, e.category = category ∧ Rule.ofEntry engine e = r := by
  simp only [(rulesOf_perm engine entries category).mem_iff, List.mem_map, List.mem_filter,
    beq_iff_eq, and_assoc]

/-- When ids are distinct, the rules of a category and their order only depend on which entries of the
category there are. -/
theorem rulesOf_congr (hIds : (entries.map (·.id)).Nodup) (hOtherIds : (others.map (·.id)).Nodup)
    (hSame : ∀ e, e.category = category → (e ∈ entries ↔ e ∈ others)) :
    (ofEntries engine others).rulesOf category = (ofEntries engine entries).rulesOf category := by
  have hEntries : (others.filter (·.category == category)).Perm
      (entries.filter (·.category == category)) := by
    rw [List.perm_ext_iff_of_nodup (hOtherIds.of_map _ |>.filter _) (hIds.of_map _ |>.filter _)]
    intro e
    rw [List.mem_filter, List.mem_filter, beq_iff_eq]
    exact and_congr_left fun hCategory => (hSame e hCategory).symm
  have hPerm : ((ofEntries engine others).rulesOf category).Perm
      ((ofEntries engine entries).rulesOf category) :=
    (rulesOf_perm engine others category).trans
      ((hEntries.map _).trans (rulesOf_perm engine entries category).symm)
  refine hPerm.eq_of_pairwise (fun a b ha hb hab hba => ?_) (rulesOf_pairwise engine others category)
    (rulesOf_pairwise engine entries category)
  -- Two rules that precede each other have the same id, so they come from the same entry.
  obtain ⟨x, hx, -, rfl⟩ := mem_rulesOf_ofEntries.1 (hPerm.mem_iff.1 ha)
  obtain ⟨y, hy, -, rfl⟩ := mem_rulesOf_ofEntries.1 hb
  rw [List.inj_on_of_nodup_map hIds hx hy (Rule.id_eq_of_precedes hab hba)]

theorem knows_eq (b : Book) (category : String) :
    b.knows category = (b.rulesOf category).any fun _ => true := by
  rw [knows, rulesOf, List.any_filter]
  simp

section

variable {b b' : Book} {names : Set String} {language : String}

/-- Where two books have the same rules for all names that come up, they give the same answers. -/
theorem renderIn_congr (hRules : ∀ name ∈ names, b'.rulesOf name = b.rulesOf name)
    (hClosed : ∀ name ∈ names, ∀ r ∈ b.rulesOf name, ∀ capture, ∀ other ∈ r.candidates capture,
      other ∈ names)
    {trail : List String} (hCategory : category ∈ names) (target : String) :
    b'.renderIn language trail category target = b.renderIn language trail category target := by
  -- Every lookup of a capture leaves fewer categories that are not under way.
  induction hSize : b.unvisited (category :: trail) using Nat.strong_induction_on
    generalizing trail category target with
  | _ size ih =>
    have hRaw : b'.rawFor? category target = b.rawFor? category target := by
      rw [rawFor?, rawFor?, hRules category hCategory]
    have hPattern : b'.patternFor? category target.toList = b.patternFor? category target.toList := by
      rw [patternFor?, patternFor?, hRules category hCategory]
    rw [renderIn_eq, renderIn_eq b, hRaw, hPattern]
    cases b.rawFor? category target with
    | some r => rfl
    | none =>
        cases hRule : b.patternFor? category target.toList with
        | none => rfl
        | some found =>
            obtain ⟨rule, compiled, hit⟩ := found
            have hNames := hClosed category hCategory rule (mem_rulesOf_of_patternFor? hRule)
            have hOpen : ∀ i, b'.openCandidates (category :: trail) rule i =
                b.openCandidates (category :: trail) rule i := by
              intro i
              refine List.filter_congr fun name hName => ?_
              rw [knows_eq, knows_eq, hRules name (hNames i name hName)]
            have hCaptures : ∀ (i : Nat) (text : String),
                firstAnswer (b'.renderIn language (category :: trail) · text)
                    (b'.openCandidates (category :: trail) rule i) =
                  firstAnswer (b.renderIn language (category :: trail) · text)
                    (b.openCandidates (category :: trail) rule i) := by
              intro i text
              rw [hOpen]
              conv_lhs => rw [← List.map_id (b.openCandidates (category :: trail) rule i)]
              exact firstAnswer_map fun name hName =>
                ih _ (hSize ▸ unvisited_lt hName) (hNames i name (List.mem_of_mem_filter hName)) text rfl
            simp only [hCaptures]

end

/-- Candidates in a category to which edges lead are such categories as well. -/
theorem mem_reachable_of_mem_candidates {origin : String}
    (hCategory : category ∈ (Graph.ofEntries entries).reachable origin) {r : Rule}
    (hr : r ∈ (ofEntries engine entries).rulesOf category) {capture : Nat} {name : String}
    (hName : name ∈ r.candidates capture) : name ∈ (Graph.ofEntries entries).reachable origin := by
  exact Relation.ReflTransGen.tail hCategory
    (Graph.hasEdge_iff.2 (mem_pairsOf_of_mem_candidates hr hName))

theorem render_congr (hIds : (entries.map (·.id)).Nodup) (hOtherIds : (others.map (·.id)).Nodup)
    (hSame : ∀ e, e.category ∈ (Graph.ofEntries entries).reachable category →
      (e ∈ entries ↔ e ∈ others)) (target language : String) :
    (ofEntries engine others).render target language category =
      (ofEntries engine entries).render target language category :=
  renderIn_congr (fun _ hName => rulesOf_congr hIds hOtherIds fun e hCategory =>
      hSame e (hCategory ▸ hName))
    (fun _ hName _ hr _ _ hOther => mem_reachable_of_mem_candidates hName hr hOther) .refl target

/-- When ids are distinct, a lookup in a category gives the same answer in every list that has the same entries
of the categories to which edges lead from it, in whatever order. So it gives the same answer when entries of
other categories are dropped and added, or changed, which is both. -/
theorem render_depends_on_reachable (engine : Regex.Engine) {entries : List Pack.Entry}
    (hIds : (entries.map (·.id)).Nodup) (category : String) :
    (∀ others : List Pack.Entry, (others.map (·.id)).Nodup →
      (∀ e, e.category ∈ (Graph.ofEntries entries).reachable category →
        (e ∈ entries ↔ e ∈ others)) →
      ∀ target language, (ofEntries engine others).render target language category =
        (ofEntries engine entries).render target language category) ∧
    ∀ kept dropped added others : List Pack.Entry, entries.Perm (kept ++ dropped) →
      others.Perm (kept ++ added) → (others.map (·.id)).Nodup →
      (∀ e ∈ dropped ++ added, e.category ∉ (Graph.ofEntries entries).reachable category) →
      ∀ target language, (ofEntries engine others).render target language category =
        (ofEntries engine entries).render target language category := by
  refine ⟨fun others hOtherIds hSame => render_congr hIds hOtherIds hSame, ?_⟩
  intro kept dropped added others hEntries hOthers hOtherIds hUnreachable
  refine render_congr hIds hOtherIds fun e hReached => ?_
  have hElsewhere : e ∉ dropped ++ added := fun he => hUnreachable e he hReached
  rw [List.mem_append, not_or] at hElsewhere
  rw [hEntries.mem_iff, hOthers.mem_iff, List.mem_append, List.mem_append,
    or_iff_left hElsewhere.1, or_iff_left hElsewhere.2]

/-- An entry for the way to a town. -/
def wayTo : Pack.Entry :=
  { category := "way", replacements := .ofList [("ko", "$1 (to)")], raw := none
    regex := some (.bare "^to (.+)$"), groups := [.name "town"], ignorePart := false, priority := 0
    id := 1 }

def townBusan : Pack.Entry :=
  { category := "town", replacements := .ofList [("ko", "부산")], raw := some "Busan", regex := none
    groups := [], ignorePart := false, priority := 0, id := 2 }

/-- An entry that other entries do not lead to. -/
def hillOf (groups : List Group) : Pack.Entry :=
  { category := "hill", replacements := .ofList [("ko", "언덕")], raw := some "hill", regex := none
    groups, ignorePart := false, priority := 5, id := 3 }

/-- The way to a town stays the same when the entries are listed in another order and the entry for hills
refers to ways all at once. -/
theorem render_way_to_town :
    "hill" ∉ (Graph.ofEntries [wayTo, hillOf [], townBusan]).reachable "way" ∧
    (ofEntries Regex.engine [hillOf [.name "way"], townBusan, wayTo]).render "to Busan" "ko" "way" =
      (ofEntries Regex.engine [wayTo, hillOf [], townBusan]).render "to Busan" "ko" "way" ∧
    ((ofEntries Regex.engine [wayTo, hillOf [], townBusan]).render "to Busan" "ko" "way").text =
      "부산 (to)" := by
  have hHill : "hill" ∉ (Graph.ofEntries [wayTo, hillOf [], townBusan]).reachable "way" := by
    rw [Graph.mem_reachable_iff, Bool.not_eq_true]
    cbv
  have hEntries : ([wayTo, hillOf []] ++ [townBusan]).Perm ([townBusan] ++ [wayTo, hillOf []]) :=
    List.perm_append_comm
  have hOthers : ([hillOf [.name "way"]] ++ [townBusan, wayTo]).Perm
      ([townBusan, wayTo] ++ [hillOf [.name "way"]]) :=
    List.perm_append_comm
  refine ⟨hHill, (render_depends_on_reachable Regex.engine (by decide) "way").2
    [townBusan, wayTo] [hillOf []] [hillOf [.name "way"]] _ hEntries hOthers (by decide) ?_ "to Busan"
    "ko", ?_⟩
  · intro e he
    obtain rfl | rfl : e = hillOf [] ∨ e = hillOf [.name "way"] := by simpa using he
    · exact hHill
    · exact hHill
  · cbv

end Book

end Phrasebook
