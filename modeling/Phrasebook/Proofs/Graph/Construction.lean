import Mathlib
import Phrasebook.Proofs.Graph.Cycles
import Phrasebook.Proofs.Group.Names

/-!
How a graph is made. A graph grows entry by entry: the category of an entry gets a node, unless it has one,
and is counted there; each name in its groups gets a node and an edge from the category, unless they are
there. What has grown when all entries are added is the graph of the entries. So nodes and edges come in the
order in which they were first seen, and the order of the entries makes no other difference.
-/

namespace Phrasebook

/-- Every item once, in the order in which the items come for the first time. -/
structure IsFirstSeen {α : Type} [BEq α] (items distinct : List α) : Prop where
  nodup : distinct.Nodup
  mem_iff : ∀ x, x ∈ distinct ↔ x ∈ items
  ordered : distinct.Pairwise fun x y => items.idxOf x < items.idxOf y

section FirstSeen

variable {α : Type} [BEq α] [LawfulBEq α]

/-- An item behind all others is new, or it has been seen. -/
theorem eraseDups_concat (items : List α) (x : α) :
    (items ++ [x]).eraseDups = if x ∈ items then items.eraseDups else items.eraseDups ++ [x] := by
  rw [List.eraseDups_append]
  split
  next hSeen => simp [List.removeAll, hSeen]
  next hNew => simp [List.removeAll, hNew, List.eraseDups_cons]

theorem isFirstSeen_eraseDups (items : List α) : IsFirstSeen items items.eraseDups := by
  induction items using List.reverseRecOn with
  | nil => exact ⟨List.nodup_nil, fun _ => Iff.rfl, .nil⟩
  | append_singleton items x ih =>
      have hOrdered : items.eraseDups.Pairwise fun y z =>
          (items ++ [x]).idxOf y < (items ++ [x]).idxOf z := by
        refine ih.ordered.imp_of_mem fun hy hz hBefore => ?_
        rwa [List.idxOf_append_of_mem ((ih.mem_iff _).1 hy), List.idxOf_append_of_mem ((ih.mem_iff _).1 hz)]
      rw [eraseDups_concat]
      split
      next hSeen =>
        refine ⟨ih.nodup, fun y => ?_, hOrdered⟩
        rw [ih.mem_iff, List.mem_append, List.mem_singleton]
        exact ⟨Or.inl, fun h => h.elim id (· ▸ hSeen)⟩
      next hNew =>
        refine ⟨?_, fun y => by rw [List.mem_append, List.mem_append, ih.mem_iff], ?_⟩
        · rw [← List.concat_eq_append]
          exact ih.nodup.concat fun hMem => hNew ((ih.mem_iff x).1 hMem)
        · refine List.pairwise_append.2 ⟨hOrdered, List.pairwise_singleton _ _, fun y hy z hz => ?_⟩
          -- What was seen before has its place among the items in front of `x`.
          have hBefore : y ∈ items := (ih.mem_iff y).1 hy
          obtain rfl := List.mem_singleton.1 hz
          rw [List.idxOf_append_of_mem hBefore, List.idxOf_append_of_notMem hNew]
          exact Nat.lt_add_right _ (List.idxOf_lt_length_of_mem hBefore)

/-- The same items in another order are the same when each is taken once. -/
theorem eraseDups_perm {items others : List α} (h : others.Perm items) :
    others.eraseDups.Perm items.eraseDups := by
  refine (List.perm_ext_iff_of_nodup (isFirstSeen_eraseDups others).nodup
    (isFirstSeen_eraseDups items).nodup).2 fun x => ?_
  rw [List.mem_eraseDups, List.mem_eraseDups, h.mem_iff]

end FirstSeen

section Counting

variable {α : Type} [DecidableEq α]

/-- Items that are counted under what they are come to as many as there are. -/
theorem sum_count_eq_length {items distinct : List α} (hNodup : distinct.Nodup) (hAll : items ⊆ distinct) :
    (distinct.map fun x => items.count x).sum = items.length := by
  calc (distinct.map fun x => items.count x).sum
      = ∑ x ∈ distinct.toFinset, items.count x := (List.sum_toFinset _ hNodup).symm
    _ = ∑ x ∈ distinct.toFinset, (items : Multiset α).count x := by simp only [Multiset.coe_count]
    _ = items.length := Multiset.sum_count_eq_card fun x hx => List.mem_toFinset.2 (hAll hx)

/-- Without repetitions, only one item has the place of `x`. -/
theorem modify_idxOf_map {β : Type} (f : α → β) (change : β → β) {items : List α} {x : α}
    (hNodup : items.Nodup) (hMem : x ∈ items) :
    (items.map f).modify (items.idxOf x) change = items.map fun y => if y = x then change (f y) else f y := by
  induction items with
  | nil => exact absurd hMem List.not_mem_nil
  | cons y items ih =>
      obtain ⟨hOnce, hNodup⟩ := List.nodup_cons.1 hNodup
      by_cases hSame : y = x
      · subst hSame
        have hOthers : ∀ z ∈ items, z ≠ y := fun z hz hSame => hOnce (hSame ▸ hz)
        rw [List.idxOf_cons_self, List.map_cons, List.map_cons, List.modify_zero_cons, if_pos rfl]
        refine congrArg _ (List.map_congr_left fun z hz => ?_)
        rw [if_neg (hOthers z hz)]
      · have hMem : x ∈ items := (List.mem_cons.1 hMem).resolve_left (Ne.symm hSame)
        rw [List.idxOf_cons_ne _ hSame, List.map_cons, List.map_cons, List.modify_succ_cons, if_neg hSame,
          ih hNodup hMem]

end Counting

namespace Graph

/-- A graph that is being made: the place of every name that has a node, the nodes, and the pairs of names
that have an edge. -/
structure Growth where
  places : List (String × Nat)
  nodes : List Node
  pairs : List (String × String)

namespace Growth

def empty : Growth := ⟨[], [], []⟩

/-- A node for a name, unless it has one. -/
def touch (g : Growth) (name : String) : Growth :=
  match g.places.lookup name with
  | some _ => g
  | none => { g with places := (name, g.nodes.length) :: g.places, nodes := g.nodes ++ [⟨name, 0⟩] }

/-- One rule more for the node of a name. -/
def count (g : Growth) (name : String) : Growth :=
  match g.places.lookup name with
  | some place => { g with nodes := g.nodes.modify place fun n => { n with rules := n.rules + 1 } }
  | none => g

/-- An edge between two names, unless there is one. -/
def point (g : Growth) (source target : String) : Growth :=
  { g with
    pairs := if g.pairs.contains (source, target) then g.pairs else g.pairs ++ [(source, target)] }

def add (g : Growth) (e : Pack.Entry) : Growth :=
  (Group.leavesOf e.groups).foldl (fun g leaf => (g.touch leaf).point e.category leaf)
    ((g.touch e.category).count e.category)

def toGraph (g : Growth) : Graph := ⟨g.nodes, classify g.pairs⟩

/-- What has grown when `names` and `pairs` were seen and `categories` were counted. -/
structure HasSeen (g : Growth) (names categories : List String) (pairs : List (String × String)) :
    Prop where
  lookup_eq : ∀ name,
    g.places.lookup name = if name ∈ names then some (names.eraseDups.idxOf name) else none
  nodes_eq : g.nodes = names.eraseDups.map fun name => ⟨name, categories.count name⟩
  pairs_eq : g.pairs = pairs.eraseDups
  subset : categories ⊆ names

namespace HasSeen

variable {g : Growth} {names categories : List String} {pairs : List (String × String)}

theorem empty : Growth.empty.HasSeen [] [] [] := ⟨fun _ => rfl, rfl, rfl, List.Subset.refl _⟩

/-- A new name has the place behind all others, and these keep theirs. -/
theorem lookup_cons_new (h : g.HasSeen names categories pairs) {name : String} (hNew : name ∉ names)
    (other : String) :
    ((name, g.nodes.length) :: g.places).lookup other =
      if other ∈ names ++ [name] then some ((names.eraseDups ++ [name]).idxOf other) else none := by
  by_cases hSame : other = name
  · subst hSame
    have hDistinct : other ∉ names.eraseDups := fun hMem => hNew (List.mem_eraseDups.1 hMem)
    rw [List.lookup_cons_self, if_pos (by simp), List.idxOf_append_of_notMem hDistinct,
      List.idxOf_cons_self, h.nodes_eq, List.length_map, Nat.add_zero]
  · have hMem : other ∈ names ++ [name] ↔ other ∈ names := by simp [hSame]
    rw [List.lookup_cons, beq_false_of_ne hSame]
    simp only [h.lookup_eq, hMem]
    split
    next hOld => rw [List.idxOf_append_of_mem (List.mem_eraseDups.2 hOld)]
    next => rfl

theorem touch (h : g.HasSeen names categories pairs) (name : String) :
    (g.touch name).HasSeen (names ++ [name]) categories pairs := by
  have hSubset : categories ⊆ names ++ [name] := List.subset_append_of_subset_left _ h.subset
  have hLookup := h.lookup_eq name
  by_cases hSeen : name ∈ names
  · have hMem : ∀ other, other ∈ names ++ [name] ↔ other ∈ names := by
      intro other
      rw [List.mem_append, List.mem_singleton]
      exact ⟨fun hOther => hOther.elim id (· ▸ hSeen), Or.inl⟩
    rw [if_pos hSeen] at hLookup
    rw [Growth.touch, hLookup]
    refine ⟨fun other => ?_, ?_, h.pairs_eq, hSubset⟩
    · simp only [eraseDups_concat, if_pos hSeen, h.lookup_eq, hMem]
    · rw [eraseDups_concat, if_pos hSeen]
      exact h.nodes_eq
  · have hUncounted : categories.count name = 0 :=
      List.count_eq_zero.2 fun hMem => hSeen (h.subset hMem)
    rw [if_neg hSeen] at hLookup
    rw [Growth.touch, hLookup]
    refine ⟨fun other => ?_, ?_, h.pairs_eq, hSubset⟩
    · rw [eraseDups_concat, if_neg hSeen]
      exact h.lookup_cons_new hSeen other
    · rw [eraseDups_concat, if_neg hSeen, List.map_append, h.nodes_eq, List.map_singleton, hUncounted]

theorem count (h : g.HasSeen names categories pairs) {name : String} (hSeen : name ∈ names) :
    (g.count name).HasSeen names (categories ++ [name]) pairs := by
  have hLookup := h.lookup_eq name
  rw [if_pos hSeen] at hLookup
  rw [Growth.count, hLookup]
  refine ⟨h.lookup_eq, ?_, h.pairs_eq, List.append_subset.2 ⟨h.subset, by simpa using hSeen⟩⟩
  have hNodup : names.eraseDups.Nodup := (isFirstSeen_eraseDups names).nodup
  have hMem : name ∈ names.eraseDups := List.mem_eraseDups.2 hSeen
  dsimp only
  rw [h.nodes_eq, modify_idxOf_map _ _ hNodup hMem]
  refine List.map_congr_left fun other _ => ?_
  rw [List.count_append, List.count_singleton]
  by_cases hSame : other = name
  · simp [hSame]
  · simp [hSame, Ne.symm hSame]

theorem point (h : g.HasSeen names categories pairs) (source target : String) :
    (g.point source target).HasSeen names categories (pairs ++ [(source, target)]) := by
  refine ⟨h.lookup_eq, h.nodes_eq, ?_, h.subset⟩
  simp only [Growth.point, eraseDups_concat, h.pairs_eq, List.contains_iff_mem, List.mem_eraseDups]

/-- Every name in the groups gets its node and its edge. -/
theorem foldl_point (h : g.HasSeen names categories pairs) (source : String) (leaves : List String) :
    (leaves.foldl (fun g leaf => (g.touch leaf).point source leaf) g).HasSeen (names ++ leaves) categories
      (pairs ++ leaves.map (source, ·)) := by
  induction leaves generalizing g names pairs with
  | nil => simpa using h
  | cons leaf leaves ih => simpa using ih ((h.touch leaf).point source leaf)

/-- One entry. -/
theorem add (h : g.HasSeen names categories pairs) (e : Pack.Entry) :
    (g.add e).HasSeen (names ++ entryNames e) (categories ++ [e.category]) (pairs ++ entryPairs e) := by
  have hSeen : e.category ∈ names ++ [e.category] := List.mem_append_right _ (List.mem_singleton_self _)
  have hCounted := (h.touch e.category).count hSeen
  simpa [Growth.add, entryNames, entryPairs] using hCounted.foldl_point e.category (Group.leavesOf e.groups)

/-- All entries, one after the other. -/
theorem foldl_add (h : g.HasSeen names categories pairs) (entries : List Pack.Entry) :
    (entries.foldl Growth.add g).HasSeen (names ++ entries.flatMap entryNames)
      (categories ++ entries.map (·.category)) (pairs ++ entries.flatMap entryPairs) := by
  induction entries generalizing g names categories pairs with
  | nil => simpa using h
  | cons e entries ih => simpa using ih (h.add e)

end HasSeen

end Growth

/-- What grows out of all entries is their graph. -/
theorem toGraph_foldl_add (entries : List Pack.Entry) :
    (entries.foldl Growth.add .empty).toGraph = ofEntries entries := by
  have h := Growth.HasSeen.empty.foldl_add entries
  simp only [List.nil_append] at h
  rw [Growth.toGraph, h.nodes_eq, h.pairs_eq, ofEntries]
  simp only [List.count_eq_countP, List.countP_map, Function.comp_def]

def names (g : Graph) : List String := g.nodes.map (·.name)

def ends (e : Edge) : String × String := (e.source, e.target)

theorem names_ofEntries (entries : List Pack.Entry) :
    (ofEntries entries).names = (entries.flatMap entryNames).eraseDups := by
  simp [names, ofEntries, Function.comp_def]

theorem ends_classify (pairs : List (String × String)) : (classify pairs).map ends = pairs := by
  simp [classify, ends, Function.comp_def]

theorem mem_names_iff {entries : List Pack.Entry} {name : String} :
    name ∈ (ofEntries entries).names ↔
      ∃ e ∈ entries, name = e.category ∨ ∃ g ∈ e.groups, g.HasLeaf name := by
  simp only [names_ofEntries, List.mem_eraseDups, List.mem_flatMap, entryNames, List.mem_cons,
    Group.mem_leavesOf_iff]

theorem mem_entryPairs_iff {e : Pack.Entry} {source target : String} :
    (source, target) ∈ entryPairs e ↔ source = e.category ∧ ∃ g ∈ e.groups, g.HasLeaf target := by
  simp only [entryPairs, List.mem_map, Group.mem_leavesOf_iff, Prod.mk.injEq]
  constructor
  · rintro ⟨leaf, hLeaf, rfl, rfl⟩
    exact ⟨rfl, hLeaf⟩
  · rintro ⟨rfl, hLeaf⟩
    exact ⟨target, hLeaf, rfl, rfl⟩

/-- A pair of names has an edge exactly when an entry of the first mentions the second. -/
theorem mem_ends_iff {entries : List Pack.Entry} {source target : String} :
    (source, target) ∈ (ofEntries entries).edges.map ends ↔
      ∃ e ∈ entries, source = e.category ∧ ∃ g ∈ e.groups, g.HasLeaf target := by
  rw [ofEntries, ends_classify, ← pairsOf, mem_pairsOf_iff]
  simp only [mem_entryPairs_iff]

theorem ends_mem_names {entries : List Pack.Entry} {e : Edge} (h : e ∈ (ofEntries entries).edges) :
    e.source ∈ (ofEntries entries).names ∧ e.target ∈ (ofEntries entries).names := by
  obtain ⟨entry, hEntry, hSource, hTarget⟩ := mem_ends_iff.1 (List.mem_map_of_mem (f := ends) h)
  exact ⟨mem_names_iff.2 ⟨entry, hEntry, Or.inl hSource⟩,
    mem_names_iff.2 ⟨entry, hEntry, Or.inr hTarget⟩⟩

theorem rules_eq_countP {entries : List Pack.Entry} {n : Node} (h : n ∈ (ofEntries entries).nodes) :
    n.rules = entries.countP (·.category == n.name) := by
  obtain ⟨name, -, rfl⟩ := List.mem_map.1 h
  rfl

/-- Every entry is counted at one node. -/
theorem rules_sum (entries : List Pack.Entry) :
    ((ofEntries entries).nodes.map (·.rules)).sum = entries.length := by
  have hRules : (ofEntries entries).nodes.map (·.rules) =
      (entries.flatMap entryNames).eraseDups.map fun name => (entries.map (·.category)).count name := by
    simp [ofEntries, List.count_eq_countP, List.countP_map, Function.comp_def]
  have hCategories : entries.map (·.category) ⊆ (entries.flatMap entryNames).eraseDups := by
    intro name hName
    obtain ⟨e, hEntry, rfl⟩ := List.mem_map.1 hName
    exact List.mem_eraseDups.2 (List.mem_flatMap.2 ⟨e, hEntry, List.mem_cons_self⟩)
  rw [hRules, sum_count_eq_length (isFirstSeen_eraseDups _).nodup hCategories, List.length_map]

theorem nodup_edges (entries : List Pack.Entry) : (ofEntries entries).edges.Nodup := by
  refine List.Nodup.of_map ends ?_
  rw [ofEntries, ends_classify]
  exact (isFirstSeen_eraseDups _).nodup

theorem nodes_perm {entries others : List Pack.Entry} (h : others.Perm entries) :
    (ofEntries others).nodes.Perm (ofEntries entries).nodes := by
  have hCount : ∀ name : String,
      others.countP (·.category == name) = entries.countP (·.category == name) := fun _ => h.countP_eq _
  simp only [ofEntries, hCount]
  exact (eraseDups_perm (h.flatMap_right entryNames)).map _

/-- A mark depends on the pairs, and these are the same in any order. -/
theorem edges_perm {entries others : List Pack.Entry} (h : others.Perm entries) :
    (ofEntries others).edges.Perm (ofEntries entries).edges := by
  refine (List.perm_ext_iff_of_nodup (nodup_edges others) (nodup_edges entries)).2 fun e =>
    mem_classify_congr fun pair => ?_
  exact (eraseDups_perm (h.flatMap_right entryPairs)).mem_iff

/-- The graph of some entries is what grows entry by entry. Its nodes are the categories and the names in the
groups, at any depth, each once and in the order in which they were first seen; each counts the entries of
its category, so that every entry is counted once. Its edges are the pairs of a category and a name in its
groups, each once and in the order in which they were first seen, and between its nodes. In any other order
the entries have the same nodes with the same counts and the same edges with the same marks. -/
theorem ofEntries_firstSeen (entries : List Pack.Entry) :
    (entries.foldl Growth.add .empty).toGraph = ofEntries entries ∧
    IsFirstSeen (entries.flatMap entryNames) (ofEntries entries).names ∧
    (∀ name, name ∈ (ofEntries entries).names ↔
      ∃ e ∈ entries, name = e.category ∨ ∃ g ∈ e.groups, g.HasLeaf name) ∧
    (∀ n ∈ (ofEntries entries).nodes, n.rules = entries.countP (·.category == n.name)) ∧
    ((ofEntries entries).nodes.map (·.rules)).sum = entries.length ∧
    IsFirstSeen (entries.flatMap entryPairs) ((ofEntries entries).edges.map ends) ∧
    (∀ source target, (source, target) ∈ (ofEntries entries).edges.map ends ↔
      ∃ e ∈ entries, source = e.category ∧ ∃ g ∈ e.groups, g.HasLeaf target) ∧
    (∀ e ∈ (ofEntries entries).edges,
      e.source ∈ (ofEntries entries).names ∧ e.target ∈ (ofEntries entries).names) ∧
    ∀ others : List Pack.Entry, others.Perm entries →
      (ofEntries others).nodes.Perm (ofEntries entries).nodes ∧
      (ofEntries others).edges.Perm (ofEntries entries).edges := by
  refine ⟨toGraph_foldl_add entries, ?_, fun name => mem_names_iff, fun n => rules_eq_countP,
    rules_sum entries, ?_, fun source target => mem_ends_iff, fun e => ends_mem_names,
    fun others h => ⟨nodes_perm h, edges_perm h⟩⟩
  · rw [names_ofEntries]
    exact isFirstSeen_eraseDups _
  · rw [ofEntries, ends_classify]
    exact isFirstSeen_eraseDups _

/-- An entry for monsters, whose captures are looked up in the given groups. -/
def monsterOf (groups : List Group) (id : Int) : Pack.Entry :=
  { category := "monster", replacements := .ofList [("ko", "괴물 $1")], raw := none
    regex := some (.bare "^monster with (.+)$"), groups, ignorePart := false, priority := 0, id }

def monsterEntries : List Pack.Entry :=
  [monsterOf [.name "weapon"] 1, monsterOf [.name "weapon", .name "food"] 2]

def weaponEntry : Pack.Entry :=
  { category := "weapon", replacements := .ofList [("ko", "$1의 검")], raw := none
    regex := some (.bare "^sword of (.+)$"), groups := [.list [.null, .list [.name "monster"]]]
    ignorePart := false, priority := 0, id := 3 }

/-- Two entries of one category count at one node, and from a weapon it goes back to the monsters; that is
also seen when the weapon comes first. -/
theorem monsters_firstSeen :
    (ofEntries (monsterEntries ++ [weaponEntry])).nodes =
      [⟨"monster", 2⟩, ⟨"weapon", 1⟩, ⟨"food", 0⟩] ∧
    (⟨"monster", "weapon", true⟩ : Edge) ∈ (ofEntries ([weaponEntry] ++ monsterEntries)).edges := by
  have hEdges : (ofEntries (monsterEntries ++ [weaponEntry])).edges =
      [⟨"monster", "weapon", true⟩, ⟨"monster", "food", false⟩, ⟨"weapon", "monster", true⟩] := by
    cbv
  have hPerm : ([weaponEntry] ++ monsterEntries).Perm (monsterEntries ++ [weaponEntry]) :=
    List.perm_append_comm
  obtain ⟨-, -, -, -, -, -, -, -, hOthers⟩ := ofEntries_firstSeen (monsterEntries ++ [weaponEntry])
  refine ⟨by cbv, (hOthers _ hPerm).2.mem_iff.2 ?_⟩
  rw [hEdges]
  exact List.mem_cons_self

end Graph

end Phrasebook
