import Phrasebook.Proofs.Graph.Walks
import Phrasebook.Proofs.Pack.Renaming

/-!
Graphs under other names. The graph of changed entries is the changed graph, as long as the names that are in
use are kept apart: names and pairs then appear for the first time where they did before, and every walk goes
the same way.
-/

namespace Phrasebook

open Relation (ReflTransGen)

/-- Items that are kept apart are first seen in the same places. -/
theorem eraseDups_map_of_injOn {α β : Type} [BEq α] [LawfulBEq α] [BEq β] [LawfulBEq β] {f : α → β}
    {items : List α} (hInj : Set.InjOn f {x | x ∈ items}) :
    (items.map f).eraseDups = items.eraseDups.map f := by
  induction hLength : items.length using Nat.strong_induction_on generalizing items with
  | _ n ih =>
    cases items with
    | nil => rfl
    | cons x more =>
        have hOthers : (more.map f).filter (fun y => !y == f x) =
            (more.filter fun y => !y == x).map f := by
          rw [List.filter_map]
          refine congrArg (List.map f) (List.filter_congr fun y hy => ?_)
          have hSame : f y = f x ↔ y = x :=
            hInj.eq_iff (List.mem_cons_of_mem x hy) (List.mem_cons_self (l := more))
          rw [Function.comp_apply, Bool.eq_iff_iff]
          simp [hSame]
        have hFewer : (more.filter fun y => !y == x).length < n :=
          hLength ▸ Nat.lt_succ_of_le (List.length_filter_le _ more)
        have hSubset : {y | y ∈ more.filter fun y => !y == x} ⊆ {y | y ∈ x :: more} :=
          fun y hy => List.mem_cons_of_mem x (List.mem_of_mem_filter hy)
        rw [List.map_cons, List.eraseDups_cons, hOthers, ih _ hFewer (hInj.mono hSubset) rfl,
          List.eraseDups_cons, List.map_cons]

namespace Graph

/-- The graph with every name changed by `f`. -/
def rename (f : String → String) (g : Graph) : Graph where
  nodes := g.nodes.map fun n => { n with name := f n.name }
  edges := g.edges.map fun e => { e with source := f e.source, target := f e.target }

variable {f : String → String} {names : Set String}

theorem entryNames_rename (f : String → String) (e : Pack.Entry) :
    entryNames (e.rename f) = (entryNames e).map f := by
  rw [entryNames, entryNames, List.map_cons, Pack.Entry.rename, Group.leavesOf_mapNamesOf]

theorem entryPairs_rename (f : String → String) (e : Pack.Entry) :
    entryPairs (e.rename f) = (entryPairs e).map (Prod.map f f) := by
  rw [entryPairs, entryPairs, List.map_map, Pack.Entry.rename, Group.leavesOf_mapNamesOf, List.map_map]
  rfl

/-- What is collected from renamed entries is renamed where it is for each of them. -/
theorem flatMap_rename {α : Type} {f : String → String} {collect : Pack.Entry → List α} {change : α → α}
    (h : ∀ e, collect (e.rename f) = (collect e).map change) (entries : List Pack.Entry) :
    (entries.map (Pack.Entry.rename f)).flatMap collect = (entries.flatMap collect).map change := by
  rw [List.flatMap_map, List.map_flatMap]
  exact List.flatMap_congr fun e _ => h e

/-- Both names of every pair are among some names. -/
def PairsIn (names : Set String) (pairs : List (String × String)) : Prop :=
  ∀ pair ∈ pairs, pair.1 ∈ names ∧ pair.2 ∈ names

section

variable {pairs : List (String × String)} (hInj : Set.InjOn f names) (hPairs : PairsIn names pairs)

include hInj hPairs

/-- Walks along changed pairs are changed walks. -/
theorem walk_rename_iff {u v : String} (hu : u ∈ names) (hv : v ∈ names) :
    ReflTransGen (Leads (pairs.map (Prod.map f f))) (f u) (f v) ↔ ReflTransGen (Leads pairs) u v := by
  constructor
  · intro hWalk
    have hBack : ∀ w, ReflTransGen (Leads (pairs.map (Prod.map f f))) (f u) w →
        ∃ x ∈ names, f x = w ∧ ReflTransGen (Leads pairs) u x := by
      intro w hWalk
      induction hWalk with
      | refl => exact ⟨u, hu, rfl, .refl⟩
      | tail _ hStep ih =>
          obtain ⟨x, hx, rfl, hBefore⟩ := ih
          obtain ⟨⟨y, z⟩, hPair, hSame⟩ := List.mem_map.1 hStep
          obtain ⟨hFirst, rfl⟩ := Prod.mk.inj hSame
          obtain ⟨hy, hz⟩ := hPairs _ hPair
          obtain rfl : y = x := hInj hy hx hFirst
          exact ⟨z, hz, rfl, hBefore.tail hPair⟩
    obtain ⟨x, hx, hSame, hFound⟩ := hBack (f v) hWalk
    rwa [← hInj hx hv hSame]
  · exact ReflTransGen.lift f (fun x y hPair => List.mem_map_of_mem (f := Prod.map f f) hPair) u v

theorem classify_rename : classify (pairs.map (Prod.map f f)) =
    (classify pairs).map fun e => { e with source := f e.source, target := f e.target } := by
  rw [classify, classify, List.map_map, List.map_map]
  refine List.map_congr_left fun pair hPair => ?_
  obtain ⟨u, v⟩ := pair
  obtain ⟨hu, hv⟩ := hPairs _ hPair
  have hMark : (f u == f v || reaches (pairs.map (Prod.map f f)) (f v) (f u)) =
      (u == v || reaches pairs v u) := by
    rw [Bool.eq_iff_iff, cyclic_iff, cyclic_iff, walk_rename_iff hInj hPairs hv hu]
  exact congrArg (Edge.mk (f u) (f v)) hMark

end

variable {entries : List Pack.Entry} (hInj : Set.InjOn f names) (hEntries : ∀ e ∈ entries, e.Uses names)

include hInj hEntries

theorem nodes_rename :
    (ofEntries (entries.map (Pack.Entry.rename f))).nodes = ((ofEntries entries).rename f).nodes := by
  have hNames : ∀ name ∈ entries.flatMap entryNames, name ∈ names := by
    intro name hName
    obtain ⟨e, he, hUsed⟩ := List.mem_flatMap.1 hName
    exact hEntries e he name hUsed
  have hRules : ∀ name ∈ names, (entries.map (Pack.Entry.rename f)).countP (·.category == f name) =
      entries.countP (·.category == name) := by
    intro name hName
    rw [List.countP_map]
    refine List.countP_congr fun e he => ?_
    rw [Function.comp_apply, ← Bool.eq_iff_iff]
    exact beq_of_injOn hInj (hEntries e he).category hName
  rw [ofEntries, flatMap_rename (entryNames_rename f), eraseDups_map_of_injOn (hInj.mono hNames),
    List.map_map, rename, ofEntries, List.map_map]
  refine List.map_congr_left fun name hName => ?_
  exact congrArg (Node.mk (f name)) (hRules name (hNames name (List.mem_eraseDups.1 hName)))

theorem edges_rename :
    (ofEntries (entries.map (Pack.Entry.rename f))).edges = ((ofEntries entries).rename f).edges := by
  have hPairs : PairsIn names (entries.flatMap entryPairs) := by
    intro pair hPair
    obtain ⟨e, he, hOf⟩ := List.mem_flatMap.1 hPair
    obtain ⟨leaf, hLeaf, rfl⟩ := List.mem_map.1 hOf
    exact ⟨(hEntries e he).category, (hEntries e he).leaf hLeaf⟩
  have hApart : Set.InjOn (Prod.map f f) {pair | pair ∈ entries.flatMap entryPairs} := by
    intro p hp q hq hSame
    obtain ⟨hFirst, hSecond⟩ := Prod.mk.inj hSame
    exact Prod.ext (hInj (hPairs p hp).1 (hPairs q hq).1 hFirst)
      (hInj (hPairs p hp).2 (hPairs q hq).2 hSecond)
  rw [ofEntries, flatMap_rename (entryPairs_rename f), eraseDups_map_of_injOn hApart]
  exact classify_rename hInj fun pair hPair => hPairs pair (List.mem_eraseDups.1 hPair)

/-- Nodes, edges and marks are the same but for the names, and in the same order. -/
theorem ofEntries_rename :
    ofEntries (entries.map (Pack.Entry.rename f)) = (ofEntries entries).rename f :=
  congrArg₂ Graph.mk (nodes_rename hInj hEntries) (edges_rename hInj hEntries)

end Graph

end Phrasebook
