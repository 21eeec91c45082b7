import Phrasebook.Proofs.Book.Renaming
import Phrasebook.Proofs.Graph.Renaming
import Phrasebook.Proofs.Store.Substitution
import Phrasebook.Proofs.Workspace.Published

/-!
Renaming to a fresh name. When no matcher bears the new name, the renamed pack answers every lookup as before,
its graph differs in the name only, and renaming back brings all matchers back.
-/

namespace Phrasebook

open Phrasebook.Group (swap)

namespace Pack

theorem Entry.uses_ofMatcher {m : Matcher} {name : String} (h : m.bears name = false) :
    (Entry.ofMatcher m).Uses {other | other ≠ name} := by
  obtain ⟨hCategory, hGroups⟩ := Bool.or_eq_false_iff.1 h
  intro other hOther hSame
  subst hSame
  rcases List.mem_cons.1 hOther with hIs | hLeaf
  · exact beq_eq_false_iff_ne.1 hCategory hIs.symm
  · exact Bool.eq_false_iff.1 hGroups (Group.mention_iff.2 hLeaf)

/-- The matchers of a pack, changed one by one. -/
theorem make_substitute (old new : String) (ms : List Matcher) (message : String) (now : Int) :
    (make (ms.map (Matcher.substitute old new)) message now).matchers =
      (ms.map Entry.ofMatcher).map (Entry.rename (swap old new)) := by
  rw [make, List.map_map, List.map_map]
  rfl

end Pack

/-- A name that was put in the stead of another can be taken back, unless the matcher bore it before. -/
theorem Matcher.substitute_substitute {old new : String} {m : Matcher} (h : m.bears new = false) :
    (m.substitute old new).substitute new old = m := by
  have hUses := Pack.Entry.uses_ofMatcher h
  have hCategory : swap new old (swap old new m.category) = m.category := Group.swap_swap hUses.category
  have hGroups : Group.mapNamesOf (swap new old) (Group.mapNamesOf (swap old new) m.groups) =
      m.groups := by
    rw [Group.mapNamesOf_mapNamesOf]
    exact Group.mapNamesOf_eq_self _ _ fun name hName => Group.swap_swap (hUses.leaf hName)
  rw [substitute, substitute, hCategory, hGroups]

namespace Store

namespace Holds

variable {s : Store} {ms : List Matcher}

theorem exists_rename_eq_ok (hs : s.Holds ms) {old new : String} (hNames : IsRenaming old new)
    (actor : String) (now : Int) : ∃ report t, rename old new actor now s = .ok report t ∧
      t.Holds (ms.map (Matcher.substitute old new)) := by
  rw [hs.rename_eq, checkNames_eq_ok_iff.2 hNames]
  exact ⟨_, _, rfl, hs.renamed_holds_substitute old new actor now _⟩

theorem exists_pack_eq (hs : s.Holds ms) (now : Int) :
    ∃ message, s.pack now = .ok (.make ms message now) := by
  obtain ⟨counts, hCounts⟩ := hs.exists_contributors
  exact ⟨_, hs.pack_eq hCounts now⟩

end Holds

/-- What a pack and a later one have in common when the later one has `new` in the stead of `old`, and the
first one had no `new`: every answer, whatever reads the patterns, and the graph but for the name. -/
structure Relabels (old new : String) (p q : Pack) : Prop where
  answer : ∀ engine target language category, category ≠ new →
    (Book.ofEntries engine q.matchers).render target language (swap old new category) =
      (Book.ofEntries engine p.matchers).render target language category
  graph : Graph.ofEntries q.matchers = (Graph.ofEntries p.matchers).rename (swap old new)

theorem relabels_of_fresh {old new : String} {ms : List Matcher}
    (hFresh : ∀ m ∈ ms, m.bears new = false) (message note : String) (now later : Int) :
    Relabels old new (.make ms message now)
      (.make (ms.map (Matcher.substitute old new)) note later) := by
  have hInj := Group.swap_injOn old new
  have hUses : ∀ e ∈ ms.map Pack.Entry.ofMatcher, e.Uses {name | name ≠ new} := by
    intro e he
    obtain ⟨m, hm, rfl⟩ := List.mem_map.1 he
    exact Pack.Entry.uses_ofMatcher (hFresh m hm)
  constructor
  · intro engine target language category hOther
    rw [Pack.make_substitute, Book.ofEntries_rename]
    exact Book.render_rename hInj (Book.ofEntries_uses hUses engine) hOther target language
  · rw [Pack.make_substitute]
    exact Graph.ofEntries_rename hInj hUses

/-- In every store that a history leads to, renaming to a name that no matcher bears changes no answer of
the pack and only relabels its graph, and renaming back brings every matcher back as it was. -/
theorem rename_fresh_relabels {history : List Change} (hAll : ∀ c ∈ history, c.IsAdmissible)
    {old new : String} (hNames : IsRenaming old new) (hLength : old.length ≤ 50) (actor : String)
    (now : Int) :
    ∃ ms, (empty.after history).allMatchers = .ok ms ∧ ((∀ m ∈ ms, m.bears new = false) →
      ∃ report t, rename old new actor now (empty.after history) = .ok report t ∧
        (∀ time later, ∃ p q, (empty.after history).pack time = .ok p ∧ t.pack later = .ok q ∧
          Relabels old new p q) ∧
        ∀ actor now, ∃ report u, rename new old actor now t = .ok report u ∧
          u.allMatchers = .ok ms) := by
  obtain ⟨ms, hFollows⟩ := empty_holds.after_follows hAll
  have hs := hFollows.holds
  refine ⟨ms, hs.allMatchers_eq, fun hFresh => ?_⟩
  obtain ⟨report, t, hRename, hNext⟩ := hs.exists_rename_eq_ok hNames actor now
  refine ⟨report, t, hRename, fun time later => ?_, fun actor now => ?_⟩
  · obtain ⟨message, hPack⟩ := hs.exists_pack_eq time
    obtain ⟨note, hLater⟩ := hNext.exists_pack_eq later
    exact ⟨_, _, hPack, hLater, relabels_of_fresh hFresh message note time later⟩
  · have hBack : IsRenaming new old := ⟨hNames.new_ne, hNames.old_ne, hNames.differ.symm, hLength⟩
    obtain ⟨report, u, hAgain, hLast⟩ := hNext.exists_rename_eq_ok hBack actor now
    refine ⟨report, u, hAgain, ?_⟩
    have hSame : (ms.map (Matcher.substitute old new)).map (Matcher.substitute new old) = ms := by
      rw [List.map_map]
      exact (List.map_congr_left fun m hm => Matcher.substitute_substitute (hFresh m hm)).trans
        (List.map_id ms)
    rw [hLast.allMatchers_eq, hSame]

/-- Towns for the cities of the greeting, and back: the graph has one edge, which leads to the towns. -/
theorem greeting_moves :
    ∃ report t, rename "cities" "towns" "bob" 1 (empty.after [.add .greeting "ann" 0]) = .ok report t ∧
      (∃ q, t.pack 2 = .ok q ∧ (Graph.ofEntries q.matchers).edges = [⟨"greetings", "towns", false⟩]) ∧
      ∃ report u, rename "towns" "cities" "ann" 3 t = .ok report u ∧
        u.allMatchers = .ok [⟨.greeting, 1, 0⟩] := by
  have hAll : ∀ c ∈ [Change.add .greeting "ann" 0], c.IsAdmissible := by
    rw [List.forall_mem_singleton]
    exact ⟨⟨_, Draft.validate_ofContent Matcher.Content.isLegal_greeting⟩, by decide⟩
  have hNames : IsRenaming "cities" "towns" := ⟨by decide, by decide, by decide, by decide⟩
  obtain ⟨ms, hBefore, hThen⟩ := rename_fresh_relabels hAll hNames (by decide) "bob" 1
  have hOne : (empty.after [.add .greeting "ann" 0]).allMatchers = .ok [⟨.greeting, 1, 0⟩] := by cbv
  obtain rfl := Except.ok.inj (hBefore.symm.trans hOne)
  obtain ⟨report, t, hRename, hPacks, hBack⟩ := hThen (by decide)
  obtain ⟨p, q, hPack, hLater, hRelabels⟩ := hPacks 0 2
  refine ⟨report, t, hRename, ⟨q, hLater, ?_⟩, hBack "ann" 3⟩
  have hMatchers : ((empty.after [.add .greeting "ann" 0]).pack 0).map
      (fun p => (Graph.ofEntries p.matchers).edges) = .ok [⟨"greetings", "cities", false⟩] := by cbv
  rw [hPack] at hMatchers
  have hEdges : (Graph.ofEntries p.matchers).edges = [⟨"greetings", "cities", false⟩] :=
    Except.ok.inj hMatchers
  rw [hRelabels.graph, Graph.rename, hEdges]
  dsimp only
  decide

end Store

end Phrasebook
