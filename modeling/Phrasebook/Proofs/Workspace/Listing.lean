import Phrasebook.Proofs.Store.History
import Phrasebook.Proofs.Store.Pages
import Phrasebook.Proofs.Text.Search
import Phrasebook.Workspace.Listing

/-!
Lists of phrases under filters. Without a term to search for, a list holds phrases of the source only, and a
page that is not estimated counts them all. With a term, the first hits of all sources are one page, and the
count is that of the page; this is what was asked for only when these are the hits of the source.
-/

namespace Phrasebook

/-- The term stands in the source or in the content. -/
def Phrase.Holds (term : String) (p : Phrase) : Prop :=
  term.toList <:+: p.source.toList ∨ term.toList <:+: p.content.toList

instance (term : String) (p : Phrase) : Decidable (p.Holds term) :=
  inferInstanceAs (Decidable (_ ∨ _))

theorem Phrase.holds_iff {term : String} {p : Phrase} :
    (Text.contains p.source term || Text.contains p.content term) = true ↔ p.Holds term := by
  rw [Bool.or_eq_true, Text.contains, Text.contains, Text.occursIn_iff, Text.occursIn_iff]
  rfl

namespace PhraseFilter

/-- The phrase satisfies every filter that is given. -/
def Admits (f : PhraseFilter) (p : Phrase) : Prop := p.IsOf f.source ∧ ∀ term ∈ f.search, p.Holds term

instance (f : PhraseFilter) (p : Phrase) : Decidable (f.Admits p) :=
  inferInstanceAs (Decidable (_ ∧ ∀ term ∈ f.search, p.Holds term))

/-- Every phrase of the page satisfies all filters, and a count that is not estimated is the number of stored
phrases that do. -/
structure Honours (f : PhraseFilter) (s : Store) (page : Page Phrase) : Prop where
  items : ∀ p ∈ page.items, f.Admits p
  count : page.estimated = false → page.count = s.phrases.countP fun p => f.Admits p

/-- The number of hits that a page has room for. -/
def room (f : PhraseFilter) : Nat := max (f.perPage.getD Workspace.phrasesPerPage) 1

end PhraseFilter

namespace Store

theorem slice_sublist {α : Type} (limit offset : Nat) (items : List α) :
    (slice limit offset items).Sublist items := by
  unfold slice
  dsimp only
  split <;> split
  · exact (List.take_sublist _ _).trans (List.drop_sublist _ _)
  · exact List.take_sublist _ _
  · exact List.drop_sublist _ _
  · exact List.Sublist.refl _

/-- Every page of a list shows phrases of the list only. -/
theorem items_pageOfPhrases_sublist (s : Store) (source : Option String) (r : PageRequest) :
    (s.pageOfPhrases source r).items.Sublist (s.phrasesOf source) := by
  rw [pageOfPhrases]
  split
  next => exact (List.take_sublist _ _).trans (slice_sublist _ _ _)
  next => exact slice_sublist _ _ _

theorem count_pageOfPhrases {s : Store} {source : Option String} {r : PageRequest}
    (h : (s.pageOfPhrases source r).estimated = false) :
    (s.pageOfPhrases source r).count = (s.phrasesOf source).length := by
  rw [pageOfPhrases] at h ⊢
  split at h
  next => exact Bool.noConfusion h
  next hExact =>
    rw [if_neg hExact]
    rfl

/-- The phrases that hold a term, ascending by id. -/
def hits (s : Store) (term : String) : List Phrase := s.phrases.filter fun p => p.Holds term

theorem searchPhrases_eq (s : Store) (term : String) (limit : Nat) :
    s.searchPhrases term limit =
      if limit < Text.signedEnd then (s.hits term).take limit else s.hits term := by
  have hHits : (s.phrases.filter fun p => Text.contains p.source term || Text.contains p.content term) =
      s.hits term := by
    refine List.filter_congr fun p _ => ?_
    rw [Bool.eq_iff_iff, Phrase.holds_iff, decide_eq_true_iff]
  rw [searchPhrases, hHits, slice]
  simp

end Store

namespace Workspace

section

variable {f : PhraseFilter} {term : String}

theorem listPhrases_of_search (hSearch : f.search = some term) (s : Store) :
    listPhrases f s =
      .exact (s.searchPhrases term f.room) (s.searchPhrases term f.room).length (.make 1 f.room false) := by
  rw [listPhrases, hSearch]
  rfl

theorem items_of_search (hSearch : f.search = some term) (s : Store) :
    (listPhrases f s).items =
      if f.room < Text.signedEnd then (s.hits term).take f.room else s.hits term := by
  rw [listPhrases_of_search hSearch]
  exact s.searchPhrases_eq term f.room

/-- The count is that of the page, whatever was cut off. -/
theorem count_of_search (hSearch : f.search = some term) (s : Store) :
    (listPhrases f s).count = (listPhrases f s).items.length := by
  rw [listPhrases_of_search hSearch]
  rfl

theorem estimated_of_search (hSearch : f.search = some term) (s : Store) :
    (listPhrases f s).estimated = false := by
  rw [listPhrases_of_search hSearch]
  rfl

/-- Without a term to search for, every filter that is given is the source. -/
theorem honours_of_no_search (hSearch : f.search = none) (s : Store) :
    f.Honours s (listPhrases f s) := by
  have hAdmits : ∀ p, f.Admits p ↔ p.IsOf f.source := fun p => by
    rw [PhraseFilter.Admits, hSearch]
    simp
  rw [listPhrases, hSearch]
  dsimp only
  refine ⟨fun p hp => ?_, fun hExact => ?_⟩
  · have hRead := (s.items_pageOfPhrases_sublist _ _).mem hp
    rw [Store.phrasesOf_eq, List.mem_filter, decide_eq_true_iff] at hRead
    exact (hAdmits p).2 hRead.2
  · rw [Store.count_pageOfPhrases hExact, Store.phrasesOf_eq, ← List.countP_eq_length_filter]
    exact List.countP_congr fun p _ => by simp only [decide_eq_true_iff, hAdmits]

/-- With a term, the filters are honoured when the page shows the hits of the source and no others. The page
is the front of the hits of all sources, so its length tells that nothing of the source is missing. -/
theorem honours_iff_of_search (hSearch : f.search = some term) (s : Store) :
    f.Honours s (listPhrases f s) ↔
      (listPhrases f s).items = (s.hits term).filter fun p => p.IsOf f.source := by
  have hAdmits : ∀ p, f.Admits p ↔ p.IsOf f.source ∧ p.Holds term := fun p => by
    rw [PhraseFilter.Admits, hSearch]
    simp
  have hCount : (s.phrases.countP fun p => f.Admits p) =
      ((s.hits term).filter fun p => p.IsOf f.source).length := by
    rw [Store.hits, List.filter_filter, ← List.countP_eq_length_filter]
    exact List.countP_congr fun p _ => by simp [hAdmits]
  have hFront : (listPhrases f s).items.Sublist (s.hits term) := by
    rw [items_of_search hSearch]
    split
    next => exact List.take_sublist _ _
    next => exact List.Sublist.refl _
  have hOwnCount := count_of_search hSearch s
  constructor
  · intro h
    have hOwn : (listPhrases f s).items.filter (fun p => p.IsOf f.source) = (listPhrases f s).items :=
      List.filter_eq_self.2 fun p hp => decide_eq_true (h.items p hp).1
    have hSub := hFront.filter fun p => p.IsOf f.source
    rw [hOwn] at hSub
    exact hSub.eq_of_length (by rw [← hOwnCount, h.count (estimated_of_search hSearch s), hCount])
  · intro hItems
    refine ⟨fun p hp => ?_, fun _ => by rw [hOwnCount, hItems, hCount]⟩
    have hHit := hFront.mem hp
    rw [Store.hits, List.mem_filter, decide_eq_true_iff] at hHit
    rw [hItems, List.mem_filter, decide_eq_true_iff] at hp
    exact (hAdmits p).2 ⟨hp.2, hHit.2⟩

end

/-- In every store, a list without a term honours its filters. With a term it is a single page: as many hits as
it has room for, of all sources, with their number as the count. It honours its filters exactly when these are
the hits of the source. -/
theorem listing_by_filter (s : Store) (f : PhraseFilter) :
    (f.search = none → f.Honours s (listPhrases f s)) ∧
    ∀ term, f.search = some term →
      (listPhrases f s).items =
        (if f.room < Text.signedEnd then (s.hits term).take f.room else s.hits term) ∧
      (listPhrases f s).count = (listPhrases f s).items.length ∧
      (listPhrases f s).page = 1 ∧ (listPhrases f s).estimated = false ∧
      (f.Honours s (listPhrases f s) ↔
        (listPhrases f s).items = (s.hits term).filter fun p => p.IsOf f.source) := by
  refine ⟨fun hNone => honours_of_no_search hNone s, fun term hSearch => ?_⟩
  refine ⟨items_of_search hSearch s, count_of_search hSearch s, ?_, estimated_of_search hSearch s,
    honours_iff_of_search hSearch s⟩
  rw [listPhrases_of_search hSearch]
  rfl

/-- The same greeting is a phrase of two sources. -/
def greetedTwice : Store :=
  Store.empty.after [.addPhrase "towns" "hello" "ann" 0, .addPhrase "names" "hello" "ann" 0]

theorem phrases_greetedTwice :
    greetedTwice.phrases =
      [⟨1, "towns", "hello", Text.digest "hello"⟩, ⟨2, "names", "hello", Text.digest "hello"⟩] := rfl

/-- The list of the towns honours its filter, and so does a search among them that fits no other source. -/
theorem greetedTwice_listed :
    PhraseFilter.Honours ⟨some "towns", none, none, some 1, false⟩ greetedTwice
      (listPhrases ⟨some "towns", none, none, some 1, false⟩ greetedTwice) ∧
    PhraseFilter.Honours ⟨some "towns", some "town", none, some 1, false⟩ greetedTwice
      (listPhrases ⟨some "towns", some "town", none, some 1, false⟩ greetedTwice) := by
  have hHits : greetedTwice.hits "town" = [⟨1, "towns", "hello", Text.digest "hello"⟩] := by
    rw [Store.hits, phrases_greetedTwice]
    rfl
  refine ⟨(listing_by_filter _ _).1 rfl, ?_⟩
  obtain ⟨hItems, -, -, -, hHonours⟩ := (listing_by_filter greetedTwice
    ⟨some "towns", some "town", none, some 1, false⟩).2 "town" rfl
  rw [hHonours, hItems, hHits]
  rfl

/-- A search among the towns finds a name as well, and a page with room for one of two hits counts one. -/
theorem not_honoured_greetedTwice :
    (∃ p ∈ (listPhrases ⟨some "towns", some "hello", none, none, false⟩ greetedTwice).items,
      p.source ≠ "towns") ∧
    (listPhrases ⟨none, some "hello", none, some 1, false⟩ greetedTwice).count = 1 ∧
    (greetedTwice.hits "hello").length = 2 ∧
    ¬PhraseFilter.Honours ⟨some "towns", some "hello", none, none, false⟩ greetedTwice
      (listPhrases ⟨some "towns", some "hello", none, none, false⟩ greetedTwice) ∧
    ¬PhraseFilter.Honours ⟨none, some "hello", none, some 1, false⟩ greetedTwice
      (listPhrases ⟨none, some "hello", none, some 1, false⟩ greetedTwice) := by
  have hHits : greetedTwice.hits "hello" =
      [⟨1, "towns", "hello", Text.digest "hello"⟩, ⟨2, "names", "hello", Text.digest "hello"⟩] := by
    rw [Store.hits, phrases_greetedTwice]
    rfl
  have hBoth : (listPhrases ⟨some "towns", some "hello", none, none, false⟩ greetedTwice).items =
      greetedTwice.hits "hello" := by
    rw [items_of_search rfl, hHits]
    rfl
  have hName : ⟨2, "names", "hello", Text.digest "hello"⟩ ∈
      (listPhrases ⟨some "towns", some "hello", none, none, false⟩ greetedTwice).items := by
    rw [hBoth, hHits]
    exact List.mem_cons_of_mem _ (List.mem_singleton_self _)
  have hOne : (listPhrases ⟨none, some "hello", none, some 1, false⟩ greetedTwice).items =
      [⟨1, "towns", "hello", Text.digest "hello"⟩] := by
    rw [items_of_search rfl, hHits]
    rfl
  refine ⟨⟨_, hName, by decide⟩, by rw [count_of_search rfl, hOne]; rfl, by rw [hHits]; rfl,
    fun h => ?_, fun h => ?_⟩
  · have hTown := (h.items _ hName).1 "towns" rfl
    exact absurd hTown (by decide)
  · rw [honours_iff_of_search rfl, hOne, hHits] at h
    exact absurd (congrArg List.length h) (by decide)

end Workspace

end Phrasebook
