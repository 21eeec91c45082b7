import Mathlib.Data.List.Basic
import Phrasebook.Store.Phrases

/-!
Pages of phrases. Whether rows are counted or only one row more than a page holds is read, a page shows the
same rows, and a further page is offered exactly when there is a row for it. So turning the pages from the
first one shows every row once and in order.
-/

namespace Phrasebook

/-- A page is offered behind page `page` of `count` rows exactly when there is a row for it. The rule for an
empty list, that it has one page, makes no difference. -/
theorem Page.hasNext_iff {α : Type} {p : Page α} (hPage : 1 ≤ p.page) (hPer : 1 ≤ p.perPage) :
    p.hasNext = true ↔ p.page * p.perPage < p.count := by
  rw [hasNext, decide_eq_true_iff, numPages]
  split
  next hNone =>
    rw [hNone]
    exact iff_of_false (Nat.not_lt.2 hPage) (Nat.not_lt_zero _)
  next hSome =>
    rw [Nat.lt_iff_add_one_le, Nat.le_div_iff_mul_le hPer, Nat.add_mul]
    omega

/-- What a page shows of some rows: those between the pages before it and the pages behind it, whether a row
is left for a further page, and how many rows there are. A count that is estimated is right on the last page
that shows a row, and not too large on the pages before that one. -/
structure Page.IsPageOf {α : Type} (rows : List α) (r : PageRequest) (p : Page α) : Prop where
  page : p.page = r.page
  perPage : p.perPage = r.perPage
  estimated : p.estimated = r.fast
  items : p.items = (rows.take (r.page * r.perPage)).drop ((r.page - 1) * r.perPage)
  hasNext : p.hasNext = true ↔ rows.drop (r.page * r.perPage) ≠ []
  count_of_exact : r.fast = false → p.count = rows.length
  count_of_last : p.items ≠ [] → rows.drop (r.page * r.perPage) = [] → p.count = rows.length
  count_of_earlier : rows.drop (r.page * r.perPage) ≠ [] → p.count ≤ rows.length

section

variable {α : Type} {r : PageRequest}

/-- The numbers with which rows are read stay below the bound when the end of the page does. -/
structure PageRequest.IsBounded (r : PageRequest) : Prop where
  page : 1 ≤ r.page
  perPage : 1 ≤ r.perPage
  last : r.page * r.perPage + 1 < Text.signedEnd

namespace PageRequest.IsBounded

/-- The rows before the page and those on it are the rows up to its end. -/
theorem offset_add_perPage (h : r.IsBounded) : r.offset + r.perPage = r.page * r.perPage := by
  rw [offset, Nat.sub_mul, Nat.one_mul, Nat.sub_add_cancel (Nat.le_mul_of_pos_left _ h.page)]

theorem slice_eq (h : r.IsBounded) (rows : List α) :
    Store.slice r.fetchLimit r.offset rows = (rows.drop r.offset).take r.fetchLimit := by
  have hSum := h.offset_add_perPage
  have hLast := h.last
  have hFetch : r.fetchLimit ≤ r.perPage + 1 := by
    rw [fetchLimit]
    split <;> omega
  rw [Store.slice, if_pos (by omega), if_pos (by omega)]

theorem items_eq (h : r.IsBounded) (rows : List α) :
    (rows.drop r.offset).take r.perPage =
      (rows.take (r.page * r.perPage)).drop ((r.page - 1) * r.perPage) := by
  rw [← h.offset_add_perPage, List.take_drop]
  rfl

/-- What is read is cut off where the rows end. -/
theorem drop_eq_nil_iff (h : r.IsBounded) (rows : List α) :
    rows.drop (r.page * r.perPage) = [] ↔ rows.length ≤ r.offset + r.perPage := by
  rw [List.drop_eq_nil_iff, h.offset_add_perPage]

end PageRequest.IsBounded

theorem Page.exact_isPageOf (h : r.IsBounded) (hExact : r.fast = false) (rows : List α) :
    (Page.exact (Store.slice r.fetchLimit r.offset rows) rows.length r).IsPageOf rows r where
  page := rfl
  perPage := rfl
  estimated := hExact.symm
  items := by
    rw [exact, h.slice_eq, PageRequest.fetchLimit, hExact]
    exact h.items_eq rows
  hasNext := by
    rw [hasNext_iff h.page h.perPage, ne_eq, List.drop_eq_nil_iff, Nat.not_le]
    rfl
  count_of_exact _ := rfl
  count_of_last _ _ := rfl
  count_of_earlier _ := Nat.le_refl _

/-- The row that is read beyond the page is the only sign of a further page. -/
theorem Page.estimate_isPageOf (h : r.IsBounded) (hFast : r.fast = true) (rows : List α) :
    (Page.estimate (Store.slice r.fetchLimit r.offset rows) r).IsPageOf rows r := by
  have hRead : Store.slice r.fetchLimit r.offset rows = (rows.drop r.offset).take (r.perPage + 1) := by
    rw [h.slice_eq, PageRequest.fetchLimit, hFast]
    rfl
  have hLength : ((rows.drop r.offset).take (r.perPage + 1)).length =
      min (r.perPage + 1) (rows.length - r.offset) := by
    rw [List.length_take, List.length_drop]
  have hItems : ((rows.drop r.offset).take (r.perPage + 1)).take r.perPage =
      (rows.drop r.offset).take r.perPage := by
    rw [List.take_take, Nat.min_eq_left (Nat.le_succ _)]
  have hSum := h.offset_add_perPage
  have hPer := h.perPage
  refine ⟨rfl, rfl, hFast.symm, ?_, ?_, ?_, ?_, ?_⟩
  · rw [estimate, hRead, hItems]
    exact h.items_eq rows
  · rw [hasNext_iff h.page h.perPage, ne_eq, h.drop_eq_nil_iff, estimate, hRead]
    simp only [hLength]
    omega
  · intro hExact
    rw [hFast] at hExact
    exact absurd hExact (by decide)
  · intro hShown hEnd
    rw [estimate, hRead] at hShown ⊢
    rw [hItems, ← List.length_pos_iff, List.length_take, List.length_drop] at hShown
    rw [h.drop_eq_nil_iff] at hEnd
    simp only [hLength]
    omega
  · intro hMore
    rw [ne_eq, h.drop_eq_nil_iff] at hMore
    rw [estimate, hRead]
    simp only [hLength]
    omega

end

/-- The phrase is of the source that is asked for. -/
def Phrase.IsOf (source : Option String) (p : Phrase) : Prop := ∀ name ∈ source, p.source = name

instance (source : Option String) (p : Phrase) : Decidable (p.IsOf source) :=
  inferInstanceAs (Decidable (∀ name ∈ source, p.source = name))

namespace Store

theorem phrasesOf_eq (s : Store) (source : Option String) :
    s.phrasesOf source = s.phrases.filter fun p => p.IsOf source := by
  cases source with
  | none => simp [phrasesOf, Phrase.IsOf]
  | some name => simp [phrasesOf, Phrase.IsOf, beq_eq_decide]

theorem pageOfPhrases_isPageOf (s : Store) (source : Option String) {r : PageRequest}
    (h : r.IsBounded) : (s.pageOfPhrases source r).IsPageOf (s.phrasesOf source) r := by
  rw [pageOfPhrases]
  cases hFast : r.fast with
  | true => exact Page.estimate_isPageOf h hFast _
  | false => exact Page.exact_isPageOf h hFast _

/-- Someone who is on page `page` and turns the page as long as there is a next one has seen `seen` in the
end. -/
inductive Browses (s : Store) (source : Option String) (perPage : Nat) (fast : Bool) :
    Nat → List Phrase → Prop
  | stop {page : Nat} (hLast : (s.pageOfPhrases source ⟨page, perPage, fast⟩).hasNext = false) :
      Browses s source perPage fast page (s.pageOfPhrases source ⟨page, perPage, fast⟩).items
  | turn {page : Nat} {seen : List Phrase}
      (hNext : (s.pageOfPhrases source ⟨page, perPage, fast⟩).hasNext = true)
      (hMore : Browses s source perPage fast (page + 1) seen) :
      Browses s source perPage fast page
        ((s.pageOfPhrases source ⟨page, perPage, fast⟩).items ++ seen)

/-- Page `last` is within the bound, and no phrase is behind it. -/
structure EndsBy (s : Store) (source : Option String) (perPage last : Nat) : Prop where
  positive : 1 ≤ perPage
  bound : last * perPage + 1 < Text.signedEnd
  rows : (s.phrasesOf source).length ≤ last * perPage

namespace EndsBy

variable {s : Store} {source : Option String} {perPage last page : Nat} {fast : Bool}

theorem isPageOf (h : s.EndsBy source perPage last) (hPage : 1 ≤ page) (hLe : page ≤ last) :
    (s.pageOfPhrases source ⟨page, perPage, fast⟩).IsPageOf (s.phrasesOf source)
      ⟨page, perPage, fast⟩ := by
  have hMul := Nat.mul_le_mul_right perPage hLe
  exact s.pageOfPhrases_isPageOf source
    ⟨hPage, h.positive, Nat.lt_of_le_of_lt (Nat.add_le_add_right hMul 1) h.bound⟩

/-- There is a next page only before `last`, behind a page that is full. -/
theorem of_hasNext (h : s.EndsBy source perPage last) (hPage : 1 ≤ page) (hLe : page ≤ last)
    (hNext : (s.pageOfPhrases source ⟨page, perPage, fast⟩).hasNext = true) :
    page * perPage < (s.phrasesOf source).length ∧ page + 1 ≤ last := by
  have hMore := (h.isPageOf hPage hLe).hasNext.1 hNext
  rw [ne_eq, List.drop_eq_nil_iff, Nat.not_le] at hMore
  exact ⟨hMore, Nat.lt_of_mul_lt_mul_right (Nat.lt_of_lt_of_le hMore h.rows)⟩

/-- Whoever turns pages from some page on has seen the rows that are not on the pages before it. -/
theorem seen_eq (h : s.EndsBy source perPage last) {seen : List Phrase}
    (hBrowses : Browses s source perPage fast page seen) (hPage : 1 ≤ page) (hLe : page ≤ last) :
    seen = (s.phrasesOf source).drop ((page - 1) * perPage) := by
  induction hBrowses with
  | @stop page hStop =>
      have hPageOf : (s.pageOfPhrases source ⟨page, perPage, fast⟩).IsPageOf (s.phrasesOf source) _ :=
        h.isPageOf hPage hLe
      have hNone : (s.phrasesOf source).drop (page * perPage) = [] := by
        by_contra hMore
        rw [hPageOf.hasNext.2 hMore] at hStop
        exact absurd hStop (by decide)
      rw [hPageOf.items, List.take_of_length_le (List.drop_eq_nil_iff.1 hNone)]
  | @turn page seen hNext _ ih =>
      obtain ⟨hFull, hTurn⟩ := h.of_hasNext hPage hLe hNext
      have hBefore : (page - 1) * perPage ≤ ((s.phrasesOf source).take (page * perPage)).length := by
        rw [List.length_take, Nat.min_eq_left (Nat.le_of_lt hFull)]
        exact Nat.mul_le_mul_right perPage (Nat.sub_le page 1)
      rw [(h.isPageOf hPage hLe).items, ih (Nat.succ_pos page) hTurn, Nat.add_sub_cancel,
        ← List.drop_append_of_le_length hBefore, List.take_append_drop]

/-- Turning pages comes to an end, because there is no page behind `last`. -/
theorem exists_browses (h : s.EndsBy source perPage last) (hPage : 1 ≤ page) (hLe : page ≤ last) :
    ∃ seen, Browses s source perPage fast page seen := by
  induction hLeft : last - page generalizing page with
  | zero =>
      refine ⟨_, .stop (Bool.eq_false_iff.2 fun hNext => ?_)⟩
      have hTurn := (h.of_hasNext hPage hLe hNext).2
      omega
  | succ left ih =>
      cases hNext : (s.pageOfPhrases source ⟨page, perPage, fast⟩).hasNext with
      | false => exact ⟨_, .stop hNext⟩
      | true =>
          have hTurn := (h.of_hasNext hPage hLe hNext).2
          obtain ⟨seen, hSeen⟩ := ih (Nat.succ_pos page) hTurn (by omega)
          exact ⟨_, .turn hNext hSeen⟩

end EndsBy

/-- Of the phrases of a table that are asked for, ascending by id, every page shows its own part in both modes,
and it offers a further page exactly when there is a phrase for it. Turning the pages from the first one shows
all of them, each once and in order, when some page within the bound has no phrase behind it. -/
theorem pages_partition {s : Store} (hs : s.phrases.Pairwise (·.id < ·.id)) {source : Option String}
    {rows : List Phrase} (hRows : rows = s.phrases.filter fun p => p.IsOf source) {perPage : Nat}
    (hPer : 1 ≤ perPage) :
    rows.Pairwise (·.id < ·.id) ∧
    (∀ page, 1 ≤ page → page * perPage + 1 < Text.signedEnd →
      (∀ fast, (s.pageOfPhrases source ⟨page, perPage, fast⟩).IsPageOf rows ⟨page, perPage, fast⟩) ∧
      (s.pageOfPhrases source ⟨page, perPage, true⟩).items =
        (s.pageOfPhrases source ⟨page, perPage, false⟩).items ∧
      (s.pageOfPhrases source ⟨page, perPage, true⟩).hasNext =
        (s.pageOfPhrases source ⟨page, perPage, false⟩).hasNext) ∧
    ∀ last, 1 ≤ last → last * perPage + 1 < Text.signedEnd → rows.drop (last * perPage) = [] →
      ∀ fast seen, Browses s source perPage fast 1 seen ↔ seen = rows := by
  rw [← phrasesOf_eq] at hRows
  subst hRows
  refine ⟨?_, fun page hPage hBound => ?_, fun last hLast hBound hEnd fast seen => ?_⟩
  · rw [phrasesOf_eq]
    exact hs.filter _
  · have hPageOf : ∀ fast, (s.pageOfPhrases source ⟨page, perPage, fast⟩).IsPageOf (s.phrasesOf source)
        ⟨page, perPage, fast⟩ := fun fast => s.pageOfPhrases_isPageOf source ⟨hPage, hPer, hBound⟩
    refine ⟨hPageOf, (hPageOf true).items.trans (hPageOf false).items.symm, ?_⟩
    rw [Bool.eq_iff_iff, (hPageOf true).hasNext, (hPageOf false).hasNext]
  · have hEnds : s.EndsBy source perPage last := ⟨hPer, hBound, List.drop_eq_nil_iff.1 hEnd⟩
    have hSeen : ∀ seen, Browses s source perPage fast 1 seen → seen = s.phrasesOf source :=
      fun seen h => by simpa using hEnds.seen_eq h (Nat.le_refl 1) hLast
    refine ⟨hSeen seen, fun hAll => ?_⟩
    obtain ⟨found, hFound⟩ : ∃ found, Browses s source perPage fast 1 found :=
      hEnds.exists_browses (Nat.le_refl 1) hLast
    rw [hAll, ← hSeen found hFound]
    exact hFound

/-- Three towns and a name among them. -/
def towns : Store :=
  { empty with
    phrases := [⟨1, "towns", "Rome", ""⟩, ⟨2, "names", "Ann", ""⟩, ⟨4, "towns", "Oslo", ""⟩,
      ⟨5, "towns", "Lima", ""⟩]
    lastPhrase := 5 }

/-- With two towns to a page there is a second page, in both modes, and with three there is none. -/
theorem towns_paged :
    (towns.pageOfPhrases (some "towns") ⟨1, 2, true⟩).hasNext = true ∧
    (towns.pageOfPhrases (some "towns") ⟨2, 2, false⟩).items = [⟨5, "towns", "Lima", ""⟩] ∧
    (towns.pageOfPhrases (some "towns") ⟨1, 3, true⟩).hasNext = false ∧
    Browses towns (some "towns") 2 true 1
      [⟨1, "towns", "Rome", ""⟩, ⟨4, "towns", "Oslo", ""⟩, ⟨5, "towns", "Lima", ""⟩] := by
  have hTable : towns.phrases.Pairwise (·.id < ·.id) := by decide
  have hRows : [⟨1, "towns", "Rome", ""⟩, ⟨4, "towns", "Oslo", ""⟩, ⟨5, "towns", "Lima", ""⟩] =
      towns.phrases.filter fun p => p.IsOf (some "towns") := by decide
  obtain ⟨-, hTwo, hWalk⟩ := pages_partition hTable hRows (by decide : 1 ≤ 2)
  obtain ⟨-, hThree, -⟩ := pages_partition hTable hRows (by decide : 1 ≤ 3)
  have hFirst := (hTwo 1 (by decide) (by decide)).1 true
  have hSecond := (hTwo 2 (by decide) (by decide)).1 false
  have hWhole := (hThree 1 (by decide) (by decide)).1 true
  refine ⟨hFirst.hasNext.2 (by decide), hSecond.items, Bool.eq_false_iff.2 fun hNext => ?_,
    (hWalk 2 (by decide) (by decide) rfl true _).2 rfl⟩
  exact hWhole.hasNext.1 hNext rfl

end Store

end Phrasebook
