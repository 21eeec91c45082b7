import Mathlib.Logic.Function.Basic
import Phrasebook.Proofs.Store.Table

/-!
Changes of matchers. Each operation either fails and leaves the store as it was, or gives a store that
holds the list after the change; which of the two it does depends on ids and specs only.
-/

namespace Phrasebook.Store

/-- The store after a new matcher. -/
def added (c : Matcher.Content) (actor : String) (now : Int) (s : Store) : Store :=
  withLine actor .addition .matcher (s.lastMatcher + 1) c.spec.label now
    { s with
      rows := s.rows ++ [Row.ofContent (s.lastMatcher + 1) now c], lastMatcher := s.lastMatcher + 1 }

/-- The store after other content under the id of a matcher. -/
def replaced (m : Matcher) (actor : String) (now : Int) (s : Store) : Store :=
  withLine actor .change .matcher m.id m.label now
    { s with rows := s.rows.map fun (r : Row) => if r.id == m.id then m.stored else r }

/-- The store without a matcher. -/
def removed (m : Matcher) (actor : String) (now : Int) (s : Store) : Store :=
  withLine actor .deletion .matcher m.id m.label now
    { s with rows := s.rows.filter (·.id != m.id) }

/-- A content is for the same texts as one of some rows exactly when it has the spec of their matcher. -/
theorem any_sameSpec_iff {ns : List Matcher} (hStorable : ∀ m ∈ ns, m.toContent.IsStorable)
    {c : Matcher.Content} (hc : c.spec.IsLegal) (id createdAt : Int) :
    (ns.map Matcher.stored).any (Row.ofContent id createdAt c).sameSpec = true ↔
      ∃ m ∈ ns, m.spec = c.spec := by
  rw [List.any_map, List.any_eq_true]
  refine exists_congr fun m => and_congr_right fun hm => ?_
  exact (Row.sameSpec_ofContent hc (hStorable m hm).spec _ _ _ _).trans eq_comm

namespace Holds

variable {s : Store} {ms : List Matcher}

theorem insertRow_of_taken (hs : s.Holds ms) {c : Matcher.Content} (hc : c.IsStorable)
    (hTaken : ∃ m ∈ ms, m.spec = c.spec) (actor : String) (now : Int) :
    insertRow c actor now s = .error sameMatcher := by
  have hSame := (any_sameSpec_iff hs.storable hc.spec (s.lastMatcher + 1) now).2 hTaken
  simp [insertRow, hs.rows, hSame, throw, throwThe, MonadExceptOf.throw, bind, Except.bind]

theorem insertRow_of_fresh (hs : s.Holds ms) {c : Matcher.Content} (hc : c.IsStorable)
    (hFresh : ∀ m ∈ ms, m.spec ≠ c.spec) (actor : String) (now : Int) :
    insertRow c actor now s = .ok (s.lastMatcher + 1, s.added c actor now) := by
  have hSame : s.rows.any (Row.ofContent (s.lastMatcher + 1) now c).sameSpec = false := by
    rw [hs.rows, Bool.eq_false_iff, ne_eq, any_sameSpec_iff hs.storable hc.spec]
    rintro ⟨m, hm, hSpec⟩
    exact hFresh m hm hSpec
  have hOne := Row.hasOneSpec_ofContent hc.spec (s.lastMatcher + 1) now
  simp only [insertRow, hSame, hOne, Bool.not_true, Bool.or_self, Bool.false_eq_true, if_false,
    bind, Except.bind, pure, Except.pure]
  rw [record_eq_withLine]
  · rfl
  · exact hs.logged

/-- A new matcher is refused when another one is for the same texts. -/
theorem addMatcher_of_taken (hs : s.Holds ms) {c : Matcher.Content} (hc : c.IsStorable)
    (hTaken : ∃ m ∈ ms, m.spec = c.spec) (actor : String) (now : Int) :
    addMatcher c actor now s = .error sameMatcher s := by
  simp only [addMatcher, bind, EStateM.bind, transaction, hs.insertRow_of_taken hc hTaken]

theorem added_holds (hs : s.Holds ms) {c : Matcher.Content} (hc : c.IsStorable)
    (hFresh : ∀ m ∈ ms, m.spec ≠ c.spec) (actor : String) (now : Int) :
    (s.added c actor now).Holds (ms ++ [⟨c, s.lastMatcher + 1, now⟩]) := by
  refine ⟨?_, ?_, ?_, ?_, ?_, (withLine_isSome_log ..).trans hs.logged, hs.unlocked⟩
  · simp [added, hs.rows, Matcher.stored]
  · intro m hm
    rcases List.mem_append.1 hm with hm | hm
    · exact hs.storable m hm
    · rw [List.mem_singleton.1 hm]
      exact hc
  · refine List.pairwise_append.2 ⟨hs.ascending, List.pairwise_singleton _ _, fun m hm n hn => ?_⟩
    rw [List.mem_singleton.1 hn]
    exact Int.lt_add_one_of_le (hs.given m hm)
  · intro m hm
    rcases List.mem_append.1 hm with hm | hm
    · exact Int.le_trans (hs.given m hm) (Int.le_of_lt (Int.lt_succ s.lastMatcher))
    · obtain rfl := List.mem_singleton.1 hm
      exact Int.le_refl _
  · refine List.pairwise_append.2 ⟨hs.distinct, List.pairwise_singleton _ _, fun m hm n hn => ?_⟩
    rw [List.mem_singleton.1 hn]
    exact hFresh m hm

/-- A new matcher is stored under the next id and read back. -/
theorem addMatcher_of_fresh (hs : s.Holds ms) {c : Matcher.Content} (hc : c.IsStorable)
    (hFresh : ∀ m ∈ ms, m.spec ≠ c.spec) (actor : String) (now : Int) :
    addMatcher c actor now s = .ok ⟨c, s.lastMatcher + 1, now⟩ (s.added c actor now) := by
  have hGet := (hs.added_holds hc hFresh actor now).getMatcher_of_mem
    (List.mem_append_right ms (List.mem_singleton_self _))
  simp only [addMatcher, bind, EStateM.bind, transaction, hs.insertRow_of_fresh hc hFresh, ask, hGet]

theorem eq_of_addMatcher_eq_error (hs : s.Holds ms) {c : Matcher.Content} (hc : c.IsStorable)
    {actor : String} {now : Int} {e : Failure} {t : Store}
    (h : addMatcher c actor now s = .error e t) : t = s := by
  by_cases hTaken : ∃ m ∈ ms, m.spec = c.spec
  · rw [hs.addMatcher_of_taken hc hTaken] at h
    exact (EStateM.Result.error.inj h).2.symm
  · rw [hs.addMatcher_of_fresh hc fun m hm hSpec => hTaken ⟨m, hm, hSpec⟩] at h
    simp at h

theorem updateMatcher_of_absent (hs : s.Holds ms) {id : Int} (h : ∀ m ∈ ms, m.id ≠ id)
    (c : Matcher.Content) (actor : String) (now : Int) :
    updateMatcher id c actor now s = .error (.matcherNotFound id) s := by
  have hReplace : replaceRow id c actor now s = .error (.matcherNotFound id) := by
    rw [replaceRow, hs.row?_of_absent h]
    rfl
  simp only [updateMatcher, bind, EStateM.bind, transaction, hReplace]

/-- The rows under other ids are those of the other matchers. -/
theorem filter_rows (hs : s.Holds ms) (id : Int) :
    s.rows.filter (·.id != id) = (ms.filter (·.id != id)).map Matcher.stored := by
  rw [hs.rows, List.filter_map]
  rfl

theorem any_other_sameSpec_iff (hs : s.Holds ms) {c : Matcher.Content} (hc : c.spec.IsLegal)
    (id createdAt : Int) :
    (s.rows.filter (·.id != id)).any (Row.ofContent id createdAt c).sameSpec = true ↔
      ∃ m ∈ ms, m.id ≠ id ∧ m.spec = c.spec := by
  rw [hs.filter_rows, any_sameSpec_iff (fun m hm => hs.storable m (List.mem_of_mem_filter hm)) hc]
  simp [and_assoc]

theorem updateMatcher_of_taken (hs : s.Holds ms) {old : Matcher} (hOld : old ∈ ms)
    {c : Matcher.Content} (hc : c.IsStorable) (hTaken : ∃ m ∈ ms, m.id ≠ old.id ∧ m.spec = c.spec)
    (actor : String) (now : Int) :
    updateMatcher old.id c actor now s = .error sameMatcher s := by
  have hSame := (hs.any_other_sameSpec_iff hc.spec old.id old.createdAt).2 hTaken
  have hReplace : replaceRow old.id c actor now s = .error sameMatcher := by
    simp only [replaceRow, hs.row?_of_mem hOld, Matcher.stored_createdAt, hSame, Bool.or_true,
      if_true]
    rfl
  simp only [updateMatcher, bind, EStateM.bind, transaction, hReplace]

/-- The matchers of a list, of which the one under the id of `new` gives way to `new`. -/
theorem map_stored_replace (ms : List Matcher) (new : Matcher) :
    (ms.map Matcher.stored).map (fun r => if r.id == new.id then new.stored else r) =
      (ms.map fun m => if m.id = new.id then new else m).map Matcher.stored := by
  rw [List.map_map, List.map_map]
  refine List.map_congr_left fun m _ => ?_
  by_cases hId : m.id = new.id
  · simp [hId]
  · simp [hId]

theorem replaced_holds (hs : s.Holds ms) (new : Matcher) (hNew : new.toContent.IsStorable)
    (hFresh : ∀ m ∈ ms, m.id ≠ new.id → m.spec ≠ new.spec) (actor : String) (now : Int) :
    (s.replaced new actor now).Holds (ms.map fun m => if m.id = new.id then new else m) := by
  have hIds : ∀ m : Matcher, (if m.id = new.id then new else m).id = m.id := fun m => by
    split
    next h => exact h.symm
    next => rfl
  refine ⟨?_, ?_, ?_, ?_, ?_, (withLine_isSome_log ..).trans hs.logged, hs.unlocked⟩
  · rw [replaced, withLine_rows, hs.rows, map_stored_replace]
  · intro n hn
    obtain ⟨m, hm, rfl⟩ := List.mem_map.1 hn
    split
    · exact hNew
    · exact hs.storable m hm
  · rw [List.pairwise_map]
    exact hs.ascending.imp fun hLt => by rwa [hIds, hIds]
  · intro n hn
    obtain ⟨m, hm, rfl⟩ := List.mem_map.1 hn
    rw [hIds]
    exact hs.given m hm
  · rw [List.pairwise_map]
    refine (hs.distinct.and hs.ascending).imp_of_mem fun {m n} hm hn hBoth => ?_
    obtain ⟨hSpec, hLt⟩ := hBoth
    split <;> split
    · omega
    · exact (hFresh n hn ‹_›).symm
    · exact hFresh m hm ‹_›
    · exact hSpec

/-- Other content is stored under the same id and read back. -/
theorem updateMatcher_of_fresh (hs : s.Holds ms) {old : Matcher} (hOld : old ∈ ms)
    {c : Matcher.Content} (hc : c.IsStorable) (hFresh : ∀ m ∈ ms, m.id ≠ old.id → m.spec ≠ c.spec)
    (actor : String) (now : Int) :
    updateMatcher old.id c actor now s =
      .ok ⟨c, old.id, old.createdAt⟩ (s.replaced ⟨c, old.id, old.createdAt⟩ actor now) := by
  have hSame : (s.rows.filter (·.id != old.id)).any
      (Row.ofContent old.id old.createdAt c).sameSpec = false := by
    rw [Bool.eq_false_iff, ne_eq, hs.any_other_sameSpec_iff hc.spec]
    rintro ⟨m, hm, hId, hSpec⟩
    exact hFresh m hm hId hSpec
  have hGuard : (s.groupsLocked || !(Row.ofContent old.id old.createdAt c).hasOneSpec ||
      (s.rows.filter (·.id != old.id)).any (Row.ofContent old.id old.createdAt c).sameSpec) = false := by
    rw [hs.unlocked, Row.hasOneSpec_ofContent hc.spec, hSame]
    rfl
  have hReplace : replaceRow old.id c actor now s =
      .ok ((), s.replaced ⟨c, old.id, old.createdAt⟩ actor now) := by
    simp only [replaceRow, hs.row?_of_mem hOld, Matcher.stored_createdAt, hGuard,
      Bool.false_eq_true, if_false, bind, Except.bind, pure, Except.pure]
    rw [record_eq_withLine]
    · rfl
    · exact hs.logged
  have hHolds := hs.replaced_holds ⟨c, old.id, old.createdAt⟩ hc hFresh actor now
  have hGet := hHolds.getMatcher_of_mem (List.mem_map.2 ⟨old, hOld, if_pos rfl⟩)
  simp only [updateMatcher, bind, EStateM.bind, transaction, hReplace, ask, hGet]

theorem eq_of_updateMatcher_eq_error (hs : s.Holds ms) {c : Matcher.Content} (hc : c.IsStorable)
    {id : Int} {actor : String} {now : Int} {e : Failure} {t : Store}
    (h : updateMatcher id c actor now s = .error e t) : t = s := by
  by_cases hAbsent : ∀ m ∈ ms, m.id ≠ id
  · rw [hs.updateMatcher_of_absent hAbsent] at h
    exact (EStateM.Result.error.inj h).2.symm
  push Not at hAbsent
  obtain ⟨old, hOld, rfl⟩ := hAbsent
  by_cases hTaken : ∃ m ∈ ms, m.id ≠ old.id ∧ m.spec = c.spec
  · rw [hs.updateMatcher_of_taken hOld hc hTaken] at h
    exact (EStateM.Result.error.inj h).2.symm
  · rw [hs.updateMatcher_of_fresh hOld hc fun m hm hId hSpec => hTaken ⟨m, hm, hId, hSpec⟩] at h
    simp at h

theorem removeMatcher_of_absent (hs : s.Holds ms) {id : Int} (h : ∀ m ∈ ms, m.id ≠ id)
    (actor : String) (now : Int) :
    removeMatcher id actor now s = .error (.matcherNotFound id) s := by
  have hRemove : removeRow id actor now s = .error (.matcherNotFound id) := by
    rw [removeRow, hs.getMatcher_of_absent h]
    rfl
  simp only [removeMatcher, transaction, hRemove]

/-- A matcher that is removed is returned as it was. -/
theorem removeMatcher_of_mem (hs : s.Holds ms) {m : Matcher} (hm : m ∈ ms) (actor : String)
    (now : Int) : removeMatcher m.id actor now s = .ok m (s.removed m actor now) := by
  have hRemove : removeRow m.id actor now s = .ok (m, s.removed m actor now) := by
    simp only [removeRow, hs.getMatcher_of_mem hm, bind, Except.bind, pure, Except.pure]
    rw [record_eq_withLine]
    · rfl
    · exact hs.logged
  simp only [removeMatcher, transaction, hRemove]

theorem removed_holds (hs : s.Holds ms) (m : Matcher) (actor : String) (now : Int) :
    (s.removed m actor now).Holds (ms.filter (·.id != m.id)) where
  rows := hs.filter_rows m.id
  storable n hn := hs.storable n (List.mem_of_mem_filter hn)
  ascending := hs.ascending.filter _
  given n hn := hs.given n (List.mem_of_mem_filter hn)
  distinct := hs.distinct.filter _
  logged := (withLine_isSome_log ..).trans hs.logged
  unlocked := hs.unlocked

end Holds

end Phrasebook.Store
