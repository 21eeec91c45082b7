import Phrasebook.Proofs.Store.Matchers
import Phrasebook.Proofs.Store.Phrases
import Phrasebook.Proofs.Store.Rename

/-!
Histories of a store. A change is an operation with its arguments, and it leads from every store to the
store in which the operation ends, successful or not. What one change keeps is kept by every history of
changes.
-/

namespace Phrasebook

namespace Store

/-- An operation that may change a store. -/
inductive Change where
  | add (content : Matcher.Content) (actor : String) (now : Int)
  | update (id : Int) (content : Matcher.Content) (actor : String) (now : Int)
  | remove (id : Int) (actor : String) (now : Int)
  | rename (old new actor : String) (now : Int)
  | addPhrase (source content actor : String) (now : Int)
  | removePhrase (id : Int) (actor : String) (now : Int)
  | addBatch (source : String) (batch : List (String × String))

namespace Change

/-- The store in which the operation ends. -/
def apply (s : Store) : Change → Store
  | add c actor now => endOf (addMatcher c actor now s)
  | update id c actor now => endOf (updateMatcher id c actor now s)
  | remove id actor now => endOf (removeMatcher id actor now s)
  | rename old new actor now => endOf (Store.rename old new actor now s)
  | addPhrase source content actor now => endOf (Store.addPhrase source content actor now s)
  | removePhrase id actor now => endOf (Store.removePhrase id actor now s)
  | addBatch source batch => endOf (Store.addBatch source batch s)

/-- A content comes from validation, and its groups can be read again. -/
def IsAdmissible : Change → Prop
  | add c _ _ | update _ c _ _ => (∃ d : Draft, d.validate = .ok c) ∧ Group.AreReadable c.groups
  | _ => True

/-- A new name is trimmed, and a batch comes with the digests of its contents. -/
def IsClean : Change → Prop
  | rename _ new _ _ => Text.trim new = new
  | addBatch _ batch => ∀ e ∈ batch, e.2 = Text.digest e.1
  | _ => True

/-- The change may concern a stored matcher. A renaming may concern them all. -/
def Touches (id : Int) : Change → Prop
  | update i _ _ _ | remove i _ _ => i = id
  | rename .. => True
  | _ => False

end Change

/-- The store behind a history of changes. -/
def after (s : Store) (changes : List Change) : Store := changes.foldl Change.apply s

/-- How a store that holds `ns` may follow one that holds `ms`. Ids are new or were there before, and a
matcher that is not touched stays. When everything was clean, what is legal or sound remains so. -/
structure Follows (touched : Int → Prop) (clean : Prop) (s t : Store) (ms ns : List Matcher) :
    Prop where
  holds : t.Holds ns
  lastMatcher : s.lastMatcher ≤ t.lastMatcher
  origin : ∀ n ∈ ns, n.id ≤ s.lastMatcher → ∃ m ∈ ms, m.id = n.id
  kept : ∀ m ∈ ms, ¬touched m.id → m ∈ ns
  legal : clean → (∀ m ∈ ms, m.toContent.IsLegal) → ∀ n ∈ ns, n.toContent.IsLegal
  sound : clean → s.PhrasesSound → t.PhrasesSound

namespace Follows

theorem refl {s : Store} {ms : List Matcher} (hs : s.Holds ms) (touched : Int → Prop)
    (clean : Prop) : Follows touched clean s s ms ms :=
  ⟨hs, Int.le_refl _, fun n hn _ => ⟨n, hn, rfl⟩, fun _ hm _ => hm, fun _ h => h, fun _ h => h⟩

theorem trans {touched more : Int → Prop} {clean also : Prop} {s t u : Store}
    {ms ns os : List Matcher} (h : Follows touched clean s t ms ns)
    (k : Follows more also t u ns os) :
    Follows (fun id => touched id ∨ more id) (clean ∧ also) s u ms os where
  holds := k.holds
  lastMatcher := Int.le_trans h.lastMatcher k.lastMatcher
  origin o ho hLe := by
    obtain ⟨n, hn, hId⟩ := k.origin o ho (Int.le_trans hLe h.lastMatcher)
    obtain ⟨m, hm, hSame⟩ := h.origin n hn (hId ▸ hLe)
    exact ⟨m, hm, hSame.trans hId⟩
  kept m hm hNot :=
    k.kept m (h.kept m hm fun hTouched => hNot (Or.inl hTouched)) fun hMore => hNot (Or.inr hMore)
  legal hClean hLegal := k.legal hClean.2 (h.legal hClean.1 hLegal)
  sound hClean hSound := k.sound hClean.2 (h.sound hClean.1 hSound)

end Follows

namespace Holds

variable {s : Store} {ms : List Matcher}

theorem isStorable_of_admissible {c : Matcher.Content}
    (h : (∃ d : Draft, d.validate = .ok c) ∧ Group.AreReadable c.groups) : c.IsStorable := by
  obtain ⟨⟨d, hValid⟩, hReadable⟩ := h
  exact ⟨(Draft.isLegal_of_validate hValid).spec, hReadable⟩

/-- A change that concerns no matcher. -/
theorem follows_of_sameTable (hs : s.Holds ms) {t : Store} {clean : Prop} (hTable : SameTable s t)
    (hSound : clean → s.PhrasesSound → t.PhrasesSound) (touched : Int → Prop) :
    Follows touched clean s t ms ms :=
  ⟨hTable.holds hs, Int.le_of_eq hTable.lastMatcher.symm, fun n hn _ => ⟨n, hn, rfl⟩,
    fun _ hm _ => hm, fun _ h => h, hSound⟩

theorem add_follows (hs : s.Holds ms) {c : Matcher.Content} {actor : String} {now : Int}
    (hc : (Change.add c actor now).IsAdmissible) :
    ∃ ns, Follows (fun _ => False) True s (endOf (addMatcher c actor now s)) ms ns := by
  have hStorable := isStorable_of_admissible hc
  obtain ⟨⟨d, hValid⟩, -⟩ := hc
  by_cases hTaken : ∃ m ∈ ms, m.spec = c.spec
  · rw [hs.addMatcher_of_taken hStorable hTaken]
    exact ⟨ms, .refl hs _ _⟩
  · have hFresh : ∀ m ∈ ms, m.spec ≠ c.spec := fun m hm hSpec => hTaken ⟨m, hm, hSpec⟩
    rw [hs.addMatcher_of_fresh hStorable hFresh]
    refine ⟨_, hs.added_holds hStorable hFresh actor now, Int.le_of_lt (Int.lt_succ s.lastMatcher),
      fun n hn hLe => ?_, fun m hm _ => List.mem_append_left _ hm, fun _ hLegal n hn => ?_,
      fun _ hSound => hSound.congr rfl (Int.le_refl _)⟩
    · rcases List.mem_append.1 hn with hn | hn
      · exact ⟨n, hn, rfl⟩
      · rw [List.mem_singleton.1 hn] at hLe
        exact absurd hLe (Int.not_le.2 (Int.lt_succ s.lastMatcher))
    · rcases List.mem_append.1 hn with hn | hn
      · exact hLegal n hn
      · rw [List.mem_singleton.1 hn]
        exact Draft.isLegal_of_validate hValid

theorem update_follows (hs : s.Holds ms) {id : Int} {c : Matcher.Content} {actor : String}
    {now : Int} (hc : (Change.update id c actor now).IsAdmissible) :
    ∃ ns, Follows (fun i => id = i) True s (endOf (updateMatcher id c actor now s)) ms ns := by
  have hStorable := isStorable_of_admissible hc
  obtain ⟨⟨d, hValid⟩, -⟩ := hc
  by_cases hAbsent : ∀ m ∈ ms, m.id ≠ id
  · rw [hs.updateMatcher_of_absent hAbsent]
    exact ⟨ms, .refl hs _ _⟩
  push Not at hAbsent
  obtain ⟨old, hOld, rfl⟩ := hAbsent
  by_cases hTaken : ∃ m ∈ ms, m.id ≠ old.id ∧ m.spec = c.spec
  · rw [hs.updateMatcher_of_taken hOld hStorable hTaken]
    exact ⟨ms, .refl hs _ _⟩
  · have hFresh : ∀ m ∈ ms, m.id ≠ old.id → m.spec ≠ c.spec := fun m hm hId hSpec =>
      hTaken ⟨m, hm, hId, hSpec⟩
    rw [hs.updateMatcher_of_fresh hOld hStorable hFresh]
    refine ⟨_, hs.replaced_holds ⟨c, old.id, old.createdAt⟩ hStorable hFresh actor now,
      Int.le_refl _, fun n hn _ => ?_, fun m hm hNot => ?_, fun _ hLegal n hn => ?_,
      fun _ hSound => hSound.congr rfl (Int.le_refl _)⟩
    · obtain ⟨m, hm, rfl⟩ := List.mem_map.1 hn
      refine ⟨m, hm, ?_⟩
      split
      next hId => exact hId
      next => rfl
    · exact List.mem_map.2 ⟨m, hm, if_neg fun hId => hNot hId.symm⟩
    · obtain ⟨m, hm, rfl⟩ := List.mem_map.1 hn
      split
      · exact Draft.isLegal_of_validate hValid
      · exact hLegal m hm

theorem remove_follows (hs : s.Holds ms) (id : Int) (actor : String) (now : Int) :
    ∃ ns, Follows (fun i => id = i) True s (endOf (removeMatcher id actor now s)) ms ns := by
  by_cases hAbsent : ∀ m ∈ ms, m.id ≠ id
  · rw [hs.removeMatcher_of_absent hAbsent]
    exact ⟨ms, .refl hs _ _⟩
  push Not at hAbsent
  obtain ⟨old, hOld, rfl⟩ := hAbsent
  rw [hs.removeMatcher_of_mem hOld]
  refine ⟨_, hs.removed_holds old actor now, Int.le_refl _,
    fun n hn _ => ⟨n, List.mem_of_mem_filter hn, rfl⟩, fun m hm hNot => ?_,
    fun _ hLegal n hn => hLegal n (List.mem_of_mem_filter hn),
    fun _ hSound => hSound.congr rfl (Int.le_refl _)⟩
  exact List.mem_filter.2 ⟨hm, by simpa using fun hId => hNot (Eq.symm hId)⟩

/-- A name that a renaming takes can be the category of a legal content. -/
theorem legal_name_of_checkNames {old new : String} (h : checkNames old new = .ok ()) :
    new ≠ "" ∧ new.length ≤ Draft.categoryLimit := by
  unfold checkNames at h
  split at h
  next => simp at h
  split at h
  next => simp at h
  next =>
    refine (Draft.categoryFaults_eq_nil_iff new).1 ?_
    cases hFaults : Draft.categoryFaults new with
    | nil => rfl
    | cons f more =>
        rw [hFaults] at h
        simp [Failure.ofFaults] at h

theorem isLegal_relabel {m : Matcher} (h : m.toContent.IsLegal) (old : String) {new : String}
    (hTrimmed : Text.trim new = new) (hNe : new ≠ "") (hLength : new.length ≤ Draft.categoryLimit)
    (nested : List Matcher) : (m.relabel old new nested).toContent.IsLegal := by
  have hCategory : (m.relabel old new nested).category =
      if m.category = old then new else m.category := rfl
  refine ⟨?_, ?_, ?_, h.spec, h.replaced⟩
  all_goals rw [hCategory]; split
  · exact hTrimmed
  · exact h.category_trimmed
  · exact hNe
  · exact h.category_ne
  · exact hLength
  · exact h.category_length

theorem rename_follows (hs : s.Holds ms) (old new actor : String) (now : Int) :
    ∃ ns, Follows (fun _ => True) (Text.trim new = new) s (endOf (Store.rename old new actor now s))
      ms ns := by
  rw [hs.rename_eq]
  dsimp only
  split
  next => exact ⟨ms, .refl hs _ _⟩
  next hNames =>
    obtain ⟨hNe, hLength⟩ := legal_name_of_checkNames hNames
    refine ⟨_, hs.renamed_holds (List.filter_subset_self _) old new actor now _, ?_, fun n hn _ => ?_,
      fun m hm hNot => ?_, fun hTrimmed hLegal n hn => ?_, fun _ hSound => ?_⟩
    · exact Int.le_of_eq (renamed_lastMatcher ..).symm
    · obtain ⟨m, hm, rfl⟩ := List.mem_map.1 hn
      exact ⟨m, hm, rfl⟩
    · exact absurd trivial hNot
    · obtain ⟨m, hm, rfl⟩ := List.mem_map.1 hn
      exact isLegal_relabel (hLegal m hm) old hTrimmed hNe hLength _
    · exact hSound.congr (renamed_phrases ..) (Int.le_of_eq (renamed_lastPhrase ..).symm)

/-- What one change keeps. -/
theorem apply_follows (hs : s.Holds ms) {c : Change} (hc : c.IsAdmissible) :
    ∃ ns, Follows (fun id => c.Touches id) c.IsClean s (c.apply s) ms ns := by
  cases c with
  | add content actor now => exact hs.add_follows hc
  | update id content actor now => exact hs.update_follows hc
  | remove id actor now => exact hs.remove_follows id actor now
  | rename old new actor now => exact hs.rename_follows old new actor now
  | addPhrase source content actor now =>
      have hChanges := addPhrase_changes s source content actor now
      exact ⟨ms, hs.follows_of_sameTable hChanges.table (fun _ => hChanges.sound) _⟩
  | removePhrase id actor now =>
      have hChanges := removePhrase_changes s id actor now
      exact ⟨ms, hs.follows_of_sameTable hChanges.table (fun _ => hChanges.sound) _⟩
  | addBatch source batch =>
      exact ⟨ms, hs.follows_of_sameTable (putPhrases_sameTable source batch s)
        (fun hDigests hSound => hSound.putPhrases source hDigests) _⟩

/-- What a history of changes keeps. -/
theorem after_follows (hs : s.Holds ms) {changes : List Change}
    (hAll : ∀ c ∈ changes, c.IsAdmissible) :
    ∃ ns, Follows (fun id => ∃ c ∈ changes, c.Touches id) (∀ c ∈ changes, c.IsClean) s
      (s.after changes) ms ns := by
  induction changes generalizing s ms with
  | nil => exact ⟨ms, .refl hs _ _⟩
  | cons c more ih =>
      rw [List.forall_mem_cons] at hAll
      obtain ⟨ns, hStep⟩ := hs.apply_follows hAll.1
      obtain ⟨os, hRun⟩ := ih hStep.holds hAll.2
      have hBoth := hStep.trans hRun
      refine ⟨os, hBoth.holds, hBoth.lastMatcher, hBoth.origin, fun m hm hNot => ?_, fun hClean => ?_,
        fun hClean => ?_⟩
      · refine hBoth.kept m hm fun hTouched => hNot ?_
        simpa using hTouched
      · exact hBoth.legal (List.forall_mem_cons.1 hClean)
      · exact hBoth.sound (List.forall_mem_cons.1 hClean)

end Holds

end Store

end Phrasebook
