import Phrasebook.Proofs.Store.History

/-!
The matchers of a store as a finite map. In every store that a history leads to, adding, updating and
removing a matcher are operations on a map from ids to matchers. Each of them fails for the reasons that
can be seen in the map and leaves everything as it was, or it changes the map at one id.
-/

namespace Phrasebook.Store

/-- Lookups by id are a map with finitely many entries: what is not listed is not found. -/
structure IsFiniteMap (s : Store) (ms : List Matcher) : Prop where
  all : s.allMatchers = .ok ms
  found : ∀ i m, s.getMatcher i = .ok m ↔ m ∈ ms ∧ m.id = i
  absent : ∀ i, (∀ m, s.getMatcher i ≠ .ok m) → s.getMatcher i = .error (.matcherNotFound i)

/-- The map changes at one id, where `found` is the answer until another change touches the id. The log has
one more line, and no phrase changes. -/
structure Writes (s t : Store) (id : Int) (found : Except Failure Matcher) (action : Audit.Action)
    (actor label : String) (now : Int) : Prop where
  lookup : t.getMatcher = Function.update s.getMatcher id found
  lasting : ∀ later : List Change, (∀ c ∈ later, c.IsAdmissible ∧ ¬c.Touches id) →
    (t.after later).getMatcher id = found
  log : ∃ entries, s.log = some entries ∧
    t.log = some (entries ++ [⟨entries.length + 1, actor, action, .matcher, id, label, now⟩])
  phrases : t.phrases = s.phrases

/-- Adding fails exactly when a matcher has the spec already. The new id is above every id in `used`. -/
structure Adds (s : Store) (c : Matcher.Content) (actor : String) (now : Int) (used : Int → Prop) :
    Prop where
  taken : (∃ i m, s.getMatcher i = .ok m ∧ m.spec = c.spec) →
    addMatcher c actor now s = .error sameMatcher s
  fresh : (¬∃ i m, s.getMatcher i = .ok m ∧ m.spec = c.spec) →
    ∃ id t, addMatcher c actor now s = .ok ⟨c, id, now⟩ t ∧ (∀ i, used i → i < id) ∧
      t.lastMatcher = id ∧ s.Writes t id (.ok ⟨c, id, now⟩) .addition actor c.spec.label now

/-- Updating fails when the id is absent, whatever the spec, and else exactly when another matcher has the
spec. Id and time of creation stay. -/
structure Updates (s : Store) (id : Int) (c : Matcher.Content) (actor : String) (now : Int) :
    Prop where
  absent : (∀ m, s.getMatcher id ≠ .ok m) →
    updateMatcher id c actor now s = .error (.matcherNotFound id) s
  taken : ∀ old, s.getMatcher id = .ok old →
    (∃ i m, i ≠ id ∧ s.getMatcher i = .ok m ∧ m.spec = c.spec) →
    updateMatcher id c actor now s = .error sameMatcher s
  fresh : ∀ old, s.getMatcher id = .ok old →
    (¬∃ i m, i ≠ id ∧ s.getMatcher i = .ok m ∧ m.spec = c.spec) →
    ∃ t, updateMatcher id c actor now s = .ok ⟨c, id, old.createdAt⟩ t ∧
      t.lastMatcher = s.lastMatcher ∧
      s.Writes t id (.ok ⟨c, id, old.createdAt⟩) .change actor c.spec.label now

/-- Removing fails exactly when the id is absent. -/
structure Removes (s : Store) (id : Int) (actor : String) (now : Int) : Prop where
  absent : (∀ m, s.getMatcher id ≠ .ok m) →
    removeMatcher id actor now s = .error (.matcherNotFound id) s
  present : ∀ old, s.getMatcher id = .ok old →
    ∃ t, removeMatcher id actor now s = .ok old t ∧ t.lastMatcher = s.lastMatcher ∧
      s.Writes t id (.error (.matcherNotFound id)) .deletion actor old.label now

namespace Holds

variable {s : Store} {ms : List Matcher}

theorem isFiniteMap (hs : s.Holds ms) : s.IsFiniteMap ms where
  all := hs.allMatchers_eq
  found _ _ := hs.getMatcher_eq_ok_iff
  absent _ h := hs.getMatcher_of_absent fun m hm hId => h m (hs.getMatcher_eq_ok_iff.2 ⟨hm, hId⟩)

/-- Two tables that have the same matchers but for one id differ in what is found there. -/
theorem getMatcher_eq_update {t : Store} {ns : List Matcher} (hs : s.Holds ms) (ht : t.Holds ns)
    {id : Int} {found : Except Failure Matcher} (hFound : t.getMatcher id = found)
    (hElse : ∀ m, m.id ≠ id → (m ∈ ns ↔ m ∈ ms)) :
    t.getMatcher = Function.update s.getMatcher id found := by
  funext i
  by_cases hId : i = id
  · rw [hId, Function.update_self, hFound]
  rw [Function.update_of_ne hId]
  by_cases hAbsent : ∀ m ∈ ms, m.id ≠ i
  · rw [hs.getMatcher_of_absent hAbsent, ht.getMatcher_of_absent]
    intro m hm hSame
    exact hAbsent m ((hElse m fun h => hId (hSame.symm.trans h)).1 hm) hSame
  · push Not at hAbsent
    obtain ⟨m, hm, rfl⟩ := hAbsent
    rw [hs.getMatcher_of_mem hm, ht.getMatcher_of_mem ((hElse m hId).2 hm)]

/-- What is stored under an id stays until the id is touched. -/
theorem getMatcher_after (hs : s.Holds ms) {m : Matcher} (hm : m ∈ ms) {later : List Change}
    (hLater : ∀ c ∈ later, c.IsAdmissible ∧ ¬c.Touches m.id) :
    (s.after later).getMatcher m.id = .ok m := by
  obtain ⟨ns, hFollows⟩ := hs.after_follows fun c hc => (hLater c hc).1
  refine hFollows.holds.getMatcher_of_mem (hFollows.kept m hm ?_)
  rintro ⟨c, hc, hTouches⟩
  exact (hLater c hc).2 hTouches

/-- An id that was given and is absent stays absent. -/
theorem getMatcher_after_absent (hs : s.Holds ms) {id : Int} (hGiven : id ≤ s.lastMatcher)
    (hAbsent : ∀ m ∈ ms, m.id ≠ id) {later : List Change} (hLater : ∀ c ∈ later, c.IsAdmissible) :
    (s.after later).getMatcher id = .error (.matcherNotFound id) := by
  obtain ⟨ns, hFollows⟩ := hs.after_follows hLater
  refine hFollows.holds.getMatcher_of_absent fun n hn hId => ?_
  obtain ⟨m, hm, hSame⟩ := hFollows.origin n hn (hId ▸ hGiven)
  exact hAbsent m hm (hSame.trans hId)

theorem log_withLine (hs : s.Holds ms) (actor : String) (action : Audit.Action)
    (subject : Audit.Subject) (object : Int) (label : String) (now : Int) :
    ∃ entries, s.log = some entries ∧
      (s.withLine actor action subject object label now).log =
        some (entries ++ [⟨entries.length + 1, actor, action, subject, object, label, now⟩]) := by
  obtain ⟨entries, hEntries⟩ := Option.isSome_iff_exists.1 hs.logged
  exact ⟨entries, hEntries, by rw [withLine, hEntries, Option.map_some]⟩

theorem exists_spec_iff (hs : s.Holds ms) {spec : Matcher.Spec} :
    (∃ i m, s.getMatcher i = .ok m ∧ m.spec = spec) ↔ ∃ m ∈ ms, m.spec = spec := by
  constructor
  · rintro ⟨i, m, hGet, hSpec⟩
    exact ⟨m, (hs.getMatcher_eq_ok_iff.1 hGet).1, hSpec⟩
  · rintro ⟨m, hm, hSpec⟩
    exact ⟨m.id, m, hs.getMatcher_of_mem hm, hSpec⟩

theorem exists_other_spec_iff (hs : s.Holds ms) {id : Int} {spec : Matcher.Spec} :
    (∃ i m, i ≠ id ∧ s.getMatcher i = .ok m ∧ m.spec = spec) ↔
      ∃ m ∈ ms, m.id ≠ id ∧ m.spec = spec := by
  constructor
  · rintro ⟨i, m, hOther, hGet, hSpec⟩
    obtain ⟨hm, rfl⟩ := hs.getMatcher_eq_ok_iff.1 hGet
    exact ⟨m, hm, hOther, hSpec⟩
  · rintro ⟨m, hm, hOther, hSpec⟩
    exact ⟨m.id, m, hOther, hs.getMatcher_of_mem hm, hSpec⟩

theorem adds (hs : s.Holds ms) {c : Matcher.Content} (hc : c.IsStorable) (actor : String) (now : Int)
    {used : Int → Prop} (hUsed : ∀ i, used i → i ≤ s.lastMatcher) : s.Adds c actor now used where
  taken hTaken := hs.addMatcher_of_taken hc (hs.exists_spec_iff.1 hTaken) actor now
  fresh hNot := by
    have hFresh : ∀ m ∈ ms, m.spec ≠ c.spec := fun m hm hSpec =>
      hNot (hs.exists_spec_iff.2 ⟨m, hm, hSpec⟩)
    have hNext := hs.added_holds hc hFresh actor now
    have hMem : (⟨c, s.lastMatcher + 1, now⟩ : Matcher) ∈ ms ++ [⟨c, s.lastMatcher + 1, now⟩] :=
      List.mem_append_right ms (List.mem_singleton_self _)
    refine ⟨s.lastMatcher + 1, _, hs.addMatcher_of_fresh hc hFresh actor now,
      fun i hi => Int.lt_add_one_of_le (hUsed i hi), rfl, ?_, ?_, hs.log_withLine .., rfl⟩
    · refine hs.getMatcher_eq_update hNext (hNext.getMatcher_of_mem hMem) fun m hNe => ?_
      have hNotNew : m ≠ ⟨c, s.lastMatcher + 1, now⟩ := fun hEq => hNe (congrArg Matcher.id hEq)
      simp [hNotNew]
    · exact fun later hLater => hNext.getMatcher_after hMem hLater

theorem updates (hs : s.Holds ms) (id : Int) {c : Matcher.Content} (hc : c.IsStorable)
    (actor : String) (now : Int) : s.Updates id c actor now where
  absent h := hs.updateMatcher_of_absent
    (fun m hm hId => h m (hs.getMatcher_eq_ok_iff.2 ⟨hm, hId⟩)) c actor now
  taken old hGet hTaken := by
    obtain ⟨hOld, rfl⟩ := hs.getMatcher_eq_ok_iff.1 hGet
    exact hs.updateMatcher_of_taken hOld hc (hs.exists_other_spec_iff.1 hTaken) actor now
  fresh old hGet hNot := by
    obtain ⟨hOld, rfl⟩ := hs.getMatcher_eq_ok_iff.1 hGet
    have hFresh : ∀ m ∈ ms, m.id ≠ old.id → m.spec ≠ c.spec := fun m hm hOther hSpec =>
      hNot (hs.exists_other_spec_iff.2 ⟨m, hm, hOther, hSpec⟩)
    have hNext := hs.replaced_holds ⟨c, old.id, old.createdAt⟩ hc hFresh actor now
    have hMem : (⟨c, old.id, old.createdAt⟩ : Matcher) ∈
        ms.map fun m => if m.id = old.id then ⟨c, old.id, old.createdAt⟩ else m :=
      List.mem_map.2 ⟨old, hOld, if_pos rfl⟩
    refine ⟨_, hs.updateMatcher_of_fresh hOld hc hFresh actor now, rfl, ?_, ?_,
      hs.log_withLine .., rfl⟩
    · refine hs.getMatcher_eq_update hNext (hNext.getMatcher_of_mem hMem) fun m hNe => ?_
      rw [List.mem_map]
      constructor
      · rintro ⟨n, hn, rfl⟩
        split at hNe
        next => exact absurd rfl hNe
        next hOther => rwa [if_neg hOther]
      · exact fun hm => ⟨m, hm, if_neg hNe⟩
    · exact fun later hLater => hNext.getMatcher_after hMem hLater

theorem removes (hs : s.Holds ms) (id : Int) (actor : String) (now : Int) :
    s.Removes id actor now where
  absent h := hs.removeMatcher_of_absent
    (fun m hm hId => h m (hs.getMatcher_eq_ok_iff.2 ⟨hm, hId⟩)) actor now
  present old hGet := by
    obtain ⟨hOld, rfl⟩ := hs.getMatcher_eq_ok_iff.1 hGet
    have hNext := hs.removed_holds old actor now
    have hAbsent : ∀ m ∈ ms.filter (·.id != old.id), m.id ≠ old.id := fun m hm => by
      simpa using (List.mem_filter.1 hm).2
    refine ⟨_, hs.removeMatcher_of_mem hOld actor now, rfl, ?_, ?_, hs.log_withLine .., rfl⟩
    · refine hs.getMatcher_eq_update hNext (hNext.getMatcher_of_absent hAbsent) fun m hNe => ?_
      simp [hNe]
    · exact fun later hLater => hNext.getMatcher_after_absent (hs.given old hOld) hAbsent
        fun c hc => (hLater c hc).1

end Holds

/-- The ids under which a matcher was found at some time of a history. -/
def EverUsed (history : List Change) (i : Int) : Prop :=
  ∃ earlier, earlier <+: history ∧ ∃ m, (empty.after earlier).getMatcher i = .ok m

theorem le_lastMatcher_of_everUsed {history : List Change} (hAll : ∀ c ∈ history, c.IsAdmissible)
    {i : Int} (h : EverUsed history i) : i ≤ (empty.after history).lastMatcher := by
  obtain ⟨earlier, ⟨later, rfl⟩, m, hGet⟩ := h
  rw [List.forall_mem_append] at hAll
  obtain ⟨ms, hFirst⟩ := empty_holds.after_follows hAll.1
  obtain ⟨ns, hThen⟩ := hFirst.holds.after_follows hAll.2
  obtain ⟨hm, rfl⟩ := hFirst.holds.getMatcher_eq_ok_iff.1 hGet
  rw [after, List.foldl_append]
  exact Int.le_trans (hFirst.holds.given m hm) hThen.lastMatcher

/-- In every store that a history leads to, the matchers are a finite map, and adding, updating and
removing a matcher are atomic operations on it. -/
theorem matchers_refine_map {history : List Change} (hAll : ∀ c ∈ history, c.IsAdmissible)
    {d : Draft} {c : Matcher.Content} (hValid : d.validate = .ok c)
    (hReadable : Group.AreReadable c.groups) (id : Int) (actor : String) (now : Int) :
    (∃ ms, (empty.after history).IsFiniteMap ms) ∧
      (empty.after history).Adds c actor now (EverUsed history) ∧
      (empty.after history).Updates id c actor now ∧
      (empty.after history).Removes id actor now := by
  obtain ⟨ms, hFollows⟩ := empty_holds.after_follows hAll
  have hs := hFollows.holds
  have hc : c.IsStorable := Holds.isStorable_of_admissible ⟨⟨d, hValid⟩, hReadable⟩
  exact ⟨⟨ms, hs.isFiniteMap⟩,
    hs.adds hc actor now fun i hi => le_lastMatcher_of_everUsed hAll hi,
    hs.updates id hc actor now, hs.removes id actor now⟩

/-- The greeting, which ann has added already, is refused when bob adds it. -/
theorem greeting_refused_twice :
    addMatcher .greeting "bob" 1 (empty.after [.add .greeting "ann" 0]) =
      .error sameMatcher (empty.after [.add .greeting "ann" 0]) := by
  have hValid := Draft.validate_ofContent Matcher.Content.isLegal_greeting
  have hReadable : Group.AreReadable Matcher.Content.greeting.groups := by decide
  have hAll : ∀ c ∈ [Change.add .greeting "ann" 0], c.IsAdmissible := by
    rw [List.forall_mem_singleton]
    exact ⟨⟨_, hValid⟩, hReadable⟩
  obtain ⟨-, hAdds, -, -⟩ := matchers_refine_map hAll hValid hReadable 1 "bob" 1
  have hStorable : Matcher.Content.greeting.IsStorable :=
    ⟨Matcher.Content.isLegal_greeting.spec, hReadable⟩
  have hFirst : empty.after [.add .greeting "ann" 0] = empty.added .greeting "ann" 0 := by
    rw [after, List.foldl_cons, List.foldl_nil, Change.apply,
      empty_holds.addMatcher_of_fresh hStorable (by simp), endOf]
  have hGet := (empty_holds.added_holds hStorable (by simp) "ann" 0).getMatcher_of_mem
    (List.mem_singleton_self _)
  rw [← hFirst] at hGet
  exact hAdds.taken ⟨1, _, hGet, rfl⟩

end Phrasebook.Store
