import Phrasebook.Proofs.Store.History

/-!
What the log tells of a matcher. An operation writes its lines in the transaction in which it changes the
rows, so the rows and the lines under one id go together. This is seen on the rows as they are stored,
whatever is in them: it is also true of rows that cannot be read.
-/

namespace Phrasebook.Store

/-- What was done to a matcher, from the first line of the log to the last. -/
def deeds (s : Store) (id : Int) : List Audit.Action :=
  ((s.matcherLines.getD []).filter (·.object == id)).map (·.action)

/-- What can become of one id. It may have been left alone; else the log tells what was done. -/
inductive Passage (s t : Store) (id : Int) : Prop
  | stays (row : t.row? id = s.row? id) (deeds : t.deeds id = s.deeds id)
  | begins (unused : s.lastMatcher < id) (given : id ≤ t.lastMatcher) (new : (t.row? id).isSome)
      (deeds : t.deeds id = s.deeds id ++ [.addition])
  | goesOn (old : (s.row? id).isSome) (new : (t.row? id).isSome) (n : Nat)
      (deeds : t.deeds id = s.deeds id ++ List.replicate (n + 1) .change)
  | ends (old : (s.row? id).isSome) (new : t.row? id = none)
      (deeds : t.deeds id = s.deeds id ++ [.deletion])

/-- How an operation leads from one store to the next. -/
structure Proceeds (s t : Store) : Prop where
  lastMatcher : s.lastMatcher ≤ t.lastMatcher
  passage : ∀ id, Passage s t id

variable {s t : Store}

theorem Proceeds.of_sameTable (h : SameTable s t) : Proceeds s t where
  lastMatcher := Int.le_of_eq h.lastMatcher.symm
  passage id := .stays (by rw [row?, row?, h.rows]) (by rw [deeds, deeds, h.lines])

theorem Proceeds.refl (s : Store) : Proceeds s s := .of_sameTable (.refl s)

theorem deeds_withLine (h : s.log.isSome = true) (actor : String) (action : Audit.Action)
    (object : Int) (label : String) (now id : Int) :
    (s.withLine actor action .matcher object label now).deeds id =
      s.deeds id ++ if object = id then [action] else [] := by
  obtain ⟨entries, hEntries⟩ := Option.isSome_iff_exists.1 h
  by_cases hObject : object = id
  · simp [deeds, matcherLines, withLine, hEntries, hObject]
  · simp [deeds, matcherLines, withLine, hEntries, hObject]

theorem isSome_log_of_record {actor : String} {action : Audit.Action} {subject : Audit.Subject}
    {object : Int} {label : String} {now : Int}
    (h : s.record actor action subject object label now = .ok t) : s.log.isSome = true := by
  cases hLog : s.log with
  | none => simp [record, hLog] at h
  | some entries => rfl

theorem isSome_row?_iff {id : Int} : (s.row? id).isSome ↔ ∃ r ∈ s.rows, r.id = id := by
  simp [row?, List.find?_isSome]

theorem row?_eq_none_iff {id : Int} : s.row? id = none ↔ ∀ r ∈ s.rows, r.id ≠ id := by
  simp [row?]

section

variable {c : Matcher.Content} {actor : String} {now id : Int}

theorem insertRow_eq_ok (h : insertRow c actor now s = .ok (id, t)) :
    id = s.lastMatcher + 1 ∧ s.log.isSome = true ∧ t = s.added c actor now := by
  unfold insertRow at h
  dsimp only at h
  split at h
  next => exact absurd h throw_bind_ne_ok
  next =>
    obtain ⟨-, -, h⟩ := bind_eq_ok_iff.1 h
    obtain ⟨t', hRecord, hPair⟩ := bind_eq_ok_iff.1 h
    obtain ⟨rfl, rfl⟩ := Prod.mk.inj (Except.ok.inj hPair)
    have hLog := isSome_log_of_record hRecord
    exact ⟨rfl, hLog, record_eq_ok hRecord⟩

/-- The row of the new matcher, unless there is one under its id already. -/
theorem row?_added (c : Matcher.Content) (actor : String) (now id : Int) :
    (s.added c actor now).row? id = (s.row? id).or
      (if s.lastMatcher + 1 = id then some (Row.ofContent (s.lastMatcher + 1) now c) else none) := by
  show (s.rows ++ [Row.ofContent (s.lastMatcher + 1) now c]).find? (·.id == id) = _
  rw [List.find?_append, row?]
  by_cases hNew : s.lastMatcher + 1 = id
  · simp [Row.ofContent, hNew]
  · simp [Row.ofContent, hNew]

theorem added_proceeds (hLog : s.log.isSome = true) (c : Matcher.Content) (actor : String)
    (now : Int) : Proceeds s (s.added c actor now) where
  lastMatcher := Int.le_of_lt (Int.lt_succ s.lastMatcher)
  passage id := by
    have hDeeds : (s.added c actor now).deeds id =
        s.deeds id ++ if s.lastMatcher + 1 = id then [.addition] else [] :=
      deeds_withLine hLog actor .addition (s.lastMatcher + 1) c.spec.label now id
    have hRow := row?_added (s := s) c actor now id
    by_cases hNew : s.lastMatcher + 1 = id
    · rw [if_pos hNew] at hDeeds hRow
      exact .begins (by omega) (Int.le_of_eq hNew.symm) (by simp [hRow]) hDeeds
    · rw [if_neg hNew, List.append_nil] at hDeeds
      rw [if_neg hNew, Option.or_none] at hRow
      exact .stays hRow hDeeds

theorem replaceRow_eq_ok (h : replaceRow id c actor now s = .ok ((), t)) :
    s.log.isSome = true ∧ ∃ old, s.row? id = some old ∧
      t = s.replaced ⟨c, id, old.createdAt⟩ actor now := by
  unfold replaceRow at h
  split at h
  next old hOld =>
    dsimp only at h
    split at h
    next => exact absurd h throw_bind_ne_ok
    next =>
      obtain ⟨-, -, h⟩ := bind_eq_ok_iff.1 h
      obtain ⟨t', hRecord, hPair⟩ := bind_eq_ok_iff.1 h
      obtain ⟨-, rfl⟩ := Prod.mk.inj (Except.ok.inj hPair)
      have hLog := isSome_log_of_record hRecord
      exact ⟨hLog, old, hOld, record_eq_ok hRecord⟩
  next => simp [throw, throwThe, MonadExceptOf.throw] at h

/-- The row of the matcher is the new one, and every other row is as it was. -/
theorem row?_replaced (m : Matcher) (actor : String) (now id : Int) :
    (s.replaced m actor now).row? id =
      (s.row? id).map fun r => if r.id == m.id then m.stored else r := by
  have hIds : ((fun r : Row => r.id == id) ∘ fun r => if r.id == m.id then m.stored else r) =
      fun r => r.id == id := by
    funext r
    by_cases hId : r.id = m.id
    · simp [hId]
    · simp [hId]
  show (s.rows.map fun r => if r.id == m.id then m.stored else r).find? (·.id == id) = _
  rw [List.find?_map, hIds, row?]

theorem replaced_proceeds (hLog : s.log.isSome = true) {m : Matcher}
    (hOld : (s.row? m.id).isSome) (actor : String) (now : Int) :
    Proceeds s (s.replaced m actor now) where
  lastMatcher := Int.le_refl _
  passage id := by
    have hDeeds : (s.replaced m actor now).deeds id =
        s.deeds id ++ if m.id = id then [.change] else [] :=
      deeds_withLine hLog actor .change m.id m.label now id
    have hRow := row?_replaced (s := s) m actor now id
    by_cases hId : m.id = id
    · subst hId
      rw [if_pos rfl] at hDeeds
      exact .goesOn hOld (by rw [hRow, Option.isSome_map, hOld]) 0 hDeeds
    · rw [if_neg hId, List.append_nil] at hDeeds
      refine .stays ?_ hDeeds
      cases hFound : s.row? id with
      | none => rw [hRow, hFound, Option.map_none]
      | some r =>
          have hSame : r.id = id := by simpa using List.find?_some hFound
          have hOther : ¬r.id = m.id := fun h => hId (h.symm.trans hSame)
          rw [hRow, hFound, Option.map_some, if_neg (by simpa using hOther)]

theorem id_of_matcher_eq_ok {r : Row} {m : Matcher} (h : r.matcher = .ok m) : m.id = r.id := by
  unfold Row.matcher at h
  split at h
  next => exact Except.ok.inj h ▸ rfl
  next => simp at h

theorem removeRow_eq_ok {m : Matcher} (h : removeRow id actor now s = .ok (m, t)) :
    s.log.isSome = true ∧ m.id = id ∧ (s.row? m.id).isSome ∧ t = s.removed m actor now := by
  obtain ⟨n, hGet, h⟩ := bind_eq_ok_iff.1 h
  obtain ⟨t', hRecord, hPair⟩ := bind_eq_ok_iff.1 h
  obtain ⟨rfl, rfl⟩ := Prod.mk.inj (Except.ok.inj hPair)
  unfold getMatcher at hGet
  split at hGet
  next r hRow =>
    have hId : n.id = id := by
      rw [id_of_matcher_eq_ok hGet]
      simpa using List.find?_some hRow
    subst hId
    have hLog := isSome_log_of_record hRecord
    exact ⟨hLog, rfl, by rw [hRow]; rfl, record_eq_ok hRecord⟩
  next => simp at hGet

theorem removed_proceeds (hLog : s.log.isSome = true) {m : Matcher}
    (hOld : (s.row? m.id).isSome) (actor : String) (now : Int) :
    Proceeds s (s.removed m actor now) where
  lastMatcher := Int.le_refl _
  passage id := by
    have hDeeds : (s.removed m actor now).deeds id =
        s.deeds id ++ if m.id = id then [.deletion] else [] :=
      deeds_withLine hLog actor .deletion m.id m.label now id
    by_cases hId : m.id = id
    · subst hId
      rw [if_pos rfl] at hDeeds
      refine .ends hOld (row?_eq_none_iff.2 fun r hr => ?_) hDeeds
      simpa using (List.mem_filter.1 hr).2
    · rw [if_neg hId, List.append_nil] at hDeeds
      refine .stays ?_ hDeeds
      show (s.rows.filter (·.id != m.id)).find? (·.id == id) = s.rows.find? (·.id == id)
      rw [List.find?_filter]
      refine congrArg (s.rows.find? ·) (funext fun r => ?_)
      have hOther : id ≠ m.id := fun h => hId h.symm
      by_cases hSame : r.id = id
      · simp [hSame, hOther]
      · simp [hSame]

end

/-- The matchers that are read from some rows have the ids of these rows. -/
theorem ids_of_mapM {rows : List Row} {ms : List Matcher} (h : rows.mapM Row.matcher = .ok ms) :
    ms.map (·.id) = rows.map (·.id) := by
  induction rows generalizing ms with
  | nil =>
      obtain rfl := Except.ok.inj h
      rfl
  | cons r more ih =>
      rw [List.mapM_cons] at h
      obtain ⟨m, hRead, h⟩ := bind_eq_ok_iff.1 h
      obtain ⟨ns, hMore, h⟩ := bind_eq_ok_iff.1 h
      obtain rfl := Except.ok.inj h
      rw [List.map_cons, List.map_cons, ih hMore, id_of_matcher_eq_ok hRead]

theorem exists_selected_iff {p : Row → Bool} {ms : List Matcher} (h : s.selectMatchers p = .ok ms)
    (id : Int) : (∃ m ∈ ms, m.id = id) ↔ ∃ r ∈ s.rows, p r = true ∧ r.id = id := by
  have hIds := ids_of_mapM h
  constructor
  · rintro ⟨m, hm, rfl⟩
    have hMem : m.id ∈ (s.rows.filter p).map (·.id) := hIds ▸ List.mem_map_of_mem hm
    obtain ⟨r, hr, hSame⟩ := List.mem_map.1 hMem
    obtain ⟨hRow, hTest⟩ := List.mem_filter.1 hr
    exact ⟨r, hRow, hTest, hSame⟩
  · rintro ⟨r, hRow, hTest, rfl⟩
    have hMem : r.id ∈ ms.map (·.id) :=
      hIds.symm ▸ List.mem_map_of_mem (List.mem_filter.2 ⟨hRow, hTest⟩)
    obtain ⟨m, hm, hSame⟩ := List.mem_map.1 hMem
    exact ⟨m, hm, hSame⟩

theorem exists_merged_iff {ms more : List Matcher} {id : Int} :
    (∃ m ∈ mergeById ms more, m.id = id) ↔ (∃ m ∈ ms, m.id = id) ∨ ∃ m ∈ more, m.id = id := by
  simp only [mergeById, List.mem_mergeSort, List.mem_append, List.mem_filter]
  constructor
  · rintro ⟨m, hm | ⟨hm, -⟩, hId⟩
    · exact Or.inl ⟨m, hm, hId⟩
    · exact Or.inr ⟨m, hm, hId⟩
  · rintro (⟨m, hm, hId⟩ | ⟨m, hm, hId⟩)
    · exact ⟨m, Or.inl hm, hId⟩
    · by_cases hFirst : ∃ n ∈ ms, n.id = m.id
      · obtain ⟨n, hn, hSame⟩ := hFirst
        exact ⟨n, Or.inl hn, hSame.trans hId⟩
      · refine ⟨m, Or.inr ⟨hm, ?_⟩, hId⟩
        simpa using hFirst

/-- One line for every matcher that changed, and nothing else. -/
theorem recordChanges_eq_ok {actor : String} {now : Int} {changed : List Matcher}
    (h : recordChanges actor now changed s = .ok t) :
    t.rows = s.rows ∧ t.lastMatcher = s.lastMatcher ∧ ∀ id, t.deeds id =
      s.deeds id ++ List.replicate (changed.countP (·.id == id)) .change := by
  induction changed generalizing s with
  | nil =>
      obtain rfl := Except.ok.inj h
      exact ⟨rfl, rfl, fun id => (List.append_nil _).symm⟩
  | cons m more ih =>
      rw [recordChanges, List.foldlM_cons] at h
      obtain ⟨u, hRecord, h⟩ := bind_eq_ok_iff.1 h
      obtain ⟨hRows, hLast, hDeeds⟩ := ih h
      have hLog := isSome_log_of_record hRecord
      obtain rfl := record_eq_ok hRecord
      refine ⟨hRows, hLast, fun id => ?_⟩
      rw [hDeeds, deeds_withLine hLog, List.append_assoc, List.countP_cons]
      by_cases hId : m.id = id
      · simp [hId, List.replicate_succ]
      · simp [hId]

/-- A renaming that succeeds has lines for rows of the table only, and for all rows that change. -/
theorem relabelRows_eq_ok {old new actor : String} {now : Int} {report : RenameReport}
    (h : relabelRows old new actor now s = .ok (report, t)) :
    ∃ nested changed,
      recordChanges actor now changed { s with rows := s.rows.map (Row.relabel old new nested) } =
        .ok t ∧
      (∀ m ∈ changed, ∃ r ∈ s.rows, r.id = m.id) ∧
      ∀ r ∈ s.rows, (∀ m ∈ changed, m.id ≠ r.id) → r.relabel old new nested = r := by
  unfold relabelRows at h
  obtain ⟨-, -, h⟩ := bind_eq_ok_iff.1 h
  obtain ⟨direct, hDirect, h⟩ := bind_eq_ok_iff.1 h
  obtain ⟨naming, hNaming, h⟩ := bind_eq_ok_iff.1 h
  obtain ⟨candidates, hCandidates, hNames⟩ := bind_eq_ok_iff.1 hNaming
  have hSubset : ∀ m ∈ naming, m ∈ candidates := by
    rw [← Except.ok.inj hNames]
    exact fun m hm => List.mem_of_mem_filter hm
  dsimp only at h
  split at h
  next => exact absurd h throw_bind_ne_ok
  next =>
    obtain ⟨-, -, h⟩ := bind_eq_ok_iff.1 h
    obtain ⟨t', hRecord, hPair⟩ := bind_eq_ok_iff.1 h
    obtain ⟨-, rfl⟩ := Prod.mk.inj (Except.ok.inj hPair)
    refine ⟨_, _, hRecord, fun m hm => ?_, fun r hr hNone => ?_⟩
    · rcases exists_merged_iff.1 ⟨m, hm, rfl⟩ with hBy | ⟨n, hn, hSame⟩
      · obtain ⟨r, hr, -, hId⟩ := (exists_selected_iff hDirect m.id).1 hBy
        exact ⟨r, hr, hId⟩
      · have hCandidate := hSubset n (List.mem_of_mem_filter hn)
        obtain ⟨r, hr, -, hId⟩ := (exists_selected_iff hCandidates m.id).1 ⟨n, hCandidate, hSame⟩
        exact ⟨r, hr, hId⟩
    · have hCategory : r.category ≠ old := by
        intro hOld
        have hBy := (exists_selected_iff hDirect r.id).2 ⟨r, hr, by simpa using hOld, rfl⟩
        obtain ⟨m, hm, hId⟩ := exists_merged_iff.2 (Or.inl hBy)
        exact hNone m hm hId
      have hGroups : (naming.filter fun m => (Group.relabelAll old new m.groups).2 != 0).find?
          (·.id == r.id) = none := by
        rw [List.find?_eq_none]
        intro m hm hId
        obtain ⟨n, hn, hSame⟩ := exists_merged_iff.2 (Or.inr ⟨m, hm, beq_iff_eq.1 hId⟩)
        exact hNone n hn hSame
      rw [Row.relabel, hGroups, if_neg hCategory]

theorem relabelRows_proceeds {old new actor : String} {now : Int} {report : RenameReport}
    (h : relabelRows old new actor now s = .ok (report, t)) : Proceeds s t := by
  obtain ⟨nested, changed, hRecord, hThere, hElse⟩ := relabelRows_eq_ok h
  obtain ⟨hRows, hLast, hDeeds⟩ := recordChanges_eq_ok hRecord
  refine ⟨Int.le_of_eq hLast.symm, fun id => ?_⟩
  have hDeeds : t.deeds id =
      s.deeds id ++ List.replicate (changed.countP (·.id == id)) .change := hDeeds id
  have hRow : t.row? id = (s.row? id).map (Row.relabel old new nested) := by
    rw [row?, hRows]
    exact List.find?_map
  cases hCount : changed.countP (·.id == id) with
  | zero =>
      rw [hCount, List.replicate_zero, List.append_nil] at hDeeds
      refine .stays ?_ hDeeds
      cases hFound : s.row? id with
      | none => rw [hRow, hFound, Option.map_none]
      | some r =>
          have hId : r.id = id := by simpa using List.find?_some hFound
          rw [hRow, hFound, Option.map_some]
          refine congrArg some (hElse r (List.mem_of_find?_eq_some hFound) fun m hm hSame => ?_)
          exact List.countP_eq_zero.1 hCount m hm (by simpa using hSame.trans hId)
  | succ n =>
      rw [hCount] at hDeeds
      obtain ⟨m, hm, hId⟩ := List.countP_pos_iff.1 (Nat.lt_of_lt_of_eq (Nat.succ_pos n) hCount.symm)
      obtain ⟨r, hr, hSame⟩ := hThere m hm
      have hOld : (s.row? id).isSome :=
        isSome_row?_iff.2 ⟨r, hr, hSame.trans (beq_iff_eq.1 hId)⟩
      exact .goesOn hOld (by rw [hRow, Option.isSome_map, hOld]) n hDeeds

theorem Proceeds.transaction {α : Type} {f : Store → Except Failure (α × Store)}
    (h : ∀ a t, f s = .ok (a, t) → Proceeds s t) : Proceeds s (endOf (transaction f s)) := by
  unfold Store.transaction
  split
  next a t hOk => exact h a t hOk
  next => exact .refl s

/-- A look at the store in the end makes no difference. -/
theorem endOf_bind_ask {α β : Type} (op : Op α) (f : α → Store → Except Failure β) (s : Store) :
    endOf ((op >>= fun a => ask (f a)) s) = endOf (op s) := by
  cases hOp : op s with
  | ok a t =>
      simp only [bind, EStateM.bind, hOp]
      exact endOf_ask (f a) t
  | error e t => simp only [bind, EStateM.bind, hOp, endOf]

/-- What a change does is told by the log. -/
theorem Change.proceeds (s : Store) (c : Change) : Proceeds s (c.apply s) := by
  cases c with
  | add content actor now =>
      rw [Change.apply, addMatcher, endOf_bind_ask]
      refine .transaction fun id t hInsert => ?_
      obtain ⟨-, hLog, rfl⟩ := insertRow_eq_ok hInsert
      exact added_proceeds hLog content actor now
  | update id content actor now =>
      rw [Change.apply, updateMatcher, endOf_bind_ask]
      refine .transaction fun _ t hReplace => ?_
      obtain ⟨hLog, old, hOld, rfl⟩ := replaceRow_eq_ok hReplace
      exact replaced_proceeds (m := ⟨content, id, old.createdAt⟩) hLog (by rw [hOld]; rfl) actor now
  | remove id actor now =>
      refine .transaction fun m t hRemove => ?_
      obtain ⟨hLog, -, hOld, rfl⟩ := removeRow_eq_ok hRemove
      exact removed_proceeds hLog hOld actor now
  | rename old new actor now => exact .transaction fun report t hRename => relabelRows_proceeds hRename
  | addPhrase source content actor now =>
      exact .of_sameTable (addPhrase_changes s source content actor now).table
  | removePhrase id actor now => exact .of_sameTable (removePhrase_changes s id actor now).table
  | addBatch source batch => exact .of_sameTable (putPhrases_sameTable source batch s)

end Phrasebook.Store
