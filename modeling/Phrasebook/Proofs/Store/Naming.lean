import Phrasebook.Proofs.Store.Deeds

/-!
Matchers by the names in their groups. The rows are searched for the name as it is written in JSON, and only
the matchers of the rows that have it are read. In every store that a history leads to, this finds what
reading all matchers and looking through their groups would find.
-/

namespace Phrasebook.Store

/-- The groups of every row are a text that the store has written, and the rows are ascending by id. What the
groups are does not matter: they may be nested too deep to be read again. -/
structure IsWritten (s : Store) : Prop where
  groups : ∀ r ∈ s.rows, ∃ groups, r.groups = groupsText groups
  ascending : s.rows.Pairwise (·.id < ·.id)
  given : ∀ r ∈ s.rows, r.id ≤ s.lastMatcher

theorem empty_isWritten : empty.IsWritten :=
  ⟨by simp [empty], List.Pairwise.nil, by simp [empty]⟩

namespace IsWritten

variable {s t : Store}

/-- Only rows and ids matter. -/
theorem congr (hs : s.IsWritten) (hRows : t.rows = s.rows) (hLast : t.lastMatcher = s.lastMatcher) :
    t.IsWritten where
  groups := hRows ▸ hs.groups
  ascending := hRows ▸ hs.ascending
  given := hRows ▸ hLast ▸ hs.given

theorem added (hs : s.IsWritten) (c : Matcher.Content) (actor : String) (now : Int) :
    (s.added c actor now).IsWritten := by
  refine ⟨?_, ?_, ?_⟩
  · intro r hr
    rcases List.mem_append.1 hr with hr | hr
    · exact hs.groups r hr
    · rw [List.mem_singleton.1 hr]
      exact ⟨c.groups, rfl⟩
  · refine List.pairwise_append.2 ⟨hs.ascending, List.pairwise_singleton _ _, fun r hr new hNew => ?_⟩
    rw [List.mem_singleton.1 hNew]
    exact Int.lt_add_one_of_le (hs.given r hr)
  · intro r hr
    rcases List.mem_append.1 hr with hr | hr
    · exact Int.le_trans (hs.given r hr) (Int.le_of_lt (Int.lt_succ s.lastMatcher))
    · rw [List.mem_singleton.1 hr]
      exact Int.le_refl _

/-- Rows may change in their places, as long as their ids stay and their groups are written. -/
theorem of_map (hs : s.IsWritten) {change : Row → Row} (hRows : t.rows = s.rows.map change)
    (hLast : t.lastMatcher = s.lastMatcher) (hIds : ∀ r, (change r).id = r.id)
    (hGroups : ∀ r ∈ s.rows, ∃ groups, (change r).groups = groupsText groups) : t.IsWritten := by
  refine ⟨?_, ?_, ?_⟩
  · rw [hRows, List.forall_mem_map]
    exact hGroups
  · rw [hRows, List.pairwise_map]
    exact hs.ascending.imp fun hLt => by rwa [hIds, hIds]
  · rw [hRows, hLast, List.forall_mem_map]
    exact fun r hr => (hIds r).symm ▸ hs.given r hr

theorem replaced (hs : s.IsWritten) (m : Matcher) (actor : String) (now : Int) :
    (s.replaced m actor now).IsWritten := by
  refine hs.of_map rfl rfl (fun r => ?_) fun r hr => ?_
  · split
    next hId => exact (beq_iff_eq.1 hId).symm
    next => rfl
  · split
    next => exact ⟨m.groups, rfl⟩
    next => exact hs.groups r hr

theorem removed (hs : s.IsWritten) (m : Matcher) (actor : String) (now : Int) :
    (s.removed m actor now).IsWritten where
  groups r hr := hs.groups r (List.mem_of_mem_filter hr)
  ascending := hs.ascending.filter _
  given r hr := hs.given r (List.mem_of_mem_filter hr)

theorem relabelRows (hs : s.IsWritten) {old new actor : String} {now : Int} {report : RenameReport}
    (h : relabelRows old new actor now s = .ok (report, t)) : t.IsWritten := by
  obtain ⟨nested, changed, hRecord, -, -⟩ := relabelRows_eq_ok h
  obtain ⟨hRows, hLast, -⟩ := recordChanges_eq_ok hRecord
  refine hs.of_map hRows hLast (fun r => rfl) fun r hr => ?_
  rw [Row.relabel]
  dsimp only
  split
  next m _ => exact ⟨_, rfl⟩
  next => exact hs.groups r hr

/-- A transaction that fails changes nothing. -/
theorem transaction (hs : s.IsWritten) {α : Type} {f : Store → Except Failure (α × Store)}
    (h : ∀ a t, f s = .ok (a, t) → t.IsWritten) : (endOf (Store.transaction f s)).IsWritten := by
  unfold Store.transaction
  split
  next a t hOk => exact h a t hOk
  next => exact hs

/-- One change, successful or not. -/
theorem apply (hs : s.IsWritten) (c : Change) : (c.apply s).IsWritten := by
  cases c with
  | add content actor now =>
      rw [Change.apply, addMatcher, endOf_bind_ask]
      refine hs.transaction fun id t hInsert => ?_
      obtain ⟨-, -, rfl⟩ := insertRow_eq_ok hInsert
      exact hs.added content actor now
  | update id content actor now =>
      rw [Change.apply, updateMatcher, endOf_bind_ask]
      refine hs.transaction fun _ t hReplace => ?_
      obtain ⟨-, old, -, rfl⟩ := replaceRow_eq_ok hReplace
      exact hs.replaced _ actor now
  | remove id actor now =>
      refine hs.transaction fun m t hRemove => ?_
      obtain ⟨-, -, -, rfl⟩ := removeRow_eq_ok hRemove
      exact hs.removed m actor now
  | rename old new actor now => exact hs.transaction fun report t hRename => hs.relabelRows hRename
  | addPhrase source content actor now =>
      have hTable := (addPhrase_changes s source content actor now).table
      exact hs.congr hTable.rows hTable.lastMatcher
  | removePhrase id actor now =>
      have hTable := (removePhrase_changes s id actor now).table
      exact hs.congr hTable.rows hTable.lastMatcher
  | addBatch source batch =>
      have hTable := putPhrases_sameTable source batch s
      exact hs.congr hTable.rows hTable.lastMatcher

/-- A whole history of changes, whatever contents it brings. -/
theorem after (hs : s.IsWritten) (changes : List Change) : (s.after changes).IsWritten := by
  induction changes generalizing s with
  | nil => exact hs
  | cons c more ih => exact ih (hs.apply c)

end IsWritten

/-- Groups that were written and can be read are read as they were. -/
theorem eq_of_readGroups? {groups read : List Group} (h : readGroups? (groupsText groups) = some read) :
    read = groups := by
  have hPlain : (Group.listToJson groups).isPlain = true := Group.arePlain_toJsons groups
  rw [readGroups?, groupsText, Json.parse?_compact hPlain, Option.bind_some, Json.maxDepth,
    Group.listOfJson?_listToJson, Option.ite_none_right_eq_some] at h
  exact (Option.some.inj h.2).symm

theorem Row.readGroups?_of_matcher {r : Row} {m : Matcher} (h : r.matcher = .ok m) :
    readGroups? r.groups = some m.groups := by
  unfold Row.matcher at h
  split at h
  next replacements groups _ hGroups =>
    obtain rfl := Except.ok.inj h
    exact hGroups
  next => simp at h

/-- No row is passed over whose matcher has the name as a leaf. -/
theorem IsWritten.mayMention {s : Store} (hs : s.IsWritten) {r : Row} (hr : r ∈ s.rows) {m : Matcher}
    (hRead : r.matcher = .ok m) {name : String} (hLeaf : name ∈ Group.leavesOf m.groups) :
    r.mayMention name = true := by
  obtain ⟨groups, hText⟩ := hs.groups r hr
  have hGroups := Row.readGroups?_of_matcher hRead
  rw [hText] at hGroups
  rw [eq_of_readGroups? hGroups] at hLeaf
  rw [Row.mayMention, hText]
  exact Text.occursIn_iff.2 (Group.quoted_infix_compact hLeaf)

/-- Rows may be passed over before they are read when nothing that is asked for is lost by it. -/
theorem exists_mapM_filter {rows : List Row} {ms : List Matcher} {p : Row → Bool} {q : Matcher → Bool}
    (hKept : ∀ r ∈ rows, ∀ m, r.matcher = .ok m → q m = true → p r = true)
    (h : rows.mapM Row.matcher = .ok ms) :
    ∃ found, (rows.filter p).mapM Row.matcher = .ok found ∧ found.filter q = ms.filter q := by
  induction rows generalizing ms with
  | nil =>
      obtain rfl := Except.ok.inj h
      exact ⟨[], rfl, rfl⟩
  | cons r more ih =>
      rw [List.forall_mem_cons] at hKept
      rw [List.mapM_cons] at h
      obtain ⟨m, hRead, h⟩ := bind_eq_ok_iff.1 h
      obtain ⟨ns, hMore, h⟩ := bind_eq_ok_iff.1 h
      obtain rfl := Except.ok.inj h
      obtain ⟨found, hFound, hSame⟩ := ih hKept.2 hMore
      cases hRow : p r with
      | true =>
          refine ⟨m :: found, ?_, by rw [List.filter_cons, List.filter_cons, hSame]⟩
          rw [List.filter_cons_of_pos hRow, List.mapM_cons, hRead, hFound]
          rfl
      | false =>
          have hNot : ¬q m = true := fun hMatcher => by
            rw [hKept.1 m hRead hMatcher] at hRow
            exact Bool.noConfusion hRow
          refine ⟨found, ?_, by rw [hSame, List.filter_cons_of_neg hNot]⟩
          rw [List.filter_cons_of_neg (by simp [hRow]), hFound]

theorem IsWritten.matchersNaming_eq {s : Store} (hs : s.IsWritten) {ms : List Matcher}
    (hAll : s.allMatchers = .ok ms) (name : String) :
    s.matchersNaming name = .ok (ms.filter fun m => Group.mention m.groups name) := by
  rw [allMatchers, selectMatchers, List.filter_true] at hAll
  obtain ⟨found, hFound, hSame⟩ := exists_mapM_filter
    (fun r hr m hRead hMention => hs.mayMention hr hRead (Group.mention_iff.1 hMention)) hAll
  have hSelected : s.selectMatchers (·.mayMention name) = .ok found := hFound
  rw [matchersNaming, hSelected, ← hSame]
  rfl

theorem IsWritten.pairwise_id {s : Store} (hs : s.IsWritten) {ms : List Matcher}
    (hAll : s.allMatchers = .ok ms) : ms.Pairwise (·.id < ·.id) := by
  rw [allMatchers, selectMatchers, List.filter_true] at hAll
  have hIds : (ms.map (·.id)).Pairwise (· < ·) := by
    rw [ids_of_mapM hAll, List.pairwise_map]
    exact hs.ascending
  exact List.pairwise_map.1 hIds

/-- In every store that a history leads to, searching for a name gives the matchers with a leaf of this name,
ascending by id, as they are found among all matchers. No row is passed over whose matcher has such a leaf.
All matchers can be read when their contents come from validation and their groups are not nested too deep. -/
theorem naming_eq_scan (history : List Change) (name : String) :
    (∀ ms, (empty.after history).allMatchers = .ok ms →
      ms.Pairwise (·.id < ·.id) ∧
      (empty.after history).matchersNaming name =
        .ok (ms.filter fun m => ∃ g ∈ m.groups, g.HasLeaf name)) ∧
    (∀ r ∈ (empty.after history).rows, ∀ m, r.matcher = .ok m → (∃ g ∈ m.groups, g.HasLeaf name) →
      r.mayMention name = true) ∧
    ((∀ c ∈ history, c.IsAdmissible) → ∃ ms, (empty.after history).allMatchers = .ok ms) := by
  have hs := empty_isWritten.after history
  refine ⟨fun ms hAll => ⟨hs.pairwise_id hAll, ?_⟩, fun r hr m hRead hLeaf => ?_, fun hAdmissible => ?_⟩
  · rw [hs.matchersNaming_eq hAll name]
    refine congrArg Except.ok (List.filter_congr fun m _ => ?_)
    rw [Bool.eq_iff_iff, Group.mention_iff, Group.mem_leavesOf_iff, decide_eq_true_iff]
  · exact hs.mayMention hr hRead (Group.mem_leavesOf_iff.2 hLeaf)
  · obtain ⟨ms, hFollows⟩ := empty_holds.after_follows hAdmissible
    exact ⟨ms, hFollows.holds.allMatchers_eq⟩

/-- The greeting to a city whose name has characters that are escaped in JSON. -/
def escapedGreeting : Matcher.Content :=
  { Matcher.Content.greeting with groups := [.list [.name "\"\\\n", .null]] }

/-- The name is found though it is written otherwise in the row, and a part of it is not found. -/
theorem escapedGreeting_found :
    (empty.after [.add escapedGreeting "ann" 0]).matchersNaming "\"\\\n" =
      .ok [⟨escapedGreeting, 1, 0⟩] ∧
    (empty.after [.add escapedGreeting "ann" 0]).matchersNaming "\\" = .ok [] := by
  have hStorable : escapedGreeting.IsStorable :=
    ⟨Matcher.Content.isLegal_greeting.spec, by decide⟩
  have hFirst : empty.after [.add escapedGreeting "ann" 0] = empty.added escapedGreeting "ann" 0 := by
    rw [after, List.foldl_cons, List.foldl_nil, Change.apply,
      empty_holds.addMatcher_of_fresh hStorable (by simp), endOf]
  have hAll := (empty_holds.added_holds hStorable (by simp) "ann" 0).allMatchers_eq
  rw [← hFirst] at hAll
  have hWhole := ((naming_eq_scan [.add escapedGreeting "ann" 0] "\"\\\n").1 _ hAll).2
  have hPart := ((naming_eq_scan [.add escapedGreeting "ann" 0] "\\").1 _ hAll).2
  rw [List.nil_append, List.filter_cons_of_pos (by decide)] at hWhole
  rw [List.nil_append, List.filter_cons_of_neg (by decide)] at hPart
  exact ⟨hWhole, hPart⟩

end Phrasebook.Store
