import Mathlib
import Phrasebook.Proofs.Graph.Construction
import Phrasebook.Proofs.Store.Lifetimes

/-!
Reports on the log. Behind every run of operations there is a log whose lines are numbered, and each of its lines is
counted once by the report on all users and once by the report on the contributors of its kind. So both reports come
to the same numbers for every user, and to the length of the log.
-/

namespace Phrasebook

section Sorting

variable {α : Type} {items : List α}

/-- In a list without repetitions no two items stand in both orders. -/
theorem not_sublist_swap (hNodup : items.Nodup) {a b : α} (h : [a, b].Sublist items) : ¬[b, a].Sublist items := by
  classical
  have hPlaces : items.Pairwise fun x y => items.idxOf x < items.idxOf y := by
    rw [List.pairwise_iff_getElem]
    intro i j hi hj hBefore
    rwa [hNodup.idxOf_getElem, hNodup.idxOf_getElem]
  rw [List.pairwise_iff_forall_sublist] at hPlaces
  intro hSwapped
  exact lt_asymm (hPlaces h) (hPlaces hSwapped)

/-- Sorting leaves items that are equal in rank in the order in which they were. -/
theorem pairwise_mergeSort_stable {le : α → α → Bool} (trans : ∀ a b c, le a b → le b c → le a c)
    (total : ∀ a b, le a b || le b a) {Before : α → α → Prop} (hNodup : items.Nodup) (h : items.Pairwise Before) :
    (items.mergeSort le).Pairwise fun a b => le a b = true ∧ (le b a = true → Before a b) := by
  have hSorted := List.pairwise_mergeSort trans total items
  have hOnce : (items.mergeSort le).Nodup := (List.mergeSort_perm items le).nodup_iff.2 hNodup
  have hEither : ∀ a ∈ items, ∀ b ∈ items, a ≠ b → [a, b].Sublist items ∨ [b, a].Sublist items := by
    have hPairs : items.Pairwise fun a b => [a, b].Sublist items ∨ [b, a].Sublist items :=
      List.pairwise_iff_forall_sublist.2 Or.inl
    have : Std.Symm fun a b => [a, b].Sublist items ∨ [b, a].Sublist items := ⟨fun _ _ => Or.symm⟩
    exact fun a ha b hb hNe => hPairs.forall ha hb hNe
  rw [List.pairwise_iff_forall_sublist] at hSorted h ⊢
  intro a b hSublist
  refine ⟨hSorted hSublist, fun hBack => ?_⟩
  have hMem : ∀ x ∈ [a, b], x ∈ items := fun x hx => List.mem_mergeSort.1 (hSublist.subset hx)
  have hNe : a ≠ b := by simpa using hOnce.sublist hSublist
  rcases hEither a (hMem a (by simp)) b (hMem b (by simp)) hNe with hOrder | hOrder
  · exact h hOrder
  · exact absurd (List.pair_sublist_mergeSort trans total hBack hOrder) (not_sublist_swap hOnce hSublist)

end Sorting

namespace Audit

/-- The lines of a log have the numbers from one upwards. -/
def IsNumbered (es : List Entry) : Prop := ∀ (n : Nat) (e : Entry), es[n]? = some e → e.id = n + 1

theorem IsNumbered.concat {es : List Entry} (h : IsNumbered es) {e : Entry} (hNext : e.id = es.length + 1) :
    IsNumbered (es ++ [e]) := by
  intro n e' hLine
  rw [List.getElem?_append] at hLine
  split at hLine
  next hOld => exact h n e' hLine
  next hNew =>
    obtain ⟨hLast, rfl⟩ : n - es.length = 0 ∧ e = e' := by simpa [List.getElem?_singleton] using hLine
    rw [hNext]
    omega

theorem IsNumbered.pairwise {es : List Entry} (h : IsNumbered es) : es.Pairwise (·.id < ·.id) := by
  rw [List.pairwise_iff_getElem]
  intro i j hi hj hBefore
  rw [h i es[i] (List.getElem?_eq_getElem hi), h j es[j] (List.getElem?_eq_getElem hj)]
  omega

end Audit

namespace Store

variable {s t : Store}

/-- There is a log, and its lines are numbered. -/
def IsLogged (s : Store) : Prop := ∃ es, s.log = some es ∧ Audit.IsNumbered es

namespace IsLogged

theorem withLine (h : s.IsLogged) (actor : String) (action : Audit.Action) (subject : Audit.Subject)
    (object : Int) (label : String) (now : Int) :
    (s.withLine actor action subject object label now).IsLogged := by
  obtain ⟨es, hLog, hNumbered⟩ := h
  refine ⟨es ++ [⟨es.length + 1, actor, action, subject, object, label, now⟩], ?_, hNumbered.concat rfl⟩
  rw [Store.withLine, hLog, Option.map_some]

theorem congr (h : s.IsLogged) (hLog : t.log = s.log) : t.IsLogged := by
  rwa [IsLogged, hLog]

theorem recordChanges {actor : String} {now : Int} {changed : List Matcher} (h : s.IsLogged)
    (hRecord : recordChanges actor now changed s = .ok t) : t.IsLogged := by
  induction changed generalizing s with
  | nil =>
      obtain rfl := Except.ok.inj hRecord
      exact h
  | cons m more ih =>
      rw [Store.recordChanges, List.foldlM_cons] at hRecord
      obtain ⟨u, hLine, hMore⟩ := bind_eq_ok_iff.1 hRecord
      rw [record_eq_ok hLine] at hMore
      exact ih (h.withLine _ _ _ _ _ _) hMore

theorem transaction {α : Type} {f : Store → Except Failure (α × Store)} (h : s.IsLogged)
    (hStep : ∀ a t, f s = .ok (a, t) → t.IsLogged) : (endOf (transaction f s)).IsLogged := by
  unfold Store.transaction
  split
  next a t hOk => exact hStep a t hOk
  next => exact h

/-- What one change keeps. -/
theorem apply (h : s.IsLogged) (c : Change) : (c.apply s).IsLogged := by
  cases c with
  | add content actor now =>
      rw [Change.apply, addMatcher, endOf_bind_ask]
      apply h.transaction
      intro id t hInsert
      obtain ⟨-, -, rfl⟩ := insertRow_eq_ok hInsert
      exact h.withLine _ _ _ _ _ _
  | update id content actor now =>
      rw [Change.apply, updateMatcher, endOf_bind_ask]
      apply h.transaction
      intro _ t hReplace
      obtain ⟨-, old, -, rfl⟩ := replaceRow_eq_ok hReplace
      exact h.withLine _ _ _ _ _ _
  | remove id actor now =>
      apply h.transaction
      intro m t hRemove
      obtain ⟨-, -, -, rfl⟩ := removeRow_eq_ok hRemove
      exact h.withLine _ _ _ _ _ _
  | rename old new actor now =>
      apply h.transaction
      intro report t hRename
      obtain ⟨nested, changed, hRecord, -⟩ := relabelRows_eq_ok hRename
      have hRelabelled : IsLogged { s with rows := s.rows.map (Row.relabel old new nested) } := h
      exact hRelabelled.recordChanges hRecord
  | addPhrase source content actor now =>
      rw [Change.apply, addPhrase, endOf_bind_ask]
      apply h.transaction
      intro id t hInsert
      obtain ⟨-, -, rfl⟩ := insertPhrase_eq_ok hInsert
      exact IsLogged.withLine h _ _ _ _ _ _
  | removePhrase id actor now =>
      apply h.transaction
      intro p t hDrop
      obtain ⟨q, -, hDrop⟩ := bind_eq_ok_iff.1 hDrop
      obtain ⟨t', hRecord, hPair⟩ := bind_eq_ok_iff.1 hDrop
      obtain ⟨-, rfl⟩ := Prod.mk.inj (Except.ok.inj hPair)
      rw [record_eq_ok hRecord]
      exact IsLogged.withLine h _ _ _ _ _ _
  | addBatch source batch => exact h.congr (log_putPhrases source batch s)

theorem operation (h : s.IsLogged) (op : Operation) : (op.apply s).IsLogged := by
  cases op with
  | change c => exact h.apply c
  | preview old new =>
      have hSilent : (Operation.preview old new).IsSilent := trivial
      exact h.congr (Operation.log_apply hSilent s)
  | importFolder limits t cwd folder =>
      have hSilent : (Operation.importFolder limits t cwd folder).IsSilent := trivial
      exact h.congr (Operation.log_apply hSilent s)
  | lockGroups locked => exact h.congr rfl

/-- What a run of operations keeps. -/
theorem run (h : s.IsLogged) (operations : List Operation) : (s.run operations).IsLogged := by
  induction operations generalizing s with
  | nil => exact h
  | cons op more ih => exact ih (h.operation op)

end IsLogged

theorem empty_isLogged : empty.IsLogged := ⟨[], rfl, by simp [Audit.IsNumbered]⟩

/-- A row for every user of the log, in the order of their names without regard to case and then with regard to it,
with the numbers of what the user did. -/
structure IsActivityReport (es : List Audit.Entry) (rows : List Activity) : Prop where
  nodup : (rows.map (·.actor)).Nodup
  actors : ∀ actor, actor ∈ rows.map (·.actor) ↔ ∃ e ∈ es, e.actor = actor
  ordered : rows.Pairwise fun a b => Text.lowerAscii a.actor < Text.lowerAscii b.actor ∨
    Text.lowerAscii a.actor = Text.lowerAscii b.actor ∧ a.actor < b.actor
  created : ∀ r ∈ rows, r.created = es.countP fun e => e.actor = r.actor ∧ e.action = .addition
  edited : ∀ r ∈ rows, r.edited = es.countP fun e => e.actor = r.actor ∧ e.action = .change
  deleted : ∀ r ∈ rows, r.deleted = es.countP fun e => e.actor = r.actor ∧ e.action = .deletion

/-- All that a user did. -/
def Activity.total (a : Activity) : Nat := a.created + a.edited + a.deleted

theorem precedesName_iff {a b : String} : precedesName a b = true ↔
    Text.lowerAscii a < Text.lowerAscii b ∨ Text.lowerAscii a = Text.lowerAscii b ∧ a ≤ b := by
  simp only [precedesName, Bool.or_eq_true, Bool.and_eq_true, decide_eq_true_iff, beq_iff_eq, Bool.not_eq_true',
    decide_eq_false_iff_not, not_lt]

theorem precedesName_trans (a b c : String) (hab : precedesName a b = true) (hbc : precedesName b c = true) :
    precedesName a c = true := by
  rw [precedesName_iff] at hab hbc ⊢
  rcases hab with hab | ⟨hab, hab'⟩ <;> rcases hbc with hbc | ⟨hbc, hbc'⟩
  · exact Or.inl (hab.trans hbc)
  · exact Or.inl (hbc ▸ hab)
  · exact Or.inl (hab ▸ hbc)
  · exact Or.inr ⟨hab.trans hbc, hab'.trans hbc'⟩

theorem precedesName_total (a b : String) : (precedesName a b || precedesName b a) = true := by
  rw [Bool.or_eq_true, precedesName_iff, precedesName_iff]
  rcases lt_trichotomy (Text.lowerAscii a) (Text.lowerAscii b) with hLess | hSame | hMore
  · exact Or.inl (Or.inl hLess)
  · exact (le_total a b).imp (fun h => Or.inr ⟨hSame, h⟩) fun h => Or.inr ⟨hSame.symm, h⟩
  · exact Or.inr (Or.inl hMore)

theorem mem_actorsOf_iff {es : List Audit.Entry} {actor : String} :
    actor ∈ actorsOf es ↔ ∃ e ∈ es, e.actor = actor := by
  rw [actorsOf, List.mem_eraseDups, List.mem_map]

theorem nodup_actorsOf (es : List Audit.Entry) : (actorsOf es).Nodup :=
  (isFirstSeen_eraseDups (es.map Audit.Entry.actor)).nodup

/-- The rows of the report for some lines. -/
def activityRows (es : List Audit.Entry) : List Activity :=
  ((actorsOf es).mergeSort precedesName).map (activityOf es)

theorem activity_eq {es : List Audit.Entry} (h : s.log = some es) : s.activity = .ok (activityRows es) := by
  unfold activity entries
  rw [h]
  rfl

theorem map_actor_activityRows (es : List Audit.Entry) :
    (activityRows es).map (·.actor) = (actorsOf es).mergeSort precedesName := by
  rw [activityRows, List.map_map]
  exact List.map_id _

theorem activityRows_isActivityReport (es : List Audit.Entry) : IsActivityReport es (activityRows es) := by
  have hPerm := List.mergeSort_perm (actorsOf es) precedesName
  have hNodup : ((actorsOf es).mergeSort precedesName).Nodup := hPerm.nodup_iff.2 (nodup_actorsOf es)
  refine ⟨?_, fun actor => ?_, ?_, ?_, ?_, ?_⟩
  · rwa [map_actor_activityRows]
  · rw [map_actor_activityRows, hPerm.mem_iff, mem_actorsOf_iff]
  · rw [activityRows, List.pairwise_map]
    have hSorted := List.pairwise_mergeSort precedesName_trans precedesName_total (actorsOf es)
    refine (hSorted.and hNodup).imp fun {a b} h => ?_
    obtain ⟨hOrder, hNe⟩ := h
    exact (precedesName_iff.1 hOrder).imp_right fun hSame => ⟨hSame.1, lt_of_le_of_ne hSame.2 hNe⟩
  all_goals
    intro r hr
    obtain ⟨actor, -, rfl⟩ := List.mem_map.1 hr
    refine List.countP_congr fun e _ => ?_
    rw [decide_eq_true_iff, Bool.and_eq_true, beq_iff_eq, beq_iff_eq]
    exact Iff.rfl

/-- A row for every user with lines of one kind, and their number: the highest number first, and of equal ones that of
the user whose first line of the kind came earlier. -/
structure IsContributorReport (es : List Audit.Entry) (subject : Audit.Subject) (counts : List (String × Nat)) :
    Prop where
  nodup : (counts.map (·.1)).Nodup
  actors : ∀ actor, actor ∈ counts.map (·.1) ↔ ∃ e ∈ es, e.actor = actor ∧ e.subject = subject
  counted : ∀ c ∈ counts, c.2 = es.countP fun e => e.actor = c.1 ∧ e.subject = subject
  positive : ∀ c ∈ counts, 1 ≤ c.2
  ordered : counts.Pairwise fun a b => b.2 < a.2 ∨ a.2 = b.2 ∧
    ∃ e ∈ es, e.actor = a.1 ∧ e.subject = subject ∧
      ∀ f ∈ es, f.actor = b.1 → f.subject = subject → e.id < f.id

/-- The rows of the report for some lines of one kind. -/
def contributorRows (es : List Audit.Entry) : List (String × Nat) :=
  (countsOf es).mergeSort fun a b => b.2 ≤ a.2

theorem contributorRows_perm (es : List Audit.Entry) : (contributorRows es).Perm (countsOf es) :=
  List.mergeSort_perm _ _

theorem contributors_eq {es : List Audit.Entry} (h : s.log = some es) (subject : Audit.Subject) :
    s.contributors subject = .ok (contributorRows (es.filter (·.subject == subject))) := by
  unfold contributors entries
  rw [h]
  rfl

theorem map_fst_countsOf (es : List Audit.Entry) : (countsOf es).map (·.1) = actorsOf es := by
  rw [countsOf, List.map_map]
  exact List.map_id _

/-- A user who comes before another one has a line in front of all lines of that one. -/
theorem exists_first_line {es : List Audit.Entry} (hAscending : es.Pairwise (·.id < ·.id)) :
    (actorsOf es).Pairwise fun a b =>
      ∃ e ∈ es, e.actor = a ∧ ∀ f ∈ es, f.actor = b → e.id < f.id := by
  have hFirst := isFirstSeen_eraseDups (es.map Audit.Entry.actor)
  refine hFirst.ordered.imp_of_mem fun {a b} ha _ hBefore => ?_
  have hPlace := List.idxOf_lt_length_of_mem ((hFirst.mem_iff a).1 ha)
  have hInside : (es.map (·.actor)).idxOf a < es.length := by rwa [List.length_map] at hPlace
  refine ⟨es[(es.map (·.actor)).idxOf a], List.getElem_mem hInside, ?_, fun f hf hActor => ?_⟩
  · have hName := List.getElem_idxOf hPlace
    rwa [List.getElem_map] at hName
  · obtain ⟨n, hn, rfl⟩ := List.getElem_of_mem hf
    refine List.pairwise_iff_getElem.1 hAscending _ _ hInside hn (lt_of_lt_of_le hBefore ?_)
    by_contra hLater
    have hOther := List.not_of_lt_findIdx (not_le.1 hLater)
    rw [List.getElem_map] at hOther
    exact absurd hActor (by simpa using hOther)

section Kind

variable {es : List Audit.Entry} {subject : Audit.Subject}

theorem mem_actorsOf_filter_iff {actor : String} : actor ∈ actorsOf (es.filter (·.subject == subject)) ↔
    ∃ e ∈ es, e.actor = actor ∧ e.subject = subject := by
  simp only [mem_actorsOf_iff, List.mem_filter, beq_iff_eq]
  exact exists_congr fun e => by tauto

/-- Of two users with lines of a kind, the one who comes first has a line of that kind in front of all such lines of
the other. -/
theorem exists_first_line_ofKind (hAscending : es.Pairwise (·.id < ·.id)) :
    (actorsOf (es.filter (·.subject == subject))).Pairwise fun a b =>
      ∃ e ∈ es, e.actor = a ∧ e.subject = subject ∧
        ∀ f ∈ es, f.actor = b → f.subject = subject → e.id < f.id := by
  refine (exists_first_line (hAscending.filter _)).imp fun {a b} h => ?_
  obtain ⟨e, he, hActor, hLater⟩ := h
  obtain ⟨hLine, hSubject⟩ := List.mem_filter.1 he
  refine ⟨e, hLine, hActor, beq_iff_eq.1 hSubject, fun f hf hOther hSame => ?_⟩
  exact hLater f (List.mem_filter.2 ⟨hf, beq_iff_eq.2 hSame⟩) hOther

theorem eq_countP_of_mem_countsOf {c : String × Nat} (h : c ∈ countsOf (es.filter (·.subject == subject))) :
    c.2 = es.countP fun e => e.actor = c.1 ∧ e.subject = subject := by
  obtain ⟨actor, -, rfl⟩ := List.mem_map.1 h
  rw [List.countP_filter]
  refine List.countP_congr fun e _ => ?_
  simp

theorem nodup_countsOf (es : List Audit.Entry) : ((countsOf es).map (·.1)).Nodup := by
  rw [map_fst_countsOf]
  exact nodup_actorsOf es

theorem contributorRows_ordered (hAscending : es.Pairwise (·.id < ·.id)) :
    (contributorRows (es.filter (·.subject == subject))).Pairwise fun a b => b.2 < a.2 ∨ a.2 = b.2 ∧
      ∃ e ∈ es, e.actor = a.1 ∧ e.subject = subject ∧
        ∀ f ∈ es, f.actor = b.1 → f.subject = subject → e.id < f.id := by
  have hTrans (a b c : String × Nat) (hab : decide (b.2 ≤ a.2) = true) (hbc : decide (c.2 ≤ b.2) = true) :
      decide (c.2 ≤ a.2) = true := by
    rw [decide_eq_true_iff] at hab hbc ⊢
    exact hbc.trans hab
  have hTotal (a b : String × Nat) : (decide (b.2 ≤ a.2) || decide (a.2 ≤ b.2)) = true := by
    rw [Bool.or_eq_true, decide_eq_true_iff, decide_eq_true_iff]
    exact le_total b.2 a.2
  have hFirst : (countsOf (es.filter (·.subject == subject))).Pairwise fun a b =>
      ∃ e ∈ es, e.actor = a.1 ∧ e.subject = subject ∧
        ∀ f ∈ es, f.actor = b.1 → f.subject = subject → e.id < f.id := by
    rw [countsOf, List.pairwise_map]
    exact exists_first_line_ofKind hAscending
  refine (pairwise_mergeSort_stable hTrans hTotal (nodup_countsOf _).of_map hFirst).imp fun {a b} h => ?_
  obtain ⟨hLe, hTie⟩ := h
  rw [decide_eq_true_iff] at hLe hTie
  rcases hLe.lt_or_eq with hLess | hSame
  · exact Or.inl hLess
  · exact Or.inr ⟨hSame.symm, hTie hSame.ge⟩

theorem contributorRows_isContributorReport (hAscending : es.Pairwise (·.id < ·.id)) (subject : Audit.Subject) :
    IsContributorReport es subject (contributorRows (es.filter (·.subject == subject))) := by
  have hPerm := contributorRows_perm (es.filter (·.subject == subject))
  have hCounted : ∀ c ∈ contributorRows (es.filter (·.subject == subject)),
      c.2 = es.countP fun e => e.actor = c.1 ∧ e.subject = subject :=
    fun c hc => eq_countP_of_mem_countsOf (hPerm.mem_iff.1 hc)
  have hActors (actor : String) : actor ∈ (contributorRows (es.filter (·.subject == subject))).map (·.1) ↔
      ∃ e ∈ es, e.actor = actor ∧ e.subject = subject := by
    rw [(hPerm.map _).mem_iff, map_fst_countsOf, mem_actorsOf_filter_iff]
  constructor
  case nodup => exact (hPerm.map _).nodup_iff.2 (nodup_countsOf _)
  case actors => exact hActors
  case counted => exact hCounted
  case positive =>
    intro c hc
    obtain ⟨e, he, hLine⟩ := (hActors c.1).1 (List.mem_map_of_mem hc)
    rw [hCounted c hc]
    exact List.countP_pos_iff.2 ⟨e, he, decide_eq_true hLine⟩
  case ordered => exact contributorRows_ordered hAscending

end Kind

/-- What reports say of the same lines goes together, for every user and in all. -/
structure AreInAccord (es : List Audit.Entry) (rows : List Activity) (counts : List (String × Nat)) : Prop where
  ofActor : ∀ actor, ((rows.filter (·.actor = actor)).map Activity.total).sum =
    ((counts.filter (·.1 = actor)).map (·.2)).sum
  ofRows : (rows.map Activity.total).sum = es.length
  ofCounts : (counts.map (·.2)).sum = es.length

/-- Every line is an addition, a change or a deletion. -/
theorem total_activityOf (es : List Audit.Entry) (actor : String) :
    (activityOf es actor).total = (es.map (·.actor)).count actor := by
  induction es with
  | nil => rfl
  | cons e more ih =>
      simp only [Activity.total, activityOf, List.countP_cons, List.map_cons, List.count_cons] at ih ⊢
      by_cases hActor : e.actor = actor <;> cases hAction : e.action <;> simp [hActor] <;> omega

/-- The numbers of one user, where every user has one row. -/
theorem sum_filter_of_nodup {actors : List String} (hNodup : actors.Nodup) {number : String → Nat} {actor : String}
    (hAbsent : actor ∉ actors → number actor = 0) :
    ((actors.filter (· = actor)).map number).sum = number actor := by
  rw [List.filter_eq, List.map_replicate, List.sum_replicate, hNodup.count]
  split
  next => simp
  next hNone => simp [hAbsent hNone]

theorem count_eq_zero_of_notMem {es : List Audit.Entry} {actor : String} (h : actor ∉ actorsOf es) :
    (es.map (·.actor)).count actor = 0 := by
  rw [List.count_eq_zero]
  exact fun hMem => h (List.mem_eraseDups.2 hMem)

theorem countsOf_eq (es : List Audit.Entry) :
    countsOf es = (actorsOf es).map fun actor => (actor, (es.map (·.actor)).count actor) := by
  refine List.map_congr_left fun actor _ => ?_
  rw [List.count, List.countP_map]
  rfl

/-- The lines of a user under both reports. -/
theorem sum_activityRows (es : List Audit.Entry) (actor : String) :
    (((activityRows es).filter (·.actor = actor)).map Activity.total).sum = (es.map (·.actor)).count actor := by
  have hPerm := List.mergeSort_perm (actorsOf es) precedesName
  rw [activityRows, List.filter_map, List.map_map]
  refine (sum_filter_of_nodup (hPerm.nodup_iff.2 (nodup_actorsOf es)) fun hAbsent => ?_).trans
    (total_activityOf es actor)
  rw [Function.comp_apply, total_activityOf, count_eq_zero_of_notMem (mt hPerm.mem_iff.2 hAbsent)]

theorem sum_contributorRows (es : List Audit.Entry) (actor : String) :
    (((contributorRows es).filter (·.1 = actor)).map (·.2)).sum = (es.map (·.actor)).count actor := by
  rw [(((contributorRows_perm es).filter _).map _).sum_eq, countsOf_eq, List.filter_map, List.map_map]
  exact sum_filter_of_nodup (nodup_actorsOf es) count_eq_zero_of_notMem

theorem sum_count_actors (es : List Audit.Entry) {actors : List String} (h : actors.Perm (actorsOf es)) :
    (actors.map fun actor => (es.map (·.actor)).count actor).sum = es.length := by
  rw [(h.map _).sum_eq, sum_count_eq_length (nodup_actorsOf es) fun _ => List.mem_eraseDups.2, List.length_map]

/-- Each line is about a matcher or about a phrase. -/
theorem filter_subject_perm (es : List Audit.Entry) :
    (es.filter (·.subject == .matcher) ++ es.filter (·.subject == .phrase)).Perm es := by
  have hOther : es.filter (·.subject == .phrase) = es.filter fun e => !(e.subject == .matcher) := by
    refine List.filter_congr fun e _ => ?_
    cases e.subject <;> rfl
  rw [hOther]
  exact List.filter_append_perm _ es

theorem areInAccord (es : List Audit.Entry) :
    AreInAccord es (activityRows es) (contributorRows (es.filter (·.subject == .matcher)) ++
      contributorRows (es.filter (·.subject == .phrase))) := by
  refine ⟨fun actor => ?_, ?_, ?_⟩
  · rw [sum_activityRows, List.filter_append, List.map_append, List.sum_append, sum_contributorRows,
      sum_contributorRows, ← List.count_append, ← List.map_append, ((filter_subject_perm es).map _).count_eq]
  · rw [activityRows, List.map_map, ← sum_count_actors es (List.mergeSort_perm (actorsOf es) precedesName)]
    refine congrArg List.sum (List.map_congr_left fun actor _ => ?_)
    rw [Function.comp_apply, total_activityOf]
  · have hSum (lines : List Audit.Entry) : ((contributorRows lines).map (·.2)).sum = lines.length := by
      rw [((contributorRows_perm lines).map _).sum_eq, countsOf_eq, List.map_map]
      exact sum_count_actors lines (List.Perm.refl _)
    rw [List.map_append, List.sum_append, hSum, hSum, ← List.length_append, (filter_subject_perm es).length_eq]

/-- Behind every run of operations both reports can be made, and every line of the log is counted once in each. -/
theorem reports_account_for_log (operations : List Operation) :
    ∃ es rows matchers phrases, (empty.run operations).log = some es ∧
      (empty.run operations).activity = .ok rows ∧
      (empty.run operations).contributors .matcher = .ok matchers ∧
      (empty.run operations).contributors .phrase = .ok phrases ∧
      IsActivityReport es rows ∧ IsContributorReport es .matcher matchers ∧
      IsContributorReport es .phrase phrases ∧ AreInAccord es rows (matchers ++ phrases) := by
  obtain ⟨es, hLog, hNumbered⟩ := empty_isLogged.run operations
  exact ⟨es, _, _, _, hLog, activity_eq hLog, contributors_eq hLog .matcher, contributors_eq hLog .phrase,
    activityRows_isActivityReport es, contributorRows_isContributorReport hNumbered.pairwise .matcher,
    contributorRows_isContributorReport hNumbered.pairwise .phrase, areInAccord es⟩

end Store

end Phrasebook
