import Mathlib.Data.List.Nodup
import Phrasebook.Proofs.Matcher.Columns
import Phrasebook.Store.Matchers

/-!
The matchers of a store as a table. A store holds a list of matchers when its rows are the rows of these
matchers and nothing stands in the way of the next change. What is looked up is then found in the list.
-/

namespace Phrasebook

/-- The state in which work ends, whether it succeeds or fails. -/
def endOf {ε σ α : Type} : EStateM.Result ε σ α → σ
  | .ok _ s => s
  | .error _ s => s

namespace Store

/-- The rows are those of the matchers `ms`, which are ascending by id and differ in their specs; there is
a log, and the groups are not locked. -/
structure Holds (s : Store) (ms : List Matcher) : Prop where
  rows : s.rows = ms.map Matcher.stored
  storable : ∀ m ∈ ms, m.toContent.IsStorable
  ascending : ms.Pairwise (·.id < ·.id)
  given : ∀ m ∈ ms, m.id ≤ s.lastMatcher
  distinct : ms.Pairwise (·.spec ≠ ·.spec)
  logged : s.log.isSome = true
  unlocked : s.groupsLocked = false

theorem empty_holds : empty.Holds [] :=
  ⟨rfl, by simp, List.Pairwise.nil, by simp, List.Pairwise.nil, rfl, rfl⟩

/-- The store after one more line in its log. -/
def withLine (actor : String) (action : Audit.Action) (subject : Audit.Subject) (object : Int)
    (label : String) (now : Int) (s : Store) : Store :=
  { s with
    log := s.log.map fun entries =>
      entries ++ [⟨entries.length + 1, actor, action, subject, object, label, now⟩] }

section

variable (actor : String) (action : Audit.Action) (subject : Audit.Subject) (object : Int)
  (label : String) (now : Int) (s : Store)

@[simp]
theorem withLine_rows : (s.withLine actor action subject object label now).rows = s.rows := rfl

@[simp]
theorem withLine_lastMatcher :
    (s.withLine actor action subject object label now).lastMatcher = s.lastMatcher := rfl

@[simp]
theorem withLine_phrases :
    (s.withLine actor action subject object label now).phrases = s.phrases := rfl

@[simp]
theorem withLine_lastPhrase :
    (s.withLine actor action subject object label now).lastPhrase = s.lastPhrase := rfl

@[simp]
theorem withLine_groupsLocked :
    (s.withLine actor action subject object label now).groupsLocked = s.groupsLocked := rfl

@[simp]
theorem withLine_isSome_log :
    (s.withLine actor action subject object label now).log.isSome = s.log.isSome := by
  simp [withLine]

theorem record_eq_withLine (h : s.log.isSome = true) :
    s.record actor action subject object label now =
      .ok (s.withLine actor action subject object label now) := by
  obtain ⟨entries, hEntries⟩ := Option.isSome_iff_exists.1 h
  simp only [record, withLine, hEntries, Option.map_some]

end

theorem endOf_ask {α : Type} (f : Store → Except Failure α) (s : Store) :
    endOf (ask f s) = s := by
  unfold ask
  split <;> rfl

theorem eq_of_transaction_eq_error {α : Type} {f : Store → Except Failure (α × Store)} {s t : Store}
    {e : Failure} (h : transaction f s = .error e t) : t = s := by
  unfold transaction at h
  split at h
  next => simp at h
  next => exact (EStateM.Result.error.inj h).2.symm

namespace Holds

variable {s : Store} {ms : List Matcher}

/-- Only rows, ids, log and lock matter. -/
theorem congr {t : Store} (hs : s.Holds ms) (hRows : t.rows = s.rows)
    (hLast : t.lastMatcher = s.lastMatcher) (hLog : t.log.isSome = true)
    (hLock : t.groupsLocked = s.groupsLocked) : t.Holds ms :=
  ⟨hRows.trans hs.rows, hs.storable, hs.ascending, fun m hm => hLast ▸ hs.given m hm, hs.distinct,
    hLog, hLock.trans hs.unlocked⟩

theorem eq_of_id (hs : s.Holds ms) {m n : Matcher} (hm : m ∈ ms) (hn : n ∈ ms) (h : m.id = n.id) :
    m = n := by
  have hNodup : (ms.map (·.id)).Nodup :=
    List.pairwise_map.2 (hs.ascending.imp fun hLt => Int.ne_of_lt hLt)
  exact List.inj_on_of_nodup_map hNodup hm hn h

theorem row?_of_mem (hs : s.Holds ms) {m : Matcher} (hm : m ∈ ms) :
    s.row? m.id = some m.stored := by
  cases hRow : s.row? m.id with
  | none =>
      rw [row?, hs.rows, List.find?_eq_none] at hRow
      exact absurd (hRow m.stored (List.mem_map_of_mem hm)) (by simp)
  | some r =>
      have hId : r.id = m.id := by simpa using List.find?_some hRow
      have hMem : r ∈ s.rows := List.mem_of_find?_eq_some hRow
      rw [hs.rows] at hMem
      obtain ⟨n, hn, rfl⟩ := List.mem_map.1 hMem
      rw [hs.eq_of_id hn hm hId]

theorem row?_of_absent (hs : s.Holds ms) {id : Int} (h : ∀ m ∈ ms, m.id ≠ id) :
    s.row? id = none := by
  rw [row?, hs.rows, List.find?_eq_none]
  intro r hr
  obtain ⟨m, hm, rfl⟩ := List.mem_map.1 hr
  simpa using h m hm

theorem getMatcher_of_mem (hs : s.Holds ms) {m : Matcher} (hm : m ∈ ms) :
    s.getMatcher m.id = .ok m := by
  rw [getMatcher, hs.row?_of_mem hm]
  exact Row.matcher_stored (hs.storable m hm)

theorem getMatcher_of_absent (hs : s.Holds ms) {id : Int} (h : ∀ m ∈ ms, m.id ≠ id) :
    s.getMatcher id = .error (.matcherNotFound id) := by
  rw [getMatcher, hs.row?_of_absent h]

theorem getMatcher_eq_ok_iff (hs : s.Holds ms) {id : Int} {m : Matcher} :
    s.getMatcher id = .ok m ↔ m ∈ ms ∧ m.id = id := by
  constructor
  · intro hGet
    by_cases hAbsent : ∀ n ∈ ms, n.id ≠ id
    · rw [hs.getMatcher_of_absent hAbsent] at hGet
      exact absurd hGet (by simp)
    · push Not at hAbsent
      obtain ⟨n, hn, rfl⟩ := hAbsent
      rw [hs.getMatcher_of_mem hn] at hGet
      obtain rfl := Except.ok.inj hGet
      exact ⟨hn, rfl⟩
  · rintro ⟨hm, rfl⟩
    exact hs.getMatcher_of_mem hm

theorem selectMatchers_eq (hs : s.Holds ms) (p : Row → Bool) :
    s.selectMatchers p = .ok (ms.filter fun m => p m.stored) := by
  have hAll : ∀ ns : List Matcher, (∀ m ∈ ns, m.toContent.IsStorable) →
      (ns.map Matcher.stored).mapM Row.matcher = .ok ns := by
    intro ns hStorable
    induction ns with
    | nil => rfl
    | cons n ns ih =>
        rw [List.forall_mem_cons] at hStorable
        rw [List.map_cons, List.mapM_cons, Row.matcher_stored hStorable.1, ih hStorable.2]
        rfl
  rw [selectMatchers, hs.rows, List.filter_map]
  exact hAll _ fun m hm => hs.storable m (List.mem_of_mem_filter hm)

/-- Everything that is held is listed, by id. -/
theorem allMatchers_eq (hs : s.Holds ms) : s.allMatchers = .ok ms := by
  rw [allMatchers, hs.selectMatchers_eq, List.filter_true]

end Holds

end Store

end Phrasebook
