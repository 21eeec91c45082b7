import Mathlib.Data.List.Basic
import Phrasebook.Proofs.Store.Table
import Phrasebook.Store.Phrases

/-!
Changes of phrases. They keep the phrases of a store sound, and nothing about matchers changes with
them: neither the rows nor the lines of the log that are about matchers.
-/

namespace Phrasebook.Store

/-- Phrases are ascending by id, each has the digest of its content, and no two of one source have the
same digest. -/
structure PhrasesSound (s : Store) : Prop where
  ascending : s.phrases.Pairwise (·.id < ·.id)
  given : ∀ p ∈ s.phrases, p.id ≤ s.lastPhrase
  digest : ∀ p ∈ s.phrases, p.digest = Text.digest p.content
  distinct : s.phrases.Pairwise fun p q => ¬(p.source = q.source ∧ p.digest = q.digest)

theorem empty_phrasesSound : empty.PhrasesSound :=
  ⟨List.Pairwise.nil, by simp [empty], by simp [empty], List.Pairwise.nil⟩

/-- The lines of the log that are about matchers. -/
def matcherLines (s : Store) : Option (List Audit.Entry) :=
  s.log.map fun entries => entries.filter (·.subject == .matcher)

/-- Nothing that concerns matchers differs between two stores. -/
structure SameTable (s t : Store) : Prop where
  rows : t.rows = s.rows
  lastMatcher : t.lastMatcher = s.lastMatcher
  lines : t.matcherLines = s.matcherLines
  locked : t.groupsLocked = s.groupsLocked

namespace SameTable

theorem refl (s : Store) : SameTable s s := ⟨rfl, rfl, rfl, rfl⟩

theorem trans {s t u : Store} (h : SameTable s t) (k : SameTable t u) : SameTable s u :=
  ⟨k.rows.trans h.rows, k.lastMatcher.trans h.lastMatcher, k.lines.trans h.lines,
    k.locked.trans h.locked⟩

theorem isSome_log {s t : Store} (h : SameTable s t) : t.log.isSome = s.log.isSome := by
  have hSome := congrArg Option.isSome h.lines
  simpa [matcherLines] using hSome

theorem holds {s t : Store} (h : SameTable s t) {ms : List Matcher} (hs : s.Holds ms) :
    t.Holds ms :=
  hs.congr h.rows h.lastMatcher (h.isSome_log.trans hs.logged) h.locked

/-- A line about a phrase is no line about a matcher. -/
theorem withLine (s : Store) (phrases : List Phrase) (lastPhrase : Int) (actor : String)
    (action : Audit.Action) (object : Int) (label : String) (now : Int) :
    SameTable s
      (Store.withLine actor action .phrase object label now { s with phrases, lastPhrase }) where
  rows := rfl
  lastMatcher := rfl
  locked := rfl
  lines := by
    have hOther : ((Audit.Subject.phrase : Audit.Subject) == .matcher) = false := rfl
    simp [matcherLines, Store.withLine, Function.comp_def, List.filter_append, hOther]

end SameTable

theorem record_eq_ok {s t : Store} {actor : String} {action : Audit.Action}
    {subject : Audit.Subject} {object : Int} {label : String} {now : Int}
    (h : s.record actor action subject object label now = .ok t) :
    t = s.withLine actor action subject object label now := by
  cases hLog : s.log with
  | none => simp [record, hLog] at h
  | some entries =>
      rw [record_eq_withLine _ _ _ _ _ _ _ (by rw [hLog]; rfl)] at h
      exact (Except.ok.inj h).symm

theorem hasPhrase_eq_false_iff {s : Store} {source digest : String} :
    s.hasPhrase source digest = false ↔
      ∀ p ∈ s.phrases, ¬(p.source = source ∧ p.digest = digest) := by
  simp [hasPhrase]

/-- A new phrase keeps the phrases sound when its source does not have its digest. -/
theorem PhrasesSound.append {s : Store} (hs : s.PhrasesSound) {source content : String}
    (hFresh : s.hasPhrase source (Text.digest content) = false) :
    ({ s with
      phrases := s.phrases ++ [⟨s.lastPhrase + 1, source, content, Text.digest content⟩]
      lastPhrase := s.lastPhrase + 1 } : Store).PhrasesSound := by
  rw [hasPhrase_eq_false_iff] at hFresh
  refine ⟨?_, ?_, ?_, ?_⟩
  · refine List.pairwise_append.2 ⟨hs.ascending, List.pairwise_singleton _ _, fun p hp q hq => ?_⟩
    rw [List.mem_singleton.1 hq]
    exact Int.lt_add_one_of_le (hs.given p hp)
  · intro p hp
    rcases List.mem_append.1 hp with hp | hp
    · exact Int.le_trans (hs.given p hp) (Int.le_of_lt (Int.lt_succ s.lastPhrase))
    · obtain rfl := List.mem_singleton.1 hp
      exact Int.le_refl _
  · intro p hp
    rcases List.mem_append.1 hp with hp | hp
    · exact hs.digest p hp
    · rw [List.mem_singleton.1 hp]
  · refine List.pairwise_append.2 ⟨hs.distinct, List.pairwise_singleton _ _, fun p hp q hq => ?_⟩
    rw [List.mem_singleton.1 hq]
    exact hFresh p hp

/-- Only phrases and their last id matter. -/
theorem PhrasesSound.congr {s t : Store} (hs : s.PhrasesSound) (hPhrases : t.phrases = s.phrases)
    (hLast : s.lastPhrase ≤ t.lastPhrase) : t.PhrasesSound where
  ascending := hPhrases ▸ hs.ascending
  given p hp := Int.le_trans (hs.given p (hPhrases ▸ hp)) hLast
  digest p hp := hs.digest p (hPhrases ▸ hp)
  distinct := hPhrases ▸ hs.distinct

/-- What a change of the phrases alone keeps. -/
structure ChangesPhrases (s t : Store) : Prop where
  table : SameTable s t
  sound : s.PhrasesSound → t.PhrasesSound

theorem ChangesPhrases.refl (s : Store) : ChangesPhrases s s := ⟨.refl s, fun h => h⟩

theorem bind_eq_ok_iff {ε α β : Type} {x : Except ε α} {f : α → Except ε β} {b : β} :
    x >>= f = .ok b ↔ ∃ a, x = .ok a ∧ f a = .ok b := by
  cases x with
  | error e => simp [bind, Except.bind]
  | ok a => simp [bind, Except.bind]

theorem throw_bind_ne_ok {ε α β : Type} {e : ε} {f : α → Except ε β} {b : β} :
    throw e >>= f ≠ .ok b := by
  simp [throw, throwThe, MonadExceptOf.throw, bind, Except.bind]

theorem insertPhrase_eq_ok {s t : Store} {source content actor : String} {now id : Int}
    (h : insertPhrase source content actor now s = .ok (id, t)) :
    id = s.lastPhrase + 1 ∧ s.hasPhrase (Text.trim source) (Text.digest content) = false ∧
      t = withLine actor .addition .phrase id (Text.trim source) now
        { s with
          phrases := s.phrases ++ [⟨id, Text.trim source, content, Text.digest content⟩]
          lastPhrase := id } := by
  unfold insertPhrase at h
  obtain ⟨-, -, h⟩ := bind_eq_ok_iff.1 h
  dsimp only at h
  split at h
  next => exact absurd h throw_bind_ne_ok
  next hFresh =>
    obtain ⟨t', hRecord, hPair⟩ := bind_eq_ok_iff.1 h
    obtain ⟨rfl, rfl⟩ := Prod.mk.inj (Except.ok.inj hPair)
    exact ⟨rfl, Bool.eq_false_iff.2 hFresh, record_eq_ok hRecord⟩

theorem insertPhrase_changes {s t : Store} {source content actor : String} {now id : Int}
    (h : insertPhrase source content actor now s = .ok (id, t)) : ChangesPhrases s t := by
  obtain ⟨rfl, hFresh, rfl⟩ := insertPhrase_eq_ok h
  exact ⟨SameTable.withLine s _ _ _ _ _ _ _, fun hs => (hs.append hFresh).congr rfl (Int.le_refl _)⟩

theorem dropPhrase_changes {s t : Store} {p : Phrase} {actor : String} {now id : Int}
    (h : dropPhrase id actor now s = .ok (p, t)) : ChangesPhrases s t := by
  unfold dropPhrase at h
  obtain ⟨q, -, h⟩ := bind_eq_ok_iff.1 h
  obtain ⟨t', hRecord, hPair⟩ := bind_eq_ok_iff.1 h
  obtain ⟨-, rfl⟩ := Prod.mk.inj (Except.ok.inj hPair)
  rw [record_eq_ok hRecord]
  refine ⟨SameTable.withLine s _ _ _ _ _ _ _, fun hs => ⟨?_, ?_, ?_, ?_⟩⟩
  · exact hs.ascending.filter _
  · exact fun p hp => hs.given p (List.mem_of_mem_filter hp)
  · exact fun p hp => hs.digest p (List.mem_of_mem_filter hp)
  · exact hs.distinct.filter _

theorem addPhrase_changes (s : Store) (source content actor : String) (now : Int) :
    ChangesPhrases s (endOf (addPhrase source content actor now s)) := by
  cases hInsert : insertPhrase source content actor now s with
  | error e =>
      simp only [addPhrase, bind, EStateM.bind, transaction, hInsert]
      exact .refl s
  | ok r =>
      have hChanges := insertPhrase_changes hInsert
      simp only [addPhrase, bind, EStateM.bind, transaction, hInsert, endOf_ask]
      exact hChanges

theorem removePhrase_changes (s : Store) (id : Int) (actor : String) (now : Int) :
    ChangesPhrases s (endOf (removePhrase id actor now s)) := by
  cases hDrop : dropPhrase id actor now s with
  | error e =>
      simp only [removePhrase, transaction, hDrop]
      exact .refl s
  | ok r =>
      have hChanges := dropPhrase_changes hDrop
      simp only [removePhrase, transaction, hDrop]
      exact hChanges

theorem putPhrase_sameTable (source : String) (s : Store) (content digest : String) :
    SameTable s (putPhrase source s content digest).1 := by
  unfold putPhrase
  dsimp only
  split <;> exact ⟨rfl, rfl, rfl, rfl⟩

/-- A batch concerns no matcher. -/
theorem putPhrases_sameTable (source : String) (batch : List (String × String)) (s : Store) :
    SameTable s (putPhrases source batch s).1 := by
  induction batch generalizing s with
  | nil => exact .refl s
  | cons e more ih => exact (putPhrase_sameTable source s e.1 e.2).trans (ih _)

theorem PhrasesSound.putPhrase {s : Store} (hs : s.PhrasesSound) (source content : String) :
    (putPhrase source s content (Text.digest content)).1.PhrasesSound := by
  unfold Store.putPhrase
  dsimp only
  split
  next => exact hs.congr rfl (Int.le_of_lt (Int.lt_succ s.lastPhrase))
  next hFresh => exact hs.append (Bool.eq_false_iff.2 hFresh)

/-- A batch that comes with the digests of its contents keeps the phrases sound. -/
theorem PhrasesSound.putPhrases {s : Store} (hs : s.PhrasesSound) (source : String)
    {batch : List (String × String)} (hDigests : ∀ e ∈ batch, e.2 = Text.digest e.1) :
    (putPhrases source batch s).1.PhrasesSound := by
  induction batch generalizing s with
  | nil => exact hs
  | cons e more ih =>
      obtain ⟨content, digest⟩ := e
      rw [List.forall_mem_cons] at hDigests
      obtain rfl : digest = Text.digest content := hDigests.1
      exact ih (hs.putPhrase source content) hDigests.2

end Phrasebook.Store
