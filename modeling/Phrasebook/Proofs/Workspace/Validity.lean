import Phrasebook.Proofs.Workspace.Changes

/-!
Validity of the store. Whatever commands are carried out, in whatever order and with whatever success, every
matcher in the store is a fixed point of validation, and nothing is in the store twice.
-/

namespace Phrasebook

/-- All rows are those of the matchers `ms`. Each matcher is what its own draft is validated to, no two
matchers have the same id or the same raw text or pattern with flags, each phrase has the digest of its
content, and no source has a content twice. -/
structure Store.IsValid (s : Store) (ms : List Matcher) : Prop where
  all : s.allMatchers = .ok ms
  fixed : ∀ m ∈ ms, (Draft.ofContent m.toContent).validate = .ok m.toContent
  legal : ∀ m ∈ ms, m.toContent.IsLegal
  ids : ms.Pairwise (·.id ≠ ·.id)
  specs : ms.Pairwise (·.spec ≠ ·.spec)
  digests : ∀ p ∈ s.phrases, p.digest = Text.digest p.content
  phrases : s.phrases.Pairwise fun p q => ¬(p.source = q.source ∧ p.content = q.content)

theorem Store.Holds.isValid {s : Store} {ms : List Matcher} (hs : s.Holds ms)
    (hLegal : ∀ m ∈ ms, m.toContent.IsLegal) (hSound : s.PhrasesSound) : s.IsValid ms where
  all := hs.allMatchers_eq
  fixed m hm := Draft.validate_ofContent (hLegal m hm)
  legal := hLegal
  ids := hs.ascending.imp fun hLt => Int.ne_of_lt hLt
  specs := hs.distinct
  digests := hSound.digest
  phrases := by
    refine hSound.distinct.imp_of_mem fun {p q} hp hq hDiffer hSame => hDiffer ⟨hSame.1, ?_⟩
    rw [hSound.digest p hp, hSound.digest q hq, hSame.2]

/-- A setup to try things with: the standard settings, and every graph is drawn as an empty file. -/
def Setup.plain : Setup := .make {} [] fun _ => .ok (some [])

namespace Workspace

/-- The workspace behind a history of commands, each given with the time at which it is carried out. A
command that fails leaves what it did before it failed. -/
def after (u : Setup) (w : Workspace) (history : List (Int × Command)) : Workspace :=
  history.foldl (fun w e => endOf (e.2.run u e.1 w)) w

/-- A history of commands is a history of proper changes of the store. -/
theorem exists_changes_after (u : Setup) (w : Workspace) {history : List (Int × Command)}
    (hReadable : ∀ e ∈ history, e.2.IsReadable) :
    ∃ changes, (∀ c ∈ changes, c.IsProper) ∧
      (after u w history).store = w.store.after changes := by
  induction history generalizing w with
  | nil => exact ⟨[], by simp, rfl⟩
  | cons e more ih =>
      rw [List.forall_mem_cons] at hReadable
      obtain ⟨changes, hProper, hEnd⟩ := Command.run_madeOf u e.1 hReadable.1 w
      obtain ⟨later, hLater, hLast⟩ := ih (endOf (e.2.run u e.1 w)) hReadable.2
      refine ⟨changes ++ later, List.forall_mem_append.2 ⟨hProper, hLater⟩, ?_⟩
      rw [after, List.foldl_cons, ← after, hLast, hEnd, Store.after, Store.after, Store.after,
        List.foldl_append]

/-- Every history of commands that begins with an empty store leaves a valid one. -/
theorem isValid_after (u : Setup) (files : FileTree) (sent : List Notice)
    {history : List (Int × Command)} (hReadable : ∀ e ∈ history, e.2.IsReadable) :
    ∃ ms, (after u ⟨.empty, files, sent⟩ history).store.IsValid ms := by
  obtain ⟨changes, hProper, hEnd⟩ := exists_changes_after u ⟨.empty, files, sent⟩ hReadable
  obtain ⟨ms, hFollows⟩ := Store.empty_holds.after_follows fun c hc => (hProper c hc).1
  have hClean : ∀ c ∈ changes, c.IsClean := fun c hc => (hProper c hc).2
  refine ⟨ms, ?_⟩
  rw [hEnd]
  exact hFollows.holds.isValid (hFollows.legal hClean (by simp))
    (hFollows.sound hClean Store.empty_phrasesSound)

/-- The greeting is added and added again, its category is renamed, and a phrase is added. -/
theorem isValid_after_greeting :
    ∃ ms, (after .plain ⟨.empty, .empty, []⟩
      [(0, .createMatcher (.ofContent .greeting) "ann"),
        (1, .createMatcher (.ofContent .greeting) "bob"),
        (2, .rename "greetings" " welcome " "bob" false),
        (3, .addPhrase "welcome" "hello you" "ann")]).store.IsValid ms := by
  have hGreeting : Group.AreReadable Matcher.Content.greeting.groups := by decide
  refine isValid_after .plain .empty [] ?_
  simp only [List.forall_mem_cons]
  exact ⟨hGreeting, hGreeting, trivial, trivial, by simp⟩

end Workspace

end Phrasebook
