import Mathlib
import Phrasebook.Proofs.Store.Deeds
import Phrasebook.Proofs.Workspace.Exports

/-!
The lives of matchers. Behind every run of operations, successful or not, the log tells of each id that a
matcher was added under it, changed any number of times, and perhaps removed, and the table has exactly
the matchers whose lives are not over.
-/

namespace Phrasebook

namespace Audit

/-- What was done to a matcher that is there: it was added, and then changed any number of times. -/
def IsOngoing (deeds : List Action) : Prop := ∃ n, deeds = .addition :: List.replicate n .change

/-- What was done to a matcher that is gone: it was removed in the end. -/
def IsOver (deeds : List Action) : Prop :=
  ∃ n, deeds = .addition :: List.replicate n .change ++ [.deletion]

variable {deeds : List Action}

theorem IsOngoing.ne_nil (h : IsOngoing deeds) : deeds ≠ [] := by
  obtain ⟨n, rfl⟩ := h
  exact List.cons_ne_nil _ _

theorem IsOngoing.not_mem (h : IsOngoing deeds) : Action.deletion ∉ deeds := by
  obtain ⟨n, rfl⟩ := h
  simp [List.mem_replicate]

theorem IsOngoing.goesOn (h : IsOngoing deeds) (n : Nat) :
    IsOngoing (deeds ++ List.replicate n .change) := by
  obtain ⟨k, rfl⟩ := h
  exact ⟨k + n, by rw [List.cons_append, List.replicate_append_replicate]⟩

theorem IsOngoing.ends (h : IsOngoing deeds) : IsOver (deeds ++ [.deletion]) := by
  obtain ⟨n, rfl⟩ := h
  exact ⟨n, rfl⟩

theorem IsOver.ne_nil (h : IsOver deeds) : deeds ≠ [] := by
  obtain ⟨n, rfl⟩ := h
  exact List.cons_ne_nil _ _

theorem IsOver.getLast? (h : IsOver deeds) : deeds.getLast? = some .deletion := by
  obtain ⟨n, rfl⟩ := h
  exact List.getLast?_concat

end Audit

/-- Whether work failed. -/
def isFailure {ε σ α : Type} : EStateM.Result ε σ α → Bool
  | .ok .. => false
  | .error .. => true

namespace Store

open Audit (IsOngoing IsOver)

namespace Change

/-- Whether the operation fails. -/
def fails (s : Store) : Change → Bool
  | add c actor now => isFailure (addMatcher c actor now s)
  | update id c actor now => isFailure (updateMatcher id c actor now s)
  | remove id actor now => isFailure (removeMatcher id actor now s)
  | rename old new actor now => isFailure (Store.rename old new actor now s)
  | addPhrase source content actor now => isFailure (Store.addPhrase source content actor now s)
  | removePhrase id actor now => isFailure (Store.removePhrase id actor now s)
  | addBatch source batch => isFailure (Store.addBatch source batch s)

/-- The groups of a content are not nested too deep to be read again. Deeper ones would be stored and
logged, and only then fail to be read. -/
def IsReadable : Change → Prop
  | add c _ _ | update _ c _ _ => Group.AreReadable c.groups
  | _ => True

end Change

/-- Something that is done with a store. The lock is put on its groups, or taken from them, from outside. -/
inductive Operation where
  | change (c : Change)
  | preview (old new : String)
  | importFolder (limits : Import.Limits) (t : FileTree) (cwd : Place) (folder : String)
  | lockGroups (locked : Bool)

namespace Operation

/-- The store in which the operation ends. -/
def apply (s : Store) : Operation → Store
  | change c => c.apply s
  | preview old new => endOf (ask (fun s => previewRename s old new) s)
  | importFolder limits t cwd folder => endOf (Import.run limits t cwd folder s)
  | lockGroups locked => { s with groupsLocked := locked }

/-- Operations that are not logged. -/
def IsSilent : Operation → Prop
  | change (.addBatch ..) | preview .. | importFolder .. | lockGroups _ => True
  | _ => False

end Operation

/-- The store behind a run of operations. -/
def run (s : Store) (operations : List Operation) : Store := operations.foldl Operation.apply s

theorem run_append (s : Store) (operations more : List Operation) :
    s.run (operations ++ more) = (s.run operations).run more := List.foldl_append

/-- Each matcher that is there goes on in the log, and no other one. Ids that were not given yet have no
line. -/
structure IsTold (s : Store) : Prop where
  lives : ∀ id, (s.row? id).isSome ∧ IsOngoing (s.deeds id) ∨
    s.row? id = none ∧ (s.deeds id = [] ∨ IsOver (s.deeds id))
  ahead : ∀ id, s.lastMatcher < id → s.deeds id = []

theorem empty_isTold : empty.IsTold where
  lives _ := Or.inr ⟨rfl, Or.inl rfl⟩
  ahead _ _ := rfl

variable {s t : Store} {id : Int}

namespace IsTold

theorem isOngoing (hs : s.IsTold) (h : (s.row? id).isSome) : IsOngoing (s.deeds id) := by
  rcases hs.lives id with ⟨-, hOngoing⟩ | ⟨hNone, -⟩
  · exact hOngoing
  · simp [hNone] at h

theorem row?_eq_none (hs : s.IsTold) (h : s.lastMatcher < id) : s.row? id = none := by
  rcases hs.lives id with ⟨-, hOngoing⟩ | ⟨hNone, -⟩
  · exact absurd (hs.ahead id h) hOngoing.ne_nil
  · exact hNone

/-- What one operation keeps. -/
theorem proceeds (hs : s.IsTold) (h : Proceeds s t) : t.IsTold where
  lives id := by
    cases h.passage id with
    | stays hRow hDeeds => rw [hRow, hDeeds]; exact hs.lives id
    | begins hUnused hGiven hNew hDeeds =>
        rw [hs.ahead id hUnused] at hDeeds
        exact Or.inl ⟨hNew, 0, hDeeds⟩
    | goesOn hOld hNew n hDeeds =>
        rw [hDeeds]
        exact Or.inl ⟨hNew, (hs.isOngoing hOld).goesOn (n + 1)⟩
    | ends hOld hNew hDeeds =>
        rw [hDeeds]
        exact Or.inr ⟨hNew, Or.inr (hs.isOngoing hOld).ends⟩
  ahead id hAhead := by
    have hBefore : s.lastMatcher < id := Int.lt_of_le_of_lt h.lastMatcher hAhead
    have hNone := hs.row?_eq_none hBefore
    cases h.passage id with
    | stays hRow hDeeds => rw [hDeeds, hs.ahead id hBefore]
    | begins hUnused hGiven hNew hDeeds => exact absurd hAhead (Int.not_lt.2 hGiven)
    | goesOn hOld hNew n hDeeds => simp [hNone] at hOld
    | ends hOld hNew hDeeds => simp [hNone] at hOld

end IsTold

namespace Passage

/-- Lines of the log stay where they are. -/
theorem deeds_grow (h : Passage s t id) : s.deeds id <+: t.deeds id := by
  cases h with
  | stays _ hDeeds => rw [hDeeds]
  | begins _ _ _ hDeeds | goesOn _ _ _ hDeeds | ends _ _ hDeeds =>
      rw [hDeeds]
      exact List.prefix_append _ _

/-- A row that changes has a line. -/
theorem row?_eq (h : Passage s t id) (hSame : t.deeds id = s.deeds id) : t.row? id = s.row? id := by
  cases h with
  | stays hRow _ => exact hRow
  | begins _ _ _ hDeeds | goesOn _ _ _ hDeeds | ends _ _ hDeeds =>
      rw [hDeeds] at hSame
      simp at hSame

end Passage

theorem log_putPhrases (source : String) (batch : List (String × String)) (s : Store) :
    (putPhrases source batch s).1.log = s.log := by
  induction batch generalizing s with
  | nil => rfl
  | cons e more ih =>
      refine (ih (putPhrase source s e.1 e.2).1).trans ?_
      unfold putPhrase
      dsimp only
      split <;> rfl

theorem log_after_batches {changes : List Change} (h : ∀ c ∈ changes, c.IsBatch) (s : Store) :
    (s.after changes).log = s.log := by
  induction changes generalizing s with
  | nil => rfl
  | cons c more ih =>
      rw [List.forall_mem_cons] at h
      obtain ⟨source, batch, rfl, -⟩ := h.1
      exact (ih h.2 _).trans (log_putPhrases source batch s)

theorem Operation.log_apply {op : Operation} (h : op.IsSilent) (s : Store) :
    (op.apply s).log = s.log := by
  cases op with
  | change c =>
      cases c with
      | addBatch source batch => exact log_putPhrases source batch s
      | add | update | remove | rename | addPhrase | removePhrase => exact h.elim
  | preview old new => rw [apply, endOf_ask]
  | importFolder limits t cwd folder =>
      obtain ⟨changes, hBatches, hEnd⟩ := @Import.run_madeOf limits t cwd folder s
      exact (congrArg Store.log hEnd).trans (log_after_batches hBatches s)
  | lockGroups locked => rfl

theorem Operation.proceeds (s : Store) (op : Operation) : Proceeds s (op.apply s) := by
  cases op with
  | change c => exact c.proceeds s
  | preview old new =>
      rw [apply, endOf_ask]
      exact .refl s
  | importFolder limits t cwd folder =>
      exact .of_sameTable (Workspace.sameTable_of_batches (Import.run_madeOf t cwd folder) s)
  | lockGroups locked => exact ⟨Int.le_refl _, fun id => .stays rfl rfl⟩

/-- What a run of operations keeps. -/
theorem IsTold.run (hs : s.IsTold) (operations : List Operation) :
    (s.run operations).IsTold ∧ ∀ id, s.deeds id <+: (s.run operations).deeds id := by
  induction operations generalizing s with
  | nil => exact ⟨hs, fun id => List.prefix_refl _⟩
  | cons op more ih =>
      have hStep := op.proceeds s
      obtain ⟨hTold, hPrefix⟩ := ih (hs.proceeds hStep)
      exact ⟨hTold, fun id => (hStep.passage id).deeds_grow.trans (hPrefix id)⟩

theorem exists_matcher_ofContent {c : Matcher.Content} (h : Group.AreReadable c.groups)
    (id createdAt : Int) : ∃ m, (Row.ofContent id createdAt c).matcher = .ok m := by
  have hReplacements := readReplacements?_replacementsText c.replacements
  have hGroups := readGroups?_groupsText h
  rw [Row.matcher]
  simp only [Row.ofContent, hReplacements, hGroups]
  exact ⟨_, rfl⟩

theorem exists_getPhrase_of_insertPhrase {source content actor : String} {now : Int}
    (h : insertPhrase source content actor now s = .ok (id, t)) : ∃ p, t.getPhrase id = .ok p := by
  obtain ⟨rfl, -, rfl⟩ := insertPhrase_eq_ok h
  rw [getPhrase]
  split
  next p _ => exact ⟨p, rfl⟩
  next hNone => simp at hNone

section

variable {α β : Type} {f : Store → Except Failure (α × Store)} {g : α → Store → Except Failure β}

theorem endOf_of_isFailure (h : isFailure (transaction f s) = true) :
    endOf (transaction f s) = s := by
  cases hResult : transaction f s with
  | ok a t => simp [hResult, isFailure] at h
  | error e t => exact eq_of_transaction_eq_error hResult

/-- What can be read after a transaction fails only when the transaction does. -/
theorem endOf_of_isFailure_read (hRead : ∀ a t, f s = .ok (a, t) → ∃ b, g a t = .ok b)
    (h : isFailure ((transaction f >>= fun a => ask (g a)) s) = true) :
    endOf ((transaction f >>= fun a => ask (g a)) s) = s := by
  cases hResult : f s with
  | error e => simp only [bind, EStateM.bind, transaction, hResult, endOf]
  | ok r =>
      obtain ⟨b, hb⟩ := hRead r.1 r.2 hResult
      simp [bind, EStateM.bind, transaction, hResult, ask, hb, isFailure] at h

end

/-- An operation that fails changes nothing. -/
theorem IsTold.apply_of_fails (hs : s.IsTold) {c : Change} (hReadable : c.IsReadable)
    (h : c.fails s = true) : c.apply s = s := by
  cases c with
  | add content actor now =>
      refine endOf_of_isFailure_read (fun id t hInsert => ?_) h
      obtain ⟨rfl, -, rfl⟩ := insertRow_eq_ok hInsert
      have hNone := hs.row?_eq_none (Int.lt_succ s.lastMatcher)
      rw [getMatcher, row?_added, hNone, Option.none_or, if_pos rfl]
      exact exists_matcher_ofContent hReadable _ _
  | update id content actor now =>
      refine endOf_of_isFailure_read (fun _ t hReplace => ?_) h
      obtain ⟨-, old, hOld, rfl⟩ := replaceRow_eq_ok hReplace
      have hId : old.id = id := by simpa using List.find?_some hOld
      rw [getMatcher, row?_replaced, hOld, Option.map_some, if_pos (by simpa using hId)]
      exact exists_matcher_ofContent hReadable _ _
  | addPhrase source content actor now =>
      exact endOf_of_isFailure_read (fun _ _ hInsert => exists_getPhrase_of_insertPhrase hInsert) h
  | remove | rename | removePhrase => exact endOf_of_isFailure h
  | addBatch => exact Bool.noConfusion h

/-- How the log of a store goes with the table, where `operations` have led to the store. -/
structure TellsLives (operations : List Operation) (s : Store) : Prop where
  life : ∀ id, s.deeds id = [] ∨ IsOngoing (s.deeds id) ∨ IsOver (s.deeds id)
  there : ∀ id, (s.row? id).isSome ↔
    s.deeds id ≠ [] ∧ (s.deeds id).getLast? ≠ some .deletion
  gone : ∀ id, (s.deeds id).getLast? = some .deletion → ∀ later, (s.run later).row? id = none
  never : ∀ id, s.deeds id = [] → ∀ earlier, earlier <+: operations →
    (empty.run earlier).row? id = none
  changed : ∀ (op : Operation) id, (op.apply s).row? id ≠ s.row? id →
    (op.apply s).deeds id ≠ s.deeds id
  failed : ∀ c : Change, c.IsReadable → c.fails s = true → c.apply s = s
  silent : ∀ op : Operation, op.IsSilent → (op.apply s).log = s.log

/-- The greeting is added, its cities become towns once the groups are no longer locked, and it is removed. -/
def greetingLife : List Operation :=
  [.change (.add .greeting "ann" 0), .lockGroups true, .change (.rename "cities" "towns" "bob" 1),
    .lockGroups false, .preview "cities" "towns", .change (.rename "cities" "towns" "bob" 2),
    .change (.remove 1 "ann" 3)]

end Store

end Phrasebook
