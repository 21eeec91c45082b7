import Phrasebook.Proofs.Group.Names
import Phrasebook.Proofs.Store.Table
import Phrasebook.Store.Rename

/-!
Renaming in a table. A renaming that is not refused gives every matcher its new category and its new
groups. Ids, specs and everything else stay, so the store holds the renamed list.
-/

namespace Phrasebook

/-- A matcher under the new name; `nested` are the matchers whose groups change. -/
def Matcher.relabel (old new : String) (nested : List Matcher) (m : Matcher) : Matcher :=
  { m with
    category := if m.category = old then new else m.category
    groups :=
      if nested.any (·.id == m.id) then (Group.relabelAll old new m.groups).1 else m.groups }

namespace Store

/-- The store after one more line for each matcher that changed. -/
def withLines (actor : String) (now : Int) (changed : List Matcher) (s : Store) : Store :=
  changed.foldl (fun s m => s.withLine actor .change .matcher m.id m.label now) s

/-- The lines change nothing but the log. -/
theorem withLines_eq (actor : String) (now : Int) (changed : List Matcher) (s : Store) :
    ∃ log, s.withLines actor now changed = { s with log } ∧ log.isSome = s.log.isSome := by
  induction changed generalizing s with
  | nil => exact ⟨s.log, rfl, rfl⟩
  | cons m more ih =>
      obtain ⟨log, hLines, hSome⟩ := ih (s.withLine actor .change .matcher m.id m.label now)
      exact ⟨log, hLines, by rw [hSome, withLine_isSome_log]⟩

theorem recordChanges_eq_withLines {s : Store} (h : s.log.isSome = true) (actor : String)
    (now : Int) (changed : List Matcher) :
    recordChanges actor now changed s = .ok (s.withLines actor now changed) := by
  induction changed generalizing s with
  | nil => rfl
  | cons m more ih =>
      have hMore := ih (s := s.withLine actor .change .matcher m.id m.label now)
        (by rw [withLine_isSome_log, h])
      rw [recordChanges, List.foldlM_cons, record_eq_withLine _ _ _ _ _ _ _ h]
      exact hMore

/-- The store after a renaming. -/
def renamed (old new actor : String) (now : Int) (nested changed : List Matcher) (s : Store) : Store :=
  withLines actor now changed { s with rows := s.rows.map (Row.relabel old new nested) }

section

variable (old new actor : String) (now : Int) (nested changed : List Matcher) (s : Store)

@[simp]
theorem renamed_lastMatcher :
    (s.renamed old new actor now nested changed).lastMatcher = s.lastMatcher := by
  obtain ⟨log, hLines, -⟩ := withLines_eq actor now changed
    { s with rows := s.rows.map (Row.relabel old new nested) }
  rw [renamed, hLines]

@[simp]
theorem renamed_phrases : (s.renamed old new actor now nested changed).phrases = s.phrases := by
  obtain ⟨log, hLines, -⟩ := withLines_eq actor now changed
    { s with rows := s.rows.map (Row.relabel old new nested) }
  rw [renamed, hLines]

@[simp]
theorem renamed_lastPhrase :
    (s.renamed old new actor now nested changed).lastPhrase = s.lastPhrase := by
  obtain ⟨log, hLines, -⟩ := withLines_eq actor now changed
    { s with rows := s.rows.map (Row.relabel old new nested) }
  rw [renamed, hLines]

end

namespace Holds

variable {s : Store} {ms : List Matcher}

/-- The row of a matcher changes like the matcher. -/
theorem relabel_stored (hs : s.Holds ms) {nested : List Matcher} (hNested : nested ⊆ ms)
    {m : Matcher} (hm : m ∈ ms) (old new : String) :
    m.stored.relabel old new nested = (m.relabel old new nested).stored := by
  cases hFind : nested.find? (·.id == m.id) with
  | none =>
      have hNone : nested.any (·.id == m.id) = false := by
        rw [List.find?_eq_none] at hFind
        simpa using hFind
      simp [Row.relabel, Matcher.relabel, Matcher.stored, Row.ofContent, hFind, hNone]
      rfl
  | some n =>
      have hId : n.id = m.id := by simpa using List.find?_some hFind
      have hMem : n ∈ nested := List.mem_of_find?_eq_some hFind
      obtain rfl := hs.eq_of_id (hNested hMem) hm hId
      have hAny : nested.any (·.id == n.id) = true := List.any_eq_true.2 ⟨n, hMem, by simp⟩
      simp [Row.relabel, Matcher.relabel, Matcher.stored, Row.ofContent, hFind, hAny]
      rfl

theorem isStorable_relabel {m : Matcher} (h : m.toContent.IsStorable) (old new : String)
    (nested : List Matcher) : (m.relabel old new nested).toContent.IsStorable where
  spec := h.spec
  groups := by
    have hGroups : (m.relabel old new nested).groups =
        if nested.any (·.id == m.id) then (Group.relabelAll old new m.groups).1 else m.groups := rfl
    rw [hGroups]
    split
    · exact Group.areReadable_relabelAll h.groups old new
    · exact h.groups

theorem renamed_holds (hs : s.Holds ms) {nested : List Matcher} (hNested : nested ⊆ ms)
    (old new actor : String) (now : Int) (changed : List Matcher) :
    (s.renamed old new actor now nested changed).Holds (ms.map (Matcher.relabel old new nested)) := by
  obtain ⟨log, hLines, hSome⟩ := withLines_eq actor now changed
    { s with rows := s.rows.map (Row.relabel old new nested) }
  rw [renamed, hLines]
  refine ⟨?_, ?_, List.pairwise_map.2 hs.ascending, ?_, List.pairwise_map.2 hs.distinct,
    hSome.trans hs.logged, hs.unlocked⟩
  · rw [hs.rows, List.map_map, List.map_map]
    exact List.map_congr_left fun m hm => hs.relabel_stored hNested hm old new
  · intro n hn
    obtain ⟨m, hm, rfl⟩ := List.mem_map.1 hn
    exact isStorable_relabel (hs.storable m hm) old new nested
  · intro n hn
    obtain ⟨m, hm, rfl⟩ := List.mem_map.1 hn
    exact hs.given m hm

/-- The groups of a stored matcher, as a text, are searched for a name; no matcher that has it is missed. -/
theorem matchersNaming_eq (hs : s.Holds ms) (name : String) :
    s.matchersNaming name = .ok (ms.filter fun m => Group.mention m.groups name) := by
  have hSeen : ∀ m : Matcher, Group.mention m.groups name = true →
      m.stored.mayMention name = true := fun m hMention =>
    Text.occursIn_iff.2 (Group.quoted_infix_compact (Group.mention_iff.1 hMention))
  rw [matchersNaming, hs.selectMatchers_eq]
  refine congrArg Except.ok ?_
  rw [List.filter_filter]
  refine List.filter_congr fun m _ => ?_
  cases hMention : Group.mention m.groups name with
  | false => rfl
  | true => rw [hSeen m hMention]; rfl

theorem countP_category (hs : s.Holds ms) (name : String) :
    s.rows.countP (·.category == name) = (ms.filter (·.category == name)).length := by
  rw [hs.rows, List.countP_map, List.countP_eq_length_filter]
  rfl

/-- A renaming fails when the names are refused, and else it changes the matchers of the category and
those whose groups name it. -/
theorem rename_eq (hs : s.Holds ms) (old new actor : String) (now : Int) :
    rename old new actor now s =
      let direct := ms.filter (·.category == old)
      let nested := ms.filter fun m => Group.mention m.groups old
      match checkNames old new with
      | .error e => .error e s
      | .ok () => .ok ⟨direct.length, nested.length⟩
          (s.renamed old new actor now nested (mergeById direct nested)) := by
  have hDirect : s.matchersIn old = .ok (ms.filter (·.category == old)) := hs.selectMatchers_eq _
  have hNested : (ms.filter fun m => Group.mention m.groups old).filter
      (fun m => (Group.relabelAll old new m.groups).2 != 0) =
        ms.filter fun m => Group.mention m.groups old := by
    simp only [Group.relabelAll_count_ne_zero, List.filter_filter, Bool.and_self]
  have hGuard : ∀ nested : List Matcher, (s.groupsLocked && !nested.isEmpty) = false := fun _ => by
    rw [hs.unlocked]
    rfl
  cases hNames : checkNames old new with
  | error e => simp only [rename, transaction, relabelRows, hNames, bind, Except.bind]
  | ok u =>
      simp only [rename, transaction, relabelRows, hNames, hDirect, hs.matchersNaming_eq, hNested,
        hGuard, hs.countP_category, Bool.false_eq_true, if_false, bind, Except.bind, pure, Except.pure]
      rw [recordChanges_eq_withLines]
      · rfl
      · exact hs.logged

end Holds

end Store

end Phrasebook
