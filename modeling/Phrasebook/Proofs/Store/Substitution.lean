import Mathlib.Data.List.Sort
import Phrasebook.Proofs.Store.History

/-!
Renaming as a substitution. In every store that a history leads to, a renaming puts the new name in the
stead of the old one, as a category and at every leaf of the groups, and nowhere else. Its preview tells
beforehand what it counts, and its log has one line for each matcher that is different afterwards.
-/

namespace Phrasebook

/-- A matcher with `new` in the stead of `old`, as its category and at every leaf of its groups. -/
def Matcher.substitute (old new : String) (m : Matcher) : Matcher :=
  { m with
    category := Group.swap old new m.category
    groups := Group.mapNamesOf (Group.swap old new) m.groups }

/-- The name is the category of the matcher or a leaf of its groups. -/
def Matcher.bears (name : String) (m : Matcher) : Bool :=
  m.category == name || Group.mention m.groups name

theorem Matcher.substitute_ne_self_iff {old new : String} (hNe : old ≠ new) {m : Matcher} :
    m.substitute old new ≠ m ↔ m.bears old = true := by
  have hFields : m.substitute old new = m ↔ Group.swap old new m.category = m.category ∧
      Group.mapNamesOf (Group.swap old new) m.groups = m.groups := by
    obtain ⟨⟨category, spec, replacements, groups, priority, ignorePart, memo⟩, id, createdAt⟩ := m
    simp [substitute]
  have hGroups : Group.mapNamesOf (Group.swap old new) m.groups = m.groups ↔
      old ∉ Group.leavesOf m.groups := by
    rw [Group.mapNamesOf_eq_self_iff]
    simp only [Group.swap_eq_self_iff hNe]
    exact ⟨fun h hMem => h old hMem rfl, fun h name hMem hOld => h (hOld ▸ hMem)⟩
  rw [ne_eq, hFields, Group.swap_eq_self_iff hNe, hGroups, bears, Bool.or_eq_true, beq_iff_eq,
    Group.mention_iff]
  tauto

/-- The substituted name is gone. -/
theorem Matcher.bears_substitute {old new : String} (hNe : old ≠ new) (m : Matcher) :
    (m.substitute old new).bears old = false := by
  have hGone : old ∉ Group.leavesOf (Group.mapNamesOf (Group.swap old new) m.groups) := by
    rw [Group.leavesOf_mapNamesOf, List.mem_map]
    rintro ⟨name, -, hOld⟩
    exact Group.swap_ne_old hNe name hOld
  rw [bears, Bool.or_eq_false_iff]
  refine ⟨beq_false_of_ne (Group.swap_ne_old hNe m.category), ?_⟩
  rw [Bool.eq_false_iff, ne_eq, Group.mention_iff]
  exact hGone

namespace Store

/-- Names that a renaming takes: they are there and differ, and the new one is not too long. -/
structure IsRenaming (old new : String) : Prop where
  old_ne : old ≠ ""
  new_ne : new ≠ ""
  differ : old ≠ new
  length : new.length ≤ 50

theorem checkNames_eq_ok_iff {old new : String} :
    checkNames old new = .ok () ↔ IsRenaming old new := by
  constructor
  · intro hOk
    obtain ⟨hNew, hLength⟩ := Holds.legal_name_of_checkNames hOk
    unfold checkNames at hOk
    split at hOk
    next => simp at hOk
    next hEmpty =>
      split at hOk
      next => simp at hOk
      next hDiffer =>
        refine ⟨fun hOld => hEmpty ?_, hNew, hDiffer, hLength⟩
        simp [hOld]
  · rintro ⟨hOld, hNew, hDiffer, hLength⟩
    have hFaults := (Draft.categoryFaults_eq_nil_iff new).2 ⟨hNew, hLength⟩
    simp [checkNames, hOld, hNew, hDiffer, hFaults, Failure.ofFaults]

/-- What a renaming that counts `r` changes from a store with the matchers `ms` to the next one. -/
structure Substitutes (old new actor : String) (now : Int) (ms : List Matcher) (r : RenameReport)
    (s t : Store) : Prop where
  before : s.allMatchers = .ok ms
  after : t.allMatchers = .ok (ms.map (Matcher.substitute old new))
  direct : r.direct = ms.countP fun m => m.category = old
  nested : r.nested = ms.countP fun m => old ∈ Group.leavesOf m.groups
  ids : ms.Pairwise (·.id < ·.id)
  /-- One line for each matcher that is different afterwards, ascending by id, and no other line. -/
  lines : ∃ (entries : List Audit.Entry) (changed : List Matcher), s.log = some entries ∧
    changed.Sublist ms ∧ (∀ m ∈ ms, m ∈ changed ↔ m.substitute old new ≠ m) ∧
    t.log = some (entries ++ changed.mapIdx fun i m =>
      ⟨entries.length + i + 1, actor, .change, .matcher, m.id, m.label, now⟩)
  rest : t.lastMatcher = s.lastMatcher ∧ t.phrases = s.phrases ∧ t.lastPhrase = s.lastPhrase ∧
    t.groupsLocked = s.groupsLocked
  /-- A second renaming would find nothing. -/
  settled : ask (·.previewRename old new) t = .ok ⟨0, 0⟩ t

/-- What a renaming counts among some matchers. -/
def reportOf (name : String) (ms : List Matcher) : RenameReport :=
  ⟨(ms.filter (·.category == name)).length, (ms.filter fun m => Group.mention m.groups name).length⟩

/-- The lines are numbered from behind the last one. -/
theorem withLines_log (actor : String) (now : Int) (changed : List Matcher) {s : Store}
    {entries : List Audit.Entry} (h : s.log = some entries) :
    (s.withLines actor now changed).log = some (entries ++ changed.mapIdx fun i m =>
      ⟨entries.length + i + 1, actor, .change, .matcher, m.id, m.label, now⟩) := by
  induction changed generalizing s entries with
  | nil => simpa [withLines] using h
  | cons m more ih =>
      have hFirst : (s.withLine actor .change .matcher m.id m.label now).log =
          some (entries ++ [⟨entries.length + 1, actor, .change, .matcher, m.id, m.label, now⟩]) := by
        rw [withLine, h, Option.map_some]
      have hNumber : ∀ i : Nat, ((entries.length + 1 : Nat) : Int) + i + 1 =
          entries.length + ((i + 1 : Nat) : Int) + 1 := fun i => by omega
      rw [withLines, List.foldl_cons, ← withLines, ih hFirst, List.mapIdx_cons, List.append_assoc,
        List.singleton_append, List.length_append, List.length_singleton]
      simp only [hNumber]
      rfl

namespace Holds

variable {s : Store} {ms : List Matcher}

/-- For the matchers of a table it is the same whether their groups change when they are listed or when
they name the old category. -/
theorem relabel_eq_substitute (hs : s.Holds ms) {m : Matcher} (hm : m ∈ ms) (old new : String) :
    m.relabel old new (ms.filter fun n => Group.mention n.groups old) = m.substitute old new := by
  have hListed : (ms.filter fun n => Group.mention n.groups old).any (·.id == m.id) =
      Group.mention m.groups old := by
    rw [Bool.eq_iff_iff, List.any_eq_true]
    constructor
    · rintro ⟨n, hn, hId⟩
      obtain ⟨hMem, hMention⟩ := List.mem_filter.1 hn
      rwa [hs.eq_of_id hMem hm (by simpa using hId)] at hMention
    · exact fun hMention => ⟨m, List.mem_filter.2 ⟨hm, hMention⟩, by simp⟩
  rw [Matcher.relabel, Matcher.substitute, hListed, Group.relabelAll_eq]
  by_cases hMention : Group.mention m.groups old = true
  · rw [if_pos hMention]
    rfl
  · have hSame : Group.mapNamesOf (Group.swap old new) m.groups = m.groups :=
      Group.mapNamesOf_eq_self _ _ fun name hName => if_neg fun (hOld : name = old) =>
        hMention (Group.mention_iff.2 (hOld ▸ hName))
    rw [if_neg hMention, hSame]
    rfl

/-- The matchers of the category and those that name it, merged by id, are those that bear the name. -/
theorem mergeById_eq (hs : s.Holds ms) (name : String) :
    mergeById (ms.filter (·.category == name)) (ms.filter fun m => Group.mention m.groups name) =
      ms.filter (·.bears name) := by
  have hNodup : ms.Nodup := hs.ascending.imp fun hLt hEq => Int.ne_of_lt hLt (congrArg Matcher.id hEq)
  have hOnce : ∀ m ∈ ms, (ms.filter (·.category == name)).any (·.id == m.id) = (m.category == name) := by
    intro m hm
    rw [Bool.eq_iff_iff, List.any_eq_true]
    constructor
    · rintro ⟨n, hn, hId⟩
      obtain ⟨hMem, hCategory⟩ := List.mem_filter.1 hn
      rwa [hs.eq_of_id hMem hm (by simpa using hId)] at hCategory
    · exact fun hCategory => ⟨m, List.mem_filter.2 ⟨hm, hCategory⟩, by simp⟩
  have hMore : (ms.filter fun m => Group.mention m.groups name).filter
      (fun m => !(ms.filter (·.category == name)).any (·.id == m.id)) =
        ms.filter fun m => !(m.category == name) && Group.mention m.groups name := by
    rw [List.filter_filter]
    exact List.filter_congr fun m hm => by rw [hOnce m hm]
  -- Both lists have the same members, each of them once, in the same order.
  have hPerm : (ms.filter (·.category == name) ++
      ms.filter fun m => !(m.category == name) && Group.mention m.groups name).Perm
        (ms.filter (·.bears name)) := by
    refine (List.perm_ext_iff_of_nodup (List.nodup_append.2 ⟨hNodup.filter _, hNodup.filter _, ?_⟩)
      (hNodup.filter _)).2 fun m => ?_
    · intro m hm n hn hEq
      obtain ⟨-, hCategory⟩ := List.mem_filter.1 hm
      obtain ⟨-, hOther⟩ := List.mem_filter.1 hn
      simp [← hEq, hCategory] at hOther
    · simp only [List.mem_append, List.mem_filter, Matcher.bears, Bool.or_eq_true, Bool.and_eq_true,
        Bool.not_eq_true', beq_iff_eq, beq_eq_false_iff_ne, ne_eq]
      tauto
  have hSorted : (mergeById (ms.filter (·.category == name))
      (ms.filter fun m => Group.mention m.groups name)).Pairwise (·.id ≤ ·.id) := by
    refine (List.pairwise_mergeSort (fun a b c hab hbc => ?_) (fun a b => ?_) _).imp
      fun h => of_decide_eq_true h
    · exact decide_eq_true (Int.le_trans (of_decide_eq_true hab) (of_decide_eq_true hbc))
    · rw [Bool.or_eq_true, decide_eq_true_iff, decide_eq_true_iff]
      exact Int.le_total a.id b.id
  rw [← hMore] at hPerm
  have hMerged := (List.mergeSort_perm _ fun a b : Matcher => decide (a.id ≤ b.id)).trans hPerm
  refine List.Perm.eq_of_pairwise (fun m n hm hn hLe hGe => ?_) hSorted
    ((hs.ascending.filter _).imp fun hLt => Int.le_of_lt hLt) hMerged
  exact hs.eq_of_id (List.mem_of_mem_filter (hMerged.mem_iff.1 hm)) (List.mem_of_mem_filter hn)
    (Int.le_antisymm hLe hGe)

/-- A preview counts what bears the name, unless the names are refused. -/
theorem previewRename_eq (hs : s.Holds ms) (old new : String) :
    s.previewRename old new =
      match checkNames old new with
      | .error e => .error e
      | .ok () => .ok (reportOf old ms) := by
  rw [previewRename, hs.matchersNaming_eq, hs.countP_category]
  cases checkNames old new <;> rfl

/-- What a preview answers when no matcher bears the name. -/
theorem previewRename_of_gone (hs : s.Holds ms) {old new : String} (hNames : IsRenaming old new)
    (hGone : ∀ m ∈ ms, m.bears old = false) :
    ask (·.previewRename old new) s = .ok ⟨0, 0⟩ s := by
  have hNone : ∀ m ∈ ms, (m.category == old) = false ∧ Group.mention m.groups old = false :=
    fun m hm => Bool.or_eq_false_iff.1 (hGone m hm)
  have hDirect : ms.filter (·.category == old) = [] :=
    List.filter_eq_nil_iff.2 fun m hm => by simp [(hNone m hm).1]
  have hNested : ms.filter (fun m => Group.mention m.groups old) = [] :=
    List.filter_eq_nil_iff.2 fun m hm => by simp [(hNone m hm).2]
  rw [ask, hs.previewRename_eq, checkNames_eq_ok_iff.2 hNames, reportOf, hDirect, hNested]
  rfl

theorem renamed_holds_substitute (hs : s.Holds ms) (old new actor : String) (now : Int)
    (changed : List Matcher) :
    (s.renamed old new actor now (ms.filter fun m => Group.mention m.groups old) changed).Holds
      (ms.map (Matcher.substitute old new)) := by
  have hMap : ms.map (Matcher.relabel old new (ms.filter fun m => Group.mention m.groups old)) =
      ms.map (Matcher.substitute old new) :=
    List.map_congr_left fun m hm => hs.relabel_eq_substitute hm old new
  rw [← hMap]
  exact hs.renamed_holds (List.filter_subset_self _) old new actor now changed

theorem substitutes (hs : s.Holds ms) {old new : String} (hNames : IsRenaming old new)
    (actor : String) (now : Int) :
    Substitutes old new actor now ms (reportOf old ms) s
      (s.renamed old new actor now (ms.filter fun m => Group.mention m.groups old)
        (ms.filter (·.bears old))) := by
  have hNext := hs.renamed_holds_substitute old new actor now (ms.filter (·.bears old))
  obtain ⟨entries, hEntries⟩ := Option.isSome_iff_exists.1 hs.logged
  refine ⟨hs.allMatchers_eq, hNext.allMatchers_eq, ?_, ?_, hs.ascending, ?_, ?_, ?_⟩
  · rw [List.countP_eq_length_filter, reportOf]
    rfl
  · rw [List.countP_eq_length_filter, reportOf]
    refine congrArg List.length (List.filter_congr fun m _ => ?_)
    rw [Bool.eq_iff_iff, Group.mention_iff, decide_eq_true_iff]
  · refine ⟨entries, ms.filter (·.bears old), hEntries, List.filter_sublist, fun m hm => ?_, ?_⟩
    · rw [Matcher.substitute_ne_self_iff hNames.differ, List.mem_filter]
      exact and_iff_right hm
    · exact withLines_log actor now _ hEntries
  · exact ⟨renamed_lastMatcher .., renamed_phrases .., renamed_lastPhrase ..,
      hNext.unlocked.trans hs.unlocked.symm⟩
  · refine hNext.previewRename_of_gone hNames fun n hn => ?_
    obtain ⟨m, -, rfl⟩ := List.mem_map.1 hn
    exact Matcher.bears_substitute hNames.differ m

end Holds

/-- In every store that a history leads to, a renaming is a substitution of one name, and counts
what its preview has counted. Names that do not fit are refused by both, and nothing changes. -/
theorem rename_substitutes {history : List Change} (hAll : ∀ c ∈ history, c.IsAdmissible)
    (old new actor : String) (now : Int) :
    (IsRenaming old new → ∃ ms r t,
      ask (·.previewRename old new) (empty.after history) = .ok r (empty.after history) ∧
      rename old new actor now (empty.after history) = .ok r t ∧
      Substitutes old new actor now ms r (empty.after history) t) ∧
    (¬IsRenaming old new → ∃ e,
      ask (·.previewRename old new) (empty.after history) = .error e (empty.after history) ∧
      rename old new actor now (empty.after history) = .error e (empty.after history)) := by
  obtain ⟨ms, hFollows⟩ := empty_holds.after_follows hAll
  have hs := hFollows.holds
  constructor
  · intro hNames
    have hCheck := checkNames_eq_ok_iff.2 hNames
    refine ⟨ms, _, _, ?_, ?_, hs.substitutes hNames actor now⟩
    · rw [ask, hs.previewRename_eq, hCheck]
    · rw [hs.rename_eq]
      dsimp only
      rw [hCheck, hs.mergeById_eq]
      rfl
  · intro hNames
    cases hCheck : checkNames old new with
    | ok u => exact absurd (checkNames_eq_ok_iff.1 hCheck) hNames
    | error e =>
        refine ⟨e, ?_, ?_⟩
        · rw [ask, hs.previewRename_eq, hCheck]
        · rw [hs.rename_eq, hCheck]

/-- Ann has added the greeting, and bob renames the cities that it names in its groups. -/
theorem greeting_names_towns :
    ∃ t, rename "cities" "towns" "bob" 1 (empty.after [.add .greeting "ann" 0]) = .ok ⟨0, 1⟩ t ∧
      t.allMatchers =
        .ok [⟨{ Matcher.Content.greeting with groups := [.list [.name "towns", .null]] }, 1, 0⟩] := by
  have hValid := Draft.validate_ofContent Matcher.Content.isLegal_greeting
  have hReadable : Group.AreReadable Matcher.Content.greeting.groups := by decide
  have hAll : ∀ c ∈ [Change.add .greeting "ann" 0], c.IsAdmissible := by
    rw [List.forall_mem_singleton]
    exact ⟨⟨_, hValid⟩, hReadable⟩
  have hNames : IsRenaming "cities" "towns" := ⟨by decide, by decide, by decide, by decide⟩
  obtain ⟨ms, r, t, -, hRename, hSubstitutes⟩ :=
    (rename_substitutes hAll "cities" "towns" "bob" 1).1 hNames
  have hStorable : Matcher.Content.greeting.IsStorable :=
    ⟨Matcher.Content.isLegal_greeting.spec, hReadable⟩
  have hFirst : empty.after [.add .greeting "ann" 0] = empty.added .greeting "ann" 0 := by
    rw [after, List.foldl_cons, List.foldl_nil, Change.apply,
      empty_holds.addMatcher_of_fresh hStorable (by simp), endOf]
  have hBefore := (empty_holds.added_holds hStorable (by simp) "ann" 0).allMatchers_eq
  rw [← hFirst, hSubstitutes.before] at hBefore
  obtain rfl := Except.ok.inj hBefore
  obtain ⟨direct, nested⟩ := r
  obtain rfl : direct = 0 := hSubstitutes.direct
  obtain rfl : nested = 1 := hSubstitutes.nested
  exact ⟨t, hRename, hSubstitutes.after⟩

end Store

end Phrasebook
