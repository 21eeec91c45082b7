import Phrasebook.Cli.Run
import Phrasebook.Proofs.Store.FiniteMap
import Phrasebook.Proofs.Workspace.Notices

/-!
Edits of stored matchers from the command line. A stored matcher becomes a draft, the options put their values
into the draft, and the draft is validated and stored again. All that is stored is canonical already, so what no
option names comes through this as it was.
-/

namespace Phrasebook

theorem lookup_placeEntry (language text other : String) (entries : List (String × String)) :
    (placeEntry language text entries).lookup other =
      if other == language then some text else entries.lookup other := by
  induction entries with
  | nil => cases hSame : other == language <;> simp [placeEntry, List.lookup_cons, hSame]
  | cons e rest ih =>
      obtain ⟨l, t⟩ := e
      rw [placeEntry]
      split
      next => cases hSame : other == language <;> simp [List.lookup_cons, hSame]
      next =>
        split
        next hHere =>
          subst hHere
          cases hSame : other == language <;> simp [List.lookup_cons, hSame]
        next hNotHere =>
          rw [List.lookup_cons, List.lookup_cons, ih]
          cases hEntry : other == l with
          | false => rfl
          | true =>
              have hOther : ¬other = language := fun hSame => hNotHere (hSame.symm.trans (beq_iff_eq.1 hEntry))
              simp [hOther]

namespace Cli

namespace Edit

variable {e : Edit} {t : FileTree} {cwd : Place} {d d' : Draft} {m n : Matcher}

/-- An edit without any options. -/
def nothing (actor : String) : Edit := ⟨none, none, none, none, none, [], none, none, none, none, actor⟩

/-- The language and the text of a replacement, as an option gives them. -/
def replacement? (pair : String) : Option (String × String) :=
  (Text.splitOnce? '=' pair).map fun (language, text) => (Text.trim language, text)

/-- The text that the options name for a language. Of several the last one counts. -/
def text? (e : Edit) (language : String) : Option String :=
  (e.values.filterMap replacement?).reverse.lookup language

/-- Raw text, pattern and flags behind an edit. A raw text and a pattern drive each other out. -/
def specColumns (e : Edit) (d : Draft) : String × String × String :=
  match e.regex, e.raw with
  | some pattern, _ => ("", pattern, e.flags.getD "")
  | none, some text => (text, "", "")
  | none, none => (d.raw, d.pattern, d.flags)

/-- What the options name is in the draft `d'`, and the rest is as it is in `d`. -/
structure Fills (e : Edit) (d d' : Draft) : Prop where
  category : d'.category = e.category.getD d.category
  columns : (d'.raw, d'.pattern, d'.flags) = e.specColumns d
  replacements : ∀ language,
    d'.replacements.get? language = (e.text? language).or (d.replacements.get? language)
  groupsKept : e.groups = none → d'.groups = d.groups
  groupsRead : ∀ text, e.groups = some text → Store.readGroups? text = some d'.groups
  priority : d'.priority = e.priority.getD d.priority
  ignorePart : d'.ignorePart = e.ignorePart.getD d.ignorePart
  memo : d'.memo = e.memo.getD d.memo

theorem putValue_eq_ok {pair : String} (h : putValue d pair = .ok d') :
    ∃ language text, replacement? pair = some (language, text) ∧
      d' = { d with replacements := d.replacements.insert language text } := by
  unfold putValue at h
  split at h
  next language text hPair => exact ⟨_, text, by rw [replacement?, hPair]; rfl, (Except.ok.inj h).symm⟩
  next => simp at h

theorem putGroups_eq_ok {text : String} (h : putGroups d text = .ok d') :
    ∃ groups, Store.readGroups? text = some groups ∧ d' = { d with groups } := by
  unfold putGroups at h
  split at h
  next groups hRead => exact ⟨groups, hRead, (Except.ok.inj h).symm⟩
  next => simp at h

/-- Replacements are put in one after the other, and nothing else changes. -/
theorem putValues_eq_ok {pairs : List String} (h : pairs.foldlM putValue d = .ok d') :
    ∃ r : Replacements, d' = { d with replacements := r } ∧ ∀ language, r.get? language =
      ((pairs.filterMap replacement?).reverse.lookup language).or (d.replacements.get? language) := by
  induction pairs generalizing d with
  | nil =>
      obtain rfl := Except.ok.inj h
      exact ⟨d.replacements, rfl, fun _ => rfl⟩
  | cons pair more ih =>
      rw [List.foldlM_cons] at h
      obtain ⟨d₁, hFirst, hMore⟩ := Store.bind_eq_ok_iff.1 h
      obtain ⟨language, text, hPair, rfl⟩ := putValue_eq_ok hFirst
      obtain ⟨r, rfl, hGet⟩ := ih hMore
      refine ⟨r, rfl, fun other => ?_⟩
      rw [hGet, List.filterMap_cons_some hPair, List.reverse_cons, List.lookup_append, Option.or_assoc,
        Replacements.get?, Replacements.insert, lookup_placeEntry]
      cases hSame : other == language <;> simp [Replacements.get?, List.lookup_cons, hSame]

theorem putTexts_eq (e : Edit) (d : Draft) :
    putting e.regex (fun d pattern => putRegex d pattern e.flags)
      (putting e.raw putRaw (putting e.category (fun d category => { d with category }) d)) =
    { d with
      category := e.category.getD d.category
      raw := (e.specColumns d).1
      pattern := (e.specColumns d).2.1
      flags := (e.specColumns d).2.2 } := by
  rw [specColumns]
  cases e.category <;> cases e.raw <;> cases e.regex <;> rfl

theorem putRest_eq (e : Edit) (d : Draft) :
    putting e.memo (fun d memo => { d with memo })
      (putting e.ignorePart (fun d ignorePart => { d with ignorePart })
        (putting e.priority (fun d priority => { d with priority }) d)) =
    { d with
      priority := e.priority.getD d.priority
      ignorePart := e.ignorePart.getD d.ignorePart
      memo := e.memo.getD d.memo } := by
  cases e.priority <;> cases e.ignorePart <;> cases e.memo <;> rfl

theorem apply_fills (hFile : e.file = none) (h : e.apply t cwd d = .ok d') : e.Fills d d' := by
  rw [apply, hFile] at h
  obtain ⟨d₀, hStart, h⟩ := Store.bind_eq_ok_iff.1 h
  obtain rfl := Except.ok.inj hStart
  dsimp only at h
  obtain ⟨d₁, hValues, h⟩ := Store.bind_eq_ok_iff.1 h
  obtain ⟨d₂, hGroups, h⟩ := Store.bind_eq_ok_iff.1 h
  obtain rfl := Except.ok.inj h
  rw [putTexts_eq] at hValues
  rw [putRest_eq]
  obtain ⟨r, rfl, hReplaced⟩ := putValues_eq_ok hValues
  cases hText : e.groups with
  | none =>
      rw [hText] at hGroups
      obtain rfl := Except.ok.inj hGroups
      exact ⟨rfl, rfl, hReplaced, fun _ => rfl, fun text hSome => by simp [hText] at hSome, rfl, rfl, rfl⟩
  | some text =>
      rw [hText] at hGroups
      obtain ⟨groups, hRead, rfl⟩ := putGroups_eq_ok hGroups
      refine ⟨rfl, rfl, hReplaced, fun hNone => by simp [hText] at hNone, fun text' hSome => ?_, rfl, rfl, rfl⟩
      obtain rfl := Option.some.inj (hText.symm.trans hSome)
      exact hRead

/-- What the options name is in the matcher `n`, in canonical form, and the rest is as it is in `m`. -/
structure Puts (e : Edit) (m n : Matcher) : Prop where
  id : n.id = m.id
  createdAt : n.createdAt = m.createdAt
  category : n.category = (e.category.map Text.trim).getD m.category
  raw : ∀ text, e.raw = some text → n.spec = .raw (Text.unifyNewlines text)
  regex : ∀ pattern, e.regex = some pattern →
    n.spec = .regex (Text.unifyNewlines pattern) (Text.trim (e.flags.getD ""))
  specKept : e.raw = none → e.regex = none → n.spec = m.spec
  replacements : ∀ language,
    n.replacements.get? language = (e.text? language).or (m.replacements.get? language)
  groupsKept : e.groups = none → n.groups = m.groups
  groupsRead : ∀ text, e.groups = some text → Store.readGroups? text = some n.groups
  priority : n.priority = e.priority.getD m.priority
  ignorePart : n.ignorePart = e.ignorePart.getD m.ignorePart
  memo : n.memo = e.memo.getD m.memo

theorem eq_raw_of_specWithFaults {text flags : String} {spec : Matcher.Spec}
    (h : (Draft.specWithFaults text "" flags).1 = some spec) : spec = .raw text := by
  have hNone : String.isEmpty "" = true := rfl
  cases hText : text.isEmpty with
  | false => exact (Option.some.inj (by simpa [Draft.specWithFaults, hText, hNone] using h)).symm
  | true => simp [Draft.specWithFaults, hText, hNone] at h

theorem eq_regex_of_specWithFaults {pattern flags : String} {spec : Matcher.Spec}
    (h : (Draft.specWithFaults "" pattern flags).1 = some spec) : spec = .regex pattern flags := by
  have hNone : String.isEmpty "" = true := rfl
  cases hPattern : pattern.isEmpty with
  | false => exact (Option.some.inj (by simpa [Draft.specWithFaults, hPattern, hNone] using h)).symm
  | true => simp [Draft.specWithFaults, hPattern, hNone] at h

/-- Validation leaves alone what comes from a legal matcher, and all that the options name it brings into
canonical form. -/
theorem Fills.puts (h : e.Fills (.ofContent m.toContent) d) (hLegal : m.toContent.IsLegal)
    (hOneSpec : e.raw = none ∨ e.regex = none) {c : Matcher.Content} (hValid : d.validate = .ok c) :
    e.Puts m ⟨c, m.id, m.createdAt⟩ := by
  obtain ⟨-, spec, hSpec, rfl⟩ := (Draft.validate_eq_ok_iff d c).1 hValid
  have hEmpty : Text.unifyNewlines "" = "" := Text.unifyNewlines_of_notMem (by simp)
  have hColumns := h.columns
  rw [Edit.specColumns] at hColumns
  refine ⟨rfl, rfl, ?_, fun text hRaw => ?_, fun pattern hRegex => ?_, fun hRaw hRegex => ?_,
    h.replacements, h.groupsKept, h.groupsRead, h.priority, h.ignorePart, h.memo⟩
  · rw [h.category]
    cases e.category with
    | none => exact hLegal.category_trimmed
    | some category => rfl
  · have hRegex : e.regex = none := hOneSpec.resolve_left (by simp [hRaw])
    rw [hRaw, hRegex] at hColumns
    obtain ⟨hFirst, hSecond, -⟩ : d.raw = text ∧ d.pattern = "" ∧ d.flags = "" := by simpa using hColumns
    rw [hFirst, hSecond, hEmpty] at hSpec
    exact eq_raw_of_specWithFaults hSpec
  · rw [hRegex] at hColumns
    obtain ⟨hFirst, hSecond, hThird⟩ :
        d.raw = "" ∧ d.pattern = pattern ∧ d.flags = e.flags.getD "" := by simpa using hColumns
    rw [hFirst, hSecond, hThird, hEmpty] at hSpec
    exact eq_regex_of_specWithFaults hSpec
  · rw [hRaw, hRegex] at hColumns
    obtain ⟨hFirst, hSecond, hThird⟩ : d.raw = m.spec.columns.1 ∧ d.pattern = m.spec.columns.2.1 ∧
        d.flags = m.spec.columns.2.2 := by
      simpa [Draft.ofContent, Prod.ext_iff] using hColumns
    rw [hFirst, hSecond, hThird, Draft.specWithFaults_columns hLegal.spec] at hSpec
    exact (Option.some.inj hSpec).symm

theorem apply_nothing (actor : String) (t : FileTree) (cwd : Place) (d : Draft) :
    (nothing actor).apply t cwd d = .ok d := rfl

/-- The groups of an edited draft can be read again. -/
theorem Fills.areReadable (h : e.Fills d d') (hReadable : Group.AreReadable d.groups) :
    Group.AreReadable d'.groups := by
  cases hText : e.groups with
  | none => rwa [h.groupsKept hText]
  | some text =>
      obtain ⟨j, -, hRead⟩ := Option.bind_eq_some_iff.1 (h.groupsRead text hText)
      exact Group.areReadable_of_listOfJson? hRead (Nat.le_refl _)

end Edit

variable {u : Setup} {w : Workspace} {id now : Int} {e : Edit} {m : Matcher}

theorem updateMatcher_eq (u : Setup) (now : Int) (e : Edit) (hGet : w.store.getMatcher id = .ok m) :
    updateMatcher u now id e w = (do
      let draft ← Workspace.check (e.apply w.files u.cwd (.ofContent m.toContent))
      (Command.updateMatcher id draft e.actor).run u now : Workspace.Op Json) w := by
  have hAsk : Workspace.askStore (·.getMatcher id) w = .ok m w := by
    simp only [Workspace.askStore, Workspace.onStore, Store.ask, hGet]
  simp only [updateMatcher, bind, EStateM.bind, hAsk]
  rfl

/-- How the update of a matcher with a draft ends: the draft or the store refuses it, or it is stored. -/
theorem run_updateMatcher_cases (u : Setup) (now id : Int) (d : Draft) (actor : String) (w : Workspace) :
    (∃ f, (∀ c, d.validate ≠ .ok c) ∧ (Command.updateMatcher id d actor).run u now w = .error f w) ∨
      ∃ c, d.validate = .ok c ∧
        ((∃ f s, Store.updateMatcher id c actor now w.store = .error f s ∧
          (Command.updateMatcher id d actor).run u now w = .error f { w with store := s }) ∨
        ∃ n v, Store.updateMatcher id c actor now w.store = .ok n v.store ∧
          (Command.updateMatcher id d actor).run u now w = .ok n.toJson v) := by
  cases hValid : d.validate with
  | error f =>
      refine Or.inl ⟨f, by simp, ?_⟩
      simp only [Command.run, Workspace.updateMatcher, bind, EStateM.bind, Workspace.check, hValid]
  | ok c =>
      refine Or.inr ⟨c, rfl, ?_⟩
      cases hStore : Store.updateMatcher id c actor now w.store with
      | error f s =>
          refine Or.inl ⟨f, s, rfl, ?_⟩
          simp only [Command.run, Workspace.updateMatcher, bind, EStateM.bind, Workspace.check, hValid,
            Workspace.onStore, hStore]
      | ok n s =>
          obtain ⟨-, v, hTold, hSame⟩ :=
            Workspace.announce_isAnnouncement n .change actor now u { w with store := s }
          refine Or.inr ⟨n, v, by rw [hSame], ?_⟩
          simp only [Command.run, Workspace.updateMatcher, bind, EStateM.bind, Workspace.check, hValid,
            Workspace.onStore, hStore, hTold]
          rfl

theorem perform_of_ok {j : Json} {v : Workspace} (h : updateMatcher u now id e w = .ok j v) :
    perform u now (.updateMatcher id e) w = (.done [j] none, v) := by
  simp only [perform, printAll, h, List.nil_append]

theorem perform_of_error {f : Failure} {v : Workspace} (h : updateMatcher u now id e w = .error f v) :
    perform u now (.updateMatcher id e) w = (.done [] (some f), v) := by
  simp only [perform, printAll, h]

section

variable {ms : List Matcher} {d : Draft} {c : Matcher.Content}

/-- An edit succeeds when the edited draft is accepted and no other matcher is for the same texts. -/
theorem perform_of_fresh (u : Setup) (now : Int) (hs : w.store.Holds ms) (hGet : w.store.getMatcher id = .ok m)
    (hApply : e.apply w.files u.cwd (.ofContent m.toContent) = .ok d) (hValid : d.validate = .ok c)
    (hStorable : c.IsStorable)
    (hFresh : ¬∃ i n, i ≠ id ∧ w.store.getMatcher i = .ok n ∧ n.spec = c.spec) :
    ∃ w', perform u now (.updateMatcher id e) w = (.done [Matcher.toJson ⟨c, id, m.createdAt⟩] none, w') ∧
      w'.store.getMatcher = Function.update w.store.getMatcher id (.ok ⟨c, id, m.createdAt⟩) := by
  obtain ⟨s, hReplaced, -, hWrites⟩ := (hs.updates id hStorable e.actor now).fresh m hGet hFresh
  have hUpdate := updateMatcher_eq u now e hGet
  rw [Workspace.check_bind_ok hApply] at hUpdate
  rcases run_updateMatcher_cases u now id d e.actor w with ⟨f, hRefused, -⟩ | ⟨c', hAccepted, hStored⟩
  · exact absurd hValid (hRefused c)
  obtain rfl := Except.ok.inj (hValid.symm.trans hAccepted)
  rcases hStored with ⟨f, s', hFailed, -⟩ | ⟨n, v, hDone, hRun⟩
  · exact absurd (hReplaced.symm.trans hFailed) (by simp)
  obtain ⟨rfl, rfl⟩ := EStateM.Result.ok.inj (hReplaced.symm.trans hDone)
  exact ⟨v, perform_of_ok (hUpdate.trans hRun), hWrites.lookup⟩

/-- An edit that is refused leaves the store as it was. -/
theorem perform_of_refused (hs : w.store.Holds ms) (hGet : w.store.getMatcher id = .ok m)
    (hRefused : ∀ d c, e.apply w.files u.cwd (.ofContent m.toContent) = .ok d → d.validate = .ok c →
      c.IsStorable ∧ ∃ i n, i ≠ id ∧ w.store.getMatcher i = .ok n ∧ n.spec = c.spec) :
    ∃ f w', perform u now (.updateMatcher id e) w = (.done [] (some f), w') ∧ w'.store = w.store := by
  have hUpdate := updateMatcher_eq u now e hGet
  cases hApply : e.apply w.files u.cwd (.ofContent m.toContent) with
  | error f =>
      rw [Workspace.check_bind_error hApply] at hUpdate
      exact ⟨f, w, perform_of_error hUpdate, rfl⟩
  | ok d =>
      rw [Workspace.check_bind_ok hApply] at hUpdate
      rcases run_updateMatcher_cases u now id d e.actor w with ⟨f, -, hRun⟩ | ⟨c, hValid, hStored⟩
      · exact ⟨f, w, perform_of_error (hUpdate.trans hRun), rfl⟩
      obtain ⟨hStorable, hTaken⟩ := hRefused d c hApply hValid
      have hConflict := (hs.updates id hStorable e.actor now).taken m hGet hTaken
      rcases hStored with ⟨f, s, hFailed, hRun⟩ | ⟨n, v, hDone, -⟩
      · obtain ⟨-, rfl⟩ := EStateM.Result.error.inj (hConflict.symm.trans hFailed)
        exact ⟨f, w, perform_of_error (hUpdate.trans hRun), rfl⟩
      · exact absurd (hConflict.symm.trans hDone) (by simp)

/-- An edit of a stored matcher puts in what its options name, or it fails and leaves the store as it was. -/
theorem perform_update_cases (hs : w.store.Holds ms) (hLegal : ∀ m ∈ ms, m.toContent.IsLegal)
    (hGet : w.store.getMatcher id = .ok m) (hFile : e.file = none)
    (hOneSpec : e.raw = none ∨ e.regex = none) :
    (∃ n w', perform u now (.updateMatcher id e) w = (.done [n.toJson] none, w') ∧
      w'.store.getMatcher = Function.update w.store.getMatcher id (.ok n) ∧ e.Puts m n) ∨
    ∃ f w', perform u now (.updateMatcher id e) w = (.done [] (some f), w') ∧ w'.store = w.store := by
  obtain ⟨hMem, rfl⟩ := hs.getMatcher_eq_ok_iff.1 hGet
  have hStorable : ∀ d c, e.apply w.files u.cwd (.ofContent m.toContent) = .ok d → d.validate = .ok c →
      c.IsStorable := fun d c hApply hValid =>
    Store.Holds.isStorable_of_admissible (Workspace.isAdmissible_of_validate hValid
      ((Edit.apply_fills hFile hApply).areReadable (hs.storable m hMem).groups))
  by_cases hAccepted : ∃ d c, e.apply w.files u.cwd (.ofContent m.toContent) = .ok d ∧
      d.validate = .ok c ∧ ¬∃ i n, i ≠ m.id ∧ w.store.getMatcher i = .ok n ∧ n.spec = c.spec
  · obtain ⟨d, c, hApply, hValid, hFresh⟩ := hAccepted
    obtain ⟨w', hPerform, hLookup⟩ :=
      perform_of_fresh u now hs hGet hApply hValid (hStorable d c hApply hValid) hFresh
    have hPuts := (Edit.apply_fills hFile hApply).puts (hLegal m hMem) hOneSpec hValid
    exact Or.inl ⟨_, w', hPerform, hLookup, hPuts⟩
  · refine Or.inr (perform_of_refused hs hGet fun d c hApply hValid => ⟨hStorable d c hApply hValid, ?_⟩)
    by_contra hFresh
    exact hAccepted ⟨d, c, hApply, hValid, hFresh⟩

/-- Without options a matcher is stored again as it is. -/
theorem perform_nothing (hs : w.store.Holds ms) (hLegal : ∀ m ∈ ms, m.toContent.IsLegal)
    (hGet : w.store.getMatcher id = .ok m) (actor : String) :
    ∃ w', perform u now (.updateMatcher id (.nothing actor)) w = (.done [m.toJson] none, w') ∧
      w'.store.getMatcher = w.store.getMatcher := by
  obtain ⟨hMem, rfl⟩ := hs.getMatcher_eq_ok_iff.1 hGet
  have hFresh : ¬∃ i n, i ≠ m.id ∧ w.store.getMatcher i = .ok n ∧ n.spec = m.spec := by
    rintro ⟨i, n, hOther, hFound, hSpec⟩
    obtain ⟨hn, rfl⟩ := hs.getMatcher_eq_ok_iff.1 hFound
    have : Std.Symm fun m n : Matcher => m.spec ≠ n.spec := ⟨fun _ _ => Ne.symm⟩
    exact hs.distinct.forall hn hMem (fun hSame => hOther (congrArg Matcher.id hSame)) hSpec
  obtain ⟨w', hPerform, hLookup⟩ := perform_of_fresh u now hs hGet (Edit.apply_nothing actor w.files u.cwd _)
    (Draft.validate_ofContent (hLegal m hMem)) (hs.storable m hMem) hFresh
  exact ⟨w', hPerform, hLookup.trans (Function.update_eq_self_iff.2 hGet.symm)⟩

end

/-- The options of an update name all that it changes. In every store that commands lead to, an update of a
stored matcher puts the values of its options into this matcher, in canonical form, and leaves everything else
there and all other matchers as they were; or it fails, and the store is as it was. Without options it succeeds
and changes no matcher. -/
theorem update_changes_named {u v : Setup} {files : FileTree} {sent : List Notice}
    {history : List (Int × Command)} (hReadable : ∀ c ∈ history, c.2.IsReadable) {w : Workspace}
    (hStore : w.store = (Workspace.after u ⟨.empty, files, sent⟩ history).store) {id : Int} {m : Matcher}
    (hGet : w.store.getMatcher id = .ok m) {e : Edit} (hFile : e.file = none)
    (hOneSpec : e.raw = none ∨ e.regex = none) (now : Int) :
    ((∃ n w', perform v now (.updateMatcher id e) w = (.done [n.toJson] none, w') ∧
      w'.store.getMatcher = Function.update w.store.getMatcher id (.ok n) ∧ e.Puts m n) ∨
    ∃ f w', perform v now (.updateMatcher id e) w = (.done [] (some f), w') ∧ w'.store = w.store) ∧
    ∀ actor, e = .nothing actor →
      ∃ w', perform v now (.updateMatcher id e) w = (.done [m.toJson] none, w') ∧
        w'.store.getMatcher = w.store.getMatcher := by
  obtain ⟨changes, hProper, hEnd⟩ := Workspace.exists_changes_after u ⟨.empty, files, sent⟩ hReadable
  obtain ⟨ms, hFollows⟩ := Store.empty_holds.after_follows fun c hc => (hProper c hc).1
  have hs : w.store.Holds ms := by
    rw [hStore, hEnd]
    exact hFollows.holds
  have hLegal := hFollows.legal (fun c hc => (hProper c hc).2) (by simp)
  refine ⟨perform_update_cases hs hLegal hGet hFile hOneSpec, ?_⟩
  rintro actor rfl
  exact perform_nothing hs hLegal hGet actor

theorem store_endOf_createMatcher {d : Draft} {c : Matcher.Content} (hValid : d.validate = .ok c)
    (u : Setup) (now : Int) (actor : String) (w : Workspace) :
    (endOf ((Command.createMatcher d actor).run u now w)).store =
      endOf (Store.addMatcher c actor now w.store) := by
  simp only [Command.run, Workspace.createMatcher, bind, EStateM.bind, Workspace.check, hValid,
    Workspace.onStore]
  cases Store.addMatcher c actor now w.store with
  | error f s => rfl
  | ok m s =>
      obtain ⟨-, v, hTold, hSame⟩ :=
        Workspace.announce_isAnnouncement m .addition actor now u { w with store := s }
      simp only [hTold]
      exact hSame

/-- The workspace behind the greeting. -/
def greeted : Workspace :=
  Workspace.after .plain ⟨.empty, .empty, []⟩ [(0, .createMatcher (.ofContent .greeting) "ann")]

/-- Options for a raw text with a line end of two characters, and for the text of one more language. -/
def greetYou : Edit := { Edit.nothing "bob" with raw := some "hello\r\nyou", values := [" en =hi=ho"] }

/-- The greeting as the options leave it, before it is validated. -/
def greetingDraft : Draft :=
  { Draft.ofContent .greeting with
    raw := "hello\r\nyou", pattern := "", flags := ""
    replacements := Matcher.Content.greeting.replacements.insert "en" "hi=ho" }

def greetingYou : Matcher.Content :=
  { Matcher.Content.greeting with
    spec := .raw "hello\nyou"
    replacements := Matcher.Content.greeting.replacements.insert "en" "hi=ho" }

theorem greeted_holds : greeted.store.Holds [⟨.greeting, 1, 0⟩] := by
  have hStorable : Matcher.Content.greeting.IsStorable :=
    ⟨Matcher.Content.isLegal_greeting.spec, by decide⟩
  rw [greeted, Workspace.after, List.foldl_cons, List.foldl_nil,
    store_endOf_createMatcher (Draft.validate_ofContent Matcher.Content.isLegal_greeting),
    Store.empty_holds.addMatcher_of_fresh hStorable (by simp)]
  exact Store.empty_holds.added_holds hStorable (by simp) "ann" 0

/-- The options are carried out on the greeting: no other matcher is in the way. -/
theorem perform_greetYou : ∃ w', perform .plain 1 (.updateMatcher 1 greetYou) greeted =
    (.done [Matcher.toJson ⟨greetingYou, 1, 0⟩] none, w') := by
  have hGet := greeted_holds.getMatcher_of_mem (List.mem_singleton_self _)
  have hApply : greetYou.apply greeted.files Setup.plain.cwd (.ofContent .greeting) = .ok greetingDraft := rfl
  have hValid : greetingDraft.validate = .ok greetingYou := rfl
  have hStorable : greetingYou.IsStorable := ⟨(Draft.isLegal_of_validate hValid).spec, by decide⟩
  have hFresh : ¬∃ i n, i ≠ (1 : Int) ∧ greeted.store.getMatcher i = .ok n ∧ n.spec = greetingYou.spec := by
    rintro ⟨i, n, hOther, hFound, -⟩
    obtain ⟨hMem, rfl⟩ := greeted_holds.getMatcher_eq_ok_iff.1 hFound
    obtain rfl := List.mem_singleton.1 hMem
    exact hOther rfl
  obtain ⟨w', hPerform, -⟩ := perform_of_fresh .plain 1 greeted_holds hGet hApply hValid
    hStorable hFresh
  exact ⟨w', hPerform⟩

/-- The greeting becomes a raw text in two languages, and its category, its groups and its priority stay. -/
theorem greeting_becomes_raw : ∃ (n : Matcher) (w' : Workspace),
    perform .plain 1 (.updateMatcher 1 greetYou) greeted = (.done [n.toJson] none, w') ∧
      n.spec = .raw "hello\nyou" ∧ n.replacements.get? "en" = some "hi=ho" ∧
      n.replacements.get? "ko" = some "안녕 $1" ∧ n.category = "greetings" ∧
      n.groups = Matcher.Content.greeting.groups ∧ n.priority = 3 ∧ n.createdAt = 0 := by
  have hReadable : ∀ c ∈ [((0 : Int), Command.createMatcher (.ofContent .greeting) "ann")],
      c.2.IsReadable := by
    rw [List.forall_mem_singleton]
    exact show Group.AreReadable Matcher.Content.greeting.groups by decide
  have hGet := greeted_holds.getMatcher_of_mem (List.mem_singleton_self _)
  obtain ⟨w', hPerform⟩ := perform_greetYou
  rcases (update_changes_named (v := .plain) (w := greeted) hReadable rfl hGet (e := greetYou) rfl
    (Or.inr rfl) 1).1 with ⟨n, w', hDone, -, hPuts⟩ | ⟨f, w'', hFailed, -⟩
  · refine ⟨n, w', hDone, hPuts.raw _ rfl, ?_, ?_, hPuts.category, hPuts.groupsKept rfl, hPuts.priority,
      hPuts.createdAt⟩
    · rw [hPuts.replacements]
      rfl
    · rw [hPuts.replacements]
      rfl
  · exact absurd (hPerform.symm.trans hFailed) (by simp)

end Cli

end Phrasebook
