import Mathlib.Data.List.Infix
import Phrasebook.Proofs.Matcher.Legal

/-!
What validation accepts and what it reports. A draft is accepted exactly when it keeps all rules, and else there
is one fault for each rule that it breaks, and for each flag that should not be where it is. What is accepted
is the draft with its line ends unified and with the blanks around category and flags taken away.
-/

namespace Phrasebook

namespace Text

/-- A text and the same text with one line feed in the place of each line end that has a carriage return. -/
inductive UnifiesTo : List Char → List Char → Prop
  | nil : UnifiesTo [] []
  | pair {rest unified : List Char} (h : UnifiesTo rest unified) :
      UnifiesTo ('\r' :: '\n' :: rest) ('\n' :: unified)
  | lone {rest unified : List Char} (hLone : rest.head? ≠ some '\n') (h : UnifiesTo rest unified) :
      UnifiesTo ('\r' :: rest) ('\n' :: unified)
  | other {c : Char} {rest unified : List Char} (hOther : c ≠ '\r') (h : UnifiesTo rest unified) :
      UnifiesTo (c :: rest) (c :: unified)

theorem unifiesTo_unifyNewlinesList (cs : List Char) : UnifiesTo cs (unifyNewlinesList cs) := by
  fun_induction unifyNewlinesList cs with
  | case1 rest ih => exact .pair ih
  | case2 rest hNoFeed ih =>
      refine .lone (fun hHead => ?_) ih
      obtain ⟨more, rfl⟩ := List.head?_eq_some_iff.1 hHead
      exact hNoFeed more rfl
  | case3 c rest _ hNoReturn ih => exact .other (fun hReturn => hNoReturn hReturn) ih
  | case4 => exact .nil

theorem unifyNewlines_eq_empty_iff {s : String} : unifyNewlines s = "" ↔ s = "" := by
  constructor
  · intro h
    have hList : unifyNewlinesList s.toList = [] := by
      rw [← String.toList_ofList (l := unifyNewlinesList s.toList)]
      exact congrArg String.toList h
    cases hs : s.toList with
    | nil => exact String.toList_eq_nil_iff.1 hs
    | cons c rest =>
        rw [hs] at hList
        have hUnified := unifiesTo_unifyNewlinesList (c :: rest)
        rw [hList] at hUnified
        cases hUnified
  · rintro rfl
    rfl

end Text

namespace Draft

/-- The category, without the blanks around it, has 1 to 50 characters. -/
def HasCategory (d : Draft) : Prop :=
  1 ≤ (Text.trim d.category).length ∧ (Text.trim d.category).length ≤ 50

/-- There is a text or a pattern, and not both. -/
def HasOneText (d : Draft) : Prop := d.raw ≠ "" ∧ d.pattern = "" ∨ d.raw = "" ∧ d.pattern ≠ ""

instance (d : Draft) : Decidable d.HasCategory := inferInstanceAs (Decidable (_ ∧ _))

instance (d : Draft) : Decidable d.HasOneText := inferInstanceAs (Decidable (_ ∨ _))

/-- The flags without the blanks around them. -/
def givenFlags (d : Draft) : List Char := (Text.trim d.flags).toList

/-- All rules for a draft. -/
structure IsLawful (d : Draft) : Prop where
  category : d.HasCategory
  text : d.HasOneText
  noFlags : d.raw ≠ "" → d.givenFlags = []
  knownFlags : d.pattern ≠ "" → ∀ c ∈ d.givenFlags, c ∈ ['d', 'g', 'i', 'm', 's', 'u', 'v', 'y']
  distinctFlags : d.pattern ≠ "" → d.givenFlags.Nodup
  replaced : d.replacements.entries ≠ []

/-- What is wrong with a flag behind the flags in front of it: it is unknown, or it is one of them. -/
def offence? (front : List Char) (flag : Char) : Option Draft.Fault :=
  if flag ∉ Draft.knownFlags then some (.unknownFlag flag)
  else if flag ∈ front then some (.repeatedFlag flag)
  else none

/-- The offences of all flags in their order, each flag with those in front of it. -/
def offences (flags : List Char) : List Draft.Fault :=
  (flags.zip flags.inits).filterMap fun e => offence? e.2 e.1

/-- The fault of a category that breaks its rule. -/
def categoryBreaches (d : Draft) : List Draft.Fault :=
  if d.HasCategory then []
  else if Text.trim d.category = "" then [.categoryMissing]
  else [.categoryTooLong]

/-- The faults of text and flags. The rules for flags hold only where there is one text. -/
def textBreaches (d : Draft) : List Draft.Fault :=
  if ¬d.HasOneText then [.rawOrPattern]
  else if d.pattern ≠ "" then offences d.givenFlags
  else if d.givenFlags ≠ [] then [.flagsWithRaw]
  else []

/-- One fault for each rule that is broken. -/
def breaches (d : Draft) : List Draft.Fault :=
  d.categoryBreaches ++ d.textBreaches ++
    if d.replacements.entries = [] then [.replacementMissing] else []

theorem offence?_congr {front others : List Char} (h : ∀ c, c ∈ front ↔ c ∈ others) (flag : Char) :
    offence? front flag = offence? others flag := by
  rw [offence?, offence?]
  simp only [h]

/-- The flags that were seen before count as in front of all others. -/
theorem flagFaults_eq (seen flags : List Char) :
    flagFaults seen flags =
      (flags.zip flags.inits).filterMap fun e => offence? (seen ++ e.2) e.1 := by
  induction flags generalizing seen with
  | nil => rfl
  | cons c rest ih =>
      have hHead : (if !Draft.knownFlags.contains c then [Fault.unknownFlag c]
          else if seen.contains c then [Fault.repeatedFlag c] else []) =
          (offence? (seen ++ []) c).toList := by
        rw [offence?, List.append_nil]
        by_cases hKnown : c ∈ Draft.knownFlags <;> by_cases hSeen : c ∈ seen <;> simp [hKnown, hSeen]
      have hMoved : (fun e : Char × List Char => offence? (c :: seen ++ e.2) e.1) =
          fun e => offence? (seen ++ c :: e.2) e.1 :=
        funext fun e => offence?_congr (fun d => by simp [or_left_comm]) e.1
      rw [flagFaults, ih, hHead, hMoved, List.inits_cons, List.zip_cons_cons, List.zip_map_right,
        List.filterMap_cons, List.filterMap_map]
      cases offence? (seen ++ []) c <;> rfl

theorem isEmpty_unifyNewlines (s : String) : (Text.unifyNewlines s).isEmpty = decide (s = "") := by
  rw [Bool.eq_iff_iff, String.isEmpty_iff, Text.unifyNewlines_eq_empty_iff, decide_eq_true_iff]

theorem textBreaches_eq (d : Draft) :
    (specWithFaults (Text.unifyNewlines d.raw) (Text.unifyNewlines d.pattern) (Text.trim d.flags)).2 =
      d.textBreaches := by
  have hFlags : (Text.trim d.flags).isEmpty = decide (d.givenFlags = []) := by
    rw [Bool.eq_iff_iff, String.isEmpty_iff, decide_eq_true_iff, givenFlags, String.toList_eq_nil_iff]
  rw [specWithFaults, isEmpty_unifyNewlines, isEmpty_unifyNewlines, hFlags, flagFaults_eq]
  by_cases hRaw : d.raw = "" <;> by_cases hPattern : d.pattern = "" <;>
    simp [textBreaches, HasOneText, hRaw, hPattern, offences, givenFlags]

theorem categoryBreaches_eq (d : Draft) :
    categoryFaults (Text.trim d.category) = d.categoryBreaches := by
  have hSome : d.HasCategory ↔ Text.trim d.category ≠ "" ∧ (Text.trim d.category).length ≤ 50 := by
    rw [HasCategory, Nat.one_le_iff_ne_zero, ne_eq, String.length_eq_zero_iff]
  by_cases hMissing : Text.trim d.category = "" <;>
    by_cases hLong : 50 < (Text.trim d.category).length <;>
    simp [categoryFaults, categoryBreaches, hSome, hMissing, hLong, categoryLimit, ← Nat.not_lt]

theorem findFaults_eq (d : Draft) : d.findFaults = d.breaches := by
  have hReplaced : replacementFaults d.replacements =
      if d.replacements.entries = [] then [.replacementMissing] else [] := by
    simp [replacementFaults, Replacements.isEmpty, List.isEmpty_iff]
  rw [findFaults, categoryBreaches_eq, textBreaches_eq, hReplaced, breaches]

theorem offences_eq_nil_iff (flags : List Char) :
    offences flags = [] ↔ (∀ c ∈ flags, c ∈ Draft.knownFlags) ∧ flags.Nodup := by
  have hSame : flagFaults [] flags = offences flags := flagFaults_eq [] flags
  rw [← hSame, flagFaults_eq_nil_iff]
  simp [and_comm]

theorem categoryBreaches_eq_nil_iff (d : Draft) : d.categoryBreaches = [] ↔ d.HasCategory := by
  rw [categoryBreaches]
  split_ifs <;> simp_all

theorem textBreaches_eq_nil_iff (d : Draft) :
    d.textBreaches = [] ↔
      d.HasOneText ∧ (d.raw ≠ "" → d.givenFlags = []) ∧
        (d.pattern ≠ "" → (∀ c ∈ d.givenFlags, c ∈ Draft.knownFlags) ∧ d.givenFlags.Nodup) := by
  rw [textBreaches]
  by_cases hRaw : d.raw = "" <;> by_cases hPattern : d.pattern = "" <;>
    simp [HasOneText, hRaw, hPattern, offences_eq_nil_iff]

theorem breaches_eq_nil_iff (d : Draft) : d.breaches = [] ↔ d.IsLawful := by
  have hReplaced : (if d.replacements.entries = [] then [Draft.Fault.replacementMissing] else []) = [] ↔
      d.replacements.entries ≠ [] := by
    split_ifs <;> simp_all
  rw [breaches, List.append_eq_nil_iff, List.append_eq_nil_iff, categoryBreaches_eq_nil_iff,
    textBreaches_eq_nil_iff, hReplaced]
  constructor
  · rintro ⟨⟨hCategory, hOneText, hNoFlags, hFlags⟩, hSome⟩
    exact ⟨hCategory, hOneText, hNoFlags, fun h => (hFlags h).1, fun h => (hFlags h).2, hSome⟩
  · intro h
    exact ⟨⟨h.category, h.text, h.noFlags, fun hSome => ⟨h.knownFlags hSome, h.distinctFlags hSome⟩⟩,
      h.replaced⟩

/-- Where a rule is broken, the faults are all that is told. -/
theorem validate_of_breaches {d : Draft} (h : d.breaches ≠ []) :
    d.validate = .error (.faults (d.breaches.map Fault.toFault)) := by
  rw [← findFaults_eq] at h ⊢
  obtain ⟨fault, more, hFaults⟩ := List.exists_cons_of_ne_nil h
  rw [validate, hFaults]

/-- The spec is the text or the pattern of a draft with its line ends unified. -/
def Describes (d : Draft) : Matcher.Spec → Prop
  | .raw text => d.pattern = "" ∧ Text.UnifiesTo d.raw.toList text.toList
  | .regex pattern flags =>
    d.raw = "" ∧ Text.UnifiesTo d.pattern.toList pattern.toList ∧ flags = Text.trim d.flags

theorem exists_spec_iff (d : Draft) :
    (∃ spec, (specWithFaults (Text.unifyNewlines d.raw) (Text.unifyNewlines d.pattern)
      (Text.trim d.flags)).1 = some spec) ↔ d.HasOneText := by
  rw [specWithFaults, isEmpty_unifyNewlines, isEmpty_unifyNewlines]
  by_cases hRaw : d.raw = "" <;> by_cases hPattern : d.pattern = "" <;>
    simp [HasOneText, hRaw, hPattern]

theorem describes_of_specWithFaults {d : Draft} {spec : Matcher.Spec}
    (h : (specWithFaults (Text.unifyNewlines d.raw) (Text.unifyNewlines d.pattern)
      (Text.trim d.flags)).1 = some spec) : d.Describes spec := by
  have hUnified : ∀ s, Text.UnifiesTo s.toList (Text.unifyNewlines s).toList := fun s => by
    rw [Text.unifyNewlines, String.toList_ofList]
    exact Text.unifiesTo_unifyNewlinesList s.toList
  rw [specWithFaults, isEmpty_unifyNewlines, isEmpty_unifyNewlines] at h
  by_cases hRaw : d.raw = "" <;> by_cases hPattern : d.pattern = "" <;>
    simp only [hRaw, hPattern, decide_true, decide_false, Option.some.injEq, reduceCtorEq] at h
  · subst h
    exact ⟨hRaw, hUnified _, rfl⟩
  · subst h
    exact ⟨hPattern, hUnified _⟩

/-- The content is the draft in its canonical form: the category is the one without blanks that its rule is
about, the text has unified line ends, and all else is the draft's. -/
structure IsCanonicalForm (d : Draft) (c : Matcher.Content) : Prop where
  category : c.category = Text.trim d.category
  spec : d.Describes c.spec
  noReturn : ∀ text ∈ [c.spec.columns.1, c.spec.columns.2.1, c.spec.columns.2.2], '\r' ∉ text.toList
  replacements : c.replacements = d.replacements
  groups : c.groups = d.groups
  priority : c.priority = d.priority
  ignorePart : c.ignorePart = d.ignorePart
  memo : c.memo = d.memo

theorem return_notMem_columns {spec : Matcher.Spec} (h : spec.IsLegal) :
    ∀ text ∈ [spec.columns.1, spec.columns.2.1, spec.columns.2.2], '\r' ∉ text.toList := by
  cases spec with
  | raw text =>
      simp only [Matcher.Spec.columns, List.forall_mem_cons]
      exact ⟨h.2, by simp, by simp, by simp⟩
  | regex pattern flags =>
      obtain ⟨-, hReturn, -, hKnown⟩ := h
      simp only [Matcher.Spec.columns, List.forall_mem_cons]
      exact ⟨by simp, hReturn, fun hMem => absurd (hKnown _ hMem) (by decide), by simp⟩

/-- A draft with blanks around its category and with line ends of two kinds. -/
def untidy : Draft := ⟨" towns ", "hello\r\nyou\r", "", "", .ofList [("ko", "안녕")], [], 0, false, ""⟩

/-- A draft that breaks a rule in every part. -/
def faulty : Draft := ⟨" ", "", "a", " xgg ", .empty, [], 0, false, ""⟩

end Draft

end Phrasebook
