import Mathlib.Data.List.Nodup
import Phrasebook.Matcher.Draft
import Phrasebook.Proofs.Text.Canonical

/-!
Legal contents. Validation gives legal contents only, and of a draft that describes a legal content it
gives that content back. So a content is legal exactly when it is a fixed point of validation.
-/

namespace Phrasebook

/-- A raw text or a pattern that is there and has no carriage return, with known and different flags. -/
def Matcher.Spec.IsLegal : Matcher.Spec → Prop
  | .raw text => text ≠ "" ∧ '\r' ∉ text.toList
  | .regex pattern flags =>
    pattern ≠ "" ∧ '\r' ∉ pattern.toList ∧ flags.toList.Nodup ∧
      ∀ c ∈ flags.toList, c ∈ Draft.knownFlags

structure Matcher.Content.IsLegal (c : Matcher.Content) : Prop where
  category_trimmed : Text.trim c.category = c.category
  category_ne : c.category ≠ ""
  category_length : c.category.length ≤ Draft.categoryLimit
  spec : c.spec.IsLegal
  replaced : c.replacements.entries ≠ []

namespace Draft

theorem flagFaults_eq_nil_iff (seen flags : List Char) :
    flagFaults seen flags = [] ↔
      flags.Nodup ∧ (∀ c ∈ flags, c ∉ seen) ∧ ∀ c ∈ flags, c ∈ knownFlags := by
  induction flags generalizing seen with
  | nil => simp [flagFaults]
  | cons c rest ih =>
      rw [flagFaults, List.append_eq_nil_iff, ih]
      by_cases hKnown : c ∈ knownFlags
      · by_cases hSeen : c ∈ seen
        · simp [hKnown, hSeen]
        · simp only [hKnown, hSeen, List.contains_eq_mem, decide_true, decide_false, Bool.not_true,
            Bool.false_eq_true, if_false, true_and, List.nodup_cons, List.forall_mem_cons]
          constructor
          · rintro ⟨hNodup, hNew, hAll⟩
            exact ⟨⟨fun hMem => hNew c hMem List.mem_cons_self, hNodup⟩,
              ⟨fun h => h, fun d hd hMem => hNew d hd (List.mem_cons_of_mem c hMem)⟩, hAll⟩
          · rintro ⟨⟨hNotMem, hNodup⟩, ⟨-, hNew⟩, hAll⟩
            refine ⟨hNodup, fun d hd hMem => ?_, hAll⟩
            rcases List.mem_cons.1 hMem with rfl | hMem
            · exact hNotMem hd
            · exact hNew d hd hMem
      · simp [hKnown]

theorem categoryFaults_eq_nil_iff (category : String) :
    categoryFaults category = [] ↔ category ≠ "" ∧ category.length ≤ categoryLimit := by
  unfold categoryFaults
  split_ifs with hEmpty hLong
  · simp [String.isEmpty_iff.1 hEmpty]
  · simp only [false_iff, not_and, not_le]
    exact fun _ => hLong
  · simp only [true_iff]
    exact ⟨fun h => hEmpty (h ▸ rfl), Nat.le_of_not_lt hLong⟩

theorem trim_legal_flags {flags : String} (h : ∀ c ∈ flags.toList, c ∈ knownFlags) :
    Text.trim flags = flags := by
  have hVisible : knownFlags.all (fun c => !Text.isBlank c) = true := by decide
  refine Text.trim_eq_self fun c hc => ?_
  simpa using List.all_eq_true.1 hVisible c (h c hc)

/-- The texts of a draft, once they are canonical, make a legal spec or have a fault. -/
theorem isLegal_of_specWithFaults {raw pattern flags : String} {spec : Matcher.Spec}
    (hRaw : '\r' ∉ raw.toList) (hPattern : '\r' ∉ pattern.toList)
    (h : specWithFaults raw pattern flags = (some spec, [])) : spec.IsLegal := by
  unfold specWithFaults at h
  split at h
  next hEmpty _ =>
    obtain ⟨hSpec, -⟩ := Prod.mk.inj h
    obtain rfl := Option.some.inj hSpec
    exact ⟨fun hNil => by simp [hNil] at hEmpty, hRaw⟩
  next _ hEmpty =>
    obtain ⟨hSpec, hFaults⟩ := Prod.mk.inj h
    obtain rfl := Option.some.inj hSpec
    obtain ⟨hNodup, -, hKnown⟩ := (flagFaults_eq_nil_iff [] flags.toList).1 hFaults
    exact ⟨fun hNil => by simp [hNil] at hEmpty, hPattern, hNodup, hKnown⟩
  next => simp at h

/-- Validation gives the fields of a draft, once their texts are canonical, exactly when it finds no
fault. -/
theorem validate_eq_ok_iff (d : Draft) (c : Matcher.Content) :
    d.validate = .ok c ↔
      d.findFaults = [] ∧
        ∃ spec,
          (specWithFaults (Text.unifyNewlines d.raw) (Text.unifyNewlines d.pattern)
            (Text.trim d.flags)).1 = some spec ∧
          c = ⟨Text.trim d.category, spec, d.replacements, d.groups, d.priority, d.ignorePart,
            d.memo⟩ := by
  unfold validate
  split
  next spec? faults hWith =>
    rw [hWith]
    split
    next spec hNone =>
      constructor
      · intro hOk
        exact ⟨hNone, spec, rfl, (Except.ok.inj hOk).symm⟩
      · rintro ⟨-, spec', hSpec, rfl⟩
        obtain rfl := Option.some.inj hSpec
        rfl
    next =>
      constructor
      · intro hOk
        simp at hOk
      · rintro ⟨-, spec, hSpec, -⟩
        simp at hSpec
    next hFault _ =>
      constructor
      · intro hOk
        simp at hOk
      · rintro ⟨hNone, spec, hSpec, -⟩
        exact absurd hSpec (hFault spec hNone)

theorem isLegal_of_validate {d : Draft} {c : Matcher.Content} (h : d.validate = .ok c) :
    c.IsLegal := by
  obtain ⟨hFaults, spec, hSpec, rfl⟩ := (validate_eq_ok_iff d c).1 h
  simp only [findFaults, List.append_eq_nil_iff] at hFaults
  obtain ⟨⟨hCategory, hSpecFaults⟩, hReplaced⟩ := hFaults
  obtain ⟨hPresent, hShort⟩ := (categoryFaults_eq_nil_iff _).1 hCategory
  have hLegal : spec.IsLegal :=
    isLegal_of_specWithFaults (Text.return_notMem_unifyNewlines d.raw)
      (Text.return_notMem_unifyNewlines d.pattern) (Prod.ext hSpec hSpecFaults)
  refine ⟨Text.trim_trim d.category, hPresent, hShort, hLegal, ?_⟩
  intro hNone
  simp only [replacementFaults, Replacements.isEmpty] at hReplaced
  simp [show d.replacements.entries = [] from hNone] at hReplaced

/-- The columns of a legal spec are canonical and describe that spec. -/
theorem specWithFaults_columns {spec : Matcher.Spec} (h : spec.IsLegal) :
    specWithFaults (Text.unifyNewlines spec.columns.1) (Text.unifyNewlines spec.columns.2.1)
      (Text.trim spec.columns.2.2) = (some spec, []) := by
  have hEmpty : Text.unifyNewlines "" = "" := Text.unifyNewlines_of_notMem (by simp)
  have hNone : String.isEmpty "" = true := rfl
  cases spec with
  | raw text =>
      obtain ⟨hNe, hReturn⟩ := h
      have hTrim : Text.trim "" = "" := by decide
      have hText : text.isEmpty = false := by simpa using hNe
      simp only [Matcher.Spec.columns, hEmpty, hTrim, Text.unifyNewlines_of_notMem hReturn]
      simp [specWithFaults, hText, hNone]
  | regex pattern flags =>
      obtain ⟨hNe, hReturn, hNodup, hKnown⟩ := h
      have hPattern : pattern.isEmpty = false := by simpa using hNe
      have hFaults := (flagFaults_eq_nil_iff [] flags.toList).2 ⟨hNodup, by simp, hKnown⟩
      simp only [Matcher.Spec.columns, hEmpty, trim_legal_flags hKnown,
        Text.unifyNewlines_of_notMem hReturn]
      simp [specWithFaults, hPattern, hNone, hFaults]

/-- A legal content is what its draft is validated to. -/
theorem validate_ofContent {c : Matcher.Content} (h : c.IsLegal) :
    (ofContent c).validate = .ok c := by
  have hColumns := specWithFaults_columns h.spec
  have hCategory := (categoryFaults_eq_nil_iff c.category).2 ⟨h.category_ne, h.category_length⟩
  have hReplaced : replacementFaults c.replacements = [] := by
    simp [replacementFaults, Replacements.isEmpty, h.replaced]
  refine (validate_eq_ok_iff (ofContent c) c).2 ⟨?_, c.spec, ?_, ?_⟩
  · simp only [findFaults, ofContent, h.category_trimmed, hCategory, hColumns, hReplaced,
      List.append_nil]
  · simp only [ofContent, hColumns]
  · simp only [ofContent, h.category_trimmed]

end Draft

end Phrasebook
