import Phrasebook.Proofs.Book.Lookups

/-!
Which entry decides. A raw text decides on its target, and without one the first pattern that fits. Of several
entries it is the one of the highest priority, and of the lowest id among these. The order in which the entries are
listed plays no part.
-/

namespace Phrasebook

variable {engine : Regex.Engine} {entries others : List Pack.Entry}

namespace Pack.Entry

/-- Among the entries that have a property, `e` precedes all others. -/
structure IsFirst (entries : List Pack.Entry) (p : Pack.Entry → Prop) (e : Pack.Entry) : Prop where
  mem : e ∈ entries
  holds : p e
  precedes : ∀ f ∈ entries, p f → f ≠ e → e.Precedes f

theorem IsFirst.unique {p : Pack.Entry → Prop} {e f : Pack.Entry} (he : IsFirst entries p e)
    (hf : IsFirst entries p f) : e = f := by
  by_contra hNe
  have hForth := he.precedes f hf.mem hf.holds (Ne.symm hNe)
  have hBack := hf.precedes e he.mem he.holds hNe
  rw [Precedes] at hForth hBack
  omega

/-- The entry has no raw text, its pattern can be read, and `hit` is the first one in the target. -/
structure FitsAt (engine : Regex.Engine) (target : String) (e : Pack.Entry) (c : Regex.Compiled)
    (hit : Regex.Hit) : Prop where
  raw : e.raw = none
  compiled : ∃ p, e.regex = some p ∧ engine p.source p.flags = some c
  first : c.first? target.toList = some hit

theorem FitsAt.unique {target : String} {e : Pack.Entry} {c c' : Regex.Compiled}
    {hit hit' : Regex.Hit} (h : e.FitsAt engine target c hit) (h' : e.FitsAt engine target c' hit') :
    c = c' ∧ hit = hit' := by
  obtain ⟨p, hPattern, hCompiled⟩ := h.compiled
  obtain ⟨p', hPattern', hCompiled'⟩ := h'.compiled
  obtain rfl := Option.some.inj (hPattern.symm.trans hPattern')
  obtain rfl := Option.some.inj (hCompiled.symm.trans hCompiled')
  exact ⟨rfl, Option.some.inj (h.first.symm.trans h'.first)⟩

def Fits (engine : Regex.Engine) (target : String) (e : Pack.Entry) : Prop :=
  ∃ c hit, e.FitsAt engine target c hit

end Pack.Entry

@[simp]
theorem Rule.entry_ofEntry (engine : Regex.Engine) (e : Pack.Entry) :
    (Rule.ofEntry engine e).entry = e := rfl

namespace Book

open Pack.Entry (IsFirst Precedes)

/-- What the entries of a category have for a target, without regard to how they are listed. -/
inductive Decides (engine : Regex.Engine) (entries : List Pack.Entry) (category target : String) :
    Verdict → Prop where
  | raw {e : Pack.Entry}
      (hFirst : IsFirst entries (fun f => f.category = category ∧ f.raw = some target) e) :
      Decides engine entries category target (.raw e.replacements)
  | pattern {e : Pack.Entry} {c : Regex.Compiled} {hit : Regex.Hit}
      (hRaw : ∀ f ∈ entries, f.category = category → f.raw ≠ some target)
      (hFirst : IsFirst entries (fun f => f.category = category ∧ f.Fits engine target) e)
      (hFits : e.FitsAt engine target c hit) :
      Decides engine entries category target (.pattern (Rule.ofEntry engine e) c hit)
  | nothing (hRaw : ∀ f ∈ entries, f.category = category → f.raw ≠ some target)
      (hPattern : ∀ f ∈ entries, f.category = category → ¬f.Fits engine target) :
      Decides engine entries category target .nothing

variable {category target : String}

theorem Decides.unique {v w : Verdict} (hv : Decides engine entries category target v)
    (hw : Decides engine entries category target w) : v = w := by
  cases hv with
  | raw hFirst =>
      cases hw with
      | raw hOther => rw [hFirst.unique hOther]
      | pattern hRaw => exact absurd hFirst.holds.2 (hRaw _ hFirst.mem hFirst.holds.1)
      | nothing hRaw => exact absurd hFirst.holds.2 (hRaw _ hFirst.mem hFirst.holds.1)
  | pattern hRaw hFirst hFits =>
      cases hw with
      | raw hOther => exact absurd hOther.holds.2 (hRaw _ hOther.mem hOther.holds.1)
      | pattern _ hOther hFitsOther =>
          obtain rfl := hFirst.unique hOther
          obtain ⟨rfl, rfl⟩ := hFits.unique hFitsOther
          rfl
      | nothing _ hPattern => exact absurd hFirst.holds.2 (hPattern _ hFirst.mem hFirst.holds.1)
  | nothing hRaw hPattern =>
      cases hw with
      | raw hOther => exact absurd hOther.holds.2 (hRaw _ hOther.mem hOther.holds.1)
      | pattern _ hOther => exact absurd hOther.holds.2 (hPattern _ hOther.mem hOther.holds.1)
      | nothing => rfl

theorem compiled_ofEntry {e : Pack.Entry} {c : Regex.Compiled} :
    (Rule.ofEntry engine e).compiled = some c ↔
      e.raw = none ∧ ∃ p, e.regex = some p ∧ engine p.source p.flags = some c := by
  rw [Rule.ofEntry]
  cases hRaw : e.raw with
  | some text => simp
  | none => simp [Option.bind_eq_some_iff]

/-- The rule of an entry is what a search for a pattern comes to when the entry fits. -/
theorem fits_ofEntry_iff {e : Pack.Entry} {r : Rule} {c : Regex.Compiled} {hit : Regex.Hit} :
    ((Rule.ofEntry engine e).compiled.bind fun c =>
        (c.first? target.toList).map fun hit => (Rule.ofEntry engine e, c, hit)) = some (r, c, hit) ↔
      Rule.ofEntry engine e = r ∧ e.FitsAt engine target c hit := by
  rw [Option.bind_eq_some_iff]
  constructor
  · rintro ⟨c', hCompiled, hHit⟩
    obtain ⟨hit', hFirst, hEq⟩ := Option.map_eq_some_iff.1 hHit
    cases hEq
    obtain ⟨hRaw, hRead⟩ := compiled_ofEntry.1 hCompiled
    exact ⟨rfl, hRaw, hRead, hFirst⟩
  · rintro ⟨rfl, hFits⟩
    exact ⟨c, compiled_ofEntry.2 ⟨hFits.raw, hFits.compiled⟩, by rw [hFits.first]; rfl⟩

theorem not_fits_of_eq_none {e : Pack.Entry}
    (h : ((Rule.ofEntry engine e).compiled.bind fun c =>
      (c.first? target.toList).map fun hit => (Rule.ofEntry engine e, c, hit)) = none) :
    ¬e.Fits engine target := by
  rintro ⟨c, hit, hFits⟩
  cases h.symm.trans (fits_ofEntry_iff.2 ⟨rfl, hFits⟩)

/-- The first rule of a category with some property comes from the entry that precedes all others with it. -/
theorem isFirst_of_rulesOf (hIds : (entries.map (·.id)).Nodup) {p : Pack.Entry → Prop} {e : Pack.Entry}
    {before after : List Rule}
    (hRules : (ofEntries engine entries).rulesOf category = before ++ Rule.ofEntry engine e :: after)
    (he : p e) (hBefore : ∀ f, Rule.ofEntry engine f ∈ before → ¬p f) :
    IsFirst entries (fun f => f.category = category ∧ p f) e := by
  have hMem : ∀ f, f ∈ entries ∧ f.category = category ↔
      Rule.ofEntry engine f ∈ before ++ Rule.ofEntry engine e :: after := by
    intro f
    rw [← hRules, mem_rulesOf_ofEntries]
    constructor
    · rintro ⟨hf, hCategory⟩
      exact ⟨f, hf, hCategory, rfl⟩
    · rintro ⟨f', hf, hCategory, hSame⟩
      obtain rfl : f' = f := by simpa using congrArg Rule.entry hSame
      exact ⟨hf, hCategory⟩
  obtain ⟨heMem, heCategory⟩ := (hMem e).2 (by simp)
  refine ⟨heMem, ⟨heCategory, he⟩, fun f hf ⟨hCategory, hp⟩ hNe => ?_⟩
  have hOrder := rulesOf_pairwise engine entries category
  rw [hRules, List.pairwise_append, List.pairwise_cons] at hOrder
  rcases List.mem_append.1 ((hMem f).1 ⟨hf, hCategory⟩) with hEarlier | hRest
  · exact absurd hp (hBefore f hEarlier)
  · rcases List.mem_cons.1 hRest with hSame | hLater
    · exact absurd (by simpa using congrArg Rule.entry hSame) hNe
    · have hPrecedes := Rule.precedes_iff.1 (hOrder.2.1.1 _ hLater)
      have hId : e.id ≠ f.id := fun hEq => hNe (List.inj_on_of_nodup_map hIds hf heMem hEq.symm)
      rw [Rule.entry_ofEntry, Rule.entry_ofEntry] at hPrecedes
      rw [Precedes]
      omega

theorem rawFor?_eq_none_iff : (ofEntries engine entries).rawFor? category target = none ↔
    ∀ f ∈ entries, f.category = category → f.raw ≠ some target := by
  rw [← Option.not_isSome_iff_eq_none, isSome_rawFor?_ofEntries]
  push Not
  rfl

/-- The book comes to what its entries decide. -/
theorem decides_verdict (engine : Regex.Engine) (hIds : (entries.map (·.id)).Nodup)
    (category target : String) :
    Decides engine entries category target ((ofEntries engine entries).verdict category target) := by
  cases hVerdict : (ofEntries engine entries).verdict category target with
  | raw r =>
      have hRaw := verdict_eq_raw_iff.1 hVerdict
      obtain ⟨rule, hFind, rfl⟩ := Option.map_eq_some_iff.1 hRaw
      obtain ⟨hTarget, before, after, hRules, hBefore⟩ := List.find?_eq_some_iff_append.1 hFind
      obtain ⟨e, -, -, rfl⟩ := mem_rulesOf_ofEntries.1 (List.mem_of_find?_eq_some hFind)
      refine .raw (e := e) (isFirst_of_rulesOf hIds hRules (by simpa using hTarget) fun f hf => ?_)
      simpa using hBefore _ hf
  | pattern rule c hit =>
      obtain ⟨hRaw, hPattern⟩ := verdict_eq_pattern_iff.1 hVerdict
      obtain ⟨before, r, after, hRules, hFound, hBefore⟩ := List.findSome?_eq_some_iff.1 hPattern
      obtain ⟨e, -, -, rfl⟩ := (mem_rulesOf_ofEntries (r := r)).1 (by rw [hRules]; simp)
      obtain ⟨rfl, hFits⟩ := fits_ofEntry_iff.1 hFound
      exact .pattern (rawFor?_eq_none_iff.1 hRaw)
        (isFirst_of_rulesOf hIds hRules ⟨c, hit, hFits⟩
          fun f hf => not_fits_of_eq_none (hBefore _ hf)) hFits
  | nothing =>
      obtain ⟨hRaw, hPattern⟩ := verdict_eq_nothing_iff.1 hVerdict
      refine .nothing (rawFor?_eq_none_iff.1 hRaw) fun f hf hCategory => not_fits_of_eq_none ?_
      exact List.findSome?_eq_none_iff.1 hPattern _ (mem_rulesOf_ofEntries.2 ⟨f, hf, hCategory, rfl⟩)

/-- Entries of distinct ids make the same book in whatever order they are listed. -/
theorem ofEntries_perm (hIds : (entries.map (·.id)).Nodup) (hPerm : others.Perm entries) :
    ofEntries engine others = ofEntries engine entries := by
  refine congrArg Book.mk ?_
  have hRules : ((others.map (Rule.ofEntry engine)).mergeSort Rule.precedes).Perm
      ((entries.map (Rule.ofEntry engine)).mergeSort Rule.precedes) :=
    (List.mergeSort_perm _ _).trans ((hPerm.map _).trans (List.mergeSort_perm _ _).symm)
  refine hRules.eq_of_pairwise (fun a b ha hb hab hba => ?_)
    (List.pairwise_mergeSort Rule.precedes_trans Rule.precedes_total _)
    (List.pairwise_mergeSort Rule.precedes_trans Rule.precedes_total _)
  obtain ⟨e, he, rfl⟩ := List.mem_map.1 (List.mem_mergeSort.1 ha)
  obtain ⟨f, hf, rfl⟩ := List.mem_map.1 (List.mem_mergeSort.1 hb)
  rw [List.inj_on_of_nodup_map hIds (hPerm.mem_iff.1 he) hf (Rule.id_eq_of_precedes hab hba)]

/-- When ids are distinct, every lookup, made within another one or not, is answered by what the entries of its
category decide, and this is one thing. All lookups have the same answers when the entries are listed in another
order. -/
theorem answer_by_precedence (engine : Regex.Engine) {entries : List Pack.Entry}
    (hIds : (entries.map (·.id)).Nodup) :
    (∀ l : Lookup, ∃ v, Decides engine entries l.category l.target v ∧
      (∀ w, Decides engine entries l.category l.target w → w = v) ∧
      ∀ language, l.answer (ofEntries engine entries) language =
        l.answerBy (ofEntries engine entries) language v) ∧
    ∀ others : List Pack.Entry, others.Perm entries → ∀ target language category,
      (ofEntries engine others).knows category = (ofEntries engine entries).knows category ∧
      (ofEntries engine others).render target language category =
        (ofEntries engine entries).render target language category := by
  constructor
  · intro l
    have hDecides := decides_verdict engine hIds l.category l.target
    exact ⟨_, hDecides, fun w hw => hw.unique hDecides, fun language => l.answer_eq _ language⟩
  · intro others hPerm target language category
    rw [ofEntries_perm hIds hPerm]
    exact ⟨rfl, rfl⟩

/-- An entry for a way, of which nothing is looked up. -/
def wayBy (pattern : String) (priority id : Int) : Pack.Entry :=
  { category := "way", replacements := .ofList [("ko", "길")], raw := none
    regex := some (.bare pattern), groups := [], ignorePart := false, priority, id }

def wayEntries : List Pack.Entry := [wayBy "^to .*$" 0 4, townBusan, wayBy "(to" 9 5, wayTo]

/-- The entry of the highest priority cannot be read, and of the two others the one of the lower id decides. -/
theorem wayTo_decides :
    (wayEntries.map (·.id)).Nodup ∧
    (∃ c hit, Decides Regex.engine wayEntries "way" "to Busan"
        (.pattern (Rule.ofEntry Regex.engine wayTo) c hit) ∧
      (ofEntries Regex.engine wayEntries).render "to Busan" "ko" "way" =
        Lookup.answerBy (ofEntries Regex.engine wayEntries) "ko" ⟨[], "way", "to Busan"⟩
          (.pattern (Rule.ofEntry Regex.engine wayTo) c hit)) ∧
    (ofEntries Regex.engine wayEntries.reverse).render "to Busan" "ko" "way" =
      (ofEntries Regex.engine wayEntries).render "to Busan" "ko" "way" ∧
    ((ofEntries Regex.engine wayEntries).render "to Busan" "ko" "way").text = "부산 (to)" := by
  have hIds : (wayEntries.map (·.id)).Nodup := by decide
  obtain ⟨hLookups, hOrders⟩ := answer_by_precedence Regex.engine hIds
  refine ⟨hIds, ?_, (hOrders wayEntries.reverse (List.reverse_perm _) _ _ _).2, by cbv⟩
  obtain ⟨v, hDecides, -, hAnswer⟩ := hLookups ⟨[], "way", "to Busan"⟩
  have hRead : (Regex.engine "^to (.+)$" "").isSome := by cbv
  have hHit : (((Regex.engine "^to (.+)$" "").get hRead).first? "to Busan".toList).isSome := by cbv
  have hFits : wayTo.Fits Regex.engine "to Busan" :=
    ⟨_, _, rfl, ⟨_, rfl, (Option.some_get hRead).symm⟩, (Option.some_get hHit).symm⟩
  have hWayTo : wayTo ∈ wayEntries := by simp [wayEntries]
  have hListed : ∀ f ∈ wayEntries,
      f = wayBy "^to .*$" 0 4 ∨ f = townBusan ∨ f = wayBy "(to" 9 5 ∨ f = wayTo := by
    simp [wayEntries]
  cases hDecides with
  | @raw e hFirst =>
      obtain rfl | rfl | rfl | rfl := hListed e hFirst.mem
      all_goals exact absurd hFirst.holds (by decide)
  | nothing hRaw hPattern => exact absurd hFits (hPattern wayTo hWayTo rfl)
  | @pattern e c hit hRaw hFirst hFitsAt =>
      obtain rfl | rfl | rfl | rfl := hListed e hFirst.mem
      · have hOther : wayTo ≠ wayBy "^to .*$" 0 4 := fun h => absurd (congrArg (·.id) h) (by decide)
        have hPrecedes := hFirst.precedes wayTo hWayTo ⟨rfl, hFits⟩ hOther
        exact absurd hPrecedes (by unfold Pack.Entry.Precedes; decide)
      · exact absurd hFirst.holds.1 (by decide)
      · obtain ⟨p, hPattern, hCompiled⟩ := hFitsAt.compiled
        obtain rfl := Option.some.inj hPattern
        have hUnread : Regex.engine "(to" "" = none := by cbv
        cases hUnread.symm.trans hCompiled
      · exact ⟨c, hit, .pattern hRaw hFirst hFitsAt, hAnswer "ko"⟩

end Book

end Phrasebook
