import Phrasebook.Proofs.Group.Names
import Phrasebook.Proofs.Json.Escaping
import Phrasebook.Proofs.Store.History

/-!
Searching the matchers for a term. Category, raw text, pattern and memo are searched as they are, but the
replacements are searched as the JSON text of the row. A term is missed there when it does not stand in that
text, although it stands in a replacement: each of its line feeds is written as two other characters.
-/

namespace Phrasebook

namespace Json

theorem mem_joined {sep : List Char} {pieces : List (List Char)} {d : Char} (h : d ∈ joined sep pieces) :
    d ∈ sep ∨ ∃ piece ∈ pieces, d ∈ piece := by
  induction pieces with
  | nil => exact absurd h List.not_mem_nil
  | cons first more ih =>
      cases more with
      | nil => exact Or.inr ⟨first, List.mem_singleton_self _, h⟩
      | cons next more =>
          rw [joined, List.append_assoc, List.mem_append, List.mem_append] at h
          rcases h with hFirst | hSep | hMore
          · exact Or.inr ⟨first, List.mem_cons_self, hFirst⟩
          · exact Or.inl hSep
          · obtain hSep | ⟨piece, hPiece, hd⟩ := ih hMore
            · exact Or.inl hSep
            · exact Or.inr ⟨piece, List.mem_cons_of_mem _ hPiece, hd⟩

end Json

namespace Store

/-- Replacements as a text: every language and its text, quoted, with a colon between them. -/
theorem toList_replacementsText (r : Replacements) :
    (replacementsText r).toList =
      '{' :: Json.joined [','] (r.entries.map fun e => Json.quoted e.1 ++ ':' :: Json.quoted e.2) ++
        ['}'] := by
  have hObject : r.toJson = .object (r.entries.map fun e => (e.1, Json.string e.2)) := rfl
  have hFields : ∀ entries : List (String × String),
      Json.compactFields (entries.map fun e => (e.1, Json.string e.2)) =
        entries.map fun e => Json.quoted e.1 ++ ':' :: Json.quoted e.2 := by
    intro entries
    induction entries with
    | nil => rfl
    | cons e more ih =>
        rw [List.map_cons, List.map_cons, Json.compactFields, ih]
        rfl
  rw [replacementsText, Json.compact, String.toList_ofList, hObject, Json.compactChars, hFields]

theorem quoted_infix_replacementsText {r : Replacements} {e : String × String} (h : e ∈ r.entries) :
    Json.quoted e.2 <:+: (replacementsText r).toList := by
  rw [toList_replacementsText]
  have hPiece : Json.quoted e.2 <:+: Json.quoted e.1 ++ ':' :: Json.quoted e.2 :=
    List.infix_append_of_infix_right (List.infix_cons List.infix_rfl)
  have hMem := List.mem_map_of_mem (f := fun e => Json.quoted e.1 ++ ':' :: Json.quoted e.2) h
  exact List.infix_append_of_infix_left
    (List.infix_cons (hPiece.trans (Json.infix_joined_of_mem _ hMem)))

theorem le_toNat_of_mem_replacementsText {r : Replacements} {d : Char}
    (h : d ∈ (replacementsText r).toList) : 0x20 ≤ d.toNat := by
  simp only [toList_replacementsText, List.cons_append, List.mem_cons, List.mem_append,
    List.not_mem_nil, or_false] at h
  rcases h with rfl | hJoined | rfl
  · decide
  · obtain hSep | ⟨piece, hPiece, hd⟩ := Json.mem_joined hJoined
    · rw [List.mem_singleton.1 hSep]
      decide
    · obtain ⟨e, -, rfl⟩ := List.mem_map.1 hPiece
      simp only [List.mem_append, List.mem_cons] at hd
      rcases hd with hd | rfl | hd
      · exact Json.le_toNat_of_mem_quoted hd
      · decide
      · exact Json.le_toNat_of_mem_quoted hd
  · decide

end Store

namespace Matcher

/-- The raw text, or the pattern. -/
def Spec.body : Spec → String
  | .raw text => text
  | .regex pattern _ => pattern

/-- The term stands in category, raw text, pattern or memo. -/
def ShowsTerm (m : Matcher) (term : String) : Prop :=
  term.toList <:+: m.category.toList ∨ term.toList <:+: m.spec.body.toList ∨
    term.toList <:+: m.memo.toList

/-- The term stands in one of the replacement texts. -/
def ReplacesByTerm (m : Matcher) (term : String) : Prop :=
  ∃ e ∈ m.replacements.entries, term.toList <:+: e.2.toList

/-- What is empty among the columns of a spec holds the empty term only. -/
theorem Spec.infix_columns_iff {spec : Spec} {cs : List Char} :
    cs <:+: spec.columns.1.toList ∨ cs <:+: spec.columns.2.1.toList ↔
      cs = [] ∨ cs <:+: spec.body.toList := by
  cases spec with
  | raw text => simp only [columns, body, String.toList_empty, List.infix_nil, or_comm]
  | regex pattern flags => simp only [columns, body, String.toList_empty, List.infix_nil]

/-- The row holds what its matcher shows, and what stands in the JSON text of its replacements. -/
theorem holds_stored_iff {m : Matcher} {term : String} :
    m.stored.holds term = true ↔
      m.ShowsTerm term ∨ term.toList <:+: (Store.replacementsText m.replacements).toList := by
  have hColumns : m.stored.holds term = true ↔
      term.toList <:+: m.category.toList ∨ (term.toList <:+: m.spec.columns.1.toList ∨
        term.toList <:+: m.spec.columns.2.1.toList) ∨ term.toList <:+: m.memo.toList ∨
        term.toList <:+: (Store.replacementsText m.replacements).toList := by
    simp only [Store.Row.holds, stored, Store.Row.ofContent, List.any_cons, List.any_nil,
      Bool.or_false, Bool.or_eq_true, Text.contains, Text.occursIn_iff, or_assoc]
  rw [hColumns, Spec.infix_columns_iff, ShowsTerm]
  constructor
  · rintro (hCategory | (hEmpty | hBody) | hMemo | hWritten)
    · exact Or.inl (Or.inl hCategory)
    · exact Or.inl (Or.inl (hEmpty ▸ List.nil_infix))
    · exact Or.inl (Or.inr (Or.inl hBody))
    · exact Or.inl (Or.inr (Or.inr hMemo))
    · exact Or.inr hWritten
  · rintro ((hCategory | hBody | hMemo) | hWritten)
    · exact Or.inl hCategory
    · exact Or.inr (Or.inl (Or.inr hBody))
    · exact Or.inr (Or.inr (Or.inl hMemo))
    · exact Or.inr (Or.inr (Or.inr hWritten))

end Matcher

namespace Store

/-- The hits of a search are the matchers that show the term or hold it in what their replacements are written
as, ascending by id. -/
theorem Holds.mem_of_searchMatchers {s : Store} {ms : List Matcher} (hs : s.Holds ms) (term : String) :
    ∃ found, s.searchMatchers term = .ok found ∧ found.Sublist ms ∧
      ∀ m, m ∈ found ↔ m ∈ ms ∧
        (m.ShowsTerm term ∨ term.toList <:+: (replacementsText m.replacements).toList) := by
  refine ⟨_, hs.selectMatchers_eq _, List.filter_sublist, fun m => ?_⟩
  rw [List.mem_filter, Matcher.holds_stored_iff]

/-- In every store that a history leads to, a search finds whatever shows the term in category, raw text,
pattern or memo. In a replacement the term is found where it stands in what the replacements are written as:
always when it has quotes and backslashes at its ends only, and never when it has a control character. -/
theorem search_finds {history : List Change} (hAll : ∀ c ∈ history, c.IsAdmissible) (term : String) :
    ∃ ms found, (empty.after history).allMatchers = .ok ms ∧
      (empty.after history).searchMatchers term = .ok found ∧ found.Sublist ms ∧
      ∀ m ∈ ms,
        (m ∈ found ↔
          m.ShowsTerm term ∨ term.toList <:+: (replacementsText m.replacements).toList) ∧
        (m.ReplacesByTerm term → Json.HasMarksAtEnds term.toList → m ∈ found) ∧
        ((∃ c ∈ term.toList, c.toNat < 0x20) → (m ∈ found ↔ m.ShowsTerm term)) := by
  obtain ⟨ms, hFollows⟩ := empty_holds.after_follows hAll
  obtain ⟨found, hSearch, hSublist, hFound⟩ := hFollows.holds.mem_of_searchMatchers term
  refine ⟨ms, found, hFollows.holds.allMatchers_eq, hSearch, hSublist, fun m hm => ⟨?_, ?_, ?_⟩⟩
  · rw [hFound, and_iff_right hm]
  · rintro ⟨e, he, hIn⟩ hMarks
    have hQuoted := (Json.survivesEscaping_iff.2 hMarks).infix_quoted hIn
    exact (hFound m).2 ⟨hm, Or.inr (hQuoted.trans (quoted_infix_replacementsText he))⟩
  · rintro ⟨c, hc, hControl⟩
    rw [hFound, and_iff_right hm]
    refine or_iff_left fun hWritten => ?_
    exact absurd (le_toNat_of_mem_replacementsText (hWritten.subset hc)) (Nat.not_le.2 hControl)

/-- A greeting in two lines, of which the first is quoted. -/
def quotedGreeting : Matcher.Content :=
  { Matcher.Content.greeting with
    replacements := ⟨[("ko", "\"안녕\",\n$1!")], List.pairwise_singleton _ _⟩ }

theorem isLegal_quotedGreeting : quotedGreeting.IsLegal :=
  ⟨Matcher.Content.isLegal_greeting.category_trimmed, Matcher.Content.isLegal_greeting.category_ne,
    Matcher.Content.isLegal_greeting.category_length, Matcher.Content.isLegal_greeting.spec,
    List.cons_ne_nil _ _⟩

/-- One matcher is all that there is. -/
theorem holds_quotedGreeting :
    (empty.after [.add quotedGreeting "ann" 0]).Holds [⟨quotedGreeting, 1, 0⟩] := by
  have hStorable : quotedGreeting.IsStorable := ⟨isLegal_quotedGreeting.spec, by decide⟩
  rw [after, List.foldl_cons, List.foldl_nil, Change.apply,
    empty_holds.addMatcher_of_fresh hStorable (by simp)]
  exact empty_holds.added_holds hStorable (by simp) "ann" 0

/-- The beginning of the first line is found together with its quote. -/
theorem quotedGreeting_found :
    (empty.after [.add quotedGreeting "ann" 0]).searchMatchers "\"안녕" = .ok [⟨quotedGreeting, 1, 0⟩] := by
  have hAdmissible : ∀ c ∈ [Change.add quotedGreeting "ann" 0], c.IsAdmissible := by
    rw [List.forall_mem_singleton]
    exact ⟨⟨_, Draft.validate_ofContent isLegal_quotedGreeting⟩, by decide⟩
  obtain ⟨ms, found, hAll, hSearch, hSublist, hEach⟩ := search_finds hAdmissible "\"안녕"
  rw [holds_quotedGreeting.allMatchers_eq] at hAll
  obtain rfl := Except.ok.inj hAll
  have hIn : Matcher.ReplacesByTerm ⟨quotedGreeting, 1, 0⟩ "\"안녕" :=
    ⟨_, List.mem_singleton_self _, by decide⟩
  have hPlain : ∀ c ∈ ['안', '녕'], Json.IsPlain c := by
    simp only [List.forall_mem_cons]
    exact ⟨⟨by decide, by decide, by decide⟩, ⟨by decide, by decide, by decide⟩, by simp⟩
  have hMem := (hEach _ (List.mem_singleton_self _)).2.1 hIn ⟨0, ['"'], _, 0, Or.inr rfl, hPlain, rfl⟩
  rw [hSearch, hSublist.eq_of_length_le (List.length_pos_of_mem hMem)]

/-- The end of the first line is not found, though it stands in a replacement, and neither is its line
feed. -/
theorem lineEnd_not_found :
    (empty.after [.add quotedGreeting "ann" 0]).allMatchers = .ok [⟨quotedGreeting, 1, 0⟩] ∧
    Matcher.ReplacesByTerm ⟨quotedGreeting, 1, 0⟩ "녕\"" ∧
    (empty.after [.add quotedGreeting "ann" 0]).searchMatchers "녕\"" = .ok [] ∧
    Matcher.ReplacesByTerm ⟨quotedGreeting, 1, 0⟩ "\n" ∧
    (empty.after [.add quotedGreeting "ann" 0]).searchMatchers "\n" = .ok [] := by
  refine ⟨holds_quotedGreeting.allMatchers_eq, ⟨_, List.mem_singleton_self _, by decide⟩, ?_,
    ⟨_, List.mem_singleton_self _, by decide⟩, ?_⟩
  all_goals
    rw [searchMatchers, holds_quotedGreeting.selectMatchers_eq]
    exact congrArg Except.ok (by decide)

end Store

end Phrasebook
