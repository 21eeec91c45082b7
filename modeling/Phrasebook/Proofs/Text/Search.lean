import Mathlib.Data.List.Basic
import Phrasebook.Proofs.Text.Ends
import Phrasebook.Text.Search

/-!
Looking for one text inside another. A list is put together again from the pieces between its separators,
and the first occurrence of a text is replaced between the gaps that it leaves.
-/

namespace Phrasebook.Text

section

variable {α β : Type}

theorem splitList_ne_nil (p : α → Bool) (xs : List α) : splitList p xs ≠ [] := by
  induction xs with
  | nil => exact List.cons_ne_nil _ _
  | cons x xs ih =>
      rw [splitList]
      split
      · exact List.cons_ne_nil _ _
      · cases hRest : splitList p xs with
        | nil => exact absurd hRest ih
        | cons piece more => exact List.cons_ne_nil _ _

theorem splitList_of_none {p : α → Bool} {xs : List α} (h : ∀ x ∈ xs, p x = false) :
    splitList p xs = [xs] := by
  induction xs with
  | nil => rfl
  | cons x xs ih =>
      rw [List.forall_mem_cons] at h
      rw [splitList, if_neg (by simp [h.1]), ih h.2]

/-- Splitting goes on behind a separator as at the beginning. -/
theorem splitList_append_cons {p : α → Bool} {d : α} (hd : p d = true) (xs ys : List α) :
    splitList p (xs ++ d :: ys) = splitList p xs ++ splitList p ys := by
  induction xs with
  | nil =>
      rw [List.nil_append]
      simp only [splitList, hd, if_true, List.singleton_append]
  | cons x xs ih =>
      rw [List.cons_append, splitList, splitList, ih]
      split
      · rfl
      · cases hRest : splitList p xs with
        | nil => exact absurd hRest (splitList_ne_nil p xs)
        | cons piece more => rfl

theorem eq_false_of_mem_splitList {p : α → Bool} {xs piece : List α} (h : piece ∈ splitList p xs)
    {x : α} (hx : x ∈ piece) : p x = false := by
  induction xs generalizing piece with
  | nil =>
      obtain rfl := List.mem_singleton.1 h
      exact absurd hx List.not_mem_nil
  | cons y ys ih =>
      rw [splitList] at h
      split at h
      next =>
        rcases List.mem_cons.1 h with rfl | h
        · exact absurd hx List.not_mem_nil
        · exact ih h hx
      next hy =>
        cases hRest : splitList p ys with
        | nil => exact absurd hRest (splitList_ne_nil p ys)
        | cons first more =>
            rw [hRest] at h ih
            rcases List.mem_cons.1 h with rfl | h
            · rcases List.mem_cons.1 hx with rfl | hx
              · simpa using hy
              · exact ih List.mem_cons_self hx
            · exact ih (List.mem_cons_of_mem _ h) hx

/-- A piece without separators is found again among the pieces that were put together. -/
theorem mem_splitList_intercalate {p : α → Bool} {d : α} (hd : p d = true) {pieces : List (List α)}
    {piece : List α} (hMem : piece ∈ pieces) (hPlain : ∀ x ∈ piece, p x = false) :
    piece ∈ splitList p ([d].intercalate pieces) := by
  induction pieces with
  | nil => exact absurd hMem List.not_mem_nil
  | cons first more ih =>
      cases more with
      | nil =>
          obtain rfl := List.mem_singleton.1 hMem
          rw [List.intercalate_singleton, splitList_of_none hPlain]
          exact List.mem_singleton_self piece
      | cons next more =>
          rw [List.intercalate_cons_cons, List.append_assoc, List.singleton_append,
            splitList_append_cons hd, List.mem_append]
          rcases List.mem_cons.1 hMem with rfl | hMem
          · rw [splitList_of_none hPlain]
            exact Or.inl (List.mem_singleton_self piece)
          · exact Or.inr (ih hMem)

theorem intercalate_append (sep xs ys : List β) (more : List (List β)) :
    sep.intercalate ((xs ++ ys) :: more) = xs ++ sep.intercalate (ys :: more) := by
  cases more with
  | nil => rw [List.intercalate_singleton, List.intercalate_singleton]
  | cons z more => simp

/-- What is made of a list is put together from what is made of the pieces, when the same is made of all
separators. -/
theorem flatMap_eq_intercalate {p : α → Bool} {f : α → List β} {sep : List β}
    (h : ∀ x, p x = true → f x = sep) (xs : List α) :
    xs.flatMap f = sep.intercalate ((splitList p xs).map (·.flatMap f)) := by
  induction xs with
  | nil => rfl
  | cons x xs ih =>
      rw [splitList, List.flatMap_cons, ih]
      have hNe := splitList_ne_nil p xs
      split
      next hx =>
        rw [List.map_cons, List.intercalate_cons_of_ne_nil (by simpa using hNe), h x hx]
        rfl
      next =>
        cases hRest : splitList p xs with
        | nil => exact absurd hRest hNe
        | cons piece more =>
            rw [List.map_cons, List.map_cons, List.flatMap_cons, intercalate_append]

/-- The separators have no part in what is made of the pieces. -/
theorem map_flatMap_splitList_congr {p : α → Bool} {f g : α → List β}
    (h : ∀ x, p x = false → f x = g x) (xs : List α) :
    (splitList p xs).map (·.flatMap f) = (splitList p xs).map (·.flatMap g) :=
  List.map_congr_left fun _ hPiece =>
    List.flatMap_congr fun x hx => h x (eq_false_of_mem_splitList hPiece hx)

end

/-- A text occurs where it stands between two others. -/
theorem occursIn_iff {needle text : List Char} : occursIn needle text = true ↔ needle <:+: text := by
  induction text with
  | nil => simp [occursIn, List.isEmpty_iff]
  | cons c rest ih =>
      rw [occursIn, Bool.or_eq_true, List.isPrefixOf_iff_prefix, ih, List.infix_cons_iff]

theorem eq_of_cutAt? {needle text before after : List Char}
    (h : cutAt? needle text = some (before, after)) : text = before ++ needle ++ after := by
  induction text generalizing before with
  | nil =>
      rw [cutAt?] at h
      split at h
      next hEmpty =>
        obtain rfl := List.isEmpty_iff.1 hEmpty
        cases h
        rfl
      next => cases h
  | cons c rest ih =>
      rw [cutAt?] at h
      split at h
      next found hFront =>
        cases h
        exact dropFront?_eq_some_iff.1 hFront
      next =>
        obtain ⟨⟨front, behind⟩, hCut, hEq⟩ := Option.map_eq_some_iff.1 h
        cases hEq
        rw [ih hCut]
        rfl

/-- A text that the first character of the needle does not occur in is passed over. -/
theorem cutAt?_append {d : Char} {front : List Char} (h : d ∉ front) (needle rest : List Char) :
    cutAt? (d :: needle) (front ++ rest) =
      (cutAt? (d :: needle) rest).map fun (before, after) => (front ++ before, after) := by
  induction front with
  | nil => simp
  | cons c front ih =>
      rw [List.mem_cons, not_or] at h
      simp [cutAt?, dropFront?, h.1, ih h.2, Function.comp_def]

theorem cutAt?_cons {d : Char} {front : List Char} (h : d ∉ front) (rest : List Char) :
    cutAt? [d] (front ++ d :: rest) = some (front, rest) := by
  rw [cutAt?_append h]
  simp [cutAt?, dropFront?]

/-- There is a first occurrence where there is one. -/
theorem exists_cutAt?_of_infix {needle text : List Char} (h : needle <:+: text) :
    ∃ before after, cutAt? needle text = some (before, after) := by
  induction text with
  | nil =>
      obtain rfl := List.infix_nil.1 h
      exact ⟨[], [], rfl⟩
  | cons c rest ih =>
      rw [cutAt?]
      cases hFront : dropFront? needle (c :: rest) with
      | some after => exact ⟨[], after, rfl⟩
      | none =>
          have hRest := (List.infix_cons_iff.1 h).resolve_left (dropFront?_eq_none_iff.1 hFront)
          obtain ⟨before, after, hCut⟩ := ih hRest
          exact ⟨c :: before, after, by rw [hCut]; rfl⟩

theorem replaceFirst_self (needle text : List Char) : replaceFirst needle needle text = text := by
  rw [replaceFirst]
  split
  next before after hCut => exact (eq_of_cutAt? hCut).symm
  next => rfl

theorem length_replaceFirst {needle text : List Char} (h : needle <:+: text)
    (replacement : List Char) :
    (replaceFirst needle replacement text).length + needle.length =
      text.length + replacement.length := by
  obtain ⟨before, after, hCut⟩ := exists_cutAt?_of_infix h
  have hText := congrArg List.length (eq_of_cutAt? hCut)
  rw [replaceFirst, hCut]
  simp only [List.length_append] at hText ⊢
  omega

/-- A text that is not shorter makes the whole no shorter. -/
theorem length_le_replaceFirst {needle replacement : List Char}
    (h : needle.length ≤ replacement.length) (text : List Char) :
    text.length ≤ (replaceFirst needle replacement text).length := by
  rw [replaceFirst]
  split
  next before after hCut =>
    have hText := congrArg List.length (eq_of_cutAt? hCut)
    simp only [List.length_append] at hText ⊢
    omega
  next => exact le_refl _

/-- What the first occurrence of `needle` leaves before and behind itself, or the whole text when there is
no occurrence. -/
def firstGaps (needle text : List Char) : List (List Char) :=
  match cutAt? needle text with
  | some (before, after) => [before, after]
  | none => [text]

theorem replaceFirst_eq_intercalate (needle replacement text : List Char) :
    replaceFirst needle replacement text = replacement.intercalate (firstGaps needle text) := by
  rw [replaceFirst, firstGaps]
  cases cutAt? needle text with
  | none => simp
  | some cut => simp

theorem length_intercalate {α : Type} (sep first : List α) (more : List (List α)) :
    (sep.intercalate (first :: more)).length =
      first.length + more.flatten.length + more.length * sep.length := by
  induction more generalizing first with
  | nil => simp
  | cons next more ih =>
      rw [List.intercalate_cons_cons, List.length_append, ih, List.length_append,
        List.flatten_cons, List.length_append, List.length_cons, Nat.add_mul]
      omega

/-- Two cuts of a text are the same when nothing that is put into them tells them apart. -/
theorem cut_unique {before after before' after' : List Char}
    (h : ∀ sep : List Char, before ++ sep ++ after = before' ++ sep ++ after') :
    before = before' ∧ after = after' := by
  -- A character that is not `c` tells a cut at `c` from one further on.
  have hOther : ∀ c : Char, ∃ d, d ≠ c := fun c => by
    by_cases hc : c = 'a'
    · exact ⟨'b', by rw [hc]; decide⟩
    · exact ⟨'a', fun hEq => hc hEq.symm⟩
  induction before generalizing before' with
  | nil =>
      cases before' with
      | nil => exact ⟨rfl, by simpa using h []⟩
      | cons c rest =>
          obtain ⟨d, hd⟩ := hOther c
          have hHead := h [d]
          simp only [List.nil_append, List.cons_append, List.cons.injEq] at hHead
          exact absurd hHead.1 hd
  | cons c rest ih =>
      cases before' with
      | nil =>
          obtain ⟨d, hd⟩ := hOther c
          have hHead := h [d]
          simp only [List.nil_append, List.cons_append, List.cons.injEq] at hHead
          exact absurd hHead.1.symm hd
      | cons c' rest' =>
          have hTail : ∀ sep : List Char, rest ++ sep ++ after = rest' ++ sep ++ after' := fun sep => by
            have hBoth := h sep
            simp only [List.cons_append, List.cons.injEq] at hBoth
            exact hBoth.2
          obtain ⟨rfl, rfl⟩ := ih hTail
          have hHead := h []
          simp only [List.cons_append, List.cons.injEq] at hHead
          rw [hHead.1]
          exact ⟨rfl, rfl⟩

/-- Replacing the first occurrence fills given gaps, whatever is put there, exactly when these are the gaps
that the first occurrence leaves. -/
theorem firstGaps_eq_iff {needle text : List Char} {gaps : List (List Char)} (hGaps : gaps ≠ []) :
    firstGaps needle text = gaps ↔
      ∀ replacement, replaceFirst needle replacement text = replacement.intercalate gaps := by
  constructor
  · rintro rfl replacement
    exact replaceFirst_eq_intercalate needle replacement text
  · intro h
    obtain ⟨first, more, rfl⟩ := List.exists_cons_of_ne_nil hGaps
    have hLength : ∀ sep : List Char, (sep.intercalate (firstGaps needle text)).length =
        first.length + more.flatten.length + more.length * sep.length := fun sep => by
      rw [← replaceFirst_eq_intercalate, h, length_intercalate]
    have hEmpty := hLength []
    have hOne := hLength ['a']
    simp only [replaceFirst_eq_intercalate] at h
    -- The lengths tell how many gaps there are.
    cases hCut : cutAt? needle text with
    | none =>
        simp only [firstGaps, hCut, List.intercalate_singleton, List.length_singleton,
          List.length_nil] at h hEmpty hOne ⊢
        obtain rfl : more = [] := List.length_eq_zero_iff.1 (by omega)
        simpa using h []
    | some cut =>
        obtain ⟨before, after⟩ := cut
        simp only [firstGaps, hCut, List.intercalate_cons_cons, List.intercalate_singleton,
          List.length_append, List.length_singleton, List.length_nil] at h hEmpty hOne ⊢
        obtain ⟨next, rfl⟩ : ∃ next, more = [next] := List.length_eq_one_iff.1 (by omega)
        obtain ⟨rfl, rfl⟩ := cut_unique fun sep => by simpa using h sep
        rfl

end Phrasebook.Text
