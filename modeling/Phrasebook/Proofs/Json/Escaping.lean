import Mathlib.Data.List.Basic
import Phrasebook.Json.Printer
import Phrasebook.Proofs.Text.Ends

/-!
Escaped texts. Every control character is written by others, and quotes and backslashes get a backslash in
front. So a text does not in general stand in what it is written as; it does exactly when it has no control
character, its backslashes are at its ends, and it has at most one quote, behind those at the front.
-/

namespace Phrasebook.Json

/-- The character is written as it is. -/
def IsPlain (c : Char) : Prop := c ≠ '"' ∧ c ≠ '\\' ∧ 0x20 ≤ c.toNat

theorem escapeChar_of_isPlain {c : Char} (h : IsPlain c) : escapeChar c = [c] := by
  obtain ⟨hQuote, hSlash, hShown⟩ := h
  have hOther : ∀ d : Char, d.toNat < 0x20 → c ≠ d := fun d hd hEq => by
    rw [hEq] at hShown
    omega
  rw [escapeChar, if_neg hQuote, if_neg hSlash, if_neg (hOther _ (by decide)),
    if_neg (hOther _ (by decide)), if_neg (hOther _ (by decide)), if_neg (hOther _ (by decide)),
    if_neg (hOther _ (by decide)), if_neg (by omega)]

/-- No control character is left in what is written. -/
theorem le_toNat_of_mem_escapeChar {c d : Char} (h : d ∈ escapeChar c) : 0x20 ≤ d.toNat := by
  have hDigit : ∀ n, n < 16 → 0x20 ≤ (Text.digitChar n).toNat := by decide
  unfold escapeChar at h
  split_ifs at h with _ _ _ _ _ _ _ hControl
  any_goals
    simp only [List.mem_cons, List.not_mem_nil, or_false] at h
    rcases h with rfl | rfl <;> decide
  · simp only [List.mem_cons, List.not_mem_nil, or_false] at h
    rcases h with rfl | rfl | rfl | rfl | rfl | rfl
    · decide
    · decide
    · decide
    · decide
    · exact hDigit _ (by omega)
    · exact hDigit _ (Nat.mod_lt _ (by decide))
  · rw [List.mem_singleton.1 h]
    omega

theorem le_toNat_of_mem_quoted {text : String} {d : Char} (h : d ∈ quoted text) : 0x20 ≤ d.toNat := by
  simp only [quoted, List.cons_append, List.mem_cons, List.mem_append, List.mem_flatMap,
    List.not_mem_nil, or_false] at h
  rcases h with rfl | ⟨c, -, hd⟩ | rfl
  · decide
  · exact le_toNat_of_mem_escapeChar hd
  · decide

/-- The text stands in what it is escaped to, so it stands as well in what any longer text is escaped to. -/
def SurvivesEscaping (cs : List Char) : Prop := cs <:+: cs.flatMap escapeChar

theorem SurvivesEscaping.infix_quoted {needle : List Char} (h : SurvivesEscaping needle) {text : String}
    (hIn : needle <:+: text.toList) : needle <:+: quoted text := by
  obtain ⟨before, after, hText⟩ := hIn
  have hEscaped : needle.flatMap escapeChar <:+: text.toList.flatMap escapeChar := by
    rw [← hText, List.flatMap_append, List.flatMap_append]
    exact List.infix_append _ _ _
  rw [quoted]
  exact List.infix_append_of_infix_left (List.infix_cons (h.trans hEscaped))

theorem flatMap_escapeChar_of_plain {cs : List Char} (h : ∀ c ∈ cs, IsPlain c) :
    cs.flatMap escapeChar = cs := by
  induction cs with
  | nil => rfl
  | cons c more ih =>
      rw [List.forall_mem_cons] at h
      rw [List.flatMap_cons, escapeChar_of_isPlain h.1, ih h.2, List.singleton_append]

/-- Backslashes are at the ends only, and a quote is only behind those at the front. -/
def HasMarksAtEnds (cs : List Char) : Prop :=
  ∃ front quote plain back, (quote = [] ∨ quote = ['"']) ∧ (∀ c ∈ plain, IsPlain c) ∧
    cs = List.replicate front '\\' ++ (quote ++ (plain ++ List.replicate back '\\'))

theorem escapeChar_backslash : escapeChar '\\' = List.replicate 2 '\\' := rfl

theorem flatMap_escapeChar_backslashes (n : Nat) :
    (List.replicate n '\\').flatMap escapeChar = List.replicate (n + n) '\\' := by
  induction n with
  | zero => rfl
  | succ n ih =>
      rw [List.replicate_succ, List.flatMap_cons, ih, escapeChar_backslash, List.replicate_append_replicate]
      exact congrArg (List.replicate · '\\') (by omega)

theorem HasMarksAtEnds.survivesEscaping {cs : List Char} (h : HasMarksAtEnds cs) :
    SurvivesEscaping cs := by
  obtain ⟨front, quote, plain, back, hQuote, hPlain, rfl⟩ := h
  -- What is written has one more backslash in front when there is a quote, and otherwise the same marks, doubled.
  obtain ⟨more, hWritten⟩ : ∃ more, quote.flatMap escapeChar = List.replicate more '\\' ++ quote := by
    rcases hQuote with rfl | rfl
    · exact ⟨0, rfl⟩
    · exact ⟨1, rfl⟩
  refine ⟨List.replicate (front + more) '\\', List.replicate back '\\', ?_⟩
  simp only [List.flatMap_append, flatMap_escapeChar_backslashes, flatMap_escapeChar_of_plain hPlain,
    hWritten, List.append_assoc, List.replicate_append_replicate]
  simp only [← List.append_assoc, List.replicate_append_replicate]
  rw [show front + more + front = front + front + more by omega]

theorem escapeChar_cases {c : Char} (h : 0x20 ≤ c.toNat) :
    c = '\\' ∧ escapeChar c = ['\\', '\\'] ∨ c = '"' ∧ escapeChar c = ['\\', '"'] ∨
      IsPlain c ∧ escapeChar c = [c] := by
  by_cases hSlash : c = '\\'
  · subst hSlash
    exact Or.inl ⟨rfl, rfl⟩
  · by_cases hQuote : c = '"'
    · subst hQuote
      exact Or.inr (Or.inl ⟨rfl, rfl⟩)
    · have hPlain : IsPlain c := ⟨hQuote, hSlash, h⟩
      exact Or.inr (Or.inr ⟨hPlain, escapeChar_of_isPlain hPlain⟩)

/-- Nothing but backslashes is added. -/
theorem countP_flatMap_escapeChar {cs : List Char} (h : ∀ c ∈ cs, 0x20 ≤ c.toNat) :
    (cs.flatMap escapeChar).countP (· != '\\') = cs.countP (· != '\\') := by
  induction cs with
  | nil => rfl
  | cons c more ih =>
      rw [List.forall_mem_cons] at h
      rw [List.flatMap_cons, List.countP_append, ih h.2, List.countP_cons]
      rcases escapeChar_cases h.1 with ⟨rfl, hWritten⟩ | ⟨rfl, hWritten⟩ | ⟨hPlain, hWritten⟩
      · rw [hWritten, Nat.add_comm]
        rfl
      · rw [hWritten, Nat.add_comm]
        rfl
      · rw [hWritten, Nat.add_comm, List.countP_singleton]

theorem SurvivesEscaping.exists_frame {cs : List Char} (hShown : ∀ c ∈ cs, 0x20 ≤ c.toNat)
    (h : SurvivesEscaping cs) :
    ∃ before after, cs.flatMap escapeChar =
      List.replicate before '\\' ++ (cs ++ List.replicate after '\\') := by
  obtain ⟨before, after, hWritten⟩ := h
  have hCount := countP_flatMap_escapeChar hShown
  rw [← hWritten, List.countP_append, List.countP_append] at hCount
  have hSlashes : ∀ xs : List Char, xs.countP (· != '\\') = 0 → xs = List.replicate xs.length '\\' := by
    intro xs hNone
    refine List.eq_replicate_of_mem fun c hc => ?_
    simpa using List.countP_eq_zero.1 hNone c hc
  refine ⟨before.length, after.length, ?_⟩
  rw [← hSlashes before (by omega), ← hSlashes after (by omega), ← hWritten, List.append_assoc]

/-- A text that is moved back by backslashes consists of them. -/
theorem eq_backslashes_of_shifted {cs : List Char} {k after : Nat}
    (h : List.replicate (k + 1) '\\' ++ cs.flatMap escapeChar = cs ++ List.replicate after '\\') :
    cs = List.replicate cs.length '\\' := by
  induction cs generalizing k with
  | nil => rfl
  | cons c more ih =>
      rw [List.replicate_succ, List.cons_append, List.cons_append, List.cons.injEq] at h
      obtain ⟨rfl, h⟩ := h
      rw [List.flatMap_cons, escapeChar_backslash, ← List.append_assoc,
        List.replicate_append_replicate] at h
      rw [List.length_cons, List.replicate_succ, ← ih h]

/-- Without a shift, the first mark is a backslash, and all that follows are backslashes too. -/
theorem exists_plain_of_kept {cs : List Char} (hShown : ∀ c ∈ cs, 0x20 ≤ c.toNat) {after : Nat}
    (h : cs.flatMap escapeChar = cs ++ List.replicate after '\\') :
    ∃ plain back, (∀ c ∈ plain, IsPlain c) ∧ cs = plain ++ List.replicate back '\\' := by
  induction cs with
  | nil => exact ⟨[], 0, by simp, rfl⟩
  | cons c more ih =>
      rw [List.forall_mem_cons] at hShown
      rw [List.flatMap_cons] at h
      rcases escapeChar_cases hShown.1 with ⟨rfl, hWritten⟩ | ⟨rfl, hWritten⟩ | ⟨hPlain, hWritten⟩
      · simp only [hWritten, List.cons_append, List.cons.injEq, List.nil_append, true_and] at h
        refine ⟨[], more.length + 1, by simp, ?_⟩
        rw [List.nil_append, List.replicate_succ,
          ← eq_backslashes_of_shifted (k := 0) h]
      · simp only [hWritten, List.cons_append, List.cons.injEq] at h
        exact absurd h.1 (by decide)
      · rw [hWritten, List.singleton_append, List.cons_append, List.cons.injEq] at h
        obtain ⟨plain, back, hAll, rfl⟩ := ih hShown.2 h.2
        exact ⟨c :: plain, back, List.forall_mem_cons.2 ⟨hPlain, hAll⟩, rfl⟩

/-- Behind the backslashes at the front and the character that ends them, nothing is shifted. -/
theorem kept_of_frame {front before after k : Nat} {c : Char} {more : List Char} (hc : c ≠ '\\')
    (hWritten : escapeChar c = List.replicate k '\\' ++ [c])
    (h : (List.replicate front '\\' ++ c :: more).flatMap escapeChar =
      List.replicate before '\\' ++ ((List.replicate front '\\' ++ c :: more) ++
        List.replicate after '\\')) :
    more.flatMap escapeChar = more ++ List.replicate after '\\' := by
  have hLeft : (List.replicate front '\\' ++ c :: more).flatMap escapeChar =
      List.replicate (front + front + k) '\\' ++ c :: more.flatMap escapeChar := by
    rw [List.flatMap_append, flatMap_escapeChar_backslashes, List.flatMap_cons, hWritten,
      ← List.replicate_append_replicate (n := front + front), List.append_assoc, List.append_assoc,
      List.singleton_append]
  have hRight : List.replicate before '\\' ++ ((List.replicate front '\\' ++ c :: more) ++
      List.replicate after '\\') =
      List.replicate (before + front) '\\' ++ c :: (more ++ List.replicate after '\\') := by
    rw [← List.replicate_append_replicate, List.append_assoc, List.append_assoc, List.cons_append]
  have hHead : ∀ xs : List Char, (c :: xs).head? ≠ some '\\' := fun xs => by simpa using hc
  have hBehind := congrArg (List.dropWhile (· == '\\')) (hLeft.symm.trans (h.trans hRight))
  rw [Text.dropWhile_replicate_append _ _ (hHead _), Text.dropWhile_replicate_append _ _ (hHead _),
    List.cons.injEq] at hBehind
  exact hBehind.2

/-- A text survives its escaping exactly when its marks are at the ends: all that escaping adds are backslashes,
so these must be before the text and behind it. -/
theorem survivesEscaping_iff {cs : List Char} : SurvivesEscaping cs ↔ HasMarksAtEnds cs := by
  refine ⟨fun h => ?_, HasMarksAtEnds.survivesEscaping⟩
  have hShown : ∀ c ∈ cs, 0x20 ≤ c.toNat := fun c hc => by
    obtain ⟨d, -, hd⟩ := List.mem_flatMap.1 (h.subset hc)
    exact le_toNat_of_mem_escapeChar hd
  obtain ⟨before, after, hFrame⟩ := h.exists_frame hShown
  obtain ⟨front, hFront⟩ := Text.exists_replicate_append_dropWhile '\\' cs
  have hHead := Text.head?_dropWhile_ne '\\' cs
  generalize cs.dropWhile (· == '\\') = rest at hFront hHead
  subst hFront
  cases rest with
  | nil => exact ⟨front, [], [], 0, Or.inl rfl, by simp, by simp⟩
  | cons c more =>
      have hc : c ≠ '\\' := by simpa using hHead
      have hMore : ∀ d ∈ more, 0x20 ≤ d.toNat := fun d hd =>
        hShown d (List.mem_append_right _ (List.mem_cons_of_mem c hd))
      obtain ⟨hSlash, -⟩ | hMark := escapeChar_cases
        (hShown c (List.mem_append_right _ List.mem_cons_self))
      · exact absurd hSlash hc
      obtain ⟨k, hWritten⟩ : ∃ k, escapeChar c = List.replicate k '\\' ++ [c] := by
        rcases hMark with ⟨rfl, hQuote⟩ | ⟨-, hPlain⟩
        · exact ⟨1, hQuote⟩
        · exact ⟨0, hPlain⟩
      have hKept := kept_of_frame hc hWritten hFrame
      obtain ⟨plain, back, hPlain, rfl⟩ := exists_plain_of_kept hMore hKept
      rcases hMark with ⟨rfl, -⟩ | ⟨hOwn, -⟩
      · exact ⟨front, ['"'], plain, back, Or.inr rfl, hPlain, rfl⟩
      · exact ⟨front, [], c :: plain, back, Or.inl rfl, List.forall_mem_cons.2 ⟨hOwn, hPlain⟩, rfl⟩

end Phrasebook.Json
