import Mathlib.Data.List.DropRight
import Phrasebook.Text.Blank
import Phrasebook.Text.Newline

/-!
Canonical texts. Trimming a trimmed text, or unifying line ends that are unified, changes nothing, and what is told
of the lines of a text goes from line feed to line feed.
-/

namespace Phrasebook.Text

theorem trimRight_isPrefix (cs : List Char) : trimRight cs <+: cs :=
  List.rdropWhile_prefix isBlank cs

theorem trimRight_trimRight (cs : List Char) : trimRight (trimRight cs) = trimRight cs :=
  List.rdropWhile_idempotent isBlank cs

theorem trimLeft_of_prefix {cs front : List Char} (hPrefix : front <+: cs)
    (h : trimLeft cs = cs) : trimLeft front = front := by
  obtain ⟨rest, rfl⟩ := hPrefix
  cases front with
  | nil => rfl
  | cons c front =>
      rw [trimLeft, List.dropWhile_eq_self_iff] at h ⊢
      simpa using h

theorem trimLeft_append {blanks : List Char} (h : ∀ c ∈ blanks, isBlank c = true) (cs : List Char) :
    trimLeft (blanks ++ cs) = trimLeft cs :=
  List.dropWhile_append_of_pos h

theorem trimLeft_cons {c : Char} (h : isBlank c = false) (rest : List Char) : trimLeft (c :: rest) = c :: rest :=
  List.dropWhile_cons_of_neg (by simp [h])

theorem trimRight_append {blanks : List Char} (h : ∀ c ∈ blanks, isBlank c = true) (cs : List Char) :
    trimRight (cs ++ blanks) = trimRight cs := by
  rw [trimRight, List.reverse_append,
    List.dropWhile_append_of_pos fun c hc => h c (List.mem_reverse.1 hc), trimRight]

theorem trimRight_append_cons {c : Char} (h : isBlank c = false) (front back : List Char) :
    trimRight (front ++ c :: back) = front ++ c :: trimRight back := by
  have hReverse : (front ++ c :: back).reverse = back.reverse ++ c :: front.reverse := by simp
  rw [trimRight, hReverse, List.dropWhile_append, trimRight]
  split
  next hNone => simp [List.isEmpty_iff.1 hNone, List.dropWhile_cons_of_neg, h]
  next => simp

theorem exists_trimLeft (cs : List Char) :
    ∃ blanks, (∀ c ∈ blanks, isBlank c = true) ∧ cs = blanks ++ trimLeft cs :=
  ⟨cs.takeWhile isBlank, fun _ hc => List.mem_takeWhile_imp hc, List.takeWhile_append_dropWhile.symm⟩

theorem exists_trimRight (cs : List Char) :
    ∃ blanks, (∀ c ∈ blanks, isBlank c = true) ∧ cs = trimRight cs ++ blanks := by
  obtain ⟨blanks, hBlanks, hReverse⟩ := exists_trimLeft cs.reverse
  refine ⟨blanks.reverse, fun c hc => hBlanks c (List.mem_reverse.1 hc), ?_⟩
  rw [trimRight, ← List.reverse_append, ← trimLeft, ← hReverse, List.reverse_reverse]

theorem head_trimLeft {cs rest : List Char} {c : Char} (h : trimLeft cs = c :: rest) : isBlank c = false := by
  have hHead := List.head?_dropWhile_not isBlank cs
  rw [← trimLeft, h] at hHead
  simpa using hHead

theorem last_trimRight {cs front : List Char} {c : Char} (h : trimRight cs = front ++ [c]) :
    isBlank c = false := by
  have hReverse : trimLeft cs.reverse = c :: front.reverse := by
    rw [trimLeft, ← List.reverse_reverse (cs.reverse.dropWhile isBlank), ← trimRight, h, List.reverse_concat]
  exact head_trimLeft hReverse

/-- It does not matter at which end the blanks go first. -/
theorem trimLeft_trimRight (cs : List Char) : trimLeft (trimRight cs) = trimRight (trimLeft cs) := by
  obtain ⟨blanks, hBlanks, hWhole⟩ := exists_trimLeft cs
  cases hRest : trimLeft cs with
  | nil =>
      rw [hWhole, hRest, List.append_nil, ← List.nil_append blanks, trimRight_append hBlanks]
      rfl
  | cons c rest =>
      have hVisible := head_trimLeft hRest
      rw [hWhole, hRest, trimRight_append_cons hVisible, trimLeft_append hBlanks, trimLeft_cons hVisible]
      exact (trimRight_append_cons hVisible [] rest).symm

/-- The blanks at the end of a text can go first. -/
theorem trim_trimRight (cs : List Char) : trim (String.ofList (trimRight cs)) = trim (String.ofList cs) := by
  rw [trim, trim, String.toList_ofList, String.toList_ofList, trimLeft_trimRight, trimRight_trimRight]

theorem trimRight_of_trimRight {cs front back : List Char} {c : Char} (hVisible : isBlank c = false)
    (h : trimRight cs = front ++ c :: back) : trimRight back = back := by
  have hTwice := trimRight_trimRight cs
  rw [h, trimRight_append_cons hVisible] at hTwice
  exact (List.cons.inj (List.append_cancel_left hTwice)).2

theorem trim_append {front back : List Char} (hFront : ∀ c ∈ front, isBlank c = true)
    (hBack : ∀ c ∈ back, isBlank c = true) (s : String) :
    trim (String.ofList (front ++ (s.toList ++ back))) = trim s := by
  rw [trim, String.toList_ofList, trimLeft_append hFront, ← trimLeft_trimRight, trimRight_append hBack,
    trimLeft_trimRight, trim]

/-- No blank is left at either end. -/
theorem trim_trim (s : String) : trim (trim s) = trim s := by
  have hLeft : trimLeft (trimLeft s.toList) = trimLeft s.toList :=
    List.dropWhile_idempotent isBlank s.toList
  rw [trim, trim, String.toList_ofList, trimLeft_of_prefix (trimRight_isPrefix _) hLeft,
    trimRight_trimRight]

/-- A text without blanks is trimmed. -/
theorem trim_eq_self {s : String} (h : ∀ c ∈ s.toList, isBlank c = false) : trim s = s := by
  have hKeep : ∀ cs : List Char, (∀ c ∈ cs, isBlank c = false) → cs.dropWhile isBlank = cs := by
    intro cs hAll
    cases cs with
    | nil => rfl
    | cons c cs => rw [List.dropWhile_cons_of_neg (by simp [hAll c List.mem_cons_self])]
  have hReverse := hKeep s.toList.reverse fun c hc => h c (List.mem_reverse.1 hc)
  rw [trim, trimLeft, hKeep s.toList h, trimRight, hReverse, List.reverse_reverse,
    String.ofList_toList]

theorem mem_dropWhile {α : Type} {p : α → Bool} {xs : List α} {x : α} (h : x ∈ xs) (hx : p x = false) :
    x ∈ xs.dropWhile p := by
  rw [← List.takeWhile_append_dropWhile (p := p) (l := xs), List.mem_append] at h
  rcases h with h | h
  · have hTaken := List.mem_takeWhile_imp h
    rw [hx] at hTaken
    exact absurd hTaken (by decide)
  · exact h

/-- Only blanks are trimmed. -/
theorem mem_trim {s : String} {c : Char} (h : c ∈ s.toList) (hc : isBlank c = false) :
    c ∈ (trim s).toList := by
  rw [trim, String.toList_ofList, trimRight, List.mem_reverse]
  exact mem_dropWhile (List.mem_reverse.2 (mem_dropWhile h hc)) hc

theorem isEmpty_trim_iff {s : String} : (trim s).isEmpty = true ↔ ∀ c ∈ s.toList, isBlank c = true := by
  constructor
  · intro hEmpty c hc
    by_contra hVisible
    have hMem := mem_trim hc (Bool.eq_false_iff.2 hVisible)
    rw [String.isEmpty_iff.1 hEmpty] at hMem
    exact absurd hMem List.not_mem_nil
  · intro hBlank
    have hNone := trimLeft_append hBlank []
    rw [List.append_nil] at hNone
    rw [trim, hNone]
    rfl

theorem mem_of_mem_trim {s : String} {c : Char} (h : c ∈ (trim s).toList) : c ∈ s.toList := by
  rw [trim, String.toList_ofList] at h
  exact (List.dropWhile_sublist _).subset ((trimRight_isPrefix _).subset h)

/-- No carriage return is left. -/
theorem return_notMem_unifyNewlinesList (cs : List Char) : '\r' ∉ unifyNewlinesList cs := by
  fun_induction unifyNewlinesList cs with
  | case1 rest ih => simp [ih]
  | case2 rest hNoFeed ih => simp [ih]
  | case3 c rest hNoPair hNoReturn ih =>
      simp only [List.mem_cons, not_or]
      exact ⟨fun h => hNoReturn h.symm, ih⟩
  | case4 => exact List.not_mem_nil

theorem unifyNewlinesList_of_notMem {cs : List Char} (h : '\r' ∉ cs) : unifyNewlinesList cs = cs := by
  fun_induction unifyNewlinesList cs with
  | case1 rest ih => exact absurd List.mem_cons_self h
  | case2 rest hNoFeed ih => exact absurd List.mem_cons_self h
  | case3 c rest hNoPair hNoReturn ih => rw [ih fun hMem => h (List.mem_cons_of_mem c hMem)]
  | case4 => rfl

theorem return_notMem_unifyNewlines (s : String) : '\r' ∉ (unifyNewlines s).toList := by
  rw [unifyNewlines, String.toList_ofList]
  exact return_notMem_unifyNewlinesList s.toList

theorem unifyNewlines_of_notMem {s : String} (h : '\r' ∉ s.toList) : unifyNewlines s = s := by
  rw [unifyNewlines, unifyNewlinesList_of_notMem h, String.ofList_toList]

theorem linesFrom_append {front : List Char} (h : '\n' ∉ front) (shown rest : List Char) :
    linesFrom shown (front ++ rest) = linesFrom (front.reverse ++ shown) rest := by
  induction front generalizing shown with
  | nil => rfl
  | cons c front ih =>
      rw [List.mem_cons, not_or] at h
      rw [List.cons_append, linesFrom, ih h.2, List.reverse_cons, List.append_assoc, List.singleton_append]
      exact fun hFeed => h.1 hFeed.symm

/-- A carriage return at the end of a line does not count. -/
theorem exists_linesFrom {line : String} (h : '\n' ∉ line.toList) (rest : List Char) :
    ∃ shown, linesFrom [] (line.toList ++ '\n' :: rest) = shown :: linesFrom [] rest ∧
      trim shown = trim line := by
  rw [linesFrom_append h, List.append_nil]
  refine ⟨_, rfl, ?_⟩
  split
  next hReturn =>
    have hEnd : line.toList = line.toList.reverse.tail.reverse ++ ['\r'] := by
      rw [← List.reverse_cons, List.cons_head?_tail hReturn, List.reverse_reverse]
    have hTrim := (congrArg trimRight hEnd).trans (trimRight_append (by simp [isBlank]) _)
    rw [← trim_trimRight, ← hTrim, trim_trimRight, String.ofList_toList]
  next => rw [List.reverse_reverse, String.ofList_toList]

end Phrasebook.Text
