import Mathlib.Data.List.Forall2
import Phrasebook.Json.Printer
import Phrasebook.Json.Reader
import Phrasebook.Proofs.Text.Numeral

/-!
Reading what was written. Both layouts of a document are one spelling with different blanks around its
pieces, and a spelling is read back as the value it was made from, whatever stands behind it.
-/

namespace Phrasebook.Json

open Text

theorem codeUnit?_control {n : Nat} (h : n < 0x20) :
    codeUnit? '0' '0' (digitChar (n / 16)) (digitChar (n % 16)) = some n := by
  have hHigh := hexDigit?_digitChar (n / 16) (by omega)
  have hLow := hexDigit?_digitChar (n % 16) (by omega)
  have hZero : hexDigit? '0' = some 0 := by decide
  simp only [codeUnit?, hexValue?, List.isEmpty_cons, Bool.false_eq_true, if_false, List.foldl_cons,
    List.foldl_nil, Option.bind_some, hZero, hHigh, hLow, Option.map_some, Option.some.injEq]
  omega

/-- One character of a string, escaped or not, is read back as itself. -/
theorem readString_escapeChar (c : Char) (rest : List Char) :
    readString (escapeChar c ++ rest) =
      (readString rest).map fun (cs, rest) => (cs.map (c :: ·), rest) := by
  unfold escapeChar
  split_ifs with hQuote hBackslash hBack hForm hLine hReturn hTab hControl
  any_goals
    subst_vars
    rw [List.cons_append, List.cons_append, List.nil_append, readString]
    all_goals simp [escaped?]
  · have hHigh : isHighSurrogate c.toNat = false := by simp [isHighSurrogate]; omega
    have hLow : isLowSurrogate c.toNat = false := by simp [isLowSurrogate]; omega
    simp only [List.cons_append, List.nil_append]
    rw [readString, codeUnit?_control hControl]
    simp [hHigh, hLow]
  · rw [List.singleton_append, readString]
    · simp [hBackslash, hControl]
    all_goals simp_all

theorem readString_escaped (cs rest : List Char) :
    readString (cs.flatMap escapeChar ++ '"' :: rest) = some (some cs, rest) := by
  induction cs with
  | nil => rw [List.flatMap_nil, List.nil_append, readString]
  | cons c cs ih =>
      rw [List.flatMap_cons, List.append_assoc, readString_escapeChar, ih]
      rfl

theorem le_foldl_digits (ds : List Char) (n : Nat) :
    n ≤ ds.foldl (fun n c => 10 * n + digitValue c) n := by
  induction ds generalizing n with
  | nil => exact Nat.le_refl n
  | cons d ds ih => exact Nat.le_trans (by omega) (ih (10 * n + digitValue d))

/-- Digits that fit 64 bits are all appended. -/
theorem accumulate_of_lt {ds : List Char} {digits : Nat}
    (h : ds.foldl (fun n c => 10 * n + digitValue c) digits < unsignedEnd) :
    accumulate digits ds = (ds.foldl (fun n c => 10 * n + digitValue c) digits, 0) := by
  induction ds generalizing digits with
  | nil => rfl
  | cons d ds ih =>
      rw [List.foldl_cons] at h ⊢
      rw [accumulate, if_pos (Nat.lt_of_le_of_lt (le_foldl_digits ds _) h), ih h]

/-- A number ends in front of such a text. -/
def endsNumber : List Char → Bool
  | [] => true
  | c :: _ => !isDigit c && c != '.' && c != 'e' && c != 'E'

theorem readTail_of_endsNumber {rest : List Char} (h : endsNumber rest = true) (negative : Bool)
    (digits left : Nat) :
    readTail negative digits left rest = some (wholeNumber negative digits left, rest) := by
  cases rest with
  | nil => rfl
  | cons c rest =>
      simp only [endsNumber, Bool.and_eq_true, Bool.not_eq_true', bne_iff_ne, ne_eq] at h
      obtain ⟨⟨⟨-, hPoint⟩, hSmall⟩, hLarge⟩ := h
      simp only [readTail]
      split
      next hFraction =>
        split at hFraction
        · simp_all
        · simp at hFraction
      next hFraction =>
        split at hFraction
        · simp_all
        · simp only [Option.some.injEq, Prod.mk.injEq] at hFraction
          obtain ⟨rfl, rfl, rfl, rfl⟩ := hFraction
          simp [hSmall, hLarge]

theorem readUnsigned_digits {n : Nat} (hFits : n < unsignedEnd) {rest : List Char}
    (hRest : endsNumber rest = true) (negative : Bool) :
    readUnsigned negative (digitsFrom 10 n [] ++ rest) = some (wholeNumber negative n 0, rest) := by
  rcases Nat.eq_zero_or_pos n with rfl | hPos
  · rw [digitsFrom_of_lt (by decide)]
    cases rest with
    | nil => rfl
    | cons c rest =>
        have hDigit : isDigit c = false := by
          simp only [endsNumber, Bool.and_eq_true, Bool.not_eq_true'] at hRest
          exact hRest.1.1.1
        have hZero : digitChar 0 = '0' := by decide
        rw [hZero, List.singleton_append, readUnsigned, hDigit]
        exact readTail_of_endsNumber hRest negative 0 0
  · obtain ⟨d, ds, hDigits, hHead⟩ := digitsFrom_head hPos
    have hAll : ∀ c ∈ d :: ds, isDigit c = true := fun c hc =>
      isDigit_of_mem_digitsFrom (hDigits ▸ hc)
    have hStop : rest.takeWhile isDigit = [] ∧ rest.dropWhile isDigit = rest := by
      cases rest with
      | nil => exact ⟨rfl, rfl⟩
      | cons c rest =>
          simp only [endsNumber, Bool.and_eq_true, Bool.not_eq_true'] at hRest
          simp [hRest.1.1.1]
    have hTake : (d :: ds ++ rest).takeWhile isDigit = d :: ds := by
      rw [List.takeWhile_append_of_pos hAll, hStop.1, List.append_nil]
    have hDrop : (d :: ds ++ rest).dropWhile isDigit = rest := by
      rw [List.dropWhile_append_of_pos hAll, hStop.2]
    have hValue : accumulate 0 (d :: ds) = (n, 0) := by
      have hDigitsValue := digitsValue_digitsFrom n
      rw [hDigits, digitsValue] at hDigitsValue
      rw [accumulate_of_lt (by omega), hDigitsValue]
    rw [hDigits, readUnsigned]
    · simp only [hTake, hDrop, hValue]
      simpa using readTail_of_endsNumber hRest negative n 0
    · simp_all
    · simp_all

theorem readScalar_of_isDigit {d : Char} (hDigit : isDigit d = true) (rest : List Char) :
    readScalar (d :: rest) = (readUnsigned false (d :: rest)).map fun (n, rest) => (.number n, rest) := by
  rw [readScalar]
  all_goals
    rintro _ h
    obtain ⟨rfl, -⟩ := List.cons.inj h
    exact absurd hDigit (by decide)

/-- The whole numbers that a document can hold: those of a signed or an unsigned word. -/
def Number.isPlain : Number → Bool
  | .whole n => -(signedEnd : Int) ≤ n && n < unsignedEnd
  | .decimal .. => false

theorem toList_decimal (n : Nat) : (decimal n).toList = digitsFrom 10 n [] := String.toList_ofList

theorem digitsFrom_eq_cons (n : Nat) : ∃ d ds, digitsFrom 10 n [] = d :: ds ∧ isDigit d = true := by
  obtain ⟨d, ds, hDigits⟩ := List.exists_cons_of_ne_nil (digitsFrom_ne_nil (by decide : 1 < 10) n)
  exact ⟨d, ds, hDigits, isDigit_of_mem_digitsFrom (hDigits ▸ List.mem_cons_self)⟩

/-- A number begins with a sign or a digit. -/
theorem Number.chars_head {n : Number} (h : n.isPlain = true) :
    ∃ c more, n.chars = c :: more ∧ (c = '-' ∨ isDigit c = true) := by
  cases n with
  | decimal negative digits exponent => exact absurd h (by simp [Number.isPlain])
  | whole n =>
      cases n with
      | ofNat n =>
          obtain ⟨d, ds, hDigits, hDigit⟩ := digitsFrom_eq_cons n
          exact ⟨d, ds, by rw [Number.chars, decimalInt, toList_decimal, hDigits], Or.inr hDigit⟩
      | negSucc n =>
          exact ⟨'-', _, by rw [Number.chars, decimalInt, String.toList_append]; rfl, Or.inl rfl⟩

theorem readScalar_number {n : Number} (hPlain : n.isPlain = true) {rest : List Char}
    (hRest : endsNumber rest = true) : readScalar (n.chars ++ rest) = some (.number n, rest) := by
  cases n with
  | decimal negative digits exponent => exact absurd hPlain (by simp [Number.isPlain])
  | whole n =>
      simp only [Number.isPlain, Bool.and_eq_true, decide_eq_true_eq] at hPlain
      cases n with
      | ofNat n =>
          have hFits : n < unsignedEnd := Int.ofNat_lt.1 hPlain.2
          obtain ⟨d, ds, hDigits, hDigit⟩ := digitsFrom_eq_cons n
          have hRead := readUnsigned_digits hFits hRest false
          rw [Number.chars, decimalInt, toList_decimal]
          rw [hDigits, List.cons_append] at hRead ⊢
          rw [readScalar_of_isDigit hDigit, hRead]
          simp [wholeNumber]
      | negSucc n =>
          have hFits : n + 1 ≤ signedEnd := by omega
          have hLt : n + 1 < unsignedEnd := Nat.lt_of_le_of_lt hFits (by decide)
          rw [Number.chars, decimalInt, String.toList_append, toList_decimal]
          have hMinus : ("-" : String).toList = ['-'] := by decide
          have hWhole : wholeNumber true (n + 1) 0 = .whole (Int.negSucc n) := by
            rw [wholeNumber, if_neg (by simp), if_pos ⟨rfl, Nat.succ_pos n, hFits⟩]
            rfl
          rw [hMinus, List.singleton_append, List.cons_append, readScalar,
            readUnsigned_digits hLt hRest true, hWhole]
          rfl

theorem skipBlanks_append {blanks : List Char} (h : ∀ c ∈ blanks, isJsonBlank c = true)
    (rest : List Char) : skipBlanks (blanks ++ rest) = skipBlanks rest :=
  List.dropWhile_append_of_pos h

theorem skipBlanks_cons {c : Char} (h : isJsonBlank c = false) (rest : List Char) :
    skipBlanks (c :: rest) = c :: rest := by
  simp [skipBlanks, h]

theorem endsNumber_append {blanks rest : List Char} (hBlanks : ∀ c ∈ blanks, isJsonBlank c = true)
    (hRest : endsNumber rest = true) : endsNumber (blanks ++ rest) = true := by
  cases blanks with
  | nil => exact hRest
  | cons c blanks =>
      have hBlank := hBlanks c List.mem_cons_self
      simp only [isJsonBlank, Bool.or_eq_true, beq_iff_eq] at hBlank
      rcases hBlank with ((rfl | rfl) | rfl) | rfl <;> rfl

/-- The spelling of an item: it begins with a visible character that closes nothing, and it is read
back from in front of everything that can follow an item. -/
structure IsSpelling {β : Type} (item : Step β) (close : Char) (x : β) (cs : List Char) : Prop where
  head : ∃ c more, cs = c :: more ∧ isJsonBlank c = false ∧ c ≠ close
  read : ∀ rest, endsNumber rest = true → item (cs ++ rest) = some (x, rest)

variable {β : Type} {item : Step β} {close : Char}

theorem IsSpelling.skipBlanks_append {x : β} {cs : List Char} (h : IsSpelling item close x cs)
    (rest : List Char) : skipBlanks (cs ++ rest) = cs ++ rest := by
  obtain ⟨c, more, rfl, hVisible, -⟩ := h.head
  exact skipBlanks_cons hVisible (more ++ rest)

/-- Items that are spelled one after the other with commas between them are all read back. -/
theorem readItems_joined {line last : List Char} (hLine : ∀ c ∈ line, isJsonBlank c = true)
    (hLast : ∀ c ∈ last, isJsonBlank c = true) (hVisible : isJsonBlank close = false)
    (hComma : close ≠ ',') {rest : List Char} (hClose : endsNumber (close :: rest) = true)
    {xs : List β} {pieces : List (List Char)}
    (hPieces : List.Forall₂ (IsSpelling item close) xs pieces) (hNe : xs ≠ []) {fuel : Nat}
    (hFuel : xs.length ≤ fuel) (first : List Char) (hFirst : ∀ c ∈ first, isJsonBlank c = true) :
    readItems item close fuel (first ++ (joined (',' :: line) pieces ++ (last ++ close :: rest))) =
      some (xs, rest) := by
  induction hPieces generalizing fuel first with
  | nil => exact absurd rfl hNe
  | @cons x piece xs pieces hPiece hMore ih =>
      obtain ⟨fuel, rfl⟩ : ∃ n, fuel = n + 1 := ⟨fuel - 1, by simp at hFuel; omega⟩
      cases hMore with
      | nil =>
          have hItem := hPiece.read (last ++ close :: rest) (endsNumber_append hLast hClose)
          rw [readItems, joined, Json.skipBlanks_append hFirst, hPiece.skipBlanks_append, hItem]
          simp [Json.skipBlanks_append hLast, skipBlanks_cons hVisible, hComma]
      | @cons y next ys more hNext hMore =>
          have hTail := ih (by simp) (by simpa using hFuel) line hLine
          have hItem := hPiece.read
            (',' :: (line ++ (joined (',' :: line) (next :: more) ++ (last ++ close :: rest)))) rfl
          have hSkip : ∀ cs, skipBlanks (',' :: cs) = ',' :: cs := skipBlanks_cons rfl
          rw [readItems, joined, List.append_assoc, List.append_assoc, List.cons_append,
            Json.skipBlanks_append hFirst, hPiece.skipBlanks_append, hItem]
          simp only [hSkip, if_true, hTail, Option.map_some]

theorem IsSpelling.length_le_joined {xs : List β} {pieces : List (List Char)}
    (hPieces : List.Forall₂ (IsSpelling item close) xs pieces) (sep : List Char) :
    xs.length ≤ (joined sep pieces).length := by
  induction hPieces with
  | nil => exact Nat.zero_le _
  | @cons x piece xs pieces hPiece hMore ih =>
      obtain ⟨c, more, rfl, -⟩ := hPiece.head
      cases hMore with
      | nil => simp [joined]
      | cons hNext hMore =>
          simp only [joined, List.length_append, List.length_cons] at ih ⊢
          omega

/-- Brackets around pieces, each piece after `line`, and `last` behind them all. -/
def enclose (opening closing : Char) (line last : List Char) : List (List Char) → List Char
  | [] => [opening, closing]
  | pieces => opening :: line ++ joined (',' :: line) pieces ++ last ++ [closing]

theorem readList_enclose {line last : List Char} (hLine : ∀ c ∈ line, isJsonBlank c = true)
    (hLast : ∀ c ∈ last, isJsonBlank c = true) (hVisible : isJsonBlank close = false)
    (hComma : close ≠ ',') (rest : List Char) (hClose : endsNumber (close :: rest) = true)
    {xs : List β} {pieces : List (List Char)}
    (hPieces : List.Forall₂ (IsSpelling item close) xs pieces) (opening : Char) :
    ∃ tail, enclose opening close line last pieces ++ rest = opening :: tail ∧
      readList item close tail = some (xs, rest) := by
  cases hPieces with
  | nil => exact ⟨close :: rest, rfl, by simp [readList, skipBlanks_cons hVisible]⟩
  | @cons x piece xs pieces hPiece hMore =>
      have hAll := List.Forall₂.cons hPiece hMore
      have hLength := IsSpelling.length_le_joined hAll (',' :: line)
      obtain ⟨c, more, rfl, hHead, hNotClose⟩ := hPiece.head
      obtain ⟨after, hAfter⟩ : ∃ after, joined (',' :: line) ((c :: more) :: pieces) = c :: after := by
        cases pieces with
        | nil => exact ⟨more, rfl⟩
        | cons q pieces => exact ⟨_, rfl⟩
      rw [hAfter] at hLength
      have hFuel : (x :: xs).length ≤ (c :: (after ++ (last ++ close :: rest))).length := by
        simp only [List.length_cons, List.length_append] at hLength ⊢
        omega
      have hRead := readItems_joined hLine hLast hVisible hComma hClose hAll (by simp) hFuel [] (by simp)
      refine ⟨line ++ (joined (',' :: line) ((c :: more) :: pieces) ++ (last ++ close :: rest)),
        by simp [enclose], ?_⟩
      rw [hAfter] at hRead ⊢
      rw [readList, skipBlanks_append hLine, List.cons_append, skipBlanks_cons hHead]
      simpa [hNotClose] using hRead

/-- Where blanks stand in a document: in front of a piece at a level of nesting, and behind the colon of a
field. -/
structure Layout where
  line : Nat → List Char
  gap : List Char
  line_blank : ∀ level, ∀ c ∈ line level, isJsonBlank c = true
  gap_blank : ∀ c ∈ gap, isJsonBlank c = true

mutual

/-- The text of a value in a layout. -/
def spell (l : Layout) (level : Nat) : Json → List Char
  | .null | .broken => ['n', 'u', 'l', 'l']
  | .bool true => ['t', 'r', 'u', 'e']
  | .bool false => ['f', 'a', 'l', 's', 'e']
  | .number n => n.chars
  | .string s => quoted s
  | .array items => enclose '[' ']' (l.line (level + 1)) (l.line level) (spellItems l level items)
  | .object fields =>
    enclose '{' '}' (l.line (level + 1)) (l.line level) (spellFields l level fields)

def spellItems (l : Layout) (level : Nat) : List Json → List (List Char)
  | [] => []
  | j :: more => spell l (level + 1) j :: spellItems l level more

def spellFields (l : Layout) (level : Nat) : List (String × Json) → List (List Char)
  | [] => []
  | (name, j) :: more =>
    (quoted name ++ ':' :: (l.gap ++ spell l (level + 1) j)) :: spellFields l level more

end

mutual

/-- Everything in a value can be written and read back: it has no broken parts, and its numbers are
whole and fit a word. -/
def isPlain : Json → Bool
  | .null | .bool _ | .string _ => true
  | .number n => n.isPlain
  | .array items => arePlain items
  | .object fields => arePlainFields fields
  | .broken => false

def arePlain : List Json → Bool
  | [] => true
  | j :: more => isPlain j && arePlain more

def arePlainFields : List (String × Json) → Bool
  | [] => true
  | (_, j) :: more => isPlain j && arePlainFields more

end

theorem length_le_joined_of_mem (sep : List Char) {p : List Char} {pieces : List (List Char)}
    (h : p ∈ pieces) : p.length ≤ (joined sep pieces).length := by
  induction pieces with
  | nil => exact absurd h List.not_mem_nil
  | cons q more ih =>
      cases more with
      | nil => exact Nat.le_of_eq (by rw [List.mem_singleton.1 h, joined])
      | cons r more =>
          simp only [joined, List.length_append]
          rcases List.mem_cons.1 h with rfl | h
          · omega
          · have := ih h
            omega

theorem length_lt_enclose_of_mem (opening closing : Char) (line last : List Char) {p : List Char}
    {pieces : List (List Char)} (h : p ∈ pieces) :
    p.length < (enclose opening closing line last pieces).length := by
  have hJoined := length_le_joined_of_mem (',' :: line) h
  cases pieces with
  | nil => exact absurd h List.not_mem_nil
  | cons q more =>
      simp only [enclose, List.length_append, List.length_cons] at hJoined ⊢
      omega

theorem length_enclose_pos {opening closing : Char} {line last : List Char}
    {pieces : List (List Char)} : 0 < (enclose opening closing line last pieces).length := by
  cases pieces <;> simp [enclose]

theorem readValue_eq_readScalar {cs : List Char} (hArray : ∀ rest, cs ≠ '[' :: rest)
    (hObject : ∀ rest, cs ≠ '{' :: rest) (fuel : Nat) : readValue fuel cs = readScalar cs := by
  cases fuel with
  | zero => rfl
  | succ fuel => rw [readValue] <;> assumption

theorem readScalar_quoted (s : String) (rest : List Char) :
    readScalar (quoted s ++ rest) = some (.string s, rest) := by
  rw [quoted, List.append_assoc, List.cons_append, List.singleton_append, readScalar, readString_escaped]
  simp

theorem spell_head (l : Layout) (level : Nat) {j : Json} (h : isPlain j = true) :
    ∃ c more, spell l level j = c :: more ∧ isJsonBlank c = false ∧ c ≠ ']' := by
  cases j with
  | null => exact ⟨_, _, rfl, rfl, by decide⟩
  | bool b => cases b <;> exact ⟨_, _, rfl, rfl, by decide⟩
  | number n =>
      obtain ⟨c, more, hChars, hHead⟩ := Number.chars_head (n := n) h
      refine ⟨c, more, hChars, ?_, ?_⟩
      · rcases hHead with rfl | hDigit
        · rfl
        · by_contra hBlank
          simp only [isJsonBlank, Bool.not_eq_false, Bool.or_eq_true, beq_iff_eq] at hBlank
          rcases hBlank with ((rfl | rfl) | rfl) | rfl <;> exact absurd hDigit (by decide)
      · rintro rfl
        exact absurd hHead (by decide)
  | string s => exact ⟨_, _, rfl, rfl, by decide⟩
  | array items =>
      obtain ⟨tail, hTail⟩ : ∃ tail, spell l level (.array items) = '[' :: tail := by
        rw [spell]
        cases spellItems l level items <;> exact ⟨_, rfl⟩
      exact ⟨_, _, hTail, rfl, by decide⟩
  | object fields =>
      obtain ⟨tail, hTail⟩ : ∃ tail, spell l level (.object fields) = '{' :: tail := by
        rw [spell]
        cases spellFields l level fields <;> exact ⟨_, rfl⟩
      exact ⟨_, _, hTail, rfl, by decide⟩
  | broken => exact absurd h (by simp [isPlain])

theorem mapM_map_eq_some {α β : Type} {f : β → Option α} {g : α → β} (h : ∀ a, f (g a) = some a)
    (items : List α) : (items.map g).mapM f = some items := by
  induction items with
  | nil => rfl
  | cons item more ih => rw [List.map_cons, List.mapM_cons, h, ih]; rfl

theorem ofMembers_map (fields : List (String × Json)) :
    ofMembers (fields.map fun field => (some field.1, field.2)) = .object fields := by
  rw [ofMembers, mapM_map_eq_some]
  exact fun _ => rfl

/-- A field is read back when its value is. -/
theorem readMember_spelling {l : Layout} {value : Step Json} {name : String} {j : Json} {cs : List Char}
    (hValue : IsSpelling value ']' j cs) :
    IsSpelling (readMember value) '}' (some name, j) (quoted name ++ ':' :: (l.gap ++ cs)) where
  head := ⟨'"', _, rfl, rfl, by decide⟩
  read rest hRest := by
    have hText : quoted name ++ ':' :: (l.gap ++ cs) ++ rest =
        '"' :: (name.toList.flatMap escapeChar ++ '"' :: ':' :: (l.gap ++ (cs ++ rest))) := by
      simp [quoted]
    rw [hText, readMember, readString_escaped]
    simp only [skipBlanks_cons (c := ':') rfl, skipBlanks_append l.gap_blank,
      hValue.skipBlanks_append, hValue.read rest hRest, Option.map_some, String.ofList_toList]

mutual

theorem readValue_spell (l : Layout) : ∀ (j : Json) (level fuel : Nat) (rest : List Char),
    isPlain j = true → (spell l level j).length ≤ fuel → endsNumber rest = true →
    readValue fuel (spell l level j ++ rest) = some (j, rest)
  | .null, level, fuel, rest, _, _, _ => by
      rw [readValue_eq_readScalar (by simp [spell]) (by simp [spell])]
      rfl
  | .bool true, level, fuel, rest, _, _, _ => by
      rw [readValue_eq_readScalar (by simp [spell]) (by simp [spell])]
      rfl
  | .bool false, level, fuel, rest, _, _, _ => by
      rw [readValue_eq_readScalar (by simp [spell]) (by simp [spell])]
      rfl
  | .number n, level, fuel, rest, hPlain, _, hRest => by
      obtain ⟨c, more, hChars, hHead⟩ := Number.chars_head (n := n) hPlain
      have hArray : c ≠ '[' := by rintro rfl; exact absurd hHead (by decide)
      have hObject : c ≠ '{' := by rintro rfl; exact absurd hHead (by decide)
      rw [spell, readValue_eq_readScalar (by simp [hChars, hArray]) (by simp [hChars, hObject]),
        readScalar_number hPlain hRest]
  | .string s, level, fuel, rest, _, _, _ => by
      rw [spell, readValue_eq_readScalar (by simp [quoted]) (by simp [quoted]), readScalar_quoted]
  | .array items, level, fuel, rest, hPlain, hFuel, _ => by
      rw [spell] at hFuel ⊢
      obtain ⟨fuel, rfl⟩ := Nat.exists_eq_add_one_of_ne_zero
        (Nat.ne_of_gt (Nat.lt_of_lt_of_le length_enclose_pos hFuel))
      have hPieces := spellItems_spelling l items level fuel hPlain fun p hp =>
        Nat.le_of_lt_succ (Nat.lt_of_lt_of_le (length_lt_enclose_of_mem _ _ _ _ hp) hFuel)
      obtain ⟨tail, hTail, hRead⟩ := readList_enclose (l.line_blank (level + 1))
        (l.line_blank level) rfl (by decide) rest rfl hPieces '['
      rw [hTail, readValue, hRead]
      rfl
  | .object fields, level, fuel, rest, hPlain, hFuel, _ => by
      rw [spell] at hFuel ⊢
      obtain ⟨fuel, rfl⟩ := Nat.exists_eq_add_one_of_ne_zero
        (Nat.ne_of_gt (Nat.lt_of_lt_of_le length_enclose_pos hFuel))
      have hPieces := spellFields_spelling l fields level fuel hPlain fun p hp =>
        Nat.le_of_lt_succ (Nat.lt_of_lt_of_le (length_lt_enclose_of_mem _ _ _ _ hp) hFuel)
      obtain ⟨tail, hTail, hRead⟩ := readList_enclose (l.line_blank (level + 1))
        (l.line_blank level) rfl (by decide) rest rfl hPieces '{'
      rw [hTail, readValue, hRead, ← ofMembers_map fields]
      rfl
  | .broken, _, _, _, hPlain, _, _ => absurd hPlain (by simp [isPlain])

theorem spellItems_spelling (l : Layout) : ∀ (items : List Json) (level fuel : Nat),
    arePlain items = true → (∀ p ∈ spellItems l level items, p.length ≤ fuel) →
    List.Forall₂ (IsSpelling (readValue fuel) ']') items (spellItems l level items)
  | [], _, _, _, _ => .nil
  | j :: more, level, fuel, hPlain, hFuel => by
      simp only [arePlain, Bool.and_eq_true] at hPlain
      simp only [spellItems, List.forall_mem_cons] at hFuel ⊢
      have hItem : IsSpelling (readValue fuel) ']' j (spell l (level + 1) j) :=
        ⟨spell_head l (level + 1) hPlain.1, fun rest hRest =>
          readValue_spell l j (level + 1) fuel rest hPlain.1 hFuel.1 hRest⟩
      exact .cons hItem (spellItems_spelling l more level fuel hPlain.2 hFuel.2)

theorem spellFields_spelling (l : Layout) : ∀ (fields : List (String × Json)) (level fuel : Nat),
    arePlainFields fields = true → (∀ p ∈ spellFields l level fields, p.length ≤ fuel) →
    List.Forall₂ (IsSpelling (readMember (readValue fuel)) '}')
      (fields.map fun field => (some field.1, field.2)) (spellFields l level fields)
  | [], _, _, _, _ => .nil
  | (name, j) :: more, level, fuel, hPlain, hFuel => by
      simp only [arePlainFields, Bool.and_eq_true] at hPlain
      simp only [spellFields, List.forall_mem_cons, List.length_append, List.length_cons] at hFuel ⊢
      have hValue : IsSpelling (readValue fuel) ']' j (spell l (level + 1) j) :=
        ⟨spell_head l (level + 1) hPlain.1, fun rest hRest =>
          readValue_spell l j (level + 1) fuel rest hPlain.1 (by omega) hRest⟩
      exact .cons (readMember_spelling hValue) (spellFields_spelling l more level fuel hPlain.2 hFuel.2)

end

def Layout.compact : Layout := ⟨fun _ => [], [], by simp, by simp⟩

def Layout.pretty : Layout :=
  ⟨newLine, [' '], by simp [newLine, isJsonBlank], by simp [isJsonBlank]⟩

mutual

theorem compactChars_eq : ∀ (j : Json) (level : Nat), compactChars j = spell .compact level j
  | .null, _ | .broken, _ | .bool true, _ | .bool false, _ | .number _, _ | .string _, _ => rfl
  | .array items, level => by
      rw [compactChars, spell, compactItems_eq items level]
      cases spellItems .compact level items <;> simp [enclose, joined, Layout.compact]
  | .object fields, level => by
      rw [compactChars, spell, compactFields_eq fields level]
      cases spellFields .compact level fields <;> simp [enclose, joined, Layout.compact]

theorem compactItems_eq : ∀ (items : List Json) (level : Nat),
    compactItems items = spellItems .compact level items
  | [], _ => rfl
  | j :: more, level => by
      rw [compactItems, spellItems, compactChars_eq j (level + 1), compactItems_eq more level]

theorem compactFields_eq : ∀ (fields : List (String × Json)) (level : Nat),
    compactFields fields = spellFields .compact level fields
  | [], _ => rfl
  | (name, j) :: more, level => by
      rw [compactFields, spellFields, compactChars_eq j (level + 1), compactFields_eq more level]
      rfl

end

mutual

theorem prettyChars_eq : ∀ (j : Json) (level : Nat), prettyChars level j = spell .pretty level j
  | .null, _ | .broken, _ | .bool true, _ | .bool false, _ | .number _, _ | .string _, _ => rfl
  | .array items, level => by
      rw [prettyChars, spell, prettyItems_eq items level]
      cases spellItems .pretty level items <;> rfl
  | .object fields, level => by
      rw [prettyChars, spell, prettyFields_eq fields level]
      cases spellFields .pretty level fields <;> rfl

theorem prettyItems_eq : ∀ (items : List Json) (level : Nat),
    prettyItems level items = spellItems .pretty level items
  | [], _ => rfl
  | j :: more, level => by
      rw [prettyItems, spellItems, prettyChars_eq j (level + 1), prettyItems_eq more level]

theorem prettyFields_eq : ∀ (fields : List (String × Json)) (level : Nat),
    prettyFields level fields = spellFields .pretty level fields
  | [], _ => rfl
  | (name, j) :: more, level => by
      rw [prettyFields, spellFields, prettyChars_eq j (level + 1), prettyFields_eq more level]
      rfl

end

theorem ofChars?_spell (l : Layout) {j : Json} (h : isPlain j = true) :
    ofChars? (spell l 0 j) = some j := by
  have hRead := readValue_spell l j 0 (spell l 0 j).length [] h (Nat.le_refl _) rfl
  obtain ⟨c, more, hSpell, hVisible, -⟩ := spell_head l 0 h
  rw [List.append_nil] at hRead
  rw [ofChars?, hSpell, skipBlanks_cons hVisible, ← hSpell, hRead]
  rfl

/-- A value written on one line is read back. -/
theorem parse?_compact {j : Json} (h : isPlain j = true) : parse? j.compact = some j := by
  rw [parse?, compact, String.toList_ofList, compactChars_eq j 0, ofChars?_spell .compact h]

/-- A value written over several lines is read back. -/
theorem parse?_pretty {j : Json} (h : isPlain j = true) : parse? j.pretty = some j := by
  rw [parse?, pretty, String.toList_ofList, prettyChars_eq j 0, ofChars?_spell .pretty h]

end Phrasebook.Json
