import Mathlib.Algebra.Group.Nat.Defs
import Phrasebook.Text.Numeral

/-!
Numbers in digits. A decimal number is written with its tenth part first and its last digit behind, so
what holds of the digits of a number is shown by going from a number to its tenth part. In a field of a
given width the digits of a number are its last ones, with zeros in front.
-/

namespace Phrasebook.Text

theorem isDigit_digitChar : ∀ n < 10, isDigit (digitChar n) = true := by decide

theorem digitValue_digitChar : ∀ n < 10, digitValue (digitChar n) = n := by decide

theorem hexDigit?_digitChar : ∀ n < 16, hexDigit? (digitChar n) = some n := by decide

theorem digitsFrom_of_lt {base n : Nat} (h : n < base) (more : List Char) :
    digitsFrom base n more = digitChar n :: more := by
  rw [digitsFrom, dif_pos (Or.inr h)]

/-- The digits of a number stand in front of what was there. -/
theorem digitsFrom_append {base : Nat} (hBase : 1 < base) (n : Nat) (more : List Char) :
    digitsFrom base n more = digitsFrom base n [] ++ more := by
  induction n using Nat.strongRecOn generalizing more with
  | _ n ih =>
      rcases Nat.lt_or_ge n base with hLt | hLe
      · rw [digitsFrom_of_lt hLt, digitsFrom_of_lt hLt, List.singleton_append]
      · have hStep : ∀ more, digitsFrom base n more =
            digitsFrom base (n / base) (digitChar (n % base) :: more) := by
          intro more
          rw [digitsFrom, dif_neg (by omega)]
        have hLess : n / base < n := Nat.div_lt_self (by omega) hBase
        rw [hStep, hStep, ih (n / base) hLess, ih (n / base) hLess [_], List.append_assoc,
          List.singleton_append]

theorem digitsFrom_of_le {base n : Nat} (hBase : 1 < base) (h : base ≤ n) :
    digitsFrom base n [] = digitsFrom base (n / base) [] ++ [digitChar (n % base)] := by
  rw [digitsFrom, dif_neg (by omega), digitsFrom_append hBase]

theorem digitChar_eq {n : Nat} (h : n < 10) : digitChar n = n.digitChar := by
  revert n
  decide

theorem digitsFrom_eq_toDigits (n : Nat) : digitsFrom 10 n [] = Nat.toDigits 10 n := by
  induction n using Nat.strongRecOn with
  | _ n ih =>
      rcases Nat.lt_or_ge n 10 with hLt | hLe
      · rw [digitsFrom_of_lt hLt, Nat.toDigits_of_lt_base hLt, digitChar_eq hLt]
      · rw [digitsFrom_of_le (by decide) hLe, Nat.toDigits_of_base_le (by decide) hLe, ih (n / 10) (by omega),
          digitChar_eq (Nat.mod_lt n (by decide))]

theorem decimal_eq_toString (n : Nat) : decimal n = toString n := by
  rw [decimal, digitsFrom_eq_toDigits]
  rfl

theorem decimalInt_eq_toString (n : Int) : decimalInt n = toString n := by
  cases n with
  | ofNat n => exact decimal_eq_toString n
  | negSucc n =>
      rw [decimalInt, decimal_eq_toString]
      rfl

theorem digitsFrom_ne_nil {base : Nat} (hBase : 1 < base) (n : Nat) : digitsFrom base n [] ≠ [] := by
  rcases Nat.lt_or_ge n base with hLt | hLe
  · rw [digitsFrom_of_lt hLt]
    exact List.cons_ne_nil _ _
  · rw [digitsFrom_of_le hBase hLe]
    exact List.concat_ne_nil _ _

theorem exists_of_mem_digitsFrom {base n : Nat} (hBase : 1 < base) {c : Char}
    (h : c ∈ digitsFrom base n []) : ∃ d < base, c = digitChar d := by
  induction n using Nat.strongRecOn with
  | _ n ih =>
      rcases Nat.lt_or_ge n base with hLt | hLe
      · rw [digitsFrom_of_lt hLt, List.mem_singleton] at h
        exact ⟨n, hLt, h⟩
      · rw [digitsFrom_of_le hBase hLe, List.mem_append, List.mem_singleton] at h
        rcases h with h | h
        · exact ih (n / base) (Nat.div_lt_self (by omega) hBase) h
        · exact ⟨n % base, Nat.mod_lt n (by omega), h⟩

theorem isDigit_of_mem_digitsFrom {n : Nat} {c : Char} (h : c ∈ digitsFrom 10 n []) :
    isDigit c = true := by
  obtain ⟨d, hLt, rfl⟩ := exists_of_mem_digitsFrom (by decide) h
  exact isDigit_digitChar d hLt

theorem digitsValue_concat (ds : List Char) (c : Char) :
    digitsValue (ds ++ [c]) = 10 * digitsValue ds + digitValue c := by
  simp [digitsValue]

/-- Digits read one after the other give the number back. -/
theorem digitsValue_digitsFrom (n : Nat) : digitsValue (digitsFrom 10 n []) = n := by
  induction n using Nat.strongRecOn with
  | _ n ih =>
      rcases Nat.lt_or_ge n 10 with hLt | hLe
      · simp [digitsFrom_of_lt hLt, digitsValue, digitValue_digitChar n hLt]
      · rw [digitsFrom_of_le (by decide) hLe, digitsValue_concat, ih (n / 10) (by omega),
          digitValue_digitChar _ (by omega)]
        omega

theorem natural?_decimal (n : Nat) : natural? (decimal n).toList = some n := by
  have hNe : digitsFrom 10 n [] ≠ [] := digitsFrom_ne_nil (by decide) n
  have hAll : (digitsFrom 10 n []).all isDigit = true :=
    List.all_eq_true.2 fun c hc => isDigit_of_mem_digitsFrom hc
  rw [decimal, String.toList_ofList, natural?, if_neg (by simp [hNe, hAll]), digitsValue_digitsFrom]

theorem decimal_injective {m n : Nat} (h : decimal m = decimal n) : m = n := by
  have hDigits : digitsFrom 10 m [] = digitsFrom 10 n [] := String.ofList_injective h
  rw [← digitsValue_digitsFrom m, hDigits, digitsValue_digitsFrom]

/-- No number but zero begins with a zero. -/
theorem digitsFrom_head {n : Nat} (h : 0 < n) :
    ∃ d ds, digitsFrom 10 n [] = d :: ds ∧ d ≠ '0' := by
  induction n using Nat.strongRecOn with
  | _ n ih =>
      rcases Nat.lt_or_ge n 10 with hLt | hLe
      · refine ⟨digitChar n, [], digitsFrom_of_lt hLt [], ?_⟩
        intro hZero
        have hValue := digitValue_digitChar n hLt
        rw [hZero] at hValue
        exact absurd hValue.symm (Nat.ne_of_gt h)
      · obtain ⟨d, ds, hDigits, hNe⟩ := ih (n / 10) (by omega) (by omega)
        exact ⟨d, ds ++ [digitChar (n % 10)], by rw [digitsFrom_of_le (by decide) hLe, hDigits]; rfl, hNe⟩

theorem hexValue?_concat {ds : List Char} (hNe : ds ≠ []) (c : Char) :
    hexValue? (ds ++ [c]) = (hexValue? ds).bind fun n => (hexDigit? c).map (16 * n + ·) := by
  simp [hexValue?, hNe]

theorem hexValue?_digitsFrom (n : Nat) : hexValue? (digitsFrom 16 n []) = some n := by
  induction n using Nat.strongRecOn with
  | _ n ih =>
      rcases Nat.lt_or_ge n 16 with hLt | hLe
      · simp [digitsFrom_of_lt hLt, hexValue?, hexDigit?_digitChar n hLt]
      · rw [digitsFrom_of_le (by decide) hLe, hexValue?_concat (digitsFrom_ne_nil (by decide) _),
          ih (n / 16) (by omega), Option.bind_some, hexDigit?_digitChar _ (by omega), Option.map_some,
          Nat.div_add_mod]

theorem hex_injective {m n : Nat} (h : hex m = hex n) : m = n := by
  have hDigits : digitsFrom 16 m [] = digitsFrom 16 n [] := by
    rw [← String.toList_ofList (l := digitsFrom 16 m []), ← hex, h, hex, String.toList_ofList]
  have hValue := congrArg hexValue? hDigits
  rw [hexValue?_digitsFrom, hexValue?_digitsFrom] at hValue
  exact Option.some.inj hValue

/-- The last `k` digits of a number, zeros in front included. -/
def lastDigits : Nat → Nat → List Char
  | 0, _ => []
  | k + 1, n => lastDigits k (n / 10) ++ [digitChar (n % 10)]

theorem length_lastDigits (k n : Nat) : (lastDigits k n).length = k := by
  induction k generalizing n with
  | zero => rfl
  | succ k ih => rw [lastDigits, List.length_append, ih, List.length_singleton]

theorem isDigit_of_mem_lastDigits {k n : Nat} {c : Char} (h : c ∈ lastDigits k n) :
    isDigit c = true := by
  induction k generalizing n with
  | zero => exact absurd h List.not_mem_nil
  | succ k ih =>
      rw [lastDigits, List.mem_append, List.mem_singleton] at h
      rcases h with h | h
      · exact ih h
      · exact h ▸ isDigit_digitChar _ (by omega)

theorem digitsValue_lastDigits {k n : Nat} (h : n < 10 ^ k) : digitsValue (lastDigits k n) = n := by
  induction k generalizing n with
  | zero => rw [Nat.pow_zero, Nat.lt_one_iff] at h; rw [h]; rfl
  | succ k ih =>
      rw [lastDigits, digitsValue_concat, ih (by rw [Nat.pow_succ] at h; omega),
        digitValue_digitChar _ (by omega)]
      omega

theorem lastDigits_zero (k : Nat) : lastDigits k 0 = List.replicate k '0' := by
  induction k with
  | zero => rfl
  | succ k ih => rw [lastDigits, Nat.zero_div, ih, List.replicate_succ']; rfl

/-- A number that fits into a field is padded to the width of the field. -/
theorem toList_padded {k n : Nat} (hWidth : 0 < k) (h : n < 10 ^ k) :
    (padded k n).toList = lastDigits k n := by
  have hPadded : ∀ k, (padded k n).toList =
      List.replicate (k - (digitsFrom 10 n []).length) '0' ++ digitsFrom 10 n [] := fun k => by
    simp [padded, padLeft, decimal]
  rw [hPadded]
  clear hPadded
  induction k generalizing n with
  | zero => exact absurd hWidth (Nat.lt_irrefl 0)
  | succ k ih =>
      rcases Nat.lt_or_ge n 10 with hLt | hLe
      · rw [digitsFrom_of_lt hLt, lastDigits, Nat.div_eq_of_lt hLt, Nat.mod_eq_of_lt hLt,
          lastDigits_zero, List.length_singleton, Nat.add_sub_cancel]
      · have hTenth : n / 10 < 10 ^ k := by rw [Nat.pow_succ] at h; omega
        have hPos : 0 < k := Nat.pos_of_ne_zero fun hZero => by
          rw [hZero, Nat.pow_zero] at hTenth
          omega
        rw [digitsFrom_of_le (by decide) hLe, List.length_append, List.length_singleton,
          Nat.add_sub_add_right, ← List.append_assoc, ih hPos hTenth, lastDigits]

/-- Of lists whose fronts have the same length the fronts are compared first. -/
theorem append_lt_append {xs ys xs' ys' : List Char} (hLength : xs.length = xs'.length)
    (h : xs < xs' ∨ xs = xs' ∧ ys < ys') : xs ++ ys < xs' ++ ys' := by
  induction xs generalizing xs' with
  | nil =>
      obtain rfl := List.length_eq_zero_iff.1 hLength.symm
      rcases h with h | ⟨-, h⟩
      · exact absurd h (List.lt_irrefl [])
      · exact h
  | cons x xs ih =>
      cases xs' with
      | nil => simp at hLength
      | cons x' xs' =>
          rw [List.length_cons, List.length_cons, Nat.add_right_cancel_iff] at hLength
          rw [List.cons_append, List.cons_append, List.cons_lt_cons_iff]
          rw [List.cons_lt_cons_iff, List.cons_eq_cons] at h
          rcases h with (h | ⟨rfl, h⟩) | ⟨⟨rfl, rfl⟩, h⟩
          · exact Or.inl h
          · exact Or.inr ⟨rfl, ih hLength (Or.inl h)⟩
          · exact Or.inr ⟨rfl, ih rfl (Or.inr ⟨rfl, h⟩)⟩

theorem lastDigits_lt {k m n : Nat} (hn : n < 10 ^ k) (h : m < n) : lastDigits k m < lastDigits k n := by
  have hDigit : ∀ i < 10, ∀ j < 10, i < j → digitChar i < digitChar j := by decide
  induction k generalizing m n with
  | zero =>
      rw [Nat.pow_zero] at hn
      omega
  | succ k ih =>
      rw [Nat.pow_succ] at hn
      refine append_lt_append (by rw [length_lastDigits, length_lastDigits]) ?_
      rcases Nat.lt_or_ge (m / 10) (n / 10) with hLt | hLe
      · exact Or.inl (ih (by omega) hLt)
      · have hSame : m / 10 = n / 10 := by omega
        refine Or.inr ⟨by rw [hSame], List.cons_lt_cons_iff.2 (Or.inl ?_)⟩
        exact hDigit _ (by omega) _ (by omega) (by omega)

/-- Fields are compared as numbers, one after the other. -/
theorem lastDigits_append_lt {k m n : Nat} {ys ys' : List Char} (hn : n < 10 ^ k)
    (h : m < n ∨ m = n ∧ ys < ys') : lastDigits k m ++ ys < lastDigits k n ++ ys' := by
  refine append_lt_append (by rw [length_lastDigits, length_lastDigits]) ?_
  rcases h with hLt | ⟨rfl, hLt⟩
  · exact Or.inl (lastDigits_lt hn hLt)
  · exact Or.inr ⟨rfl, hLt⟩

end Phrasebook.Text
