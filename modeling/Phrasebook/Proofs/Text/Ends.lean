import Mathlib.Data.List.DropRight
import Phrasebook.Text.Blank
import Phrasebook.Text.Search

/-!
The ends of texts. A text without the copies of a character at its ends is what stands between them, and
what is behind a given front is the rest of the text.
-/

namespace Phrasebook.Text

theorem dropFront?_eq_some_iff {front text rest : List Char} :
    dropFront? front text = some rest ↔ text = front ++ rest := by
  fun_induction dropFront? front text with
  | case1 text => simp [eq_comm]
  | case2 => simp
  | case3 c front d text hSame ih =>
      obtain rfl := beq_iff_eq.1 hSame
      simp [ih]
  | case4 c front d text hOther =>
      have hNe : d ≠ c := fun hEq => hOther (by simp [hEq])
      simp [hNe]

theorem dropFront?_eq_none_iff {front text : List Char} :
    dropFront? front text = none ↔ ¬front <+: text := by
  cases hRest : dropFront? front text with
  | some rest => simp [dropFront?_eq_some_iff.1 hRest]
  | none =>
      refine iff_of_true rfl ?_
      rintro ⟨rest, hText⟩
      rw [dropFront?_eq_some_iff.2 hText.symm] at hRest
      simp at hRest

/-- No copy of `d` stands at either end. -/
structure IsTrimmed (d : Char) (cs : List Char) : Prop where
  head : cs.head? ≠ some d
  last : cs.getLast? ≠ some d

theorem head?_dropWhile_ne (d : Char) (cs : List Char) : (cs.dropWhile (· == d)).head? ≠ some d := by
  intro hHead
  have hNot := List.head?_dropWhile_not (· == d) cs
  rw [hHead] at hNot
  simp at hNot

theorem exists_replicate_append_dropWhile (d : Char) (cs : List Char) :
    ∃ k, cs = List.replicate k d ++ cs.dropWhile (· == d) := by
  have hAll : ∀ c ∈ cs.takeWhile (· == d), c = d := by
    intro c hc
    have hSame := List.mem_takeWhile_imp hc
    simpa using hSame
  refine ⟨(cs.takeWhile (· == d)).length, ?_⟩
  rw [← List.eq_replicate_of_mem hAll, List.takeWhile_append_dropWhile]

theorem dropWhile_replicate_append (d : Char) (k : Nat) {cs : List Char} (h : cs.head? ≠ some d) :
    (List.replicate k d ++ cs).dropWhile (· == d) = cs := by
  rw [List.dropWhile_append_of_pos fun c hc => by simp [List.eq_of_mem_replicate hc]]
  cases cs with
  | nil => rfl
  | cons c rest => exact List.dropWhile_cons_of_neg (by simpa using h)

theorem trimCharLeft_replicate (d : Char) (k : Nat) {cs : List Char} (h : cs.head? ≠ some d) :
    trimCharLeft d (String.ofList (List.replicate k d ++ cs)) = String.ofList cs := by
  rw [trimCharLeft, String.toList_ofList, dropWhile_replicate_append d k h]

theorem trimCharRight_concat (d : Char) {cs : List Char} (h : cs.getLast? ≠ some d) :
    trimCharRight d (String.ofList (cs ++ [d])) = String.ofList cs := by
  have hReverse : (cs ++ [d]).reverse = List.replicate 1 d ++ cs.reverse := by simp
  rw [trimCharRight, String.toList_ofList, hReverse,
    dropWhile_replicate_append d 1 (by rwa [List.head?_reverse]), List.reverse_reverse]

/-- What is dropped from a text are copies of `d` at its ends, all of them. -/
theorem exists_trimChar (d : Char) (s : String) :
    ∃ i j, s.toList = List.replicate i d ++ (trimChar d s).toList ++ List.replicate j d ∧
      IsTrimmed d (trimChar d s).toList := by
  obtain ⟨i, hFront⟩ := exists_replicate_append_dropWhile d s.toList
  obtain ⟨j, hBack⟩ := exists_replicate_append_dropWhile d (s.toList.dropWhile (· == d)).reverse
  have hTrim : (trimChar d s).toList = (s.toList.dropWhile (· == d)).rdropWhile (· == d) := by
    rw [trimChar, String.toList_ofList, List.rdropWhile]
  have hInner : s.toList.dropWhile (· == d) = (trimChar d s).toList ++ List.replicate j d := by
    rw [hTrim, List.rdropWhile, ← List.reverse_replicate, ← List.reverse_append, ← hBack,
      List.reverse_reverse]
  refine ⟨i, j, ?_, fun hHead => ?_, fun hLast => ?_⟩
  · rw [List.append_assoc, ← hInner, ← hFront]
  · refine head?_dropWhile_ne d s.toList ?_
    rw [hInner, List.head?_append, hHead]
    rfl
  · rw [hTrim, List.rdropWhile, List.getLast?_reverse] at hLast
    exact head?_dropWhile_ne d _ hLast

end Phrasebook.Text
