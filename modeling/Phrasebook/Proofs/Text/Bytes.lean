import Mathlib.Data.List.Basic
import Phrasebook.Text.Utf8

/-!
Bytes of a text. A byte below 128 stands for its own character wherever it is in the text, so a text can be cut
at such a byte before it is read.
-/

namespace Phrasebook.Text

theorem toNat_eq_of_mem_utf8EncodeChar {c : Char} {b : UInt8} (h : b ∈ String.utf8EncodeChar c)
    (hAscii : b.toNat < 128) : c.toNat = b.toNat := by
  have hBytes : ∀ n k, 128 ≤ k → k ≤ 255 → n + k < 256 → ¬(UInt8.ofNat (n + k)).toNat < 128 := by
    intro n k hLow hHigh hFits
    rw [UInt8.toNat_ofNat_of_lt' hFits]
    omega
  rw [String.utf8EncodeChar] at h
  split_ifs at h
  next hOne =>
    obtain rfl := List.mem_singleton.1 h
    rw [UInt8.toNat_ofNat_of_lt' (by rw [UInt8.size]; omega)]
    rfl
  all_goals
    exfalso
    simp only [List.mem_cons, List.not_mem_nil, or_false] at h
  · rcases h with rfl | rfl
    · exact hBytes _ 192 (by decide) (by decide) (by omega) hAscii
    · exact hBytes _ 128 (by decide) (by decide) (by omega) hAscii
  · rcases h with rfl | rfl | rfl
    · exact hBytes _ 224 (by decide) (by decide) (by omega) hAscii
    · exact hBytes _ 128 (by decide) (by decide) (by omega) hAscii
    · exact hBytes _ 128 (by decide) (by decide) (by omega) hAscii
  · rcases h with rfl | rfl | rfl | rfl
    · exact hBytes _ 240 (by decide) (by decide) (by omega) hAscii
    · exact hBytes _ 128 (by decide) (by decide) (by omega) hAscii
    · exact hBytes _ 128 (by decide) (by decide) (by omega) hAscii
    · exact hBytes _ 128 (by decide) (by decide) (by omega) hAscii

/-- A byte of one character is in a text only where the character is. -/
theorem byte_notMem_utf8 {s : String} {d : Char} {b : UInt8} (hByte : b.toNat = d.toNat)
    (hAscii : d.toNat < 128) (h : d ∉ s.toList) : b ∉ utf8 s := by
  intro hMem
  obtain ⟨c, hc, hb⟩ := List.mem_flatMap.1 hMem
  have hSame := toNat_eq_of_mem_utf8EncodeChar hb (by omega)
  obtain rfl : c = d := Char.toNat_inj.1 (hSame.trans hByte)
  exact h hc

theorem utf8_append (s t : String) : utf8 (s ++ t) = utf8 s ++ utf8 t := by
  rw [utf8, String.toList_append, List.flatMap_append]
  rfl

end Phrasebook.Text
