import Mathlib.Data.List.Basic
import Phrasebook.Text.Percent

/-!
Percent encoding is undone by decoding. An encoded text has no character with a meaning of its own in a URL,
so it stays one name behind whatever is put in front of it.
-/

namespace Phrasebook.Text

theorem ofUtf8?_utf8 (s : String) : ofUtf8? (utf8 s) = some s := by
  have hBytes : (⟨(utf8 s).toArray⟩ : ByteArray) = s.toByteArray := by
    rw [← String.utf8Encode_toList, List.utf8Encode, ← utf8]
    ext1
    simp
  rw [ofUtf8?, hBytes, String.fromUTF8?, dif_pos s.isValidUTF8]
  rfl

theorem utf8_of_ofUtf8? {bytes : List UInt8} {s : String} (h : ofUtf8? bytes = some s) : utf8 s = bytes := by
  rw [ofUtf8?, String.fromUTF8?] at h
  split at h
  next hValid =>
    obtain rfl := Option.some.inj h
    have hBytes : (String.fromUTF8 ⟨bytes.toArray⟩ hValid).toList.utf8Encode = ⟨bytes.toArray⟩ :=
      String.utf8Encode_toList
    rw [List.utf8Encode, ← utf8] at hBytes
    simpa using congrArg (fun b : ByteArray => b.data.toList) hBytes
  next => exact nomatch h

theorem hexDigit?_upperHexDigit {n : Nat} (h : n < 16) : hexDigit? (upperHexDigit n) = some n := by
  revert n
  decide

theorem isUnreserved_upperHexDigit {n : Nat} (h : n < 16) : isUnreserved (upperHexDigit n) = true := by
  revert n
  decide

theorem high_lt (b : UInt8) : b.toNat / 16 < 16 := by
  have hByte := b.toNat_lt
  omega

theorem low_lt (b : UInt8) : b.toNat % 16 < 16 := Nat.mod_lt _ (by decide)

theorem percentBytes_percentByte (b : UInt8) (rest : List Char) :
    percentBytes (percentByte b ++ rest) = b :: percentBytes rest := by
  have hByte : UInt8.ofNat (16 * (b.toNat / 16) + b.toNat % 16) = b := by
    rw [Nat.div_add_mod, UInt8.ofNat_toNat]
  rw [percentByte, List.cons_append, List.cons_append, List.cons_append, List.nil_append, percentBytes]
  simp only [hexDigit?_upperHexDigit (high_lt b), hexDigit?_upperHexDigit (low_lt b), hByte]

theorem percentBytes_flatMap_percentByte (bytes : List UInt8) (rest : List Char) :
    percentBytes (bytes.flatMap percentByte ++ rest) = bytes ++ percentBytes rest := by
  induction bytes with
  | nil => rfl
  | cons b more ih =>
      rw [List.flatMap_cons, List.append_assoc, percentBytes_percentByte, ih, List.cons_append]

theorem percentBytes_cons {c : Char} (h : c ≠ '%') (rest : List Char) :
    percentBytes (c :: rest) = String.utf8EncodeChar c ++ percentBytes rest := by
  rw [percentBytes]
  rintro x y more hPercent -
  exact h hPercent

theorem percentBytes_percentEncodeChar (c : Char) (rest : List Char) :
    percentBytes (percentEncodeChar c ++ rest) = String.utf8EncodeChar c ++ percentBytes rest := by
  rw [percentEncodeChar]
  split
  next hUnreserved =>
    have hNe : c ≠ '%' := by
      rintro rfl
      exact absurd hUnreserved (by decide)
    exact percentBytes_cons hNe rest
  next => exact percentBytes_flatMap_percentByte _ rest

theorem percentBytes_encoded (cs : List Char) :
    percentBytes (cs.flatMap percentEncodeChar) = cs.flatMap String.utf8EncodeChar := by
  induction cs with
  | nil => rfl
  | cons c rest ih =>
      rw [List.flatMap_cons, percentBytes_percentEncodeChar, ih, List.flatMap_cons]

theorem percentBytes_append {front : List Char} (h : '%' ∉ front) (rest : List Char) :
    percentBytes (front ++ rest) = front.flatMap String.utf8EncodeChar ++ percentBytes rest := by
  induction front with
  | nil => rfl
  | cons c front ih =>
      rw [List.mem_cons, not_or] at h
      rw [List.cons_append, percentBytes_cons (Ne.symm h.1), ih h.2, List.flatMap_cons,
        List.append_assoc]

/-- Decoding undoes encoding, behind whatever stands for itself. -/
theorem percentDecode?_append {front : String} (h : '%' ∉ front.toList) (s : String) :
    percentDecode? (front ++ percentEncode s) = some (front ++ s) := by
  have hBytes : percentBytes (front ++ percentEncode s).toList = utf8 (front ++ s) := by
    rw [String.toList_append, percentBytes_append h, percentEncode, String.toList_ofList,
      percentBytes_encoded, utf8, String.toList_append, List.flatMap_append]
  rw [percentDecode?, hBytes, ofUtf8?_utf8]

theorem mem_percentEncode {s : String} {c : Char} (h : c ∈ (percentEncode s).toList) :
    isUnreserved c = true ∨ c = '%' := by
  rw [percentEncode, String.toList_ofList, List.mem_flatMap] at h
  obtain ⟨d, -, hd⟩ := h
  rw [percentEncodeChar] at hd
  split at hd
  next hUnreserved =>
    rw [List.mem_singleton] at hd
    exact Or.inl (hd ▸ hUnreserved)
  next =>
    obtain ⟨b, -, hb⟩ := List.mem_flatMap.1 hd
    simp only [percentByte, List.mem_cons, List.not_mem_nil, or_false] at hb
    rcases hb with rfl | rfl | rfl
    · exact Or.inr rfl
    · exact Or.inl (isUnreserved_upperHexDigit (high_lt b))
    · exact Or.inl (isUnreserved_upperHexDigit (low_lt b))

/-- What has a meaning in a URL is encoded. -/
theorem notMem_percentEncode {c : Char} (hReserved : isUnreserved c = false) (hPercent : c ≠ '%')
    (s : String) : c ∉ (percentEncode s).toList := by
  intro h
  rcases mem_percentEncode h with hUnreserved | hSame
  · rw [hReserved] at hUnreserved
    exact Bool.false_ne_true hUnreserved
  · exact hPercent hSame

theorem one_le_percentEncodeChar (c : Char) : 1 ≤ (percentEncodeChar c).length := by
  rw [percentEncodeChar]
  split
  next => exact Nat.le_refl 1
  next =>
    have hBytes := c.utf8Size_pos
    rw [← String.length_utf8EncodeChar] at hBytes
    obtain ⟨b, more, hCons⟩ := List.exists_cons_of_length_pos hBytes
    simp [hCons, percentByte]

/-- Encoding does not make a text shorter. -/
theorem length_le_percentEncode (s : String) : s.length ≤ (percentEncode s).length := by
  suffices hList : ∀ cs : List Char, cs.length ≤ (cs.flatMap percentEncodeChar).length by
    rw [← String.length_toList, ← String.length_toList, percentEncode, String.toList_ofList]
    exact hList s.toList
  intro cs
  induction cs with
  | nil => exact Nat.le_refl 0
  | cons c rest ih =>
      have hChar := one_le_percentEncodeChar c
      rw [List.flatMap_cons, List.length_append, List.length_cons]
      omega

end Phrasebook.Text
