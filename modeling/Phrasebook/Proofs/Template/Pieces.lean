import Phrasebook.Proofs.Text.Search
import Phrasebook.Template

/-!
Templates in pieces. A template is a list of characters and references, and filling it in replaces every
piece on its own. The references to one capture have gaps between them, in which they play no part.
-/

namespace Phrasebook.Template

/-- A character that stands for itself, or a reference. -/
inductive Piece where
  | char (c : Char)
  | reference (r : Reference)
  deriving DecidableEq, Repr

def Piece.text (value : Reference → List Char) : Piece → List Char
  | char c => [c]
  | reference r => value r

/-- The pieces of a template; the first `skip` characters belong to a reference that has been read. -/
def pieces (captures : Nat) (hasNames : Bool) : Nat → List Char → List Piece
  | _, [] => []
  | skip + 1, _ :: rest => pieces captures hasNames skip rest
  | 0, c :: rest =>
    if c = '$' then
      match reference? captures hasNames rest with
      | some (r, size) => .reference r :: pieces captures hasNames size rest
      | none => .char '$' :: pieces captures hasNames 0 rest
    else .char c :: pieces captures hasNames 0 rest

theorem fill_eq_flatMap (captures : Nat) (hasNames : Bool) (value : Reference → List Char)
    (skip : Nat) (template : List Char) :
    fill captures hasNames value skip template =
      (pieces captures hasNames skip template).flatMap (Piece.text value) := by
  fun_induction fill captures hasNames value skip template with
  | case1 skip => cases skip <;> rfl
  | case2 skip c rest ih => rw [pieces, ih]
  | case3 rest r size hReference ih =>
      rw [pieces, if_pos rfl, hReference, ih]
      rfl
  | case4 rest hReference ih =>
      rw [pieces, if_pos rfl, hReference, ih]
      rfl
  | case5 c rest hDollar ih =>
      rw [pieces, if_neg hDollar, ih]
      rfl

theorem flatMap_text_map_char (value : Reference → List Char) (cs : List Char) :
    (cs.map Piece.char).flatMap (Piece.text value) = cs := by
  induction cs with
  | nil => rfl
  | cons c cs ih => rw [List.map_cons, List.flatMap_cons, ih]; rfl

/-- Characters other than dollar signs stand for themselves. -/
theorem fill_append_of_notMem {captures : Nat} {hasNames : Bool} {value : Reference → List Char}
    {cs : List Char} (h : '$' ∉ cs) (rest : List Char) :
    fill captures hasNames value 0 (cs ++ rest) = cs ++ fill captures hasNames value 0 rest := by
  induction cs with
  | nil => rfl
  | cons c cs ih =>
      rw [List.mem_cons, not_or] at h
      rw [List.cons_append, fill, if_neg (Ne.symm h.1), ih h.2, List.cons_append]

/-- The capture that a reference is to, counted from zero. -/
def captureOf? (names : List (Option String)) : Reference → Option Nat
  | .capture n => some (n - 1)
  | .named name => names.idxOf? (some name)
  | .dollar | .whole | .front | .behind => none

/-- The text that a capture took, or nothing when it took no part. -/
def ownText (text : List Char) (hit : Regex.Hit) (i : Nat) : List Char :=
  (hit.groups[i]?.join.map (·.of text)).getD []

theorem find?_zip_eq {α β : Type} [BEq α] (names : List α) (groups : List (Option β)) (name : α) :
    ((names.zip groups).find? (·.1 == name)).bind (·.2) =
      (names.idxOf? name).bind fun i => groups[i]?.join := by
  induction names generalizing groups with
  | nil => rfl
  | cons first rest ih =>
      cases groups with
      | nil => simp
      | cons g groups =>
          rw [List.zip_cons_cons, List.find?_cons, List.idxOf?_cons]
          cases hFirst : first == name with
          | true => simp
          | false =>
              simp only [Bool.false_eq_true, if_false, ih]
              cases rest.idxOf? name <;> simp

/-- A reference to a capture stands for what the capture took. -/
theorem valueAt_eq_ownText {c : Regex.Compiled} {text : List Char} {hit : Regex.Hit} {r : Reference}
    {i : Nat} (h : captureOf? c.names r = some i) : valueAt c text hit r = ownText text hit i := by
  cases r with
  | dollar | whole | front | behind => simp [captureOf?] at h
  | capture n =>
      obtain rfl := Option.some.inj h
      rfl
  | named name =>
      rw [captureOf?] at h
      rw [valueAt, Regex.Compiled.named?, find?_zip_eq, h]
      rfl

/-- What a reference stands for when texts were found for some captures. -/
def valueWith (c : Regex.Compiled) (text : List Char) (hit : Regex.Hit)
    (found : Nat → Option (List Char)) (r : Reference) : List Char :=
  ((captureOf? c.names r).bind found).getD (valueAt c text hit r)

/-- Whether a piece is a reference to the capture `i`. -/
def Piece.isTo (names : List (Option String)) (i : Nat) : Piece → Bool
  | char _ => false
  | reference r => captureOf? names r == some i

section

variable {c : Regex.Compiled} {text : List Char} {hit : Regex.Hit} {i : Nat}
  {found found' : Nat → Option (List Char)}

/-- References to a capture for which nothing was found stand for what it took. -/
theorem text_of_isTo_of_none (h : found i = none) {p : Piece} (hTo : p.isTo c.names i = true) :
    p.text (valueWith c text hit found) = ownText text hit i := by
  cases p with
  | char => simp [Piece.isTo] at hTo
  | reference r =>
      have hCapture : captureOf? c.names r = some i := by simpa [Piece.isTo] using hTo
      rw [Piece.text, valueWith, hCapture, Option.bind_some, h, Option.getD_none,
        valueAt_eq_ownText hCapture]

theorem text_of_isTo {t : List Char} (h : found i = some t) {p : Piece}
    (hTo : p.isTo c.names i = true) : p.text (valueWith c text hit found) = t := by
  cases p with
  | char => simp [Piece.isTo] at hTo
  | reference r =>
      have hCapture : captureOf? c.names r = some i := by simpa [Piece.isTo] using hTo
      rw [Piece.text, valueWith, hCapture, Option.bind_some, h, Option.getD_some]

/-- What is found for a capture has no effect on other pieces. -/
theorem text_congr_of_not_isTo (h : ∀ j, j ≠ i → found' j = found j) {p : Piece}
    (hTo : p.isTo c.names i = false) :
    p.text (valueWith c text hit found') = p.text (valueWith c text hit found) := by
  cases p with
  | char => rfl
  | reference r =>
      have hCapture : captureOf? c.names r ≠ some i := by simpa [Piece.isTo] using hTo
      rw [Piece.text, Piece.text, valueWith, valueWith]
      cases hOf : captureOf? c.names r with
      | none => rfl
      | some j =>
          have hOther : j ≠ i := fun hEq => hCapture (by rw [hOf, hEq])
          rw [Option.bind_some, Option.bind_some, h j hOther]

end

end Phrasebook.Template
