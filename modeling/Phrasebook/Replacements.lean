import Phrasebook.Json.Basic

/-!
Replacement texts by language. There is one text to a language, and languages are in ascending
order, so that equal collections are written alike.
-/

namespace Phrasebook

/-- The entry put at its place, in the stead of one for the same language. -/
def placeEntry (language text : String) : List (String × String) → List (String × String)
  | [] => [(language, text)]
  | (l, t) :: rest =>
    if language < l then (language, text) :: (l, t) :: rest
    else if language = l then (language, text) :: rest
    else (l, t) :: placeEntry language text rest

theorem mem_placeEntry {language text : String} {entries : List (String × String)}
    {e : String × String} (h : e ∈ placeEntry language text entries) :
    e = (language, text) ∨ e ∈ entries := by
  induction entries with
  | nil => simpa [placeEntry] using h
  | cons head rest ih =>
    obtain ⟨l, t⟩ := head
    unfold placeEntry at h
    split at h
    · simpa using h
    · split at h
      · rcases List.mem_cons.1 h with h | h
        · exact Or.inl h
        · exact Or.inr (List.mem_cons_of_mem _ h)
      · rcases List.mem_cons.1 h with h | h
        · exact Or.inr (h ▸ List.mem_cons_self)
        · rcases ih h with h | h
          · exact Or.inl h
          · exact Or.inr (List.mem_cons_of_mem _ h)

theorem placeEntry_ascending {language text : String} {entries : List (String × String)}
    (h : entries.Pairwise (·.1 < ·.1)) :
    (placeEntry language text entries).Pairwise (·.1 < ·.1) := by
  induction entries with
  | nil => simp [placeEntry]
  | cons head rest ih =>
    obtain ⟨l, t⟩ := head
    obtain ⟨hHead, hRest⟩ := List.pairwise_cons.1 h
    unfold placeEntry
    split
    · rename_i hLt
      refine List.pairwise_cons.2 ⟨fun e he => ?_, h⟩
      rcases List.mem_cons.1 he with rfl | he
      · exact hLt
      · exact String.lt_trans hLt (hHead e he)
    · rename_i hNotLt
      split
      · rename_i hEq
        exact List.pairwise_cons.2 ⟨fun e he => hEq ▸ hHead e he, hRest⟩
      · rename_i hNe
        refine List.pairwise_cons.2 ⟨fun e he => ?_, ih hRest⟩
        rcases mem_placeEntry he with rfl | he
        · have hLe : l ≤ language := String.not_lt.1 hNotLt
          rcases Classical.em (l < language) with hLt | hNot
          · exact hLt
          · exact absurd (String.le_antisymm (String.not_lt.1 hNot) hLe) hNe
        · exact hHead e he

structure Replacements where
  entries : List (String × String)
  ascending : entries.Pairwise (·.1 < ·.1)

namespace Replacements

def empty : Replacements := ⟨[], List.Pairwise.nil⟩

instance : Inhabited Replacements := ⟨empty⟩

def insert (r : Replacements) (language text : String) : Replacements :=
  ⟨placeEntry language text r.entries, placeEntry_ascending r.ascending⟩

/-- Of two entries for one language the later counts. -/
def ofList (pairs : List (String × String)) : Replacements :=
  pairs.foldl (fun r (language, text) => r.insert language text) empty

def get? (r : Replacements) (language : String) : Option String := r.entries.lookup language

def isEmpty (r : Replacements) : Bool := r.entries.isEmpty

def toJson (r : Replacements) : Json := .object (r.entries.map fun (l, t) => (l, .string t))

/-- An object of texts. -/
def ofJson? : Json → Option Replacements
  | .object fields =>
    (fields.mapM fun (field : String × Json) => field.2.string?.map (field.1, ·)).map ofList
  | _ => none

end Replacements

end Phrasebook
