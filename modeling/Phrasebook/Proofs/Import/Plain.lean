import Phrasebook.Import
import Phrasebook.Proofs.Store.Phrases

/-!
The plain import. Texts are put into a store one at a time, and a text that its source has already is
passed over. What was put once can be put again without any effect, so a plain import can be cut
anywhere and begun anew.
-/

namespace Phrasebook

/-- A text that is to be imported, and its source. -/
structure Import.Record where
  source : String
  content : String
  deriving DecidableEq, Repr

namespace Store

open Import (Record)

/-- The source of a record has a phrase with its digest. -/
def Has (s : Store) (r : Record) : Prop :=
  ∃ p ∈ s.phrases, p.source = r.source ∧ p.digest = Text.digest r.content

instance (s : Store) (r : Record) : Decidable (s.Has r) :=
  inferInstanceAs (Decidable (∃ p ∈ s.phrases, p.source = r.source ∧ p.digest = Text.digest r.content))

/-- The store with the text of a record, stored under the next id unless its source has it. -/
def put (s : Store) (r : Record) : Store :=
  if s.Has r then s
  else
    { s with
      phrases := s.phrases ++ [⟨s.lastPhrase + 1, r.source, r.content, Text.digest r.content⟩]
      lastPhrase := s.lastPhrase + 1 }

/-- The store after a plain import. -/
def putAll (s : Store) (records : List Record) : Store := records.foldl put s

variable {s : Store} {r q : Record} {records : List Record}

theorem has_iff : s.Has r ↔ s.hasPhrase r.source (Text.digest r.content) = true := by
  simp [Has, hasPhrase]

theorem put_of_has (h : s.Has r) : s.put r = s := if_pos h

theorem put_phrases (h : ¬s.Has r) : (s.put r).phrases =
    s.phrases ++ [⟨s.lastPhrase + 1, r.source, r.content, Text.digest r.content⟩] := by
  rw [put, if_neg h]

/-- The same phrase stands for two records of one source with one digest. -/
theorem has_congr (hSource : q.source = r.source)
    (hDigest : Text.digest q.content = Text.digest r.content) : s.Has q ↔ s.Has r := by
  rw [Has, Has, hSource, hDigest]

theorem has_put_iff : (s.put r).Has q ↔
    s.Has q ∨ (r.source = q.source ∧ Text.digest r.content = Text.digest q.content) := by
  by_cases h : s.Has r
  · rw [put_of_has h]
    refine ⟨Or.inl, fun hEither => hEither.elim id fun hSame => ?_⟩
    exact (has_congr hSame.1 hSame.2).1 h
  · simp [Has, put_phrases h, or_and_right, exists_or]

@[simp]
theorem putAll_nil (s : Store) : s.putAll [] = s := rfl

@[simp]
theorem putAll_cons (s : Store) (r : Record) (records : List Record) :
    s.putAll (r :: records) = (s.put r).putAll records := rfl

theorem putAll_append (s : Store) (records more : List Record) :
    s.putAll (records ++ more) = (s.putAll records).putAll more := List.foldl_append

theorem putAll_concat (s : Store) (records : List Record) (r : Record) :
    s.putAll (records ++ [r]) = (s.putAll records).put r := putAll_append s records [r]

theorem has_putAll (h : s.Has q) (records : List Record) : (s.putAll records).Has q := by
  induction records generalizing s with
  | nil => exact h
  | cons r more ih => exact ih (has_put_iff.2 (Or.inl h))

/-- Whatever was put is there. -/
theorem has_putAll_of_mem (h : r ∈ records) (s : Store) : (s.putAll records).Has r := by
  induction records generalizing s with
  | nil => simp at h
  | cons q more ih =>
      rcases List.mem_cons.1 h with rfl | h
      · exact has_putAll (has_put_iff.2 (Or.inr ⟨rfl, rfl⟩)) more
      · exact ih h (s.put q)

/-- What is there already can be put without any effect. -/
theorem putAll_of_has (h : ∀ r ∈ records, s.Has r) : s.putAll records = s := by
  induction records with
  | nil => rfl
  | cons r more ih =>
      rw [List.forall_mem_cons] at h
      rw [putAll_cons, put_of_has h.1, ih h.2]

/-- A plain import comes through a store: some of the first records are put there, or none or all. -/
def Reaches (s : Store) (records : List Record) (t : Store) : Prop :=
  ∃ done rest, done ++ rest = records ∧ t = s.putAll done

namespace Reaches

variable {t : Store} {more : List Record}

theorem start (s : Store) (records : List Record) : s.Reaches records s := ⟨[], records, rfl, rfl⟩

theorem finish (s : Store) (records : List Record) : s.Reaches records (s.putAll records) :=
  ⟨records, [], List.append_nil _, rfl⟩

theorem append (h : s.Reaches records t) (more : List Record) : s.Reaches (records ++ more) t := by
  obtain ⟨done, rest, rfl, hStore⟩ := h
  exact ⟨done, rest ++ more, (List.append_assoc ..).symm, hStore⟩

theorem after (h : (s.putAll records).Reaches more t) : s.Reaches (records ++ more) t := by
  obtain ⟨done, rest, rfl, rfl⟩ := h
  exact ⟨records ++ done, rest, List.append_assoc .., (putAll_append ..).symm⟩

/-- A record makes no difference where its text is there. -/
theorem skip (h : s.Reaches (records ++ more) t) (hHas : (s.putAll records).Has r) :
    s.Reaches (records ++ r :: more) t := by
  obtain ⟨done, rest, hSplit, rfl⟩ := h
  rcases List.append_eq_append_iff.1 hSplit with ⟨waiting, rfl, -⟩ | ⟨behind, rfl, rfl⟩
  · exact ((start _ waiting).after).append _
  · refine after ⟨r :: behind, rest, rfl, ?_⟩
    rw [putAll_append, putAll_cons, put_of_has hHas]

/-- However far a plain import came, a whole one from there leads to the same store. -/
theorem putAll_eq (h : s.Reaches records t) : t.putAll records = s.putAll records := by
  obtain ⟨done, rest, rfl, rfl⟩ := h
  rw [putAll_append, putAll_append, putAll_of_has fun r hr => has_putAll_of_mem hr s]

end Reaches

/-- A plain import changes the phrases and their last id, and nothing else. -/
theorem exists_putAll_eq (s : Store) (records : List Record) :
    ∃ phrases lastPhrase, s.putAll records = { s with phrases, lastPhrase } := by
  induction records generalizing s with
  | nil => exact ⟨s.phrases, s.lastPhrase, rfl⟩
  | cons r more ih =>
      obtain ⟨phrases, lastPhrase, hMore⟩ := ih (s.put r)
      refine ⟨phrases, lastPhrase, hMore.trans ?_⟩
      unfold put
      split <;> rfl

theorem flatten_piecesOf {α : Type} (n : Nat) (items : List α) : (piecesOf n items).flatten = items := by
  induction items using piecesOf.induct n with
  | case1 => simp [piecesOf]
  | case2 x rest ih => rw [piecesOf, List.flatten_cons, ih, List.cons_append, List.take_append_drop]

/-- Among the digests that are looked up, those of the phrases that the source has are found. -/
theorem mem_knownDigests_iff {limit : Nat} {source digest : String} {digests : List String}
    (h : digest ∈ digests) :
    digest ∈ s.knownDigests limit source digests ↔ s.hasPhrase source digest = true := by
  have hPiece : ∃ piece ∈ piecesOf limit digests, digest ∈ piece := by
    rw [← List.mem_flatten, flatten_piecesOf]
    exact h
  simp only [knownDigests, phrasesOf, List.mem_flatMap, List.mem_map, List.mem_filter, beq_iff_eq,
    List.contains_iff_mem, hasPhrase, List.any_eq_true, Bool.and_eq_true]
  constructor
  · rintro ⟨-, -, p, ⟨⟨hp, hSource⟩, -⟩, rfl⟩
    exact ⟨p, hp, hSource, rfl⟩
  · rintro ⟨p, hp, hSource, rfl⟩
    obtain ⟨piece, hPiece, hMem⟩ := hPiece
    exact ⟨piece, hPiece, p, ⟨⟨hp, hSource⟩, hMem⟩, rfl⟩

theorem putPhrase_of_fresh (h : ¬s.Has r) :
    putPhrase r.source s r.content (Text.digest r.content) = (s.put r, 1) := by
  rw [put, if_neg h]
  exact if_neg (mt has_iff.2 h)

theorem putPhrases_append (source : String) (batch more : List (String × String)) (s : Store) :
    putPhrases source (batch ++ more) s =
      ((putPhrases source more (putPhrases source batch s).1).1,
        (putPhrases source batch s).2 + (putPhrases source more (putPhrases source batch s).1).2) := by
  induction batch generalizing s with
  | nil => simp [putPhrases]
  | cons e rest ih => simp [putPhrases, ih, Nat.add_assoc]

/-- A batch has as many phrases that are new as it says. -/
theorem length_putPhrases (source : String) (batch : List (String × String)) (s : Store) :
    (putPhrases source batch s).1.phrases.length =
      s.phrases.length + (putPhrases source batch s).2 := by
  induction batch generalizing s with
  | nil => rfl
  | cons e more ih =>
      have hStep : (putPhrase source s e.1 e.2).1.phrases.length =
          s.phrases.length + (putPhrase source s e.1 e.2).2 := by
        unfold putPhrase
        dsimp only
        split <;> simp
      simp only [putPhrases, ih, hStep, Nat.add_assoc]

end Store

end Phrasebook
