import Phrasebook.Page
import Phrasebook.Store.Basic
import Phrasebook.Text.Blank
import Phrasebook.Text.Search

/-!
Phrases in the store. A source has a phrase with a given digest once at most. Single phrases are
logged; phrases that come in batches are not.
-/

namespace Phrasebook.Store

def samePhrase : Failure := .conflict "Translation data with the same content already exists"

def sourceMissing : Fault := ⟨"source", "Source 값이 필요합니다."⟩

def hasPhrase (s : Store) (source digest : String) : Bool :=
  s.phrases.any fun p => p.source == source && p.digest == digest

def getPhrase (s : Store) (id : Int) : Except Failure Phrase :=
  match s.phrases.find? (·.id == id) with
  | some p => .ok p
  | none => .error (.phraseNotFound id)

def insertPhrase (source content actor : String) (now : Int) (s : Store) :
    Except Failure (Int × Store) := do
  let source := Text.trim source
  Failure.ofFaults (if source.isEmpty then [sourceMissing] else [])
  let phrase : Phrase := ⟨s.lastPhrase + 1, source, content, Text.digest content⟩
  if s.hasPhrase source phrase.digest then throw samePhrase
  let s := { s with phrases := s.phrases ++ [phrase], lastPhrase := phrase.id }
  return (phrase.id, ← s.record actor .addition .phrase phrase.id source now)

/-- Stores a new phrase, whose source is trimmed. -/
def addPhrase (source content actor : String) (now : Int) : Op Phrase := do
  let id ← transaction (insertPhrase source content actor now)
  ask fun s => s.getPhrase id

def dropPhrase (id : Int) (actor : String) (now : Int) (s : Store) :
    Except Failure (Phrase × Store) := do
  let p ← s.getPhrase id
  let s := { s with phrases := s.phrases.filter (·.id != id) }
  return (p, ← s.record actor .deletion .phrase id p.source now)

/-- Removes a phrase and returns it. -/
def removePhrase (id : Int) (actor : String) (now : Int) : Op Phrase :=
  transaction (dropPhrase id actor now)

/-- The phrases of one source, or of all of them. -/
def phrasesOf (s : Store) (source : Option String) : List Phrase :=
  match source with
  | some name => s.phrases.filter (·.source == name)
  | none => s.phrases

def pageOfPhrases (s : Store) (source : Option String) (r : PageRequest) : Page Phrase :=
  let all := s.phrasesOf source
  let rows := slice r.fetchLimit r.offset all
  if r.fast then .estimate rows r else .exact rows all.length r

/-- The phrases with a term in source or content, `limit` of them at most. -/
def searchPhrases (s : Store) (term : String) (limit : Nat) : List Phrase :=
  slice limit 0 (s.phrases.filter fun p => Text.contains p.source term || Text.contains p.content term)

def sources (s : Store) : List String := distinct (s.phrases.map (·.source))

/-- A list cut into pieces of `n` items and a last one that may be shorter. -/
def piecesOf {α : Type} (n : Nat) (items : List α) : List (List α) :=
  match items with
  | [] => []
  | x :: rest => (x :: rest.take (n - 1)) :: piecesOf n (rest.drop (n - 1))
termination_by items.length

/-- Those of the given digests under which a source has a phrase. They are looked up `limit` at a
time. -/
def knownDigests (s : Store) (limit : Nat) (source : String) (digests : List String) :
    List String :=
  (piecesOf limit digests).flatMap fun piece =>
    ((s.phrasesOf (some source)).filter fun p => piece.contains p.digest).map (·.digest)

/-- Stores a phrase unless its source has it. The id is used up either way. -/
def putPhrase (source : String) (s : Store) (content digest : String) : Store × Nat :=
  let id := s.lastPhrase + 1
  if s.hasPhrase source digest then ({ s with lastPhrase := id }, 0)
  else ({ s with phrases := s.phrases ++ [⟨id, source, content, digest⟩], lastPhrase := id }, 1)

/-- Stores the contents of a batch, each given with its digest, and counts those that are new. -/
def putPhrases (source : String) : List (String × String) → Store → Store × Nat
  | [], s => (s, 0)
  | (content, digest) :: more, s =>
    let (s, here) := putPhrase source s content digest
    let (s, there) := putPhrases source more s
    (s, here + there)

def addBatch (source : String) (batch : List (String × String)) : Op Nat :=
  transaction fun s =>
    let (s, count) := putPhrases source batch s
    .ok (count, s)

end Phrasebook.Store
