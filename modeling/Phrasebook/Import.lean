import Phrasebook.FileTree.Basic
import Phrasebook.Store.Phrases

/-!
Import of phrases. A folder holds a JSON file for every source, with a list of texts in it or an
object that has such a list as its messages. Texts that a source has already are passed over, and the
others are stored in batches, so that an import which is cut short can be run again.
-/

namespace Phrasebook.Import

structure Report where
  files : Nat
  skippedFiles : Nat
  totalRecords : Nat
  inserted : Nat
  duplicates : Nat
  deriving DecidableEq, Repr

def Report.toJson (r : Report) : Json :=
  .object [("files", .ofNat r.files), ("skippedFiles", .ofNat r.skippedFiles),
    ("totalRecords", .ofNat r.totalRecords), ("inserted", .ofNat r.inserted),
    ("duplicates", .ofNat r.duplicates)]

/-- How many phrases are stored at a time, and how many digests are looked up at a time. -/
structure Limits where
  batch : Nat
  lookup : Nat

def limits : Limits := ⟨1000, 900⟩

/-- The names of the files to import, in ascending order. -/
def fileNames? (t : FileTree) (cwd : Place) (folder : String) : Option (List String) :=
  (t.list? cwd folder).map fun names => names.filter fun name =>
    FileTree.extension? name == some "json" && t.isFile cwd (FileTree.join folder name)

/-- Of a list the items that are texts. -/
def texts (items : List Json) : List String := items.filterMap Json.string?

/-- The texts of a document. When its messages are given more than once, the last ones count. -/
def recordsOf? : Json → Option (List String)
  | .array items => some (texts items)
  | .object fields => some <|
    match fields.reverse.lookup "messages" with
    | some (.array items) => texts items
    | _ => []
  | _ => none

/-- The texts of a file; nothing when it cannot be read. -/
def load? (t : FileTree) (cwd : Place) (path : String) : Option (List String) :=
  ((t.readText? cwd path).bind Json.parseSound?).bind recordsOf?

/-- Texts with their digests. -/
def digested (texts : List String) : List (String × String) :=
  texts.map fun content => (content, Text.digest content)

/-- What an import works on: where digests are looked up, and where batches are stored. -/
structure Target (σ : Type) where
  /-- Those of some digests under which a source has a phrase. -/
  known : String → List String → EStateM Failure σ (List String)
  /-- Stores a batch of a source, all of it or nothing, and counts the phrases that are new. -/
  add : String → List (String × String) → EStateM Failure σ Nat

/-- The store itself, in which so many digests are looked up at a time. -/
def Target.store (lookup : Nat) : Target Store where
  known source digests := Store.ask fun s => .ok (s.knownDigests lookup source digests)
  add := Store.addBatch

/-- How many texts are new so far, and how many were there already. -/
structure Tally where
  inserted : Nat
  duplicates : Nat
  deriving DecidableEq, Repr

def Tally.passOver (tally : Tally) : Tally := { tally with duplicates := tally.duplicates + 1 }

section

variable {σ : Type} (target : Target σ) (size : Nat)

/-- Stores a batch. What the source has all the same is counted with the duplicates. -/
def addBatch (source : String) (batch : List (String × String)) (tally : Tally) :
    EStateM Failure σ Tally := do
  let count ← target.add source batch
  return ⟨tally.inserted + count, tally.duplicates + (batch.length - count)⟩

/-- Goes through the texts of a source, each given with its digest. A digest that is known is passed
over; the other texts wait until they are enough for a batch, or the last ones. -/
def addTexts (source : String) :
    (known : List String) → (waiting : List (String × String)) → Tally →
      List (String × String) → EStateM Failure σ Tally
  | _, waiting, tally, [] =>
    if waiting.isEmpty then pure tally else addBatch target source waiting tally
  | known, waiting, tally, (content, digest) :: more =>
    if known.contains digest then addTexts source known waiting tally.passOver more
    else
      let waiting := waiting ++ [(content, digest)]
      if waiting.length < size then addTexts source (digest :: known) waiting tally more
      else do addTexts source (digest :: known) [] (← addBatch target source waiting tally) more

/-- Stores the texts of one source. -/
def importSource (source : String) (records : List String) (tally : Tally) :
    EStateM Failure σ Tally := do
  let known ← target.known source ((digested records).map (·.2))
  addTexts target size source known [] tally (digested records)

variable (t : FileTree) (cwd : Place) (folder : String)

/-- Stores the texts of files, one file after the other. A file that cannot be read is passed over. -/
def importFiles : List String → Tally → EStateM Failure σ Tally
  | [], tally => pure tally
  | name :: more, tally => do
    match load? t cwd (FileTree.join folder name) with
    | some records =>
      importFiles more (← importSource target size (FileTree.stem name) records tally)
    | none => importFiles more tally

/-- Imports all the files of a folder. They are read a first time to count what is in them; when
that is nothing, the import is at its end. -/
def runOn : EStateM Failure σ Report := do
  let some names := fileNames? t cwd folder | throw .io
  let loaded := names.map fun name => load? t cwd (FileTree.join folder name)
  let skipped := loaded.countP Option.isNone
  let total := (loaded.flatMap (·.getD [])).length
  let tally ← if total = 0 then pure ⟨0, 0⟩ else importFiles target size t cwd folder names ⟨0, 0⟩
  return ⟨names.length, skipped, total, tally.inserted, tally.duplicates⟩

end

/-- Imports all the files of a folder into the store. -/
def run (limits : Limits) (t : FileTree) (cwd : Place) (folder : String) : Store.Op Report :=
  runOn (Target.store limits.lookup) limits.batch t cwd folder

end Phrasebook.Import
