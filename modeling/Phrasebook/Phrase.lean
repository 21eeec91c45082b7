import Phrasebook.Json.Basic
import Phrasebook.Text.Digest

/-!
Phrases: the texts that are looked up. A phrase is known by its source, which is also the category
in which it is looked up, and by the digest of its content.
-/

namespace Phrasebook

structure Phrase where
  id : Int
  source : String
  content : String
  digest : String
  deriving DecidableEq, Repr

def Phrase.toJson (p : Phrase) : Json :=
  .object [("id", .ofInt p.id), ("source", .string p.source), ("content", .string p.content),
    ("contentHash", .string p.digest)]

end Phrasebook
