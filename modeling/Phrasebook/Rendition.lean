import Phrasebook.Json.Basic

/-!
What a lookup answers: a text in another language, how much of the target it covers, and the
answers for the captures that it is made of.
-/

namespace Phrasebook

/-- How much of a target was found: all of it, a part, or nothing. -/
inductive Coverage where
  | full
  | part
  | missing
  deriving DecidableEq, Repr

def Coverage.name : Coverage → String
  | full => "translated"
  | part => "part-translated"
  | missing => "untranslated"

/-- The answer for a target, with the answers for its captures. -/
inductive Rendition where
  | node (target text : String) (coverage : Coverage) (children : List Rendition)

namespace Rendition

def target : Rendition → String
  | node target _ _ _ => target

def text : Rendition → String
  | node _ text _ _ => text

def coverage : Rendition → Coverage
  | node _ _ coverage _ => coverage

def children : Rendition → List Rendition
  | node _ _ _ children => children

/-- The target stands for itself. -/
def missing (target : String) : Rendition := node target target .missing []

instance : Inhabited Rendition := ⟨missing ""⟩

mutual

/-- The children are written only when there are some. -/
def toJson : Rendition → Json
  | node target text coverage children =>
    .object <|
      [("target", .string target), ("translation", .string text),
        ("status", .string coverage.name)] ++
      match toJsons children with
      | [] => []
      | js => [("translations", .array js)]

def toJsons : List Rendition → List Json
  | [] => []
  | r :: more => toJson r :: toJsons more

end

end Rendition

end Phrasebook
