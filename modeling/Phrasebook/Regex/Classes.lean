import Phrasebook.Character.Category
import Phrasebook.Character.Property
import Phrasebook.Character.Script
import Phrasebook.Regex.CharSet
import Phrasebook.Text.Search

/-!
Sets of characters that have a name: the classes of one letter, the ASCII classes between colons, and
the properties, categories and scripts of Unicode.
-/

namespace Phrasebook.Regex

open Character

namespace CharSet

def digits (unicode : Bool) : CharSet :=
  ranges (if unicode then Category.decimalNumber else [(0x30, 0x39)])

def spaces (unicode : Bool) : CharSet :=
  ranges (if unicode then Property.whiteSpace else [(0x09, 0x0D), (0x20, 0x20)])

def words (unicode : Bool) : CharSet :=
  ranges (if unicode then Property.word else [(0x30, 0x39), (0x41, 0x5A), (0x5F, 0x5F), (0x61, 0x7A)])

def asciiClass? : String → Option CharSet
  | "alnum" => some (ranges [(0x30, 0x39), (0x41, 0x5A), (0x61, 0x7A)])
  | "alpha" => some (ranges [(0x41, 0x5A), (0x61, 0x7A)])
  | "ascii" => some (ranges [(0, 0x7F)])
  | "blank" => some (ranges [(0x09, 0x09), (0x20, 0x20)])
  | "cntrl" => some (ranges [(0, 0x1F), (0x7F, 0x7F)])
  | "digit" => some (ranges [(0x30, 0x39)])
  | "graph" => some (ranges [(0x21, 0x7E)])
  | "lower" => some (ranges [(0x61, 0x7A)])
  | "print" => some (ranges [(0x20, 0x7E)])
  | "punct" => some (ranges [(0x21, 0x2F), (0x3A, 0x40), (0x5B, 0x60), (0x7B, 0x7E)])
  | "space" => some (ranges [(0x09, 0x0D), (0x20, 0x20)])
  | "upper" => some (ranges [(0x41, 0x5A)])
  | "word" => some (words false)
  | "xdigit" => some (ranges [(0x30, 0x39), (0x41, 0x46), (0x61, 0x66)])
  | _ => none

end CharSet

/-- Names of categories, in the loose spelling, with the tables that make them up. -/
def categoryTables : List (List String × List Ranges) := [
  (["lu", "uppercaseletter"], [Category.uppercaseLetter]),
  (["ll", "lowercaseletter"], [Category.lowercaseLetter]),
  (["lt", "titlecaseletter"], [Category.titlecaseLetter]),
  (["lm", "modifierletter"], [Category.modifierLetter]),
  (["lo", "otherletter"], [Category.otherLetter]),
  (["lc", "casedletter"],
    [Category.uppercaseLetter, Category.lowercaseLetter, Category.titlecaseLetter]),
  (["l", "letter"],
    [Category.uppercaseLetter, Category.lowercaseLetter, Category.titlecaseLetter,
      Category.modifierLetter, Category.otherLetter]),
  (["mn", "nonspacingmark"], [Category.nonspacingMark]),
  (["mc", "spacingmark"], [Category.spacingMark]),
  (["me", "enclosingmark"], [Category.enclosingMark]),
  (["m", "mark", "combiningmark"],
    [Category.nonspacingMark, Category.spacingMark, Category.enclosingMark]),
  (["nd", "decimalnumber", "digit"], [Category.decimalNumber]),
  (["nl", "letternumber"], [Category.letterNumber]),
  (["no", "othernumber"], [Category.otherNumber]),
  (["n", "number"], [Category.decimalNumber, Category.letterNumber, Category.otherNumber]),
  (["pc", "connectorpunctuation"], [Category.connectorPunctuation]),
  (["pd", "dashpunctuation"], [Category.dashPunctuation]),
  (["ps", "openpunctuation"], [Category.openPunctuation]),
  (["pe", "closepunctuation"], [Category.closePunctuation]),
  (["pi", "initialpunctuation"], [Category.initialPunctuation]),
  (["pf", "finalpunctuation"], [Category.finalPunctuation]),
  (["po", "otherpunctuation"], [Category.otherPunctuation]),
  (["p", "punctuation", "punct"],
    [Category.connectorPunctuation, Category.dashPunctuation, Category.openPunctuation,
      Category.closePunctuation, Category.initialPunctuation, Category.finalPunctuation,
      Category.otherPunctuation]),
  (["sm", "mathsymbol"], [Category.mathSymbol]),
  (["sc", "currencysymbol"], [Category.currencySymbol]),
  (["sk", "modifiersymbol"], [Category.modifierSymbol]),
  (["so", "othersymbol"], [Category.otherSymbol]),
  (["s", "symbol"],
    [Category.mathSymbol, Category.currencySymbol, Category.modifierSymbol, Category.otherSymbol]),
  (["zs", "spaceseparator"], [Category.spaceSeparator]),
  (["zl", "lineseparator"], [Category.lineSeparator]),
  (["zp", "paragraphseparator"], [Category.paragraphSeparator]),
  (["z", "separator"],
    [Category.spaceSeparator, Category.lineSeparator, Category.paragraphSeparator]),
  (["cc", "control", "cntrl"], [Category.control]),
  (["cf", "format"], [Category.format]),
  (["co", "privateuse"], [Category.privateUse])]

/-- Every category that has characters of its own. -/
def assignedTables : List Ranges :=
  ["l", "m", "n", "p", "s", "z", "cc", "cf", "co"].flatMap fun name =>
    ((categoryTables.find? (·.1.contains name)).map (·.2)).getD []

def setOfTables (tables : List Ranges) : CharSet := .unions (tables.map .ranges)

def category? (name : String) : Option CharSet :=
  match name with
  | "any" => some (.ranges [(0, 0x10FFFF)])
  | "ascii" => some .ascii
  | "assigned" => some (setOfTables assignedTables)
  | "cn" | "unassigned" => some (.complement (setOfTables assignedTables))
  | "c" | "other" =>
    some (.complement (setOfTables (["l", "m", "n", "p", "s", "z"].flatMap fun name =>
      ((categoryTables.find? (·.1.contains name)).map (·.2)).getD [])))
  | "cs" | "surrogate" => none
  | name => (categoryTables.find? (·.1.contains name)).map fun t => setOfTables t.2

def propertyTables : List (List String × Ranges) := [
  (["alphabetic", "alpha"], Property.alphabetic),
  (["lowercase", "lower"], Property.lowercase),
  (["uppercase", "upper"], Property.uppercase),
  (["cased"], Property.cased),
  (["whitespace", "wspace", "space"], Property.whiteSpace),
  (["ideographic", "ideo"], Property.ideographic),
  (["emoji"], Property.emoji),
  (["extendedpictographic", "extpict"], Property.pictographic),
  (["hexdigit", "hex"], Property.hexDigit),
  (["asciihexdigit", "ahex"], Property.asciiHexDigit),
  (["idstart", "ids"], Property.idStart),
  (["idcontinue", "idc"], Property.idContinue),
  (["xidstart", "xids"], Property.xidStart),
  (["xidcontinue", "xidc"], Property.xidContinue),
  (["dash"], Property.dash),
  (["diacritic", "dia"], Property.diacritic),
  (["math"], Property.math),
  (["joincontrol", "joinc"], Property.joinControl)]

def script? (name : String) : Option CharSet :=
  (scriptTables.find? (·.1.contains name)).map fun t => .ranges (.ofTable t.2)

/-- The loose spelling of a name: small letters only, without blanks, underscores, hyphens and a
leading "is". -/
def looseName (name : String) : String :=
  let cs := Text.lowerList name.toList
  let isCut := cs.take 2 == ['i', 's']
  let kept := (if isCut then cs.drop 2 else cs).filter fun c =>
    c.toNat < 0x80 && c != ' ' && c != '_' && c != '-'
  if isCut && kept == ['c'] then "isc" else String.ofList kept

/-- The set that a name stands for: a property first, then a category, then a script. -/
def namedSet? (name : String) : Option CharSet :=
  let name := looseName name
  match propertyTables.find? (·.1.contains name) with
  | some t => some (.ranges t.2)
  | none => (category? name).or (script? name)

/-- The set of the characters that have a value for a property. -/
def valuedSet? (property value : String) : Option CharSet :=
  match looseName property with
  | "gc" | "generalcategory" => category? (looseName value)
  | "sc" | "script" | "scx" | "scriptextensions" => script? (looseName value)
  | _ => none

end Phrasebook.Regex
