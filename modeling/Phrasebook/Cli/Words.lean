import Phrasebook.Text.Numeral
import Phrasebook.Text.Search
import Phrasebook.Text.Word

/-!
Words of a command line. A command has a form: the options that it knows and the words that it takes
by position. Reading goes from left to right and stops at the first word that does not fit, or at the
wish for help.
-/

namespace Phrasebook.Cli

/-- How an option is given: without a value, with one, or with one every time. -/
inductive Arity where
  | flag
  | once
  | many
  deriving DecidableEq, Repr

structure Opt where
  name : String
  arity : Arity
  accepts : String → Bool

/-- What may stand behind a command. The words by position have a test each, and the last `spare` of
them may be missing. -/
structure Form where
  opts : List Opt
  places : List (String → Bool)
  spare : Nat

/-- What was read: options with their values, and words by position, both in order. -/
structure Words where
  given : List (String × String)
  placed : List String
  deriving DecidableEq, Repr

/-- Why a line is not carried out. -/
inductive Stop where
  | usage
  | help
  deriving DecidableEq, Repr

namespace Words

def none : Words := ⟨[], []⟩

def has (ws : Words) (name : String) : Bool := ws.given.any (·.1 == name)

def value? (ws : Words) (name : String) : Option String := ws.given.lookup name

/-- All values of an option. -/
def values (ws : Words) (name : String) : List String :=
  (ws.given.filter (·.1 == name)).map (·.2)

end Words

def anyText (_ : String) : Bool := true

def isPath (s : String) : Bool := !s.isEmpty

/-- A number with an optional plus sign. -/
def nat? (s : String) : Option Nat :=
  let digits :=
    match s.toList with
    | '+' :: rest => rest
    | cs => cs
  (Text.natural? digits).filter (· < Text.unsignedEnd)

/-- A number with an optional sign. -/
def int? (s : String) : Option Int :=
  match s.toList with
  | '-' :: rest => ((Text.natural? rest).filter (· ≤ Text.signedEnd)).map fun n => -(n : Int)
  | _ => ((nat? s).filter (· < Text.signedEnd)).map fun n => (n : Int)

def bool? : String → Option Bool
  | "true" => some true
  | "false" => some false
  | _ => none

def Opt.text (name : String) : Opt := ⟨name, .once, anyText⟩

def Opt.path (name : String) : Opt := ⟨name, .once, isPath⟩

def Opt.nat (name : String) : Opt := ⟨name, .once, fun s => (nat? s).isSome⟩

def Opt.int (name : String) : Opt := ⟨name, .once, fun s => (int? s).isSome⟩

def Opt.bool (name : String) : Opt := ⟨name, .once, fun s => (bool? s).isSome⟩

def Opt.flag (name : String) : Opt := ⟨name, .flag, anyText⟩

def Opt.texts (name : String) : Opt := ⟨name, .many, anyText⟩

namespace Form

def opt? (f : Form) (name : String) : Option Opt := f.opts.find? (·.name == name)

/-- A word that is taken by position. -/
def place (f : Form) (ws : Words) (word : String) : Except Stop Words :=
  match f.places[ws.placed.length]? with
  | some accepts =>
    if accepts word then .ok { ws with placed := ws.placed ++ [word] } else .error .usage
  | none => .error .usage

/-- An option that is not given more often than it may be, with a value that it accepts. -/
def give (o : Opt) (ws : Words) (value : String) : Except Stop Words :=
  if (o.arity ≠ .many && ws.has o.name) || !o.accepts value then .error .usage
  else .ok { ws with given := ws.given ++ [(o.name, value)] }

/-- The name in front of the first equals sign, and the value behind it. -/
def splitOption (cs : List Char) : String × Option String :=
  match Text.cutAt? ['='] cs with
  | some (name, value) => (String.ofList name, some (String.ofList value))
  | none => (String.ofList cs, none)

/-- How reading goes on after an option: with the words so far, or with an option that waits for its
value. -/
def startOption (f : Form) (ws : Words) (cs : List Char) : Except Stop (Words × Option Opt) :=
  match splitOption cs with
  | ("help", none) => .error .help
  | (name, value?) =>
    match f.opt? name with
    | none => .error .usage
    | some o =>
      match o.arity, value? with
      | .flag, some _ => .error .usage
      | .flag, none => (give o ws "").map (·, none)
      | _, some value => (give o ws value).map (·, none)
      | _, none => .ok (ws, some o)

/-- Whether a word begins like an option; a lone dash does not. -/
def dashed (word : String) : Bool := word.startsWith "-" && word ≠ "-"

/-- All words are read; enough of them must have been taken by position. -/
def finish (f : Form) (ws : Words) : Except Stop Words :=
  if ws.placed.length + f.spare < f.places.length then .error .usage else .ok ws

/-- Reads the words behind a command, while an option may wait for its value. Behind two dashes all
words are taken by position. -/
def readFrom (f : Form) (ws : Words) (waiting : Option Opt) : List String → Except Stop Words
  | [] => if waiting.isSome then .error .usage else f.finish ws
  | word :: rest =>
    match waiting with
    | some o =>
      if dashed word then .error .usage
      else do f.readFrom (← give o ws word) none rest
    | none =>
      match word.toList with
      | ['-', '-'] => do f.finish (← rest.foldlM f.place ws)
      | '-' :: '-' :: cs => do
        let (ws, waiting) ← f.startOption ws cs
        f.readFrom ws waiting rest
      | '-' :: 'h' :: _ => .error .help
      | _ =>
        if dashed word then .error .usage
        else do f.readFrom (← f.place ws word) none rest

def read (f : Form) (words : List String) : Except Stop Words := f.readFrom .none none words

end Form

end Phrasebook.Cli
