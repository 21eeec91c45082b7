import Phrasebook.Matcher.Reading
import Phrasebook.FileTree.Basic
import Phrasebook.Json.Reader
import Phrasebook.Cli.Words

/-!
Edits of a draft from the command line. Every option puts one thing into the draft and leaves the rest
as it is; a file takes the place of the whole draft before.
-/

namespace Phrasebook.Cli

structure Edit where
  file : Option String
  category : Option String
  raw : Option String
  regex : Option String
  flags : Option String
  values : List String
  groups : Option String
  priority : Option Int
  ignorePart : Option Bool
  memo : Option String
  actor : String
  deriving DecidableEq, Repr

/-- Who is said to have done something when nobody is named. -/
def defaultActor : String := "cli"

def actorOpt : Opt := .text "actor"

def actorOf (ws : Words) : String := (ws.value? "actor").getD defaultActor

namespace Edit

def opts : List Opt :=
  [.path "from-json", .text "category", .text "raw", .text "regex", .text "flags", .texts "value",
    .text "groups", .int "priority", .bool "ignore-part-translated", .text "memo", actorOpt]

/-- A raw text excludes a pattern. Flags need a pattern, but beside a raw text, where there can be
none, they are let pass and do nothing. -/
def ofWords (ws : Words) : Except Stop Edit :=
  if ws.has "raw" && ws.has "regex" then .error .usage
  else if ws.has "flags" && !ws.has "regex" && !ws.has "raw" then .error .usage
  else .ok
    { file := ws.value? "from-json"
      category := ws.value? "category"
      raw := ws.value? "raw"
      regex := ws.value? "regex"
      flags := ws.value? "flags"
      values := ws.values "value"
      groups := ws.value? "groups"
      priority := (ws.value? "priority").bind int?
      ignorePart := (ws.value? "ignore-part-translated").bind bool?
      memo := ws.value? "memo"
      actor := actorOf ws }

/-- The draft in a file. -/
def readDraft (t : FileTree) (cwd : Place) (path : String) : Except Failure Draft :=
  let failed (why : String) : Except Failure Draft := .error (.invalidArgument (path ++ ": " ++ why))
  match t.readText cwd path with
  | .error fault => failed fault.message
  | .ok text =>
    match (Json.parse? text).bind Draft.ofJson? with
    | some d => .ok d
    | none => failed "is not a draft"

def putRaw (d : Draft) (raw : String) : Draft := { d with raw, pattern := "", flags := "" }

def putRegex (d : Draft) (pattern : String) (flags : Option String) : Draft :=
  { d with pattern, flags := flags.getD "", raw := "" }

/-- Puts in a replacement that is given as language and text. -/
def putValue (d : Draft) (pair : String) : Except Failure Draft :=
  match Text.splitOnce? '=' pair with
  | some (language, text) =>
    .ok { d with replacements := d.replacements.insert (Text.trim language) text }
  | none => .error (.invalidArgument ("expected LANG=TEXT, got " ++ pair))

def putGroups (d : Draft) (text : String) : Except Failure Draft :=
  match (Json.parse? text).bind (Group.listOfJson? Json.maxDepth) with
  | some groups => .ok { d with groups }
  | none => .error (.invalidArgument "groups: not a list of groups")

/-- The draft with one thing put in, if it is given. -/
def putting {α : Type} (value : Option α) (f : Draft → α → Draft) (d : Draft) : Draft :=
  match value with
  | some a => f d a
  | none => d

def apply (e : Edit) (t : FileTree) (cwd : Place) (d : Draft) : Except Failure Draft := do
  let d ← (e.file.map (readDraft t cwd)).getD (.ok d)
  let d := putting e.category (fun d category => { d with category }) d
  let d := putting e.raw putRaw d
  let d := putting e.regex (fun d pattern => putRegex d pattern e.flags) d
  let d ← e.values.foldlM putValue d
  let d ← (e.groups.map (putGroups d)).getD (.ok d)
  let d := putting e.priority (fun d priority => { d with priority }) d
  let d := putting e.ignorePart (fun d ignorePart => { d with ignorePart }) d
  return putting e.memo (fun d memo => { d with memo }) d

end Edit

end Phrasebook.Cli
