import Phrasebook.Cli.Edit
import Phrasebook.Workspace.Command

/-!
Actions of the command line, and the words that ask for them.
-/

namespace Phrasebook.Cli

inductive Action where
  | prepare
  | command (c : Command)
  | addMatcher (edit : Edit)
  | updateMatcher (id : Int) (edit : Edit)
  | stats (recent : Option Nat)
  | serve (bind : Option String)

namespace Action

/-- Reads the words behind a command by its form. -/
def withForm (opts : List Opt) (places : List (String → Bool)) (spare : Nat)
    (make : Words → Except Stop Action) (words : List String) : Except Stop Action := do
  make (← (⟨opts, places, spare⟩ : Form).read words)

def isId (s : String) : Bool := (int? s).isSome

/-- The word at a position. -/
def wordAt (ws : Words) (n : Nat) : String := ws.placed[n]?.getD ""

def idOf (ws : Words) : Int := (int? (wordAt ws 0)).getD 0

def natOf (ws : Words) (name : String) : Option Nat := (ws.value? name).bind nat?

/-- A word that asks for help in the place of a command. -/
def ofOther (word : String) : Except Stop Action :=
  if word = "--help" || word.startsWith "-h" then .error .help else .error .usage

/-- Help on a command is given when there is such a command. -/
def helpOn (commands : List String) : List String → Except Stop Action
  | [] => .error .help
  | [name] => if ("help" :: commands).contains name then .error .help else .error .usage
  | _ => .error .usage

def matcherCommands : List String := ["add", "update", "delete", "list", "show", "categories"]

def ofMatcherWords : List String → Except Stop Action
  | "add" :: rest => withForm Edit.opts [] 0 (fun ws => (Edit.ofWords ws).map addMatcher) rest
  | "update" :: rest =>
    withForm Edit.opts [isId] 0 (fun ws => (Edit.ofWords ws).map (updateMatcher (idOf ws))) rest
  | "delete" :: rest =>
    withForm [actorOpt] [isId] 0 (fun ws => .ok (command (.deleteMatcher (idOf ws) (actorOf ws)))) rest
  | "list" :: rest =>
    withForm [.text "category", .text "search"] [] 0 (fun ws =>
      .ok (command (.listMatchers (ws.value? "category") (ws.value? "search")))) rest
  | "show" :: rest => withForm [] [isId] 0 (fun ws => .ok (command (.getMatcher (idOf ws)))) rest
  | "categories" :: rest => withForm [] [] 0 (fun _ => .ok (command .categories)) rest
  | "help" :: rest => helpOn matcherCommands rest
  | word :: _ => ofOther word
  | [] => .error .usage

def sourceCommands : List String := ["add", "delete", "list", "names"]

def phraseFilter (ws : Words) : PhraseFilter :=
  ⟨ws.value? "source", ws.value? "search", natOf ws "page", natOf ws "per-page", ws.has "fast"⟩

def ofSourceWords : List String → Except Stop Action
  | "add" :: rest =>
    withForm [actorOpt] [anyText, anyText] 0 (fun ws =>
      .ok (command (.addPhrase (wordAt ws 0) (wordAt ws 1) (actorOf ws)))) rest
  | "delete" :: rest =>
    withForm [actorOpt] [isId] 0 (fun ws => .ok (command (.deletePhrase (idOf ws) (actorOf ws)))) rest
  | "list" :: rest =>
    withForm [.text "source", .text "search", .nat "page", .nat "per-page", .flag "fast"] [] 0
      (fun ws => .ok (command (.listPhrases (phraseFilter ws)))) rest
  | "names" :: rest => withForm [] [] 0 (fun _ => .ok (command .sources)) rest
  | "help" :: rest => helpOn sourceCommands rest
  | word :: _ => ofOther word
  | [] => .error .usage

def commands : List String :=
  ["init", "matcher", "source", "import", "export", "builds", "rename", "stats", "translate",
    "serve"]

def ofHelpWords : List String → Except Stop Action
  | "matcher" :: rest => helpOn matcherCommands rest
  | "source" :: rest => helpOn sourceCommands rest
  | words => helpOn commands words

def previewOf (ws : Words) : Except Stop Action :=
  match ws.value? "lang", ws.value? "source" with
  | some language, some source =>
    .ok (command (.preview language source (ws.value? "text") (natOf ws "limit")))
  | _, _ => .error .usage

def ofWords : List String → Except Stop Action
  | "init" :: rest => withForm [] [] 0 (fun _ => .ok prepare) rest
  | "matcher" :: rest => ofMatcherWords rest
  | "source" :: rest => ofSourceWords rest
  | "import" :: rest =>
    withForm [] [isPath] 1 (fun ws => .ok (command (.importPacks ws.placed.head?))) rest
  | "export" :: rest =>
    withForm [.flag "snapshot"] [] 0 (fun ws => .ok (command (.exportPack (ws.has "snapshot")))) rest
  | "builds" :: rest => withForm [] [] 0 (fun _ => .ok (command .builds)) rest
  | "rename" :: rest =>
    withForm [.flag "dry-run", actorOpt] [anyText, anyText] 0 (fun ws =>
      .ok (command (.rename (wordAt ws 0) (wordAt ws 1) (actorOf ws) (ws.has "dry-run")))) rest
  | "stats" :: rest =>
    withForm [.nat "recent"] [] 0 (fun ws => .ok (stats (natOf ws "recent"))) rest
  | "translate" :: rest =>
    withForm [.text "lang", .text "source", .text "text", .nat "limit"] [] 0 previewOf rest
  | "serve" :: rest =>
    withForm [.text "bind"] [] 0 (fun ws => .ok (serve (ws.value? "bind"))) rest
  | "help" :: rest => ofHelpWords rest
  | word :: _ =>
    if word = "--version" || word.startsWith "-V" then .error .help else ofOther word
  | [] => .error .usage

end Action

end Phrasebook.Cli
