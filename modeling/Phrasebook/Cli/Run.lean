import Phrasebook.Cli.Action
import Phrasebook.Env.Load
import Phrasebook.Server.Handler
import Phrasebook.Store.File

/-!
Runs of the program. A run reads its words, completes the environment, opens the store, carries out
one action, and keeps the store. What was printed before a failure stays printed.
-/

namespace Phrasebook.Cli

/-- How a run ends: with the words refused or help given, broken off at a variable that cannot be set, with
documents printed and perhaps a failure, or with a site to be served at an address. -/
inductive Outcome where
  | stopped (why : Stop)
  | aborted
  | done (printed : List Json) (failure : Option Failure)
  | serve (address : String) (site : Server.Site)

def Outcome.exitCode : Outcome → Nat
  | stopped .usage => 2
  | stopped .help => 0
  | aborted => 134
  | done _ (some _) => 1
  | done _ none | serve .. => 0

/-- What a run finds around it: the environment, the folder it starts in, the drawing of graphs by the
program that the settings name, and the time in milliseconds since 1970. -/
structure Surroundings where
  env : Env
  cwd : Place
  draw : String → String → Except Failure (Option (List UInt8))
  now : Int

def addMatcher (u : Setup) (now : Int) (e : Edit) : Workspace.Op Json := do
  let draft ← Workspace.check (e.apply (← get).files u.cwd .empty)
  (Command.createMatcher draft e.actor).run u now

/-- Edits the draft of a stored matcher. -/
def updateMatcher (u : Setup) (now : Int) (id : Int) (e : Edit) : Workspace.Op Json := do
  let m ← Workspace.askStore (·.getMatcher id)
  let draft ← Workspace.check (e.apply (← get).files u.cwd (.ofContent m.toContent))
  (Command.updateMatcher id draft e.actor).run u now

/-- Carries out one piece of work after the other and collects what is printed up to the first
failure. -/
def printAll (printed : List Json) : List (Workspace.Op Json) → Workspace → Outcome × Workspace
  | [], w => (.done printed none, w)
  | op :: more, w =>
    match op w with
    | .ok j w => printAll (printed ++ [j]) more w
    | .error e w => (.done printed (some e), w)

def siteOf (s : Settings) : Server.Site := .make s.buildRoot s.buildUrl s.graphExtension

def perform (u : Setup) (now : Int) : Action → Workspace → Outcome × Workspace
  | .prepare, w => (.done [] none, w)
  | .command c, w => printAll [] [c.run u now] w
  | .addMatcher e, w => printAll [] [addMatcher u now e] w
  | .updateMatcher id e, w => printAll [] [updateMatcher u now id e] w
  | .stats recent, w =>
    let last := (recent.map fun n => (Command.recent n).run u now).toList
    printAll [] (Command.activity.run u now :: last) w
  | .serve bind, w => (.serve (bind.getD u.settings.bindAddr) (siteOf u.settings), w)

/-- The path that stands for a store which is not kept. -/
def noFile : String := ":memory:"

def setupOf (around : Surroundings) (env : Env) : Setup :=
  let settings := Settings.ofLookup env.get?
  .make settings around.cwd (around.draw settings.graphvizDot)

/-- Carries out an action on the store that the settings name. -/
def runAction (around : Surroundings) (u : Setup) (files : FileTree) (a : Action) : Outcome × Workspace :=
  let path := u.settings.databasePath
  let seconds := Calendar.secondsOfMillis around.now
  if path = noFile then perform u around.now a ⟨.empty, files, []⟩
  else
    match Store.openFile files around.cwd path seconds with
    | .error e => (.done [] (some e), ⟨.empty, files, []⟩)
    | .ok (store, files) =>
      let (outcome, w) := perform u around.now a ⟨store, files, []⟩
      match w.store.saveFile w.files around.cwd path seconds with
      | .ok files => (outcome, { w with files })
      | .error e => (.done [] (some e), w)

/-- One run with the given words. -/
def run (around : Surroundings) (files : FileTree) (words : List String) : Outcome × Workspace :=
  match Action.ofWords words with
  | .error why => (.stopped why, ⟨.empty, files, []⟩)
  | .ok a =>
    match around.env.load files around.cwd with
    | none => (.aborted, ⟨.empty, files, []⟩)
    | some env => runAction around (setupOf around env) files a

end Phrasebook.Cli
