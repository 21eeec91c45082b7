import Phrasebook.Build.Writer
import Phrasebook.Notice
import Phrasebook.Regex.Engine
import Phrasebook.Settings
import Phrasebook.Store.Basic

/-!
A workspace: the store, the files around it, and the notices that were handed to the webhook.
Everything else that a command depends on stays the same while commands are carried out, but for the
time.
-/

namespace Phrasebook

/-- What stays the same: the settings, the folder in which paths begin, the way graphs are drawn, the
engine that reads patterns, and what the webhook replies to the newest of the notices that it got. -/
structure Setup where
  settings : Settings
  cwd : Place
  renderer : Build.Renderer
  engine : Regex.Engine
  webhook : List Notice → Reply := fun _ => .unreachable

/-- The newest notice is the last one. -/
structure Workspace where
  store : Store
  files : FileTree
  sent : List Notice

namespace Setup

def notifier (u : Setup) : Notifier := .make u.settings.webhookUrl u.settings.externalUrl

/-- A setup that leaves graphs as text when the settings ask for it, and draws them with `draw`
otherwise. -/
def make (settings : Settings) (cwd : Place) (draw : String → Except Failure (Option (List UInt8))) :
    Setup :=
  { settings, cwd, engine := Regex.engine
    renderer :=
      if settings.keepsGraphText then .text
      else ⟨settings.graphExtension, draw, .render "no file"⟩ }

end Setup

namespace Workspace

/-- Work in a workspace. What was done before a failure stays done. -/
abbrev Op := EStateM Failure Workspace

/-- Work on the store alone. -/
def onStore {α : Type} (op : Store.Op α) : Op α := fun w =>
  match op w.store with
  | .ok a s => .ok a { w with store := s }
  | .error e s => .error e { w with store := s }

/-- A question to the store. -/
def askStore {α : Type} (f : Store → Except Failure α) : Op α := onStore (Store.ask f)

/-- Work on the files alone. -/
def onFiles {α : Type} (work : Build.Work α) : Op α := fun w =>
  match work w.files with
  | .ok a t => .ok a { w with files := t }
  | .error e t => .error e { w with files := t }

/-- Work that may fail without harm. -/
def attempt {α : Type} (op : Op α) : Op Unit := fun w =>
  match op w with
  | .ok _ w => .ok () w
  | .error _ w => .ok () w

/-- Hands a notice to the webhook, and tells whether it was delivered. -/
def post (u : Setup) (notice : Notice) : Op Bool := fun w =>
  let sent := w.sent ++ [notice]
  .ok (u.webhook sent).delivers { w with sent }

/-- Hands a notice to the webhook, if there is one. A notice that is not delivered is given up. -/
def send (u : Setup) (notice : Notifier → Notice) : Op Unit := do
  if u.notifier.enabled then
    let _ ← post u (notice u.notifier)

end Workspace

end Phrasebook
