import Phrasebook.Main
import Phrasebook.Text.Duration
import Phrasebook.Proofs.Json.RoundTrip
import Phrasebook.Proofs.Matcher.Legal
import Phrasebook.Proofs.Matcher.Columns
import Phrasebook.Proofs.Store.Table
import Phrasebook.Proofs.Store.Matchers
import Phrasebook.Proofs.Store.Rename
import Phrasebook.Proofs.Store.Phrases
import Phrasebook.Proofs.Store.History
import Phrasebook.Proofs.Store.FiniteMap
import Phrasebook.Proofs.Store.Substitution
import Phrasebook.Proofs.Workspace.Changes
import Phrasebook.Proofs.Workspace.Validity
import Phrasebook.Proofs.FileTree.Names
import Phrasebook.Proofs.FileTree.Walk
import Phrasebook.Proofs.FileTree.Edits
import Phrasebook.Proofs.Build.Writer
import Phrasebook.Proofs.Workspace.Exports
import Phrasebook.Proofs.Workspace.Published
import Phrasebook.Proofs.Template.Pieces
import Phrasebook.Proofs.Book.Substitution
import Phrasebook.Proofs.Group.Names
import Phrasebook.Proofs.Graph.Walks
import Phrasebook.Proofs.Book.Trail
import Phrasebook.Proofs.Import.Resume
import Phrasebook.Proofs.Graph.Cycles
import Phrasebook.Proofs.Pack.RoundTrip
import Phrasebook.Proofs.Store.Deeds
import Phrasebook.Proofs.Store.Lifetimes
import Phrasebook.Proofs.Book.Renaming
import Phrasebook.Proofs.Graph.Renaming
import Phrasebook.Proofs.Workspace.FreshNames
import Phrasebook.Proofs.Book.Reachable
import Phrasebook.Proofs.FileTree.Resolution
import Phrasebook.Proofs.Text.Ends
import Phrasebook.Proofs.Server.Served
import Phrasebook.Proofs.Text.Percent
import Phrasebook.Proofs.Build.Folder
import Phrasebook.Proofs.Build.Listing
import Phrasebook.Proofs.Server.Addresses
import Phrasebook.Proofs.Workspace.Folder
import Phrasebook.Proofs.Build.Pair
import Phrasebook.Proofs.Book.Coverage
import Phrasebook.Proofs.Calendar.Days
import Phrasebook.Proofs.Calendar.Format
import Phrasebook.Proofs.Calendar.HttpDate
import Phrasebook.Proofs.Server.Conditional
import Phrasebook.Proofs.FileTree.Children
import Phrasebook.Proofs.Build.History
import Phrasebook.Proofs.Workspace.Notices
import Phrasebook.Proofs.Book.Lookups
import Phrasebook.Proofs.Book.Shape
import Phrasebook.Proofs.Book.Precedence
import Phrasebook.Proofs.Book.EveryHit
import Phrasebook.Proofs.Book.OwnTemplate
import Phrasebook.Proofs.Template.Standard
import Phrasebook.Proofs.Graph.Construction
import Phrasebook.Proofs.Graph.DotReader
import Phrasebook.Proofs.Store.Naming
import Phrasebook.Proofs.Store.Pages
import Phrasebook.Proofs.Workspace.Listing
import Phrasebook.Proofs.Json.Escaping
import Phrasebook.Proofs.Store.Searching
import Phrasebook.Proofs.Matcher.Validation
import Phrasebook.Proofs.Text.Bytes
import Phrasebook.Proofs.Cli.Edits
import Phrasebook.Proofs.Server.Downloads
import Phrasebook.Proofs.Server.Requests
import Phrasebook.Proofs.Server.Framing
import Phrasebook.Proofs.Env.Strict
import Phrasebook.Proofs.Env.Values
import Phrasebook.Proofs.Env.Agreement
import Phrasebook.Proofs.Book.Languages
import Phrasebook.Proofs.Group.Positions
import Phrasebook.Proofs.Store.Reports
import Phrasebook.Proofs.Env.Precedence
import Phrasebook.Proofs.Env.Loading
import Phrasebook.Proofs.Import.Files
