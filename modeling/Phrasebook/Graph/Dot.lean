import Phrasebook.Graph.Basic

/-!
Graphs in the DOT language: a statement for every node and every edge, with names as quoted strings.
Every node links to the page of its category, and cyclic edges are red.
-/

namespace Phrasebook.Graph

def quoteChar (c : Char) : List Char :=
  if c = '\\' then ['\\', '\\']
  else if c = '"' then ['\\', '"']
  else if c = '\n' then ['\\', 'n']
  else [c]

def quoted (s : String) : String := String.ofList ('"' :: s.toList.flatMap quoteChar ++ ['"'])

def nodeLabel (n : Node) : String := n.name ++ " (" ++ Text.decimal n.rules ++ ")"

def nodeLine (link : String → String) (n : Node) : String :=
  "  " ++ quoted n.name ++ " [label=" ++ quoted (nodeLabel n) ++ ", URL=" ++ quoted (link n.name) ++
    ", target=\"_blank\"];\n"

def edgeLine (e : Edge) : String :=
  "  " ++ quoted e.source ++ " -> " ++ quoted e.target ++
    (if e.cyclic then " [color=red]" else "") ++ ";\n"

def heading : String :=
  "digraph categories \x7b\n  rankdir=LR;\n" ++
    "  node [shape=box, style=rounded, fontname=\"Helvetica\"];\n"

/-- The text of a graph; `link` gives the page of a category. -/
def text (link : String → String) (g : Graph) : String :=
  heading ++ String.join (g.nodes.map (nodeLine link)) ++ String.join (g.edges.map edgeLine) ++
    "\x7d\n"

end Phrasebook.Graph
