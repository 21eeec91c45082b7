import Mathlib
import Phrasebook.Graph.Dot
import Phrasebook.Proofs.Text.Numeral
import Phrasebook.Text.Search

/-!
Reading the DOT language. A text is cut into words, quoted literals, arrows and marks, character by
character; in a literal a backslash takes the next character with it. Statements end with a semicolon. The
text of a graph is read as its nodes and edges, whatever characters their names have.
-/

namespace Phrasebook.Graph

namespace Dot

inductive Token where
  | word (name : String)
  | literal (value : String)
  | arrow
  | mark (c : Char)
  deriving DecidableEq, Repr

/-- Where a reader is: between tokens, or in one of which it has the characters so far. -/
inductive Mode where
  | between
  | word (done : List Char)
  | literal (done : List Char)
  | escape (done : List Char)
  | dash
  deriving DecidableEq, Repr

/-- The reader is in a literal. -/
def Mode.inLiteral : Mode → Bool
  | .literal _ => true
  | .escape _ => true
  | _ => false

def isBlank (c : Char) : Bool := [' ', '\n', '\r', '\t'].contains c

def isMark (c : Char) : Bool := ['\x7b', '\x7d', '[', ']', '=', ',', ';'].contains c

def isWordChar (c : Char) : Bool := c.isAlphanum || c == '_'

/-- A character between two tokens. -/
def start (c : Char) : Option (List Token × Mode) :=
  if isBlank c then some ([], .between)
  else if c = '"' then some ([], .literal [])
  else if c = '-' then some ([], .dash)
  else if isMark c then some ([.mark c], .between)
  else if isWordChar c then some ([], .word [c])
  else none

/-- What a backslash makes of the character behind it. -/
def escaped (c : Char) : Char := if c = 'n' then '\n' else c

/-- One character more: the tokens that end with it, and where the reader is then. -/
def step : Mode → Char → Option (List Token × Mode)
  | .between, c => start c
  | .word done, c =>
    if isWordChar c then some ([], .word (done ++ [c]))
    else (start c).map (Prod.map (.word (String.ofList done) :: ·) id)
  | .literal done, c =>
    if c = '"' then some ([.literal (String.ofList done)], .between)
    else if c = '\\' then some ([], .escape done)
    else some ([], .literal (done ++ [c]))
  | .escape done, c => some ([], .literal (done ++ [escaped c]))
  | .dash, c => if c = '>' then some ([.arrow], .between) else none

def scan : Mode → List Char → Option (List Token × Mode)
  | mode, [] => some ([], mode)
  | mode, c :: rest => do
    let (tokens, next) ← step mode c
    (scan next rest).map (Prod.map (tokens ++ ·) id)

inductive Statement where
  | setting (name value : String)
  | defaults (kind : String) (attributes : List (String × String))
  | node (name : String) (attributes : List (String × String))
  | edge (source target : String) (attributes : List (String × String))
  deriving DecidableEq, Repr

structure Document where
  name : String
  statements : List Statement
  deriving DecidableEq, Repr

/-- Words that are no names, in capitals or not. -/
def isKeyword (word : String) : Bool :=
  ["strict", "graph", "digraph", "subgraph", "node", "edge"].contains (Text.lowerAscii word)

/-- The name that a token is. -/
def Token.name? : Token → Option String
  | .word name => if isKeyword name then none else some name
  | .literal value => some value
  | _ => none

/-- Attributes up to the bracket that closes their list. -/
def pairs? : List Token → Option (List (String × String))
  | [name, .mark '=', value, .mark ']'] => do return [(← name.name?, ← value.name?)]
  | name :: .mark '=' :: value :: .mark ',' :: rest => do
    return (← name.name?, ← value.name?) :: (← pairs? rest)
  | _ => none

/-- A list of attributes, if there is one. -/
def attributes? : List Token → Option (List (String × String))
  | [] => some []
  | .mark '[' :: rest => pairs? rest
  | _ => none

/-- The statement that some tokens are. -/
def statement? : List Token → Option Statement
  | [name, .mark '=', value] => do return .setting (← name.name?) (← value.name?)
  | source :: .arrow :: target :: rest => do
    return .edge (← source.name?) (← target.name?) (← attributes? rest)
  | .word name :: rest =>
    if ["graph", "node", "edge"].contains (Text.lowerAscii name) then do
      return .defaults name (← attributes? rest)
    else do return .node (← (Token.word name).name?) (← attributes? rest)
  | .literal name :: rest => do return .node name (← attributes? rest)
  | _ => none

/-- Statements up to the bracket that closes the graph, each of them with a semicolon behind it; `done` is
what has been seen of the first. -/
def statements? : (done : List Token) → List Token → Option (List Statement)
  | _, [] => none
  | [], [.mark '\x7d'] => some []
  | done, t :: rest =>
    if t = .mark ';' then do return (← statement? done) :: (← statements? [] rest)
    else statements? (done ++ [t]) rest

def document? : List Token → Option Document
  | .word kind :: name :: .mark '\x7b' :: rest =>
    if Text.lowerAscii kind = "digraph" then do return ⟨← name.name?, ← statements? [] rest⟩ else none
  | _ => none

/-- The document that a text is. -/
def read? (text : String) : Option Document :=
  match scan .between text.toList with
  | some (tokens, .between) => document? tokens
  | _ => none

theorem scan_cons {mode next : Mode} {c : Char} {tokens : List Token} (h : step mode c = some (tokens, next))
    (rest : List Char) :
    scan mode (c :: rest) = (scan next rest).map (Prod.map (tokens ++ ·) id) := by
  rw [scan, h]
  rfl

theorem scan_singleton (mode : Mode) (c : Char) : scan mode [c] = step mode c := by
  cases h : step mode c with
  | none => rw [scan, h]; rfl
  | some result => rw [scan_cons h, scan, Option.map_some, Prod.map, List.append_nil]; rfl

theorem scan_append (mode : Mode) (front rest : List Char) :
    scan mode (front ++ rest) = (scan mode front).bind fun (tokens, next) =>
      (scan next rest).map (Prod.map (tokens ++ ·) id) := by
  induction front generalizing mode with
  | nil => exact (congrFun Option.map_id _).symm
  | cons c front ih =>
      cases hStep : step mode c with
      | none => rw [List.cons_append, scan, scan, hStep]; rfl
      | some result =>
          obtain ⟨tokens, next⟩ := result
          rw [List.cons_append, scan_cons hStep, scan_cons hStep, ih, Option.map_bind, Option.bind_map]
          refine congrArg (Option.bind _) (funext fun (more, last) => ?_)
          rw [Function.comp_apply, Option.map_map]
          refine congrArg (Option.map · _) (funext fun result => Prod.ext ?_ rfl)
          exact (List.append_assoc tokens more result.1).symm

theorem scan_append_of {mode next : Mode} {front : List Char} {tokens : List Token}
    (h : scan mode front = some (tokens, next)) (rest : List Char) :
    scan mode (front ++ rest) = (scan next rest).map (Prod.map (tokens ++ ·) id) := by
  rw [scan_append, h]
  rfl

/-- What gives no token gives none at its front either. -/
theorem exists_of_scan_append {mode last : Mode} {front rest : List Char}
    (h : scan mode (front ++ rest) = some ([], last)) :
    ∃ next, scan mode front = some ([], next) ∧ scan next rest = some ([], last) := by
  rw [scan_append] at h
  obtain ⟨⟨tokens, next⟩, hFront, hRest⟩ := Option.bind_eq_some_iff.1 h
  obtain ⟨⟨more, last'⟩, hScan, hSame⟩ := Option.map_eq_some_iff.1 hRest
  obtain ⟨hTokens, hLast⟩ := Prod.mk.inj hSame
  obtain ⟨rfl, rfl⟩ := List.append_eq_nil_iff.1 hTokens
  obtain rfl : last' = last := hLast
  exact ⟨next, hFront, hScan⟩

/-- A text that is read as some tokens, and ends where the last of them does. -/
def ReadsAs (text : String) (tokens : List Token) : Prop :=
  scan .between text.toList = some (tokens, .between)

theorem ReadsAs.append {front rest : String} {tokens more : List Token} (hFront : ReadsAs front tokens)
    (hRest : ReadsAs rest more) : ReadsAs (front ++ rest) (tokens ++ more) := by
  rw [ReadsAs] at hRest
  rw [ReadsAs, String.toList_append, scan_append_of hFront, hRest]
  rfl

/-- A character of a name, with a backslash in front or without, is one character more of its literal. -/
theorem scan_quoteChar (done : List Char) (c : Char) :
    scan (.literal done) (quoteChar c) = some ([], .literal (done ++ [c])) := by
  by_cases hBackslash : c = '\\'
  · subst hBackslash
    rfl
  by_cases hQuote : c = '"'
  · subst hQuote
    rfl
  by_cases hFeed : c = '\n'
  · subst hFeed
    rfl
  rw [quoteChar, if_neg hBackslash, if_neg hQuote, if_neg hFeed]
  simp [scan, step, hQuote, hBackslash]

/-- No character of a name ends its literal. -/
theorem scan_quoteChars (done s : List Char) :
    scan (.literal done) (s.flatMap quoteChar) = some ([], .literal (done ++ s)) := by
  induction s generalizing done with
  | nil => rw [List.flatMap_nil, scan, List.append_nil]
  | cons c s ih =>
      rw [List.flatMap_cons, scan_append_of (scan_quoteChar done c), ih]
      simp

theorem readsAs_quoted (s : String) : ReadsAs (quoted s) [.literal s] := by
  have hOpen : step .between '"' = some ([], .literal []) := rfl
  have hClose : scan (.literal s.toList) ['"'] = some ([.literal s], .between) := by
    simp [scan, step]
  rw [ReadsAs, quoted, String.toList_ofList, List.cons_append, scan_cons hOpen,
    scan_append_of (scan_quoteChars [] s.toList), List.nil_append, hClose]
  rfl

/-- A literal that ends gives a token. -/
theorem inLiteral_of_step {mode next : Mode} {c : Char} (hMode : mode.inLiteral = true)
    (h : step mode c = some ([], next)) : next.inLiteral = true := by
  cases mode with
  | literal done =>
      rw [step] at h
      split at h
      next => simp at h
      next => split at h <;> cases h <;> rfl
  | escape done => cases h; rfl
  | between => cases hMode
  | word => cases hMode
  | dash => cases hMode

theorem inLiteral_of_scan {mode next : Mode} {cs : List Char} (hMode : mode.inLiteral = true)
    (h : scan mode cs = some ([], next)) : next.inLiteral = true := by
  induction cs generalizing mode with
  | nil => cases h; exact hMode
  | cons c cs ih =>
      obtain ⟨middle, hFirst, hRest⟩ := exists_of_scan_append (List.singleton_append ▸ h)
      rw [scan_singleton] at hFirst
      exact ih (inLiteral_of_step hMode hFirst) hRest

/-- Up to its last quote, a quoted name is inside of its literal. -/
theorem exists_inLiteral_of_append {s : String} {front rest : List Char} (hNe : front ≠ [])
    (h : front ++ rest ++ ['"'] = (quoted s).toList) :
    ∃ mode, scan .between front = some ([], mode) ∧ mode.inLiteral = true := by
  rw [quoted, String.toList_ofList, List.append_left_inj] at h
  cases front with
  | nil => exact absurd rfl hNe
  | cons c front =>
      rw [List.cons_append, List.cons_eq_cons] at h
      obtain ⟨rfl, hChars⟩ := h
      have hOpen : step .between '"' = some ([], .literal []) := rfl
      have hWhole : scan (.literal []) (front ++ rest) = some ([], .literal s.toList) := by
        rw [hChars, scan_quoteChars, List.nil_append]
      obtain ⟨mode, hFront, -⟩ := exists_of_scan_append hWhole
      refine ⟨mode, ?_, inLiteral_of_scan rfl hFront⟩
      rw [scan_cons hOpen, hFront]
      rfl

theorem statements?_cons {tokens : List Token} (hNe : tokens ≠ []) (done : List Token) (t : Token) :
    statements? done (t :: tokens) =
      if t = .mark ';' then do return (← statement? done) :: (← statements? [] tokens)
      else statements? (done ++ [t]) tokens := by
  rw [statements?]
  exact fun _ _ hEnd => hNe hEnd

/-- A statement goes up to its semicolon. -/
theorem statements?_append {tokens : List Token} (hWhole : .mark ';' ∉ tokens) {rest : List Token}
    (hNe : rest ≠ []) (done : List Token) :
    statements? done (tokens ++ .mark ';' :: rest) =
      (statement? (done ++ tokens)).bind fun first => (statements? [] rest).map (first :: ·) := by
  induction tokens generalizing done with
  | nil =>
      rw [List.nil_append, statements?_cons hNe, if_pos rfl, List.append_nil]
      cases statement? done <;> cases statements? [] rest <;> rfl
  | cons t tokens ih =>
      obtain ⟨hMark, hWhole⟩ := not_or.1 fun h => hWhole (List.mem_cons.2 h)
      rw [List.cons_append, statements?_cons (by simp), if_neg (Ne.symm hMark), ih hWhole,
        List.append_assoc, List.singleton_append]

/-- A text that is read as some statements, whatever comes behind it. -/
def Holds (text : String) (statements : List Statement) : Prop :=
  ∃ tokens, ReadsAs text tokens ∧ ∀ rest ≠ [],
    statements? [] (tokens ++ rest) = (statements? [] rest).map (statements ++ ·)

namespace Holds

theorem of_tokens {text : String} {tokens : List Token} {statement : Statement}
    (hTokens : ReadsAs text (tokens ++ [.mark ';'])) (hWhole : .mark ';' ∉ tokens)
    (hStatement : statement? tokens = some statement) : Holds text [statement] := by
  refine ⟨_, hTokens, fun rest hNe => ?_⟩
  rw [List.append_assoc, List.singleton_append, statements?_append hWhole hNe, List.nil_append, hStatement]
  rfl

theorem append {front rest : String} {statements more : List Statement} (hFront : Holds front statements)
    (hRest : Holds rest more) : Holds (front ++ rest) (statements ++ more) := by
  obtain ⟨tokens, hTokens, hReads⟩ := hFront
  obtain ⟨others, hOthers, hReadsRest⟩ := hRest
  refine ⟨tokens ++ others, hTokens.append hOthers, fun last hNe => ?_⟩
  rw [List.append_assoc, hReads _ (List.append_ne_nil_of_right_ne_nil _ hNe), hReadsRest last hNe,
    Option.map_map]
  exact congrArg (Option.map · _) (funext fun _ => (List.append_assoc _ _ _).symm)

theorem join {α : Type} {line : α → String} {statement : α → Statement}
    (h : ∀ x, Holds (line x) [statement x]) (items : List α) :
    Holds (String.join (items.map line)) (items.map statement) := by
  induction items with
  | nil => exact ⟨[], rfl, fun _ _ => (congrFun Option.map_id _).symm⟩
  | cons x items ih =>
      rw [List.map_cons, String.join_cons, List.map_cons]
      exact (h x).append ih

end Holds

def nodeStatement (link : String → String) (n : Node) : Statement :=
  .node n.name [("label", n.name ++ " (" ++ Text.decimal n.rules ++ ")"), ("URL", link n.name),
    ("target", "_blank")]

def nodeTokens (link : String → String) (n : Node) : List Token :=
  [.literal n.name, .mark '[', .word "label", .mark '=', .literal (nodeLabel n), .mark ',', .word "URL",
    .mark '=', .literal (link n.name), .mark ',', .word "target", .mark '=', .literal "_blank", .mark ']']

theorem holds_nodeLine (link : String → String) (n : Node) :
    Holds (nodeLine link n) [nodeStatement link n] := by
  have hIndent : ReadsAs "  " [] := by rfl
  have hLabel : ReadsAs " [label=" [.mark '[', .word "label", .mark '='] := by rfl
  have hLink : ReadsAs ", URL=" [.mark ',', .word "URL", .mark '='] := by rfl
  have hEnd : ReadsAs ", target=\"_blank\"];\n"
      [.mark ',', .word "target", .mark '=', .literal "_blank", .mark ']', .mark ';'] := by rfl
  have hTokens : ReadsAs (nodeLine link n) (nodeTokens link n ++ [.mark ';']) :=
    (((((hIndent.append (readsAs_quoted n.name)).append hLabel).append
      (readsAs_quoted (nodeLabel n))).append hLink).append (readsAs_quoted (link n.name))).append hEnd
  exact Holds.of_tokens hTokens (by simp [nodeTokens]) rfl

def edgeStatement (e : Edge) : Statement :=
  .edge e.source e.target (if e.cyclic then [("color", "red")] else [])

def colorTokens (cyclic : Bool) : List Token :=
  if cyclic then [.mark '[', .word "color", .mark '=', .word "red", .mark ']'] else []

theorem holds_edgeLine (e : Edge) : Holds (edgeLine e) [edgeStatement e] := by
  have hIndent : ReadsAs "  " [] := by rfl
  have hArrow : ReadsAs " -> " [.arrow] := by rfl
  have hColor : ReadsAs (if e.cyclic then " [color=red]" else "") (colorTokens e.cyclic) := by
    cases e.cyclic <;> rfl
  have hEnd : ReadsAs ";\n" [.mark ';'] := by rfl
  have hTokens : ReadsAs (edgeLine e)
      ([.literal e.source, .arrow, .literal e.target] ++ colorTokens e.cyclic ++ [.mark ';']) :=
    ((((hIndent.append (readsAs_quoted e.source)).append hArrow).append
      (readsAs_quoted e.target)).append hColor).append hEnd
  obtain ⟨source, target, cyclic⟩ := e
  cases cyclic
  · exact Holds.of_tokens hTokens (by simp [colorTokens]) rfl
  · exact Holds.of_tokens hTokens (by simp [colorTokens]) rfl

/-- How all nodes look. -/
def defaults : Statement :=
  .defaults "node" [("shape", "box"), ("style", "rounded"), ("fontname", "Helvetica")]

def defaultsTokens : List Token :=
  [.word "node", .mark '[', .word "shape", .mark '=', .word "box", .mark ',', .word "style", .mark '=',
    .word "rounded", .mark ',', .word "fontname", .mark '=', .literal "Helvetica", .mark ']']

theorem exists_heading_eq : ∃ body, heading = "digraph categories \x7b\n" ++ body ∧
    Holds body [.setting "rankdir" "LR", defaults] := by
  have hDirection : ReadsAs "  rankdir=LR;\n"
      ([.word "rankdir", .mark '=', .word "LR"] ++ [.mark ';']) := by rfl
  have hLook : ReadsAs "  node [shape=box, style=rounded, fontname=\"Helvetica\"];\n"
      (defaultsTokens ++ [.mark ';']) := by cbv
  have hFirst : Holds _ [.setting "rankdir" "LR"] := Holds.of_tokens hDirection (by simp) (by decide)
  have hSecond : Holds _ [defaults] := Holds.of_tokens hLook (by simp [defaultsTokens]) (by decide)
  exact ⟨_, by decide, hFirst.append hSecond⟩

/-- The statements in the text of a graph. -/
def statements (link : String → String) (g : Graph) : List Statement :=
  [.setting "rankdir" "LR", defaults] ++ g.nodes.map (nodeStatement link) ++ g.edges.map edgeStatement

theorem read?_text (link : String → String) (g : Graph) :
    read? (text link g) = some ⟨"categories", statements link g⟩ := by
  obtain ⟨body, hHeading, hSettings⟩ := exists_heading_eq
  have hOpen : ReadsAs "digraph categories \x7b\n"
      [.word "digraph", .word "categories", .mark '\x7b'] := by rfl
  have hClose : ReadsAs "\x7d\n" [.mark '\x7d'] := by rfl
  have hNodes := Holds.join (holds_nodeLine link) g.nodes
  have hEdges := Holds.join holds_edgeLine g.edges
  obtain ⟨tokens, hTokens, hStatements⟩ := (hSettings.append hNodes).append hEdges
  have hText := hOpen.append (hTokens.append hClose)
  have hSame : "digraph categories \x7b\n" ++ (body ++ String.join (g.nodes.map (nodeLine link)) ++
      String.join (g.edges.map edgeLine) ++ "\x7d\n") = text link g := by
    simp only [text, hHeading, String.append_assoc]
  have hBody : statements? [] (tokens ++ [.mark '\x7d']) = some (statements link g) := by
    rw [hStatements _ (List.cons_ne_nil _ _), statements?, Option.map_some, List.append_nil, statements]
  have hKind : Text.lowerAscii "digraph" = "digraph" := by decide
  have hName : (Token.word "categories").name? = some "categories" := by decide
  rw [hSame, ReadsAs] at hText
  rw [read?, hText]
  simp only [List.cons_append, List.nil_append, document?]
  rw [if_pos hKind, hName, hBody]
  rfl

theorem nodeStatement_injective (link : String → String) : Function.Injective (nodeStatement link) := by
  rintro ⟨name, rules⟩ ⟨name', rules'⟩ hSame
  obtain ⟨hName, hAttributes⟩ := Statement.node.inj hSame
  obtain rfl : name = name' := hName
  have hRules : Text.decimal rules = Text.decimal rules' := by
    simpa [String.append_assoc] using (List.cons.inj hAttributes).1
  rw [Text.decimal_injective hRules]

theorem edgeStatement_injective : Function.Injective edgeStatement := by
  rintro ⟨source, target, cyclic⟩ ⟨source', target', cyclic'⟩ hSame
  obtain ⟨hSource, hTarget, hColor⟩ := Statement.edge.inj hSame
  obtain ⟨rfl, rfl⟩ : source = source' ∧ target = target' := ⟨hSource, hTarget⟩
  have hMark : cyclic = cyclic' := by
    cases cyclic <;> cases cyclic' <;> simp at hColor ⊢
  rw [hMark]

def Statement.isNode : Statement → Bool
  | .node .. => true
  | _ => false

theorem filter_isNode_statements (link : String → String) (g : Graph) :
    (statements link g).filter Statement.isNode = g.nodes.map (nodeStatement link) := by
  have hNode : Statement.isNode ∘ nodeStatement link = fun _ => true := rfl
  have hEdge : Statement.isNode ∘ edgeStatement = fun _ => false := rfl
  have hSettings : [.setting "rankdir" "LR", defaults].filter Statement.isNode = [] := rfl
  rw [statements, List.filter_append, List.filter_append, List.filter_map, List.filter_map, hSettings, hNode,
    hEdge, List.filter_true, List.filter_false, List.map_nil, List.nil_append, List.append_nil]

/-- The nodes are the statements of their kind, and the edges are what comes behind them. -/
theorem statements_injective (link : String → String) : Function.Injective (statements link) := by
  intro g g' hSame
  have hNodes : g.nodes = g'.nodes := by
    have hFiltered := congrArg (List.filter Statement.isNode) hSame
    rw [filter_isNode_statements, filter_isNode_statements] at hFiltered
    exact (nodeStatement_injective link).list_map hFiltered
  have hEdges : g.edges = g'.edges := by
    rw [statements, statements, hNodes, List.append_right_inj] at hSame
    exact edgeStatement_injective.list_map hSame
  obtain ⟨nodes, edges⟩ := g
  obtain ⟨nodes', edges'⟩ := g'
  exact congrArg₂ Graph.mk hNodes hEdges

end Dot

/-- The text with every `old` replaced. -/
def replaceAll (old : Char) (new text : List Char) : List Char :=
  text.flatMap fun c => if c = old then new else [c]

/-- Backslashes are replaced first, so those in front of quotes and for line feeds stay single. -/
theorem flatMap_quoteChar (s : List Char) :
    s.flatMap quoteChar =
      replaceAll '\n' ['\\', 'n'] (replaceAll '"' ['\\', '"'] (replaceAll '\\' ['\\', '\\'] s)) := by
  rw [replaceAll, replaceAll, replaceAll, List.flatMap_assoc, List.flatMap_assoc]
  refine congrArg (List.flatMap · s) (funext fun c => ?_)
  by_cases hBackslash : c = '\\'
  · subst hBackslash
    rfl
  by_cases hQuote : c = '"'
  · subst hQuote
    rfl
  rw [quoteChar, if_neg hBackslash, if_neg hQuote]
  simp [hBackslash, hQuote]

theorem toList_quoted (s : String) :
    (quoted s).toList = '"' :: replaceAll '\n' ['\\', 'n']
      (replaceAll '"' ['\\', '"'] (replaceAll '\\' ['\\', '\\'] s.toList)) ++ ['"'] := by
  rw [quoted, String.toList_ofList, flatMap_quoteChar]

theorem text_injective (link : String → String) : Function.Injective (text link) := by
  intro g g' hSame
  have hRead := congrArg Dot.read? hSame
  rw [Dot.read?_text, Dot.read?_text] at hRead
  exact Dot.statements_injective link (Dot.Document.mk.inj (Option.some.inj hRead)).2

/-- The text of a graph is read as a document that has its settings, then the nodes in order with their
names, labels and links, then the edges in order with their ends and their color, and nothing else. A name is
quoted by three replacements, one after the other, and what is quoted is read as this name, whatever comes
behind it; its literal does not end before the last quote. So two graphs have the same text only when they
are the same. -/
theorem text_reads_back (link : String → String) (g : Graph) :
    Dot.read? (text link g) = some ⟨"categories",
      [.setting "rankdir" "LR",
        .defaults "node" [("shape", "box"), ("style", "rounded"), ("fontname", "Helvetica")]] ++
      (g.nodes.map fun n => .node n.name
        [("label", n.name ++ " (" ++ Text.decimal n.rules ++ ")"), ("URL", link n.name),
          ("target", "_blank")]) ++
      g.edges.map fun e => .edge e.source e.target (if e.cyclic then [("color", "red")] else [])⟩ ∧
    (∀ name : String, (quoted name).toList = '"' :: replaceAll '\n' ['\\', 'n']
      (replaceAll '"' ['\\', '"'] (replaceAll '\\' ['\\', '\\'] name.toList)) ++ ['"']) ∧
    (∀ name rest, Dot.scan .between ((quoted name).toList ++ rest) =
      (Dot.scan .between rest).map (Prod.map (.literal name :: ·) id)) ∧
    (∀ (name : String) (front rest : List Char), front ≠ [] →
      front ++ rest ++ ['"'] = (quoted name).toList →
      ∃ mode, Dot.scan .between front = some ([], mode) ∧ mode.inLiteral = true) ∧
    Function.Injective (text link) :=
  ⟨Dot.read?_text link g, toList_quoted,
    fun name rest => Dot.scan_append_of (Dot.readsAs_quoted name) rest,
    fun _ _ _ => Dot.exists_inLiteral_of_append, text_injective link⟩

/-- A name with a backslash at its end, and one that goes on like an edge. -/
def thorns : Graph :=
  ⟨[⟨"a\\", 1⟩, ⟨"b\" -> \"c\\n\n", 0⟩], [⟨"a\\", "b\" -> \"c\\n\n", false⟩]⟩

/-- The backslash does not take the last quote with it, and the quotes in the other name do not end it. -/
theorem thorns_read_back :
    Dot.read? (text id thorns) = some ⟨"categories",
      [.setting "rankdir" "LR",
        .defaults "node" [("shape", "box"), ("style", "rounded"), ("fontname", "Helvetica")],
        .node "a\\" [("label", "a\\ (1)"), ("URL", "a\\"), ("target", "_blank")],
        .node "b\" -> \"c\\n\n" [("label", "b\" -> \"c\\n\n (0)"), ("URL", "b\" -> \"c\\n\n"),
          ("target", "_blank")],
        .edge "a\\" "b\" -> \"c\\n\n" []]⟩ ∧
    ∃ mode, Dot.scan .between ['"', 'b', '\\', '"'] = some ([], mode) ∧ mode.inLiteral = true := by
  obtain ⟨hRead, -, -, hInside, -⟩ := text_reads_back id thorns
  refine ⟨hRead.trans ?_, hInside "b\"c" _ ['c'] (List.cons_ne_nil _ _) (by decide)⟩
  cbv

end Phrasebook.Graph
