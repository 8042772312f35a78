import TwelveD.Tree.Basic
import TwelveD.Tree.Grammar

/-!
# Queries

A query asks for all nodes of a kind, optionally with a given text, and binds each of them to a
name. In the text form of a query the wanted text is a string literal; `Literal.quote` writes one
and `Literal.scan` reads one.
-/

namespace TwelveD

/-- A question for nodes. -/
structure Query where
  /-- The name of the wanted kind. -/
  kind : String
  /-- The name under which a found node is bound. -/
  capture : String
  /-- The text that a node must have, if any is asked for. -/
  text : Option String
  deriving DecidableEq, Repr

/-- A node bound to a name. -/
structure Capture where
  name : String
  node : Nat
  deriving DecidableEq, Repr

/-- One answer to a query: the nodes it binds, in the order the query names them. -/
structure Match where
  captures : List Capture
  deriving DecidableEq, Repr

namespace Match

/-- The first node bound to a name. -/
def capture? (m : Match) (name : String) : Option Nat :=
  (m.captures.find? fun c => c.name == name).map Capture.node

end Match

/-- Why a query cannot be asked. -/
inductive QueryError where
  /-- The grammar has no such kind. -/
  | unknownKind (kind : String)
  deriving DecidableEq, Repr

namespace SyntaxTree

/-- Nodes sorted by start offset; nodes with one start keep their order. -/
def inTextOrder (t : SyntaxTree) (ids : List Nat) : List Nat :=
  ids.mergeSort fun i j => (t.node i).start ≤ (t.node j).start

/-- All answers to a query, in text order. -/
def query (t : SyntaxTree) (q : Query) : Except QueryError (List Match) :=
  if Grammar.isKind q.kind then
    let found := t.allNodes.filter fun i =>
      t.kind i == Kind.ofName q.kind && q.text.all (· == t.text i)
    .ok ((t.inTextOrder found).map fun i => ⟨[⟨q.capture, i⟩]⟩)
  else .error (.unknownKind q.kind)

end SyntaxTree

namespace Query.Literal

/-- How a character is written inside a literal. -/
def escape : Char → List Char
  | '"' => ['\\', '"']
  | '\\' => ['\\', '\\']
  | '\n' => ['\\', 'n']
  | c => [c]

/-- A text as a string literal. -/
def quote (s : List Char) : List Char := '"' :: s.flatMap escape ++ ['"']

/-- The character that a letter behind a backslash stands for. -/
def unescape : Char → Char
  | 'n' => '\n'
  | 'r' => '\r'
  | 't' => '\t'
  | '0' => '\x00'
  | c => c

/-- Reads a literal after its opening quote: the text and what follows the closing quote. A line
    feed may not stand in a literal, and a literal has to be closed. -/
def scanRest : List Char → Option (List Char × List Char)
  | [] => none
  | '"' :: rest => some ([], rest)
  | '\n' :: _ => none
  | '\\' :: c :: rest => (scanRest rest).map fun (s, r) => (unescape c :: s, r)
  | '\\' :: [] => none
  | c :: rest => (scanRest rest).map fun (s, r) => (c :: s, r)

/-- Reads a literal at the start of a text: its value and what follows it. -/
def scan : List Char → Option (List Char × List Char)
  | '"' :: rest => scanRest rest
  | _ => none

end Query.Literal

end TwelveD
