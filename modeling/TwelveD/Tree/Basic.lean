import TwelveD.Text.Position
import TwelveD.Tree.Kind

/-!
# Syntax trees

A `SyntaxTree` is a document's text with the table of its nodes. A node is addressed by its place
in the table, a number, and names its parent, which always stands earlier: walks upwards
(`ancestors`) and downwards (`preorder`) end for that reason alone. Children, rows and columns are
not stored but follow from the table and the text.
-/

namespace TwelveD

/-- A node of a syntax tree. -/
structure Node where
  /-- What the grammar calls the node. -/
  kind : Kind
  /-- The node's role under its parent. -/
  field : Option Field
  /-- The byte offset at which the node starts. -/
  start : Nat
  /-- The byte offset just past the node. -/
  stop : Nat
  /-- The enclosing node; the root has none. -/
  parent : Option Nat
  deriving DecidableEq, Repr

/-- What stands for a node outside the table: it has no kind, no text and no parent. -/
def Node.blank : Node := ⟨.other "", none, 0, 0, none⟩

/-- Whether a row of the table, at place `i`, names an earlier row as its parent. -/
def Node.LinksBack (n : Node) (i : Nat) : Prop := ∀ p ∈ n.parent, p < i

instance (n : Node) (i : Nat) : Decidable (n.LinksBack i) :=
  inferInstanceAs (Decidable (∀ p ∈ n.parent, p < i))

/-- A parsed document. -/
structure SyntaxTree where
  /-- The text that was parsed. -/
  source : Bytes
  /-- The nodes. -/
  nodes : Array Node
  /-- A parent stands before its children. -/
  linksBack : ∀ i (h : i < nodes.size), nodes[i].LinksBack i

namespace SyntaxTree

/-- The tree with the given text and nodes, if every node names an earlier one as its parent. -/
def ofNodes? (source : Bytes) (nodes : Array Node) : Option SyntaxTree :=
  if h : ∀ i (h : i < nodes.size), nodes[i].LinksBack i then some ⟨source, nodes, h⟩ else none

/-- The tree of a text that has not been parsed: the root alone. -/
def bare (source : Bytes) : SyntaxTree where
  source := source
  nodes := #[⟨.translationUnit, none, 0, source.length, none⟩]
  linksBack := by
    intro i h p hp
    obtain rfl : i = 0 := by simpa using h
    simp at hp

/-- The number of nodes. -/
def size (t : SyntaxTree) : Nat := t.nodes.size

/-- The node at a place of the table. -/
def node (t : SyntaxTree) (i : Nat) : Node := (t.nodes[i]?).getD Node.blank

/-- The root, which encloses all other nodes. -/
def root : Nat := 0

/-- The kind of a node. -/
def kind (t : SyntaxTree) (i : Nat) : Kind := (t.node i).kind

/-- The role of a node under its parent. -/
def field (t : SyntaxTree) (i : Nat) : Option Field := (t.node i).field

/-- Rows and columns of a node. -/
def span (t : SyntaxTree) (i : Nat) : Span :=
  ⟨t.source.pointAt (t.node i).start, t.source.pointAt (t.node i).stop⟩

/-- The text of a node. -/
def text (t : SyntaxTree) (i : Nat) : String :=
  t.source.textBetween (t.node i).start (t.node i).stop

/-- The enclosing node. -/
def parent (t : SyntaxTree) (i : Nat) : Option Nat := (t.node i).parent

theorem parent_lt {t : SyntaxTree} {i p : Nat} (h : t.parent i = some p) : p < i := by
  unfold parent node at h
  by_cases hi : i < t.nodes.size
  · rw [Array.getElem?_eq_getElem hi] at h
    exact t.linksBack i hi p h
  · rw [Array.getElem?_eq_none (Nat.le_of_not_lt hi)] at h
    cases h

/-- The nodes directly below a node, in the order of the table. -/
def children (t : SyntaxTree) (i : Nat) : List Nat :=
  (List.range t.size).filter fun c => t.parent c == some i

theorem mem_children {t : SyntaxTree} {i c : Nat} :
    c ∈ t.children i ↔ c < t.size ∧ t.parent c = some i := by
  simp [children]

theorem lt_of_mem_children {t : SyntaxTree} {i c : Nat} (h : c ∈ t.children i) :
    i < c ∧ c < t.size :=
  ⟨parent_lt (mem_children.mp h).2, (mem_children.mp h).1⟩

/-- The first child that plays the role `f`. -/
def child? (t : SyntaxTree) (i : Nat) (f : Field) : Option Nat :=
  (t.children i).find? fun c => t.field c == some f

/-- All children that play the role `f`. -/
def childrenOf (t : SyntaxTree) (i : Nat) (f : Field) : List Nat :=
  (t.children i).filter fun c => t.field c == some f

/-- The enclosing nodes, innermost first. -/
def ancestors (t : SyntaxTree) (i : Nat) : List Nat :=
  match h : t.parent i with
  | none => []
  | some p =>
    have := parent_lt h
    p :: t.ancestors p
termination_by i

theorem ancestors_of_parent_eq_none {t : SyntaxTree} {i : Nat} (h : t.parent i = none) :
    t.ancestors i = [] := by
  rw [ancestors]
  split
  · rfl
  · simp_all

theorem ancestors_of_parent_eq_some {t : SyntaxTree} {i p : Nat} (h : t.parent i = some p) :
    t.ancestors i = p :: t.ancestors p := by
  rw [ancestors]
  split <;> simp_all

/-- Whether `a` encloses `i` and is another node. -/
def isAncestor (t : SyntaxTree) (a i : Nat) : Bool := a ∈ t.ancestors i

/-- A node and all nodes below it, each before the nodes below itself. -/
def preorder (t : SyntaxTree) (i : Nat) : List Nat :=
  i :: (t.children i).attach.flatMap fun ⟨c, h⟩ =>
    have := lt_of_mem_children h
    t.preorder c
termination_by t.size - i

theorem preorder_eq (t : SyntaxTree) (i : Nat) :
    t.preorder i = i :: (t.children i).flatMap t.preorder := by
  rw [preorder]
  simp

/-- All nodes, each before the nodes below it. -/
def allNodes (t : SyntaxTree) : List Nat := t.preorder root

/-- The nearest enclosing node of the given kind. -/
def enclosing? (t : SyntaxTree) (i : Nat) (k : Kind) : Option Nat :=
  (t.ancestors i).find? fun a => t.kind a == k

/-- The number of blocks around a node. -/
def blockDepth (t : SyntaxTree) (i : Nat) : Nat :=
  ((t.ancestors i).filter fun a => t.kind a == .compoundStatement).length

/-- The element right before the first occurrence of `x` in a list. -/
def elementBefore (x : Nat) : List Nat → Option Nat
  | a :: b :: rest =>
    if a = x then none else if b = x then some a else elementBefore x (b :: rest)
  | _ => none

/-- The node before a node among the children of their parent. -/
def previousSibling? (t : SyntaxTree) (i : Nat) : Option Nat := do
  elementBefore i (t.children (← t.parent i))

/-- A one-line account of a tree: how many nodes it has and how long its text is. -/
def summary (t : SyntaxTree) : String :=
  "SyntaxTree \x7b nodes: " ++ toString t.size ++ ", source_len: " ++ toString t.source.length ++
    ", .. \x7d"

end SyntaxTree

end TwelveD
