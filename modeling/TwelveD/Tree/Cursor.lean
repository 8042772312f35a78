import TwelveD.Tree.Basic

/-!
# The node under a cursor

`nodeAt?` walks from the root to ever smaller nodes around a point. Where two children touch at the
point, as the end of a word and the start of the next token do, an identifier is preferred and
otherwise the earlier child.
-/

namespace TwelveD.SyntaxTree

/-- Whether a node covers some text and contains the point. -/
def isHit (t : SyntaxTree) (p : Point) (i : Nat) : Bool :=
  !(t.span i).isEmpty && (t.span i).contains p

/-- The child of `i` to step to on the way to a point. -/
def childAt? (t : SyntaxTree) (p : Point) (i : Nat) : Option Nat :=
  let hits := (t.children i).filter (t.isHit p)
  (hits.find? fun c => t.kind c == .identifier).or hits.head?

theorem mem_children_of_childAt? {t : SyntaxTree} {p : Point} {i c : Nat}
    (h : t.childAt? p i = some c) : c ∈ t.children i := by
  rcases Option.or_eq_some_iff.mp h with h | ⟨_, h⟩
  · exact (List.mem_filter.mp (List.mem_of_find?_eq_some h)).1
  · exact (List.mem_filter.mp (List.mem_of_head? h)).1

/-- The smallest node reached from `i` by stepping towards a point. -/
def descend (t : SyntaxTree) (p : Point) (i : Nat) : Nat :=
  match h : t.childAt? p i with
  | none => i
  | some c =>
    have := lt_of_mem_children (mem_children_of_childAt? h)
    t.descend p c
termination_by t.size - i

theorem descend_of_childAt?_eq_some {t : SyntaxTree} {p : Point} {i c : Nat}
    (h : t.childAt? p i = some c) : t.descend p i = t.descend p c := by
  rw [descend]
  split <;> simp_all

theorem descend_of_childAt?_eq_none {t : SyntaxTree} {p : Point} {i : Nat}
    (h : t.childAt? p i = none) : t.descend p i = i := by
  rw [descend]
  split <;> simp_all

/-- The smallest node around a point; none if the point lies outside the root. -/
def nodeAt? (t : SyntaxTree) (p : Point) : Option Nat :=
  if (t.span root).contains p then some (t.descend p root) else none

/-- The identifier under a point. -/
def identifierAt? (t : SyntaxTree) (p : Point) : Option Nat :=
  (t.nodeAt? p).filter fun i => t.kind i == .identifier

end TwelveD.SyntaxTree
