import TwelveD.Proofs.Nesting
import TwelveD.Proofs.Positions
import TwelveD.Tree.Cursor

/-!
# The node under a cursor

The walk of `SyntaxTree.descend` never turns back, and where two children touch at the point it has to
choose. No choice leads away from a node that has the point strictly inside: there the walk ends in that
node or below it. A choice can lead away from a name that starts at the point. It is made among the
children of one node, and a name further down is not among them: a name is lost behind a node that ends
where a larger node with the name starts.
-/

namespace TwelveD

theorem Span.contains_iff {s : Span} {p : Point} :
    s.contains p = true ↔ s.start ≤ p ∧ p ≤ s.stop := by
  simp [Span.contains]

namespace SyntaxTree

variable {t : SyntaxTree} {p : Point} {a c d i j n : Nat}

/-! ## Spans of nested nodes -/

theorem Encloses.lt_size (h : t.Encloses a i) (hi : i < t.size) : a < t.size := by
  rcases h with rfl | ha
  · exact hi
  · exact Nat.lt_trans (lt_of_mem_ancestors ha) hi

theorem WellFormed.span_inside (h : t.WellFormed) (hai : t.Encloses a i) (hi : i < t.size) :
    (t.span a).start ≤ (t.span i).start ∧ (t.span i).stop ≤ (t.span a).stop := by
  have ha := hai.lt_size hi
  obtain ⟨hstart, hstop⟩ := h.inside_of_encloses hai
  exact ⟨(Bytes.pointAt_le_iff (h.start_le_length ha) (h.start_le_length hi)).mpr hstart,
    (Bytes.pointAt_le_iff (h.stop_le_length hi) (h.stop_le_length ha)).mpr hstop⟩

theorem WellFormed.span_siblings (h : t.WellFormed) (hdc : d < c) (hd : t.parent d = some i)
    (hc : t.parent c = some i) : (t.span d).stop ≤ (t.span c).start := by
  have hle := h.siblings_of_parent hdc hd hc
  exact (Bytes.pointAt_le_iff (h.stop_le_length (lt_size_of_parent hd))
    (h.start_le_length (lt_size_of_parent hc))).mpr hle

theorem contains_of_isHit (h : t.isHit p i = true) : (t.span i).contains p = true := by
  rw [isHit, Bool.and_eq_true] at h
  exact h.2

theorem WellFormed.isHit_iff (h : t.WellFormed) : t.isHit p i = true ↔
    i < t.size ∧ (t.span i).start < (t.span i).stop ∧ (t.span i).start ≤ p ∧ p ≤ (t.span i).stop := by
  by_cases hi : i < t.size
  · have hstart := h.start_le_length hi
    have hstop := h.stop_le_length hi
    have hle := h.start_le_stop i hi
    have hempty : (t.span i).start = (t.span i).stop ↔ ¬ (t.span i).start < (t.span i).stop := by
      rw [span, Bytes.pointAt_inj hstart hstop, Bytes.pointAt_lt_iff hstart hstop]
      omega
    simp [isHit, Span.isEmpty, Span.contains_iff, hempty, hi]
  · have hblank : t.node i = Node.blank := by
      rw [node, Array.getElem?_eq_none (Nat.le_of_not_lt hi)]
      rfl
    simp [isHit, Span.isEmpty, span, hblank, Node.blank, hi]

theorem WellFormed.isHit_of_encloses (h : t.WellFormed) (hai : t.Encloses a i)
    (hi : t.isHit p i = true) : t.isHit p a = true := by
  obtain ⟨hsize, hlt, hstart, hstop⟩ := h.isHit_iff.mp hi
  obtain ⟨hstart', hstop'⟩ := h.span_inside hai hsize
  rw [h.isHit_iff]
  simp only [Point.lt_iff, Point.le_iff] at *
  exact ⟨hai.lt_size hsize, by omega, by omega, by omega⟩

/-! ## One step of the walk -/

theorem isHit_of_childAt? (h : t.childAt? p i = some c) :
    t.parent c = some i ∧ t.isHit p c = true := by
  have hmem : c ∈ (t.children i).filter (t.isHit p) := by
    rcases Option.or_eq_some_iff.mp h with h | ⟨-, h⟩
    · exact List.mem_of_find?_eq_some h
    · exact List.mem_of_head? h
  obtain ⟨hc, hhit⟩ := List.mem_filter.mp hmem
  exact ⟨(mem_children.mp hc).2, hhit⟩

/-- The walk steps to an identifier if there is one to step to, and else to the first child. -/
theorem childAt?_cases (h : t.childAt? p i = some c) : t.kind c = .identifier ∨
    ∀ d, t.parent d = some i → t.isHit p d = true → t.kind d ≠ .identifier ∧ c ≤ d := by
  have hmem : ∀ d, t.parent d = some i → t.isHit p d = true →
      d ∈ (t.children i).filter (t.isHit p) := by
    intro d hd hhit
    exact List.mem_filter.mpr ⟨mem_children.mpr ⟨lt_size_of_parent hd, hd⟩, hhit⟩
  rcases Option.or_eq_some_iff.mp h with h | ⟨hnone, hhead⟩
  · exact Or.inl (by simpa using List.find?_some h)
  · right
    intro d hd hhit
    refine ⟨by simpa using List.find?_eq_none.mp hnone d (hmem d hd hhit), ?_⟩
    obtain ⟨rest, hrest⟩ := List.head?_eq_some_iff.mp hhead
    have hsorted : (c :: rest).Pairwise (· < ·) := hrest ▸ (children_pairwise t i).filter _
    have hd' := hmem d hd hhit
    rw [hrest] at hd'
    rcases List.mem_cons.mp hd' with rfl | hd'
    · exact Nat.le_refl d
    · exact Nat.le_of_lt ((List.pairwise_cons.mp hsorted).1 d hd')

theorem childAt?_eq_none_iff :
    t.childAt? p i = none ↔ ∀ c, t.parent c = some i → t.isHit p c = false := by
  constructor
  · intro h c hc
    have hnil := List.head?_eq_none_iff.mp (Option.or_eq_none_iff.mp h).2
    have hmem : c ∈ t.children i := mem_children.mpr ⟨lt_size_of_parent hc, hc⟩
    simpa using List.filter_eq_nil_iff.mp hnil c hmem
  · intro h
    cases hc : t.childAt? p i with
    | none => rfl
    | some c =>
      obtain ⟨hparent, hhit⟩ := isHit_of_childAt? hc
      rw [h c hparent] at hhit
      cases hhit

/-! ## The whole walk -/

/-- What every step of the walk keeps holds where the walk ends. -/
theorem descend_induction {P : Nat → Prop}
    (hstep : ∀ j c, t.childAt? p j = some c → P j → P c) (hi : P i) : P (t.descend p i) := by
  fun_induction t.descend p i with
  | case1 i hnone => exact hi
  | case2 i c hc _ ih => exact ih (hstep i c hc hi)

theorem childAt?_descend (t : SyntaxTree) (p : Point) (i : Nat) :
    t.childAt? p (t.descend p i) = none := by
  fun_induction t.descend p i with
  | case1 i hnone => exact hnone
  | case2 i c hc _ ih => exact ih

/-- Steps from node to node that cannot go on are the whole walk. -/
theorem descend_of_path (path : List Nat)
    (hsteps : (i :: path).IsChain fun j c => t.childAt? p j = some c)
    (hend : t.childAt? p (path.getLastD i) = none) : t.descend p i = path.getLastD i := by
  induction path generalizing i with
  | nil => exact descend_of_childAt?_eq_none hend
  | cons c path ih =>
    obtain ⟨hstep, hrest⟩ := List.isChain_cons_cons.mp hsteps
    rw [List.getLastD_cons] at hend ⊢
    rw [descend_of_childAt?_eq_some hstep, ih hrest hend]

theorem nodeAt?_of_path (path : List Nat) (hroot : (t.span root).contains p = true)
    (hsteps : (root :: path).IsChain fun j c => t.childAt? p j = some c)
    (hend : t.childAt? p (path.getLastD root) = none) : t.nodeAt? p = some (path.getLastD root) := by
  rw [nodeAt?, if_pos hroot, descend_of_path path hsteps hend]

theorem encloses_descend (t : SyntaxTree) (p : Point) (i : Nat) : t.Encloses i (t.descend p i) := by
  refine descend_induction (P := t.Encloses i) ?_ (encloses_refl t i)
  intro j c hc hj
  exact hj.parent (isHit_of_childAt? hc).1

theorem contains_descend (hi : (t.span i).contains p = true) :
    (t.span (t.descend p i)).contains p = true := by
  refine descend_induction (P := fun j => (t.span j).contains p = true) ?_ hi
  intro j c hc _
  exact contains_of_isHit (isHit_of_childAt? hc).2

theorem isHit_descend (hi : t.isHit p i = true) : t.isHit p (t.descend p i) = true := by
  refine descend_induction (P := fun j => t.isHit p j = true) ?_ hi
  intro j c hc _
  exact (isHit_of_childAt? hc).2

/-- The walk does not end above a node that is hit. -/
theorem WellFormed.descend_eq_of_encloses (h : t.WellFormed) (hn : t.isHit p n = true)
    (henc : t.Encloses (t.descend p i) n) : t.descend p i = n := by
  rcases henc with heq | hmem
  · exact heq
  · obtain ⟨c, hc, hcn⟩ := exists_child_encloses hmem
    have hmiss := childAt?_eq_none_iff.mp (childAt?_descend t p i) c hc
    rw [h.isHit_of_encloses hcn hn] at hmiss
    cases hmiss

/-! ## Points inside a node -/

/-- The point lies behind the start of a node and before its end. -/
def IsInside (t : SyntaxTree) (p : Point) (n : Nat) : Prop :=
  (t.span n).start < p ∧ p < (t.span n).stop

theorem WellFormed.isHit_of_isInside (h : t.WellFormed) (hn : n < t.size) (hp : t.IsInside p n) :
    t.isHit p n = true := by
  obtain ⟨hstart, hstop⟩ := hp
  rw [h.isHit_iff]
  simp only [Point.lt_iff, Point.le_iff] at *
  exact ⟨hn, by omega, by omega, by omega⟩

/-- Beside a node with the point inside no other child of its parent is hit. -/
theorem WellFormed.eq_of_isInside (h : t.WellFormed) (hn : n < t.size) (hp : t.IsInside p n)
    (hcn : t.Encloses c n) (hc : t.parent c = some i) (hd : t.parent d = some i)
    (hhit : t.isHit p d = true) : d = c := by
  obtain ⟨hstart, hstop⟩ := hp
  obtain ⟨hstart', hstop'⟩ := h.span_inside hcn hn
  obtain ⟨-, -, hd1, hd2⟩ := h.isHit_iff.mp hhit
  rcases Nat.lt_trichotomy d c with hlt | heq | hlt
  · have hle := h.span_siblings hlt hd hc
    simp only [Point.lt_iff, Point.le_iff] at *
    omega
  · exact heq
  · have hle := h.span_siblings hlt hc hd
    simp only [Point.lt_iff, Point.le_iff] at *
    omega

/-- The walk passes every node that has the point inside. -/
theorem WellFormed.descend_eq_of_isInside (h : t.WellFormed) (hn : n < t.size) (hp : t.IsInside p n)
    (hin : t.Encloses i n) : t.descend p i = t.descend p n := by
  have hhit := h.isHit_of_isInside hn hp
  fun_induction t.descend p i with
  | case1 i hnone =>
    have hend : t.descend p i = i := descend_of_childAt?_eq_none hnone
    have heq := h.descend_eq_of_encloses hhit (hend.symm ▸ hin)
    rw [← heq, hend, hend]
  | case2 i c hc _ ih =>
    obtain ⟨hparent, hchit⟩ := isHit_of_childAt? hc
    rcases hin with rfl | hmem
    · exact (descend_of_childAt?_eq_some hc).symm
    · obtain ⟨d, hd, hdn⟩ := exists_child_encloses hmem
      obtain rfl := h.eq_of_isInside hn hp hdn hd hparent hchit
      exact ih hdn

/-- There is a node under the point exactly if the root contains the point. This node and all nodes
    around it contain the point, none of its children with text does, and it lies in every node that has
    the point inside. -/
theorem nodeAt?_deepest (t : SyntaxTree) (h : t.WellFormed) (p : Point) :
    (t.nodeAt? p = none ↔ (t.span root).contains p = false) ∧
    ∀ i, t.nodeAt? p = some i → i < t.size ∧
      (∀ a, a = i ∨ a ∈ t.ancestors i → (t.span a).contains p = true) ∧
      (∀ c ∈ t.children i, (t.span c).isEmpty = false → (t.span c).contains p = false) ∧
      ∀ n < t.size, (t.span n).start < p → p < (t.span n).stop → n = i ∨ n ∈ t.ancestors i := by
  refine ⟨by simp [nodeAt?], ?_⟩
  intro i hi
  rw [nodeAt?] at hi
  split at hi
  · rename_i hroot
    obtain rfl := Option.some.inj hi
    have hsize : t.descend p root < t.size := by
      refine descend_induction (P := (· < t.size)) ?_ h.root.1
      intro j c hc _
      exact lt_size_of_parent (isHit_of_childAt? hc).1
    obtain ⟨hstart, hstop⟩ := Span.contains_iff.mp (contains_descend hroot)
    refine ⟨hsize, ?_, ?_, ?_⟩
    · intro a ha
      obtain ⟨hstart', hstop'⟩ := h.span_inside ha hsize
      exact Span.contains_iff.mpr ⟨Point.le_trans hstart' hstart, Point.le_trans hstop hstop'⟩
    · intro c hc hempty
      have hmiss := childAt?_eq_none_iff.mp (childAt?_descend t p root) c (mem_children.mp hc).2
      simpa [isHit, hempty] using hmiss
    · intro n hn hstart' hstop'
      have hpass := h.descend_eq_of_isInside hn ⟨hstart', hstop'⟩ (h.root_encloses hn)
      rw [hpass]
      exact encloses_descend t p n
  · cases hi

/-- A function that returns a pointer. -/
def starredName : SyntaxTree where
  source := Bytes.ofString "Integer *P() \x7b\x7d\n"
  nodes := #[⟨.translationUnit, none, 0, 16, none⟩, ⟨.functionDefinition, none, 0, 15, some 0⟩,
    ⟨.other "type_identifier", some .type, 0, 7, some 1⟩,
    ⟨.pointerDeclarator, some .declarator, 8, 12, some 1⟩, ⟨.other "*", none, 8, 9, some 3⟩,
    ⟨.functionDeclarator, some .declarator, 9, 12, some 3⟩,
    ⟨.identifier, some .declarator, 9, 10, some 5⟩,
    ⟨.other "parameter_list", some .parameters, 10, 12, some 5⟩, ⟨.openParen, none, 10, 11, some 7⟩,
    ⟨.closeParen, none, 11, 12, some 7⟩, ⟨.compoundStatement, some .body, 13, 15, some 1⟩,
    ⟨.other "\x7b", none, 13, 14, some 10⟩, ⟨.closeBrace, none, 14, 15, some 10⟩]
  linksBack := by decide

theorem starredName_wellFormed : starredName.WellFormed := by decide

theorem starredName_nodeAt? : starredName.nodeAt? ⟨0, 9⟩ = some 4 :=
  nodeAt?_of_path [1, 3, 4] (by decide) (by decide +kernel) (by decide +kernel)

/-- Between the star and the name the walk ends in the star, below the pointer declarator around both. -/
theorem nodeAt?_deepest_starredName : starredName.WellFormed ∧
    starredName.nodeAt? ⟨0, 9⟩ = some 4 ∧ starredName.IsInside ⟨0, 9⟩ 3 ∧
    (3 = 4 ∨ 3 ∈ starredName.ancestors 4) := by
  have hinside : starredName.IsInside ⟨0, 9⟩ 3 := by
    unfold IsInside
    decide
  obtain ⟨-, hfound⟩ := nodeAt?_deepest starredName starredName_wellFormed ⟨0, 9⟩
  obtain ⟨-, -, -, hdeep⟩ := hfound 4 starredName_nodeAt?
  exact ⟨starredName_wellFormed, starredName_nodeAt?, hinside,
    hdeep 3 (by decide) hinside.1 hinside.2⟩

/-! ## Names that start at the point -/

/-- No node is below an identifier: an identifier is a single token. -/
def IdentifiersAreTokens (t : SyntaxTree) : Prop :=
  ∀ c < t.size, ∀ i ∈ t.parent c, t.kind i ≠ .identifier

/-- Before a node that encloses `i`, and is not `i` itself, stands another child of the same parent that
    is hit. -/
def IsScreened (t : SyntaxTree) (p : Point) (i : Nat) : Prop :=
  ∃ c ∈ t.ancestors i, ∃ d < c, t.parent d = t.parent c ∧ t.isHit p d = true

theorem IdentifiersAreTokens.kind_ne (h : t.IdentifiersAreTokens) (hc : t.parent c = some i) :
    t.kind i ≠ .identifier :=
  h c (lt_size_of_parent hc) i hc

/-! A node `d` that is hit stands before `c`, and `c` is around `i`, which is hit too. -/

section Screened

variable (h : t.WellFormed) (hi : t.isHit p i = true) (hci : c ∈ t.ancestors i) (hdc : d < c)
  (hc : t.parent c = some j) (hd : t.parent d = some j) (hhit : t.isHit p d = true)

include h hi hci hdc hc hd hhit

theorem points_of_screened : (t.span d).stop = p ∧ (t.span i).start = p := by
  obtain ⟨hsize, -, hstart, -⟩ := h.isHit_iff.mp hi
  obtain ⟨-, -, -, hstop⟩ := h.isHit_iff.mp hhit
  have hle := h.span_siblings hdc hd hc
  have hle' := (h.span_inside (Or.inr hci) hsize).1
  refine ⟨Point.le_antisymm ?_ hstop, Point.le_antisymm hstart ?_⟩
  · exact Point.le_trans hle (Point.le_trans hle' hstart)
  · exact Point.le_trans hstop (Point.le_trans hle hle')

theorem lt_stop_of_screened : p < (t.span c).stop := by
  obtain ⟨-, hname⟩ := points_of_screened h hi hci hdc hc hd hhit
  obtain ⟨hsize, hlt, -, -⟩ := h.isHit_iff.mp hi
  have hle := (h.span_inside (Or.inr hci) hsize).2
  rw [hname] at hlt
  simp only [Point.lt_iff, Point.le_iff] at *
  omega

/-- The parent has the point inside, since `d` ends there and `c` starts there. -/
theorem isInside_of_screened : t.IsInside p j := by
  obtain ⟨hstop, -⟩ := points_of_screened h hi hci hdc hc hd hhit
  have hlt := lt_stop_of_screened h hi hci hdc hc hd hhit
  obtain ⟨-, hlt', -, -⟩ := h.isHit_iff.mp hhit
  have hle := (h.span_inside (encloses_parent hc) (lt_size_of_parent hc)).2
  have hle' := (h.span_inside (encloses_parent hd) (lt_size_of_parent hd)).1
  rw [hstop] at hlt'
  unfold IsInside
  simp only [Point.lt_iff, Point.le_iff] at *
  omega

/-- From the parent the walk steps to a node before `c`. -/
theorem exists_childAt?_of_screened (htokens : t.IdentifiersAreTokens) :
    ∃ x < c, t.childAt? p j = some x := by
  cases hx : t.childAt? p j with
  | none =>
    rw [childAt?_eq_none_iff.mp hx d hd] at hhit
    cases hhit
  | some x =>
    refine ⟨x, ?_, rfl⟩
    rcases childAt?_cases hx with hident | hfirst
    · obtain ⟨below, hbelow, -⟩ := exists_child_encloses hci
      have hne : x ≠ c := by
        rintro rfl
        exact htokens.kind_ne hbelow hident
      by_contra hle
      have hlt : c < x := by omega
      obtain ⟨hparent, hxhit⟩ := isHit_of_childAt? hx
      obtain ⟨-, -, hstart, -⟩ := h.isHit_iff.mp hxhit
      have hsibling := h.span_siblings hlt hc hparent
      have hstop := lt_stop_of_screened h hi hci hdc hc hd hhit
      simp only [Point.lt_iff, Point.le_iff] at *
      omega
    · exact Nat.lt_of_le_of_lt (hfirst d hd hhit).2 hdc

end Screened

theorem WellFormed.exists_of_isScreened (h : t.WellFormed) (hi : i < t.size)
    (hscreen : t.IsScreened p i) : ∃ j c d, c ∈ t.ancestors i ∧ d < c ∧ t.parent c = some j ∧
      t.parent d = some j ∧ t.isHit p d = true := by
  obtain ⟨c, hci, d, hdc, hparent, hhit⟩ := hscreen
  obtain ⟨j, hj⟩ := h.exists_parent (Encloses.lt_size (Or.inr hci) hi) (Nat.zero_lt_of_lt hdc)
  exact ⟨j, c, d, hci, hdc, hj, hparent.trans hj, hhit⟩

theorem WellFormed.start_eq_of_isScreened (h : t.WellFormed) (hi : t.isHit p i = true)
    (hscreen : t.IsScreened p i) : (t.span i).start = p := by
  obtain ⟨j, c, d, hci, hdc, hc, hd, hhit⟩ := h.exists_of_isScreened (h.isHit_iff.mp hi).1 hscreen
  exact (points_of_screened h hi hci hdc hc hd hhit).2

/-- The walk finds an identifier if nothing stands before the nodes around some identifier. -/
theorem WellFormed.kind_descend_of_not_isScreened (h : t.WellFormed) (htokens : t.IdentifiersAreTokens)
    (hkind : t.kind i = .identifier) (hi : t.isHit p i = true) (hscreen : ¬ t.IsScreened p i)
    (hin : t.Encloses a i) : t.kind (t.descend p a) = .identifier := by
  have hwalk : t.kind (t.descend p a) = .identifier ∨ t.Encloses (t.descend p a) i := by
    refine descend_induction (P := fun j => t.kind j = .identifier ∨ t.Encloses j i) ?_ (Or.inr hin)
    intro j x hx hj
    obtain ⟨hparent, hhit⟩ := isHit_of_childAt? hx
    rcases hj.resolve_left (htokens.kind_ne hparent) with rfl | hmem
    · exact absurd hkind (htokens.kind_ne hparent)
    · obtain ⟨c, hc, hci⟩ := exists_child_encloses hmem
      rcases childAt?_cases hx with hident | hfirst
      · exact Or.inl hident
      · obtain ⟨hne, hle⟩ := hfirst c hc (h.isHit_of_encloses hci hi)
        right
        rcases Nat.lt_or_eq_of_le hle with hlt | rfl
        · -- the step would go to a node that stands before `c`
          rcases hci with rfl | hci
          · exact absurd hkind hne
          · exact absurd ⟨c, hci, x, hlt, hparent.trans hc.symm, hhit⟩ hscreen
        · exact hci
  rcases hwalk with hident | henc
  · exact hident
  · rw [h.descend_eq_of_encloses hi henc]
    exact hkind

/-- The walk turns to what stands before a name, where every identifier at the point starts there. -/
theorem WellFormed.kind_descend_of_isScreened (h : t.WellFormed) (htokens : t.IdentifiersAreTokens)
    (hi : t.isHit p i = true) (hscreen : t.IsScreened p i)
    (hnames : ∀ j, t.kind j = .identifier → t.isHit p j = true → (t.span j).start = p) :
    t.kind (t.descend p SyntaxTree.root) ≠ .identifier := by
  obtain ⟨j, c, d, hci, hdc, hc, hd, hhit⟩ := h.exists_of_isScreened (h.isHit_iff.mp hi).1 hscreen
  obtain ⟨x, hxc, hx⟩ := exists_childAt?_of_screened h hi hci hdc hc hd hhit htokens
  obtain ⟨hparent, hxhit⟩ := isHit_of_childAt? hx
  have hxstop := (points_of_screened h hi hci hxc hc hparent hxhit).1
  have hinside := isInside_of_screened h hi hci hdc hc hd hhit
  have hj : j < t.size := Nat.lt_trans (parent_lt hc) (lt_size_of_parent hc)
  rw [h.descend_eq_of_isInside hj hinside (h.root_encloses hj), descend_of_childAt?_eq_some hx]
  -- where the walk ends there is some text that ends at the point, so an identifier would start before it
  intro hident
  have hend := isHit_descend hxhit
  obtain ⟨hsize, hlt, -, -⟩ := h.isHit_iff.mp hend
  have hle := (h.span_inside (encloses_descend t p x) hsize).2
  rw [hnames _ hident hend] at hlt
  rw [hxstop] at hle
  exact Point.not_lt.mpr hle hlt

/-- A name under the point is lost exactly if all names there start at the point, and before one of the
    larger nodes around it stands another node that ends there. -/
theorem name_lost_iff_screened (t : SyntaxTree) (h : t.WellFormed) (htokens : t.IdentifiersAreTokens)
    (p : Point) (i : Nat) (hkind : t.kind i = .identifier) (hi : t.isHit p i = true) :
    t.identifierAt? p = none ↔ t.IsScreened p i ∧
      ∀ j, t.kind j = .identifier → t.isHit p j = true → (t.span j).start = p := by
  have hroot : (t.span root).contains p = true :=
    contains_of_isHit (h.isHit_of_encloses (h.root_encloses (h.isHit_iff.mp hi).1) hi)
  have hlost : t.identifierAt? p = none ↔ t.kind (t.descend p root) ≠ .identifier := by
    simp [identifierAt?, nodeAt?, hroot]
  rw [hlost]
  constructor
  · intro hne
    have hscreened : ∀ j, t.kind j = .identifier → t.isHit p j = true → t.IsScreened p j := by
      intro j hj hhit
      by_contra hscreen
      exact hne (h.kind_descend_of_not_isScreened htokens hj hhit hscreen
        (h.root_encloses (h.isHit_iff.mp hhit).1))
    exact ⟨hscreened i hkind hi,
      fun j hj hhit => h.start_eq_of_isScreened hhit (hscreened j hj hhit)⟩
  · rintro ⟨hscreen, hnames⟩
    exact h.kind_descend_of_isScreened htokens hi hscreen hnames

theorem starredName_identifiersAreTokens : starredName.IdentifiersAreTokens := by
  unfold IdentifiersAreTokens
  decide

/-- Behind its last character the name is found, although the parenthesis starts there. -/
theorem name_lost_iff_screened_starredName : starredName.WellFormed ∧
    starredName.IdentifiersAreTokens ∧ starredName.kind 6 = .identifier ∧
    starredName.isHit ⟨0, 10⟩ 6 = true ∧ starredName.identifierAt? ⟨0, 10⟩ ≠ none := by
  have hhit : starredName.isHit ⟨0, 10⟩ 6 = true := by decide
  refine ⟨starredName_wellFormed, starredName_identifiersAreTokens, by decide, hhit, ?_⟩
  intro hlost
  obtain ⟨-, hnames⟩ := (name_lost_iff_screened starredName starredName_wellFormed
    starredName_identifiersAreTokens ⟨0, 10⟩ 6 (by decide) hhit).mp hlost
  exact absurd (hnames 6 (by decide) hhit) (by decide)

/-- Before its first character the name is lost to the star. -/
theorem name_lost_behind_star : starredName.WellFormed ∧ starredName.IdentifiersAreTokens ∧
    starredName.kind 6 = .identifier ∧ (starredName.span 6).isEmpty = false ∧
    (starredName.span 6).contains ⟨0, 9⟩ = true ∧ starredName.identifierAt? ⟨0, 9⟩ = none := by
  refine ⟨starredName_wellFormed, starredName_identifiersAreTokens, by decide, by decide, by decide, ?_⟩
  rw [identifierAt?, starredName_nodeAt?]
  decide

end SyntaxTree

end TwelveD
