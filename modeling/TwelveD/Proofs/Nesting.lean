import Mathlib.Data.Nat.Init
import Mathlib.Tactic.Common
import TwelveD.Tree.Basic

/-!
# Nesting of nodes

What a parser promises about the nodes of a tree, `SyntaxTree.WellFormed`, and what follows from it
about any two nodes: one of them encloses the other, or they lie apart.
-/

namespace TwelveD

/-- Whether an offset stands between two characters of a text. -/
def Bytes.IsBoundary (bytes : Bytes) (o : Nat) : Prop := ∀ b ∈ bytes[o]?, b.IsUTF8FirstByte

-- What is said of the byte at an offset is decided by that byte, not by going through all bytes.
instance (bytes : Bytes) (o : Nat) (P : UInt8 → Prop) [DecidablePred P] :
    Decidable (∀ b ∈ bytes[o]?, P b) :=
  Option.decidableForallMem _

instance (bytes : Bytes) (o : Nat) : Decidable (bytes.IsBoundary o) :=
  inferInstanceAs (Decidable (∀ b ∈ bytes[o]?, b.IsUTF8FirstByte))

namespace SyntaxTree

/-- The nodes of a tree stand in pre-order in its table. -/
@[mk_iff]
structure InPreorder (t : SyntaxTree) : Prop where
  /-- There is a root, and it is not below any node. -/
  root : 0 < t.size ∧ t.parent root = none
  /-- Each other node has a parent, and what stands between the two in the table is below that
      parent. -/
  between : ∀ i < t.size, 0 < i → ∃ p ∈ t.parent i, ∀ k < i, p < k → ∃ q ∈ t.parent k, p ≤ q

instance (t : SyntaxTree) : Decidable t.InPreorder := decidable_of_iff' _ (inPreorder_iff t)

/-- A tree as parsers make them. Nodes without text are allowed. -/
@[mk_iff]
structure WellFormed (t : SyntaxTree) : Prop extends InPreorder t where
  /-- No node ends before it starts. -/
  start_le_stop : ∀ i < t.size, (t.node i).start ≤ (t.node i).stop
  /-- The nodes are in the text. -/
  root_stop_le : (t.node SyntaxTree.root).stop ≤ t.source.length
  /-- A node lies inside its parent. -/
  inside : ∀ i < t.size, ∀ p ∈ t.parent i,
    (t.node p).start ≤ (t.node i).start ∧ (t.node i).stop ≤ (t.node p).stop
  /-- The children of a node follow one another. -/
  siblings : ∀ j < t.size, ∀ i < j, ∀ p ∈ t.parent j, t.parent i = some p →
    (t.node i).stop ≤ (t.node j).start
  /-- Nodes start and end between characters. -/
  boundary : ∀ i < t.size, t.source.IsBoundary (t.node i).start ∧ t.source.IsBoundary (t.node i).stop

instance (t : SyntaxTree) : Decidable t.WellFormed := decidable_of_iff' _ (wellFormed_iff t)

variable {t : SyntaxTree} {a b c i j p : Nat}

theorem lt_size_of_parent (h : t.parent i = some p) : i < t.size := by
  by_contra hi
  rw [parent, node, Array.getElem?_eq_none (Nat.le_of_not_lt hi)] at h
  cases h

/-- What holds of a node if it holds of its children holds of all nodes: a child stands later in the
    table. -/
@[elab_as_elim]
theorem children_induction (t : SyntaxTree) {motive : Nat → Prop} (i : Nat)
    (node : ∀ i, (∀ c, t.parent c = some i → motive c) → motive i) : motive i := by
  obtain ⟨n, hn⟩ : ∃ n, t.size - i = n := ⟨_, rfl⟩
  induction n using Nat.strong_induction_on generalizing i with
  | _ n ih =>
    refine node i ?_
    intro c hc
    have hlt := parent_lt hc
    have hsize := lt_size_of_parent hc
    exact ih (t.size - c) (by omega) c rfl

theorem children_pairwise (t : SyntaxTree) (i : Nat) : (t.children i).Pairwise (· < ·) :=
  List.pairwise_lt_range.filter _

/-! ## Siblings -/

/-- The node `c` stands right before `i` among the children of one node. -/
def IsRightBefore (t : SyntaxTree) (c i : Nat) : Prop :=
  ∃ parent, t.parent c = some parent ∧ t.parent i = some parent ∧ c < i ∧
    ∀ s < i, t.parent s = some parent → s ≤ c

theorem IsRightBefore.parent_eq (h : t.IsRightBefore c i) (hp : t.parent i = some p) :
    t.parent c = some p := by
  obtain ⟨parent, hc, hi, -⟩ := h
  rwa [Option.some.inj (hp.symm.trans hi)]

/-- In an ascending list the element before another one is the largest of the smaller ones. -/
theorem elementBefore_eq_some_iff {xs : List Nat} (hxs : xs.Pairwise (· < ·)) (hi : i ∈ xs) :
    elementBefore i xs = some c ↔ c ∈ xs ∧ c < i ∧ ∀ s ∈ xs, s < i → s ≤ c := by
  fun_induction elementBefore i xs with
  | case1 | case2 | case3 => grind [List.pairwise_cons]
  | case4 xs hshort =>
    rcases xs with _ | ⟨x, _ | ⟨y, rest⟩⟩
    · cases hi
    · obtain rfl := List.mem_singleton.mp hi
      grind
    · exact (hshort x y rest rfl).elim

theorem previousSibling?_eq_some_iff : t.previousSibling? i = some c ↔ t.IsRightBefore c i := by
  rw [previousSibling?, IsRightBefore]
  cases hp : t.parent i with
  | none => simp
  | some parent =>
    have hmem : i ∈ t.children parent := mem_children.mpr ⟨lt_size_of_parent hp, hp⟩
    rw [Option.bind_eq_bind, Option.bind_some,
      elementBefore_eq_some_iff (t.children_pairwise parent) hmem]
    simp only [mem_children]
    constructor
    · rintro ⟨⟨-, hc⟩, hlt, hlast⟩
      refine ⟨parent, hc, rfl, hlt, ?_⟩
      intro s hs hparent
      exact hlast s ⟨lt_size_of_parent hparent, hparent⟩ hs
    · rintro ⟨parent', hc, heq, hlt, hlast⟩
      obtain rfl := Option.some.inj heq
      exact ⟨⟨lt_size_of_parent hc, hc⟩, hlt, fun s hs hlt => hlast s hlt hs.2⟩

/-! ## Enclosing nodes -/

theorem mem_ancestors_iff :
    a ∈ t.ancestors i ↔ ∃ p, t.parent i = some p ∧ (a = p ∨ a ∈ t.ancestors p) := by
  cases h : t.parent i with
  | none => simp [ancestors_of_parent_eq_none h]
  | some p => simp [ancestors_of_parent_eq_some h]

/-- A node encloses itself and what is below it. -/
def Encloses (t : SyntaxTree) (a i : Nat) : Prop := a = i ∨ a ∈ t.ancestors i

theorem encloses_refl (t : SyntaxTree) (i : Nat) : t.Encloses i i := Or.inl rfl

theorem Encloses.parent (h : t.Encloses a p) (hp : t.parent i = some p) : t.Encloses a i :=
  Or.inr (mem_ancestors_iff.mpr ⟨p, hp, h⟩)

theorem encloses_parent (hp : t.parent i = some p) : t.Encloses p i := (encloses_refl t p).parent hp

/-- What encloses a node without being that node encloses its parent. -/
theorem Encloses.cases (h : t.Encloses a i) : a = i ∨ ∃ p, t.parent i = some p ∧ t.Encloses a p :=
  h.imp_right mem_ancestors_iff.mp

theorem Encloses.trans (hab : t.Encloses a b) (hbi : t.Encloses b i) : t.Encloses a i := by
  induction i using Nat.strong_induction_on with
  | _ i ih =>
    rcases hbi.cases with rfl | ⟨p, hp, hbp⟩
    · exact hab
    · exact (ih p (parent_lt hp) hbp).parent hp

theorem lt_of_mem_ancestors (h : a ∈ t.ancestors i) : a < i := by
  induction i using Nat.strong_induction_on with
  | _ i ih =>
    obtain ⟨p, hp, rfl | ha⟩ := mem_ancestors_iff.mp h
    · exact parent_lt hp
    · exact Nat.lt_trans (ih p (parent_lt hp) ha) (parent_lt hp)

theorem ancestors_pairwise (t : SyntaxTree) (i : Nat) : (t.ancestors i).Pairwise (· > ·) := by
  induction i using Nat.strong_induction_on with
  | _ i ih =>
    cases hp : t.parent i with
    | none => simp [ancestors_of_parent_eq_none hp]
    | some p =>
      rw [ancestors_of_parent_eq_some hp, List.pairwise_cons]
      exact ⟨fun a ha => lt_of_mem_ancestors ha, ih p (parent_lt hp)⟩

/-- The way up from a node passes what encloses the node, and goes on from there. -/
theorem Encloses.exists_ancestors (h : t.Encloses a i) :
    ∃ inner, t.ancestors i = inner ++ t.ancestors a ∧ ∀ b ∈ inner, t.Encloses a b := by
  induction i using Nat.strong_induction_on with
  | _ i ih =>
    rcases h.cases with rfl | ⟨p, hp, hap⟩
    · exact ⟨[], rfl, by simp⟩
    · obtain ⟨inner, hinner, hmem⟩ := ih p (parent_lt hp) hap
      refine ⟨p :: inner, ?_, ?_⟩
      · rw [ancestors_of_parent_eq_some hp, hinner, List.cons_append]
      · intro b hb
        rcases List.mem_cons.mp hb with rfl | hb
        · exact hap
        · exact hmem b hb

/-- Below a node that encloses another one strictly there is a child that still encloses it. -/
theorem exists_child_encloses (h : a ∈ t.ancestors i) :
    ∃ c, t.parent c = some a ∧ t.Encloses c i := by
  induction i using Nat.strong_induction_on with
  | _ i ih =>
    obtain ⟨p, hp, rfl | ha⟩ := mem_ancestors_iff.mp h
    · exact ⟨i, hp, encloses_refl t i⟩
    · obtain ⟨c, hc, hcp⟩ := ih p (parent_lt hp) ha
      exact ⟨c, hc, hcp.parent hp⟩

/-- The walk over the tree below a node meets the nodes that the node encloses. -/
theorem mem_preorder_iff : i ∈ t.preorder a ↔ t.Encloses a i := by
  induction a using children_induction t with
  | node a ih =>
    rw [preorder_eq, List.mem_cons, List.mem_flatMap]
    constructor
    · rintro (rfl | ⟨c, hc, hi⟩)
      · exact encloses_refl t i
      · have hparent := (mem_children.mp hc).2
        exact (encloses_parent hparent).trans ((ih c hparent).mp hi)
    · rintro (rfl | ha)
      · exact Or.inl rfl
      · obtain ⟨c, hc, hci⟩ := exists_child_encloses ha
        exact Or.inr ⟨c, mem_children.mpr ⟨lt_size_of_parent hc, hc⟩, (ih c hc).mpr hci⟩

namespace InPreorder

theorem exists_parent (h : t.InPreorder) (hi : i < t.size) (hpos : 0 < i) :
    ∃ p, t.parent i = some p := by
  obtain ⟨p, hp, -⟩ := h.between i hi hpos
  exact ⟨p, hp⟩

theorem root_encloses (h : t.InPreorder) (hi : i < t.size) : t.Encloses SyntaxTree.root i := by
  induction i using Nat.strong_induction_on with
  | _ i ih =>
    rcases Nat.eq_zero_or_pos i with rfl | hpos
    · exact encloses_refl t 0
    · obtain ⟨p, hp⟩ := h.exists_parent hi hpos
      have hlt := parent_lt hp
      exact (ih p hlt (Nat.lt_trans hlt hi)).parent hp

theorem mem_allNodes_iff (h : t.InPreorder) : i ∈ t.allNodes ↔ i < t.size := by
  rw [allNodes, mem_preorder_iff]
  refine ⟨fun hi => ?_, h.root_encloses⟩
  rcases hi.cases with rfl | ⟨p, hp, -⟩
  · exact h.root.1
  · exact lt_size_of_parent hp

end InPreorder

namespace WellFormed

theorem inside_of_parent (h : t.WellFormed) (hp : t.parent i = some p) :
    (t.node p).start ≤ (t.node i).start ∧ (t.node i).stop ≤ (t.node p).stop :=
  h.inside i (lt_size_of_parent hp) p hp

theorem siblings_of_parent (h : t.WellFormed) (hij : i < j) (hi : t.parent i = some p)
    (hj : t.parent j = some p) : (t.node i).stop ≤ (t.node j).start :=
  h.siblings j (lt_size_of_parent hj) i hij p hj hi

theorem inside_of_encloses (h : t.WellFormed) (hai : t.Encloses a i) :
    (t.node a).start ≤ (t.node i).start ∧ (t.node i).stop ≤ (t.node a).stop := by
  induction i using Nat.strong_induction_on with
  | _ i ih =>
    rcases hai.cases with rfl | ⟨p, hp, hap⟩
    · exact ⟨Nat.le_refl _, Nat.le_refl _⟩
    · have h1 := ih p (parent_lt hp) hap
      have h2 := h.inside_of_parent hp
      omega

theorem stop_le_length (h : t.WellFormed) (hi : i < t.size) :
    (t.node i).stop ≤ t.source.length :=
  Nat.le_trans (h.inside_of_encloses (h.root_encloses hi)).2 h.root_stop_le

theorem start_le_length (h : t.WellFormed) (hi : i < t.size) :
    (t.node i).start ≤ t.source.length :=
  Nat.le_trans (h.start_le_stop i hi) (h.stop_le_length hi)

/-! ## Two nodes -/

/-- If neither of two nodes encloses the other, they lie below different children of one node. -/
theorem encloses_or_siblings (h : t.WellFormed) (hi : i < t.size) (hj : j < t.size) :
    t.Encloses i j ∨ t.Encloses j i ∨
      ∃ p a b, a ≠ b ∧ t.parent a = some p ∧ t.parent b = some p ∧ t.Encloses a i ∧ t.Encloses b j := by
  -- both sides go up by turns, always from the node that stands later in the table
  obtain ⟨n, hn⟩ : ∃ n, i + j = n := ⟨_, rfl⟩
  induction n using Nat.strong_induction_on generalizing i j with
  | _ n ih =>
    have step : ∀ {i j}, i + j = n → i < j → i < t.size → j < t.size →
        t.Encloses i j ∨ t.Encloses j i ∨ ∃ p a b, a ≠ b ∧ t.parent a = some p ∧
          t.parent b = some p ∧ t.Encloses a i ∧ t.Encloses b j := by
      intro i j hn hij hi hj
      obtain ⟨p, hp⟩ := h.exists_parent hj (Nat.zero_lt_of_lt hij)
      have hlt := parent_lt hp
      rcases ih (i + p) (by omega) hi (Nat.lt_trans hlt hj) rfl with
        hip | hpi | ⟨q, a, b, hab, ha, hb, hai, hbp⟩
      · exact Or.inl (hip.parent hp)
      · rcases hpi with rfl | hpi
        · exact Or.inl (encloses_parent hp)
        · obtain ⟨c, hc, hci⟩ := exists_child_encloses hpi
          by_cases hcj : c = j
          · exact Or.inr (Or.inl (hcj ▸ hci))
          · exact Or.inr (Or.inr ⟨p, c, j, hcj, hc, hp, hci, encloses_refl t j⟩)
      · exact Or.inr (Or.inr ⟨q, a, b, hab, ha, hb, hai, hbp.parent hp⟩)
    rcases Nat.lt_trichotomy i j with hij | rfl | hji
    · exact step hn hij hi hj
    · exact Or.inl (encloses_refl t i)
    · rcases step (by omega) hji hj hi with hd | hd | ⟨p, a, b, hab, ha, hb, haj, hbi⟩
      · exact Or.inr (Or.inl hd)
      · exact Or.inl hd
      · exact Or.inr (Or.inr ⟨p, b, a, Ne.symm hab, hb, ha, hbi, haj⟩)

/-- If neither of two nodes encloses the other, one ends before the other starts. -/
theorem encloses_or_apart (h : t.WellFormed) (hi : i < t.size) (hj : j < t.size) :
    t.Encloses i j ∨ t.Encloses j i ∨ (t.node i).stop ≤ (t.node j).start ∨
      (t.node j).stop ≤ (t.node i).start := by
  rcases h.encloses_or_siblings hi hj with hd | hd | ⟨p, a, b, hab, ha, hb, hai, hbj⟩
  · exact Or.inl hd
  · exact Or.inr (Or.inl hd)
  · have h1 := h.inside_of_encloses hai
    have h2 := h.inside_of_encloses hbj
    rcases Nat.lt_or_gt_of_ne hab with hlt | hlt
    · have := h.siblings_of_parent hlt ha hb
      omega
    · have := h.siblings_of_parent hlt hb ha
      omega

/-- Of two nodes with text that start at one offset, one encloses the other. -/
theorem encloses_of_start_eq (h : t.WellFormed) (hi : i < t.size) (hj : j < t.size)
    (hni : (t.node i).start < (t.node i).stop) (hnj : (t.node j).start < (t.node j).stop)
    (hstart : (t.node i).start = (t.node j).start) : t.Encloses i j ∨ t.Encloses j i := by
  rcases h.encloses_or_apart hi hj with hd | hd | hd | hd
  · exact Or.inl hd
  · exact Or.inr hd
  · omega
  · omega

end WellFormed

/-! ## Depth in blocks -/

theorem blockDepth_of_parent (hp : t.parent i = some p) :
    t.blockDepth i = t.blockDepth p + if t.kind p = .compoundStatement then 1 else 0 := by
  unfold blockDepth
  rw [ancestors_of_parent_eq_some hp, List.filter_cons]
  by_cases hk : t.kind p = .compoundStatement <;> simp [hk]

/-- Without blocks between them, two nodes stand in the same number of blocks. -/
theorem blockDepth_eq_of_encloses (hai : t.Encloses a i)
    (hno : ∀ c, t.Encloses a c → c ∈ t.ancestors i → t.kind c ≠ .compoundStatement) :
    t.blockDepth i = t.blockDepth a := by
  induction i using Nat.strong_induction_on with
  | _ i ih =>
    rcases hai.cases with rfl | ⟨p, hp, hap⟩
    · rfl
    · have hpi : p ∈ t.ancestors i := mem_ancestors_iff.mpr ⟨p, hp, Or.inl rfl⟩
      rw [blockDepth_of_parent hp, if_neg (hno p hap hpi), Nat.add_zero]
      exact ih p (parent_lt hp) hap
        fun c hac hcp => hno c hac (mem_ancestors_iff.mpr ⟨p, hp, Or.inr hcp⟩)

end SyntaxTree

end TwelveD
