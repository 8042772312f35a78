import Mathlib.Data.List.Sort
import TwelveD.Proofs.Cursors

/-!
# Walks over the table

The walk down from a node and the walk up to the root see the same tree. `preorder` is the walk down. It
can be taken with a stack of the nodes that are still to be visited, and in a table that stands in
pre-order it reads off a piece of the table: no node of that piece is left out and none comes twice.
-/

namespace TwelveD.SyntaxTree

variable {t : SyntaxTree} {a c d i k n p x y : Nat} {pending pending' visited : List Nat}

/-! ## The walk with a stack -/

/-- One step of the walk. The node on top of the stack is visited, and its children take its place, the
    first one on top. -/
def visitTop? (t : SyntaxTree) : List Nat → Option (Nat × List Nat)
  | [] => none
  | i :: pending => some (i, t.children i ++ pending)

/-- The nodes that are visited, step by step, until the stack is empty. -/
inductive Visits (t : SyntaxTree) : List Nat → List Nat → Prop where
  | done {pending : List Nat} (hdone : t.visitTop? pending = none) : Visits t pending []
  | step {pending pending' visited : List Nat} {i : Nat}
      (hstep : t.visitTop? pending = some (i, pending')) (hrest : Visits t pending' visited) :
      Visits t pending (i :: visited)

theorem visitTop?_eq_none_iff : t.visitTop? pending = none ↔ pending = [] := by
  cases pending <;> simp [visitTop?]

/-- The trees below the nodes on the stack are what is left to visit; a step takes the first node off. -/
theorem flatMap_preorder_of_visitTop? (h : t.visitTop? pending = some (i, pending')) :
    pending.flatMap t.preorder = i :: pending'.flatMap t.preorder := by
  cases pending with
  | nil => cases h
  | cons top rest =>
    obtain ⟨rfl, rfl⟩ := Prod.mk.inj (Option.some.inj h)
    rw [List.flatMap_cons, preorder_eq, List.flatMap_append, List.cons_append]

theorem visits_iff : t.Visits pending visited ↔ visited = pending.flatMap t.preorder := by
  constructor
  · intro h
    induction h with
    | done hdone =>
      rw [visitTop?_eq_none_iff.mp hdone]
      rfl
    | step hstep _ ih => rw [flatMap_preorder_of_visitTop? hstep, ih]
  · intro h
    induction visited generalizing pending with
    | nil =>
      cases hstep : t.visitTop? pending with
      | none => exact .done hstep
      | some next =>
        rw [flatMap_preorder_of_visitTop? hstep] at h
        cases h
    | cons i visited ih =>
      cases hstep : t.visitTop? pending with
      | none =>
        rw [visitTop?_eq_none_iff.mp hstep] at h
        cases h
      | some next =>
        obtain ⟨top, pending'⟩ := next
        rw [flatMap_preorder_of_visitTop? hstep] at h
        obtain ⟨rfl, hrest⟩ := List.cons.inj h
        exact .step hstep (ih hrest)

/-! ## Pieces of the table -/

theorem Encloses.le (h : t.Encloses a i) : a ≤ i := by
  rcases h with rfl | h
  · exact Nat.le_refl a
  · exact Nat.le_of_lt (lt_of_mem_ancestors h)

namespace InPreorder

/-- What stands between a node and its parent is below that parent. -/
theorem parent_encloses (h : t.InPreorder) (hp : t.parent i = some p) (hpk : p < k) (hki : k < i) :
    t.Encloses p k := by
  have hi := lt_size_of_parent hp
  obtain ⟨p', hp', hbetween⟩ := h.between i hi (Nat.zero_lt_of_lt hki)
  obtain rfl : p = p' := Option.some.inj (hp.symm.trans hp')
  -- the parent of `k` is `p` or stands behind `p` itself
  induction k using Nat.strong_induction_on with
  | _ k ih =>
    obtain ⟨q, hq, hpq⟩ := hbetween k hki hpk
    have hqk := parent_lt hq
    rcases Nat.lt_or_eq_of_le hpq with hlt | rfl
    · exact (ih q hqk hlt (Nat.lt_trans hqk hki)).parent hq
    · exact encloses_parent hq

/-- What stands between a node and a node below it is below it, too. -/
theorem encloses_of_le (h : t.InPreorder) (han : t.Encloses a n) (hak : a ≤ k) (hkn : k ≤ n) :
    t.Encloses a k := by
  induction n using Nat.strong_induction_on with
  | _ n ih =>
    rcases Nat.lt_or_eq_of_le hkn with hlt | rfl
    · rcases han.cases with rfl | ⟨p, hp, hap⟩
      · omega
      · by_cases hkp : k ≤ p
        · exact ih p (parent_lt hp) hap hkp
        · exact hap.trans (h.parent_encloses hp (by omega) hlt)
    · exact han

/-- The trees below two children of a node stand one behind the other. -/
theorem lt_of_siblings (h : t.InPreorder) (hcd : c < d) (hc : t.parent c = some p)
    (hd : t.parent d = some p) (hcx : t.Encloses c x) (hdy : t.Encloses d y) : x < y := by
  by_contra hyx
  have hdx : d ≤ x := Nat.le_trans hdy.le (Nat.le_of_not_lt hyx)
  rcases (h.encloses_of_le hcx (Nat.le_of_lt hcd) hdx).cases with rfl | ⟨q, hq, hcq⟩
  · omega
  · -- the parent of `d` stands before `c`
    obtain rfl : p = q := Option.some.inj (hd.symm.trans hq)
    have hle := hcq.le
    have hlt := parent_lt hc
    omega

theorem pairwise_preorder (h : t.InPreorder) (a : Nat) : (t.preorder a).Pairwise (· < ·) := by
  induction a using children_induction t with
  | node a ih =>
    rw [preorder_eq, List.pairwise_cons]
    constructor
    · intro n hn
      obtain ⟨c, hc, hcn⟩ := List.mem_flatMap.mp hn
      exact Nat.lt_of_lt_of_le (lt_of_mem_children hc).1 (mem_preorder_iff.mp hcn).le
    · rw [List.pairwise_flatMap]
      constructor
      · intro c hc
        exact ih c (mem_children.mp hc).2
      · refine (children_pairwise t a).imp_of_mem ?_
        intro c d hc hd hcd x hx y hy
        exact h.lt_of_siblings hcd (mem_children.mp hc).2 (mem_children.mp hd).2
          (mem_preorder_iff.mp hx) (mem_preorder_iff.mp hy)

end InPreorder

/-- Numbers in increasing order, without gaps, count on from the first one. -/
theorem eq_range'_of_pairwise {rest : List Nat} (hsorted : (a :: rest).Pairwise (· < ·))
    (hgaps : ∀ n ∈ a :: rest, ∀ k, a ≤ k → k ≤ n → k ∈ a :: rest) :
    a :: rest = List.range' a (a :: rest).length := by
  induction rest generalizing a with
  | nil => rfl
  | cons b rest ih =>
    obtain ⟨hfirst, hrest⟩ := List.pairwise_cons.mp hsorted
    have hab : a < b := hfirst b (List.mem_cons_self ..)
    obtain rfl : b = a + 1 := by
      have hnext : a + 1 ∈ a :: b :: rest := hgaps b (by simp) (a + 1) (by omega) hab
      rcases List.mem_cons.mp hnext with heq | hnext
      · omega
      · rcases List.mem_cons.mp hnext with heq | hnext
        · exact heq.symm
        · have hlt := (List.pairwise_cons.mp hrest).1 _ hnext
          omega
    have htail : (a + 1) :: rest = List.range' (a + 1) ((a + 1) :: rest).length := by
      refine ih hrest ?_
      intro n hn k hk hkn
      rcases List.mem_cons.mp (hgaps n (List.mem_cons_of_mem a hn) k (by omega) hkn) with heq | hk'
      · omega
      · exact hk'
    rw [List.length_cons, List.range'_succ, ← htail]

theorem InPreorder.preorder_eq_range' (h : t.InPreorder) (a : Nat) :
    t.preorder a = List.range' a (t.preorder a).length := by
  have hsorted := h.pairwise_preorder a
  have hgaps : ∀ n ∈ t.preorder a, ∀ k, a ≤ k → k ≤ n → k ∈ t.preorder a := by
    intro n hn k hak hkn
    exact mem_preorder_iff.mpr (h.encloses_of_le (mem_preorder_iff.mp hn) hak hkn)
  rw [preorder_eq] at hsorted hgaps ⊢
  exact eq_range'_of_pairwise hsorted hgaps

theorem InPreorder.allNodes_eq_range (h : t.InPreorder) : t.allNodes = List.range t.size := by
  refine (h.pairwise_preorder SyntaxTree.root).eq_of_mem_iff List.pairwise_lt_range ?_
  intro n
  rw [List.mem_range]
  exact h.mem_allNodes_iff

/-- In a table that stands in pre-order, the walk with a stack visits a node and what is below it: the
    numbers from that of the node on, each of them once, and just those whose way up passes the node.
    From the root it visits the whole table. -/
theorem walks_agree (t : SyntaxTree) (h : t.InPreorder) (a : Nat) :
    (∀ visited, t.Visits [a] visited ↔ visited = t.preorder a) ∧
    t.preorder a = List.range' a (t.preorder a).length ∧ (t.preorder a).Nodup ∧
    (∀ n, n ∈ t.preorder a ↔ n = a ∨ t.isAncestor a n = true) ∧
    t.preorder root = List.range t.size := by
  refine ⟨?_, h.preorder_eq_range' a, ?_, ?_, h.allNodes_eq_range⟩
  · intro visited
    rw [visits_iff, List.flatMap_singleton]
  · exact (h.pairwise_preorder a).imp Nat.ne_of_lt
  · intro n
    rw [mem_preorder_iff, Encloses, isAncestor, decide_eq_true_iff, eq_comm]

theorem walks_agree_starredName :
    starredName.InPreorder ∧ starredName.Visits [root] (List.range 13) := by
  have hpreorder := starredName_wellFormed.toInPreorder
  obtain ⟨hvisits, -, -, -, hroot⟩ := walks_agree starredName hpreorder root
  exact ⟨hpreorder, (hvisits _).mpr hroot.symm⟩

end TwelveD.SyntaxTree
