import TwelveD.Proofs.LayoutRules
import TwelveD.Proofs.Edits

/-!
# Moving a tree along with its text

When edits are made to a text, the offsets of the nodes move. `SyntaxTree.relocate` is the tree of
the edited text that has the same nodes at the moved offsets. An offset that no edit covers cuts the
edits in two, `Edit.CutsAt`, and moves to the end of what the edits before it write.
-/

namespace TwelveD

namespace Edit

/-- Where the start of a node moves, counted from what `k` has moved to: a start at an edit moves
    behind what the edit writes. -/
def movedStart (text : Bytes) (k o : Nat) : List Edit → Nat
  | [] => o - k
  | e :: es =>
    if o < e.startIn text then o - k
    else if o = e.startIn text then (e.startIn text - k) + e.newText.length
    else if o < e.stopIn text then o - k
    else (e.startIn text - k) + e.newText.length + movedStart text (e.stopIn text) o es

/-- Where the end of a node moves, counted from what `k` has moved to: an end at the start of an edit
    stays before it, and one at the end of an edit of some text moves behind what the edit writes. -/
def movedStop (text : Bytes) (k o : Nat) : List Edit → Nat
  | [] => o - k
  | e :: es =>
    if o ≤ e.startIn text then o - k
    else if o < e.stopIn text then o - k
    else (e.startIn text - k) + e.newText.length + movedStop text (e.stopIn text) o es

variable {text : Bytes} {es before behind : List Edit} {k o n p q : Nat}

/-! ## Cutting edits at an offset -/

theorem InOrder.stop_le {i j : Nat} (h : InOrder text i j es) : ∀ e ∈ es, e.stopIn text ≤ j := by
  induction es generalizing i with
  | nil => simp
  | cons e es ih =>
    intro f hf
    rcases List.mem_cons.mp hf with rfl | hf
    · exact h.2.2.le
    · exact ih h.2.2 f hf

theorem InOrder.exists_of_append {xs ys : List Edit} {i j : Nat}
    (h : InOrder text i j (xs ++ ys)) : ∃ m, InOrder text i m xs ∧ InOrder text m j ys := by
  induction xs generalizing i with
  | nil => exact ⟨i, Nat.le_refl i, h⟩
  | cons e xs ih =>
    obtain ⟨m, h1, h2⟩ := ih h.2.2
    exact ⟨m, ⟨h.1, h.2.1, h1⟩, h2⟩

/-- Edits that start behind one offset and end before another lie between the two. -/
theorem InOrder.between {i j : Nat} (hi : InOrder text i n es) (hj : InOrder text k j es)
    (hij : i ≤ j) : InOrder text i j es := by
  cases es with
  | nil => exact hij
  | cons e es => exact ⟨hi.1, hj.2⟩

theorem exists_cut_start (hes : InOrder text k n es)
    (hapart : es.Pairwise fun e f => e.stopIn text < f.startIn text) (hk : k ≤ o) (ho : o ≤ n)
    (hn : n ≤ text.length) (hout : ∀ e ∈ es, e.startIn text ≤ o → e.stopIn text ≤ o) :
    ∃ before behind, es = before ++ behind ∧ InOrder text k o before ∧ InOrder text o n behind ∧
      (∀ e ∈ behind, o < e.startIn text) ∧
      movedStart text k o es = (written text k o before).length := by
  induction es generalizing k with
  | nil =>
    refine ⟨[], [], rfl, hk, ho, by simp, ?_⟩
    rw [movedStart, written, Bytes.length_slice (by omega)]
  | cons e es ih =>
    obtain ⟨h1, h2, h3⟩ := hes
    obtain ⟨hapart1, hapart2⟩ := List.pairwise_cons.mp hapart
    have hlater := h3.pairwise.1
    rw [movedStart]
    by_cases hlt : o < e.startIn text
    · refine ⟨[], e :: es, rfl, hk, ⟨Nat.le_of_lt hlt, h2, h3⟩, fun f hf => ?_, ?_⟩
      · rcases List.mem_cons.mp hf with rfl | hf
        · exact hlt
        · have := hlater f hf
          omega
      · rw [if_pos hlt, written, Bytes.length_slice (by omega)]
    · have hstop := hout e (List.mem_cons_self ..) (by omega)
      obtain ⟨before, behind, rfl, h4, h5, h6, h7⟩ := ih h3 hapart2 hstop
        (fun f hf => hout f (List.mem_cons_of_mem e hf))
      refine ⟨e :: before, behind, rfl, ⟨h1, h2, h4⟩, h5, h6, ?_⟩
      rw [if_neg hlt, written, List.length_append, List.length_append,
        Bytes.length_slice (by omega), ← h7]
      split
      · -- an edit of no text right at the offset is the last one before it
        rename_i heq
        obtain rfl : before = [] := by
          cases before with
          | nil => rfl
          | cons f before =>
            have := hapart1 f (by simp)
            have := h4.stop_le f (by simp)
            have := h4.2.1
            omega
        rw [written, Bytes.length_slice (by omega)] at h7
        omega
      · rw [if_neg (by omega)]

theorem exists_cut_stop (hes : InOrder text k n es) (hk : k ≤ o) (ho : o ≤ n)
    (hn : n ≤ text.length) (hout : ∀ e ∈ es, e.startIn text < o → e.stopIn text ≤ o) :
    ∃ before behind, es = before ++ behind ∧ InOrder text k o before ∧ InOrder text o n behind ∧
      (∀ e ∈ before, e.startIn text < o) ∧
      movedStop text k o es = (written text k o before).length := by
  induction es generalizing k with
  | nil =>
    refine ⟨[], [], rfl, hk, ho, by simp, ?_⟩
    rw [movedStop, written, Bytes.length_slice (by omega)]
  | cons e es ih =>
    obtain ⟨h1, h2, h3⟩ := hes
    rw [movedStop]
    by_cases hle : o ≤ e.startIn text
    · refine ⟨[], e :: es, rfl, hk, ⟨hle, h2, h3⟩, by simp, ?_⟩
      rw [if_pos hle, written, Bytes.length_slice (by omega)]
    · have hstop := hout e (List.mem_cons_self ..) (by omega)
      obtain ⟨before, behind, rfl, h4, h5, h6, h7⟩ := ih h3 hstop
        (fun f hf => hout f (List.mem_cons_of_mem e hf))
      refine ⟨e :: before, behind, rfl, ⟨h1, h2, h4⟩, h5, ?_, ?_⟩
      · intro f hf
        rcases List.mem_cons.mp hf with rfl | hf
        · omega
        · exact h6 f hf
      · rw [if_neg hle, if_neg (by omega), written, List.length_append, List.length_append,
          Bytes.length_slice (by omega), ← h7]

/-- An offset that cuts the edits of a text into those before it and those behind it. -/
structure CutsAt (text : Bytes) (es : List Edit) (o : Nat) (before behind : List Edit) : Prop where
  eq : es = before ++ behind
  left : InOrder text 0 o before
  right : InOrder text o text.length behind

namespace CutsAt

variable {before' behind' : List Edit}

theorem applyAll_eq (h : CutsAt text es o before behind) :
    applyAll text es = written text 0 o before ++ written text o text.length behind := by
  rw [applyAll_eq_written, h.eq, written_append h.left h.right]

/-- The edited text up to a moved offset is what the edits before it write. -/
theorem take_applyAll (h : CutsAt text es o before behind) :
    (applyAll text es).take (written text 0 o before).length = written text 0 o before := by
  rw [h.applyAll_eq, List.take_left]

theorem length_le (h : CutsAt text es o before behind) :
    (written text 0 o before).length ≤ (applyAll text es).length := by
  rw [h.applyAll_eq, List.length_append]
  exact Nat.le_add_right ..

/-- Between two moved offsets stands what the edits between the two write. -/
theorem slice_applyAll (hp : CutsAt text es p before behind) (hq : CutsAt text es q before' behind')
    (hpq : p ≤ q) (hsep : ∀ e ∈ before, e ∉ behind') :
    ∃ between, before' = before ++ between ∧ behind = between ++ behind' ∧
      InOrder text p q between ∧
      written text 0 q before' = written text 0 p before ++ written text p q between ∧
      (applyAll text es).slice (written text 0 p before).length (written text 0 q before').length =
        written text p q between := by
  obtain ⟨between, h1, h2⟩ : ∃ between, before' = before ++ between ∧ behind = between ++ behind' := by
    rcases List.append_eq_append_iff.mp (hp.eq.symm.trans hq.eq) with
      ⟨between, h1, h2⟩ | ⟨between, h1, h2⟩
    · exact ⟨between, h1, h2⟩
    · obtain rfl : between = [] := by
        cases between with
        | nil => rfl
        | cons e between => exact absurd (by simp [h2]) (hsep e (by simp [h1]))
      exact ⟨[], by simpa using h1.symm, by simpa using h2.symm⟩
  obtain ⟨m, -, hm⟩ := (h1 ▸ hq.left).exists_of_append
  obtain ⟨m', hm', -⟩ := (h2 ▸ hp.right).exists_of_append
  have hbetween := hm'.between hm hpq
  have hwritten : written text 0 q before' =
      written text 0 p before ++ written text p q between := by
    rw [h1, written_append hp.left hbetween]
  refine ⟨between, h1, h2, hbetween, hwritten, ?_⟩
  rw [Bytes.slice, ← List.drop_take, hq.take_applyAll, hwritten, List.drop_left]

theorem between_sublist {between : List Edit} (hp : CutsAt text es p before behind)
    (hbehind : behind = between ++ behind') : between.Sublist es := by
  rw [hp.eq, hbehind]
  exact (List.sublist_append_left between behind').trans (List.sublist_append_right before _)

/-- An edit that starts at the first of two offsets is not before it, and so between the two. -/
theorem mem_between {e : Edit} {between : List Edit} (hp : CutsAt text es p before behind)
    (hbehind : behind = between ++ behind') (hpq : p ≤ q) (hbefore : ∀ e ∈ before, e.startIn text < p)
    (hbehind' : ∀ e ∈ behind', q < e.startIn text) (he : e ∈ es) (hstart : e.startIn text = p) :
    e ∈ between := by
  rw [hp.eq, hbehind, List.mem_append, List.mem_append] at he
  rcases he with he | he | he
  · have := hbefore e he
    omega
  · exact he
  · have := hbehind' e he
    omega

theorem ink_written (h : CutsAt text es o before behind)
    (hblank : ∀ e ∈ es, (text.slice (e.startIn text) (e.stopIn text)).isBlank = true ∧
      e.newText.isBlank = true) :
    (written text 0 o before).ink = Bytes.ink (text.take o) := by
  rw [Edit.ink_written h.left fun e he => hblank e (by rw [h.eq]; exact List.mem_append_left _ he),
    Bytes.slice_zero]

/-- Edits of blanks move no offset to another row. -/
theorem row_pointAt (h : CutsAt text es o before behind)
    (hblank : ∀ e ∈ es, (text.slice (e.startIn text) (e.stopIn text)).isBlank = true ∧
      e.newText.isBlank = true) :
    ((applyAll text es).pointAt (written text 0 o before).length).row = (text.pointAt o).row := by
  rw [Bytes.pointAt_row, Bytes.pointAt_row, h.take_applyAll, ← Bytes.count_ink,
    h.ink_written hblank, Bytes.count_ink]

end CutsAt

end Edit

namespace SyntaxTree

/-- The tree of an edited text, with every node where the edits move it. -/
def relocate (t : SyntaxTree) (es : List Edit) : SyntaxTree where
  source := Edit.applyAll t.source es
  nodes := t.nodes.map fun n =>
    { n with
      start := Edit.movedStart t.source 0 n.start es
      stop := Edit.movedStop t.source 0 n.stop es }
  linksBack := by
    intro i hi p hp
    rw [Array.size_map] at hi
    exact t.linksBack i hi p (by simpa using hp)

variable (t : SyntaxTree) (es : List Edit)

/-! ## What stays when a tree is moved -/

@[simp] theorem relocate_source : (t.relocate es).source = Edit.applyAll t.source es := rfl

@[simp] theorem relocate_size : (t.relocate es).size = t.size := Array.size_map ..

theorem relocate_node {i : Nat} (hi : i < t.size) : (t.relocate es).node i =
    { t.node i with
      start := Edit.movedStart t.source 0 (t.node i).start es
      stop := Edit.movedStop t.source 0 (t.node i).stop es } := by
  have hi' : i < t.nodes.size := hi
  simp [node, relocate, hi']

theorem relocate_node_of_le {i : Nat} (hi : t.size ≤ i) : (t.relocate es).node i = t.node i := by
  have hi' : t.nodes.size ≤ i := hi
  simp [node, relocate, hi']

@[simp] theorem relocate_kind (i : Nat) : (t.relocate es).kind i = t.kind i := by
  unfold kind
  rcases Nat.lt_or_ge i t.size with hi | hi
  · rw [relocate_node t es hi]
  · rw [relocate_node_of_le t es hi]

@[simp] theorem relocate_field (i : Nat) : (t.relocate es).field i = t.field i := by
  unfold field
  rcases Nat.lt_or_ge i t.size with hi | hi
  · rw [relocate_node t es hi]
  · rw [relocate_node_of_le t es hi]

@[simp] theorem relocate_parent (i : Nat) : (t.relocate es).parent i = t.parent i := by
  unfold parent
  rcases Nat.lt_or_ge i t.size with hi | hi
  · rw [relocate_node t es hi]
  · rw [relocate_node_of_le t es hi]

@[simp] theorem relocate_children (i : Nat) : (t.relocate es).children i = t.children i := by
  simp [children]

@[simp] theorem relocate_child? (i : Nat) (f : Field) :
    (t.relocate es).child? i f = t.child? i f := by
  simp [child?]

@[simp] theorem relocate_ancestors (i : Nat) : (t.relocate es).ancestors i = t.ancestors i := by
  induction i using Nat.strong_induction_on with
  | _ i ih =>
    cases hp : t.parent i with
    | none =>
      rw [ancestors_of_parent_eq_none hp, ancestors_of_parent_eq_none (by simpa using hp)]
    | some p =>
      rw [ancestors_of_parent_eq_some hp, ancestors_of_parent_eq_some (p := p) (by simpa using hp),
        ih p (parent_lt hp)]

@[simp] theorem relocate_blockDepth (i : Nat) : (t.relocate es).blockDepth i = t.blockDepth i := by
  simp [blockDepth]

@[simp] theorem relocate_blockIndent (i : Nat) :
    (t.relocate es).blockIndent i = t.blockIndent i := by
  simp [blockIndent]

@[simp] theorem relocate_enclosing? (i : Nat) (k : Kind) :
    (t.relocate es).enclosing? i k = t.enclosing? i k := by
  simp [enclosing?]

@[simp] theorem mem_relocate_allNodes {i : Nat} : i ∈ (t.relocate es).allNodes ↔ i ∈ t.allNodes := by
  simp only [allNodes, mem_preorder_iff, Encloses, relocate_ancestors]

@[simp] theorem relocate_previousSibling? (i : Nat) :
    (t.relocate es).previousSibling? i = t.previousSibling? i := by
  simp [previousSibling?]

@[simp] theorem relocate_functionDeclaratorFrom? (i : Nat) :
    (t.relocate es).functionDeclaratorFrom? i = t.functionDeclaratorFrom? i := by
  induction i using children_induction t with
  | node i ih =>
    rw [functionDeclaratorFrom?_eq, functionDeclaratorFrom?_eq, relocate_kind, relocate_child?]
    congr 2
    cases hc : t.child? i .declarator with
    | none => rfl
    | some c => exact ih c (parent_of_child? hc)

@[simp] theorem relocate_functionDeclarator? (i : Nat) :
    (t.relocate es).functionDeclarator? i = t.functionDeclarator? i := by
  simp [functionDeclarator?]

@[simp] theorem relocate_parameterList? (i : Nat) :
    (t.relocate es).parameterList? i = t.parameterList? i := by
  simp [parameterList?_eq]

@[simp] theorem relocate_isIndented (i : Nat) : (t.relocate es).isIndented i = t.isIndented i := by
  have hkind : (t.relocate es).kind = t.kind := funext fun i => relocate_kind t es i
  simp [isIndented, hkind]

@[simp] theorem relocate_isDefinition (i : Nat) :
    (t.relocate es).IsDefinition i ↔ t.IsDefinition i := by
  simp [IsDefinition]

@[simp] theorem relocate_isParameter (i : Nat) :
    (t.relocate es).IsParameter i ↔ t.IsParameter i := by
  simp [IsParameter]

end SyntaxTree

end TwelveD
