import TwelveD.Proofs.LayoutBlanks

/-!
# Layout of clean trees

`SyntaxTree.Clean` lists what else the parser keeps to. In a clean tree the rules agree: of two
findings that end at one offset both are the same edit, and all others are apart from each other, so
that no finding is dropped from the batch of edits.
-/

namespace TwelveD.SyntaxTree

/-- The kind of the brace that opens a block. -/
def openBraceKind : Kind := .other "\x7b"

/-- Whether the rules ask for the spacing between the children of a node. -/
def isSpaced (k : Kind) : Prop :=
  k = .functionDefinition ∨ k = parameterListKind ∨ k = .parameterDeclaration ∨ k = .argumentList

instance (k : Kind) : Decidable (isSpaced k) := by unfold isSpaced; infer_instance

/-- A tree as the parser makes it of a text that it understands and that is short enough for its
    offsets. -/
structure Clean (t : SyntaxTree) : Prop extends Addressable t where
  /-- The root stands for the whole document. -/
  root_kind : t.kind SyntaxTree.root = .translationUnit ∨ t.kind SyntaxTree.root = .error
  /-- Every other node has a text. -/
  start_lt_stop : ∀ i < t.size, 0 < i → (t.node i).start < (t.node i).stop
  /-- That text starts with neither a blank nor the end of a row. -/
  first_byte : ∀ i < t.size, 0 < i → ∀ b ∈ t.source[(t.node i).start]?,
    b ≠ Bytes.space ∧ b ≠ Bytes.tab ∧ b ≠ Bytes.carriageReturn ∧ b ≠ Bytes.lineFeed
  /-- No node ends inside the blanks that an edit replaces. -/
  stop_outside : ∀ i < t.size, 0 < i → ∀ e ∈ t.layoutEdits,
    e.startIn t.source < (t.node i).stop → e.stopIn t.source ≤ (t.node i).stop
  /-- A block starts with its brace. -/
  open_brace : ∀ b < t.size, t.kind b = .compoundStatement → ∀ c ∈ (t.children b).head?,
    t.kind c = openBraceKind ∧ t.children c = []
  /-- Nothing is below a closing brace. -/
  close_brace : ∀ i < t.size, t.kind i = .closeBrace → t.children i = []
  /-- The parameters of a function stand in a list of their own kind. -/
  parameters_kind : ∀ d < t.size, t.kind d = .functionDeclarator →
    ∀ list ∈ t.child? d .parameters, t.kind list = parameterListKind
  /-- No parameter starts with a statement or a definition. -/
  parameter_start : ∀ i < t.size, ∀ j < t.size, t.kind i = .parameterDeclaration →
    t.isIndented j = true → (t.node i).start ≠ (t.node j).start
  /-- Of two parts of a heading or a call that meet in a row, the second is not the first thing in its
      row: no such part ends with the end of a row. -/
  meets : ∀ r < t.size, ∀ l < r, ∀ p ∈ t.parent r, t.parent l = some p → isSpaced (t.kind p) →
    t.meetInRow l r = true → t.startsLine r = false
  /-- Text that the parser could not place does not end with a blank. -/
  error_stop : ∀ i < t.size, 0 < i → t.kind i = .error →
    ∀ b ∈ t.source[(t.node i).stop - 1]?, Bytes.isBlankByte b = false

variable {t : SyntaxTree} {e f : Edit} {i j l r l' r' p c width width' : Nat} {wanted wanted' : Bytes}

/-- A node that does not end between two blanks does not end inside an edit. -/
theorem Addressable.stop_outside_of_bytes (h : t.Addressable)
    (hbytes : ∀ i < t.size, 0 < i → ∀ b ∈ t.source[(t.node i).stop - 1]?,
      ∀ c ∈ t.source[(t.node i).stop]?, (Bytes.isBlankByte b && Bytes.isBlankByte c) = false) :
    ∀ i < t.size, 0 < i → ∀ e ∈ t.layoutEdits,
      e.startIn t.source < (t.node i).stop → e.stopIn t.source ≤ (t.node i).stop := by
  intro i hi hpos e he hlt
  by_contra hin
  have hblanks := h.onBlanks_of_mem he
  have hlen : (t.node i).stop < t.source.length := by
    have := hblanks.stop_le
    omega
  have hlen' : (t.node i).stop - 1 < t.source.length := by omega
  have hb := List.getElem?_eq_getElem hlen
  have hb' := List.getElem?_eq_getElem hlen'
  have h1 := Bytes.isBlank_iff.mp hblanks.blank _
    (Bytes.mem_slice_iff.mpr ⟨_, by omega, by omega, hb⟩)
  have h2 := Bytes.isBlank_iff.mp hblanks.blank _
    (Bytes.mem_slice_iff.mpr ⟨_, by omega, by omega, hb'⟩)
  have h3 := hbytes i hi hpos _ hb' _ hb
  rw [h1, h2] at h3
  cases h3

/-! ## Spacing between two children of a node -/

/-- The text that the rules ask for between two children of the node `p`. -/
def spacing? (t : SyntaxTree) (p l r : Nat) : Option Bytes :=
  if t.kind p = .functionDefinition then some oneSpace
  else if t.kind p = parameterListKind then parameterGap? (t.kind l) (t.kind r)
  else if t.kind p = .parameterDeclaration then
    (t.child? p .declarator).map fun name =>
      if r = name ∧ (t.mark? name).isSome then noSpace else oneSpace
  else if t.kind p = .argumentList then argumentGap? (t.kind l) (t.kind r)
  else none

theorem isSpaced_of_spacing? (h : t.spacing? p l r = some wanted) : isSpaced (t.kind p) := by
  unfold spacing? at h
  unfold isSpaced
  split at h
  · exact Or.inl ‹_›
  · split at h
    · exact Or.inr (Or.inl ‹_›)
    · split at h
      · exact Or.inr (Or.inr (Or.inl ‹_›))
      · split at h
        · exact Or.inr (Or.inr (Or.inr ‹_›))
        · cases h

theorem ne_of_mark? (h : t.mark? r = some l) : l ≠ r := by
  obtain ⟨hprev, -⟩ := Option.filter_eq_some_iff.mp h
  obtain ⟨p, -, -, hlt, -⟩ := previousSibling?_eq_some_iff.mp hprev
  exact Nat.ne_of_lt hlt

theorem kind_of_functionDeclaratorFrom? {d : Nat} (h : t.functionDeclaratorFrom? i = some d) :
    t.kind d = .functionDeclarator ∧ t.blockDepth d = t.blockDepth i := by
  refine functionDeclaratorFrom?_induction h ?_ ?_
  · intro hk
    exact ⟨hk, rfl⟩
  · rintro i next hk hnext ⟨hkind, hdepth⟩
    refine ⟨hkind, ?_⟩
    rw [hdepth, blockDepth_of_parent (parent_of_child? hnext), hk]
    rfl

/-- The list of the parameters of a function stands in as many blocks as the function. -/
theorem blockDepth_of_parameterList? {definition list : Nat} (hdef : t.IsDefinition definition)
    (h : t.parameterList? definition = some list) :
    t.blockDepth list = t.blockDepth definition := by
  obtain ⟨d, hd, hlist⟩ := Option.bind_eq_some_iff.mp h
  obtain ⟨c, hc, hd⟩ := Option.bind_eq_some_iff.mp hd
  obtain ⟨hk, hdepth⟩ := kind_of_functionDeclaratorFrom? hd
  rw [blockDepth_of_parent (parent_of_child? hlist), hk, hdepth,
    blockDepth_of_parent (parent_of_child? hc), hdef.2]
  rfl

namespace Clean

theorem kind_of_parameterList? (h : t.Clean) {definition list : Nat}
    (hlist : t.parameterList? definition = some list) : t.kind list = parameterListKind := by
  obtain ⟨d, hd, hlist⟩ := Option.bind_eq_some_iff.mp hlist
  obtain ⟨c, hc, hd⟩ := Option.bind_eq_some_iff.mp hd
  have hsize : d < t.size := by
    have := lt_of_child? hlist
    omega
  exact h.parameters_kind d hsize (kind_of_functionDeclaratorFrom? hd).1 list hlist

/-- What the rules ask for between two nodes depends on the two nodes and their parent alone. -/
theorem spacing?_of_respaces (h : t.Clean) (hr : t.Respaces l r wanted) (hp : t.parent r = some p) :
    t.spacing? p l r = some wanted := by
  cases hr with
  | heading hdef htype hdecl =>
    obtain rfl := Option.some.inj ((parent_of_child? hdecl).symm.trans hp)
    rw [spacing?, if_pos hdef.2]
  | body hdef hdecl hbody hrow =>
    obtain rfl := Option.some.inj ((parent_of_child? hbody).symm.trans hp)
    rw [spacing?, if_pos hdef.2]
  | parameterList hdef hlist hpair hgap hrow =>
    have hr := (mem_children.mp (mem_of_mem_neighbours hpair).2).2
    obtain rfl := Option.some.inj (hr.symm.trans hp)
    have hk := h.kind_of_parameterList? hlist
    rw [spacing?, if_neg (by rw [hk]; decide), if_pos hk, hgap]
  | parameter hparam htype hname hmark =>
    obtain rfl := Option.some.inj ((parent_of_child? hname).symm.trans hp)
    obtain ⟨_, _, _, _, _, hk⟩ := hparam
    simp [spacing?, hk, hname, hmark, parameterListKind]
  | typeAndMark hparam htype hname hmark =>
    obtain rfl := Option.some.inj ((parent_of_mark? hmark (parent_of_child? hname)).symm.trans hp)
    obtain ⟨_, _, _, _, _, hk⟩ := hparam
    simp [spacing?, hk, hname, parameterListKind, ne_of_mark? hmark]
  | markAndName hparam htype hname hmark =>
    obtain rfl := Option.some.inj ((parent_of_child? hname).symm.trans hp)
    obtain ⟨_, _, _, _, _, hk⟩ := hparam
    simp [spacing?, hk, hname, hmark, parameterListKind]
  | argumentList hmem hkind hpair hgap =>
    have hr := (mem_children.mp (mem_of_mem_neighbours hpair).2).2
    obtain rfl := Option.some.inj (hr.symm.trans hp)
    simp [spacing?, hkind, hgap, parameterListKind]

/-! ## Starts of nodes -/

theorem exists_byte (h : t.Clean) (hi : i < t.size) (hpos : 0 < i) :
    ∃ b, t.source[(t.node i).start]? = some b ∧ Bytes.isBlankByte b = false ∧
      b ≠ Bytes.carriageReturn ∧ b ≠ Bytes.lineFeed := by
  have hlt : (t.node i).start < t.source.length :=
    Nat.lt_of_lt_of_le (h.start_lt_stop i hi hpos) (h.stop_le_length hi)
  have hb := List.getElem?_eq_getElem hlt
  obtain ⟨h1, h2, h3, h4⟩ := h.first_byte i hi hpos _ hb
  exact ⟨_, hb, by simp [Bytes.isBlankByte, h1, h2], h3, h4⟩

/-- Blanks that end where a node starts reach over the start of no other node. -/
theorem start_notMem (h : t.Clean) (hi : i < t.size) (hpos : 0 < i) {k o : Nat}
    (hblank : (t.source.slice k o).isBlank = true) (hk : k ≤ (t.node i).start) :
    o ≤ (t.node i).start := by
  obtain ⟨b, hb, hne, -⟩ := h.exists_byte hi hpos
  exact Bytes.le_of_isBlank_slice hblank hk hb hne

theorem pos_of_parent (hp : t.parent i = some p) : 0 < i := Nat.zero_lt_of_lt (parent_lt hp)

theorem encloses_of_start_eq (h : t.Clean) (hi : i < t.size) (hj : j < t.size) (hipos : 0 < i)
    (hjpos : 0 < j) (hstart : (t.node i).start = (t.node j).start) :
    t.Encloses i j ∨ t.Encloses j i :=
  h.toWellFormed.encloses_of_start_eq hi hj (h.start_lt_stop i hi hipos) (h.start_lt_stop j hj hjpos)
    hstart

end Clean

theorem lt_of_mem_neighbours {ids : List Nat} (hids : ids.Pairwise (· < ·))
    (h : (l, r) ∈ neighbours ids) : l < r := by
  induction ids with
  | nil => cases h
  | cons a ids ih =>
    cases ids with
    | nil => cases h
    | cons b ids =>
      obtain ⟨hids1, hids2⟩ := List.pairwise_cons.mp hids
      rw [neighbours_cons_cons] at h
      rcases List.mem_cons.mp h with h | h
      · obtain ⟨rfl, rfl⟩ := Prod.mk.inj h
        exact hids1 r (List.mem_cons_self ..)
      · exact ih hids2 h

/-- Below a node without children there is no node. -/
theorem eq_of_encloses_of_children_eq_nil (hi : t.children i = []) (hij : t.Encloses i j) : i = j := by
  rcases hij with rfl | hij
  · rfl
  · obtain ⟨c, hc, -⟩ := exists_child_encloses hij
    have : c ∈ t.children i := mem_children.mpr ⟨lt_size_of_parent hc, hc⟩
    rw [hi] at this
    cases this

namespace Clean

/-- Of the nodes below a block only its brace starts where the block starts. -/
theorem open_brace_of_start_eq (h : t.Clean) (hk : t.kind c = .compoundStatement)
    (hcj : c ∈ t.ancestors j) (hstart : (t.node c).start = (t.node j).start) :
    t.parent j = some c ∧ t.kind j = openBraceKind := by
  obtain ⟨k, hk', hkj⟩ := exists_child_encloses hcj
  have hksize := lt_size_of_parent hk'
  have hmem : k ∈ t.children c := mem_children.mpr ⟨hksize, hk'⟩
  have hcsize : c < t.size := Nat.lt_trans (parent_lt hk') hksize
  obtain ⟨brace, others, hch⟩ := List.exists_cons_of_ne_nil (List.ne_nil_of_mem hmem)
  obtain ⟨hbrace, hleaf⟩ := h.open_brace c hcsize hk brace (by rw [hch]; rfl)
  have hbp : t.parent brace = some c := by
    refine (mem_children.mp ?_).2
    rw [hch]
    exact List.mem_cons_self ..
  have hbsize := lt_size_of_parent hbp
  obtain rfl : brace = k := by
    by_contra hne
    have hlt : brace < k := by
      have hpw := t.children_pairwise c
      rw [hch] at hmem hpw
      exact (List.pairwise_cons.mp hpw).1 k ((List.mem_cons.mp hmem).resolve_left (Ne.symm hne))
    have h1 := h.siblings_of_parent hlt hbp hk'
    have h2 := h.start_lt_stop brace hbsize (pos_of_parent hbp)
    have h3 := (h.inside_of_parent hbp).1
    have h4 := (h.inside_of_encloses hkj).1
    omega
  obtain rfl := eq_of_encloses_of_children_eq_nil hleaf hkj
  exact ⟨hbp, hbrace⟩

/-- Nodes that start at one offset stand in equally many blocks, unless one is the brace of a block. -/
theorem blockDepth_eq_of_start_eq (h : t.Clean) (hij : t.Encloses i j)
    (hstart : (t.node i).start = (t.node j).start)
    (hj : ∀ c, t.parent j = some c → t.kind c = .compoundStatement → t.kind j ≠ openBraceKind) :
    t.blockDepth j = t.blockDepth i := by
  refine blockDepth_eq_of_encloses hij fun c hic hcj hk => ?_
  have h1 := (h.inside_of_encloses hic).1
  have h2 := (h.inside_of_encloses (Or.inr hcj)).1
  obtain ⟨hp, hbrace⟩ := h.open_brace_of_start_eq hk hcj (by omega)
  exact hj c hp hk hbrace

/-! ## Agreement of the indentations -/

/-- The indentation of a node says how many blocks it stands in; three kinds of node are counted in
    three ways. -/
theorem reindents_cases (h : t.Clean) (hr : t.Reindents i width) :
    (t.kind i = .closeBrace ∧ ∃ b, t.parent i = some b ∧ t.kind b = .compoundStatement ∧
      width = t.blockIndent b) ∨
    (width = t.blockIndent i ∧
      (t.isIndented i = true ∨ ∃ d, t.parent i = some d ∧ t.kind d = .functionDefinition)) ∨
    (t.kind i = .parameterDeclaration ∧ ∃ list left, t.parent i = some list ∧
      t.kind list = parameterListKind ∧ t.parent left = some list ∧
      (t.node left).stop ≤ (t.node i).start ∧
      width = (t.blockDepth list + 1) * indentWidth) := by
  cases hr with
  | closingBrace hmem hkind hlast hbrace hrows hempty =>
    exact Or.inl ⟨hbrace, _, (mem_children.mp (List.mem_of_getLast? hlast)).2, hkind, rfl⟩
  | block hmem hind hopen => exact Or.inr (Or.inl ⟨rfl, Or.inl hind⟩)
  | body hdef hdecl hbody hrow =>
    have hp := parent_of_child? hbody
    refine Or.inr (Or.inl ⟨?_, Or.inr ⟨_, hp, hdef.2⟩⟩)
    rw [blockIndent, blockIndent, blockDepth_of_parent hp, hdef.2]
    rfl
  | parameter hdef hlist hpair hleft hright hrow =>
    obtain ⟨hl, hr⟩ := mem_of_mem_neighbours hpair
    have hlp := (mem_children.mp hl).2
    have hrp := (mem_children.mp hr).2
    refine Or.inr (Or.inr ⟨hright, _, _, hrp, h.kind_of_parameterList? hlist, hlp, ?_, ?_⟩)
    · exact h.siblings_of_parent (lt_of_mem_neighbours (t.children_pairwise _) hpair) hlp hrp
    · rw [blockDepth_of_parameterList? hdef hlist]

theorem pos_of_reindents (h : t.Clean) (hr : t.Reindents i width) : 0 < i := by
  refine hr.pos ?_
  rcases h.root_kind with hk | hk <;> simp [isIndented, hk]

/-- No other node starts where the closing brace of a block starts. -/
theorem eq_of_start_eq_closeBrace (h : t.Clean) (hi : i < t.size) (hk : t.kind i = .closeBrace)
    (hp : t.parent i = some p) (hpk : t.kind p = .compoundStatement) (hj : j < t.size)
    (hjpos : 0 < j) (hstart : (t.node i).start = (t.node j).start) : i = j := by
  rcases h.encloses_of_start_eq hi hj (pos_of_parent hp) hjpos hstart with hij | hji
  · exact eq_of_encloses_of_children_eq_nil (h.close_brace i hi hk) hij
  · rcases hji.cases with rfl | ⟨q, hq, hjq⟩
    · rfl
    · obtain rfl := Option.some.inj (hp.symm.trans hq)
      have h1 := (h.inside_of_encloses hjq).1
      have h2 := (h.inside_of_parent hp).1
      have hpi : p ∈ t.ancestors i := mem_ancestors_iff.mpr ⟨p, hp, Or.inl rfl⟩
      have hbrace := (h.open_brace_of_start_eq hpk hpi (by omega)).2
      rw [hk] at hbrace
      cases hbrace

/-- What encloses a node that has a sibling before it starts before that node. -/
theorem eq_of_encloses_of_left (h : t.Clean) (hp : t.parent j = some p) (hl : t.parent l = some p)
    (hlj : (t.node l).stop ≤ (t.node j).start) (hij : t.Encloses i j)
    (hstart : (t.node i).start = (t.node j).start) : i = j := by
  rcases hij.cases with rfl | ⟨q, hq, hiq⟩
  · rfl
  · obtain rfl := Option.some.inj (hp.symm.trans hq)
    have h1 := (h.inside_of_encloses hiq).1
    have h2 := (h.inside_of_parent hl).1
    have h3 := h.start_lt_stop l (lt_size_of_parent hl) (pos_of_parent hl)
    omega

theorem kind_ne_openBrace (hi : t.isIndented i = true ∨
      ∃ d, t.parent i = some d ∧ t.kind d = .functionDefinition) (c : Nat)
    (hp : t.parent i = some c) (hc : t.kind c = .compoundStatement) :
    t.kind i ≠ openBraceKind := by
  rcases hi with hi | ⟨d, hd, hk⟩
  · intro hbrace
    simp [isIndented, hbrace, openBraceKind] at hi
  · obtain rfl := Option.some.inj (hd.symm.trans hp)
    rw [hk] at hc
    cases hc

theorem isIndented_of_kind (hk : t.kind i = .functionDefinition) : t.isIndented i = true := by
  simp [isIndented, hk]

/-- A statement or the body of a function does not start where a parameter behind a comma starts. -/
theorem start_ne_of_parameter (h : t.Clean) (hi : i < t.size) (hipos : 0 < i)
    (hind : t.isIndented i = true ∨ ∃ d, t.parent i = some d ∧ t.kind d = .functionDefinition)
    (hk : t.kind j = .parameterDeclaration) (hp : t.parent j = some p)
    (hpk : t.kind p = parameterListKind) (hl : t.parent l = some p)
    (hlj : (t.node l).stop ≤ (t.node j).start) : (t.node i).start ≠ (t.node j).start := by
  intro hstart
  have hj := lt_size_of_parent hp
  have hne : i ≠ j := by
    rintro rfl
    rcases hind with hind | ⟨d, hd, hdk⟩
    · simp [isIndented, hk] at hind
    · obtain rfl := Option.some.inj (hd.symm.trans hp)
      rw [hdk] at hpk
      cases hpk
  rcases h.encloses_of_start_eq hi hj hipos (pos_of_parent hp) hstart with hij | hji
  · exact hne (h.eq_of_encloses_of_left hp hl hlj hij hstart)
  · rcases hind with hind | ⟨d, hd, hdk⟩
    · exact h.parameter_start j hj i hi hk hind hstart.symm
    · -- the function itself starts inside the parameter
      rcases hji.cases with rfl | ⟨q, hq, hjq⟩
      · exact hne rfl
      · obtain rfl := Option.some.inj (hd.symm.trans hq)
        have h1 := (h.inside_of_encloses hjq).1
        have h2 := (h.inside_of_parent hd).1
        have hdsize : d < t.size := Nat.lt_trans (parent_lt hd) hi
        exact h.parameter_start j hj d hdsize hk (isIndented_of_kind hdk) (by omega)

/-- The rules agree on the indentation of the closing brace of a block. -/
theorem reindents_unique_of_closeBrace (h : t.Clean) (hr : t.Reindents i width)
    (hk : t.kind i = .closeBrace) (hp : t.parent i = some p) (hpk : t.kind p = .compoundStatement)
    (hr' : t.Reindents j width') (hstart : (t.node i).start = (t.node j).start) :
    width' = t.blockIndent p := by
  obtain rfl := h.eq_of_start_eq_closeBrace (hr.lt_size h.toWellFormed) hk hp hpk
    (hr'.lt_size h.toWellFormed) (h.pos_of_reindents hr') hstart
  rcases h.reindents_cases hr' with
    ⟨-, b', hp', -, rfl⟩ | ⟨-, hind | ⟨d, hd, hdk⟩⟩ | ⟨hk', -⟩
  · obtain rfl := Option.some.inj (hp.symm.trans hp')
    rfl
  · simp [isIndented, hk] at hind
  · obtain rfl := Option.some.inj (hp.symm.trans hd)
    rw [hpk] at hdk
    cases hdk
  · rw [hk] at hk'
    cases hk'

/-- The rules agree on the indentation of the nodes that start at one offset. -/
theorem reindents_unique (h : t.Clean) (hr : t.Reindents i width) (hr' : t.Reindents j width')
    (hstart : (t.node i).start = (t.node j).start) : width = width' := by
  have hi := hr.lt_size h.toWellFormed
  have hj := hr'.lt_size h.toWellFormed
  have hipos := h.pos_of_reindents hr
  have hjpos := h.pos_of_reindents hr'
  rcases h.reindents_cases hr with
    ⟨hk, b, hp, hbk, rfl⟩ | ⟨rfl, hind⟩ | ⟨hk, list, left, hp, hlk, hl, hlj, rfl⟩
  · exact (h.reindents_unique_of_closeBrace hr hk hp hbk hr' hstart).symm
  · rcases h.reindents_cases hr' with
      ⟨hk', b', hp', hbk', rfl⟩ | ⟨rfl, hind'⟩ | ⟨hk', list', left', hp', hlk', hl', hlj', -⟩
    · exact h.reindents_unique_of_closeBrace hr' hk' hp' hbk' hr hstart.symm
    · rw [blockIndent, blockIndent]
      congr 1
      rcases h.encloses_of_start_eq hi hj hipos hjpos hstart with hij | hji
      · exact (h.blockDepth_eq_of_start_eq hij hstart (kind_ne_openBrace hind')).symm
      · exact h.blockDepth_eq_of_start_eq hji hstart.symm (kind_ne_openBrace hind)
    · exact absurd hstart (h.start_ne_of_parameter hi hipos hind hk' hp' hlk' hl' hlj')
  · rcases h.reindents_cases hr' with
      ⟨hk', b', hp', hbk', rfl⟩ | ⟨-, hind'⟩ | ⟨hk', list', left', hp', hlk', hl', hlj', rfl⟩
    · exact h.reindents_unique_of_closeBrace hr' hk' hp' hbk' hr hstart.symm
    · exact absurd hstart.symm (h.start_ne_of_parameter hj hjpos hind' hk hp hlk hl hlj)
    · obtain rfl : i = j := by
        rcases h.encloses_of_start_eq hi hj hipos hjpos hstart with hij | hji
        · exact h.eq_of_encloses_of_left hp' hl' hlj' hij hstart
        · exact (h.eq_of_encloses_of_left hp hl hlj hji hstart.symm).symm
      obtain rfl := Option.some.inj (hp.symm.trans hp')
      rfl

/-! ## Agreement of the spacing -/

/-- Blanks between two children of one node: no two pairs of nodes have them at one place. -/
theorem siblings_unique (h : t.Clean) {p' : Nat} (hl : t.parent l = some p) (hr : t.parent r = some p)
    (hl' : t.parent l' = some p') (hr' : t.parent r' = some p')
    (hle : (t.node l).stop ≤ (t.node r).start) (hle' : (t.node l').stop ≤ (t.node r').start)
    (hblank : (t.source.slice (t.node l).stop (t.node r).start).isBlank = true)
    (hblank' : (t.source.slice (t.node l').stop (t.node r').start).isBlank = true)
    (hstart : (t.node r).start = (t.node r').start) : l = l' ∧ r = r' := by
  have hsize := lt_size_of_parent hr
  have hsize' := lt_size_of_parent hr'
  obtain rfl : r = r' := by
    rcases h.encloses_of_start_eq hsize hsize' (pos_of_parent hr) (pos_of_parent hr') hstart with
      hrr' | hr'r
    · exact h.eq_of_encloses_of_left hr' hl' hle' hrr' hstart
    · exact (h.eq_of_encloses_of_left hr hl hle hr'r hstart.symm).symm
  obtain rfl := Option.some.inj (hr.symm.trans hr')
  refine ⟨?_, rfl⟩
  have hlt := h.start_lt_stop l (lt_size_of_parent hl) (pos_of_parent hl)
  have hlt' := h.start_lt_stop l' (lt_size_of_parent hl') (pos_of_parent hl')
  -- the later one of two left neighbours would start inside the blanks of the earlier one
  rcases Nat.lt_trichotomy l l' with hll | rfl | hll
  · have h1 := h.siblings_of_parent hll hl hl'
    have h2 := h.start_notMem (lt_size_of_parent hl') (pos_of_parent hl') hblank h1
    omega
  · rfl
  · have h1 := h.siblings_of_parent hll hl' hl
    have h2 := h.start_notMem (lt_size_of_parent hl) (pos_of_parent hl) hblank' h1
    omega

/-- Where the rules ask for a text between two nodes of a row, the second node does not start the
    row. -/
theorem startsLine_of_respaces (h : t.Clean) (hr : t.Respaces l r wanted) {gap : Bytes}
    (hgap : t.gap? l r = some gap) : t.startsLine r = false := by
  obtain ⟨p, hlp, hrp⟩ := hr.exists_parent
  obtain ⟨hrow, hle, -⟩ := gap?_eq_some_iff.mp hgap
  have hlt := h.start_lt_stop l (lt_size_of_parent hlp) (pos_of_parent hlp)
  have hlt' := h.start_lt_stop r (lt_size_of_parent hrp) (pos_of_parent hrp)
  have hlr : l < r := by
    rcases Nat.lt_trichotomy l r with hlr | rfl | hlr
    · exact hlr
    · omega
    · have := h.siblings_of_parent hlr hrp hlp
      omega
  exact h.meets r (lt_size_of_parent hrp) l hlr p hrp hlp
    (isSpaced_of_spacing? (h.spacing?_of_respaces hr hrp)) hrow

theorem startsLine_congr (hstart : (t.node i).start = (t.node j).start) :
    t.startsLine i = t.startsLine j := by
  simp only [startsLine, lineLead, span, hstart]

theorem leadStart_congr (hstart : (t.node i).start = (t.node j).start) :
    t.leadStart i = t.leadStart j := by
  simp only [leadStart, span, hstart]

/-! ## Agreement of all findings -/

/-- An edit at the end of a row does not end where a node starts. -/
theorem start_ne_of_trimsRow (h : t.Clean) (he : e ∈ t.source.lineEndEdits) (hi : i < t.size)
    (hpos : 0 < i) : e.stopIn t.source ≠ (t.node i).start := by
  intro hstop
  obtain ⟨b, hb, -, hcr, hlf⟩ := h.exists_byte hi hpos
  rcases (h.trimsRow he).behind b (by rw [hstop]; exact hb) with rfl | rfl
  · exact hlf rfl
  · exact hcr rfl

/-- A finding that ends where an indented node starts is the edit of its indentation. -/
theorem eq_of_reindents (h : t.Clean) (hr : t.Reindents i width) (hline : t.startsLine i = true)
    (he : e ∈ t.layoutFindings) (hstop : e.stopIn t.source = (t.node i).start) :
    e.startIn t.source = t.leadStart i ∧ e.newText = Bytes.spaces width := by
  rcases mem_layoutFindings_iff.mp he with (⟨j, v, hr', he⟩ | ⟨l, r, wanted, hr', he⟩) | he
  · obtain ⟨h1, h2, h3⟩ := h.of_reindent? hr' he
    have hstart : (t.node j).start = (t.node i).start := h2.symm.trans hstop
    rw [h1, h3, leadStart_congr hstart, h.reindents_unique hr' hr hstart]
    exact ⟨rfl, rfl⟩
  · obtain ⟨-, h2, -⟩ := h.of_respace? hr' he
    obtain ⟨gap, hgap, -⟩ := respace?_eq_some_iff.mp he
    have := h.startsLine_of_respaces hr' hgap
    rw [startsLine_congr (h2.symm.trans hstop), hline] at this
    cases this
  · exact absurd hstop (h.start_ne_of_trimsRow he (hr.lt_size h.toWellFormed) (h.pos_of_reindents hr))

/-- A finding that ends where the second of two nodes with a wanted text between them starts is the
    edit for that text. -/
theorem eq_of_respaces (h : t.Clean) (hr : t.Respaces l r wanted) {gap : Bytes}
    (hgap : t.gap? l r = some gap) (hblank : gap.isBlank = true) (he : e ∈ t.layoutFindings)
    (hstop : e.stopIn t.source = (t.node r).start) :
    e.startIn t.source = (t.node l).stop ∧ e.newText = wanted := by
  obtain ⟨p, hlp, hrp⟩ := hr.exists_parent
  rcases mem_layoutFindings_iff.mp he with (⟨j, v, hr', he⟩ | ⟨l', r', wanted', hr', he⟩) | he
  · obtain ⟨-, h2, -⟩ := h.of_reindent? hr' he
    have := h.startsLine_of_respaces hr hgap
    rw [← startsLine_congr (h2.symm.trans hstop), (reindent?_eq_some_iff.mp he).1] at this
    cases this
  · obtain ⟨h1, h2, h3⟩ := h.of_respace? hr' he
    obtain ⟨gap', hgap', hblank', -⟩ := respace?_eq_some_iff.mp he
    obtain ⟨-, hle, rfl⟩ := gap?_eq_some_iff.mp hgap
    obtain ⟨-, hle', rfl⟩ := gap?_eq_some_iff.mp hgap'
    obtain ⟨p', hlp', hrp'⟩ := hr'.exists_parent
    obtain ⟨rfl, rfl⟩ := h.siblings_unique hlp' hrp' hlp hrp hle' hle hblank' hblank
      (h2.symm.trans hstop)
    refine ⟨h1, h3.trans (Option.some.inj ?_)⟩
    rw [← h.spacing?_of_respaces hr' hrp, ← h.spacing?_of_respaces hr hrp]
  · exact absurd hstop (h.start_ne_of_trimsRow he (lt_size_of_parent hrp) (pos_of_parent hrp))

/-- An edit ends where a node starts, or at the end of a row. -/
theorem stop_cases (h : t.Clean) (he : e ∈ t.layoutFindings) :
    (∃ b, t.source[e.stopIn t.source]? = some b ∧ Bytes.isBlankByte b = false ∧
      b ≠ Bytes.carriageReturn ∧ b ≠ Bytes.lineFeed) ∨ t.source.TrimsRow e := by
  rcases mem_layoutFindings_iff.mp he with (⟨i, w, hr, he⟩ | ⟨l, r, wanted, hr, he⟩) | he
  · rw [(h.of_reindent? hr he).2.1]
    exact Or.inl (h.exists_byte (hr.lt_size h.toWellFormed) (h.pos_of_reindents hr))
  · obtain ⟨p, -, hp⟩ := hr.exists_parent
    rw [(h.of_respace? hr he).2.1]
    exact Or.inl (h.exists_byte (lt_size_of_parent hp) (pos_of_parent hp))
  · exact Or.inr (h.trimsRow he)

/-- No blank stands right behind the blanks that an edit replaces. -/
theorem byte_behind (h : t.Clean) (he : e ∈ t.layoutFindings) :
    ∀ b ∈ t.source[e.stopIn t.source]?, Bytes.isBlankByte b = false := by
  intro b hb
  rcases h.stop_cases he with ⟨c, hc, hne, -⟩ | ht
  · obtain rfl := Option.some.inj (hc.symm.trans hb)
    exact hne
  · rcases ht.behind b hb with rfl | rfl <;> decide

/-- Two findings that end at one offset are one. -/
theorem eq_of_stop_eq (h : t.Clean) (he : e ∈ t.layoutFindings) (hf : f ∈ t.layoutFindings)
    (hstop : e.stopIn t.source = f.stopIn t.source) : e = f := by
  have hle := (h.onBlanks he).toLiesIn
  have hlf := (h.onBlanks hf).toLiesIn
  rcases mem_layoutFindings_iff.mp he with (⟨i, w, hr, he'⟩ | ⟨l, r, wanted, hr, he'⟩) | he'
  · obtain ⟨h1, h2, h3⟩ := h.of_reindent? hr he'
    obtain ⟨h4, h5⟩ := h.eq_of_reindents hr (reindent?_eq_some_iff.mp he').1 hf (hstop.symm.trans h2)
    exact hle.ext hlf (h1.trans h4.symm) hstop (h3.trans h5.symm)
  · obtain ⟨h1, h2, h3⟩ := h.of_respace? hr he'
    obtain ⟨gap, hgap, hblank, -⟩ := respace?_eq_some_iff.mp he'
    obtain ⟨h4, h5⟩ := h.eq_of_respaces hr hgap hblank hf (hstop.symm.trans h2)
    exact hle.ext hlf (h1.trans h4.symm) hstop (h3.trans h5.symm)
  · rcases mem_layoutFindings_iff.mp hf with (⟨i, w, hr, hf'⟩ | ⟨l, r, wanted, hr, hf'⟩) | hf'
    · exact absurd (hstop.trans (h.of_reindent? hr hf').2.1)
        (h.start_ne_of_trimsRow he' (hr.lt_size h.toWellFormed) (h.pos_of_reindents hr))
    · obtain ⟨p, -, hp⟩ := hr.exists_parent
      exact absurd (hstop.trans (h.of_respace? hr hf').2.1)
        (h.start_ne_of_trimsRow he' (lt_size_of_parent hp) (pos_of_parent hp))
    · exact (h.trimsRow he').ext (h.trimsRow hf') hstop

/-- Findings that end at different offsets are apart. -/
theorem apart_of_stop_lt (h : t.Clean) (he : e ∈ t.layoutFindings) (hf : f ∈ t.layoutFindings)
    (hstop : e.stopIn t.source < f.stopIn t.source) :
    e.stopIn t.source < f.startIn t.source := by
  by_contra hlt
  have hlen : e.stopIn t.source < t.source.length :=
    Nat.lt_of_lt_of_le hstop (h.onBlanks hf).stop_le
  have hb := List.getElem?_eq_getElem hlen
  have hle := Bytes.le_of_isBlank_slice (h.onBlanks hf).blank (Nat.le_of_not_lt hlt) hb
    (h.byte_behind he _ hb)
  omega

/-- Any two findings are one or apart. -/
theorem eq_or_apart (h : t.Clean) (he : e ∈ t.layoutFindings) (hf : f ∈ t.layoutFindings) :
    e = f ∨ Edit.Apart t.source e f := by
  rcases Nat.lt_trichotomy (e.stopIn t.source) (f.stopIn t.source) with hlt | heq | hlt
  · exact Or.inr (Or.inl (h.apart_of_stop_lt he hf hlt))
  · exact Or.inl (h.eq_of_stop_eq he hf heq)
  · exact Or.inr (Or.inr (h.apart_of_stop_lt hf he hlt))

/-- In a clean tree no finding is lost, and no two of the edits touch. -/
theorem layoutEdits_spec (h : t.Clean) :
    (∀ e, e ∈ t.layoutEdits ↔ e ∈ t.layoutFindings) ∧
      t.layoutEdits.Pairwise fun e f => e.stopIn t.source < f.startIn t.source := by
  obtain ⟨h1, h2⟩ := Edit.batch_of_apart (fun e he => (h.onBlanks he).toLiesIn)
    (fun e he f hf => h.eq_or_apart he hf)
  exact ⟨fun e => ⟨Edit.mem_of_mem_batch, h1 e⟩, h2⟩

end Clean

end TwelveD.SyntaxTree
