import Mathlib.Data.List.Chain
import Mathlib.Data.List.Sort
import TwelveD.Proofs.Edits

/-!
# What a batch keeps

A batch is made by one walk over the sorted edits that looks at the last edit kept and at nothing
before it. This is enough: no two edits that are kept overlap, however far apart they stand in the
batch, and each edit that is not kept gives way to one that is. Which spans are kept does not depend on
the order in which the edits were given.
-/

namespace TwelveD.Edit

variable {e f g k : Edit} {es fs : List Edit}

/-! ## Neighbours in a batch -/

/-- Every edit that is kept fits after the one before it. -/
theorem isChain_dropOverlapping (kept : Option Edit) (es : List Edit) :
    (∀ e ∈ kept, ∀ f ∈ (dropOverlapping kept es).head?, fitsAfter e f = true) ∧
      (dropOverlapping kept es).IsChain fun e f => fitsAfter e f = true := by
  induction es generalizing kept with
  | nil => simp [dropOverlapping]
  | cons e es ih =>
    rw [dropOverlapping]
    split
    · rename_i hfits
      obtain ⟨hhead, hchain⟩ := ih (some e)
      refine ⟨fun k hk f hf => ?_, List.isChain_cons.mpr ⟨hhead e rfl, hchain⟩⟩
      obtain rfl : e = f := Option.some.inj hf
      rw [Option.mem_def.mp hk] at hfits
      exact hfits
    · exact ih kept

theorem isChain_batch (es : List Edit) : (batch es).IsChain fun e f => fitsAfter e f = true :=
  (isChain_dropOverlapping none _).2

/-- Where every edit fits after the one before it, none is dropped. -/
theorem dropOverlapping_of_isChain {kept : Option Edit}
    (hkept : ∀ e ∈ kept, ∀ f ∈ es.head?, fitsAfter e f = true)
    (h : es.IsChain fun e f => fitsAfter e f = true) : dropOverlapping kept es = es := by
  induction es generalizing kept with
  | nil => rfl
  | cons e es ih =>
    have hfits : kept.all (fitsAfter · e) = true := by
      cases kept with
      | none => rfl
      | some k => exact hkept k rfl e rfl
    obtain ⟨hhead, hchain⟩ := List.isChain_cons.mp h
    rw [dropOverlapping, if_pos hfits, ih _ hchain]
    intro k hk f hf
    obtain rfl : e = k := Option.some.inj hk
    exact hhead f hf

/-! ## Any two edits of a batch -/

/-- An edit whose span does not end before it starts. -/
def IsForward (e : Edit) : Prop := e.span.start ≤ e.span.stop

/-- One edit ends no later than another one starts, and the two do not replace the same span. -/
def Precedes (e f : Edit) : Prop := e.span.stop ≤ f.span.start ∧ e.span ≠ f.span

theorem fitsAfter_iff_precedes : fitsAfter e f = true ↔ e.Precedes f := by
  simp only [fitsAfter, Bool.not_eq_true', Bool.or_eq_false_iff, decide_eq_false_iff_not,
    beq_eq_false_iff_ne, Point.not_lt]
  exact and_congr_right fun _ => ne_comm

theorem Precedes.trans (he : e.IsForward) (hf : f.IsForward) (hef : e.Precedes f)
    (hfg : f.Precedes g) : e.Precedes g := by
  obtain ⟨hef, hne⟩ := hef
  obtain ⟨hfg, -⟩ := hfg
  refine ⟨Point.le_trans hef (Point.le_trans hf hfg), ?_⟩
  intro heq
  -- a span that came back behind `f` would leave no room for `f`
  have hfe : f.span.stop ≤ e.span.start := by
    rw [heq]
    exact hfg
  have hstart : e.span.start = f.span.start :=
    Point.le_antisymm (Point.le_trans he hef) (Point.le_trans hf hfe)
  have hstop : e.span.stop = f.span.stop :=
    Point.le_antisymm (Point.le_trans hef hf) (Point.le_trans hfe he)
  exact hne (congrArg₂ Span.mk hstart hstop)

/-- What holds of neighbours holds of any two edits. -/
theorem pairwise_precedes (hes : ∀ e ∈ es, e.IsForward)
    (h : es.IsChain fun e f => fitsAfter e f = true) : es.Pairwise Precedes := by
  induction es with
  | nil => exact .nil
  | cons e es ih =>
    obtain ⟨he, hes⟩ := List.forall_mem_cons.mp hes
    obtain ⟨hhead, hchain⟩ := List.isChain_cons.mp h
    have hpairs := ih hes hchain
    refine List.pairwise_cons.mpr ⟨?_, hpairs⟩
    cases es with
    | nil => simp
    | cons f es =>
      have hef : e.Precedes f := fitsAfter_iff_precedes.mp (hhead f rfl)
      intro g hg
      rcases List.mem_cons.mp hg with rfl | hg
      · exact hef
      · exact hef.trans he (hes f (List.mem_cons_self ..)) ((List.pairwise_cons.mp hpairs).1 g hg)

/-! ## Edits that are not kept -/

/-- An edit has to give way to one that is kept: it replaces the same span, or it starts inside. -/
def YieldsTo (e k : Edit) : Prop :=
  e.span = k.span ∨ k.span.start ≤ e.span.start ∧ e.span.start < k.span.stop

theorem start_le_of_span_le {s t : Span} (h : s.le t = true) : s.start ≤ t.start := by
  simp only [Span.le, Bool.or_eq_true, Bool.and_eq_true, decide_eq_true_eq, beq_iff_eq] at h
  rcases h with h | ⟨h, -⟩
  · rw [Point.lt_iff] at h
    rw [Point.le_iff]
    omega
  · rw [h, Point.le_iff]
    omega

theorem yieldsTo_of_not_fitsAfter (hle : k.span.le e.span = true) (h : fitsAfter k e = false) :
    e.YieldsTo k := by
  simp only [fitsAfter, Bool.not_eq_false', Bool.or_eq_true, decide_eq_true_eq, beq_iff_eq] at h
  rcases h with h | h
  · exact Or.inr ⟨start_le_of_span_le hle, h⟩
  · exact Or.inl h

/-- Of sorted edits behind one that is kept, each one is kept or gives way to one that is. -/
theorem exists_yieldsTo_of_mem (hsorted : (k :: es).Pairwise fun e f => e.span.le f.span = true) :
    ∀ e ∈ k :: es, ∃ k' ∈ k :: dropOverlapping (some k) es, e.YieldsTo k' := by
  induction es generalizing k with
  | nil =>
    intro e he
    exact ⟨k, List.mem_cons_self .., Or.inl (by rw [List.mem_singleton.mp he])⟩
  | cons f es ih =>
    obtain ⟨hk, hrest⟩ := List.pairwise_cons.mp hsorted
    intro e he
    rw [dropOverlapping, Option.all_some]
    by_cases hfits : fitsAfter k f = true
    · rw [if_pos hfits]
      rcases List.mem_cons.mp he with rfl | he
      · exact ⟨e, List.mem_cons_self .., Or.inl rfl⟩
      · obtain ⟨k', hk', hyields⟩ := ih hrest e he
        exact ⟨k', List.mem_cons_of_mem k hk', hyields⟩
    · rw [if_neg hfits]
      by_cases hef : e = f
      · have hyields : f.YieldsTo k :=
          yieldsTo_of_not_fitsAfter (hk f (List.mem_cons_self ..)) (Bool.eq_false_iff.mpr hfits)
        rw [hef]
        exact ⟨k, List.mem_cons_self .., hyields⟩
      · have hskip : (k :: es).Sublist (k :: f :: es) := (List.sublist_cons_self f es).cons_cons k
        have he' : e ∈ k :: es := by
          simp only [List.mem_cons] at he ⊢
          tauto
        exact ih (hsorted.sublist hskip) e he'

theorem exists_yieldsTo (h : e ∈ es) : ∃ k ∈ batch es, e.YieldsTo k := by
  have hsorted := pairwise_mergeSort_span es
  have hmem : e ∈ es.mergeSort fun e f => e.span.le f.span := List.mem_mergeSort.mpr h
  unfold batch
  generalize es.mergeSort (fun e f => e.span.le f.span) = sorted at hsorted hmem
  cases sorted with
  | nil => cases hmem
  | cons k rest => exact exists_yieldsTo_of_mem hsorted e hmem

/-! ## Edits in another order -/

theorem span_le_antisymm {s t : Span} (hst : s.le t = true) (hts : t.le s = true) : s = t := by
  obtain ⟨⟨a, b⟩, ⟨c, d⟩⟩ := s
  obtain ⟨⟨a', b'⟩, ⟨c', d'⟩⟩ := t
  simp only [Span.le, Bool.or_eq_true, Bool.and_eq_true, decide_eq_true_eq, beq_iff_eq,
    Point.lt_iff, Point.le_iff, Point.mk.injEq, Span.mk.injEq] at *
  omega

/-- Which spans are kept depends on the spans alone. -/
theorem map_span_dropOverlapping {kept kept' : Option Edit} (hkept : kept.map span = kept'.map span)
    (h : es.map span = fs.map span) :
    (dropOverlapping kept es).map span = (dropOverlapping kept' fs).map span := by
  induction es generalizing fs kept kept' with
  | nil => rw [List.map_eq_nil_iff.mp h.symm]; rfl
  | cons e es ih =>
    obtain ⟨f, fs, rfl, hspan, hrest⟩ := List.map_eq_cons_iff.mp h.symm
    have hfits : kept.all (fitsAfter · e) = kept'.all (fitsAfter · f) := by
      cases kept with
      | none => rw [Option.map_eq_none_iff.mp hkept.symm]; rfl
      | some k =>
        obtain ⟨k', rfl, hk⟩ := Option.map_eq_some_iff.mp hkept.symm
        simp only [Option.all_some, fitsAfter, hspan, hk]
    rw [dropOverlapping, dropOverlapping, hfits]
    split
    · have hkept' : (some e).map span = (some f).map span := by
        rw [Option.map_some, Option.map_some, hspan]
      rw [List.map_cons, List.map_cons, hspan, ih hkept' hrest.symm]
    · exact ih hkept hrest.symm

theorem map_span_batch (h : es.Perm fs) : (batch es).map span = (batch fs).map span := by
  refine map_span_dropOverlapping rfl ?_
  have hperm : ((es.mergeSort fun e f => e.span.le f.span).map span).Perm
      ((fs.mergeSort fun e f => e.span.le f.span).map span) :=
    (((List.mergeSort_perm es _).trans h).trans (List.mergeSort_perm fs _).symm).map span
  have hsorted : ∀ es : List Edit, ((es.mergeSort fun e f => e.span.le f.span).map span).Pairwise
      fun s t => s.le t = true :=
    fun es => List.pairwise_map.mpr (pairwise_mergeSort_span es)
  exact hperm.eq_of_pairwise (fun s t _ _ => span_le_antisymm) (hsorted es) (hsorted fs)

/-! ## Batches -/

theorem batch_sublist (es : List Edit) :
    (batch es).Sublist (es.mergeSort fun e f => e.span.le f.span) :=
  dropOverlapping_sublist none _

theorem pairwise_batch (es : List Edit) : (batch es).Pairwise fun e f => e.span.le f.span = true :=
  (pairwise_mergeSort_span es).sublist (batch_sublist es)

theorem batch_batch (es : List Edit) : batch (batch es) = batch es := by
  have hsort : (batch es).mergeSort (fun e f => e.span.le f.span) = batch es :=
    List.mergeSort_of_pairwise (pairwise_batch es)
  have hnone : ∀ e ∈ (none : Option Edit), ∀ f ∈ (batch es).head?, fitsAfter e f = true := by simp
  conv_lhs => rw [batch, hsort]
  exact dropOverlapping_of_isChain hnone (isChain_batch es)

theorem nodup_batch (hes : ∀ e ∈ es, e.IsForward) : (batch es).Nodup := by
  have hforward : ∀ e ∈ batch es, e.IsForward := fun e he => hes e (mem_of_mem_batch he)
  refine (pairwise_precedes hforward (isChain_batch es)).imp ?_
  intro e f hef heq
  exact hef.2 (congrArg span heq)

theorem LiesIn.isForward {text : Bytes} (h : LiesIn text e) : e.IsForward := by
  unfold IsForward
  rw [← h.start_eq, ← h.stop_eq, Bytes.pointAt_le_iff h.start_le h.stop_le]
  exact h.le

/-- Where any two edits are equal or apart, the batch depends on nothing but which edits are given. -/
theorem batch_congr_of_apart {text : Bytes} (hes : ∀ e ∈ es, LiesIn text e)
    (h : ∀ e ∈ es, ∀ f ∈ es, e = f ∨ Apart text e f) (hmem : ∀ e, e ∈ fs ↔ e ∈ es) :
    batch fs = batch es := by
  have hfs : ∀ e ∈ fs, LiesIn text e := fun e he => hes e ((hmem e).mp he)
  have h' : ∀ e ∈ fs, ∀ f ∈ fs, e = f ∨ Apart text e f := by
    intro e he f hf
    exact h e ((hmem e).mp he) f ((hmem f).mp hf)
  obtain ⟨hall, hapart⟩ := batch_of_apart hes h
  obtain ⟨hall', hapart'⟩ := batch_of_apart hfs h'
  have hperm : (batch fs).Perm (batch es) := by
    rw [List.perm_ext_iff_of_nodup (nodup_batch fun e he => (hfs e he).isForward)
      (nodup_batch fun e he => (hes e he).isForward)]
    intro e
    constructor
    · intro he
      exact hall e ((hmem e).mp (mem_of_mem_batch he))
    · intro he
      exact hall' e ((hmem e).mpr (mem_of_mem_batch he))
  refine hperm.eq_of_pairwise ?_ hapart' hapart
  intro e f he hf hef hfe
  -- neither of two edits that are apart can stand on both sides of the other
  have hle := (hfs e (mem_of_mem_batch he)).le
  have hle' := (hes f (mem_of_mem_batch hf)).le
  omega

/-- A batch of edits that do not end before they start is sorted and free of overlaps, and has no other
    edits than those given. Each edit that is left out replaces the same span as one that is kept or
    starts inside it. A batch of a batch is that batch, and the spans of a batch do not depend on the
    order in which the edits are given. -/
theorem batch_filters_overlaps (es : List Edit) (h : ∀ e ∈ es, e.span.start ≤ e.span.stop) :
    (batch es).Pairwise (fun e f => e.span.le f.span = true) ∧
    (batch es).Pairwise (fun e f => e.span.stop ≤ f.span.start ∧ e.span ≠ f.span) ∧
    (batch es).Subperm es ∧
    (∀ e ∈ es, ∃ k ∈ batch es,
      e.span = k.span ∨ k.span.start ≤ e.span.start ∧ e.span.start < k.span.stop) ∧
    batch (batch es) = batch es ∧
    ∀ fs, fs.Perm es → (batch fs).map span = (batch es).map span := by
  refine ⟨pairwise_batch es, ?_, ?_, ?_, batch_batch es, ?_⟩
  · have hforward : ∀ e ∈ batch es, e.IsForward := fun e he => h e (mem_of_mem_batch he)
    exact pairwise_precedes hforward (isChain_batch es)
  · exact (batch_sublist es).subperm.trans (List.mergeSort_perm es _).subperm
  · intro e he
    exact exists_yieldsTo he
  · intro fs hperm
    exact map_span_batch hperm

/-- Edits that crowd one row: two insertions and a replacement at one point, a deletion that starts
    inside the replacement, one that starts where it ends, and one that starts inside the latter. -/
def crowdedEdits : List Edit :=
  [⟨⟨⟨0, 8⟩, ⟨1, 0⟩⟩, []⟩, ⟨⟨⟨0, 4⟩, ⟨0, 6⟩⟩, Bytes.spaces 1⟩, ⟨⟨⟨0, 4⟩, ⟨0, 4⟩⟩, Bytes.spaces 2⟩,
    ⟨⟨⟨0, 5⟩, ⟨0, 9⟩⟩, []⟩, ⟨⟨⟨0, 4⟩, ⟨0, 4⟩⟩, Bytes.spaces 3⟩, ⟨⟨⟨0, 6⟩, ⟨1, 2⟩⟩, []⟩]

theorem batch_crowdedEdits : batch crowdedEdits =
    [⟨⟨⟨0, 4⟩, ⟨0, 4⟩⟩, Bytes.spaces 2⟩, ⟨⟨⟨0, 4⟩, ⟨0, 6⟩⟩, Bytes.spaces 1⟩, ⟨⟨⟨0, 6⟩, ⟨1, 2⟩⟩, []⟩] := by
  simp [batch, crowdedEdits, List.mergeSort, Span.le, Point.lt_iff, Point.le_iff, dropOverlapping,
    fitsAfter]

theorem batch_filters_overlaps_crowdedEdits :
    (∀ e ∈ crowdedEdits, e.span.start ≤ e.span.stop) ∧
    batch crowdedEdits = [⟨⟨⟨0, 4⟩, ⟨0, 4⟩⟩, Bytes.spaces 2⟩, ⟨⟨⟨0, 4⟩, ⟨0, 6⟩⟩, Bytes.spaces 1⟩,
      ⟨⟨⟨0, 6⟩, ⟨1, 2⟩⟩, []⟩] ∧
    (batch crowdedEdits).Pairwise (fun e f => e.span.stop ≤ f.span.start ∧ e.span ≠ f.span) ∧
    (∀ e ∈ crowdedEdits, ∃ k ∈ batch crowdedEdits,
      e.span = k.span ∨ k.span.start ≤ e.span.start ∧ e.span.start < k.span.stop) ∧
    (batch crowdedEdits.reverse).map span = (batch crowdedEdits).map span := by
  have hforward : ∀ e ∈ crowdedEdits, e.span.start ≤ e.span.stop := by
    simp [crowdedEdits, Point.le_iff]
  obtain ⟨-, hdisjoint, -, hkept, -, hperm⟩ := batch_filters_overlaps crowdedEdits hforward
  exact ⟨hforward, batch_crowdedEdits, hdisjoint, hkept, hperm _ (List.reverse_perm _)⟩

end TwelveD.Edit
