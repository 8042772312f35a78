import Mathlib.Data.List.Dedup
import TwelveD.Proofs.Batches
import TwelveD.Proofs.LayoutStable

/-!
# The layout rules side by side

The four groups of rules look at a document independently of each other. In a clean tree their findings
never get in each other's way: two of them are one and the same edit, or other text stands between
them. So the batch is the findings without repetitions, whichever group comes first.
-/

namespace TwelveD.SyntaxTree

variable {t : SyntaxTree} {e : Edit}

theorem Clean.nodup_layoutEdits (h : t.Clean) : t.layoutEdits.Nodup :=
  Edit.nodup_batch fun _ he => (h.onBlanks he).isForward

theorem mem_flatten_iff_mem_layoutFindings {passes : List (List Edit)}
    (h : passes.Perm [t.blockEdits, t.source.lineEndEdits, t.allHeadingEdits, t.callEdits]) :
    e ∈ passes.flatten ↔ e ∈ t.layoutFindings := by
  rw [h.flatten.mem_iff]
  simp only [layoutFindings, List.flatten_cons, List.flatten_nil, List.append_nil,
    List.append_assoc]

end TwelveD.SyntaxTree
