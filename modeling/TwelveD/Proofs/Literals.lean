import Mathlib.Tactic.Common
import TwelveD.Tree.Query

/-!
# String literals in queries

A literal that `quote` writes is read back by `scan` as the text it was made from. The reader stops at
the quote that was written last and at no earlier one: no text ends its literal before its own end, and
what follows the literal is left as it is.
-/

namespace TwelveD.Query.Literal

variable {c : Char} {s z rest : List Char}

/-! ## Single characters -/

theorem escape_of_ne (hquote : c ≠ '"') (hslash : c ≠ '\\') (hfeed : c ≠ '\n') : escape c = [c] := by
  unfold escape
  split
  · exact absurd rfl hquote
  · exact absurd rfl hslash
  · exact absurd rfl hfeed
  · rfl

theorem scanRest_of_ne (hquote : c ≠ '"') (hslash : c ≠ '\\') (hfeed : c ≠ '\n') (rest : List Char) :
    scanRest (c :: rest) = (scanRest rest).map fun (s, r) => (c :: s, r) := by
  rw [scanRest]
  · exact hquote
  · exact hfeed
  · intro _ _ hc
    exact absurd hc hslash
  · intro hc
    exact absurd hc hslash

theorem scanRest_escaped (c : Char) (rest : List Char) :
    scanRest ('\\' :: c :: rest) = (scanRest rest).map fun (s, r) => (unescape c :: s, r) := by
  rw [scanRest]

/-- A written character is read as itself, whichever characters stand beside it. -/
theorem scanRest_escape_append (c : Char) (rest : List Char) :
    scanRest (escape c ++ rest) = (scanRest rest).map fun (s, r) => (c :: s, r) := by
  by_cases hquote : c = '"'
  · subst hquote
    exact scanRest_escaped '"' rest
  by_cases hslash : c = '\\'
  · subst hslash
    exact scanRest_escaped '\\' rest
  by_cases hfeed : c = '\n'
  · subst hfeed
    exact scanRest_escaped 'n' rest
  rw [escape_of_ne hquote hslash hfeed, List.singleton_append, scanRest_of_ne hquote hslash hfeed]

/-! ## Whole literals -/

theorem scanRest_flatMap_escape_append (x rest : List Char) :
    scanRest (x.flatMap escape ++ rest) = (scanRest rest).map fun (s, r) => (x ++ s, r) := by
  induction x with
  | nil => simp
  | cons c x ih =>
    rw [List.flatMap_cons, List.append_assoc, scanRest_escape_append, ih, Option.map_map]
    rfl

theorem scan_quote_append (x y : List Char) : scan (quote x ++ y) = some (x, y) := by
  have hquote : quote x ++ y = '"' :: (x.flatMap escape ++ '"' :: y) := by
    simp [quote]
  rw [hquote, scan, scanRest_flatMap_escape_append, scanRest]
  simp

/-- A literal that has been read stays the same, whatever text is put behind it. -/
theorem scanRest_append (h : scanRest z = some (s, rest)) (y : List Char) :
    scanRest (z ++ y) = some (s, rest ++ y) := by
  fun_induction scanRest z generalizing s with
  | case1 => cases h
  | case2 tail =>
    obtain ⟨rfl, rfl⟩ := Prod.mk.inj (Option.some.inj h)
    rw [List.cons_append, scanRest]
  | case3 tail => cases h
  | case4 c tail ih =>
    obtain ⟨⟨value, left⟩, hread, heq⟩ := Option.map_eq_some_iff.mp h
    obtain ⟨rfl, rfl⟩ := Prod.mk.inj heq
    rw [List.cons_append, List.cons_append, scanRest_escaped, ih hread, Option.map_some]
  | case5 => cases h
  | case6 c tail hquote hfeed hmore hlast ih =>
    have hslash : c ≠ '\\' := by
      intro hc
      cases tail with
      | nil => exact hlast hc rfl
      | cons d tail => exact hmore d tail hc rfl
    obtain ⟨⟨value, left⟩, hread, heq⟩ := Option.map_eq_some_iff.mp h
    obtain ⟨rfl, rfl⟩ := Prod.mk.inj heq
    rw [List.cons_append, scanRest_of_ne hquote hslash hfeed, ih hread, Option.map_some]

theorem scan_append (h : scan z = some (s, rest)) (y : List Char) :
    scan (z ++ y) = some (s, rest ++ y) := by
  unfold scan at h
  split at h
  · exact scanRest_append h y
  · cases h

/-- A written literal gives its text back and ends with its last character. A part of it that ends before
    is no literal, and what stands behind it does not matter. -/
theorem scan_undoes_quote (x y : List Char) :
    scan (quote x) = some (x, []) ∧ (∀ z, z <+: quote x → z ≠ quote x → scan z = none) ∧
    scan (quote x ++ y) = some (x, y) := by
  have hwhole : scan (quote x) = some (x, []) := by
    simpa using scan_quote_append x []
  refine ⟨hwhole, ?_, scan_quote_append x y⟩
  rintro z ⟨behind, hbehind⟩ hne
  cases hz : scan z with
  | none => rfl
  | some read =>
    obtain ⟨value, left⟩ := read
    have hread := scan_append hz behind
    rw [hbehind, hwhole] at hread
    have hnil : left ++ behind = [] := (Prod.mk.inj (Option.some.inj hread)).2.symm
    rw [(List.append_eq_nil_iff.mp hnil).2, List.append_nil] at hbehind
    exact absurd hbehind hne

example : scan (quote ['\\', '"', 'n'] ++ ['"']) = some (['\\', '"', 'n'], ['"']) := by decide

end TwelveD.Query.Literal
