import TwelveD.Proofs.LineEnds

/-!
# Removing the spaces at the ends of rows

What `Bytes.lineEndEdits` makes of a text, row by row: every row loses the spaces at its end, or before
the carriage return at its end. The carriage return is looked for first. In a row that ends with a
space, a carriage return and more spaces it is not found, and when the spaces behind it are gone it
ends the row and the space before it is found: such a text takes two turns, every other text one.
-/

namespace TwelveD

namespace Bytes

variable {text before line row : Bytes} {lines : List Bytes}

/-! ## Rows -/

/-- A row without the spaces at its end; a carriage return at its end stays, and the spaces before it
    go. -/
def trimmedRow (line : Bytes) : Bytes :=
  if line.getLast? = some carriageReturn then withoutSpaces line.dropLast ++ [carriageReturn]
  else line.withoutSpaces

theorem withoutSpaces_append_spaces (row : Bytes) (n : Nat) :
    (row ++ spaces n).withoutSpaces = row.withoutSpaces := by
  induction n with
  | zero => rw [spaces, List.replicate_zero, List.append_nil]
  | succ n ih =>
    rw [spaces, List.replicate_succ', ← List.append_assoc, ← ih]
    exact List.rdropWhile_concat_pos (· == space) _ space (beq_self_eq_true space)

/-- Trimming a row cuts out what lies between the text and the carriage return. -/
theorem trimmedRow_eq (line : Bytes) : trimmedRow line =
    line.take line.withoutReturn.withoutSpaces.length ++ line.drop line.withoutReturn.length := by
  have hlead := (withoutSpaces_isPrefix line.withoutReturn).trans (withoutReturn_isPrefix line)
  rw [← List.prefix_iff_eq_take.mp hlead]
  unfold trimmedRow withoutReturn
  split
  · rename_i hret
    obtain ⟨xs, rfl⟩ := List.getLast?_eq_some_iff.mp hret
    rw [List.dropLast_concat, List.drop_left]
  · rw [List.drop_length, List.append_nil]

/-! ## All rows of a text -/

/-- The edit of one row trims that row. -/
theorem written_lineEndEdit? (hbefore : lastRow before = []) (line behind : Bytes)
    (hlen : (before ++ line ++ behind).length < UInt32.size) :
    Edit.InOrder (before ++ line ++ behind) before.length (before.length + line.length)
        (lineEndEdit? (before.count lineFeed) line).toList ∧
      Edit.written (before ++ line ++ behind) before.length (before.length + line.length)
        (lineEndEdit? (before.count lineFeed) line).toList = trimmedRow line := by
  have hkept : line.withoutReturn.withoutSpaces.length ≤ line.withoutReturn.length :=
    (withoutSpaces_isPrefix _).length_le
  have hstop : line.withoutReturn.length ≤ line.length := (withoutReturn_isPrefix line).length_le
  have hstart : (before ++ line ++ behind).rowStart (before.count lineFeed) = before.length := by
    rw [List.append_assoc]
    exact rowStart_append hbefore _
  rw [trimmedRow_eq]
  by_cases heq : line.withoutReturn.withoutSpaces.length = line.withoutReturn.length
  · have hnone : lineEndEdit? (before.count lineFeed) line = none := by
      simp only [lineEndEdit?, if_pos heq]
    rw [hnone, heq, List.take_append_drop]
    refine ⟨Nat.le_add_right .., ?_⟩
    have hall := slice_append before line behind (Nat.zero_le line.length) (Nat.le_refl _)
    rw [Nat.add_zero, slice_zero, List.take_length] at hall
    exact hall
  · have hsome : lineEndEdit? (before.count lineFeed) line =
        some ⟨⟨⟨before.count lineFeed, line.withoutReturn.withoutSpaces.length⟩,
          ⟨before.count lineFeed, line.withoutReturn.length⟩⟩, []⟩ := by
      have hcount : before.count lineFeed ≤ before.length := List.count_le_length
      rw [List.length_append, List.length_append] at hlen
      simp only [lineEndEdit?, if_neg heq]
      rw [Point.ofCounts_of_lt (by omega) (by omega), Point.ofCounts_of_lt (by omega) (by omega)]
    rw [hsome, Option.toList_some]
    simp only [Edit.InOrder, Edit.written, Edit.startIn, Edit.stopIn, offsetAt, hstart]
    have hleft := slice_append before line behind (Nat.zero_le _) (Nat.le_trans hkept hstop)
    have hright := slice_append before line behind hstop (Nat.le_refl _)
    rw [Nat.add_zero, slice_zero] at hleft
    rw [slice_length] at hright
    rw [hleft, hright, List.append_nil]
    exact ⟨by omega, rfl⟩

/-- The edits of the rows behind `before` trim these rows. -/
theorem written_lineEndEditsFrom (hbefore : lastRow before = []) (hne : lines ≠ [])
    (hlines : ∀ line ∈ lines, lineFeed ∉ line)
    (hlen : (before ++ Text.joined lineFeed lines).length < UInt32.size) :
    Edit.InOrder (before ++ Text.joined lineFeed lines) before.length
        (before ++ Text.joined lineFeed lines).length
        (lineEndEditsFrom (before.count lineFeed) lines) ∧
      Edit.written (before ++ Text.joined lineFeed lines) before.length
        (before ++ Text.joined lineFeed lines).length
        (lineEndEditsFrom (before.count lineFeed) lines) =
          Text.joined lineFeed (lines.map trimmedRow) := by
  induction lines generalizing before with
  | nil => exact absurd rfl hne
  | cons line rest ih =>
    obtain ⟨hline, hrest⟩ := List.forall_mem_cons.mp hlines
    by_cases hnil : rest = []
    · subst hnil
      have hrow := written_lineEndEdit? hbefore line [] (by rwa [List.append_nil])
      rw [List.append_nil] at hrow
      rw [lineEndEditsFrom, lineEndEditsFrom, List.append_nil, Text.joined, List.length_append]
      exact hrow
    · -- the row, its line feed, and the rows behind it
      have htext : before ++ Text.joined lineFeed (line :: rest) =
          before ++ line ++ lineFeed :: Text.joined lineFeed rest := by
        rw [Text.joined_cons lineFeed line hnil, List.append_assoc]
      have htext' : before ++ line ++ lineFeed :: Text.joined lineFeed rest =
          before ++ line ++ [lineFeed] ++ Text.joined lineFeed rest := by
        rw [List.append_assoc _ [lineFeed], List.singleton_append]
      have hcount : (before ++ line ++ [lineFeed]).count lineFeed = before.count lineFeed + 1 := by
        rw [List.count_append, List.count_append, List.count_eq_zero_of_not_mem hline,
          List.count_singleton_self]
      have hstop : (before ++ line ++ [lineFeed]).length = before.length + line.length + 1 := by
        rw [List.length_append, List.length_append, List.length_singleton]
      have hlast : lastRow (before ++ line ++ [lineFeed]) = [] := by
        rw [lastRow_concat, if_pos rfl]
      have hfeed : (before ++ line ++ lineFeed :: Text.joined lineFeed rest)[before.length +
          line.length]? = some lineFeed := by
        rw [← List.length_append, List.getElem?_append_right (Nat.le_refl _), Nat.sub_self]
        rfl
      rw [htext] at hlen
      obtain ⟨horder, hwritten⟩ := written_lineEndEdit? hbefore line _ hlen
      rw [htext'] at hlen
      obtain ⟨horder', hwritten'⟩ := ih hlast hnil hrest hlen
      rw [hcount, hstop, ← htext'] at horder' hwritten'
      have hall := Edit.written_append_byte horder hfeed horder'
      rw [hwritten, hwritten'] at hall
      have hnil' : rest.map trimmedRow ≠ [] := by
        rw [Ne, List.map_eq_nil_iff]
        exact hnil
      rw [htext, lineEndEditsFrom, List.map_cons, Text.joined_cons lineFeed _ hnil']
      exact hall

/-- A text without the spaces at the ends of its rows. -/
def trimRows (text : Bytes) : Bytes := Edit.applyAll text text.lineEndEdits

theorem written_lineEndEdits (hlen : text.length < UInt32.size) :
    Edit.InOrder text 0 text.length text.lineEndEdits ∧
      Edit.written text 0 text.length text.lineEndEdits =
        Text.joined lineFeed (text.rows.map trimmedRow) := by
  have hrows : Text.joined lineFeed text.rows = text := Text.joined_pieces lineFeed text
  have hlines : ∀ line ∈ text.rows, lineFeed ∉ line := fun line => Text.notMem_of_mem_pieces
  have hne : text.rows ≠ [] := Text.pieces_ne_nil lineFeed text
  have hall := @written_lineEndEditsFrom [] text.rows rfl hne hlines
  rw [List.nil_append, hrows] at hall
  exact hall hlen

theorem trimRows_eq (hlen : text.length < UInt32.size) :
    trimRows text = Text.joined lineFeed (text.rows.map trimmedRow) := by
  rw [trimRows, Edit.applyAll_eq_written]
  exact (written_lineEndEdits hlen).2

theorem length_trimmedRow_le (line : Bytes) : (trimmedRow line).length ≤ line.length := by
  have hkept := (withoutSpaces_isPrefix line.withoutReturn).length_le
  rw [trimmedRow_eq, List.length_append, List.length_take, List.length_drop]
  omega

theorem length_trimRows_le (hlen : text.length < UInt32.size) :
    (trimRows text).length ≤ text.length := by
  have hrows : ∀ lines : List Bytes, (Text.joined lineFeed (lines.map trimmedRow)).length ≤
      (Text.joined lineFeed lines).length := by
    intro lines
    induction lines with
    | nil => exact Nat.le_refl _
    | cons line rest ih =>
      have hline := length_trimmedRow_le line
      cases rest with
      | nil => exact hline
      | cons next rest =>
        simp only [List.map_cons, Text.joined, List.length_append, List.length_cons] at ih ⊢
        omega
  have hall := hrows text.rows
  rw [rows, Text.joined_pieces, ← rows, ← trimRows_eq hlen] at hall
  exact hall

theorem lineFeed_notMem_trimmedRow (h : lineFeed ∉ line) : lineFeed ∉ trimmedRow line := by
  rw [trimmedRow_eq, List.mem_append, not_or]
  exact ⟨fun hmem => h (List.mem_of_mem_take hmem), fun hmem => h (List.mem_of_mem_drop hmem)⟩

theorem rows_trimRows (hlen : text.length < UInt32.size) :
    (trimRows text).rows = text.rows.map trimmedRow := by
  rw [trimRows_eq hlen, rows]
  refine Text.pieces_joined ?_ ?_
  · rw [Ne, List.map_eq_nil_iff]
    exact Text.pieces_ne_nil lineFeed text
  · intro line hline
    obtain ⟨row, hrow, rfl⟩ := List.mem_map.mp hline
    exact lineFeed_notMem_trimmedRow (Text.notMem_of_mem_pieces hrow)

/-! ## One turn and two -/

/-- A row ends with a space, a carriage return and more spaces. -/
def HidesSpace (line : Bytes) : Prop :=
  ∃ lead n, line = lead ++ [space] ++ [carriageReturn] ++ spaces (n + 1)

theorem withoutReturn_concat (row : Bytes) : withoutReturn (row ++ [carriageReturn]) = row := by
  rw [withoutReturn, if_pos List.getLast?_concat, List.dropLast_concat]

theorem getLast?_append_spaces (row : Bytes) (n : Nat) :
    (row ++ spaces (n + 1)).getLast? = some space := by
  rw [spaces, List.replicate_succ', ← List.append_assoc, List.getLast?_concat]

/-- The spaces behind the carriage return go, and the space before it stays. -/
theorem trimmedRow_of_hidesSpace (lead : Bytes) (n : Nat) :
    trimmedRow (lead ++ [space] ++ [carriageReturn] ++ spaces (n + 1)) =
      lead ++ [space] ++ [carriageReturn] := by
  have hself : (lead ++ [space] ++ [carriageReturn]).withoutSpaces =
      lead ++ [space] ++ [carriageReturn] := by
    rw [withoutSpaces_eq_self_iff, List.getLast?_concat]
    decide
  rw [trimmedRow, getLast?_append_spaces, if_neg (by decide), withoutSpaces_append_spaces, hself]

theorem hidesSpace_of_not_isSettled (h : ¬ (trimmedRow line).IsSettled) : line.HidesSpace := by
  rw [IsSettled, not_not] at h
  by_cases hret : line.getLast? = some carriageReturn
  · -- the carriage return stays where it is, and no space is left before it
    rw [trimmedRow, if_pos hret, withoutReturn_concat] at h
    exact absurd h (getLast?_withoutSpaces_ne _)
  · rw [trimmedRow, if_neg hret] at h
    by_cases hret' : line.withoutSpaces.getLast? = some carriageReturn
    · obtain ⟨row, hrow⟩ := List.getLast?_eq_some_iff.mp hret'
      rw [hrow, withoutReturn_concat] at h
      obtain ⟨lead, rfl⟩ := List.getLast?_eq_some_iff.mp h
      obtain ⟨n, hparts⟩ := exists_append_spaces line
      cases n with
      | zero =>
        -- without spaces behind it the carriage return would have been found
        rw [spaces, List.replicate_zero, List.append_nil] at hparts
        rw [← hparts] at hret'
        exact absurd hret' hret
      | succ n =>
        refine ⟨lead, n, ?_⟩
        rw [← hrow]
        exact hparts
    · rw [withoutReturn, if_neg hret'] at h
      exact absurd h (getLast?_withoutSpaces_ne line)

theorem isSettled_trimmedRow_iff : (trimmedRow line).IsSettled ↔ ¬ line.HidesSpace := by
  constructor
  · rintro hsettled ⟨lead, n, rfl⟩
    rw [IsSettled, trimmedRow_of_hidesSpace, withoutReturn_concat, List.getLast?_concat] at hsettled
    exact hsettled rfl
  · intro hhides
    by_contra hsettled
    exact hhides (hidesSpace_of_not_isSettled hsettled)

theorem not_hidesSpace_trimmedRow (line : Bytes) : ¬ (trimmedRow line).HidesSpace := by
  rintro ⟨lead, n, heq⟩
  have hend : (trimmedRow line).getLast? = some space := by
    rw [heq, getLast?_append_spaces]
  by_cases hret : line.getLast? = some carriageReturn
  · rw [trimmedRow, if_pos hret, List.getLast?_concat] at hend
    exact absurd hend (by decide)
  · rw [trimmedRow, if_neg hret] at hend
    exact getLast?_withoutSpaces_ne line hend

/-- After one turn no row has spaces at its end exactly if no row ended with a space, a carriage return
    and more spaces. After two turns no row of any text has. The text is one whose rows and columns
    can be counted with 32 bits. -/
theorem trimRows_settles (text : Bytes) (hlen : text.length < UInt32.size) :
    ((trimRows text).lineEndEdits = [] ↔ ∀ line ∈ text.rows, ¬ line.HidesSpace) ∧
      (trimRows (trimRows text)).lineEndEdits = [] := by
  have hturn : ∀ text : Bytes, text.length < UInt32.size →
      ((trimRows text).lineEndEdits = [] ↔ ∀ line ∈ text.rows, ¬ line.HidesSpace) := by
    intro text hlen
    rw [lineEndEdits_eq_nil_iff, rows_trimRows hlen]
    simp only [List.forall_mem_map, isSettled_trimmedRow_iff]
  refine ⟨hturn text hlen, (hturn _ (Nat.lt_of_le_of_lt (length_trimRows_le hlen) hlen)).mpr ?_⟩
  intro line hline
  rw [rows_trimRows hlen] at hline
  obtain ⟨row, -, rfl⟩ := List.mem_map.mp hline
  exact not_hidesSpace_trimmedRow row

/-- One turn does for a row with spaces before its carriage return. -/
theorem trimRows_settles_beforeReturn :
    (ofString "Integer x;  \r\nText t;\r\n").length < UInt32.size ∧
      trimRows (ofString "Integer x;  \r\nText t;\r\n") = ofString "Integer x;\r\nText t;\r\n" ∧
      ((trimRows (ofString "Integer x;  \r\nText t;\r\n")).lineEndEdits = [] ↔
        ∀ line ∈ (ofString "Integer x;  \r\nText t;\r\n").rows, ¬ line.HidesSpace) ∧
      (trimRows (trimRows (ofString "Integer x;  \r\nText t;\r\n"))).lineEndEdits = [] := by
  have hlen : (ofString "Integer x;  \r\nText t;\r\n").length < UInt32.size := by decide
  exact ⟨hlen, by decide, trimRows_settles _ hlen⟩

/-- A row that takes two turns: the first one leaves a space before the carriage return, which the
    second one finds. -/
theorem trimRows_leaves_space :
    trimRows (ofString "Integer x; \r \nText t;\r\n") = ofString "Integer x; \r\nText t;\r\n" ∧
      (trimRows (ofString "Integer x; \r \nText t;\r\n")).lineEndEdits = [⟨⟨⟨0, 10⟩, ⟨0, 11⟩⟩, []⟩] := by
  decide

/-- A text that is too long: its only row has as many bytes as a point can count and a space behind
    them. The edit for the space starts at the count that comes after the greatest one, which is 0, and
    takes the first byte away. -/
theorem trimRows_of_overlong (hlen : row.length = UInt32.size) (hrow : lineFeed ∉ row)
    (hlast : row.getLast? ≠ some space) : trimRows (row ++ [space]) = row.tail ++ [space] := by
  have hfeed : lineFeed ∉ row ++ [space] := by
    rw [List.mem_append, not_or]
    exact ⟨hrow, by decide⟩
  have hret : withoutReturn (row ++ [space]) = row ++ [space] := by
    rw [withoutReturn, List.getLast?_concat, if_neg (by decide)]
  have hkept : withoutSpaces (row ++ [space]) = row :=
    (withoutSpaces_append_spaces row 1).trans (withoutSpaces_eq_self_iff.mpr hlast)
  have hedit : lineEndEdit? 0 (row ++ [space]) = some ⟨⟨⟨0, 0⟩, ⟨0, 1⟩⟩, []⟩ := by
    simp only [lineEndEdit?, hret, hkept, hlen, List.length_append, List.length_singleton]
    rfl
  have hpos : 0 < row.length := by
    rw [hlen]
    decide
  rw [trimRows, lineEndEdits, rows, Text.pieces_of_notMem hfeed, lineEndEditsFrom, hedit,
    lineEndEditsFrom, Edit.applyAll_eq_written]
  simp only [Option.toList_some, List.append_nil, Edit.written, Edit.startIn, Edit.stopIn, offsetAt,
    rowStart, Nat.zero_add, slice_self, List.nil_append]
  rw [slice_length, List.drop_one, List.tail_append_of_ne_nil (List.length_pos_iff.mp hpos)]

end Bytes

end TwelveD
