import Mathlib.Tactic.Common
import TwelveD.Protocol.Frame

/-!
# Packets

A header block is everything that stands before a body: blank lines, which are skipped, the header
lines, and the blank line behind them. Its header lines may be any lines with something in them:
unknown headers, several lengths, even lines that are no headers at all. A packet is a header block
together with as many bytes as it announces. Reading takes exactly one packet from the front of a
stream, whatever its body holds and whatever follows it.
-/

namespace TwelveD

namespace Text

/-! ## The line feed at the end of a line -/

theorem lineFeed_lt_of_lead {b : UInt8} {p : Pending} (h : lead b = .opens p) :
    Bytes.lineFeed < p.low := by
  simp only [lead] at h
  split_ifs at h <;> obtain rfl := Lead.opens.inj h <;> dsimp only <;> decide

/-- A line feed is a character of its own, also behind a character that has broken off: no pending
    character can go on with it. -/
theorem decodeFrom_concat_lineFeed {pending : Option Pending}
    (h : ∀ p ∈ pending, Bytes.lineFeed < p.low) (bytes : Bytes) :
    decodeFrom pending (bytes ++ [Bytes.lineFeed]) = decodeFrom pending bytes ++ ['\n'] := by
  induction bytes generalizing pending with
  | nil =>
    cases pending with
    | none => rfl
    | some p =>
      have hlow : ¬ p.low ≤ Bytes.lineFeed := UInt8.not_le.mpr (h p rfl)
      simp only [List.nil_append, decodeFrom, hlow, false_and, if_false]
      rfl
  | cons b bytes ih =>
    have hnone : ∀ p ∈ (none : Option Pending), Bytes.lineFeed < p.low := by simp
    have hlead : ∀ q, lead b = .opens q → ∀ p ∈ some q, Bytes.lineFeed < p.low := by
      intro q hq p hp
      obtain rfl := Option.some.inj hp
      exact lineFeed_lt_of_lead hq
    cases pending with
    | none =>
      simp only [List.cons_append, decodeFrom]
      cases hb : lead b with
      | single c => simp only [ih hnone, List.cons_append]
      | opens q => exact ih (hlead q hb)
      | stray => simp only [ih hnone, List.cons_append]
    | some p =>
      simp only [List.cons_append, decodeFrom]
      split
      · cases p.more with
        | zero => simp only [ih hnone, List.cons_append]
        | succ more =>
          refine ih fun q hq => ?_
          obtain rfl := Option.some.inj hq
          exact (by decide : Bytes.lineFeed < 0x80)
      · cases hb : lead b with
        | single c => simp only [ih hnone, List.cons_append]
        | opens q => simp only [ih (hlead q hb), List.cons_append]
        | stray => simp only [ih hnone, List.cons_append]

theorem trim_concat {c : Char} (h : isBlank c = true) (cs : List Char) :
    trim (cs ++ [c]) = trim cs := by
  have hend : ∀ ds : List Char, trimEnd (ds ++ [c]) = trimEnd ds := by
    intro ds
    rw [trimEnd, List.reverse_append, List.reverse_singleton, List.singleton_append,
      List.dropWhile_cons_of_pos h, ← trimEnd]
  unfold trim trimStart
  rw [List.dropWhile_append]
  split
  · rename_i hnil
    rw [List.isEmpty_iff.mp hnil, List.dropWhile_cons_of_pos h, List.dropWhile_nil]
  · exact hend _

theorem cut?_eq_none_iff {separator : Char} {cs : List Char} :
    cut? separator cs = none ↔ separator ∉ cs := by
  induction cs with
  | nil => simp [cut?]
  | cons c cs ih =>
    by_cases hc : c = separator
    · simp [cut?, hc]
    · simp [cut?, hc, ih, Ne.symm hc]

theorem cut?_append {separator : Char} {before : List Char} (h : separator ∉ before)
    (behind : List Char) : cut? separator (before ++ separator :: behind) = some (before, behind) := by
  induction before with
  | nil => simp [cut?]
  | cons a before ih =>
    rw [List.mem_cons, not_or] at h
    rw [List.cons_append, cut?, if_neg (Ne.symm h.1), ih h.2]
    rfl

theorem cut?_eq_some_iff {separator : Char} {cs before behind : List Char} :
    cut? separator cs = some (before, behind) ↔
      cs = before ++ separator :: behind ∧ separator ∉ before := by
  constructor
  · intro h
    induction cs generalizing before with
    | nil => cases h
    | cons c cs ih =>
      unfold cut? at h
      by_cases hc : c = separator
      · rw [if_pos hc] at h
        obtain ⟨rfl, rfl⟩ := Prod.mk.inj (Option.some.inj h)
        rw [hc]
        exact ⟨rfl, List.not_mem_nil⟩
      · rw [if_neg hc] at h
        obtain ⟨⟨before', behind'⟩, hcut, heq⟩ := Option.map_eq_some_iff.mp h
        obtain ⟨rfl, rfl⟩ := Prod.mk.inj heq
        obtain ⟨rfl, hnot⟩ := ih hcut
        refine ⟨rfl, ?_⟩
        rw [List.mem_cons, not_or]
        exact ⟨Ne.symm hc, hnot⟩
  · rintro ⟨rfl, hnot⟩
    exact cut?_append hnot behind

end Text

namespace Frame

/-! ## Lines -/

/-- A line of a stream, without the line feed that ends it. -/
structure Line where
  /-- The bytes of the line. -/
  bytes : Bytes
  /-- The line feed at its end is the first one. -/
  lineFeed_notMem : Bytes.lineFeed ∉ bytes

namespace Line

/-- The text of a line, without the blanks around it. -/
def text (l : Line) : List Char := lineText l.bytes

/-- A line as it stands in a stream. -/
def written (l : Line) : Bytes := l.bytes ++ [Bytes.lineFeed]

theorem lineText_written (l : Line) : lineText l.written = l.text := by
  have hdecode : Text.decode l.written = Text.decode l.bytes ++ ['\n'] :=
    Text.decodeFrom_concat_lineFeed (by simp) l.bytes
  rw [lineText, hdecode, Text.trim_concat (by decide), text, lineText]

theorem splitLine_written (l : Line) (rest : Bytes) :
    splitLine (l.written ++ rest) = (l.written, rest) := by
  obtain ⟨bytes, h⟩ := l
  simp only [written]
  induction bytes with
  | nil => simp [splitLine]
  | cons b bytes ih =>
    rw [List.mem_cons, not_or] at h
    rw [List.cons_append, List.cons_append, splitLine, if_neg (Ne.symm h.1), ih h.2]

theorem lineFeed_notMem_carriageReturn : Bytes.lineFeed ∉ [Bytes.carriageReturn] := by decide

/-- The line between the header and the body of a written frame. -/
def carriageReturn : Line := ⟨[Bytes.carriageReturn], lineFeed_notMem_carriageReturn⟩

theorem text_carriageReturn : carriageReturn.text = [] := by decide

end Line

/-! ## Header blocks -/

/-- One line of a stream: a line with something in it is added to the block, a blank line ends the
    block or, before its first line, is skipped. -/
theorem readBlock_written (seen : List (List Char)) (l : Line) (rest : Bytes) :
    readBlock seen (l.written ++ rest) =
      if l.text = [] then if seen = [] then readBlock [] rest else .closed seen.reverse rest
      else readBlock (l.text :: seen) rest := by
  have hne : l.written ++ rest ≠ [] := by simp [Line.written]
  rw [readBlock, dif_neg hne]
  simp only [Line.splitLine_written, Line.lineText_written, List.isEmpty_iff]

theorem readBlock_headers {headers : List Line} (h : ∀ l ∈ headers, l.text ≠ [])
    (seen : List (List Char)) (rest : Bytes) :
    readBlock seen (headers.flatMap Line.written ++ rest) =
      readBlock ((headers.map Line.text).reverse ++ seen) rest := by
  induction headers generalizing seen with
  | nil => rfl
  | cons l headers ih =>
    obtain ⟨hl, hheaders⟩ := List.forall_mem_cons.mp h
    rw [List.flatMap_cons, List.append_assoc, readBlock_written, if_neg hl, ih hheaders]
    simp

theorem readBlock_blanks {blanks : List Line} (h : ∀ l ∈ blanks, l.text = []) (rest : Bytes) :
    readBlock [] (blanks.flatMap Line.written ++ rest) = readBlock [] rest := by
  induction blanks with
  | nil => rfl
  | cons l blanks ih =>
    obtain ⟨hl, hblanks⟩ := List.forall_mem_cons.mp h
    rw [List.flatMap_cons, List.append_assoc, readBlock_written, if_pos hl, if_pos rfl, ih hblanks]

theorem Line.text_of_mem_nil : ∀ l ∈ ([] : List Line), l.text = [] := by simp

/-- Blank lines, header lines and a blank line behind them. -/
structure HeaderBlock where
  /-- The blank lines before the first header line. -/
  blanks : List Line
  /-- The header lines, in their order. -/
  headers : List Line
  /-- The blank line behind the header lines. -/
  separator : Line
  /-- There is nothing in the lines before the first header line. -/
  text_blanks : ∀ l ∈ blanks, l.text = []
  /-- There is a header line. -/
  headers_ne_nil : headers ≠ []
  /-- There is something in every header line. -/
  text_ne_nil : ∀ l ∈ headers, l.text ≠ []
  /-- There is nothing in the line that ends the block. -/
  text_separator : separator.text = []

namespace HeaderBlock

/-- The texts of the header lines. -/
def lines (b : HeaderBlock) : List (List Char) := b.headers.map Line.text

/-- A header block as it stands in a stream. -/
def bytes (b : HeaderBlock) : Bytes :=
  b.blanks.flatMap Line.written ++ (b.headers.flatMap Line.written ++ b.separator.written)

theorem reverse_lines_ne_nil (b : HeaderBlock) : b.lines.reverse ≠ [] := by
  simpa [lines] using b.headers_ne_nil

/-- A header block is read up to its end. -/
theorem readBlock_bytes (b : HeaderBlock) (rest : Bytes) :
    readBlock [] (b.bytes ++ rest) = .closed b.lines rest := by
  rw [bytes, List.append_assoc, List.append_assoc, readBlock_blanks b.text_blanks,
    readBlock_headers b.text_ne_nil, List.append_nil, ← lines, readBlock_written,
    if_pos b.text_separator, if_neg b.reverse_lines_ne_nil, List.reverse_reverse]

end HeaderBlock

/-- A blank line between packets is skipped. -/
theorem read_blank {l : Line} (h : l.text = []) (rest : Bytes) :
    read (l.written ++ rest) = read rest := by
  rw [read, readIn, readBlock_written, if_pos h, if_pos rfl, ← readIn, ← read]

/-! ## Lengths -/

section Lengths

variable {lines : List (List Char)} {line value : List Char} {n : Nat}

/-- A header line gives the length of the body as `value`. -/
def GivesLength (line value : List Char) : Prop :=
  ∃ name behind, line = name ++ ':' :: behind ∧ ':' ∉ name ∧
    (Text.trim name).map Char.toLower = lengthName.map Char.toLower ∧ value = Text.trim behind

theorem lengthValue?_eq_some_iff : lengthValue? line = some value ↔ GivesLength line value := by
  unfold lengthValue? GivesLength
  constructor
  · intro h
    split at h
    · rename_i name behind hcut
      obtain ⟨rfl, hname⟩ := Text.cut?_eq_some_iff.mp hcut
      by_cases heq : (Text.trim name).map Char.toLower = lengthName.map Char.toLower
      · rw [if_pos heq] at h
        exact ⟨name, behind, rfl, hname, heq, (Option.some.inj h).symm⟩
      · rw [if_neg heq] at h
        cases h
    · cases h
  · rintro ⟨name, behind, rfl, hname, heq, rfl⟩
    simp only [Text.cut?_append hname, if_pos heq]

theorem lengthValue?_eq_none_iff : lengthValue? line = none ↔ ∀ value, ¬ GivesLength line value := by
  rw [Option.eq_none_iff_forall_ne_some]
  exact forall_congr' fun value => not_congr lengthValue?_eq_some_iff

/-- The last header line that gives the length of the body gives it as `value`. -/
def LastLength (lines : List (List Char)) (value : List Char) : Prop :=
  ∃ before line behind, lines = before ++ line :: behind ∧ GivesLength line value ∧
    ∀ l ∈ behind, ∀ v, ¬ GivesLength l v

theorem getLast?_lengthValues_eq_some_iff :
    (lines.filterMap lengthValue?).getLast? = some value ↔ LastLength lines value := by
  -- the last line that gives a length is the first one from behind
  rw [List.getLast?_eq_head?_reverse, ← List.filterMap_reverse, List.head?_filterMap,
    List.findSome?_eq_some_iff]
  constructor
  · rintro ⟨behind, line, before, heq, hvalue, hbehind⟩
    refine ⟨before.reverse, line, behind.reverse, ?_, lengthValue?_eq_some_iff.mp hvalue, ?_⟩
    · rw [← List.reverse_reverse lines, heq]
      simp
    · intro l hl
      exact lengthValue?_eq_none_iff.mp (hbehind l (List.mem_reverse.mp hl))
  · rintro ⟨before, line, behind, rfl, hvalue, hbehind⟩
    refine ⟨behind.reverse, line, before.reverse, by simp, lengthValue?_eq_some_iff.mpr hvalue, ?_⟩
    intro l hl
    exact lengthValue?_eq_none_iff.mpr (hbehind l (List.mem_reverse.mp hl))

theorem getLast?_lengthValues_eq_none_iff : (lines.filterMap lengthValue?).getLast? = none ↔
    ∀ line ∈ lines, ∀ value, ¬ GivesLength line value := by
  rw [List.getLast?_eq_none_iff, List.filterMap_eq_nil_iff]
  exact forall₂_congr fun line _ => lengthValue?_eq_none_iff

/-- One or more decimal digits, with or without a plus sign, and the number they stand for. -/
inductive Denotes : List Char → Nat → Prop where
  | digits {ds : List Char} (hne : ds ≠ []) (hds : ∀ d ∈ ds, d.isDigit = true) :
      Denotes ds (Nat.ofDigitChars 10 ds 0)
  | plus {ds : List Char} (hne : ds ≠ []) (hds : ∀ d ∈ ds, d.isDigit = true) :
      Denotes ('+' :: ds) (Nat.ofDigitChars 10 ds 0)

theorem digitsValue?_eq_some_iff {ds : List Char} : digitsValue? ds = some n ↔
    (ds ≠ [] ∧ ∀ d ∈ ds, d.isDigit = true) ∧ Nat.ofDigitChars 10 ds 0 = n ∧ n < UInt64.size := by
  have hvalue : ds.foldl (fun n d => n * 10 + (d.toNat - '0'.toNat)) 0 =
      Nat.ofDigitChars 10 ds 0 := by
    rw [Nat.ofDigitChars_eq_foldl]
    simp only [Nat.mul_comm]
  rw [digitsValue?, hvalue]
  by_cases hds : ds ≠ [] ∧ ∀ d ∈ ds, d.isDigit = true
  · have htest : (ds.isEmpty || !ds.all Char.isDigit) = false := by
      simpa using hds
    rw [if_neg (by simp [htest])]
    dsimp only
    split
    · rename_i hlt
      rw [Option.some.injEq]
      constructor
      · rintro rfl
        exact ⟨hds, rfl, hlt⟩
      · exact fun h => h.2.1
    · rename_i hge
      constructor
      · intro h
        cases h
      · rintro ⟨-, rfl, hlt⟩
        exact absurd hlt hge
  · have htest : (ds.isEmpty || !ds.all Char.isDigit) = true := by
      by_contra hfalse
      rw [Bool.not_eq_true] at hfalse
      exact hds (by simpa using hfalse)
    rw [if_pos htest]
    constructor
    · intro h
      cases h
    · exact fun h => absurd h.1 hds

theorem parseLength?_eq_some_iff :
    parseLength? value = some n ↔ Denotes value n ∧ n < UInt64.size := by
  unfold parseLength?
  split
  · rename_i ds
    rw [digitsValue?_eq_some_iff]
    constructor
    · rintro ⟨⟨hne, hds⟩, rfl, hlt⟩
      exact ⟨.plus hne hds, hlt⟩
    · rintro ⟨hvalue, hlt⟩
      cases hvalue with
      | digits _ hds => exact absurd (hds '+' (List.mem_cons_self ..)) (by decide)
      | plus hne hds => exact ⟨⟨hne, hds⟩, rfl, hlt⟩
  · rename_i hplus
    rw [digitsValue?_eq_some_iff]
    constructor
    · rintro ⟨⟨hne, hds⟩, rfl, hlt⟩
      exact ⟨.digits hne hds, hlt⟩
    · rintro ⟨hvalue, hlt⟩
      cases hvalue with
      | digits hne hds => exact ⟨⟨hne, hds⟩, rfl, hlt⟩
      | @plus ds _ _ => exact absurd rfl (hplus ds)

/-- The length that header lines announce: the value of the last one that gives it, if that is a
    number. -/
def announcedLength? (lines : List (List Char)) : Option Nat :=
  (lines.filterMap lengthValue?).getLast?.bind parseLength?

/-- Header lines announce a body of `n` bytes. -/
def Announces (lines : List (List Char)) (n : Nat) : Prop :=
  ∃ value, LastLength lines value ∧ Denotes value n ∧ n < UInt64.size

theorem announcedLength?_eq_some_iff : announcedLength? lines = some n ↔ Announces lines n := by
  unfold announcedLength? Announces
  rw [Option.bind_eq_some_iff]
  simp only [getLast?_lengthValues_eq_some_iff, parseLength?_eq_some_iff]

end Lengths

/-! ## Bodies -/

theorem isMalformed_iff {line : List Char} : isMalformed line = true ↔ ':' ∉ line := by
  rw [isMalformed, Option.isNone_iff_eq_none, Text.cut?_eq_none_iff]

theorem grants_ample_eq_false_iff {n : Nat} : Memory.ample.grants n = false ↔ bufferLimit ≤ n :=
  decide_eq_false_iff_not.trans Nat.not_lt

theorem grants_ample_ne_false {n : Nat} (h : n < bufferLimit) : ¬ Memory.ample.grants n = false := by
  rw [grants_ample_eq_false_iff]
  exact Nat.not_le.mpr h

/-- A header block and as many bytes as it announces. -/
structure Packet extends HeaderBlock where
  /-- The bytes behind the header block. -/
  body : Bytes
  /-- The header block announces as many bytes as there are. -/
  announced : announcedLength? toHeaderBlock.lines = some body.length
  /-- There can be a buffer for them. -/
  fits : body.length < bufferLimit

namespace Packet

/-- A packet as it stands in a stream. -/
def bytes (p : Packet) : Bytes := p.toHeaderBlock.bytes ++ p.body

/-- Every header line of the packet has a colon. -/
def Intact (p : Packet) : Prop := ∀ l ∈ p.headers, ':' ∈ l.text

instance (p : Packet) : Decidable p.Intact :=
  inferInstanceAs (Decidable (∀ l ∈ p.headers, ':' ∈ l.text))

/-- What reading a packet comes to. -/
def outcome (p : Packet) : Outcome :=
  match p.lines.find? isMalformed with
  | some line => .failed (.missingDelimiter (String.ofList line))
  | none => .body p.body

/-- Reading takes a packet from the front of a stream and leaves what follows it. -/
theorem read_bytes (p : Packet) (rest : Bytes) : read (p.bytes ++ rest) = (p.outcome, rest) := by
  obtain ⟨value, hvalue, hlength⟩ := Option.bind_eq_some_iff.mp p.announced
  have hlong : ¬ (p.body ++ rest).length < p.body.length := by
    rw [List.length_append]
    omega
  rw [read, readIn, bytes, List.append_assoc, p.readBlock_bytes]
  simp only [readBody, hvalue, hlength, if_neg (grants_ample_ne_false p.fits), if_neg hlong,
    List.take_left, List.drop_left, outcome]
  cases p.lines.find? isMalformed <;> rfl

theorem outcome_of_intact {p : Packet} (h : p.Intact) : p.outcome = .body p.body := by
  have hfind : p.lines.find? isMalformed = none := by
    rw [List.find?_eq_none]
    intro line hline
    obtain ⟨l, hl, rfl⟩ := List.mem_map.mp hline
    rw [isMalformed_iff, not_not]
    exact h l hl
  simp only [outcome, hfind]

theorem outcome_of_not_intact {p : Packet} (h : ¬ p.Intact) :
    ∃ line, p.outcome = .failed (.missingDelimiter line) := by
  cases hfind : p.lines.find? isMalformed with
  | none =>
    refine absurd (fun l hl => ?_) h
    have := List.find?_eq_none.mp hfind l.text (List.mem_map_of_mem hl)
    rwa [isMalformed_iff, not_not] at this
  | some line => exact ⟨String.ofList line, by simp only [outcome, hfind]⟩

end Packet

end Frame

end TwelveD
