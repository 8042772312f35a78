import TwelveD.Proofs.Framing

/-!
# Header blocks

`Verdict` says what a header block decides about the bytes behind it, line by line and without reading:
the length that is given last counts, a missing or unreadable length comes before a short body, and a
short body before a line that is no header. The reader follows it, except for a length that no buffer
can have, and for one that memory has no buffer for.
-/

namespace TwelveD

namespace Frame

/-! ## Streams line by line -/

namespace Line

/-- A stream starts with the line `l`, and `rest` follows. Only the last line of a stream can lack its
    line feed. -/
inductive Leads (l : Line) : Bytes → Bytes → Prop where
  | ended (rest : Bytes) : Leads l (l.written ++ rest) rest
  | last (h : l.bytes ≠ []) : Leads l l.bytes []

variable {l : Line} {s rest : Bytes}

theorem exists_leads (h : s ≠ []) : ∃ l rest, Leads l s rest := by
  induction s with
  | nil => exact absurd rfl h
  | cons b s ih =>
    by_cases hb : b = Bytes.lineFeed
    · subst hb
      exact ⟨⟨[], List.not_mem_nil⟩, s, .ended s⟩
    · have hnotMem : ∀ l : Line, Bytes.lineFeed ∉ b :: l.bytes := by
        intro l
        rw [List.mem_cons, not_or]
        exact ⟨Ne.symm hb, l.lineFeed_notMem⟩
      by_cases hs : s = []
      · subst hs
        exact ⟨⟨[b], hnotMem ⟨[], List.not_mem_nil⟩⟩, [], .last (List.cons_ne_nil b [])⟩
      · obtain ⟨l, rest, hl⟩ := ih hs
        refine ⟨⟨b :: l.bytes, hnotMem l⟩, rest, ?_⟩
        cases hl with
        | ended => exact .ended rest
        | last _ => exact .last (List.cons_ne_nil b l.bytes)

theorem Leads.exists_append (h : Leads l s rest) : ∃ line, line ≠ [] ∧ s = line ++ rest := by
  cases h with
  | ended => exact ⟨l.written, by simp [written], rfl⟩
  | last h => exact ⟨l.bytes, h, (List.append_nil _).symm⟩

theorem Leads.length_lt (h : Leads l s rest) : rest.length < s.length := by
  obtain ⟨line, hline, rfl⟩ := h.exists_append
  have hpos := List.length_pos_iff.mpr hline
  rw [List.length_append]
  omega

theorem Leads.eq_append (h : Leads l s rest) (hrest : rest ≠ []) : s = l.written ++ rest := by
  cases h with
  | ended => rfl
  | last _ => exact absurd rfl hrest

/-- What holds of the empty stream and passes from what follows a line to the line with it holds of
    every stream. -/
@[elab_as_elim]
theorem leads_induction {motive : Bytes → Prop} (s : Bytes) (nil : motive [])
    (line : ∀ s l rest, Leads l s rest → motive rest → motive s) : motive s := by
  obtain ⟨n, hn⟩ : ∃ n, s.length = n := ⟨_, rfl⟩
  induction n using Nat.strong_induction_on generalizing s with
  | _ n ih =>
    by_cases hs : s = []
    · rw [hs]
      exact nil
    · obtain ⟨l, rest, hl⟩ := exists_leads hs
      have hlt := hl.length_lt
      exact line s l rest hl (ih rest.length (by omega) rest rfl)

theorem splitLine_bytes (l : Line) : splitLine l.bytes = (l.bytes, []) := by
  obtain ⟨bytes, h⟩ := l
  show splitLine bytes = (bytes, [])
  induction bytes with
  | nil => rfl
  | cons b bytes ih =>
    rw [List.mem_cons, not_or] at h
    rw [splitLine, if_neg (Ne.symm h.1), ih h.2]

end Line

/-- One line of a stream, with or without its line feed: a line with something in it is added to the
    block, a blank line ends the block or, before its first line, is skipped. -/
theorem readBlock_of_leads {l : Line} {s rest : Bytes} (h : l.Leads s rest)
    (seen : List (List Char)) : readBlock seen s =
      if l.text = [] then if seen = [] then readBlock [] rest else .closed seen.reverse rest
      else readBlock (l.text :: seen) rest := by
  cases h with
  | ended => exact readBlock_written seen l rest
  | last hne =>
    have htext : lineText l.bytes = l.text := rfl
    rw [readBlock, dif_neg hne]
    simp only [Line.splitLine_bytes, htext, List.isEmpty_iff]

/-! ## Blocks in a stream -/

namespace HeaderBlock

/-- A stream starts with the block `b`, and `rest` follows. If nothing does, the blank line at the end
    of the block can lack its line feed. -/
def Opens (b : HeaderBlock) (s rest : Bytes) : Prop :=
  ∃ tail, s = b.blanks.flatMap Line.written ++ (b.headers.flatMap Line.written ++ tail) ∧
    b.separator.Leads tail rest

variable {b : HeaderBlock} {s rest : Bytes}

theorem opens_bytes (b : HeaderBlock) (rest : Bytes) : b.Opens (b.bytes ++ rest) rest := by
  refine ⟨b.separator.written ++ rest, ?_, .ended rest⟩
  simp only [bytes, List.append_assoc]

theorem Opens.readBlock (h : b.Opens s rest) : readBlock [] s = .closed b.lines rest := by
  obtain ⟨tail, rfl, htail⟩ := h
  rw [readBlock_blanks b.text_blanks, readBlock_headers b.text_ne_nil, List.append_nil, ← lines,
    readBlock_of_leads htail, if_pos b.text_separator, if_neg b.reverse_lines_ne_nil,
    List.reverse_reverse]

theorem Opens.readIn (h : b.Opens s rest) (memory : Memory) :
    readIn memory s = readBody memory b.lines rest := by
  rw [Frame.readIn, h.readBlock]

theorem Opens.read (h : b.Opens s rest) : read s = readBody .ample b.lines rest :=
  h.readIn .ample

end HeaderBlock

variable {s rest : Bytes} {lines : List (List Char)}

theorem ne_nil_of_readBlock {seen : List (List Char)} (h : readBlock seen s = .closed lines rest) :
    s ≠ [] := by
  have hlt := length_lt_of_readBlock h
  rintro rfl
  exact absurd hlt (Nat.not_lt_zero _)

/-- Behind its first header line, a block consists of more such lines and the blank line that ends
    it. -/
theorem exists_headers_of_readBlock {seen : List (List Char)} (hseen : seen ≠ [])
    (h : readBlock seen s = .closed lines rest) :
    ∃ (headers : List Line) (separator : Line) (tail : Bytes),
      (∀ l ∈ headers, l.text ≠ []) ∧ separator.text = [] ∧
      lines = seen.reverse ++ headers.map Line.text ∧
      s = headers.flatMap Line.written ++ tail ∧ separator.Leads tail rest := by
  induction s using Line.leads_induction generalizing seen with
  | nil => exact absurd rfl (ne_nil_of_readBlock h)
  | line s l behind hl ih =>
    rw [readBlock_of_leads hl] at h
    by_cases hblank : l.text = []
    · rw [if_pos hblank, if_neg hseen] at h
      obtain ⟨rfl, rfl⟩ := Block.closed.inj h
      exact ⟨[], l, s, by simp, hblank, by simp, rfl, hl⟩
    · rw [if_neg hblank] at h
      obtain ⟨headers, separator, tail, hheaders, hseparator, hlines, htail, hleads⟩ :=
        ih (List.cons_ne_nil l.text seen) h
      refine ⟨l :: headers, separator, tail, ?_, hseparator, ?_, ?_, hleads⟩
      · exact List.forall_mem_cons.mpr ⟨hblank, hheaders⟩
      · rw [hlines, List.reverse_cons, List.map_cons, List.append_assoc, List.singleton_append]
      · rw [List.flatMap_cons, List.append_assoc, ← htail]
        exact hl.eq_append (ne_nil_of_readBlock h)

/-- Where the reader finds a complete block there is one. -/
theorem exists_opens_of_readBlock (h : readBlock [] s = .closed lines rest) :
    ∃ b : HeaderBlock, b.lines = lines ∧ b.Opens s rest := by
  induction s using Line.leads_induction with
  | nil => exact absurd rfl (ne_nil_of_readBlock h)
  | line s l behind hl ih =>
    rw [readBlock_of_leads hl] at h
    by_cases hblank : l.text = []
    · rw [if_pos hblank, if_pos rfl] at h
      have hs : s = l.written ++ behind := hl.eq_append (ne_nil_of_readBlock h)
      obtain ⟨b, hlines, tail, hbehind, htail⟩ := ih h
      have hblanks : ∀ l' ∈ l :: b.blanks, l'.text = [] :=
        List.forall_mem_cons.mpr ⟨hblank, b.text_blanks⟩
      refine ⟨{ b with blanks := l :: b.blanks, text_blanks := hblanks }, hlines, tail, ?_, htail⟩
      rw [hs, hbehind, List.flatMap_cons, List.append_assoc]
    · rw [if_neg hblank] at h
      have hs : s = l.written ++ behind := hl.eq_append (ne_nil_of_readBlock h)
      obtain ⟨headers, separator, tail, hheaders, hseparator, hlines, hbehind, htail⟩ :=
        exists_headers_of_readBlock (List.cons_ne_nil l.text []) h
      have hne : ∀ l' ∈ l :: headers, l'.text ≠ [] :=
        List.forall_mem_cons.mpr ⟨hblank, hheaders⟩
      refine ⟨⟨[], l :: headers, separator, by simp, List.cons_ne_nil l headers, hne, hseparator⟩,
        hlines.symm, tail, ?_, htail⟩
      rw [hs, hbehind, List.flatMap_nil, List.nil_append, List.flatMap_cons, List.append_assoc]

/-- The reader finds the end of the stream, the end within a header block, or a complete block. -/
theorem readIn_cases (memory : Memory) (s : Bytes) :
    (readBlock [] s = .absent ∧ readIn memory s = (.ended, [])) ∨
    (readBlock [] s = .unclosed ∧ readIn memory s = (.failed .unexpectedEnd, [])) ∨
    ∃ (b : HeaderBlock) (rest : Bytes),
      b.Opens s rest ∧ readIn memory s = readBody memory b.lines rest := by
  cases hblock : readBlock [] s with
  | absent => exact Or.inl ⟨rfl, by rw [readIn, hblock]⟩
  | unclosed => exact Or.inr (Or.inl ⟨rfl, by rw [readIn, hblock]⟩)
  | closed lines rest =>
    obtain ⟨b, rfl, hopens⟩ := exists_opens_of_readBlock hblock
    exact Or.inr (Or.inr ⟨b, rest, hopens, hopens.readIn memory⟩)

theorem read_cases (s : Bytes) :
    (readBlock [] s = .absent ∧ read s = (.ended, [])) ∨
    (readBlock [] s = .unclosed ∧ read s = (.failed .unexpectedEnd, [])) ∨
    ∃ (b : HeaderBlock) (rest : Bytes), b.Opens s rest ∧ read s = readBody .ample b.lines rest :=
  readIn_cases .ample s

variable {memory : Memory} {line value : List Char} {n : Nat}

/-! ## Verdicts -/

/-- The first line that is no header is `line`. -/
def FirstStray (lines : List (List Char)) (line : List Char) : Prop :=
  ∃ before behind, lines = before ++ line :: behind ∧ ':' ∉ line ∧ ∀ l ∈ before, ':' ∈ l

theorem find?_isMalformed_eq_some_iff :
    lines.find? isMalformed = some line ↔ FirstStray lines line := by
  have hheader : ∀ l, (!isMalformed l) = true ↔ ':' ∈ l := by
    intro l
    rw [Bool.not_eq_true', ← Bool.not_eq_true, isMalformed_iff, not_not]
  rw [List.find?_eq_some_iff_append, isMalformed_iff]
  simp only [hheader]
  constructor
  · rintro ⟨hcolon, before, behind, heq, hbefore⟩
    exact ⟨before, behind, heq, hcolon, hbefore⟩
  · rintro ⟨before, behind, heq, hcolon, hbefore⟩
    exact ⟨hcolon, before, behind, heq, hbefore⟩

theorem find?_isMalformed_eq_none_iff :
    lines.find? isMalformed = none ↔ ∀ line ∈ lines, ':' ∈ line := by
  rw [List.find?_eq_none]
  simp only [isMalformed_iff, not_not]

/-- What header lines decide about the bytes behind them, and what is left of these. -/
inductive Verdict (lines : List (List Char)) (rest : Bytes) : Outcome × Bytes → Prop where
  | noLength (hlength : ∀ line ∈ lines, ∀ value, ¬ GivesLength line value) :
      Verdict lines rest (.failed .missingContentLength, rest)
  | badLength {value : List Char} (hlength : LastLength lines value)
      (hvalue : ∀ n, Denotes value n → UInt64.size ≤ n) :
      Verdict lines rest (.failed (.invalidContentLength (String.ofList value)), rest)
  | short {n : Nat} (hlength : Announces lines n) (hfits : n < bufferLimit)
      (hshort : rest.length < n) :
      Verdict lines rest (.failed (.truncatedBody n rest.length), [])
  | stray {n : Nat} {line : List Char} (hlength : Announces lines n) (hfits : n < bufferLimit)
      (hlong : n ≤ rest.length) (hline : FirstStray lines line) :
      Verdict lines rest (.failed (.missingDelimiter (String.ofList line)), rest.drop n)
  | body {n : Nat} (hlength : Announces lines n) (hfits : n < bufferLimit)
      (hlong : n ≤ rest.length) (hlines : ∀ line ∈ lines, ':' ∈ line) :
      Verdict lines rest (.body (rest.take n), rest.drop n)

theorem Announces.exists_value (h : Announces lines n) :
    ∃ value, (lines.filterMap lengthValue?).getLast? = some value ∧ parseLength? value = some n := by
  obtain ⟨value, hvalue, hn⟩ := h
  exact ⟨value, getLast?_lengthValues_eq_some_iff.mpr hvalue, parseLength?_eq_some_iff.mpr hn⟩

/-- Without a buffer there is no reading. -/
theorem readBody_of_refused (h : Announces lines n) (hrefused : memory.grants n = false)
    (rest : Bytes) : readBody memory lines rest = (.aborted, rest) := by
  obtain ⟨value, hvalue, hn⟩ := h.exists_value
  simp only [readBody, hvalue, hn, if_pos hrefused]

/-- With a buffer for what is announced, memory makes no difference. -/
theorem readBody_of_granted (h : ∀ n, Announces lines n → memory.grants n = true) (rest : Bytes) :
    readBody memory lines rest = readBody .ample lines rest := by
  unfold readBody
  split
  · rfl
  · rename_i value hvalue
    split
    · rfl
    · rename_i n hn
      have hannounces : Announces lines n :=
        ⟨value, getLast?_lengthValues_eq_some_iff.mp hvalue, parseLength?_eq_some_iff.mp hn⟩
      have hgrants := h n hannounces
      have hample : Memory.ample.grants n = true := decide_eq_true (memory.lt_of_grants n hgrants)
      rw [hgrants, hample]

theorem grants_eq_false_of_le (hlarge : bufferLimit ≤ n) : memory.grants n = false := by
  rw [← Bool.not_eq_true]
  intro hgrants
  exact absurd (memory.lt_of_grants n hgrants) (Nat.not_lt.mpr hlarge)

theorem readBody_of_bufferLimit_le (h : Announces lines n) (hlarge : bufferLimit ≤ n)
    (rest : Bytes) : readBody memory lines rest = (.aborted, rest) :=
  readBody_of_refused h (grants_eq_false_of_le hlarge) rest

theorem readBody_of_verdict {result : Outcome × Bytes} (h : Verdict lines rest result) :
    readBody .ample lines rest = result := by
  cases h with
  | noLength hlength =>
    have hnone := getLast?_lengthValues_eq_none_iff.mpr hlength
    simp only [readBody, hnone]
  | @badLength value hlength hvalue =>
    have hnone : parseLength? value = none := by
      rw [Option.eq_none_iff_forall_ne_some]
      intro n hn
      obtain ⟨hdenotes, hlt⟩ := parseLength?_eq_some_iff.mp hn
      exact absurd hlt (Nat.not_lt.mpr (hvalue n hdenotes))
    rw [← getLast?_lengthValues_eq_some_iff] at hlength
    simp only [readBody, hlength, hnone]
  | short hlength hfits hshort =>
    obtain ⟨value, hvalue, hn⟩ := hlength.exists_value
    simp only [readBody, hvalue, hn, if_neg (grants_ample_ne_false hfits), if_pos hshort]
  | stray hlength hfits hlong hline =>
    obtain ⟨value, hvalue, hn⟩ := hlength.exists_value
    have hfind := find?_isMalformed_eq_some_iff.mpr hline
    simp only [readBody, hvalue, hn, if_neg (grants_ample_ne_false hfits), if_neg (Nat.not_lt.mpr hlong),
      hfind]
  | body hlength hfits hlong hlines =>
    obtain ⟨value, hvalue, hn⟩ := hlength.exists_value
    have hfind := find?_isMalformed_eq_none_iff.mpr hlines
    simp only [readBody, hvalue, hn, if_neg (grants_ample_ne_false hfits), if_neg (Nat.not_lt.mpr hlong),
      hfind]

/-- Header lines come to a verdict, unless they announce more bytes than a buffer can hold. -/
theorem exists_verdict (lines : List (List Char)) (rest : Bytes) :
    (∃ result, Verdict lines rest result) ∨ ∃ n, Announces lines n ∧ bufferLimit ≤ n := by
  cases hlength : (lines.filterMap lengthValue?).getLast? with
  | none => exact Or.inl ⟨_, .noLength (getLast?_lengthValues_eq_none_iff.mp hlength)⟩
  | some value =>
    have hvalue : LastLength lines value := getLast?_lengthValues_eq_some_iff.mp hlength
    by_cases hnumber : ∃ n, Denotes value n ∧ n < UInt64.size
    · obtain ⟨n, hn⟩ := hnumber
      have hannounces : Announces lines n := ⟨value, hvalue, hn⟩
      by_cases hfits : n < bufferLimit
      · left
        by_cases hshort : rest.length < n
        · exact ⟨_, .short hannounces hfits hshort⟩
        · have hlong := Nat.not_lt.mp hshort
          cases hfind : lines.find? isMalformed with
          | some line =>
            exact ⟨_, .stray hannounces hfits hlong (find?_isMalformed_eq_some_iff.mp hfind)⟩
          | none =>
            exact ⟨_, .body hannounces hfits hlong (find?_isMalformed_eq_none_iff.mp hfind)⟩
      · exact Or.inr ⟨n, hannounces, Nat.not_lt.mp hfits⟩
    · have hlarge : ∀ n, Denotes value n → UInt64.size ≤ n := by
        intro n hn
        by_contra hlt
        exact hnumber ⟨n, hn, Nat.not_le.mp hlt⟩
      exact Or.inl ⟨_, .badLength hvalue hlarge⟩

theorem verdict_readBody (h : ∀ n, Announces lines n → n < bufferLimit) (rest : Bytes) :
    Verdict lines rest (readBody .ample lines rest) := by
  rcases exists_verdict lines rest with ⟨result, hresult⟩ | ⟨n, hn, hlarge⟩
  · rw [readBody_of_verdict hresult]
    exact hresult
  · exact absurd (h n hn) (Nat.not_lt.mpr hlarge)

/-! ## Lines in another order -/

/-- The header lines that give the length of the body. -/
def lengthLines (lines : List (List Char)) : List (List Char) :=
  lines.filter fun line => (lengthValue? line).isSome

/-- The lines that are no headers. -/
def strayLines (lines : List (List Char)) : List (List Char) := lines.filter isMalformed

/-- Two outcomes that differ at most in the line they complain about. -/
def Outcome.Alike (o o' : Outcome) : Prop :=
  o = o' ∨ ∃ line line', o = .failed (.missingDelimiter line) ∧ o' = .failed (.missingDelimiter line')

section Order

variable {lines' : List (List Char)}

theorem filterMap_lengthValue?_congr (h : lengthLines lines = lengthLines lines') :
    lines.filterMap lengthValue? = lines'.filterMap lengthValue? := by
  have hfilter : ∀ ls : List (List Char),
      (lengthLines ls).filterMap lengthValue? = ls.filterMap lengthValue? := by
    intro ls
    rw [lengthLines, List.filterMap_filter]
    refine List.filterMap_congr fun l _ => ?_
    cases hl : lengthValue? l <;> simp
  rw [← hfilter lines, ← hfilter lines', h]

theorem find?_isMalformed_congr (h : strayLines lines = strayLines lines') :
    lines.find? isMalformed = lines'.find? isMalformed := by
  rw [← List.head?_filter, ← List.head?_filter]
  exact congrArg List.head? h

theorem readBody_congr (hlength : lengthLines lines = lengthLines lines')
    (hstray : lines.find? isMalformed = lines'.find? isMalformed) (rest : Bytes) :
    readBody memory lines rest = readBody memory lines' rest := by
  unfold readBody
  rw [filterMap_lengthValue?_congr hlength, hstray]

/-- Which lines give a length, and in which order, decides what is read, up to the choice of the line to
    complain about. -/
theorem readBody_alike (hlength : lengthLines lines = lengthLines lines') (hperm : lines.Perm lines')
    (rest : Bytes) : (readBody memory lines rest).2 = (readBody memory lines' rest).2 ∧
      (readBody memory lines rest).1.Alike (readBody memory lines' rest).1 := by
  have hmem : ∀ line, line ∈ lines ↔ line ∈ lines' := fun line => hperm.mem_iff
  cases hfind : lines.find? isMalformed with
  | none =>
    have hfind' : lines'.find? isMalformed = none := by
      rw [find?_isMalformed_eq_none_iff] at hfind ⊢
      intro line hline
      exact hfind line ((hmem line).mpr hline)
    rw [readBody_congr hlength (hfind.trans hfind'.symm)]
    exact ⟨rfl, Or.inl rfl⟩
  | some line =>
    have hstray : isMalformed line = true := List.find?_some hfind
    have hsome : (lines'.find? isMalformed).isSome := by
      rw [List.find?_isSome]
      exact ⟨line, (hmem line).mp (List.mem_of_find?_eq_some hfind), hstray⟩
    obtain ⟨line', hfind'⟩ := Option.isSome_iff_exists.mp hsome
    unfold readBody
    rw [filterMap_lengthValue?_congr hlength, hfind, hfind']
    -- both sides take the same way through the cases and part only at the last one
    split
    · exact ⟨rfl, Or.inl rfl⟩
    · split
      · exact ⟨rfl, Or.inl rfl⟩
      · split
        · exact ⟨rfl, Or.inl rfl⟩
        · split
          · exact ⟨rfl, Or.inl rfl⟩
          · exact ⟨rfl, Or.inr ⟨String.ofList line, String.ofList line', rfl, rfl⟩⟩

end Order

/-- What a header block decides is what is read behind it, whatever these bytes are: every verdict is
    carried out, and there is one for every length that a buffer can have. Other lines than those that
    give a length can be moved, added or left out, and nothing else is read as long as the lines that
    are no headers stay as they are; if only their order changes, so does at most the line to complain
    about. -/
theorem header_block_decides (b : HeaderBlock) (r : Bytes) :
    (∀ result, Verdict b.lines r result → read (b.bytes ++ r) = result) ∧
    ((∀ n, Announces b.lines n → n < bufferLimit) → Verdict b.lines r (read (b.bytes ++ r))) ∧
    ∀ b' : HeaderBlock, lengthLines b'.lines = lengthLines b.lines →
      (strayLines b'.lines = strayLines b.lines → read (b'.bytes ++ r) = read (b.bytes ++ r)) ∧
      (b'.lines.Perm b.lines → (read (b'.bytes ++ r)).2 = (read (b.bytes ++ r)).2 ∧
        (read (b'.bytes ++ r)).1.Alike (read (b.bytes ++ r)).1) := by
  have hread : ∀ b : HeaderBlock, read (b.bytes ++ r) = readBody .ample b.lines r :=
    fun b => (b.opens_bytes r).read
  rw [hread b]
  refine ⟨?_, ?_, ?_⟩
  · intro result hresult
    exact readBody_of_verdict hresult
  · intro hfits
    exact verdict_readBody hfits r
  · intro b' hlength
    rw [hread b']
    constructor
    · intro hstray
      exact readBody_congr hlength (find?_isMalformed_congr hstray) r
    · intro hperm
      exact readBody_alike hlength hperm r

/-- A header block behind a blank line: a line that is no header, a length that is none, a length in
    small letters, and a header whose value is no text. -/
def mixedBlock : HeaderBlock where
  blanks := [⟨Bytes.ofString " \t\r", by decide⟩]
  headers := [⟨Bytes.ofString "X-Note\r", by decide⟩,
    ⟨Bytes.ofString "Content-Length: many\r", by decide⟩,
    ⟨Bytes.ofString "content-length : +3 \r", by decide⟩, ⟨[0x58, 0x3A, 0xFF, 0xC3], by decide⟩]
  separator := .carriageReturn
  text_blanks := by decide
  headers_ne_nil := by decide
  text_ne_nil := by decide
  text_separator := Line.text_carriageReturn

theorem header_block_decides_mixedBlock :
    Verdict mixedBlock.lines (Bytes.ofString "\x7b\x7d\n:")
      (.failed (.missingDelimiter "X-Note"), Bytes.ofString ":") ∧
    read (mixedBlock.bytes ++ Bytes.ofString "\x7b\x7d\n:") =
      (.failed (.missingDelimiter "X-Note"), Bytes.ofString ":") := by
  have hlength : Announces mixedBlock.lines 3 := announcedLength?_eq_some_iff.mp (by decide)
  have hstray : FirstStray mixedBlock.lines "X-Note".toList :=
    find?_isMalformed_eq_some_iff.mp (by decide)
  have hverdict : Verdict mixedBlock.lines (Bytes.ofString "\x7b\x7d\n:")
      (.failed (.missingDelimiter "X-Note"), Bytes.ofString ":") :=
    .stray hlength (by decide) (by decide) hstray
  obtain ⟨hread, -⟩ := header_block_decides mixedBlock (Bytes.ofString "\x7b\x7d\n:")
  exact ⟨hverdict, hread _ hverdict⟩

/-! ## Lengths without a buffer -/

/-- A stream starts with a header block that announces as many bytes as memory has no buffer for. -/
def Refused (memory : Memory) (s : Bytes) : Prop :=
  ∃ (b : HeaderBlock) (rest : Bytes) (n : Nat),
    b.Opens s rest ∧ Announces b.lines n ∧ memory.grants n = false

/-- A stream starts with a header block that announces more bytes than a buffer can hold. -/
def Oversized (s : Bytes) : Prop :=
  ∃ (b : HeaderBlock) (rest : Bytes) (n : Nat),
    b.Opens s rest ∧ Announces b.lines n ∧ bufferLimit ≤ n

theorem refused_ample_iff : Refused .ample s ↔ Oversized s := by
  simp only [Refused, Oversized, grants_ample_eq_false_iff]

theorem Verdict.fst_cases {result : Outcome × Bytes} (h : Verdict lines rest result) :
    (∃ bytes, result.1 = .body bytes) ∨ ∃ error, result.1 = .failed error := by
  cases h with
  | noLength => exact Or.inr ⟨_, rfl⟩
  | badLength => exact Or.inr ⟨_, rfl⟩
  | short => exact Or.inr ⟨_, rfl⟩
  | stray => exact Or.inr ⟨_, rfl⟩
  | body => exact Or.inl ⟨_, rfl⟩

/-- Behind a complete block there is a body, an error, or a length without a buffer. -/
theorem fst_readBody_cases (memory : Memory) (lines : List (List Char)) (rest : Bytes) :
    (∃ bytes, (readBody memory lines rest).1 = .body bytes) ∨
    (∃ error, (readBody memory lines rest).1 = .failed error) ∨
    ((readBody memory lines rest).1 = .aborted ∧ ∃ n, Announces lines n ∧ memory.grants n = false) := by
  by_cases hrefused : ∃ n, Announces lines n ∧ memory.grants n = false
  · obtain ⟨n, hn, hgrants⟩ := hrefused
    have haborted : (readBody memory lines rest).1 = .aborted := by
      rw [readBody_of_refused hn hgrants]
    exact Or.inr (Or.inr ⟨haborted, n, hn, hgrants⟩)
  · have hgranted : ∀ n, Announces lines n → memory.grants n = true := by
      intro n hn
      rw [← Bool.not_eq_false]
      exact fun hgrants => hrefused ⟨n, hn, hgrants⟩
    have hverdict := verdict_readBody (fun n hn => memory.lt_of_grants n (hgranted n hn)) rest
    rw [readBody_of_granted hgranted]
    rcases hverdict.fst_cases with hbody | herror
    · exact Or.inl hbody
    · exact Or.inr (Or.inl herror)

theorem fst_readIn_eq_aborted_iff : (readIn memory s).1 = .aborted ↔ Refused memory s := by
  constructor
  · intro h
    rcases readIn_cases memory s with ⟨-, hread⟩ | ⟨-, hread⟩ | ⟨b, rest, hopens, hread⟩
    · rw [hread] at h
      cases h
    · rw [hread] at h
      cases h
    · rw [hread] at h
      rcases fst_readBody_cases memory b.lines rest with
        ⟨bytes, hbody⟩ | ⟨error, herror⟩ | ⟨-, n, hn⟩
      · cases hbody.symm.trans h
      · cases herror.symm.trans h
      · exact ⟨b, rest, n, hopens, hn⟩
  · rintro ⟨b, rest, n, hopens, hn, hgrants⟩
    rw [hopens.readIn, readBody_of_refused hn hgrants]

theorem fst_read_eq_aborted_iff : (read s).1 = .aborted ↔ Oversized s :=
  fst_readIn_eq_aborted_iff.trans refused_ample_iff

/-- Whatever memory there is, reading gives up on a stream exactly if a complete header block announces
    as many bytes as memory has no buffer for; for more than any buffer can hold there is never one. On
    every other stream it comes to a body, the end or a framing error; in particular, a complete header
    block that announces more bytes than are left, and for which there is a buffer, is read as a
    truncated body. -/
theorem read_gives_up_without_buffer (memory : Memory) (s : Bytes) :
    ((readIn memory s).1 = .aborted ↔ Refused memory s) ∧
    (Oversized s → Refused memory s) ∧
    ∀ (b : HeaderBlock) (rest : Bytes) (n : Nat), b.Opens s rest → Announces b.lines n →
      rest.length < n → memory.grants n = true →
        readIn memory s = (.failed (.truncatedBody n rest.length), []) := by
  refine ⟨fst_readIn_eq_aborted_iff, ?_, ?_⟩
  · rintro ⟨b, rest, n, hopens, hn, hlarge⟩
    exact ⟨b, rest, n, hopens, hn, grants_eq_false_of_le hlarge⟩
  · intro b rest n hopens hn hshort hgrants
    obtain ⟨value, hvalue, hlength⟩ := hn.exists_value
    have hbuffer : ¬ memory.grants n = false := by
      rw [hgrants]
      exact Bool.noConfusion
    rw [hopens.readIn]
    simp only [readBody, hvalue, hlength, if_neg hbuffer, if_pos hshort]

theorem HeaderBlock.opens_heading (n : Nat) (rest : Bytes) :
    (ofLength n).Opens (heading n ++ rest) rest := by
  rw [← bytes_ofLength]
  exact (ofLength n).opens_bytes rest

theorem HeaderBlock.announces_ofLength (h : n < UInt64.size) : Announces (ofLength n).lines n :=
  announcedLength?_eq_some_iff.mp (announcedLength?_ofLength h)

/-- Memory for sixteen bytes, and two bytes behind a block that announces five of them or twenty. -/
theorem read_gives_up_without_buffer_sixteenBytes :
    readIn (.upTo 17 (by decide)) (heading 5 ++ [0x7B, 0x7D]) = (.failed (.truncatedBody 5 2), []) ∧
    (readIn (.upTo 17 (by decide)) (heading 20 ++ [0x7B, 0x7D])).1 = .aborted := by
  have hopens := fun n => HeaderBlock.opens_heading n [0x7B, 0x7D]
  obtain ⟨-, -, hshort⟩ :=
    read_gives_up_without_buffer (.upTo 17 (by decide)) (heading 5 ++ [0x7B, 0x7D])
  obtain ⟨haborted, -⟩ :=
    read_gives_up_without_buffer (.upTo 17 (by decide)) (heading 20 ++ [0x7B, 0x7D])
  constructor
  · exact hshort _ _ 5 (hopens 5) (HeaderBlock.announces_ofLength (by decide)) (by decide) (by decide)
  · exact haborted.mpr ⟨_, _, 20, hopens 20, HeaderBlock.announces_ofLength (by decide), by decide⟩

/-- Two bytes behind a block that announces `2 ^ 63` of them: whatever memory there is, reading does not
    come to an error. -/
theorem read_gives_up : (HeaderBlock.ofLength 0x8000000000000000).Opens
      (heading 0x8000000000000000 ++ [0x7B, 0x7D]) [0x7B, 0x7D] ∧
    Announces (HeaderBlock.ofLength 0x8000000000000000).lines 0x8000000000000000 ∧
    ([0x7B, 0x7D] : Bytes).length < 0x8000000000000000 ∧
    ∀ memory : Memory,
      (readIn memory (heading 0x8000000000000000 ++ [0x7B, 0x7D])).1 = .aborted := by
  have hopens := HeaderBlock.opens_heading 0x8000000000000000 [0x7B, 0x7D]
  have hannounces := HeaderBlock.announces_ofLength (n := 0x8000000000000000) (by decide)
  have hlarge : bufferLimit ≤ 0x8000000000000000 := Nat.le_refl _
  refine ⟨hopens, hannounces, by decide, fun memory => ?_⟩
  rw [hopens.readIn, readBody_of_bufferLimit_le hannounces hlarge]

end Frame

end TwelveD
