import Mathlib.Data.List.DropRight
import TwelveD.Proofs.Packets

/-!
# Reading what was written

A frame that is written is a packet with a single header line, so it is read back as its body, whatever
follows it in the stream. A stream of written frames holds the bodies that were written, in their
order, up to the place where something else begins.
-/

namespace TwelveD

namespace Text

/-! ## Texts of the ASCII range -/

theorem decode_ascii {cs : List Char} (h : ∀ c ∈ cs, c.toNat < 0x80) :
    decode (Frame.ascii cs) = cs := by
  unfold decode
  induction cs with
  | nil => rfl
  | cons c cs ih =>
    have hc := h c (List.mem_cons_self ..)
    have hbyte : c.toNat.toUInt8.toNat = c.toNat := by
      rw [Nat.toUInt8, UInt8.toNat_ofNat', Nat.mod_eq_of_lt (by omega)]
    have hlead : lead c.toNat.toUInt8 = .single c := by
      simp only [lead, hbyte, if_pos hc, Char.ofNat_toNat]
    rw [Frame.ascii, List.map_cons, decodeFrom, hlead]
    exact congrArg (c :: ·) (ih fun d hd => h d (List.mem_cons_of_mem c hd))

theorem trimStart_cons {c : Char} (h : isBlank c = false) (cs : List Char) :
    trimStart (c :: cs) = c :: cs := by
  rw [trimStart, List.dropWhile_cons_of_neg (by simp [h])]

theorem trimEnd_append {cs blanks : List Char} {c : Char} (hc : isBlank c = false)
    (hblanks : ∀ d ∈ blanks, isBlank d = true) : trimEnd (cs ++ [c] ++ blanks) = cs ++ [c] := by
  rw [trimEnd, List.reverse_append, List.dropWhile_append_of_pos (by simpa using hblanks),
    List.reverse_append, List.reverse_singleton, List.singleton_append,
    List.dropWhile_cons_of_neg (by simp [hc]), List.reverse_cons, List.reverse_reverse]

/-- The blanks around a text that neither starts nor ends with one are trimmed. -/
theorem trim_append {before cs behind : List Char} (hcs : cs ≠ [])
    (hfirst : ∀ c ∈ cs.head?, isBlank c = false) (hlast : ∀ c ∈ cs.getLast?, isBlank c = false)
    (hbefore : ∀ c ∈ before, isBlank c = true) (hbehind : ∀ c ∈ behind, isBlank c = true) :
    trim (before ++ cs ++ behind) = cs := by
  obtain ⟨first, rest, rfl⟩ := List.exists_cons_of_ne_nil hcs
  have hstart : trimStart (before ++ (first :: rest) ++ behind) = (first :: rest) ++ behind := by
    rw [trimStart, List.append_assoc, List.dropWhile_append_of_pos hbefore, List.cons_append]
    exact trimStart_cons (hfirst first rfl) _
  have hend := List.dropLast_append_getLast hcs
  have hc := hlast _ (List.getLast?_eq_some_getLast hcs)
  rw [trim, hstart]
  conv_lhs => rw [← hend]
  rw [trimEnd_append hc hbehind, hend]

end Text

namespace Frame

/-! ## Header lines -/

/-- The one header line of a written frame. -/
def lengthLine (length : Nat) : List Char := lengthName ++ [':', ' '] ++ Nat.toDigits 10 length

theorem toNat_lt_of_isDigit {c : Char} (h : c.isDigit = true) : c.toNat < 0x80 := by
  simp only [Char.isDigit, Bool.and_eq_true, decide_eq_true_eq] at h
  have := UInt32.le_iff_toNat_le.mp h.2
  exact Nat.lt_of_le_of_lt this (by decide)

theorem isBlank_of_isDigit {c : Char} (h : c.isDigit = true) : Text.isBlank c = false := by
  simp only [Char.isDigit, Bool.and_eq_true, decide_eq_true_eq] at h
  have h1 : 48 ≤ c.toNat := UInt32.le_iff_toNat_le.mp h.1
  have h2 : c.toNat ≤ 57 := UInt32.le_iff_toNat_le.mp h.2
  simp only [Text.isBlank, Bool.or_eq_false_iff, Bool.and_eq_false_iff, decide_eq_false_iff_not,
    beq_eq_false_iff_ne]
  omega

theorem isDigit_of_mem {n : Nat} {c : Char} (h : c ∈ Nat.toDigits 10 n) : c.isDigit = true :=
  Nat.isDigit_of_mem_toDigits (by decide) (by decide) h

theorem toNat_lt_of_mem_lengthLine {n : Nat} {c : Char} (h : c ∈ lengthLine n) : c.toNat < 0x80 := by
  rw [lengthLine, List.mem_append] at h
  rcases h with h | h
  · have hall : (lengthName ++ [':', ' ']).all (·.toNat < 0x80) = true := by decide
    exact of_decide_eq_true (List.all_eq_true.mp hall c h)
  · exact toNat_lt_of_isDigit (isDigit_of_mem h)

/-- No character of a header line becomes a line feed. -/
theorem lineFeed_notMem_ascii {cs : List Char} (h : ∀ c ∈ cs, c.toNat < 0x80 ∧ c ≠ '\n') :
    Bytes.lineFeed ∉ ascii cs := by
  intro hm
  obtain ⟨c, hc, heq⟩ := List.mem_map.mp hm
  obtain ⟨hlt, hne⟩ := h c hc
  have := congrArg UInt8.toNat heq
  rw [Nat.toUInt8, UInt8.toNat_ofNat', Nat.mod_eq_of_lt (by omega)] at this
  exact hne (Char.toNat_inj.mp this)

theorem ascii_append (cs ds : List Char) : ascii (cs ++ ds) = ascii cs ++ ascii ds :=
  List.map_append

/-- The digits of a number have no blanks around them. -/
theorem trim_toDigits (n : Nat) {before behind : List Char}
    (hbefore : ∀ c ∈ before, Text.isBlank c = true) (hbehind : ∀ c ∈ behind, Text.isBlank c = true) :
    Text.trim (before ++ Nat.toDigits 10 n ++ behind) = Nat.toDigits 10 n :=
  Text.trim_append Nat.toDigits_ne_nil
    (fun _ hc => isBlank_of_isDigit (isDigit_of_mem (List.mem_of_head? hc)))
    (fun _ hc => isBlank_of_isDigit (isDigit_of_mem (List.mem_of_getLast? hc))) hbefore hbehind

/-- No line feed comes before the carriage return at the end of the header line. -/
theorem lineFeed_notMem_lengthLine (n : Nat) : Bytes.lineFeed ∉ ascii (lengthLine n ++ ['\r']) := by
  refine lineFeed_notMem_ascii fun c hc => ?_
  rw [List.mem_append] at hc
  rcases hc with hc | hc
  · refine ⟨toNat_lt_of_mem_lengthLine hc, ?_⟩
    rintro rfl
    rw [lengthLine, List.mem_append] at hc
    rcases hc with hc | hc
    · exact absurd hc (by decide)
    · exact absurd (isDigit_of_mem hc) (by decide)
  · obtain rfl := List.mem_singleton.mp hc
    decide

theorem lineText_lengthLine (n : Nat) :
    lineText (ascii (lengthLine n ++ ['\r'])) = lengthLine n := by
  have hfirst : ∀ c ∈ (lengthLine n).head?, Text.isBlank c = false := by
    intro c hc
    obtain rfl : 'C' = c := Option.some.inj hc
    decide
  have hlast : ∀ c ∈ (lengthLine n).getLast?, Text.isBlank c = false := by
    intro c hc
    rw [lengthLine, List.getLast?_append_of_ne_nil _ Nat.toDigits_ne_nil] at hc
    exact isBlank_of_isDigit (isDigit_of_mem (List.mem_of_getLast? hc))
  have hascii : ∀ c ∈ lengthLine n ++ ['\r'], c.toNat < 0x80 := by
    intro c hc
    rw [List.mem_append] at hc
    rcases hc with hc | hc
    · exact toNat_lt_of_mem_lengthLine hc
    · obtain rfl := List.mem_singleton.mp hc
      decide
  rw [lineText, Text.decode_ascii hascii, ← List.nil_append (lengthLine n)]
  exact Text.trim_append (by simp [lengthLine]) hfirst hlast (by simp) (by simp [Text.isBlank])

theorem lineText_lengthLine_ne_nil (n : Nat) : lineText (ascii (lengthLine n ++ ['\r'])) ≠ [] := by
  rw [lineText_lengthLine, lengthLine]
  simp

theorem lengthValue?_lengthLine (n : Nat) :
    lengthValue? (lengthLine n) = some (Nat.toDigits 10 n) := by
  have htrim := @trim_toDigits n [' '] [] (by simp [Text.isBlank]) (by simp)
  rw [List.append_nil, List.singleton_append] at htrim
  rw [lengthValue?_eq_some_iff]
  refine ⟨lengthName, ' ' :: Nat.toDigits 10 n, ?_, by decide, by decide, htrim.symm⟩
  rw [lengthLine, List.append_assoc]
  rfl

theorem parseLength?_toDigits {n : Nat} (h : n < UInt64.size) :
    parseLength? (Nat.toDigits 10 n) = some n := by
  have hdenotes : Denotes (Nat.toDigits 10 n) (Nat.ofDigitChars 10 (Nat.toDigits 10 n) 0) :=
    .digits Nat.toDigits_ne_nil fun _ hc => isDigit_of_mem hc
  rw [Nat.ofDigitChars_ten_toDigits] at hdenotes
  exact parseLength?_eq_some_iff.mpr ⟨hdenotes, h⟩

/-! ## Written frames -/

theorem announcedLength?_lengthLine {n : Nat} (h : n < UInt64.size) :
    announcedLength? [lengthLine n] = some n := by
  simp only [announcedLength?, List.filterMap_cons, lengthValue?_lengthLine, List.filterMap_nil,
    List.getLast?_singleton, Option.bind_some, parseLength?_toDigits h]

/-- The header block that is written for a body of `n` bytes. -/
def HeaderBlock.ofLength (n : Nat) : HeaderBlock where
  blanks := []
  headers := [⟨ascii (lengthLine n ++ ['\r']), lineFeed_notMem_lengthLine n⟩]
  separator := .carriageReturn
  text_blanks := Line.text_of_mem_nil
  headers_ne_nil := List.cons_ne_nil _ _
  text_ne_nil := by
    intro l hl
    rw [List.mem_singleton.mp hl]
    exact lineText_lengthLine_ne_nil n
  text_separator := Line.text_carriageReturn

theorem HeaderBlock.bytes_ofLength (n : Nat) : (ofLength n).bytes = heading n := by
  simp only [bytes, ofLength, Line.written, List.flatMap_nil, List.flatMap_cons, List.append_nil,
    List.nil_append, heading, lengthLine, ascii_append, List.append_assoc]
  rfl

theorem HeaderBlock.announcedLength?_ofLength {n : Nat} (h : n < UInt64.size) :
    announcedLength? (ofLength n).lines = some n := by
  rw [lines, ofLength, List.map_singleton, Line.text, lineText_lengthLine]
  exact announcedLength?_lengthLine h

/-- The packet that is written for a body. -/
def Packet.ofBody (body : Bytes) (h : body.length < bufferLimit) : Packet where
  toHeaderBlock := .ofLength body.length
  body := body
  announced := HeaderBlock.announcedLength?_ofLength (Nat.lt_trans h (by decide))
  fits := h

theorem Packet.bytes_ofBody {body : Bytes} (h : body.length < bufferLimit) :
    (Packet.ofBody body h).bytes = write body := by
  rw [bytes, write, ← HeaderBlock.bytes_ofLength]
  rfl

theorem Packet.intact_ofBody {body : Bytes} (h : body.length < bufferLimit) :
    (Packet.ofBody body h).Intact := by
  intro l hl
  rw [List.mem_singleton.mp hl, Line.text, lineText_lengthLine, lengthLine]
  simp

/-- A written frame is read as its body, and what follows it is left. -/
theorem read_write {body : Bytes} (h : body.length < bufferLimit) (rest : Bytes) :
    read (write body ++ rest) = (.body body, rest) := by
  rw [← Packet.bytes_ofBody h, Packet.read_bytes, Packet.outcome_of_intact (Packet.intact_ofBody h)]
  rfl

/-! ## Streams of frames -/

/-- Bodies in their frames, one after the other. -/
def writeAll (bodies : List Bytes) : Bytes := (bodies.map write).flatten

@[simp] theorem writeAll_nil : writeAll [] = [] := rfl

theorem writeAll_cons (body : Bytes) (bodies : List Bytes) :
    writeAll (body :: bodies) = write body ++ writeAll bodies := by
  rw [writeAll, List.map_cons, List.flatten_cons, ← writeAll]

theorem writeAll_append (bodies others : List Bytes) :
    writeAll (bodies ++ others) = writeAll bodies ++ writeAll others := by
  rw [writeAll, List.map_append, List.flatten_append, ← writeAll, ← writeAll]

/-- The bodies of a stream, read one after the other up to its end; nothing if there is anything else
    but frames. -/
def readAll (s : Bytes) : Option (List Bytes) :=
  match h : (read s).1 with
  | .ended => some []
  | .body body =>
    have := length_read_lt (s := s) (by simp [h])
    (readAll (read s).2).map (body :: ·)
  | _ => none
termination_by s.length

theorem read_nil : read [] = (.ended, []) := by
  rw [read, readIn, readBlock_nil]

theorem readAll_of_ended {s rest : Bytes} (h : read s = (.ended, rest)) : readAll s = some [] := by
  rw [readAll]
  split
  · rfl
  · rename_i heq
    rw [h] at heq
    cases heq
  · rename_i h1 _
    exact absurd (congrArg Prod.fst h) h1

theorem readAll_of_body {s body rest : Bytes} (h : read s = (.body body, rest)) :
    readAll s = (readAll rest).map (body :: ·) := by
  rw [readAll]
  split
  · rename_i heq
    rw [h] at heq
    cases heq
  · rename_i other heq
    obtain rfl : body = other := Outcome.body.inj ((congrArg Prod.fst h).symm.trans heq)
    simp only [h]
  · rename_i _ h2
    exact absurd (congrArg Prod.fst h) (h2 body)

/-- The bodies that were written are read back. -/
theorem readAll_writeAll {bodies : List Bytes} (h : ∀ body ∈ bodies, body.length < bufferLimit) :
    readAll (writeAll bodies) = some bodies := by
  induction bodies with
  | nil => exact readAll_of_ended read_nil
  | cons body bodies ih =>
    obtain ⟨hbody, hbodies⟩ := List.forall_mem_cons.mp h
    rw [writeAll_cons, readAll_of_body (read_write hbody _), ih hbodies, Option.map_some]

/-! ## Streams with errors -/

/-- The bodies in a stream, read one after the other up to its end or to an error behind which the next
    frame cannot be found. -/
def bodies (s : Bytes) : List Bytes :=
  match h : (read s).1 with
  | .body body =>
    have := length_read_lt (s := s) (by simp [h])
    body :: bodies (read s).2
  | .failed e =>
    have := length_read_lt (s := s) (by simp [h])
    if e.isRecoverable then bodies (read s).2 else []
  | _ => []
termination_by s.length

/-- The bodies in what a call of the reader has found and left. -/
def bodiesFrom (outcome : Outcome) (rest : Bytes) : List Bytes :=
  match outcome with
  | .body body => body :: bodies rest
  | .failed e => if e.isRecoverable then bodies rest else []
  | _ => []

theorem bodies_of_read {s rest : Bytes} {outcome : Outcome} (h : read s = (outcome, rest)) :
    bodies s = bodiesFrom outcome rest := by
  have hread : bodies s = bodiesFrom (read s).1 (read s).2 := by
    rw [bodies]
    split
    · rename_i heq
      simp only [bodiesFrom, heq]
    · rename_i heq
      simp only [bodiesFrom, heq]
    · rename_i hbody hfailed
      unfold bodiesFrom
      split
      · exact absurd ‹_› (hbody _)
      · exact absurd ‹_› (hfailed _)
      · rfl
  rw [hread, h]

theorem bodies_writeAll {written : List Bytes} (h : ∀ body ∈ written, body.length < bufferLimit) :
    bodies (writeAll written) = written := by
  induction written with
  | nil => exact bodies_of_read read_nil
  | cons body written ih =>
    obtain ⟨hbody, hwritten⟩ := List.forall_mem_cons.mp h
    rw [writeAll_cons, bodies_of_read (read_write hbody _), bodiesFrom, ih hwritten]

/-! ## Reading call by call -/

/-- What `count` calls in a row read, and what the last of them leaves of the stream. -/
def readTimes : Nat → Bytes → List Outcome × Bytes
  | 0, s => ([], s)
  | count + 1, s =>
    let later := readTimes count (read s).2
    ((read s).1 :: later.1, later.2)

/-- One call more reads what the others have left. -/
theorem readTimes_succ (count : Nat) (s : Bytes) : readTimes (count + 1) s =
    ((readTimes count s).1 ++ [(read (readTimes count s).2).1], (read (readTimes count s).2).2) := by
  induction count generalizing s with
  | zero => rfl
  | succ count ih =>
    rw [readTimes, ih (read s).2]
    rfl

theorem readTimes_writeAll {bodies : List Bytes} (h : ∀ body ∈ bodies, body.length < bufferLimit)
    (rest : Bytes) :
    readTimes bodies.length (writeAll bodies ++ rest) = (bodies.map .body, rest) := by
  induction bodies with
  | nil => rfl
  | cons body bodies ih =>
    obtain ⟨hbody, hbodies⟩ := List.forall_mem_cons.mp h
    rw [writeAll_cons, List.append_assoc, List.length_cons, readTimes, read_write hbody,
      ih hbodies, List.map_cons]

/-- Calls in a row read back the bodies that were written, one each, and leave what follows them in
    the stream. If nothing does, the next call finds the end. -/
theorem readTimes_recovers_bodies (bodies : List Bytes)
    (h : ∀ body ∈ bodies, body.length < bufferLimit) :
    (∀ rest : Bytes,
      readTimes bodies.length (writeAll bodies ++ rest) = (bodies.map .body, rest)) ∧
    readTimes (bodies.length + 1) (writeAll bodies) = (bodies.map .body ++ [.ended], []) := by
  refine ⟨readTimes_writeAll h, ?_⟩
  have hall : readTimes bodies.length (writeAll bodies) = (bodies.map .body, []) := by
    have := readTimes_writeAll h []
    rwa [List.append_nil] at this
  rw [readTimes_succ, hall, read_nil]

/-- A body that is a frame itself, one without a byte, and one with line ends and no text. -/
def oddBodies : List Bytes := [write [0x3F], [], [0x0D, 0x0A, 0x0D, 0x0A, 0xFF, 0x3A]]

theorem readTimes_recovers_bodies_oddBodies :
    (∀ body ∈ oddBodies, body.length < bufferLimit) ∧
      readTimes 3 (writeAll oddBodies ++ heading 5) = (oddBodies.map .body, heading 5) ∧
      readTimes 4 (writeAll oddBodies) = (oddBodies.map .body ++ [.ended], []) := by
  have h : ∀ body ∈ oddBodies, body.length < bufferLimit := by decide
  obtain ⟨hrest, hend⟩ := readTimes_recovers_bodies oddBodies h
  exact ⟨h, hrest (heading 5), hend⟩

end Frame

end TwelveD
