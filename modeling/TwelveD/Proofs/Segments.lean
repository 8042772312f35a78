import TwelveD.Proofs.HeaderBlocks
import TwelveD.Proofs.Rows

/-!
# Reading a stream to its end

Every call of the reader takes a segment from the front of the stream and leaves the rest, also where
it comes to an error. The end is found where only blank lines are left; everywhere else the segment has
bytes in it. So calls in a row come to the end, and the segments they take make up the stream.
-/

namespace TwelveD.Frame

variable {s rest : Bytes}

/-! ## What a call leaves -/

theorem Line.Leads.isSuffix {l : Line} (h : l.Leads s rest) : rest <:+ s := by
  obtain ⟨line, -, heq⟩ := h.exists_append
  exact ⟨line, heq.symm⟩

theorem HeaderBlock.Opens.isSuffix {b : HeaderBlock} (h : b.Opens s rest) : rest <:+ s := by
  obtain ⟨tail, rfl, htail⟩ := h
  have htail' : tail <:+ b.headers.flatMap Line.written ++ tail := List.suffix_append _ _
  exact htail.isSuffix.trans (htail'.trans (List.suffix_append _ _))

theorem snd_readBody_isSuffix (memory : Memory) (lines : List (List Char)) (rest : Bytes) :
    (readBody memory lines rest).2 <:+ rest := by
  unfold readBody
  split
  · exact List.suffix_refl rest
  · split
    · exact List.suffix_refl rest
    · split
      · exact List.suffix_refl rest
      · split
        · exact List.nil_suffix
        · split
          · exact List.drop_suffix _ rest
          · exact List.drop_suffix _ rest

theorem snd_read_isSuffix (s : Bytes) : (read s).2 <:+ s := by
  rcases read_cases s with ⟨-, hread⟩ | ⟨-, hread⟩ | ⟨b, rest, hopens, hread⟩
  · rw [hread]
    exact List.nil_suffix
  · rw [hread]
    exact List.nil_suffix
  · rw [hread]
    exact (snd_readBody_isSuffix .ample b.lines rest).trans hopens.isSuffix

/-! ## Where the end is found -/

/-- All lines of a stream are blank, the last one included. -/
def AllBlank (s : Bytes) : Prop := ∀ row ∈ s.rows, lineText row = []

theorem allBlank_nil : AllBlank [] := by
  intro row hrow
  rw [Bytes.rows, Text.pieces, List.mem_singleton] at hrow
  rw [hrow]
  rfl

theorem Line.Leads.allBlank_iff {l : Line} (h : l.Leads s rest) :
    AllBlank s ↔ l.text = [] ∧ AllBlank rest := by
  have hpieces : Text.pieces Bytes.lineFeed l.bytes = [l.bytes] :=
    Text.pieces_of_notMem l.lineFeed_notMem
  cases h with
  | ended =>
    have hrows : (l.written ++ rest).rows = l.bytes :: rest.rows := by
      rw [written, List.append_assoc, List.singleton_append, Bytes.rows, Text.pieces_append, hpieces]
      rfl
    unfold AllBlank
    rw [hrows, List.forall_mem_cons]
    rfl
  | last _ =>
    have hrows : l.bytes.rows = [l.bytes] := hpieces
    unfold AllBlank
    rw [hrows, List.forall_mem_singleton]
    exact (and_iff_left allBlank_nil).symm

theorem readBlock_ne_absent {seen : List (List Char)} (hseen : seen ≠ []) (s : Bytes) :
    readBlock seen s ≠ .absent := by
  induction s using Line.leads_induction generalizing seen with
  | nil =>
    rw [readBlock, dif_pos rfl, if_neg (by simpa using hseen)]
    exact Block.noConfusion
  | line s l rest hl ih =>
    rw [readBlock_of_leads hl]
    by_cases hblank : l.text = []
    · rw [if_pos hblank, if_neg hseen]
      exact Block.noConfusion
    · rw [if_neg hblank]
      exact ih (List.cons_ne_nil l.text seen)

theorem readBlock_eq_absent_iff (s : Bytes) : readBlock [] s = .absent ↔ AllBlank s := by
  induction s using Line.leads_induction with
  | nil => exact iff_of_true readBlock_nil allBlank_nil
  | line s l rest hl ih =>
    rw [readBlock_of_leads hl, hl.allBlank_iff]
    by_cases hblank : l.text = []
    · rw [if_pos hblank, if_pos rfl, ih]
      exact (and_iff_right hblank).symm
    · rw [if_neg hblank]
      have hne := readBlock_ne_absent (List.cons_ne_nil l.text []) rest
      exact iff_of_false hne fun h => hblank h.1

theorem fst_read_eq_ended_iff : (read s).1 = .ended ↔ AllBlank s := by
  rw [← readBlock_eq_absent_iff]
  rcases read_cases s with ⟨habsent, hread⟩ | ⟨hunclosed, hread⟩ | ⟨b, rest, hopens, hread⟩
  · exact iff_of_true (by rw [hread]) habsent
  · refine iff_of_false ?_ ?_
    · rw [hread]
      exact Outcome.noConfusion
    · rw [hunclosed]
      exact Block.noConfusion
  · refine iff_of_false ?_ ?_
    · rw [hread]
      intro hended
      rcases fst_readBody_cases .ample b.lines rest with ⟨bytes, hbody⟩ | ⟨error, herror⟩ | ⟨haborted, -⟩
      · cases hbody.symm.trans hended
      · cases herror.symm.trans hended
      · cases haborted.symm.trans hended
    · rw [hopens.readBlock]
      exact Block.noConfusion

theorem read_of_ended (h : (read s).1 = .ended) : read s = (.ended, []) := by
  rw [fst_read_eq_ended_iff, ← readBlock_eq_absent_iff] at h
  rw [read, readIn, h]

/-! ## Call after call -/

/-- The bytes that a call takes from the front of a stream. -/
def taken (s : Bytes) : Bytes := s.take (s.length - (read s).2.length)

theorem taken_append (s : Bytes) : taken s ++ (read s).2 = s :=
  List.suffix_iff_eq_append.mp (snd_read_isSuffix s)

/-- The segments that `count` calls in a row take. -/
def segments : Nat → Bytes → List Bytes
  | 0, _ => []
  | count + 1, s => taken s :: segments count (read s).2

theorem flatten_segments_append (count : Nat) (s : Bytes) :
    (segments count s).flatten ++ (readTimes count s).2 = s := by
  induction count generalizing s with
  | zero => rfl
  | succ count ih =>
    have hlater := ih (read s).2
    rw [segments, List.flatten_cons, readTimes, List.append_assoc, hlater]
    exact taken_append s

theorem exists_readTimes_ended (s : Bytes) : ∃ outcomes : List Outcome,
    .ended ∉ outcomes ∧ outcomes.length ≤ s.length ∧
      readTimes (outcomes.length + 1) s = (outcomes ++ [.ended], []) := by
  obtain ⟨n, hn⟩ : ∃ n, s.length = n := ⟨_, rfl⟩
  induction n using Nat.strong_induction_on generalizing s with
  | _ n ih =>
    by_cases hended : (read s).1 = .ended
    · refine ⟨[], List.not_mem_nil, Nat.zero_le _, ?_⟩
      simp only [List.length_nil, readTimes, read_of_ended hended, List.nil_append]
    · -- the call takes something, whatever it comes to
      have hlt := length_read_lt hended
      obtain ⟨outcomes, hnot, hlength, hread⟩ := ih (read s).2.length (by omega) (read s).2 rfl
      refine ⟨(read s).1 :: outcomes, ?_, ?_, ?_⟩
      · rw [List.mem_cons, not_or]
        exact ⟨Ne.symm hended, hnot⟩
      · rw [List.length_cons]
        omega
      · rw [List.length_cons, readTimes, hread]
        rfl

theorem exists_of_mem_readTimes {count : Nat} {outcome : Outcome}
    (h : outcome ∈ (readTimes count s).1) : ∃ i, (read (readTimes i s).2).1 = outcome := by
  induction count with
  | zero => cases h
  | succ count ih =>
    rw [readTimes_succ, List.mem_append, List.mem_singleton] at h
    rcases h with h | h
    · exact ih h
    · exact ⟨count, h.symm⟩

/-- A call leaves the end of its stream. It finds the end exactly where all lines are blank, and takes at
    least one byte everywhere else. Calls in a row, also behind errors, come to the end, and the
    segments they take are the whole stream, piece by piece; none of them gives up unless a header
    block on the way announces more bytes than a buffer can hold. -/
theorem reading_partitions_stream (s : Bytes) :
    (read s).2 <:+ s ∧ ((read s).1 = .ended ↔ AllBlank s) ∧
    ((read s).1 ≠ .ended → (read s).2.length < s.length) ∧
    ∃ outcomes : List Outcome, .ended ∉ outcomes ∧ outcomes.length ≤ s.length ∧
      readTimes (outcomes.length + 1) s = (outcomes ++ [.ended], []) ∧
      (segments (outcomes.length + 1) s).flatten = s ∧
      ((∀ count, ¬ Oversized (readTimes count s).2) → .aborted ∉ outcomes) := by
  refine ⟨snd_read_isSuffix s, fst_read_eq_ended_iff, length_read_lt, ?_⟩
  obtain ⟨outcomes, hnot, hlength, hread⟩ := exists_readTimes_ended s
  refine ⟨outcomes, hnot, hlength, hread, ?_, ?_⟩
  · have hflatten := flatten_segments_append (outcomes.length + 1) s
    rw [hread, List.append_nil] at hflatten
    exact hflatten
  · intro hfits hmem
    have hmem' : Outcome.aborted ∈ (readTimes (outcomes.length + 1) s).1 := by
      rw [hread]
      exact List.mem_append_left _ hmem
    obtain ⟨i, hi⟩ := exists_of_mem_readTimes hmem'
    exact hfits i (fst_read_eq_aborted_iff.mp hi)

/-- A frame with a line that is no header, and blanks behind it without a line feed. -/
def brokenStream : Bytes := mixedBlock.bytes ++ [0x7B, 0x7D, 0x0A, 0x20, 0x0D]

theorem read_brokenStream :
    read brokenStream = (.failed (.missingDelimiter "X-Note"), [0x20, 0x0D]) := by
  rw [brokenStream, (mixedBlock.opens_bytes _).read]
  decide

theorem snd_readTimes_nil (count : Nat) : (readTimes count []).2 = [] := by
  induction count with
  | zero => rfl
  | succ count ih =>
    rw [readTimes, read_nil]
    exact ih

theorem not_oversized_brokenStream (count : Nat) : ¬ Oversized (readTimes count brokenStream).2 := by
  have hblanks : read [0x20, 0x0D] = (.ended, []) := by
    apply read_of_ended
    rw [fst_read_eq_ended_iff]
    unfold AllBlank
    decide
  rw [← fst_read_eq_aborted_iff]
  match count with
  | 0 =>
    rw [readTimes, read_brokenStream]
    exact Outcome.noConfusion
  | 1 =>
    rw [readTimes, read_brokenStream, readTimes, hblanks]
    exact Outcome.noConfusion
  | count + 2 =>
    rw [readTimes, read_brokenStream, readTimes, hblanks, snd_readTimes_nil, read_nil]
    exact Outcome.noConfusion

theorem reading_partitions_stream_brokenStream :
    (read brokenStream).1 ≠ .ended ∧ (read brokenStream).2.length < brokenStream.length ∧
    (∀ count, ¬ Oversized (readTimes count brokenStream).2) ∧
    ∃ outcomes : List Outcome, .ended ∉ outcomes ∧ .aborted ∉ outcomes ∧
      readTimes (outcomes.length + 1) brokenStream = (outcomes ++ [.ended], []) ∧
      (segments (outcomes.length + 1) brokenStream).flatten = brokenStream := by
  have hne : (read brokenStream).1 ≠ .ended := by
    rw [read_brokenStream]
    exact Outcome.noConfusion
  obtain ⟨-, -, hlt, outcomes, hnot, -, hread, hflatten, haborted⟩ :=
    reading_partitions_stream brokenStream
  exact ⟨hne, hlt hne, not_oversized_brokenStream, outcomes, hnot,
    haborted not_oversized_brokenStream, hread, hflatten⟩

end TwelveD.Frame
