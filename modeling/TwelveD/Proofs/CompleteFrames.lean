import TwelveD.Proofs.Segments

/-!
# Frames that more bytes do not change

A stream may go on behind what has arrived of it. A frame whose header block has ended and whose body
is all there is read in the same way whatever follows, and what follows is left. Every other stream is
read up to its end, so that one more line feed is enough to see a difference.
-/

namespace TwelveD.Frame

variable {s rest : Bytes} {lines : List (List Char)}

/-! ## Complete frames -/

theorem Verdict.append {result : Outcome × Bytes} (h : Verdict lines rest result)
    (hwhole : ∀ n m, result.1 ≠ .failed (.truncatedBody n m)) (t : Bytes) :
    Verdict lines (rest ++ t) (result.1, result.2 ++ t) := by
  have hlonger : rest.length ≤ (rest ++ t).length := (List.sublist_append_left rest t).length_le
  cases h with
  | noLength hlength => exact .noLength hlength
  | badLength hlength hvalue => exact .badLength hlength hvalue
  | short hlength hfits hshort => exact absurd rfl (hwhole _ _)
  | stray hlength hfits hlong hline =>
    have hverdict := Verdict.stray hlength hfits (Nat.le_trans hlong hlonger) hline
    rw [List.drop_append_of_le_length hlong] at hverdict
    exact hverdict
  | body hlength hfits hlong hlines =>
    have hverdict := Verdict.body hlength hfits (Nat.le_trans hlong hlonger) hlines
    rw [List.drop_append_of_le_length hlong, List.take_append_of_le_length hlong] at hverdict
    exact hverdict

/-- Behind a header block, more bytes change nothing unless the body was cut short. -/
theorem readBody_append
    (hwhole : ∀ n m, (readBody .ample lines rest).1 ≠ .failed (.truncatedBody n m)) (t : Bytes) :
    readBody .ample lines (rest ++ t) =
      ((readBody .ample lines rest).1, (readBody .ample lines rest).2 ++ t) := by
  rcases exists_verdict lines rest with ⟨result, hresult⟩ | ⟨n, hn, hlarge⟩
  · rw [readBody_of_verdict hresult] at hwhole ⊢
    exact readBody_of_verdict (hresult.append hwhole t)
  · rw [readBody_of_bufferLimit_le hn hlarge, readBody_of_bufferLimit_le hn hlarge]

/-! ## Streams that are read up to their end -/

/-- The outcomes that the end of a stream has caused. -/
inductive Outcome.AtEnd : Outcome → Prop where
  | ended : AtEnd .ended
  | inBlock : AtEnd (.failed .unexpectedEnd)
  | inBody (n m : Nat) : AtEnd (.failed (.truncatedBody n m))

theorem snd_read_of_atEnd (h : (read s).1.AtEnd) : (read s).2 = [] := by
  rcases read_cases s with ⟨-, hread⟩ | ⟨-, hread⟩ | ⟨b, rest, -, hread⟩
  · rw [hread]
  · rw [hread]
  · rw [hread] at h ⊢
    rcases exists_verdict b.lines rest with ⟨result, hresult⟩ | ⟨n, hn, hlarge⟩
    · rw [readBody_of_verdict hresult] at h ⊢
      cases hresult with
      | short => rfl
      | noLength | badLength | stray | body => cases h
    · rw [readBody_of_bufferLimit_le hn hlarge] at h
      cases h

/-- The blank line behind the headers has ended, unless one more line feed would end it and leave
    nothing. -/
theorem HeaderBlock.Opens.eq_bytes_append {b : HeaderBlock} (h : b.Opens s rest)
    (hleft : (Frame.read (s ++ [Bytes.lineFeed])).2 ≠ []) : s = b.bytes ++ rest := by
  obtain ⟨tail, rfl, htail⟩ := h
  cases htail with
  | ended => simp only [bytes, List.append_assoc]
  | last _ =>
    exfalso
    apply hleft
    have hclosed : b.blanks.flatMap Line.written ++
        (b.headers.flatMap Line.written ++ b.separator.bytes) ++ [Bytes.lineFeed] =
          b.bytes ++ [] := by
      simp only [bytes, Line.written, List.append_assoc, List.append_nil]
    rw [hclosed, (b.opens_bytes []).read]
    exact List.suffix_nil.mp (snd_readBody_isSuffix .ample b.lines [])

/-- What is read from the front of a stream does not depend on what follows, and what follows is left,
    exactly if a header block up to the end of its blank line stands there and its body is not cut
    short. -/
theorem read_append_iff_complete (s : Bytes) :
    ((∃ (b : HeaderBlock) (rest : Bytes), s = b.bytes ++ rest) ∧
        ∀ n m, (read s).1 ≠ .failed (.truncatedBody n m)) ↔
      ∀ t, read (s ++ t) = ((read s).1, (read s).2 ++ t) := by
  constructor
  · rintro ⟨⟨b, rest, rfl⟩, hwhole⟩ t
    have hread : ∀ r, read (b.bytes ++ r) = readBody .ample b.lines r := fun r => (b.opens_bytes r).read
    rw [hread] at hwhole
    rw [List.append_assoc, hread, hread]
    exact readBody_append hwhole t
  · intro hsame
    have hfeed := hsame [Bytes.lineFeed]
    have hleft : (read (s ++ [Bytes.lineFeed])).2 ≠ [] := by
      rw [hfeed]
      exact List.append_ne_nil_of_right_ne_nil _ (List.cons_ne_nil _ _)
    have hnot : ¬ (read s).1.AtEnd := by
      intro hend
      have hend' : (read (s ++ [Bytes.lineFeed])).1.AtEnd := by
        rw [hfeed]
        exact hend
      exact hleft (snd_read_of_atEnd hend')
    refine ⟨?_, ?_⟩
    · rcases read_cases s with ⟨-, hread⟩ | ⟨-, hread⟩ | ⟨b, rest, hopens, -⟩
      · rw [hread] at hnot
        exact absurd .ended hnot
      · rw [hread] at hnot
        exact absurd .inBlock hnot
      · exact ⟨b, rest, hopens.eq_bytes_append hleft⟩
    · intro n m hcut
      rw [hcut] at hnot
      exact hnot (.inBody n m)

end TwelveD.Frame
