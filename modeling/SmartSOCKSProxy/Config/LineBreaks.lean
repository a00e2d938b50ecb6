import SmartSOCKSProxy.Config.Lines
import SmartSOCKSProxy.Foundations.Stores

/-
  The lines of a byte stream.

  A stream is cut at its line breaks from front to back, where
  a break is the longest one at its place.  The two markers
  that read_line() keeps between its calls stand for a break
  whose second byte has not been read.

  Key definitions include:
    * `lineBreaks`, `LongestBreak`, `CutAtBreaks`
    * `expectedReads`
    * `readLineStores`, `StoresLine`

  Key theorems include:
    * `linesOf_of_cut`
    * `readLine_storesLine`
    * `readLines_cutAtBreaks`
-/

namespace SmartSOCKSProxy

------------------------------------------------------------
-- Cutting a Stream
------------------------------------------------------------

/- CR LF, LF CR, CR and LF. -/
def lineBreaks : List Text :=
  [[13, 10], [10, 13], [13], [10]]

def IsBreakChar
    (chr : UInt8) : Prop :=
  chr = 13 ∨ chr = 10

/- A break, and no longer one stands at its place. -/
structure LongestBreak
    (brk rest : Text) : Prop where
  mem : brk ∈ lineBreaks
  longest :
    ∀ other ∈ lineBreaks, other <+: brk ++ rest →
      other.length ≤ brk.length

/-
  The pieces between the breaks of a stream, and what follows
  the last break.
-/
inductive CutAtBreaks :
    Text → List Text → Text → Prop
| last
    {rest : Text}
    (hPlain : ∀ chr ∈ rest, ¬ IsBreakChar chr) :
    CutAtBreaks rest [] rest
| piece
    {piece brk rest : Text}
    {pieces : List Text}
    {last : Text}
    (hPlain : ∀ chr ∈ piece, ¬ IsBreakChar chr)
    (hBreak : LongestBreak brk rest)
    (hCut : CutAtBreaks rest pieces last) :
    CutAtBreaks (piece ++ brk ++ rest) (piece :: pieces) last

/-
  What the calls return for the pieces of a stream: 1 for each
  piece and 2 for the last one, until one is too long.
-/
def expectedReads
    (buflen : Nat) :
    List Text → Text → LineReads
  | [], last =>
      if last.length < buflen - 1 then .eof last else .failed
  | piece :: pieces, last =>
      if piece.length < buflen - 1 then
        .line piece (expectedReads buflen pieces last)
      else .failed

theorem expectedReads_of_short
    {buflen : Nat}
    {pieces : List Text}
    {last : Text}
    (hShort :
      ∀ line ∈ pieces ++ [last], line.length < buflen - 1) :
    expectedReads buflen pieces last =
      pieces.foldr .line (.eof last) := by
  induction pieces with
  | nil => exact if_pos (hShort last (by simp))
  | cons piece pieces ih =>
      rw [expectedReads, if_pos (hShort piece (by simp)),
        List.foldr_cons,
        ih fun line hMem => hShort line (by simp_all)]

------------------------------------------------------------
-- The Markers
------------------------------------------------------------

/- What is left of a stream behind an unfinished break. -/
def LineEnds.finish
    (ends : LineEnds) : Text → Text
  | 10 :: rest => if ends.cr then rest else 10 :: rest
  | 13 :: rest => if ends.lf then rest else 13 :: rest
  | rest => rest

/- A character of a line clears the markers. -/
theorem linesOf_of_plain
    (buflen : Nat)
    (readError : Bool)
    {chr : UInt8}
    (hPlain : ¬ IsBreakChar chr)
    (rest : Text)
    (ends : LineEnds)
    (buf : Text) :
    linesOf buflen readError (chr :: rest) ends buf =
      if buflen - 1 ≤ (buf ++ [chr]).length then .failed
      else linesOf buflen readError rest .none (buf ++ [chr]) := by
  rcases not_or.mp hPlain with ⟨hCr, hLf⟩
  rw [linesOf, if_neg (by simp [hLf]), if_neg (by simp [hCr]),
    if_neg hLf, if_neg hCr]

/- Markers only matter for the next byte. -/
theorem linesOf_finish
    (buflen : Nat)
    {ends : LineEnds}
    (hOne : ends.cr = false ∨ ends.lf = false)
    (bytes : Text) :
    linesOf buflen false bytes ends [] =
      linesOf buflen false (ends.finish bytes) .none [] := by
  rcases ends with ⟨cr, lf⟩
  cases bytes with
  | nil => rfl
  | cons chr rest =>
      by_cases hLf : chr = 10
      · subst hLf
        cases cr with
        | true => rw [linesOf, if_pos ⟨rfl, rfl⟩]; rfl
        | false =>
            cases lf <;> simp [linesOf, LineEnds.finish,
              LineEnds.none]
      · by_cases hCr : chr = 13
        · subst hCr
          cases lf with
          | true =>
              rw [linesOf, if_neg (by simp), if_pos ⟨rfl, rfl⟩]
              rfl
          | false =>
              cases cr <;> simp [linesOf, LineEnds.finish,
                LineEnds.none]
        · have hPlain : ¬ IsBreakChar chr := by
            rintro (rfl | rfl)
            · exact hCr rfl
            · exact hLf rfl
          have hFinish :
              LineEnds.finish ⟨cr, lf⟩ (chr :: rest) =
                chr :: rest := by
            unfold LineEnds.finish
            split
            · rename_i hHead
              exact absurd (List.cons.inj hHead).1 hLf
            · rename_i hHead
              exact absurd (List.cons.inj hHead).1 hCr
            · rfl
          rw [hFinish, linesOf_of_plain buflen false hPlain,
            linesOf_of_plain buflen false hPlain]

/- The characters of a piece are put into the buffer. -/
theorem linesOf_plain
    {buflen : Nat}
    {piece : Text}
    (hPlain : ∀ chr ∈ piece, ¬ IsBreakChar chr)
    (rest : Text)
    {buf : Text}
    (hRoom : buf.length < buflen - 1) :
    linesOf buflen false (piece ++ rest) .none buf =
      if (buf ++ piece).length < buflen - 1 then
        linesOf buflen false rest .none (buf ++ piece)
      else .failed := by
  induction piece generalizing buf with
  | nil => simp [hRoom]
  | cons chr piece ih =>
      rw [List.cons_append,
        linesOf_of_plain buflen false
          (hPlain chr List.mem_cons_self)]
      by_cases hLong : buflen - 1 ≤ (buf ++ [chr]).length
      · rw [if_pos hLong, if_neg]
        simp only [List.length_append, List.length_cons,
          List.length_nil] at hLong ⊢
        omega
      · rw [if_neg hLong,
          ih (fun c hMem =>
            hPlain c (List.mem_cons_of_mem _ hMem))
            (by omega),
          List.append_assoc, List.singleton_append]

/- A call returns at a break, and the rest of it is eaten. -/
theorem linesOf_break
    (buflen : Nat)
    {brk rest : Text}
    (hBreak : LongestBreak brk rest)
    (buf : Text) :
    linesOf buflen false (brk ++ rest) .none buf =
      .line buf (linesOf buflen false rest .none []) := by
  have hMem := hBreak.mem
  simp only [lineBreaks, List.mem_cons, List.not_mem_nil,
    or_false] at hMem
  rcases hMem with rfl | rfl | rfl | rfl
  · simp [linesOf, LineEnds.none]
  · simp [linesOf, LineEnds.none]
  · have hNext : LineEnds.finish ⟨true, false⟩ rest = rest := by
      unfold LineEnds.finish
      split
      · have hLonger := hBreak.longest [13, 10]
          (by simp [lineBreaks]) (by simp)
        simp at hLonger
      · rfl
      · rfl
    have hMore :=
      @linesOf_finish buflen ⟨true, false⟩ (.inr rfl) rest
    rw [hNext] at hMore
    simpa [linesOf, LineEnds.none] using hMore
  · have hNext : LineEnds.finish ⟨false, true⟩ rest = rest := by
      unfold LineEnds.finish
      split
      · rfl
      · have hLonger := hBreak.longest [10, 13]
          (by simp [lineBreaks]) (by simp)
        simp at hLonger
      · rfl
    have hMore :=
      @linesOf_finish buflen ⟨false, true⟩ (.inl rfl) rest
    rw [hNext] at hMore
    simpa [linesOf, LineEnds.none] using hMore

/- The calls return the pieces. -/
theorem linesOf_of_cut
    {buflen : Nat}
    (hLen : 2 ≤ buflen)
    {bytes : Text}
    {pieces : List Text}
    {last : Text}
    (hCut : CutAtBreaks bytes pieces last) :
    linesOf buflen false bytes .none [] =
      expectedReads buflen pieces last := by
  have hRoom : ([] : Text).length < buflen - 1 := by
    rw [List.length_nil]
    omega
  induction hCut with
  | @last rest hPlain =>
      have hAll := linesOf_plain hPlain [] hRoom
      rw [List.append_nil, List.nil_append] at hAll
      rw [hAll, expectedReads]
      rfl
  | @piece piece brk rest pieces last hPlain hBreak hCut ih =>
      rw [List.append_assoc, linesOf_plain hPlain _ hRoom,
        List.nil_append, linesOf_break buflen hBreak, ih,
        expectedReads]

/- At a break character, one of the breaks is the longest. -/
theorem exists_longestBreak
    {chr : UInt8}
    (hChr : IsBreakChar chr)
    (tail : Text) :
    ∃ brk rest,
      chr :: tail = brk ++ rest ∧ LongestBreak brk rest := by
  by_cases hTwo :
      [chr] ++ tail.take 1 ∈ lineBreaks ∧ tail ≠ []
  · have hSplit :
        chr :: tail = [chr] ++ tail.take 1 ++ tail.drop 1 := by
      rw [List.append_assoc, List.take_append_drop]
      rfl
    refine ⟨_, _, hSplit, hTwo.1, ?_⟩
    intro other hMem _
    have hLength : (tail.take 1).length = 1 := by
      rw [List.length_take]
      have := List.length_pos_iff.mpr hTwo.2
      omega
    simp only [lineBreaks, List.mem_cons, List.not_mem_nil,
      or_false] at hMem
    rcases hMem with rfl | rfl | rfl | rfl <;> simp [hLength]
  · refine ⟨[chr], tail, rfl, ?_, ?_⟩
    · rcases hChr with rfl | rfl <;> simp [lineBreaks]
    · intro other hMem hPrefix
      by_contra hLonger
      refine hTwo ⟨?_, ?_⟩
      · have hSame : other = [chr] ++ tail.take 1 := by
          have hTake := List.prefix_iff_eq_take.mp hPrefix
          simp only [lineBreaks, List.mem_cons,
            List.not_mem_nil, or_false] at hMem
          rcases hMem with rfl | rfl | rfl | rfl
          · simpa using hTake
          · simpa using hTake
          · simp at hLonger
          · simp at hLonger
        rw [← hSame]
        exact hMem
      · rintro rfl
        have hLe := hPrefix.length_le
        simp only [List.append_nil, List.length_singleton]
          at hLe hLonger
        exact hLonger hLe

/- The first break character of a stream. -/
theorem exists_first_breakChar
    {bytes : Text}
    {chr : UInt8}
    (hMem : chr ∈ bytes)
    (hChr : IsBreakChar chr) :
    ∃ piece first tail, bytes = piece ++ first :: tail ∧
      (∀ c ∈ piece, ¬ IsBreakChar c) ∧ IsBreakChar first := by
  induction bytes with
  | nil => cases hMem
  | cons head bytes ih =>
      by_cases hHead : IsBreakChar head
      · exact ⟨[], head, bytes, rfl, by simp, hHead⟩
      · have hRest : chr ∈ bytes := by
          rcases List.mem_cons.mp hMem with rfl | hRest
          · exact absurd hChr hHead
          · exact hRest
        rcases ih hRest with
          ⟨piece, first, tail, rfl, hBefore, hFirst⟩
        refine ⟨head :: piece, first, tail, rfl, ?_, hFirst⟩
        intro c hc
        rcases List.mem_cons.mp hc with rfl | hc
        · exact hHead
        · exact hBefore c hc

/- Every stream can be cut. -/
theorem exists_cutAtBreaks
    (bytes : Text) :
    ∃ pieces last, CutAtBreaks bytes pieces last := by
  induction hLength : bytes.length using Nat.strong_induction_on
    generalizing bytes with
  | _ n ih =>
      by_cases hPlain : ∀ chr ∈ bytes, ¬ IsBreakChar chr
      · exact ⟨[], bytes, .last hPlain⟩
      · simp only [not_forall, not_not] at hPlain
        rcases hPlain with ⟨chr, hMem, hChr⟩
        rcases exists_first_breakChar hMem hChr with
          ⟨piece, first, tail, hSplit, hBefore, hFirst⟩
        rcases exists_longestBreak hFirst tail with
          ⟨brk, rest, hTail, hBreak⟩
        have hAll : bytes = piece ++ brk ++ rest := by
          rw [hSplit, hTail, List.append_assoc]
        have hPos : 0 < brk.length := by
          have hMem' := hBreak.mem
          simp only [lineBreaks, List.mem_cons,
            List.not_mem_nil, or_false] at hMem'
          rcases hMem' with rfl | rfl | rfl | rfl <;> simp
        have hShorter : rest.length < n := by
          rw [← hLength, hAll]
          simp only [List.length_append]
          omega
        rcases ih rest.length hShorter rest rfl with
          ⟨pieces, last, hCut⟩
        rw [hAll]
        exact ⟨piece :: pieces, last,
          .piece hBefore hBreak hCut⟩

------------------------------------------------------------
-- Stores
------------------------------------------------------------

/- The stores behind the first one, from `idx` on. -/
def lineStores
    (buflen : Nat) :
    Text → LineEnds → Nat → List Store
  | [], _, _ => []
  | chr :: rest, ends, idx =>
      if chr = 10 ∧ ends.cr = true then
        lineStores buflen rest .none idx
      else if chr = 13 ∧ ends.lf = true then
        lineStores buflen rest .none idx
      else if chr = 10 then []
      else if chr = 13 then []
      else
        (idx, chr) :: (idx + 1, 0) ::
          (if buflen - 1 ≤ idx + 1 then []
          else lineStores buflen rest .none (idx + 1))

/- The stores of one call of read_line(). -/
def readLineStores
    (buflen : Nat)
    (bytes : Text)
    (ends : LineEnds) : List Store :=
  (0, 0) :: lineStores buflen bytes ends 0

/- The line that a call leaves in its buffer. -/
def LineRead.text? : LineRead → Option Text
  | .error => none
  | .eof buf => some buf
  | .line buf _ _ => some buf

/- The stores of a call stay inside and leave its line. -/
structure StoresLine
    (buflen : Nat)
    (readError : Bool)
    (bytes : Text)
    (ends : LineEnds) : Prop where
  inside : Inside buflen (readLineStores buflen bytes ends)
  holds : ∀ (memory : Buffer) line,
    (readLine buflen readError bytes ends []).text? =
        some line →
      (memory.putAll
        (readLineStores buflen bytes ends)).Holds line

theorem lineStores_spec
    {buflen : Nat}
    (readError : Bool)
    (bytes : Text)
    (ends : LineEnds)
    {memory : Buffer}
    {buf : Text}
    (hRoom : buf.length + 1 < buflen)
    (hHolds : memory.Holds buf) :
    Inside buflen (lineStores buflen bytes ends buf.length) ∧
      ∀ line,
        (readLine buflen readError bytes ends buf).text? =
            some line →
          (memory.putAll
            (lineStores buflen bytes ends
              buf.length)).Holds line := by
  induction bytes generalizing ends memory buf with
  | nil =>
      refine ⟨by simp [lineStores], fun line hLine => ?_⟩
      unfold readLine at hLine
      split_ifs at hLine
      · cases hLine
      · cases hLine
        exact hHolds
  | cons chr rest ih =>
      have hLength :
          (buf ++ [chr]).length = buf.length + 1 := by
        simp
      unfold lineStores readLine
      rw [hLength]
      split_ifs with hEatLf hEatCr hLf hCr hLong
      · exact ih .none hRoom hHolds
      · exact ih .none hRoom hHolds
      · refine ⟨by simp, fun line hLine => ?_⟩
        cases hLine
        exact hHolds
      · refine ⟨by simp, fun line hLine => ?_⟩
        cases hLine
        exact hHolds
      · refine ⟨?_, fun line hLine => by cases hLine⟩
        simp only [inside_cons, inside_nil, and_true]
        omega
      · have hMore := ih .none
          (by rw [hLength]; omega) (hHolds.push chr)
        rw [hLength] at hMore
        refine ⟨?_, hMore.2⟩
        simp only [inside_cons]
        exact ⟨by omega, hRoom, hMore.1⟩

/- No call leaves its buffer. -/
theorem readLine_storesLine
    {buflen : Nat}
    (hLen : 2 ≤ buflen)
    (readError : Bool)
    (bytes : Text)
    (ends : LineEnds) :
    StoresLine buflen readError bytes ends := by
  have hRoom : ([] : Text).length + 1 < buflen := by
    rw [List.length_nil]
    omega
  constructor
  · rw [readLineStores, inside_cons]
    exact ⟨by omega,
      (lineStores_spec readError bytes ends hRoom
        (Buffer.holds_nil fun _ => 0)).1⟩
  · intro memory line hLine
    exact (lineStores_spec readError bytes ends hRoom
      (Buffer.holds_nil memory)).2 line hLine

/-
  The calls return the pieces of the stream in order, and
  then what follows its last break; a line that fills the
  buffer ends this.  No call leaves its buffer.
-/
theorem readLines_cutAtBreaks
    {buflen : Nat}
    (hLen : 2 ≤ buflen)
    (bytes : Text) :
    (∃ pieces last, CutAtBreaks bytes pieces last) ∧
      (∀ pieces last,
        CutAtBreaks bytes pieces last →
          readLines buflen ⟨bytes, false⟩ =
              expectedReads buflen pieces last ∧
            ((∀ line ∈ pieces ++ [last],
                line.length < buflen - 1) →
              readLines buflen ⟨bytes, false⟩ =
                pieces.foldr .line (.eof last))) ∧
      ∀ readError stream ends,
        StoresLine buflen readError stream ends := by
  refine ⟨exists_cutAtBreaks bytes, ?_,
    readLine_storesLine hLen⟩
  intro pieces last hCut
  have hReads :
      readLines buflen ⟨bytes, false⟩ =
        expectedReads buflen pieces last := by
    rw [readLines_eq]
    exact linesOf_of_cut hLen hCut
  refine ⟨hReads, fun hShort => ?_⟩
  rw [hReads, expectedReads_of_short hShort]

/- Three breaks, and a line without one. -/
theorem readLines_cutAtBreaks_mixed :
    readLines 4 ⟨[97, 13, 10, 10, 13, 13, 98], false⟩ =
      [[97], [], []].foldr .line (.eof [98]) := by
  have hCut :
      CutAtBreaks [97, 13, 10, 10, 13, 13, 98]
        [[97], [], []] [98] :=
    @CutAtBreaks.piece [97] [13, 10] [10, 13, 13, 98] _ _
      (by simp [IsBreakChar]) ⟨by decide, by decide⟩
    (@CutAtBreaks.piece [] [10, 13] [13, 98] _ _
      (by simp) ⟨by decide, by decide⟩
    (@CutAtBreaks.piece [] [13] [98] _ _
      (by simp) ⟨by decide, by decide⟩
    (.last (by simp [IsBreakChar]))))
  exact ((readLines_cutAtBreaks (by decide) _).2.1 _ _
    hCut).2 (by decide)

end SmartSOCKSProxy
