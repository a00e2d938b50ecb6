import SmartSOCKSProxy.Config.Substitution
import SmartSOCKSProxy.Foundations.Stores

/-
  The buffers of a substitution.

  The function is told the size of its output buffer and does
  not look at it.  Its stores are listed here as if the output
  and the name had no end.

  Key definitions include:
    * `SubstitutionStores`, `replaceStores`
    * `StaysInside`

  Key theorems include:
    * `replaceLoop_overrun_iff`
    * `replaceStores_staysInside_iff`
-/

namespace SmartSOCKSProxy

------------------------------------------------------------
-- Stores
------------------------------------------------------------

/- The stores into the two buffers of the function. -/
structure SubstitutionStores where
  outbuf : List Store
  name : List Store

/-
  The stores of the loop, as if the buffers had no end.  The
  characters so far were stored in front of index `idx`.
-/
def replaceStores
    (environ : Text → Option Text) :
    Text → Option Text → Nat → SubstitutionStores
  | 36 :: 123 :: rest, _, idx =>
      replaceStores environ rest (some []) idx
  | chr :: rest, some name, idx =>
      if isNameChar chr then
        replaceStores environ rest (some (name ++ [chr])) idx
      else if chr = 125 ∧ name ≠ [] ∧
          name.length ≤ variableBufLen then
        let value := variableValue environ name
        let more :=
          replaceStores environ rest none (idx + value.length)
        ⟨storesAt idx value ++ more.outbuf,
          storesAt 0 (name ++ [0]) ++ more.name⟩
      else ⟨[(idx, 0)], []⟩
  | chr :: rest, none, idx =>
      let more := replaceStores environ rest none (idx + 1)
      ⟨storesAt idx [chr] ++ more.outbuf, more.name⟩
  | [], _, idx => ⟨[(idx, 0)], []⟩

/- No store is behind the end of its buffer. -/
structure StaysInside
    (outbuflen : Nat)
    (stores : SubstitutionStores) : Prop where
  outbuf : Inside outbuflen stores.outbuf
  name : Inside variableBufLen stores.name

section Stores

variable {environ : Text → Option Text}
variable {outbuflen : Nat}

theorem staysInside_end_iff
    (idx : Nat) :
    StaysInside outbuflen ⟨[(idx, 0)], []⟩ ↔
      ¬ outbuflen ≤ idx := by
  constructor
  · intro hInside
    simpa using hInside.outbuf
  · intro hRoom
    exact ⟨by simpa using hRoom, by simp⟩

/- Characters, stores of a name, and the stores behind them. -/
theorem staysInside_put_iff
    {idx : Nat}
    (hIdx : idx ≤ outbuflen)
    (data : Text)
    (name : List Store)
    (more : SubstitutionStores) :
    StaysInside outbuflen
        ⟨storesAt idx data ++ more.outbuf, name ++ more.name⟩ ↔
      idx + data.length ≤ outbuflen ∧
        Inside variableBufLen name ∧
          StaysInside outbuflen more := by
  have hFits :
      data = [] ∨ idx + data.length ≤ outbuflen ↔
        idx + data.length ≤ outbuflen := by
    rw [or_iff_right_iff_imp]
    rintro rfl
    exact hIdx
  constructor
  · rintro ⟨hOut, hName⟩
    rw [inside_append, inside_storesAt_iff, hFits] at hOut
    rw [inside_append] at hName
    exact ⟨hOut.1, hName.1, hOut.2, hName.2⟩
  · rintro ⟨hRoom, hHere, hOut, hName⟩
    constructor
    · rw [inside_append, inside_storesAt_iff, hFits]
      exact ⟨hRoom, hOut⟩
    · rw [inside_append]
      exact ⟨hHere, hName⟩

theorem putOut_eq_ok
    {out chars out' : Text}
    (hPut : putOut outbuflen out chars = .ok out') :
    out.length + chars.length ≤ outbuflen ∧
      out' = out ++ chars := by
  unfold putOut at hPut
  split_ifs at hPut with hRoom
  cases hPut
  exact ⟨hRoom, rfl⟩

theorem putOut_eq_error
    {out chars : Text}
    {failure : LineFailure}
    (hPut : putOut outbuflen out chars = .error failure) :
    ¬ out.length + chars.length ≤ outbuflen ∧
      failure = .overrun := by
  unfold putOut at hPut
  split_ifs at hPut with hRoom
  cases hPut
  exact ⟨hRoom, rfl⟩

/- A name that is accepted fits unless it fills its buffer. -/
theorem inside_name_iff
    {name : Text}
    (hLong : name.length ≤ variableBufLen) :
    Inside variableBufLen (storesAt 0 (name ++ [0])) ↔
      name.length ≠ variableBufLen := by
  rw [inside_storesAt_iff, List.length_append,
    List.length_singleton]
  simp only [List.append_eq_nil_iff, List.cons_ne_self,
    and_false, false_or]
  omega

/- The loop is known to overrun exactly when it does so. -/
theorem replaceLoop_overrun_iff
    (line : Text)
    (start : Option Text)
    {out : Text}
    (hOut : out.length ≤ outbuflen) :
    replaceLoop environ outbuflen line start out =
        .error .overrun ↔
      ¬ StaysInside outbuflen
        (replaceStores environ line start out.length) := by
  induction line, start, out using
    replaceLoop.induct environ outbuflen with
  | case1 rest start out ih =>
      rw [replaceLoop.eq_1, replaceStores.eq_1]
      exact ih hOut
  | case2 chr rest name out hPlain hChr ih =>
      rw [replaceLoop.eq_2 _ _ _ _ _ _ hPlain, if_pos hChr,
        replaceStores.eq_2 _ _ _ _ _ hPlain, if_pos hChr]
      exact ih hOut
  | case3 chr rest name out hPlain hChr hBrace hExact =>
      rw [replaceLoop.eq_2 _ _ _ _ _ _ hPlain, if_neg hChr,
        if_pos hBrace, if_pos hExact,
        replaceStores.eq_2 _ _ _ _ _ hPlain, if_neg hChr,
        if_pos hBrace, staysInside_put_iff hOut,
        inside_name_iff hBrace.2.2]
      simp [hExact]
  | case4 chr rest name out hPlain hChr hBrace hExact failure
      hPut =>
      rcases putOut_eq_error hPut with ⟨hRoom, rfl⟩
      rw [replaceLoop.eq_2 _ _ _ _ _ _ hPlain, if_neg hChr,
        if_pos hBrace, if_neg hExact, hPut,
        replaceStores.eq_2 _ _ _ _ _ hPlain, if_neg hChr,
        if_pos hBrace, staysInside_put_iff hOut]
      simp only [true_iff]
      exact fun h => hRoom h.1
  | case5 chr rest name out hPlain hChr hBrace hExact out'
      hPut ih =>
      rcases putOut_eq_ok hPut with ⟨hRoom, rfl⟩
      rw [replaceLoop.eq_2 _ _ _ _ _ _ hPlain, if_neg hChr,
        if_pos hBrace, if_neg hExact, hPut,
        replaceStores.eq_2 _ _ _ _ _ hPlain, if_neg hChr,
        if_pos hBrace, staysInside_put_iff hOut,
        inside_name_iff hBrace.2.2, and_iff_right hRoom,
        and_iff_right hExact]
      rw [List.length_append] at ih
      exact ih hRoom
  | case6 chr rest name out hPlain hChr hBrace hFull =>
      rw [replaceLoop.eq_2 _ _ _ _ _ _ hPlain, if_neg hChr,
        if_neg hBrace, if_pos hFull,
        replaceStores.eq_2 _ _ _ _ _ hPlain, if_neg hChr,
        if_neg hBrace, staysInside_end_iff]
      simpa using hFull
  | case7 chr rest name out hPlain hChr hBrace hRoom =>
      rw [replaceLoop.eq_2 _ _ _ _ _ _ hPlain, if_neg hChr,
        if_neg hBrace, if_neg hRoom,
        replaceStores.eq_2 _ _ _ _ _ hPlain, if_neg hChr,
        if_neg hBrace, staysInside_end_iff]
      simpa using hRoom
  | case8 chr rest out hPlain failure hPut =>
      rcases putOut_eq_error hPut with ⟨hRoom, rfl⟩
      have hIff := staysInside_put_iff hOut [chr] []
        (replaceStores environ rest none (out.length + 1))
      rw [List.nil_append] at hIff
      rw [replaceLoop.eq_3 _ _ _ _ _ hPlain, hPut,
        replaceStores.eq_3 _ _ _ _ hPlain, hIff]
      simp only [true_iff]
      exact fun h => hRoom h.1
  | case9 chr rest out hPlain out' hPut ih =>
      rcases putOut_eq_ok hPut with ⟨hRoom, rfl⟩
      have hIff := staysInside_put_iff hOut [chr] []
        (replaceStores environ rest none (out.length + 1))
      rw [List.nil_append] at hIff
      rw [replaceLoop.eq_3 _ _ _ _ _ hPlain, hPut,
        replaceStores.eq_3 _ _ _ _ hPlain, hIff,
        and_iff_right hRoom, and_iff_right inside_nil]
      rw [List.length_append] at ih
      exact ih hRoom
  | case10 start out hFull =>
      rw [replaceLoop.eq_4, if_pos hFull, replaceStores.eq_4,
        staysInside_end_iff]
      simpa using hFull
  | case11 start out hRoom hStart =>
      rw [replaceLoop.eq_4, if_neg hRoom, if_pos hStart,
        replaceStores.eq_4, staysInside_end_iff]
      simpa using hRoom
  | case12 start out hRoom hStart =>
      rw [replaceLoop.eq_4, if_neg hRoom, if_neg hStart,
        replaceStores.eq_4, staysInside_end_iff]
      simpa using hRoom

/-
  No store is outside its buffer exactly when what the loop
  stores for the pieces that it reaches is shorter than the
  output buffer, and no name there fills its buffer.
-/
theorem replaceStores_staysInside_iff
    (environ : Text → Option Text)
    (outbuflen : Nat)
    {line : Text}
    {pieces : List Piece}
    {closed : Bool}
    (hReads : Reads line pieces closed) :
    StaysInside outbuflen (replaceStores environ line none 0) ↔
      FitsBuffers environ outbuflen 0 pieces := by
  have hLink := @replaceLoop_overrun_iff environ outbuflen line
    none [] (Nat.zero_le _)
  rw [List.length_nil] at hLink
  rw [← not_iff_not, ← hLink, replaceLoop_reads hReads]
  constructor
  · intro hOverrun hFits
    rw [runPieces_of_fits hFits] at hOverrun
    split_ifs at hOverrun
    cases hOverrun
  · intro hFits
    exact runPieces_of_not_fits (Nat.zero_le _) hFits closed

end Stores

/- One reference, and its value with the terminator. -/
theorem replaceStores_staysInside_one :
    StaysInside 2
      (replaceStores (fun _ => some [49]) [36, 123, 65, 125]
        none 0) := by
  have hReads :
      Reads [36, 123, 65, 125] [.reference [65]] true :=
    @Reads.reference [65] [] [] true (by simp)
      (nameChars_singleton (by decide)) .done
  exact (replaceStores_staysInside_iff (fun _ => some [49]) 2
    hReads).mpr ⟨by decide, by decide⟩

/- Two values that fill their buffer do not fit. -/
theorem replaceStores_twoValues
    {value : Text}
    (hNoNul : (0 : UInt8) ∉ value)
    (hLength : value.length = variableBufLen - 1) :
    ¬ StaysInside maxLineLength
      (replaceStores (fun _ => some value)
        [36, 123, 65, 125, 36, 123, 65, 125] none 0) := by
  have hName : NameChars [65] :=
    nameChars_singleton (by decide)
  have hReads :
      Reads [36, 123, 65, 125, 36, 123, 65, 125]
        [.reference [65], .reference [65]] true :=
    @Reads.reference [65] _ _ _ (by simp) hName
      (@Reads.reference [65] [] [] true (by simp) hName .done)
  have hReached :
      reached [.reference [65], .reference [65]] =
        [.reference [65], .reference [65]] := by
    decide
  have hValue :
      variableValue (fun _ => some value) [65] = value :=
    CBuf.text_copy_of_fits hNoNul hLength.le
  rw [replaceStores_staysInside_iff _ _ hReads]
  intro hFits
  have hOutput := hFits.output
  simp only [hReached, List.flatMap_cons, List.flatMap_nil,
    Piece.written, hValue, List.length_append,
    List.length_nil, hLength] at hOutput
  exact absurd hOutput (by decide)

/- A name that fills its buffer is not rejected. -/
theorem replaceStores_exactName
    (environ : Text → Option Text)
    {name : Text}
    (hName : NameChars name)
    (hLength : name.length = variableBufLen) :
    ¬ StaysInside maxLineLength
      (replaceStores environ
        (36 :: 123 :: (name ++ [125])) none 0) := by
  have hSome : name ≠ [] := by
    rintro rfl
    simp at hLength
  have hReached :
      reached [.reference name] = [.reference name] := by
    simp [reached, Piece.nameLength, hLength]
  rw [replaceStores_staysInside_iff _ _
    (.reference hSome hName .done)]
  intro hFits
  refine hFits.names (.reference name) ?_ hLength
  rw [hReached]
  exact List.mem_singleton_self _

/-
  A line that is read with two references to a long value, and
  a name of exactly the size of its buffer.
-/
theorem replaceStores_overrun :
    (readLine maxLineLength false
          [36, 123, 65, 125, 36, 123, 65, 125, 10] .none [] =
        .line [36, 123, 65, 125, 36, 123, 65, 125]
          ⟨false, true⟩ [] ∧
      removeExtraSpacesAndComments
          (Text.cstr [36, 123, 65, 125, 36, 123, 65, 125]) =
        some [36, 123, 65, 125, 36, 123, 65, 125] ∧
      ¬ StaysInside maxLineLength
        (replaceStores (fun _ => some (List.replicate 8191 97))
          [36, 123, 65, 125, 36, 123, 65, 125] none 0)) ∧
    ¬ StaysInside maxLineLength
      (replaceStores (fun _ => none)
        (36 :: 123 :: (List.replicate 8192 97 ++ [125]))
        none 0) := by
  have hLetter :
      ∀ n, ∀ chr ∈ List.replicate n (97 : UInt8),
        chr = 97 := fun n chr hMem =>
    List.eq_of_mem_replicate hMem
  refine ⟨⟨by decide +kernel, by decide +kernel, ?_⟩, ?_⟩
  · refine replaceStores_twoValues ?_ List.length_replicate
    intro hZero
    exact absurd (hLetter _ _ hZero) (by decide)
  · refine replaceStores_exactName _ ?_ List.length_replicate
    intro chr hMem
    rw [hLetter _ _ hMem]
    decide

end SmartSOCKSProxy
