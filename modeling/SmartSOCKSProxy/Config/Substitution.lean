import SmartSOCKSProxy.Config.Lines

/-
  References to environment variables in a line.

  A line is read as characters and references.  An opening
  that is followed by another one before it is closed is a
  piece of its own: the loop drops it.

  Key definitions include:
    * `Opening`, `Reference`, `Reopened`
    * `Piece`, `Reads`, `runPieces`
    * `FitsBuffers`, `WithinSizes`, `Substitutes`

  Key theorems include:
    * `exists_reads`, `replaceLoop_reads`
    * `runPieces_of_fits`, `runPieces_of_not_fits`
    * `replaceEnvironmentVariables_substitutes_iff`
-/

namespace SmartSOCKSProxy

------------------------------------------------------------
-- Openings
------------------------------------------------------------

/- The line begins with a dollar sign and a brace. -/
def Opens
    (line : Text) : Prop :=
  ∃ rest, line = 36 :: 123 :: rest

/- What stands behind an opening of the line. -/
def Opening
    (line rest : Text) : Prop :=
  36 :: 123 :: rest <:+ line

def NameChars
    (name : Text) : Prop :=
  ∀ chr ∈ name, isNameChar chr = true

/- One or more characters of a name, and a brace. -/
def Reference
    (rest : Text) : Prop :=
  ∃ name after, name ≠ [] ∧ NameChars name ∧
    rest = name ++ 125 :: after

/- Characters of a name, and another opening. -/
def Reopened
    (rest : Text) : Prop :=
  ∃ name after, NameChars name ∧
    rest = name ++ 36 :: 123 :: after

def WellFormed
    (line : Text) : Prop :=
  ∀ rest, Opening line rest → Reference rest

theorem nameChars_singleton
    {chr : UInt8}
    (hChr : isNameChar chr = true) :
    NameChars [chr] := by
  intro chr' hMem
  rw [List.mem_singleton.mp hMem]
  exact hChr

theorem ne_of_isNameChar
    {chr : UInt8}
    (hChr : isNameChar chr = true) :
    chr ≠ 36 ∧ chr ≠ 125 := by
  constructor
  · rintro rfl
    exact absurd hChr (by decide)
  · rintro rfl
    exact absurd hChr (by decide)

theorem not_opens_of_ne
    {chr : UInt8}
    (hChr : chr ≠ 36)
    (rest : Text) :
    ¬ Opens (chr :: rest) := by
  rintro ⟨_, hLine⟩
  exact hChr (List.cons.inj hLine).1

theorem opening_cons_iff
    {chr : UInt8}
    {line : Text}
    (hPlain : ¬ Opens (chr :: line))
    (rest : Text) :
    Opening (chr :: line) rest ↔ Opening line rest := by
  unfold Opening
  rw [List.suffix_cons_iff]
  constructor
  · rintro (hLine | hRest)
    · exact absurd ⟨rest, hLine.symm⟩ hPlain
    · exact hRest
  · exact Or.inr

theorem opening_names_iff
    {name : Text}
    (hName : NameChars name)
    (line rest : Text) :
    Opening (name ++ line) rest ↔ Opening line rest := by
  induction name with
  | nil => rfl
  | cons chr name ih =>
      have hChr := ne_of_isNameChar (hName chr List.mem_cons_self)
      rw [List.cons_append,
        opening_cons_iff (not_opens_of_ne hChr.1 _)]
      exact ih fun c hc => hName c (List.mem_cons_of_mem _ hc)

theorem opening_opening_iff
    (line rest : Text) :
    Opening (36 :: 123 :: line) rest ↔
      rest = line ∨ Opening line rest := by
  have hBrace : ¬ Opens (123 :: line) :=
    not_opens_of_ne (by decide) line
  rw [← opening_cons_iff hBrace]
  unfold Opening
  rw [List.suffix_cons_iff]
  simp

/- A reference is no opening that is opened again. -/
theorem not_reopened_of_reference
    {rest : Text}
    (hReference : Reference rest) :
    ¬ Reopened rest := by
  rcases hReference with ⟨name, after, -, hName, rfl⟩
  rintro ⟨name', after', hName', hRest⟩
  induction name generalizing name' with
  | nil =>
      rcases name' with _ | ⟨chr, name'⟩
      · simp at hRest
      · have hChr :=
          ne_of_isNameChar (hName' chr List.mem_cons_self)
        exact hChr.2 (List.cons.inj hRest).1.symm
  | cons chr name ih =>
      rcases name' with _ | ⟨chr', name'⟩
      · have hChr :=
          ne_of_isNameChar (hName chr List.mem_cons_self)
        exact hChr.1 (List.cons.inj hRest).1
      · exact ih
          (fun c hc => hName c (List.mem_cons_of_mem _ hc))
          name'
          (fun c hc => hName' c (List.mem_cons_of_mem _ hc))
          (List.cons.inj hRest).2

------------------------------------------------------------
-- Reading a Line
------------------------------------------------------------

inductive Piece where
| char (chr : UInt8)
| reference (name : Text)
| reopened (name : Text)
deriving DecidableEq, Repr

/-
  The pieces of a line, up to its end or to an opening that is
  neither a reference nor opened again.
-/
inductive Reads :
    Text → List Piece → Bool → Prop
| done : Reads [] [] true
| char
    {chr : UInt8}
    {rest : Text}
    {pieces : List Piece}
    {closed : Bool}
    (hPlain : ¬ Opens (chr :: rest))
    (hRest : Reads rest pieces closed) :
    Reads (chr :: rest) (.char chr :: pieces) closed
| reference
    {name rest : Text}
    {pieces : List Piece}
    {closed : Bool}
    (hSome : name ≠ [])
    (hName : NameChars name)
    (hRest : Reads rest pieces closed) :
    Reads (36 :: 123 :: (name ++ 125 :: rest))
      (.reference name :: pieces) closed
| reopened
    {name rest : Text}
    {pieces : List Piece}
    {closed : Bool}
    (hName : NameChars name)
    (hRest : Reads (36 :: 123 :: rest) pieces closed) :
    Reads (36 :: 123 :: (name ++ 36 :: 123 :: rest))
      (.reopened name :: pieces) closed
| broken
    {rest : Text}
    (hReference : ¬ Reference rest)
    (hReopened : ¬ Reopened rest) :
    Reads (36 :: 123 :: rest) [] false

theorem exists_reads
    (line : Text) :
    ∃ pieces closed, Reads line pieces closed := by
  induction hLength : line.length using Nat.strong_induction_on
    generalizing line with
  | _ n ih =>
      by_cases hOpens : Opens line
      · rcases hOpens with ⟨rest, rfl⟩
        by_cases hReference : Reference rest
        · rcases hReference with
            ⟨name, after, hSome, hName, rfl⟩
          simp only [List.length_cons,
            List.length_append] at hLength
          rcases ih after.length (by omega) after rfl with
            ⟨pieces, closed, hRest⟩
          exact ⟨_, _, .reference hSome hName hRest⟩
        · by_cases hReopened : Reopened rest
          · rcases hReopened with ⟨name, after, hName, rfl⟩
            simp only [List.length_cons,
              List.length_append] at hLength
            rcases ih (36 :: 123 :: after).length
                (by simp only [List.length_cons]; omega) _ rfl
              with ⟨pieces, closed, hRest⟩
            exact ⟨_, _, .reopened hName hRest⟩
          · exact ⟨_, _, .broken hReference hReopened⟩
      · rcases line with _ | ⟨chr, rest⟩
        · exact ⟨_, _, .done⟩
        · rw [List.length_cons] at hLength
          rcases ih rest.length (by omega) rest rfl with
            ⟨pieces, closed, hRest⟩
          exact ⟨_, _, .char hOpens hRest⟩

/- The line is read to its end if no opening is broken. -/
theorem Reads.closed_iff
    {line : Text}
    {pieces : List Piece}
    {closed : Bool}
    (hReads : Reads line pieces closed) :
    closed = true ↔
      ∀ rest, Opening line rest →
        Reference rest ∨ Reopened rest := by
  induction hReads with
  | done => simp [Opening]
  | char hPlain hRest ih =>
      simp only [ih, opening_cons_iff hPlain]
  | @reference name rest pieces closed hSome hName hRest ih =>
      have hPlain := @not_opens_of_ne 125 (by decide) rest
      simp only [ih, opening_opening_iff,
        opening_names_iff hName, opening_cons_iff hPlain,
        or_imp, forall_and, forall_eq]
      exact ⟨fun h => ⟨.inl ⟨name, rest, hSome, hName, rfl⟩, h⟩,
        And.right⟩
  | @reopened name rest pieces closed hName hRest ih =>
      rw [ih]
      simp only [opening_opening_iff (name ++ _),
        opening_names_iff hName, or_imp, forall_and, forall_eq]
      exact ⟨fun h => ⟨.inr ⟨name, rest, hName, rfl⟩, h⟩,
        And.right⟩
  | @broken rest hReference hReopened =>
      simp only [Bool.false_eq_true, false_iff]
      intro hAll
      rcases hAll rest (List.suffix_refl _) with h | h
      · exact hReference h
      · exact hReopened h

theorem Reads.reopened_iff
    {line : Text}
    {pieces : List Piece}
    (hReads : Reads line pieces true) :
    (∃ rest, Opening line rest ∧ Reopened rest) ↔
      ∃ name, Piece.reopened name ∈ pieces := by
  generalize hClosed : true = closed at hReads
  induction hReads with
  | done => simp [Opening]
  | char hPlain hRest ih =>
      simpa [opening_cons_iff hPlain] using ih hClosed
  | @reference name rest pieces closed hSome hName hRest ih =>
      have hPlain := @not_opens_of_ne 125 (by decide) rest
      have hHere :=
        not_reopened_of_reference ⟨name, rest, hSome, hName, rfl⟩
      simpa [opening_opening_iff, opening_names_iff hName,
        opening_cons_iff hPlain, or_and_right, exists_or,
        hHere] using ih hClosed
  | @reopened name rest pieces closed hName hRest ih =>
      constructor
      · intro _
        exact ⟨name, List.mem_cons_self⟩
      · intro _
        exact ⟨_, List.suffix_refl _, name, rest, hName, rfl⟩
  | broken hReference hReopened => cases hClosed

------------------------------------------------------------
-- The Loop
------------------------------------------------------------

section Loop

variable {environ : Text → Option Text}
variable {outbuflen : Nat}

/- Every way out stores the terminator. -/
def endLine
    (outbuflen : Nat)
    (out : Text)
    (result : Except LineFailure Text) :
    Except LineFailure Text :=
  if outbuflen ≤ out.length then .error .overrun else result

/- The loop on the pieces of a line. -/
def runPieces
    (environ : Text → Option Text)
    (outbuflen : Nat)
    (closed : Bool) :
    List Piece → Text → Except LineFailure Text
  | [], out =>
      endLine outbuflen out
        (if closed then .ok out else .error .invalid)
  | .char chr :: pieces, out =>
      (putOut outbuflen out [chr]).bind
        (runPieces environ outbuflen closed pieces)
  | .reference name :: pieces, out =>
      if variableBufLen < name.length then
        endLine outbuflen out (.error .invalid)
      else if name.length = variableBufLen then .error .overrun
      else
        (putOut outbuflen out (variableValue environ name)).bind
          (runPieces environ outbuflen closed pieces)
  | .reopened _ :: pieces, out =>
      runPieces environ outbuflen closed pieces out

theorem not_opening_of_not_opens
    {chr : UInt8}
    {rest : Text}
    (hPlain : ¬ Opens (chr :: rest)) :
    ∀ rest', chr = 36 → rest = 123 :: rest' → False := by
  rintro rest' rfl rfl
  exact hPlain ⟨rest', rfl⟩

theorem replaceLoop_char
    {chr : UInt8}
    {rest : Text}
    (hPlain : ¬ Opens (chr :: rest))
    (out : Text) :
    replaceLoop environ outbuflen (chr :: rest) none out =
      (putOut outbuflen out [chr]).bind
        (replaceLoop environ outbuflen rest none) := by
  rw [replaceLoop.eq_3 _ _ _ _ _
    (not_opening_of_not_opens hPlain)]
  cases putOut outbuflen out [chr] <;> rfl

/- Characters of a name only move the end of the name. -/
theorem replaceLoop_names
    {name : Text}
    (hName : NameChars name)
    (rest front out : Text) :
    replaceLoop environ outbuflen (name ++ rest) (some front)
        out =
      replaceLoop environ outbuflen rest
        (some (front ++ name)) out := by
  induction name generalizing front with
  | nil => rw [List.nil_append, List.append_nil]
  | cons chr name ih =>
      have hChr := hName chr List.mem_cons_self
      have hPlain :=
        not_opens_of_ne (ne_of_isNameChar hChr).1 (name ++ rest)
      rw [List.cons_append,
        replaceLoop.eq_2 _ _ _ _ _ _
          (not_opening_of_not_opens hPlain),
        if_pos hChr,
        ih fun c hc => hName c (List.mem_cons_of_mem _ hc),
        List.append_assoc, List.singleton_append]

/- A brace behind the characters of a name. -/
theorem replaceLoop_brace
    {name : Text}
    (hSome : name ≠ [])
    (rest out : Text) :
    replaceLoop environ outbuflen (125 :: rest) (some name)
        out =
      if variableBufLen < name.length then
        endLine outbuflen out (.error .invalid)
      else if name.length = variableBufLen then .error .overrun
      else
        (putOut outbuflen out (variableValue environ name)).bind
          (replaceLoop environ outbuflen rest none) := by
  have hPlain := @not_opens_of_ne 125 (by decide) rest
  have hBrace : isNameChar 125 ≠ true := by decide
  rw [replaceLoop.eq_2 _ _ _ _ _ _
      (not_opening_of_not_opens hPlain),
    if_neg hBrace]
  by_cases hLong : variableBufLen < name.length
  · rw [if_pos hLong,
      if_neg fun h => absurd h.2.2 (Nat.not_le.mpr hLong)]
    rfl
  · rw [if_neg hLong,
      if_pos ⟨rfl, hSome, Nat.not_lt.mp hLong⟩]
    cases putOut outbuflen out (variableValue environ name) <;>
      rfl

/- An opening that is neither a reference nor opened again. -/
theorem replaceLoop_broken
    {rest : Text}
    (hReference : ¬ Reference rest)
    (hReopened : ¬ Reopened rest)
    (out : Text) :
    replaceLoop environ outbuflen (36 :: 123 :: rest) none
        out =
      endLine outbuflen out (.error .invalid) := by
  have hName :
      NameChars (rest.takeWhile isNameChar) := fun chr hMem =>
    List.mem_takeWhile_imp hMem
  have hSplit :
      rest.takeWhile isNameChar ++ rest.dropWhile isNameChar =
        rest :=
    List.takeWhile_append_dropWhile
  rw [replaceLoop.eq_1, ← hSplit, replaceLoop_names hName,
    List.nil_append]
  cases hAfter : rest.dropWhile isNameChar with
  | nil => rw [replaceLoop.eq_4, endLine]; rfl
  | cons chr after =>
      rw [hAfter] at hSplit
      have hChr : isNameChar chr ≠ true := by
        have hRest : rest.dropWhile isNameChar ≠ [] := by
          simp [hAfter]
        have hHead := List.head_dropWhile_not isNameChar hRest
        simp only [hAfter, List.head_cons] at hHead
        simp [hHead]
      have hPlain : ¬ Opens (chr :: after) := by
        rintro ⟨after', hOpens⟩
        rw [hOpens] at hSplit
        exact hReopened ⟨_, after', hName, hSplit.symm⟩
      have hBrace :
          ¬ (chr = 125 ∧ rest.takeWhile isNameChar ≠ [] ∧
            (rest.takeWhile isNameChar).length ≤
              variableBufLen) := by
        rintro ⟨rfl, hSome, -⟩
        exact hReference ⟨_, after, hSome, hName, hSplit.symm⟩
      rw [replaceLoop.eq_2 _ _ _ _ _ _
          (not_opening_of_not_opens hPlain),
        if_neg hChr, if_neg hBrace]
      rfl

/- The loop runs through the pieces of the line. -/
theorem replaceLoop_reads
    {line : Text}
    {pieces : List Piece}
    {closed : Bool}
    (hReads : Reads line pieces closed)
    (out : Text) :
    replaceLoop environ outbuflen line none out =
      runPieces environ outbuflen closed pieces out := by
  induction hReads generalizing out with
  | done => rfl
  | char hPlain hRest ih =>
      rw [replaceLoop_char hPlain, runPieces, funext ih]
  | reference hSome hName hRest ih =>
      rw [replaceLoop.eq_1, replaceLoop_names hName,
        List.nil_append, replaceLoop_brace hSome, runPieces,
        funext ih]
  | reopened hName hRest ih =>
      rw [replaceLoop.eq_1, replaceLoop_names hName,
        replaceLoop.eq_1, runPieces, ← ih out,
        replaceLoop.eq_1]
  | broken hReference hReopened =>
      rw [replaceLoop_broken hReference hReopened]
      rfl

------------------------------------------------------------
-- Sizes
------------------------------------------------------------

/- What the loop stores for a piece. -/
def Piece.written
    (environ : Text → Option Text) : Piece → Text
  | .char chr => [chr]
  | .reference name => variableValue environ name
  | .reopened _ => []

def Piece.nameLength : Piece → Nat
  | .char _ => 0
  | .reference name => name.length
  | .reopened _ => 0

/- The pieces in front of the first name that is rejected. -/
def reached
    (pieces : List Piece) : List Piece :=
  pieces.takeWhile fun p => p.nameLength ≤ variableBufLen

/-
  There is room behind `len` characters for what the loop
  stores, and no name leaves the room for its terminator.
-/
structure FitsBuffers
    (environ : Text → Option Text)
    (outbuflen len : Nat)
    (pieces : List Piece) : Prop where
  names :
    ∀ p ∈ reached pieces, p.nameLength ≠ variableBufLen
  output :
    len +
      ((reached pieces).flatMap (Piece.written environ)).length <
        outbuflen

theorem fitsBuffers_of_reached_nil
    {pieces : List Piece}
    (hReached : reached pieces = [])
    (len : Nat) :
    FitsBuffers environ outbuflen len pieces ↔
      len < outbuflen := by
  constructor
  · intro hFits
    simpa [hReached] using hFits.output
  · intro hLen
    exact ⟨by simp [hReached], by simpa [hReached] using hLen⟩

theorem fitsBuffers_cons_iff
    {p : Piece}
    (hLong : p.nameLength ≤ variableBufLen)
    (pieces : List Piece)
    (len : Nat) :
    FitsBuffers environ outbuflen len (p :: pieces) ↔
      p.nameLength ≠ variableBufLen ∧
        FitsBuffers environ outbuflen
          (len + (p.written environ).length) pieces := by
  have hReached :
      reached (p :: pieces) = p :: reached pieces :=
    List.takeWhile_cons_of_pos (by simpa using hLong)
  constructor
  · rintro ⟨hNames, hOutput⟩
    rw [hReached] at hNames hOutput
    rw [List.flatMap_cons, List.length_append] at hOutput
    exact ⟨hNames p List.mem_cons_self,
      fun q hq => hNames q (List.mem_cons_of_mem _ hq),
      by omega⟩
  · rintro ⟨hExact, hNames, hOutput⟩
    constructor
    · rw [hReached]
      exact List.forall_mem_cons.mpr ⟨hExact, hNames⟩
    · rw [hReached, List.flatMap_cons, List.length_append]
      omega

theorem runPieces_long
    {p : Piece}
    (hLong : variableBufLen < p.nameLength)
    (closed : Bool)
    (pieces : List Piece)
    (out : Text) :
    runPieces environ outbuflen closed (p :: pieces) out =
      endLine outbuflen out (.error .invalid) := by
  cases p with
  | char chr => exact absurd hLong (by simp [Piece.nameLength])
  | reference name => exact if_pos hLong
  | reopened name =>
      exact absurd hLong (by simp [Piece.nameLength])

theorem runPieces_exact
    {p : Piece}
    (hExact : p.nameLength = variableBufLen)
    (closed : Bool)
    (pieces : List Piece)
    (out : Text) :
    runPieces environ outbuflen closed (p :: pieces) out =
      .error .overrun := by
  cases p with
  | char chr => exact absurd hExact (by simp [Piece.nameLength])
  | reference name =>
      have hNotLong : ¬ variableBufLen < name.length :=
        Nat.not_lt.mpr (Nat.le_of_eq hExact)
      rw [runPieces, if_neg hNotLong]
      exact if_pos hExact
  | reopened name =>
      exact absurd hExact (by simp [Piece.nameLength])

theorem runPieces_cons
    {p : Piece}
    (hShort : p.nameLength < variableBufLen)
    (closed : Bool)
    (pieces : List Piece)
    {out : Text}
    (hOut : out.length ≤ outbuflen) :
    runPieces environ outbuflen closed (p :: pieces) out =
      (putOut outbuflen out (p.written environ)).bind
        (runPieces environ outbuflen closed pieces) := by
  cases p with
  | char chr => rfl
  | reference name =>
      have hNotLong : ¬ variableBufLen < name.length :=
        Nat.not_lt.mpr (Nat.le_of_lt hShort)
      rw [runPieces, if_neg hNotLong]
      exact if_neg (Nat.ne_of_lt hShort)
  | reopened name =>
      rw [runPieces, Piece.written, putOut, List.append_nil,
        if_pos (by simpa using hOut)]
      rfl

/- With room for everything, the pieces are written. -/
theorem runPieces_of_fits
    {pieces : List Piece}
    {out : Text}
    (hFits : FitsBuffers environ outbuflen out.length pieces)
    (closed : Bool) :
    runPieces environ outbuflen closed pieces out =
      if closed = true ∧
          ∀ p ∈ pieces, p.nameLength ≤ variableBufLen then
        .ok (out ++ pieces.flatMap (Piece.written environ))
      else .error .invalid := by
  induction pieces generalizing out with
  | nil =>
      have hLen := (fitsBuffers_of_reached_nil rfl _).mp hFits
      rw [runPieces, endLine, if_neg (Nat.not_le.mpr hLen)]
      simp
  | cons p pieces ih =>
      by_cases hLong : variableBufLen < p.nameLength
      · have hReached : reached (p :: pieces) = [] :=
          List.takeWhile_cons_of_neg (by simpa using hLong)
        have hLen :=
          (fitsBuffers_of_reached_nil hReached _).mp hFits
        rw [runPieces_long hLong, endLine,
          if_neg (Nat.not_le.mpr hLen), if_neg]
        rintro ⟨-, hAll⟩
        exact absurd (hAll p List.mem_cons_self)
          (Nat.not_le.mpr hLong)
      · have hLe := Nat.not_lt.mp hLong
        rcases (fitsBuffers_cons_iff hLe _ _).mp hFits with
          ⟨hExact, hRest⟩
        have hRoom :
            out.length + (p.written environ).length ≤
              outbuflen := by
          have := hRest.output
          omega
        rw [← List.length_append] at hRest
        rw [runPieces_cons (lt_of_le_of_ne hLe hExact) _ _
            (by omega),
          putOut, if_pos hRoom]
        change runPieces environ outbuflen closed pieces _ = _
        rw [ih hRest]
        simp [hLe]

/- Without it, a buffer is overrun. -/
theorem runPieces_of_not_fits
    {pieces : List Piece}
    {out : Text}
    (hOut : out.length ≤ outbuflen)
    (hFits : ¬ FitsBuffers environ outbuflen out.length pieces)
    (closed : Bool) :
    runPieces environ outbuflen closed pieces out =
      .error .overrun := by
  induction pieces generalizing out with
  | nil =>
      rw [fitsBuffers_of_reached_nil rfl, Nat.not_lt] at hFits
      exact if_pos hFits
  | cons p pieces ih =>
      by_cases hLong : variableBufLen < p.nameLength
      · have hReached : reached (p :: pieces) = [] :=
          List.takeWhile_cons_of_neg (by simpa using hLong)
        rw [fitsBuffers_of_reached_nil hReached,
          Nat.not_lt] at hFits
        rw [runPieces_long hLong]
        exact if_pos hFits
      · by_cases hExact : p.nameLength = variableBufLen
        · exact runPieces_exact hExact closed pieces out
        · have hLe := Nat.not_lt.mp hLong
          rw [fitsBuffers_cons_iff hLe] at hFits
          have hRest := fun h => hFits ⟨hExact, h⟩
          rw [runPieces_cons (lt_of_le_of_ne hLe hExact) _ _
            hOut, putOut]
          split_ifs with hRoom
          · rw [← List.length_append] at hRest hRoom
            exact ih hRoom hRest
          · rfl

end Loop

------------------------------------------------------------
-- Substitution
------------------------------------------------------------

/- A piece with its reference replaced, or as it is. -/
def Piece.expanded
    (environ : Text → Option Text) : Piece → Text
  | .char chr => [chr]
  | .reference name => (environ name).getD []
  | .reopened name => 36 :: 123 :: name

/- Names, values and the output are shorter than a buffer. -/
structure WithinSizes
    (environ : Text → Option Text)
    (outbuflen : Nat)
    (pieces : List Piece) : Prop where
  names : ∀ p ∈ pieces, p.nameLength < variableBufLen
  values :
    ∀ name value, .reference name ∈ pieces →
      environ name = some value →
        (0 : UInt8) ∉ value ∧ value.length < variableBufLen
  output :
    (pieces.flatMap (Piece.expanded environ)).length <
      outbuflen

/-
  Exactly the well-formed lines are accepted, and the output
  is the line with its references replaced.
-/
structure Substitutes
    (environ : Text → Option Text)
    (outbuflen : Nat)
    (line : Text)
    (pieces : List Piece) : Prop where
  accepts :
    (∃ out,
        replaceEnvironmentVariables environ outbuflen line =
          .ok out) ↔
      WellFormed line
  rejects :
    ¬ WellFormed line →
      replaceEnvironmentVariables environ outbuflen line =
        .error .invalid
  output :
    ∀ out,
      replaceEnvironmentVariables environ outbuflen line =
          .ok out →
        out = pieces.flatMap (Piece.expanded environ)

section Substitution

variable {environ : Text → Option Text}
variable {outbuflen : Nat}
variable {line : Text}
variable {pieces : List Piece}
variable {closed : Bool}

theorem WithinSizes.written_eq
    (hSizes : WithinSizes environ outbuflen pieces)
    {p : Piece}
    (hMem : p ∈ pieces)
    (hPiece : ∀ name, p ≠ .reopened name) :
    p.written environ = p.expanded environ := by
  cases p with
  | char chr => rfl
  | reference name =>
      rw [Piece.written, Piece.expanded, variableValue]
      cases hValue : environ name with
      | none => rfl
      | some value =>
          rcases hSizes.values name value hMem hValue with
            ⟨hNoNul, hShort⟩
          exact CBuf.text_copy_of_fits hNoNul
            (Nat.le_sub_one_of_lt hShort)
  | reopened name => exact absurd rfl (hPiece name)

theorem WithinSizes.length_written_le
    (hSizes : WithinSizes environ outbuflen pieces)
    {p : Piece}
    (hMem : p ∈ pieces) :
    (p.written environ).length ≤
      (p.expanded environ).length := by
  by_cases hPiece : ∀ name, p ≠ .reopened name
  · rw [hSizes.written_eq hMem hPiece]
  · simp only [not_forall, not_not] at hPiece
    rcases hPiece with ⟨name, rfl⟩
    simp [Piece.written]

theorem WithinSizes.fits
    (hSizes : WithinSizes environ outbuflen pieces) :
    FitsBuffers environ outbuflen 0 pieces := by
  have hReached : reached pieces = pieces := by
    apply List.takeWhile_eq_self_iff.mpr
    intro p hMem
    simpa using (hSizes.names p hMem).le
  refine ⟨?_, ?_⟩
  · rw [hReached]
    exact fun p hMem => (hSizes.names p hMem).ne
  · rw [hReached, Nat.zero_add]
    refine lt_of_le_of_lt ?_ hSizes.output
    rw [List.length_flatMap, List.length_flatMap]
    exact List.sum_le_sum fun p hMem =>
      hSizes.length_written_le hMem

/- The line is accepted if it is read to its end. -/
theorem replaceEnvironmentVariables_reads
    (hReads : Reads line pieces closed)
    (hSizes : WithinSizes environ outbuflen pieces) :
    replaceEnvironmentVariables environ outbuflen line =
      if closed = true then
        .ok (pieces.flatMap (Piece.written environ))
      else .error .invalid := by
  have hNames :
      ∀ p ∈ pieces, p.nameLength ≤ variableBufLen :=
    fun p hMem => (hSizes.names p hMem).le
  rw [replaceEnvironmentVariables, replaceLoop_reads hReads,
    runPieces_of_fits hSizes.fits]
  simp only [List.nil_append, and_iff_left hNames]

theorem wellFormed_iff_of_reads
    (hReads : Reads line pieces closed) :
    WellFormed line ↔
      closed = true ∧
        ¬ ∃ rest, Opening line rest ∧ Reopened rest := by
  rw [hReads.closed_iff]
  constructor
  · intro hWell
    refine ⟨fun rest hRest => .inl (hWell rest hRest), ?_⟩
    rintro ⟨rest, hRest, hReopened⟩
    exact not_reopened_of_reference (hWell rest hRest)
      hReopened
  · rintro ⟨hAll, hNone⟩ rest hRest
    rcases hAll rest hRest with hReference | hReopened
    · exact hReference
    · exact absurd ⟨rest, hRest, hReopened⟩ hNone

/-
  References are replaced and other lines are rejected, unless
  an opening is opened again and none is broken.
-/
theorem replaceEnvironmentVariables_substitutes_iff
    (hReads : Reads line pieces closed)
    (hSizes : WithinSizes environ outbuflen pieces) :
    Substitutes environ outbuflen line pieces ↔
      ((∃ rest, Opening line rest ∧ Reopened rest) →
        ∃ rest, Opening line rest ∧
          ¬ Reference rest ∧ ¬ Reopened rest) := by
  have hResult :=
    replaceEnvironmentVariables_reads hReads hSizes
  have hWell := wellFormed_iff_of_reads hReads
  have hBroken :
      (∃ rest, Opening line rest ∧
          ¬ Reference rest ∧ ¬ Reopened rest) ↔
        closed ≠ true := by
    rw [Ne, hReads.closed_iff]
    simp [not_or]
  rw [hBroken]
  cases closed with
  | false =>
      simp only [Bool.false_eq_true, if_false] at hResult
      have hNot : ¬ WellFormed line := fun h =>
        absurd (hWell.mp h).1 Bool.false_ne_true
      simp only [ne_eq, Bool.false_eq_true,
        not_false_eq_true, implies_true, iff_true]
      exact ⟨by simp [hResult, hNot], fun _ => hResult,
        by simp [hResult]⟩
  | true =>
      rw [if_pos rfl] at hResult
      constructor
      · intro hSubstitutes hReopened
        have hLine := hSubstitutes.accepts.mp ⟨_, hResult⟩
        exact absurd hReopened (hWell.mp hLine).2
      · intro hOnly
        have hNone :
            ¬ ∃ rest, Opening line rest ∧ Reopened rest :=
          fun h => hOnly h rfl
        have hLine := hWell.mpr ⟨rfl, hNone⟩
        refine ⟨⟨fun _ => hLine, fun _ => ⟨_, hResult⟩⟩,
          fun h => absurd hLine h, ?_⟩
        intro out hOut
        rw [hResult, Except.ok.injEq] at hOut
        rw [← hOut]
        apply List.flatMap_congr
        intro p hMem
        apply hSizes.written_eq hMem
        rintro name rfl
        exact hNone (hReads.reopened_iff.mpr ⟨name, hMem⟩)

end Substitution

/- A character and a reference. -/
theorem replaceEnvironmentVariables_substitutes_one :
    Substitutes (fun _ => some [49]) 16
      [120, 36, 123, 65, 125] [.char 120, .reference [65]] := by
  have hReads :
      Reads [120, 36, 123, 65, 125]
        [.char 120, .reference [65]] true :=
    .char (not_opens_of_ne (by decide) _)
      (@Reads.reference [65] [] [] true (by simp)
        (nameChars_singleton (by decide)) .done)
  have hSizes :
      WithinSizes (fun _ => some [49]) 16
        [.char 120, .reference [65]] := by
    refine ⟨by decide, ?_, by decide⟩
    intro name value _ hValue
    cases hValue
    decide
  apply (replaceEnvironmentVariables_substitutes_iff hReads
    hSizes).mpr
  intro hReopened
  rcases hReads.reopened_iff.mp hReopened with ⟨name, hMem⟩
  simp at hMem

/- The first of two openings is dropped. -/
theorem replaceEnvironmentVariables_reopened :
    Reads [36, 123, 97, 36, 123, 66, 125]
        [.reopened [97], .reference [66]] true ∧
      WithinSizes (fun _ => some [49]) 16
        [.reopened [97], .reference [66]] ∧
      replaceEnvironmentVariables (fun _ => some [49]) 16
          [36, 123, 97, 36, 123, 66, 125] =
        .ok [49] ∧
      ¬ Substitutes (fun _ => some [49]) 16
          [36, 123, 97, 36, 123, 66, 125]
          [.reopened [97], .reference [66]] := by
  have hReads :
      Reads [36, 123, 97, 36, 123, 66, 125]
        [.reopened [97], .reference [66]] true :=
    @Reads.reopened [97] [66, 125] _ _
      (nameChars_singleton (by decide))
      (@Reads.reference [66] [] [] true (by simp)
        (nameChars_singleton (by decide)) .done)
  have hResult :
      replaceEnvironmentVariables (fun _ => some [49]) 16
          [36, 123, 97, 36, 123, 66, 125] =
        .ok [49] := by
    rw [replaceEnvironmentVariables, replaceLoop_reads hReads]
    decide
  refine ⟨hReads, ⟨by decide, ?_, by decide⟩, hResult, ?_⟩
  · intro name value _ hValue
    cases hValue
    decide
  · intro hSubstitutes
    have hWell := hSubstitutes.accepts.mp ⟨_, hResult⟩
    exact ((wellFormed_iff_of_reads hReads).mp hWell).2
      (hReads.reopened_iff.mpr ⟨[97], by simp⟩)

end SmartSOCKSProxy
