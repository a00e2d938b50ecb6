import SmartSOCKSProxy.Foundations.CString

/-
  Reading the lines of a configuration file.

  Key definitions include:
    * `readLine`, `LineReads`, `readLines`, `LineReads.run`
    * `removeExtraSpacesAndComments`
    * `replaceEnvironmentVariables`
    * `configLine`

  Key theorems include:
    * `readLines_eq`
    * `LineReads.run_satisfies`
    * `readLines_terminate`
    * `outcome_terminate_iff`
-/

namespace SmartSOCKSProxy

------------------------------------------------------------
-- Lines of a File
------------------------------------------------------------

abbrev maxLineLength : Nat := 10240

/- What open() and read() give of a file. -/
structure DiskFile where
  bytes : Text
  readError : Bool
deriving DecidableEq, Repr

/- The markers `*cr` and `*lf`. -/
structure LineEnds where
  cr : Bool
  lf : Bool
deriving DecidableEq, Repr

def LineEnds.none : LineEnds :=
  ⟨false, false⟩

/- The results 0, 2 and 1 of read_line(), with the buffer. -/
inductive LineRead where
| error
| eof (buf : Text)
| line (buf : Text) (ends : LineEnds) (rest : Text)
deriving DecidableEq, Repr

/-
  `read_line()`.  A line break is eaten when it belongs to
  the one before it.
-/
def readLine
    (buflen : Nat)
    (readError : Bool) :
    Text → LineEnds → Text → LineRead
  | [], _, buf => if readError then .error else .eof buf
  | chr :: rest, ends, buf =>
      if chr = 10 ∧ ends.cr = true then
        readLine buflen readError rest .none buf
      else if chr = 13 ∧ ends.lf = true then
        readLine buflen readError rest .none buf
      else if chr = 10 then
        .line buf { ends with lf := true } rest
      else if chr = 13 then
        .line buf { ends with cr := true } rest
      else if buflen - 1 ≤ (buf ++ [chr]).length then .error
      else readLine buflen readError rest .none (buf ++ [chr])

/- What successive calls of read_line() return. -/
inductive LineReads where
| failed
| eof (buf : Text)
| line (buf : Text) (more : LineReads)
deriving DecidableEq, Repr

/- One call, and what the calls after it return. -/
def LineRead.andThen
    (more : Text → LineEnds → LineReads) :
    LineRead → LineReads
  | .error => .failed
  | .eof buf => .eof buf
  | .line buf ends rest => .line buf (more rest ends)

/-
  The calls of a loop that reads until the end.  Every call
  that finds a line takes at least one byte.
-/
def readLinesFrom
    (buflen : Nat)
    (readError : Bool) :
    Nat → Text → LineEnds → LineReads
  | 0, _, _ => .failed
  | calls + 1, bytes, ends =>
      (readLine buflen readError bytes ends []).andThen
        (readLinesFrom buflen readError calls)

def readLines
    (buflen : Nat)
    (file : DiskFile) : LineReads :=
  readLinesFrom buflen file.readError
    (file.bytes.length + 1) file.bytes .none

/- How the body of a loop over the lines goes on. -/
inductive LineStep
    (σ ρ : Type) where
| next (state : σ)
| stop (result : ρ)

def LineStep.andThen
    {σ ρ : Type}
    (more : σ → ρ) : LineStep σ ρ → ρ
  | .next state => more state
  | .stop result => result

@[simp]
theorem LineStep.andThen_next
    {σ ρ : Type}
    (more : σ → ρ)
    (state : σ) :
    (LineStep.next state).andThen more = more state := rfl

@[simp]
theorem LineStep.andThen_stop
    {σ ρ : Type}
    (more : σ → ρ)
    (result : ρ) :
    (LineStep.stop result : LineStep σ ρ).andThen more =
      result := rfl

/-
  A loop that reads until the end of the file.  What is left
  in the buffer there is not looked at.
-/
def LineReads.run
    {σ ρ : Type}
    (body : Nat → Text → σ → LineStep σ ρ)
    (atEof atFailure : σ → ρ) :
    LineReads → Nat → σ → ρ
  | .failed, _, state => atFailure state
  | .eof _, _, state => atEof state
  | .line buf more, lineNum, state =>
      (body lineNum buf state).andThen
        (more.run body atEof atFailure (lineNum + 1))

/- What holds of a step holds of how it goes on or ends. -/
def LineStep.Satisfies
    {σ ρ : Type}
    (goesOn : σ → Prop)
    (ends : ρ → Prop) : LineStep σ ρ → Prop
  | .next state => goesOn state
  | .stop result => ends result

/- What every line keeps is kept by the loop. -/
theorem LineReads.run_satisfies
    {σ ρ : Type}
    {body : Nat → Text → σ → LineStep σ ρ}
    {atEof atFailure : σ → ρ}
    {goesOn : σ → Prop}
    {ends : ρ → Prop}
    (hBody :
      ∀ lineNum buf state, goesOn state →
        (body lineNum buf state).Satisfies goesOn ends)
    (hEof : ∀ state, goesOn state → ends (atEof state))
    (hFailure :
      ∀ state, goesOn state → ends (atFailure state))
    (reads : LineReads)
    (lineNum : Nat)
    (state : σ)
    (hState : goesOn state) :
    ends (reads.run body atEof atFailure lineNum state) := by
  induction reads generalizing lineNum state with
  | failed => exact hFailure state hState
  | eof buf => exact hEof state hState
  | line buf more ih =>
      have hStep := hBody lineNum buf state hState
      rw [LineReads.run]
      cases hNext : body lineNum buf state with
      | next state' =>
          rw [hNext] at hStep
          exact ih (lineNum + 1) state' hStep
      | stop result =>
          rw [hNext] at hStep
          exact hStep

------------------------------------------------------------
-- Spaces and Comments
------------------------------------------------------------

structure SpaceState where
  out : Text
  escape : Bool
  needASpace : Bool
  quoteSingle : Bool
  quoteDouble : Bool
deriving DecidableEq, Repr

def SpaceState.init : SpaceState :=
  ⟨[], false, false, false, false⟩

/- `CHECK_FOR_SPACE`, and a character behind it. -/
def SpaceState.put
    (s : SpaceState)
    (chr : UInt8) : SpaceState :=
  { s with
    out := s.out ++ (if s.needASpace then [32] else []) ++ [chr]
    needASpace := false }

/-
  The loop of the function.  Characters of a quotation are
  copied, and the rest of the line is dropped after a `#`.
-/
def spaceLoop : Text → SpaceState → SpaceState
  | [], s => s
  | chr :: rest, s =>
      if chr = 92 ∧ s.escape = false then
        spaceLoop rest { s with escape := true }
      else if s.escape = true then
        spaceLoop rest { s.put chr with escape := false }
      else if (s.quoteSingle = true ∧ chr = 39) ∨
          (s.quoteDouble = true ∧ chr = 34) then
        spaceLoop rest
          { s with
            out := s.out ++ [chr]
            quoteSingle := false
            quoteDouble := false }
      else if s.quoteSingle = true ∨ s.quoteDouble = true then
        spaceLoop rest { s with out := s.out ++ [chr] }
      else if chr = 39 then
        spaceLoop rest { s.put chr with quoteSingle := true }
      else if chr = 34 then
        spaceLoop rest { s.put chr with quoteDouble := true }
      else if chr = 35 then s
      else if s.out = [] ∧ (chr = 32 ∨ chr = 9) then
        spaceLoop rest s
      else if chr = 32 ∨ chr = 9 then
        spaceLoop rest { s with needASpace := true }
      else spaceLoop rest (s.put chr)

/-
  `remove_extra_spaces_and_comments_from_config_line()`.
  There is no result when a quotation is not closed.
-/
def removeExtraSpacesAndComments
    (inbuf : Text) : Option Text :=
  let s := spaceLoop inbuf .init
  if s.quoteSingle = true ∨ s.quoteDouble = true then none
  else some s.out

example :
    removeExtraSpacesAndComments
        (Text.ascii "  a \t b '# ' # c".toList) =
      some (Text.ascii "a b '# '".toList) := by
  decide +kernel

------------------------------------------------------------
-- Environment Variables
------------------------------------------------------------

/-
  How a line is not usable: it is rejected, or a buffer is
  overrun and nothing is known any more.
-/
inductive LineFailure where
| invalid
| overrun
deriving DecidableEq, Repr

/- Letters, digits and the underscore. -/
def isNameChar
    (chr : UInt8) : Bool :=
  (97 ≤ chr ∧ chr ≤ 122) ∨ (65 ≤ chr ∧ chr ≤ 90) ∨
    (48 ≤ chr ∧ chr ≤ 57) ∨ chr = 95

/- The size of the buffers `value` and `name`. -/
abbrev variableBufLen : Nat := 8192

/- The value that is put in; a missing variable is empty. -/
def variableValue
    (environ : Text → Option Text)
    (name : Text) : Text :=
  (CBuf.copy ((environ name).getD []) :
    CBuf variableBufLen).text

/- Characters are stored at the end of the output. -/
def putOut
    (outbuflen : Nat)
    (out chars : Text) : Except LineFailure Text :=
  if out.length + chars.length ≤ outbuflen then
    .ok (out ++ chars)
  else .error .overrun

/-
  `replace_environment_variables_in_string()`.  The name so
  far is what stands between `start` and `cur`.  Every way
  out stores the terminator first.
-/
def replaceLoop
    (environ : Text → Option Text)
    (outbuflen : Nat) :
    Text → Option Text → Text → Except LineFailure Text
  | 36 :: 123 :: rest, _, out =>
      replaceLoop environ outbuflen rest (some []) out
  | chr :: rest, some name, out =>
      if isNameChar chr then
        replaceLoop environ outbuflen rest
          (some (name ++ [chr])) out
      else if chr = 125 ∧ name ≠ [] ∧
          name.length ≤ variableBufLen then
        if name.length = variableBufLen then .error .overrun
        else
          match putOut outbuflen out
              (variableValue environ name) with
          | .error failure => .error failure
          | .ok out' =>
              replaceLoop environ outbuflen rest none out'
      else if outbuflen ≤ out.length then .error .overrun
      else .error .invalid
  | chr :: rest, none, out =>
      match putOut outbuflen out [chr] with
      | .error failure => .error failure
      | .ok out' => replaceLoop environ outbuflen rest none out'
  | [], start, out =>
      if outbuflen ≤ out.length then .error .overrun
      else if start.isSome then .error .invalid
      else .ok out

def replaceEnvironmentVariables
    (environ : Text → Option Text)
    (outbuflen : Nat)
    (inbuf : Text) : Except LineFailure Text :=
  replaceLoop environ outbuflen inbuf none []

/-
  What both parsers do with the buffer of read_line() before
  they look at the line.
-/
def configLine
    (environ : Text → Option Text)
    (buf : Text) : Except LineFailure Text :=
  match removeExtraSpacesAndComments (Text.cstr buf) with
  | none => .error .invalid
  | some buf2 =>
      replaceEnvironmentVariables environ maxLineLength buf2

------------------------------------------------------------
-- The Calls of a Loop
------------------------------------------------------------

/- The results of the calls, byte by byte. -/
def linesOf
    (buflen : Nat)
    (readError : Bool) :
    Text → LineEnds → Text → LineReads
  | [], _, buf => if readError then .failed else .eof buf
  | chr :: rest, ends, buf =>
      if chr = 10 ∧ ends.cr = true then
        linesOf buflen readError rest .none buf
      else if chr = 13 ∧ ends.lf = true then
        linesOf buflen readError rest .none buf
      else if chr = 10 then
        .line buf
          (linesOf buflen readError rest
            { ends with lf := true } [])
      else if chr = 13 then
        .line buf
          (linesOf buflen readError rest
            { ends with cr := true } [])
      else if buflen - 1 ≤ (buf ++ [chr]).length then .failed
      else linesOf buflen readError rest .none (buf ++ [chr])

theorem linesOf_eq
    (buflen : Nat)
    (readError : Bool)
    (bytes : Text)
    (ends : LineEnds)
    (buf : Text) :
    linesOf buflen readError bytes ends buf =
      (readLine buflen readError bytes ends buf).andThen
        fun rest ends' =>
          linesOf buflen readError rest ends' [] := by
  induction bytes generalizing ends buf with
  | nil =>
      unfold linesOf readLine
      split_ifs <;> rfl
  | cons chr rest ih =>
      unfold readLine
      rw [linesOf]
      split_ifs
      · exact ih .none buf
      · exact ih .none buf
      · rfl
      · rfl
      · rfl
      · exact ih .none (buf ++ [chr])

/- A call that finds a line takes its line break. -/
theorem length_of_readLine
    {buflen : Nat}
    {readError : Bool}
    {bytes : Text}
    {ends : LineEnds}
    {buf line : Text}
    {ends' : LineEnds}
    {rest : Text}
    (hLine :
      readLine buflen readError bytes ends buf =
        .line line ends' rest) :
    rest.length < bytes.length := by
  induction bytes generalizing ends buf with
  | nil =>
      unfold readLine at hLine
      split_ifs at hLine
  | cons chr bytes ih =>
      unfold readLine at hLine
      simp only [List.length_cons]
      split_ifs at hLine
      · exact Nat.lt_succ_of_lt (ih hLine)
      · exact Nat.lt_succ_of_lt (ih hLine)
      · cases hLine
        exact Nat.lt_succ_self _
      · cases hLine
        exact Nat.lt_succ_self _
      · exact Nat.lt_succ_of_lt (ih hLine)

theorem readLinesFrom_eq
    (buflen : Nat)
    (readError : Bool)
    (calls : Nat)
    (bytes : Text)
    (ends : LineEnds)
    (hCalls : bytes.length < calls) :
    readLinesFrom buflen readError calls bytes ends =
      linesOf buflen readError bytes ends [] := by
  induction calls generalizing bytes ends with
  | zero => omega
  | succ calls ih =>
      rw [readLinesFrom, linesOf_eq]
      cases hLine : readLine buflen readError bytes ends [] with
      | error => rfl
      | eof buf => rfl
      | line buf ends' rest =>
          have hLength := length_of_readLine hLine
          simp only [LineRead.andThen]
          rw [ih rest ends' (by omega)]

/- There are enough calls for every file. -/
theorem readLines_eq
    (buflen : Nat)
    (file : DiskFile) :
    readLines buflen file =
      linesOf buflen file.readError file.bytes .none [] :=
  readLinesFrom_eq buflen file.readError _ file.bytes .none
    (Nat.lt_succ_self _)

------------------------------------------------------------
-- A Final Newline
------------------------------------------------------------

/- The last line, with its line break. -/
def LineReads.terminate : LineReads → LineReads
  | .failed => .failed
  | .eof buf => .line buf (.eof [])
  | .line buf more => .line buf more.terminate

theorem linesOf_terminate
    {c : UInt8}
    (hBreak : c ≠ 10 ∧ c ≠ 13)
    (buflen : Nat)
    (front : Text)
    (ends : LineEnds)
    (buf : Text) :
    linesOf buflen false (front ++ [c] ++ [10]) ends buf =
      (linesOf buflen false (front ++ [c]) ends
        buf).terminate := by
  induction front generalizing ends buf with
  | nil =>
      by_cases hLong : buflen - 1 ≤ (buf ++ [c]).length
      · simp only [List.nil_append, List.cons_append, linesOf,
          hBreak.1, hBreak.2, false_and, if_false,
          if_pos hLong, LineReads.terminate]
      · have hShort : ¬buflen ≤ buf.length + 1 + 1 := by
          simp only [List.length_append,
            List.length_singleton] at hLong
          omega
        simp [linesOf, hBreak.1, hBreak.2, if_neg hShort,
          LineEnds.none, LineReads.terminate]
  | cons chr front ih =>
      simp only [List.cons_append]
      rw [linesOf, linesOf]
      split_ifs
      · exact ih .none buf
      · exact ih .none buf
      · rw [LineReads.terminate, ih]
      · rw [LineReads.terminate, ih]
      · rfl
      · exact ih .none (buf ++ [chr])

/-
  A newline behind a last line only ends that line.
-/
theorem readLines_terminate
    (buflen : Nat)
    {bytes : Text}
    (hLast :
      ∃ c ∈ bytes.getLast?, c ≠ 10 ∧ c ≠ 13) :
    readLines buflen ⟨bytes ++ [10], false⟩ =
      (readLines buflen ⟨bytes, false⟩).terminate := by
  rcases hLast with ⟨c, hLast, hBreak⟩
  rcases List.mem_getLast?_eq_getLast hLast with ⟨hNe, rfl⟩
  rw [readLines_eq, readLines_eq]
  have hTerminate :=
    linesOf_terminate hBreak buflen bytes.dropLast .none []
  rw [List.dropLast_append_getLast hNe] at hTerminate
  exact hTerminate

/- Where a loop stands at the end of the file. -/
def LineReads.final
    {σ ρ : Type}
    (body : Nat → Text → σ → LineStep σ ρ) :
    LineReads → Nat → σ → Option (Nat × Text × σ)
  | .failed, _, _ => none
  | .eof buf, lineNum, state => some (lineNum, buf, state)
  | .line buf more, lineNum, state =>
      match body lineNum buf state with
      | .next state' => more.final body (lineNum + 1) state'
      | .stop _ => none

section FinalNewline

variable {σ ρ : Type}
variable {body : Nat → Text → σ → LineStep σ ρ}
variable (atEof atFailure : σ → ρ)

/- A loop that ends earlier does not see the newline. -/
theorem run_terminate_of_none
    {reads : LineReads}
    {lineNum : Nat}
    {state : σ}
    (hFinal : reads.final body lineNum state = none) :
    reads.terminate.run body atEof atFailure lineNum state =
      reads.run body atEof atFailure lineNum state := by
  induction reads generalizing lineNum state with
  | failed => rfl
  | eof buf => cases hFinal
  | line buf more ih =>
      simp only [LineReads.terminate, LineReads.run]
      simp only [LineReads.final] at hFinal
      cases hBody : body lineNum buf state with
      | next state' =>
          rw [hBody] at hFinal
          exact ih hFinal
      | stop result => rfl

/- A loop that gets there works on one line more. -/
theorem run_terminate_of_some
    {reads : LineReads}
    {lineNum : Nat}
    {state : σ}
    {lastNum : Nat}
    {last : Text}
    {lastState : σ}
    (hFinal :
      reads.final body lineNum state =
        some (lastNum, last, lastState)) :
    reads.run body atEof atFailure lineNum state =
        atEof lastState ∧
      reads.terminate.run body atEof atFailure lineNum state =
        (LineReads.line last (.eof [])).run body atEof atFailure
          lastNum lastState := by
  induction reads generalizing lineNum state with
  | failed => cases hFinal
  | eof buf =>
      cases hFinal
      exact ⟨rfl, rfl⟩
  | line buf more ih =>
      simp only [LineReads.final] at hFinal
      rw [LineReads.terminate, LineReads.run, LineReads.run]
      cases hBody : body lineNum buf state with
      | next state' =>
          rw [hBody] at hFinal
          exact ih hFinal
      | stop result =>
          rw [hBody] at hFinal
          cases hFinal

/-
  A newline changes nothing exactly when the last line is not
  reached, or has no effect on the outcome.
-/
theorem outcome_terminate_iff
    {ω : Type}
    (outcome : ρ → ω)
    (reads : LineReads)
    (lineNum : Nat)
    (state : σ) :
    outcome (reads.run body atEof atFailure lineNum state) =
        outcome
          (reads.terminate.run body atEof atFailure lineNum
            state) ↔
      ∀ lastNum last lastState,
        reads.final body lineNum state =
          some (lastNum, last, lastState) →
        outcome ((body lastNum last lastState).andThen atEof) =
          outcome (atEof lastState) := by
  cases hFinal : reads.final body lineNum state with
  | none =>
      rw [run_terminate_of_none atEof atFailure hFinal]
      simp
  | some final =>
      rcases final with ⟨lastNum, last, lastState⟩
      have hRun :=
        run_terminate_of_some atEof atFailure hFinal
      rw [hRun.1, hRun.2]
      constructor
      · intro hSame lastNum' last' lastState' hHere
        cases hHere
        exact hSame.symm
      · intro hLast
        exact (hLast lastNum last lastState rfl).symm

end FinalNewline

end SmartSOCKSProxy
