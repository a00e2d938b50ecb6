import SmartSOCKSProxy.Config.LineBreaks
import SmartSOCKSProxy.Config.Normalisation
import SmartSOCKSProxy.Config.Substitution

/-
  Lines that are read as they are meant.

  A backslash in front of each special character hides it
  from the normaliser, so that every text without a line
  break and without a reference to a variable can stand in a
  line of a file.

  Key definitions include:
    * `escapeChar`, `escapeText`
    * `WritableLine`, `writeLines`

  Key theorems include:
    * `configLine_escapeText`
    * `readLines_writeLines`
    * `run_writeLines`
-/

namespace SmartSOCKSProxy

------------------------------------------------------------
-- Escaping
------------------------------------------------------------

/- The backslash, the comment sign, quotes and blanks. -/
def isSpecial
    (chr : UInt8) : Bool :=
  chr = 92 ∨ chr = 35 ∨ chr = 39 ∨ chr = 34 ∨ chr = 32 ∨
    chr = 9

def escapeChar
    (chr : UInt8) : LineChar :=
  ⟨chr, isSpecial chr⟩

def escapeText
    (t : Text) : Text :=
  LineChar.sources (t.map escapeChar)

example :
    escapeText (Text.ascii "a #b".toList) =
      Text.ascii "a\\ \\#b".toList := by
  decide

/- Only escaped characters are special. -/
theorem escapeChar_plain
    (chr : UInt8) :
    (escapeChar chr).Plain := by
  intro hEscaped
  have hPlain : ¬(chr = 92 ∨ chr = 35 ∨ chr = 39 ∨
      chr = 34 ∨ chr = 32 ∨ chr = 9) :=
    of_decide_eq_false hEscaped
  unfold IsQuote IsBlankChar escapeChar
  dsimp only
  tauto

/- A character that is written occurs in the text, or hides. -/
theorem mem_escapeText
    {chr : UInt8}
    {t : Text}
    (hMem : chr ∈ escapeText t) :
    chr = 92 ∨ chr ∈ t := by
  rcases List.mem_flatMap.mp hMem with ⟨c, hChar, hMem⟩
  rcases List.mem_map.mp hChar with ⟨b, hText, rfl⟩
  unfold LineChar.source escapeChar at hMem
  dsimp only at hMem
  split at hMem
  · rcases List.mem_cons.mp hMem with rfl | hMem
    · exact .inl rfl
    · rw [List.mem_singleton.mp hMem]
      exact .inr hText
  · rw [List.mem_singleton.mp hMem]
    exact .inr hText

theorem escapeText_lexes
    (t : Text) :
    Lexes (escapeText t)
      (t.map fun chr => .char (escapeChar chr))
      (.done false) := by
  refine ⟨?_, ?_, trivial⟩
  · unfold escapeText LineChar.sources
    rw [List.flatMap_map, List.flatMap_map]
    exact (List.append_nil _).symm
  · intro lexeme hMem
    rcases List.mem_map.mp hMem with ⟨chr, _, rfl⟩
    exact escapeChar_plain chr

/- The normaliser only takes the backslashes out. -/
theorem removeExtraSpacesAndComments_escapeText
    (t : Text) :
    removeExtraSpacesAndComments (escapeText t) = some t := by
  have hWords := removeExtraSpacesAndComments_words
    (escapeText_lexes t)
  rw [hWords, LineTail.closed, if_pos rfl, Option.some_inj]
  cases t with
  | nil => rfl
  | cons chr t =>
      have hOne :
          wordsOf Lexeme.isBlank
              ([Lexeme.blank 32].intercalate
                [(chr :: t).map fun chr =>
                  Lexeme.char (escapeChar chr)]) =
            [(chr :: t).map fun chr =>
              Lexeme.char (escapeChar chr)] := by
        apply wordsOf_intercalate rfl
        intro word hWord
        rw [List.mem_singleton.mp hWord]
        refine ⟨List.cons_ne_nil _ _, ?_⟩
        intro lexeme hMem
        rcases List.mem_map.mp hMem with ⟨b, _, rfl⟩
        rfl
      rw [List.intercalate_singleton] at hOne
      rw [hOne, joinWords, List.map_singleton,
        List.intercalate_singleton, List.flatMap_map]
      exact List.flatMap_pure_eq_map id _ |>.trans
        (List.map_id _)

/- No reference to a variable begins in the text. -/
def NoOpening
    (t : Text) : Prop :=
  ∀ rest, ¬ Opening t rest

theorem noOpening_of_not_mem
    {t : Text}
    (hPlain : (36 : UInt8) ∉ t) :
    NoOpening t :=
  fun _ hOpening =>
    hPlain (hOpening.subset List.mem_cons_self)

theorem replaceLoop_noOpening
    (environ : Text → Option Text)
    {outbuflen : Nat}
    {t : Text}
    (hNone : NoOpening t)
    {out : Text}
    (hRoom : (out ++ t).length < outbuflen) :
    replaceLoop environ outbuflen t none out =
      .ok (out ++ t) := by
  induction t generalizing out with
  | nil =>
      rw [List.append_nil] at hRoom ⊢
      rw [replaceLoop, if_neg (Nat.not_le_of_lt hRoom)]
      rfl
  | cons chr t ih =>
      have hPlain : ¬ Opens (chr :: t) := by
        rintro ⟨rest, hOpens⟩
        exact hNone rest (hOpens ▸ List.suffix_rfl)
      have hLater : NoOpening t := fun rest hOpening =>
        hNone rest (hOpening.trans (List.suffix_cons _ _))
      have hSplit : out ++ chr :: t = out ++ [chr] ++ t := by
        simp
      rw [hSplit] at hRoom ⊢
      have hPut : putOut outbuflen out [chr] =
          .ok (out ++ [chr]) := by
        rw [putOut, if_pos]
        simp only [List.length_append] at hRoom
        exact Nat.le_of_lt (Nat.lt_of_le_of_lt
          (Nat.le_add_right _ _) hRoom)
      rw [replaceLoop_char hPlain, hPut]
      exact ih hLater hRoom

/-
  A line that can be written: it has neither a terminator nor
  a line break nor a reference, and it fits in the buffer of
  read_line() when it is escaped.
-/
structure WritableLine where
  text : Text
  noNul : (0 : UInt8) ∉ text
  noBreak : ∀ chr ∈ text, ¬ IsBreakChar chr
  noOpening : NoOpening text
  fits : (escapeText text).length < maxLineLength - 1

theorem length_le_escapeText
    (t : Text) :
    t.length ≤ (escapeText t).length := by
  induction t with
  | nil => exact Nat.le_refl 0
  | cons chr t ih =>
      unfold escapeText LineChar.sources at ih ⊢
      rw [List.map_cons, List.flatMap_cons,
        List.length_append, List.length_cons]
      have hSome : 1 ≤ (escapeChar chr).source.length := by
        unfold LineChar.source
        split <;> simp
      omega

/- Both parsers see the text of the line. -/
theorem configLine_escapeText
    (environ : Text → Option Text)
    (line : WritableLine) :
    configLine environ (escapeText line.text) =
      .ok line.text := by
  have hNoNul : (0 : UInt8) ∉ escapeText line.text := by
    intro hMem
    rcases mem_escapeText hMem with hZero | hMem
    · exact absurd hZero (by decide)
    · exact line.noNul hMem
  have hRoom : line.text.length < maxLineLength :=
    Nat.lt_of_le_of_lt (length_le_escapeText line.text)
      (Nat.lt_of_lt_of_le line.fits (Nat.sub_le _ _))
  unfold configLine
  rw [Text.cstr_eq_self hNoNul,
    removeExtraSpacesAndComments_escapeText]
  exact replaceLoop_noOpening environ line.noOpening hRoom

------------------------------------------------------------
-- Files
------------------------------------------------------------

/- The bytes of a file with these lines. -/
def writeLines
    (lines : List WritableLine) : Text :=
  lines.flatMap fun line => escapeText line.text ++ [10]

/- What read_line() returns, call by call. -/
def expectedLines : List WritableLine → LineReads
  | [] => .eof []
  | line :: lines =>
      .line (escapeText line.text) (expectedLines lines)

/- After a newline only a newline could be eaten. -/
theorem finish_of_head
    {ends : LineEnds}
    (hEnds : ends.cr = false)
    {bytes : Text}
    (hHead : bytes.head? ≠ some 13) :
    ends.finish bytes = bytes := by
  unfold LineEnds.finish
  split
  · rw [hEnds]
    rfl
  · exact absurd rfl hHead
  · rfl

theorem linesOf_writeLines
    (lines : List WritableLine)
    {ends : LineEnds}
    (hEnds : ends.cr = false) :
    linesOf maxLineLength false (writeLines lines) ends [] =
      expectedLines lines := by
  induction lines generalizing ends with
  | nil => rfl
  | cons line lines ih =>
      have hPlain : ∀ chr ∈ escapeText line.text,
          ¬ IsBreakChar chr := by
        intro chr hMem
        rcases mem_escapeText hMem with rfl | hMem
        · unfold IsBreakChar
          decide
        · exact line.noBreak chr hMem
      have hBytes : writeLines (line :: lines) =
          escapeText line.text ++ 10 :: writeLines lines := by
        unfold writeLines
        rw [List.flatMap_cons, List.append_assoc]
        rfl
      have hHead :
          (escapeText line.text ++
            10 :: writeLines lines).head? ≠ some 13 := by
        cases hText : escapeText line.text with
        | nil =>
            intro hSame
            cases hSame
        | cons chr rest =>
            intro hSame
            refine hPlain chr (hText ▸ List.mem_cons_self) ?_
            exact .inl (Option.some.inj hSame)
      rw [hBytes, linesOf_finish maxLineLength (.inl hEnds),
        finish_of_head hEnds hHead,
        linesOf_plain hPlain _ (by decide), List.nil_append,
        if_pos line.fits]
      have hLater :
          linesOf maxLineLength false (writeLines lines)
            ⟨false, true⟩ [] = expectedLines lines :=
        ih rfl
      rw [linesOf, if_neg (fun h => absurd h.2 (by decide)),
        if_neg (fun h => absurd h.1 (by decide)), if_pos rfl]
      exact congrArg (LineReads.line _) hLater

theorem readLines_writeLines
    (lines : List WritableLine) :
    readLines maxLineLength ⟨writeLines lines, false⟩ =
      expectedLines lines := by
  rw [readLines_eq]
  exact linesOf_writeLines lines rfl

------------------------------------------------------------
-- Loops over Written Lines
------------------------------------------------------------

/- The body of a loop for one line after another. -/
def foldLines
    {α σ ρ : Type}
    (body : Nat → α → σ → LineStep σ ρ)
    (atEof : σ → ρ) : List α → Nat → σ → ρ
  | [], _, state => atEof state
  | line :: lines, lineNum, state =>
      (body lineNum line state).andThen
        (foldLines body atEof lines (lineNum + 1))

/- Only the lines of the list matter. -/
theorem foldLines_congr
    {α σ ρ : Type}
    {body body' : Nat → α → σ → LineStep σ ρ}
    {atEof : σ → ρ}
    {lines : List α}
    (hSame : ∀ line ∈ lines, ∀ lineNum state,
      body lineNum line state = body' lineNum line state)
    (lineNum : Nat)
    (state : σ) :
    foldLines body atEof lines lineNum state =
      foldLines body' atEof lines lineNum state := by
  induction lines generalizing lineNum state with
  | nil => rfl
  | cons line lines ih =>
      rw [List.forall_mem_cons] at hSame
      rw [foldLines, foldLines, hSame.1]
      congr 1
      funext state'
      exact ih hSame.2 (lineNum + 1) state'

/- A loop that only looks at what the lines mean. -/
theorem run_writeLines
    {α σ ρ : Type}
    {body : Nat → Text → σ → LineStep σ ρ}
    {meant : Nat → α → σ → LineStep σ ρ}
    (line : α → WritableLine)
    (hBody : ∀ lineNum a state,
      body lineNum (escapeText (line a).text) state =
        meant lineNum a state)
    (atEof atFailure : σ → ρ)
    (items : List α)
    (lineNum : Nat)
    (state : σ) :
    (expectedLines (items.map line)).run body atEof atFailure
        lineNum state =
      foldLines meant atEof items lineNum state := by
  induction items generalizing lineNum state with
  | nil => rfl
  | cons a items ih =>
      rw [List.map_cons, expectedLines, LineReads.run, hBody,
        foldLines]
      congr 1
      funext state'
      exact ih (lineNum + 1) state'

end SmartSOCKSProxy
