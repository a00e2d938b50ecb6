import SmartSOCKSProxy.Config.Lines
import SmartSOCKSProxy.Foundations.Words

/-
  The lexemes of a configuration line.

  A line is read as blanks, characters and quotations, up to
  a comment, a quotation that is not closed, or its end.  What
  is left of it are the words between its blanks.

  Key definitions include:
    * `LineChar`, `Lexeme`, `LineTail`
    * `Lexes`

  Key theorems include:
    * `exists_lexes`
    * `spaceLoop_lexemes`
    * `removeExtraSpacesAndComments_words`
-/

namespace SmartSOCKSProxy

------------------------------------------------------------
-- Lexemes
------------------------------------------------------------

/- A character, and whether a backslash escapes it. -/
structure LineChar where
  chr : UInt8
  escaped : Bool
deriving DecidableEq, Repr

def LineChar.source
    (c : LineChar) : Text :=
  if c.escaped then [92, c.chr] else [c.chr]

def LineChar.sources
    (body : List LineChar) : Text :=
  body.flatMap source

inductive Lexeme where
| blank (chr : UInt8)
| char (c : LineChar)
| quoted (quote : UInt8) (body : List LineChar)
deriving DecidableEq, Repr

namespace Lexeme

def isBlank : Lexeme → Bool
  | .blank _ => true
  | .char _ => false
  | .quoted _ _ => false

/- How the lexeme stands in the line. -/
def source : Lexeme → Text
  | .blank chr => [chr]
  | .char c => c.source
  | .quoted quote body =>
      quote :: LineChar.sources body ++ [quote]

/- The lexeme without its escaping backslashes. -/
def kept : Lexeme → Text
  | .blank chr => [chr]
  | .char c => [c.chr]
  | .quoted quote body =>
      quote :: body.map LineChar.chr ++ [quote]

end Lexeme

/- What follows the last lexeme of a line. -/
inductive LineTail where
| done (escape : Bool)
| comment (text : Text)
| unclosed (quote : UInt8) (body : List LineChar)
    (escape : Bool)
deriving DecidableEq, Repr

/- A backslash with nothing to escape. -/
def looseEscape
    (escape : Bool) : Text :=
  if escape then [92] else []

def LineTail.source : LineTail → Text
  | .done escape => looseEscape escape
  | .comment text => 35 :: text
  | .unclosed quote body escape =>
      quote :: LineChar.sources body ++ looseEscape escape

/- All quotations of the line are closed. -/
def LineTail.closed : LineTail → Bool
  | .done _ => true
  | .comment _ => true
  | .unclosed _ _ _ => false

------------------------------------------------------------
-- Reading a Line
------------------------------------------------------------

def IsBlankChar
    (chr : UInt8) : Prop :=
  chr = 32 ∨ chr = 9

def IsQuote
    (chr : UInt8) : Prop :=
  chr = 39 ∨ chr = 34

/- Inside a quotation, its quote is escaped. -/
def LineChar.InQuote
    (quote : UInt8)
    (c : LineChar) : Prop :=
  c.escaped = false → c.chr ≠ 92 ∧ c.chr ≠ quote

/- Outside, so are blanks, quotes and the comment sign. -/
def LineChar.Plain
    (c : LineChar) : Prop :=
  c.escaped = false →
    c.chr ≠ 92 ∧ c.chr ≠ 35 ∧ ¬ IsQuote c.chr ∧
      ¬ IsBlankChar c.chr

def Lexeme.Valid : Lexeme → Prop
  | .blank chr => IsBlankChar chr
  | .char c => c.Plain
  | .quoted quote body =>
      IsQuote quote ∧ ∀ c ∈ body, c.InQuote quote

def LineTail.Valid : LineTail → Prop
  | .done _ => True
  | .comment _ => True
  | .unclosed quote body _ =>
      IsQuote quote ∧ ∀ c ∈ body, c.InQuote quote

/- The line consists of these lexemes and this tail. -/
structure Lexes
    (inbuf : Text)
    (lexemes : List Lexeme)
    (tail : LineTail) : Prop where
  source : inbuf = lexemes.flatMap Lexeme.source ++ tail.source
  lexemes : ∀ lexeme ∈ lexemes, lexeme.Valid
  tail : tail.Valid

theorem Lexes.cons
    {inbuf : Text}
    {lexemes : List Lexeme}
    {tail : LineTail}
    (hLexes : Lexes inbuf lexemes tail)
    {lexeme : Lexeme}
    (hValid : lexeme.Valid) :
    Lexes (lexeme.source ++ inbuf) (lexeme :: lexemes)
      tail := by
  refine ⟨?_, ?_, hLexes.tail⟩
  · rw [List.flatMap_cons, List.append_assoc,
      ← hLexes.source]
  · intro l hMem
    rcases List.mem_cons.mp hMem with rfl | hMem
    · exact hValid
    · exact hLexes.lexemes l hMem

/- Text from inside a quotation, up to its quote if any. -/
theorem exists_quotation
    (quote : UInt8)
    (text : Text) :
    ∃ body, (∀ c ∈ body, c.InQuote quote) ∧
      ((∃ rest, text =
          LineChar.sources body ++ quote :: rest) ∨
        ∃ escape, text =
          LineChar.sources body ++ looseEscape escape) := by
  induction hLength : text.length using Nat.strong_induction_on
    generalizing text with
  | _ n ih =>
      rcases text with _ | ⟨chr, rest⟩
      · exact ⟨[], by simp, .inr ⟨false, rfl⟩⟩
      -- One character, and what is read behind it.
      have hFirst :
          ∀ (c : LineChar) text', c.InQuote quote →
            chr :: rest = c.source ++ text' →
            text'.length < n →
            ∃ body, (∀ c ∈ body, c.InQuote quote) ∧
              ((∃ rest', chr :: rest =
                  LineChar.sources body ++ quote :: rest') ∨
                ∃ escape, chr :: rest =
                  LineChar.sources body ++
                    looseEscape escape) := by
        intro c text' hValid hText hShort
        rcases ih _ hShort text' rfl with ⟨body, hBody, hEnd⟩
        refine ⟨c :: body, ?_, ?_⟩
        · intro d hd
          rcases List.mem_cons.mp hd with rfl | hd
          · exact hValid
          · exact hBody d hd
        · rw [hText]
          unfold LineChar.sources at hEnd ⊢
          rw [List.flatMap_cons]
          simp only [List.append_assoc,
            List.append_cancel_left_eq]
          exact hEnd
      rw [List.length_cons] at hLength
      by_cases hEscape : chr = 92
      · subst hEscape
        rcases rest with _ | ⟨next, rest⟩
        · exact ⟨[], by simp, .inr ⟨true, rfl⟩⟩
        · rw [List.length_cons] at hLength
          exact hFirst ⟨next, true⟩ rest (fun h => by cases h)
            rfl (by omega)
      · by_cases hQuote : chr = quote
        · subst hQuote
          exact ⟨[], by simp, .inl ⟨rest, rfl⟩⟩
        · exact hFirst ⟨chr, false⟩ rest
            (fun _ => ⟨hEscape, hQuote⟩) rfl (by omega)

/- Every line can be read. -/
theorem exists_lexes
    (inbuf : Text) :
    ∃ lexemes tail, Lexes inbuf lexemes tail := by
  induction hLength : inbuf.length using Nat.strong_induction_on
    generalizing inbuf with
  | _ n ih =>
      have hLexeme :
          ∀ (lexeme : Lexeme) rest, lexeme.Valid →
            inbuf = lexeme.source ++ rest →
            rest.length < n →
            ∃ lexemes tail, Lexes inbuf lexemes tail := by
        intro lexeme rest hValid hInbuf hShort
        rcases ih _ hShort rest rfl with
          ⟨lexemes, tail, hLexes⟩
        rw [hInbuf]
        exact ⟨lexeme :: lexemes, tail, hLexes.cons hValid⟩
      rcases inbuf with _ | ⟨chr, rest⟩
      · exact ⟨[], .done false, rfl, by simp, trivial⟩
      rw [List.length_cons] at hLength
      by_cases hEscape : chr = 92
      · subst hEscape
        rcases rest with _ | ⟨next, rest⟩
        · exact ⟨[], .done true, rfl, by simp, trivial⟩
        · rw [List.length_cons] at hLength
          exact hLexeme (.char ⟨next, true⟩) rest
            (fun h => by cases h) rfl (by omega)
      by_cases hComment : chr = 35
      · subst hComment
        exact ⟨[], .comment rest, rfl, by simp, trivial⟩
      by_cases hBlank : IsBlankChar chr
      · exact hLexeme (.blank chr) rest hBlank rfl (by omega)
      by_cases hQuote : IsQuote chr
      · rcases exists_quotation chr rest with
          ⟨body, hBody, ⟨rest', hRest⟩ | ⟨escape, hRest⟩⟩
        · refine hLexeme (.quoted chr body) rest'
            ⟨hQuote, hBody⟩ ?_ ?_
          · simp [hRest, Lexeme.source]
          · have hLengths := congrArg List.length hRest
            simp only [List.length_append,
              List.length_cons] at hLengths
            omega
        · refine ⟨[], .unclosed chr body escape, ?_, by simp,
            hQuote, hBody⟩
          simp [hRest, LineTail.source]
      · exact hLexeme (.char ⟨chr, false⟩) rest
          (fun _ => ⟨hEscape, hComment, hQuote, hBlank⟩) rfl
          (by omega)

------------------------------------------------------------
-- The Loop
------------------------------------------------------------

/- The state of the loop between two lexemes. -/
def SpaceState.between
    (s : Spacing UInt8) : SpaceState :=
  ⟨s.out, false, s.pending, false, false⟩

/- The state of the loop inside a quotation. -/
def SpaceState.inside
    (quote : UInt8)
    (out : Text) : SpaceState :=
  ⟨out, false, false, quote == 39, quote == 34⟩

/- The output of a lexeme behind the ones before it. -/
def addLexeme
    (s : Spacing UInt8)
    (lexeme : Lexeme) : Spacing UInt8 :=
  s.add 32 Lexeme.isBlank Lexeme.kept lexeme

theorem spaceLoop_inQuote
    {quote : UInt8}
    (hQuote : IsQuote quote)
    {body : List LineChar}
    (hBody : ∀ c ∈ body, c.InQuote quote)
    (rest out : Text) :
    spaceLoop (LineChar.sources body ++ rest)
        (.inside quote out) =
      spaceLoop rest
        (.inside quote (out ++ body.map LineChar.chr)) := by
  induction body generalizing out with
  | nil => simp [LineChar.sources]
  | cons c body ih =>
      have hMore := ih
        (fun d hd => hBody d (List.mem_cons_of_mem _ hd))
        (out ++ [c.chr])
      unfold LineChar.sources at hMore ⊢
      rcases c with ⟨chr, escaped⟩
      cases escaped with
      | true =>
          simpa [LineChar.source, spaceLoop,
            SpaceState.inside, SpaceState.put] using hMore
      | false =>
          rcases hBody _ List.mem_cons_self rfl with
            ⟨hEscape, hOther⟩
          rcases hQuote with rfl | rfl
          · simpa [LineChar.source, spaceLoop,
              SpaceState.inside, hEscape, hOther] using hMore
          · simpa [LineChar.source, spaceLoop,
              SpaceState.inside, hEscape, hOther] using hMore

/- A quote opens a quotation, behind a space that waits. -/
theorem spaceLoop_open
    {quote : UInt8}
    (hQuote : IsQuote quote)
    (rest : Text)
    (s : Spacing UInt8) :
    spaceLoop (quote :: rest) (.between s) =
      spaceLoop rest
        (.inside quote
          (s.out ++ (if s.pending then [32] else []) ++
            [quote])) := by
  rcases s with ⟨out, pending⟩
  rcases hQuote with rfl | rfl
  · cases pending <;> simp [spaceLoop, SpaceState.between,
      SpaceState.inside, SpaceState.put]
  · cases pending <;> simp [spaceLoop, SpaceState.between,
      SpaceState.inside, SpaceState.put]

theorem spaceLoop_close
    {quote : UInt8}
    (hQuote : IsQuote quote)
    (rest out : Text) :
    spaceLoop (quote :: rest) (.inside quote out) =
      spaceLoop rest (.between ⟨out ++ [quote], false⟩) := by
  rcases hQuote with rfl | rfl
  · simp [spaceLoop, SpaceState.between, SpaceState.inside]
  · simp [spaceLoop, SpaceState.between, SpaceState.inside]

/- What the loop does with one lexeme. -/
theorem spaceLoop_lexeme
    {lexeme : Lexeme}
    (hValid : lexeme.Valid)
    (rest : Text)
    (s : Spacing UInt8) :
    spaceLoop (lexeme.source ++ rest) (.between s) =
      spaceLoop rest (.between (addLexeme s lexeme)) := by
  cases lexeme with
  | blank chr =>
      have hNext :
          addLexeme s (.blank chr) =
            ⟨s.out, s.pending || !s.out.isEmpty⟩ := rfl
      rcases hValid with rfl | rfl
      · by_cases hOut : s.out = []
        · simp [Lexeme.source, spaceLoop, SpaceState.between,
            hNext, hOut]
        · have hSome : s.out.isEmpty = false := by
            simpa using hOut
          simp [Lexeme.source, spaceLoop, SpaceState.between,
            hNext, hOut, hSome]
      · by_cases hOut : s.out = []
        · simp [Lexeme.source, spaceLoop, SpaceState.between,
            hNext, hOut]
        · have hSome : s.out.isEmpty = false := by
            simpa using hOut
          simp [Lexeme.source, spaceLoop, SpaceState.between,
            hNext, hOut, hSome]
  | char c =>
      rcases c with ⟨chr, escaped⟩
      cases escaped with
      | true =>
          simp [Lexeme.source, LineChar.source, spaceLoop,
            SpaceState.between, SpaceState.put, addLexeme,
            Spacing.add, Lexeme.isBlank, Lexeme.kept]
      | false =>
          rcases hValid rfl with
            ⟨hEscape, hComment, hQuote, hBlank⟩
          rcases not_or.mp hQuote with ⟨hSingle, hDouble⟩
          rcases not_or.mp hBlank with ⟨hSpace, hTab⟩
          simp only at hEscape hComment hSingle hDouble hSpace hTab
          simp [Lexeme.source, LineChar.source, spaceLoop,
            SpaceState.between, SpaceState.put, addLexeme,
            Spacing.add, Lexeme.isBlank, Lexeme.kept, hEscape,
            hComment, hSingle, hDouble, hSpace, hTab]
  | quoted quote body =>
      rcases hValid with ⟨hQuote, hBody⟩
      rw [Lexeme.source, List.cons_append, List.cons_append,
        List.append_assoc, spaceLoop_open hQuote,
        spaceLoop_inQuote hQuote hBody, List.singleton_append,
        spaceLoop_close hQuote]
      simp [addLexeme, Spacing.add, Lexeme.isBlank,
        Lexeme.kept]

theorem spaceLoop_lexemes
    {lexemes : List Lexeme}
    (hValid : ∀ lexeme ∈ lexemes, lexeme.Valid)
    (rest : Text)
    (s : Spacing UInt8) :
    spaceLoop (lexemes.flatMap Lexeme.source ++ rest)
        (.between s) =
      spaceLoop rest
        (.between (lexemes.foldl addLexeme s)) := by
  induction lexemes generalizing s with
  | nil => rfl
  | cons lexeme lexemes ih =>
      rw [List.flatMap_cons, List.append_assoc,
        spaceLoop_lexeme (hValid _ List.mem_cons_self),
        List.foldl_cons]
      exact ih
        (fun l hl => hValid l (List.mem_cons_of_mem _ hl)) _

/- A backslash at the end has no effect on the output. -/
theorem spaceLoop_looseEscape
    (escape : Bool)
    {s : SpaceState}
    (hEscape : s.escape = false) :
    spaceLoop (looseEscape escape) s =
      { s with escape := escape } := by
  rcases s with ⟨out, _, needASpace, quoteSingle, quoteDouble⟩
  subst hEscape
  cases escape with
  | true => simp [looseEscape, spaceLoop]
  | false => simp [looseEscape, spaceLoop]

/-
  The result on a line that is read as lexemes and a tail.
-/
theorem removeExtraSpacesAndComments_words
    {inbuf : Text}
    {lexemes : List Lexeme}
    {tail : LineTail}
    (hLexes : Lexes inbuf lexemes tail) :
    removeExtraSpacesAndComments inbuf =
      if tail.closed then
        some (joinWords 32 Lexeme.kept
          (wordsOf Lexeme.isBlank lexemes))
      else none := by
  have hKept :
      ∀ l : Lexeme, l.isBlank = false → l.kept ≠ [] := by
    intro l _
    cases l <;> simp [Lexeme.kept]
  have hOut :
      (lexemes.foldl addLexeme .empty).out =
        joinWords 32 Lexeme.kept
          (wordsOf Lexeme.isBlank lexemes) :=
    Spacing.out_foldl_add hKept lexemes
  have hLoop :=
    spaceLoop_lexemes hLexes.lexemes tail.source .empty
  rw [← hLexes.source] at hLoop
  rw [← hOut, removeExtraSpacesAndComments]
  change spaceLoop inbuf .init = _ at hLoop
  simp only [hLoop]
  have hTail := hLexes.tail
  cases tail with
  | done escape =>
      rw [LineTail.source, spaceLoop_looseEscape escape rfl]
      rfl
  | comment text =>
      rfl
  | unclosed quote body escape =>
      rcases hTail with ⟨hQuote, hBody⟩
      rw [LineTail.source, List.cons_append,
        spaceLoop_open hQuote,
        spaceLoop_inQuote hQuote hBody,
        spaceLoop_looseEscape escape rfl]
      rcases hQuote with rfl | rfl <;> rfl

------------------------------------------------------------
-- Length
------------------------------------------------------------

/- The output so far, with a space that waits. -/
def SpaceState.width
    (s : SpaceState) : Nat :=
  s.out.length + s.needASpace.toNat

theorem SpaceState.width_put
    (s : SpaceState)
    (chr : UInt8) :
    (s.put chr).width = s.width + 1 := by
  rcases s with ⟨out, escape, needASpace, single, double⟩
  cases needASpace <;> simp [width, put]

/- Every character widens the output by one at most. -/
theorem width_spaceLoop
    (inbuf : Text)
    (s : SpaceState) :
    (spaceLoop inbuf s).width ≤ s.width + inbuf.length := by
  induction inbuf generalizing s with
  | nil => rfl
  | cons chr rest ih =>
      have hNext :
          ∀ s' : SpaceState, s'.width ≤ s.width + 1 →
            (spaceLoop rest s').width ≤
              s.width + (chr :: rest).length := by
        intro s' hWidth
        have hRest := ih s'
        rw [List.length_cons]
        omega
      have hPut := (s.width_put chr).le
      have hAppend :
          (s.out ++ [chr]).length + s.needASpace.toNat ≤
            s.width + 1 := by
        rw [List.length_append, List.length_singleton,
          SpaceState.width]
        omega
      unfold spaceLoop
      split_ifs
      · exact hNext _ (Nat.le_succ _)
      · exact hNext _ hPut
      · exact hNext _ hAppend
      · exact hNext _ hAppend
      · exact hNext _ hPut
      · exact hNext _ hPut
      · exact Nat.le_add_right _ _
      · exact hNext _ (Nat.le_succ _)
      · refine hNext _ ?_
        simp only [SpaceState.width, Bool.toNat_true]
        omega
      · exact hNext _ hPut

theorem length_out_spaceLoop
    (inbuf : Text) :
    (spaceLoop inbuf .init).out.length ≤ inbuf.length := by
  have hInit : SpaceState.init.width = 0 := rfl
  have hWidth := width_spaceLoop inbuf .init
  rw [hInit, Nat.zero_add] at hWidth
  exact (Nat.le_add_right _ _).trans hWidth

------------------------------------------------------------
-- A Line Without Backslashes
------------------------------------------------------------

theorem sources_of_noBackslash
    {body : List LineChar}
    (hPlain : (92 : UInt8) ∉ LineChar.sources body) :
    LineChar.sources body = body.map LineChar.chr := by
  induction body with
  | nil => rfl
  | cons c body ih =>
      unfold LineChar.sources at hPlain ih ⊢
      rw [List.flatMap_cons, List.mem_append, not_or] at hPlain
      rcases c with ⟨chr, escaped⟩
      cases escaped with
      | true => simp [LineChar.source] at hPlain
      | false =>
          rw [List.flatMap_cons, ih hPlain.2]
          rfl

theorem Lexeme.kept_of_noBackslash
    {lexeme : Lexeme}
    (hPlain : (92 : UInt8) ∉ lexeme.source) :
    lexeme.kept = lexeme.source := by
  cases lexeme with
  | blank chr => rfl
  | char c =>
      rcases c with ⟨chr, escaped⟩
      cases escaped with
      | true => simp [source, LineChar.source] at hPlain
      | false => rfl
  | quoted quote body =>
      have hBody : (92 : UInt8) ∉ LineChar.sources body := by
        intro hMem
        exact hPlain (by simp [source, hMem])
      rw [kept, source, sources_of_noBackslash hBody]

/- The output is read as the words of the line. -/
theorem Lexes.output
    {inbuf : Text}
    {lexemes : List Lexeme}
    {tail : LineTail}
    (hLexes : Lexes inbuf lexemes tail)
    (hPlain : (92 : UInt8) ∉ inbuf) :
    Lexes
      (joinWords 32 Lexeme.kept
        (wordsOf Lexeme.isBlank lexemes))
      ([Lexeme.blank 32].intercalate
        (wordsOf Lexeme.isBlank lexemes))
      (.done false) := by
  have hKept : ∀ l ∈ lexemes, l.kept = l.source := by
    intro l hMem
    apply Lexeme.kept_of_noBackslash
    intro hBackslash
    rw [hLexes.source] at hPlain
    exact hPlain (List.mem_append_left _
      (List.mem_flatMap.mpr ⟨l, hMem, hBackslash⟩))
  refine ⟨?_, ?_, trivial⟩
  · have hText : (Lexeme.blank 32).source = [32] := rfl
    rw [flatMap_intercalate hText,
      joinWords_congr fun word hWord l hMem =>
        hKept l ((mem_wordsOf hWord).2 l hMem).1]
    simp [LineTail.source, looseEscape]
  · intro l hMem
    rcases mem_of_mem_intercalate hMem with
      rfl | ⟨word, hWord, hIn⟩
    · exact Or.inl rfl
    · exact hLexes.lexemes l ((mem_wordsOf hWord).2 l hIn).1

------------------------------------------------------------
-- Normalisation
------------------------------------------------------------

/-
  A line is accepted when its quotations are closed, and its
  words are left with one space between two of them.  The
  output is not longer than the line, and it is left as it is
  when it comes from a line without backslashes.
-/
theorem removeExtraSpacesAndComments_normalises
    (inbuf : Text) :
    (∃ lexemes tail, Lexes inbuf lexemes tail) ∧
      (∀ lexemes tail,
        Lexes inbuf lexemes tail →
          removeExtraSpacesAndComments inbuf =
            if tail.closed then
              some (joinWords 32 Lexeme.kept
                (wordsOf Lexeme.isBlank lexemes))
            else none) ∧
      (spaceLoop inbuf .init).out.length ≤ inbuf.length ∧
      ((92 : UInt8) ∉ inbuf →
        ∀ out, removeExtraSpacesAndComments inbuf = some out →
          removeExtraSpacesAndComments out = some out) := by
  refine ⟨exists_lexes inbuf, fun lexemes tail hLexes =>
    removeExtraSpacesAndComments_words hLexes,
    length_out_spaceLoop inbuf, ?_⟩
  intro hPlain out hOut
  rcases exists_lexes inbuf with ⟨lexemes, tail, hLexes⟩
  rw [removeExtraSpacesAndComments_words hLexes] at hOut
  split_ifs at hOut
  rw [Option.some.injEq] at hOut
  have hWords :
      ∀ word ∈ wordsOf Lexeme.isBlank lexemes,
        word ≠ [] ∧ ∀ l ∈ word, l.isBlank = false := by
    intro word hWord
    rcases mem_wordsOf hWord with ⟨hSome, hItems⟩
    exact ⟨hSome, fun l hMem => (hItems l hMem).2⟩
  have hAgain :=
    removeExtraSpacesAndComments_words (hLexes.output hPlain)
  rw [wordsOf_intercalate rfl hWords, hOut] at hAgain
  exact hAgain

end SmartSOCKSProxy
