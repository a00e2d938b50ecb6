import SmartSOCKSProxy.Foundations.CString

/-
  JSON texts and what they denote.

  A string is the list of its bytes in UTF-8, and a number is
  the text that denotes it.  Only what documents here consist
  of is described: numbers, strings and objects.

  Key definitions include:
    * `Json`, `Json.Renders`, `JsonText`
    * `PlainString`
    * `Json.plain`

  Key theorems include:
    * `plainString_of_ascii`, `PlainString.ascii`
    * `Json.renders_plain`
    * `Json.length_le_of_renders`
    * `jsonText_plain_iff`
-/

------------------------------------------------------------
-- Strings
------------------------------------------------------------

/- The bytes of a character. -/
abbrev utf8 (c : Char) : List UInt8 :=
  String.utf8EncodeChar c

/- Characters that stand for themselves in a string. -/
def Unescaped
    (c : Char) : Prop :=
  32 ≤ c.toNat ∧ c ≠ '"' ∧ c ≠ '\\'

instance
    (c : Char) :
    Decidable (Unescaped c) :=
  inferInstanceAs (Decidable (_ ∧ _))

/- The escapes of one letter, with the byte they denote. -/
def shortEscapes : List (UInt8 × UInt8) :=
  [(34, 34), (92, 92), (47, 47), (98, 8), (102, 12),
    (110, 10), (114, 13), (116, 9)]

/- Four hexadecimal digits, and the number they denote. -/
def IsHex4
    (digits : List UInt8)
    (code : Nat) : Prop :=
  digits.length = 4 ∧ digits.all (Text.isDigit 16) ∧
    Text.digitsValue 16 digits = code

/- A piece of a string, and the bytes it denotes. -/
inductive StringPiece :
    List UInt8 → List UInt8 → Prop
| char
    {c : Char}
    (hPlain : Unescaped c) :
    StringPiece (utf8 c) (utf8 c)
| short
    {letter byte : UInt8}
    (hMem : (letter, byte) ∈ shortEscapes) :
    StringPiece [92, letter] [byte]
| unicode
    {digits : List UInt8}
    {c : Char}
    (hCode : IsHex4 digits c.toNat) :
    StringPiece (92 :: 117 :: digits) (utf8 c)
| surrogates
    {high low : List UInt8}
    {h l : Nat}
    {c : Char}
    (hHigh : IsHex4 high (55296 + h))
    (hLow : IsHex4 low (56320 + l))
    (hRange : h < 1024 ∧ l < 1024)
    (hCode : c.toNat = 65536 + h * 1024 + l) :
    StringPiece
      (92 :: 117 :: high ++ 92 :: 117 :: low) (utf8 c)

/- What stands between the quotes, and what it denotes. -/
inductive StringBody :
    List UInt8 → List UInt8 → Prop
| nil : StringBody [] []
| cons
    {text value texts values : List UInt8}
    (hPiece : StringPiece text value)
    (hBody : StringBody texts values) :
    StringBody (text ++ texts) (value ++ values)

/- A string between its quotes. -/
def quote
    (body : List UInt8) : List UInt8 :=
  34 :: body ++ [34]

def StringRenders
    (value text : List UInt8) : Prop :=
  ∃ body, text = quote body ∧ StringBody body value

/- A string that can be written as it is. -/
def PlainString
    (value : List UInt8) : Prop :=
  ∃ chars : List Char,
    value = chars.flatMap utf8 ∧ ∀ c ∈ chars, Unescaped c

theorem PlainString.body
    {value : List UInt8}
    (hPlain : PlainString value) :
    StringBody value value := by
  rcases hPlain with ⟨chars, rfl, hChars⟩
  induction chars with
  | nil => exact .nil
  | cons c chars ih =>
      rw [List.flatMap_cons]
      exact .cons (.char (hChars c List.mem_cons_self))
        (ih fun c' hc' =>
          hChars c' (List.mem_cons_of_mem c hc'))

/-
  A piece is at least as long as what it denotes, and longer
  when it is an escape.
-/
theorem StringPiece.length
    {text value : List UInt8}
    (hPiece : StringPiece text value) :
    value.length ≤ text.length ∧
      (text.length ≤ value.length →
        ∃ c, value = utf8 c ∧ Unescaped c) := by
  have hUtf8 : ∀ c : Char, (utf8 c).length ≤ 4 := by
    intro c
    rw [String.length_utf8EncodeChar]
    exact c.utf8Size_le_four
  cases hPiece with
  | char hPlain => exact ⟨le_refl _, fun _ => ⟨_, rfl, hPlain⟩⟩
  | short hMem => simp
  | @unicode digits c hCode =>
      have hLength := hUtf8 c
      have hDigits := hCode.1
      simp only [List.length_cons, hDigits]
      exact ⟨by omega, fun hLe => by omega⟩
  | @surrogates high low h l c hHigh hLow _ _ =>
      have hLength := hUtf8 c
      simp only [List.length_append, List.length_cons,
        hHigh.1, hLow.1]
      exact ⟨by omega, fun hLe => by omega⟩

theorem StringBody.length
    {body value : List UInt8}
    (hBody : StringBody body value) :
    value.length ≤ body.length ∧
      (body.length ≤ value.length → PlainString value) := by
  induction hBody with
  | nil => exact ⟨le_refl _, fun _ => ⟨[], rfl, by simp⟩⟩
  | cons hPiece _ ih =>
      have hHere := hPiece.length
      simp only [List.length_append]
      refine ⟨by omega, ?_⟩
      intro hLe
      rcases hHere.2 (by omega) with ⟨c, rfl, hc⟩
      rcases ih.2 (by omega) with ⟨chars, rfl, hChars⟩
      refine ⟨c :: chars, rfl, ?_⟩
      intro c' hc'
      rcases List.mem_cons.mp hc' with rfl | hLater
      · exact hc
      · exact hChars c' hLater

theorem StringRenders.length
    {value text : List UInt8}
    (hRenders : StringRenders value text) :
    (quote value).length ≤ text.length ∧
      (text.length ≤ (quote value).length →
        PlainString value) := by
  rcases hRenders with ⟨body, rfl, hBody⟩
  have hLength := hBody.length
  simp only [quote, List.length_append, List.length_cons]
  exact ⟨by omega, fun hLe => hLength.2 (by omega)⟩

/- A byte below 128 is a character of its own. -/
theorem toNat_of_mem_utf8
    {b : UInt8}
    {c : Char}
    (hMem : b ∈ utf8 c)
    (hAscii : b.toNat < 128) :
    c.toNat = b.toNat := by
  have hByte : ∀ n : Nat, n < 256 → (UInt8.ofNat n).toNat = n :=
    fun n hn => Nat.mod_eq_of_lt hn
  have hLead :
      ∀ n m k : Nat, b = UInt8.ofNat (n % m + k) → 128 ≤ k →
        m + k ≤ 256 → 0 < m → False := by
    intro n m k hb hk hSum hm
    have hLt := Nat.mod_lt n hm
    rw [hb, hByte _ (by omega)] at hAscii
    omega
  unfold utf8 String.utf8EncodeChar at hMem
  dsimp only at hMem
  split_ifs at hMem with hOne hTwo hThree
  · rw [List.mem_singleton.mp hMem, hByte _ (by omega)]
    rfl
  all_goals
    exfalso
    simp only [List.mem_cons, List.not_mem_nil,
      or_false] at hMem
  · rcases hMem with hb | hb
    all_goals
      exact hLead _ _ _ hb (by omega) (by omega) (by omega)
  · rcases hMem with hb | hb | hb
    all_goals
      exact hLead _ _ _ hb (by omega) (by omega) (by omega)
  · rcases hMem with hb | hb | hb | hb
    all_goals
      exact hLead _ _ _ hb (by omega) (by omega) (by omega)

/- A plain string has no byte that needs an escape. -/
theorem PlainString.ascii
    {value : List UInt8}
    (hPlain : PlainString value)
    {b : UInt8}
    (hMem : b ∈ value)
    (hAscii : b.toNat < 128) :
    32 ≤ b.toNat ∧ b ≠ 34 ∧ b ≠ 92 := by
  rcases hPlain with ⟨chars, rfl, hChars⟩
  rcases List.mem_flatMap.mp hMem with ⟨c, hc, hb⟩
  have hCode := toNat_of_mem_utf8 hb hAscii
  rcases hChars c hc with ⟨hLow, hQuote, hSlash⟩
  refine ⟨by omega, ?_, ?_⟩
  · rintro rfl
    exact hQuote (Char.toNat_inj.mp hCode)
  · rintro rfl
    exact hSlash (Char.toNat_inj.mp hCode)

/- Printable ASCII, without the quote and the backslash. -/
def asciiPlain
    (b : UInt8) : Bool :=
  32 ≤ b && b < 127 && b ≠ 34 && b ≠ 92

theorem plainString_of_ascii
    {value : List UInt8}
    (hPlain : ∀ b ∈ value, asciiPlain b = true) :
    PlainString value := by
  have hAll :
      ∀ n : Fin 256, asciiPlain (UInt8.ofNat n) = true →
        utf8 (Char.ofNat n) = [UInt8.ofNat n] ∧
          Unescaped (Char.ofNat n) := by
    decide +kernel
  refine ⟨value.map fun b => Char.ofNat b.toNat, ?_, ?_⟩
  · rw [List.flatMap_map]
    induction value with
    | nil => rfl
    | cons b value ih =>
        have hHere :=
          (hAll ⟨b.toNat, b.toNat_lt⟩ (by
            simpa using hPlain b List.mem_cons_self)).1
        rw [List.flatMap_cons, ← ih fun b' hb' =>
          hPlain b' (List.mem_cons_of_mem b hb')]
        simpa using (congrArg (· ++ value) hHere).symm
  · intro c hc
    rcases List.mem_map.mp hc with ⟨b, hb, rfl⟩
    exact (hAll ⟨b.toNat, b.toNat_lt⟩ (by
      simpa using hPlain b hb)).2

theorem plainString_of_all
    {value : List UInt8}
    (hAll : value.all asciiPlain = true) :
    PlainString value :=
  plainString_of_ascii (List.all_eq_true.mp hAll)

------------------------------------------------------------
-- Numbers
------------------------------------------------------------

def IsDigits
    (digits : List UInt8) : Prop :=
  digits ≠ [] ∧ ∀ d ∈ digits, 48 ≤ d ∧ d ≤ 57

/- No leading zeros. -/
def IsIntPart
    (digits : List UInt8) : Prop :=
  IsDigits digits ∧
    (digits.head? = some 48 → digits.length = 1)

def IsFraction
    (text : List UInt8) : Prop :=
  text = [] ∨ ∃ digits, text = 46 :: digits ∧ IsDigits digits

def IsExponent
    (text : List UInt8) : Prop :=
  text = [] ∨ ∃ e sign digits,
    text = e :: sign ++ digits ∧ (e = 101 ∨ e = 69) ∧
      (sign = [] ∨ sign = [43] ∨ sign = [45]) ∧
      IsDigits digits

/- The text of a number. -/
def IsNumber
    (lexeme : List UInt8) : Prop :=
  ∃ sign digits fraction exponent,
    lexeme = sign ++ digits ++ fraction ++ exponent ∧
      (sign = [] ∨ sign = [45]) ∧ IsIntPart digits ∧
      IsFraction fraction ∧ IsExponent exponent

------------------------------------------------------------
-- Documents
------------------------------------------------------------

inductive Json where
| number (lexeme : List UInt8)
| string (value : List UInt8)
| object (members : List (List UInt8 × Json))

/- Spaces and line ends between tokens. -/
def IsBlank
    (text : List UInt8) : Prop :=
  ∀ b ∈ text, b = 32 ∨ b = 9 ∨ b = 10 ∨ b = 13

namespace Json

mutual

/- The texts that denote a document. -/
def Renders : Json → List UInt8 → Prop
  | .number lexeme, text =>
      text = lexeme ∧ IsNumber lexeme
  | .string value, text => StringRenders value text
  | .object members, text =>
      ∃ inner, text = 123 :: inner ++ [125] ∧
        RendersMembers members inner

/- A member, and the blanks around it. -/
def RendersMember :
    List UInt8 × Json → List UInt8 → Prop
  | (key, value), text =>
      ∃ blank₁ name blank₂ blank₃ body blank₄,
        text =
          blank₁ ++ name ++ blank₂ ++ 58 :: blank₃ ++ body ++
            blank₄ ∧
        IsBlank blank₁ ∧ IsBlank blank₂ ∧ IsBlank blank₃ ∧
        IsBlank blank₄ ∧ StringRenders key name ∧
        Renders value body

/- What stands between the braces. -/
def RendersMembers :
    List (List UInt8 × Json) → List UInt8 → Prop
  | [], text => IsBlank text
  | member :: members, text =>
      ∃ first rest, text = first ++ rest ∧
        RendersMember member first ∧ RendersMore members rest

/- And after the first member. -/
def RendersMore :
    List (List UInt8 × Json) → List UInt8 → Prop
  | [], text => text = []
  | member :: members, text =>
      ∃ first rest, text = 44 :: first ++ rest ∧
        RendersMember member first ∧ RendersMore members rest

end

mutual

/- The text without blanks and escapes. -/
def plain : Json → List UInt8
  | .number lexeme => lexeme
  | .string value => quote value
  | .object members => 123 :: plainMembers members ++ [125]

def plainMember : List UInt8 × Json → List UInt8
  | (key, value) => quote key ++ 58 :: plain value

def plainMembers : List (List UInt8 × Json) → List UInt8
  | [] => []
  | member :: members =>
      plainMember member ++ plainMore members

def plainMore : List (List UInt8 × Json) → List UInt8
  | [] => []
  | member :: members =>
      44 :: plainMember member ++ plainMore members

end

mutual

/- All strings of a document, keys included. -/
def strings : Json → List (List UInt8)
  | .number _ => []
  | .string value => [value]
  | .object members => stringsMembers members

def stringsMember : List UInt8 × Json → List (List UInt8)
  | (key, value) => key :: strings value

def stringsMembers :
    List (List UInt8 × Json) → List (List UInt8)
  | [] => []
  | member :: members =>
      stringsMember member ++ stringsMembers members

end

mutual

def numbers : Json → List (List UInt8)
  | .number lexeme => [lexeme]
  | .string _ => []
  | .object members => numbersMembers members

def numbersMember : List UInt8 × Json → List (List UInt8)
  | (_, value) => numbers value

def numbersMembers :
    List (List UInt8 × Json) → List (List UInt8)
  | [] => []
  | member :: members =>
      numbersMember member ++ numbersMembers members

end

------------------------------------------------------------
-- The Plain Text
------------------------------------------------------------

theorem isBlank_nil :
    IsBlank [] :=
  fun _ hMem => nomatch hMem

mutual

/- The plain text denotes a document of plain strings. -/
theorem renders_plain :
    ∀ v : Json,
      (∀ value ∈ v.strings, PlainString value) →
      (∀ lexeme ∈ v.numbers, IsNumber lexeme) →
      v.Renders v.plain
  | .number lexeme, _, hNumbers => by
      unfold Renders plain
      exact ⟨rfl, hNumbers lexeme (by simp [numbers])⟩
  | .string value, hStrings, _ => by
      have hPlain := hStrings value (by simp [strings])
      unfold Renders plain
      exact ⟨value, rfl, hPlain.body⟩
  | .object members, hStrings, hNumbers => by
      unfold strings at hStrings
      unfold numbers at hNumbers
      unfold Renders plain
      exact ⟨_, rfl,
        renders_plainMembers members hStrings hNumbers⟩

theorem renders_plainMember :
    ∀ member : List UInt8 × Json,
      (∀ value ∈ stringsMember member, PlainString value) →
      (∀ lexeme ∈ numbersMember member, IsNumber lexeme) →
      RendersMember member (plainMember member)
  | (key, value), hStrings, hNumbers => by
      unfold stringsMember at hStrings
      unfold numbersMember at hNumbers
      have hKey := hStrings key List.mem_cons_self
      have hValue := renders_plain value
        (fun s hs => hStrings s (List.mem_cons_of_mem key hs))
        hNumbers
      unfold RendersMember plainMember
      exact ⟨[], quote key, [], [], value.plain, [], by simp,
        isBlank_nil, isBlank_nil, isBlank_nil, isBlank_nil,
        ⟨key, rfl, hKey.body⟩, hValue⟩

theorem renders_plainMembers :
    ∀ members : List (List UInt8 × Json),
      (∀ value ∈ stringsMembers members,
        PlainString value) →
      (∀ lexeme ∈ numbersMembers members,
        IsNumber lexeme) →
      RendersMembers members (plainMembers members)
  | [], _, _ => by
      unfold RendersMembers plainMembers
      exact isBlank_nil
  | member :: members, hStrings, hNumbers => by
      unfold stringsMembers at hStrings
      unfold numbersMembers at hNumbers
      rw [List.forall_mem_append] at hStrings hNumbers
      unfold RendersMembers plainMembers
      exact ⟨_, _, rfl,
        renders_plainMember member hStrings.1 hNumbers.1,
        renders_plainMore members hStrings.2 hNumbers.2⟩

theorem renders_plainMore :
    ∀ members : List (List UInt8 × Json),
      (∀ value ∈ stringsMembers members,
        PlainString value) →
      (∀ lexeme ∈ numbersMembers members,
        IsNumber lexeme) →
      RendersMore members (plainMore members)
  | [], _, _ => by
      unfold RendersMore plainMore
      rfl
  | member :: members, hStrings, hNumbers => by
      unfold stringsMembers at hStrings
      unfold numbersMembers at hNumbers
      rw [List.forall_mem_append] at hStrings hNumbers
      unfold RendersMore plainMore
      exact ⟨_, _, rfl,
        renders_plainMember member hStrings.1 hNumbers.1,
        renders_plainMore members hStrings.2 hNumbers.2⟩

end

mutual

/-
  No text of a document is shorter than the plain one, and
  one that is as short needs plain strings.
-/
theorem length_le_of_renders :
    ∀ (v : Json) (text : List UInt8), v.Renders text →
      v.plain.length ≤ text.length ∧
        (text.length ≤ v.plain.length →
          ∀ value ∈ v.strings, PlainString value)
  | .number lexeme, text, hText => by
      unfold Renders at hText
      rw [hText.1]
      unfold plain strings
      exact ⟨le_refl _, fun _ _ hMem => nomatch hMem⟩
  | .string value, text, hText => by
      unfold Renders at hText
      unfold plain strings
      have hLength := hText.length
      refine ⟨hLength.1, fun hLe value' hMem => ?_⟩
      rw [List.mem_singleton.mp hMem]
      exact hLength.2 hLe
  | .object members, text, hText => by
      unfold Renders at hText
      rcases hText with ⟨inner, rfl, hInner⟩
      have hLength :=
        length_le_of_rendersMembers members inner hInner
      unfold plain strings
      simp only [List.length_append, List.length_cons]
      exact ⟨by omega, fun hLe => hLength.2 (by omega)⟩

theorem length_le_of_rendersMember :
    ∀ (member : List UInt8 × Json) (text : List UInt8),
      RendersMember member text →
      (plainMember member).length ≤ text.length ∧
        (text.length ≤ (plainMember member).length →
          ∀ value ∈ stringsMember member, PlainString value)
  | (key, value), text, hText => by
      unfold RendersMember at hText
      rcases hText with ⟨blank₁, name, blank₂, blank₃, body,
        blank₄, rfl, _, _, _, _, hName, hBody⟩
      have hKey := hName.length
      have hValue := length_le_of_renders value body hBody
      unfold plainMember stringsMember
      simp only [List.length_append, List.length_cons]
      refine ⟨by omega, fun hLe s hs => ?_⟩
      rcases List.mem_cons.mp hs with rfl | hLater
      · exact hKey.2 (by omega)
      · exact hValue.2 (by omega) s hLater

theorem length_le_of_rendersMembers :
    ∀ (members : List (List UInt8 × Json))
      (text : List UInt8),
      RendersMembers members text →
      (plainMembers members).length ≤ text.length ∧
        (text.length ≤ (plainMembers members).length →
          ∀ value ∈ stringsMembers members,
            PlainString value)
  | [], text, _ => by
      unfold plainMembers stringsMembers
      exact ⟨Nat.zero_le _, fun _ _ hMem => nomatch hMem⟩
  | member :: members, text, hText => by
      unfold RendersMembers at hText
      rcases hText with ⟨first, rest, rfl, hFirst, hRest⟩
      have hHere :=
        length_le_of_rendersMember member first hFirst
      have hMore :=
        length_le_of_rendersMore members rest hRest
      unfold plainMembers stringsMembers
      simp only [List.length_append]
      refine ⟨by omega, fun hLe => ?_⟩
      rw [List.forall_mem_append]
      exact ⟨hHere.2 (by omega), hMore.2 (by omega)⟩

theorem length_le_of_rendersMore :
    ∀ (members : List (List UInt8 × Json))
      (text : List UInt8),
      RendersMore members text →
      (plainMore members).length ≤ text.length ∧
        (text.length ≤ (plainMore members).length →
          ∀ value ∈ stringsMembers members,
            PlainString value)
  | [], text, _ => by
      unfold plainMore stringsMembers
      exact ⟨Nat.zero_le _, fun _ _ hMem => nomatch hMem⟩
  | member :: members, text, hText => by
      unfold RendersMore at hText
      rcases hText with ⟨first, rest, rfl, hFirst, hRest⟩
      have hHere :=
        length_le_of_rendersMember member first hFirst
      have hMore :=
        length_le_of_rendersMore members rest hRest
      unfold plainMore stringsMembers
      simp only [List.length_append, List.length_cons]
      refine ⟨by omega, fun hLe => ?_⟩
      rw [List.forall_mem_append]
      exact ⟨hHere.2 (by omega), hMore.2 (by omega)⟩

end

end Json

/- A document, with blanks before and after it. -/
def JsonText
    (v : Json)
    (text : List UInt8) : Prop :=
  ∃ before body after, text = before ++ body ++ after ∧
    IsBlank before ∧ IsBlank after ∧ v.Renders body

/-
  The plain text of a document denotes it exactly when its
  strings need no escapes.
-/
theorem jsonText_plain_iff
    {v : Json}
    (hNumbers : ∀ lexeme ∈ v.numbers, IsNumber lexeme) :
    JsonText v v.plain ↔
      ∀ value ∈ v.strings, PlainString value := by
  constructor
  · rintro ⟨before, body, after, hText, _, _, hBody⟩
    have hLength := v.length_le_of_renders body hBody
    apply hLength.2
    rw [hText]
    simp only [List.length_append]
    omega
  · intro hStrings
    exact ⟨[], v.plain, [], by simp, Json.isBlank_nil,
      Json.isBlank_nil, v.renders_plain hStrings hNumbers⟩
