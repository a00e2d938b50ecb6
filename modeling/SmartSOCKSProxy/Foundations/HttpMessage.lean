import SmartSOCKSProxy.Foundations.CString

/-
  The grammar of an HTTP response.

  The head of a response is a status line, header lines and an
  empty line, each with a line feed at its end.

  Key definitions include:
    * `occurrences`
    * `IsStatus`, `IsHeaderLine`, `IsHead`, `IsResponse`

  Key theorems include:
    * `occurrences_once`
    * `IsResponse.status_behind`
-/

------------------------------------------------------------
-- Occurrences
------------------------------------------------------------

/- How often a pattern occurs in a text. -/
def occurrences
    (pattern text : Text) : Nat :=
  text.tails.countP pattern.isPrefixOf

variable {chr : UInt8}
variable {pattern front text : Text}

/- No occurrence starts where the first byte does not. -/
theorem occurrences_append
    (hFront : chr ∉ front) :
    occurrences (chr :: pattern) (front ++ text) =
      occurrences (chr :: pattern) text := by
  induction front with
  | nil => rfl
  | cons first front ih =>
      have hNe : chr ≠ first := by
        rintro rfl
        exact hFront List.mem_cons_self
      have hRest := ih fun hMem =>
        hFront (List.mem_cons_of_mem _ hMem)
      rw [← hRest]
      simp [occurrences, List.isPrefixOf, hNe]

theorem occurrences_of_not_mem
    (hText : chr ∉ text) :
    occurrences (chr :: pattern) text = 0 := by
  have hAppend :
      occurrences (chr :: pattern) (text ++ []) =
        occurrences (chr :: pattern) [] :=
    occurrences_append hText
  rw [List.append_nil] at hAppend
  rw [hAppend]
  rfl

/- A pattern at the start, and its first byte nowhere else. -/
theorem occurrences_once
    (hPattern : chr ∉ pattern)
    (hText : chr ∉ text) :
    occurrences (chr :: pattern) (chr :: pattern ++ text) =
      1 := by
  have hBehind :
      occurrences (chr :: pattern) (pattern ++ text) = 0 := by
    apply occurrences_of_not_mem
    simp [hPattern, hText]
  unfold occurrences at hBehind ⊢
  rw [List.cons_append, List.tails_cons, List.countP_cons,
    hBehind]
  simp

------------------------------------------------------------
-- Heads
------------------------------------------------------------

/- A status code of three digits, and a reason. -/
def IsStatus
    (status : Text) : Prop :=
  ∃ code reason, status = code ++ 32 :: reason ∧
    code.length = 3 ∧ code.all (Text.isDigit 10) = true ∧
    reason ≠ [] ∧ 10 ∉ reason ∧ 13 ∉ reason

/- A letter, or a dash. -/
def isHeaderChar
    (chr : UInt8) : Bool :=
  (65 ≤ chr ∧ chr ≤ 90) ∨ (97 ≤ chr ∧ chr ≤ 122) ∨ chr = 45

/- A name, a colon and a value. -/
def IsHeaderLine
    (line : Text) : Prop :=
  ∃ name value, line = name ++ 58 :: value ∧
    name ≠ [] ∧ name.all isHeaderChar = true ∧
    10 ∉ value ∧ 13 ∉ value

/- A line with its line feed. -/
def withFeed
    (line : Text) : Text :=
  line ++ [10]

/- A status line, header lines, and an empty line. -/
def IsHead
    (version head : Text) : Prop :=
  ∃ (status : Text) (headers : List Text),
    IsStatus status ∧
    (∀ line ∈ headers, IsHeaderLine line) ∧
    head =
      withFeed (version ++ status) ++
        headers.flatMap withFeed ++ withFeed []

/-
  A head and the body behind it; the version stands once in
  the head.
-/
def IsResponse
    (version body bytes : Text) : Prop :=
  ∃ head, IsHead version head ∧
    occurrences version head = 1 ∧
    bytes = head ++ body

/- The status code follows the version directly. -/
theorem IsResponse.status_behind
    {version body bytes : Text}
    (hResponse : IsResponse version body bytes) :
    ∃ chr rest, bytes = version ++ chr :: rest ∧
      Text.isDigit 10 chr = true := by
  rcases hResponse with ⟨head,
    ⟨status, headers, ⟨code, reason, rfl, hLength, hDigits, _⟩,
      _, rfl⟩, _, rfl⟩
  cases code with
  | nil => simp at hLength
  | cons chr code =>
      refine ⟨chr, code ++ 32 :: reason ++ [10] ++
        headers.flatMap withFeed ++ withFeed [] ++ body, ?_,
        List.all_eq_true.mp hDigits chr List.mem_cons_self⟩
      simp [withFeed]
