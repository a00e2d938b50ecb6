import Mathlib.Tactic
import Mathlib.Data.List.TakeWhile

/-
  Tokens, cut off a string one by one.

  strsep() gives the part before the next separator and moves
  a pointer behind it.  After the last token the pointer is
  NULL, and so a string has one token more than separators.

  Key definitions include:
    * `strsep`, `eachToken`

  Key theorems include:
    * `strsep_last`, `strsep_next`
    * `eachToken_some`
-/

section Tokens

variable {α σ : Type} [DecidableEq α]
variable {sep : α}

/- The token, and the pointer that is left; NULL is `none`. -/
def strsep
    (sep : α) :
    Option (List α) → Option (List α × Option (List α))
  | none => none
  | some str =>
      match str.dropWhile (· ≠ sep) with
      | [] => some (str, none)
      | _ :: rest =>
          some (str.takeWhile (· ≠ sep), some rest)

example :
    strsep 0 (some [1, 2, 0, 0, 3]) =
      some ([1, 2], some [0, 3]) := by decide

/- The scan for a separator passes a token. -/
theorem passes
    {token : List α}
    (hToken : sep ∉ token) :
    ∀ a ∈ token, decide (a ≠ sep) = true := by
  rintro a hMem
  rw [decide_eq_true_eq]
  rintro rfl
  exact hToken hMem

/- A string without a separator is the last token. -/
theorem strsep_last
    {str : List α}
    (hLast : sep ∉ str) :
    strsep sep (some str) = some (str, none) := by
  have hDrop : str.dropWhile (· ≠ sep) = [] :=
    List.dropWhile_eq_nil_iff.mpr (passes hLast)
  simp only [strsep, hDrop]

/- The token in front of the next separator. -/
theorem strsep_next
    {token : List α}
    (hToken : sep ∉ token)
    (rest : List α) :
    strsep sep (some (token ++ sep :: rest)) =
      some (token, some rest) := by
  have hDrop :
      (token ++ sep :: rest).dropWhile (· ≠ sep) =
        sep :: rest := by
    rw [List.dropWhile_append_of_pos (passes hToken)]
    simp
  have hTake :
      (token ++ sep :: rest).takeWhile (· ≠ sep) = token := by
    rw [List.takeWhile_append_of_pos (passes hToken)]
    simp
  simp only [strsep, hDrop, hTake]

/- What is left to read, where NULL is less than nothing. -/
def unread : Option (List α) → Nat
  | none => 0
  | some str => str.length + 1

/- Every token makes the rest shorter. -/
theorem unread_strsep
    {str rest : Option (List α)}
    {token : List α}
    (hToken : strsep sep str = some (token, rest)) :
    unread rest < unread str := by
  cases str with
  | none => cases hToken
  | some str =>
      by_cases hMem : sep ∈ str
      · rcases List.eq_append_cons_of_mem hMem with
          ⟨front, back, rfl, hFront⟩
        rw [strsep_next hFront] at hToken
        cases hToken
        simp only [unread, List.length_append,
          List.length_cons]
        omega
      · rw [strsep_last hMem] at hToken
        cases hToken
        simp [unread]

/-
  `while (okay && (token = strsep(&str,sep)))`: the body gives
  the next state, or none when it clears the flag.
-/
def eachToken
    (sep : α)
    (body : σ → List α → Option σ)
    (str : Option (List α))
    (s : σ) : Option σ :=
  match _ : strsep sep str with
  | none => some s
  | some (token, rest) =>
      (body s token).bind (eachToken sep body rest)
termination_by unread str
decreasing_by exact unread_strsep (by assumption)

variable {body : σ → List α → Option σ}

/- At NULL, the loop is left. -/
theorem eachToken_none
    (s : σ) :
    eachToken sep body none s = some s := by
  rw [eachToken.eq_def]
  rfl

/- One round of the loop. -/
theorem eachToken_round
    {str rest : Option (List α)}
    {token : List α}
    (hToken : strsep sep str = some (token, rest))
    (s : σ) :
    eachToken sep body str s =
      (body s token).bind (eachToken sep body rest) := by
  rw [eachToken.eq_def]
  split
  · rename_i hNone
    rw [hToken] at hNone
    cases hNone
  · rename_i token' rest' hSome
    rw [hToken] at hSome
    cases hSome
    rfl

/- The rounds of the loop are those of the pieces. -/
theorem eachToken_some
    (str : List α)
    (s : σ) :
    eachToken sep body (some str) s =
      (str.splitOn sep).foldlM body s := by
  induction hLength : str.length using Nat.strong_induction_on
    generalizing str s with
  | _ n ih =>
      by_cases hMem : sep ∈ str
      · rcases List.eq_append_cons_of_mem hMem with
          ⟨front, back, rfl, hFront⟩
        have hShorter : back.length < n := by
          rw [← hLength, List.length_append,
            List.length_cons]
          omega
        rw [eachToken_round (strsep_next hFront back),
          List.splitOn_append_cons_self_of_not_mem hFront,
          List.foldlM_cons]
        exact Option.bind_congr
          fun s' _ => ih _ hShorter back s' rfl
      · rw [eachToken_round (strsep_last hMem),
          List.splitOn_eq_singleton hMem, List.foldlM_cons]
        exact Option.bind_congr fun s' _ => eachToken_none s'

end Tokens
