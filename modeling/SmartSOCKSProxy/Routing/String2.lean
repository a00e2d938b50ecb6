import SmartSOCKSProxy.Foundations.CString

/-
  The string predicates of the rules engine, and the count of
  a delimiter.

  Key definitions include:
    * `stringStartsWith`, `stringEndsWith`, `stringContains`
    * `stringCountCharInstances`

  Key theorems include:
    * `stringStartsWith_iff`
    * `stringEndsWith_iff`
    * `stringContains_iff`
    * `stringCountCharInstances_eq`
-/

namespace SmartSOCKSProxy

/- `strncmp()` over the length of the start. -/
def stringStartsWith
    (str start : Text) : Bool :=
  start.length ≤ str.length ∧ str.take start.length = start

/- Only the string is folded to lower case, not its end. -/
def stringEndsWith
    (str ending : Text) : Bool :=
  let lowerStr := Text.lower str
  if lowerStr.length < ending.length then false
  else
    lowerStr.drop (lowerStr.length - ending.length) = ending

def stringContains
    (str contained : Text) : Bool :=
  Text.strcasestr str contained

def stringCountCharInstances
    (str : Text)
    (delimiter : UInt8) : Nat :=
  str.foldl
    (fun count c =>
      if c = delimiter then count + 1 else count) 0

theorem stringStartsWith_iff
    (str start : Text) :
    stringStartsWith str start = true ↔
      start <+: str := by
  rw [stringStartsWith, decide_eq_true_iff,
    List.prefix_iff_eq_take]
  constructor
  · rintro ⟨_, hTake⟩
    exact hTake.symm
  · intro hTake
    refine ⟨?_, hTake.symm⟩
    have hLen := congrArg List.length hTake
    rw [List.length_take] at hLen
    omega

theorem stringEndsWith_iff
    (str ending : Text) :
    stringEndsWith str ending = true ↔
      ending <:+ Text.lower str := by
  unfold stringEndsWith
  by_cases hShort :
      (Text.lower str).length < ending.length
  · simp only [hShort, if_true, Bool.false_eq_true,
      false_iff]
    intro hSuffix
    have hLen := hSuffix.length_le
    omega
  · simp only [hShort, if_false, decide_eq_true_eq,
      List.suffix_iff_eq_drop]
    exact eq_comm

theorem stringContains_iff
    (str contained : Text) :
    stringContains str contained = true ↔
      Text.lower contained <:+: Text.lower str :=
  Text.strcasestr_iff str contained

theorem stringCountCharInstances_eq
    (str : Text)
    (delimiter : UInt8) :
    stringCountCharInstances str delimiter =
      str.count delimiter := by
  suffices hFrom : ∀ count,
      str.foldl
          (fun count c =>
            if c = delimiter then count + 1 else count)
          count =
        count + str.count delimiter by
    rw [stringCountCharInstances, hFrom, Nat.zero_add]
  induction str with
  | nil => exact fun count => rfl
  | cons c str ih =>
      intro count
      rw [List.foldl_cons, ih, List.count_cons]
      by_cases hHere : c = delimiter
      · simp [hHere]
        omega
      · simp [hHere]

end SmartSOCKSProxy
