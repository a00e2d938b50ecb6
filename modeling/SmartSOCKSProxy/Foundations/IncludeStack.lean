import Mathlib.Tactic

/-
  Files that include files, and a stack of their names.

  A reader keeps the names of the files that it is inside of
  on a stack of a given size.  A file is not read when its
  name is on the stack or when the stack is full, and so every
  run comes to an end.

  Key definitions include:
    * `NestedReader`, `ReadAction`
    * `NestedReader.read`, `NestedReader.value`
    * `SafeMoment`, `ReadOutcome.Safe`

  Key theorems include:
    * `NestedReader.readItems_total`
    * `NestedReader.read_total`
-/

------------------------------------------------------------
-- Readers
------------------------------------------------------------

/-
  What is done at an item: the reader goes on or ends, or the
  item names another file, whose result says how to go on.
-/
inductive ReadAction
    (ν β σ ρ : Type) where
| next (state : σ)
| stop (result : ρ)
| nested (name : ν) (arg : β) (resume : ρ → σ ⊕ ρ)

/-
  A file is its items, and whether they can be read to the
  end.
-/
structure NestedReader
    (ν τ β σ ρ : Type) where
  file : ν → Option (List τ × Bool)
  start : β → σ
  item : ν → Nat → τ → σ → ReadAction ν β σ ρ
  atEnd : Bool → σ → ρ
  missing : β → ρ

section Stack

variable {ν : Type}

/- The names at the indices below this one. -/
def namesBelow
    (stack : Nat → ν)
    (index : Nat) : List ν :=
  (List.range index).map stack

theorem namesBelow_congr
    {stack stack' : Nat → ν}
    {index : Nat}
    (hSame : ∀ i < index, stack i = stack' i) :
    namesBelow stack index = namesBelow stack' index := by
  apply List.map_congr_left
  intro i hi
  exact hSame i (List.mem_range.mp hi)

/- A name that is stored at the top of the stack. -/
theorem namesBelow_update
    (stack : Nat → ν)
    (index : Nat)
    (name : ν) :
    namesBelow (Function.update stack index name)
        (index + 1) =
      namesBelow stack index ++ [name] := by
  have hBelow :
      namesBelow (Function.update stack index name) index =
        namesBelow stack index :=
    namesBelow_congr fun i hi =>
      Function.update_of_ne (Nat.ne_of_lt hi) _ _
  unfold namesBelow at hBelow ⊢
  rw [List.range_succ, List.map_append, hBelow]
  simp

end Stack

------------------------------------------------------------
-- Runs
------------------------------------------------------------

/- How many files are open, and their names. -/
structure ReadMoment
    (ν : Type) where
  depth : Nat
  names : List ν

/-
  The result of a run, the stack that it leaves, the indices
  of its stores into the stack, and its moments.
-/
structure ReadOutcome
    (ν ρ : Type) where
  result : ρ
  stack : Nat → ν
  stores : List Nat
  moments : List (ReadMoment ν)

namespace ReadOutcome

variable {ν ρ : Type}

/- The outcome of a run that goes on behind another one. -/
def behind
    (stores : List Nat)
    (moments : List (ReadMoment ν))
    (o : ReadOutcome ν ρ) : ReadOutcome ν ρ :=
  { o with
    stores := stores ++ o.stores
    moments := moments ++ o.moments }

end ReadOutcome

namespace NestedReader

variable {ν τ β σ ρ : Type} [DecidableEq ν]
variable (r : NestedReader ν τ β σ ρ)

/-
  The items of a file.  The index is that behind its own name,
  and every item is a moment.
-/
def readItems
    (call : (Nat → ν) → ν → β → Option (ReadOutcome ν ρ))
    (size index : Nat)
    (name : ν)
    (complete : Bool) :
    List τ → Nat → (Nat → ν) → σ →
      Option (ReadOutcome ν ρ)
  | [], _, stack, state =>
      some
        ⟨r.atEnd complete state, stack, [],
          [⟨index, namesBelow stack index⟩]⟩
  | item :: items, num, stack, state =>
      let goOn := readItems call size index name complete items
        (num + 1)
      let outcome : Option (ReadOutcome ν ρ) :=
        match r.item name num item state with
        | .next state' => goOn stack state'
        | .stop result => some ⟨result, stack, [], []⟩
        | .nested inner arg resume =>
            if inner ∈ namesBelow stack index then
              goOn stack state
            else if size ≤ index then goOn stack state
            else
              (call stack inner arg).bind fun o =>
                match resume o.result with
                | .inl state' =>
                    (goOn o.stack state').map
                      (.behind o.stores o.moments)
                | .inr result => some { o with result }
      outcome.map
        (.behind [] [⟨index, namesBelow stack index⟩])

/-
  A call for a file.  There is no outcome when the fuel is
  used up by the calls that it is nested in.
-/
def read
    (size : Nat) :
    Nat → (Nat → ν) → Nat → ν → β →
      Option (ReadOutcome ν ρ)
  | 0, _, _, _, _ => none
  | fuel + 1, stack, index, name, arg =>
      let stack' := Function.update stack index name
      let outcome : Option (ReadOutcome ν ρ) :=
        match r.file name with
        | none => some ⟨r.missing arg, stack', [], []⟩
        | some (items, complete) =>
            r.readItems
              (fun stack inner arg =>
                read size fuel stack (index + 1) inner arg)
              size (index + 1) name complete items 1 stack'
              (r.start arg)
      outcome.map
        (.behind [index]
          [⟨index + 1, namesBelow stack' (index + 1)⟩])

------------------------------------------------------------
-- Values
------------------------------------------------------------

/- The result for the items, given that of other files. -/
def valueItems
    (included : Option (ν → β → ρ))
    (stack : List ν)
    (name : ν)
    (complete : Bool) :
    List τ → Nat → σ → ρ
  | [], _, state => r.atEnd complete state
  | item :: items, num, state =>
      let goOn :=
        valueItems included stack name complete items (num + 1)
      match r.item name num item state with
      | .next state' => goOn state'
      | .stop result => result
      | .nested inner arg resume =>
          match if inner ∈ stack then none else included with
          | none => goOn state
          | some parse =>
              match resume (parse inner arg) with
              | .inl state' => goOn state'
              | .inr result => result

def valueBody
    (included : Option (ν → β → ρ))
    (stack : List ν)
    (name : ν)
    (arg : β) : ρ :=
  match r.file name with
  | none => r.missing arg
  | some (items, complete) =>
      r.valueItems included stack name complete items 1
        (r.start arg)

/- The result, by the room for names that is left. -/
def value :
    Nat → List ν → ν → β → ρ
  | 0, stack, name, arg =>
      r.valueBody none (stack ++ [name]) name arg
  | room + 1, stack, name, arg =>
      r.valueBody (some (value room (stack ++ [name])))
        (stack ++ [name]) name arg

end NestedReader

------------------------------------------------------------
-- Every Run Ends
------------------------------------------------------------

/- The stack is not exceeded, and no name is on it twice. -/
structure SafeMoment
    {ν : Type}
    (size : Nat)
    (m : ReadMoment ν) : Prop where
  depth : m.depth ≤ size
  length : m.names.length = m.depth
  names : m.names.Nodup

/-
  A run that leaves the names below its own, and that stores
  only below the size.
-/
structure ReadOutcome.Safe
    {ν ρ : Type}
    (size index : Nat)
    (stack : Nat → ν)
    (o : ReadOutcome ν ρ) : Prop where
  frame : ∀ i < index, o.stack i = stack i
  stores : ∀ i ∈ o.stores, i < size
  moments : ∀ m ∈ o.moments, SafeMoment size m

namespace ReadOutcome

variable {ν ρ : Type}
variable {size index : Nat}
variable {stack : Nat → ν}

theorem Safe.behind
    {stack' : Nat → ν}
    {o : ReadOutcome ν ρ}
    (hSafe : o.Safe size index stack')
    (hFrame : ∀ i < index, stack' i = stack i)
    {stores : List Nat}
    (hStores : ∀ i ∈ stores, i < size)
    {moments : List (ReadMoment ν)}
    (hMoments : ∀ m ∈ moments, SafeMoment size m) :
    (o.behind stores moments).Safe size index stack := by
  refine ⟨?_, ?_, ?_⟩
  · intro i hi
    rw [← hFrame i hi]
    exact hSafe.frame i hi
  · intro i hi
    rcases List.mem_append.mp hi with hi | hi
    · exact hStores i hi
    · exact hSafe.stores i hi
  · intro m hm
    rcases List.mem_append.mp hm with hm | hm
    · exact hMoments m hm
    · exact hSafe.moments m hm

end ReadOutcome

theorem safeMoment_namesBelow
    {ν : Type}
    {size index : Nat}
    {stack : Nat → ν}
    (hDepth : index ≤ size)
    (hNames : (namesBelow stack index).Nodup) :
    ∀ m ∈ [(⟨index, namesBelow stack index⟩ : ReadMoment ν)],
      SafeMoment size m := by
  intro m hm
  rw [List.mem_singleton.mp hm]
  exact ⟨hDepth, by simp [namesBelow], hNames⟩

/-
  With enough fuel the run has one outcome, whose result is
  the given one, and it is safe.
-/
def Ends
    {ν ρ : Type}
    (run : Nat → Option (ReadOutcome ν ρ))
    (need size index : Nat)
    (stack : Nat → ν)
    (result : ρ) : Prop :=
  ∃ o, (∀ fuel, need ≤ fuel → run fuel = some o) ∧
    o.result = result ∧ o.Safe size index stack

namespace Ends

variable {ν ρ : Type}
variable {need size index : Nat}
variable {stack : Nat → ν}
variable {result : ρ}

theorem of_safe
    {o : ReadOutcome ν ρ}
    (hResult : o.result = result)
    (hSafe : o.Safe size index stack) :
    Ends (fun _ => some o) need size index stack result :=
  ⟨o, fun _ _ => rfl, hResult, hSafe⟩

theorem behind
    {run : Nat → Option (ReadOutcome ν ρ)}
    {stack' : Nat → ν}
    (hRun : Ends run need size index stack' result)
    (hFrame : ∀ i < index, stack' i = stack i)
    {stores : List Nat}
    (hStores : ∀ i ∈ stores, i < size)
    {moments : List (ReadMoment ν)}
    (hMoments : ∀ m ∈ moments, SafeMoment size m) :
    Ends
      (fun fuel => (run fuel).map (.behind stores moments))
      need size index stack result := by
  rcases hRun with ⟨o, hFuel, hResult, hSafe⟩
  refine ⟨o.behind stores moments, ?_, hResult,
    hSafe.behind hFrame hStores hMoments⟩
  intro fuel hNeed
  simp only [hFuel fuel hNeed]
  rfl

/- A call, and what is done with its outcome. -/
theorem bind
    {call : Nat → Option (ReadOutcome ν ρ)}
    {inner : ρ}
    (hCall : Ends call need size index stack inner)
    {next : ReadOutcome ν ρ → Nat →
      Option (ReadOutcome ν ρ)}
    (hNext :
      ∀ o, o.result = inner → o.Safe size index stack →
        Ends (next o) need size index stack result) :
    Ends (fun fuel => (call fuel).bind fun o => next o fuel)
      need size index stack result := by
  rcases hCall with ⟨o, hFuel, hResult, hSafe⟩
  rcases hNext o hResult hSafe with ⟨o', hFuel', hRest⟩
  refine ⟨o', ?_, hRest⟩
  intro fuel hNeed
  simp only [hFuel fuel hNeed]
  exact hFuel' fuel hNeed

/- A run that takes one unit of fuel itself. -/
theorem succ
    {run run' : Nat → Option (ReadOutcome ν ρ)}
    (hRun : Ends run need size index stack result)
    (hSucc : ∀ fuel, run' (fuel + 1) = run fuel) :
    Ends run' (need + 1) size index stack result := by
  rcases hRun with ⟨o, hFuel, hRest⟩
  refine ⟨o, ?_, hRest⟩
  intro fuel hNeed
  obtain ⟨k, rfl⟩ : ∃ k, fuel = k + 1 := ⟨fuel - 1, by omega⟩
  rw [hSucc]
  exact hFuel k (by omega)

/- The run of a file, as a part of that of another one. -/
theorem below
    {run : Nat → Option (ReadOutcome ν ρ)}
    {index' : Nat}
    {stack' : Nat → ν}
    (hRun : Ends run need size index' stack' result)
    (hIndex : index ≤ index')
    (hFrame : ∀ i < index, stack' i = stack i) :
    Ends run need size index stack result := by
  rcases hRun with ⟨o, hFuel, hResult, hSafe⟩
  refine ⟨o, hFuel, hResult, ?_, hSafe.stores,
    hSafe.moments⟩
  intro i hi
  rw [← hFrame i hi]
  exact hSafe.frame i (by omega)

end Ends

namespace NestedReader

variable {ν τ β σ ρ : Type} [DecidableEq ν]
variable (r : NestedReader ν τ β σ ρ)

/-
  The items of a file, when the calls end that are made where
  the stack has room.
-/
theorem readItems_total
    {need size index : Nat}
    (hIndex : index ≤ size)
    (call : Nat → (Nat → ν) → ν → β →
      Option (ReadOutcome ν ρ))
    {included : Option (ν → β → ρ)}
    {names : List ν}
    (hNames : names.Nodup)
    (hFull : included = none → size ≤ index)
    (hCall :
      ∀ parse, included = some parse →
        index < size ∧
          ∀ stack inner arg, namesBelow stack index = names →
            inner ∉ names →
              Ends (fun fuel => call fuel stack inner arg) need
                size index stack (parse inner arg))
    (name : ν)
    (complete : Bool)
    (items : List τ)
    (num : Nat)
    {stack : Nat → ν}
    (hStack : namesBelow stack index = names)
    (state : σ) :
    Ends
      (fun fuel =>
        r.readItems (call fuel) size index name complete items
          num stack state)
      need size index stack
      (r.valueItems included names name complete items num
        state) := by
  induction items generalizing num stack state with
  | nil =>
      have hMoment := safeMoment_namesBelow hIndex
        (by rw [hStack]; exact hNames)
      exact Ends.of_safe rfl
        ⟨fun _ _ => rfl, by simp, hMoment⟩
  | cons item items ih =>
      have hMoment := safeMoment_namesBelow hIndex
        (by rw [hStack]; exact hNames)
      have hStop :
          ∀ result : ρ,
            Ends (fun _ => some ⟨result, stack, [], []⟩) need
              size index stack result := fun result =>
        Ends.of_safe rfl ⟨fun _ _ => rfl, by simp, by simp⟩
      simp only [readItems, valueItems]
      refine Ends.behind ?_ (fun _ _ => rfl) (by simp) hMoment
      cases hItem : r.item name num item state with
      | next state' => exact ih (num + 1) hStack state'
      | stop result => exact hStop result
      | nested inner arg resume =>
          simp only [hStack]
          by_cases hOn : inner ∈ names
          · simp only [if_pos hOn]
            exact ih (num + 1) hStack state
          · simp only [if_neg hOn]
            cases hIncluded : included with
            | none =>
                simp only [if_pos (hFull hIncluded)]
                rw [← hIncluded]
                exact ih (num + 1) hStack state
            | some parse =>
                rcases hCall parse hIncluded with
                  ⟨hRoom, hParse⟩
                simp only [if_neg (Nat.not_le.mpr hRoom)]
                refine (hParse stack inner arg hStack hOn).bind
                  fun o hResult hSafe => ?_
                rw [← hResult]
                cases hResume : resume o.result with
                | inl state' =>
                    have hStack' :
                        namesBelow o.stack index = names := by
                      rw [namesBelow_congr hSafe.frame]
                      exact hStack
                    rw [← hIncluded]
                    exact (ih (num + 1) hStack' state').behind
                      hSafe.frame hSafe.stores hSafe.moments
                | inr result =>
                    exact Ends.of_safe rfl
                      ⟨hSafe.frame, hSafe.stores,
                        hSafe.moments⟩

/- A call, when the calls for its items end. -/
theorem read_of_items
    {need size index : Nat}
    (hIndex : index < size)
    (stack : Nat → ν)
    {name : ν}
    (hNew : (namesBelow stack index ++ [name]).Nodup)
    (arg : β)
    {included : Option (ν → β → ρ)}
    (hFull : included = none → size ≤ index + 1)
    (hCall :
      ∀ parse, included = some parse →
        index + 1 < size ∧
          ∀ stack' inner arg,
            namesBelow stack' (index + 1) =
                namesBelow stack index ++ [name] →
              inner ∉ namesBelow stack index ++ [name] →
                Ends
                  (fun fuel =>
                    r.read size fuel stack' (index + 1) inner
                      arg)
                  need size (index + 1) stack'
                  (parse inner arg)) :
    Ends (fun fuel => r.read size fuel stack index name arg)
      (need + 1) size index stack
      (r.valueBody included (namesBelow stack index ++ [name])
        name arg) := by
  have hTop := namesBelow_update stack index name
  have hFrame :
      ∀ i < index,
        Function.update stack index name i = stack i :=
    fun i hi => Function.update_of_ne (Nat.ne_of_lt hi) _ _
  have hMoment := safeMoment_namesBelow hIndex
    (by rw [hTop]; exact hNew)
  have hStore : ∀ i ∈ [index], i < size := by
    simpa using hIndex
  rw [valueBody]
  refine Ends.succ ?_ (fun fuel => by rw [read])
  refine Ends.behind ?_ hFrame hStore hMoment
  cases hFile : r.file name with
  | none =>
      exact Ends.of_safe rfl
        ⟨fun _ _ => rfl, by simp, by simp⟩
  | some file =>
      exact (r.readItems_total hIndex _ hNew hFull hCall name
        file.2 file.1 1 hTop (r.start arg)).below
        (Nat.le_succ index) fun _ _ => rfl

/-
  A call with room for `room` names above its own has one
  outcome, and it is the value of the file.
-/
theorem read_total
    (size room : Nat)
    {index : Nat}
    (hIndex : index + room + 1 = size)
    (stack : Nat → ν)
    {name : ν}
    (hNew : (namesBelow stack index ++ [name]).Nodup)
    (arg : β) :
    Ends (fun fuel => r.read size fuel stack index name arg)
      (room + 1) size index stack
      (r.value room (namesBelow stack index) name arg) := by
  induction room generalizing index stack name arg with
  | zero =>
      refine r.read_of_items (by omega) stack hNew arg
        (fun _ => by omega) ?_
      intro parse hParse
      cases hParse
  | succ room ih =>
      refine r.read_of_items (by omega) stack hNew arg
        (fun h => by cases h) ?_
      intro parse hParse
      cases hParse
      refine ⟨by omega, fun stack' inner arg' hStack hInner => ?_⟩
      rw [← hStack]
      apply ih (by omega)
      rw [hStack]
      exact hNew.append (List.nodup_singleton inner)
        (List.disjoint_singleton.mpr hInner)

end NestedReader
