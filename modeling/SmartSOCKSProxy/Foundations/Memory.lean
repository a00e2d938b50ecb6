import Mathlib.Tactic

/-
  Local byte buffers and arrays of pointers.

  A `Buffer` gives the byte at every index; what a function
  has not written yet is whatever the buffer held before.
  A pointer array is a list of options; `none` is NULL.

  Key definitions include:
    * `Buffer.store`, `Buffer.load`
    * `untilNull`, `Terminated`, `scanUntil`

  Key theorems include:
    * `Buffer.load_store`
    * `Terminated.split`, `scanUntil_of_terminated`
-/

------------------------------------------------------------
-- Buffers
------------------------------------------------------------

/- A byte buffer, by index. -/
abbrev Buffer := Nat → UInt8

namespace Buffer

/- Copy bytes into the buffer from an index on. -/
def store
    (buf : Buffer)
    (off : Nat)
    (data : List UInt8) : Buffer :=
  fun i =>
    if off ≤ i then data.getD (i - off) (buf i) else buf i

/- The first `n` bytes of the buffer. -/
def load
    (buf : Buffer)
    (n : Nat) : List UInt8 :=
  (List.range n).map buf

/- A byte before the copied range is unchanged. -/
theorem store_of_lt
    (buf : Buffer)
    {off i : Nat}
    (data : List UInt8)
    (hi : i < off) :
    buf.store off data i = buf i := by
  simp [store, Nat.not_le.mpr hi]

/- A byte in the copied range is the one copied there. -/
theorem store_add
    (buf : Buffer)
    (off : Nat)
    {data : List UInt8}
    {j : Nat}
    (hj : j < data.length) :
    buf.store off data (off + j) = data[j] := by
  simp [store, hj]

/- Copying right after a range extends what it holds. -/
theorem load_store
    (buf : Buffer)
    (off : Nat)
    (data : List UInt8) :
    (buf.store off data).load (off + data.length) =
      buf.load off ++ data := by
  unfold load
  rw [List.range_add, List.map_append, List.map_map]
  congr 1
  · apply List.map_congr_left
    intro i hi
    exact store_of_lt buf data (List.mem_range.mp hi)
  · apply List.ext_getElem
    · simp
    · intro j _ hj
      simpa using buf.store_add off hj

@[simp] theorem store_nil
    (buf : Buffer)
    (off : Nat) :
    buf.store off [] = buf := by
  funext i
  simp [store]

/- Bytes that are copied one part after the other. -/
theorem store_append
    (buf : Buffer)
    (off : Nat)
    (xs ys : List UInt8) :
    (buf.store off xs).store (off + xs.length) ys =
      buf.store off (xs ++ ys) := by
  funext i
  by_cases hOff : off ≤ i
  · simp only [store, if_pos hOff,
      List.getD_eq_getElem?_getD]
    by_cases hEnd : off + xs.length ≤ i
    · have hBeyond : xs.length ≤ i - off := by omega
      rw [if_pos hEnd, List.getElem?_append_right hBeyond,
        List.getElem?_eq_none hBeyond, Nat.sub_sub]
      rfl
    · have hHere : i - off < xs.length := by omega
      rw [if_neg hEnd, List.getElem?_append_left hHere]
  · have hEnd : ¬off + xs.length ≤ i := by omega
    simp only [store, if_neg hOff, if_neg hEnd]

/- The front part of what was copied to the start. -/
theorem load_store_front
    (buf : Buffer)
    (front back : List UInt8) :
    (buf.store 0 (front ++ back)).load front.length =
      front := by
  apply List.ext_getElem
  · simp [load]
  · intro i _ hi
    simp [load, store, List.getElem?_append_left hi, hi]

@[simp] theorem load_zero
    (buf : Buffer) :
    buf.load 0 = [] := rfl

end Buffer

------------------------------------------------------------
-- Pointer Arrays
------------------------------------------------------------

/- The entries of a pointer array before its first NULL. -/
def untilNull
    {α : Type} : List (Option α) → List α
  | some a :: rest => a :: untilNull rest
  | _ => []

theorem untilNull_eq_nil_iff
    {α : Type}
    (entries : List (Option α)) :
    untilNull entries = [] ↔
      entries.head?.getD none = none := by
  cases entries with
  | nil => simp [untilNull]
  | cons entry rest => cases entry <;> simp [untilNull]

theorem length_untilNull_le
    {α : Type}
    (entries : List (Option α)) :
    (untilNull entries).length ≤ entries.length := by
  induction entries with
  | nil => exact Nat.le_refl 0
  | cons entry rest ih =>
      cases entry with
      | none => exact Nat.zero_le _
      | some a => exact Nat.succ_le_succ ih

/- A pointer array has a NULL where it is read up to. -/
def Terminated
    {α : Type}
    (entries : List (Option α)) : Prop :=
  none ∈ entries

/- The array is what is before the NULL, and what is left. -/
theorem Terminated.split
    {α : Type}
    {entries : List (Option α)}
    (hTerminated : Terminated entries) :
    ∃ rest,
      entries =
        (untilNull entries).map some ++ none :: rest := by
  induction entries with
  | nil => cases hTerminated
  | cons entry entries ih =>
      cases entry with
      | none => exact ⟨entries, rfl⟩
      | some a =>
          have hMem : none ∈ entries := by
            simpa [Terminated] using hTerminated
          rcases ih hMem with ⟨rest, hRest⟩
          refine ⟨rest, ?_⟩
          rw [untilNull, List.map_cons, List.cons_append,
            ← hRest]

theorem terminated_append
    {α : Type}
    (before : List α)
    (rest : List (Option α)) :
    Terminated (before.map some ++ none :: rest) :=
  List.mem_append_right _ List.mem_cons_self

@[simp] theorem untilNull_append
    {α : Type}
    (before : List α)
    (rest : List (Option α)) :
    untilNull (before.map some ++ none :: rest) =
      before := by
  induction before with
  | nil => rfl
  | cons a before ih =>
      rw [List.map_cons, List.cons_append, untilNull, ih]

/- The NULL is inside the array. -/
theorem Terminated.length_lt
    {α : Type}
    {entries : List (Option α)}
    (hTerminated : Terminated entries) :
    (untilNull entries).length < entries.length := by
  rcases hTerminated.split with ⟨rest, hRest⟩
  have hLength := congrArg List.length hRest
  rw [List.length_append, List.length_map,
    List.length_cons] at hLength
  omega

theorem Terminated.getElem
    {α : Type}
    {entries : List (Option α)}
    (hTerminated : Terminated entries) :
    entries[(untilNull entries).length]? = some none := by
  rcases hTerminated.split with ⟨rest, hRest⟩
  generalize untilNull entries = before at hRest
  rw [hRest]
  simp

/- The entries before the NULL are the front of the array. -/
theorem take_length_untilNull
    {α : Type}
    (entries : List (Option α)) :
    entries.take (untilNull entries).length =
      (untilNull entries).map some := by
  induction entries with
  | nil => rfl
  | cons entry entries ih =>
      cases entry with
      | none => rfl
      | some a =>
          rw [untilNull, List.length_cons,
            List.take_succ_cons, List.map_cons, ih]

/- What is before the first NULL is before every NULL. -/
theorem mem_take_of_mem_untilNull
    {α : Type}
    {entries : List (Option α)}
    {k : Nat}
    (hNull : entries[k]? = some none)
    {a : α}
    (hMem : a ∈ untilNull entries) :
    some a ∈ entries.take k := by
  induction entries generalizing k with
  | nil => cases hMem
  | cons entry entries ih =>
      cases entry with
      | none => cases hMem
      | some b =>
          cases k with
          | zero => cases hNull
          | succ k =>
              rw [List.take_succ_cons]
              rcases List.mem_cons.mp hMem with rfl | hMem
              · exact List.mem_cons_self
              · exact List.mem_cons_of_mem _ (ih hNull hMem)

theorem untilNull_map
    {α β : Type}
    (f : α → β)
    (entries : List (Option α)) :
    untilNull (entries.map (Option.map f)) =
      (untilNull entries).map f := by
  induction entries with
  | nil => rfl
  | cons entry entries ih =>
      cases entry with
      | none => rfl
      | some a => exact congrArg (List.cons (f a)) ih

/- An entry is put in place of the NULL, and a NULL behind. -/
theorem Terminated.push
    {α : Type}
    {entries : List (Option α)}
    (hTerminated : Terminated entries)
    (a : α)
    (hRoom :
      (untilNull entries).length + 1 < entries.length) :
    ∃ rest,
      (entries.set (untilNull entries).length (some a)).set
          ((untilNull entries).length + 1) none =
        (untilNull entries ++ [a]).map some ++
          none :: rest := by
  rcases hTerminated.split with ⟨rest, hSplit⟩
  generalize untilNull entries = before at hSplit hRoom
  subst hSplit
  cases rest with
  | nil => simp at hRoom
  | cons entry rest =>
      refine ⟨rest, ?_⟩
      simp

/-
  A loop that reads entry after entry up to a NULL, and that
  may also end at a test of the index.  There is no result
  when it reads behind the array.
-/
def scanUntil
    {α : Type}
    (goesOn : Nat → Bool) :
    Nat → List (Option α) → Option Nat
  | _, [] => none
  | i, none :: _ => some i
  | i, some _ :: rest =>
      if goesOn i then scanUntil goesOn (i + 1) rest
      else some i

/- The loop ends at the NULL when the test lets it. -/
theorem scanUntil_of_terminated
    {α : Type}
    {goesOn : Nat → Bool}
    {entries : List (Option α)}
    (hTerminated : Terminated entries)
    (i : Nat)
    (hGoesOn :
      ∀ j < (untilNull entries).length,
        goesOn (i + j) = true) :
    scanUntil goesOn i entries =
      some (i + (untilNull entries).length) := by
  induction entries generalizing i with
  | nil => cases hTerminated
  | cons entry entries ih =>
      cases entry with
      | none => rfl
      | some a =>
          have hMem : none ∈ entries := by
            simpa [Terminated] using hTerminated
          rw [untilNull, List.length_cons] at hGoesOn ⊢
          have hHere : goesOn i = true :=
            hGoesOn 0 (Nat.succ_pos _)
          rw [scanUntil, if_pos hHere, ih hMem]
          · congr 1
            omega
          · intro j hj
            have hNext := hGoesOn (j + 1) (by omega)
            rwa [← Nat.add_assoc, Nat.add_right_comm]
              at hNext
