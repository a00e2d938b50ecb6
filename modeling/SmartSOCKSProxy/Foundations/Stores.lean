import SmartSOCKSProxy.Foundations.Memory

/-
  Single stores into a buffer.

  A function that fills a buffer is the list of its stores, as
  if the buffer had no end.  Whether it stays inside the
  buffer, and what the buffer holds, are read off this list.

  Key definitions include:
    * `Store`, `Buffer.putAll`
    * `Inside`, `storesAt`
    * `Buffer.Holds`

  Key theorems include:
    * `inside_storesAt_iff`
    * `Buffer.Holds.push`
-/

/- The index of a store, and the byte that is stored. -/
abbrev Store := Nat × UInt8

/- All stores are at indices below the size. -/
def Inside
    (size : Nat)
    (stores : List Store) : Prop :=
  ∀ s ∈ stores, s.1 < size

/- The stores that copy bytes to an index and behind it. -/
def storesAt
    (off : Nat) :
    List UInt8 → List Store
  | [] => []
  | b :: data => (off, b) :: storesAt (off + 1) data

------------------------------------------------------------
-- Bounds
------------------------------------------------------------

section Inside

variable {size : Nat}

@[simp] theorem inside_nil :
    Inside size [] := by
  simp [Inside]

@[simp] theorem inside_cons
    (s : Store)
    (stores : List Store) :
    Inside size (s :: stores) ↔
      s.1 < size ∧ Inside size stores := by
  simp [Inside]

@[simp] theorem inside_append
    (stores stores' : List Store) :
    Inside size (stores ++ stores') ↔
      Inside size stores ∧ Inside size stores' := by
  simp [Inside, or_imp, forall_and]

/- Copied bytes fit when the last one does. -/
theorem inside_storesAt_iff
    (off : Nat)
    (data : List UInt8) :
    Inside size (storesAt off data) ↔
      data = [] ∨ off + data.length ≤ size := by
  induction data generalizing off with
  | nil => simp [storesAt]
  | cons b data ih =>
      rw [storesAt, inside_cons, ih, List.length_cons]
      simp only [reduceCtorEq, false_or]
      constructor
      · rintro ⟨hHere, rfl | hRest⟩
        · rw [List.length_nil]
          omega
        · omega
      · intro hAll
        refine ⟨by omega, Or.inr (by omega)⟩

end Inside

------------------------------------------------------------
-- Contents
------------------------------------------------------------

namespace Buffer

def put
    (buf : Buffer)
    (s : Store) : Buffer :=
  Function.update buf s.1 s.2

def putAll
    (buf : Buffer)
    (stores : List Store) : Buffer :=
  stores.foldl put buf

@[simp] theorem putAll_nil
    (buf : Buffer) :
    buf.putAll [] = buf := rfl

@[simp] theorem putAll_cons
    (buf : Buffer)
    (s : Store)
    (stores : List Store) :
    buf.putAll (s :: stores) = (buf.put s).putAll stores :=
  rfl

/- One after the other, they copy all bytes. -/
theorem putAll_storesAt
    (buf : Buffer)
    (off : Nat)
    (data : List UInt8) :
    buf.putAll (storesAt off data) = buf.store off data := by
  induction data generalizing buf off with
  | nil =>
      funext i
      simp [storesAt, store]
  | cons b data ih =>
      rw [storesAt, putAll_cons, ih]
      funext i
      unfold store put
      by_cases hLater : off + 1 ≤ i
      · have hNe : i ≠ off := by omega
        have hIndex : i - off = i - (off + 1) + 1 := by omega
        rw [if_pos hLater, if_pos (by omega),
          Function.update_of_ne hNe, hIndex,
          List.getD_cons_succ]
      · rw [if_neg hLater]
        by_cases hHere : i = off
        · subst hHere
          simp
        · rw [Function.update_of_ne hHere, if_neg (by omega)]

/- The buffer begins with these bytes and a terminator. -/
structure Holds
    (buf : Buffer)
    (data : List UInt8) : Prop where
  load : buf.load data.length = data
  terminator : buf data.length = 0

/- A terminator at the beginning. -/
theorem holds_nil
    (buf : Buffer) :
    (buf.put (0, 0)).Holds [] := by
  refine ⟨rfl, ?_⟩
  simp [put]

theorem load_put_of_le
    (buf : Buffer)
    {n : Nat}
    {s : Store}
    (hLe : n ≤ s.1) :
    (buf.put s).load n = buf.load n := by
  apply List.map_congr_left
  intro i hi
  have hLt := List.mem_range.mp hi
  exact Function.update_of_ne (by omega) _ _

theorem load_succ
    (buf : Buffer)
    (n : Nat) :
    buf.load (n + 1) = buf.load n ++ [buf n] := by
  simp [load, List.range_succ]

/- A byte takes the place of the terminator. -/
theorem Holds.push
    {buf : Buffer}
    {data : List UInt8}
    (hHolds : buf.Holds data)
    (b : UInt8) :
    ((buf.put (data.length, b)).put
      (data.length + 1, 0)).Holds (data ++ [b]) := by
  constructor
  · rw [List.length_append, List.length_singleton,
      load_put_of_le _ (le_refl _), load_succ,
      load_put_of_le _ (le_refl _), hHolds.load]
    simp [put]
  · simp [put]

end Buffer
