import SmartSOCKSProxy.Foundations.Stream

/-
  System calls that may return anything.

  A call returns a value, or fails and sets errno.  What a
  descriptor does depends on a state of its own, about which
  nothing is assumed but that no call transfers more than it
  was asked for.

  Key definitions include:
    * `errnoAfter`
    * `Readable`, `Readable.Reads`, `Readable.Stalls`
    * `Writable`, `Writable.Writes`, `Writable.Stalls`

  Key theorems include:
    * `Readable.Reads.trans`, `Writable.Writes.trans`
-/

------------------------------------------------------------
-- Error Numbers
------------------------------------------------------------

/- Only a call that fails changes errno. -/
def errnoAfter
    {α : Type}
    (errno : Int) : Except Int α → Int
  | .ok _ => errno
  | .error e => e

theorem errnoAfter_eq_iff
    {α : Type}
    {errno e : Int}
    {result : Except Int α} :
    errnoAfter errno result = e ↔
      result = .error e ∨
        errno = e ∧ ∃ a, result = .ok a := by
  cases result with
  | ok a => simp [errnoAfter]
  | error e' => simp [errnoAfter]

------------------------------------------------------------
-- Reading
------------------------------------------------------------

/-
  A descriptor to read from: what read(2) with room for so
  many bytes delivers in a state.
-/
structure Readable
    (σ : Type) where
  read : σ → Nat → Except Int (List UInt8) × σ
  fits :
    ∀ {s s' : σ} {n : Nat} {chunk : List UInt8},
      read s n = (.ok chunk, s') → chunk.length ≤ n

namespace Readable

variable {σ : Type}

/-
  Reads of what is missing of `n` bytes deliver some bytes,
  so that `m` are still missing.  Some may be interrupted.
-/
inductive Reads
    (d : Readable σ) :
    σ → Nat → List UInt8 → σ → Nat → Prop
| done
    (s : σ)
    (n : Nat) :
    Reads d s n [] s n
| interrupted
    {s s' s'' : σ}
    {n m : Nat}
    {bytes : List UInt8}
    (hMissing : 0 < n)
    (hRead : d.read s n = (.error EINTR, s'))
    (hRest : Reads d s' n bytes s'' m) :
    Reads d s n bytes s'' m
| delivered
    {s s' s'' : σ}
    {n m : Nat}
    {chunk bytes : List UInt8}
    (hRead : d.read s n = (.ok chunk, s'))
    (hSome : chunk ≠ [])
    (hRest : Reads d s' (n - chunk.length) bytes s'' m) :
    Reads d s n (chunk ++ bytes) s'' m

/- Every read from some time on is interrupted. -/
def Stalls
    (d : Readable σ)
    (s : σ)
    (n : Nat) : Prop :=
  ∃ bytes s' m, d.Reads s n bytes s' m ∧ 0 < m ∧
    ∃ states : Nat → σ, states 0 = s' ∧
      ∀ i, d.read (states i) m =
        (.error EINTR, states (i + 1))

variable {d : Readable σ}
variable {s s' s'' : σ}
variable {n m k : Nat}
variable {bytes bytes' : List UInt8}

theorem Reads.trans
    (h : d.Reads s n bytes s' m)
    (h' : d.Reads s' m bytes' s'' k) :
    d.Reads s n (bytes ++ bytes') s'' k := by
  induction h with
  | done s n => exact h'
  | interrupted hMissing hRead _ ih =>
      exact .interrupted hMissing hRead (ih h')
  | delivered hRead hSome _ ih =>
      rw [List.append_assoc]
      exact .delivered hRead hSome (ih h')

/- What was missing was delivered, or is still missing. -/
theorem Reads.length
    (h : d.Reads s n bytes s' m) :
    bytes.length + m = n := by
  induction h with
  | done s n => simp
  | interrupted _ _ _ ih => exact ih
  | delivered hRead _ _ ih =>
      have hFits := d.fits hRead
      rw [List.length_append]
      omega

/- Nothing more is read when nothing is missing. -/
theorem Reads.of_zero
    (h : d.Reads s 0 bytes s' m) :
    bytes = [] ∧ s' = s := by
  cases h with
  | done => exact ⟨rfl, rfl⟩
  | interrupted hMissing _ _ => omega
  | @delivered _ s₁ _ _ _ chunk bytes hRead hSome _ =>
      have hFits := d.fits hRead
      exact absurd (List.length_eq_zero_iff.mp (by omega)) hSome

end Readable

------------------------------------------------------------
-- Writing
------------------------------------------------------------

/-
  A descriptor to write to: how many of the bytes write(2)
  accepts in a state.
-/
structure Writable
    (σ : Type) where
  write : σ → List UInt8 → Except Int Nat × σ
  fits :
    ∀ {s s' : σ} {data : List UInt8} {k : Nat},
      write s data = (.ok k, s') → k ≤ data.length

namespace Writable

variable {σ : Type}

/-
  Writes of what is left of some data, until so much of it is
  left.  Some may be interrupted, or accept nothing.
-/
inductive Writes
    (d : Writable σ) :
    σ → List UInt8 → σ → List UInt8 → Prop
| done
    (s : σ)
    (data : List UInt8) :
    Writes d s data s data
| interrupted
    {s s' s'' : σ}
    {data rest : List UInt8}
    (hLeft : data ≠ [])
    (hWrite : d.write s data = (.error EINTR, s'))
    (hRest : Writes d s' data s'' rest) :
    Writes d s data s'' rest
| accepted
    {s s' s'' : σ}
    {data rest : List UInt8}
    {k : Nat}
    (hLeft : data ≠ [])
    (hWrite : d.write s data = (.ok k, s'))
    (hRest : Writes d s' (data.drop k) s'' rest) :
    Writes d s data s'' rest

/- From some time on, nothing is accepted any more. -/
def Stalls
    (d : Writable σ)
    (s : σ)
    (data : List UInt8) : Prop :=
  ∃ s' rest, d.Writes s data s' rest ∧ rest ≠ [] ∧
    ∃ states : Nat → σ, states 0 = s' ∧
      ∀ i,
        d.write (states i) rest =
            (.error EINTR, states (i + 1)) ∨
          d.write (states i) rest = (.ok 0, states (i + 1))

variable {d : Writable σ}
variable {s s' s'' : σ}
variable {data rest rest' : List UInt8}

theorem Writes.trans
    (h : d.Writes s data s' rest)
    (h' : d.Writes s' rest s'' rest') :
    d.Writes s data s'' rest' := by
  induction h with
  | done s data => exact h'
  | interrupted hLeft hWrite _ ih =>
      exact .interrupted hLeft hWrite (ih h')
  | accepted hLeft hWrite _ ih =>
      exact .accepted hLeft hWrite (ih h')

/- Nothing more is written when nothing is left. -/
theorem Writes.of_nil
    (h : d.Writes s [] s' rest) :
    rest = [] ∧ s' = s := by
  cases h with
  | done => exact ⟨rfl, rfl⟩
  | interrupted hLeft _ _ => exact absurd rfl hLeft
  | accepted hLeft _ _ => exact absurd rfl hLeft

/- What is left is the end of the data. -/
theorem Writes.suffix
    (h : d.Writes s data s' rest) :
    rest <:+ data := by
  induction h with
  | done s data => exact List.suffix_rfl
  | interrupted _ _ _ ih => exact ih
  | accepted _ _ _ ih =>
      exact ih.trans (List.drop_suffix _ _)

end Writable
