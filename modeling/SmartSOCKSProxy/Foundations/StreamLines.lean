import SmartSOCKSProxy.Foundations.Stream

/-
  Lines of a byte stream that is read byte by byte.

  A line ends at a line feed, at a carriage return, or where
  the room for it ends.  It is read if the reads of its bytes
  deliver.

  Key definitions include:
    * `Source.Serves`, `isLineEnd`, `Source.HasLine`
    * `Source.Advances`

  Key theorems include:
    * `Source.Advances.hasLine_end_iff`
    * `Source.Advances.hasLine_iff`
-/

/- The bytes at which a line ends. -/
def isLineEnd
    (chr : UInt8) : Prop :=
  chr = 10 ∨ chr = 13

instance : DecidablePred isLineEnd := by
  intro chr
  unfold isLineEnd
  infer_instance

namespace Source

/-
  So many bytes are there, and as many reads deliver before
  one fails; interrupted ones do not count.
-/
def Serves
    (s : Source)
    (n : Nat) : Prop :=
  n ≤ s.pending.length ∧
    ∀ event ∈ (s.reads.filter (· ≠ .fail EINTR)).take n,
      event.Benign

/- The reads deliver a line, and the byte that ends it. -/
def HasLine
    (s : Source)
    (room : Nat)
    (line : List UInt8) : Prop :=
  (∀ chr ∈ line, ¬isLineEnd chr) ∧
    (line.length = room ∧ line <+: s.pending ∧
        s.Serves room ∨
      line.length < room ∧
        (∃ chr, isLineEnd chr ∧ line ++ [chr] <+: s.pending) ∧
        s.Serves (line.length + 1))

------------------------------------------------------------
-- One Byte
------------------------------------------------------------

/- A read of one byte leaves the rest to be served. -/
structure Advances
    (s : Source)
    (chr : UInt8)
    (s' : Source) : Prop where
  pending : s.pending = chr :: s'.pending
  serves : ∀ n, s.Serves (n + 1) ↔ s'.Serves n

@[simp] theorem serves_zero
    (s : Source) :
    s.Serves 0 := by
  simp [Serves]

theorem advances_of_schedule_nil
    (chr : UInt8)
    (pending : List UInt8) :
    Advances ⟨chr :: pending, []⟩ chr ⟨pending, []⟩ :=
  ⟨rfl, fun n => by simp [Serves]⟩

theorem advances_of_deliver
    (chr : UInt8)
    (pending : List UInt8)
    (extra : Nat)
    (reads : List ReadEvent) :
    Advances ⟨chr :: pending, .deliver extra :: reads⟩ chr
      ⟨pending, reads⟩ :=
  ⟨rfl, fun n => by simp [Serves, ReadEvent.Benign]⟩

/- An interrupted read does not matter. -/
theorem serves_interrupted_iff
    (pending : List UInt8)
    (reads : List ReadEvent)
    (n : Nat) :
    (Source.mk pending (.fail EINTR :: reads)).Serves n ↔
      (Source.mk pending reads).Serves n := by
  simp [Serves]

theorem not_serves_fail
    {e : Int}
    (hError : e ≠ EINTR)
    (pending : List UInt8)
    (reads : List ReadEvent)
    (n : Nat) :
    ¬(Source.mk pending (.fail e :: reads)).Serves (n + 1) := by
  simp [Serves, hError, ReadEvent.Benign]

------------------------------------------------------------
-- Lines
------------------------------------------------------------

/- The stream starts with the line. -/
theorem HasLine.starts
    {s : Source}
    {room : Nat}
    {line : List UInt8}
    (hLine : s.HasLine room line) :
    line <+: s.pending := by
  rcases hLine.2 with ⟨_, hHere, _⟩ | ⟨_, ⟨chr, _, hHere⟩, _⟩
  · exact hHere
  · exact (List.prefix_append _ _).trans hHere

/- Without room, the line is empty. -/
theorem hasLine_zero_iff
    {s : Source}
    {line : List UInt8} :
    s.HasLine 0 line ↔ line = [] := by
  unfold HasLine
  constructor
  · rintro ⟨_, ⟨hLength, _⟩ | ⟨hLess, _⟩⟩
    · exact List.length_eq_zero_iff.mp hLength
    · omega
  · rintro rfl
    simp

/- Without a byte there is no line. -/
theorem not_hasLine
    {s : Source}
    (hNone : ∀ n, ¬s.Serves (n + 1))
    {room : Nat}
    {line : List UInt8} :
    ¬s.HasLine (room + 1) line := by
  rintro ⟨_, ⟨_, _, hServes⟩ | ⟨_, _, hServes⟩⟩
  · exact hNone room hServes
  · exact hNone line.length hServes

namespace Advances

variable {s s' : Source}
variable {chr : UInt8}
variable {room : Nat}
variable {line : List UInt8}

/- At the end of a line, the line is empty. -/
theorem hasLine_end_iff
    (hAdvances : s.Advances chr s')
    (hEnd : isLineEnd chr) :
    s.HasLine (room + 1) line ↔ line = [] := by
  constructor
  · rintro ⟨hInside, hLine⟩
    cases line with
    | nil => rfl
    | cons first line =>
        have hFirst : first :: line <+: s.pending :=
          HasLine.starts ⟨hInside, hLine⟩
        rw [hAdvances.pending, List.cons_prefix_cons] at hFirst
        exact absurd (hFirst.1 ▸ hEnd)
          (hInside first List.mem_cons_self)
  · rintro rfl
    refine ⟨by simp, Or.inr ⟨by simp, ⟨chr, hEnd, ?_⟩, ?_⟩⟩
    · rw [hAdvances.pending]
      simp
    · exact (hAdvances.serves 0).mpr s'.serves_zero

/- Another byte is the first one of the line. -/
theorem hasLine_iff
    (hAdvances : s.Advances chr s')
    (hInside : ¬isLineEnd chr) :
    s.HasLine (room + 1) line ↔
      ∃ rest, line = chr :: rest ∧ s'.HasLine room rest := by
  constructor
  · rintro ⟨hPlain, hLine⟩
    cases line with
    | nil =>
        rcases hLine with ⟨hLength, _⟩ |
          ⟨_, ⟨last, hLast, hHere⟩, _⟩
        · simp at hLength
        · rw [hAdvances.pending, List.nil_append,
            List.cons_prefix_cons] at hHere
          exact absurd (hHere.1 ▸ hLast) hInside
    | cons first rest =>
        have hRest : ∀ c ∈ rest, ¬isLineEnd c :=
          fun c hMem =>
            hPlain c (List.mem_cons_of_mem _ hMem)
        rw [hAdvances.pending] at hLine
        simp only [List.cons_append, List.cons_prefix_cons,
          hAdvances.serves, List.length_cons] at hLine
        rcases hLine with ⟨hLength, ⟨rfl, hHere⟩, hServes⟩ |
          ⟨hLess, ⟨last, hLast, rfl, hHere⟩, hServes⟩
        · exact ⟨rest, rfl, hRest, Or.inl
            ⟨by omega, hHere, hServes⟩⟩
        · exact ⟨rest, rfl, hRest, Or.inr
            ⟨by omega, ⟨last, hLast, hHere⟩, hServes⟩⟩
  · rintro ⟨rest, rfl, hPlain, hLine⟩
    refine ⟨?_, ?_⟩
    · intro c hMem
      rcases List.mem_cons.mp hMem with rfl | hRest
      · exact hInside
      · exact hPlain c hRest
    · rw [hAdvances.pending]
      simp only [List.cons_append, List.cons_prefix_cons,
        hAdvances.serves, List.length_cons, true_and]
      rcases hLine with ⟨hLength, hHere, hServes⟩ |
        ⟨hLess, hHere, hServes⟩
      · exact Or.inl ⟨by omega, hHere, hServes⟩
      · exact Or.inr ⟨by omega, hHere, hServes⟩

end Advances

end Source
