import SmartSOCKSProxy.Foundations.Loops
import SmartSOCKSProxy.Foundations.Stores
import SmartSOCKSProxy.Server.StatusDocument

/-
  The buffer of the status document, in memory.

  Every call of realloc() may fail, and what lies behind the
  contents of a new block can be anything.  A string is added
  as a whole, or not at all when it does not fit and there is
  no larger block.

  Key definitions include:
    * `StringBuf`, `addToBufMemory`
    * `growRound`
    * `BuiltText`, `Omits`, `KeptStrings`

  Key theorems include:
    * `growRound_returns`
    * `addToBufMemory_spec`
    * `jsonBuffer_builds`
    * `addToBuf_of_memory`
-/

namespace SmartSOCKSProxy

------------------------------------------------------------
-- Memory
------------------------------------------------------------

/- The block at `buf`, and the distance of `ptr` from it. -/
structure StringBuf where
  buf : Buffer
  bufSize : Nat
  ptr : Nat

/-
  A call of add_to_buf(): the string, and the block that
  realloc() returns if it is called, or NULL.
-/
structure AddCall where
  add : Text
  realloc : Option Buffer

namespace AddCall

/- What the string adds. -/
def str
    (call : AddCall) : Text :=
  Text.cstr call.add

theorem zero_not_mem_str
    (call : AddCall) :
    (0 : UInt8) ∉ call.str :=
  Text.zero_not_mem_cstr call.add

end AddCall

/- The contents of the old block come first in the new one. -/
def reallocated
    (buf : Buffer)
    (size : Nat)
    (block : Buffer) : Buffer :=
  fun i => if i < size then buf i else block i

/- `add_to_buf()`; no result when the size overflows. -/
def addToBufMemory
    (m : StringBuf)
    (call : AddCall) : Option StringBuf := do
  let addLen := call.str.length
  let bufLen := m.ptr
  let newSize ← growSize 32 m.bufSize (bufLen + addLen + 10)
  let m : StringBuf :=
    if m.bufSize ≠ newSize then
      match call.realloc with
      | some block =>
          ⟨reallocated m.buf m.bufSize block, newSize, bufLen⟩
      | none => m
    else m
  if bufLen + addLen < m.bufSize then
    some
      ⟨(m.buf.store m.ptr call.str).put (m.ptr + addLen, 0),
        m.bufSize, m.ptr + addLen⟩
  else some m

/- `ptr=buf; *ptr=0;` in the block that malloc() returns. -/
def jsonStart
    (block : Buffer)
    (defaultSize : DefaultSize) : StringBuf :=
  ⟨block.put (0, 0), defaultSize.val, 0⟩

------------------------------------------------------------
-- The Doubling Loop
------------------------------------------------------------

/- `while (new_size < needed) new_size *= 2`, with ints. -/
def growRound
    (needed newSize : Nat) : Nat ⊕ Option Nat :=
  if newSize < needed then
    if 2 * newSize < 2 ^ 31 then .inl (2 * newSize)
    else .inr none
  else .inr (some newSize)

/- The counted loop has rounds enough. -/
theorem growRound_returns
    {needed : Nat}
    (rounds : Nat)
    {newSize : Nat}
    (hInt : newSize < 2 ^ 31)
    (hRounds : 2 ^ 31 ≤ newSize * 2 ^ rounds) :
    Returns (growRound needed) newSize
      (growSize rounds newSize needed) := by
  induction rounds generalizing newSize with
  | zero => omega
  | succ rounds ih =>
      rw [growSize]
      by_cases hSmall : newSize < needed
      · rw [if_pos hSmall]
        by_cases hDouble : 2 * newSize < 2 ^ 31
        · rw [if_pos hDouble]
          have hRound :
              growRound needed newSize = .inl (2 * newSize) := by
            unfold growRound
            rw [if_pos hSmall, if_pos hDouble]
          refine .next hRound (ih hDouble ?_)
          rw [Nat.pow_succ] at hRounds
          calc 2 ^ 31 ≤ newSize * (2 ^ rounds * 2) := hRounds
            _ = 2 * newSize * 2 ^ rounds := by ring
        · rw [if_neg hDouble]
          apply Returns.stop
          unfold growRound
          rw [if_pos hSmall, if_neg hDouble]
      · rw [if_neg hSmall]
        apply Returns.stop
        unfold growRound
        rw [if_neg hSmall]

/- The loop comes to a size that is large enough. -/
theorem growRound_enough
    (needed : Nat)
    {size : Nat}
    (hSize : IsBufSize size)
    (hNeeded : needed ≤ 2 ^ 30) :
    ∃ newSize, IsBufSize newSize ∧ needed ≤ newSize ∧
      growSize 32 size needed = some newSize ∧
      Returns (growRound needed) size (some newSize) := by
  rcases hSize with ⟨k, hk, hSize⟩
  subst hSize
  rcases growSize_of_le hNeeded 32 k hk (by omega) with
    ⟨newSize, hIs, hLe, hGrow⟩
  refine ⟨newSize, hIs, hLe, hGrow, ?_⟩
  rw [← hGrow]
  have hTop := two_pow_bufSize hk
  have hPos : 0 < 2 ^ k := Nat.two_pow_pos k
  apply growRound_returns
  · omega
  · omega

------------------------------------------------------------
-- One Call
------------------------------------------------------------

/-
  The buffer is a terminated string of length `ptr - buf`, and
  that is less than its size.
-/
structure BuiltText
    (m : StringBuf)
    (text : Text) : Prop where
  holds : m.buf.Holds text
  noNul : (0 : UInt8) ∉ text
  ptr : m.ptr = text.length
  room : m.ptr < m.bufSize
  size : IsBufSize m.bufSize

/-
  The string does not fit, and the call of realloc() for a
  larger block fails.
-/
def Omits
    (m : StringBuf)
    (call : AddCall) : Prop :=
  m.bufSize ≤ m.ptr + call.str.length ∧ call.realloc = none

instance
    (m : StringBuf)
    (call : AddCall) :
    Decidable (Omits m call) :=
  decidable_of_iff
    (m.bufSize ≤ m.ptr + call.str.length ∧
      call.realloc.isNone)
    (by rw [Option.isNone_iff_eq_none]; rfl)

variable {m : StringBuf}
variable {text : Text}

/- A larger block begins with the same string. -/
theorem BuiltText.reallocated
    (hBuilt : BuiltText m text)
    (block : Buffer)
    {newSize : Nat}
    (hSize : IsBufSize newSize)
    (hRoom : m.ptr < newSize) :
    BuiltText
      ⟨reallocated m.buf m.bufSize block, newSize, m.ptr⟩
      text := by
  have hPtr := hBuilt.ptr
  have hOld := hBuilt.room
  have hSame : ∀ i ≤ text.length,
      SmartSOCKSProxy.reallocated m.buf m.bufSize block i =
        m.buf i := by
    intro i hi
    exact if_pos (by omega)
  refine ⟨⟨?_, ?_⟩, hBuilt.noNul, hPtr, hRoom, hSize⟩
  · refine Eq.trans ?_ hBuilt.holds.load
    apply List.map_congr_left
    intro i hi
    exact hSame i (List.mem_range.mp hi).le
  · exact (hSame _ le_rfl).trans hBuilt.holds.terminator

/- A string that fits is appended. -/
theorem BuiltText.append
    (hBuilt : BuiltText m text)
    {str : Text}
    (hNoNul : (0 : UInt8) ∉ str)
    (hFits : m.ptr + str.length < m.bufSize) :
    BuiltText
      ⟨(m.buf.store m.ptr str).put (m.ptr + str.length, 0),
        m.bufSize, m.ptr + str.length⟩
      (text ++ str) := by
  have hPtr := hBuilt.ptr
  refine ⟨⟨?_, ?_⟩, ?_, ?_, hFits, hBuilt.size⟩
  · rw [List.length_append, hPtr,
      Buffer.load_put_of_le _ le_rfl, Buffer.load_store,
      hBuilt.holds.load]
  · rw [List.length_append, hPtr]
    simp [Buffer.put]
  · simp [hBuilt.noNul, hNoNul]
  · simp [hPtr]

/-
  A call appends its string, or leaves everything as it was
  when the string is to be omitted.
-/
theorem addToBufMemory_spec
    (hBuilt : BuiltText m text)
    (call : AddCall)
    (hShort : text.length + call.str.length + 10 ≤ 2 ^ 30) :
    ∃ m', addToBufMemory m call = some m' ∧
      (Omits m call ∧ m' = m ∨
        ¬Omits m call ∧ BuiltText m' (text ++ call.str)) := by
  have hPtr := hBuilt.ptr
  have hNoNul := call.zero_not_mem_str
  rcases growRound_enough (m.ptr + call.str.length + 10)
      hBuilt.size (by omega) with
    ⟨newSize, hSize, hEnough, hGrow, _⟩
  unfold addToBufMemory Omits
  simp only [hGrow, Option.bind_eq_bind, Option.bind_some]
  by_cases hSame : m.bufSize = newSize
  · have hFits : m.ptr + call.str.length < m.bufSize := by
      omega
    rw [if_neg (not_not.mpr hSame), if_pos hFits]
    refine ⟨_, rfl, Or.inr ⟨?_, hBuilt.append hNoNul hFits⟩⟩
    omega
  · rw [if_pos hSame]
    cases call.realloc with
    | some block =>
        have hFits : m.ptr + call.str.length < newSize := by
          omega
        have hNew :=
          hBuilt.reallocated block hSize (by omega)
        dsimp only
        rw [if_pos hFits]
        exact ⟨_, rfl, Or.inr
          ⟨by simp, hNew.append hNoNul hFits⟩⟩
    | none =>
        dsimp only
        by_cases hFits : m.ptr + call.str.length < m.bufSize
        · rw [if_pos hFits]
          refine ⟨_, rfl, Or.inr ⟨?_, hBuilt.append hNoNul hFits⟩⟩
          omega
        · rw [if_neg hFits]
          exact ⟨m, rfl, Or.inl ⟨⟨by omega, rfl⟩, rfl⟩⟩

------------------------------------------------------------
-- Runs
------------------------------------------------------------

/-
  The calls lead from one buffer to another one, and these
  strings were not omitted.
-/
inductive KeptStrings
    (start : StringBuf) :
    List AddCall → StringBuf → List Text → Prop
| start :
    KeptStrings start [] start []
| kept
    {calls : List AddCall}
    {call : AddCall}
    {m m' : StringBuf}
    {strs : List Text}
    (hKept : KeptStrings start calls m strs)
    (hAdd : addToBufMemory m call = some m')
    (hFits : ¬Omits m call) :
    KeptStrings start (calls ++ [call]) m' (strs ++ [call.str])
| omitted
    {calls : List AddCall}
    {call : AddCall}
    {m m' : StringBuf}
    {strs : List Text}
    (hKept : KeptStrings start calls m strs)
    (hAdd : addToBufMemory m call = some m')
    (hOmits : Omits m call) :
    KeptStrings start (calls ++ [call]) m' strs

/- The length of all strings. -/
def totalLength
    (calls : List AddCall) : Nat :=
  (calls.map fun call => call.str.length).sum

theorem totalLength_append
    (calls calls' : List AddCall) :
    totalLength (calls ++ calls') =
      totalLength calls + totalLength calls' := by
  simp [totalLength]

theorem totalLength_singleton
    (call : AddCall) :
    totalLength [call] = call.str.length := by
  simp [totalLength]

theorem totalLength_le_of_prefix
    {front calls : List AddCall}
    (hFront : front <+: calls) :
    totalLength front ≤ totalLength calls := by
  rcases hFront with ⟨back, rfl⟩
  rw [totalLength_append]
  exact Nat.le_add_right _ _

/- What is kept is no longer than all strings. -/
theorem KeptStrings.length_le
    {start : StringBuf}
    {calls : List AddCall}
    {strs : List Text}
    (hKept : KeptStrings start calls m strs) :
    strs.flatten.length ≤ totalLength calls := by
  induction hKept with
  | start => exact Nat.zero_le _
  | kept _ _ _ ih =>
      rw [totalLength_append, totalLength_singleton,
        List.flatten_append, List.length_append,
        List.flatten_singleton]
      omega
  | omitted _ _ _ ih =>
      rw [totalLength_append]
      omega

/- Without failures of realloc() everything is kept. -/
theorem KeptStrings.all
    {start : StringBuf}
    {calls : List AddCall}
    {strs : List Text}
    (hKept : KeptStrings start calls m strs)
    (hRealloc : ∀ call ∈ calls, call.realloc ≠ none) :
    strs = calls.map AddCall.str := by
  induction hKept with
  | start => rfl
  | kept _ _ _ ih =>
      rw [ih fun call hMem =>
          hRealloc call (List.mem_append_left _ hMem),
        List.map_append]
      rfl
  | omitted _ _ hOmits _ =>
      exact absurd hOmits.2
        (hRealloc _ (List.mem_append_right _
          List.mem_cons_self))

/- The calls of a run, one after the other. -/
theorem KeptStrings.run
    {start : StringBuf}
    {calls : List AddCall}
    {strs : List Text}
    (hKept : KeptStrings start calls m strs) :
    calls.foldlM addToBufMemory start = some m := by
  induction hKept with
  | start => rfl
  | kept _ hAdd _ ih =>
      rw [List.foldlM_append, ih]
      simpa using hAdd
  | omitted _ hAdd _ ih =>
      rw [List.foldlM_append, ih]
      simpa using hAdd

theorem jsonStart_built
    (block : Buffer)
    (defaultSize : DefaultSize) :
    BuiltText (jsonStart block defaultSize) [] := by
  rcases defaultSize with ⟨size, k, hk, hSize⟩
  subst hSize
  have hPos : 0 < 2 ^ k := Nat.two_pow_pos k
  refine ⟨Buffer.holds_nil block, List.not_mem_nil, rfl, ?_,
    k, hk, rfl⟩
  change 0 < 1024 * 2 ^ k
  omega

/-
  After every call the buffer is the string of all that was
  added and not omitted; and the next call comes to a size
  that is large enough.
-/
theorem jsonBuffer_builds
    (block : Buffer)
    (defaultSize : DefaultSize)
    {calls : List AddCall}
    (hTotal : totalLength calls < 2 ^ 29)
    {front : List AddCall}
    (hFront : front <+: calls) :
    ∃ m strs,
      front.foldlM addToBufMemory
        (jsonStart block defaultSize) = some m ∧
      KeptStrings (jsonStart block defaultSize) front m strs ∧
      BuiltText m strs.flatten ∧
      ((∀ call ∈ front, call.realloc ≠ none) →
        strs = front.map AddCall.str) ∧
      ∀ call, front ++ [call] <+: calls →
        ∃ newSize, m.ptr + call.str.length + 10 ≤ newSize ∧
          Returns (growRound (m.ptr + call.str.length + 10))
            m.bufSize (some newSize) := by
  have hKept :
      ∃ m strs,
        KeptStrings (jsonStart block defaultSize) front m strs ∧
        BuiltText m strs.flatten := by
    induction front using List.reverseRecOn with
    | nil =>
        exact ⟨_, [], .start, jsonStart_built block defaultSize⟩
    | append_singleton front call ih =>
        have hLe := totalLength_le_of_prefix hFront
        rw [totalLength_append, totalLength_singleton] at hLe
        rcases ih ((List.prefix_append _ _).trans hFront) with
          ⟨m, strs, hKept, hBuilt⟩
        have hShort := hKept.length_le
        rcases addToBufMemory_spec hBuilt call (by omega) with
          ⟨m', hAdd, ⟨hOmits, rfl⟩ | ⟨hFits, hBuilt'⟩⟩
        · exact ⟨m', strs, .omitted hKept hAdd hOmits, hBuilt⟩
        · refine ⟨m', strs ++ [call.str],
            .kept hKept hAdd hFits, ?_⟩
          rwa [List.flatten_append, List.flatten_singleton]
  rcases hKept with ⟨m, strs, hKept, hBuilt⟩
  refine ⟨m, strs, hKept.run, hKept, hBuilt, hKept.all, ?_⟩
  intro call hNext
  have hLe := totalLength_le_of_prefix hNext
  rw [totalLength_append, totalLength_singleton] at hLe
  have hShort := hKept.length_le
  have hPtr := hBuilt.ptr
  rcases growRound_enough (m.ptr + call.str.length + 10)
      hBuilt.size (by omega) with
    ⟨newSize, _, hEnough, _, hLoop⟩
  exact ⟨newSize, hEnough, hLoop⟩

/- The strings that are kept, by running the calls. -/
def keptOf :
    StringBuf → List AddCall → List Text
  | _, [] => []
  | m, call :: calls =>
      match addToBufMemory m call with
      | none => []
      | some m' =>
          if Omits m call then keptOf m' calls
          else call.str :: keptOf m' calls

theorem keptOf_append
    {calls : List AddCall}
    {start m : StringBuf}
    (hRun : calls.foldlM addToBufMemory start = some m)
    (more : List AddCall) :
    keptOf start (calls ++ more) =
      keptOf start calls ++ keptOf m more := by
  induction calls generalizing start with
  | nil =>
      cases hRun
      rfl
  | cons call calls ih =>
      rw [List.foldlM_cons] at hRun
      cases hAdd : addToBufMemory start call with
      | none =>
          rw [hAdd] at hRun
          cases hRun
      | some m' =>
          rw [hAdd] at hRun
          rw [List.cons_append, keptOf, keptOf]
          simp only [hAdd, ih hRun]
          split <;> rfl

theorem KeptStrings.eq_keptOf
    {start : StringBuf}
    {calls : List AddCall}
    {strs : List Text}
    (hKept : KeptStrings start calls m strs) :
    strs = keptOf start calls := by
  induction hKept with
  | start => rfl
  | kept hBefore hAdd hFits ih =>
      rw [keptOf_append hBefore.run, ← ih]
      simp [keptOf, hAdd, hFits]
  | omitted hBefore hAdd hOmits ih =>
      rw [keptOf_append hBefore.run, ← ih]
      simp [keptOf, hAdd, hOmits]

/- A long string, which realloc() refuses at first. -/
def longCalls : List AddCall :=
  [⟨[123], none⟩, ⟨List.replicate 1500 97, none⟩,
    ⟨List.replicate 1500 98, some fun _ => 9⟩, ⟨[125], none⟩]

/- The second try leads to a block of twice the size. -/
theorem jsonBuffer_builds_long :
    ∃ m,
      longCalls.foldlM addToBufMemory
        (jsonStart (fun _ => 7) ⟨1024, 0, by decide, rfl⟩) =
          some m ∧
      BuiltText m
        ([123] ++ List.replicate 1500 98 ++ [125]) ∧
      m.bufSize = 2048 := by
  have hTotal : totalLength longCalls < 2 ^ 29 := by
    decide +kernel
  have hStrs :
      keptOf (jsonStart (fun _ => 7) ⟨1024, 0, by decide, rfl⟩)
          longCalls =
        [[123], List.replicate 1500 98, [125]] := by
    decide +kernel
  have hSize :
      (longCalls.foldlM addToBufMemory
        (jsonStart (fun _ => 7)
          ⟨1024, 0, by decide, rfl⟩)).map StringBuf.bufSize =
        some 2048 := by
    decide +kernel
  rcases jsonBuffer_builds (fun _ => 7)
      ⟨1024, 0, by decide, rfl⟩ hTotal
      (List.prefix_refl _) with
    ⟨m, strs, hRun, hKept, hBuilt, _, _⟩
  have hFlatten : ∀ str : Text,
      [[123], str, [125]].flatten = [123] ++ str ++ [125] := by
    intro str
    simp
  rw [hKept.eq_keptOf, hStrs, hFlatten] at hBuilt
  rw [hRun] at hSize
  exact ⟨m, hRun, hBuilt, Option.some.inj hSize⟩

/-
  With all calls of realloc() succeeding, memory holds the
  text that `addToBuf` computes without it, and the sizes are
  the same.
-/
theorem addToBuf_of_memory
    (hBuilt : BuiltText m text)
    {call : AddCall}
    (hShort : text.length + call.str.length + 10 ≤ 2 ^ 30)
    (hRealloc : call.realloc ≠ none) :
    ∃ m', addToBufMemory m call = some m' ∧
      BuiltText m' (text ++ call.str) ∧
      addToBuf ⟨text, m.bufSize⟩ (some call.str) =
        some ⟨text ++ call.str, m'.bufSize⟩ := by
  rcases addToBufMemory_spec hBuilt call hShort with
    ⟨m', hAdd, ⟨hOmits, _⟩ | ⟨_, hBuilt'⟩⟩
  · exact absurd hOmits.2 hRealloc
  have hPtr := hBuilt.ptr
  rcases growRound_enough (m.ptr + call.str.length + 10)
      hBuilt.size (by omega) with
    ⟨newSize, hSize, hEnough, hGrow, _⟩
  have hFits : m.ptr + call.str.length < newSize := by omega
  have hNew : m'.bufSize = newSize := by
    rcases Option.ne_none_iff_exists'.mp hRealloc with
      ⟨block, hBlock⟩
    unfold addToBufMemory at hAdd
    simp only [hGrow, hBlock, Option.bind_eq_bind,
      Option.bind_some] at hAdd
    by_cases hSame : m.bufSize = newSize
    · rw [if_neg (not_not.mpr hSame), hSame, if_pos hFits]
        at hAdd
      rw [← Option.some.inj hAdd]
    · rw [if_pos hSame] at hAdd
      dsimp only at hAdd
      rw [if_pos hFits] at hAdd
      rw [← Option.some.inj hAdd]
  refine ⟨m', hAdd, hBuilt', ?_⟩
  rw [hPtr] at hGrow hFits
  unfold addToBuf
  simp only [hGrow, Option.bind_eq_bind, Option.bind_some,
    if_pos hFits, hNew]

end SmartSOCKSProxy
