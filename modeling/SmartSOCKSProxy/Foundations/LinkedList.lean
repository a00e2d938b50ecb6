import Mathlib.Tactic

/-
  Doubly linked lists.

  Every element has a link to the next one and a link to the
  one before.  Elements of several lists share the links.

  Key definitions include:
    * `Links`, `Links.pushFront`, `Links.unlink`
    * `Links.Chain`

  Key theorems include:
    * `Links.Chain.nodup`
    * `Links.Chain.pushFront`, `Links.Chain.pushFront_other`
    * `Links.Chain.unlink`, `Links.Chain.unlink_other`
-/

/- The links of all elements. -/
structure Links
    (α : Type) where
  next : α → Option α
  prev : α → Option α

namespace Links

variable {α : Type}
/-
  The elements of the list that begins at `head`, whose first
  element has the link `before` to the one before it.
-/
def Chain
    (l : Links α)
    (before head : Option α) : List α → Prop
  | [] => head = none
  | x :: xs =>
      head = some x ∧ l.prev x = before ∧
        Chain l (some x) (l.next x) xs

------------------------------------------------------------
-- The Elements of a List
------------------------------------------------------------

namespace Chain

variable {l l' : Links α}
variable {before head : Option α}
variable {x y : α}
variable {xs ys zs : List α}

/- Only the links of its elements make a list. -/
theorem congr
    (hChain : l.Chain before head xs)
    (hSame :
      ∀ x ∈ xs, l'.next x = l.next x ∧ l'.prev x = l.prev x) :
    l'.Chain before head xs := by
  induction xs generalizing before head with
  | nil => exact hChain
  | cons x xs ih =>
      rcases hChain with ⟨hHead, hPrev, hTail⟩
      have hHere := hSame x List.mem_cons_self
      refine ⟨hHead, hHere.2.trans hPrev, ?_⟩
      rw [hHere.1]
      exact ih hTail
        (fun y hy => hSame y (List.mem_cons_of_mem x hy))

/- The head determines the elements. -/
theorem unique
    {before' : Option α}
    (hLeft : l.Chain before head xs)
    (hRight : l.Chain before' head ys) :
    xs = ys := by
  induction xs generalizing before before' head ys with
  | nil =>
      cases ys with
      | nil => rfl
      | cons y ys => exact nomatch hLeft.symm.trans hRight.1
  | cons x xs ih =>
      cases ys with
      | nil => exact nomatch hRight.symm.trans hLeft.1
      | cons y ys =>
          have hSame : x = y :=
            Option.some.inj (hLeft.1.symm.trans hRight.1)
          subst hSame
          rw [ih hLeft.2.2 hRight.2.2]

/- Every element begins a list of its own. -/
theorem suffix
    (hChain : l.Chain before head (ys ++ x :: zs)) :
    ∃ before', l.Chain before' (some x) (x :: zs) := by
  induction ys generalizing before head with
  | nil => exact ⟨before, hChain.1 ▸ hChain⟩
  | cons y ys ih => exact ih hChain.2.2

/- No element occurs twice. -/
theorem nodup
    (hChain : l.Chain before head xs) :
    xs.Nodup := by
  induction xs generalizing before head with
  | nil => exact List.nodup_nil
  | cons x xs ih =>
      refine List.nodup_cons.mpr ⟨?_, ih hChain.2.2⟩
      intro hMem
      rcases List.append_of_mem hMem with ⟨ys, zs, rfl⟩
      rcases hChain.2.2.suffix with ⟨before', hSuffix⟩
      have hHere : l.Chain before (some x) _ :=
        hChain.1 ▸ hChain
      have hLength :=
        congrArg List.length (hHere.unique hSuffix)
      simp at hLength
      omega

theorem next_of_suffix
    (hChain : l.Chain before head (ys ++ x :: zs)) :
    l.next x = zs.head? := by
  rcases hChain.suffix with ⟨_, _, _, hTail⟩
  cases zs with
  | nil => exact hTail
  | cons z zs => exact hTail.1

theorem prev_of_suffix
    (hChain : l.Chain before head (ys ++ x :: zs)) :
    l.prev x = (ys.getLast?).or before := by
  induction ys generalizing before head with
  | nil => exact hChain.2.1
  | cons y ys ih =>
      rw [ih hChain.2.2]
      cases hLast : ys.getLast? with
      | none =>
          rw [List.getLast?_eq_none_iff.mp hLast]
          rfl
      | some z => simp [List.getLast?_cons, hLast]

/- The next element is one of the list. -/
theorem next_mem
    (hChain : l.Chain before head xs)
    (hMem : x ∈ xs)
    (hNext : l.next x = some y) :
    y ∈ xs := by
  rcases List.append_of_mem hMem with ⟨ys, zs, rfl⟩
  rw [hChain.next_of_suffix] at hNext
  have hLater := List.mem_of_head? hNext
  simp [hLater]

theorem prev_mem
    (hChain : l.Chain none head xs)
    (hMem : x ∈ xs)
    (hPrev : l.prev x = some y) :
    y ∈ xs := by
  rcases List.append_of_mem hMem with ⟨ys, zs, rfl⟩
  rw [hChain.prev_of_suffix, Option.or_none] at hPrev
  have hEarlier := List.mem_of_getLast? hPrev
  simp [hEarlier]

/- No element is linked to itself. -/
theorem next_ne_self
    (hChain : l.Chain before head xs)
    (hMem : x ∈ xs) :
    l.next x ≠ some x := by
  rcases List.append_of_mem hMem with ⟨ys, zs, rfl⟩
  intro hSelf
  rw [hChain.next_of_suffix] at hSelf
  have hLater := List.mem_of_head? hSelf
  have hOnce := hChain.nodup.of_append_right
  exact (List.nodup_cons.mp hOnce).1 hLater

theorem head_mem
    (hChain : l.Chain before head xs)
    (hHead : head = some x) :
    x ∈ xs := by
  cases xs with
  | nil => exact nomatch hChain.symm.trans hHead
  | cons y ys =>
      rw [Option.some.inj (hHead.symm.trans hChain.1)]
      exact List.mem_cons_self

end Chain

variable [DecidableEq α]

------------------------------------------------------------
-- Changing Links
------------------------------------------------------------

def setNext
    (l : Links α)
    (x : α)
    (y : Option α) : Links α :=
  { l with next := Function.update l.next x y }

def setPrev
    (l : Links α)
    (x : α)
    (y : Option α) : Links α :=
  { l with prev := Function.update l.prev x y }

@[simp]
theorem setNext_self
    (l : Links α)
    (x : α) :
    l.setNext x (l.next x) = l := by
  simp [setNext]

@[simp]
theorem setPrev_self
    (l : Links α)
    (x : α) :
    l.setPrev x (l.prev x) = l := by
  simp [setPrev]

/- A link of an element, if there is the element. -/
def setNextOf
    (l : Links α)
    (x : Option α)
    (y : Option α) : Links α :=
  match x with
  | some x => l.setNext x y
  | none => l

def setPrevOf
    (l : Links α)
    (x : Option α)
    (y : Option α) : Links α :=
  match x with
  | some x => l.setPrev x y
  | none => l

@[simp]
theorem setNextOf_some
    (l : Links α)
    (x : α)
    (y : Option α) :
    l.setNextOf (some x) y = l.setNext x y :=
  rfl

@[simp]
theorem setNextOf_none
    (l : Links α)
    (y : Option α) :
    l.setNextOf none y = l :=
  rfl

@[simp]
theorem setPrevOf_some
    (l : Links α)
    (x : α)
    (y : Option α) :
    l.setPrevOf (some x) y = l.setPrev x y :=
  rfl

@[simp]
theorem setPrevOf_none
    (l : Links α)
    (y : Option α) :
    l.setPrevOf none y = l :=
  rfl

/- Put an element before the head of a list. -/
def pushFront
    (l : Links α)
    (head : Option α)
    (x : α) : Links α :=
  ((l.setNext x head).setPrev x none).setPrevOf head (some x)

/- Take an element out of its list. -/
def unlink
    (l : Links α)
    (x : α) : Links α :=
  let l := l.setPrevOf (l.next x) (l.prev x)
  let l := l.setNextOf (l.prev x) (l.next x)
  (l.setNext x none).setPrev x none

------------------------------------------------------------
-- Putting In
------------------------------------------------------------

/- What the links of the new element were does not matter. -/
theorem pushFront_fresh
    (l : Links α)
    (head : Option α)
    (x : α)
    (next prev : Option α) :
    ((l.setNext x next).setPrev x prev).pushFront head x =
      l.pushFront head x := by
  cases head <;>
    simp [pushFront, setNext, setPrev, Function.update_idem]

theorem pushFront_of_ne
    (l : Links α)
    {head : Option α}
    {x y : α}
    (hNew : y ≠ x)
    (hHead : head ≠ some y) :
    (l.pushFront head x).next y = l.next y ∧
      (l.pushFront head x).prev y = l.prev y := by
  unfold pushFront
  cases head with
  | none => simp [setNext, setPrev, hNew]
  | some h =>
      have hNe : y ≠ h := fun hSame => hHead (by rw [hSame])
      simp [setNext, setPrev, hNew, hNe]

namespace Chain

variable {l : Links α}
variable {before head : Option α}
variable {x : α}
variable {xs ys : List α}

/- Other lists stay as they are. -/
theorem pushFront_other
    {head' : Option α}
    (hChain : l.Chain before head ys)
    (hNew : x ∉ ys)
    (hHead : ∀ y ∈ ys, head' ≠ some y) :
    (l.pushFront head' x).Chain before head ys := by
  apply hChain.congr
  intro y hy
  apply pushFront_of_ne l
  · rintro rfl
    exact hNew hy
  · exact hHead y hy

theorem pushFront
    (hChain : l.Chain none head xs)
    (hNew : x ∉ xs) :
    (l.pushFront head x).Chain none (some x) (x :: xs) := by
  cases xs with
  | nil =>
      have hNone : head = none := hChain
      subst hNone
      simp [Chain, Links.pushFront, setNext, setPrev]
  | cons h xs =>
      rcases hChain with ⟨rfl, hPrev, hTail⟩
      have hNe : h ≠ x := by
        rintro rfl
        exact hNew List.mem_cons_self
      have hOnce := (List.nodup_cons.mp
        (nodup ⟨rfl, hPrev, hTail⟩)).1
      refine ⟨rfl, ?_, ?_, ?_, ?_⟩
      · simp [Links.pushFront, setNext, setPrev, hNe.symm]
      · simp [Links.pushFront, setNext, setPrev]
      · simp [Links.pushFront, setNext, setPrev]
      · have hNext :
            (l.pushFront (some h) x).next h = l.next h := by
          simp [Links.pushFront, setNext, setPrev, hNe]
        rw [hNext]
        apply hTail.pushFront_other
        · exact fun hMem =>
            hNew (List.mem_cons_of_mem h hMem)
        · intro y hy hSame
          rw [Option.some.inj hSame] at hOnce
          exact hOnce hy

end Chain

------------------------------------------------------------
-- Taking Out
------------------------------------------------------------

/- The neighbours of an element are linked to each other. -/
theorem unlink_next
    {l : Links α}
    {x y : α}
    (hSelf : l.next x ≠ some x)
    (hNe : y ≠ x) :
    (l.unlink x).next y =
      if l.prev x = some y then l.next x else l.next y := by
  unfold unlink
  cases hNext : l.next x with
  | none =>
      cases hPrev : l.prev x with
      | none => simp [setNext, setPrev, hNe, hPrev]
      | some p =>
          by_cases hSame : y = p
          · subst hSame
            simp [setNext, setPrev, hNe, hPrev, hNext]
          · simp [setNext, setPrev, hNe, hPrev, hSame,
              Ne.symm hSame]
  | some n =>
      have hOther : x ≠ n := by
        rintro rfl
        exact hSelf hNext
      cases hPrev : l.prev x with
      | none => simp [setNext, setPrev, hNe, hPrev, hOther]
      | some p =>
          by_cases hSame : y = p
          · subst hSame
            simp [setNext, setPrev, hNe, hPrev, hNext, hOther]
          · simp [setNext, setPrev, hNe, hPrev, hSame,
              Ne.symm hSame, hOther]

theorem unlink_prev
    {l : Links α}
    {x y : α}
    (hSelf : l.next x ≠ some x)
    (hNe : y ≠ x) :
    (l.unlink x).prev y =
      if l.next x = some y then l.prev x else l.prev y := by
  unfold unlink
  cases hNext : l.next x with
  | none =>
      cases hPrev : l.prev x with
      | none => simp [setNext, setPrev, hNe, hPrev]
      | some p => simp [setNext, setPrev, hNe, hPrev]
  | some n =>
      have hOther : x ≠ n := by
        rintro rfl
        exact hSelf hNext
      cases hPrev : l.prev x with
      | none =>
          by_cases hSame : y = n
          · subst hSame
            simp [setNext, setPrev, hNe, hPrev, hOther]
          · simp [setNext, setPrev, hNe, hPrev, hSame,
              Ne.symm hSame, hOther]
      | some p =>
          by_cases hSame : y = n
          · subst hSame
            simp [setNext, setPrev, hNe, hPrev, hOther]
          · simp [setNext, setPrev, hNe, hPrev, hSame,
              Ne.symm hSame, hOther]

namespace Chain

variable {l : Links α}
variable {before head : Option α}
variable {x : α}
variable {xs ys zs : List α}

/- Lists without the element stay as they are. -/
theorem unlink_other
    (hChain : l.Chain before head ys)
    (hSelf : l.next x ≠ some x)
    (hNot : x ∉ ys)
    (hNext : ∀ y ∈ ys, l.next x ≠ some y)
    (hPrev : ∀ y ∈ ys, l.prev x ≠ some y) :
    (l.unlink x).Chain before head ys := by
  apply hChain.congr
  intro y hy
  have hNe : y ≠ x := by
    rintro rfl
    exact hNot hy
  rw [unlink_next hSelf hNe, unlink_prev hSelf hNe,
    if_neg (hPrev y hy), if_neg (hNext y hy)]
  exact ⟨rfl, rfl⟩

/- The first element is taken out. -/
theorem unlink_head
    (hChain : l.Chain before (some x) (x :: zs))
    (hBefore : ∀ z ∈ zs, before ≠ some z) :
    (l.unlink x).Chain before (l.next x) zs := by
  have hOnce := (List.nodup_cons.mp hChain.nodup).1
  have hSelf := hChain.next_ne_self List.mem_cons_self
  rcases hChain with ⟨_, hPrev, hTail⟩
  cases zs with
  | nil => exact hTail
  | cons z zs =>
      rcases hTail with ⟨hNext, hPrevZ, hRest⟩
      have hNe : z ≠ x := by
        rintro rfl
        exact hOnce List.mem_cons_self
      have hLater := (List.nodup_cons.mp
        (nodup ⟨rfl, hPrevZ, hRest⟩)).1
      refine ⟨hNext, ?_, ?_⟩
      · rw [unlink_prev hSelf hNe, if_pos hNext, hPrev]
      · rw [unlink_next hSelf hNe, hPrev,
          if_neg (hBefore z List.mem_cons_self)]
        apply hRest.unlink_other hSelf
        · exact fun hMem =>
            hOnce (List.mem_cons_of_mem z hMem)
        · intro y hy hSame
          rw [hNext] at hSame
          rw [Option.some.inj hSame] at hLater
          exact hLater hy
        · intro y hy
          rw [hPrev]
          exact hBefore y (List.mem_cons_of_mem z hy)

/-
  An element is taken out.  When it was the head, the next one
  is the new head.
-/
theorem unlink
    (hChain : l.Chain before head (ys ++ x :: zs))
    (hBefore : ∀ y ∈ ys ++ x :: zs, before ≠ some y) :
    (l.unlink x).Chain before
      (if head = some x then l.next x else head)
      (ys ++ zs) := by
  induction ys generalizing before head with
  | nil =>
      have hHead : head = some x := hChain.1
      subst hHead
      rw [if_pos rfl]
      apply unlink_head hChain
      intro z hz
      exact hBefore z (List.mem_cons_of_mem x hz)
  | cons y ys ih =>
      have hAll := List.nodup_cons.mp hChain.nodup
      have hMem : x ∈ ys ++ x :: zs := by simp
      have hNe : y ≠ x := by
        rintro rfl
        exact hAll.1 hMem
      have hSelf := hChain.2.2.next_ne_self hMem
      have hPrevX := hChain.2.2.prev_of_suffix
      have hNextX := hChain.2.2.next_of_suffix
      rcases hChain with ⟨hHead, hPrev, hTail⟩
      have hRest := ih hTail (by
        intro z hz hSame
        rw [Option.some.inj hSame] at hAll
        exact hAll.1 hz)
      rw [hHead, if_neg (by simpa using hNe)]
      refine ⟨rfl, ?_, ?_⟩
      · rw [unlink_prev hSelf hNe, if_neg, hPrev]
        intro hSame
        rw [hNextX] at hSame
        apply hAll.1
        have hLater := List.mem_of_head? hSame
        simp [hLater]
      · have hSame :
            l.prev x = some y ↔ l.next y = some x := by
          cases ys with
          | nil => simp [hPrevX, hTail.1]
          | cons w ws =>
              have hHere : l.next y = some w := hTail.1
              have hNextNe : w ≠ x := by
                rintro rfl
                apply (List.nodup_cons.mp hAll.2).1
                simp
              have hPrevNe :
                  ((w :: ws).getLast?).or (some y) ≠
                    some y := by
                rw [List.getLast?_eq_some_getLast
                  (List.cons_ne_nil w ws), Option.some_or]
                intro hLast
                apply hAll.1
                apply List.mem_append_left
                rw [← Option.some.inj hLast]
                exact List.getLast_mem _
              rw [hPrevX, hHere]
              exact iff_of_false hPrevNe
                (by simpa using hNextNe)
        rw [unlink_next hSelf hNe, if_congr hSame rfl rfl]
        exact hRest

end Chain

end Links
