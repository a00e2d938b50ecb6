import Mathlib.Tactic

/-
  Words between blanks.

  A list of items is split at its blanks into words, and the
  words are written with one separator between two of them.
  The same text comes about item by item, when a separator
  waits until another item follows.

  Key definitions include:
    * `wordsOf`, `joinWords`
    * `Spacing`, `Spacing.add`

  Key theorems include:
    * `wordsOf_intercalate`, `flatMap_intercalate`
    * `Spacing.out_foldl_add`
-/

------------------------------------------------------------
-- Words
------------------------------------------------------------

/- The words of a list, none of them empty. -/
def wordsOf
    {α : Type}
    (blank : α → Bool)
    (items : List α) : List (List α) :=
  (items.splitOnP blank).filter fun word => !word.isEmpty

/- The text of some words, with a separator between them. -/
def joinWords
    {α β : Type}
    (sep : β)
    (text : α → List β)
    (words : List (List α)) : List β :=
  [sep].intercalate (words.map fun word => word.flatMap text)

section Words

variable {α : Type}
variable {blank : α → Bool}

/- A part between two blanks has items, and no blanks. -/
theorem mem_splitOnP
    {items part : List α}
    (hPart : part ∈ items.splitOnP blank) :
    ∀ a ∈ part, a ∈ items ∧ blank a = false := by
  induction items generalizing part with
  | nil =>
      rw [List.splitOnP_nil, List.mem_singleton] at hPart
      subst hPart
      simp
  | cons item items ih =>
      rw [List.splitOnP_cons_eq_if_modifyHead] at hPart
      cases hBlank : blank item with
      | true =>
          rw [hBlank, if_pos rfl, List.mem_cons] at hPart
          intro a ha
          rcases hPart with rfl | hPart
          · cases ha
          · have hHere := ih hPart a ha
            exact ⟨List.mem_cons_of_mem _ hHere.1, hHere.2⟩
      | false =>
          rw [hBlank, if_neg Bool.false_ne_true] at hPart
          rcases hSplit : items.splitOnP blank with _ | ⟨w, ws⟩
          · exact absurd hSplit (List.splitOnP_ne_nil _ _)
          · rw [hSplit] at hPart ih
            rw [List.modifyHead_cons, List.mem_cons] at hPart
            intro a ha
            rcases hPart with rfl | hPart
            · rcases List.mem_cons.mp ha with rfl | ha
              · exact ⟨List.mem_cons_self, hBlank⟩
              · have hHere := ih List.mem_cons_self a ha
                exact ⟨List.mem_cons_of_mem _ hHere.1, hHere.2⟩
            · have hHere := ih (List.mem_cons_of_mem _ hPart) a ha
              exact ⟨List.mem_cons_of_mem _ hHere.1, hHere.2⟩

theorem mem_wordsOf
    {items word : List α}
    (hWord : word ∈ wordsOf blank items) :
    word ≠ [] ∧ ∀ a ∈ word, a ∈ items ∧ blank a = false := by
  rcases List.mem_filter.mp hWord with ⟨hPart, hSome⟩
  refine ⟨?_, mem_splitOnP hPart⟩
  rintro rfl
  simp at hSome

/- Words that are joined by a blank are the words again. -/
theorem wordsOf_intercalate
    {b : α}
    (hBlank : blank b = true)
    {words : List (List α)}
    (hWords :
      ∀ word ∈ words, word ≠ [] ∧ ∀ a ∈ word, blank a = false) :
    wordsOf blank ([b].intercalate words) = words := by
  unfold wordsOf
  induction words with
  | nil => simp
  | cons word words ih =>
      rcases hWords word List.mem_cons_self with ⟨hSome, hPlain⟩
      have hKeep : (!word.isEmpty) = true := by
        simpa using hSome
      cases words with
      | nil =>
          rw [List.intercalate_singleton,
            List.splitOnP_eq_singleton hPlain,
            List.filter_cons, if_pos hKeep, List.filter_nil]
      | cons next words =>
          have hRest := ih fun w hw =>
            hWords w (List.mem_cons_of_mem _ hw)
          rw [List.intercalate_cons_cons, List.append_assoc,
            List.singleton_append,
            List.splitOnP_append_cons_of_forall_mem hPlain b
              hBlank,
            List.filter_cons, if_pos hKeep, hRest]

theorem mem_of_mem_intercalate
    {a b : α}
    {words : List (List α)}
    (hMem : a ∈ [b].intercalate words) :
    a = b ∨ ∃ word ∈ words, a ∈ word := by
  induction words with
  | nil => simp at hMem
  | cons word words ih =>
      cases words with
      | nil =>
          rw [List.intercalate_singleton] at hMem
          exact Or.inr ⟨word, List.mem_cons_self, hMem⟩
      | cons next words =>
          rw [List.intercalate_cons_cons, List.append_assoc,
            List.mem_append, List.mem_append,
            List.mem_singleton] at hMem
          rcases hMem with hHere | rfl | hRest
          · exact Or.inr ⟨word, List.mem_cons_self, hHere⟩
          · exact Or.inl rfl
          · rcases ih hRest with rfl | ⟨w, hWord, hIn⟩
            · exact Or.inl rfl
            · exact Or.inr
                ⟨w, List.mem_cons_of_mem _ hWord, hIn⟩

/- A text that has the separator at the blank. -/
theorem flatMap_intercalate
    {β : Type}
    {b : α}
    {sep : β}
    {text : α → List β}
    (hSep : text b = [sep])
    (words : List (List α)) :
    ([b].intercalate words).flatMap text =
      joinWords sep text words := by
  unfold joinWords
  induction words with
  | nil => simp
  | cons word words ih =>
      cases words with
      | nil => simp
      | cons next words =>
          rw [List.map_cons] at ih ⊢
          rw [List.map_cons, List.intercalate_cons_cons,
            List.intercalate_cons_cons, List.flatMap_append,
            List.flatMap_append, ih]
          simp [hSep]

theorem joinWords_congr
    {β : Type}
    {sep : β}
    {text text' : α → List β}
    {words : List (List α)}
    (hSame : ∀ word ∈ words, ∀ a ∈ word, text a = text' a) :
    joinWords sep text words = joinWords sep text' words := by
  unfold joinWords
  congr 1
  apply List.map_congr_left
  intro word hWord
  exact List.flatMap_congr (hSame word hWord)

end Words

------------------------------------------------------------
-- Item by Item
------------------------------------------------------------

/- What was written, and whether a separator waits. -/
structure Spacing
    (β : Type) where
  out : List β
  pending : Bool
deriving DecidableEq, Repr

namespace Spacing

variable {α β : Type}

def empty : Spacing β :=
  ⟨[], false⟩

/- A blank at the beginning has no effect. -/
def add
    (sep : β)
    (blank : α → Bool)
    (text : α → List β)
    (s : Spacing β)
    (item : α) : Spacing β :=
  if blank item then ⟨s.out, s.pending || !s.out.isEmpty⟩
  else
    ⟨s.out ++ (if s.pending then [sep] else []) ++ text item,
      false⟩

variable {sep : β}
variable {blank : α → Bool}
variable {text : α → List β}

theorem joinWords_cons
    (word : List α)
    (words : List (List α)) :
    joinWords sep text (word :: words) =
      word.flatMap text ++
        words.flatMap fun w => sep :: w.flatMap text := by
  unfold joinWords
  rw [List.map_cons]
  generalize word.flatMap text = front
  induction words generalizing front with
  | nil => simp
  | cons next words ih =>
      rw [List.map_cons, List.intercalate_cons_cons, ih]
      simp

/- What is written behind something that was written. -/
theorem out_foldl_add_of_ne_nil
    (items : List α)
    {out : List β}
    (hOut : out ≠ []) :
    (items.foldl (add sep blank text) ⟨out, true⟩).out =
        out ++ (wordsOf blank items).flatMap
          (fun w => sep :: w.flatMap text) ∧
      ∀ part parts, items.splitOnP blank = part :: parts →
        (items.foldl (add sep blank text) ⟨out, false⟩).out =
          out ++ part.flatMap text ++
            (parts.filter fun w => !w.isEmpty).flatMap
              fun w => sep :: w.flatMap text := by
  induction items generalizing out with
  | nil =>
      refine ⟨by simp [wordsOf], fun part parts hSplit => ?_⟩
      rw [List.splitOnP_nil] at hSplit
      cases hSplit
      simp
  | cons item items ih =>
      have hKept : out.isEmpty = false := by
        simpa using hOut
      rcases hSplit : items.splitOnP blank with _ | ⟨w, ws⟩
      · exact absurd hSplit (List.splitOnP_ne_nil _ _)
      cases hBlank : blank item with
      | true =>
          have hStep :
              ∀ pending,
                add sep blank text ⟨out, pending⟩ item =
                  ⟨out, true⟩ := by
            simp [add, hBlank, hKept]
          have hHere := (ih hOut).1
          constructor
          · rw [List.foldl_cons, hStep, hHere]
            unfold wordsOf
            rw [List.splitOnP_cons_eq_if_modifyHead, hBlank,
              if_pos rfl]
            rfl
          · intro part parts hParts
            rw [List.splitOnP_cons_eq_if_modifyHead, hBlank,
              if_pos rfl] at hParts
            cases hParts
            rw [List.foldl_cons, hStep, hHere]
            simp [wordsOf]
      | false =>
          have hNext :
              ∀ front : List β,
                (items.foldl (add sep blank text)
                    ⟨out ++ front ++ text item, false⟩).out =
                  out ++ front ++ (item :: w).flatMap text ++
                    (ws.filter fun w => !w.isEmpty).flatMap
                      fun w => sep :: w.flatMap text := by
            intro front
            have hSome : out ++ front ++ text item ≠ [] := by
              simp [hOut]
            rw [(ih hSome).2 w ws hSplit]
            simp
          constructor
          · rw [List.foldl_cons, add, hBlank,
              if_neg Bool.false_ne_true, if_pos rfl, hNext]
            unfold wordsOf
            rw [List.splitOnP_cons_eq_if_modifyHead, hBlank,
              if_neg Bool.false_ne_true, hSplit]
            simp
          · intro part parts hParts
            rw [List.splitOnP_cons_eq_if_modifyHead, hBlank,
              if_neg Bool.false_ne_true, hSplit] at hParts
            cases hParts
            rw [List.foldl_cons, add, hBlank,
              if_neg Bool.false_ne_true,
              if_neg Bool.false_ne_true, hNext,
              List.append_nil]

/- Item by item, the words are written. -/
theorem out_foldl_add
    (hText : ∀ a, blank a = false → text a ≠ [])
    (items : List α) :
    (items.foldl (add sep blank text) empty).out =
      joinWords sep text (wordsOf blank items) := by
  induction items with
  | nil => simp [empty, wordsOf, joinWords]
  | cons item items ih =>
      rw [List.foldl_cons]
      cases hBlank : blank item with
      | true =>
          have hStep : add sep blank text empty item = empty := by
            simp [add, hBlank, empty]
          rw [hStep, ih]
          unfold wordsOf
          rw [List.splitOnP_cons_eq_if_modifyHead, hBlank,
            if_pos rfl]
          rfl
      | false =>
          have hStep :
              add sep blank text empty item =
                ⟨text item, false⟩ := by
            simp [add, hBlank, empty]
          rcases hSplit : items.splitOnP blank with _ | ⟨w, ws⟩
          · exact absurd hSplit (List.splitOnP_ne_nil _ _)
          rw [hStep, (out_foldl_add_of_ne_nil items
            (hText item hBlank)).2 w ws hSplit]
          unfold wordsOf
          rw [List.splitOnP_cons_eq_if_modifyHead, hBlank,
            if_neg Bool.false_ne_true, hSplit,
            List.modifyHead_cons, List.filter_cons_of_pos (by simp),
            joinWords_cons]
          rfl

end Spacing
