import Mathlib.Tactic

/-
  Handles and their owners.

  A table gives the owner of every handle that is in use.  An
  owner that lists its handles knows all of them, each once.

  Key definitions include:
    * `Owners`, `Owners.take`, `Owners.drop`
    * `Owners.Lists`

  Key theorems include:
    * `Owners.Lists.take`, `Owners.Lists.drop`
    * `Owners.Lists.take_other`, `Owners.Lists.drop_other`
-/

/- Who owns a handle; nobody when it is free. -/
abbrev Owners
    (α ω : Type) := α → Option ω

namespace Owners

variable {α ω : Type} [DecidableEq α]

------------------------------------------------------------
-- Changes of Ownership
------------------------------------------------------------

/- A handle gets an owner. -/
def take
    (owner : Owners α ω)
    (a : α)
    (o : ω) : Owners α ω :=
  Function.update owner a (some o)

/- A handle becomes free. -/
def drop
    (owner : Owners α ω)
    (a : α) : Owners α ω :=
  Function.update owner a none

@[simp] theorem take_self
    (owner : Owners α ω)
    (a : α)
    (o : ω) :
    owner.take a o a = some o :=
  Function.update_self ..

@[simp] theorem drop_self
    (owner : Owners α ω)
    (a : α) :
    owner.drop a a = none :=
  Function.update_self ..

theorem take_of_ne
    {a b : α}
    (hNe : b ≠ a)
    (owner : Owners α ω)
    (o : ω) :
    owner.take a o b = owner b :=
  Function.update_of_ne hNe ..

theorem drop_of_ne
    {a b : α}
    (hNe : b ≠ a)
    (owner : Owners α ω) :
    owner.drop a b = owner b :=
  Function.update_of_ne hNe ..

------------------------------------------------------------
-- Lists of Handles
------------------------------------------------------------

/- The handles of an owner, each once. -/
structure Lists
    (owner : Owners α ω)
    (o : ω)
    (handles : List α) : Prop where
  nodup : handles.Nodup
  owns : ∀ a, owner a = some o ↔ a ∈ handles

namespace Lists

variable {owner : Owners α ω}
variable {o o' : ω}
variable {a : α}
variable {handles handles' : List α}

omit [DecidableEq α] in
/- The order does not matter. -/
theorem perm
    (hLists : owner.Lists o handles)
    (hPerm : handles.Perm handles') :
    owner.Lists o handles' where
  nodup := hPerm.nodup_iff.mp hLists.nodup
  owns := fun b => (hLists.owns b).trans hPerm.mem_iff

omit [DecidableEq α] in
theorem owned
    (hLists : owner.Lists o handles)
    (hMem : a ∈ handles) :
    owner a = some o :=
  (hLists.owns a).mpr hMem

/- A free handle is added. -/
theorem take
    (hLists : owner.Lists o handles)
    (hFree : owner a = none) :
    (owner.take a o).Lists o (a :: handles) where
  nodup := by
    refine List.nodup_cons.mpr ⟨fun hMem => ?_, hLists.nodup⟩
    rw [hLists.owned hMem] at hFree
    contradiction
  owns := by
    intro b
    by_cases hSame : b = a
    · simp [hSame]
    · rw [take_of_ne hSame, hLists.owns, List.mem_cons]
      exact (or_iff_right hSame).symm

/- A free handle goes to somebody else. -/
theorem take_other
    (hLists : owner.Lists o handles)
    (hFree : owner a = none)
    (hOther : o' ≠ o) :
    (owner.take a o').Lists o handles where
  nodup := hLists.nodup
  owns := by
    intro b
    by_cases hSame : b = a
    · subst hSame
      rw [take_self, ← hLists.owns, hFree]
      simp [hOther]
    · rw [take_of_ne hSame, hLists.owns]

/- A handle is given up. -/
theorem drop
    (hLists : owner.Lists o (a :: handles)) :
    (owner.drop a).Lists o handles where
  nodup := hLists.nodup.of_cons
  owns := by
    intro b
    by_cases hSame : b = a
    · subst hSame
      simpa using (List.nodup_cons.mp hLists.nodup).1
    · rw [drop_of_ne hSame, hLists.owns, List.mem_cons]
      exact or_iff_right hSame

/- A handle of somebody else is given up. -/
theorem drop_other
    (hLists : owner.Lists o handles)
    (hOwned : owner a = some o')
    (hOther : o' ≠ o) :
    (owner.drop a).Lists o handles where
  nodup := hLists.nodup
  owns := by
    intro b
    by_cases hSame : b = a
    · subst hSame
      rw [drop_self, ← hLists.owns, hOwned]
      simp [hOther]
    · rw [drop_of_ne hSame, hLists.owns]

end Lists

end Owners
