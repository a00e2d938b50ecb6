import Mathlib.Tactic

/-
  Objects that are opened by name.

  A lookup finds the object of a key, or there is none yet.
  Opening a key gives the object that is found or a new one,
  which is found from then on.

  Key definitions include:
    * `KeyOpening`, `OpensKey`
    * `Openings`, `OneObjectPerKey`

  Key theorems include:
    * `Openings.lookup_of_mem`
    * `Openings.oneObjectPerKey`
-/

------------------------------------------------------------
-- Lists
------------------------------------------------------------

section Lists

variable {α κ : Type} [DecidableEq κ]
variable {stored : α → κ}

/- A new object does not hide one that was found before. -/
theorem find?_cons_of_new
    {list : List α}
    {a b : α}
    {k : κ}
    (hNew : list.find? (fun c => stored c = stored a) = none)
    (hFind : list.find? (fun c => stored c = k) = some b) :
    (a :: list).find? (fun c => stored c = k) = some b := by
  by_cases hSame : stored a = k
  · rw [hSame, hFind] at hNew
    cases hNew
  · rw [List.find?_cons_of_neg (by simpa using hSame)]
    exact hFind

theorem findIdx?_append_of_found
    {list : List α}
    {i : Nat}
    {k : κ}
    (hFind : list.findIdx? (fun c => stored c = k) = some i)
    (a : α) :
    (list ++ [a]).findIdx? (fun c => stored c = k) =
      some i := by
  rw [List.findIdx?_append, hFind]
  rfl

end Lists

------------------------------------------------------------
-- Openings
------------------------------------------------------------

/- What was opened; a default object has no key. -/
structure KeyOpening
    (κ ω : Type) where
  key : Option κ
  object : ω
  created : Bool
deriving DecidableEq, Repr

section Registry

variable {σ κ ω : Type}
variable (lookup : σ → κ → Option ω)

/- One opening, and what it does to later lookups. -/
structure OpensKey
    (before : σ)
    (o : KeyOpening κ ω)
    (after : σ) : Prop where
  kept :
    ∀ k obj, lookup before k = some obj →
      lookup after k = some obj
  found :
    ∀ k, o.key = some k → lookup after k = some o.object
  fresh :
    o.created = true →
      ∃ k, o.key = some k ∧ lookup before k = none

/- One opening after another. -/
inductive Openings : σ → List (KeyOpening κ ω) → σ → Prop
| nil
    (s : σ) :
    Openings s [] s
| cons
    {s mid s' : σ}
    {o : KeyOpening κ ω}
    {os : List (KeyOpening κ ω)}
    (hOpen : OpensKey lookup s o mid)
    (hRest : Openings mid os s') :
    Openings s (o :: os) s'

/- The keys for which an object was created. -/
def createdKeys
    (os : List (KeyOpening κ ω)) : List κ :=
  (os.filter KeyOpening.created).filterMap KeyOpening.key

/-
  The same key is always the same object, and at most one is
  created for it, none for a key that was known before.
-/
structure OneObjectPerKey
    (known : κ → Prop)
    (os : List (KeyOpening κ ω)) : Prop where
  same :
    ∀ a ∈ os, ∀ b ∈ os, ∀ k, a.key = some k →
      b.key = some k → a.object = b.object
  once : (createdKeys os).Nodup
  fresh : ∀ k ∈ createdKeys os, ¬ known k

variable {lookup}

theorem Openings.kept
    {s s' : σ}
    {os : List (KeyOpening κ ω)}
    (hRun : Openings lookup s os s')
    {k : κ}
    {obj : ω}
    (hBefore : lookup s k = some obj) :
    lookup s' k = some obj := by
  induction hRun with
  | nil s => exact hBefore
  | cons hOpen hRest ih => exact ih (hOpen.kept k obj hBefore)

/- At the end, every object that was opened is found. -/
theorem Openings.lookup_of_mem
    {s s' : σ}
    {os : List (KeyOpening κ ω)}
    (hRun : Openings lookup s os s')
    {o : KeyOpening κ ω}
    (hMem : o ∈ os)
    {k : κ}
    (hKey : o.key = some k) :
    lookup s' k = some o.object := by
  induction hRun with
  | nil s => cases hMem
  | cons hOpen hRest ih =>
      rcases List.mem_cons.mp hMem with rfl | hMem
      · exact hRest.kept (hOpen.found k hKey)
      · exact ih hMem

/- No object is created for a key that is found already. -/
theorem Openings.not_mem_createdKeys
    {s s' : σ}
    {os : List (KeyOpening κ ω)}
    (hRun : Openings lookup s os s')
    {k : κ}
    {obj : ω}
    (hBefore : lookup s k = some obj) :
    k ∉ createdKeys os := by
  induction hRun with
  | nil s => exact List.not_mem_nil
  | @cons s mid s' o os hOpen hRest ih =>
      have hLater := ih (hOpen.kept k obj hBefore)
      unfold createdKeys at hLater ⊢
      cases hCreated : o.created with
      | false =>
          rw [List.filter_cons_of_neg (by simp [hCreated])]
          exact hLater
      | true =>
          rcases hOpen.fresh hCreated with ⟨k', hKey, hNone⟩
          rw [List.filter_cons_of_pos hCreated,
            List.filterMap_cons_some hKey, List.mem_cons]
          rintro (rfl | hMem)
          · rw [hNone] at hBefore
            cases hBefore
          · exact hLater hMem

theorem Openings.nodup_createdKeys
    {s s' : σ}
    {os : List (KeyOpening κ ω)}
    (hRun : Openings lookup s os s') :
    (createdKeys os).Nodup := by
  induction hRun with
  | nil s => exact List.nodup_nil
  | @cons s mid s' o os hOpen hRest ih =>
      cases hCreated : o.created with
      | false =>
          rw [createdKeys,
            List.filter_cons_of_neg (by simp [hCreated])]
          exact ih
      | true =>
          rcases hOpen.fresh hCreated with ⟨k, hKey, -⟩
          rw [createdKeys, List.filter_cons_of_pos hCreated,
            List.filterMap_cons_some hKey, List.nodup_cons]
          exact ⟨hRest.not_mem_createdKeys (hOpen.found k hKey),
            ih⟩

theorem Openings.oneObjectPerKey
    {s s' : σ}
    {os : List (KeyOpening κ ω)}
    (hRun : Openings lookup s os s') :
    OneObjectPerKey (fun k => (lookup s k).isSome) os := by
  refine ⟨?_, hRun.nodup_createdKeys, ?_⟩
  · intro a ha b hb k hKey hKey'
    have hFirst := hRun.lookup_of_mem ha hKey
    have hSecond := hRun.lookup_of_mem hb hKey'
    rw [hFirst] at hSecond
    exact Option.some.inj hSecond
  · intro k hMem hKnown
    rcases Option.isSome_iff_exists.mp hKnown with
      ⟨obj, hBefore⟩
    exact hRun.not_mem_createdKeys hBefore hMem

end Registry
