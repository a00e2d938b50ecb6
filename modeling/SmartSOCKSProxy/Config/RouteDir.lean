import SmartSOCKSProxy.Config.ConfigFile
import SmartSOCKSProxy.Foundations.IncludeStack
import SmartSOCKSProxy.Foundations.SlotSort

/-
  The files of a `routeDir` entry.

  The names of a directory are copied to an array, sorted by
  selection into a second one, and loaded from there.  Both
  arrays are modelled with the indices that are touched, as if
  they had no end.

  Key definitions include:
    * `DirEntry.Valid`, `fileNames`
    * `DirLists`, `readEntries`, `selectStep`
    * `loadCalls`, `routeDirRun`
    * `LoadsInOrder`

  Key theorems include:
    * `selectNames_ascending`
    * `routeDirRun_result`
    * `routeDirRun_loadsInOrder_iff`
-/

namespace SmartSOCKSProxy

------------------------------------------------------------
-- Reading a Directory
------------------------------------------------------------

/- The size of a name of the arrays. -/
abbrev fileListNameLen : Nat := 4096

/-
  What readdir() gives: the name is a string that is not
  empty and fits d_name.
-/
structure DirEntry.Valid
    (entry : DirEntry) : Prop where
  some : entry.name ≠ []
  noNul : (0 : UInt8) ∉ entry.name
  fits : entry.name.length < 256

/- The regular files and links. -/
def fileNames
    (entries : List DirEntry) : List Text :=
  (entries.filter DirEntry.isFileOrLink).map DirEntry.name

/-
  `file_list_raw` and `file_list_sorted`, and the indices of
  them that were touched; -1 is none.
-/
structure DirLists where
  raw : Nat → Text
  sorted : Nat → Text
  touched : List (Option Nat)

def DirLists.touch
    (lists : DirLists)
    (indices : List (Option Nat)) : DirLists :=
  { lists with touched := lists.touched ++ indices }

/- The loop over the entries, with the value of `index`. -/
def readEntries :
    List DirEntry → Nat → DirLists → Nat × DirLists
  | [], index, lists => (index, lists)
  | entry :: entries, index, lists =>
      if entry.isFileOrLink then
        let name : CBuf fileListNameLen := CBuf.copy entry.name
        readEntries entries (index + 1)
          ({ lists with
              raw :=
                Function.update lists.raw index
                  name.text }.touch [index, index])
      else readEntries entries index lists

/- All of the indices that are in use. -/
def allIndices
    (index : Nat) : List (Option Nat) :=
  (List.range index).map some

------------------------------------------------------------
-- Sorting the Names
------------------------------------------------------------

/- The indices that the search for the lowest touches. -/
def searchTouches
    (raw : Nat → Text)
    (index : Nat) : List (Option Nat) :=
  (List.range index).flatMap fun jj =>
    some jj ::
      if raw jj = [] then []
      else (lowestSlot [] raw jj).toList.map some

/-
  One round of the sort.  The lowest name that is left goes to
  the next place, and it is emptied.
-/
def selectStep
    (index : Nat)
    (lists : DirLists)
    (ii : Nat) : DirLists :=
  let lowest := lowestSlot [] lists.raw index
  { raw := clearSlot [] lists.raw lowest
    sorted :=
      Function.update lists.sorted ii
        (lowest.elim [] lists.raw)
    touched :=
      lists.touched ++ searchTouches lists.raw index ++
        [lowest, some ii, lowest] }

def selectNames
    (index : Nat)
    (lists : DirLists) : DirLists :=
  (List.range index).foldl (selectStep index) lists

------------------------------------------------------------
-- Loading the Files
------------------------------------------------------------

/- The path of a file of a directory. -/
def pathIn
    (dir name : Text) : Text :=
  dir ++ [47] ++ name

/- `full_filename` -/
def fullFilename
    (dir name : Text) : Text :=
  (CBuf.copy (pathIn dir name) : CBuf 4096).text

/- The calls for some files, until one is refused. -/
def loadCalls
    (parse : Text → RuleLoad → LoadResult)
    (path : Text → Text) :
    List Text → RuleLoad → List Text × LoadResult
  | [], load => ([], .returned true load)
  | name :: names, load =>
      match parse (path name) load with
      | .returned true load' =>
          let more := loadCalls parse path names load'
          (path name :: more.1, more.2)
      | .returned false load' =>
          ([path name], .returned false load')
      | .crash => ([path name], .crash)

/- What a `routeDir` entry does with its directory. -/
structure RouteDirRun where
  touched : List (Option Nat)
  calls : List Text
  result : LoadResult

/-
  The `routeDir` entry for a directory that can be opened.
  The arrays hold anything when it begins, and both are traced
  before they are used.
-/
def routeDirRun
    (parse : Text → RuleLoad → LoadResult)
    (dir : Text)
    (entries : List DirEntry)
    (raw sorted : Nat → Text)
    (load : RuleLoad) : RouteDirRun :=
  let (index, read) := readEntries entries 0 ⟨raw, sorted, []⟩
  let lists := selectNames index (read.touch (allIndices index))
  let loaded :=
    loadCalls parse (fullFilename dir)
      (namesBelow lists.sorted index) load
  { touched :=
      lists.touched ++ allIndices index ++
        allIndices loaded.1.length
    calls := loaded.1
    result := loaded.2 }

/-
  Only places of the arrays are touched.  The files are loaded
  in ascending order, each of them once; or up to one that is
  refused, with which the entry is refused.
-/
structure LoadsInOrder
    (parse : Text → RuleLoad → LoadResult)
    (dir : Text)
    (entries : List DirEntry)
    (run : RouteDirRun) : Prop where
  inside :
    ∀ i ∈ run.touched,
      ∃ n < routeRuleDirMaxFiles, i = some n
  order :
    run.calls <+:
      (ascending (fileNames entries)).map (pathIn dir)
  all :
    ∀ load', run.result = .returned true load' →
      run.calls =
        (ascending (fileNames entries)).map (pathIn dir)
  refused :
    (∀ load', run.result ≠ .returned true load') →
      ∃ front path load', run.calls = front ++ [path] ∧
        parse path load' = run.result

------------------------------------------------------------
-- The Names
------------------------------------------------------------

theorem byteOrder :
    IsStrictTotalOrder UInt8 (· < ·) where
  trichotomous _ _ hLess hGreater :=
    UInt8.le_antisymm (UInt8.not_lt.mp hGreater)
      (UInt8.not_lt.mp hLess)
  irrefl a := UInt8.lt_irrefl a
  trans _ _ _ := UInt8.lt_trans

/- The order of strcmp(). -/
theorem textOrder :
    IsStrictTotalOrder Text (· < ·) := by
  have hByte := byteOrder
  have hTri : @Std.Trichotomous Text (· < ·) :=
    List.Lex.trichotomous _
  have hIrrefl : @Std.Irrefl Text (· < ·) := inferInstance
  have hTrans : IsTrans Text (· < ·) :=
    ⟨fun _ _ _ => List.lt_trans⟩
  exact {}

/- Names of a directory are copied whole. -/
theorem routeDirNames_eq
    {entries : List DirEntry}
    (hEntries : ∀ entry ∈ entries, entry.Valid) :
    routeDirNames entries = fileNames entries := by
  apply List.map_congr_left
  intro entry hMem
  have hValid := hEntries entry (List.mem_filter.mp hMem).1
  have hFits := hValid.fits
  exact CBuf.text_copy_of_fits hValid.noNul (by omega)

theorem ne_nil_of_mem_fileNames
    {entries : List DirEntry}
    (hEntries : ∀ entry ∈ entries, entry.Valid)
    {name : Text}
    (hName : name ∈ fileNames entries) :
    name ≠ [] ∧ (0 : UInt8) ∉ name := by
  rcases List.mem_map.mp hName with ⟨entry, hMem, rfl⟩
  have hValid := hEntries entry (List.mem_filter.mp hMem).1
  exact ⟨hValid.some, hValid.noNul⟩

theorem routeDirNames_cons
    (entry : DirEntry)
    (entries : List DirEntry) :
    routeDirNames (entry :: entries) =
      if entry.isFileOrLink then
        (CBuf.copy entry.name : CBuf fileListNameLen).text ::
          routeDirNames entries
      else routeDirNames entries := by
  unfold routeDirNames
  cases hKind : entry.isFileOrLink with
  | true => simp [hKind]
  | false => simp [hKind]

/- Indices that are touched between two values of `index`. -/
structure ReadsNames
    (entries : List DirEntry)
    (index : Nat)
    (before : DirLists)
    (index' : Nat)
    (after : DirLists) : Prop where
  count : index' = index + (routeDirNames entries).length
  names :
    namesBelow after.raw index' =
      namesBelow before.raw index ++ routeDirNames entries
  touched :
    ∀ i, i ∈ after.touched ↔
      i ∈ before.touched ∨
        ∃ n, index ≤ n ∧ n < index' ∧ i = some n

theorem readEntries_spec
    (entries : List DirEntry)
    (index : Nat)
    (lists : DirLists) :
    ReadsNames entries index lists
      (readEntries entries index lists).1
      (readEntries entries index lists).2 := by
  induction entries generalizing index lists with
  | nil =>
      refine ⟨rfl, by simp [readEntries, routeDirNames], ?_⟩
      intro i
      simp only [readEntries]
      constructor
      · exact Or.inl
      · rintro (hBefore | ⟨n, hLe, hLt, -⟩)
        · exact hBefore
        · omega
  | cons entry entries ih =>
      have hNames := routeDirNames_cons entry entries
      unfold readEntries
      by_cases hKind : entry.isFileOrLink = true
      · rw [if_pos hKind] at hNames ⊢
        have hRest := ih (index + 1)
          ({ lists with
              raw :=
                Function.update lists.raw index
                  (CBuf.copy entry.name :
                    CBuf fileListNameLen).text }.touch
            [index, index])
        rcases hRun : readEntries entries (index + 1)
          ({ lists with
              raw :=
                Function.update lists.raw index
                  (CBuf.copy entry.name :
                    CBuf fileListNameLen).text }.touch
            [index, index]) with ⟨index', after⟩
        rw [hRun] at hRest
        simp only [hRun]
        have hCount : index' = _ := hRest.count
        refine ⟨?_, ?_, ?_⟩
        · rw [hCount, hNames, List.length_cons]
          omega
        · rw [hRest.names, hNames]
          simp only [DirLists.touch]
          rw [namesBelow_update, List.append_assoc,
            List.singleton_append]
        · intro i
          rw [hRest.touched]
          simp only [DirLists.touch, List.mem_append,
            List.mem_cons, List.not_mem_nil, or_false,
            or_self]
          constructor
          · rintro ((hBefore | rfl) | ⟨n, hLe, hLt, rfl⟩)
            · exact Or.inl hBefore
            · exact Or.inr ⟨index, le_refl _, by omega, rfl⟩
            · exact Or.inr ⟨n, by omega, hLt, rfl⟩
          · rintro (hBefore | ⟨n, hLe, hLt, rfl⟩)
            · exact Or.inl (Or.inl hBefore)
            · by_cases hHere : n = index
              · exact Or.inl (Or.inr (by rw [hHere]))
              · exact Or.inr ⟨n, by omega, hLt, rfl⟩
      · rw [if_neg hKind] at hNames ⊢
        rcases ih index lists with ⟨hCount, hRaw, hTouched⟩
        rw [← hNames] at hCount hRaw
        exact ⟨hCount, hRaw, hTouched⟩

------------------------------------------------------------
-- The Sort
------------------------------------------------------------

theorem searchTouches_lt
    (raw : Nat → Text)
    (index : Nat) :
    ∀ i ∈ searchTouches raw index, ∃ n < index, i = some n := by
  have hOrder := textOrder
  intro i hi
  rcases List.mem_flatMap.mp hi with ⟨jj, hjj, hMem⟩
  have hLt := List.mem_range.mp hjj
  rcases List.mem_cons.mp hMem with rfl | hMem
  · exact ⟨jj, hLt, rfl⟩
  · split_ifs at hMem
    · cases hMem
    · rcases List.mem_map.mp hMem with ⟨l, hLowest, rfl⟩
      have hSome := Option.mem_toList.mp hLowest
      have hSpec := lowestSlot_spec [] raw hSome
      exact ⟨l, by omega, rfl⟩

/- After some rounds, that many names are in their places. -/
structure Selected
    (index : Nat)
    (names : List Text)
    (before : DirLists)
    (ii : Nat)
    (after : DirLists) : Prop where
  selecting :
    Selecting [] after.raw index names
      (namesBelow after.sorted ii)
  touched :
    ∀ i ∈ after.touched,
      i ∈ before.touched ∨ ∃ n < index, i = some n
  kept : ∀ i ∈ before.touched, i ∈ after.touched

theorem length_namesBelow
    {α : Type}
    (slots : Nat → α)
    (count : Nat) :
    (namesBelow slots count).length = count := by
  simp [namesBelow]

theorem selectStep_selected
    {index : Nat}
    {names : List Text}
    (hCount : names.length = index)
    {before after : DirLists}
    {ii : Nat}
    (hRoom : ii < index)
    (hSelected : Selected index names before ii after) :
    Selected index names before (ii + 1)
      (selectStep index after ii) := by
  have hOrder := textOrder
  have hMissing :
      (namesBelow after.sorted ii).length < names.length := by
    rw [length_namesBelow, hCount]
    exact hRoom
  rcases hSelected.selecting.exists_lowest hMissing with
    ⟨l, hLt, hLowest⟩
  have hStep := hSelected.selecting.step hLowest
  unfold selectStep
  rw [hLowest]
  refine ⟨?_, ?_, ?_⟩
  · rw [namesBelow_update]
    exact hStep
  · intro i hi
    rcases List.mem_append.mp hi with hi | hi
    · rcases List.mem_append.mp hi with hi | hi
      · exact hSelected.touched i hi
      · exact Or.inr (searchTouches_lt _ _ i hi)
    · simp only [List.mem_cons, List.not_mem_nil,
        or_false] at hi
      rcases hi with rfl | rfl | rfl
      · exact Or.inr ⟨l, hLt, rfl⟩
      · exact Or.inr ⟨ii, hRoom, rfl⟩
      · exact Or.inr ⟨l, hLt, rfl⟩
  · intro i hi
    exact List.mem_append_left _
      (List.mem_append_left _ (hSelected.kept i hi))

theorem selectRounds_selected
    {index : Nat}
    {names : List Text}
    (hNames : ∀ name ∈ names, name ≠ [])
    {lists : DirLists}
    (hRaw : namesBelow lists.raw index = names)
    {ii : Nat}
    (hRoom : ii ≤ index) :
    Selected index names lists ii
      ((List.range ii).foldl (selectStep index) lists) := by
  have hCount : names.length = index := by
    rw [← hRaw, length_namesBelow]
  induction ii with
  | zero =>
      have hAll :
          slotContents [] lists.raw index = names := by
        rw [slotContents, ← namesBelow, hRaw]
        exact List.filter_eq_self.mpr (by simpa using hNames)
      refine ⟨⟨?_, ?_, ?_⟩, fun i hi => .inl hi,
        fun i hi => hi⟩
      · simp [namesBelow, hAll]
      · simp [namesBelow]
      · simp [namesBelow]
  | succ ii ih =>
      rw [List.range_succ, List.foldl_append]
      exact selectStep_selected hCount hRoom (ih (by omega))

/- All rounds put the names in ascending order. -/
theorem selectNames_ascending
    {index : Nat}
    {names : List Text}
    (hNames : ∀ name ∈ names, name ≠ [])
    {lists : DirLists}
    (hRaw : namesBelow lists.raw index = names) :
    namesBelow (selectNames index lists).sorted index =
      ascending names := by
  have hOrder := textOrder
  have hSelected :=
    selectRounds_selected hNames hRaw (le_refl index)
  apply hSelected.selecting.finish
  rw [length_namesBelow, ← hRaw, length_namesBelow]

------------------------------------------------------------
-- The Calls
------------------------------------------------------------

section Calls

variable {parse : Text → RuleLoad → LoadResult}
variable {path : Text → Text}

theorem loadCalls_cons_of_accepted
    {name : Text}
    {load load' : RuleLoad}
    (hParse : parse (path name) load = .returned true load')
    (names : List Text) :
    loadCalls parse path (name :: names) load =
      (path name :: (loadCalls parse path names load').1,
        (loadCalls parse path names load').2) := by
  simp only [loadCalls, hParse]

theorem loadCalls_cons_of_refused
    {name : Text}
    {load : RuleLoad}
    (hParse :
      ∀ load', parse (path name) load ≠ .returned true load')
    (names : List Text) :
    loadCalls parse path (name :: names) load =
      ([path name], parse (path name) load) := by
  cases hResult : parse (path name) load with
  | crash => simp only [loadCalls, hResult]
  | returned okay load' =>
      cases okay with
      | false => simp only [loadCalls, hResult]
      | true => exact absurd hResult (hParse load')

/- A file is refused or accepted. -/
theorem accepted_or_refused
    (result : LoadResult) :
    (∃ load', result = .returned true load') ∨
      ∀ load', result ≠ .returned true load' := by
  by_cases hAccepted : ∃ load', result = .returned true load'
  · exact Or.inl hAccepted
  · exact Or.inr (not_exists.mp hAccepted)

theorem loadCalls_in_order
    (parse : Text → RuleLoad → LoadResult)
    (path : Text → Text)
    (names : List Text)
    (load : RuleLoad) :
    (loadCalls parse path names load).1 <+: names.map path := by
  induction names generalizing load with
  | nil => exact List.prefix_refl _
  | cons name names ih =>
      rw [List.map_cons]
      rcases accepted_or_refused (parse (path name) load) with
        ⟨load', hParse⟩ | hParse
      · rw [loadCalls_cons_of_accepted hParse]
        exact (List.prefix_cons_inj _).mpr (ih load')
      · rw [loadCalls_cons_of_refused hParse]
        exact (List.prefix_cons_inj _).mpr List.nil_prefix

theorem loadCalls_all
    {names : List Text}
    {load load' : RuleLoad}
    (hResult :
      (loadCalls parse path names load).2 =
        .returned true load') :
    (loadCalls parse path names load).1 = names.map path := by
  induction names generalizing load with
  | nil => rfl
  | cons name names ih =>
      rcases accepted_or_refused (parse (path name) load) with
        ⟨next, hParse⟩ | hParse
      · rw [loadCalls_cons_of_accepted hParse] at hResult ⊢
        rw [List.map_cons, ih hResult]
      · rw [loadCalls_cons_of_refused hParse] at hResult
        exact absurd hResult (hParse load')

theorem loadCalls_refused
    {names : List Text}
    {load : RuleLoad}
    (hResult :
      ∀ load', (loadCalls parse path names load).2 ≠
        .returned true load') :
    ∃ front last load',
      (loadCalls parse path names load).1 = front ++ [last] ∧
        parse last load' =
          (loadCalls parse path names load).2 := by
  induction names generalizing load with
  | nil => exact absurd rfl (hResult load)
  | cons name names ih =>
      rcases accepted_or_refused (parse (path name) load) with
        ⟨next, hParse⟩ | hParse
      · rw [loadCalls_cons_of_accepted hParse] at hResult ⊢
        rcases ih hResult with ⟨front, last, load', hCalls, hLast⟩
        exact ⟨path name :: front, last, load',
          by rw [hCalls]; rfl, hLast⟩
      · rw [loadCalls_cons_of_refused hParse]
        exact ⟨[], path name, load, rfl, rfl⟩

end Calls

/- A path that fits is the path of the file. -/
theorem fullFilename_eq_iff
    {dir name : Text}
    (hDir : (0 : UInt8) ∉ dir)
    (hName : (0 : UInt8) ∉ name) :
    fullFilename dir name = pathIn dir name ↔
      (pathIn dir name).length < 4096 := by
  have hPath : (0 : UInt8) ∉ pathIn dir name := by
    simp [pathIn, hDir, hName]
  constructor
  · intro hSame
    have hFits :=
      (CBuf.copy (pathIn dir name) : CBuf 4096).fits
    rw [fullFilename] at hSame
    rw [hSame] at hFits
    omega
  · intro hShort
    exact CBuf.text_copy_of_fits hPath (by omega)

section Paths

variable {parse : Text → RuleLoad → LoadResult}
variable {dir : Text}
variable {names : List Text}

/- The path of a file that is reached fits. -/
def PathsFit
    (parse : Text → RuleLoad → LoadResult)
    (dir : Text)
    (names : List Text)
    (load : RuleLoad) : Prop :=
  ∀ path ∈ (loadCalls parse (pathIn dir) names load).1,
    path.length < 4096

theorem loadCalls_fullFilename
    (hDir : (0 : UInt8) ∉ dir)
    (hNames : ∀ name ∈ names, (0 : UInt8) ∉ name)
    {load : RuleLoad}
    (hFits : PathsFit parse dir names load) :
    loadCalls parse (fullFilename dir) names load =
      loadCalls parse (pathIn dir) names load := by
  induction names generalizing load with
  | nil => rfl
  | cons name names ih =>
      have hName := hNames name List.mem_cons_self
      have hRest : ∀ name' ∈ names, (0 : UInt8) ∉ name' :=
        fun name' hMem => hNames name'
          (List.mem_cons_of_mem _ hMem)
      unfold PathsFit at hFits
      rcases accepted_or_refused
          (parse (pathIn dir name) load) with
        ⟨load', hParse⟩ | hParse
      · rw [loadCalls_cons_of_accepted hParse,
          List.forall_mem_cons] at hFits
        have hSame :=
          (fullFilename_eq_iff hDir hName).mpr hFits.1
        rw [loadCalls_cons_of_accepted hParse,
          loadCalls_cons_of_accepted (hSame ▸ hParse), hSame,
          ih hRest hFits.2]
      · rw [loadCalls_cons_of_refused hParse,
          List.forall_mem_cons] at hFits
        have hSame :=
          (fullFilename_eq_iff hDir hName).mpr hFits.1
        rw [loadCalls_cons_of_refused hParse,
          loadCalls_cons_of_refused (hSame ▸ hParse), hSame]

theorem pathsFit_of_in_order
    (hDir : (0 : UInt8) ∉ dir)
    (hNames : ∀ name ∈ names, (0 : UInt8) ∉ name)
    {load : RuleLoad}
    (hOrder :
      (loadCalls parse (fullFilename dir) names load).1 <+:
        names.map (pathIn dir)) :
    PathsFit parse dir names load := by
  induction names generalizing load with
  | nil => simp [PathsFit, loadCalls]
  | cons name names ih =>
      have hName := hNames name List.mem_cons_self
      have hRest : ∀ name' ∈ names, (0 : UInt8) ∉ name' :=
        fun name' hMem => hNames name'
          (List.mem_cons_of_mem _ hMem)
      rw [List.map_cons] at hOrder
      unfold PathsFit
      rcases accepted_or_refused
          (parse (fullFilename dir name) load) with
        ⟨load', hParse⟩ | hParse
      · rw [loadCalls_cons_of_accepted hParse,
          List.cons_prefix_cons] at hOrder
        have hShort :=
          (fullFilename_eq_iff hDir hName).mp hOrder.1
        rw [loadCalls_cons_of_accepted (hOrder.1 ▸ hParse),
          List.forall_mem_cons]
        exact ⟨hShort, ih hRest hOrder.2⟩
      · rw [loadCalls_cons_of_refused hParse,
          List.cons_prefix_cons] at hOrder
        have hShort :=
          (fullFilename_eq_iff hDir hName).mp hOrder.1
        rw [loadCalls_cons_of_refused (hOrder.1 ▸ hParse),
          List.forall_mem_cons]
        exact ⟨hShort, by simp⟩

end Paths

------------------------------------------------------------
-- The Entry
------------------------------------------------------------

section Entry

variable {entries : List DirEntry}

/-
  The places that are used are touched and no others, and the
  calls are those for the names in ascending order.
-/
structure RunsOver
    (parse : Text → RuleLoad → LoadResult)
    (dir : Text)
    (names : List Text)
    (load : RuleLoad)
    (run : RouteDirRun) : Prop where
  below :
    ∀ i ∈ run.touched, ∃ n < names.length, i = some n
  above : ∀ n < names.length, some n ∈ run.touched
  calls :
    (run.calls, run.result) =
      loadCalls parse (fullFilename dir) (ascending names) load

theorem mem_allIndices
    {index : Nat}
    {i : Option Nat} :
    i ∈ allIndices index ↔ ∃ n < index, i = some n := by
  simp [allIndices, eq_comm]

theorem routeDirRun_runsOver
    (parse : Text → RuleLoad → LoadResult)
    (dir : Text)
    (hEntries : ∀ entry ∈ entries, entry.Valid)
    (raw sorted : Nat → Text)
    (load : RuleLoad) :
    RunsOver parse dir (fileNames entries) load
      (routeDirRun parse dir entries raw sorted load) := by
  have hNames : ∀ name ∈ fileNames entries, name ≠ [] :=
    fun name hMem => (ne_nil_of_mem_fileNames hEntries hMem).1
  rcases hRun : readEntries entries 0 ⟨raw, sorted, []⟩ with
    ⟨index, read⟩
  have hRead := readEntries_spec entries 0 ⟨raw, sorted, []⟩
  rw [hRun] at hRead
  rcases hRead with ⟨hCount, hRaw, hTouched⟩
  rw [routeDirNames_eq hEntries] at hCount hRaw
  simp only [Nat.zero_add] at hCount
  simp only [namesBelow, List.range_zero, List.map_nil,
    List.nil_append] at hRaw
  rw [← namesBelow] at hRaw
  have hTouch :
      namesBelow (read.touch (allIndices index)).raw index =
        fileNames entries := hRaw
  have hSelected :=
    selectRounds_selected hNames hTouch (le_refl index)
  have hSorted := selectNames_ascending hNames hTouch
  have hCalls :=
    (loadCalls_in_order parse (fullFilename dir)
      (ascending (fileNames entries)) load).length_le
  rw [List.length_map, (ascending_perm _).length_eq,
    ← hCount] at hCalls
  simp only [routeDirRun, hRun]
  rw [hSorted]
  refine ⟨?_, ?_, rfl⟩
  · rw [← hCount]
    intro i hi
    simp only [List.mem_append, mem_allIndices] at hi
    rcases hi with (hi | hi) | ⟨n, hn, rfl⟩
    · rcases hSelected.touched i hi with hi | hi
      · simp only [DirLists.touch, List.mem_append,
          mem_allIndices, hTouched] at hi
        rcases hi with (hi | ⟨n, -, hn, rfl⟩) | hi
        · cases hi
        · exact ⟨n, hn, rfl⟩
        · exact hi
      · exact hi
    · exact hi
    · exact ⟨n, by omega, rfl⟩
  · rw [← hCount]
    intro n hn
    simp only [List.mem_append, mem_allIndices]
    exact Or.inl (Or.inr ⟨n, hn, rfl⟩)

/- The names fit the arrays exactly when it is not overrun. -/
theorem RunsOver.inside_iff
    {parse : Text → RuleLoad → LoadResult}
    {dir : Text}
    {names : List Text}
    {load : RuleLoad}
    {run : RouteDirRun}
    (hRun : RunsOver parse dir names load run) :
    (∀ i ∈ run.touched,
        ∃ n < routeRuleDirMaxFiles, i = some n) ↔
      names.length ≤ routeRuleDirMaxFiles := by
  constructor
  · intro hInside
    by_contra hMany
    rcases hInside _
        (hRun.above routeRuleDirMaxFiles (by omega)) with
      ⟨n, hn, hSame⟩
    cases hSame
    exact absurd hn (Nat.lt_irrefl _)
  · intro hFew i hi
    rcases hRun.below i hi with ⟨n, hn, rfl⟩
    exact ⟨n, by omega, rfl⟩

/-
  The files are loaded in order within the arrays exactly when
  there is a place for each of them and the paths of those
  that are reached fit their buffer.
-/
theorem routeDirRun_loadsInOrder_iff
    (parse : Text → RuleLoad → LoadResult)
    (dir : CBuf stringBufLen)
    (hEntries : ∀ entry ∈ entries, entry.Valid)
    (raw sorted : Nat → Text)
    (load : RuleLoad) :
    LoadsInOrder parse dir.text entries
        (routeDirRun parse dir.text entries raw sorted load) ↔
      (fileNames entries).length ≤ routeRuleDirMaxFiles ∧
        PathsFit parse dir.text (ascending (fileNames entries))
          load := by
  have hRun := routeDirRun_runsOver parse dir.text hEntries raw
    sorted load
  have hNames :
      ∀ name ∈ ascending (fileNames entries),
        (0 : UInt8) ∉ name := fun name hMem =>
    (ne_nil_of_mem_fileNames hEntries
      ((ascending_perm _).subset hMem)).2
  have hCalls := congrArg Prod.fst hRun.calls
  have hResult := congrArg Prod.snd hRun.calls
  simp only at hCalls hResult
  constructor
  · intro hLoads
    refine ⟨hRun.inside_iff.mp hLoads.inside,
      pathsFit_of_in_order dir.noNul hNames ?_⟩
    rw [← hCalls]
    exact hLoads.order
  · rintro ⟨hFew, hFits⟩
    rw [loadCalls_fullFilename dir.noNul hNames hFits]
      at hCalls hResult
    refine ⟨hRun.inside_iff.mpr hFew, ?_, ?_, ?_⟩
    · rw [hCalls]
      exact loadCalls_in_order _ _ _ _
    · intro load' hAccepted
      rw [hResult] at hAccepted
      rw [hCalls]
      exact loadCalls_all hAccepted
    · intro hRefused
      rw [hResult] at hRefused ⊢
      rw [hCalls]
      exact loadCalls_refused hRefused

end Entry

/- Two links and a directory. -/
theorem routeDirRun_loadsInOrder_two :
    LoadsInOrder (fun _ load => .returned true load)
      (field "rules")
      [⟨field "b", true⟩, ⟨field "sub", false⟩,
        ⟨field "a", true⟩]
      (routeDirRun (fun _ load => .returned true load)
        (field "rules")
        [⟨field "b", true⟩, ⟨field "sub", false⟩,
          ⟨field "a", true⟩]
        (fun _ => []) (fun _ => []) ⟨[], 0⟩) := by
  have hValid :
      ∀ entry ∈ ([⟨field "b", true⟩, ⟨field "sub", false⟩,
          ⟨field "a", true⟩] : List DirEntry), entry.Valid := by
    intro entry hMem
    simp only [List.mem_cons, List.not_mem_nil, or_false]
      at hMem
    rcases hMem with rfl | rfl | rfl
    · exact ⟨by decide, by decide, by decide⟩
    · exact ⟨by decide, by decide, by decide⟩
    · exact ⟨by decide, by decide, by decide⟩
  refine (routeDirRun_loadsInOrder_iff _
    ⟨field "rules", by decide, by decide⟩ hValid _ _ _).mpr
    ⟨by decide, ?_⟩
  unfold PathsFit
  decide

/- The names of 201 files. -/
def manyEntries : List DirEntry :=
  (List.range 201).map fun n =>
    ⟨List.replicate (n + 1) 97, true⟩

/- The last name is stored behind the end of the array. -/
theorem routeDirRun_overrun :
    (∀ entry ∈ manyEntries, entry.Valid) ∧
      ¬ LoadsInOrder (fun _ load => .returned true load)
        (field "rules") manyEntries
        (routeDirRun (fun _ load => .returned true load)
          (field "rules") manyEntries (fun _ => [])
          (fun _ => []) ⟨[], 0⟩) := by
  have hValid : ∀ entry ∈ manyEntries, entry.Valid := by
    intro entry hMem
    rcases List.mem_map.mp hMem with ⟨n, hn, rfl⟩
    have hLt := List.mem_range.mp hn
    refine ⟨?_, ?_, ?_⟩
    · simp
    · simp
    · rw [List.length_replicate]
      omega
  refine ⟨hValid, fun hLoads => ?_⟩
  have hRun := routeDirRun_runsOver
    (fun _ load => .returned true load) (field "rules") hValid
    (fun _ => []) (fun _ => []) ⟨[], 0⟩
  have hFew := hRun.inside_iff.mp hLoads.inside
  have hAll :
      manyEntries.filter DirEntry.isFileOrLink =
        manyEntries := by
    apply List.filter_eq_self.mpr
    intro entry hMem
    rcases List.mem_map.mp hMem with ⟨n, -, rfl⟩
    rfl
  have hMany : (fileNames manyEntries).length = 201 := by
    rw [fileNames, hAll, List.length_map, manyEntries,
      List.length_map, List.length_range]
  rw [hMany] at hFew
  exact absurd hFew (by decide)

------------------------------------------------------------
-- Loading Without Arrays
------------------------------------------------------------

theorem lowestName_spec
    (lowest : Text)
    (names : List Text) :
    lowestName lowest names ∈ lowest :: names ∧
      ∀ name ∈ lowest :: names,
        ¬ name < lowestName lowest names := by
  have hOrder := textOrder
  induction names generalizing lowest with
  | nil =>
      refine ⟨List.mem_cons_self, ?_⟩
      intro name hMem
      rw [List.mem_singleton.mp hMem]
      exact irrefl _
  | cons next names ih =>
      unfold lowestName
      split_ifs with hLess
      · rcases ih next with ⟨hMem, hMin⟩
        refine ⟨List.mem_cons_of_mem _ hMem, ?_⟩
        intro name hName
        rcases List.mem_cons.mp hName with rfl | hName
        · intro hBelow
          exact hMin next List.mem_cons_self
            (IsTrans.trans _ _ _ hLess hBelow)
        · exact hMin name hName
      · rcases ih lowest with ⟨hMem, hMin⟩
        refine ⟨?_, ?_⟩
        · rcases List.mem_cons.mp hMem with hSame | hMem
          · rw [hSame]
            exact List.mem_cons_self
          · exact List.mem_cons_of_mem _
              (List.mem_cons_of_mem _ hMem)
        · intro name hName
          rcases List.mem_cons.mp hName with rfl | hName
          · exact hMin _ List.mem_cons_self
          · rcases List.mem_cons.mp hName with rfl | hName
            · intro hBelow
              have hFirst := hMin lowest List.mem_cons_self
              rcases trichotomous_of (· < ·) name lowest with
                h | h | h
              · exact hLess h
              · exact hFirst (h ▸ hBelow)
              · exact hFirst (IsTrans.trans _ _ _ h hBelow)
            · exact hMin name
                (List.mem_cons_of_mem _ hName)

theorem sortNames_spec
    (names : List Text) :
    (sortNames names.length names).Perm names ∧
      (sortNames names.length names).Pairwise
        fun a b => ¬ b < a := by
  induction hLength : names.length generalizing names with
  | zero =>
      have hNil := List.eq_nil_of_length_eq_zero hLength
      subst hNil
      simp [sortNames]
  | succ n ih =>
      rcases names with _ | ⟨name, names⟩
      · cases hLength
      · rcases lowestName_spec name names with ⟨hMem, hMin⟩
        have hErase :
            ((name :: names).erase
              (lowestName name names)).length = n := by
          rw [List.length_erase_of_mem hMem, hLength]
          rfl
        rcases ih _ hErase with ⟨hPerm, hSorted⟩
        rw [sortNames]
        refine ⟨?_, ?_⟩
        · exact (hPerm.cons _).trans
            (List.perm_cons_erase hMem).symm
        · rw [List.pairwise_cons]
          refine ⟨?_, hSorted⟩
          intro other hOther
          exact hMin other
            (List.mem_of_mem_erase (hPerm.subset hOther))

theorem loadRouteFiles_eq
    (world : FileWorld)
    (sshTunnelList : List SshTunnel)
    (dir : Text)
    (names : List Text)
    (load : RuleLoad) :
    loadRouteFiles world sshTunnelList dir names load =
      (loadCalls (loadRouteFile world sshTunnelList)
        (fullFilename dir) names load).2 := by
  induction names generalizing load with
  | nil => rfl
  | cons name names ih =>
      have hPath :
          (CBuf.copy (dir ++ [47] ++ name) : CBuf 4096).text =
            fullFilename dir name := rfl
      unfold loadRouteFiles loadCalls
      simp only [hPath]
      cases loadRouteFile world sshTunnelList
          (fullFilename dir name) load with
      | crash => rfl
      | returned okay load' =>
          cases okay with
          | false => rfl
          | true => exact ih load'

/-
  `loadRouteDir`, which has no arrays, has the result of the
  run with them.
-/
theorem routeDirRun_result
    (world : ConfigWorld)
    (sshTunnelList : List SshTunnel)
    (dir : Text)
    {entries : List DirEntry}
    (hDir : world.directories dir = some entries)
    (hEntries : ∀ entry ∈ entries, entry.Valid)
    (raw sorted : Nat → Text)
    (load : RuleLoad) :
    loadRouteDir world sshTunnelList dir load =
      if routeRuleDirMaxFiles < (fileNames entries).length then
        .crash
      else
        (routeDirRun (loadRouteFile world.toFileWorld
          sshTunnelList) dir entries raw sorted load).result := by
  have hOrder := textOrder
  have hRun := routeDirRun_runsOver
    (loadRouteFile world.toFileWorld sshTunnelList) dir hEntries
    raw sorted load
  have hResult := congrArg Prod.snd hRun.calls
  simp only at hResult
  have hSorted :
      sortNames (fileNames entries).length (fileNames entries) =
        ascending (fileNames entries) :=
    eq_ascending (sortNames_spec _).1 (sortNames_spec _).2
  rw [hResult, ← loadRouteFiles_eq, loadRouteDir]
  simp only [hDir, routeDirNames_eq hEntries, hSorted]

end SmartSOCKSProxy
