import SmartSOCKSProxy.Server.HttpResponse

/-
  The files that the HTTP service opens.

  The name in a request loses all characters that are not
  allowed in a file name.  What remains may be no name at all,
  or one of the two names that every directory has.

  Key definitions include:
    * `safeChars`, `fileRequest`
    * `OpensEntryOf`

  Key theorems include:
    * `getSafeFilenameFromRequest_eq`
    * `answerRequest_opens`
    * `opensEntryOf_iff`
    * `opensEntryOf_parent`
-/

namespace SmartSOCKSProxy

------------------------------------------------------------
-- Names
------------------------------------------------------------

/- The allowed characters up to the first blank. -/
def safeChars
    (src : Text) : Text :=
  (src.takeWhile (· ≠ 32)).filter isSafeChar

theorem safeFilenameLoop_eq
    (len index : Nat)
    (src : Text) :
    safeFilenameLoop len index src =
      (safeChars src).take (len - 1 - index) := by
  unfold safeChars
  induction src generalizing index with
  | nil => simp [safeFilenameLoop]
  | cons chr src ih =>
      rw [safeFilenameLoop]
      by_cases hRoom : index < len - 1
      · by_cases hBlank : chr = 32
        · simp [hBlank]
        · rw [if_pos ⟨hBlank, hRoom⟩,
            List.takeWhile_cons_of_pos (by simpa using hBlank)]
          by_cases hSafe : isSafeChar chr = true
          · have hLeft :
                len - 1 - index = len - 1 - (index + 1) + 1 := by
              omega
            rw [if_pos hSafe, List.filter_cons_of_pos hSafe, ih,
              hLeft, List.take_succ_cons]
          · rw [if_neg hSafe, List.filter_cons_of_neg hSafe, ih]
      · have hFull : len - 1 - index = 0 := by omega
        rw [if_neg (fun hGo => hRoom hGo.2), hFull,
          List.take_zero]

theorem length_safeChars_le
    (src : Text) :
    (safeChars src).length ≤ src.length :=
  (List.length_filter_le _ _).trans
    (List.takeWhile_prefix _).length_le

/- A request of a line is not cut off. -/
theorem getSafeFilenameFromRequest_eq
    {request : Text}
    (hShort : request.length ≤ 999) :
    getSafeFilenameFromRequest request (4096 - 1) =
      safeChars (request.drop 5) := by
  unfold getSafeFilenameFromRequest
  rw [safeFilenameLoop_eq]
  apply List.take_of_length_le
  refine (length_safeChars_le _).trans ?_
  rw [List.length_drop]
  omega

------------------------------------------------------------
-- Paths
------------------------------------------------------------

/- The request that return_file_contents() is to answer. -/
def fileRequest
    (w : World) : Option Text :=
  let (rc, line, _) := readOneLineSafely w (1000 - 1)
  if rc ≤ 0 then none
  else
    let request := Text.cstr line
    if stringStartsWith request
        (Text.ascii "GET /status.json ".toList) then none
    else if stringStartsWith request
        (Text.ascii "GET /".toList) then
      some request
    else none

/- The path that is passed to access() and open(). -/
def openedPath
    (baseDir : CBuf 4096)
    (request : Text) : Text :=
  httpFilename baseDir (requestedFilename request)

/-
  The path is the directory, a slash, and a name of allowed
  characters that is not `.` or `..`.
-/
def OpensEntryOf
    (baseDir : CBuf 4096)
    (path : Text) : Prop :=
  ∃ name : Text, path = baseDir.text ++ 47 :: name ∧
    name ≠ [] ∧ (∀ chr ∈ name, isSafeChar chr = true) ∧
    name ≠ [46] ∧ name ≠ [46, 46]

theorem returnFileContents_opens
    {files files' : FileSystem}
    {baseDir : CBuf 4096}
    {request : Text}
    (hAccess :
      files.access (openedPath baseDir request) =
        files'.access (openedPath baseDir request))
    (hOpen :
      files.openRdonly (openedPath baseDir request) =
        files'.openRdonly (openedPath baseDir request))
    (fuel : Nat)
    (con : HttpConnection)
    (w : World) :
    returnFileContents files baseDir fuel request con w =
      returnFileContents files' baseDir fuel request con w := by
  unfold openedPath at hAccess hOpen
  unfold returnFileContents
  simp only [hAccess, hOpen]

/-
  Of the files, only the one at that path matters to what the
  service answers.
-/
theorem answerRequest_opens
    {files files' : FileSystem}
    {baseDir : CBuf 4096}
    {w : World}
    (hSame : ∀ request, fileRequest w = some request →
      files.access (openedPath baseDir request) =
          files'.access (openedPath baseDir request) ∧
        files.openRdonly (openedPath baseDir request) =
          files'.openRdonly (openedPath baseDir request))
    (looks : StatusLooks)
    (fuel : Nat)
    (con : HttpConnection) :
    answerRequest files looks baseDir fuel con w =
      answerRequest files' looks baseDir fuel con w := by
  unfold fileRequest at hSame
  unfold answerRequest
  generalize readOneLineSafely w (1000 - 1) = run at hSame ⊢
  rcases run with ⟨rc, line, w'⟩
  dsimp only at hSame ⊢
  split
  · rfl
  rename_i hRc
  rw [if_neg hRc] at hSame
  split
  · rfl
  rename_i hStatus
  rw [if_neg hStatus] at hSame
  split
  · rename_i hGet
    rw [if_pos hGet] at hSame
    rcases hSame _ rfl with ⟨hAccess, hOpen⟩
    exact returnFileContents_opens hAccess hOpen fuel con w'
  · rfl

/- The request is one line that fits its buffer. -/
theorem length_fileRequest_le
    {w : World}
    {request : Text}
    (hRequest : fileRequest w = some request) :
    request.length ≤ 999 := by
  have hLine := length_readOneLineSafely_le w (1000 - 1)
  unfold fileRequest at hRequest
  generalize readOneLineSafely w (1000 - 1) = run
    at hRequest hLine
  rcases run with ⟨rc, line, w'⟩
  dsimp only at hRequest hLine
  have hCut : (Text.cstr line).length ≤ 999 :=
    (Text.length_cstr_le line).trans hLine
  split at hRequest
  · cases hRequest
  split at hRequest
  · cases hRequest
  split at hRequest
  · cases hRequest
    exact hCut
  · cases hRequest

/- A path of a short request is not cut off. -/
theorem openedPath_eq
    (baseDir : CBuf 4096)
    {request : Text}
    (hShort : request.length ≤ 999) :
    openedPath baseDir request =
      baseDir.text ++ 47 :: requestedFilename request := by
  have hDir := baseDir.fits
  have hName := length_requestedFilename_le request
  unfold openedPath httpFilename
  apply List.take_of_length_le
  rw [List.length_append, List.length_cons]
  omega

------------------------------------------------------------
-- Special Names
------------------------------------------------------------

/-
  Up to the first blank there is an allowed character that is
  not a dot, or there are three dots.
-/
def NamesFile
    (src : Text) : Prop :=
  (∃ chr ∈ src.takeWhile (· ≠ 32),
    isSafeChar chr = true ∧ chr ≠ 46) ∨
  3 ≤ (src.takeWhile (· ≠ 32)).count 46

/- Only dots make a special name. -/
theorem special_iff
    (name : Text) :
    name = [] ∨ name = [46] ∨ name = [46, 46] ↔
      (∀ chr ∈ name, chr = 46) ∧ name.count 46 < 3 := by
  constructor
  · rintro (rfl | rfl | rfl) <;> simp
  · rintro ⟨hDots, hCount⟩
    have hName : name = List.replicate name.length 46 :=
      List.eq_replicate_of_mem hDots
    have hLength : name.count 46 = name.length :=
      List.count_eq_length.mpr fun chr hMem =>
        (hDots chr hMem).symm
    rw [hLength] at hCount
    generalize name.length = n at hName hCount
    subst hName
    have hCases : n = 0 ∨ n = 1 ∨ n = 2 := by omega
    rcases hCases with rfl | rfl | rfl
    · exact Or.inl rfl
    · exact Or.inr (Or.inl rfl)
    · exact Or.inr (Or.inr rfl)

theorem namesFile_iff
    (src : Text) :
    NamesFile src ↔
      safeChars src ≠ [] ∧ safeChars src ≠ [46] ∧
        safeChars src ≠ [46, 46] := by
  have hCount :
      (safeChars src).count 46 =
        (src.takeWhile (· ≠ 32)).count 46 :=
    List.count_filter (by decide)
  have hSpecial := special_iff (safeChars src)
  rw [hCount] at hSpecial
  have hSome :
      (¬∀ chr ∈ safeChars src, chr = 46) ↔
        ∃ chr ∈ src.takeWhile (· ≠ 32),
          isSafeChar chr = true ∧ chr ≠ 46 := by
    unfold safeChars
    simp only [List.mem_filter, not_forall, exists_prop,
      and_assoc]
  unfold NamesFile
  rw [← hSome, ← not_lt, ← Classical.not_and_iff_not_or_not,
    ← hSpecial]
  simp only [not_or, ne_eq]

------------------------------------------------------------
-- The Opened Entry
------------------------------------------------------------

theorem isSafeChar_of_mem_safeChars
    {src : Text}
    {chr : UInt8}
    (hMem : chr ∈ safeChars src) :
    isSafeChar chr = true :=
  (List.mem_filter.mp hMem).2

/-
  What a request opens is an entry of the directory exactly if
  it is for the index, or the characters that are left to its
  name make a name of a file.
-/
theorem opensEntryOf_iff
    (baseDir : CBuf 4096)
    {w : World}
    {request : Text}
    (hRequest : fileRequest w = some request) :
    OpensEntryOf baseDir (openedPath baseDir request) ↔
      isIndexRequest request = true ∨
        NamesFile (request.drop 5) := by
  have hShort := length_fileRequest_le hRequest
  rw [openedPath_eq baseDir hShort]
  unfold OpensEntryOf requestedFilename
  by_cases hIndex : isIndexRequest request = true
  · have hSafe :
        ∀ chr ∈ Text.ascii "index.html".toList,
          isSafeChar chr = true :=
      List.all_eq_true.mp (by decide)
    simp only [hIndex, if_true, true_or, iff_true]
    exact ⟨_, rfl, by decide, hSafe, by decide, by decide⟩
  · rw [if_neg hIndex, getSafeFilenameFromRequest_eq hShort,
      namesFile_iff]
    constructor
    · rintro ⟨name, hPath, hSome, -, hDot, hDots⟩
      have hName : safeChars (request.drop 5) = name :=
        (List.cons.inj (List.append_cancel_left hPath)).2
      rw [hName]
      exact Or.inr ⟨hSome, hDot, hDots⟩
    · rintro (hFalse | ⟨hSome, hDot, hDots⟩)
      · exact absurd hFalse hIndex
      · exact ⟨_, rfl, hSome,
          fun _ => isSafeChar_of_mem_safeChars, hDot, hDots⟩

/- A directory for pages. -/
def pages : CBuf 4096 :=
  CBuf.copy (Text.ascii "/srv/pages".toList)

/- A page of the directory. -/
theorem opensEntryOf_page :
    OpensEntryOf pages
      (openedPath pages
        (Text.ascii "GET /a.html HTTP/1.1".toList)) :=
  (opensEntryOf_iff pages
    (w := firstLine "GET /a.html HTTP/1.1")
    (by decide +kernel)).mpr
      (Or.inr (Or.inl ⟨97, by decide, by decide, by decide⟩))

/- The directory above it. -/
theorem opensEntryOf_parent :
    ¬ ∀ (baseDir : CBuf 4096) (w : World) (request : Text),
        fileRequest w = some request →
          OpensEntryOf baseDir (openedPath baseDir request) := by
  intro hAll
  have hRequest :
      fileRequest (firstLine "GET /.. HTTP/1.1") =
        some (Text.ascii "GET /.. HTTP/1.1".toList) := by
    decide +kernel
  rcases hAll pages _ _ hRequest with
    ⟨name, hPath, -, -, -, hDots⟩
  have hOpened :
      openedPath pages
          (Text.ascii "GET /.. HTTP/1.1".toList) =
        pages.text ++ 47 :: [46, 46] := by
    decide
  rw [hOpened] at hPath
  exact hDots
    (List.cons.inj (List.append_cancel_left hPath)).2.symm

end SmartSOCKSProxy
