import SmartSOCKSProxy.Config.ConfigFile
import SmartSOCKSProxy.Foundations.Registry

/-
  The names of sections and log files.

  A new object gets a copy of its name, which may be cut and
  may lack its terminator.  The last byte of the buffer is
  what malloc() left there.

  Key definitions include:
    * `storedName`
    * `proxyInstanceHeaderWith`, `sshTunnelHeaderWith`
    * `NameLine`, `openName`, `openNames`
    * `NameLine.Fits`

  Key theorems include:
    * `proxyInstanceHeaderWith_eq`, `sshTunnelHeaderWith_eq`
    * `openName_opensKey`
    * `openNames_oneObjectPerKey`
-/

namespace SmartSOCKSProxy

------------------------------------------------------------
-- Stored Names
------------------------------------------------------------

/-
  `strncpy(dst, name, size - 1)` where the last byte of the
  buffer is `junk`.  There may be no terminator.
-/
def storedName
    (size : Nat)
    (junk : UInt8)
    (name : Text) : Option (CBuf size) :=
  if name.length < size - 1 ∨ junk = 0 then
    some (CBuf.copy name)
  else none

/- What malloc() leaves in the last byte of the names. -/
structure NameJunk where
  proxy : Nat → UInt8
  ssh : Nat → UInt8

/- `config_file_parse_proxy_instance()` -/
def proxyInstanceHeaderWith
    (junk : NameJunk)
    (line : Text)
    (load : ConfigLoad) : Header :=
  let list := load.config.proxyInstanceList
  namedSection line (field "proxy ") load (.proxy .default)
    (fun name =>
      (list.findIdx? fun proxy => proxy.name.text = name).map
        fun index => .proxy (.listed index))
    (fun name =>
      match storedName 1024 (junk.proxy list.length) name with
      | none => .overrun
      | some name =>
          let proxy : ProxyConfig :=
            { name
              log := load.config.proxyDefault.log
              serviceList := []
              routeRuleList := [] }
          .enter (.proxy (.listed list.length))
            { load with
              config :=
                { load.config with
                  proxyInstanceList := list ++ [proxy] } })

/- `config_file_parse_ssh_tunnel()` -/
def sshTunnelHeaderWith
    (junk : NameJunk)
    (world : ConfigWorld)
    (line : Text)
    (load : ConfigLoad) : Header :=
  let list := load.config.sshTunnelList
  namedSection line (field "ssh ") load
    (.ssh load.config.sshDefault.tunnel.id)
    (fun name =>
      (list.find? fun ssh => ssh.tunnel.name.text = name).map
        fun ssh => .ssh ssh.tunnel.id)
    (fun name =>
      let id := load.sshIdPool + 1
      match storedName 200 (junk.ssh id) name with
      | none => .overrun
      | some name =>
          let ssh : SshConfig :=
            { tunnel :=
                { id
                  name
                  socksPort := 0
                  commandToRun := CBuf.empty }
              log := world.junkLog id }
          .enter (.ssh id)
            { load with
              sshIdPool := id
              config :=
                { load.config with
                  sshTunnelList := ssh :: list } })

/- Names that are shorter than their buffers are stored. -/
theorem storedName_of_fits
    {size : Nat}
    (junk : UInt8)
    {name : Text}
    (hFits : name.length < size - 1) :
    storedName size junk name = some (CBuf.copy name) :=
  if_pos (Or.inl hFits)

theorem fillBuf_of_fits
    {size : Nat}
    {name : Text}
    (hFits : name.length < size - 1) :
    fillBuf size name = .value (CBuf.copy name) :=
  if_pos hFits

theorem text_copy_of_noNul
    {size : Nat}
    {name : Text}
    (hNoNul : (0 : UInt8) ∉ name)
    (hFits : name.length < size - 1) :
    (CBuf.copy name : CBuf size).text = name :=
  CBuf.text_copy_of_fits hNoNul (Nat.le_of_lt hFits)

------------------------------------------------------------
-- Headers
------------------------------------------------------------

theorem matchStart_append
    (start name : Text) :
    matchStart (start ++ name) start = some name := by
  have hStarts :
      stringStartsWith (start ++ name) start = true :=
    (stringStartsWith_iff _ _).mpr (List.prefix_append _ _)
  rw [matchStart, if_pos hStarts, List.drop_left]

/- A header with its name. -/
theorem namedSection_append
    (keyword name : Text)
    (load : ConfigLoad)
    (fallback : Section)
    (find : Text → Option Section)
    (create : Text → Header) :
    namedSection (keyword ++ name) keyword load fallback find
        create =
      if name = [] then .exited
      else if name = kwDefault then .enter fallback load
      else
        (find name).elim (create name)
          fun current => .enter current load := by
  simp only [namedSection, matchStart_append]
  split_ifs
  · rfl
  · rfl
  · cases find name <;> rfl

/-
  For names that fit, what malloc() left does not matter, and
  the headers are those of `sectionHeader`.
-/
theorem proxyInstanceHeaderWith_eq
    (junk : NameJunk)
    {name : Text}
    (hFits : name.length < 1024 - 1)
    (load : ConfigLoad) :
    proxyInstanceHeaderWith junk (field "proxy " ++ name)
        load =
      proxyInstanceHeader (field "proxy " ++ name) load := by
  simp only [proxyInstanceHeaderWith, proxyInstanceHeader,
    namedSection_append, storedName_of_fits _ hFits,
    fillBuf_of_fits hFits]

theorem sshTunnelHeaderWith_eq
    (junk : NameJunk)
    (world : ConfigWorld)
    {name : Text}
    (hFits : name.length < 200 - 1)
    (load : ConfigLoad) :
    sshTunnelHeaderWith junk world (field "ssh " ++ name)
        load =
      sshTunnelHeader world (field "ssh " ++ name) load := by
  simp only [sshTunnelHeaderWith, sshTunnelHeader,
    namedSection_append, storedName_of_fits _ hFits,
    fillBuf_of_fits hFits]

------------------------------------------------------------
-- Lines with Names
------------------------------------------------------------

/- Section headers, and the entry `logFilename`. -/
inductive NameLine where
| logFile (name : Text)
| logFilename (name : Text)
| proxy (name : Text)
| ssh (name : Text)
deriving DecidableEq, Repr

inductive NameRegistry where
| logFile
| proxy
| ssh
deriving DecidableEq, Repr

namespace NameLine

def name : NameLine → Text
  | .logFile name => name
  | .logFilename name => name
  | .proxy name => name
  | .ssh name => name

/- A name of a registry, or none for a default object. -/
def key : NameLine → Option (NameRegistry × Text)
  | .logFile name =>
      if name = kwDefault then none else some (.logFile, name)
  | .logFilename name => some (.logFile, name)
  | .proxy name =>
      if name = kwDefault then none else some (.proxy, name)
  | .ssh name =>
      if name = kwDefault then none else some (.ssh, name)

/- The name and its terminator fit where they are stored. -/
def Fits : NameLine → Prop
  | .logFile _ => True
  | .logFilename _ => True
  | .proxy name => name.length < 1024 - 1
  | .ssh name => name.length < 200 - 1

end NameLine

/- What the parser does at the line. -/
def openName
    (junk : NameJunk)
    (world : ConfigWorld)
    (load : ConfigLoad) : NameLine → Header
  | .logFile name =>
      logFileHeader (field "logfile " ++ name) load
  | .logFilename name =>
      let (config, address) :=
        findOrCreateLogFile load.config name
      .enter (.logFile address) { load with config }
  | .proxy name =>
      proxyInstanceHeaderWith junk (field "proxy " ++ name) load
  | .ssh name =>
      sshTunnelHeaderWith junk world (field "ssh " ++ name) load

/- The object that a name stands for. -/
def lookupName
    (load : ConfigLoad) :
    NameRegistry × Text → Option Section
  | (.logFile, name) =>
      (findLogFile load.config.logFileList name).map fun log =>
        .logFile log.address
  | (.proxy, name) =>
      (load.config.proxyInstanceList.findIdx? fun proxy =>
        proxy.name.text = name).map
        fun index => .proxy (.listed index)
  | (.ssh, name) =>
      (load.config.sshTunnelList.find? fun ssh =>
        ssh.tunnel.name.text = name).map
        fun ssh => .ssh ssh.tunnel.id

/- How many objects the registries hold. -/
def entryCount
    (load : ConfigLoad) : Nat :=
  load.config.logFileList.length +
    load.config.proxyInstanceList.length +
      load.config.sshTunnelList.length

abbrev NameOpening :=
  KeyOpening (NameRegistry × Text) Section

/- The object of a line, and whether one was added for it. -/
def opening
    (line : NameLine)
    (before : ConfigLoad)
    (current : Section)
    (after : ConfigLoad) : NameOpening :=
  ⟨line.key, current, entryCount before < entryCount after⟩

/- The process may exit, or read behind the end of a name. -/
inductive NamesRun where
| exited
| overrun
| opened (openings : List NameOpening) (load : ConfigLoad)

def NamesRun.behind
    (o : NameOpening) : NamesRun → NamesRun
  | .exited => .exited
  | .overrun => .overrun
  | .opened openings load => .opened (o :: openings) load

/- The lines one after another. -/
def openNames
    (junk : NameJunk)
    (world : ConfigWorld) :
    List NameLine → ConfigLoad → NamesRun
  | [], load => .opened [] load
  | line :: lines, load =>
      match openName junk world load line with
      | .other => openNames junk world lines load
      | .exited => .exited
      | .overrun => .overrun
      | .enter current load' =>
          (openNames junk world lines load').behind
            (opening line load current load')

------------------------------------------------------------
-- One Line
------------------------------------------------------------

theorem opensKey_same
    {line : NameLine}
    {load : ConfigLoad}
    {current : Section}
    (hFound :
      ∀ k, line.key = some k →
        lookupName load k = some current) :
    OpensKey lookupName load (opening line load current load)
      load := by
  refine ⟨fun _ _ h => h, hFound, ?_⟩
  intro hCreated
  simp [opening] at hCreated

/- A line that selects an object or creates it. -/
theorem opensKey_created
    {line : NameLine}
    {k : NameRegistry × Text}
    (hKey : line.key = some k)
    {load load' : ConfigLoad}
    {current : Section}
    (hNone : lookupName load k = none)
    (hKept :
      ∀ k obj, lookupName load k = some obj →
        lookupName load' k = some obj)
    (hFound : lookupName load' k = some current) :
    OpensKey lookupName load (opening line load current load')
      load' := by
  refine ⟨hKept, ?_, fun _ => ⟨k, hKey, hNone⟩⟩
  intro k' hk
  have hSame : some k = some k' := hKey.symm.trans hk
  cases hSame
  exact hFound

/- `find_or_create_log_file()` opens a name. -/
theorem findOrCreateLogFile_opensKey
    {line : NameLine}
    {name : Text}
    (hNoNul : (0 : UInt8) ∉ name)
    (hKey : line.key = some (.logFile, name))
    (load : ConfigLoad) :
    OpensKey lookupName load
      (opening line load
        (.logFile (findOrCreateLogFile load.config name).2)
        { load with
          config := (findOrCreateLogFile load.config name).1 })
      { load with
        config := (findOrCreateLogFile load.config name).1 } := by
  unfold findOrCreateLogFile
  cases hFind : findLogFile load.config.logFileList name with
  | some log =>
      apply opensKey_same
      intro k hk
      rw [hKey] at hk
      cases hk
      simp [lookupName, hFind]
  | none =>
      have hStored :
          (newLogFileFromTemplate load.config.logFileDefault
              (load.config.logFileList.length + 1)
              name).fileName.text =
            name.take (logFileNameMaxLen - 1) := by
        rw [newLogFileFromTemplate, CBuf.text_copy,
          Text.cstr_eq_self hNoNul]
      unfold findLogFile at hFind
      apply opensKey_created hKey
      · rw [lookupName, findLogFile, hFind]
        rfl
      · rintro ⟨registry, other⟩ obj hBefore
        cases registry with
        | logFile =>
            rcases Option.map_eq_some_iff.mp hBefore with
              ⟨log, hLog, rfl⟩
            rw [← hStored] at hFind
            exact congrArg (Option.map _)
              (find?_cons_of_new hFind hLog)
        | proxy => exact hBefore
        | ssh => exact hBefore
      · simp [lookupName, findLogFile, hStored,
          -CBuf.text_copy]

theorem logFileHeader_opensKey
    {name : Text}
    (hNoNul : (0 : UInt8) ∉ name)
    {load load' : ConfigLoad}
    {current : Section}
    (hHeader :
      logFileHeader (field "logfile " ++ name) load =
        .enter current load') :
    OpensKey lookupName load
      (opening (.logFile name) load current load') load' := by
  rw [logFileHeader, namedSection_append] at hHeader
  split_ifs at hHeader with hEmpty hDefault
  · cases hHeader
    apply opensKey_same
    intro k hk
    rw [NameLine.key, if_pos hDefault] at hk
    cases hk
  · have hKey :
        (NameLine.logFile name).key = some (.logFile, name) :=
      if_neg hDefault
    have hOpens := findOrCreateLogFile_opensKey hNoNul hKey load
    unfold findOrCreateLogFile at hHeader hOpens
    cases hFind : findLogFile load.config.logFileList name with
    | some log =>
        simp only [hFind] at hHeader hOpens
        cases hHeader
        exact hOpens
    | none =>
        simp only [hFind] at hHeader hOpens
        cases hHeader
        exact hOpens

theorem proxyInstanceHeaderWith_opensKey
    {junk : NameJunk}
    {name : Text}
    (hNoNul : (0 : UInt8) ∉ name)
    (hFits : name.length < 1024 - 1)
    {load load' : ConfigLoad}
    {current : Section}
    (hHeader :
      proxyInstanceHeaderWith junk (field "proxy " ++ name)
          load =
        .enter current load') :
    OpensKey lookupName load
      (opening (.proxy name) load current load') load' := by
  rw [proxyInstanceHeaderWith, namedSection_append] at hHeader
  split_ifs at hHeader with hEmpty hDefault
  · cases hHeader
    apply opensKey_same
    intro k hk
    rw [NameLine.key, if_pos hDefault] at hk
    cases hk
  · have hKey :
        (NameLine.proxy name).key = some (.proxy, name) :=
      if_neg hDefault
    cases hFind : load.config.proxyInstanceList.findIdx?
        fun proxy => proxy.name.text = name with
    | some index =>
        rw [hFind] at hHeader
        cases hHeader
        apply opensKey_same
        intro k hk
        rw [hKey] at hk
        cases hk
        rw [lookupName, hFind]
        rfl
    | none =>
        have hStored :=
          text_copy_of_noNul hNoNul hFits
        rw [hFind, storedName_of_fits _ hFits] at hHeader
        cases hHeader
        apply opensKey_created hKey
        · rw [lookupName, hFind]
          rfl
        · rintro ⟨registry, other⟩ obj hBefore
          cases registry with
          | logFile => exact hBefore
          | proxy =>
              rcases Option.map_eq_some_iff.mp hBefore with
                ⟨index, hIndex, rfl⟩
              exact congrArg (Option.map _)
                (findIdx?_append_of_found hIndex _)
          | ssh => exact hBefore
        · simp [lookupName, List.findIdx?_append, hFind,
            hStored, -CBuf.text_copy]

theorem sshTunnelHeaderWith_opensKey
    {junk : NameJunk}
    {world : ConfigWorld}
    {name : Text}
    (hNoNul : (0 : UInt8) ∉ name)
    (hFits : name.length < 200 - 1)
    {load load' : ConfigLoad}
    {current : Section}
    (hHeader :
      sshTunnelHeaderWith junk world (field "ssh " ++ name)
          load =
        .enter current load') :
    OpensKey lookupName load
      (opening (.ssh name) load current load') load' := by
  rw [sshTunnelHeaderWith, namedSection_append] at hHeader
  split_ifs at hHeader with hEmpty hDefault
  · cases hHeader
    apply opensKey_same
    intro k hk
    rw [NameLine.key, if_pos hDefault] at hk
    cases hk
  · have hKey : (NameLine.ssh name).key = some (.ssh, name) :=
      if_neg hDefault
    cases hFind : load.config.sshTunnelList.find?
        fun ssh => ssh.tunnel.name.text = name with
    | some ssh =>
        rw [hFind] at hHeader
        cases hHeader
        apply opensKey_same
        intro k hk
        rw [hKey] at hk
        cases hk
        rw [lookupName, hFind]
        rfl
    | none =>
        have hStored :=
          text_copy_of_noNul hNoNul hFits
        simp only [hFind, storedName_of_fits _ hFits] at hHeader
        cases hHeader
        apply opensKey_created hKey
        · rw [lookupName, hFind]
          rfl
        · rintro ⟨registry, other⟩ obj hBefore
          cases registry with
          | logFile => exact hBefore
          | proxy => exact hBefore
          | ssh =>
              rcases Option.map_eq_some_iff.mp hBefore with
                ⟨ssh, hSsh, rfl⟩
              rw [← hStored] at hFind
              exact congrArg (Option.map _)
                (find?_cons_of_new hFind hSsh)
        · simp [lookupName, hStored, -CBuf.text_copy]

/- Every line that fits opens its name. -/
theorem openName_opensKey
    {junk : NameJunk}
    {world : ConfigWorld}
    {line : NameLine}
    (hNoNul : (0 : UInt8) ∉ line.name)
    (hFits : line.Fits)
    {load load' : ConfigLoad}
    {current : Section}
    (hOpen :
      openName junk world load line = .enter current load') :
    OpensKey lookupName load (opening line load current load')
      load' := by
  cases line with
  | logFile name => exact logFileHeader_opensKey hNoNul hOpen
  | logFilename name =>
      cases hOpen
      exact findOrCreateLogFile_opensKey hNoNul rfl load
  | proxy name =>
      exact proxyInstanceHeaderWith_opensKey hNoNul hFits hOpen
  | ssh name =>
      exact sshTunnelHeaderWith_opensKey hNoNul hFits hOpen

------------------------------------------------------------
-- All Lines
------------------------------------------------------------

theorem openNames_openings
    {junk : NameJunk}
    {world : ConfigWorld}
    {lines : List NameLine}
    (hNoNul : ∀ line ∈ lines, (0 : UInt8) ∉ line.name)
    (hFits : ∀ line ∈ lines, line.Fits)
    {load last : ConfigLoad}
    {openings : List NameOpening}
    (hRun :
      openNames junk world lines load = .opened openings last) :
    Openings lookupName load openings last := by
  induction lines generalizing load openings with
  | nil =>
      cases hRun
      exact .nil _
  | cons line lines ih =>
      rcases List.forall_mem_cons.mp hNoNul with
        ⟨hHere, hRest⟩
      rcases List.forall_mem_cons.mp hFits with
        ⟨hFitsHere, hFitsRest⟩
      rw [openNames] at hRun
      cases hOpen : openName junk world load line with
      | other =>
          rw [hOpen] at hRun
          exact ih hRest hFitsRest hRun
      | exited =>
          rw [hOpen] at hRun
          cases hRun
      | overrun =>
          rw [hOpen] at hRun
          cases hRun
      | enter current load' =>
          rw [hOpen] at hRun
          simp only at hRun
          cases hMore : openNames junk world lines load' with
          | exited =>
              rw [hMore] at hRun
              cases hRun
          | overrun =>
              rw [hMore] at hRun
              cases hRun
          | opened more last' =>
              rw [hMore] at hRun
              cases hRun
              exact .cons
                (openName_opensKey hHere hFitsHere hOpen)
                (ih hRest hFitsRest hMore)

theorem openName_ne_overrun
    {junk : NameJunk}
    {world : ConfigWorld}
    {line : NameLine}
    (hFits : line.Fits)
    (load : ConfigLoad) :
    openName junk world load line ≠ .overrun := by
  cases line with
  | logFile name =>
      rw [openName, logFileHeader, namedSection_append]
      split_ifs
      · simp
      · simp
      · cases findLogFile load.config.logFileList name <;> simp
  | logFilename name => simp [openName]
  | proxy name =>
      rw [openName, proxyInstanceHeaderWith,
        namedSection_append, storedName_of_fits _ hFits]
      split_ifs
      · simp
      · simp
      · cases load.config.proxyInstanceList.findIdx?
          fun proxy => proxy.name.text = name <;> simp
  | ssh name =>
      rw [openName, sshTunnelHeaderWith, namedSection_append]
      simp only [storedName_of_fits _ hFits]
      split_ifs
      · simp
      · simp
      · cases load.config.sshTunnelList.find?
          fun ssh => ssh.tunnel.name.text = name <;> simp

theorem openNames_ne_overrun
    {junk : NameJunk}
    {world : ConfigWorld}
    {lines : List NameLine}
    (hFits : ∀ line ∈ lines, line.Fits)
    (load : ConfigLoad) :
    openNames junk world lines load ≠ .overrun := by
  induction lines generalizing load with
  | nil => simp [openNames]
  | cons line lines ih =>
      rcases List.forall_mem_cons.mp hFits with
        ⟨hHere, hRest⟩
      have hOpen :
          openName junk world load line ≠ .overrun :=
        openName_ne_overrun hHere load
      rw [openNames]
      cases hHeader : openName junk world load line with
      | other => exact ih hRest load
      | exited => simp
      | overrun => exact absurd hHeader hOpen
      | enter current load' =>
          have hMore := ih hRest load'
          cases hLater : openNames junk world lines load' with
          | exited => simp [NamesRun.behind, hLater]
          | overrun => exact absurd hLater hMore
          | opened openings last =>
              simp [NamesRun.behind, hLater]

/-
  When the names fit, no name is read behind its end, and each
  of them is one object: there was one before, or it is made
  by the first line with the name.
-/
theorem openNames_oneObjectPerKey
    (junk : NameJunk)
    (world : ConfigWorld)
    {lines : List NameLine}
    (hNoNul : ∀ line ∈ lines, (0 : UInt8) ∉ line.name)
    (hFits : ∀ line ∈ lines, line.Fits)
    (load : ConfigLoad) :
    openNames junk world lines load ≠ .overrun ∧
      ∀ openings last,
        openNames junk world lines load =
            .opened openings last →
          OneObjectPerKey
            (fun k => (lookupName load k).isSome) openings :=
  ⟨openNames_ne_overrun hFits load, fun _ _ hRun =>
    (openNames_openings hNoNul hFits hRun).oneObjectPerKey⟩

/- A proxy that is opened again, and a tunnel of its name. -/
theorem openNames_oneObjectPerKey_again :
    OneObjectPerKey
      (fun k =>
        (lookupName (ConfigLoad.init fun _ => ⟨0, none⟩)
          k).isSome)
      ([⟨some (.proxy, [97]), .proxy (.listed 0), true⟩,
        ⟨some (.ssh, [97]), .ssh 5, true⟩,
        ⟨some (.proxy, [97]), .proxy (.listed 0), false⟩] :
        List NameOpening) := by
  let world : ConfigWorld :=
    { environ := fun _ => none
      files := fun _ => none
      junk := fun _ => Vector.replicate _ none
      directories := fun _ => none
      junkLog := fun _ => ⟨0, none⟩ }
  have hAll := @openNames_oneObjectPerKey
    ⟨fun _ => 1, fun _ => 1⟩ world
    [.proxy [97], .ssh [97], .proxy [97]]
    (by simp [NameLine.name]) (by simp [NameLine.Fits])
    (ConfigLoad.init fun _ => ⟨0, none⟩)
  exact hAll.2 _ _ (by rfl)

------------------------------------------------------------
-- Names That Are Cut
------------------------------------------------------------

/- A header whose name does not fit makes a new object. -/
theorem proxyInstanceHeaderWith_long
    {junk : NameJunk}
    (hJunk : ∀ i, junk.proxy i = 0)
    {name : Text}
    (hLong : 1024 - 1 < name.length)
    (load : ConfigLoad) :
    ∃ load',
      proxyInstanceHeaderWith junk (field "proxy " ++ name)
          load =
        .enter
          (.proxy
            (.listed load.config.proxyInstanceList.length))
          load' ∧
        load'.config.proxyInstanceList.length =
          load.config.proxyInstanceList.length + 1 := by
  have hEmpty : name ≠ [] := by
    rintro rfl
    simp at hLong
  have hDefault : name ≠ kwDefault := by
    rintro rfl
    exact absurd hLong (by decide)
  have hFind :
      (load.config.proxyInstanceList.findIdx? fun proxy =>
        proxy.name.text = name) = none := by
    rw [List.findIdx?_eq_none_iff]
    intro proxy _
    have hFits := proxy.name.fits
    apply decide_eq_false
    rintro rfl
    omega
  have hStored :
      storedName 1024
          (junk.proxy load.config.proxyInstanceList.length)
          name =
        some (CBuf.copy name) :=
    if_pos (Or.inr (hJunk _))
  rw [proxyInstanceHeaderWith, namedSection_append,
    if_neg hEmpty, if_neg hDefault]
  simp only [hFind, hStored]
  exact ⟨_, rfl, by simp⟩

/- A name that does not fit is not found again. -/
theorem openNames_proxy_twice
    {junk : NameJunk}
    (hJunk : ∀ i, junk.proxy i = 0)
    (world : ConfigWorld)
    {name : Text}
    (hLong : 1024 - 1 < name.length)
    (load : ConfigLoad) :
    ∃ openings last,
      openNames junk world [.proxy name, .proxy name] load =
          .opened openings last ∧
        ¬ OneObjectPerKey
          (fun k => (lookupName load k).isSome) openings := by
  rcases proxyInstanceHeaderWith_long hJunk hLong load with
    ⟨load', hFirst, hCount⟩
  rcases proxyInstanceHeaderWith_long hJunk hLong load' with
    ⟨last, hSecond, -⟩
  have hDefault : name ≠ kwDefault := by
    rintro rfl
    exact absurd hLong (by decide)
  have hKey :
      (NameLine.proxy name).key = some (.proxy, name) :=
    if_neg hDefault
  refine ⟨[opening (.proxy name) load
      (.proxy (.listed load.config.proxyInstanceList.length))
      load',
    opening (.proxy name) load'
      (.proxy (.listed load'.config.proxyInstanceList.length))
      last], last, ?_, ?_⟩
  · simp only [openNames, openName, hFirst, hSecond]
    rfl
  · intro hOne
    have hSame := hOne.same _ List.mem_cons_self _
      (List.mem_cons_of_mem _ List.mem_cons_self)
      (.proxy, name) hKey hKey
    simp only [opening, Section.proxy.injEq,
      ProxyRef.listed.injEq] at hSame
    omega

/-
  A section with a name of 1024 characters is opened twice,
  and there are two proxy instances.
-/
theorem openNames_proxy_cut :
    ∃ openings last,
      openNames ⟨fun _ => 0, fun _ => 0⟩
          { environ := fun _ => none
            files := fun _ => none
            junk := fun _ => Vector.replicate _ none
            directories := fun _ => none
            junkLog := fun _ => ⟨0, none⟩ }
          [.proxy (List.replicate 1024 97),
            .proxy (List.replicate 1024 97)]
          (ConfigLoad.init fun _ => ⟨0, none⟩) =
        .opened openings last ∧
      ¬ OneObjectPerKey
        (fun k =>
          (lookupName (ConfigLoad.init fun _ => ⟨0, none⟩)
            k).isSome)
        openings := by
  refine openNames_proxy_twice (fun _ => rfl) _ ?_ _
  rw [List.length_replicate]
  omega

end SmartSOCKSProxy
