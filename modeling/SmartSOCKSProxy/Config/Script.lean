import SmartSOCKSProxy.Config.Dispatch
import SmartSOCKSProxy.Config.Escapes
import SmartSOCKSProxy.Foundations.PrintedNumbers

/-
  Configurations as they are meant.

  A script is a list of statements with a meaning of their
  own, which nobody has to parse.  Written to files, scripts
  that include one another are read as what they mean.

  Key definitions include:
    * `Statement`, `Statement.line`, `Statement.run`
    * `WrittenStatement`, `Script`
    * `scriptParse`, `ScriptFiles`

  Key theorems include:
    * `sectionEntry_statement`, `sectionLine_statement`
    * `configFileLine_statement`
    * `configFileParse_scripts`
-/

namespace SmartSOCKSProxy

------------------------------------------------------------
-- Values
------------------------------------------------------------

/- The value for a larger buffer. -/
def Word.widen
    {size size' : Nat}
    (hSize : size ≤ size')
    (value : Word size) : Word size' :=
  { value with
    fits := Nat.lt_of_lt_of_le value.fits
      (Nat.sub_le_sub_right hSize 1) }

/- A number needs a sign and nineteen digits at most. -/
theorem length_ofInt_le
    {n : Int}
    (hSmall : n.natAbs ≤ 2 ^ 63) :
    (Text.ofInt n).length ≤ 20 := by
  have hNat : ∀ m, m ≤ 2 ^ 63 → (Text.ofNat m).length ≤ 19 := by
    intro m hLe
    unfold Text.ofNat
    split_ifs
    · decide
    · rw [List.length_map, List.length_reverse]
      exact (Nat.digits_length_le_iff (by decide) m).mpr
        (Nat.lt_of_le_of_lt hLe (by decide))
  cases n with
  | ofNat m => exact Nat.le_succ_of_le (hNat m hSmall)
  | negSucc m =>
      exact Nat.succ_le_succ (hNat (m + 1) hSmall)

theorem noNul_ofInt
    (n : Int) :
    (0 : UInt8) ∉ Text.ofInt n := by
  have hNat : ∀ m, (0 : UInt8) ∉ Text.ofNat m := by
    intro m hMem
    exact absurd ((Text.isDigits_ofNat m).2 0 hMem).1
      (by decide)
  cases n with
  | ofNat m => exact hNat m
  | negSucc m =>
      intro hMem
      rcases List.mem_cons.mp hMem with hSign | hMem
      · exact absurd hSign (by decide)
      · exact hNat (m + 1) hMem

theorem ofInt_ne_nil
    (n : Int) :
    Text.ofInt n ≠ [] := by
  cases n with
  | ofNat m => exact (Text.isDigits_ofNat m).1
  | negSucc m => exact List.cons_ne_nil _ _

def numberWord
    (n : Int)
    (hSmall : n.natAbs ≤ 2 ^ 63) : Word stringBufLen where
  text := Text.ofInt n
  ne_nil := ofInt_ne_nil n
  noNul := noNul_ofInt n
  fits := Nat.lt_of_le_of_lt (length_ofInt_le hSmall)
    (by decide)

theorem natAbs_int32
    (n : Int32) :
    n.toInt.natAbs ≤ 2 ^ 63 := by
  have hLow := n.le_toInt
  have hHigh := n.toInt_lt
  omega

theorem natAbs_int64
    (n : Int64) :
    n.toInt.natAbs ≤ 2 ^ 63 := by
  have hLow := n.le_toInt
  have hHigh := n.toInt_lt
  omega

/- The name of a level. -/
def levelWord
    (level : Fin 6) : Word stringBufLen where
  text := (logLevelStr level.val).getD []
  ne_nil := by
    revert level
    decide
  noNul := by
    revert level
    decide
  fits := by
    revert level
    decide

theorem logLevelFromStr_levelWord
    (level : Fin 6) :
    logLevelFromStr (levelWord level).text = level.val := by
  revert level
  decide

theorem scanLong_ofInt
    {n : Int}
    (hLow : -2 ^ 63 ≤ n)
    (hHigh : n < 2 ^ 63) :
    scanLong (Text.ofInt n) = some n := by
  rcases Text.scanned_ofNat n.natAbs with ⟨hSome, hValue⟩
  unfold scanLong
  rw [Text.scanSign_ofInt]
  dsimp only
  rw [if_neg hSome, hValue]
  by_cases hNegative : n < 0
  · have hAbs : max (-(n.natAbs : Int)) (-(2 ^ 63)) = n := by
      omega
    rw [if_pos (decide_eq_true hNegative), hAbs]
  · have hAbs : min (n.natAbs : Int) (2 ^ 63 - 1) = n := by
      omega
    rw [decide_eq_false hNegative, if_neg Bool.false_ne_true,
      hAbs]

------------------------------------------------------------
-- Statements
------------------------------------------------------------

/- The lines of a script, with their values. -/
inductive Statement where
| includeFile (name : Word stringBufLen)
| main
| logFile (name : Word stringBufLen)
| proxy (name : Word 1024)
| ssh (name : Word 200)
| logFilename (name : Word stringBufLen)
| logVerbosity (level : Fin 6)
| ulimit (n : Int32)
| byteCountMax (n : Int64)
| fileRotateCount (n : Int64)
| socksServer (spec : Word stringBufLen)
| portForward (spec : Word stringBufLen)
| httpServer (spec : Word stringBufLen)
| route (spec : Word stringBufLen)
| routeFile (name : Word stringBufLen)
| routeDir (dir : Word stringBufLen)
| socksPort (n : Int32)
| command (commandToRun : Word stringBufLen)

namespace Statement

/- The keyword, and the value behind it. -/
def keyed :
    Statement → Option (ConfigKeyword × Word stringBufLen)
| includeFile name => some (.includeFile, name)
| main => none
| logFile name => some (.logFile, name)
| proxy name => some (.proxy, name.widen (by decide))
| ssh name => some (.ssh, name.widen (by decide))
| logFilename name => some (.logFilename, name)
| logVerbosity level => some (.logVerbosity, levelWord level)
| ulimit n =>
    some (.ulimit, numberWord n.toInt (natAbs_int32 n))
| byteCountMax n =>
    some (.byteCountMax, numberWord n.toInt (natAbs_int64 n))
| fileRotateCount n =>
    some (.fileRotateCount,
      numberWord n.toInt (natAbs_int64 n))
| socksServer spec => some (.socksServer, spec)
| portForward spec => some (.portForward, spec)
| httpServer spec => some (.httpServer, spec)
| route spec => some (.route, spec)
| routeFile name => some (.routeFile, name)
| routeDir dir => some (.routeDir, dir)
| socksPort n =>
    some (.socksPort, numberWord n.toInt (natAbs_int32 n))
| command commandToRun => some (.command, commandToRun)

def line
    (stmt : Statement) : Text :=
  match stmt.keyed with
  | none => field "main"
  | some (k, value) => k.line value.text

end Statement

------------------------------------------------------------
-- Meaning
------------------------------------------------------------

/- Whose log settings the entries of a section are about. -/
def Section.logOwner : Section → Option LogOwner
| .none => Option.none
| .main => some .main
| .logFile _ => Option.none
| .proxy ref => some (.proxy ref)
| .ssh id => some (.ssh id)

/- The log file of that name, which may be a new one. -/
def ConfigLoad.openLogFile
    (load : ConfigLoad)
    (name : Text) : ConfigState :=
  if name = kwDefault then
    ⟨.logFile load.config.logFileDefault.address, load⟩
  else
    let (config, address) :=
      findOrCreateLogFile load.config name
    ⟨.logFile address, { load with config }⟩

def ConfigLoad.openProxy
    (load : ConfigLoad)
    (name : Text) : ConfigState :=
  if name = kwDefault then ⟨.proxy .default, load⟩
  else
    let list := load.config.proxyInstanceList
    match list.findIdx? fun proxy => proxy.name.text = name with
    | some index => ⟨.proxy (.listed index), load⟩
    | none =>
        ⟨.proxy (.listed list.length),
          { load with
            config :=
              { load.config with
                proxyInstanceList :=
                  list ++
                    [{ name := CBuf.copy name
                       log := load.config.proxyDefault.log
                       serviceList := []
                       routeRuleList := [] }] } }⟩

def ConfigLoad.openSsh
    (world : ConfigWorld)
    (load : ConfigLoad)
    (name : Text) : ConfigState :=
  if name = kwDefault then
    ⟨.ssh load.config.sshDefault.tunnel.id, load⟩
  else
    let list := load.config.sshTunnelList
    match list.find? fun ssh => ssh.tunnel.name.text = name with
    | some ssh => ⟨.ssh ssh.tunnel.id, load⟩
    | none =>
        let id := load.sshIdPool + 1
        ⟨.ssh id,
          { load with
            sshIdPool := id
            config :=
              { load.config with
                sshTunnelList :=
                  newSshConfig world id (CBuf.copy name) ::
                    list } }⟩

namespace Statement

/- The section that the statement begins. -/
def header
    (world : ConfigWorld)
    (load : ConfigLoad) : Statement → Option ConfigState
| main => some ⟨.main, load⟩
| logFile name => some (load.openLogFile name.text)
| proxy name => some (load.openProxy name.text)
| ssh name => some (load.openSsh world name.text)
| _ => none

section Entries

variable (world : ConfigWorld)
variable (filename : Text)
variable (lineNum : Nat)
variable (load : ConfigLoad)

/- An entry, which has to belong to the section. -/
def entry :
    Statement → Section → Setting ConfigLoad
| logFilename name, current =>
    current.logOwner.elim .unset fun owner =>
      .value (load.logsTo owner name.text)
| logVerbosity level, current =>
    current.logOwner.elim .unset fun owner =>
      .value (load.setLevel owner level.val)
| ulimit n, .main =>
    .value
      { load with
        config :=
          { load.config with
            mainConf :=
              { load.config.mainConf with
                ulimit := n.toInt } } }
| byteCountMax n, .logFile address =>
    .value
      { load with
        config :=
          load.config.updateLogFile address
            fun log => { log with byteCountMax := n.toInt } }
| fileRotateCount n, .logFile address =>
    .value
      { load with
        config :=
          load.config.updateLogFile address
            fun log =>
              { log with fileRotateCount := n.toInt } }
| socksServer spec, .proxy ref =>
    insertService load ref
      (socksService spec.text load.serviceIdPool)
| portForward spec, .proxy ref =>
    insertService load ref
      (portForwardService spec.text load.serviceIdPool)
| httpServer spec, .proxy ref =>
    insertService load ref
      (httpService spec.text load.serviceIdPool)
| route spec, .proxy ref =>
    addRules load ref
      (loadRoute world.toFileWorld load.config.tunnels
        spec.text filename lineNum)
| routeFile name, .proxy ref =>
    addRules load ref
      (loadRouteFile world.toFileWorld load.config.tunnels
        name.text)
| routeDir dir, .proxy ref =>
    addRules load ref
      (loadRouteDir world load.config.tunnels dir.text)
| socksPort n, .ssh id =>
    .value
      { load with
        config :=
          load.config.updateSsh id fun ssh =>
            { ssh with
              tunnel :=
                { ssh.tunnel with socksPort := n.toInt } } }
| command commandToRun, .ssh id =>
    .value
      { load with
        config :=
          load.config.updateSsh id fun ssh =>
            { ssh with
              tunnel :=
                { ssh.tunnel with
                  commandToRun :=
                    CBuf.copy commandToRun.text } } }
| _, _ => .unset

end Entries

/-
  A statement that includes a file, begins a section, or sets
  something in the current one.
-/
def run
    (world : ConfigWorld)
    (filename : Text)
    (stack : List Text)
    (included : Option (Text → ConfigLoad → ConfigResult))
    (lineNum : Nat)
    (stmt : Statement)
    (state : ConfigState) :
    LineStep ConfigState ConfigResult :=
  match stmt with
  | includeFile name =>
      match includeGuard stack included name.text with
      | none => .next state
      | some parse =>
          match parse state.load with
          | .crash => .stop .crash
          | .exited => .stop .exited
          | .returned _ load => .next { state with load }
  | stmt =>
      match stmt.header world state.load with
      | some state' => .next state'
      | none =>
          match stmt.entry world filename lineNum state.load
              state.current with
          | .value load => .next { state with load }
          | .overrun => .stop .crash
          | .unset => .stop .exited

end Statement

------------------------------------------------------------
-- Lines Mean What They Say
------------------------------------------------------------

section Headers

variable (world : ConfigWorld)
variable (load : ConfigLoad)

theorem logFileHeader_open
    (name : Word stringBufLen) :
    logFileHeader (ConfigKeyword.logFile.line name.text) load =
      .enter (load.openLogFile name.text).current
        (load.openLogFile name.text).load := by
  refine (namedSection_append (field "logfile ") name.text
    load _ _ _).trans ?_
  unfold ConfigLoad.openLogFile findOrCreateLogFile
  rw [if_neg name.ne_nil]
  split_ifs
  · rfl
  · cases findLogFile load.config.logFileList name.text <;> rfl

theorem proxyInstanceHeader_open
    (name : Word 1024) :
    proxyInstanceHeader (ConfigKeyword.proxy.line name.text)
        load =
      .enter (load.openProxy name.text).current
        (load.openProxy name.text).load := by
  unfold proxyInstanceHeader
  dsimp only
  refine (namedSection_append (field "proxy ") name.text load
    _ _ _).trans ?_
  unfold ConfigLoad.openProxy
  rw [if_neg name.ne_nil, name.fillBuf_text]
  split_ifs
  · rfl
  · dsimp only
    cases load.config.proxyInstanceList.findIdx? fun proxy =>
      decide (proxy.name.text = name.text) <;> rfl

theorem sshTunnelHeader_open
    (name : Word 200) :
    sshTunnelHeader world (ConfigKeyword.ssh.line name.text)
        load =
      .enter (load.openSsh world name.text).current
        (load.openSsh world name.text).load := by
  unfold sshTunnelHeader
  dsimp only
  refine (namedSection_append (field "ssh ") name.text load
    _ _ _).trans ?_
  unfold ConfigLoad.openSsh
  rw [if_neg name.ne_nil, name.fillBuf_text]
  split_ifs
  · rfl
  · dsimp only
    cases load.config.sshTunnelList.find? fun ssh =>
      decide (ssh.tunnel.name.text = name.text) <;> rfl

end Headers

/- A level that is written by its name is that level. -/
theorem setLevel_statement
    (load : ConfigLoad)
    (owner : LogOwner)
    (level : Fin 6) :
    (if logLevelFromStr (levelWord level).text =
          logLevelInvalid then .unset
      else
        Setting.value
          (load.setLevel owner
            (logLevelFromStr (levelWord level).text))) =
      .value (load.setLevel owner level.val) := by
  have hValid : (level.val : Int) ≠ -1 := by omega
  rw [logLevelFromStr_levelWord, if_neg hValid]

section Entries

variable (world : ConfigWorld)
variable (filename : Text)
variable (lineNum : Nat)
variable (load : ConfigLoad)
variable {stmt : Statement}
variable {k : ConfigKeyword}
variable {value : Word stringBufLen}
variable (hKeyed : stmt.keyed = some (k, value))
include hKeyed

theorem mainEntry_statement :
    mainEntry (k.line value.text) load =
      stmt.entry world filename lineNum load .main := by
  rw [mainEntry_keyword]
  cases stmt with
  | main => cases hKeyed
  | logVerbosity level =>
      cases hKeyed
      exact setLevel_statement load .main level
  | ulimit n =>
      cases hKeyed
      have hScan : Text.scanInt (Text.ofInt n.toInt) =
          some n.toInt :=
        Text.scanInt_ofInt n.le_toInt n.toInt_lt
      dsimp only [numberWord]
      rw [hScan]
      rfl
  | _ =>
      cases hKeyed
      rfl

theorem logFileEntry_statement
    (address : Nat) :
    logFileEntry (k.line value.text) address load =
      stmt.entry world filename lineNum load
        (.logFile address) := by
  rw [logFileEntry_keyword]
  cases stmt with
  | main => cases hKeyed
  | byteCountMax n =>
      cases hKeyed
      have hScan : scanLong (Text.ofInt n.toInt) =
          some n.toInt :=
        scanLong_ofInt n.le_toInt n.toInt_lt
      dsimp only [numberWord]
      rw [hScan]
      rfl
  | fileRotateCount n =>
      cases hKeyed
      have hScan : scanLong (Text.ofInt n.toInt) =
          some n.toInt :=
        scanLong_ofInt n.le_toInt n.toInt_lt
      dsimp only [numberWord]
      rw [hScan]
      rfl
  | _ =>
      cases hKeyed
      rfl

theorem proxyInstanceEntry_statement
    (ref : ProxyRef) :
    proxyInstanceEntry world filename lineNum
        (k.line value.text) ref load =
      stmt.entry world filename lineNum load
        (.proxy ref) := by
  rw [proxyInstanceEntry_keyword]
  cases stmt with
  | main => cases hKeyed
  | logVerbosity level =>
      cases hKeyed
      exact setLevel_statement load (.proxy ref) level
  | _ =>
      cases hKeyed
      rfl

theorem sshTunnelEntry_statement
    (id : Nat) :
    sshTunnelEntry (k.line value.text) id load =
      stmt.entry world filename lineNum load (.ssh id) := by
  rw [sshTunnelEntry_keyword]
  cases stmt with
  | main => cases hKeyed
  | logVerbosity level =>
      cases hKeyed
      exact setLevel_statement load (.ssh id) level
  | socksPort n =>
      cases hKeyed
      have hScan : Text.scanInt (Text.ofInt n.toInt) =
          some n.toInt :=
        Text.scanInt_ofInt n.le_toInt n.toInt_lt
      dsimp only [numberWord]
      rw [hScan]
      rfl
  | _ =>
      cases hKeyed
      rfl

theorem sectionEntry_statement
    (current : Section) :
    sectionEntry world filename lineNum (k.line value.text)
        current load =
      stmt.entry world filename lineNum load current := by
  cases current with
  | none => cases stmt <;> rfl
  | main =>
      exact mainEntry_statement world filename lineNum load
        hKeyed
  | logFile address =>
      exact logFileEntry_statement world filename lineNum load
        hKeyed address
  | proxy ref =>
      exact proxyInstanceEntry_statement world filename lineNum
        load hKeyed ref
  | ssh id =>
      exact sshTunnelEntry_statement world filename lineNum
        load hKeyed id

end Entries

section Lines

variable (world : ConfigWorld)
variable (filename : Text)
variable (lineNum : Nat)
variable {stmt : Statement}
variable {k : ConfigKeyword}
variable {value : Word stringBufLen}

/- A statement that begins a section, or is an entry. -/
theorem sectionLine_statement
    (stack : List Text)
    (included : Option (Text → ConfigLoad → ConfigResult))
    (hKeyed : stmt.keyed = some (k, value))
    (hOther : k ≠ .includeFile)
    (state : ConfigState) :
    sectionLine world filename lineNum (k.line value.text)
        state =
      stmt.run world filename stack included lineNum state := by
  have hHeader :=
    sectionHeader_keyword world k value.text state.load
  have hEntry := sectionEntry_statement world filename lineNum
    state.load hKeyed state.current
  unfold sectionLine
  rw [hHeader, hEntry]
  cases stmt with
  | includeFile name =>
      cases hKeyed
      exact absurd rfl hOther
  | main => cases hKeyed
  | logFile name =>
      cases hKeyed
      rw [if_pos rfl, logFileHeader_open]
      rfl
  | proxy name =>
      cases hKeyed
      rw [if_neg (by decide), if_pos rfl]
      have hOpen := proxyInstanceHeader_open state.load name
      dsimp only [Word.widen]
      rw [hOpen]
      rfl
  | ssh name =>
      cases hKeyed
      rw [if_neg (by decide), if_neg (by decide), if_pos rfl]
      have hOpen := sshTunnelHeader_open world state.load name
      dsimp only [Word.widen]
      rw [hOpen]
      rfl
  | _ =>
      cases hKeyed
      rw [if_neg (by decide), if_neg (by decide),
        if_neg (by decide)]
      rfl

end Lines

/-
  A statement whose line has no line break and no reference
  to a variable, and fits in the buffer of read_line().
-/
structure WrittenStatement where
  stmt : Statement
  noBreak : ∀ chr ∈ stmt.line, ¬ IsBreakChar chr
  noOpening : NoOpening stmt.line
  fits : (escapeText stmt.line).length < maxLineLength - 1

theorem Statement.noNul_line
    (stmt : Statement) :
    (0 : UInt8) ∉ stmt.line := by
  unfold Statement.line
  cases stmt.keyed with
  | none => decide
  | some keyed =>
      rcases keyed with ⟨k, value⟩
      intro hMem
      rcases List.mem_append.mp hMem with hMem | hMem
      · cases k <;> exact absurd hMem (by decide)
      · exact value.noNul hMem

theorem Statement.line_ne_nil
    (stmt : Statement) :
    stmt.line ≠ [] := by
  unfold Statement.line
  cases stmt.keyed with
  | none => decide
  | some keyed =>
      exact List.append_ne_nil_of_right_ne_nil _
        keyed.2.ne_nil

def WrittenStatement.toLine
    (written : WrittenStatement) : WritableLine where
  text := written.stmt.line
  noNul := written.stmt.noNul_line
  noBreak := written.noBreak
  noOpening := written.noOpening
  fits := written.fits

/- A line of a file does what its statement means. -/
theorem configFileLine_statement
    (world : ConfigWorld)
    (filename : Text)
    (stack : List Text)
    (included : Option (Text → ConfigLoad → ConfigResult))
    (lineNum : Nat)
    (written : WrittenStatement)
    (state : ConfigState) :
    configFileLine world filename stack included lineNum
        (escapeText written.toLine.text) state =
      written.stmt.run world filename stack included lineNum
        state := by
  unfold configFileLine
  rw [configLine_escapeText]
  dsimp only [WrittenStatement.toLine]
  rw [if_neg written.stmt.line_ne_nil]
  cases hKeyed : written.stmt.keyed with
  | none =>
      have hMain : written.stmt = .main := by
        generalize written.stmt = stmt at hKeyed
        cases stmt with
        | main => rfl
        | _ => cases hKeyed
      rw [hMain]
      rfl
  | some keyed =>
      rcases keyed with ⟨k, value⟩
      have hLine : written.stmt.line = k.line value.text := by
        rw [Statement.line, hKeyed]
      have hInclude :
          configSetString stringBufLen (k.line value.text)
              (field "include ") =
            if k = .includeFile then
              .value (CBuf.copy value.text)
            else .unset :=
        configSetString_keyword k .includeFile value
      rw [hLine, hInclude]
      by_cases hFile : k = .includeFile
      · rw [if_pos hFile]
        generalize written.stmt = stmt at hKeyed
        cases stmt with
        | includeFile name =>
            cases hKeyed
            dsimp only [Statement.run]
            rewrite [value.text_copy]
            rfl
        | main => cases hKeyed
        | _ =>
            cases hKeyed
            contradiction
      · rw [if_neg hFile]
        exact sectionLine_statement world filename lineNum
          stack included hKeyed hFile state

------------------------------------------------------------
-- Scripts
------------------------------------------------------------

abbrev Script := List WrittenStatement

/- The bytes of the file. -/
def Script.bytes
    (script : Script) : Text :=
  writeLines (script.map WrittenStatement.toLine)

section Scripts

variable (world : ConfigWorld)
variable (scripts : Text → Option Script)

/- The statements of the script of that name. -/
def scriptBody
    (filename : Text)
    (stack : List Text)
    (included : Option (Text → ConfigLoad → ConfigResult))
    (load : ConfigLoad) : ConfigResult :=
  match scripts filename with
  | none => .returned false load
  | some script =>
      foldLines
        (fun lineNum written state =>
          written.stmt.run world filename stack included
            lineNum state)
        (fun state => .returned true state.load)
        script 1 ⟨.none, load⟩

/- With what it includes, as deep as there is room. -/
def scriptParse :
    Nat → List Text → Text → ConfigLoad → ConfigResult
  | 0, stack, filename, load =>
      scriptBody world scripts filename (stack ++ [filename])
        none load
  | room + 1, stack, filename, load =>
      scriptBody world scripts filename (stack ++ [filename])
        (some (scriptParse room (stack ++ [filename]))) load

/-
  The files of the scripts are what was written, and they
  include scripts or files that do not exist.
-/
structure ScriptFiles : Prop where
  files : ∀ filename script,
    scripts filename = some script →
      world.files filename = some ⟨script.bytes, false⟩
  included : ∀ filename script,
    scripts filename = some script →
      ∀ written ∈ script, ∀ name,
        written.stmt = .includeFile name →
          scripts name.text = none →
            world.files name.text = none

/- Only what the statements include matters. -/
theorem run_included
    (filename : Text)
    (stack : List Text)
    {included included' :
      Option (Text → ConfigLoad → ConfigResult)}
    {stmt : Statement}
    (hSame : ∀ name, stmt = .includeFile name →
      included.map (fun parse => parse name.text) =
        included'.map fun parse => parse name.text)
    (lineNum : Nat)
    (state : ConfigState) :
    stmt.run world filename stack included lineNum state =
      stmt.run world filename stack included' lineNum
        state := by
  cases stmt with
  | includeFile name =>
      dsimp only [Statement.run, includeGuard]
      rw [hSame name rfl]
  | _ => rfl

variable {world scripts}

/- A file without a script does not exist. -/
theorem configFileBody_script
    (hFiles : ScriptFiles world scripts)
    {filename : Text}
    (hNamed : scripts filename = none →
      world.files filename = none)
    (stack : List Text)
    {included included' :
      Option (Text → ConfigLoad → ConfigResult)}
    (hSame : ∀ name,
      (scripts name = none → world.files name = none) →
        included.map (fun parse => parse name) =
          included'.map fun parse => parse name)
    (load : ConfigLoad) :
    configFileBody world filename stack included load =
      scriptBody world scripts filename stack included'
        load := by
  unfold configFileBody scriptBody
  cases hScript : scripts filename with
  | none => rw [hNamed hScript]
  | some script =>
      rw [hFiles.files filename script hScript]
      dsimp only [Script.bytes]
      rw [readLines_writeLines,
        run_writeLines WrittenStatement.toLine
          (configFileLine_statement world filename stack
            included)]
      apply foldLines_congr
      intro written hMem lineNum state
      apply run_included
      intro name hName
      exact hSame name.text
        (hFiles.included filename script hScript written hMem
          name hName)

/-
  Whatever scripts include one another, from any line and in
  any section, their files are read as what they mean: each
  value arrives as it is, with all its blanks, quotes and
  comment signs.
-/
theorem configFileParse_scripts
    (hFiles : ScriptFiles world scripts)
    (room : Nat)
    (stack : List Text)
    {filename : Text}
    (hNamed : scripts filename = none →
      world.files filename = none)
    (load : ConfigLoad) :
    configFileParse world room stack filename load =
      scriptParse world scripts room stack filename load := by
  induction room generalizing stack filename load with
  | zero =>
      apply configFileBody_script hFiles hNamed
      exact fun _ _ => rfl
  | succ room ih =>
      apply configFileBody_script hFiles hNamed
      intro name hName
      refine congrArg some ?_
      funext load'
      exact ih _ hName load'

end Scripts

/- Without breaks and dollar signs a short line is written. -/
def Statement.written
    (stmt : Statement)
    (hPlain : 10 ∉ stmt.line ∧ 13 ∉ stmt.line ∧
      36 ∉ stmt.line)
    (hFits :
      (escapeText stmt.line).length < maxLineLength - 1) :
    WrittenStatement where
  stmt := stmt
  noBreak := by
    rintro chr hMem (rfl | rfl)
    · exact hPlain.2.1 hMem
    · exact hPlain.1 hMem
  noOpening := noOpening_of_not_mem hPlain.2.2
  fits := hFits

/- A tunnel, in the middle of which a file is included. -/
def tunnelScript : Script :=
  [(Statement.ssh ⟨field "a #1", by decide, by decide,
      by decide⟩).written (by decide) (by decide),
    (Statement.command ⟨field "ssh  -N 'b'", by decide,
      by decide, by decide⟩).written (by decide) (by decide),
    (Statement.includeFile ⟨field "more", by decide,
      by decide, by decide⟩).written (by decide) (by decide),
    (Statement.socksPort 9).written (by decide) (by decide)]

def moreScript : Script :=
  [Statement.main.written (by decide) (by decide),
    (Statement.ulimit (-1)).written (by decide) (by decide)]

def tunnelScripts
    (filename : Text) : Option Script :=
  if filename = field "config" then some tunnelScript
  else if filename = field "more" then some moreScript
  else none

def scriptWorld : ConfigWorld where
  environ := fun _ => none
  files := fun filename =>
    (tunnelScripts filename).map fun script =>
      ⟨script.bytes, false⟩
  junk := fun _ => Vector.replicate _ none
  directories := fun _ => none
  junkLog := fun _ => ⟨0, none⟩

theorem configFileParse_scripts_tunnel :
    configFileParse scriptWorld 199 [] (field "config")
        (ConfigLoad.init scriptWorld.junkLog) =
      scriptParse scriptWorld tunnelScripts 199 []
        (field "config")
        (ConfigLoad.init scriptWorld.junkLog) := by
  have hFiles : ScriptFiles scriptWorld tunnelScripts := by
    refine ⟨fun filename script hScript => ?_,
      fun filename script hScript written hMem name hName
        hNone => ?_⟩
    · exact congrArg (Option.map fun script : Script =>
        DiskFile.mk script.bytes false) hScript
    · exact congrArg (Option.map fun script : Script =>
        DiskFile.mk script.bytes false) hNone
  exact configFileParse_scripts hFiles 199 []
    (fun hNone => absurd hNone (by decide)) _

end SmartSOCKSProxy
