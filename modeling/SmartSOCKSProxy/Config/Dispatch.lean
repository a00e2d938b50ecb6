import SmartSOCKSProxy.Config.Changes
import SmartSOCKSProxy.Config.SectionNames

/-
  Which entry a keyword leads to.

  A line is compared with one keyword after another.  None of
  them is the beginning of another one, since each ends at its
  only space, so the order in which they are tried does not
  matter.

  Key definitions include:
    * `ConfigKeyword`, `ConfigKeyword.line`
    * `Word`
    * `ConfigLoad.logsTo`, `ConfigLoad.setLevel`

  Key theorems include:
    * `matchStart_keyword`
    * `mainEntry_keyword`, `logFileEntry_keyword`,
      `proxyInstanceEntry_keyword`, `sshTunnelEntry_keyword`
    * `sectionHeader_keyword`
-/

namespace SmartSOCKSProxy

------------------------------------------------------------
-- Keywords
------------------------------------------------------------

inductive ConfigKeyword where
| includeFile
| logFile
| proxy
| ssh
| logFilename
| logVerbosity
| ulimit
| byteCountMax
| fileRotateCount
| socksServer
| portForward
| httpServer
| route
| routeFile
| routeDir
| socksPort
| command
deriving DecidableEq, Repr

namespace ConfigKeyword

/- As the parser looks for it. -/
def name : ConfigKeyword → String
| includeFile => "include "
| logFile => "logfile "
| proxy => "proxy "
| ssh => "ssh "
| logFilename => "logFilename "
| logVerbosity => "logVerbosity "
| ulimit => "ulimit "
| byteCountMax => "byteCountMax "
| fileRotateCount => "fileRotateCount "
| socksServer => "socksServer "
| portForward => "portForward "
| httpServer => "httpServer "
| route => "route "
| routeFile => "routeFile "
| routeDir => "routeDir "
| socksPort => "socksPort "
| command => "command "

/- A line with the keyword and a value. -/
def line
    (k : ConfigKeyword)
    (value : Text) : Text :=
  field k.name ++ value

/- The keyword up to its space. -/
theorem takeWhile_line
    (k : ConfigKeyword)
    (value : Text) :
    (k.line value).takeWhile (· ≠ 32) =
      (field k.name).dropLast := by
  cases k <;> rfl

theorem word_injective
    {k k' : ConfigKeyword}
    (hSame :
      (field k.name).dropLast = (field k'.name).dropLast) :
    k = k' := by
  have hAll : ∀ k k' : ConfigKeyword,
      (field k.name).dropLast = (field k'.name).dropLast →
        k = k' := by
    intro k k'
    cases k <;> cases k' <;>
      first
      | exact fun _ => rfl
      | exact fun hSame => absurd hSame (by decide)
  exact hAll k k' hSame

end ConfigKeyword

theorem matchStart_keyword
    (k k' : ConfigKeyword)
    (value : Text) :
    matchStart (k.line value) (field k'.name) =
      if k = k' then some value else none := by
  split
  · rename_i hSame
    rw [hSame]
    exact matchStart_append (field k'.name) value
  · rename_i hOther
    have hNot :
        ¬ stringStartsWith (k.line value) (field k'.name) := by
      intro hStarts
      rcases (stringStartsWith_iff _ _).mp hStarts with
        ⟨rest, hRest⟩
      have hWord := k'.takeWhile_line rest
      unfold ConfigKeyword.line at hWord
      rw [hRest, ConfigKeyword.takeWhile_line] at hWord
      exact hOther (ConfigKeyword.word_injective hWord)
    rw [matchStart, if_neg hNot]

------------------------------------------------------------
-- Fields
------------------------------------------------------------

/- A value that is neither empty nor too long. -/
structure Word
    (size : Nat) where
  text : Text
  ne_nil : text ≠ []
  noNul : (0 : UInt8) ∉ text
  fits : text.length < size - 1

theorem Word.fillBuf_text
    {size : Nat}
    (value : Word size) :
    fillBuf size value.text = .value (CBuf.copy value.text) :=
  if_pos value.fits

theorem Word.text_copy
    {size : Nat}
    (value : Word size) :
    (CBuf.copy value.text : CBuf size).text = value.text :=
  text_copy_of_noNul value.noNul value.fits

section Fields

variable (k k' : ConfigKeyword)

theorem configSetString_keyword
    {size : Nat}
    (value : Word size) :
    configSetString size (k.line value.text)
        (field k'.name) =
      if k = k' then .value (CBuf.copy value.text)
      else .unset := by
  unfold configSetString
  rw [matchStart_keyword]
  split_ifs
  · dsimp only
    rw [if_neg value.ne_nil, value.fillBuf_text]
  · rfl

theorem stringField_keyword
    {β : Type}
    (value : Word stringBufLen)
    (use : Text → Setting β)
    (next : Setting β) :
    stringField (k.line value.text) k'.name use next =
      if k = k' then use value.text else next := by
  unfold stringField
  rw [configSetString_keyword]
  split_ifs
  · rw [Setting.orElse, value.text_copy]
  · rfl

theorem configSetInt_keyword
    {β : Type}
    (value : Text)
    (use : Int → Setting β)
    (next : Setting β) :
    (configSetInt (k.line value) (field k'.name)).orElse use
        next =
      if k = k' then (Text.scanInt value).elim next use
      else next := by
  unfold configSetInt
  rw [matchStart_keyword]
  split_ifs
  · rw [Option.bind_some]
    cases Text.scanInt value <;> rfl
  · rfl

theorem configSetLong_keyword
    {β : Type}
    (value : Text)
    (use : Int → Setting β)
    (next : Setting β) :
    (configSetLong (k.line value) (field k'.name)).orElse use
        next =
      if k = k' then (scanLong value).elim next use
      else next := by
  unfold configSetLong
  rw [matchStart_keyword]
  split_ifs
  · rw [Option.bind_some]
    cases scanLong value <;> rfl
  · rfl

end Fields

------------------------------------------------------------
-- Entries
------------------------------------------------------------

/- The log messages of the owner go to this file. -/
def ConfigLoad.logsTo
    (load : ConfigLoad)
    (owner : LogOwner)
    (filename : Text) : ConfigLoad :=
  let (config, address) :=
    findOrCreateLogFile load.config filename
  { load with
    config :=
      config.setLog
        (fun log => { log with file := some address }) owner }

def ConfigLoad.setLevel
    (load : ConfigLoad)
    (owner : LogOwner)
    (level : Int) : ConfigLoad :=
  { load with
    config :=
      load.config.setLog (fun log => { log with level })
        owner }

section Entries

variable (k : ConfigKeyword)
variable (value : Word stringBufLen)
variable (load : ConfigLoad)

theorem logEntries_keyword
    (owner : LogOwner)
    (next : Setting ConfigLoad) :
    logEntries (k.line value.text) load
        (fun f config => config.setLog f owner) next =
      if k = .logFilename then
        .value (load.logsTo owner value.text)
      else if k = .logVerbosity then
        if logLevelFromStr value.text = logLevelInvalid then
          .unset
        else
          .value
            (load.setLevel owner (logLevelFromStr value.text))
      else next := by
  unfold logEntries
  refine (stringField_keyword k .logFilename value _ _).trans
    (if_congr Iff.rfl rfl ?_)
  exact stringField_keyword k .logVerbosity value _ _

theorem mainEntry_keyword :
    mainEntry (k.line value.text) load =
      if k = .logFilename then
        .value (load.logsTo .main value.text)
      else if k = .logVerbosity then
        if logLevelFromStr value.text = logLevelInvalid then
          .unset
        else
          .value
            (load.setLevel .main (logLevelFromStr value.text))
      else if k = .ulimit then
        (Text.scanInt value.text).elim .unset fun ulimit =>
          .value
            { load with
              config :=
                { load.config with
                  mainConf :=
                    { load.config.mainConf with ulimit } } }
      else .unset := by
  unfold mainEntry
  refine (logEntries_keyword k value load .main _).trans
    (if_congr Iff.rfl rfl (if_congr Iff.rfl rfl ?_))
  exact configSetInt_keyword k .ulimit value.text _ _

theorem logFileEntry_keyword
    (address : Nat) :
    logFileEntry (k.line value.text) address load =
      if k = .byteCountMax then
        (scanLong value.text).elim .unset fun byteCountMax =>
          .value
            { load with
              config :=
                load.config.updateLogFile address
                  fun log => { log with byteCountMax } }
      else if k = .fileRotateCount then
        (scanLong value.text).elim .unset fun fileRotateCount =>
          .value
            { load with
              config :=
                load.config.updateLogFile address
                  fun log => { log with fileRotateCount } }
      else .unset := by
  have hSecond :=
    configSetLong_keyword k .fileRotateCount value.text
      (fun fileRotateCount =>
        .value
          { load with
            config :=
              load.config.updateLogFile address
                fun log => { log with fileRotateCount } })
      .unset
  unfold logFileEntry
  refine (configSetLong_keyword k .byteCountMax value.text _
    _).trans ?_
  by_cases hFirst : k = .byteCountMax
  · have hOther : k ≠ .fileRotateCount := by
      rw [hFirst]
      decide
    rw [if_neg hOther] at hSecond
    rw [if_pos hFirst, if_pos hFirst]
    cases scanLong value.text with
    | none => exact hSecond
    | some byteCountMax => rfl
  · rw [if_neg hFirst, if_neg hFirst]
    exact hSecond

theorem proxyInstanceEntry_keyword
    (world : ConfigWorld)
    (filename : Text)
    (lineNum : Nat)
    (ref : ProxyRef) :
    proxyInstanceEntry world filename lineNum
        (k.line value.text) ref load =
      if k = .logFilename then
        .value (load.logsTo (.proxy ref) value.text)
      else if k = .logVerbosity then
        if logLevelFromStr value.text = logLevelInvalid then
          .unset
        else
          .value
            (load.setLevel (.proxy ref)
              (logLevelFromStr value.text))
      else if k = .socksServer then
        insertService load ref
          (socksService value.text load.serviceIdPool)
      else if k = .portForward then
        insertService load ref
          (portForwardService value.text load.serviceIdPool)
      else if k = .httpServer then
        insertService load ref
          (httpService value.text load.serviceIdPool)
      else if k = .route then
        addRules load ref
          (loadRoute world.toFileWorld load.config.tunnels
            value.text filename lineNum)
      else if k = .routeFile then
        addRules load ref
          (loadRouteFile world.toFileWorld load.config.tunnels
            value.text)
      else if k = .routeDir then
        addRules load ref
          (loadRouteDir world load.config.tunnels value.text)
      else .unset := by
  unfold proxyInstanceEntry
  refine (logEntries_keyword k value load (.proxy ref)
    _).trans
    (if_congr Iff.rfl rfl (if_congr Iff.rfl rfl ?_))
  refine (stringField_keyword k .socksServer value _ _).trans
    (if_congr Iff.rfl rfl ?_)
  refine (stringField_keyword k .portForward value _ _).trans
    (if_congr Iff.rfl rfl ?_)
  refine (stringField_keyword k .httpServer value _ _).trans
    (if_congr Iff.rfl rfl ?_)
  refine (stringField_keyword k .route value _ _).trans
    (if_congr Iff.rfl rfl ?_)
  refine (stringField_keyword k .routeFile value _ _).trans
    (if_congr Iff.rfl rfl ?_)
  exact stringField_keyword k .routeDir value _ _

theorem sshTunnelEntry_keyword
    (id : Nat) :
    sshTunnelEntry (k.line value.text) id load =
      if k = .socksPort then
        (Text.scanInt value.text).elim .unset fun socksPort =>
          .value
            { load with
              config :=
                load.config.updateSsh id fun ssh =>
                  { ssh with
                    tunnel := { ssh.tunnel with socksPort } } }
      else if k = .command then
        .value
          { load with
            config :=
              load.config.updateSsh id fun ssh =>
                { ssh with
                  tunnel :=
                    { ssh.tunnel with
                      commandToRun :=
                        CBuf.copy value.text } } }
      else if k = .logFilename then
        .value (load.logsTo (.ssh id) value.text)
      else if k = .logVerbosity then
        if logLevelFromStr value.text = logLevelInvalid then
          .unset
        else
          .value
            (load.setLevel (.ssh id)
              (logLevelFromStr value.text))
      else .unset := by
  have hLog := logEntries_keyword k value load (.ssh id)
    .unset
  have hCommand :
      configSetString 8192 (k.line value.text)
          (field "command ") =
        if k = .command then .value (CBuf.copy value.text)
        else .unset :=
    configSetString_keyword k .command value
  unfold sshTunnelEntry
  dsimp only
  refine (configSetInt_keyword k .socksPort value.text _
    _).trans ?_
  rw [hCommand]
  by_cases hFirst : k = .socksPort
  · subst hFirst
    rw [if_pos rfl, if_pos rfl]
    cases Text.scanInt value.text with
    | none => exact hLog
    | some socksPort => rfl
  rw [if_neg hFirst, if_neg hFirst]
  by_cases hSecond : k = .command
  · rw [if_pos hSecond, if_pos hSecond]
    rfl
  · rw [if_neg hSecond, if_neg hSecond]
    exact hLog

end Entries

------------------------------------------------------------
-- Headers
------------------------------------------------------------

/- A header of another kind. -/
theorem namedSection_other
    {k k' : ConfigKeyword}
    (hOther : k ≠ k')
    (value : Text)
    (load : ConfigLoad)
    (fallback : Section)
    (find : Text → Option Section)
    (create : Text → Header) :
    namedSection (k.line value) (field k'.name) load fallback
      find create = .other := by
  unfold namedSection
  rw [matchStart_keyword, if_neg hOther]

theorem line_ne_main
    (k : ConfigKeyword)
    (value : Text) :
    k.line value ≠ field "main" := by
  intro hMain
  have hWord := k.takeWhile_line value
  rw [hMain] at hWord
  cases k <;> exact absurd hWord (by decide)

section Headers

variable (world : ConfigWorld)
variable (k : ConfigKeyword)
variable (value : Text)
variable (load : ConfigLoad)

theorem sectionHeader_keyword :
    sectionHeader world (k.line value) load =
      if k = .logFile then
        logFileHeader (k.line value) load
      else if k = .proxy then
        proxyInstanceHeader (k.line value) load
      else if k = .ssh then
        sshTunnelHeader world (k.line value) load
      else .other := by
  have hLog : k ≠ .logFile →
      logFileHeader (k.line value) load = .other :=
    fun hOther => namedSection_other hOther value load _ _ _
  have hProxy : k ≠ .proxy →
      proxyInstanceHeader (k.line value) load = .other :=
    fun hOther => namedSection_other hOther value load _ _ _
  have hSsh : k ≠ .ssh →
      sshTunnelHeader world (k.line value) load = .other :=
    fun hOther => namedSection_other hOther value load _ _ _
  unfold sectionHeader
  rw [if_neg (line_ne_main k value)]
  by_cases hFirst : k = .logFile
  · have hNotProxy : k ≠ .proxy := by
      rw [hFirst]
      decide
    have hNotSsh : k ≠ .ssh := by
      rw [hFirst]
      decide
    rw [if_pos hFirst, hProxy hNotProxy, hSsh hNotSsh]
    cases logFileHeader (k.line value) load <;> rfl
  rw [if_neg hFirst, hLog hFirst]
  by_cases hSecond : k = .proxy
  · have hNotSsh : k ≠ .ssh := by
      rw [hSecond]
      decide
    rw [if_pos hSecond, hSsh hNotSsh]
    cases proxyInstanceHeader (k.line value) load <;> rfl
  rw [if_neg hSecond, hProxy hSecond]
  by_cases hThird : k = .ssh
  · rw [if_pos hThird]
  · rw [if_neg hThird]
    exact hSsh hThird

end Headers

end SmartSOCKSProxy
