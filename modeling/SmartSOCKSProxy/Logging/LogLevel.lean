import SmartSOCKSProxy.Foundations.CString

/-
  The names of the log levels.

  Key definitions include:
    * `logLevelStr`, `logLevelFromStr`

  Key theorems include:
    * `logLevelFromStr_logLevelStr`
-/

namespace SmartSOCKSProxy

/- A string constant. -/
def lit (str : String) : Option Text :=
  some (Text.ascii str.toList)

/- The table of log_level_str(); other levels have no name. -/
def logLevelStr
    (level : Int) : Option Text :=
  match level with
  | 0 => lit "trace2"
  | 1 => lit "trace"
  | 2 => lit "debug"
  | 3 => lit "info"
  | 4 => lit "warn"
  | 5 => lit "error"
  | _ => none

abbrev logLevelInvalid : Int := -1

/- `strcasecmp(name, str) == 0` -/
def sameIgnoringCase
    (name : Option Text)
    (str : Text) : Bool :=
  name.map Text.lower = some (Text.lower str)

/- The first level of the table with a name like this. -/
def logLevelFromStr
    (levelStr : Text) : Int :=
  (([0, 1, 2, 3, 4, 5] : List Int).find? fun level =>
    sameIgnoringCase (logLevelStr level) levelStr).getD
      logLevelInvalid

/- A level that has a name is found by its name. -/
theorem logLevelFromStr_logLevelStr
    {level : Int}
    {name : Text}
    (hName : logLevelStr level = some name) :
    logLevelFromStr name = level := by
  unfold logLevelStr at hName
  split at hName
  all_goals cases hName
  all_goals decide

end SmartSOCKSProxy
