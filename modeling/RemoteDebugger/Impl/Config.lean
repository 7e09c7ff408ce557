import Mathlib.Data.List.DropRight
import RemoteDebugger.Framework.Bytes

/-!
# The configuration of the upload

`rrd_config.c`: `rrd_config_load` and the readers of its sources,
`rrd_config_parse_properties`, `rrd_config_query_rfc` and
`rrd_config_parse_dcm_settings`. A file is its bytes, or `none` where it cannot
be opened.
-/

namespace RRD

open Framework

/-! ## Reading lines -/

def newline : Byte := 10

/-- The lines that `fgets` reads of `n` bytes at most, after the bytes `line` of the first one. -/
def fgetsLines (n : Nat) (line : Str) : Str → List Str
  | [] => if line = [] then [] else [line]
  | b :: s =>
    if b = newline ∨ n ≤ line.length + 1 then (line ++ [b]) :: fgetsLines n [] s
    else fgetsLines n (line ++ [b]) s

/-- The strings in `char line[size]` as a file is read by `fgets`. -/
def readLines (size : Nat) (content : Str) : List Str := (fgetsLines (size - 1) [] content).map cstr

def isBlank (b : Byte) : Bool := b = ch ' ' ∨ b = 9 ∨ b = newline ∨ b = 13

def trim (s : Str) : Str := (s.dropWhile isBlank).rdropWhile isBlank

/-- The key and the value of a line, trimmed, if it has a `=`. -/
def keyValue (line : Str) : Option (Str × Str) :=
  if ch '=' ∈ line then
    some (trim (line.takeWhile (· ≠ ch '=')), trim ((line.dropWhile (· ≠ ch '=')).drop 1))
  else none

/-! ## The configuration -/

/-- The string fields of `rrd_config_t`. -/
inductive ConfigKey where
  | logServer
  | httpUploadLink
  | uploadProtocol
  | rdkPath
  | logPath
  | buildType
  deriving DecidableEq, Repr

/-- The size of the field. -/
def ConfigKey.size : ConfigKey → Nat
  | logServer => 256
  | httpUploadLink => 512
  | uploadProtocol => 16
  | rdkPath => 256
  | logPath => 256
  | buildType => 32

/-- `rrd_config_t`, whose fields are the strings they hold. -/
structure RrdConfig where
  logServer : Str
  httpUploadLink : Str
  uploadProtocol : Str
  rdkPath : Str
  logPath : Str
  buildType : Str
  useRfcConfig : Bool
  deriving DecidableEq, Repr

def RrdConfig.get (config : RrdConfig) : ConfigKey → Str
  | .logServer => config.logServer
  | .httpUploadLink => config.httpUploadLink
  | .uploadProtocol => config.uploadProtocol
  | .rdkPath => config.rdkPath
  | .logPath => config.logPath
  | .buildType => config.buildType

/-- `strncpy` into a field, all but its last byte. -/
def RrdConfig.put (config : RrdConfig) (k : ConfigKey) (val : Str) : RrdConfig :=
  let val := val.take (k.size - 1)
  match k with
  | .logServer => { config with logServer := val }
  | .httpUploadLink => { config with httpUploadLink := val }
  | .uploadProtocol => { config with uploadProtocol := val }
  | .rdkPath => { config with rdkPath := val }
  | .logPath => { config with logPath := val }
  | .buildType => { config with buildType := val }

/-- The configuration before any source is read. -/
def RrdConfig.initial : RrdConfig := ⟨[], [], str "HTTP", [], [], [], false⟩

/-- Assignments, one after the other. -/
def RrdConfig.assign (config : RrdConfig) (l : List (ConfigKey × Str)) : RrdConfig :=
  l.foldl (fun config a => config.put a.1 a.2) config

/-- The field of the key in upper case. -/
def simpleKey (key : Str) : Option ConfigKey :=
  if key = str "LOG_SERVER" then some .logServer
  else if key = str "HTTP_UPLOAD_LINK" then some .httpUploadLink
  else if key = str "UPLOAD_PROTOCOL" then some .uploadProtocol
  else if key = str "RDK_PATH" then some .rdkPath
  else if key = str "LOG_PATH" then some .logPath
  else if key = str "BUILD_TYPE" then some .buildType
  else none

/-! ## Property files -/

/-- The field that a line of a property file sets. -/
def propertiesLine (line : Str) : Option (ConfigKey × Str) := do
  let (key, val) ← keyValue line
  if key = [] ∨ val = [] then none else (simpleKey key).map (·, val)

/-- The assignments that a property file makes. -/
def propertiesLines (file : Option Str) : List (ConfigKey × Str) :=
  (file.map (readLines 1024)).getD [] |>.filterMap propertiesLine

/-- `rrd_config_parse_properties`. -/
def parseProperties (file : Option Str) (config : RrdConfig) : Int × RrdConfig :=
  match file with
  | none => (-2, config)
  | some _ => (0, config.assign (propertiesLines file))

/-! ## DCM settings -/

/-- The value without quotes around it. -/
def unquoteValue (val : Str) : Str :=
  if 2 ≤ val.length ∧ val.head? = some (ch '"') ∧ val.getLast? = some (ch '"') then val.dropLast.drop 1 else val

def uploadUrlKey : Str := str "LogUploadSettings:UploadRepository:URL"
def uploadProtocolKey : Str := str "LogUploadSettings:UploadRepository:uploadProtocol"

/-- The field that a line of the DCM settings sets. -/
def dcmLine (line : Str) : Option (ConfigKey × Str) := do
  let (key, val) ← keyValue line
  let val := unquoteValue val
  if key = uploadUrlKey then if val ≠ [] then some (.httpUploadLink, val) else none
  else if key = uploadProtocolKey then
    if val ≠ [] then some (.uploadProtocol, val) else some (.uploadProtocol, str "HTTP")
  else if val ≠ [] then (simpleKey key).map (·, val)
  else none

/-- The assignments that the DCM settings make. -/
def dcmLines (file : Option Str) : List (ConfigKey × Str) :=
  (file.map (readLines 1024)).getD [] |>.filterMap dcmLine

/-- `rrd_config_parse_dcm_settings`. -/
def parseDcmSettings (file : Option Str) (config : RrdConfig) : Int × RrdConfig :=
  match file with
  | none => (-2, config)
  | some _ => (0, config.assign (dcmLines file))

/-! ## RFC -/

/-- What a command prints, and the status it exits with. -/
structure CommandResult where
  output : Str
  status : Int
  deriving DecidableEq, Repr

/-- The sources of the configuration. A command that cannot be started is `none`. -/
structure ConfigSources where
  includeProperties : Option Str
  deviceProperties : Option Str
  /-- `/usr/bin/tr181`. -/
  tr181 : Option Str
  logServerUrl : Option CommandResult
  ssrUrl : Option CommandResult
  /-- `/tmp/DCMSettings.conf`. -/
  dcmSettings : Option Str
  /-- `/opt/dcm.properties`. -/
  optDcmProperties : Option Str
  /-- `/etc/dcm.properties`. -/
  etcDcmProperties : Option Str
  deriving DecidableEq, Repr

/-- `file_exists`: there is a file, and it is not empty. -/
def fileExists (file : Option Str) : Bool :=
  match file with
  | none => false
  | some content => content ≠ []

/-- `execute_command` with a buffer of `outputSize` bytes: the output when it returns 0. -/
def executeCommand (outputSize : Nat) (result : Option CommandResult) : Option Str := do
  let result ← result
  let output := (readLines outputSize result.output).headD []
  let output := if output.getLast? = some newline then output.dropLast else output
  if result.status = 0 ∧ output ≠ [] then some output else none

/-- The value of a parameter: what the command answers, trimmed, unless that is empty or `null`. -/
def rfcValue (result : Option CommandResult) : Option Str := do
  let output := trim (← executeCommand 512 result)
  if output ≠ [] ∧ output ≠ str "null" then some output else none

/-- `rrd_config_query_rfc`. -/
def queryRfc (src : ConfigSources) (config : RrdConfig) : Int × RrdConfig :=
  if ¬ fileExists src.tr181 then (-1, config)
  else
    let (foundServer, config) := match rfcValue src.logServerUrl with
      | none => (false, config)
      | some output => (true, config.put .logServer output)
    let (foundLink, config) :=
      if config.httpUploadLink = [] then match rfcValue src.ssrUrl with
        | none => (false, config)
        | some output => (true, config.put .httpUploadLink ((output ++ str "/cgi-bin/S3.cgi").take 599))
      else (false, config)
    (if foundServer ∨ foundLink then 0 else -2, config)

/-! ## Loading -/

/-- The configuration after `/etc/include.properties` and `/etc/device.properties`. -/
def loadProperties (src : ConfigSources) : RrdConfig :=
  (parseProperties src.deviceProperties (parseProperties src.includeProperties RrdConfig.initial).2).2

/-- The test for the override file. -/
def overridden (src : ConfigSources) (config : RrdConfig) : Bool :=
  config.buildType ≠ str "prod" ∧ fileExists src.optDcmProperties

/-- The configuration after RFC and the DCM settings. -/
def loadRemote (src : ConfigSources) (config : RrdConfig) : RrdConfig :=
  let (rfcOk, config) := queryRfc src config
  let config := if rfcOk = 0 then { config with useRfcConfig := true } else config
  (parseDcmSettings src.dcmSettings config).2

/-- The file that the fallback reads. -/
def dcmFile (src : ConfigSources) (config : RrdConfig) : Option Str :=
  if overridden src config then src.optDcmProperties
  else if fileExists src.etcDcmProperties then src.etcDcmProperties
  else none

/-- The configuration after the fallback. -/
def loadFallback (src : ConfigSources) (config : RrdConfig) : RrdConfig :=
  if config.logServer = [] ∨ config.httpUploadLink = [] then
    match dcmFile src config with
    | none => config
    | some content => (parseProperties (some content) config).2
  else config

/-- `rrd_config_load`. -/
def rrdConfigLoad (src : ConfigSources) : Int × RrdConfig :=
  let config := loadProperties src
  let config := if overridden src config then config else loadRemote src config
  let config := loadFallback src config
  if config.logServer = [] then (-2, config)
  else if config.httpUploadLink = [] then (-3, config)
  else (0, config)

end RRD
