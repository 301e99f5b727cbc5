/-
`CControlObject::readJSON`, section by section: the required general settings,
the encryption key, the logging block, the MQTT block and the two driver blocks.
A section that ends `readJSON` with false ends with false.
-/
import Mathlib.Data.List.Infix
import MqttVscpd.ControlObject

namespace MqttVscpd

open Trying

/-! ## Main General -/

/-- The end of `readJSON` at a setting it cannot do without. -/
def failRequired (key : String) : Ctl Bool := do
  log .err s!"ReadConfig: Failed to read '{key}'. Must be present."
  return false

/-- A required string under `key`. -/
def readRequired (j : Json) (key : String) (set : String → ControlObject → ControlObject)
    (value : ControlObject → String) : Ctl Bool :=
  catching
    (do
      if j.contains key then
        let s ← (← j.index key).getString
        modify (set s)
        let c ← get
        log .debug s!"ReadConfig: '{key}' set to {value c}"
        return true
      else failRequired key)
    (fun _ => failRequired key)

def readRunAsUser (j : Json) : Ctl Bool :=
  readRequired j "runasuser" (fun s c => { c with runAsUser := s }) (·.runAsUser)

def readGuid (env : Environment) (j : Json) : Ctl Bool :=
  readRequired j "guid" (fun s c => { c with guid := env.getFromString c.guid s }) fun c => env.getAsString c.guid

def readServerName (j : Json) : Ctl Bool :=
  readRequired j "servername" (fun s c => { c with strServerName := s }) (·.strServerName)

def readClassTypeDb (j : Json) : Ctl Bool :=
  readRequired j "classtypedb" (fun s c => { c with pathClassTypeDefinitionDb := s }) (·.pathClassTypeDefinitionDb)

def readMainDb (j : Json) : Ctl Bool :=
  readRequired j "maindb" (fun s c => { c with pathMainDb := s }) (·.pathMainDb)

/-- `vscp_hexStr2ByteArray(__vscp_key, 32, ..)` writing the decoded bytes. -/
def writeKey (key : Vector UInt8 32) (bytes : List UInt8) : Vector UInt8 32 :=
  Vector.ofFn fun i => (bytes[i.val]?).getD key[i]

def readEncryptionKey (env : Environment) (path : String) : Ctl Bool := do
  log .debug s!"Reading encryption key {path}"
  match env.readFile path with
  | some hexstr =>
    log .debug s!"key={hexstr}"
    let bytes := env.hexStr2ByteArray hexstr
    modify fun c => { c with vscpKey := writeKey c.vscpKey bytes }
    return bytes.length = 32
  | none =>
    log .err s!"[vscpl2drv-tcpipsrv] Failed to read encryption key file {path}"
    return false

/-- The key file at the path the configuration gives, or at the empty path. -/
def readKeyFile (env : Environment) (pathvscpkey : String) : Ctl Bool := do
  log .debug s!"ReadConfig: 'path to vscp key' set to {pathvscpkey}"
  if !(← readEncryptionKey env pathvscpkey) then
    log .err (s!"ReadConfig: 'Failed to read in encryption key {pathvscpkey} " ++
      "(default key will be used). Not secure. MUST be fixed!")
  return true

def readVscpKey (env : Environment) (j : Json) : Ctl Bool :=
  catching
    (do
      if j.contains "vscpkey" then
        let pathvscpkey ← (← j.index "vscpkey").getString
        readKeyFile env pathvscpkey
      else
        log .err "ReadConfig: 'Failed to read in encryption key "
        readKeyFile env "")
    (fun _ => failRequired "vscpkey")

/-! ## Logging -/

def missingLogging (key : String) : String :=
  s!"ReadConfig: Failed to read LOGGING '{key}' Defaults will be used."

/-- A value under `key`; one of another type leaves the setting as it was. -/
def readLoggingValue {α : Type} (j : Json) (key : String) (read : Json → Except Failure α)
    (set : α → ControlObject → ControlObject) (report : ControlObject → String) (missing : String) :
    Ctl Unit := do
  if (← j.index "logging").contains key then
    catching
      (do
        let v ← read (← (← j.index "logging").index key)
        modify (set v))
      (fun ex => log .err s!"ReadConfig: Failed to read '{key}' Error='{ex.what}'")
    let c ← get
    log .debug s!"ReadConfig: LOGGING '{key}' set to {report c}"
  else log .debug missing

/-- The levels a configuration can name, in the order they are looked for. -/
def logLevelNames : List (String × LogLevel) :=
  [("off", .off), ("critical", .critical), ("err", .err), ("warn", .warn), ("info", .info), ("debug", .debug),
    ("trace", .trace)]

/-- The first level whose name is part of the text. -/
def findLogLevel (s : String) : Option (String × LogLevel) :=
  logLevelNames.find? fun p => p.1.toList <:+: s.toList

/-- Set the level a text names, in lower case. -/
def setLogLevel (key str : String) (set : LogLevel → ControlObject → ControlObject) : Ctl Unit :=
  match findLogLevel str with
  | some (name, level) => do
    modify (set level)
    log .debug s!"ReadConfig: LOGGING '{key}' set to '{name}'."
  | none => log .debug s!"ReadConfig: LOGGING '{key}' has invalid value [{str}]. Default value used."

/-- A log level under `key`; `errorKey` is what its error calls the key, and `missing` what an absent key logs. -/
def readLogLevel (j : Json) (key errorKey : String) (missing : Option String)
    (set : LogLevel → ControlObject → ControlObject) : Ctl Unit := do
  if (← j.index "logging").contains key then
    let str ← catching
      (do (← (← j.index "logging").index key).getString)
      (fun ex => do
        log .err s!"ReadConfig: Failed to read '{errorKey}' Error='{ex.what}'"
        return "")
    setLogLevel key str.toLower set
  else
    match missing with
    | some text => log .debug text
    | none => return ()

def readFileLogging (j : Json) : Ctl Unit := do
  readLoggingValue j "file-enable-log" Json.getBool (fun v c => { c with bEnableFileLog := v })
    (fun c => toString c.bEnableFileLog) (missingLogging "file-enable-log")
  readLogLevel j "file-log-level" "file-log-level" (some (missingLogging "file-log-level"))
    fun v c => { c with fileLogLevel := v }
  readLoggingValue j "file-pattern" Json.getString (fun v c => { c with fileLogPattern := v })
    (fun c => s!"{c.fileLogPattern}.") (missingLogging "file-pattern")
  readLoggingValue j "file-path" Json.getString (fun v c => { c with pathToLogFile := v })
    (fun c => s!"'{c.pathToLogFile}'.") (missingLogging "file-path")
  readLoggingValue j "file-max-size" Json.getUInt32 (fun v c => { c with maxLogSize := v })
    (fun c => s!"'{c.maxLogSize}'.") (missingLogging "file-max-size")
  readLoggingValue j "file-max-files" Json.getUInt16 (fun v c => { c with maxLogFiles := v })
    (fun c => s!"'{c.maxLogFiles}'.") (missingLogging "file-max-files")

def readConsoleLogging (j : Json) : Ctl Unit := do
  readLoggingValue j "console-enable-log" Json.getBool (fun v c => { c with bEnableConsoleLog := v })
    (fun c => toString c.bEnableConsoleLog) (missingLogging "console-enable-log")
  -- Two texts name another key.
  readLogLevel j "console-log-level" "console-enable-level" (some (missingLogging "file-log-level"))
    fun v c => { c with consoleLogLevel := v }
  readLoggingValue j "console-pattern" Json.getString (fun v c => { c with consoleLogPattern := v })
    (fun c => s!"{c.consoleLogPattern}.") (missingLogging "console-pattern")

def readSysLogging (j : Json) : Ctl Unit := do
  readLoggingValue j "syslog-enable-log" Json.getBool (fun v c => { c with bEnableSysLog := v })
    (fun c => toString c.bEnableSysLog) (missingLogging "syslog-enable-log")
  readLogLevel j "syslog-log-level" "syslog-log-level" (some (missingLogging "syslog-log-level"))
    fun v c => { c with sysLogLevel := v }
  readLoggingValue j "syslog-ident" Json.getString (fun v c => { c with sysLogIdent := v })
    (fun c => s!"{c.sysLogIdent}.") (missingLogging "syslog-ident")

def readUdpLogging (j : Json) : Ctl Unit := do
  readLoggingValue j "udp-enable-log" Json.getBool (fun v c => { c with bEnableUdpLog := v })
    (fun c => toString c.bEnableUdpLog) (missingLogging "udp-enable-log")
  -- An absent level is not logged.
  readLogLevel j "udp-log-level" "udp-log-level" none fun v c => { c with udpLogLevel := v }
  readLoggingValue j "udp-pattern" Json.getString (fun v c => { c with udpLogPattern := v })
    (fun c => s!"{c.udpLogPattern}.") "ReadConfig: Failed to read LOGGING 'udp-pattern'. Defaults will be used."
  readLoggingValue j "udp-host" Json.getString (fun v c => { c with udpLogHost := v })
    (fun c => s!"{c.udpLogHost}.") (missingLogging "udp-host")
  readLoggingValue j "udp-port" Json.getUInt16 (fun v c => { c with udpLogPort := v })
    (fun c => s!"{c.udpLogPort}.") (missingLogging "udp-port")

/-- `j.contains(key) && j[key].is_object()` -/
def holdsObject (j : Json) (key : String) : Ctl Bool :=
  pure (j.contains key) <&&> do return (← j.index key).isObject

def readLogging (j : Json) : Ctl Bool := do
  if !(← holdsObject j "logging") then
    log .debug "ReadConfig: logging object. Defaults will be used for all values."
  else
    readFileLogging j
    readConsoleLogging j
    readSysLogging j
    readUdpLogging j
  return true

/-! ## Main MQTT -/

/-- A topic under `key`, read outside any `try`. -/
def readTopic (j : Json) (key : String) (set : String → ControlObject → ControlObject) (missing : String) :
    Ctl Unit := do
  if (← j.index "mqtt").contains key then
    let s ← (← (← j.index "mqtt").index key).getString
    modify (set s)
    log .debug s!"ReadConfig: MQTT '{key}' set to {s}"
  else log .debug s!"ReadConfig: Failed to read MQTT '{key}'. {missing}"

/-- "Add base as prefix if defined" -/
def addTopicBase (c : ControlObject) : ControlObject :=
  if c.topicDaemonBase.length ≠ 0 then
    { c with
      topicDrivers := c.topicDaemonBase ++ c.topicDrivers
      topicDiscovery := c.topicDaemonBase ++ c.topicDiscovery }
  else c

def readMqtt (env : Environment) (j : Json) : Ctl Bool := do
  if !(← holdsObject j "mqtt") then
    log .debug "ReadConfig: mqtt object. Defaults will be used."
    return true
  else
    let mqtt ← j.index "mqtt"
    modify fun c => { c with mqttClient := { c.mqttClient with inits := c.mqttClient.inits ++ [mqtt] } }
    if !env.initFromJson mqtt then
      log .err "ReadConfig: Failed to initialize MQTT."
      return false
    else
      readTopic j "topic-daemon-base" (fun s c => { c with topicDaemonBase := s }) "Defaults will be used \"\"."
      readTopic j "topic-drivers" (fun s c => { c with topicDrivers := s }) "Defaults will be used."
      readTopic j "topic-discovery" (fun s c => { c with topicDiscovery := s }) "Defaults will be used."
      modify addTopicBase
      return true

/-! ## Drivers -/

/-- `(*it)[key].is_string()` -/
def stringAt (it : Json) (key : String) : Except Failure Bool := do return (← it.entry key).isString

/-- `(*it)[key].get<std::string>()` -/
def getStringAt (it : Json) (key : String) : Except Failure String := do (← it.entry key).getString

/-- `(*it).contains(key) && (*it)[key].is_object()` -/
def objectAt (it : Json) (key : String) : Except Failure Bool :=
  pure (it.contains key) <&&> do return (← it.entry key).isObject

/-- The MQTT block of a driver entry, applied to the first item of the entry's name. -/
def readDriverMqtt (env : Environment) (it : Json) (level : String) (report : Ctl Unit) : Ctl Bool := do
  if !(← objectAt it "mqtt") then
    log .debug "ReadConfig: mqtt object. Defaults will be used."
    return true
  else
    let name ← getStringAt it "name"
    match getDeviceItemFromName (← get).devItemList name with
    | none =>
      log .debug "ReadConfig: Driver MQTT info can not be added. Driver not found."
      return true
    | some i =>
      let mqtt ← it.entry "mqtt"
      modify fun c => { c with devItemList := c.devItemList.modify i (·.setMqtt mqtt) }
      report
      if !env.initFromJson mqtt then
        log .err s!"ReadConfig: {level} Driver: Failed to initialize MQTT."
        return false
      else return true

/-- From `addItem` to the end of a driver entry. -/
def addDriver (env : Environment) (it : Json) (level name path added : String) (add : Ctl Bool)
    (report : Ctl Unit) : Ctl Bool := do
  if !(← add) then
    log .debug s!"ReadConfig: {level} driver not added name={name}. Path does not exist. - [{path}]"
    return true
  else
    log .debug added
    readDriverMqtt env it level report

/-- Whether a Level I entry is enabled and has its required fields. -/
def acceptsLevel1 (it : Json) : Except Failure Bool :=
  it.valueBool "enable" false <&&> stringAt it "name" <&&> stringAt it "config" <&&> stringAt it "path" <&&>
    stringAt it "guid" <&&> do return (← it.entry "translation").isNumber

/-- The flags of a Level I entry: a number, a string to decode, or 0. -/
def readFlags (env : Environment) (it : Json) : Except Failure UInt32 := do
  if (← it.entry "flags").isNumber then (← it.entry "flags").getUInt32
  else if (← it.entry "flags").isString then return env.readStringValue (← getStringAt it "flags")
  else return 0

def readLevel1Driver (env : Environment) (it : Json) : Ctl Bool := do
  if !(← acceptsLevel1 it) then return true
  else
    let flags ← readFlags env it
    let name ← getStringAt it "name"
    let config ← getStringAt it "config"
    let path ← getStringAt it "path"
    let guid ← getStringAt it "guid"
    let translation ← (← it.entry "translation").getUInt8
    log .debug (s!"ReadConfig: Adding Level I driver with name = {name} and config = {config} and path = {path}" ++
      s!" and flags = {flags} and guid = {guid} and translation = {translation}")
    addDriver env it "Level I" name path s!"ReadConfig: Level I driver added. name = {name} - [{path}]"
      (addItem env name config path flags (env.getFromString Guid.nil guid) VSCP_DRIVER_LEVEL1 translation.toUInt32)
      (log .debug s!"ReadConfig: mqtt object for driver {name}. No drivers will be used. Path = {path}")

/-- Whether a Level II entry is enabled and has its required fields. -/
def acceptsLevel2 (it : Json) : Except Failure Bool :=
  it.valueBool "enable" false <&&> stringAt it "name" <&&> stringAt it "path-config" <&&>
    stringAt it "path-driver" <&&> stringAt it "guid"

def readLevel2Driver (env : Environment) (it : Json) : Ctl Bool := do
  if !(← acceptsLevel2 it) then return true
  else
    let name ← getStringAt it "name"
    let config ← getStringAt it "path-config"
    let path ← getStringAt it "path-driver"
    let guid ← getStringAt it "guid"
    log .trace s!"ReadConfig: Adding Level II driver with name = {name} and path = {path}"
    addDriver env it "Level II" name path s!"ReadConfig: Level II driver added. name = {name}- [{path}]"
      (addItem env name config path 0 (env.getFromString Guid.nil guid) VSCP_DRIVER_LEVEL2 NO_TRANSLATION)
      (pure ())

/-- The loop over a driver block, which a false ends. -/
def readEntries (read : Json → Ctl Bool) : List Json → Ctl Bool
  | [] => pure true
  | it :: its => read it <&&> readEntries read its

/-- One driver block. It is skipped when it is an object, and looked up when it is absent. -/
def readDriverBlock (j : Json) (key level : String) (read : Json → Ctl Bool) : Ctl Bool := do
  if ← holdsObject (← j.index "drivers") key then return true
  else
    log .debug s!"ReadConfig: {level} driver config."
    let sub ← (← j.index "drivers").index key
    readEntries read sub.elements

def readDrivers (env : Environment) (j : Json) : Ctl Bool := do
  if !(← holdsObject j "drivers") then
    log .debug "ReadConfig: drivers object. No drivers will be used."
    return true
  else
    readDriverBlock j "level1" "Level I" (readLevel1Driver env) <&&>
      readDriverBlock j "level2" "Level II" (readLevel2Driver env)

/-- `CControlObject::readJSON` -/
def readJSON (env : Environment) (j : Json) : Ctl Bool :=
  readRunAsUser j <&&> readGuid env j <&&> readServerName j <&&> readClassTypeDb j <&&> readMainDb j <&&>
    readVscpKey env j <&&> readLogging j <&&> readMqtt env j <&&> readDrivers env j

end MqttVscpd
