/-
`CControlObject` as configuration reading sees it: the fields `readJSON` writes
with the constructor's values, the device list, the VSCP key and the log records
emitted, and the programs over it. The helper library, the MQTT client and the
file system answer through an `Environment`.
-/
import Mathlib.Data.List.TakeWhile
import MqttVscpd.DeviceItem
import MqttVscpd.Lib.Trying

namespace MqttVscpd

open Trying

/-- `spdlog::level::level_enum` -/
inductive LogLevel where
  | trace
  | debug
  | info
  | warn
  | err
  | critical
  | off
  deriving DecidableEq

structure LogRecord where
  level : LogLevel
  text : String
  deriving DecidableEq

structure ControlObject where
  runAsUser : String := ""
  guid : Guid := Guid.nil
  strServerName : String := "VSCP MQTT daemon"
  pathClassTypeDefinitionDb : String := "/var/lib/vscp/mqttvscpd/vscp_events.sqlite3"
  pathMainDb : String := ""
  bEnableFileLog : Bool := false
  fileLogLevel : LogLevel := .info
  fileLogPattern : String := "[mqttvscpd] [%^%l%$] %v"
  pathToLogFile : String := "/var/log/vscp/mqttvscpd.log"
  maxLogSize : UInt32 := 5242880
  maxLogFiles : UInt16 := 7
  bEnableConsoleLog : Bool := true
  consoleLogLevel : LogLevel := .info
  consoleLogPattern : String := "[mqttvscpd] [%^%l%$] %v"
  bEnableSysLog : Bool := false
  sysLogLevel : LogLevel := .info
  sysLogIdent : String := "mqttvscpd"
  bEnableUdpLog : Bool := false
  udpLogHost : String := "127.0.0.1"
  udpLogPort : UInt16 := 9999
  udpLogLevel : LogLevel := .info
  udpLogPattern : String := "[%Y-%m-%d %H:%M:%S.%e] [%l] %v"
  mqttClient : MqttClient := {}
  topicDaemonBase : String := "vscp-daemon/\x7b\x7bsrvguid\x7d\x7d/"
  topicDrivers : String := "vscp-daemon/\x7b\x7bsrvguid\x7d\x7d/drivers"
  topicDiscovery : String := "vscp-daemon/\x7b\x7bsrvguid\x7d\x7d/discovery"
  /-- `m_deviceList.m_devItemList` -/
  devItemList : List CDeviceItem := []
  /-- `__vscp_key` -/
  vscpKey : Vector UInt8 32
  /-- The records the default logger got, first to last. -/
  log : List LogRecord := []

/-- What a text is as a `const char *`: the characters before the first NUL. -/
def c_str (s : String) : String := String.ofList (s.toList.takeWhile (· ≠ '\x00'))

theorem c_str_eq_self_iff {s : String} : c_str s = s ↔ '\x00' ∉ s.toList := by
  rw [c_str, ← String.toList_inj, String.toList_ofList, List.takeWhile_eq_self_iff]
  simp only [decide_eq_true_eq]
  exact ⟨fun h hmem => h _ hmem rfl, fun h c hc heq => h (heq ▸ hc)⟩

/-- What code outside this repository, and the file system, answer. -/
structure Environment where
  /-- `vscp_fileExists` -/
  fileExists : String → Bool
  /-- A file's contents, empty when it cannot be opened; `none` when reading it throws. -/
  readFile : String → Option String
  /-- The bytes `vscp_hexStr2ByteArray` writes, as many as it returns. -/
  hexStr2ByteArray : String → List UInt8
  /-- `vscp_readStringValue` -/
  readStringValue : String → UInt32
  /-- `cguid::getFromString`, on the GUID it is called for. -/
  getFromString : Guid → String → Guid
  /-- `cguid::getAsString` -/
  getAsString : Guid → String
  /-- Whether `vscpClientMqtt::initFromJson` accepts a document. -/
  initFromJson : Json → Bool

/-- Code of the control object: it may throw, and what it did before stays done. -/
abbrev Ctl := Prog ControlObject Failure

/-- `spdlog::debug` and its siblings. -/
def log (level : LogLevel) (text : String) : Ctl Unit :=
  modify fun c => { c with log := c.log ++ [⟨level, text⟩] }

/-- `try { m } catch (const std::exception &ex) { h }`. Undefined behaviour is not caught. -/
def catching {α : Type} (m : Ctl α) (h : TypeError → Ctl α) : Ctl α :=
  tryCatch m fun
    | .thrown ex => h ex
    | .undefined => throw .undefined

@[simp] theorem exec_log (level : LogLevel) (text : String) (c : ControlObject) :
    exec (log level text) c = (.ok (), { c with log := c.log ++ [⟨level, text⟩] }) := rfl

theorem exec_catching_ok {α : Type} {m : Ctl α} {h : TypeError → Ctl α} {c c' : ControlObject} {a : α}
    (hm : exec m c = (.ok a, c')) : exec (catching m h) c = (.ok a, c') := by
  rw [catching, exec_tryCatch, hm]

theorem exec_catching_thrown {α : Type} {m : Ctl α} {h : TypeError → Ctl α} {c c' : ControlObject} {ex : TypeError}
    (hm : exec m c = (.error (.thrown ex), c')) : exec (catching m h) c = exec (h ex) c' := by
  rw [catching, exec_tryCatch, hm]

theorem ends_log (level : LogLevel) (text : String) : Ends (log level text) (.ok ()) := ends_modify _

theorem ends_catching {α : Type} {m : Ctl α} {h : TypeError → Ctl α} {a : α} (hm : Ends m (.ok a)) :
    Ends (catching m h) (.ok a) := hm.catch_ok

theorem ends_catching_thrown {α : Type} {m : Ctl α} {h : TypeError → Ctl α} {r : Except Failure α}
    (ex : TypeError) (hm : Ends m (.error (.thrown ex))) (hh : Ends (h ex) r) : Ends (catching m h) r :=
  hm.catch_error hh

/-! ## The device list -/

/-- `CDeviceList::addItem`, and whether it added the item. -/
def addItem (env : Environment) (strName strParameter strPath : String) (flags : UInt32) (guid : Guid)
    (level : UInt8) (translation : UInt32) : Ctl Bool := do
  log .trace s!"CDeviceList: Creating new device item for '{strName}'"
  log .trace s!"CDeviceList: Adding device item '{strName}'"
  if env.fileExists strPath then
    log .trace s!"CDeviceList: Device item '{strName}' exists at path '{strPath}'"
    modify fun c => { c with devItemList := c.devItemList ++ [{
      bEnable := true
      driverLevel := level
      strName := strName
      strParameter := strParameter
      strPath := strPath
      guid := guid
      mqttClient := { ifGuid := guid, srvGuid := c.guid }
      translation := translation
      deviceFlags := flags }] }
    return true
  else
    log .err s!"Driver '{strName}' is not available at this path {strPath}. Dropped!"
    return false

/-- `CDeviceList::getDeviceItemFromName`: the first item of that name, by its place in the list. -/
def getDeviceItemFromName (items : List CDeviceItem) (name : String) : Option Nat :=
  items.findIdx? fun it => it.strName = name

/-- Apply `initFromJson` to an item's MQTT client, with the item's new configuration. -/
def CDeviceItem.setMqtt (it : CDeviceItem) (mqtt : Json) : CDeviceItem :=
  { it with mqttConfig := mqtt, mqttClient := { it.mqttClient with inits := it.mqttClient.inits ++ [mqtt] } }

end MqttVscpd
