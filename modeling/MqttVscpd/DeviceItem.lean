/-
`CDeviceItem`: one configured driver, with the entry points its library
exports, as the constructor leaves it.
-/
import MqttVscpd.Event
import MqttVscpd.Json

namespace MqttVscpd

def VSCP_DRIVER_LEVEL1 : UInt8 := 1
def VSCP_DRIVER_LEVEL2 : UInt8 := 2

def NO_TRANSLATION : UInt32 := 0
def VSCP_DRIVER_OUT_TR_M1_M2F : UInt32 := 0x01
def VSCP_DRIVER_OUT_TR_M1_M2S : UInt32 := 0x02
def VSCP_DRIVER_OUT_TR_ALL_L2 : UInt32 := 0x04

/-- The driver entry points an item has a `m_proc_` pointer for. -/
inductive Proc where
  | canalOpen
  | canalClose
  | canalGetLevel
  | canalSend
  | canalDataAvailable
  | canalReceive
  | canalGetStatus
  | canalGetStatistics
  | canalSetFilter
  | canalSetMask
  | canalSetBaudrate
  | canalGetVersion
  | canalGetDllVersion
  | canalGetVendorString
  -- Generation 2
  | canalBlockingSend
  | canalBlockingReceive
  | canalGetdriverInfo
  -- Level II
  | vscpOpen
  | vscpClose
  | vscpWrite
  | vscpRead
  | vscpGetVersion
  deriving DecidableEq

/-- What the daemon told an item's MQTT client before it connects. -/
structure MqttClient where
  ifGuid : Guid := Guid.nil
  srvGuid : Guid := Guid.nil
  /-- The documents handed to `initFromJson`, first to last. -/
  inits : List Json := []

/-- `CDeviceItem`, with the values of its constructor as defaults. A `proc`
pointer is an address, 0 for NULL. -/
structure CDeviceItem where
  bQuit : Bool := false
  bEnable : Bool := false
  bActive : Bool := true
  bThreadStarted : Bool := false
  openHandle : Int := 0
  translation : UInt32 := NO_TRANSLATION
  strName : String := ""
  strParameter : String := ""
  strPath : String := ""
  deviceFlags : UInt32 := 0
  driverLevel : UInt8 := 0
  guid : Guid := Guid.nil
  mqttClient : MqttClient := {}
  mqttConfig : Json := .null
  proc : Proc → Nat := fun _ => 0

end MqttVscpd
