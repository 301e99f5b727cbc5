/-
Events, CANAL messages and what the daemon takes from the VSCP helper library:
`vscpEvent`, `canalMsg` and the helper functions the device threads call.
The library is not part of this repository, so its functions are the fields of
`Vscphelper`; what a result relies on is a hypothesis there.
-/
import Mathlib.Data.Rat.Init
import Mathlib.Data.Vector.Basic

namespace MqttVscpd

/-- A 16 byte GUID, most significant byte first. -/
abbrev Guid := Vector UInt8 16

/-- The GUID with all bytes zero. -/
def Guid.nil : Guid := Vector.replicate 16 0

/-- `GUID[i]`, for `i` below 16. -/
def Guid.byte (g : Guid) (i : Nat) : UInt8 := g[i]?.getD 0

/-- `GUID[i] = b`, for `i` below 16. -/
def Guid.setByte (g : Guid) (i : Nat) (b : UInt8) : Guid := g.setIfInBounds i b

theorem Guid.byte_setByte (g : Guid) {i : Nat} (h : i < 16) (b : UInt8) : (g.setByte i b).byte i = b := by
  rw [byte, setByte, Vector.getElem?_setIfInBounds_self_of_lt h, Option.getD_some]

theorem Guid.byte_setByte_of_ne (g : Guid) {i k : Nat} (h : i ≠ k) (b : UInt8) :
    (g.setByte i b).byte k = g.byte k := by
  rw [byte, byte, setByte, Vector.getElem?_setIfInBounds_ne h]

/-- Writing the byte that is there. -/
theorem Guid.setByte_byte (g : Guid) {i : Nat} (h : i < 16) : g.setByte i (g.byte i) = g := by
  rw [byte, setByte, Vector.getElem?_eq_getElem h, Option.getD_some]
  ext k hk
  rw [Vector.getElem_setIfInBounds hk]
  split
  · next hik => simp only [hik]
  · rfl

/-- `vscpEvent`. `sizeData` is the length of `data`, the bytes `pdata` points to. -/
@[ext] structure VscpEvent where
  head : UInt16
  obid : UInt32
  timestamp : UInt32
  timestampNs : UInt64
  year : UInt16
  month : UInt8
  day : UInt8
  hour : UInt8
  minute : UInt8
  second : UInt8
  vscpClass : UInt16
  vscpType : UInt16
  guid : Guid
  data : List UInt8
  deriving DecidableEq

/-- `memset(&ev, 0, sizeof(vscpEvent))`. -/
def VscpEvent.zero : VscpEvent where
  head := 0
  obid := 0
  timestamp := 0
  timestampNs := 0
  year := 0
  month := 0
  day := 0
  hour := 0
  minute := 0
  second := 0
  vscpClass := 0
  vscpType := 0
  guid := Guid.nil
  data := []

/-- `canalMsg`. -/
structure CanalMsg where
  flags : UInt32
  obid : UInt32
  id : UInt32
  data : List UInt8
  timestamp : UInt32
  deriving DecidableEq

/-- The helper library's functions and constants the device threads use. -/
structure Vscphelper where
  /-- `VSCP_HEADER16_FRAME_VERSION_MASK` -/
  frameVersionMask : UInt16
  /-- `VSCP_HEADER16_FRAME_VERSION_UNIX_NS` -/
  frameVersionUnixNs : UInt16
  /-- `vscp_convertCanalToEvent(&ev, &msg, guid)` on the event it is handed; `none` when it returns false. -/
  convertCanalToEvent : VscpEvent → CanalMsg → Guid → Option VscpEvent
  /-- `vscp_convertEventToCanal`; `none` when it returns false. -/
  convertEventToCanal : VscpEvent → Option CanalMsg
  convertLevel1MeasurementToLevel2Double : VscpEvent → VscpEvent
  convertLevel1MeasurementToLevel2String : VscpEvent → VscpEvent
  /-- `vscp_to_unix_ns(year, month, day, hour, minute, second, microseconds)` -/
  toUnixNs : UInt16 → UInt8 → UInt8 → UInt8 → UInt8 → UInt8 → UInt32 → Int64

/-- A helper library whose CANAL conversion splits an extended id into priority,
hard-coded bit, class, type and nickname, and which has no measurements to convert. -/
def canalIdHelper : Vscphelper where
  frameVersionMask := 0x0300
  frameVersionUnixNs := 0x0100
  convertCanalToEvent ev msg guid :=
    if msg.flags &&& 1 = 0 then .none
    else .some { ev with
      head := (((msg.id >>> 26) &&& 7) <<< 5 ||| ((msg.id >>> 25) &&& 1) <<< 4).toUInt16
      vscpClass := ((msg.id >>> 16) &&& 0x1ff).toUInt16
      vscpType := ((msg.id >>> 8) &&& 0xff).toUInt16
      guid := guid.setByte 15 (msg.id &&& 0xff).toUInt8
      data := msg.data
      obid := msg.obid
      timestamp := msg.timestamp }
  convertEventToCanal ev := .some {
    flags := 1
    obid := ev.obid
    id := (ev.head >>> 5).toUInt32 <<< 26 ||| ev.vscpClass.toUInt32 <<< 16 ||| ev.vscpType.toUInt32 <<< 8 |||
      (ev.guid.byte 15).toUInt32
    data := ev.data
    timestamp := ev.timestamp }
  convertLevel1MeasurementToLevel2Double := id
  convertLevel1MeasurementToLevel2String := id
  toUnixNs _ _ _ _ _ _ us := (us.toUInt64 * 1000).toInt64

end MqttVscpd
