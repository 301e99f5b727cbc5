/-
The three work loops of `deviceThread` (Level I blocking, Level I non-blocking,
Level II), one pass at a time: what a pass reads from the driver, the event it
makes of it, and what `CDeviceItem::sendEvent` does with the event.
-/
import MqttVscpd.DeviceItem

namespace MqttVscpd

/-- What a pass does outside the item, in order. -/
inductive Effect where
  /-- A message was read from the driver. -/
  | read
  /-- `m_pCtrlObj->discovery(pev)` -/
  | discovery (ev : VscpEvent)
  /-- `m_mqttClient.send(*pev)`, and whether it returned `VSCP_ERROR_SUCCESS`. -/
  | send (ev : VscpEvent) (ok : Bool)
  /-- The error "Failed to convert CANAL to event." -/
  | failedToConvert
  /-- The error "Failed to send event to broker." -/
  | failedToSend
  /-- The error "sendEvent: Event is NULL pointer" -/
  | nullEvent
  /-- `usleep(100000)` -/
  | sleep
  deriving DecidableEq

/-- `CDeviceItem::sendEvent`: its return value and what it did. `sendOk` is what
`m_mqttClient.send` answers. -/
def sendEvent (pev : Option VscpEvent) (sendOk : Bool) : Bool × List Effect :=
  match pev with
  | none => (false, [.nullEvent])
  | some ev =>
    -- `rv` is set here and never again.
    let rv : Int := 0
    (0 == rv, [.discovery ev, .send ev sendOk])

/-! ## Level I -/

/-- The outgoing translations, the same text in both Level I loops. -/
def outgoingTranslations (lib : Vscphelper) (translation : UInt32) (ev : VscpEvent) : VscpEvent :=
  let ev := if translation &&& VSCP_DRIVER_OUT_TR_M1_M2F ≠ 0 then
    lib.convertLevel1MeasurementToLevel2Double ev else ev
  let ev := if translation &&& VSCP_DRIVER_OUT_TR_M1_M2S ≠ 0 then
    lib.convertLevel1MeasurementToLevel2String ev else ev
  if translation &&& VSCP_DRIVER_OUT_TR_ALL_L2 ≠ 0 then
    -- `sizeData` is a `uint16_t`: past 65519 bytes `sizeData += 16` wraps.
    { ev with
      vscpClass := ev.vscpClass + 512
      data := (List.replicate 16 0 ++ ev.data).take ((16 + ev.data.length) % 2 ^ 16) }
  else ev

/-- The event the blocking loop starts from: zeroed, with the interface GUID. -/
def blockingInit (guid : Guid) : VscpEvent := { VscpEvent.zero with guid := guid }

/-- The event the non-blocking loop starts from: zeroed, with the frame version set. -/
def nonBlockingInit (lib : Vscphelper) : VscpEvent :=
  { VscpEvent.zero with
    head := (VscpEvent.zero.head &&& ~~~ lib.frameVersionMask) ||| lib.frameVersionUnixNs }

/-- The event the blocking loop hands to `sendEvent` for a message, `none` when
it drops the message. -/
def blockingEvent (lib : Vscphelper) (it : CDeviceItem) (msg : CanalMsg) : Option VscpEvent :=
  match lib.convertCanalToEvent (blockingInit it.guid) msg it.guid with
  | none => none
  | some ev =>
    some (outgoingTranslations lib it.translation { ev with obid := 0, guid := ev.guid.setByte 14 0 })

/-- The event the non-blocking loop hands to `sendEvent` for a message, `none`
when it drops the message. -/
def nonBlockingEvent (lib : Vscphelper) (it : CDeviceItem) (msg : CanalMsg) : Option VscpEvent :=
  match lib.convertCanalToEvent (nonBlockingInit lib) msg it.guid with
  | none => none
  -- `pev->GUID[14] = 0` is commented out in this loop.
  | some ev => some (outgoingTranslations lib it.translation { ev with obid := 0 })

/-! ## Level II -/

/-- The datetime block of an original frame, checked field by field. -/
def validDatetime (ev : VscpEvent) : Bool :=
  ev.year > 0 && ev.year < 0xffff && ev.month ≥ 1 && ev.month ≤ 12 && ev.day ≥ 1 && ev.day ≤ 31 &&
    ev.hour ≤ 23 && ev.minute ≤ 59 && ev.second ≤ 59

/-- The event the Level II loop makes of the one it read. `now` is the reading
of `vscp_makeTimeStampNs`. -/
def level2Event (lib : Vscphelper) (now : UInt64) (ev : VscpEvent) : VscpEvent :=
  if lib.frameVersionUnixNs ≠ ev.head &&& lib.frameVersionMask then
    let ns : Int64 := if validDatetime ev then
      lib.toUnixNs ev.year ev.month ev.day ev.hour ev.minute ev.second ev.timestamp else -1
    { ev with
      head := (ev.head &&& ~~~ lib.frameVersionMask) ||| lib.frameVersionUnixNs
      year := 0xffff
      month := 0xff
      timestampNs := if ns > 0 then ns.toUInt64 else now }
  else if ev.timestampNs = 0 then { ev with timestampNs := now }
  else ev

/-! ## One pass -/

/-- The work loop an item runs. -/
inductive Loop where
  | blocking
  | nonBlocking
  | level2
  deriving DecidableEq

/-- What a pass finds: the driver's answers, the MQTT client's and the clock's. -/
structure Tick where
  /-- `CanalDataAvailable`, asked by the non-blocking loop only. -/
  dataAvailable : Bool
  /-- The message of `CanalBlockingReceive` or `CanalReceive`; `none` unless
  `CANAL_ERROR_SUCCESS`. -/
  msg : Option CanalMsg
  /-- The event of `VSCPRead`; `none` unless `CANAL_ERROR_SUCCESS`. -/
  event : Option VscpEvent
  /-- `m_mqttClient.send` returns `VSCP_ERROR_SUCCESS`. -/
  sendOk : Bool
  /-- `vscp_makeTimeStampNs()` -/
  now : UInt64

/-- The end of every pass that has an event: send it, report a failure. -/
def sendOrReport (ev : VscpEvent) (sendOk : Bool) : List Effect :=
  let (rv, effs) := sendEvent (some ev) sendOk
  effs ++ if rv then [] else [.failedToSend]

/-- A Level I pass after a message was read. -/
def passLevel1 (ev : Option VscpEvent) (sendOk : Bool) : List Effect :=
  match ev with
  | none => [.read, .failedToConvert]
  | some ev => .read :: sendOrReport ev sendOk

/-- One pass through the body of a work loop. -/
def pass (lib : Vscphelper) (it : CDeviceItem) : Loop → Tick → List Effect
  | .blocking, t =>
    match t.msg with
    | none => []
    | some msg => passLevel1 (blockingEvent lib it msg) t.sendOk
  | .nonBlocking, t =>
    if t.dataAvailable then
      match t.msg with
      | none => [.sleep]
      | some msg => passLevel1 (nonBlockingEvent lib it msg) t.sendOk
    else [.sleep]
  | .level2, t =>
    match t.event with
    | none => []
    | some ev => .read :: sendOrReport (level2Event lib t.now ev) t.sendOk

/-- The passes of `while (!m_bQuit)`, each with the value of `m_bQuit` read
before it. -/
def workLoop (lib : Vscphelper) (it : CDeviceItem) (l : Loop) : List (Bool × Tick) → List (List Effect)
  | [] => []
  | (true, _) :: _ => []
  | (false, t) :: ts => pass lib it l t :: workLoop lib it l ts

/-- The passes a run makes before it reads `m_bQuit` as true. -/
def passes (run : List (Bool × Tick)) : List Tick :=
  (run.takeWhile fun p => !p.1).map (·.2)

theorem workLoop_eq (lib : Vscphelper) (it : CDeviceItem) (l : Loop) (run : List (Bool × Tick)) :
    workLoop lib it l run = (passes run).map (pass lib it l) := by
  induction run with
  | nil => rfl
  | cons p run ih =>
    obtain ⟨quit, t⟩ := p
    cases quit
    · simpa [workLoop, passes] using ih
    · simp [workLoop, passes]

end MqttVscpd
