/-
One device with all its threads: `deviceThread` taking its actions one at a
time, the MQTT client starting `receive_event_callback` on any number of other
threads, and `stopDriver`, `pauseDriver` and `resumeDriver` setting their flags,
in every order. The callback is cut where it takes or leaves `m_deviceMutex`,
reads the item, or is inside a driver call.
-/
import MqttVscpd.DeviceThread
import MqttVscpd.Lib.Lock
import MqttVscpd.Lib.Transition

namespace MqttVscpd

open Transition

/-- Where one execution of `receive_event_callback` is. -/
inductive CallbackPc where
  /-- Not running. -/
  | idle
  /-- Called, about to lock `m_deviceMutex`. -/
  | entered (ev : VscpEvent)
  /-- About to read `m_bQuit`. -/
  | testQuit (ev : VscpEvent)
  /-- About to read `m_openHandle`. -/
  | testHandle (ev : VscpEvent)
  /-- About to compare `m_driverLevel` with `VSCP_DRIVER_LEVEL1`. -/
  | testLevel1 (ev : VscpEvent)
  /-- About to compare `m_driverLevel` with `VSCP_DRIVER_LEVEL2`. -/
  | testLevel2 (ev : VscpEvent)
  | convert (ev : VscpEvent)
  /-- About to test `m_proc_CanalBlockingSend`. -/
  | selectSend
  /-- In the driver: the entry point, the address called and the handle passed. -/
  | inCall (p : Proc) (addr : Nat) (h : Int)
  /-- At the error "Driver level is not valid (nor 1 nor 2)". -/
  | invalidLevel
  | unlocking
  deriving DecidableEq

/-- Holding `m_deviceMutex`. -/
def CallbackPc.inside : CallbackPc → Bool
  | .idle | .entered _ => false
  | _ => true

/-- Past the test of `m_bQuit`. -/
def CallbackPc.guarded : CallbackPc → Bool
  | .idle | .entered _ | .testQuit _ | .unlocking => false
  | _ => true

/-- `receive_event_callback` between locking and unlocking, one read at a time. -/
def receiveEventCallback (lib : Vscphelper) (it : CDeviceItem) : CallbackPc → CallbackPc
  | .testQuit ev => if it.bQuit then .unlocking else .testHandle ev
  | .testHandle ev => if it.openHandle = 0 then .unlocking else .testLevel1 ev
  | .testLevel1 ev => if it.driverLevel = VSCP_DRIVER_LEVEL1 then .convert ev else .testLevel2 ev
  | .convert ev =>
    match lib.convertEventToCanal ev with
    | none => .unlocking
    | some _ => .selectSend
  | .selectSend =>
    if it.proc .canalBlockingSend ≠ 0 then
      .inCall .canalBlockingSend (it.proc .canalBlockingSend) it.openHandle
    else .inCall .canalSend (it.proc .canalSend) it.openHandle
  | .testLevel2 _ =>
    if it.driverLevel = VSCP_DRIVER_LEVEL2 then .inCall .vscpWrite (it.proc .vscpWrite) it.openHandle
    else .invalidLevel
  | .inCall .. | .invalidLevel => .unlocking
  | pc => pc

/-- A device, what is left of its `deviceThread`, its mutex (`some none` when
the device thread owns it) and the callback executions `ι`. -/
structure State (ι : Type) where
  device : Device
  todo : List Act
  mutex : Option (Option ι) := none
  /-- `connect()` has succeeded, so callbacks may start. -/
  connected : Bool := false
  cb : ι → CallbackPc := fun _ => .idle

/-- An item whose `deviceThread` starts, with what its calls will answer. -/
def start {ι : Type} (it : CDeviceItem) (o : Outcomes) : State ι where
  device := { item := it }
  todo := deviceThread it o

inductive Move (ι : Type) where
  /-- The next action of `deviceThread`. -/
  | thread
  | stopDriver
  | pauseDriver
  | resumeDriver
  /-- The MQTT client calls the callback. -/
  | event (i : ι) (ev : VscpEvent)
  /-- The next step of a callback. -/
  | callback (i : ι)

variable {ι : Type} [DecidableEq ι]

/-- `deviceThread`'s next action. A loop test is taken as it finds `m_bQuit`,
and locking waits for the mutex. -/
def threadStep (s : State ι) : Option (State ι) :=
  match s.todo with
  | [] => none
  | a :: todo =>
    let s' := { s with device := a.exec s.device, todo := todo }
    match a with
    | .testQuit b => if s.device.item.bQuit = b then some s' else none
    | .lock => if s.mutex = none then some { s' with mutex := some none } else none
    | .unlock => some { s' with mutex := none }
    | .connect ok => some { s' with connected := s.connected || ok }
    | _ => some s'

/-- `stopDriver`, up to the join: it asks an enabled item's thread to quit. -/
def requestQuit (it : CDeviceItem) : CDeviceItem := if it.bEnable then { it with bQuit := true } else it

def pauseDriver (it : CDeviceItem) : CDeviceItem := { it with bActive := false }

def resumeDriver (it : CDeviceItem) : CDeviceItem := { it with bActive := true }

/-- A change another thread makes to the item. -/
def State.modify (s : State ι) (f : CDeviceItem → CDeviceItem) : State ι :=
  { s with device := { s.device with item := f s.device.item } }

def step (lib : Vscphelper) (s : State ι) : Move ι → Option (State ι)
  | .thread => threadStep s
  | .stopDriver => some (s.modify requestQuit)
  | .pauseDriver => some (s.modify pauseDriver)
  | .resumeDriver => some (s.modify resumeDriver)
  | .event i ev =>
    if s.connected ∧ s.cb i = .idle then some { s with cb := Function.update s.cb i (.entered ev) } else none
  | .callback i =>
    match s.cb i with
    | .idle => none
    | .entered ev =>
      if s.mutex = none then
        some { s with mutex := some (some i), cb := Function.update s.cb i (.testQuit ev) }
      else none
    | .unlocking => some { s with mutex := none, cb := Function.update s.cb i .idle }
    | pc => some { s with cb := Function.update s.cb i (receiveEventCallback lib s.device.item pc) }

end MqttVscpd
