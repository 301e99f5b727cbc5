/-
`deviceThread`: what it does to the item, the loader, the driver and the MQTT
client, as the list of actions the outcomes of its calls lead it through. The
actions are those another thread can see or a release has to undo; log records
are left out.
-/
import MqttVscpd.WorkLoop

namespace MqttVscpd

/-- One action of `deviceThread`. -/
inductive Act where
  /-- `dlopen`, and whether it returned a library. -/
  | dlopen (ok : Bool)
  /-- `m_proc_p = dlsym(hdll, ..)` -/
  | dlsym (p : Proc) (addr : Nat)
  /-- `m_openHandle = m_proc_CanalOpen(..)` -/
  | canalOpen (h : Int)
  /-- `m_openHandle = m_proc_VSCPOpen(..)` -/
  | vscpOpen (h : Int)
  /-- `m_mqttClient.connect()`, and whether it returned `VSCP_ERROR_SUCCESS`. -/
  | connect (ok : Bool)
  /-- `m_driverLevel = (uint8_t) m_proc_CanalGetLevel(..)` -/
  | getLevel (level : Nat)
  /-- The loop condition reads `m_bQuit` and finds `b`. -/
  | testQuit (b : Bool)
  /-- One pass through the loop's body. -/
  | pass (l : Loop) (t : Tick)
  /-- `m_bQuit = true` -/
  | quit
  | disconnect
  /-- `pthread_mutex_lock(&m_deviceMutex)` -/
  | lock
  /-- `m_proc_CanalClose(m_openHandle)` or `m_proc_VSCPClose(m_openHandle)` -/
  | close
  /-- `m_openHandle = 0` -/
  | clearHandle
  | unlock
  | dlclose

/-- What one `dlsym` lookup, with the `dlerror` after it, finds. -/
inductive Lookup where
  /-- `dlerror` has a message; `dlsym` returned NULL. -/
  | error
  /-- The symbol's address, which the loader does not promise to be other than 0. -/
  | found (addr : Nat)
  deriving DecidableEq

def Lookup.addr : Lookup → Nat
  | .error => 0
  | .found a => a

def Lookup.isError : Lookup → Bool
  | .error => true
  | .found _ => false

/-- What the calls of one `deviceThread` run answer. -/
structure Outcomes where
  dlopen : Bool
  dlsym : Proc → Lookup
  canalOpen : Int
  vscpOpen : Int
  connect : Bool
  /-- What `CanalGetLevel` returns, an `unsigned long`. -/
  getLevel : Nat
  /-- The passes made before the loop condition finds `m_bQuit` set. -/
  ticks : List Tick

/-- Look the symbols up in order; the first one that is `missing` ends the
thread with `bail`, and `k` is what follows when none is. -/
def lookupAll (o : Outcomes) (missing : Lookup → Bool) (bail : List Act) : List Proc → List Act → List Act
  | [], k => k
  | p :: ps, k => .dlsym p (o.dlsym p).addr ::
    if missing (o.dlsym p) then bail else lookupAll o missing bail ps k

/-- `while (!m_bQuit) { .. }` -/
def workLoopActs (l : Loop) (ticks : List Tick) : List Act :=
  (ticks.flatMap fun t => [.testQuit false, .pass l t]) ++ [.testQuit true]

/-- From the end of the work loop to the end of the thread, both levels. -/
def shutdownActs : List Act :=
  [.quit, .disconnect, .lock, .close, .clearHandle, .unlock, .dlclose]

/-! ## Level I -/

/-- The required Level I symbols after `CanalOpen`. -/
def level1Required : List Proc :=
  [.canalClose, .canalGetLevel, .canalSend, .canalDataAvailable, .canalReceive, .canalGetStatus,
    .canalGetStatistics, .canalSetFilter, .canalSetMask, .canalGetVersion, .canalGetDllVersion,
    .canalGetVendorString]

/-- The generation 2 symbols, which a driver may lack. -/
def level1Optional : List Proc := [.canalBlockingSend, .canalBlockingReceive, .canalGetdriverInfo]

/-- From `connect` on, with the driver open. -/
def level1Serve (o : Outcomes) : List Act :=
  .connect o.connect ::
    -- The driver is not closed on this return, and `m_openHandle` keeps its value.
    if !o.connect then [.dlclose]
    else .getLevel o.getLevel ::
      ((if (o.dlsym .canalBlockingReceive).addr ≠ 0 then workLoopActs .blocking o.ticks ++ [.quit]
        else workLoopActs .nonBlocking o.ticks) ++ shutdownActs)

def level1Open (o : Outcomes) : List Act :=
  .canalOpen o.canalOpen :: if o.canalOpen ≤ 0 then [.dlclose] else level1Serve o

/-- The Level I branch. A lookup is missing when `dlerror` has a message, and
a missing `CanalOpen` returns with the library loaded. -/
def level1 (o : Outcomes) : List Act :=
  lookupAll o Lookup.isError [] [.canalOpen] <|
  lookupAll o Lookup.isError [.dlclose] level1Required <|
  lookupAll o (fun _ => false) [] level1Optional <|
  level1Open o

/-! ## Level II -/

def level2Required : List Proc := [.vscpOpen, .vscpClose, .vscpWrite, .vscpRead, .vscpGetVersion]

def level2Serve (o : Outcomes) : List Act :=
  .connect o.connect ::
    if !o.connect then [.close, .clearHandle, .dlclose]
    else workLoopActs .level2 o.ticks ++ shutdownActs

def level2Open (o : Outcomes) : List Act :=
  .vscpOpen o.vscpOpen :: if o.vscpOpen = 0 then [.dlclose] else level2Serve o

/-- The Level II branch. A lookup is missing when `dlsym` returns NULL, and a
missing symbol returns with the library loaded. -/
def level2 (o : Outcomes) : List Act :=
  lookupAll o (fun l => l.addr = 0) [] level2Required (level2Open o)

/-- `deviceThread`. An item of neither level returns with the library loaded. -/
def deviceThread (it : CDeviceItem) (o : Outcomes) : List Act :=
  .dlopen o.dlopen ::
    if !o.dlopen then []
    else if it.driverLevel = VSCP_DRIVER_LEVEL1 then level1 o
    else if it.driverLevel = VSCP_DRIVER_LEVEL2 then level2 o
    else []

/-! ## What the actions do -/

/-- A call the loader or the driver has answered. -/
inductive Call where
  | dlopen
  | opened (h : Int)
  | close (h : Int)
  | dlclose
  deriving DecidableEq

/-- The item, and the calls made for it so far, last first. -/
structure Device where
  item : CDeviceItem
  calls : List Call := []

def CDeviceItem.setProc (it : CDeviceItem) (p : Proc) (addr : Nat) : CDeviceItem :=
  { it with proc := Function.update it.proc p addr }

/-- Only a positive `CanalOpen` handle and a non-zero `VSCPOpen` handle is an open driver. -/
def Act.exec : Act → Device → Device
  | .dlopen ok, d => if ok then { d with calls := .dlopen :: d.calls } else d
  | .dlsym p a, d => { d with item := d.item.setProc p a }
  | .canalOpen h, d =>
    { item := { d.item with openHandle := h }, calls := if 0 < h then .opened h :: d.calls else d.calls }
  | .vscpOpen h, d =>
    { item := { d.item with openHandle := h }, calls := if h ≠ 0 then .opened h :: d.calls else d.calls }
  | .getLevel level, d => { d with item := { d.item with driverLevel := UInt8.ofNat level } }
  | .quit, d => { d with item := { d.item with bQuit := true } }
  | .close, d => { d with calls := .close d.item.openHandle :: d.calls }
  | .clearHandle, d => { d with item := { d.item with openHandle := 0 } }
  | .dlclose, d => { d with calls := .dlclose :: d.calls }
  | .connect _, d | .testQuit _, d | .pass _ _, d | .disconnect, d | .lock, d | .unlock, d => d

def execAll (d : Device) (acts : List Act) : Device := acts.foldl (fun d a => a.exec d) d

/-- The library is in: some `dlopen` has not been followed by a `dlclose`. -/
def Loaded : List Call → Prop
  | [] => False
  | .dlopen :: _ => True
  | .dlclose :: _ => False
  | _ :: calls => Loaded calls

/-- The handle came from a successful open and has not been closed since. -/
def IsOpen (h : Int) : List Call → Prop
  | [] => False
  | .opened h' :: calls => h = h' ∨ IsOpen h calls
  | .close h' :: calls => h ≠ h' ∧ IsOpen h calls
  | _ :: calls => IsOpen h calls

end MqttVscpd
