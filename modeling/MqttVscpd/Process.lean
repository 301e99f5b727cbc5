/-
One process of the daemon, from `startDeviceWorkerThreads` to the deletion of the
control object: `main`, a thread for each started item with the driver's callbacks
beside it, and `discovery()`, which all device threads share. A pass of a work loop
is cut where another thread may come in between: after the driver's answer, at each
step of `discovery()`, and before and after `m_mqttClient.send`. The deletion ends the
run, with what callbacks are still under way, and so does a call of the driver through
a pointer that is NULL, which kills the process.
-/
import MqttVscpd.Discovery
import MqttVscpd.Shutdown
import MqttVscpd.Translation

namespace MqttVscpd.Process

open Shutdown (MainPc getElem?_modify_some)

/-! ## The device threads -/

/-- The event a pass hands to `sendEvent`. -/
def handed (lib : Vscphelper) (it : CDeviceItem) : Loop → Tick → Option VscpEvent
  | .blocking, t => t.msg.bind (blockingEvent lib it)
  | .nonBlocking, t => if t.dataAvailable then t.msg.bind (nonBlockingEvent lib it) else none
  | .level2, t => t.event.map (level2Event lib t.now)

/-- The work loop `deviceThread` comes to, if it comes to one. -/
def loopOf (it : CDeviceItem) (o : Outcomes) : Loop :=
  if it.driverLevel = VSCP_DRIVER_LEVEL1 then
    if (o.dlsym .canalBlockingReceive).addr ≠ 0 then .blocking else .nonBlocking
  else .level2

/-- Where a device thread is in a pass. -/
inductive Phase where
  /-- In no pass: the next action is the first of `todo`. -/
  | between
  /-- About to ask the driver, having found `m_bQuit` clear. -/
  | reading
  /-- In `m_pCtrlObj->discovery(pev)`. -/
  | announcing (ev : VscpEvent)
  /-- About to call `m_mqttClient.send(*pev)`. -/
  | sending (ev : VscpEvent)

/-- A device item with its thread and its callbacks `κ`. The passes of the work loop
are not in `device.todo`, which has the test that ends the loop in their place. -/
structure Driver (κ : Type) where
  device : MqttVscpd.State κ
  loop : Loop := .level2
  phase : Phase := .between
  running : Bool := false
  created : Nat := 0
  joined : Nat := 0
  /-- The events `m_mqttClient.send` has been called with, first to last. -/
  sent : List VscpEvent := []

/-- An item of the configuration, before its thread is started. -/
def Driver.ofItem {κ : Type} (it : CDeviceItem) : Driver κ where
  device := { device := { item := it }, todo := [] }

structure State (κ : Type) where
  drivers : List (Driver κ)
  main : MainPc := .starting 0
  /-- The driver was called at address 0. -/
  killed : Bool := false
  /-- `CControlObject::m_bQuit` -/
  bQuit : Bool := false
  /-- The `cleanup` calls that have returned. -/
  cleanups : Nat := 0
  /-- The device threads call `discovery()` by their items' places in the list. -/
  registry : Discovery.Daemon Nat

/-- What `main` does, or a signal. -/
inductive MainAct where
  /-- The next item in `startDeviceWorkerThreads`; `pthread_create` fails, or its thread
  will find these answers. -/
  | start (o : Option Outcomes)
  | signal
  | loop
  | stop
  | join
  | cleanup
  | delete

/-- What the threads of one item do. -/
inductive DriverAct (κ : Type) where
  /-- The next action of `deviceThread` outside the passes. -/
  | act
  /-- The loop condition finds `m_bQuit` clear. -/
  | enter
  /-- The driver answers. -/
  | read (t : Tick)
  /-- The next step in `discovery()`, with the answers of the one call it may make. -/
  | discover (ok : Bool) (date : String)
  | send (ok : Bool)
  /-- `deviceThread` returns. -/
  | returns
  | event (i : κ) (ev : VscpEvent)
  | callback (i : κ)
  /-- The device thread, or the callback `c`, calls the driver at address 0. -/
  | fault (c : Option κ)

inductive Act (κ : Type) where
  | main (m : MainAct)
  | driver (k : Nat) (a : DriverAct κ)

/-- The step of `discovery()` a thread comes to next, for an event with the GUID `g`. -/
def nextAct (d : Discovery.Daemon Nat) (k : Nat) (g : String) (ok : Bool) (date : String) : Discovery.Act Nat :=
  match d.pc k with
  | .idle => .call k (some g)
  | .waiting _ => .acquire k
  | .looking _ => .find k
  | .inserting _ => .insert k ok date
  | .publishing _ _ => .publish k ok
  | .recording _ => .record k
  | .unlocking => .release k

variable {κ : Type}

/-- `startDriver` for an item `startDeviceWorkerThreads` does not skip. -/
def Driver.startDriver (u : Driver κ) (o : Option Outcomes) : Driver κ :=
  let it := u.device.device.item
  if !it.bEnable then u
  else match o with
    | none => u
    | some o => { u with
      device := MqttVscpd.start { it with bThreadStarted := true } { o with ticks := [] }
      loop := loopOf it o
      running := true
      created := u.created + 1 }

/-- `stopDriver`, up to the join. -/
def Driver.stop (u : Driver κ) : Driver κ := { u with device := u.device.modify requestQuit }

/-- `pthread_join` has returned. -/
def Driver.join (u : Driver κ) : Driver κ :=
  { u with device := u.device.modify fun it => { it with bThreadStarted := false }, joined := u.joined + 1 }

/-- `stopDriver` goes on to join the thread. -/
def Driver.joins (u : Driver κ) : Bool := u.device.device.item.bEnable && u.device.device.item.bThreadStarted

def mainStep (s : State κ) : MainAct → Option (State κ)
  | .start o =>
    match s.main with
    | .starting i =>
      if i < s.drivers.length then
        some { s with drivers := s.drivers.modify i (·.startDriver o), main := .starting (i + 1) }
      else some { s with main := .looping }
    | _ => none
  | .signal => some { s with bQuit := true }
  | .loop =>
    match s.main with
    | .looping => some { s with main := if s.bQuit then .stopping 0 else .looping }
    | _ => none
  | .stop =>
    match s.main with
    | .stopping i =>
      match s.drivers[i]? with
      | some u =>
        some { s with
          drivers := s.drivers.modify i Driver.stop
          main := if u.joins then .joining i else .stopping (i + 1) }
      | none => some { s with main := .cleanedUp, cleanups := s.cleanups + 1 }
    | _ => none
  | .join =>
    match s.main with
    | .joining i =>
      match s.drivers[i]? with
      | some u =>
        if u.running then none
        else some { s with drivers := s.drivers.modify i Driver.join, main := .stopping (i + 1) }
      | none => none
    | _ => none
  -- `run` makes the first cleanup, `main` the second, and then deletes the control object.
  | .cleanup =>
    match s.main with
    | .cleanedUp => if s.cleanups < 2 then some { s with main := .stopping 0 } else none
    | _ => none
  | .delete =>
    match s.main with
    | .cleanedUp => if s.cleanups < 2 then none else some { s with main := .deleted }
    | _ => none

/-! ## Calls of the driver -/

/-- The entry point an action of `deviceThread` calls. -/
def entryOf (l : Loop) : MqttVscpd.Act → Option Proc
  | .canalOpen _ => some .canalOpen
  | .vscpOpen _ => some .vscpOpen
  | .getLevel _ => some .canalGetLevel
  | .close => some (if l = .level2 then .vscpClose else .canalClose)
  | _ => none

/-- The entry points a pass calls. -/
def entriesOf (dataAvailable : Bool) : Loop → List Proc
  | .blocking => [.canalBlockingReceive]
  | .nonBlocking => .canalDataAvailable :: if dataAvailable then [.canalReceive] else []
  | .level2 => [.vscpRead]

/-- The addresses a step calls the driver at, or returns from. -/
def Driver.called (u : Driver κ) : DriverAct κ → List Nat
  | .act => (u.device.todo.head?.bind (entryOf u.loop)).toList.map u.device.device.item.proc
  | .read t => (entriesOf t.dataAvailable u.loop).map u.device.device.item.proc
  | .callback i =>
    match u.device.cb i with
    | .inCall _ addr _ => [addr]
    | _ => []
  | _ => []

/-- A call at address 0 that can be made now: the device thread's, or a callback's. -/
def Driver.atNull (u : Driver κ) : Option κ → Bool
  | none =>
    u.running && match u.phase with
      | .between => decide (0 ∈ u.called .act)
      -- The driver may say that data is available.
      | .reading => decide (0 ∈ (entriesOf true u.loop).map u.device.device.item.proc)
      | .announcing _ | .sending _ => false
  | some i => decide (0 ∈ u.called (.callback i))

def DriverAct.kills : DriverAct κ → Bool
  | .fault _ => true
  | _ => false

/-- There is no process any more, or no control object. -/
def State.over (s : State κ) : Bool :=
  s.killed || match s.main with
    | .deleted => true
    | _ => false

variable [DecidableEq κ]

/-- A step of the threads of item `k`, each of whose calls returns: what becomes of the item and
of the registry. `text` is `cguid::getAsString`. -/
def driverMove (lib : Vscphelper) (text : Guid → String) (k : Nat) (u : Driver κ) (d : Discovery.Daemon Nat) :
    DriverAct κ → Option (Driver κ × Discovery.Daemon Nat)
  | .act =>
    match u.running, u.phase with
    | true, .between => (threadStep u.device).map fun s => ({ u with device := s }, d)
    | _, _ => none
  | .enter =>
    match u.running, u.phase, u.device.todo with
    | true, .between, .testQuit true :: _ =>
      if u.device.device.item.bQuit then none else some ({ u with phase := .reading }, d)
    | _, _, _ => none
  | .read t =>
    match u.phase with
    | .reading =>
      some ({ u with phase := match handed lib u.device.device.item u.loop t with
        | none => .between
        | some ev => .announcing ev }, d)
    | _ => none
  | .discover ok date =>
    match u.phase with
    | .announcing ev =>
      (Discovery.step d (nextAct d k (text ev.guid) ok date)).map fun d' =>
        ({ u with phase := if d'.pc k = .idle then .sending ev else .announcing ev }, d')
    | _ => none
  | .send _ =>
    match u.phase with
    -- What `send` returns is not looked at.
    | .sending ev => some ({ u with phase := .between, sent := u.sent ++ [ev] }, d)
    | _ => none
  | .returns =>
    match u.running, u.phase, u.device.todo with
    | true, .between, [] => some ({ u with running := false }, d)
    | _, _, _ => none
  | .event i ev => (MqttVscpd.step lib u.device (.event i ev)).map fun s => ({ u with device := s }, d)
  | .callback i => (MqttVscpd.step lib u.device (.callback i)).map fun s => ({ u with device := s }, d)
  | .fault c => if u.atNull c then some (u, d) else none

/-- No call at address 0 returns. -/
def driverStep (lib : Vscphelper) (text : Guid → String) (k : Nat) (u : Driver κ) (d : Discovery.Daemon Nat)
    (a : DriverAct κ) : Option (Driver κ × Discovery.Daemon Nat) :=
  if 0 ∈ u.called a then none else driverMove lib text k u d a

def step (lib : Vscphelper) (text : Guid → String) (s : State κ) (a : Act κ) : Option (State κ) :=
  if s.over then none
  else match a with
    | .main m => mainStep s m
    | .driver k a =>
      match s.drivers[k]? with
      | some u => (driverStep lib text k u s.registry a).map fun (u', d) =>
        { s with drivers := s.drivers.set k u', registry := d, killed := a.kills }
      | none => none

/-- The configuration's items, and the registry as an `init` that returned true has left it. -/
def Initial (s : State κ) : Prop :=
  ∃ (items : List CDeviceItem) (d : Discovery.Daemon Nat) (cfg : Cfg) (o : InitOutcome),
    (∀ it ∈ items, it.bThreadStarted = false) ∧ Discovery.Reached d ∧ (d.start cfg o).up = true ∧
      s = { drivers := items.map Driver.ofItem, registry := d.start cfg o }

/-! ## What a step can do -/

/-- What a step of `main` does to the driver at `k`. -/
inductive MainDoes (s : State κ) (k : Nat) (u : Driver κ) : MainAct → Driver κ → Prop where
  | keeps (m : MainAct) : MainDoes s k u m u
  | starts (o : Option Outcomes) (hpc : s.main = .starting k) : MainDoes s k u (.start o) (u.startDriver o)
  | stops (hpc : s.main = .stopping k) : MainDoes s k u .stop u.stop
  | joins (hpc : s.main = .joining k) (hr : u.running = false) : MainDoes s k u .join u.join

omit [DecidableEq κ] in
theorem mainStep_cases {s s' : State κ} {m : MainAct} (h : mainStep s m = some s') :
    s'.registry = s.registry ∧ s'.drivers.length = s.drivers.length ∧
      ∀ k u', s'.drivers[k]? = some u' → ∃ u, s.drivers[k]? = some u ∧ MainDoes s k u m u' := by
  have hsame : ∀ k u', s.drivers[k]? = some u' → ∃ u, s.drivers[k]? = some u ∧ MainDoes s k u m u' :=
    fun k u' hu => ⟨u', hu, .keeps m⟩
  cases m with
  | start o =>
    simp only [mainStep] at h
    split at h
    · next i hpc =>
      split at h <;> cases h
      · refine ⟨rfl, List.length_modify .., fun k u' hu' => ?_⟩
        obtain ⟨u, hu, rfl⟩ := getElem?_modify_some hu'
        refine ⟨u, hu, ?_⟩
        split
        · next hik => exact .starts o (hik ▸ hpc)
        · exact .keeps _
      · exact ⟨rfl, rfl, hsame⟩
    · cases h
  | signal => cases h; exact ⟨rfl, rfl, hsame⟩
  | loop =>
    simp only [mainStep] at h
    split at h <;> cases h
    exact ⟨rfl, rfl, hsame⟩
  | stop =>
    simp only [mainStep] at h
    split at h
    · next i hpc =>
      split at h <;> cases h
      · refine ⟨rfl, List.length_modify .., fun k u' hu' => ?_⟩
        obtain ⟨u, hu, rfl⟩ := getElem?_modify_some hu'
        refine ⟨u, hu, ?_⟩
        split
        · next hik => exact .stops (hik ▸ hpc)
        · exact .keeps _
      · exact ⟨rfl, rfl, hsame⟩
    · cases h
  | join =>
    simp only [mainStep] at h
    split at h
    · next i hpc =>
      split at h
      · next w hw =>
        split at h <;> cases h
        next hr =>
        refine ⟨rfl, List.length_modify .., fun k u' hu' => ?_⟩
        obtain ⟨u, hu, rfl⟩ := getElem?_modify_some hu'
        refine ⟨u, hu, ?_⟩
        split
        · next hik =>
          subst hik
          obtain rfl : w = u := Option.some.inj (hw.symm.trans hu)
          exact .joins hpc (by simpa using hr)
        · exact .keeps _
      · cases h
    · cases h
  | cleanup | delete =>
    simp only [mainStep] at h
    split at h
    · split at h <;> cases h
      exact ⟨rfl, rfl, hsame⟩
    · cases h

/-- The steps of a driver's threads, one constructor for each way a step can go. -/
inductive DriverSteps (lib : Vscphelper) (text : Guid → String) (k : Nat) (u : Driver κ) (d : Discovery.Daemon Nat) :
    DriverAct κ → Driver κ → Discovery.Daemon Nat → Prop where
  | act (s : MqttVscpd.State κ) (hr : u.running = true) (hp : u.phase = .between) (hs : threadStep u.device = some s) :
    DriverSteps lib text k u d .act { u with device := s } d
  | enter (hr : u.running = true) (hp : u.phase = .between) (ht : u.device.todo.head? = some (.testQuit true))
    (hq : u.device.device.item.bQuit = false) : DriverSteps lib text k u d .enter { u with phase := .reading } d
  | passes (t : Tick) (hp : u.phase = .reading) (hev : handed lib u.device.device.item u.loop t = none) :
    DriverSteps lib text k u d (.read t) { u with phase := .between } d
  | reads (t : Tick) (ev : VscpEvent) (hp : u.phase = .reading)
    (hev : handed lib u.device.device.item u.loop t = some ev) :
    DriverSteps lib text k u d (.read t) { u with phase := .announcing ev } d
  | discovers (ok : Bool) (date : String) (ev : VscpEvent) (d' : Discovery.Daemon Nat) (hp : u.phase = .announcing ev)
    (hd : Discovery.step d (nextAct d k (text ev.guid) ok date) = some d') (hpc : d'.pc k ≠ .idle) :
    DriverSteps lib text k u d (.discover ok date) u d'
  | discovered (ok : Bool) (date : String) (ev : VscpEvent) (d' : Discovery.Daemon Nat) (hp : u.phase = .announcing ev)
    (hd : Discovery.step d (nextAct d k (text ev.guid) ok date) = some d') (hpc : d'.pc k = .idle) :
    DriverSteps lib text k u d (.discover ok date) { u with phase := .sending ev } d'
  | sends (ok : Bool) (ev : VscpEvent) (hp : u.phase = .sending ev) :
    DriverSteps lib text k u d (.send ok) { u with phase := .between, sent := u.sent ++ [ev] } d
  | returns (hr : u.running = true) (hp : u.phase = .between) (ht : u.device.todo = []) :
    DriverSteps lib text k u d .returns { u with running := false } d
  | event (i : κ) (ev : VscpEvent) (s : MqttVscpd.State κ) (hs : MqttVscpd.step lib u.device (.event i ev) = some s) :
    DriverSteps lib text k u d (.event i ev) { u with device := s } d
  | callback (i : κ) (s : MqttVscpd.State κ) (hs : MqttVscpd.step lib u.device (.callback i) = some s) :
    DriverSteps lib text k u d (.callback i) { u with device := s } d
  | faults (c : Option κ) (hc : u.atNull c = true) : DriverSteps lib text k u d (.fault c) u d

theorem driverStep_cases {lib : Vscphelper} {text : Guid → String} {k : Nat} {u u' : Driver κ}
    {d d' : Discovery.Daemon Nat} {a : DriverAct κ} (h : driverStep lib text k u d a = some (u', d')) :
    DriverSteps lib text k u d a u' d' := by
  rw [driverStep] at h
  split at h
  · cases h
  cases a with
  | act =>
    simp only [driverMove] at h
    split at h
    · next hr hp =>
      obtain ⟨s, hs, he⟩ := Option.map_eq_some_iff.mp h
      cases he
      exact .act s hr hp hs
    · cases h
  | enter =>
    simp only [driverMove] at h
    split at h
    · next todo hr hp ht =>
      split at h <;> cases h
      next hq => exact .enter hr hp (by rw [ht]; rfl) (by simpa using hq)
    · cases h
  | read t =>
    simp only [driverMove] at h
    split at h
    · next hp =>
      cases hev : handed lib u.device.device.item u.loop t with
      | none =>
        simp only [hev, Option.some.injEq, Prod.mk.injEq] at h
        obtain ⟨rfl, rfl⟩ := h
        exact .passes t hp hev
      | some ev =>
        simp only [hev, Option.some.injEq, Prod.mk.injEq] at h
        obtain ⟨rfl, rfl⟩ := h
        exact .reads t ev hp hev
    · cases h
  | discover ok date =>
    simp only [driverMove] at h
    split at h
    · next ev hp =>
      obtain ⟨d₁, hd, he⟩ := Option.map_eq_some_iff.mp h
      simp only [Prod.mk.injEq] at he
      obtain ⟨rfl, rfl⟩ := he
      by_cases hpc : d₁.pc k = .idle
      · rw [if_pos hpc]
        exact .discovered ok date ev d₁ hp hd hpc
      · rw [if_neg hpc, ← hp]
        exact .discovers ok date ev d₁ hp hd hpc
    · cases h
  | send ok =>
    simp only [driverMove] at h
    split at h <;> cases h
    next ev hp => exact .sends ok ev hp
  | returns =>
    simp only [driverMove] at h
    split at h <;> cases h
    next hr hp ht => exact .returns hr hp ht
  | event i ev =>
    obtain ⟨s, hs, he⟩ := Option.map_eq_some_iff.mp h
    cases he
    exact .event i ev s hs
  | callback i =>
    obtain ⟨s, hs, he⟩ := Option.map_eq_some_iff.mp h
    cases he
    exact .callback i s hs
  | fault c =>
    simp only [driverMove] at h
    split at h <;> cases h
    next hc => exact .faults c hc

/-- A step of a driver's threads changes that driver and the registry only, or kills the process. -/
theorem step_driver {lib : Vscphelper} {text : Guid → String} {s s' : State κ} {k : Nat} {a : DriverAct κ}
    (h : step lib text s (.driver k a) = some s') :
    ∃ u u' d', s.drivers[k]? = some u ∧ DriverSteps lib text k u s.registry a u' d' ∧
      s' = { s with drivers := s.drivers.set k u', registry := d', killed := a.kills } := by
  simp only [step] at h
  split at h
  · cases h
  split at h
  · next u hu =>
    obtain ⟨⟨u', d'⟩, hs, rfl⟩ := Option.map_eq_some_iff.mp h
    exact ⟨u, u', d', hu, driverStep_cases hs, rfl⟩
  · cases h

theorem step_main {lib : Vscphelper} {text : Guid → String} {s s' : State κ} {m : MainAct}
    (h : step lib text s (.main m) = some s') : mainStep s m = some s' := by
  simp only [step] at h
  split at h
  · cases h
  · exact h

variable {lib : Vscphelper} {text : Guid → String} {s s' : State κ} {a : Act κ} {k : Nat} {u v : Driver κ}

theorem length_step (h : step lib text s a = some s') : s'.drivers.length = s.drivers.length := by
  cases a with
  | main m => exact (mainStep_cases (step_main h)).2.1
  | driver k a =>
    obtain ⟨u, u', d', -, -, rfl⟩ := step_driver h
    exact List.length_set ..

/-- A step of the process, as it is for the driver at `k`. -/
inductive StepAt (lib : Vscphelper) (text : Guid → String) (s s' : State κ) (k : Nat) (u : Driver κ) :
    Act κ → Driver κ → Prop where
  | main {m : MainAct} {u' : Driver κ} (hm : MainDoes s k u m u') (hd : s'.registry = s.registry) :
    StepAt lib text s s' k u (.main m) u'
  | own {a : DriverAct κ} {u' : Driver κ} {d' : Discovery.Daemon Nat}
    (hst : DriverSteps lib text k u s.registry a u' d') (hd : s'.registry = d') :
    StepAt lib text s s' k u (.driver k a) u'
  | other {j : Nat} {a : DriverAct κ} {w w' : Driver κ} {d' : Discovery.Daemon Nat} (hjk : j ≠ k)
    (hst : DriverSteps lib text j w s.registry a w' d') (hd : s'.registry = d') :
    StepAt lib text s s' k u (.driver j a) u

theorem step_to (h : step lib text s a = some s') (hv : s'.drivers[k]? = some v) :
    ∃ u, s.drivers[k]? = some u ∧ StepAt lib text s s' k u a v := by
  cases a with
  | main m =>
    obtain ⟨hreg, -, hdrivers⟩ := mainStep_cases (step_main h)
    obtain ⟨u, hu, hm⟩ := hdrivers k v hv
    exact ⟨u, hu, .main hm hreg⟩
  | driver j a =>
    obtain ⟨w, w', d', hw, hst, rfl⟩ := step_driver h
    by_cases hjk : j = k
    · subst hjk
      obtain rfl : w' = v := by simpa [(List.getElem?_eq_some_iff.mp hw).1] using hv
      exact ⟨w, hw, .own hst rfl⟩
    · exact ⟨v, by simpa [List.getElem?_set_ne hjk] using hv, .other hjk hst rfl⟩

theorem step_from (h : step lib text s a = some s') (hu : s.drivers[k]? = some u) :
    ∃ v, s'.drivers[k]? = some v ∧ StepAt lib text s s' k u a v := by
  have hk : k < s'.drivers.length := length_step h ▸ (List.getElem?_eq_some_iff.mp hu).1
  have hv := List.getElem?_eq_getElem hk
  obtain ⟨u', hu', hat⟩ := step_to h hv
  obtain rfl : u = u' := Option.some.inj (hu.symm.trans hu')
  exact ⟨_, hv, hat⟩

end MqttVscpd.Process
