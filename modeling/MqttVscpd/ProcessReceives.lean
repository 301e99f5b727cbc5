/-
The events of a process on their way from the broker to the drivers. Each event the MQTT
client hands to `receive_event_callback` has one fate: it is handed to the driver, once,
or it is turned away at one of the tests (`received_settled`). And no callback hangs: each
one returns, if the threads are not passed over and the process goes on (`returns_in_time`),
log calls being taken to return here.
-/
import MqttVscpd.ProcessEnds
import MqttVscpd.ProcessEvents

namespace MqttVscpd.Process

open Transition

variable {κ : Type} [DecidableEq κ] {lib : Vscphelper} {text : Guid → String} {k : Nat} {u u' : Driver κ}
  {d d' : Discovery.Daemon Nat} {i : κ}

/-! ## One fate for each event -/

/-- What becomes of an event in `receive_event_callback`. -/
inductive Fate where
  | quitting
  | notOpen
  /-- `vscp_convertEventToCanal` returns false. -/
  | unconverted
  /-- For `m_proc_CanalBlockingSend` or `m_proc_CanalSend`. -/
  | canal (msg : CanalMsg)
  /-- For `m_proc_VSCPWrite`. -/
  | vscp
  | invalidLevel

/-- The driver gets the event. -/
def Fate.written : Fate → Bool
  | .canal _ | .vscp => true
  | _ => false

/-- What the next step of a callback settles. -/
def settles (lib : Vscphelper) (it : CDeviceItem) : CallbackPc → List (VscpEvent × Fate)
  | .testQuit ev => if it.bQuit then [(ev, .quitting)] else []
  | .testHandle ev => if it.openHandle = 0 then [(ev, .notOpen)] else []
  | .convert ev =>
    match lib.convertEventToCanal ev with
    | none => [(ev, .unconverted)]
    | some msg => [(ev, .canal msg)]
  | .testLevel2 ev => [(ev, if it.driverLevel = VSCP_DRIVER_LEVEL2 then .vscp else .invalidLevel)]
  | _ => []

/-- The next step of a callback calls the driver. -/
def writes (it : CDeviceItem) : CallbackPc → Nat
  | .selectSend => 1
  | .testLevel2 _ => if it.driverLevel = VSCP_DRIVER_LEVEL2 then 1 else 0
  | _ => 0

/-- The event of a callback, as long as its fate is open. -/
def inHand : CallbackPc → List VscpEvent
  | .entered ev | .testQuit ev | .testHandle ev | .testLevel1 ev | .testLevel2 ev | .convert ev => [ev]
  | _ => []

/-- The calls of the driver that a callback with its event settled is about to make. -/
def toWrite : CallbackPc → Nat
  | .selectSend => 1
  | _ => 0

/-- What can be seen of the events of one callback. -/
inductive Received where
  | came (ev : VscpEvent)
  | settled (ev : VscpEvent) (f : Fate)
  | written

def Received.event? : Received → Option VscpEvent
  | .came ev => some ev
  | .settled _ _ | .written => none

def Received.settled? : Received → Option (VscpEvent × Fate)
  | .settled ev f => some (ev, f)
  | .came _ | .written => none

def Received.isWritten : Received → Bool
  | .written => true
  | .came _ | .settled _ _ => false

/-- A step of a callback, as it is seen. -/
def ofCallback (lib : Vscphelper) (it : CDeviceItem) (pc : CallbackPc) : List Received :=
  (settles lib it pc).map (fun p => .settled p.1 p.2) ++ List.replicate (writes it pc) .written

/-- What is seen of callback `i` in a step of the threads of an item. -/
def received (lib : Vscphelper) (i : κ) (u : Driver κ) : DriverAct κ → List Received
  | .event j ev => if j = i then [.came ev] else []
  | .callback j => if j = i then ofCallback lib u.device.device.item (u.device.cb i) else []
  | .act | .enter | .read _ | .discover _ _ | .send _ | .returns | .fault _ => []

theorem seen_ofCallback (lib : Vscphelper) (it : CDeviceItem) (pc : CallbackPc) :
    (ofCallback lib it pc).filterMap Received.event? = [] ∧
      (ofCallback lib it pc).filterMap Received.settled? = settles lib it pc ∧
        (ofCallback lib it pc).countP Received.isWritten = writes it pc := by
  simp [ofCallback, Received.event?, Received.settled?, Received.isWritten, Function.comp_def, List.countP_replicate]

/-- Inside the callback the event stays in hand until its fate is settled. -/
theorem inHand_settles (lib : Vscphelper) (it : CDeviceItem) (pc : CallbackPc) :
    inHand pc = (settles lib it pc).map Prod.fst ++ inHand (receiveEventCallback lib it pc) := by
  fun_cases receiveEventCallback lib it pc <;> simp_all [settles, inHand]

/-- The driver is called once for each event that is settled so. -/
theorem toWrite_settles (lib : Vscphelper) (it : CDeviceItem) (pc : CallbackPc) :
    writes it pc + toWrite (receiveEventCallback lib it pc) =
      toWrite pc + (settles lib it pc).countP (·.2.written) := by
  fun_cases receiveEventCallback lib it pc <;> simp_all [settles, writes, toWrite, Fate.written]

/-- What has been seen of callback `i` accounts for the events it was called with. -/
structure Accounted (i : κ) (u : Driver κ) (seen : List Received) : Prop where
  before : u.created = 0 → seen = [] ∧ u.device.connected = false
  events : seen.filterMap Received.event? = (seen.filterMap Received.settled?).map Prod.fst ++ inHand (u.device.cb i)
  calls : seen.countP Received.isWritten + toWrite (u.device.cb i) =
    (seen.filterMap Received.settled?).countP (·.2.written)

variable {seen : List Received}

omit [DecidableEq κ] in
theorem Accounted.congr (h : Accounted i u seen)
    (hc : u.created = 0 → u'.created = 0 → u'.device.connected = u.device.connected)
    (hle : u.created ≤ u'.created) (hcb : u'.device.cb i = u.device.cb i) : Accounted i u' seen := by
  refine ⟨fun h₀ => ?_, hcb ▸ h.events, hcb ▸ h.calls⟩
  have hnone : u.created = 0 := by omega
  obtain ⟨hseen, hconn⟩ := h.before hnone
  exact ⟨hseen, (hc hnone h₀).trans hconn⟩

omit [DecidableEq κ] in
theorem Accounted.mainDoes {s : State κ} {m : MainAct} (h : Accounted i u seen) (hi : Inv text s)
    (hu : s.drivers[k]? = some u) (hm : MainDoes s k u m u') : Accounted i u' seen := by
  cases hm with
  | keeps => exact h
  | starts o hpc =>
    have hphase := (hi.shutdown.worker k u.worker (by simp [hu])).phase
    simp only [State.shutdown, hpc] at hphase
    obtain ⟨rfl, hconn⟩ := h.before (hphase (Nat.le_refl k))
    cases hen : u.device.device.item.bEnable with
    | false => simpa [Driver.startDriver, hen] using h
    | true =>
      cases o with
      | none => simpa [Driver.startDriver, hen] using h
      | some o => exact ⟨fun _ => ⟨rfl, by simp [Driver.startDriver, hen, start]⟩,
          by simp [Driver.startDriver, hen, start, inHand], by simp [Driver.startDriver, hen, start, toWrite]⟩
  | stops => exact h.congr (fun _ _ => rfl) (Nat.le_refl _) rfl
  | joins => exact h.congr (fun _ _ => rfl) (Nat.le_refl _) rfl

theorem Accounted.event {j : κ} {ev : VscpEvent} {s : MqttVscpd.State κ} (h : Accounted i u seen)
    (hs : MqttVscpd.step lib u.device (.event j ev) = some s) :
    Accounted i { u with device := s } (seen ++ received lib i u (.event j ev)) := by
  simp only [MqttVscpd.step] at hs
  split at hs <;> cases hs
  next hc =>
  obtain ⟨hconn, hidle⟩ := hc
  have hcreated : u.created ≠ 0 := fun h₀ => by simp [(h.before h₀).2] at hconn
  by_cases hji : j = i
  · subst hji
    have hevents := h.events
    have hcalls := h.calls
    rw [hidle] at hevents hcalls
    exact ⟨fun h₀ => absurd h₀ hcreated, by simp [received, hevents, inHand, Received.event?, Received.settled?],
      by simpa [received, toWrite, List.filterMap_cons, Received.settled?, Received.isWritten] using hcalls⟩
  · have hother : Accounted i
        { u with device := { u.device with cb := Function.update u.device.cb j (.entered ev) } } seen := h.congr
      (fun _ _ => rfl) (Nat.le_refl _) (by simp [Function.update_of_ne (Ne.symm hji)])
    simpa [received, hji] using hother

theorem Accounted.callback {j : κ} {s : MqttVscpd.State κ} (h : Accounted i u seen) (hi : MqttVscpd.Inv u.device)
    (hs : MqttVscpd.step lib u.device (.callback j) = some s) :
    Accounted i { u with device := s } (seen ++ received lib i u (.callback j)) := by
  obtain ⟨pc, owner, hm, rfl⟩ := step_callback hs
  by_cases hji : j = i
  · subst hji
    obtain ⟨hcame, hsettled, hwritten⟩ := seen_ofCallback lib u.device.device.item (u.device.cb j)
    have hevents := h.events
    have hcalls := h.calls
    have hmoves : inHand (u.device.cb j) = (settles lib u.device.device.item (u.device.cb j)).map Prod.fst ++ inHand pc ∧
        writes u.device.device.item (u.device.cb j) + toWrite pc =
          toWrite (u.device.cb j) + (settles lib u.device.device.item (u.device.cb j)).countP (·.2.written) := by
      cases hm with
      | locks ev hpc => simp [hpc, inHand, settles, writes, toWrite]
      | unlocks hpc => simp [hpc, inHand, settles, writes, toWrite]
      | inside => exact ⟨inHand_settles .., toWrite_settles ..⟩
    have hcreated : u.created ≠ 0 := by
      intro h₀
      obtain ⟨g, hi⟩ := hi
      have hidle := hi.early (h.before h₀).2 j
      cases hm <;> simp_all [CallbackPc.inside]
    refine ⟨fun h₀ => absurd h₀ hcreated, ?_, ?_⟩
    · simp [received, hcame, hsettled, hevents, hmoves.1]
    · simp only [received, if_true, List.countP_append, List.filterMap_append, hsettled, hwritten, Function.update_self]
      omega
  · have hother : Accounted i
        { u with device := { u.device with mutex := owner, cb := Function.update u.device.cb j pc } } seen := h.congr
      (fun _ _ => rfl) (Nat.le_refl _) (by simp [Function.update_of_ne (Ne.symm hji)])
    simpa [received, hji] using hother

theorem Accounted.driverSteps {a : DriverAct κ} (h : Accounted i u seen) (hi : DriverInv text (d.pc k) u)
    (hr : u.running = true → u.created ≠ 0) (hs : DriverSteps lib text k u d a u' d') :
    Accounted i u' (seen ++ received lib i u a) := by
  cases hs with
  | event j ev s hs => exact h.event hs
  | callback j s hs => exact h.callback hi.device hs
  | act s hrun hp hs =>
    obtain ⟨a, todo, -, -, rfl⟩ := threadStep_cases hs
    rw [received, List.append_nil]
    exact h.congr (fun h₀ => absurd h₀ (hr hrun)) (Nat.le_refl _) rfl
  | _ =>
    rw [received, List.append_nil]
    exact h.congr (fun _ _ => rfl) (Nat.le_refl _) rfl

/-- The broker's first event comes when the driver is open. -/
def oneReceived : List (Act Unit) :=
  [.main (.start (some servingOutcomes)), .main (.start none)] ++ List.replicate 8 (.driver 0 .act) ++
    .driver 0 (.event () VscpEvent.zero) :: List.replicate 7 (.driver 0 (.callback ()))

/-- If the device thread has the mutex, or locks it, it comes to the unlocking. -/
structure WillUnlock (s : MqttVscpd.State κ) : Prop where
  locks : ForRests (fun a rest => a = .lock → .unlock ∈ rest) s.todo
  held : s.mutex = some none → .unlock ∈ s.todo

omit [DecidableEq κ] in
theorem willUnlock_start (it : CDeviceItem) (o : Outcomes) : WillUnlock (start it o : MqttVscpd.State κ) :=
  ⟨forRests_deviceThread (fun _ _ _ hlock ha => absurd ha hlock) (fun h => by cases h) (fun h => by cases h)
    (fun _ => by simp) it o, fun h => by cases h⟩

omit [DecidableEq κ] in
theorem WillUnlock.thread {s s' : MqttVscpd.State κ} (h : WillUnlock s) (hs : threadStep s = some s') :
    WillUnlock s' := by
  obtain ⟨a, todo, htodo, -, rfl⟩ := threadStep_cases hs
  obtain ⟨hlocks, hheld⟩ := h
  rw [htodo] at hlocks hheld
  refine ⟨hlocks.2, fun hm => ?_⟩
  cases a with
  | lock => exact hlocks.1 rfl
  | unlock => cases hm
  | _ => simpa using hheld hm

theorem WillUnlock.event {s s' : MqttVscpd.State κ} {ev : VscpEvent} (h : WillUnlock s)
    (hs : MqttVscpd.step lib s (.event i ev) = some s') : WillUnlock s' := by
  simp only [MqttVscpd.step] at hs
  split at hs <;> cases hs
  exact ⟨h.locks, h.held⟩

theorem WillUnlock.callback {s s' : MqttVscpd.State κ} (h : WillUnlock s)
    (hs : MqttVscpd.step lib s (.callback i) = some s') : WillUnlock s' := by
  obtain ⟨pc, owner, hm, rfl⟩ := step_callback hs
  refine ⟨h.locks, fun hown => ?_⟩
  cases hm with
  | locks => cases hown
  | unlocks => cases hown
  | inside => exact h.held hown

/-- What also holds of a process, and lets its callbacks go on. -/
structure Unlocking (text : Guid → String) (s : State κ) : Prop where
  live : Live text s
  unlocks : ∀ (k : Nat) (u : Driver κ), s.drivers[k]? = some u → WillUnlock u.device

omit [DecidableEq κ] in
theorem unlocking_initial {s : State κ} (h : Initial s) : Unlocking text s := by
  refine ⟨live_initial h, fun k u hu => ?_⟩
  obtain ⟨items, d, cfg, o, -, -, -, rfl⟩ := h
  simp only [List.getElem?_map, Option.map_eq_some_iff] at hu
  obtain ⟨it, -, rfl⟩ := hu
  exact ⟨trivial, fun h => by cases h⟩

theorem unlocking_step {s s' : State κ} {a : Act κ} (hl : Unlocking text s) (h : step lib text s a = some s') :
    Unlocking text s' := by
  refine ⟨live_step hl.live h, fun k v hv => ?_⟩
  obtain ⟨u, hu, hat⟩ := step_to h hv
  have hunlock := hl.unlocks k u hu
  cases hat with
  | main hm =>
    cases hm with
    | keeps => exact hunlock
    | stops | joins => exact ⟨hunlock.locks, hunlock.held⟩
    | starts o =>
      cases hen : u.device.device.item.bEnable with
      | false => simpa [Driver.startDriver, hen] using hunlock
      | true =>
        cases o with
        | none => simpa [Driver.startDriver, hen] using hunlock
        | some o => simpa [Driver.startDriver, hen] using willUnlock_start _ _
  | own hst =>
    cases hst with
    | act s₁ hr hp hs₁ => exact hunlock.thread hs₁
    | event j ev s₁ hs₁ => exact hunlock.event hs₁
    | callback j s₁ hs₁ => exact hunlock.callback hs₁
    | _ => exact hunlock
  | other => exact hunlock

omit [DecidableEq κ] in
/-- With the mutex a device thread is closing its driver. -/
theorem next_of_held {s : MqttVscpd.State κ} {a : MqttVscpd.Act} {todo : List MqttVscpd.Act} (hi : MqttVscpd.Inv s)
    (hm : s.mutex = some none) (ht : s.todo = a :: todo) : a = .close ∨ a = .clearHandle ∨ a = .unlock := by
  obtain ⟨g, hi⟩ := hi
  have hin : holder g s.cb none = true := (hi.lock none).mpr hm
  obtain ⟨g', hn, -⟩ := follows_cons_iff.mp (ht ▸ hi.follows)
  cases g <;> cases a <;> simp_all [Stage.next, holder, Stage.inside]

/-- The thread of driver `k` has the mutex of its device, and is there. -/
def Closing (text : Guid → String) (k : Nat) (todo : List MqttVscpd.Act) (s : State κ) : Prop :=
  Unlocking text s ∧ ∃ u, s.drivers[k]? = some u ∧ u.device.mutex = some none ∧ u.device.todo = todo

/-- The mutex of driver `k` is free. -/
def MutexFree (k : Nat) (s : State κ) : Prop := ∃ u, s.drivers[k]? = some u ∧ u.device.mutex = none

variable {todo : List MqttVscpd.Act}

omit [DecidableEq κ] in
/-- It is in no pass, and is about to close, to clear the handle or to unlock. -/
theorem Closing.about {s : State κ} (h : Closing text k todo s) :
    ∃ u a rest, s.drivers[k]? = some u ∧ u.device.mutex = some none ∧ u.device.todo = a :: rest ∧ todo = a :: rest ∧
      u.running = true ∧ u.phase = .between ∧ (a = .close ∨ a = .clearHandle ∨ a = .unlock) := by
  obtain ⟨hl, u, hu, hm, rfl⟩ := h
  have hdi := hl.live.inv.driver k u hu
  have hmem := (hl.unlocks k u hu).held hm
  obtain ⟨a, rest, htodo⟩ := List.exists_cons_of_ne_nil (List.ne_nil_of_mem hmem)
  have hnext := next_of_held hdi.device hm htodo
  refine ⟨u, a, rest, hu, hm, htodo, htodo, ?_, ?_, hnext⟩
  · by_contra hr
    simp [hdi.ended (by simpa using hr)] at htodo
  · by_contra hp
    have hhead := (hdi.inPass hp).2
    rw [htodo] at hhead
    rcases hnext with rfl | rfl | rfl <;> cases hhead

theorem Closing.enabled {s : State κ} (h : Closing text k todo s) (hgo : s.over = false) :
    ∃ a s', OfThread k a ∧ step lib text s a = some s' := by
  obtain ⟨u, a, rest, hu, hm, htodo, -, hr, hp, hnext⟩ := h.about
  obtain ⟨s₁, hs⟩ : ∃ s₁, threadStep u.device = some s₁ :=
    act_enabled htodo (by rcases hnext with rfl | rfl | rfl <;> simp) (by rcases hnext with rfl | rfl | rfl <;> simp)
  obtain ⟨b, s', hb, hs'⟩ : ∃ b s', b.ofThread = true ∧ step lib text s (.driver k b) = some s' :=
    driver_enabled (a := .act) hgo hu hr rfl (by simp only [driverMove, hr, hp, hs, Option.map_some]; rfl)
  exact ⟨_, s', ⟨b, rfl, hb⟩, hs'⟩

/-- Each step of the thread brings it nearer to the unlocking, or is it. -/
theorem Closing.own {s s' : State κ} {a : Act κ} (h : Closing text k todo s) (ha : OfThread k a)
    (hs : step lib text s a = some s') (hgo : s'.over = false) :
    MutexFree k s' ∨ ∃ rest, rest.length < todo.length ∧ Closing text k rest s' := by
  obtain ⟨u, c, rest, hu, hm, htodo, rfl, hr, hp, hnext⟩ := h.about
  have hl' := unlocking_step h.1 hs
  obtain ⟨v, hv, hat⟩ := step_from hs hu
  obtain ⟨b, rfl, hb⟩ := ha
  cases hat with
  | other hne => exact absurd rfl hne
  | own hst =>
    cases hst with
    | act s₁ _ _ hs₁ =>
      obtain ⟨c', rest', htodo', -, rfl⟩ := threadStep_cases hs₁
      obtain ⟨rfl, rfl⟩ := List.cons.inj (htodo.symm.trans htodo')
      rcases hnext with rfl | rfl | rfl
      · exact .inr ⟨rest, by simp, hl', _, hv, hm, rfl⟩
      · exact .inr ⟨rest, by simp, hl', _, hv, hm, rfl⟩
      · exact .inl ⟨_, hv, rfl⟩
    | enter _ _ hhead =>
      rw [htodo] at hhead
      rcases hnext with rfl | rfl | rfl <;> cases hhead
    | returns _ _ hnil => simp [htodo] at hnil
    | event | callback => cases hb
    | faults => cases kills_of_over hs hgo
    | _ => simp_all

theorem Closing.other {s s' : State κ} {a : Act κ} (h : Closing text k todo s) (ha : ¬ OfThread k a)
    (hs : step lib text s a = some s') : Closing text k todo s' ∨ MutexFree k s' := by
  obtain ⟨hl, u, hu, hm, htodo⟩ := h
  have hl' := unlocking_step hl hs
  obtain ⟨v, hv, hat⟩ := step_from hs hu
  have hdev : MqttVscpd.Inv u.device := (hl.live.inv.driver k u hu).device
  cases hat with
  | main hd =>
    cases hd with
    | keeps | stops | joins => exact .inl ⟨hl', _, hv, hm, htodo⟩
    | starts o =>
      cases hen : u.device.device.item.bEnable with
      | false => exact .inl ⟨hl', _, hv, by simpa [Driver.startDriver, hen] using ⟨hm, htodo⟩⟩
      | true =>
        cases o with
        | none => exact .inl ⟨hl', _, hv, by simpa [Driver.startDriver, hen] using ⟨hm, htodo⟩⟩
        | some o => exact .inr ⟨_, hv, by simp [Driver.startDriver, hen, start]⟩
  | @own b _ _ hst =>
    have hb : ¬ b.ofThread = true := fun hb => ha ⟨b, rfl, hb⟩
    cases hst with
    | event j ev s₁ hs₁ =>
      simp only [MqttVscpd.step] at hs₁
      split at hs₁ <;> cases hs₁
      exact .inl ⟨hl', _, hv, hm, htodo⟩
    | callback j s₁ hs₁ =>
      -- No callback is inside beside the thread.
      obtain ⟨pc, owner, hmoves, rfl⟩ := step_callback hs₁
      obtain ⟨g, hi⟩ := hdev
      cases hmoves with
      | locks ev hpc hfree => simp [hm] at hfree
      | unlocks hpc =>
        have hown := hi.lock.owner_eq (t := some j) (by simp [holder, hpc, CallbackPc.inside])
        simp [hm] at hown
      | inside => exact .inl ⟨hl', _, hv, hm, htodo⟩
    | faults => exact .inl ⟨hl', _, hv, hm, htodo⟩
    | _ => exact absurd rfl hb
  | other => exact .inl ⟨hl', u, hv, hm, htodo⟩

variable {e : Execution (step (κ := κ) lib text)} {n : Nat}

theorem thread_unlocks (hgo : ∀ m, (e.state m).over = false) (hf : e.Fair (OfThread k))
    (h : Closing text k todo (e.state n)) : ∃ m, n ≤ m ∧ MutexFree k (e.state m) :=
  hf.descends (P := Closing text k) List.length (fun _ m _ hs => hs.enabled (hgo m))
    (fun _ m _ _ hs ha ht => hs.own ha ht.2 (hgo (m + 1))) (fun _ _ _ _ hs ha ht => hs.other ha ht.2) h

/-! ## Every callback returns -/

/-- Callback `i` of driver `k` waits for the mutex. -/
def Waits (text : Guid → String) (k : Nat) (i : κ) (ev : VscpEvent) (s : State κ) : Prop :=
  Unlocking text s ∧ ∃ u, s.drivers[k]? = some u ∧ u.device.cb i = .entered ev

/-- It has the mutex, or does not run. -/
def Entered (text : Guid → String) (k : Nat) (i : κ) (s : State κ) : Prop :=
  Returned k i s ∨ ∃ pc, HoldsMutex text k i pc s

variable {ev : VscpEvent}

theorem waits_step {s s' : State κ} {a : Act κ} (h : Waits text k i ev s) (hs : step lib text s a = some s') :
    Waits text k i ev s' ∧ a ≠ .driver k (.callback i) ∨ Entered text k i s' := by
  obtain ⟨hl, u, hu, hpc⟩ := h
  have hl' := unlocking_step hl hs
  obtain ⟨v, hv, hat⟩ := step_from hs hu
  cases hat with
  | main hd =>
    rcases mainDoes_callbacks hd with ⟨-, hcb⟩ | ⟨hmutex, hcb⟩
    · exact .inl ⟨⟨hl', v, hv, (congrFun hcb i).trans hpc⟩, by simp⟩
    · exact .inr (.inl ⟨v, hv, hmutex, hcb i⟩)
  | own hst =>
    cases hst with
    | act s₁ hr hp hs₁ =>
      obtain ⟨a, todo, -, -, rfl⟩ := threadStep_cases hs₁
      exact .inl ⟨⟨hl', _, hv, hpc⟩, by simp⟩
    | event j ev' s₁ hs₁ =>
      simp only [MqttVscpd.step] at hs₁
      split at hs₁ <;> cases hs₁
      next hc =>
      have hij : i ≠ j := by
        intro he
        simp [← he, hpc] at hc
      exact .inl ⟨⟨hl', _, hv, by simpa [Function.update_of_ne hij] using hpc⟩, by simp⟩
    | callback j s₁ hs₁ =>
      obtain ⟨pc, owner, hm, rfl⟩ := step_callback hs₁
      by_cases hij : i = j
      · subst hij
        cases hm with
        | locks ev' hpc' => exact .inr (.inr ⟨_, hl'.live, _, hv, rfl, Function.update_self ..⟩)
        | unlocks hpc' => simp [hpc] at hpc'
        | inside hin => simp [hpc, CallbackPc.inside] at hin
      · exact .inl ⟨⟨hl', _, hv, by simpa [Function.update_of_ne hij] using hpc⟩, by simp [Ne.symm hij]⟩
    | _ => exact .inl ⟨⟨hl', _, hv, hpc⟩, by simp⟩
  | other hne => exact .inl ⟨⟨hl', u, hv, hpc⟩, by simp [hne]⟩

/-- Where the mutex is free the callback can lock it. -/
theorem Waits.enabled {s : State κ} (h : Waits text k i ev s) (hgo : s.over = false) (hfree : MutexFree k s) :
    ∃ a s', OfCallback k i a ∧ step lib text s a = some s' := by
  obtain ⟨hl, u, hu, hpc⟩ := h
  obtain ⟨w, hw, hm⟩ := hfree
  obtain rfl : u = w := Option.some.inj (hu.symm.trans hw)
  obtain ⟨s₁, hs⟩ : ∃ s₁, MqttVscpd.step lib u.device (.callback i) = some s₁ :=
    ⟨_, by simp only [MqttVscpd.step, hpc, hm, if_true]; rfl⟩
  exact callback_enabled hgo hu hs

/-- Whoever has the mutex, it is free at some time. -/
theorem mutex_freed (hgo : ∀ m, (e.state m).over = false) (hf : Fairly e) (hl : Unlocking text (e.state n))
    (hu : (e.state n).drivers[k]? = some u) : ∃ m, n ≤ m ∧ MutexFree k (e.state m) := by
  cases ho : u.device.mutex with
  | none => exact ⟨n, Nat.le_refl n, u, hu, ho⟩
  | some owner =>
    cases owner with
    | none => exact thread_unlocks hgo (hf.threads k).fair ⟨hl, u, hu, ho, rfl⟩
    | some j =>
      obtain ⟨m, hm, w, hw, hnone, -⟩ := callback_returned hgo (hf.callbacks k j) ⟨hl.live, u, hu, ho, rfl⟩
      exact ⟨m, hm, w, hw, hnone⟩

theorem callback_entered (hgo : ∀ m, (e.state m).over = false) (hf : Fairly e) (hc : e.StrongFair (OfCallback k i))
    (h : Waits text k i ev (e.state n)) : ∃ m, n ≤ m ∧ Entered text k i (e.state m) := by
  refine hc.leads (P := Waits text k i ev) (Q := Entered text k i) (fun m _ hm => ?_) (fun m a _ hs ha ht => ?_)
    (fun m a _ hs ha ht => ?_) h
  · obtain ⟨hl, u, hu, -⟩ := id hm
    rcases Execution.keeps_until (e := e) (fun p a _ hs ht => (waits_step hs ht.2).imp_left (·.1)) hm
      with hall | hq
    · obtain ⟨p, hp, hfree⟩ := mutex_freed hgo hf hl hu
      exact ⟨p, hp, .inr ((hall p hp).enabled (hgo p) hfree)⟩
    · obtain ⟨p, hp, hq⟩ := hq
      exact ⟨p, hp, .inl hq⟩
  · obtain rfl | rfl := ha
    · exact (waits_step hs ht.2).resolve_left fun hw => hw.2 rfl
    · cases kills_of_over ht.2 (hgo (m + 1))
  · exact (waits_step hs ht.2).imp_left (·.1)

/-- A callback returns, as long as the run goes on. -/
theorem returns_in_time (h₀ : Initial (e.state 0)) (hgo : ∀ m, (e.state m).over = false) (hf : Fairly e)
    (hc : e.StrongFair (OfCallback k i)) (hu : (e.state n).drivers[k]? = some u) :
    ∃ m, n ≤ m ∧ ∃ v, (e.state m).drivers[k]? = some v ∧ v.device.cb i = .idle := by
  have hl : Unlocking text (e.state n) := Execution.inv (fun _ _ _ => unlocking_step) (unlocking_initial h₀) n
  have hreturned : ∀ m, Entered text k i (e.state m) → ∃ p, m ≤ p ∧ Returned k i (e.state p) := by
    rintro m (hr | ⟨pc, hh⟩)
    · exact ⟨m, Nat.le_refl m, hr⟩
    · exact callback_returned hgo (hf.callbacks k i) hh
  have hend : ∀ m, n ≤ m → Entered text k i (e.state m) →
      ∃ m, n ≤ m ∧ ∃ v, (e.state m).drivers[k]? = some v ∧ v.device.cb i = .idle := by
    intro m hm he
    obtain ⟨p, hp, v, hv, -, hidle⟩ := hreturned m he
    exact ⟨p, by omega, v, hv, hidle⟩
  cases hpc : u.device.cb i with
  | idle => exact ⟨n, Nat.le_refl n, u, hu, hpc⟩
  | entered ev =>
    obtain ⟨m, hm, he⟩ := callback_entered hgo hf hc ⟨hl, u, hu, hpc⟩
    exact hend m hm he
  | _ =>
    obtain ⟨g, hi⟩ := (hl.live.inv.driver k u hu).device
    have hown : u.device.mutex = some (some i) :=
      hi.lock.owner_eq (t := some i) (by simp [holder, hpc, CallbackPc.inside])
    exact hend n (Nat.le_refl n) (.inr ⟨_, hl.live, u, hu, hown, rfl⟩)

/-- A callback returns, or the run comes to its end. -/
theorem returns_or_over (h₀ : Initial (e.state 0)) (hf : Fairly e) (hc : e.StrongFair (OfCallback k i))
    (hu : (e.state n).drivers[k]? = some u) :
    ∃ m, n ≤ m ∧ ((e.state m).over = true ∨ ∃ v, (e.state m).drivers[k]? = some v ∧ v.device.cb i = .idle) := by
  rcases over_or_goes_on e with ⟨m, hover⟩ | hgo
  · refine ⟨max n m, Nat.le_max_left .., .inl ?_⟩
    rw [over_stays hover (Nat.le_max_right ..)]
    exact hover
  · obtain ⟨m, hm, hidle⟩ := returns_in_time h₀ hgo hf hc hu
    exact ⟨m, hm, .inr hidle⟩

end MqttVscpd.Process
