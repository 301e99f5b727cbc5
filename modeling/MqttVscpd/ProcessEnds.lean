/-
The end of a process. If every thread that can move again and again does move, a
device thread asked to quit returns, whatever it waits for (`threads_return`), and so
a daemon that has got its signal comes to the deletion of the control object, unless a
call of the driver at address 0 kills it before (`ends_of_signal`). Here a log call
returns; where the log is a queue that can be full, see `ProcessLogged`.
-/
import MqttVscpd.Lib.Fairness
import MqttVscpd.ProcessSafety

namespace MqttVscpd.Process

open Transition

variable {κ : Type}

/-! ## Threads that can go on -/

theorem mem_lookupAll {a : MqttVscpd.Act} {o : Outcomes} {missing : Lookup → Bool} {bail k : List MqttVscpd.Act}
    {ps : List Proc} (h : a ∈ lookupAll o missing bail ps k) : (∃ p x, a = .dlsym p x) ∨ a ∈ bail ∨ a ∈ k := by
  induction ps with
  | nil => exact .inr (.inr h)
  | cons p ps ih =>
    simp only [lookupAll, List.mem_cons] at h
    rcases h with rfl | h
    · exact .inl ⟨_, _, rfl⟩
    · split at h
      · exact .inr (.inl h)
      · exact ih h

/-- Without passes a device thread finds `m_bQuit` set at every test. -/
theorem not_mem_deviceThread (it : CDeviceItem) (o : Outcomes) :
    .testQuit false ∉ deviceThread it { o with ticks := [] } := by
  have hlevel1 : .testQuit false ∉ level1Open { o with ticks := [] } := by
    unfold level1Open level1Serve
    split <;> simp
    split <;> simp
    split <;> simp [workLoopActs, shutdownActs]
  have hlevel2 : .testQuit false ∉ level2Open { o with ticks := [] } := by
    unfold level2Open level2Serve
    split <;> simp
    split <;> simp [workLoopActs, shutdownActs]
  intro h
  simp only [deviceThread, List.mem_cons, reduceCtorEq, false_or] at h
  split at h
  · cases h
  split at h
  · rcases mem_lookupAll h with ⟨_, _, h⟩ | h | h
    · cases h
    · cases h
    rcases mem_lookupAll h with ⟨_, _, h⟩ | h | h
    · cases h
    · simp at h
    rcases mem_lookupAll h with ⟨_, _, h⟩ | h | h
    · cases h
    · cases h
    · exact hlevel1 h
  split at h
  · rcases mem_lookupAll h with ⟨_, _, h⟩ | h | h
    · cases h
    · cases h
    · exact hlevel2 h
  · cases h

/-- What also holds of a process, and lets its threads go on. -/
structure Live (text : Guid → String) (s : State κ) : Prop where
  inv : Inv text s
  up : s.registry.up = true
  tests : ∀ (k : Nat) (u : Driver κ), s.drivers[k]? = some u → MqttVscpd.Act.testQuit false ∉ u.device.todo

variable {text : Guid → String}

theorem live_initial {s : State κ} (h : Initial s) : Live text s := by
  refine ⟨inv_initial h, ?_, fun k u hu => ?_⟩
  · obtain ⟨items, d, cfg, o, -, -, hup, rfl⟩ := h
    exact hup
  · obtain ⟨items, d, cfg, o, -, -, -, rfl⟩ := h
    simp only [List.getElem?_map, Option.map_eq_some_iff] at hu
    obtain ⟨it, -, rfl⟩ := hu
    simp [Driver.ofItem]

variable [DecidableEq κ] {lib : Vscphelper} {k : Nat} {u u' : Driver κ} {d d' : Discovery.Daemon Nat}

theorem todo_driverSteps {a : DriverAct κ} (h : DriverSteps lib text k u d a u' d') :
    u'.device.todo = u.device.todo ∨ ∃ b, u.device.todo = b :: u'.device.todo := by
  cases h with
  | act s hr hp hs =>
    obtain ⟨b, todo, htodo, -, rfl⟩ := threadStep_cases hs
    exact .inr ⟨b, htodo⟩
  | event i ev s hs => exact .inl (device_event hs).2
  | callback i s hs => exact .inl (device_callback hs).2
  | _ => exact .inl rfl

theorem live_step {s s' : State κ} {a : Act κ} (hl : Live text s) (h : step lib text s a = some s') : Live text s' := by
  refine ⟨inv_step hl.inv h, ?_, fun k v hv => ?_⟩
  · cases a with
    | main m => exact (mainStep_cases (step_main h)).1 ▸ hl.up
    | driver j a =>
      obtain ⟨u, u', d', -, hst, rfl⟩ := step_driver h
      rcases thread_of_registry hst with rfl | ⟨b, hb, hd⟩
      · exact hl.up
      · have hup := hl.up
        cases Discovery.step_cases hd with
        | start => cases hb
        | _ => exact hup
  · obtain ⟨u, hu, hat⟩ := step_to h hv
    have htests := hl.tests k u hu
    cases hat with
    | main hm =>
      cases hm with
      | starts o =>
        cases hen : u.device.device.item.bEnable <;> cases o <;>
          simp [Driver.startDriver, hen, htests, start, not_mem_deviceThread]
      | _ => exact htests
    | own hst =>
      rcases todo_driverSteps hst with htodo | ⟨b, htodo⟩
      · exact htodo ▸ htests
      · intro hmem
        exact htests (htodo ▸ List.mem_cons_of_mem b hmem)
    | other => exact htests

omit [DecidableEq κ] in
/-- A pass that finds data available calls what any pass calls. -/
theorem entriesOf_le (dataAvailable : Bool) (l : Loop) {p : Proc} (h : p ∈ entriesOf dataAvailable l) :
    p ∈ entriesOf true l := by
  cases l with
  | nonBlocking => cases dataAvailable <;> simp_all [entriesOf]
  | _ => exact h

/-- Where a thread's next call would be at address 0, it can be made. -/
theorem atNull_of_called {a : DriverAct κ} {next : Driver κ × Discovery.Daemon Nat} (hr : u.running = true)
    (ha : a.ofThread = true) (h : driverMove lib text k u d a = some next) (hnull : 0 ∈ u.called a) :
    u.atNull none = true := by
  cases a with
  | act =>
    simp only [driverMove, hr] at h
    split at h
    · next hp => simp [Driver.atNull, hr, hp, hnull]
    · cases h
  | read t =>
    simp only [driverMove] at h
    split at h
    · next hp =>
      simp only [Driver.called, List.mem_map] at hnull
      obtain ⟨p, hp', haddr⟩ := hnull
      have hmem : 0 ∈ (entriesOf true u.loop).map u.device.device.item.proc :=
        List.mem_map.mpr ⟨p, entriesOf_le _ _ hp', haddr⟩
      simpa [Driver.atNull, hr, hp] using hmem
    · cases h
  | callback => cases ha
  | _ => simp [Driver.called] at hnull

/-- A thread that has a move can take a step: the move, or the call at address 0 it begins with. -/
theorem driver_enabled {s : State κ} {a : DriverAct κ} {next : Driver κ × Discovery.Daemon Nat}
    (hgo : s.over = false) (hu : s.drivers[k]? = some u) (hr : u.running = true) (ha : a.ofThread = true)
    (h : driverMove lib text k u s.registry a = some next) :
    ∃ b s', b.ofThread = true ∧ step lib text s (.driver k b) = some s' := by
  by_cases hnull : 0 ∈ u.called a
  · have hat := atNull_of_called hr ha h hnull
    exact ⟨.fault none, _, rfl, by simp [step, hgo, hu, driverStep, driverMove, Driver.called, hat]; rfl⟩
  · exact ⟨a, _, ha, by simp [step, hgo, hu, driverStep, hnull, h]; rfl⟩

/-- The thread waits for a mutex another one has. -/
def Blocked (s : State κ) (k : Nat) (u : Driver κ) : Prop :=
  u.phase = .between ∧ u.device.todo.head? = some .lock ∧ u.device.mutex ≠ none ∨
    (∃ g, s.registry.pc k = .waiting g) ∧ s.registry.owner ≠ none

/-- In `discovery()` a thread can go on, once it has the mutex or may take it. -/
theorem discovery_enabled (hup : d.up = true) (hfree : ∀ g, d.pc k = .waiting g → d.owner = none) (g : String) :
    ∃ d', Discovery.step d (nextAct d k g true "") = some d' := by
  unfold nextAct
  cases hpc : d.pc k with
  | idle =>
    cases hdb : d.dbOpen <;> exact ⟨_, by simp [Discovery.step, hup, hpc, hdb]; rfl⟩
  | waiting g' => exact ⟨_, by simp [Discovery.step, hpc, hfree g' hpc]; rfl⟩
  | inserting g' =>
    cases hdb : d.file.bind (Db.insert true (Discovery.discoveredRow g' "")) <;>
      exact ⟨_, by simp [Discovery.step, hpc, hdb]; rfl⟩
  | _ => exact ⟨_, by simp [Discovery.step, hpc]; rfl⟩

theorem discover_enabled {s : State κ} {ev : VscpEvent} (hl : Live text s) (hgo : s.over = false)
    (hu : s.drivers[k]? = some u) (hp : u.phase = .announcing ev)
    (hfree : ∀ g, s.registry.pc k = .waiting g → s.registry.owner = none) :
    ∃ a s', a.ofThread = true ∧ step lib text s (.driver k a) = some s' := by
  obtain ⟨d', hd⟩ := discovery_enabled hl.up hfree (text ev.guid)
  have hr : u.running = true := ((hl.inv.driver k u hu).inPass (by simp [hp])).1
  exact driver_enabled (a := .discover true "") hgo hu hr rfl
    (by simp only [driverMove, hp, hd, Option.map_some]; rfl)

omit [DecidableEq κ] in
/-- Between passes a thread can take its next action, unless that waits for the device's mutex. -/
theorem act_enabled {s : MqttVscpd.State κ} {a : MqttVscpd.Act} {todo : List MqttVscpd.Act} (ht : s.todo = a :: todo)
    (hquit : ∀ b, a = .testQuit b → s.device.item.bQuit = b) (hfree : a = .lock → s.mutex = none) :
    ∃ s', threadStep s = some s' := by
  unfold threadStep
  rw [ht]
  cases a with
  | testQuit b => exact ⟨_, by simp only [hquit b rfl, if_true]; rfl⟩
  | lock => exact ⟨_, by simp only [hfree rfl, if_true]; rfl⟩
  | _ => exact ⟨_, rfl⟩

/-- A running thread that has been asked to quit can go on, unless it waits for a mutex. -/
theorem thread_enabled {s : State κ} (hl : Live text s) (hgo : s.over = false) (hu : s.drivers[k]? = some u)
    (hr : u.running = true) (hq : u.device.device.item.bQuit = true) (hb : ¬ Blocked s k u) :
    ∃ a s', a.ofThread = true ∧ step lib text s (.driver k a) = some s' := by
  simp only [Blocked, not_or, not_and, not_not, forall_exists_index] at hb
  obtain ⟨hmutex, howner⟩ := hb
  cases hp : u.phase with
  | reading =>
    exact driver_enabled (a := .read ⟨false, none, none, false, 0⟩) hgo hu hr rfl (by simp only [driverMove, hp]; rfl)
  | sending ev => exact driver_enabled (a := .send true) hgo hu hr rfl (by simp only [driverMove, hp]; rfl)
  | announcing ev => exact discover_enabled hl hgo hu hp howner
  | between =>
    cases htodo : u.device.todo with
    | nil => exact driver_enabled (a := .returns) hgo hu hr rfl (by simp only [driverMove, hr, hp, htodo]; rfl)
    | cons b todo =>
      have hquit : ∀ c, b = .testQuit c → u.device.device.item.bQuit = c := by
        intro c hc
        cases c with
        | true => exact hq
        | false => exact absurd (by simp [htodo, hc]) (hl.tests k u hu)
      obtain ⟨s', hs⟩ := act_enabled htodo hquit fun hlock => hmutex hp (by simp [htodo, hlock])
      exact driver_enabled (a := .act) hgo hu hr rfl (by simp only [driverMove, hr, hp, hs, Option.map_some]; rfl)

/-! ## A callback gives the mutex back -/

/-- The steps a callback inside the mutex has left. -/
def left : CallbackPc → Nat
  | .testQuit _ => 6
  | .testHandle _ => 5
  | .testLevel1 _ => 4
  | .convert _ | .testLevel2 _ => 3
  | .selectSend => 2
  | .inCall .. | .invalidLevel => 1
  | _ => 0

/-- Callback `i` has the mutex, and is there. -/
def Holding (i : κ) (pc : CallbackPc) (s : MqttVscpd.State κ) : Prop := s.mutex = some (some i) ∧ s.cb i = pc

variable {i : κ} {pc : CallbackPc}

omit [DecidableEq κ] in
theorem Holding.inside {s : MqttVscpd.State κ} (h : Holding i pc s) (hi : MqttVscpd.Inv s) : pc.inside = true := by
  obtain ⟨g, hi⟩ := hi
  have hin : holder g s.cb (some i) = true := (hi.lock (some i)).mpr h.1
  exact h.2 ▸ hin

omit [DecidableEq κ] in
/-- Nobody else is inside. -/
theorem Holding.unique {s : MqttVscpd.State κ} (h : Holding i pc s) (hi : MqttVscpd.Inv s) {j : κ}
    (hj : (s.cb j).inside = true) : j = i := by
  obtain ⟨g, hi⟩ := hi
  have ho : s.mutex = some (some j) := (hi.lock (some j)).mp hj
  rw [h.1] at ho
  exact (Option.some.inj (Option.some.inj ho)).symm

omit [DecidableEq κ] in
theorem Holding.thread {s s' : MqttVscpd.State κ} (h : Holding i pc s) (hi : MqttVscpd.Inv s)
    (hs : threadStep s = some s') : Holding i pc s' := by
  obtain ⟨a, todo, htodo, hlock, rfl⟩ := threadStep_cases hs
  refine ⟨?_, h.2⟩
  show a.owner s.mutex = some (some i)
  obtain ⟨g, hi⟩ := hi
  obtain ⟨g', hn, -⟩ := follows_cons_iff.mp (htodo ▸ hi.follows)
  cases a with
  | lock =>
    have hfree := hlock rfl
    rw [h.1] at hfree
    cases hfree
  | unlock =>
    -- The thread unlocks what it has locked itself.
    have hin : holder g s.cb none = true := by cases g <;> simp_all [Stage.next, holder, Stage.inside]
    have ho := (hi.lock none).mp hin
    rw [h.1] at ho
    cases ho
  | _ => exact h.1

theorem Holding.event {s s' : MqttVscpd.State κ} {j : κ} {ev : VscpEvent} (h : Holding i pc s) (hi : MqttVscpd.Inv s)
    (hs : MqttVscpd.step lib s (.event j ev) = some s') : Holding i pc s' := by
  simp only [MqttVscpd.step] at hs
  split at hs <;> cases hs
  next hc =>
  have hij : i ≠ j := by
    intro he
    have hin := h.inside hi
    rw [← h.2, he, hc.2] at hin
    cases hin
  exact ⟨h.1, by simpa [Function.update_of_ne hij] using h.2⟩

theorem Holding.other {s s' : MqttVscpd.State κ} {j : κ} (h : Holding i pc s) (hi : MqttVscpd.Inv s) (hij : i ≠ j)
    (hs : MqttVscpd.step lib s (.callback j) = some s') : Holding i pc s' := by
  obtain ⟨pc', owner, hm, rfl⟩ := step_callback hs
  cases hm with
  | locks ev hpc hfree =>
    rw [h.1] at hfree
    cases hfree
  | unlocks hpc => exact absurd (h.unique hi (by simp [hpc, CallbackPc.inside])).symm hij
  | inside => exact ⟨h.1, by simpa [Function.update_of_ne hij] using h.2⟩

/-- The callback gives the mutex back or has fewer steps left. -/
theorem Holding.own {s s' : MqttVscpd.State κ} (h : Holding i pc s) (hi : MqttVscpd.Inv s)
    (hs : MqttVscpd.step lib s (.callback i) = some s') :
    s'.mutex = none ∧ s'.cb i = .idle ∨ ∃ pc', left pc' < left pc ∧ Holding i pc' s' := by
  have hin := h.inside hi
  obtain ⟨pc', owner, hm, rfl⟩ := step_callback hs
  obtain ⟨hmutex, hpc⟩ := h
  cases hm with
  | locks ev hpc' =>
    rw [← hpc, hpc'] at hin
    cases hin
  | unlocks => exact .inl ⟨rfl, Function.update_self ..⟩
  | inside hin' hunlock =>
    refine .inr ⟨_, ?_, hmutex, Function.update_self ..⟩
    rw [hpc] at hunlock ⊢
    cases pc with
    | idle | entered => cases hin
    | unlocking => exact absurd rfl hunlock
    | _ =>
      simp only [receiveEventCallback]
      repeat' split
      all_goals simp [left]

theorem Holding.enabled {s : MqttVscpd.State κ} (h : Holding i pc s) (hi : MqttVscpd.Inv s) :
    ∃ s', MqttVscpd.step lib s (.callback i) = some s' := by
  have hin := h.inside hi
  simp only [MqttVscpd.step, h.2]
  cases pc with
  | idle | entered => cases hin
  | _ => exact ⟨_, rfl⟩

/-- In the process, callback `i` of driver `k` has the mutex and is there. -/
def HoldsMutex (text : Guid → String) (k : Nat) (i : κ) (pc : CallbackPc) (s : State κ) : Prop :=
  Live text s ∧ ∃ u, s.drivers[k]? = some u ∧ Holding i pc u.device

/-- The mutex of driver `k` is free, and callback `i` does not run. -/
def Returned (k : Nat) (i : κ) (s : State κ) : Prop :=
  ∃ u, s.drivers[k]? = some u ∧ u.device.mutex = none ∧ u.device.cb i = .idle

omit [DecidableEq κ] in
/-- Of all that `main` does to an item, only the start of its thread can be seen by its callbacks. -/
theorem mainDoes_callbacks {s : State κ} {m : MainAct} (h : MainDoes s k u m u') :
    u'.device.mutex = u.device.mutex ∧ u'.device.cb = u.device.cb ∨
      u'.device.mutex = none ∧ ∀ i, u'.device.cb i = .idle := by
  cases h with
  | keeps | stops | joins => exact .inl ⟨rfl, rfl⟩
  | starts o =>
    cases hen : u.device.device.item.bEnable with
    | false => exact .inl (by simp [Driver.startDriver, hen])
    | true =>
      cases o with
      | none => exact .inl (by simp [Driver.startDriver, hen])
      | some o => exact .inr (by simp [Driver.startDriver, hen, start])

/-- What callback `i` of driver `k` does, once it runs. -/
def OfCallback (k : Nat) (i : κ) (a : Act κ) : Prop := a = .driver k (.callback i) ∨ a = .driver k (.fault (some i))

theorem holdsMutex_step {s s' : State κ} {a : Act κ} (h : HoldsMutex text k i pc s) (ha : ¬ OfCallback k i a)
    (hs : step lib text s a = some s') : HoldsMutex text k i pc s' ∨ Returned k i s' := by
  obtain ⟨hl, u, hu, hh⟩ := h
  have hl' := live_step hl hs
  have hdev : MqttVscpd.Inv u.device := (hl.inv.driver k u hu).device
  obtain ⟨v, hv, hat⟩ := step_from hs hu
  cases hat with
  | main hm =>
    rcases mainDoes_callbacks hm with ⟨hmutex, hcb⟩ | ⟨hmutex, hcb⟩
    · exact .inl ⟨hl', v, hv, hmutex.trans hh.1, (congrFun hcb i).trans hh.2⟩
    · exact .inr ⟨v, hv, hmutex, hcb i⟩
  | own hst =>
    refine .inl ⟨hl', v, hv, ?_⟩
    cases hst with
    | act s₁ hr hp hs₁ => exact hh.thread hdev hs₁
    | event c ev s₁ hs₁ => exact hh.event hdev hs₁
    | callback c s₁ hs₁ => exact hh.other hdev (fun he => ha (by rw [he]; exact .inl rfl)) hs₁
    | _ => exact hh
  | other => exact .inl ⟨hl', u, hv, hh⟩

variable {e : Execution (step (κ := κ) lib text)} {n : Nat}

/-- A step that does not end the run does not kill. -/
theorem kills_of_over {s s' : State κ} {a : DriverAct κ} (h : step lib text s (.driver k a) = some s')
    (hgo : s'.over = false) : a.kills = false := by
  obtain ⟨u, u', d', -, -, rfl⟩ := step_driver h
  simp only [State.over, Bool.or_eq_false_iff] at hgo
  exact hgo.1

theorem holdsMutex_own {s s' : State κ} {a : Act κ} (h : HoldsMutex text k i pc s) (ha : OfCallback k i a)
    (hs : step lib text s a = some s') (hgo : s'.over = false) :
    Returned k i s' ∨ ∃ pc', left pc' < left pc ∧ HoldsMutex text k i pc' s' := by
  obtain ⟨hl, u, hu, hh⟩ := h
  have hl' := live_step hl hs
  obtain rfl | rfl := ha
  · obtain ⟨v, hv, hat⟩ := step_from hs hu
    cases hat with
    | other hne => exact absurd rfl hne
    | own hst =>
      cases hst with
      | callback _ s₁ hs₁ =>
        rcases hh.own (hl.inv.driver k u hu).device hs₁ with ⟨hnone, hidle⟩ | ⟨pc', hlt, hh'⟩
        · exact .inl ⟨_, hv, hnone, hidle⟩
        · exact .inr ⟨pc', hlt, hl', _, hv, hh'⟩
  · cases kills_of_over hs hgo

/-- A callback that has a move can take a step. -/
theorem callback_enabled {s : State κ} (hgo : s.over = false) (hu : s.drivers[k]? = some u)
    {s₁ : MqttVscpd.State κ} (hs : MqttVscpd.step lib u.device (.callback i) = some s₁) :
    ∃ a s', OfCallback k i a ∧ step lib text s a = some s' := by
  by_cases hnull : 0 ∈ u.called (.callback i)
  · have hat : u.atNull (some i) = true := decide_eq_true hnull
    exact ⟨_, _, .inr rfl, by simp [step, hgo, hu, driverStep, driverMove, Driver.called, hat]; rfl⟩
  · exact ⟨_, _, .inl rfl, by simp [step, hgo, hu, driverStep, hnull, driverMove, hs]; rfl⟩

/-- The callback that has a device's mutex gives it back, and returns. -/
theorem callback_returned (hgo : ∀ m, (e.state m).over = false) (hf : e.Fair (OfCallback k i))
    (h : HoldsMutex text k i pc (e.state n)) : ∃ m, n ≤ m ∧ Returned k i (e.state m) := by
  refine hf.descends (P := HoldsMutex text k i) left (fun pc m _ hs => ?_)
    (fun pc m a _ hs ha ht => holdsMutex_own hs ha ht.2 (hgo (m + 1)))
    (fun pc m a _ hs ha ht => holdsMutex_step hs ha ht.2) h
  obtain ⟨hl, u, hu, hh⟩ := hs
  obtain ⟨s', hs'⟩ : ∃ s', MqttVscpd.step lib u.device (.callback i) = some s' :=
    hh.enabled (hl.inv.driver k u hu).device
  exact callback_enabled (hgo m) hu hs'

/-! ## A `discovery()` call gives the mutex back -/

/-- The steps a call of `discovery()` has left, at most. -/
def callLeft : Discovery.Pc → Nat
  | .idle => 7
  | .waiting _ => 6
  | .looking _ => 5
  | .inserting _ => 4
  | .publishing _ _ => 3
  | .recording _ => 2
  | .unlocking => 1

theorem callLeft_nextAct {g : String} {ok : Bool} {date : String}
    (h : Discovery.step d (nextAct d k g ok date) = some d') :
    d'.pc k = .idle ∨ callLeft (d'.pc k) < callLeft (d.pc k) := by
  unfold nextAct at h
  cases hpc : d.pc k <;> simp only [hpc] at h <;> cases Discovery.step_cases h <;>
    simp_all [Discovery.Daemon.goto, callLeft]

/-- A thread inside leaves the mutex or keeps it. -/
theorem owner_nextAct {g : String} {ok : Bool} {date : String} (hin : (d.pc k).inside = true)
    (h : Discovery.step d (nextAct d k g ok date) = some d') :
    d'.owner = none ∨ d'.owner = d.owner ∧ callLeft (d'.pc k) < callLeft (d.pc k) := by
  unfold nextAct at h
  cases hpc : d.pc k <;> rw [hpc] at hin <;> simp only [hpc] at h <;> cases Discovery.step_cases h <;>
    simp_all [Discovery.Daemon.goto, callLeft, Discovery.Pc.inside]

theorem owner_of_ne {b : Discovery.Act Nat} {i j : Nat} (hi : Discovery.Inv d) (ho : d.owner = some j)
    (hb : b.thread = some i) (hij : i ≠ j) (h : Discovery.step d b = some d') : d'.owner = some j := by
  cases Discovery.step_cases h with
  | start => cases hb
  | acquire _ _ _ hfree => simp [ho] at hfree
  | release t hpc =>
    obtain rfl : t = i := Option.some.inj hb
    have hown := (hi.lock t).mp (by simp [hpc, Discovery.Pc.inside])
    rw [ho] at hown
    exact absurd (Option.some.inj hown).symm hij
  | _ => exact ho

/-- The thread of driver `j` is in `discovery()` with the mutex, and is there. -/
def HoldsRegistry (text : Guid → String) (j : Nat) (p : Discovery.Pc) (s : State κ) : Prop :=
  Live text s ∧ s.registry.owner = some j ∧ s.registry.pc j = p

/-- What a step of the thread of driver `j` is. -/
def OfThread (j : Nat) (a : Act κ) : Prop := ∃ b, a = .driver j b ∧ b.ofThread = true

omit [DecidableEq κ] in
theorem HoldsRegistry.announcing {j : Nat} {p : Discovery.Pc} {s : State κ} (h : HoldsRegistry text j p s) :
    p.inside = true ∧ ∃ u ev, s.drivers[j]? = some u ∧ u.phase = .announcing ev := by
  obtain ⟨hl, ho, rfl⟩ := h
  have hin : (s.registry.pc j).inside = true := (hl.inv.called.inv.lock j).mpr ho
  refine ⟨hin, ?_⟩
  cases hu : s.drivers[j]? with
  | none =>
    rw [hl.inv.others j hu] at hin
    cases hin
  | some u =>
    have hplace := (hl.inv.driver j u hu).place
    cases hp : u.phase with
    | announcing ev => exact ⟨u, ev, rfl, hp⟩
    | _ =>
      have hidle : s.registry.pc j = .idle := by simpa [hp, Phase.Place] using hplace
      rw [hidle] at hin
      cases hin

theorem holdsRegistry_own {j : Nat} {p : Discovery.Pc} {s s' : State κ} {a : Act κ} (h : HoldsRegistry text j p s)
    (ha : OfThread j a) (hs : step lib text s a = some s') (hgo : s'.over = false) :
    s'.registry.owner = none ∨ ∃ p', callLeft p' < callLeft p ∧ HoldsRegistry text j p' s' := by
  obtain ⟨hin, u, ev, hu, hp⟩ := h.announcing
  obtain ⟨hl, ho, rfl⟩ := h
  have hl' := live_step hl hs
  obtain ⟨b, rfl, hb⟩ := ha
  have hkills := kills_of_over hs hgo
  obtain ⟨w, w', d', hw, hst, rfl⟩ := step_driver hs
  obtain rfl : u = w := Option.some.inj (hu.symm.trans hw)
  have hnext : ∀ ok date e, Discovery.step s.registry (nextAct s.registry j (text e) ok date) = some d' →
      d'.owner = none ∨ ∃ p', callLeft p' < callLeft (s.registry.pc j) ∧
        HoldsRegistry text j p' { s with drivers := s.drivers.set j w', registry := d', killed := b.kills } := by
    intro ok date e hd
    rcases owner_nextAct hin hd with hnone | ⟨hown, hlt⟩
    · exact .inl hnone
    · exact .inr ⟨_, hlt, hl', hown.trans ho, rfl⟩
  cases hst with
  | discovers ok date e _ _ hd => exact hnext ok date _ hd
  | discovered ok date e _ _ hd => exact hnext ok date _ hd
  | event | callback => cases hb
  | faults => cases hkills
  | _ => simp_all

theorem registry_of_callback {a : DriverAct κ} (h : DriverSteps lib text k u d a u' d') (ha : ¬ a.ofThread = true) :
    d' = d := by
  cases h with
  | event | callback | faults => rfl
  | _ => exact absurd rfl ha

theorem holdsRegistry_step {j : Nat} {p : Discovery.Pc} {s s' : State κ} {a : Act κ} (h : HoldsRegistry text j p s)
    (ha : ¬ OfThread j a) (hs : step lib text s a = some s') : HoldsRegistry text j p s' := by
  obtain ⟨hl, ho, rfl⟩ := h
  have hl' := live_step hl hs
  cases a with
  | main m =>
    have hreg := (mainStep_cases (step_main hs)).1
    exact ⟨hl', by rw [hreg]; exact ho, by rw [hreg]⟩
  | driver i b =>
    obtain ⟨w, w', d', hw, hst, rfl⟩ := step_driver hs
    by_cases hij : i = j
    · subst hij
      obtain rfl := registry_of_callback hst fun hb => ha ⟨b, rfl, hb⟩
      exact ⟨hl', ho, rfl⟩
    · rcases thread_of_registry hst with rfl | ⟨c, hc, hd⟩
      · exact ⟨hl', ho, rfl⟩
      · exact ⟨hl', owner_of_ne hl.inv.called.inv ho hc hij hd, Discovery.pc_of_ne hc (Ne.symm hij) hd⟩

/-- The thread that has `m_mutex_discovery` gives it back. -/
theorem registry_freed {j : Nat} {p : Discovery.Pc} (hgo : ∀ m, (e.state m).over = false) (hf : e.Fair (OfThread j))
    (h : HoldsRegistry text j p (e.state n)) : ∃ m, n ≤ m ∧ (e.state m).registry.owner = none := by
  refine hf.descends (P := HoldsRegistry text j) (Q := fun s => s.registry.owner = none) callLeft
    (fun p m _ hs => ?_) (fun p m a _ hs ha ht => holdsRegistry_own hs ha ht.2 (hgo (m + 1)))
    (fun p m a _ hs ha ht => .inl (holdsRegistry_step hs ha ht.2)) h
  obtain ⟨hin, u, ev, hu, hphase⟩ := hs.announcing
  obtain ⟨hl, -, rfl⟩ := hs
  have hfree : ∀ g, (e.state m).registry.pc j = .waiting g → (e.state m).registry.owner = none := by
    intro g hg
    simp [hg, Discovery.Pc.inside] at hin
  obtain ⟨b, s', hb, hs'⟩ := discover_enabled hl (hgo m) hu hphase hfree
  exact ⟨_, s', ⟨b, rfl, hb⟩, hs'⟩

/-! ## A thread asked to quit returns -/

/-- Where a device thread is. -/
structure Spot where
  phase : Phase
  todo : List MqttVscpd.Act
  pc : Discovery.Pc

/-- The steps a thread that has been asked to quit has left, at most. -/
def Spot.work (x : Spot) : Nat :=
  1 + x.todo.length +
    match x.phase with
    | .between => 0
    | .sending _ => 1
    | .announcing _ => 1 + callLeft x.pc
    | .reading => 9

/-- The thread of driver `k` runs, has been asked to quit, and is there. -/
def At (text : Guid → String) (k : Nat) (x : Spot) (s : State κ) : Prop :=
  Live text s ∧ ∃ u, s.drivers[k]? = some u ∧ u.running = true ∧ u.device.device.item.bQuit = true ∧
    x = ⟨u.phase, u.device.todo, s.registry.pc k⟩

/-- The thread of driver `k` does not run. -/
def Ended (k : Nat) (s : State κ) : Prop := ∃ u, s.drivers[k]? = some u ∧ u.running = false

variable {x : Spot}

theorem callLeft_pos (p : Discovery.Pc) : 0 < callLeft p := by cases p <;> simp [callLeft]

/-- Nobody else moves the thread. -/
theorem at_other {s s' : State κ} {a : Act κ} (h : At text k x s) (ha : ¬ OfThread k a)
    (hs : step lib text s a = some s') : At text k x s' := by
  obtain ⟨hl, u, hu, hr, hq, rfl⟩ := h
  have hl' := live_step hl hs
  obtain ⟨v, hv, hat⟩ := step_from hs hu
  cases hat with
  | main hm hreg =>
    cases hm with
    | keeps => exact ⟨hl', u, hv, hr, hq, by rw [hreg]⟩
    | stops =>
      have hquit : u.stop.device.device.item.bQuit = true := by
        cases hen : u.device.device.item.bEnable <;> simp [Driver.stop, State.modify, requestQuit, hen, hq]
      exact ⟨hl', u.stop, hv, hr, hquit, by rw [hreg]; rfl⟩
    | joins _ hend => simp [hr] at hend
    | starts o hpc =>
      -- A thread is not started twice.
      have hw := hl.inv.shutdown.worker k u.worker (by simp [hu])
      have hlt : u.joined < u.created := hw.running hr
      have hphase := hw.phase
      simp only [State.shutdown, hpc] at hphase
      have hnone : u.created = 0 := hphase (Nat.le_refl k)
      omega
  | @own b _ d' hst hd =>
    have hb : ¬ b.ofThread = true := fun hb => ha ⟨b, rfl, hb⟩
    have hreg : s'.registry = s.registry := hd.trans (registry_of_callback hst hb)
    cases hst with
    | event c ev s₁ hs₁ =>
      obtain ⟨hdev, htodo⟩ := device_event hs₁
      exact ⟨hl', _, hv, hr, by simpa [hdev] using hq, by simp [htodo, hreg]⟩
    | callback c s₁ hs₁ =>
      obtain ⟨hdev, htodo⟩ := device_callback hs₁
      exact ⟨hl', _, hv, hr, by simpa [hdev] using hq, by simp [htodo, hreg]⟩
    | faults => exact ⟨hl', u, hv, hr, hq, by rw [hreg]⟩
    | _ => exact absurd rfl hb
  | other hjk hst hd =>
    have hpc : s'.registry.pc k = s.registry.pc k := by
      rw [hd]
      rcases thread_of_registry hst with rfl | ⟨c, hc, hd⟩
      · rfl
      · exact Discovery.pc_of_ne hc (Ne.symm hjk) hd
    exact ⟨hl', u, hv, hr, hq, by simp [hpc]⟩

/-- Each step of the thread brings it nearer to its end. -/
theorem at_own {s s' : State κ} {a : Act κ} (h : At text k x s) (ha : OfThread k a)
    (hs : step lib text s a = some s') (hgo : s'.over = false) : Ended k s' ∨ ∃ y, y.work < x.work ∧ At text k y s' := by
  obtain ⟨hl, u, hu, hr, hq, rfl⟩ := h
  have hl' := live_step hl hs
  have hplace := (hl.inv.driver k u hu).place
  obtain ⟨b, rfl, hb⟩ := ha
  have hkills := kills_of_over hs hgo
  obtain ⟨w, w', d', hw, hst, rfl⟩ := step_driver hs
  obtain rfl : u = w := Option.some.inj (hu.symm.trans hw)
  have hget : (s.drivers.set k w')[k]? = some w' := by simp [(List.getElem?_eq_some_iff.mp hu).1]
  have hnear : w'.running = true → w'.device.device.item.bQuit = true →
      Spot.work ⟨w'.phase, w'.device.todo, d'.pc k⟩ < Spot.work ⟨u.phase, u.device.todo, s.registry.pc k⟩ →
      Ended k ({ s with drivers := s.drivers.set k w', registry := d', killed := b.kills } : State κ) ∨ ∃ y : Spot,
        y.work < Spot.work ⟨u.phase, u.device.todo, s.registry.pc k⟩ ∧
          At text k y { s with drivers := s.drivers.set k w', registry := d', killed := b.kills } :=
    fun hr' hq' hlt => .inr ⟨_, hlt, hl', w', hget, hr', hq', rfl⟩
  cases hst with
  | act s₁ _ hp hs₁ =>
    obtain ⟨c, todo, htodo, -, rfl⟩ := threadStep_cases hs₁
    exact hnear hr (exec_quit hq) (by simp [Spot.work, hp, htodo])
  | enter _ _ _ hclear => simp [hq] at hclear
  | passes t hp => exact hnear hr hq (by simp [Spot.work, hp])
  | reads t ev hp =>
    have hidle : s.registry.pc k = .idle := by simpa [hp, Phase.Place] using hplace
    exact hnear hr hq (by simp [Spot.work, hp, hidle, callLeft])
  | discovers ok date ev _ hp hd hpc =>
    have hlt := (callLeft_nextAct hd).resolve_left hpc
    exact hnear hr hq (by simp only [Spot.work, hp]; omega)
  | discovered ok date ev _ hp hd hpc =>
    have hpos := callLeft_pos (s.registry.pc k)
    exact hnear hr hq (by simp only [Spot.work, hp]; omega)
  | sends ok ev hp => exact hnear hr hq (by simp [Spot.work, hp])
  | returns => exact .inl ⟨_, hget, rfl⟩
  | event | callback => cases hb
  | faults => cases hkills

/-- A step of `main` itself. -/
def OfMain (a : Act κ) : Prop := ∃ m, a = .main m ∧ m ≠ .signal

variable (e) in
/-- The threads of the process are not passed over: `main` and a running callback move if they can
for ever, a device thread if it can again and again. -/
structure Fairly : Prop where
  main : e.Fair OfMain
  threads : ∀ k, e.StrongFair (OfThread k)
  callbacks : ∀ k i, e.Fair (OfCallback k i)

omit [DecidableEq κ] in
/-- A device thread about to lock its mutex does not have it. -/
theorem holder_of_lock {s : MqttVscpd.State κ} (hi : MqttVscpd.Inv s) (hl : s.todo.head? = some .lock)
    (hm : s.mutex ≠ none) : ∃ i, s.mutex = some (some i) := by
  obtain ⟨o, ho⟩ := Option.ne_none_iff_exists'.mp hm
  cases o with
  | some i => exact ⟨i, ho⟩
  | none =>
    obtain ⟨g, hi⟩ := hi
    obtain ⟨todo, htodo⟩ := List.head?_eq_some_iff.mp hl
    obtain ⟨g', hn, -⟩ := follows_cons_iff.mp (htodo ▸ hi.follows)
    have hin : holder g s.cb none = true := (hi.lock none).mpr ho
    cases g <;> simp_all [Stage.next, holder, Stage.inside]

/-- The thread of driver `k` has come nearer to its end, or to it. -/
def Nearer (text : Guid → String) (k : Nat) (x : Spot) (s : State κ) : Prop :=
  Ended k s ∨ ∃ y : Spot, y.work < x.work ∧ At text k y s

/-- A thread that waits for a mutex gets to where it can go on. -/
theorem unblocked (hgo : ∀ m, (e.state m).over = false) (hf : Fairly e) (h : At text k x (e.state n)) :
    ∃ m, n ≤ m ∧ (Nearer text k x (e.state m) ∨ ∃ a s', OfThread k a ∧ step lib text (e.state m) a = some s') := by
  have hstep : ∀ m a, n ≤ m → At text k x (e.state m) → e.Takes m a →
      At text k x (e.state (m + 1)) ∨ Nearer text k x (e.state (m + 1)) := by
    intro m a _ hx ht
    by_cases ha : OfThread k a
    · exact .inr (at_own hx ha ht.2 (hgo (m + 1)))
    · exact .inl (at_other hx ha ht.2)
  -- Where the thread is not blocked it can go on.
  have hmoves : ∀ m, At text k x (e.state m) →
      (∀ u, (e.state m).drivers[k]? = some u → ¬ Blocked (e.state m) k u) →
        ∃ a s', OfThread k a ∧ step lib text (e.state m) a = some s' := by
    intro m hx hb
    obtain ⟨hl, u, hu, hr, hq, -⟩ := hx
    obtain ⟨a, s', ha, hs⟩ : ∃ a s', a.ofThread = true ∧ step lib text (e.state m) (.driver k a) = some s' :=
      thread_enabled hl (hgo m) hu hr hq (hb u hu)
    exact ⟨_, s', ⟨a, rfl, ha⟩, hs⟩
  -- Between passes it is not in `discovery()`, and there it is in a pass.
  have hplace : ∀ m, At text k x (e.state m) → ∀ u, (e.state m).drivers[k]? = some u → u.phase = x.phase ∧
      (x.phase = .between → (e.state m).registry.pc k = .idle) := by
    intro m hx u hu
    obtain ⟨hl, v, hv, -, -, rfl⟩ := hx
    obtain rfl : u = v := Option.some.inj (hu.symm.trans hv)
    refine ⟨rfl, fun hp => ?_⟩
    have hp : u.phase = .between := hp
    simpa [hp, Phase.Place] using (hl.inv.driver k u hu).place
  obtain ⟨hl, u, hu, -, -, -⟩ := id h
  by_cases hb : Blocked (e.state n) k u
  · rcases Execution.keeps_until hstep h with hall | ⟨m, hm, hnear⟩
    · rcases hb with ⟨hp, hlock, hmutex⟩ | ⟨⟨g, hg⟩, howner⟩
      · obtain ⟨i, ho⟩ := holder_of_lock (hl.inv.driver k u hu).device hlock hmutex
        obtain ⟨m, hm, w, hw, hfree, -⟩ := callback_returned hgo (hf.callbacks k i) ⟨hl, u, hu, ho, rfl⟩
        refine ⟨m, hm, .inr (hmoves m (hall m hm) fun v hv hbv => ?_)⟩
        obtain rfl : v = w := Option.some.inj (hv.symm.trans hw)
        rcases hbv with ⟨-, -, hne⟩ | ⟨⟨g, hg⟩, -⟩
        · exact hne hfree
        · have hidle := (hplace m (hall m hm) v hv).2 ((hplace n h u hu).1 ▸ hp)
          simp [hidle] at hg
      · obtain ⟨j, ho⟩ := Option.ne_none_iff_exists'.mp howner
        obtain ⟨m, hm, hfree⟩ := registry_freed hgo (hf.threads j).fair ⟨hl, ho, rfl⟩
        refine ⟨m, hm, .inr (hmoves m (hall m hm) fun v hv hbv => ?_)⟩
        rcases hbv with ⟨hp, -, -⟩ | ⟨-, hne⟩
        · have hidle := (hplace n h u hu).2 ((hplace m (hall m hm) v hv).1 ▸ hp)
          simp [hidle] at hg
        · exact hne hfree
    · exact ⟨m, hm, .inl hnear⟩
  · refine ⟨n, Nat.le_refl n, .inr (hmoves n h fun v hv hbv => hb ?_)⟩
    obtain rfl : u = v := Option.some.inj (hu.symm.trans hv)
    exact hbv

/-- A device thread that has been asked to quit returns. -/
theorem thread_ends (hgo : ∀ m, (e.state m).over = false) (hf : Fairly e) (h : At text k x (e.state n)) :
    ∃ m, n ≤ m ∧ Ended k (e.state m) := by
  refine Execution.descends (P := At text k) Spot.work (fun x m _ hx => ?_) h
  exact (hf.threads k).leads (P := At text k x) (Q := Nearer text k x) (fun _ _ hs => unblocked hgo hf hs)
    (fun p _ _ hs ha ht => at_own hs ha ht.2 (hgo (p + 1))) (fun _ _ _ hs ha ht => .inl (at_other hs ha ht.2)) hx

/-! ## The process ends -/

omit [DecidableEq κ] in
theorem told_le (s : State κ) (a : Act κ) : told s a = [] ∨ ∃ m, told s a = [m] := by
  cases a with
  | main m => exact .inr ⟨_, rfl⟩
  | driver k a =>
    simp only [told]
    cases s.drivers[k]? with
    | none => exact .inl rfl
    | some u =>
      cases a with
      | act =>
        simp only [Option.elim_some, Driver.told]
        split <;> exact .inr ⟨_, rfl⟩
      | event | callback | fault => exact .inl rfl
      | _ => exact .inr ⟨_, rfl⟩

/-- The execution of the shutdown in one of a process. -/
def shutdownOf (e : Execution (step (κ := κ) lib text)) (hi : ∀ n, Inv text (e.state n)) : Execution Shutdown.step :=
  e.map State.shutdown (fun s a => (told s a).head?) fun n a hs => by
    obtain ⟨t, ht, -, rfl⟩ := simulates_shutdown (e.state n) a _ _ ⟨hi n, rfl⟩ hs.2
    rcases told_le (e.state n) a with hnone | ⟨m, hm⟩
    · rw [hnone] at ht ⊢
      exact (Option.some.inj ht).symm
    · rw [hm] at ht ⊢
      obtain ⟨t', ht', hend⟩ := run_cons_iff.mp ht
      rw [Option.some.inj hend] at ht'
      exact ht'

/-- Where the run has not ended, a step of `main` is one of the process. -/
theorem step_of_main {s s' : State κ} {m : MainAct} (hgo : s.over = false) (h : mainStep s m = some s') :
    step lib text s (.main m) = some s' := by
  simpa [step, hgo] using h

/-- Where the shutdown's `main` can move, so can the process's. -/
theorem main_enabled {s : State κ} (hgo : s.over = false)
    (h : ∃ m s', Shutdown.Move.isMain m ∧ Shutdown.step s.shutdown m = some s') :
    ∃ a s', OfMain a ∧ step lib text s a = some s' := by
  have hof : ∀ {m s'}, m ≠ .signal → mainStep s m = some s' → ∃ a s', OfMain a ∧ step lib text s a = some s' :=
    fun hm hs => ⟨.main _, _, ⟨_, rfl, hm⟩, step_of_main hgo hs⟩
  obtain ⟨m, t, hm, ht⟩ := h
  cases hpc : s.main with
  | starting i =>
    by_cases hi : i < s.drivers.length
    · exact hof (m := .start none) (by simp) (by simp only [mainStep, hpc, hi, if_true]; rfl)
    · exact hof (m := .start none) (by simp) (by simp only [mainStep, hpc, hi, if_false]; rfl)
  | looping => exact hof (m := .loop) (by simp) (by simp only [mainStep, hpc]; rfl)
  | stopping i =>
    cases hu : s.drivers[i]? with
    | none => exact hof (m := .stop) (by simp) (by simp only [mainStep, hpc, hu]; rfl)
    | some u => exact hof (m := .stop) (by simp) (by simp only [mainStep, hpc, hu]; rfl)
  | joining i =>
    cases m <;> simp only [Shutdown.step, State.shutdown, hpc, reduceCtorEq] at ht
    case join =>
      cases hu : s.drivers[i]? with
      | none => simp [hu] at ht
      | some u =>
        have hr : u.running = false := by
          by_contra hr
          simp [hu, Driver.worker, hr] at ht
        exact hof (m := .join) (by simp) (by simp [mainStep, hpc, hu, hr]; rfl)
    all_goals exact hm.elim
  | cleanedUp =>
    by_cases hc : s.cleanups < 2
    · exact hof (m := .cleanup) (by simp) (by simp only [mainStep, hpc, hc, if_true]; rfl)
    · exact hof (m := .delete) (by simp) (by simp only [mainStep, hpc, hc, if_false]; rfl)
  | deleted =>
    cases m <;> simp [Shutdown.step, State.shutdown, hpc] at ht
    all_goals exact hm.elim

theorem shutdown_fair {hi : ∀ n, Inv text (e.state n)} (hgo : ∀ m, (e.state m).over = false) (hf : Fairly e) :
    (shutdownOf e hi).Fair Shutdown.Move.isMain := by
  intro n hen
  obtain ⟨m, a, hm, ⟨b, rfl, hb⟩, hl⟩ := hf.main n fun m hm => main_enabled (hgo m) (hen m hm)
  refine ⟨m, b.move, hm, ?_, by simp [shutdownOf, Execution.map, hl, told]⟩
  cases b with
  | signal => exact absurd rfl hb
  | _ => trivial

/-- Device threads asked to quit return: what the model of the shutdown takes for granted holds in a
process whose threads are not passed over. Neither the device's mutex nor `discovery()`'s keeps a
thread for ever. -/
theorem threads_return (h₀ : Initial (e.state 0)) (hgo : ∀ m, (e.state m).over = false) (hf : Fairly e) :
    ∃ hi : ∀ n, Inv text (e.state n), Shutdown.ThreadsReturn (shutdownOf e hi) := by
  have hlive : ∀ n, Live text (e.state n) := Execution.inv (fun _ _ _ => live_step) (live_initial h₀)
  refine ⟨fun n => (hlive n).inv, ?_⟩
  intro k n w hw hq
  have hw : (e.state n).shutdown.workers[k]? = some w := hw
  rw [getElem?_workers, Option.map_eq_some_iff] at hw
  obtain ⟨u, hu, rfl⟩ := hw
  have hidle : ∀ m, Ended k (e.state m) → (e.state m).shutdown.idle k := by
    intro m hend
    obtain ⟨v, hv, hr⟩ := hend
    exact ⟨v.worker, by simp [hv], hr⟩
  cases hr : u.running with
  | false => exact ⟨n, Nat.le_refl n, hidle n ⟨u, hu, hr⟩⟩
  | true =>
    obtain ⟨m, hm, hend⟩ := thread_ends hgo hf ⟨hlive n, u, hu, hr, hq, rfl⟩
    exact ⟨m, hm, hidle m hend⟩

/-! ### `main` -/

/-- How `main` counts its cleanups. -/
structure Counted (s : State κ) : Prop where
  le : s.cleanups ≤ 2
  during : s.main.inCleanup → s.cleanups < 2
  before : s.main.beforeCleanup → s.cleanups = 0

omit [DecidableEq κ] in
theorem counted_mainStep {s s' : State κ} {m : MainAct} (hc : Counted s) (h : mainStep s m = some s') : Counted s' := by
  obtain ⟨hle, hdur, hbef⟩ := hc
  cases m <;> simp only [mainStep] at h
  case signal => cases h; exact ⟨hle, hdur, hbef⟩
  case start =>
    split at h
    · next hpc =>
      split at h <;> cases h
      all_goals
        exact ⟨hle, by simp [Shutdown.MainPc.inCleanup], fun _ => hbef (by simp [hpc, Shutdown.MainPc.beforeCleanup])⟩
    · cases h
  case loop =>
    split at h
    · next hpc =>
      cases h
      have hzero : s.cleanups = 0 := hbef (by simp [hpc, Shutdown.MainPc.beforeCleanup])
      exact ⟨hle, fun _ => by simp [hzero], fun _ => hzero⟩
    · cases h
  case stop =>
    split at h
    · next i hpc =>
      have hlt : s.cleanups < 2 := hdur (by simp [hpc, Shutdown.MainPc.inCleanup])
      split at h <;> cases h
      · refine ⟨hle, fun _ => hlt, ?_⟩
        simp only
        split <;> simp [Shutdown.MainPc.beforeCleanup]
      · exact ⟨hlt, by simp [Shutdown.MainPc.inCleanup], by simp [Shutdown.MainPc.beforeCleanup]⟩
    · cases h
  case join =>
    split at h
    · next i hpc =>
      have hlt : s.cleanups < 2 := hdur (by simp [hpc, Shutdown.MainPc.inCleanup])
      split at h
      · split at h <;> cases h
        exact ⟨hle, fun _ => hlt, by simp [Shutdown.MainPc.beforeCleanup]⟩
      · cases h
    · cases h
  case cleanup =>
    split at h
    · split at h <;> cases h
      next hlt => exact ⟨hle, fun _ => hlt, by simp [Shutdown.MainPc.beforeCleanup]⟩
    · cases h
  case delete =>
    split at h
    · split at h <;> cases h
      exact ⟨hle, by simp [Shutdown.MainPc.inCleanup], by simp [Shutdown.MainPc.beforeCleanup]⟩
    · cases h

theorem counted_step {s s' : State κ} {a : Act κ} (hc : Counted s) (h : step lib text s a = some s') : Counted s' := by
  cases a with
  | main m => exact counted_mainStep hc (step_main h)
  | driver k a =>
    obtain ⟨u, u', d', -, -, rfl⟩ := step_driver h
    exact ⟨hc.le, hc.during, hc.before⟩

omit [DecidableEq κ] in
theorem counted_initial {s : State κ} (h : Initial s) : Counted s := by
  obtain ⟨items, d, cfg, o, -, -, -, rfl⟩ := h
  exact ⟨Nat.zero_le 2, fun hin => hin.elim, fun _ => rfl⟩

theorem quit_step {s s' : State κ} {a : Act κ} (hq : s.bQuit = true) (h : step lib text s a = some s') :
    s'.bQuit = true := by
  cases a with
  | main m =>
    have h := step_main h
    cases m <;> simp only [mainStep] at h
    case signal => cases h; rfl
    all_goals repeat' split at h
    all_goals first | (cases h; done) | (cases h; exact hq)
  | driver k a =>
    obtain ⟨u, u', d', -, -, rfl⟩ := step_driver h
    exact hq

/-- Other threads' steps, and signals, leave `main` where it is. -/
theorem main_aside {s s' : State κ} {a : Act κ} (ha : ¬ OfMain a) (h : step lib text s a = some s') :
    s'.main = s.main ∧ s'.cleanups = s.cleanups ∧ s'.drivers.length = s.drivers.length := by
  refine ⟨?_, ?_, length_step h⟩
  all_goals cases a with
    | main m =>
      by_cases hm : m = .signal
      · subst hm
        cases step_main h
        rfl
      · exact absurd ⟨m, rfl, hm⟩ ha
    | driver k a =>
      obtain ⟨u, u', d', -, -, rfl⟩ := step_driver h
      rfl

/-- The steps `main` has left to its first cleanup, once it has its signal. -/
def State.ahead (s : State κ) : Nat :=
  match s.main with
  | .starting i => s.drivers.length - i + 2
  | .looping => 1
  | _ => 0

omit [DecidableEq κ] in
theorem ahead_mainStep {s s' : State κ} {m : MainAct} (hq : s.bQuit = true) (hb : s.main.beforeCleanup)
    (hm : m ≠ .signal) (h : mainStep s m = some s') :
    s'.main.inCleanup ∨ s'.main.beforeCleanup ∧ s'.ahead < s.ahead := by
  cases m with
  | signal => exact absurd rfl hm
  | start o =>
    simp only [mainStep] at h
    split at h
    · next i hpc =>
      split at h <;> cases h
      · refine .inr ⟨trivial, ?_⟩
        simp only [State.ahead, hpc, List.length_modify]
        omega
      · exact .inr ⟨trivial, by simp only [State.ahead, hpc]; omega⟩
    · cases h
  | loop =>
    simp only [mainStep] at h
    split at h <;> cases h
    exact .inl (by simp [hq, Shutdown.MainPc.inCleanup])
  | _ =>
    simp only [mainStep] at h
    split at h
    · next hpc =>
      rw [hpc] at hb
      cases hb
    · cases h

/-- With its signal, `main` comes out of the main loop. -/
theorem loop_left (hgo : ∀ m, (e.state m).over = false) (hf : Fairly e) (hq : (e.state n).bQuit = true)
    (hb : (e.state n).main.beforeCleanup) : ∃ m, n ≤ m ∧ (e.state m).main.inCleanup := by
  refine Execution.reaches_of_measure (e := e) (P := fun s => s.bQuit = true ∧ s.main.beforeCleanup)
    (Q := fun s => s.main.inCleanup) State.ahead ?_ ⟨hq, hb⟩
  intro k _ hk
  let P : State κ → Prop := fun s => s.bQuit = true ∧ s.main.beforeCleanup ∧ s.ahead = (e.state k).ahead
  let Q : State κ → Prop := fun s => s.main.inCleanup ∨ (s.bQuit = true ∧ s.main.beforeCleanup) ∧
    s.ahead < (e.state k).ahead
  refine hf.main.leads (P := P) (Q := Q) (fun m _ hs => ?_) (fun m a _ hs ha ht => ?_) (fun m a _ hs ha ht => ?_)
    ⟨hk.1, hk.2, rfl⟩
  · obtain ⟨-, hb, -⟩ := hs
    have hmove : ∀ {a t}, mainStep (e.state m) a = some t → a ≠ .signal →
        ∃ a s', OfMain a ∧ step lib text (e.state m) a = some s' :=
      fun ht hne => ⟨.main _, _, ⟨_, rfl, hne⟩, step_of_main (hgo m) ht⟩
    cases hpc : (e.state m).main with
    | starting i =>
      by_cases hi : i < (e.state m).drivers.length
      · exact hmove (a := .start none) (by simp only [mainStep, hpc, hi, if_true]; rfl) (by simp)
      · exact hmove (a := .start none) (by simp only [mainStep, hpc, hi, if_false]; rfl) (by simp)
    | looping => exact hmove (a := .loop) (by simp only [mainStep, hpc]; rfl) (by simp)
    | _ => simp [hpc, Shutdown.MainPc.beforeCleanup] at hb
  · obtain ⟨m, rfl, hm⟩ := ha
    obtain ⟨hq, hb, hahead⟩ := hs
    rcases ahead_mainStep hq hb hm (step_main ht.2) with hin | ⟨hb', hlt⟩
    · exact .inl hin
    · exact .inr ⟨⟨quit_step hq ht.2, hb'⟩, hahead ▸ hlt⟩
  · obtain ⟨hq, hb, hahead⟩ := hs
    obtain ⟨hpc, -, hlen⟩ := main_aside ha ht.2
    exact .inl ⟨quit_step hq ht.2, hpc ▸ hb, by simpa only [State.ahead, hpc, hlen] using hahead⟩

omit [DecidableEq κ] in
theorem not_deleted {s : State κ} (hgo : s.over = false) : s.main ≠ .deleted := by
  intro hpc
  simp [State.over, hpc] at hgo

/-- After the first cleanup comes another. -/
theorem cleanedUp_left (hgo : ∀ m, (e.state m).over = false) (hf : Fairly e) (hpc : (e.state n).main = .cleanedUp) :
    ∃ m, n ≤ m ∧ (e.state m).main.inCleanup ∧ (e.state m).cleanups = (e.state n).cleanups := by
  let P : State κ → Prop := fun s => s.main = .cleanedUp ∧ s.cleanups = (e.state n).cleanups
  let Q : State κ → Prop := fun s => s.main.inCleanup ∧ s.cleanups = (e.state n).cleanups
  refine hf.main.leads (P := P) (Q := Q) (fun m _ hs => ?_) (fun m a _ hs ha ht => ?_) (fun m a _ hs ha ht => ?_)
    ⟨hpc, rfl⟩
  · have hmove : ∀ {a t}, mainStep (e.state m) a = some t → a ≠ .signal →
        ∃ a s', OfMain a ∧ step lib text (e.state m) a = some s' :=
      fun ht hne => ⟨.main _, _, ⟨_, rfl, hne⟩, step_of_main (hgo m) ht⟩
    by_cases hc : (e.state m).cleanups < 2
    · exact hmove (a := .cleanup) (by simp only [mainStep, hs.1, hc, if_true]; rfl) (by simp)
    · exact hmove (a := .delete) (by simp only [mainStep, hs.1, hc, if_false]; rfl) (by simp)
  · obtain ⟨b, rfl, hb⟩ := ha
    obtain ⟨hpc, hc⟩ := hs
    have hst := step_main ht.2
    have hgo' := not_deleted (hgo (m + 1))
    generalize e.state (m + 1) = s' at hst hgo' ⊢
    cases b <;> simp only [mainStep, hpc, reduceCtorEq] at hst
    case signal => exact absurd rfl hb
    case cleanup =>
      split at hst <;> cases hst
      exact ⟨trivial, hc⟩
    case delete =>
      split at hst <;> cases hst
      exact absurd rfl hgo'
  · obtain ⟨hpc, hc, -⟩ := main_aside ha ht.2
    exact .inl ⟨hpc.trans hs.1, hc.trans hs.2⟩

/-- With its signal, and the run not at its end, `main` comes to have one cleanup more behind it. -/
theorem main_getsOn (h₀ : Initial (e.state 0)) (hgo : ∀ m, (e.state m).over = false) (hf : Fairly e)
    (hq : (e.state n).bQuit = true) : ∃ m, n ≤ m ∧ (e.state n).cleanups < (e.state m).cleanups := by
  obtain ⟨hi, hr⟩ : ∃ hi, Shutdown.ThreadsReturn (shutdownOf e hi) := threads_return h₀ hgo hf
  have hcounted : ∀ n, Counted (e.state n) := Execution.inv (fun _ _ _ => counted_step) (counted_initial h₀)
  have hreturns : ∀ m, (e.state m).main.inCleanup → ∃ p, m ≤ p ∧ (e.state m).cleanups < (e.state p).cleanups :=
    fun m hin => Shutdown.cleanup_returns (e := shutdownOf e hi) (shutdown_initial h₀) (shutdown_fair hgo hf) hr hin
  cases hpc : (e.state n).main with
  | starting | looping =>
    have hb : (e.state n).main.beforeCleanup := by simp [hpc, Shutdown.MainPc.beforeCleanup]
    obtain ⟨m, hm, hin⟩ := loop_left hgo hf hq hb
    obtain ⟨p, hp, hlt⟩ := hreturns m hin
    have hzero := (hcounted n).before hb
    exact ⟨p, by omega, by omega⟩
  | stopping | joining => exact hreturns n (by simp [hpc, Shutdown.MainPc.inCleanup])
  | cleanedUp =>
    obtain ⟨m, hm, hin, hc⟩ := cleanedUp_left hgo hf hpc
    obtain ⟨p, hp, hlt⟩ := hreturns m hin
    exact ⟨p, by omega, hc ▸ hlt⟩
  | deleted => exact absurd hpc (not_deleted (hgo n))

/-- A run comes to its end, or it goes on for ever. -/
theorem over_or_goes_on (e : Execution (step (κ := κ) lib text)) :
    (∃ m, (e.state m).over = true) ∨ ∀ m, (e.state m).over = false := by
  by_cases hover : ∃ m, (e.state m).over = true
  · exact .inl hover
  · exact .inr fun m => Bool.not_eq_true _ ▸ fun h => hover ⟨m, h⟩

/-- With its signal, the process comes to an end: no more than two cleanups are made. -/
theorem over_of_signal (h₀ : Initial (e.state 0)) (hf : Fairly e) (hq : (e.state n).bQuit = true) :
    ∃ m, (e.state m).over = true := by
  refine (over_or_goes_on e).resolve_right fun hgo => ?_
  have hquit : ∀ m, n ≤ m → (e.state m).bQuit = true := by
    rcases Execution.keeps_until (e := e) (P := fun s => s.bQuit = true) (Q := fun _ => False) (n := n)
      (fun _ _ _ hs ht => .inl (quit_step hs ht.2)) hq with hall | ⟨-, -, hfalse⟩
    · exact hall
    · exact hfalse.elim
  have hmore : ∀ k, ∃ m, n ≤ m ∧ k ≤ (e.state m).cleanups := by
    intro k
    induction k with
    | zero => exact ⟨n, Nat.le_refl n, Nat.zero_le _⟩
    | succ k ih =>
      obtain ⟨m, hm, hk⟩ := ih
      obtain ⟨p, hp, hlt⟩ := main_getsOn h₀ hgo hf (hquit m hm)
      exact ⟨p, by omega, by omega⟩
  obtain ⟨m, -, hm⟩ := hmore 3
  have hle := (Execution.inv (I := Counted) (fun _ _ _ => counted_step) (counted_initial h₀) m).le
  omega

theorem stuck_of_over {s : State κ} (h : s.over = true) (a : Act κ) : step lib text s a = none := by
  simp [step, h]

/-- The end of a run is its last state. -/
theorem over_stays {m : Nat} (h : (e.state n).over = true) (hm : n ≤ m) : e.state m = e.state n := by
  induction m, hm using Nat.le_induction with
  | base => rfl
  | succ m hm ih =>
    rcases Execution.takes_or_same (e := e) m with ⟨a, ht⟩ | hs
    · have hs := ht.2
      rw [stuck_of_over (ih ▸ h)] at hs
      cases hs
    · exact hs.trans ih

omit [DecidableEq κ] in
/-- How a run ends: the process is killed, or `main` deletes the control object, with no device
thread running and each that was created joined. -/
theorem ended_of_over {s : State κ} (hi : Inv text s) (h : s.over = true) :
    s.killed = true ∨ s.main = .deleted ∧ ∀ u ∈ s.drivers, u.running = false ∧ u.joined = u.created := by
  cases hk : s.killed with
  | true => exact .inl rfl
  | false =>
    have hdel : s.main = .deleted := by
      cases hpc : s.main with
      | deleted => rfl
      | _ => simp [State.over, hk, hpc] at h
    refine .inr ⟨hdel, fun u hu => ?_⟩
    obtain ⟨k, hk⟩ := List.mem_iff_getElem?.mp hu
    obtain ⟨hj, -, hr⟩ := hi.joined (.inr hdel) hk
    exact ⟨hr, hj⟩

/-- A signal ends the process. -/
theorem ends_of_signal (h₀ : Initial (e.state 0)) (hf : Fairly e) (hq : (e.state n).bQuit = true) :
    ∃ m, n ≤ m ∧ ((e.state m).killed = true ∨ (e.state m).main = .deleted ∧
      ∀ u ∈ (e.state m).drivers, u.running = false ∧ u.joined = u.created) := by
  obtain ⟨m, hover⟩ := over_of_signal h₀ hf hq
  have hi : Inv text (e.state m) := Execution.inv (fun _ _ _ => inv_step) (inv_initial h₀) m
  refine ⟨max n m, Nat.le_max_left .., ?_⟩
  rw [over_stays hover (Nat.le_max_right ..)]
  exact ended_of_over hi hover

end MqttVscpd.Process
