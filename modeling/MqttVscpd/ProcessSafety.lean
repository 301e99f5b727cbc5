/-
What a process of the daemon keeps, and its parts in it: `main` and the threads'
lives as in the model of a shutdown, `discovery()` as in its own, and each device
with its callbacks as in the model of one device. Once a `cleanup` has returned no
device thread takes a step, and the control object is deleted with no call of
`discovery()` under way (`quiet_after_cleanup`).
-/
import MqttVscpd.DeviceSafety
import MqttVscpd.DiscoverySerial
import MqttVscpd.Process

namespace MqttVscpd.Process

open Transition
open Shutdown (MainPc)

variable {κ : Type}

/-! ## The shutdown in a process -/

/-- What `startDriver` and `stopDriver` read and write of an item. -/
def flags (it : CDeviceItem) : CDeviceItem :=
  { bEnable := it.bEnable, bQuit := it.bQuit, bThreadStarted := it.bThreadStarted }

def Driver.worker (u : Driver κ) : Shutdown.Worker where
  item := flags u.device.device.item
  running := u.running
  created := u.created
  joined := u.joined

def State.shutdown (s : State κ) : Shutdown.State where
  workers := s.drivers.map Driver.worker
  pc := s.main
  bQuit := s.bQuit
  cleanups := s.cleanups

def MainAct.move : MainAct → Shutdown.Move
  | .start o => .start o.isSome
  | .signal => .signal
  | .loop => .loop
  | .stop => .stop
  | .join => .join
  | .cleanup => .cleanup
  | .delete => .delete

/-- A step of the device thread, as the shutdown sees it. -/
def Driver.told (u : Driver κ) (k : Nat) : DriverAct κ → List Shutdown.Move
  | .act =>
    match u.device.todo with
    | .quit :: _ => [.thread k .quit]
    | _ => [.thread k .work]
  | .enter | .read _ | .send _ => [.thread k .work]
  | .discover _ _ => [.thread k .discovery]
  | .returns => [.thread k .returns]
  | .event _ _ | .callback _ | .fault _ => []

def told (s : State κ) : Act κ → List Shutdown.Move
  | .main m => [m.move]
  | .driver k a => (s.drivers[k]?).elim [] fun u => u.told k a

theorem modify_worker {f : Driver κ → Driver κ} {g : Shutdown.Worker → Shutdown.Worker}
    (h : ∀ u, (f u).worker = g u.worker) (us : List (Driver κ)) (i : Nat) :
    (us.modify i f).map Driver.worker = (us.map Driver.worker).modify i g := by
  refine List.ext_getElem? fun j => ?_
  by_cases hij : i = j
  · cases hu : us[j]? <;> simp [hij, hu, h]
  · simp [hij]

@[simp] theorem getElem?_workers (s : State κ) (k : Nat) :
    s.shutdown.workers[k]? = s.drivers[k]?.map Driver.worker := by
  simp [State.shutdown]

theorem worker_startDriver (u : Driver κ) (o : Option Outcomes) :
    (u.startDriver o).worker = u.worker.startDriver o.isSome := by
  unfold Driver.startDriver Shutdown.Worker.startDriver
  cases hen : u.device.device.item.bEnable <;> cases o <;>
    simp [Driver.worker, flags, hen, MqttVscpd.start]

theorem worker_stop (u : Driver κ) : u.stop.worker = { u.worker with item := requestQuit u.worker.item } := by
  cases hen : u.device.device.item.bEnable <;>
    simp [Driver.worker, Driver.stop, flags, State.modify, requestQuit, hen]

theorem worker_join (u : Driver κ) : u.join.worker = u.worker.join := rfl

theorem joins_worker (u : Driver κ) : u.worker.joins = u.joins := rfl

/-- Each step of `main` is one of the shutdown. -/
theorem shutdown_mainStep {s s' : State κ} {m : MainAct} (h : mainStep s m = some s') :
    Shutdown.step s.shutdown m.move = some s'.shutdown := by
  cases m with
  | start o =>
    simp only [mainStep] at h
    split at h
    · next i hpc =>
      split at h <;> cases h
      · next hlt =>
        have hmap : (s.drivers.modify i (·.startDriver o)).map Driver.worker =
            (s.drivers.map Driver.worker).modify i (·.startDriver o.isSome) :=
          modify_worker (fun u => worker_startDriver u o) s.drivers i
        simp [MainAct.move, Shutdown.step, State.shutdown, hpc, hlt, hmap]
      · next hge => simp [MainAct.move, Shutdown.step, State.shutdown, hpc, hge]
    · cases h
  | signal =>
    cases h
    rfl
  | loop =>
    simp only [mainStep] at h
    split at h
    · next hpc =>
      cases h
      simp [MainAct.move, Shutdown.step, State.shutdown, hpc]
    · cases h
  | stop =>
    simp only [mainStep] at h
    split at h
    · next i hpc =>
      split at h <;> cases h
      · next u hu =>
        have hmap : (s.drivers.modify i Driver.stop).map Driver.worker = (s.drivers.map Driver.worker).modify i
            fun w => { w with item := requestQuit w.item } := modify_worker worker_stop s.drivers i
        cases hj : u.joins <;>
          simp [MainAct.move, Shutdown.step, State.shutdown, hpc, hu, hmap, joins_worker, hj]
      · next hnone => simp [MainAct.move, Shutdown.step, State.shutdown, hpc, hnone]
    · cases h
  | join =>
    simp only [mainStep] at h
    split at h
    · next i hpc =>
      split at h
      · next u hu =>
        split at h <;> cases h
        next hr =>
        have hmap : (s.drivers.modify i Driver.join).map Driver.worker =
            (s.drivers.map Driver.worker).modify i Shutdown.Worker.join := modify_worker worker_join s.drivers i
        have hrun : u.worker.running = false := by simpa [Driver.worker] using hr
        simp [MainAct.move, Shutdown.step, State.shutdown, hpc, hu, hmap, hrun]
      · cases h
    · cases h
  | cleanup =>
    simp only [mainStep] at h
    split at h
    · next hpc =>
      split at h <;> cases h
      simp [MainAct.move, Shutdown.step, State.shutdown, hpc]
    · cases h
  | delete =>
    simp only [mainStep] at h
    split at h
    · next hpc =>
      split at h <;> cases h
      simp [MainAct.move, Shutdown.step, State.shutdown, hpc]
    · cases h

/-! ## The invariant -/

/-- Where a thread handing on an event is in `discovery()`. -/
def Phase.Place (text : Guid → String) : Phase → Discovery.Pc → Prop
  | .announcing ev, p =>
    match p with
    | .idle | .unlocking => True
    | .waiting g | .looking g | .inserting g | .publishing g _ | .recording g => g = text ev.guid
  | _, p => p = .idle

/-- What holds of a driver, with its thread there in `discovery()`. -/
structure DriverInv (text : Guid → String) (p : Discovery.Pc) (u : Driver κ) : Prop where
  device : MqttVscpd.Inv u.device
  place : u.phase.Place text p
  /-- A pass is made by a running thread, which comes back to the loop's test. -/
  inPass : u.phase ≠ .between → u.running = true ∧ u.device.todo.head? = some (.testQuit true)
  ended : u.running = false → u.device.todo = []

structure Inv (text : Guid → String) (s : State κ) : Prop where
  shutdown : Shutdown.Inv s.shutdown
  called : Discovery.Called s.registry
  driver : ∀ k u, s.drivers[k]? = some u → DriverInv text (s.registry.pc k) u
  /-- Only the items' threads call `discovery()`. -/
  others : ∀ k, s.drivers[k]? = none → s.registry.pc k = .idle

theorem inv_ofItem (it : CDeviceItem) : MqttVscpd.Inv (Driver.ofItem it : Driver κ).device :=
  ⟨.fresh, {
    follows := follows_nil _
    holds := rfl
    lock := Lock.excl_idle fun t => by cases t <;> simp [holder, Driver.ofItem, Stage.inside, CallbackPc.inside]
    guarded := fun i h => by simp [Driver.ofItem, CallbackPc.guarded] at h
    call := fun i p a h hc => by simp [Driver.ofItem] at hc
    early := fun _ _ => rfl }⟩

theorem called_start {d : Discovery.Daemon Nat} (cfg : Cfg) (o : InitOutcome) (hd : Discovery.Called d) :
    Discovery.Called (d.start cfg o) :=
  Discovery.called_step (a := .start cfg o) hd rfl

variable {text : Guid → String}

theorem shutdown_initial {s : State κ} (h : Initial s) : Shutdown.Initial s.shutdown := by
  obtain ⟨items, d, cfg, o, hns, -, -, rfl⟩ := h
  refine ⟨items.map flags, ?_, ?_⟩
  · simpa [flags] using hns
  · simp [State.shutdown, Driver.worker, Driver.ofItem, Function.comp_def]

theorem inv_initial {s : State κ} (h : Initial s) : Inv text s := by
  refine ⟨Shutdown.inv_initial (shutdown_initial h), ?_, fun k u hu => ?_, fun k hk => ?_⟩
  all_goals obtain ⟨items, d, cfg, o, -, hd, -, rfl⟩ := h
  · exact called_start cfg o hd.called
  · simp only [List.getElem?_map, Option.map_eq_some_iff] at hu
    obtain ⟨it, -, rfl⟩ := hu
    exact ⟨inv_ofItem it, rfl, fun h => absurd rfl h, fun _ => rfl⟩
  · rfl

/-! ## What each step keeps -/

theorem thread_nextAct (d : Discovery.Daemon Nat) (k : Nat) (g : String) (ok : Bool) (date : String) :
    (nextAct d k g ok date).thread = some k := by
  unfold nextAct
  split <;> rfl

/-- In `discovery()` a thread stays with the GUID it came with. -/
theorem place_nextAct {d d' : Discovery.Daemon Nat} {k : Nat} {ev : VscpEvent} {ok : Bool} {date : String}
    (hp : (Phase.announcing ev).Place text (d.pc k))
    (h : Discovery.step d (nextAct d k (text ev.guid) ok date) = some d') :
    (Phase.announcing ev).Place text (d'.pc k) := by
  unfold nextAct at h
  cases hpc : d.pc k <;> rw [hpc] at hp <;> simp only [hpc] at h <;>
    cases Discovery.step_cases h <;> simp_all [Phase.Place, Discovery.Daemon.goto]

theorem DriverInv.startDriver {u : Driver κ} {p : Discovery.Pc} (h : DriverInv text p u) (hr : u.running = false)
    (o : Option Outcomes) : DriverInv text p (u.startDriver o) := by
  have hp : u.phase = .between := by
    by_contra hne
    have hrun := (h.inPass hne).1
    simp [hr] at hrun
  cases hen : u.device.device.item.bEnable with
  | false => simpa [Driver.startDriver, hen] using h
  | true =>
    cases o with
    | none => simpa [Driver.startDriver, hen] using h
    | some o =>
      simp only [Driver.startDriver, hen, Bool.not_true, Bool.false_eq_true, if_false]
      exact {
        device := inv_start _ _
        place := h.place
        inPass := fun hne => absurd hp hne
        ended := fun hf => by cases hf }

theorem DriverInv.mainDoes {s : State κ} {k : Nat} {u u' : Driver κ} {m : MainAct} {p : Discovery.Pc}
    (hi : Shutdown.Inv s.shutdown) (hu : s.drivers[k]? = some u) (h : DriverInv text p u) (hm : MainDoes s k u m u') :
    DriverInv text p u' := by
  cases hm with
  | keeps => exact h
  | starts o hpc =>
    refine h.startDriver ?_ o
    have hw := hi.worker k u.worker (by simp [hu])
    have hnone : u.created = 0 := by
      have hphase := hw.phase
      simp only [State.shutdown, hpc] at hphase
      exact hphase (Nat.le_refl k)
    by_contra hr
    have := hw.running (by simpa [Driver.worker] using hr)
    simp [Driver.worker, hnone] at this
  | stops => exact {
      device := inv_modify h.device (fun it => by unfold requestQuit; split <;> rfl)
        (fun it hq => by unfold requestQuit; split <;> simp [hq])
      place := h.place
      inPass := h.inPass
      ended := h.ended }
  | joins =>
    have hdev : MqttVscpd.Inv (u.device.modify fun it => { it with bThreadStarted := false }) :=
      inv_modify h.device (fun _ => rfl) (fun _ hq => hq)
    exact {
      device := hdev
      place := h.place
      inPass := h.inPass
      ended := h.ended }

theorem inv_mainStep {s s' : State κ} {m : MainAct} (hi : Inv text s) (h : mainStep s m = some s') : Inv text s' := by
  obtain ⟨hreg, hlen, hdrivers⟩ := mainStep_cases h
  refine ⟨Shutdown.inv_step hi.shutdown (shutdown_mainStep h), hreg ▸ hi.called, fun k u' hu' => ?_, fun k hk => ?_⟩
  · obtain ⟨u, hu, hm⟩ := hdrivers k u' hu'
    rw [hreg]
    exact (hi.driver k u hu).mainDoes hi.shutdown hu hm
  · rw [hreg]
    refine hi.others k ?_
    rw [List.getElem?_eq_none_iff] at hk ⊢
    omega

variable [DecidableEq κ] {lib : Vscphelper} {k : Nat} {u u' : Driver κ} {d d' : Discovery.Daemon Nat}

/-- A callback leaves the device and what is left of its thread alone. -/
theorem device_event {s s' : MqttVscpd.State κ} {i : κ} {ev : VscpEvent}
    (h : MqttVscpd.step lib s (.event i ev) = some s') : s'.device = s.device ∧ s'.todo = s.todo := by
  simp only [MqttVscpd.step] at h
  split at h <;> cases h
  exact ⟨rfl, rfl⟩

theorem device_callback {s s' : MqttVscpd.State κ} {i : κ} (h : MqttVscpd.step lib s (.callback i) = some s') :
    s'.device = s.device ∧ s'.todo = s.todo := by
  obtain ⟨pc, owner, -, rfl⟩ := step_callback h
  exact ⟨rfl, rfl⟩

theorem DriverSteps.inv {a : DriverAct κ} (hi : DriverInv text (d.pc k) u) (h : DriverSteps lib text k u d a u' d') :
    DriverInv text (d'.pc k) u' := by
  obtain ⟨hdev, hplace, hpass, hend⟩ := hi
  cases h with
  | act s hr hp hs =>
    exact ⟨inv_thread hdev hs, hplace, fun hne => absurd hp hne, fun hf => by simp [hr] at hf⟩
  | enter hr hp ht =>
    rw [hp] at hplace
    exact ⟨hdev, hplace, fun _ => ⟨hr, ht⟩, hend⟩
  | passes t hp =>
    rw [hp] at hplace
    exact ⟨hdev, hplace, fun hne => absurd rfl hne, hend⟩
  | reads t ev hp =>
    have hin := hpass (by simp [hp])
    have hidle : d.pc k = .idle := by simpa [hp, Phase.Place] using hplace
    exact ⟨hdev, by simp [Phase.Place, hidle], fun _ => hin, hend⟩
  | discovers ok date ev _ hp hd hpc =>
    have hin := hpass (by simp [hp])
    rw [hp] at hplace
    refine ⟨hdev, ?_, fun _ => hin, hend⟩
    rw [hp]
    exact place_nextAct hplace hd
  | discovered ok date ev _ hp hd hpc => exact ⟨hdev, hpc, fun _ => hpass (by simp [hp]), hend⟩
  | sends ok ev hp =>
    rw [hp] at hplace
    exact ⟨hdev, hplace, fun hne => absurd rfl hne, hend⟩
  | returns hr hp ht => exact ⟨hdev, hplace, fun hne => absurd hp hne, fun _ => ht⟩
  | event i ev s hs =>
    obtain ⟨-, htodo⟩ := device_event hs
    exact ⟨inv_event hdev hs, hplace, htodo ▸ hpass, htodo ▸ hend⟩
  | callback i s hs =>
    obtain ⟨-, htodo⟩ := device_callback hs
    exact ⟨inv_callback hdev hs, hplace, htodo ▸ hpass, htodo ▸ hend⟩
  | faults => exact ⟨hdev, hplace, hpass, hend⟩

theorem thread_of_registry {a : DriverAct κ} (h : DriverSteps lib text k u d a u' d') :
    d' = d ∨ ∃ b, b.thread = some k ∧ Discovery.step d b = some d' := by
  cases h with
  | discovers ok date ev _ _ hd => exact .inr ⟨_, thread_nextAct .., hd⟩
  | discovered ok date ev _ _ hd => exact .inr ⟨_, thread_nextAct .., hd⟩
  | _ => exact .inl rfl

/-- Of what the shutdown sees, `deviceThread` sets `m_bQuit` only. -/
theorem flags_exec {a : MqttVscpd.Act} (ha : a ≠ .quit) (dev : Device) : flags (a.exec dev).item = flags dev.item := by
  cases a with
  | quit => exact absurd rfl ha
  | dlopen ok => cases ok <;> rfl
  | _ => rfl

theorem exec_quit {a : MqttVscpd.Act} {dev : Device} (h : dev.item.bQuit = true) : (a.exec dev).item.bQuit = true := by
  cases a with
  | dlopen ok => cases ok <;> exact h
  | quit => rfl
  | _ => exact h

omit [DecidableEq κ] in
theorem told_act {a : MqttVscpd.Act} {todo : List MqttVscpd.Act} (hu : u.device.todo = a :: todo) (ha : a ≠ .quit) :
    u.told k .act = [.thread k .work] := by
  simp only [Driver.told, hu]
  cases a with
  | quit => exact absurd rfl ha
  | _ => rfl

omit [DecidableEq κ] in
theorem set_worker {s : State κ} (hu : s.drivers[k]? = some u) {f : Shutdown.Worker → Shutdown.Worker}
    (h : u'.worker = f u.worker) :
    (s.drivers.set k u').map Driver.worker = (s.drivers.map Driver.worker).modify k f := by
  obtain ⟨hk, hget⟩ := List.getElem?_eq_some_iff.mp hu
  refine List.ext_getElem? fun j => ?_
  by_cases hkj : k = j
  · subst hkj
    simp [h, hk, hget]
  · simp [hkj]

/-- A step of a driver's threads is the steps of the shutdown it is told as. -/
theorem shutdown_driverStep {s : State κ} {a : DriverAct κ} (hi : Inv text s) (hu : s.drivers[k]? = some u)
    (h : DriverSteps lib text k u s.registry a u' d') :
    run Shutdown.step s.shutdown (u.told k a) =
      some ({ s with drivers := s.drivers.set k u', registry := d', killed := a.kills } : State κ).shutdown := by
  have hdi := hi.driver k u hu
  have hsame : u'.worker = u.worker → some s.shutdown =
      some ({ s with drivers := s.drivers.set k u', registry := d', killed := a.kills } : State κ).shutdown := by
    intro hw
    have hset : (s.drivers.set k u').map Driver.worker = (s.drivers.map Driver.worker).modify k id :=
      set_worker hu hw
    simp [State.shutdown, hset]
  have hthread : ∀ {act : Shutdown.ThreadAct}, u.running = true → u'.worker = u.worker.act act →
      run Shutdown.step s.shutdown [.thread k act] =
        some ({ s with drivers := s.drivers.set k u', registry := d', killed := a.kills } : State κ).shutdown := by
    intro act hr hw
    have hrun : u.worker.running = true := hr
    have hset : (s.drivers.set k u').map Driver.worker = (s.drivers.map Driver.worker).modify k (·.act act) :=
      set_worker hu hw
    refine run_cons_iff.mpr ⟨_, ?_, rfl⟩
    simp [Shutdown.step, State.shutdown, hu, hrun, hset]
  have hpass : u.phase ≠ .between → u.running = true := fun hne => (hdi.inPass hne).1
  cases h with
  | act s₁ hr hp hs =>
    obtain ⟨a, todo, htodo, -, rfl⟩ := threadStep_cases hs
    by_cases hq : a = .quit
    · subst hq
      simp only [Driver.told, htodo]
      exact hthread hr rfl
    · rw [told_act htodo hq]
      refine hthread hr ?_
      simp [Driver.worker, Shutdown.Worker.act, flags_exec hq]
  | enter hr => exact hthread hr rfl
  | passes t hp | reads t ev hp | sends ok ev hp => exact hthread (hpass (by simp [hp])) rfl
  | discovers ok date ev _ hp | discovered ok date ev _ hp => exact hthread (hpass (by simp [hp])) rfl
  | returns hr => exact hthread hr rfl
  | event i ev s₁ hs => exact hsame (by simp [Driver.worker, (device_event hs).1])
  | callback i s₁ hs => exact hsame (by simp [Driver.worker, (device_callback hs).1])
  | faults => exact hsame rfl

theorem inv_driverStep {s : State κ} {a : DriverAct κ} (hi : Inv text s) (hu : s.drivers[k]? = some u)
    (h : DriverSteps lib text k u s.registry a u' d') :
    Inv text { s with drivers := s.drivers.set k u', registry := d', killed := a.kills } := by
  have hk : k < s.drivers.length := (List.getElem?_eq_some_iff.mp hu).1
  have hpc : ∀ j, j ≠ k → d'.pc j = s.registry.pc j := by
    intro j hj
    rcases thread_of_registry h with rfl | ⟨b, hb, hd⟩
    · rfl
    · exact Discovery.pc_of_ne hb hj hd
  refine ⟨run_inv (fun _ _ _ => Shutdown.inv_step) hi.shutdown (shutdown_driverStep hi hu h), ?_, fun j v hv => ?_,
    fun j hj => ?_⟩
  · rcases thread_of_registry h with rfl | ⟨b, -, hd⟩
    · exact hi.called
    · exact Discovery.called_step hi.called hd
  · by_cases hjk : j = k
    · subst hjk
      obtain rfl : u' = v := by simpa [hk] using hv
      exact h.inv (hi.driver j u hu)
    · rw [List.getElem?_set_ne (Ne.symm hjk)] at hv
      show DriverInv text (d'.pc j) v
      rw [hpc j hjk]
      exact hi.driver j v hv
  · rw [List.getElem?_eq_none_iff, List.length_set] at hj
    show d'.pc j = .idle
    rw [hpc j (by omega)]
    exact hi.others j (List.getElem?_eq_none_iff.mpr hj)

theorem inv_step {s s' : State κ} {a : Act κ} (hi : Inv text s) (h : step lib text s a = some s') : Inv text s' := by
  cases a with
  | main m => exact inv_mainStep hi (step_main h)
  | driver k a =>
    obtain ⟨u, u', d', hu, hs, rfl⟩ := step_driver h
    exact inv_driverStep hi hu hs

/-- The states a process comes to. -/
def Reached (lib : Vscphelper) (text : Guid → String) : State κ → Prop := Reachable (step lib text) Initial

theorem Reached.inv {s : State κ} (h : Reached lib text s) : Inv text s :=
  Reachable.inv (fun _ => inv_initial) (fun _ _ _ => inv_step) h

omit [DecidableEq κ] in
/-- A thread in a pass has been created. -/
theorem Inv.created {s : State κ} (hi : Inv text s) (hu : s.drivers[k]? = some u) (hp : u.phase ≠ .between) :
    u.created ≠ 0 := by
  have hrun := ((hi.driver k u hu).inPass hp).1
  have hlt : u.joined < u.created := (hi.shutdown.worker k u.worker (by simp [hu])).running hrun
  omega

/-- An item stays in its place. -/
theorem exists_driver {s s' : State κ} {as : List (Act κ)} (hu : s.drivers[k]? = some u)
    (h : run (step lib text) s as = some s') : ∃ v, s'.drivers[k]? = some v := by
  have hlen : s'.drivers.length = s.drivers.length :=
    run_inv (I := fun t => t.drivers.length = s.drivers.length) (fun _ _ _ hl hs => (length_step hs).trans hl) rfl h
  have hk : k < s.drivers.length := (List.getElem?_eq_some_iff.mp hu).1
  exact ⟨_, List.getElem?_eq_getElem (hlen ▸ hk)⟩

/-- The shutdown of a process is one of `Shutdown`. -/
theorem simulates_shutdown :
    Simulates (step lib text) Shutdown.step (fun (s : State κ) t => Inv text s ∧ t = s.shutdown) told := by
  intro s a s' t hr h
  obtain ⟨hi, rfl⟩ := hr
  refine ⟨s'.shutdown, ?_, inv_step hi h, rfl⟩
  cases a with
  | main m => exact run_cons_iff.mpr ⟨_, shutdown_mainStep (step_main h), rfl⟩
  | driver k a =>
    obtain ⟨u, u', d', hu, hs, rfl⟩ := step_driver h
    rw [told, hu]
    exact shutdown_driverStep hi hu hs

/-! ## After a cleanup -/

/-- A step of the device thread, not of a callback. -/
def DriverAct.ofThread : DriverAct κ → Bool
  | .event _ _ | .callback _ | .fault (some _) => false
  | _ => true

omit [DecidableEq κ] in
theorem DriverInv.idle {p : Discovery.Pc} (h : DriverInv text p u) (hr : u.running = false) :
    u.phase = .between ∧ p = .idle := by
  have hp : u.phase = .between := by
    by_contra hne
    have hrun := (h.inPass hne).1
    simp [hr] at hrun
  exact ⟨hp, by simpa [hp, Phase.Place] using h.place⟩

omit [DecidableEq κ] in
/-- A thread that has been joined, or was never created, does not run. -/
theorem Inv.joined {s : State κ} (hi : Inv text s) (hc : 0 < s.cleanups ∨ s.main = .deleted)
    (hu : s.drivers[k]? = some u) : u.joined = u.created ∧ u.created ≤ 1 ∧ u.running = false := by
  have hw : s.shutdown.workers[k]? = some u.worker := by simp [hu]
  have hj : u.joined = u.created := Shutdown.all_joined hi.shutdown hc u.worker (List.mem_of_getElem? hw)
  have hwi := hi.shutdown.worker k _ hw
  refine ⟨hj, hwi.created_le, ?_⟩
  by_contra hr
  have hlt : u.joined < u.created := hwi.running (by simpa [Driver.worker] using hr)
  omega

theorem Inv.stopped {s : State κ} {a : DriverAct κ} (hi : Inv text s) (hc : 0 < s.cleanups ∨ s.main = .deleted)
    (ha : a.ofThread = true) : step lib text s (.driver k a) = none := by
  by_contra hne
  obtain ⟨s', h⟩ := Option.ne_none_iff_exists'.mp hne
  obtain ⟨u, u', d', hu, hst, -⟩ := step_driver h
  have hr := (hi.joined hc hu).2.2
  have hp := ((hi.driver k u hu).idle hr).1
  cases hst with
  | faults c hc =>
    cases c with
    | none => simp [Driver.atNull, hr] at hc
    | some i => cases ha
  | _ => simp_all [DriverAct.ofThread]

/-- **After a cleanup the device threads are gone.** Once `cleanup` has returned, and
when the control object is deleted, every thread has been created and joined at most once,
none takes a step, no `discovery()` call is under way and its mutex is free. -/
theorem quiet_after_cleanup {s : State κ} (hs : Reached lib text s) (hc : 0 < s.cleanups ∨ s.main = .deleted) :
    (∀ u ∈ s.drivers, u.joined = u.created ∧ u.created ≤ 1) ∧
      (∀ k a, a.ofThread = true → step lib text s (.driver k a) = none) ∧
        s.registry.Quiescent ∧ s.registry.owner = none := by
  have hi := hs.inv
  have hq : s.registry.Quiescent := by
    intro k
    cases hu : s.drivers[k]? with
    | none => exact hi.others k hu
    | some u => exact ((hi.driver k u hu).idle (hi.joined hc hu).2.2).2
  refine ⟨fun u hu => ?_, fun k a ha => hi.stopped hc ha, hq, ?_⟩
  · obtain ⟨k, hk⟩ := List.mem_iff_getElem?.mp hu
    exact ⟨(hi.joined hc hk).1, (hi.joined hc hk).2.1⟩
  · cases ho : s.registry.owner with
    | none => rfl
    | some k =>
      have hin : (s.registry.pc k).inside = true := (hi.called.inv.lock k).mpr ho
      simp [hq k, Discovery.Pc.inside] at hin

/-! ## A run -/

/-- An enabled Level II item, after an `init` on no database. -/
def oneDriver : State Unit where
  drivers := [Driver.ofItem { bEnable := true, driverLevel := VSCP_DRIVER_LEVEL2 }]
  registry := Discovery.Daemon.fresh.start Discovery.localCfg Discovery.initSucceeds

theorem initial_oneDriver : Initial oneDriver :=
  ⟨[{ bEnable := true, driverLevel := VSCP_DRIVER_LEVEL2 }], Discovery.Daemon.fresh, Discovery.localCfg,
    Discovery.initSucceeds, by simp, Reachable.init rfl, rfl, rfl⟩

/-- The driver has an event. -/
def eventTick : Tick where
  dataAvailable := true
  msg := none
  event := some VscpEvent.zero
  sendOk := true
  now := 1

/-- The thread comes to its loop and hands one event on. -/
def oneEvent : List (Act Unit) :=
  [.main (.start (some servingOutcomes)), .main (.start none)] ++ List.replicate 8 (.driver 0 .act) ++
    [.driver 0 .enter, .driver 0 (.read eventTick)] ++
      List.replicate 7 (.driver 0 (.discover true "2025-01-02T00:00:00")) ++ [.driver 0 (.send true)]

/-- A signal, both cleanups and the deletion. -/
def endsProcess : List (Act Unit) :=
  [.main .signal, .main .loop, .main .stop] ++ List.replicate 8 (.driver 0 .act) ++
    [.driver 0 .returns, .main .join, .main .stop, .main .cleanup, .main .stop, .main .stop, .main .delete]

/-- Every GUID is written as the node's. -/
def nodeText : Guid → String := fun _ => Discovery.nodeGuid

theorem quiet_after_cleanup_oneEvent :
    ∃ s : State Unit, run (step canalIdHelper nodeText) oneDriver (oneEvent ++ endsProcess) = some s ∧
      s.main = .deleted ∧ s.registry.published.length = 1 ∧ s.registry.Quiescent ∧
        step canalIdHelper nodeText s (.driver 0 .enter) = none := by
  have hrun : (run (step canalIdHelper nodeText) oneDriver (oneEvent ++ endsProcess)).map
      (fun s => (s.main, s.registry.published.length)) = some (.deleted, 1) := rfl
  obtain ⟨s, hs, he⟩ := Option.map_eq_some_iff.mp hrun
  obtain ⟨hmain, hpub⟩ := Prod.mk.inj he
  have hreached : Reached canalIdHelper nodeText s := ⟨_, _, initial_oneDriver, hs⟩
  obtain ⟨-, hnone, hq, -⟩ := quiet_after_cleanup hreached (.inr hmain)
  exact ⟨s, hs, hmain, hpub, hq, hnone 0 .enter rfl⟩

end MqttVscpd.Process
