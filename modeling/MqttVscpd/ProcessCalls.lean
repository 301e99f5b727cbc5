/-
The calls of the drivers in a process. A symbol the loader finds is at address 0 at the
loader's whim, and a Level I driver that reports another level sends its events through a
pointer that is NULL. Where neither happens, every call of a driver in every run is
through an entry point that was found, and nothing kills the process (`never_killed`).
-/
import MqttVscpd.DeviceDispatch
import MqttVscpd.ProcessSafety

namespace MqttVscpd.Process

open Transition

/-! ## What the thread calls -/

/-- The entry points an action of a thread calls, and the passes it may make there. -/
def entriesAt (l : Loop) : MqttVscpd.Act → List Proc
  | .testQuit true => entriesOf true l
  | a => (entryOf l a).toList

/-- All along the actions, what is called has been found. -/
def Calls (l : Loop) : Entries → List MqttVscpd.Act → Prop
  | _, [] => True
  | e, a :: acts => (∀ p ∈ entriesAt l a, e.proc p ≠ 0) ∧ Calls l (a.entries e) acts

/-- The driver is one that calls can be made of: no symbol is found at address 0, and under
Level I it reports level 1. -/
structure Callable (it : CDeviceItem) (o : Outcomes) : Prop where
  found : ∀ p, o.dlsym p ≠ .found 0
  level : it.driverLevel = VSCP_DRIVER_LEVEL1 → o.getLevel % 256 = 1

variable {l : Loop} {o : Outcomes} {it : CDeviceItem} {e : Entries}

theorem calls_dlsym (e : Entries) (p : Proc) (x : Nat) (acts : List MqttVscpd.Act)
    (h : Calls l (MqttVscpd.Act.entries (.dlsym p x) e) acts) : Calls l e (.dlsym p x :: acts) :=
  ⟨by simp [entriesAt, entryOf], h⟩

theorem calls_nil (e : Entries) : Calls l e [] := trivial

theorem calls_dlclose (e : Entries) : Calls l e [.dlclose] := ⟨by simp [entriesAt, entryOf], trivial⟩

/-- Actions that write no entries find what they call. -/
theorem calls_same {acts : List MqttVscpd.Act} (he : ∀ a ∈ acts, a.entries e = e)
    (hp : ∀ a ∈ acts, ∀ p ∈ entriesAt l a, e.proc p ≠ 0) : Calls l e acts := by
  induction acts with
  | nil => trivial
  | cons a acts ih =>
    simp only [List.forall_mem_cons] at he hp
    refine ⟨hp.1, ?_⟩
    rw [he.1]
    exact ih he.2 hp.2

/-- The passes made do not matter, and nothing else in a loop or after it calls but the close. -/
theorem entriesAt_serve {ticks : List Tick} {p : Proc} :
    ∀ a ∈ workLoopActs l ticks ++ shutdownActs, p ∈ entriesAt l a →
      p ∈ entriesOf true l ∨ p = (if l = .level2 then .vscpClose else .canalClose) := by
  intro a ha hp
  simp only [workLoopActs, shutdownActs, List.mem_append, List.mem_flatMap, List.mem_cons, List.not_mem_nil,
    or_false] at ha
  rcases ha with (⟨t, -, rfl | rfl⟩ | rfl) | rfl | rfl | rfl | rfl | rfl | rfl | rfl <;>
    simp_all [entriesAt, entryOf]

theorem entries_serve {ticks : List Tick} : ∀ a ∈ workLoopActs l ticks ++ shutdownActs, a.entries e = e := by
  intro a ha
  rcases List.mem_append.mp ha with ha | ha
  · exact entries_workLoopActs a ha
  · exact entries_shutdownActs a ha

theorem Callable.addr_ne_zero (h : Callable it o) {p : Proc} (hp : (o.dlsym p).isError = false) :
    (o.dlsym p).addr ≠ 0 := isError_eq_false hp (h.found p)

theorem calls_level1Serve (h1 : it.driverLevel = VSCP_DRIVER_LEVEL1)
    (hfound : ∀ p ∈ Proc.canalClose :: .canalGetLevel :: entriesOf true (loopOf it o), e.proc p ≠ 0) :
    Calls (loopOf it o) e (level1Serve o) := by
  have hl : loopOf it o ≠ .level2 := by
    unfold loopOf
    rw [if_pos h1]
    split <;> simp
  simp only [List.forall_mem_cons] at hfound
  obtain ⟨hclose, hlevel, hreads⟩ := hfound
  refine ⟨by simp [entriesAt, entryOf], ?_⟩
  cases o.connect with
  | false => exact calls_dlclose _
  | true =>
    refine ⟨by simpa [entriesAt, entryOf, MqttVscpd.Act.entries] using hlevel, ?_⟩
    have hserve : ∀ a ∈ workLoopActs (loopOf it o) o.ticks ++ shutdownActs, ∀ p ∈ entriesAt (loopOf it o) a,
        (MqttVscpd.Act.entries (.getLevel o.getLevel) e).proc p ≠ 0 := by
      intro a ha p hp
      rcases entriesAt_serve a ha hp with hread | rfl
      · exact hreads p hread
      · rw [if_neg hl]
        exact hclose
    have hquit : ∀ a ∈ workLoopActs (loopOf it o) o.ticks ++ [.quit] ++ shutdownActs,
        a ∈ workLoopActs (loopOf it o) o.ticks ++ shutdownActs ∨ a = .quit := by
      simp only [List.mem_append, List.mem_singleton]
      tauto
    by_cases hb : (o.dlsym .canalBlockingReceive).addr ≠ 0
    · have hloop : loopOf it o = .blocking := by simp [loopOf, h1, hb]
      rw [if_pos hb, ← hloop]
      refine calls_same (fun a ha => ?_) fun a ha p hp => ?_
      · rcases hquit a ha with ha | rfl
        · exact entries_serve a ha
        · rfl
      · rcases hquit a ha with ha | rfl
        · exact hserve a ha p hp
        · simp [entriesAt, entryOf] at hp
    · have hloop : loopOf it o = .nonBlocking := by simp [loopOf, h1, hb]
      rw [if_neg hb, ← hloop]
      exact calls_same entries_serve hserve

theorem calls_level1 (h : Callable it o) (h1 : it.driverLevel = VSCP_DRIVER_LEVEL1) {level : UInt8}
    (hl : e.level = level) : Calls (loopOf it o) e (level1 o) := by
  refine lookupAll_induction calls_dlsym calls_nil [] hl (by simp) fun hopen e₁ hl₁ he₁ => ?_
  refine lookupAll_induction calls_dlsym calls_dlclose _ hl₁ he₁
    fun hreq e₂ hl₂ he₂ => ?_
  refine lookupAll_induction calls_dlsym calls_nil _ hl₂ he₂ fun _ e₃ hl₃ he₃ => ?_
  have hfound : ∀ p ∈ Proc.canalOpen :: level1Required, e₃.proc p ≠ 0 := by
    intro p hp
    rw [he₃ p (List.mem_append_left _ hp)]
    refine h.addr_ne_zero ?_
    rcases List.mem_cons.mp hp with rfl | hp
    · exact hopen _ (by simp)
    · exact hreq p hp
  refine ⟨by simpa [entriesAt, entryOf] using hfound .canalOpen (by simp), ?_⟩
  split
  · exact calls_dlclose _
  · refine calls_level1Serve h1 ?_
    simp only [List.forall_mem_cons]
    refine ⟨hfound _ (by simp [level1Required]), hfound _ (by simp [level1Required]), fun p hp => ?_⟩
    by_cases hb : (o.dlsym .canalBlockingReceive).addr ≠ 0
    · obtain rfl : p = .canalBlockingReceive := by simpa [loopOf, h1, hb, entriesOf] using hp
      show e₃.proc .canalBlockingReceive ≠ 0
      rw [he₃ _ (by simp [level1Optional])]
      exact hb
    · have hp : p = .canalDataAvailable ∨ p = .canalReceive := by simpa [loopOf, h1, hb, entriesOf] using hp
      exact hfound p (by rcases hp with rfl | rfl <;> simp [level1Required])

theorem calls_level2 (h1 : it.driverLevel ≠ VSCP_DRIVER_LEVEL1) {level : UInt8} (hl : e.level = level) :
    Calls (loopOf it o) e (level2 o) := by
  have hloop : loopOf it o = .level2 := if_neg h1
  rw [hloop]
  refine lookupAll_induction calls_dlsym calls_nil [] hl (by simp) fun hreq e₁ hl₁ he₁ => ?_
  have hfound : ∀ p ∈ level2Required, e₁.proc p ≠ 0 := by
    intro p hp
    rw [he₁ p hp]
    simpa using hreq p hp
  refine ⟨by simpa [entriesAt, entryOf] using hfound .vscpOpen (by simp [level2Required]), ?_⟩
  split
  · exact calls_dlclose _
  refine ⟨by simp [entriesAt, entryOf], ?_⟩
  have hclose : e₁.proc .vscpClose ≠ 0 := hfound _ (by simp [level2Required])
  cases o.connect with
  | false =>
    exact ⟨by simpa [entriesAt, entryOf, MqttVscpd.Act.entries] using hclose, by simp [entriesAt, entryOf],
      calls_dlclose _⟩
  | true =>
    refine calls_same entries_serve fun a ha p hp => ?_
    rcases entriesAt_serve a ha hp with hread | rfl
    · obtain rfl : p = .vscpRead := by simpa [entriesOf] using hread
      exact hfound _ (by simp [level2Required])
    · exact hclose

theorem calls_deviceThread (h : Callable it o) : Calls (loopOf it o) it.entries (deviceThread it o) := by
  refine ⟨by simp [entriesAt, entryOf], ?_⟩
  split
  · trivial
  split
  · next h1 => exact calls_level1 h h1 rfl
  split
  · next h1 _ => exact calls_level2 h1 rfl
  · trivial

/-! ## In a process -/

variable {κ : Type} [DecidableEq κ] {lib : Vscphelper} {text : Guid → String}

/-- What the thread of a driver and its callbacks have still to call has been found. -/
structure Found (lib : Vscphelper) (u : Driver κ) : Prop where
  thread : Calls u.loop u.device.device.item.entries u.device.todo
  callbacks : ∃ it o, DispatchInv lib it o u.device

/-- A thread that is started finds a driver that calls can be made of. -/
def StartsCallable (s : State κ) : Act κ → Prop
  | .main (.start (some o)) =>
    ∀ i u, s.main = .starting i → s.drivers[i]? = some u → Callable u.device.device.item o
  | _ => True

variable {k : Nat} {u u' : Driver κ} {d d' : Discovery.Daemon Nat}

omit [DecidableEq κ] in
theorem Found.congr (h : Found lib u) (hloop : u'.loop = u.loop) (htodo : u'.device.todo = u.device.todo)
    (hent : u'.device.device.item.entries = u.device.device.item.entries)
    (hconn : u'.device.connected = u.device.connected) (hcb : u'.device.cb = u.device.cb) : Found lib u' := by
  obtain ⟨hthread, it, o, hkeeps, hpath⟩ := h
  exact ⟨by rw [hloop, hent, htodo]; exact hthread, it, o, by rw [hconn, hent, htodo]; exact hkeeps,
    by rw [hcb]; exact hpath⟩

omit [DecidableEq κ] in
theorem found_ofItem (it : CDeviceItem) : Found lib (Driver.ofItem it : Driver κ) :=
  ⟨trivial, {}, servingOutcomes, fun hc => Bool.noConfusion hc, fun _ => trivial⟩

omit [DecidableEq κ] in
theorem found_start {o : Outcomes} (h : Callable u.device.device.item o) (hen : u.device.device.item.bEnable = true) :
    Found lib (u.startDriver (some o)) := by
  have hcall : Callable { u.device.device.item with bThreadStarted := true } { o with ticks := [] } := ⟨h.found, h.level⟩
  have hkeeps : Keeps (Dispatches lib { u.device.device.item with bThreadStarted := true } { o with ticks := [] }) false
      u.device.device.item.entries (deviceThread { u.device.device.item with bThreadStarted := true }
        { o with ticks := [] }) := keeps_deviceThread fun h1 hasks =>
    ⟨h.level h1, fun _ => .inl (hcall.addr_ne_zero (hasks.required _ (by simp [level1Required])))⟩
  have hthread := calls_deviceThread hcall
  simp only [Driver.startDriver, hen]
  exact ⟨hthread, _, _, hkeeps, fun _ => trivial⟩

omit [DecidableEq κ] in
theorem found_mainDoes {s : State κ} {m : MainAct} (h : Found lib u) (hu : s.drivers[k]? = some u)
    (hc : StartsCallable s (.main m)) (hm : MainDoes s k u m u') : Found lib u' := by
  cases hm with
  | keeps => exact h
  | starts o hpc =>
    cases hen : u.device.device.item.bEnable with
    | false => simpa [Driver.startDriver, hen] using h
    | true =>
      cases o with
      | none => simpa [Driver.startDriver, hen] using h
      | some o => exact found_start (hc k u hpc hu) hen
  | stops =>
    refine h.congr rfl rfl ?_ rfl rfl
    cases hen : u.device.device.item.bEnable <;> simp [Driver.stop, State.modify, requestQuit, hen, CDeviceItem.entries]
  | joins => exact h.congr rfl rfl rfl rfl rfl

theorem found_driverSteps {p : Discovery.Pc} {a : DriverAct κ} (h : Found lib u) (hi : DriverInv text p u)
    (hs : DriverSteps lib text k u d a u' d') : Found lib u' := by
  obtain ⟨hthread, it, o, hdisp⟩ := h
  have hmoves : ∀ (m : Move κ) {s}, MqttVscpd.step lib u.device m = some s → DispatchInv lib it o s :=
    fun m _ hm => (dispatchInv_step ⟨hi.device, hdisp⟩ hm).2
  cases hs with
  | act s hr hp hs =>
    refine ⟨?_, it, o, hmoves .thread hs⟩
    obtain ⟨a, todo, htodo, -, rfl⟩ := threadStep_cases hs
    rw [htodo] at hthread
    simpa only [exec_entries] using hthread.2
  | event i ev s hs =>
    obtain ⟨hdev, htodo⟩ := device_event hs
    exact ⟨by simpa only [hdev, htodo] using hthread, it, o, hmoves _ hs⟩
  | callback i s hs =>
    obtain ⟨hdev, htodo⟩ := device_callback hs
    exact ⟨by simpa only [hdev, htodo] using hthread, it, o, hmoves _ hs⟩
  | _ => exact ⟨hthread, it, o, hdisp⟩

omit [DecidableEq κ] in
/-- Where all has been found there is no call at address 0. -/
theorem Found.atNull {p : Discovery.Pc} (h : Found lib u) (hi : DriverInv text p u) (c : Option κ) :
    u.atNull c = false := by
  obtain ⟨hthread, it, o, hdisp⟩ := h
  cases c with
  | some i =>
    have hpath := hdisp.path i
    cases hpc : u.device.cb i with
    | inCall q addr hd =>
      rw [hpc] at hpath
      simp [Driver.atNull, Driver.called, hpc, Ne.symm hpath.1]
    | _ => simp [Driver.atNull, Driver.called, hpc]
  | none =>
    have hhead : ∀ a, u.device.todo.head? = some a → ∀ q ∈ entriesAt u.loop a, u.device.device.item.proc q ≠ 0 := by
      intro a ha
      obtain ⟨todo, htodo⟩ := List.head?_eq_some_iff.mp ha
      rw [htodo] at hthread
      exact hthread.1
    cases hr : u.running with
    | false => simp [Driver.atNull, hr]
    | true =>
      cases hp : u.phase with
      | between =>
        cases ha : u.device.todo.head? with
        | none => simp [Driver.atNull, hp, Driver.called, ha]
        | some a =>
          have hcalls := hhead a ha
          cases hq : entryOf u.loop a with
          | none => simp [Driver.atNull, hp, Driver.called, ha, hq]
          | some q =>
            have hne : u.device.device.item.proc q ≠ 0 := by
              refine hcalls q ?_
              cases a <;> simp_all [entriesAt, entryOf]
            simp [Driver.atNull, hp, Driver.called, ha, hq, Ne.symm hne]
      | reading =>
        have hcalls := hhead _ (hi.inPass (by simp [hp])).2
        simp only [Driver.atNull, hr, hp, Bool.true_and, decide_eq_false_iff_not, List.mem_map, not_exists, not_and]
        exact hcalls
      | announcing | sending => simp [Driver.atNull, hp]

/-- What a process keeps whose drivers can be called. -/
structure Uncut (lib : Vscphelper) (text : Guid → String) (s : State κ) : Prop where
  inv : Inv text s
  found : ∀ (k : Nat) (u : Driver κ), s.drivers[k]? = some u → Found lib u
  alive : s.killed = false

omit [DecidableEq κ] in
/-- `main` makes no calls of drivers. -/
theorem killed_mainStep {s s' : State κ} {m : MainAct} (h : mainStep s m = some s') : s'.killed = s.killed := by
  cases m <;> simp only [mainStep] at h
  case signal =>
    cases h
    rfl
  all_goals repeat' split at h
  all_goals cases h <;> rfl

theorem uncut_step {s s' : State κ} {a : Act κ} (hs : Uncut lib text s) (hc : StartsCallable s a)
    (h : step lib text s a = some s') : Uncut lib text s' := by
  refine ⟨inv_step hs.inv h, fun k v hv => ?_, ?_⟩
  · obtain ⟨u, hu, hat⟩ := step_to h hv
    have hfound := hs.found k u hu
    cases hat with
    | main hm => exact found_mainDoes hfound hu hc hm
    | own hst => exact found_driverSteps hfound (hs.inv.driver k u hu) hst
    | other => exact hfound
  · cases a with
    | main m => exact (killed_mainStep (step_main h)).trans hs.alive
    | driver k a =>
      obtain ⟨u, u', d', hu, hst, rfl⟩ := step_driver h
      cases hst with
      | faults c hnull =>
        rw [(hs.found k u hu).atNull (hs.inv.driver k u hu) c] at hnull
        cases hnull
      | _ => rfl

omit [DecidableEq κ] in
theorem uncut_initial {s : State κ} (h : Initial s) : Uncut lib text s := by
  have hi : Inv text s := inv_initial h
  obtain ⟨items, d, cfg, o, -, -, -, rfl⟩ := h
  refine ⟨hi, fun k u hu => ?_, rfl⟩
  simp only [List.getElem?_map, Option.map_eq_some_iff] at hu
  obtain ⟨it, -, rfl⟩ := hu
  exact found_ofItem it

/-- **No process is killed by its own calls**: in every run, whatever the order of its threads, in
which no symbol is found at address 0 and each Level I driver reports level 1, all calls of the
drivers are through entry points that were found. -/
theorem never_killed {s₀ s : State κ} {as : List (Act κ)} (h₀ : Initial s₀)
    (hc : Along (step lib text) StartsCallable s₀ as) (h : run (step lib text) s₀ as = some s) :
    s.killed = false ∧ ∀ u ∈ s.drivers, ∀ c, u.atNull c = false := by
  have hend : Uncut lib text s := Along.inv (fun _ _ _ => uncut_step) hc (uncut_initial h₀) h
  refine ⟨hend.alive, fun u hu c => ?_⟩
  obtain ⟨k, hk⟩ := List.mem_iff_getElem?.mp hu
  exact (hend.found k u hk).atNull (hend.inv.driver k u hk) c

/-- An enabled Level I item. -/
def oneLevel1 : State Unit where
  drivers := [Driver.ofItem { bEnable := true, driverLevel := VSCP_DRIVER_LEVEL1 }]
  registry := Discovery.Daemon.fresh.start Discovery.localCfg Discovery.initSucceeds

/-- The driver is opened and asked for its level, and then gets an event. -/
def oneWritten (o : Outcomes) : List (Act Unit) :=
  [.main (.start (some o)), .main (.start none)] ++ List.replicate 20 (.driver 0 .act) ++
    .driver 0 (.event () VscpEvent.zero) :: List.replicate 5 (.driver 0 (.callback ()))

theorem never_killed_oneWritten :
    ∃ (s : State Unit) (u : Driver Unit),
      run (step canalIdHelper nodeText) oneLevel1 (oneWritten servingOutcomes ++ [.driver 0 (.callback ())]) = some s ∧
        s.drivers = [u] ∧ u.device.cb () = .inCall .canalBlockingSend 4096 7 ∧ s.killed = false ∧
          u.atNull (some ()) = false := by
  have hinit : Initial oneLevel1 :=
    ⟨[{ bEnable := true, driverLevel := VSCP_DRIVER_LEVEL1 }], Discovery.Daemon.fresh, Discovery.localCfg,
      Discovery.initSucceeds, by simp, Reachable.init rfl, rfl, rfl⟩
  have hcallable : ∀ a ∈ oneWritten servingOutcomes ++ [.driver 0 (.callback ())], ∀ s, StartsCallable s a := by
    have hserving : ∀ it, Callable it servingOutcomes := fun it => ⟨fun p => by simp [servingOutcomes], fun _ => rfl⟩
    simp [oneWritten, StartsCallable, hserving]
  have hrun : ∃ s u, run (step canalIdHelper nodeText) oneLevel1
      (oneWritten servingOutcomes ++ [.driver 0 (.callback ())]) = some s ∧ s.drivers = [u] ∧
        u.device.cb () = .inCall .canalBlockingSend 4096 7 := ⟨_, _, rfl, rfl, rfl⟩
  obtain ⟨s, u, hs, hu, hpc⟩ := hrun
  obtain ⟨halive, hnull⟩ := never_killed hinit (along_of_forall hcallable oneLevel1) hs
  exact ⟨s, u, hs, hu, hpc, halive, hnull u (by simp [hu]) (some ())⟩

/-- A report of level 2 sends the event through a pointer that is NULL. -/
example : (run (step canalIdHelper nodeText) oneLevel1 (oneWritten level2Report ++ [.driver 0 (.fault (some ()))])).map
    (·.killed) = some true := rfl

end MqttVscpd.Process
