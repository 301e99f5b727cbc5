/-
A driver of a process is a device with its threads: what a process does to one item,
from its thread's start on, is a run of the device alone, with the passes of the work
loop that the process makes (`driver_refines_device`). The device's thread has all its
passes before it when it starts, so the run is matched from its end.
-/
import MqttVscpd.ProcessSafety

namespace MqttVscpd.Process

open Transition

variable {κ : Type}

/-! ## The passes put back -/

/-- The actions of a device thread are those of the driver's with passes put before the test
that ends the loop. -/
inductive Fills (l : Loop) : List MqttVscpd.Act → List MqttVscpd.Act → Prop where
  | nil : Fills l [] []
  | loop (ts : List Tick) {acts acts' : List MqttVscpd.Act} (h : Fills l acts acts') :
    Fills l (.testQuit true :: acts) (workLoopActs l ts ++ acts')
  | cons {a : MqttVscpd.Act} {acts acts' : List MqttVscpd.Act} (ha : a ≠ .testQuit true) (h : Fills l acts acts') :
    Fills l (a :: acts) (a :: acts')

variable {l : Loop}

theorem Fills.refl (l : Loop) : ∀ acts, Fills l acts acts
  | [] => .nil
  | a :: acts => by
    by_cases ha : a = .testQuit true
    · subst ha
      exact .loop [] (Fills.refl l acts)
    · exact .cons ha (Fills.refl l acts)

theorem fills_cons_iff {a : MqttVscpd.Act} {acts filled : List MqttVscpd.Act} (ha : a ≠ .testQuit true) :
    Fills l (a :: acts) filled ↔ ∃ acts', filled = a :: acts' ∧ Fills l acts acts' := by
  constructor
  · intro h
    cases h with
    | loop => exact absurd rfl ha
    | cons _ h => exact ⟨_, rfl, h⟩
  · intro h
    obtain ⟨acts', rfl, h⟩ := h
    exact .cons ha h

/-- The passes of a filled list are one list of ticks for all its actions. -/
def Opens (l : Loop) (acts : List Tick → List MqttVscpd.Act) : Prop :=
  ∀ filled, Fills l (acts []) filled → ∃ ts, filled = acts ts

theorem opens_nil : Opens l fun _ => [] := by
  intro filled h
  cases h
  exact ⟨[], rfl⟩

theorem Opens.cons {a : MqttVscpd.Act} {acts : List Tick → List MqttVscpd.Act} (h : Opens l acts)
    (ha : a ≠ .testQuit true) : Opens l fun ts => a :: acts ts := by
  intro filled hf
  obtain ⟨acts', rfl, hf'⟩ := (fills_cons_iff ha).mp hf
  obtain ⟨ts, rfl⟩ := h acts' hf'
  exact ⟨ts, rfl⟩

theorem opens_ite {c : Prop} [Decidable c] {acts acts' : List Tick → List MqttVscpd.Act} (h : c → Opens l acts)
    (h' : ¬ c → Opens l acts') : Opens l fun ts => if c then acts ts else acts' ts := by
  by_cases hc : c
  · simpa only [if_pos hc] using h hc
  · simpa only [if_neg hc] using h' hc

theorem opens_lookupAll (o : Outcomes) (missing : Lookup → Bool) {bail : List MqttVscpd.Act}
    {k : List Tick → List MqttVscpd.Act} (hb : Opens l fun _ => bail) (hk : Opens l k) (ps : List Proc) :
    Opens l fun ts => lookupAll { o with ticks := ts } missing bail ps (k ts) := by
  induction ps with
  | nil => exact hk
  | cons p ps ih =>
    refine Opens.cons (a := .dlsym p (o.dlsym p).addr) ?_ (by simp)
    exact opens_ite (fun _ => hb) fun _ => ih

theorem opens_loop {post : List MqttVscpd.Act} (hp : Opens l fun _ => post) :
    Opens l fun ts => workLoopActs l ts ++ post := by
  intro filled h
  cases h with
  | loop ts h =>
    obtain ⟨-, rfl⟩ := hp _ h
    exact ⟨ts, rfl⟩
  | cons ha => exact absurd rfl ha

theorem opens_shutdownActs : Opens l fun _ => shutdownActs := by
  refine Opens.cons ?_ (by simp)
  refine Opens.cons ?_ (by simp)
  refine Opens.cons ?_ (by simp)
  refine Opens.cons ?_ (by simp)
  refine Opens.cons ?_ (by simp)
  refine Opens.cons ?_ (by simp)
  exact opens_nil.cons (by simp)

theorem opens_dlclose : Opens l fun _ => [.dlclose] := opens_nil.cons (by simp)

theorem opens_level1 {it : CDeviceItem} (o : Outcomes) (hl : it.driverLevel = VSCP_DRIVER_LEVEL1) :
    Opens (loopOf it o) fun ts => level1 { o with ticks := ts } := by
  have hloop : Opens (loopOf it o) fun ts =>
      (if (o.dlsym .canalBlockingReceive).addr ≠ 0 then workLoopActs .blocking ts ++ [.quit]
        else workLoopActs .nonBlocking ts) ++ shutdownActs := by
    by_cases hb : (o.dlsym .canalBlockingReceive).addr ≠ 0
    · have hquit : Opens .blocking fun _ => .quit :: shutdownActs := opens_shutdownActs.cons (by simp)
      simpa [loopOf, hl, hb] using opens_loop hquit
    · simpa [loopOf, hl, not_not.mp hb] using opens_loop (opens_shutdownActs (l := .nonBlocking))
  have hserve : Opens (loopOf it o) fun ts => level1Serve { o with ticks := ts } :=
    Opens.cons (opens_ite (fun _ => opens_dlclose) fun _ => hloop.cons (by simp)) (by simp)
  have hopen : Opens (loopOf it o) fun ts => level1Open { o with ticks := ts } :=
    Opens.cons (opens_ite (fun _ => opens_dlclose) fun _ => hserve) (by simp)
  exact opens_lookupAll o _ opens_nil (opens_lookupAll o _ opens_dlclose (opens_lookupAll o _ opens_nil hopen _) _) _

theorem opens_level2 {it : CDeviceItem} (o : Outcomes) (hl : it.driverLevel ≠ VSCP_DRIVER_LEVEL1) :
    Opens (loopOf it o) fun ts => level2 { o with ticks := ts } := by
  have hloop : Opens (loopOf it o) fun ts => workLoopActs .level2 ts ++ shutdownActs := by
    simpa [loopOf, hl] using opens_loop (opens_shutdownActs (l := .level2))
  have hclose : Opens (loopOf it o) fun _ => [.close, .clearHandle, .dlclose] :=
    (opens_dlclose.cons (by simp)).cons (by simp)
  have hserve : Opens (loopOf it o) fun ts => level2Serve { o with ticks := ts } :=
    Opens.cons (opens_ite (fun _ => hclose) fun _ => hloop) (by simp)
  have hopen : Opens (loopOf it o) fun ts => level2Open { o with ticks := ts } :=
    Opens.cons (opens_ite (fun _ => opens_dlclose) fun _ => hserve) (by simp)
  exact opens_lookupAll o _ opens_nil hopen _

/-- The actions of a device thread, filled with passes, are those of one that makes them. -/
theorem opens_deviceThread (it : CDeviceItem) (o : Outcomes) :
    Opens (loopOf it o) fun ts => deviceThread it { o with ticks := ts } := by
  have hlevel : Opens (loopOf it o) fun ts =>
      if it.driverLevel = VSCP_DRIVER_LEVEL1 then level1 { o with ticks := ts }
      else if it.driverLevel = VSCP_DRIVER_LEVEL2 then level2 { o with ticks := ts }
      else [] :=
    opens_ite (opens_level1 o) fun hl => opens_ite (fun _ => opens_level2 o hl) fun _ => opens_nil
  exact Opens.cons (a := .dlopen o.dlopen) (opens_ite (c := (!o.dlopen) = true) (fun _ => opens_nil) fun _ => hlevel)
    (by simp)

/-! ## The device of a driver -/

/-- The device with these actions before its thread, which has been started. Nothing a device
does reads `m_bThreadStarted`. -/
def played (s : MqttVscpd.State κ) (todo : List MqttVscpd.Act) : MqttVscpd.State κ :=
  { s with device := { s.device with item := { s.device.item with bThreadStarted := true } }, todo := todo }

/-- What is left to do of the pass under way. -/
def Phase.Begun (l : Loop) : Phase → List MqttVscpd.Act → Prop
  | .reading, acts => ∃ tick, acts = [.pass l tick]
  | _, acts => acts = []

/-- A driver and its device, whose thread has the passes to come before it. -/
def Driver.Plays (u : Driver κ) (t : MqttVscpd.State κ) : Prop :=
  ∃ begun todo, u.phase.Begun u.loop begun ∧ Fills u.loop u.device.todo todo ∧ t = played u.device (begun ++ todo)

/-- A step of a process, as the device of item `k` takes it. -/
def toldDevice (k : Nat) (s : State κ) : Act κ → List (MqttVscpd.Move κ)
  | .main .stop =>
    match s.main with
    | .stopping i => if i = k then [.stopDriver] else []
    | _ => []
  | .main _ => []
  | .driver j a =>
    if j = k then
      match a with
      | .act | .enter | .read _ => [.thread]
      | .discover _ _ | .send _ | .returns | .fault _ => []
      | .event i ev => [.event i ev]
      | .callback i => [.callback i]
    else []

theorem exec_played (a : MqttVscpd.Act) (s : MqttVscpd.State κ) (todo todo' : List MqttVscpd.Act) :
    a.exec (played s todo).device = (played { s with device := a.exec s.device } todo').device := by
  cases a with
  | dlopen ok => cases ok <;> rfl
  | canalOpen h => by_cases hp : 0 < h <;> simp [MqttVscpd.Act.exec, played, hp]
  | vscpOpen h => by_cases hp : h ≠ 0 <;> simp [MqttVscpd.Act.exec, played, hp]
  | _ => rfl

theorem threadStep_played {s s' : MqttVscpd.State κ} {a : MqttVscpd.Act} {todo : List MqttVscpd.Act}
    (ht : s.todo = a :: todo) (h : threadStep s = some s') (rest : List MqttVscpd.Act) :
    s'.todo = todo ∧ threadStep (played s (a :: rest)) = some (played s' rest) := by
  have hexec := exec_played a s (a :: rest) rest
  unfold threadStep at h ⊢
  rw [ht] at h
  simp only [played] at hexec ⊢
  cases a with
  | testQuit b =>
    simp only at h ⊢
    split at h <;> cases h
    next hq => simp_all [MqttVscpd.Act.exec]
  | lock =>
    simp only at h ⊢
    split at h <;> cases h
    next hm => simp_all [MqttVscpd.Act.exec]
  | _ =>
    cases h
    simp_all

theorem stop_played (lib : Vscphelper) [DecidableEq κ] (s : MqttVscpd.State κ) (todo : List MqttVscpd.Act) :
    MqttVscpd.step lib (played s todo) .stopDriver = some (played (s.modify requestQuit) todo) := by
  cases hen : s.device.item.bEnable <;>
    simp [MqttVscpd.step, played, State.modify, requestQuit, hen]

theorem event_played {lib : Vscphelper} [DecidableEq κ] {s s' : MqttVscpd.State κ} {i : κ} {ev : VscpEvent}
    (h : MqttVscpd.step lib s (.event i ev) = some s') (todo : List MqttVscpd.Act) :
    MqttVscpd.step lib (played s todo) (.event i ev) = some (played s' todo) := by
  simp only [MqttVscpd.step] at h
  split at h <;> cases h
  next hc => simp [MqttVscpd.step, played, hc]

theorem callback_played {lib : Vscphelper} [DecidableEq κ] {s s' : MqttVscpd.State κ} {i : κ}
    (h : MqttVscpd.step lib s (.callback i) = some s') (todo : List MqttVscpd.Act) :
    MqttVscpd.step lib (played s todo) (.callback i) = some (played s' todo) := by
  simp only [MqttVscpd.step] at h
  split at h
  · cases h
  · next ev hpc =>
    split at h <;> cases h
    next hm => simp [MqttVscpd.step, played, hpc, hm]
  · next hpc =>
    cases h
    simp [MqttVscpd.step, played, hpc]
  · next hidle hentered hunlock =>
    cases h
    have hread : ∀ pc, receiveEventCallback lib (played s todo).device.item pc =
        receiveEventCallback lib s.device.item pc := fun pc => by cases pc <;> rfl
    have hcb : (played s todo).cb i = s.cb i := rfl
    simp only [MqttVscpd.step, hcb, hread]
    rfl

theorem thread_pass (s : MqttVscpd.State κ) (l : Loop) (t : Tick) (todo : List MqttVscpd.Act) :
    threadStep (played s (.pass l t :: todo)) = some (played s todo) := rfl

theorem thread_enter {s : MqttVscpd.State κ} (hq : s.device.item.bQuit = false) (todo : List MqttVscpd.Act) :
    threadStep (played s (.testQuit false :: todo)) = some (played s todo) := by
  simp [threadStep, played, MqttVscpd.Act.exec, hq]

/-! ## Step by step, from the end -/

variable [DecidableEq κ] {lib : Vscphelper} {text : Guid → String} {k : Nat} {u u' : Driver κ}
  {d d' : Discovery.Daemon Nat}

theorem plays_driverSteps {a : DriverAct κ} {t' : MqttVscpd.State κ} (h : DriverSteps lib text k u d a u' d')
    (ht : u'.Plays t') (s : State κ) :
    ∃ t, u.Plays t ∧ run (MqttVscpd.step lib) t (toldDevice k s (.driver k a)) = some t' := by
  have hone : ∀ {t t' : MqttVscpd.State κ} {m : MqttVscpd.Move κ}, MqttVscpd.step lib t m = some t' →
      run (MqttVscpd.step lib) t [m] = some t' := fun hm => run_cons_iff.mpr ⟨_, hm, rfl⟩
  obtain ⟨begun, todo, hb, hf, rfl⟩ := ht
  cases h with
  | act s₁ hr hp hs =>
    obtain rfl : begun = [] := by simpa [hp, Phase.Begun] using hb
    obtain ⟨a, rest, htodo, -⟩ := threadStep_cases hs
    obtain ⟨hrest, hplayed⟩ := threadStep_played htodo hs todo
    have hfill : Fills u.loop u.device.todo (a :: todo) := by
      rw [htodo]
      simp only [hrest] at hf
      by_cases ha : a = .testQuit true
      · subst ha
        exact .loop [] hf
      · exact .cons ha hf
    refine ⟨_, ⟨[], a :: todo, by simp [hp, Phase.Begun], hfill, rfl⟩, ?_⟩
    simp only [toldDevice, if_true]
    exact hone hplayed
  | enter hr hp hhead hq =>
    obtain ⟨tick, rfl⟩ := hb
    obtain ⟨rest, htodo⟩ := List.head?_eq_some_iff.mp hhead
    rw [htodo] at hf
    cases hf with
    | cons ha => exact absurd rfl ha
    | @loop ts _ rest' hf =>
      -- The pass to come is the first of those the loop makes.
      have hfill : Fills u.loop u.device.todo (workLoopActs u.loop (tick :: ts) ++ rest') := by
        rw [htodo]
        exact .loop (tick :: ts) hf
      refine ⟨_, ⟨[], _, by simp [hp, Phase.Begun], hfill, rfl⟩, ?_⟩
      simp only [toldDevice, if_true]
      exact hone (thread_enter hq _)
  | passes t hp | reads t ev hp =>
    obtain rfl : begun = [] := hb
    refine ⟨_, ⟨[.pass u.loop t], todo, by simp [hp, Phase.Begun], hf, rfl⟩, ?_⟩
    simp only [toldDevice, if_true]
    exact hone (thread_pass ..)
  | discovers | faults => exact ⟨_, ⟨begun, todo, hb, hf, rfl⟩, by simp [toldDevice]⟩
  | discovered ok date ev _ hp | sends ok ev hp | returns hr hp =>
    exact ⟨_, ⟨begun, todo, by simpa [hp, Phase.Begun] using hb, hf, rfl⟩, by simp [toldDevice]⟩
  | event i ev s₁ hs =>
    refine ⟨played u.device (begun ++ todo), ⟨begun, todo, hb, (device_event hs).2 ▸ hf, rfl⟩, ?_⟩
    simp only [toldDevice, if_true]
    exact hone (event_played hs _)
  | callback i s₁ hs =>
    refine ⟨played u.device (begun ++ todo), ⟨begun, todo, hb, (device_callback hs).2 ▸ hf, rfl⟩, ?_⟩
    simp only [toldDevice, if_true]
    exact hone (callback_played hs _)

/-- The thread of item `k` has been created. -/
structure Created (text : Guid → String) (k : Nat) (s : State κ) : Prop where
  inv : Inv text s
  created : ∀ u, s.drivers[k]? = some u → u.created ≠ 0

omit [DecidableEq κ] in
/-- A thread is created once. -/
theorem Created.not_starting {s : State κ} (hc : Created text k s) (hu : s.drivers[k]? = some u) :
    s.main ≠ .starting k := by
  intro hpc
  have hphase := (hc.inv.shutdown.worker k u.worker (by simp [hu])).phase
  simp only [State.shutdown, hpc] at hphase
  exact hc.created u hu (hphase (Nat.le_refl k))

theorem created_step {s s' : State κ} {a : Act κ} (hc : Created text k s) (h : step lib text s a = some s') :
    Created text k s' := by
  refine ⟨inv_step hc.inv h, fun v hv => ?_⟩
  obtain ⟨u, hu, hat⟩ := step_to h hv
  have hne := hc.created u hu
  cases hat with
  | main hm =>
    cases hm with
    | starts o hpc => exact absurd hpc (hc.not_starting hu)
    | _ => exact hne
  | own hst => cases hst <;> exact hne
  | other => exact hne

omit [DecidableEq κ] in
theorem stop_of_stopping {s s' : State κ} (hpc : s.main = .stopping k) (hu : s.drivers[k]? = some u)
    (h : mainStep s .stop = some s') : s'.drivers[k]? = some u.stop := by
  simp only [mainStep, hpc, hu, Option.some.injEq] at h
  subst h
  simp [hu]

theorem plays_mainStep {s s' : State κ} {m : MainAct} {t' : MqttVscpd.State κ} (hc : Created text k s)
    (h : mainStep s m = some s') (hu' : s'.drivers[k]? = some u') (ht : u'.Plays t') :
    ∃ u t, s.drivers[k]? = some u ∧ u.Plays t ∧
      run (MqttVscpd.step lib) t (toldDevice k s (.main m)) = some t' := by
  obtain ⟨-, -, hdrivers⟩ := mainStep_cases h
  obtain ⟨u, hu, hm⟩ := hdrivers k u' hu'
  obtain ⟨begun, todo, hb, hf, rfl⟩ := ht
  by_cases hst : m = .stop ∧ s.main = .stopping k
  · obtain ⟨rfl, hpc⟩ := hst
    obtain rfl : u.stop = u' := by simpa [stop_of_stopping hpc hu h] using hu'
    refine ⟨u, played u.device (begun ++ todo), hu, ⟨begun, todo, hb, hf, rfl⟩, ?_⟩
    have htold : toldDevice k s (.main .stop) = [.stopDriver] := by simp [toldDevice, hpc]
    rw [htold]
    exact run_cons_iff.mpr ⟨_, stop_played lib u.device _, rfl⟩
  · have htold : toldDevice k s (.main m) = [] := by
      cases m with
      | stop =>
        simp only [toldDevice]
        split
        · next i hpc =>
          have hik : i ≠ k := fun he => hst ⟨rfl, he ▸ hpc⟩
          simp [hik]
        · rfl
      | _ => rfl
    rw [htold]
    cases hm with
    | keeps => exact ⟨u', _, hu, ⟨begun, todo, hb, hf, rfl⟩, rfl⟩
    | starts o hpc => exact absurd hpc (hc.not_starting hu)
    | stops hpc => exact absurd ⟨rfl, hpc⟩ hst
    | joins => exact ⟨u, played u.device (begun ++ todo), hu, ⟨begun, todo, hb, hf, rfl⟩, rfl⟩

theorem plays_step {s s' : State κ} {a : Act κ} {t' : MqttVscpd.State κ} (hc : Created text k s)
    (h : step lib text s a = some s') (ht : ∃ u, s'.drivers[k]? = some u ∧ u.Plays t') :
    ∃ t, (∃ u, s.drivers[k]? = some u ∧ u.Plays t) ∧ run (MqttVscpd.step lib) t (toldDevice k s a) = some t' := by
  obtain ⟨v, hv, ht⟩ := ht
  obtain ⟨u, hu, hat⟩ := step_to h hv
  cases hat with
  | main =>
    obtain ⟨u, t, hu, hp, hr⟩ := plays_mainStep hc (step_main h) hv ht
    exact ⟨t, ⟨u, hu, hp⟩, hr⟩
  | own hst =>
    obtain ⟨t, hp, hr⟩ := plays_driverSteps hst ht s
    exact ⟨t, ⟨u, hu, hp⟩, hr⟩
  | other hjk => exact ⟨t', ⟨v, hu, ht⟩, by simp [toldDevice, hjk]⟩

/-- The start of a thread that `pthread_create` does create. -/
theorem created_start {s s' : State κ} {o : Outcomes} (hi : Inv text s) (hpc : s.main = .starting k)
    (hu : s.drivers[k]? = some u) (hen : u.device.device.item.bEnable = true)
    (h : step lib text s (.main (.start (some o))) = some s') :
    s'.drivers[k]? = some (u.startDriver (some o)) ∧ Created text k s' := by
  have hk : k < s.drivers.length := (List.getElem?_eq_some_iff.mp hu).1
  have hstart : s'.drivers[k]? = some (u.startDriver (some o)) := by
    have hstep := step_main h
    simp only [mainStep, hpc, if_pos hk, Option.some.injEq] at hstep
    subst hstep
    simp [hu]
  refine ⟨hstart, inv_step hi h, fun v hv => ?_⟩
  obtain rfl : u.startDriver (some o) = v := Option.some.inj (hstart.symm.trans hv)
  simp [Driver.startDriver, hen]

omit [DecidableEq κ] in
/-- In every state a driver plays some device. -/
theorem exists_plays (u : Driver κ) : ∃ t, u.Plays t := by
  obtain ⟨begun, hb⟩ : ∃ begun, u.phase.Begun u.loop begun := by
    cases u.phase with
    | reading => exact ⟨_, ⟨false, none, none, false, 0⟩, rfl⟩
    | _ => exact ⟨[], rfl⟩
  exact ⟨_, begun, u.device.todo, hb, .refl .., rfl⟩

omit [DecidableEq κ] in
theorem plays_start {it : CDeviceItem} {o : Outcomes} {t : MqttVscpd.State κ} (hu : u.phase = .between)
    (hl : u.loop = loopOf it o) (hd : u.device = start { it with bThreadStarted := true } { o with ticks := [] })
    (ht : u.Plays t) : ∃ ts, t = start { it with bThreadStarted := true } { o with ticks := ts } := by
  obtain ⟨begun, todo, hb, hf, rfl⟩ := ht
  obtain rfl : begun = [] := by simpa [hu, Phase.Begun] using hb
  rw [hl, hd] at hf
  obtain ⟨ts, rfl⟩ := opens_deviceThread { it with bThreadStarted := true } o todo hf
  exact ⟨ts, by rw [hd]; rfl⟩

/-- **A driver of a process runs as its device does alone.** From the start of its thread on,
what the process does to the item, its driver and its callbacks is a run of the device with
the passes the thread makes, up to the flag that says the thread has been started. -/
theorem driver_refines_device {s₁ s₂ s : State κ} {o : Outcomes} {as : List (Act κ)} (h₁ : Reached lib text s₁)
    (hpc : s₁.main = .starting k) (hu : s₁.drivers[k]? = some u) (hen : u.device.device.item.bEnable = true)
    (h₂ : step lib text s₁ (.main (.start (some o))) = some s₂) (h : run (step lib text) s₂ as = some s) :
    ∃ v ts t, s.drivers[k]? = some v ∧ v.Plays t ∧
      run (MqttVscpd.step lib) (start { u.device.device.item with bThreadStarted := true } { o with ticks := ts })
        (trace (step lib text) (toldDevice k) s₂ as) = some t := by
  obtain ⟨hstart, hc⟩ := created_start h₁.inv hpc hu hen h₂
  have hbetween : u.phase = .between := by
    by_contra hne
    have hphase := (h₁.inv.shutdown.worker k u.worker (by simp [hu])).phase
    simp only [State.shutdown, hpc] at hphase
    exact h₁.inv.created hu hne (hphase (Nat.le_refl k))
  obtain ⟨v, hv⟩ := exists_driver hstart h
  obtain ⟨t, ht⟩ := exists_plays v
  obtain ⟨t₂, ⟨w, hw, hp⟩, hr⟩ := run_backwards (R := fun s t => ∃ u, s.drivers[k]? = some u ∧ u.Plays t)
    (fun _ _ _ => created_step) (fun _ _ _ _ hc hs ht => plays_step hc hs ht) hc h ⟨v, hv, ht⟩
  obtain rfl : u.startDriver (some o) = w := Option.some.inj (hstart.symm.trans hw)
  have hloop : (u.startDriver (some o)).loop = loopOf u.device.device.item o := by simp [Driver.startDriver, hen]
  have hdev : (u.startDriver (some o)).device =
      start { u.device.device.item with bThreadStarted := true } { o with ticks := [] } := by
    simp [Driver.startDriver, hen]
  obtain ⟨ts, rfl⟩ := plays_start (by simp [Driver.startDriver, hen, hbetween]) hloop hdev hp
  exact ⟨v, ts, t, hv, ht, hr⟩

theorem driver_refines_device_oneEvent :
    ∃ (s : State Unit) (v : Driver Unit) (ts : List Tick) (t : MqttVscpd.State Unit),
      run (step canalIdHelper nodeText) oneDriver (oneEvent ++ endsProcess) = some s ∧ s.drivers[0]? = some v ∧
        v.Plays t ∧
          (run (MqttVscpd.step canalIdHelper)
            (start { bEnable := true, driverLevel := VSCP_DRIVER_LEVEL2, bThreadStarted := true }
              { servingOutcomes with ticks := ts }) (List.replicate 10 .thread ++ .stopDriver ::
                List.replicate 8 .thread ++ [.stopDriver])) = some t := by
  obtain ⟨s, hs⟩ := Option.isSome_iff_exists.mp
    (show (run (step canalIdHelper nodeText) oneDriver (oneEvent ++ endsProcess)).isSome = true from rfl)
  obtain ⟨s₂, h₂, h⟩ := run_cons_iff.mp hs
  have hinit : Reached canalIdHelper nodeText oneDriver := Reachable.init initial_oneDriver
  obtain ⟨v, ts, t, hv, hp, hr⟩ := driver_refines_device hinit rfl rfl rfl h₂ h
  have htold : trace (step canalIdHelper nodeText) (toldDevice 0) s₂ (oneEvent ++ endsProcess).tail =
      List.replicate 10 .thread ++ .stopDriver :: List.replicate 8 .thread ++ [.stopDriver] := by
    cases h₂
    rfl
  exact ⟨s, v, ts, t, hs, hv, hp, htold ▸ hr⟩

end MqttVscpd.Process
