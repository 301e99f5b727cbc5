/-
The events of a process on their way from the drivers to the broker. Each device
thread sends what its driver gives it, all of it and in order (`events_in_order`).
And before it sends an event, the event's node is in the database
(`recorded_before_sent`) and announced (`announced_before_sent`), if SQLite and the
broker do what they are asked, whatever the other device threads are doing.
-/
import MqttVscpd.DiscoveryRetry
import MqttVscpd.DiscoveryStore
import MqttVscpd.Level2Frame
import MqttVscpd.ProcessSafety

namespace MqttVscpd.Process

open Transition

variable {κ : Type} [DecidableEq κ] {lib : Vscphelper} {text : Guid → String} {k : Nat} {u u' : Driver κ}
  {d d' : Discovery.Daemon Nat}

/-! ## Nothing lost, nothing twice, nothing out of order -/

/-- The event read and not yet sent. -/
def Phase.pending : Phase → List VscpEvent
  | .announcing ev | .sending ev => [ev]
  | _ => []

/-- What `emit` says of the steps of the threads of item `k`. -/
def ofDriver {B : Type} (k : Nat) (emit : Driver κ → DriverAct κ → List B) (s : State κ) : Act κ → List B
  | .main _ => []
  | .driver j a => if j = k then (s.drivers[k]?).elim [] fun u => emit u a else []

/-- The answer of the driver, if the step is that. -/
def DriverAct.ticks : DriverAct κ → List Tick
  | .read t => [t]
  | .act | .enter | .discover _ _ | .send _ | .returns | .event _ _ | .callback _ | .fault _ => []

/-- What the driver of item `k` has answered. -/
def ticksOf (k : Nat) : State κ → Act κ → List Tick := ofDriver k fun _ a => a.ticks

/-- **One driver of a process**: what `main` keeps of the driver at `k` and of what has been said of
its threads' steps so far, and those steps keep, is kept by every run. -/
theorem run_driver {B : Type} (emit : Driver κ → DriverAct κ → List B) {J : State κ → Prop}
    {P : Driver κ → List B → Prop} (hJ : ∀ s a s', J s → step lib text s a = some s' → J s')
    (hmain : ∀ s m u u' said, J s → s.drivers[k]? = some u → MainDoes s k u m u' → P u said → P u' said)
    (hthread : ∀ s a u u' d' said, J s → s.drivers[k]? = some u → DriverSteps lib text k u s.registry a u' d' →
      P u said → P u' (said ++ emit u a))
    {s s' : State κ} {as : List (Act κ)} (hs : J s) (hP : ∀ u, s.drivers[k]? = some u → P u [])
    (h : run (step lib text) s as = some s') :
    ∀ u, s'.drivers[k]? = some u → P u (trace (step lib text) (ofDriver k emit) s as) := by
  suffices hrun : J s' ∧ ∀ u, s'.drivers[k]? = some u → P u ([] ++ trace (step lib text) (ofDriver k emit) s as) from
    hrun.2
  refine run_trace (I := fun s said => J s ∧ ∀ u, s.drivers[k]? = some u → P u said) (fun s a s' said hI hstep => ?_)
    ⟨hs, hP⟩ h
  obtain ⟨hj, hp⟩ := hI
  refine ⟨hJ s a s' hj hstep, fun v hv => ?_⟩
  obtain ⟨u, hu, hat⟩ := step_to hstep hv
  cases hat with
  | main hm =>
    rw [ofDriver, List.append_nil]
    exact hmain s _ u v said hj hu hm (hp u hu)
  | own hst =>
    rw [ofDriver, if_pos rfl, hu]
    exact hthread s _ u v _ said hj hu hst (hp u hu)
  | other hjk =>
    rw [ofDriver, if_neg hjk, List.append_nil]
    exact hp v hu

theorem published_pass_eq (it : CDeviceItem) (l : Loop) (t : Tick) :
    published (pass lib it l t) = (handed lib it l t).toList := by
  cases l with
  | blocking =>
    cases hmsg : t.msg with
    | none => simp [pass, handed, hmsg, published]
    | some msg =>
      cases hev : blockingEvent lib it msg <;>
        simp [pass, handed, hmsg, hev, passLevel1, published, sendOrReport, sendEvent]
  | nonBlocking =>
    cases hdata : t.dataAvailable with
    | false => simp [pass, handed, hdata, published]
    | true =>
      cases hmsg : t.msg with
      | none => simp [pass, handed, hdata, hmsg, published]
      | some msg =>
        cases hev : nonBlockingEvent lib it msg <;>
          simp [pass, handed, hdata, hmsg, hev, passLevel1, published, sendOrReport, sendEvent]
  | level2 =>
    cases hev : t.event <;> simp [pass, handed, hev, published, sendOrReport, sendEvent]

/-- The two members of an item a pass reads. -/
def SamePass (it it' : CDeviceItem) : Prop := it'.guid = it.guid ∧ it'.translation = it.translation

theorem SamePass.pass {it it' : CDeviceItem} (h : SamePass it it') (l : Loop) (t : Tick) :
    MqttVscpd.pass lib it' l t = MqttVscpd.pass lib it l t := by
  obtain ⟨hg, ht⟩ := h
  cases l <;> simp [MqttVscpd.pass, blockingEvent, nonBlockingEvent, hg, ht]

theorem samePass_exec (a : MqttVscpd.Act) (dev : Device) : SamePass dev.item (a.exec dev).item := by
  cases a with
  | dlopen ok => cases ok <;> exact ⟨rfl, rfl⟩
  | _ => exact ⟨rfl, rfl⟩

omit [DecidableEq κ] in
theorem samePass_mainDoes {s : State κ} {m : MainAct} (h : MainDoes s k u m u') :
    SamePass u.device.device.item u'.device.device.item := by
  cases h with
  | keeps => exact ⟨rfl, rfl⟩
  | starts o =>
    cases hen : u.device.device.item.bEnable <;> cases o <;>
      simp [Driver.startDriver, hen, MqttVscpd.start, SamePass]
  | stops =>
    cases hen : u.device.device.item.bEnable <;> simp [Driver.stop, State.modify, requestQuit, hen, SamePass]
  | joins => exact ⟨rfl, rfl⟩

/-- What the driver's answers so far make the thread publish is sent, or about to be. -/
structure InOrder (lib : Vscphelper) (u : Driver κ) (said : List Tick) : Prop where
  before : u.created = 0 → said = []
  sent : u.sent ++ u.phase.pending = said.flatMap fun t => published (pass lib u.device.device.item u.loop t)

omit [DecidableEq κ] in
theorem InOrder.congr {said : List Tick} (h : InOrder lib u said) (hc : u'.created = u.created)
    (hp : SamePass u.device.device.item u'.device.device.item) (hl : u'.loop = u.loop)
    (hs : u'.sent ++ u'.phase.pending = u.sent ++ u.phase.pending) : InOrder lib u' said := by
  refine ⟨fun h₀ => h.before (hc ▸ h₀), ?_⟩
  rw [hs, h.sent, hl]
  exact congrArg (said.flatMap ·) (funext fun t => by rw [hp.pass])

omit [DecidableEq κ] in
theorem inOrder_mainDoes {s : State κ} {m : MainAct} {said : List Tick} (hi : Shutdown.Inv s.shutdown)
    (hu : s.drivers[k]? = some u) (h : InOrder lib u said) (hm : MainDoes s k u m u') : InOrder lib u' said := by
  have hsame := samePass_mainDoes hm
  cases hm with
  | keeps => exact h
  | starts o hpc =>
    have hphase := (hi.worker k u.worker (by simp [hu])).phase
    simp only [State.shutdown, hpc] at hphase
    have hsaid : said = [] := h.before (hphase (Nat.le_refl k))
    subst hsaid
    -- Nothing has been read, so the loop the thread will run does not matter.
    have hnone : u.sent ++ u.phase.pending = [] := by simpa using h.sent
    refine ⟨fun _ => rfl, ?_⟩
    cases hen : u.device.device.item.bEnable <;> cases o <;> simpa [Driver.startDriver, hen] using hnone
  | stops => exact h.congr rfl hsame rfl rfl
  | joins => exact h.congr rfl hsame rfl rfl

theorem inOrder_driverSteps {a : DriverAct κ} {said : List Tick} (hr : u.phase ≠ .between → u.created ≠ 0)
    (h : InOrder lib u said) (hs : DriverSteps lib text k u d a u' d') :
    InOrder lib u' (said ++ a.ticks) := by
  cases hs with
  | passes t hp hev =>
    refine ⟨fun h₀ => absurd h₀ (hr (by simp [hp])), ?_⟩
    have hsent := h.sent
    simp only [hp, Phase.pending, List.append_nil] at hsent
    rw [List.flatMap_append, ← hsent]
    simp [Phase.pending, published_pass_eq, hev, DriverAct.ticks]
  | reads t ev hp hev =>
    refine ⟨fun h₀ => absurd h₀ (hr (by simp [hp])), ?_⟩
    have hsent := h.sent
    simp only [hp, Phase.pending, List.append_nil] at hsent
    rw [List.flatMap_append, ← hsent]
    simp [Phase.pending, published_pass_eq, hev, DriverAct.ticks]
  | act s₁ hrun hp hs₁ =>
    obtain ⟨a, todo, -, -, rfl⟩ := threadStep_cases hs₁
    rw [DriverAct.ticks, List.append_nil]
    exact h.congr rfl (samePass_exec a _) rfl rfl
  | enter _ hp =>
    rw [DriverAct.ticks, List.append_nil]
    exact h.congr rfl ⟨rfl, rfl⟩ rfl (by simp [hp, Phase.pending])
  | discovers | faults =>
    rw [DriverAct.ticks, List.append_nil]
    exact h
  | discovered ok date ev _ hp =>
    rw [DriverAct.ticks, List.append_nil]
    exact h.congr rfl ⟨rfl, rfl⟩ rfl (by simp [hp, Phase.pending])
  | sends ok ev hp =>
    rw [DriverAct.ticks, List.append_nil]
    exact h.congr rfl ⟨rfl, rfl⟩ rfl (by simp [hp, Phase.pending])
  | returns =>
    rw [DriverAct.ticks, List.append_nil]
    exact h.congr rfl ⟨rfl, rfl⟩ rfl rfl
  | event i ev s₁ hs₁ =>
    rw [DriverAct.ticks, List.append_nil]
    exact h.congr rfl (by simp [(device_event hs₁).1, SamePass]) rfl rfl
  | callback i s₁ hs₁ =>
    rw [DriverAct.ticks, List.append_nil]
    exact h.congr rfl (by simp [(device_callback hs₁).1, SamePass]) rfl rfl

theorem inOrder_run {s₀ s : State κ} {as : List (Act κ)} (h₀ : Initial s₀) (h : run (step lib text) s₀ as = some s)
    (hu : s.drivers[k]? = some u) : InOrder lib u (trace (step lib text) (ticksOf k) s₀ as) := by
  have hstart : ∀ u, s₀.drivers[k]? = some u → InOrder lib u [] := by
    intro u hu
    obtain ⟨items, d, cfg, o, -, -, -, rfl⟩ := h₀
    simp only [List.getElem?_map, Option.map_eq_some_iff] at hu
    obtain ⟨it, -, rfl⟩ := hu
    exact ⟨fun _ => rfl, rfl⟩
  exact run_driver (fun _ a => a.ticks) (J := Inv text) (P := InOrder lib) (fun _ _ _ => inv_step)
    (fun _ _ _ _ _ hi hu hm hin => inOrder_mainDoes hi.shutdown hu hin hm)
    (fun _ _ _ _ _ _ hi hu hst hin => inOrder_driverSteps (hi.created hu) hin hst) (inv_initial h₀) hstart h u hu

/-- **No event is lost, doubled or overtaken** between a driver and the MQTT client: what a
device thread has sent, and the event it has in hand, are what the driver's answers
make its passes publish, in the order of the answers. -/
theorem events_in_order {s₀ s : State κ} {as : List (Act κ)} (h₀ : Initial s₀)
    (h : run (step lib text) s₀ as = some s) (hu : s.drivers[k]? = some u) :
    u.sent ++ u.phase.pending =
      (trace (step lib text) (ticksOf k) s₀ as).flatMap fun t => published (pass lib u.device.device.item u.loop t) :=
  (inOrder_run h₀ h hu).sent

/-- The thread hands its driver's one event on. -/
theorem events_in_order_oneEvent :
    ∃ (s : State Unit) (u : Driver Unit), run (step canalIdHelper nodeText) oneDriver oneEvent = some s ∧
      s.drivers[0]? = some u ∧ u.phase.pending = [] ∧
        u.sent = published (pass canalIdHelper u.device.device.item u.loop eventTick) := by
  have hrun : (run (step canalIdHelper nodeText) oneDriver oneEvent).map
      (fun s => s.drivers.map fun u => u.phase.pending) = some [[]] := rfl
  obtain ⟨s, hs, he⟩ := Option.map_eq_some_iff.mp hrun
  obtain ⟨u, hu, hp⟩ := List.map_eq_singleton_iff.mp he
  have hu₀ : s.drivers[0]? = some u := by simp [hu]
  have horder := events_in_order initial_oneDriver hs hu₀
  have htrace : trace (step canalIdHelper nodeText) (ticksOf 0) oneDriver oneEvent = [eventTick] := rfl
  rw [htrace, hp, List.append_nil] at horder
  exact ⟨s, u, hs, hu₀, hp, by simpa using horder⟩

/-- **What a Level II driver sends is in normal form.** In every run of a process, with any
other threads in it, an event a Level II thread has sent is a UNIX_NS frame with a
timestamp, and but for that is one its driver has returned. -/
theorem level2_sent_normal {s₀ s : State κ} {as : List (Act κ)} (h₀ : Initial s₀)
    (hmask : lib.frameVersionUnixNs &&& lib.frameVersionMask = lib.frameVersionUnixNs)
    (hnow : ∀ t ∈ trace (step lib text) (ticksOf k) s₀ as, t.now ≠ 0)
    (h : run (step lib text) s₀ as = some s) (hu : s.drivers[k]? = some u) (hl : u.loop = .level2) :
    ∀ ev ∈ u.sent, lib.Normal ev ∧
      ∃ t ∈ trace (step lib text) (ticksOf k) s₀ as, ∃ ev₀, t.event = some ev₀ ∧ lib.SameContent ev₀ ev := by
  intro ev hev
  have hmem : ev ∈ u.sent ++ u.phase.pending := List.mem_append_left _ hev
  rw [(inOrder_run h₀ h hu).sent, hl] at hmem
  obtain ⟨t, ht, hpub⟩ := List.mem_flatMap.mp hmem
  rw [published_pass_eq] at hpub
  obtain ⟨ev₀, hev₀, rfl⟩ : ∃ ev₀, t.event = some ev₀ ∧ level2Event lib t.now ev₀ = ev := by
    simpa [handed] using hpub
  exact ⟨level2Event_normal hmask (hnow t ht), t, ht, ev₀, hev₀, level2Event_sameContent hmask⟩

theorem level2_sent_normal_oneEvent :
    ∃ (s : State Unit) (u : Driver Unit), run (step canalIdHelper nodeText) oneDriver oneEvent = some s ∧
      s.drivers[0]? = some u ∧ u.sent.length = 1 ∧ ∀ ev ∈ u.sent, canalIdHelper.Normal ev := by
  have hrun : (run (step canalIdHelper nodeText) oneDriver oneEvent).map
      (fun s => s.drivers.map fun u => (u.loop, u.sent.length)) = some [(.level2, 1)] := rfl
  obtain ⟨s, hs, he⟩ := Option.map_eq_some_iff.mp hrun
  obtain ⟨u, hu, hp⟩ := List.map_eq_singleton_iff.mp he
  obtain ⟨hl, hlen⟩ := Prod.mk.inj hp
  have hu₀ : s.drivers[0]? = some u := by simp [hu]
  have htrace : trace (step canalIdHelper nodeText) (ticksOf 0) oneDriver oneEvent = [eventTick] := rfl
  have hnormal := level2_sent_normal initial_oneDriver (by decide) (by simp [htrace, eventTick]) hs hu₀ hl
  exact ⟨s, u, hs, hu₀, hlen, fun ev hev => (hnormal ev hev).1⟩

/-! ## The node before its events -/

/-- The node has its row, and no call is between its INSERT and its publish. -/
def Settled (d : Discovery.Daemon Nat) (g : String) : Prop := g ∈ d.guids ∧ ¬ d.Publishing g

/-- `init` has opened the database and found, or made, its table. -/
structure Ready (d : Discovery.Daemon Nat) : Prop where
  up : d.up = true
  dbOpen : d.dbOpen = true
  table : d.file.table.isSome

/-- The events a driver's thread is done with in `discovery()`. -/
structure Recorded (text : Guid → String) (d : Discovery.Daemon Nat) (k : Nat) (u : Driver κ) : Prop where
  sent : ∀ ev ∈ u.sent, Settled d (text ev.guid)
  sending : ∀ ev, u.phase = .sending ev → Settled d (text ev.guid)
  unlocking : ∀ ev, u.phase = .announcing ev → d.pc k = .unlocking → Settled d (text ev.guid)

/-- SQLite carries the INSERT out, or finds the GUID there. -/
def Inserts (s : State κ) : Act κ → Prop
  | .driver k (.discover ok _) => ∀ g, s.registry.pc k = .inserting g → ok = true
  | _ => True

/-- The broker takes the announcement. -/
def Announces (s : State κ) : Act κ → Prop
  | .driver k (.discover ok _) => ∀ g date, s.registry.pc k = .publishing g date → ok = true
  | _ => True

theorem Settled.step {g : String} {b : Discovery.Act Nat} (hi : Discovery.Inv d) (h : Settled d g)
    (hs : Discovery.step d b = some d') : Settled d' g := Discovery.barred_step hi h.1 h.2 hs

theorem Ready.step {b : Discovery.Act Nat} {j : Nat} (h : Ready d) (hb : b.thread = some j)
    (hs : Discovery.step d b = some d') : Ready d' := by
  have hns : ∀ cfg o, b ≠ .start cfg o := by
    intro cfg o he
    simp [he, Discovery.Act.thread] at hb
  obtain ⟨-, hup, hdb, -⟩ := Discovery.call_frame hns hs
  refine ⟨hup ▸ h.up, hdb ▸ h.dbOpen, ?_⟩
  cases Discovery.step_cases hs with
  | start cfg o => exact absurd rfl (hns cfg o)
  | inserted _ _ _ _ _ _ _ ht => exact ht
  | _ => exact h.table

/-- A thread about to give the mutex back has left the GUID's row settled. -/
theorem settled_of_unlocking {ev : VscpEvent} {ok : Bool} {date : String} (hi : Discovery.Inv d) (hr : Ready d)
    (hp : (Phase.announcing ev).Place text (d.pc k)) (hok : ∀ g, d.pc k = .inserting g → ok = true)
    (h : Discovery.step d (nextAct d k (text ev.guid) ok date) = some d') (hu : d'.pc k = .unlocking) :
    Settled d' (text ev.guid) := by
  have hi' : Discovery.Inv d' := Discovery.inv_step hi h
  have hnone : ¬ d'.Publishing (text ev.guid) := by
    intro hpub
    obtain ⟨t, date', ht⟩ := hpub
    -- The thread inside is the one about to leave.
    obtain rfl : t = k := hi'.lock.unique (by simp [ht, Discovery.Pc.inside]) (by simp [hu, Discovery.Pc.inside])
    simp [hu] at ht
  refine ⟨?_, hnone⟩
  unfold nextAct at h
  cases hpc : d.pc k <;> rw [hpc] at hp <;> simp only [hpc] at h
  case looking g =>
    obtain rfl : g = text ev.guid := hp
    cases Discovery.step_cases h with
    | known _ g' hpc' hm =>
      obtain rfl : g' = text ev.guid := by simpa [hpc] using hpc'.symm
      obtain ⟨n, hn⟩ := Option.ne_none_iff_exists'.mp hm
      exact hi.map _ n hn
    | unknown _ g' hpc' hm => simp [Discovery.Daemon.goto] at hu
  case inserting g =>
    obtain rfl : g = text ev.guid := hp
    cases Discovery.step_cases h with
    | insertFails _ _ g' _ hpc' hg =>
      obtain rfl : g' = text ev.guid := by simpa [hpc] using hpc'.symm
      exact hg (hok _ hpc) hr.table
    | inserted _ g' _ f hpc' => simp [Discovery.Daemon.goto] at hu
  case recording g =>
    obtain rfl : g = text ev.guid := hp
    cases Discovery.step_cases h with
    | record _ g' hpc' =>
      obtain rfl : g' = text ev.guid := by simpa [hpc] using hpc'.symm
      exact hi.recording k _ hpc
  all_goals
    cases Discovery.step_cases h <;> simp_all [Discovery.Daemon.goto]

/-- With the database open a call ends by giving the mutex back. -/
theorem unlocking_of_idle {ev : VscpEvent} {ok : Bool} {date : String} (hr : Ready d)
    (h : Discovery.step d (nextAct d k (text ev.guid) ok date) = some d') (hidle : d'.pc k = .idle) :
    d.pc k = .unlocking := by
  unfold nextAct at h
  cases hpc : d.pc k <;> simp only [hpc] at h
  case idle =>
    rw [Discovery.step, if_pos ⟨hr.up, hpc⟩] at h
    simp only [hr.dbOpen, if_true, Option.some.injEq] at h
    simp [← h, Discovery.Daemon.goto] at hidle
  all_goals
    cases Discovery.step_cases h <;> simp_all [Discovery.Daemon.goto]

omit [DecidableEq κ] in
/-- What others do in `discovery()` unsettles nothing. -/
theorem Recorded.others {b : Discovery.Act Nat} {j : Nat} (h : Recorded text d k u) (hi : Discovery.Inv d) (hkj : k ≠ j)
    (hb : b.thread = some j) (hs : Discovery.step d b = some d') : Recorded text d' k u where
  sent ev hev := (h.sent ev hev).step hi hs
  sending ev hev := (h.sending ev hev).step hi hs
  unlocking ev hev hpc := (h.unlocking ev hev (Discovery.pc_of_ne hb hkj hs ▸ hpc)).step hi hs

theorem Recorded.driverSteps {a : DriverAct κ} (h : Recorded text d k u) (hi : Discovery.Inv d) (hr : Ready d)
    (hp : u.phase.Place text (d.pc k))
    (hok : ∀ ok date, a = .discover ok date → ∀ g, d.pc k = .inserting g → ok = true)
    (hs : DriverSteps lib text k u d a u' d') : Recorded text d' k u' := by
  cases hs with
  | enter | passes => exact ⟨h.sent, fun ev hev => (by cases hev), fun ev hev => (by cases hev)⟩
  | reads t ev hread =>
    have hidle : d.pc k = .idle := by simpa [hread, Phase.Place] using hp
    refine ⟨h.sent, fun ev hev => (by cases hev), fun ev hev hpc => ?_⟩
    rw [hidle] at hpc
    cases hpc
  | discovers ok date ev _ hann hd hpc =>
    refine ⟨fun e he => (h.sent e he).step hi hd, fun e he => (h.sending e he).step hi hd, fun e he hu => ?_⟩
    obtain rfl : ev = e := by simpa [hann] using he
    exact settled_of_unlocking hi hr (hann ▸ hp) (hok ok date rfl) hd hu
  | discovered ok date ev _ hann hd hpc =>
    refine ⟨fun e he => (h.sent e he).step hi hd, fun e he => ?_, fun e he => (by cases he)⟩
    obtain rfl : ev = e := by simpa using he
    exact (h.unlocking ev hann (unlocking_of_idle hr hd hpc)).step hi hd
  | sends ok ev hsend =>
    refine ⟨fun e he => ?_, fun e he => (by cases he), fun e he => (by cases he)⟩
    rcases List.mem_append.mp he with he | he
    · exact h.sent e he
    · obtain rfl : e = ev := by simpa using he
      exact h.sending e hsend
  | act | returns | event | callback | faults => exact ⟨h.sent, h.sending, h.unlocking⟩

omit [DecidableEq κ] in
theorem Recorded.mainDoes {s : State κ} {m : MainAct} (h : Recorded text d k u) (hm : MainDoes s k u m u') :
    Recorded text d k u' := by
  cases hm with
  | keeps => exact h
  | starts o =>
    cases hen : u.device.device.item.bEnable <;> cases o <;>
      exact ⟨by simpa [Driver.startDriver, hen] using h.sent, by simpa [Driver.startDriver, hen] using h.sending,
        by simpa [Driver.startDriver, hen] using h.unlocking⟩
  | stops | joins => exact ⟨h.sent, h.sending, h.unlocking⟩

/-- The registry is at the driver's step as `discovery()` leaves it. -/
structure AllRecorded (text : Guid → String) (s : State κ) : Prop where
  inv : Inv text s
  ready : Ready s.registry
  recorded : ∀ k u, s.drivers[k]? = some u → Recorded text s.registry k u

omit [DecidableEq κ] in
theorem allRecorded_initial {s : State κ} (h : Initial s) (hdb : s.registry.dbOpen = true)
    (ht : s.registry.file.table.isSome) : AllRecorded text s := by
  refine ⟨inv_initial h, ?_, fun k u hu => ?_⟩
  · obtain ⟨items, d, cfg, o, -, -, hup, rfl⟩ := h
    exact ⟨hup, hdb, ht⟩
  · obtain ⟨items, d, cfg, o, -, -, -, rfl⟩ := h
    simp only [List.getElem?_map, Option.map_eq_some_iff] at hu
    obtain ⟨it, -, rfl⟩ := hu
    exact ⟨fun ev hev => (by cases hev), fun ev hev => (by cases hev), fun ev hev => (by cases hev)⟩

theorem allRecorded_step {s s' : State κ} {a : Act κ} (hr : AllRecorded text s) (hc : Inserts s a)
    (h : step lib text s a = some s') : AllRecorded text s' := by
  obtain ⟨hi, hready, hrec⟩ := hr
  refine ⟨inv_step hi h, ?_, fun k v hv => ?_⟩
  · cases a with
    | main m => exact (mainStep_cases (step_main h)).1 ▸ hready
    | driver j a =>
      obtain ⟨w, w', d', hw, hst, rfl⟩ := step_driver h
      rcases thread_of_registry hst with rfl | ⟨b, hb, hd⟩
      · exact hready
      · exact hready.step hb hd
  · obtain ⟨u, hu, hat⟩ := step_to h hv
    cases hat with
    | main hm hd => exact hd ▸ (hrec k u hu).mainDoes hm
    | own hst hd =>
      rw [hd]
      refine (hrec k u hu).driverSteps hi.called.inv hready (hi.driver k u hu).place (fun ok date ha => ?_) hst
      subst ha
      exact hc
    | other hjk hst hd =>
      rw [hd]
      rcases thread_of_registry hst with rfl | ⟨b, hb, hd⟩
      · exact hrec k v hu
      · exact (hrec k v hu).others hi.called.inv (Ne.symm hjk) hb hd

/-- **A node is in the database before its events are sent**, by whichever device thread
they come, if `init` has opened the database and SQLite carries every INSERT out. -/
theorem recorded_before_sent {s₀ s : State κ} {as : List (Act κ)} (h₀ : Initial s₀) (hdb : s₀.registry.dbOpen = true)
    (ht : s₀.registry.file.table.isSome) (hc : Along (step lib text) Inserts s₀ as)
    (h : run (step lib text) s₀ as = some s) :
    ∀ u ∈ s.drivers, ∀ ev ∈ u.sent, text ev.guid ∈ s.registry.guids := by
  have hall : AllRecorded text s :=
    Along.inv (fun _ _ _ hr hc hs => allRecorded_step hr hc hs) hc (allRecorded_initial h₀ hdb ht) h
  intro u hu ev hev
  obtain ⟨k, hk⟩ := List.mem_iff_getElem?.mp hu
  exact ((hall.recorded k u hk).sent ev hev).1

theorem inserts_oneEvent : ∀ a ∈ oneEvent, ∀ s, Inserts s a := by
  simp [oneEvent, Inserts, or_imp, forall_and]

theorem recorded_before_sent_oneEvent :
    ∃ s : State Unit, run (step canalIdHelper nodeText) oneDriver oneEvent = some s ∧
      s.drivers.map (·.sent.length) = [1] ∧ ∀ u ∈ s.drivers, ∀ ev ∈ u.sent, nodeText ev.guid ∈ s.registry.guids := by
  have hrun : (run (step canalIdHelper nodeText) oneDriver oneEvent).map
      (fun s => s.drivers.map (·.sent.length)) = some [1] := rfl
  obtain ⟨s, hs, hlen⟩ := Option.map_eq_some_iff.mp hrun
  exact ⟨s, hs, hlen, recorded_before_sent initial_oneDriver rfl rfl (along_of_forall inserts_oneEvent _) hs⟩

/-! ### Announced -/

theorem covered_step {s s' : State κ} {a : Act κ} (hi : Inv text s) (hcov : s.registry.Covered) (hc : Announces s a)
    (h : step lib text s a = some s') : s'.registry.Covered := by
  cases a with
  | main m => exact (mainStep_cases (step_main h)).1 ▸ hcov
  | driver j a =>
    obtain ⟨w, w', d', hw, hst, rfl⟩ := step_driver h
    have hnext : ∀ (ok : Bool) (date : String) (ev : VscpEvent), a = .discover ok date →
        Discovery.step s.registry (nextAct s.registry j (text ev.guid) ok date) = some d' → d'.Covered := by
      intro ok date ev ha hd
      subst ha
      refine Discovery.covered_step hi.called.inv hcov ?_ hd
      unfold nextAct
      split
      case h_5 g date' hpc => exact hc g date' hpc
      all_goals trivial
    cases hst with
    | discovers ok date ev _ _ hd => exact hnext ok date ev rfl hd
    | discovered ok date ev _ _ hd => exact hnext ok date ev rfl hd
    | _ => exact hcov

/-- **A node is announced before its events are sent**: in a run in which SQLite carries
every INSERT out and the broker takes every announcement, from a database whose rows
have been announced, the node of each event sent has been announced with success,
or is one `init` has recorded. -/
theorem announced_before_sent {s₀ s : State κ} {as : List (Act κ)} (h₀ : Initial s₀)
    (hdb : s₀.registry.dbOpen = true) (ht : s₀.registry.file.table.isSome) (hcov : s₀.registry.Covered)
    (hc : Along (step lib text) (fun s a => Inserts s a ∧ Announces s a) s₀ as)
    (h : run (step lib text) s₀ as = some s) :
    ∀ u ∈ s.drivers, ∀ ev ∈ u.sent,
      s.registry.Announced (text ev.guid) ∨ s.registry.RecordedByInit (text ev.guid) := by
  have hall : AllRecorded text s ∧ s.registry.Covered :=
    Along.inv (I := fun s => AllRecorded text s ∧ s.registry.Covered)
      (fun _ _ _ hr hc hs => ⟨allRecorded_step hr.1 hc.1 hs, covered_step hr.1.inv hr.2 hc.2 hs⟩) hc
      ⟨allRecorded_initial h₀ hdb ht, hcov⟩ h
  obtain ⟨hrec, hcov⟩ := hall
  intro u hu ev hev
  obtain ⟨k, hk⟩ := List.mem_iff_getElem?.mp hu
  obtain ⟨hg, hnone⟩ := (hrec.recorded k u hk).sent ev hev
  obtain ⟨r, hr, hguid⟩ := List.mem_map.mp hg
  by_cases hn : r.name = "local-vscp-daemon"
  · exact .inr ⟨r, hr, hguid, hn⟩
  · have hrow := hcov r hr hn
    rw [hguid] at hrow
    exact .inl (hrow.resolve_right hnone)

theorem covered_oneDriver : oneDriver.registry.Covered := by
  intro r hr hn
  have hrows : oneDriver.registry.rows = [ownRow Discovery.localCfg Discovery.initSucceeds] := rfl
  rw [hrows, List.mem_singleton] at hr
  exact absurd (by rw [hr]; rfl) hn

theorem announced_before_sent_oneEvent :
    ∃ s : State Unit, run (step canalIdHelper nodeText) oneDriver oneEvent = some s ∧
      ∀ u ∈ s.drivers, ∀ ev ∈ u.sent,
        s.registry.Announced (nodeText ev.guid) ∨ s.registry.RecordedByInit (nodeText ev.guid) := by
  have hrun : (run (step canalIdHelper nodeText) oneDriver oneEvent).isSome = true := rfl
  obtain ⟨s, hs⟩ := Option.isSome_iff_exists.mp hrun
  have hans : ∀ a ∈ oneEvent, ∀ s, Inserts s a ∧ Announces s a := by
    refine fun a ha s => ⟨inserts_oneEvent a ha s, ?_⟩
    revert a s
    simp [oneEvent, Announces, or_imp, forall_and]
  exact ⟨s, hs, announced_before_sent initial_oneDriver rfl rfl covered_oneDriver (along_of_forall hans _) hs⟩

end MqttVscpd.Process
