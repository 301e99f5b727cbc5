/-
A paused driver: the threads of one device beside a record of what they pass on
while it is paused. An iteration of a work loop, or an execution of
`receive_event_callback`, is a paused one when `m_bActive` is false as it begins.
No loop and no callback reads `m_bActive`, so what silences a paused driver is
the want of traffic, not the pause.
-/
import MqttVscpd.DeviceSafety
import MqttVscpd.Translation

namespace MqttVscpd

open Transition

/-- An event handed on. -/
inductive Passed where
  /-- To `m_mqttClient.send`. -/
  | mqtt (ev : VscpEvent)
  /-- To the driver, by its entry point `p`. -/
  | driver (p : Proc)
  deriving DecidableEq

/-- What is on record of a device's threads. -/
structure Watch (ι : Type) where
  /-- The loop iteration under way began with `m_bActive` false. -/
  iteration : Bool := false
  /-- The callback began with `m_bActive` false. -/
  callback : ι → Bool := fun _ => false
  /-- What paused iterations and paused callbacks have handed on, first to last. -/
  passed : List Passed := []

/-- The driver call a callback has got into. -/
def CallbackPc.passing : CallbackPc → List Passed
  | .inCall p _ _ => [.driver p]
  | _ => []

variable {ι : Type} [DecidableEq ι]

/-- The record after a move. An iteration begins when the loop condition finds
`m_bQuit` clear, a callback when the MQTT client calls it. -/
def note (lib : Vscphelper) (s : State ι) : Move ι → Watch ι → Watch ι
  | .thread, w =>
    match s.todo with
    | .testQuit false :: _ => { w with iteration := !s.device.item.bActive }
    | .pass l t :: _ =>
      if w.iteration then
        { w with passed := w.passed ++ (published (pass lib s.device.item l t)).map .mqtt }
      else w
    | _ => w
  | .event i _, w => { w with callback := Function.update w.callback i (!s.device.item.bActive) }
  | .callback i, w =>
    if w.callback i then
      { w with passed := w.passed ++ (receiveEventCallback lib s.device.item (s.cb i)).passing }
    else w
  | _, w => w

/-- A device's threads with their record. -/
def watchedStep (lib : Vscphelper) : State ι × Watch ι → Move ι → Option (State ι × Watch ι) :=
  noted (step lib) (note lib)

/-- An item whose `deviceThread` starts, with nothing on record. -/
def startWatched (it : CDeviceItem) (o : Outcomes) : State ι × Watch ι := (start it o, {})

/-- The record disturbs nothing: every run of the device is on record. -/
theorem run_watched (lib : Vscphelper) (it : CDeviceItem) (o : Outcomes) (ms : List (Move ι)) :
    (run (watchedStep lib) (startWatched it o) ms).map (·.1) = run (step lib) (start it o) ms :=
  run_noted _ ms

/-! ## Traffic -/

/-- The event a pass finds at the driver: the one the driver has, or the one made
of the driver's message. -/
def drawn (lib : Vscphelper) (it : CDeviceItem) : Loop → Tick → Option VscpEvent
  | .level2, t => t.event
  | l, t => (level1Read l t).bind fun msg => level1Original lib it msg l

/-- A step that leaves a pause undisturbed: a paused iteration finds no event at
the driver, and a paused callback finds, at the level tests, a Level I item and an
event that is no CANAL message, or an item of neither level. -/
def Quiet (lib : Vscphelper) (p : State ι × Watch ι) : Move ι → Prop
  | .thread => ∀ l t todo, p.1.todo = .pass l t :: todo → p.2.iteration = true →
      drawn lib p.1.device.item l t = none
  | .callback i => p.2.callback i = true →
      (∀ ev, p.1.cb i = .testLevel1 ev → p.1.device.item.driverLevel = VSCP_DRIVER_LEVEL1 →
        lib.convertEventToCanal ev = none) ∧
      ∀ ev, p.1.cb i = .testLevel2 ev → p.1.device.item.driverLevel ≠ VSCP_DRIVER_LEVEL2
  | _ => True

/-- Past the level test with an event the driver will get. -/
def CallbackPc.Committed (lib : Vscphelper) : CallbackPc → Prop
  | .convert ev => lib.convertEventToCanal ev ≠ none
  | .selectSend => True
  | _ => False

/-- Nothing has been handed on, and no paused callback is on its way to the driver. -/
structure Silent (lib : Vscphelper) (p : State ι × Watch ι) : Prop where
  passed : p.2.passed = []
  pending : ∀ i, p.2.callback i = true → ¬ (p.1.cb i).Committed lib

variable {lib : Vscphelper} {it : CDeviceItem} {o : Outcomes}

/-- A pass publishes the event it finds at the driver, translated or completed. -/
theorem published_of_drawn {l : Loop} {t : Tick} {ev : VscpEvent} (h : drawn lib it l t = some ev) :
    ∃ pub, published (pass lib it l t) = [pub] := by
  cases l with
  | blocking | nonBlocking =>
    obtain ⟨msg, hmsg, hev⟩ := Option.bind_eq_some_iff.mp h
    exact ⟨_, published_pass hmsg hev⟩
  | level2 =>
    have hevent : t.event = some ev := h
    rw [pass, hevent]
    exact ⟨level2Event lib t.now ev, rfl⟩

/-- With no event at the driver a pass publishes nothing. -/
theorem published_of_not_drawn {l : Loop} {t : Tick} (h : drawn lib it l t = none) :
    published (pass lib it l t) = [] := by
  cases l with
  | blocking =>
    simp only [drawn, level1Read] at h
    cases hmsg : t.msg with
    | none => simp [pass, hmsg, published]
    | some msg =>
      rw [hmsg, Option.bind_some] at h
      simp only [pass, hmsg, blockingEvent_eq, h]
      rfl
  | nonBlocking =>
    simp only [drawn, level1Read] at h
    cases hdata : t.dataAvailable with
    | false => simp [pass, hdata, published]
    | true =>
      cases hmsg : t.msg with
      | none => simp [pass, hdata, hmsg, published]
      | some msg =>
        rw [hdata, if_pos rfl, hmsg, Option.bind_some] at h
        simp only [pass, hdata, if_true, hmsg, nonBlockingEvent_eq, h]
        rfl
  | level2 =>
    have hevent : t.event = none := h
    rw [pass, hevent]
    rfl

theorem published_eq_nil_iff {l : Loop} {t : Tick} :
    published (pass lib it l t) = [] ↔ drawn lib it l t = none := by
  constructor
  · intro h
    by_contra hdrawn
    obtain ⟨ev, hev⟩ := Option.ne_none_iff_exists'.mp hdrawn
    obtain ⟨pub, hpub⟩ := published_of_drawn hev
    rw [h] at hpub
    cases hpub
  · exact published_of_not_drawn

/-! ## What a move adds -/

theorem note_thread_callback (lib : Vscphelper) (s : State ι) (w : Watch ι) :
    (note lib s .thread w).callback = w.callback := by
  simp only [note]
  split
  · rfl
  · split <;> rfl
  · rfl

theorem note_thread_passed (lib : Vscphelper) (s : State ι) (w : Watch ι) :
    (note lib s .thread w).passed = [] ↔ w.passed = [] ∧
      ∀ l t todo, s.todo = .pass l t :: todo → w.iteration = true → drawn lib s.device.item l t = none := by
  simp only [note]
  split
  · next htodo => simp [htodo]
  · next l t todo htodo =>
    by_cases hw : w.iteration = true
    · rw [if_pos hw, List.append_eq_nil_iff, List.map_eq_nil_iff, published_eq_nil_iff]
      simp [htodo, hw]
    · simp [hw]
  · next htest hpass =>
    refine ⟨fun h => ⟨h, fun l t todo htodo => absurd htodo (hpass l t todo)⟩, fun h => h.1⟩

/-- A callback hands nothing on and commits itself to nothing, unless it was
committed or its level test is passed by an event the driver will get. -/
theorem uncommitted_iff (lib : Vscphelper) (it : CDeviceItem) (pc : CallbackPc) :
    (receiveEventCallback lib it pc).passing = [] ∧ ¬ (receiveEventCallback lib it pc).Committed lib ↔
      ¬ pc.Committed lib ∧
        (∀ ev, pc = .testLevel1 ev → it.driverLevel = VSCP_DRIVER_LEVEL1 → lib.convertEventToCanal ev = none) ∧
        ∀ ev, pc = .testLevel2 ev → it.driverLevel ≠ VSCP_DRIVER_LEVEL2 := by
  cases pc with
  | testLevel1 ev =>
    by_cases hl : it.driverLevel = VSCP_DRIVER_LEVEL1 <;>
      simp [receiveEventCallback, hl, CallbackPc.passing, CallbackPc.Committed]
  | testLevel2 ev =>
    by_cases hl : it.driverLevel = VSCP_DRIVER_LEVEL2 <;>
      simp [receiveEventCallback, hl, CallbackPc.passing, CallbackPc.Committed]
  | convert ev =>
    cases hconv : lib.convertEventToCanal ev <;>
      simp [receiveEventCallback, hconv, CallbackPc.passing, CallbackPc.Committed]
  | selectSend =>
    by_cases hp : it.proc .canalBlockingSend ≠ 0 <;>
      simp [receiveEventCallback, hp, CallbackPc.passing, CallbackPc.Committed]
  | testQuit ev =>
    cases hq : it.bQuit <;> simp [receiveEventCallback, hq, CallbackPc.passing, CallbackPc.Committed]
  | testHandle ev =>
    by_cases hz : it.openHandle = 0 <;>
      simp [receiveEventCallback, hz, CallbackPc.passing, CallbackPc.Committed]
  | idle | entered | inCall | invalidLevel | unlocking =>
    simp [receiveEventCallback, CallbackPc.passing, CallbackPc.Committed]

/-- A callback's move changes its own place only; taking and leaving the mutex
commits it to nothing. -/
theorem callback_cases {s s' : State ι} {i : ι} (h : step lib s (.callback i) = some s') :
    ∃ pc, s'.cb = Function.update s.cb i pc ∧
      (pc.Committed lib ↔ (receiveEventCallback lib s.device.item (s.cb i)).Committed lib) := by
  simp only [step] at h
  split at h
  · cases h
  · next ev hpc =>
    split at h
    · cases h
      exact ⟨_, rfl, by rw [hpc]; rfl⟩
    · cases h
  · next hpc =>
    cases h
    exact ⟨_, rfl, by rw [hpc]; rfl⟩
  · cases h
    exact ⟨_, rfl, Iff.rfl⟩

/-! ## Runs -/

theorem silent_thread {p q : State ι × Watch ι} (h : watchedStep lib p .thread = some q) :
    Silent lib q ↔ Silent lib p ∧ Quiet lib p .thread := by
  obtain ⟨hstep, hnote⟩ := noted_iff.mp h
  obtain ⟨a, todo, htodo, -, hs⟩ := threadStep_cases hstep
  have hcb : q.1.cb = p.1.cb := by rw [hs]
  have hcallback : q.2.callback = p.2.callback := by rw [hnote, note_thread_callback]
  have hpassed := note_thread_passed lib p.1 p.2
  rw [← hnote] at hpassed
  constructor
  · intro hc
    obtain ⟨hp, hquiet⟩ := hpassed.mp hc.passed
    exact ⟨⟨hp, fun i hi => hcb ▸ hc.pending i (hcallback ▸ hi)⟩, hquiet⟩
  · intro hc
    obtain ⟨hc, hquiet⟩ := hc
    exact ⟨hpassed.mpr ⟨hc.passed, hquiet⟩, fun i hi => hcb ▸ hc.pending i (hcallback ▸ hi)⟩

/-- A move of callback `i` matters to its own place only. -/
theorem silent_at {p q : State ι × Watch ι} {C : Prop} (i : ι) (hcb : ∀ j, j ≠ i → q.1.cb j = p.1.cb j)
    (hcallback : ∀ j, j ≠ i → q.2.callback j = p.2.callback j)
    (hi : (q.2.passed = [] ∧ (q.2.callback i = true → ¬ (q.1.cb i).Committed lib)) ↔
      (p.2.passed = [] ∧ (p.2.callback i = true → ¬ (p.1.cb i).Committed lib)) ∧ C) :
    Silent lib q ↔ Silent lib p ∧ C := by
  constructor
  · intro hc
    obtain ⟨⟨hpassed, hpend⟩, hC⟩ := hi.mp ⟨hc.passed, hc.pending i⟩
    refine ⟨⟨hpassed, fun j hj => ?_⟩, hC⟩
    by_cases hji : j = i
    · exact hji ▸ hpend (hji ▸ hj)
    · exact hcb j hji ▸ hc.pending j (hcallback j hji ▸ hj)
  · intro hc
    obtain ⟨hc, hC⟩ := hc
    obtain ⟨hpassed, hpend⟩ := hi.mpr ⟨⟨hc.passed, hc.pending i⟩, hC⟩
    refine ⟨hpassed, fun j hj => ?_⟩
    by_cases hji : j = i
    · exact hji ▸ hpend (hji ▸ hj)
    · exact hcb j hji ▸ hc.pending j (hcallback j hji ▸ hj)

theorem silent_callback {p q : State ι × Watch ι} {i : ι} (h : watchedStep lib p (.callback i) = some q) :
    Silent lib q ↔ Silent lib p ∧ Quiet lib p (.callback i) := by
  obtain ⟨hstep, hnote⟩ := noted_iff.mp h
  obtain ⟨pc, hcb, hpc⟩ := callback_cases hstep
  have hself : q.1.cb i = pc := by rw [hcb, Function.update_self]
  have hcallback : q.2.callback = p.2.callback := by
    rw [hnote, note]
    split <;> rfl
  refine silent_at i (fun j hj => by rw [hcb, Function.update_of_ne hj]) (fun j _ => by rw [hcallback]) ?_
  rw [hcallback, hself, hpc]
  by_cases hi : p.2.callback i = true
  · have hpassed : q.2.passed =
        p.2.passed ++ (receiveEventCallback lib p.1.device.item (p.1.cb i)).passing := by
      rw [hnote, note, if_pos hi]
    have huncommitted := uncommitted_iff lib p.1.device.item (p.1.cb i)
    simp only [hpassed, List.append_eq_nil_iff, Quiet, hi, true_imp_iff, and_assoc, huncommitted]
  · have hpassed : q.2.passed = p.2.passed := by rw [hnote, note, if_neg hi]
    simp [hpassed, Quiet, hi]

theorem silent_event {p q : State ι × Watch ι} {i : ι} {ev : VscpEvent}
    (h : watchedStep lib p (.event i ev) = some q) : Silent lib q ↔ Silent lib p ∧ True := by
  obtain ⟨hstep, hnote⟩ := noted_iff.mp h
  obtain ⟨⟨-, hidle⟩, heq⟩ : (p.1.connected ∧ p.1.cb i = .idle) ∧
      { p.1 with cb := Function.update p.1.cb i (.entered ev) } = q.1 := by
    simpa only [step, Option.ite_none_right_eq_some, Option.some.injEq] using hstep
  have hcb : q.1.cb = Function.update p.1.cb i (.entered ev) := by rw [← heq]
  have hcallback : q.2.callback = Function.update p.2.callback i (!p.1.device.item.bActive) := by
    rw [hnote, note]
  have hpassed : q.2.passed = p.2.passed := by rw [hnote, note]
  refine silent_at i (fun j hj => by rw [hcb, Function.update_of_ne hj])
    (fun j hj => by rw [hcallback, Function.update_of_ne hj]) ?_
  simp [hpassed, hcb, hidle, CallbackPc.Committed]

/-- A device is silent after a step when it was before and the step is quiet. -/
theorem silent_step_iff {p q : State ι × Watch ι} {m : Move ι} (h : watchedStep lib p m = some q) :
    Silent lib q ↔ Silent lib p ∧ Quiet lib p m := by
  cases m with
  | thread => exact silent_thread h
  | callback i => exact silent_callback h
  | event i ev => exact silent_event h
  | stopDriver | pauseDriver | resumeDriver =>
    cases h
    exact ⟨fun hc => ⟨⟨hc.passed, hc.pending⟩, trivial⟩, fun hc => ⟨hc.1.passed, hc.1.pending⟩⟩

/-- **When a paused driver is inactive**: in every run of the device's threads whose
steps leave the pauses undisturbed, no paused iteration and no paused callback has
handed an event to the MQTT client or to the driver; and in no other run, its
callbacks having returned. -/
theorem paused_inactive_iff {ms : List (Move ι)} {p : State ι × Watch ι}
    (h : run (watchedStep lib) (startWatched it o) ms = some p) :
    (Along (watchedStep lib) (Quiet lib) (startWatched it o) ms → p.2.passed = []) ∧
      ((∀ i, p.1.cb i = .idle) → p.2.passed = [] →
        Along (watchedStep lib) (Quiet lib) (startWatched it o) ms) := by
  have hiff := run_iff_along (fun _ _ _ => silent_step_iff) h
  constructor
  · intro hquiet
    exact (hiff.mpr ⟨⟨rfl, fun _ h => Bool.noConfusion h⟩, hquiet⟩).passed
  · intro hidle hpassed
    exact (hiff.mp ⟨hpassed, fun i _ => by rw [hidle i]; exact id⟩).2

/-! ## The flag steers nothing -/

/-- The device with its `m_bActive` set to `b`. -/
def State.setActive (s : State ι) (b : Bool) : State ι := s.modify fun it => { it with bActive := b }

/-- `pauseDriver` or `resumeDriver`. -/
def Move.pauses : Move ι → Bool
  | .pauseDriver | .resumeDriver => true
  | _ => false

theorem exec_setActive (a : Act) (d : Device) (b : Bool) :
    a.exec { d with item := { d.item with bActive := b } } =
      { a.exec d with item := { (a.exec d).item with bActive := b } } := by
  cases a with
  | dlopen ok => cases ok <;> rfl
  | _ => rfl

omit [DecidableEq ι] in
theorem threadStep_setActive (s : State ι) (b : Bool) :
    threadStep (s.setActive b) = (threadStep s).map (·.setActive b) := by
  obtain ⟨d, todo, mutex, connected, cb⟩ := s
  cases todo with
  | nil => rfl
  | cons a todo =>
    simp only [threadStep, State.setActive, State.modify, exec_setActive]
    cases a with
    | testQuit q => by_cases hq : d.item.bQuit = q <;> simp [hq]
    | lock => by_cases hm : mutex = none <;> simp [hm]
    | _ => rfl

theorem step_setActive (s : State ι) (b : Bool) {m : Move ι} (hm : m.pauses = false) :
    step lib (s.setActive b) m = (step lib s m).map (·.setActive b) := by
  cases m with
  | pauseDriver | resumeDriver => cases hm
  | thread => exact threadStep_setActive s b
  | stopDriver =>
    by_cases he : s.device.item.bEnable = true <;>
      simp [step, State.setActive, State.modify, requestQuit, he]
  | event i ev =>
    obtain ⟨d, todo, mutex, connected, cb⟩ := s
    by_cases hc : connected ∧ cb i = .idle <;> simp [step, State.setActive, State.modify, hc]
  | callback i =>
    obtain ⟨d, todo, mutex, connected, cb⟩ := s
    simp only [step, State.setActive, State.modify]
    cases hpc : cb i with
    | entered ev => by_cases hmutex : mutex = none <;> simp [hmutex]
    | _ => rfl

/-- What a run leads to is what the run without its pauses leads to, but for the flag. -/
theorem run_unpaused (s : State ι) (b : Bool) (ms : List (Move ι)) :
    run (step lib) (s.setActive b) (ms.filter fun m => !m.pauses) =
      (run (step lib) s ms).map (·.setActive b) := by
  induction ms generalizing s with
  | nil => rfl
  | cons m ms ih =>
    cases hm : m.pauses with
    | true =>
      rw [List.filter_cons_of_neg (by simp [hm])]
      cases m with
      | pauseDriver => exact ih (s.modify pauseDriver)
      | resumeDriver => exact ih (s.modify resumeDriver)
      | _ => cases hm
    | false =>
      rw [List.filter_cons_of_pos (by simp [hm]), run, run, step_setActive s b hm]
      cases step lib s m with
      | none => rfl
      | some s' => exact ih s'

/-! ## Two paused drivers -/

def pausedItem (level : UInt8) : CDeviceItem := { driverLevel := level, bActive := false }

/-- As `servingOutcomes`, with one pass. -/
def onePass (t : Tick) : Outcomes := { servingOutcomes with ticks := [t] }

def emptyTick : Tick := ⟨false, none, none, true, 1⟩

/-- A message from a Level I driver, an event from a Level II driver. -/
def busyTick : Tick := ⟨true, some heartbeatMsg, some VscpEvent.zero, true, 1⟩

/-- `n` steps of the device thread, then a callback of `k` steps. -/
def threadThenCallback (n k : Nat) : List (Move Unit) :=
  List.replicate n .thread ++ .event () VscpEvent.zero :: List.replicate k (.callback ())

/-- Paused from the start, a Level I and a Level II driver have each published the event
of the first iteration, and been given the event of the first callback. -/
theorem not_paused_inactive :
    (∃ ev, (run (watchedStep canalIdHelper) (startWatched (pausedItem 1) (onePass busyTick))
      (threadThenCallback 22 8)).map (·.2.passed) = some [.mqtt ev, .driver .canalBlockingSend]) ∧
    ∃ ev, (run (watchedStep canalIdHelper) (startWatched (pausedItem 2) (onePass busyTick))
      (threadThenCallback 10 7)).map (·.2.passed) = some [.mqtt ev, .driver .vscpWrite] :=
  ⟨⟨_, rfl⟩, ⟨_, rfl⟩⟩

/-- The driver has nothing while it is paused, and a message after it has been resumed. -/
def emptyThenBusy : Outcomes := { servingOutcomes with ticks := [emptyTick, busyTick] }

/-- The first iteration is a paused one, the second is not; then an event is given to the driver. -/
def resumedUnderTraffic : List (Move Unit) :=
  List.replicate 22 .thread ++ .resumeDriver :: List.replicate 2 .thread ++
    .event () VscpEvent.zero :: List.replicate 8 (.callback ())

theorem paused_inactive_resumed :
    ∃ p, run (watchedStep canalIdHelper) (startWatched (pausedItem 1) emptyThenBusy) resumedUnderTraffic = some p ∧
      p.1.todo.length = 9 ∧ p.1.cb () = .idle ∧ p.2.passed = [] ∧
        Along (watchedStep canalIdHelper) (Quiet canalIdHelper) (startWatched (pausedItem 1) emptyThenBusy)
          resumedUnderTraffic :=
  ⟨_, rfl, rfl, rfl, rfl, (paused_inactive_iff rfl).2 (fun _ => rfl) rfl⟩

end MqttVscpd
