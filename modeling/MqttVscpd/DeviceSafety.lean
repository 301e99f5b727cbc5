/-
The invariant of a device and its threads, and what follows: a callback inside
a driver call is inside an open driver of a loaded library (`callback_in_open_driver`).
The mutex alone does not give this: it is `m_bQuit`, set before the device thread
locks, that keeps a late callback from getting past its guard.
-/
import MqttVscpd.DeviceSystem
import MqttVscpd.Session

namespace MqttVscpd

open Transition

variable {ι : Type}

/-- The device thread owns the mutex. -/
def Stage.inside : Stage → Bool
  | .closing | .closed | .cleared => true
  | _ => false

/-- Callbacks may be past their guard. -/
def Stage.open : Stage → Bool
  | .serving | .quitting => true
  | _ => false

/-- What holds of the device at a stage. -/
def Stage.Holds (g : Stage) (s : State ι) : Prop :=
  match g with
  | .fresh | .unconnected => s.connected = false
  | .loaded => s.connected = false ∧ Loaded s.device.calls
  | .opened => s.connected = false ∧ Loaded s.device.calls ∧ IsOpen s.device.item.openHandle s.device.calls
  | .serving => Loaded s.device.calls ∧ IsOpen s.device.item.openHandle s.device.calls
  | .quitting => (Loaded s.device.calls ∧ IsOpen s.device.item.openHandle s.device.calls) ∧
    s.device.item.bQuit = true
  | .closing | .closed | .cleared | .released => s.device.item.bQuit = true
  | .over => s.device.item.bQuit = true ∨ s.connected = false

/-- Who holds the mutex: the device thread by its stage, a callback by its pc. -/
def holder (g : Stage) (cb : ι → CallbackPc) : Option ι → Bool
  | none => g.inside
  | some i => (cb i).inside

/-- The invariant, at the stage the device thread has reached. -/
structure InvAt (g : Stage) (s : State ι) : Prop where
  follows : Follows g s.todo
  holds : g.Holds s
  lock : Lock.Excl (· = true) s.mutex (holder g s.cb)
  guarded : ∀ i, (s.cb i).guarded = true → g.open = true
  call : ∀ i p a h, s.cb i = .inCall p a h → h = s.device.item.openHandle
  early : s.connected = false → ∀ i, s.cb i = .idle

def Inv (s : State ι) : Prop := ∃ g, InvAt g s

theorem invAt_start (it : CDeviceItem) (o : Outcomes) : InvAt .fresh (start it o : State ι) where
  follows := deviceThread_follows it o
  holds := rfl
  lock := Lock.excl_idle fun t => by cases t <;> simp [holder, start, Stage.inside, CallbackPc.inside]
  guarded := fun i h => by simp [start, CallbackPc.guarded] at h
  call := fun i p a h hc => by simp [start] at hc
  early := fun _ _ => rfl

theorem inv_start (it : CDeviceItem) (o : Outcomes) : Inv (start it o : State ι) := ⟨.fresh, invAt_start it o⟩

/-! ## Device thread steps -/

/-- `connect()` succeeds in this action. -/
def Act.connects : Act → Bool
  | .connect ok => ok
  | _ => false

/-- The owner of the mutex after an action of the device thread. -/
def Act.owner : Act → Option (Option ι) → Option (Option ι)
  | .lock, _ => some none
  | .unlock, _ => none
  | _, owner => owner

/-- All that a step of the device thread does. -/
theorem threadStep_cases {s s' : State ι} (h : threadStep s = some s') :
    ∃ a todo, s.todo = a :: todo ∧ (a = .lock → s.mutex = none) ∧
      s' = { s with
        device := a.exec s.device, todo := todo, mutex := a.owner s.mutex, connected := s.connected || a.connects } := by
  unfold threadStep at h
  split at h
  · cases h
  · next a todo htodo =>
    refine ⟨a, todo, htodo, ?_⟩
    cases a with
    | testQuit b =>
      simp only at h
      split at h
      · cases h; simp [Act.owner, Act.connects]
      · cases h
    | lock =>
      simp only at h
      split at h
      · next hm => cases h; exact ⟨fun _ => hm, by simp [Act.owner, Act.connects]⟩
      · cases h
    | _ => cases h; simp [Act.owner, Act.connects]

/-- An action leads from what holds at its stage to what holds at the next. -/
theorem holds_exec {g g' : Stage} {a : Act} {s : State ι} (hn : g.next a = some g') (hs : g.Holds s)
    {s' : State ι} (hd : s'.device = a.exec s.device) (hc : s'.connected = (s.connected || a.connects)) :
    g'.Holds s' := by
  cases g <;> cases a <;> simp only [Stage.next, reduceCtorEq, Option.some.injEq] at hn <;>
    simp only [Stage.Holds] at hs
  case fresh.dlopen ok =>
    cases ok <;> subst hn <;> simp [Stage.Holds, hd, hc, hs, Act.exec, Act.connects, Loaded]
  case loaded.canalOpen h =>
    by_cases hp : 0 < h
    · rw [if_pos hp] at hn
      subst hn
      simp [Stage.Holds, hd, hc, hs, Act.exec, Act.connects, hp, Loaded, IsOpen]
    · rw [if_neg hp] at hn
      subst hn
      simp [Stage.Holds, hd, hc, hs, Act.exec, Act.connects, hp]
  case loaded.vscpOpen h =>
    by_cases hz : h ≠ 0
    · rw [if_pos hz] at hn
      subst hn
      simp [Stage.Holds, hd, hc, hs, Act.exec, Act.connects, hz, Loaded, IsOpen]
    · rw [if_neg hz] at hn
      subst hn
      simp [Stage.Holds, hd, hc, hs, Act.exec, Act.connects, hz]
  case opened.connect ok =>
    cases ok <;> subst hn <;> simp [Stage.Holds, hd, hc, hs, Act.exec, Act.connects]
  all_goals
    subst hn
    simp [Stage.Holds, hd, hc, hs, Act.exec, Act.connects, CDeviceItem.setProc]

/-- The device thread's side of the mutex changes by locking and unlocking only. -/
theorem next_inside {g g' : Stage} {a : Act} (h : g.next a = some g') :
    a = .lock ∧ g'.inside = true ∨ a = .unlock ∧ g.inside = true ∧ g'.inside = false ∨
      a ≠ .lock ∧ a ≠ .unlock ∧ g'.inside = g.inside := by
  cases g <;> cases a <;> simp only [Stage.next, reduceCtorEq, Option.some.injEq] at h <;>
    first
    | (split at h <;> subst h <;> simp [Stage.inside])
    | (subst h; simp [Stage.inside])

/-- While callbacks may be past their guard an action keeps it so and leaves
`m_openHandle` alone, or it locks the mutex. -/
theorem next_open {g g' : Stage} {a : Act} (h : g.next a = some g') (hg : g.open = true) (d : Device) :
    a = .lock ∨ g'.open = true ∧ (a.exec d).item.openHandle = d.item.openHandle := by
  cases g <;> simp [Stage.open] at hg <;> cases a <;>
    simp only [Stage.next, reduceCtorEq, Option.some.injEq] at h <;> subst h <;> simp [Stage.open, Act.exec]

theorem holder_stage [DecidableEq ι] (g g' : Stage) (cb : ι → CallbackPc) :
    holder g' cb = Function.update (holder g cb) none g'.inside := by
  funext t
  cases t <;> simp [holder]

theorem holder_cb [DecidableEq ι] (g : Stage) (cb : ι → CallbackPc) (i : ι) (pc : CallbackPc) :
    holder g (Function.update cb i pc) = Function.update (holder g cb) (some i) pc.inside := by
  funext t
  cases t with
  | none => simp [holder]
  | some j =>
    by_cases hj : j = i
    · subst hj; simp [holder]
    · simp [holder, Function.update_of_ne hj, Function.update_of_ne (fun h => hj (Option.some.inj h))]

theorem guarded_inside {pc : CallbackPc} (h : pc.guarded = true) : pc.inside = true := by
  cases pc <;> simp_all [CallbackPc.guarded, CallbackPc.inside]

/-- A step of the device thread goes on to the next stage. -/
theorem InvAt.thread [DecidableEq ι] {g : Stage} {s s' : State ι} (hi : InvAt g s) (h : threadStep s = some s') :
    ∃ a todo g', s.todo = a :: todo ∧ g.next a = some g' ∧ (a = .lock → s.mutex = none) ∧
      s' = { s with
        device := a.exec s.device, todo := todo, mutex := a.owner s.mutex, connected := s.connected || a.connects } ∧
      InvAt g' s' := by
  obtain ⟨a, todo, htodo, hlock, rfl⟩ := threadStep_cases h
  obtain ⟨g', hn, hf⟩ := follows_cons_iff.mp (htodo ▸ hi.follows)
  -- Nobody is past the guard when the device thread locks.
  have hfree : a = .lock → ∀ i, (s.cb i).guarded = false := by
    intro ha i
    by_contra hgd
    have := hi.lock.owner_eq (t := some i) (guarded_inside (by simpa using hgd))
    simp [hlock ha] at this
  have hopen : ∀ i, (s.cb i).guarded = true →
      g'.open = true ∧ (a.exec s.device).item.openHandle = s.device.item.openHandle := by
    intro i hgd
    rcases next_open hn (hi.guarded i hgd) s.device with ha | ho
    · simp [hfree ha i] at hgd
    · exact ho
  refine ⟨a, todo, g', htodo, hn, hlock, rfl, hf, holds_exec hn hi.holds rfl rfl, ?_, fun i hgd => (hopen i hgd).1,
    fun i p addr hd hc => ?_, fun hc => hi.early ?_⟩
  · show Lock.Excl _ (a.owner s.mutex) (holder g' s.cb)
    rw [holder_stage g g']
    rcases next_inside hn with ⟨rfl, hin⟩ | ⟨rfl, hin, hout⟩ | ⟨hl, hu, heq⟩
    · have hm := hi.lock
      rw [hlock rfl] at hm
      exact hm.acquire hin
    · exact hi.lock.release hin (by simp [hout])
    · have ho : a.owner s.mutex = s.mutex := by cases a <;> simp_all [Act.owner]
      rw [ho]
      exact hi.lock.move (by simp [heq, holder])
  · rw [(hopen i (by simp only at hc; simp [hc, CallbackPc.guarded])).2]
    exact hi.call i p addr hd hc
  · simp only [Bool.or_eq_false_iff] at hc
    exact hc.1

theorem inv_thread [DecidableEq ι] {s s' : State ι} (hi : Inv s) (h : threadStep s = some s') : Inv s' := by
  obtain ⟨g, hi⟩ := hi
  obtain ⟨-, -, g', -, -, -, -, hi'⟩ := hi.thread h
  exact ⟨g', hi'⟩

/-! ## Steps of the other threads -/

/-- Setting `m_bQuit`, or a flag the callback does not read. -/
theorem InvAt.modify {g : Stage} {s : State ι} {f : CDeviceItem → CDeviceItem} (hi : InvAt g s)
    (hh : ∀ it, (f it).openHandle = it.openHandle) (hq : ∀ it, it.bQuit = true → (f it).bQuit = true) :
    InvAt g (s.modify f) := by
  refine { hi with holds := ?_, call := fun i p a h hc => (hi.call i p a h hc).trans (hh _).symm }
  have := hi.holds
  cases g <;> simp only [Stage.Holds, State.modify, hh] at this ⊢ <;>
    first
    | exact this
    | exact hq _ this
    | exact ⟨this.1, hq _ this.2⟩
    | exact this.imp_left (hq _)

theorem inv_modify {s : State ι} {f : CDeviceItem → CDeviceItem} (hi : Inv s)
    (hh : ∀ it, (f it).openHandle = it.openHandle) (hq : ∀ it, it.bQuit = true → (f it).bQuit = true) :
    Inv (s.modify f) := by
  obtain ⟨g, hi⟩ := hi
  exact ⟨g, hi.modify hh hq⟩

/-- A running callback has been let in. -/
theorem InvAt.connected {g : Stage} {s : State ι} (hi : InvAt g s) {i : ι} (h : s.cb i ≠ .idle) :
    s.connected = true := by
  by_contra hc
  exact h (hi.early (by simpa using hc) i)

/-- With callbacks let in and `m_bQuit` clear, the driver is being served. -/
theorem InvAt.open_of_running {g : Stage} {s : State ι} (hi : InvAt g s) (hc : s.connected = true)
    (hq : s.device.item.bQuit = false) : g.open = true := by
  have := hi.holds
  cases g <;> simp_all [Stage.Holds, Stage.open]

variable [DecidableEq ι]

theorem InvAt.setCallback {g : Stage} {s : State ι} (hi : InvAt g s) {i : ι} {pc : CallbackPc}
    {m : Option (Option ι)} (hlock : Lock.Excl (· = true) m (holder g (Function.update s.cb i pc)))
    (hg : pc.guarded = true → g.open = true)
    (hcall : ∀ p a h, pc = .inCall p a h → h = s.device.item.openHandle)
    (hc : s.connected = true) : InvAt g { s with mutex := m, cb := Function.update s.cb i pc } where
  follows := hi.follows
  holds := by
    have := hi.holds
    cases g <;> simpa [Stage.Holds] using this
  lock := hlock
  guarded := by
    intro j hj
    by_cases e : j = i
    · subst e; exact hg (by simpa using hj)
    · exact hi.guarded j (by simpa [Function.update_of_ne e] using hj)
  call := by
    intro j p a h hj
    by_cases e : j = i
    · subst e; exact hcall p a h (by simpa using hj)
    · exact hi.call j p a h (by simpa [Function.update_of_ne e] using hj)
  early := fun h => by simp [hc] at h

/-- A step inside the mutex stays inside, gets past the guard by finding `m_bQuit`
clear only, and calls the driver with the item's handle. -/
theorem receiveEventCallback_cases (lib : Vscphelper) (it : CDeviceItem) {pc : CallbackPc}
    (hin : pc.inside = true) (hu : pc ≠ .unlocking) :
    (receiveEventCallback lib it pc).inside = true ∧
    ((receiveEventCallback lib it pc).guarded = true → pc.guarded = true ∨ it.bQuit = false) ∧
    ∀ p a h, receiveEventCallback lib it pc = .inCall p a h → h = it.openHandle := by
  cases pc with
  | idle | entered => simp [CallbackPc.inside] at hin
  | unlocking => exact absurd rfl hu
  | inCall | invalidLevel => simp [receiveEventCallback, CallbackPc.inside, CallbackPc.guarded]
  | testQuit ev =>
    cases hq : it.bQuit <;> simp [receiveEventCallback, hq, CallbackPc.inside, CallbackPc.guarded]
  | convert ev =>
    simp only [receiveEventCallback]
    split <;> simp [CallbackPc.inside, CallbackPc.guarded]
  | testHandle | testLevel1 | selectSend | testLevel2 =>
    simp only [receiveEventCallback]
    split <;> simp_all [CallbackPc.inside, CallbackPc.guarded]

/-- The ways a callback moves: it takes the mutex, gives it back, or goes on inside. -/
inductive CallbackMoves (lib : Vscphelper) (s : State ι) (i : ι) : CallbackPc → Option (Option ι) → Prop where
  | locks (ev : VscpEvent) (hpc : s.cb i = .entered ev) (hfree : s.mutex = none) :
    CallbackMoves lib s i (.testQuit ev) (some (some i))
  | unlocks (hpc : s.cb i = .unlocking) : CallbackMoves lib s i .idle none
  | inside (hin : (s.cb i).inside = true) (hpc : s.cb i ≠ .unlocking) :
    CallbackMoves lib s i (receiveEventCallback lib s.device.item (s.cb i)) s.mutex

theorem step_callback {lib : Vscphelper} {s s' : State ι} {i : ι} (h : step lib s (.callback i) = some s') :
    ∃ pc owner, CallbackMoves lib s i pc owner ∧
      s' = { s with mutex := owner, cb := Function.update s.cb i pc } := by
  simp only [step] at h
  split at h
  · cases h
  · next ev hpc =>
    split at h <;> cases h
    next hfree => exact ⟨_, _, .locks ev hpc hfree, rfl⟩
  · next hpc =>
    cases h
    exact ⟨_, _, .unlocks hpc, rfl⟩
  · next hidle hentered hunlock =>
    cases h
    have hin : (s.cb i).inside = true := by
      cases hpc : s.cb i <;> simp_all [CallbackPc.inside]
    exact ⟨_, _, .inside hin hunlock, rfl⟩

/-- A callback leaves the device thread at its stage. -/
theorem InvAt.callback {lib : Vscphelper} {g : Stage} {s s' : State ι} {i : ι} (hi : InvAt g s)
    (h : step lib s (.callback i) = some s') : InvAt g s' := by
  obtain ⟨pc, owner, hm, rfl⟩ := step_callback h
  cases hm with
  | locks ev hpc hfree =>
    have hlock := hi.lock
    rw [hfree] at hlock
    refine hi.setCallback ?_ (by simp [CallbackPc.guarded]) (by simp) (hi.connected (i := i) (by simp [hpc]))
    rw [holder_cb]
    exact hlock.acquire rfl
  | unlocks hpc =>
    refine hi.setCallback ?_ (by simp [CallbackPc.guarded]) (by simp) (hi.connected (i := i) (by simp [hpc]))
    rw [holder_cb]
    exact hi.lock.release (by simp [holder, hpc, CallbackPc.inside]) (by simp [CallbackPc.inside])
  | inside hin hunlock =>
    have hidle : s.cb i ≠ .idle := by
      intro he
      simp [he, CallbackPc.inside] at hin
    obtain ⟨hin', hgd, hcall⟩ := receiveEventCallback_cases lib s.device.item hin hunlock
    have hc : s.connected = true := hi.connected hidle
    refine hi.setCallback ?_ (fun hg => ?_) hcall hc
    · rw [holder_cb]
      exact hi.lock.move (by simp [holder, hin, hin'])
    · rcases hgd hg with hg | hq
      · exact hi.guarded i hg
      · exact hi.open_of_running hc hq

theorem inv_callback {lib : Vscphelper} {s s' : State ι} {i : ι} (hi : Inv s)
    (h : step lib s (.callback i) = some s') : Inv s' := by
  obtain ⟨g, hi⟩ := hi
  exact ⟨g, hi.callback h⟩

theorem InvAt.event {lib : Vscphelper} {g : Stage} {s s' : State ι} {i : ι} {ev : VscpEvent} (hi : InvAt g s)
    (h : step lib s (.event i ev) = some s') : InvAt g s' := by
  simp only [step] at h
  split at h
  · next hc =>
    cases h
    refine hi.setCallback ?_ (by simp [CallbackPc.guarded]) (by simp) hc.1
    rw [holder_cb]
    exact hi.lock.move (by simp [holder, hc.2, CallbackPc.inside])
  · cases h

theorem inv_event {lib : Vscphelper} {s s' : State ι} {i : ι} {ev : VscpEvent} (hi : Inv s)
    (h : step lib s (.event i ev) = some s') : Inv s' := by
  obtain ⟨g, hi⟩ := hi
  exact ⟨g, hi.event h⟩

theorem inv_step {lib : Vscphelper} {s s' : State ι} {m : Move ι} (hi : Inv s) (h : step lib s m = some s') :
    Inv s' := by
  cases m with
  | thread => exact inv_thread hi h
  | event i ev => exact inv_event hi h
  | callback i => exact inv_callback hi h
  | stopDriver =>
    cases h
    exact inv_modify hi (fun it => by unfold requestQuit; split <;> rfl)
      (fun it hq => by unfold requestQuit; split <;> simp [hq])
  | pauseDriver | resumeDriver => cases h; exact inv_modify hi (fun _ => rfl) (fun _ hq => hq)

/-- A device whose thread starts on the item, in any state a run leads to. -/
def Reached (lib : Vscphelper) (it : CDeviceItem) (o : Outcomes) : State ι → Prop :=
  Reachable (step lib) (· = start it o)

variable {lib : Vscphelper} {it : CDeviceItem} {o : Outcomes}

theorem Reached.inv {s : State ι} (h : Reached lib it o s) : Inv s :=
  Reachable.inv (fun _ h₀ => h₀ ▸ inv_start it o) (fun _ _ _ => inv_step) h

/-- **No driver call after close.** Whatever the driver, the loader and the
broker answer, in every order of the threads' steps, a callback that is inside
a driver call is there with the library loaded, and with a handle a successful
open returned and nobody has closed. -/
theorem callback_in_open_driver {s : State ι} (h : Reached lib it o s) {i : ι} {p : Proc} {addr : Nat}
    {hd : Int} (hc : s.cb i = .inCall p addr hd) : Loaded s.device.calls ∧ IsOpen hd s.device.calls := by
  obtain ⟨g, hi⟩ := h.inv
  have hopen : g.open = true := hi.guarded i (by simp [hc, CallbackPc.guarded])
  have hholds := hi.holds
  rw [hi.call i p addr hd hc]
  cases g <;> simp [Stage.open] at hopen
  · exact hholds
  · exact hholds.1

/-- Everything is found, the driver opens with handle 7 and the client connects. -/
def servingOutcomes : Outcomes where
  dlopen := true
  dlsym := fun _ => .found 4096
  canalOpen := 7
  vscpOpen := 7
  connect := true
  getLevel := 1
  ticks := []

/-- The device thread as far as `connect()`, then a callback as far as the driver. -/
def movesToCall : List (Move Unit) :=
  List.replicate 19 .thread ++ .event () VscpEvent.zero :: List.replicate 6 (.callback ())

theorem callback_in_open_driver_reached :
    ∃ s : State Unit, Reached canalIdHelper { driverLevel := VSCP_DRIVER_LEVEL1 } servingOutcomes s ∧
      s.cb () = .inCall .canalBlockingSend 4096 7 ∧ Loaded s.device.calls ∧ IsOpen 7 s.device.calls := by
  have hrun : (run (step canalIdHelper) (start { driverLevel := VSCP_DRIVER_LEVEL1 } servingOutcomes)
      movesToCall).map (·.cb ()) = some (.inCall .canalBlockingSend 4096 7) := rfl
  obtain ⟨s, hs, hc⟩ := Option.map_eq_some_iff.mp hrun
  have hreached : Reached canalIdHelper { driverLevel := VSCP_DRIVER_LEVEL1 } servingOutcomes s :=
    ⟨_, _, rfl, hs⟩
  exact ⟨s, hreached, hc, callback_in_open_driver hreached hc⟩

end MqttVscpd
