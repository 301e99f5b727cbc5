/-
What stopping comes to, in a process with any other threads in it. A thread that has been
asked to quit asks its driver for one event at most and sends one at most, so that `main`
waits for no more than the pass under way (`quit_within_a_pass`). And what the thread has
loaded and opened it has released as it does alone (`released_as_alone`).
-/
import MqttVscpd.ProcessDevice
import MqttVscpd.ProcessEvents
import MqttVscpd.Resources

namespace MqttVscpd.Process

open Transition

variable {κ : Type} [DecidableEq κ] {lib : Vscphelper} {text : Guid → String} {k : Nat} {u u' v : Driver κ}
  {d d' : Discovery.Daemon Nat}

/-! ## A pass at most -/

/-- The answers of the driver that the pass under way still takes. -/
def Phase.asks : Phase → Nat
  | .reading => 1
  | _ => 0

/-- The events that the pass under way may still send. -/
def Phase.sends : Phase → Nat
  | .between => 0
  | _ => 1

/-- From `u` on, with the item asked to quit, no pass has begun: what has been asked and sent since
and what is left to ask and send of the pass is no more than at `u`. -/
structure Winding (u v : Driver κ) (said : List Tick) : Prop where
  quit : v.device.device.item.bQuit = true
  asked : said.length + v.phase.asks ≤ u.phase.asks
  sent : v.sent.length + v.phase.sends ≤ u.sent.length + u.phase.sends

omit [DecidableEq κ] in
theorem Winding.mainDoes {s : State κ} {m : MainAct} {said : List Tick} (h : Winding u v said)
    (hm : MainDoes s k v m u') : Winding u u' said := by
  cases hm with
  | keeps => exact h
  | starts o =>
    cases hen : v.device.device.item.bEnable <;> cases o <;> simp only [Driver.startDriver, hen] <;>
      exact ⟨h.quit, h.asked, h.sent⟩
  | stops =>
    refine ⟨?_, h.asked, h.sent⟩
    cases hen : v.device.device.item.bEnable <;> simp [Driver.stop, State.modify, requestQuit, hen, h.quit]
  | joins => exact ⟨h.quit, h.asked, h.sent⟩

theorem Winding.driverSteps {a : DriverAct κ} {said : List Tick} (h : Winding u v said)
    (hs : DriverSteps lib text k v d a u' d') : Winding u u' (said ++ a.ticks) := by
  obtain ⟨hquit, hasked, hsent⟩ := h
  cases hs with
  | act s₁ hr hp hs₁ =>
    obtain ⟨a, todo, -, -, rfl⟩ := threadStep_cases hs₁
    exact ⟨exec_quit hquit, by simpa [DriverAct.ticks] using hasked, hsent⟩
  | enter _ _ _ hclear => simp [hquit] at hclear
  | passes t hp | reads t ev hp =>
    simp only [hp, Phase.asks, Phase.sends] at hasked hsent
    exact ⟨hquit, by simpa [Phase.asks, DriverAct.ticks] using hasked, by simp only [Phase.sends]; omega⟩
  | discovers => exact ⟨hquit, by simpa [DriverAct.ticks] using hasked, hsent⟩
  | discovered ok date ev _ hp =>
    simp only [hp, Phase.asks, Phase.sends] at hasked hsent
    exact ⟨hquit, by simpa [Phase.asks, DriverAct.ticks] using hasked, hsent⟩
  | sends ok ev hp =>
    simp only [hp, Phase.asks, Phase.sends] at hasked hsent
    exact ⟨hquit, by simpa [Phase.asks, DriverAct.ticks] using hasked, by simpa [Phase.sends] using hsent⟩
  | returns | faults => exact ⟨hquit, by simpa [DriverAct.ticks] using hasked, hsent⟩
  | event i ev s₁ hs₁ => exact ⟨(device_event hs₁).1 ▸ hquit, by simpa [DriverAct.ticks] using hasked, hsent⟩
  | callback i s₁ hs₁ => exact ⟨(device_callback hs₁).1 ▸ hquit, by simpa [DriverAct.ticks] using hasked, hsent⟩

/-- **A thread quits within a pass.** From the moment its item has been asked to quit, whoever else
takes steps, a thread that is in no pass asks its driver for nothing and sends nothing more, and one
that is in a pass asks once at most, if it has not yet, and sends one event at most. -/
theorem quit_within_a_pass {s s' : State κ} {as : List (Act κ)} (hu : s.drivers[k]? = some u)
    (hq : u.device.device.item.bQuit = true) (h : run (step lib text) s as = some s') (hv : s'.drivers[k]? = some v) :
    (trace (step lib text) (ticksOf k) s as).length ≤ u.phase.asks ∧
      v.sent.length ≤ u.sent.length + u.phase.sends := by
  have hstart : ∀ w, s.drivers[k]? = some w → Winding u w [] := by
    intro w hw
    obtain rfl : u = w := Option.some.inj (hu.symm.trans hw)
    exact ⟨hq, by simp, Nat.le_refl _⟩
  have hend : Winding u v (trace (step lib text) (ticksOf k) s as) :=
    run_driver (fun _ a => a.ticks) (J := fun _ => True) (P := Winding u) (fun _ _ _ _ _ => trivial)
      (fun _ _ _ _ _ _ _ hm hw => hw.mainDoes hm) (fun _ _ _ _ _ _ _ _ hst hw => hw.driverSteps hst)
      trivial hstart h v hv
  have hasked := hend.asked
  have hsent := hend.sent
  exact ⟨by omega, by omega⟩

/-- The thread is asked to quit when it is past the test of its loop, and its driver has an event then. -/
theorem quit_within_a_pass_reading :
    ∃ (s s' : State Unit) (u v : Driver Unit),
      run (step canalIdHelper nodeText) oneDriver (oneEvent.take 11 ++ [.main .signal, .main .loop, .main .stop]) =
        some s ∧
      run (step canalIdHelper nodeText) s (oneEvent.drop 11) = some s' ∧ s.drivers = [u] ∧ s'.drivers = [v] ∧
        u.phase = .reading ∧ v.sent.length = 1 ∧ v.sent.length ≤ u.sent.length + u.phase.sends := by
  have hrun : ∃ s u, run (step canalIdHelper nodeText) oneDriver
      (oneEvent.take 11 ++ [.main .signal, .main .loop, .main .stop]) = some s ∧ s.drivers = [u] ∧
      u.phase = .reading ∧ u.device.device.item.bQuit = true ∧
        ∃ s' v, run (step canalIdHelper nodeText) s (oneEvent.drop 11) = some s' ∧ s'.drivers = [v] ∧
          v.sent.length = 1 := ⟨_, _, rfl, rfl, rfl, rfl, _, _, rfl, rfl, rfl⟩
  obtain ⟨s, u, hs, hu, hp, hq, s', v, hs', hv, hone⟩ := hrun
  have hpass := quit_within_a_pass (k := 0) (v := v) (by simp [hu]) hq hs' (by simp [hv])
  exact ⟨s, s', u, v, hs, hs', hu, hv, hp, hone, hpass.2⟩

/-! ## Nothing more held -/

/-- What the driver's thread holds when it has come to its end. -/
def Driver.willHold (u : Driver κ) : List Call × Int := (execAll u.device.device u.device.todo).held

theorem willHold_driverSteps {a : DriverAct κ} (h : DriverSteps lib text k u d a u' d') :
    u'.willHold = u.willHold := by
  cases h with
  | act s₁ hr hp hs =>
    obtain ⟨a, todo, htodo, -, rfl⟩ := threadStep_cases hs
    simp only [Driver.willHold, htodo, execAll_cons]
  | event i ev s₁ hs =>
    obtain ⟨hd, ht⟩ := device_event hs
    simp only [Driver.willHold, hd, ht]
  | callback i s₁ hs =>
    obtain ⟨hd, ht⟩ := device_callback hs
    simp only [Driver.willHold, hd, ht]
  | _ => rfl

omit [DecidableEq κ] in
theorem willHold_mainDoes {s : State κ} {m : MainAct} (hpc : s.main ≠ .starting k) (h : MainDoes s k u m u') :
    u'.willHold = u.willHold := by
  cases h with
  | keeps => rfl
  | starts o hpc' => exact absurd hpc' hpc
  | stops =>
    refine execAll_held ?_
    cases hen : u.device.device.item.bEnable <;> simp [Driver.stop, State.modify, requestQuit, hen, Device.held]
  | joins => exact execAll_held rfl

/-- The passes a thread makes do not tell in what it holds. -/
theorem held_ticks (it : CDeviceItem) (o : Outcomes) (ts : List Tick) (dev : Device) :
    (execAll dev (deviceThread it { o with ticks := ts })).held = (execAll dev (deviceThread it o)).held := by
  have hlevel1 : ∀ dev, (execAll dev (level1 { o with ticks := ts })).held = (execAll dev (level1 o)).held := by
    intro dev
    have hopen : (execAll dev (level1Open { o with ticks := ts })).held = (execAll dev (level1Open o)).held := by
      simp only [level1Open, execAll_cons]
      split
      · rfl
      · rw [held_level1Serve _ rfl, held_level1Serve _ rfl]
    rw [held_level1, held_level1, hopen]
  have hlevel2 : ∀ dev, (execAll dev (level2 { o with ticks := ts })).held = (execAll dev (level2 o)).held := by
    intro dev
    have hopen : (execAll dev (level2Open { o with ticks := ts })).held = (execAll dev (level2Open o)).held := by
      simp only [level2Open, execAll_cons]
      split
      · rfl
      · rw [held_level2Serve _ rfl, held_level2Serve _ rfl]
    rw [held_level2, held_level2, hopen]
  simp only [deviceThread, execAll_cons]
  split
  · rfl
  split
  · exact hlevel1 _
  split
  · exact hlevel2 _
  · rfl

omit [DecidableEq κ] in
theorem willHold_startDriver (hen : u.device.device.item.bEnable = true) (o : Outcomes) :
    (u.startDriver (some o)).willHold = (returned u.device.device.item o).held := by
  have halone : (execAll { item := { u.device.device.item with bThreadStarted := true } }
      (deviceThread u.device.device.item o)).held = (returned u.device.device.item o).held := execAll_held rfl
  rw [← halone, ← held_ticks _ o []]
  simp only [Driver.willHold, Driver.startDriver, hen]
  rfl

/-- **A process releases what its threads release alone.** Once a cleanup has returned, the calls
that loaded, opened, closed and unloaded a driver, and the handle its item is left with, are those
of its `deviceThread` with nothing beside it, whatever the callbacks and the other threads did, and
whenever it was asked to quit. So it has released what it holds exactly where it does so alone. -/
theorem released_as_alone {s₁ s₂ s : State κ} {o : Outcomes} {as : List (Act κ)} (h₁ : Reached lib text s₁)
    (hpc : s₁.main = .starting k) (hu : s₁.drivers[k]? = some u) (hen : u.device.device.item.bEnable = true)
    (h₂ : step lib text s₁ (.main (.start (some o))) = some s₂) (h : run (step lib text) s₂ as = some s)
    (hc : 0 < s.cleanups ∨ s.main = .deleted) :
    ∃ v, s.drivers[k]? = some v ∧ v.device.device.held = (returned u.device.device.item o).held ∧
      (Released v.device.device ↔ Released (returned u.device.device.item o)) := by
  obtain ⟨hstart, hcreated⟩ := created_start h₁.inv hpc hu hen h₂
  obtain ⟨v, hv⟩ := exists_driver hstart h
  have hfrom : ∀ w, s₂.drivers[k]? = some w → w.willHold = (returned u.device.device.item o).held := by
    intro w hw
    obtain rfl : u.startDriver (some o) = w := Option.some.inj (hstart.symm.trans hw)
    exact willHold_startDriver hen o
  have hend : v.willHold = (returned u.device.device.item o).held :=
    run_driver (fun _ a => a.ticks) (J := Created text k)
      (P := fun w _ => w.willHold = (returned u.device.device.item o).held)
      (fun _ _ _ hc hs => created_step hc hs)
      (fun _ _ _ _ _ hc hw hm hp => (willHold_mainDoes (hc.not_starting hw) hm).trans hp)
      (fun _ _ _ _ _ _ _ _ hst hp => (willHold_driverSteps hst).trans hp) hcreated hfrom h v hv
  have hi : Inv text s := (run_inv (fun _ _ _ hc hs => created_step hc hs) hcreated h).inv
  have hdone : v.device.todo = [] := (hi.driver k v hv).ended (hi.joined hc hv).2.2
  have hheld : v.device.device.held = (returned u.device.device.item o).held := by
    rw [← hend, Driver.willHold, hdone, execAll_nil]
  exact ⟨v, hv, hheld, released_congr hheld⟩

/-- The one driver's library is in and out once, and its driver too. -/
theorem released_as_alone_oneEvent :
    ∃ (s : State Unit) (v : Driver Unit),
      run (step canalIdHelper nodeText) oneDriver (oneEvent ++ endsProcess) = some s ∧ s.drivers[0]? = some v ∧
        Released v.device.device := by
  have hrun : (run (step canalIdHelper nodeText) oneDriver (oneEvent ++ endsProcess)).map (·.main) = some .deleted := rfl
  obtain ⟨s, hs, hmain⟩ := Option.map_eq_some_iff.mp hrun
  obtain ⟨s₂, h₂, h⟩ := run_cons_iff.mp hs
  have hinit : Reached canalIdHelper nodeText oneDriver := Reachable.init initial_oneDriver
  obtain ⟨v, hv, hheld, hreleased⟩ := released_as_alone hinit rfl rfl rfl h₂ h (.inr hmain)
  exact ⟨s, v, hs, hv, hreleased.mpr (released_served (h := 7) rfl)⟩

end MqttVscpd.Process
