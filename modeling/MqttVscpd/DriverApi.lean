/-
The daemon as a driver's library sees it. The abstract model is the life the
driver API lays down: the library is loaded and its entry points looked up, the
driver is opened, asked and written to by the handle it gave, closed, and the
library unloaded. Reads may come during a write; two writes, or a close and a
write, may not. A device with all its threads keeps to it (`device_keeps_api`).
-/
import MqttVscpd.DeviceSafety
import MqttVscpd.Lib.Simulation

namespace MqttVscpd.DriverApi

open Transition

/-- Where a library is. -/
inductive Status where
  | absent
  | loaded
  /-- The driver is open by the handle; a write is in it or not. -/
  | opened (h : Int) (writing : Bool)
  | closed
  deriving DecidableEq

/-- What the daemon asks of a library. -/
inductive Request where
  | load
  | lookup (p : Proc)
  /-- An open the driver answers with no handle. -/
  | refuse
  | open (h : Int)
  /-- `CanalGetLevel`, or the reads of one pass. -/
  | use (h : Int)
  /-- `CanalBlockingSend`, `CanalSend` or `VSCPWrite` is called. -/
  | write (h : Int)
  /-- The write returns. -/
  | written
  | close (h : Int)
  | unload
  deriving DecidableEq

/-- What may be asked where. A driver whose client does not connect may be unloaded open. -/
def step : Status → Request → Option Status
  | .absent, .load => some .loaded
  | .loaded, .lookup _ => some .loaded
  | .loaded, .refuse => some .loaded
  | .loaded, .open h => some (.opened h false)
  | .loaded, .unload => some .absent
  | .opened h w, .use h' => if h' = h then some (.opened h w) else none
  | .opened h false, .write h' => if h' = h then some (.opened h true) else none
  | .opened h true, .written => some (.opened h false)
  | .opened h false, .close h' => if h' = h then some .closed else none
  | .opened _ false, .unload => some .absent
  | .closed, .unload => some .absent
  | _, _ => none

/-! ## What a device asks -/

/-- What `deviceThread` asks of the library in one action. -/
def requestsOf (it : CDeviceItem) : Act → List Request
  | .dlopen ok => if ok then [.load] else []
  | .dlsym p _ => [.lookup p]
  | .canalOpen h => if 0 < h then [.open h] else [.refuse]
  | .vscpOpen h => if h ≠ 0 then [.open h] else [.refuse]
  | .getLevel _ | .pass _ _ => [.use it.openHandle]
  | .close => [.close it.openHandle]
  | .dlclose => [.unload]
  | _ => []

/-- What a step inside `receive_event_callback` asks. -/
def requestsFrom (lib : Vscphelper) (it : CDeviceItem) : CallbackPc → List Request
  | .inCall .. => [.written]
  | pc =>
    match receiveEventCallback lib it pc with
    | .inCall _ _ h => [.write h]
    | _ => []

variable {ι : Type}

def requests (lib : Vscphelper) (s : State ι) : Move ι → List Request
  | .thread => s.todo.head?.elim [] (requestsOf s.device.item)
  | .callback i => requestsFrom lib s.device.item (s.cb i)
  | .stopDriver | .pauseDriver | .resumeDriver | .event _ _ => []

/-! ## After a failed connect -/

/-- After a `connect()` that fails the driver is closed and unloaded, or only unloaded. -/
def LeavesAfterFailure : List Act → Prop :=
  ForRests fun a rest => a = .connect false → rest = [.dlclose] ∨ rest = [.close, .clearHandle, .dlclose]

theorem leavesAfterFailure_deviceThread (it : CDeviceItem) (o : Outcomes) : LeavesAfterFailure (deviceThread it o) :=
  forRests_deviceThread (fun _ _ hfail _ ha => absurd ha hfail) (fun _ => .inl rfl) (fun _ => .inr rfl)
    (fun h => by cases h) it o

/-! ## Where the library is -/

def inDriver : CallbackPc → Bool
  | .inCall .. => true
  | _ => false

/-- A callback is in the driver. -/
def Writing (s : State ι) : Prop := ∃ i, inDriver (s.cb i) = true

/-- Where the library is when the device thread is at a stage. -/
def At (g : Stage) (s : State ι) (q : Status) : Prop :=
  match g with
  | .fresh => q = .absent
  | .loaded => q = .loaded
  | .opened | .closing => q = .opened s.device.item.openHandle false
  | .unconnected =>
    q = .opened s.device.item.openHandle false ∧ (s.todo = [.dlclose] ∨ s.todo = [.close, .clearHandle, .dlclose]) ∨
      q = .closed ∧ (s.todo = [.clearHandle, .dlclose] ∨ s.todo = [.dlclose])
  | .serving | .quitting => ∃ w, q = .opened s.device.item.openHandle w ∧ (w = true ↔ Writing s)
  | .closed | .cleared | .released => q = .closed
  | .over => True

/-- The library of a device is where its threads take it to be. -/
structure Tracks (s : State ι) (q : Status) : Prop where
  leaves : LeavesAfterFailure s.todo
  inv : ∃ g, InvAt g s ∧ At g s q

variable {s s' : State ι} {g g' : Stage} {q : Status}

theorem inDriver_iff {pc : CallbackPc} : inDriver pc = true ↔ ∃ p a h, pc = .inCall p a h := by
  cases pc <;> simp [inDriver]

theorem inside_of_inDriver {pc : CallbackPc} (h : inDriver pc = true) : pc.inside = true := by
  obtain ⟨p, a, hd, rfl⟩ := inDriver_iff.mp h
  rfl

theorem guarded_of_inDriver {pc : CallbackPc} (h : inDriver pc = true) : pc.guarded = true := by
  obtain ⟨p, a, hd, rfl⟩ := inDriver_iff.mp h
  rfl

theorem not_writing_of_stage (hi : InvAt g s) (hg : g.open = false) : ¬ Writing s := by
  intro hw
  obtain ⟨i, hpc⟩ := hw
  have hopen := hi.guarded i (guarded_of_inDriver hpc)
  simp [hg] at hopen

/-- Whoever writes owns the mutex. -/
theorem owner_of_inDriver {i : ι} (hi : InvAt g s) (hpc : inDriver (s.cb i) = true) : s.mutex = some (some i) :=
  hi.lock.owner_eq (t := some i) (inside_of_inDriver hpc)

theorem not_writing_of_free (hi : InvAt g s) (hm : s.mutex = none) : ¬ Writing s := by
  intro hw
  obtain ⟨i, hpc⟩ := hw
  simp [owner_of_inDriver hi hpc] at hm

theorem tracks_start (it : CDeviceItem) (o : Outcomes) : Tracks (start it o : State ι) .absent :=
  ⟨leavesAfterFailure_deviceThread it o, .fresh, invAt_start it o, rfl⟩

/-! ## Steps -/

/-- What an action of the device thread asks is allowed where the library is, and leads to where the
next stage takes it to be. -/
theorem at_exec {a : Act} {todo : List Act} (hi : InvAt g s) (hat : At g s q) (htodo : s.todo = a :: todo)
    (hleaves : LeavesAfterFailure s.todo) (hn : g.next a = some g') (hlock : a = .lock → s.mutex = none)
    (hd : s'.device = a.exec s.device) (ht : s'.todo = todo) (hw : Writing s' ↔ Writing s) :
    ∃ q', run step q (requestsOf s.device.item a) = some q' ∧ At g' s' q' := by
  have hquiet : g.open = false → ¬ Writing s' := fun hg => hw.not.mpr (not_writing_of_stage hi hg)
  cases g <;> cases a <;> simp only [Stage.next, reduceCtorEq, Option.some.injEq] at hn <;> simp only [At] at hat
  case fresh.dlopen ok =>
    cases ok <;> subst hn hat
    · exact ⟨.absent, rfl, trivial⟩
    · exact ⟨.loaded, rfl, rfl⟩
  case loaded.canalOpen h =>
    subst hat
    by_cases hp : 0 < h
    · rw [if_pos hp] at hn
      subst hn
      exact ⟨.opened h false, by simp [requestsOf, hp, run_singleton, step], by simp [At, hd, Act.exec]⟩
    · rw [if_neg hp] at hn
      subst hn
      exact ⟨.loaded, by simp [requestsOf, hp, run_singleton, step], rfl⟩
  case loaded.vscpOpen h =>
    subst hat
    by_cases hz : h ≠ 0
    · rw [if_pos hz] at hn
      subst hn
      exact ⟨.opened h false, by simp [requestsOf, hz, run_singleton, step], by simp [At, hd, Act.exec]⟩
    · rw [if_neg hz] at hn
      subst hn
      exact ⟨.loaded, by simp [requestsOf, hz, run_singleton, step], rfl⟩
  case opened.connect ok =>
    cases ok <;> subst hn hat
    · have hrest := (htodo ▸ hleaves : LeavesAfterFailure (.connect false :: todo)).1 rfl
      exact ⟨_, rfl, .inl ⟨by simp [hd, Act.exec], ht ▸ hrest⟩⟩
    · exact ⟨_, rfl, false, by simp [hd, Act.exec], by simp [hquiet rfl]⟩
  case unconnected.close =>
    subst hn
    rcases hat with ⟨rfl, hrest | hrest⟩ | ⟨-, hrest | hrest⟩ <;> simp [htodo] at hrest
    exact ⟨.closed, by simp [requestsOf, run_singleton, step], .inr ⟨rfl, .inl (ht.trans hrest)⟩⟩
  case unconnected.clearHandle =>
    subst hn
    rcases hat with ⟨-, hrest | hrest⟩ | ⟨rfl, hrest | hrest⟩ <;> simp [htodo] at hrest
    exact ⟨.closed, rfl, .inr ⟨rfl, .inr (ht.trans hrest)⟩⟩
  case unconnected.dlclose =>
    subst hn
    rcases hat with ⟨rfl, -⟩ | ⟨rfl, -⟩
    · exact ⟨.absent, rfl, trivial⟩
    · exact ⟨.absent, rfl, trivial⟩
  case quitting.lock =>
    subst hn
    obtain ⟨w, rfl, hwriting⟩ := hat
    obtain rfl : w = false := by
      have hno := not_writing_of_free hi (hlock rfl)
      simpa [← hwriting] using hno
    exact ⟨_, rfl, by simp [At, hd, Act.exec]⟩
  case serving.getLevel | serving.testQuit | serving.pass | serving.quit | quitting.quit | quitting.disconnect =>
    subst hn
    obtain ⟨w, rfl, hwriting⟩ := hat
    exact ⟨.opened s.device.item.openHandle w, by simp [requestsOf, run_singleton, step], w, by simp [hd, Act.exec],
      hwriting.trans hw.symm⟩
  all_goals
    subst hn hat
    exact ⟨_, by simp [requestsOf, run_singleton, step]; rfl, by simp [At]⟩

theorem tracks_thread [DecidableEq ι] (ht : Tracks s q) (h : threadStep s = some s') {lib : Vscphelper} :
    ∃ q', run step q (requests lib s .thread) = some q' ∧ Tracks s' q' := by
  obtain ⟨hleaves, g, hi, hat⟩ := ht
  obtain ⟨a, todo, g', htodo, hn, hlock, hs', hi'⟩ := hi.thread h
  have hdevice : s'.device = a.exec s.device := by rw [hs']
  have htail : s'.todo = todo := by rw [hs']
  have hwriting : Writing s' ↔ Writing s := by rw [hs']; exact Iff.rfl
  obtain ⟨q', hq', hat'⟩ := at_exec hi hat htodo hleaves hn hlock hdevice htail hwriting
  refine ⟨q', by simpa [requests, htodo] using hq', ?_, g', hi', hat'⟩
  exact htail ▸ (htodo ▸ hleaves : LeavesAfterFailure (a :: todo)).2

theorem At.same (h : At g s q) (hd : s'.device.item.openHandle = s.device.item.openHandle) (ht : s'.todo = s.todo)
    (hw : Writing s' ↔ Writing s) : At g s' q := by
  cases g <;> simp only [At, hd, ht, hw] at h ⊢ <;> exact h

/-- While callbacks may be past their guard the driver is open, with a write in it or not. -/
theorem At.opened (h : At g s q) (hg : g.open = true) :
    ∃ w, q = .opened s.device.item.openHandle w ∧ (w = true ↔ Writing s) := by
  cases g <;> simp [Stage.open] at hg <;> exact h

theorem at_of_opened (hg : g.open = true) {w : Bool} (hw : w = true ↔ Writing s) :
    At g s (.opened s.device.item.openHandle w) := by
  cases g <;> simp [Stage.open] at hg <;> exact ⟨w, rfl, hw⟩

variable [DecidableEq ι] {lib : Vscphelper} {i : ι}

/-- A step of a callback moves that callback only, outside the mutex or as `receiveEventCallback` says. -/
theorem callback_cases (h : MqttVscpd.step lib s (.callback i) = some s') :
    s'.device = s.device ∧ s'.todo = s.todo ∧ ∃ pc, s'.cb = Function.update s.cb i pc ∧
      (pc = receiveEventCallback lib s.device.item (s.cb i) ∨ requestsFrom lib s.device.item (s.cb i) = [] ∧
        inDriver (s.cb i) = false ∧ inDriver pc = false) := by
  obtain ⟨pc, owner, hm, rfl⟩ := step_callback h
  refine ⟨rfl, rfl, pc, rfl, ?_⟩
  cases hm with
  | locks ev hpc => exact .inr (by simp [hpc, requestsFrom, receiveEventCallback, inDriver])
  | unlocks hpc => exact .inr (by simp [hpc, requestsFrom, receiveEventCallback, inDriver])
  | inside => exact .inl rfl

/-- Moving one callback from outside the driver to outside changes nothing about writes. -/
theorem writing_update {pc : CallbackPc} (hcb : s'.cb = Function.update s.cb i pc)
    (hpc : inDriver pc = inDriver (s.cb i)) : Writing s' ↔ Writing s := by
  have hall : ∀ j, inDriver (s'.cb j) = inDriver (s.cb j) := by
    intro j
    rw [hcb]
    by_cases hj : j = i
    · subst hj
      simp [hpc]
    · simp [Function.update_of_ne hj]
  simp only [Writing, hall]

/-- A callback comes into the driver from inside the mutex. -/
theorem inside_of_enters {it : CDeviceItem} {pc : CallbackPc} (h : inDriver (receiveEventCallback lib it pc) = true) :
    pc.inside = true := by
  cases pc with
  | idle | entered => cases h
  | _ => rfl

omit [DecidableEq ι] in
/-- Only one callback is inside at a time. -/
theorem not_writing_beside (hi : InvAt g s) (hin : (s.cb i).inside = true) (hout : inDriver (s.cb i) = false) :
    ¬ Writing s := by
  intro hw
  obtain ⟨j, hj⟩ := hw
  have heq : some j = some i :=
    hi.lock.unique (t := some j) (u := some i) (inside_of_inDriver hj) hin
  rw [Option.some.inj heq, hout] at hj
  cases hj

theorem tracks_callback (ht : Tracks s q) (h : MqttVscpd.step lib s (.callback i) = some s') :
    ∃ q', run step q (requests lib s (.callback i)) = some q' ∧ Tracks s' q' := by
  obtain ⟨hleaves, g, hi, hat⟩ := ht
  have hi' : InvAt g s' := hi.callback h
  obtain ⟨hdev, htodo, pc, hcb, hcases⟩ := callback_cases h
  have hself : s'.cb i = pc := by simp [hcb]
  have hsame : inDriver (s.cb i) = false → inDriver pc = false → At g s' q := fun hold hnew =>
    hat.same (by rw [hdev]) htodo (writing_update hcb (hnew.trans hold.symm))
  have hkeep : ∀ q', At g s' q' → Tracks s' q' := fun q' hat' => ⟨htodo ▸ hleaves, g, hi', hat'⟩
  simp only [requests]
  rcases hcases with rfl | ⟨hnone, hold, hnew⟩
  · cases hold : inDriver (s.cb i) with
    | true =>
      -- The write returns: the mutex has let in no other.
      obtain ⟨p, a, hd, hpc⟩ := inDriver_iff.mp hold
      obtain ⟨w, rfl, hw⟩ := hat.opened (hi.guarded i (guarded_of_inDriver hold))
      obtain rfl : w = true := hw.mpr ⟨i, hold⟩
      have hunlocking : s'.cb i = .unlocking := by simp [hself, hpc, receiveEventCallback]
      have hno : ¬ Writing s' :=
        not_writing_beside (i := i) hi' (by simp [hunlocking, CallbackPc.inside]) (by simp [hunlocking, inDriver])
      refine ⟨.opened s.device.item.openHandle false, by simp [hpc, requestsFrom, run_singleton, step], hkeep _ ?_⟩
      rw [← hdev]
      exact at_of_opened (hi.guarded i (guarded_of_inDriver hold)) (by simp [hno])
    | false =>
      cases hnew : inDriver (receiveEventCallback lib s.device.item (s.cb i)) with
      | true =>
        obtain ⟨p, a, hd, hpc⟩ := inDriver_iff.mp hnew
        have hopen : g.open = true := hi'.guarded i (by rw [hself]; exact guarded_of_inDriver hnew)
        obtain ⟨w, rfl, hw⟩ := hat.opened hopen
        obtain rfl : w = false := by
          have hno := not_writing_beside hi (inside_of_enters hnew) hold
          simpa [← hw] using hno
        have hhandle : hd = s.device.item.openHandle := by
          rw [← hdev]
          exact hi'.call i p a hd (hself.trans hpc)
        have hreq : requestsFrom lib s.device.item (s.cb i) = [.write hd] := by
          unfold requestsFrom
          split
          · next heq => simp [heq, inDriver] at hold
          · rw [hpc]
        refine ⟨.opened s.device.item.openHandle true, by simp [hreq, hhandle, run_singleton, step], hkeep _ ?_⟩
        rw [← hdev]
        exact at_of_opened hopen (iff_of_true rfl ⟨i, by rw [hself]; exact hnew⟩)
      | false =>
        have hreq : requestsFrom lib s.device.item (s.cb i) = [] := by
          unfold requestsFrom
          split
          · next heq => simp [heq, inDriver] at hold
          · split
            · next heq => simp [heq, inDriver] at hnew
            · rfl
        exact ⟨q, by rw [hreq]; rfl, hkeep q (hsame hold hnew)⟩
  · exact ⟨q, by rw [hnone]; rfl, hkeep q (hsame hold hnew)⟩

theorem simulates_api (lib : Vscphelper) :
    Simulates (MqttVscpd.step lib) step (Tracks (ι := ι)) (requests lib) := by
  intro s m s' q ht h
  have hmodify : ∀ f : CDeviceItem → CDeviceItem, (∀ it, (f it).openHandle = it.openHandle) →
      (∀ it, it.bQuit = true → (f it).bQuit = true) → Tracks (s.modify f) q := by
    intro f hh hq
    obtain ⟨hleaves, g, hi, hat⟩ := ht
    exact ⟨hleaves, g, hi.modify hh hq, hat.same (hh _) rfl Iff.rfl⟩
  cases m with
  | thread => exact tracks_thread ht h
  | callback i => exact tracks_callback ht h
  | event i ev =>
    obtain ⟨hleaves, g, hi, hat⟩ := ht
    have hi' : InvAt g s' := hi.event h
    simp only [MqttVscpd.step] at h
    split at h <;> cases h
    next hc =>
    exact ⟨q, rfl, hleaves, g, hi', hat.same rfl rfl (writing_update rfl (by simp [hc.2, inDriver]))⟩
  | stopDriver =>
    cases h
    exact ⟨q, rfl, hmodify _ (fun it => by unfold requestQuit; split <;> rfl)
      (fun it hq => by unfold requestQuit; split <;> simp [hq])⟩
  | pauseDriver | resumeDriver =>
    cases h
    exact ⟨q, rfl, hmodify _ (fun _ => rfl) (fun _ hq => hq)⟩

/-- **A device keeps to its driver's API.** Whatever the loader, the driver and the
broker answer, in every order of the steps of `deviceThread`, the callbacks and the
other threads, what the library is asked is a run of the API's model: every read and
write has the handle of the driver open then, no two writes overlap, and the driver is
closed, at most once, with no write in it. -/
theorem device_keeps_api {lib : Vscphelper} {it : CDeviceItem} {o : Outcomes} {s : State ι} {moves : List (Move ι)}
    (h : run (MqttVscpd.step lib) (start it o) moves = some s) :
    ∃ q, run step .absent (trace (MqttVscpd.step lib) (requests lib) (start it o) moves) = some q ∧
      ((∃ i, inDriver (s.cb i) = true) → ∃ hd, q = .opened hd true) := by
  obtain ⟨q, hq, -, g, hi, hat⟩ := (simulates_api lib).run (tracks_start it o) h
  refine ⟨q, hq, fun hw => ?_⟩
  have hopen : g.open = true := by
    by_contra hg
    exact not_writing_of_stage hi (by simpa using hg) hw
  obtain ⟨w, rfl, hw'⟩ := hat.opened hopen
  obtain rfl : w = true := hw'.mpr hw
  exact ⟨_, rfl⟩

/-- The run as far as the driver asks for a lookup of each entry point, an open, a read of the
driver's level and a write. -/
theorem device_keeps_api_toCall :
    ∃ q, run step .absent (trace (MqttVscpd.step canalIdHelper) (requests canalIdHelper)
      (start { driverLevel := VSCP_DRIVER_LEVEL1 } servingOutcomes) movesToCall) = some q ∧
        q = .opened 7 true := by
  have hrun : ∃ s, run (MqttVscpd.step canalIdHelper) (start { driverLevel := VSCP_DRIVER_LEVEL1 } servingOutcomes)
      movesToCall = some s := ⟨_, rfl⟩
  obtain ⟨s, hs⟩ := hrun
  obtain ⟨q, hq, -⟩ := device_keeps_api hs
  have hlast : run step .absent (trace (MqttVscpd.step canalIdHelper) (requests canalIdHelper)
      (start { driverLevel := VSCP_DRIVER_LEVEL1 } servingOutcomes) movesToCall) = some (.opened 7 true) := rfl
  exact ⟨q, hq, Option.some.inj (hq.symm.trans hlast)⟩

end MqttVscpd.DriverApi
