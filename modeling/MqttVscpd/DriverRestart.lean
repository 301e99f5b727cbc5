/-
Starting and stopping one driver over and over: every sequence of `startDriver`
and `stopDriver` calls on an item, with the worker threads they create running in
between. A stop leaves `m_bQuit` set, and no start clears it or looks at
`m_bThreadStarted`.
-/
import MqttVscpd.DeviceSystem

namespace MqttVscpd

open Transition

/-- A worker thread: what `deviceThread` has left to do, once it has begun.
`joined` and `asked` are for the record: a `pthread_join` for it has returned,
and a `stopDriver` was called after it was created. -/
structure Worker where
  outcomes : Outcomes
  todo : Option (List Act) := none
  joined : Bool := false
  asked : Bool := false

/-- The thread function has returned. -/
def Worker.Ended (w : Worker) : Prop := w.todo.any List.isEmpty = true

instance (w : Worker) : Decidable w.Ended := inferInstanceAs (Decidable (_ = true))

/-- Where the caller of `startDriver` and `stopDriver` is. -/
inductive Caller where
  /-- Between two calls. -/
  | idle
  /-- In `stopDriver`, before the join. -/
  | joining
  deriving DecidableEq

/-- One item, the threads created for it and the thread that calls it. -/
structure Restart where
  device : Device
  /-- `m_deviceThreadHandle`, by the order of creation. -/
  deviceThreadHandle : Nat := 0
  workers : List Worker := []
  caller : Caller := .idle
  /-- The owner of `m_deviceMutex`. -/
  mutex : Option Nat := none

inductive RestartMove where
  /-- `startDriver`, with what the new thread's calls will answer; `none` when `pthread_create` fails. -/
  | startDriver (created : Option Outcomes)
  /-- `stopDriver`, as far as the join. -/
  | stopDriver
  | join
  /-- The next step of a worker. -/
  | work (k : Nat)

def Restart.start (it : CDeviceItem) : Restart := { device := { item := it } }

/-- `CDeviceItem::startDriver` -/
def startDriver (s : Restart) (created : Option Outcomes) : Restart :=
  if s.device.item.bEnable then
    match created with
    | none => s
    | some o => { s with
      device.item.bThreadStarted := true
      deviceThreadHandle := s.workers.length
      workers := s.workers ++ [{ outcomes := o }] }
  else s

/-- `CDeviceItem::stopDriver`, as far as the join. -/
def stopDriver (s : Restart) : Restart :=
  if s.device.item.bEnable then
    { s with
      device.item.bQuit := true
      workers := s.workers.map fun w => { w with asked := true }
      caller := .joining }
  else s

/-- The join and what follows it in `stopDriver`. The join waits for the thread to end. -/
def joinDriver (s : Restart) : Option Restart :=
  if s.device.item.bThreadStarted then
    match s.workers[s.deviceThreadHandle]? with
    | none => none
    | some w =>
      if w.Ended then
        some { s with
          device.item.bThreadStarted := false
          workers := s.workers.set s.deviceThreadHandle { w with joined := true }
          caller := .idle }
      else none
  else some { s with caller := .idle }

/-- A worker begins, or does its next action. -/
def workDriver (s : Restart) (k : Nat) (w : Worker) : Option Restart :=
  match w.todo with
  | none => some { s with workers := s.workers.set k { w with todo := some (deviceThread s.device.item w.outcomes) } }
  | some [] => none
  | some (a :: acts) =>
    let s' := { s with device := a.exec s.device, workers := s.workers.set k { w with todo := some acts } }
    match a with
    | .testQuit b => if s.device.item.bQuit = b then some s' else none
    | .lock => if s.mutex = none then some { s' with mutex := some k } else none
    | .unlock => some { s' with mutex := none }
    | _ => some s'

def restartStep (s : Restart) : RestartMove → Option Restart
  | .startDriver created => if s.caller = .idle then some (startDriver s created) else none
  | .stopDriver => if s.caller = .idle then some (stopDriver s) else none
  | .join => if s.caller = .joining then joinDriver s else none
  | .work k =>
    match s.workers[k]? with
    | none => none
    | some w => workDriver s k w

/-! ## The law -/

/-- What is to hold at any time: one thread at most that is not joined; a thread is
joined when a later `stopDriver` has returned; and `m_bQuit` is not set for a
thread after whose creation no `stopDriver` was called, so that its work loop is
entered. -/
structure Restartable (s : Restart) : Prop where
  one : s.workers.countP (!·.joined) ≤ 1
  joined : s.caller = .idle → ∀ w ∈ s.workers, w.asked = true → w.joined = true
  quit : ∀ w ∈ s.workers, w.asked = false → s.device.item.bQuit = false

inductive DriverCall where
  | start
  | stop
  deriving DecidableEq

/-- The calls of a run, without those that create no thread. -/
def calls (ms : List RestartMove) : List DriverCall :=
  ms.filterMap fun
    | .startDriver (some _) => some .start
    | .stopDriver => some .stop
    | _ => none

/-! ## `m_bQuit` and the workers -/

/-- A worker sets `m_bQuit` only after it has found it set. -/
def QuitGuarded : List Act → Prop
  | [] => True
  | .quit :: _ => False
  | .testQuit true :: _ => True
  | _ :: acts => QuitGuarded acts

theorem QuitGuarded.tail {a : Act} {acts : List Act} (h : QuitGuarded (a :: acts)) :
    a ≠ .quit ∧ (a = .testQuit true ∨ QuitGuarded acts) := by
  cases a with
  | quit => exact h.elim
  | testQuit b =>
    cases b with
    | true => exact ⟨nofun, .inl rfl⟩
    | false => exact ⟨nofun, .inr h⟩
  | _ => exact ⟨nofun, .inr h⟩

theorem quitGuarded_lookupAll {o : Outcomes} {missing : Lookup → Bool} {bail k : List Act} (hb : QuitGuarded bail)
    (hk : QuitGuarded k) (ps : List Proc) : QuitGuarded (lookupAll o missing bail ps k) := by
  induction ps with
  | nil => exact hk
  | cons p ps ih =>
    show QuitGuarded (if missing (o.dlsym p) then bail else lookupAll o missing bail ps k)
    split
    · exact hb
    · exact ih

theorem quitGuarded_workLoopActs (l : Loop) (ticks : List Tick) (k : List Act) :
    QuitGuarded (workLoopActs l ticks ++ k) := by
  induction ticks with
  | nil => trivial
  | cons t ticks ih => exact ih

theorem quitGuarded_level1 (o : Outcomes) : QuitGuarded (level1 o) := by
  have hserve : QuitGuarded (level1Serve o) := by
    show QuitGuarded (if !o.connect then _ else _)
    split
    · trivial
    · show QuitGuarded (_ ++ shutdownActs)
      split
      · rw [List.append_assoc]
        exact quitGuarded_workLoopActs ..
      · exact quitGuarded_workLoopActs ..
  have hopen : QuitGuarded (level1Open o) := by
    show QuitGuarded (if o.canalOpen ≤ 0 then _ else _)
    split
    · trivial
    · exact hserve
  unfold level1
  refine quitGuarded_lookupAll ?_ (quitGuarded_lookupAll ?_ (quitGuarded_lookupAll ?_ hopen _) _) _
  all_goals trivial

theorem quitGuarded_level2 (o : Outcomes) : QuitGuarded (level2 o) := by
  have hserve : QuitGuarded (level2Serve o) := by
    show QuitGuarded (if !o.connect then _ else _)
    split
    · trivial
    · exact quitGuarded_workLoopActs ..
  have hopen : QuitGuarded (level2Open o) := by
    show QuitGuarded (if o.vscpOpen = 0 then _ else _)
    split
    · trivial
    · exact hserve
  unfold level2
  refine quitGuarded_lookupAll ?_ hopen _
  trivial

theorem quitGuarded_deviceThread (it : CDeviceItem) (o : Outcomes) : QuitGuarded (deviceThread it o) := by
  show QuitGuarded (if !o.dlopen then _ else _)
  split
  · trivial
  · split
    · exact quitGuarded_level1 o
    · split
      · exact quitGuarded_level2 o
      · trivial

/-- What no action of a worker changes. -/
theorem exec_flags (a : Act) (d : Device) :
    (a.exec d).item.bEnable = d.item.bEnable ∧ (a.exec d).item.bThreadStarted = d.item.bThreadStarted ∧
      (a.exec d).item.bQuit = (d.item.bQuit || (a matches .quit)) := by
  cases a with
  | dlopen ok => cases ok <;> simp [Act.exec]
  | _ => simp [Act.exec, CDeviceItem.setProc]

/-! ## What a step does -/

variable {s s' : Restart} {k : Nat} {w : Worker}

theorem startDriver_none (s : Restart) : startDriver s none = s := ite_self s

theorem startDriver_some (h : s.device.item.bEnable = true) (o : Outcomes) :
    startDriver s (some o) = { s with
      device.item.bThreadStarted := true
      deviceThreadHandle := s.workers.length
      workers := s.workers ++ [{ outcomes := o }] } :=
  if_pos h

theorem stopDriver_eq (h : s.device.item.bEnable = true) :
    stopDriver s = { s with
      device.item.bQuit := true
      workers := s.workers.map fun w => { w with asked := true }
      caller := .joining } :=
  if_pos h

/-- What a step of a worker changes besides its own list: nothing when it begins, else what its action does. -/
theorem workDriver_cases (h : workDriver s k w = some s') :
    (w.todo = none ∧ s' = { s with
      workers := s.workers.set k { w with todo := some (deviceThread s.device.item w.outcomes) } }) ∨
    ∃ a acts m, w.todo = some (a :: acts) ∧ (a = .testQuit true → s.device.item.bQuit = true) ∧
      s' = { s with
        device := a.exec s.device
        workers := s.workers.set k { w with todo := some acts }
        mutex := m } := by
  unfold workDriver at h
  split at h
  · next ht => exact .inl ⟨ht, (Option.some.inj h).symm⟩
  · cases h
  · next a acts ht =>
    refine .inr ⟨a, acts, ?_⟩
    cases a with
    | testQuit b =>
      dsimp only at h
      split at h
      · next hb =>
        refine ⟨s.mutex, ht, fun heq => ?_, (Option.some.inj h).symm⟩
        cases heq
        exact hb
      · cases h
    | lock =>
      dsimp only at h
      split at h
      · exact ⟨some k, ht, nofun, (Option.some.inj h).symm⟩
      · cases h
    | unlock => exact ⟨none, ht, nofun, (Option.some.inj h).symm⟩
    | _ => exact ⟨s.mutex, ht, nofun, (Option.some.inj h).symm⟩

theorem restartStep_work (h : restartStep s (.work k) = some s') :
    ∃ w, s.workers[k]? = some w ∧ workDriver s k w = some s' := by
  simp only [restartStep] at h
  split at h
  · cases h
  · next w hw => exact ⟨w, hw, h⟩

theorem joinDriver_cases (h : joinDriver s = some s') :
    (s.device.item.bThreadStarted = false ∧ s' = { s with caller := .idle }) ∨
    ∃ w, s.workers[s.deviceThreadHandle]? = some w ∧ s' = { s with
      device.item.bThreadStarted := false
      workers := s.workers.set s.deviceThreadHandle { w with joined := true }
      caller := .idle } := by
  unfold joinDriver at h
  split at h
  · split at h
    · cases h
    · next w hw =>
      split at h
      · exact .inr ⟨w, hw, (Option.some.inj h).symm⟩
      · cases h
  · next hs => exact .inl ⟨by simpa using hs, (Option.some.inj h).symm⟩

/-! ## Runs that conform -/

/-- A thread is created only while neither flag is set. -/
def StartsFresh (s : Restart) (m : RestartMove) : Prop :=
  ∀ o, m = .startDriver (some o) → s.device.item.bQuit = false ∧ s.device.item.bThreadStarted = false

/-- What holds as long as threads are created so. -/
structure Conforming (s : Restart) : Prop where
  enabled : s.device.item.bEnable = true
  few : s.workers.length ≤ 1
  asked : ∀ w ∈ s.workers, w.asked = s.device.item.bQuit
  joined : ∀ w ∈ s.workers, w.joined = true → w.asked = true
  started : s.device.item.bThreadStarted = true → s.workers ≠ []
  unstarted : s.device.item.bThreadStarted = false → ∀ w ∈ s.workers, w.joined = true
  idle : s.caller = .idle → s.device.item.bQuit = true → s.device.item.bThreadStarted = false
  joining : s.caller = .joining → s.device.item.bQuit = true
  guarded : s.device.item.bQuit = false → ∀ w ∈ s.workers, ∀ acts, w.todo = some acts → QuitGuarded acts

theorem Conforming.restartable (h : Conforming s) : Restartable s where
  one := Nat.le_trans List.countP_le_length h.few
  joined hidle w hw hasked := by
    have hquit : s.device.item.bQuit = true := h.asked w hw ▸ hasked
    exact h.unstarted (h.idle hidle hquit) w hw
  quit w hw hasked := h.asked w hw ▸ hasked

/-- It does not matter to it which actions a worker has left, as long as they guard `m_bQuit`. -/
theorem Conforming.setTodo (h : Conforming s) (hw : w ∈ s.workers) {d : Device} {acts : List Act} {m : Option Nat}
    (henable : d.item.bEnable = s.device.item.bEnable)
    (hstarted : d.item.bThreadStarted = s.device.item.bThreadStarted) (hquit : d.item.bQuit = s.device.item.bQuit)
    (hacts : s.device.item.bQuit = false → QuitGuarded acts) :
    Conforming { s with device := d, workers := s.workers.set k { w with todo := some acts }, mutex := m } := by
  have hworker : ∀ x ∈ s.workers.set k { w with todo := some acts }, ∃ y ∈ s.workers,
      x.asked = y.asked ∧ x.joined = y.joined ∧ (x = y ∨ x.todo = some acts) := by
    intro x hx
    rcases List.mem_or_eq_of_mem_set hx with hx | rfl
    · exact ⟨x, hx, rfl, rfl, .inl rfl⟩
    · exact ⟨w, hw, rfl, rfl, .inr rfl⟩
  constructor
  · exact henable.trans h.enabled
  · rw [List.length_set]
    exact h.few
  · intro x hx
    obtain ⟨y, hy, hasked, -⟩ := hworker x hx
    rw [hasked, h.asked y hy, ← hquit]
  · intro x hx hj
    obtain ⟨y, hy, hasked, hjoined, -⟩ := hworker x hx
    rw [hasked]
    exact h.joined y hy (hjoined ▸ hj)
  · intro hs hnil
    exact h.started (hstarted ▸ hs) (by simpa using hnil)
  · intro hs x hx
    obtain ⟨y, hy, -, hjoined, -⟩ := hworker x hx
    rw [hjoined]
    exact h.unstarted (hstarted ▸ hs) y hy
  · intro hidle hq
    exact hstarted.trans (h.idle hidle (hquit ▸ hq))
  · intro hjoining
    exact hquit.trans (h.joining hjoining)
  · intro hq x hx acts' hacts'
    have hq' : s.device.item.bQuit = false := hquit ▸ hq
    obtain ⟨y, hy, -, -, rfl | htodo⟩ := hworker x hx
    · exact h.guarded hq' x hy acts' hacts'
    · rw [htodo, Option.some.injEq] at hacts'
      exact hacts' ▸ hacts hq'

/-- A worker's step keeps it: `m_bQuit` is not set by a worker that has not found it set. -/
theorem Conforming.work (h : Conforming s) (hw : w ∈ s.workers) (hstep : workDriver s k w = some s') :
    Conforming s' := by
  rcases workDriver_cases hstep with ⟨-, rfl⟩ | ⟨a, acts, m, htodo, htest, rfl⟩
  · exact h.setTodo hw rfl rfl rfl fun _ => quitGuarded_deviceThread _ _
  · obtain ⟨henable, hstarted, hquit⟩ := exec_flags a s.device
    cases hq : s.device.item.bQuit with
    | true =>
      refine h.setTodo hw henable hstarted ?_ fun hfalse => ?_
      · rw [hquit, hq, Bool.true_or]
      · rw [hq] at hfalse
        cases hfalse
    | false =>
      obtain ⟨hne, hrest⟩ := (h.guarded hq w hw _ htodo).tail
      refine h.setTodo hw henable hstarted ?_ fun _ => ?_
      · rw [hquit]
        cases a <;> first | exact absurd rfl hne | simp
      · rcases hrest with htrue | hrest
        · rw [htest htrue] at hq
          cases hq
        · exact hrest

/-- No thread has been created yet while neither flag is set. -/
theorem Conforming.workers_nil (h : Conforming s) (hq : s.device.item.bQuit = false)
    (hs : s.device.item.bThreadStarted = false) : s.workers = [] := by
  refine List.eq_nil_iff_forall_not_mem.mpr fun w hw => ?_
  have hasked := h.joined w hw (h.unstarted hs w hw)
  rw [h.asked w hw, hq] at hasked
  cases hasked

theorem Conforming.startDriver (h : Conforming s) {created : Option Outcomes}
    (hc : StartsFresh s (.startDriver created)) (hidle : s.caller = .idle) :
    Conforming (startDriver s created) := by
  cases created with
  | none =>
    rw [startDriver_none]
    exact h
  | some o =>
    obtain ⟨hq, hs⟩ := hc o rfl
    rw [startDriver_some h.enabled]
    have hnil := h.workers_nil hq hs
    simp only [hnil, List.nil_append]
    refine ⟨h.enabled, Nat.le_refl 1, ?_, ?_, fun _ => List.cons_ne_nil _ _, nofun, ?_, ?_, ?_⟩
    · simp [hq]
    · simp
    · intro _ hquit
      rw [hq] at hquit
      cases hquit
    · intro hjoining
      rw [hidle] at hjoining
      cases hjoining
    · simp

theorem Conforming.stopDriver (h : Conforming s) : Conforming (stopDriver s) := by
  rw [stopDriver_eq h.enabled]
  refine ⟨h.enabled, ?_, ?_, ?_, ?_, ?_, nofun, fun _ => rfl, nofun⟩
  · rw [List.length_map]
    exact h.few
  · simp
  · simp
  · intro hs hnil
    exact h.started hs (List.map_eq_nil_iff.mp hnil)
  · intro hs x hx
    obtain ⟨w, hw, rfl⟩ := List.mem_map.mp hx
    exact h.unstarted hs w hw

theorem eq_singleton_of_getElem? {α : Type} {l : List α} {k : Nat} {x : α} (hlen : l.length ≤ 1) (h : l[k]? = some x) :
    l = [x] ∧ k = 0 := by
  match l, k with
  | [], _ => cases h
  | [y], 0 => exact ⟨by rw [Option.some.inj h], rfl⟩
  | [_], k + 1 => cases h
  | _ :: _ :: _, _ => exact absurd hlen (by simp)

theorem Conforming.joinDriver (h : Conforming s) (hcaller : s.caller = .joining) (hstep : joinDriver s = some s') :
    Conforming s' := by
  have hquit := h.joining hcaller
  rcases joinDriver_cases hstep with ⟨hs, rfl⟩ | ⟨w, hw, rfl⟩
  · exact { h with idle := fun _ _ => hs, joining := nofun }
  · obtain ⟨hone, hhandle⟩ := eq_singleton_of_getElem? h.few hw
    simp only [hone, hhandle, List.set_cons_zero]
    -- The thread joined is the only one there is.
    have hasked : w.asked = true := (h.asked w (List.mem_of_getElem? hw)).trans hquit
    refine ⟨h.enabled, Nat.le_refl 1, ?_, ?_, nofun, ?_, fun _ _ => rfl, nofun, ?_⟩
    · simp [hasked, hquit]
    · simp [hasked]
    · simp
    · intro hfalse
      rw [hquit] at hfalse
      cases hfalse

theorem conforming_step {m : RestartMove} (h : Conforming s) (hc : StartsFresh s m)
    (hstep : restartStep s m = some s') : Conforming s' := by
  cases m with
  | startDriver created =>
    simp only [restartStep] at hstep
    split at hstep
    · next hidle =>
      cases hstep
      exact h.startDriver hc hidle
    · cases hstep
  | stopDriver =>
    simp only [restartStep] at hstep
    split at hstep
    · cases hstep
      exact h.stopDriver
    · cases hstep
  | join =>
    simp only [restartStep] at hstep
    split at hstep
    · next hcaller => exact h.joinDriver hcaller hstep
    · cases hstep
  | work k =>
    obtain ⟨w, hw, hstep⟩ := restartStep_work hstep
    exact h.work (List.mem_of_getElem? hw) hstep

/-- A thread created while a flag is set breaks the law at once. -/
theorem not_restartable_step {m : RestartMove} (h : Conforming s) (hc : ¬ StartsFresh s m)
    (hstep : restartStep s m = some s') : ¬ Restartable s' := by
  simp only [StartsFresh, not_forall] at hc
  obtain ⟨o, rfl, hflags⟩ := hc
  simp only [restartStep] at hstep
  split at hstep
  · cases hstep
    intro hlaw
    have hone := hlaw.one
    have hquit := hlaw.quit
    rw [startDriver_some h.enabled] at hone hquit
    have hq : s.device.item.bQuit = false := hquit { outcomes := o } (by simp) rfl
    have hs : s.device.item.bThreadStarted = true := by simpa [hq] using hflags
    obtain ⟨w, hw⟩ := List.exists_mem_of_ne_nil _ (h.started hs)
    have hjoined : w.joined = false := by
      by_contra hj
      have hasked := h.joined w hw (by simpa using hj)
      rw [h.asked w hw, hq] at hasked
      cases hasked
    have hpos : 0 < s.workers.countP (!·.joined) := List.countP_pos_iff.mpr ⟨w, hw, by simp [hjoined]⟩
    rw [List.countP_append] at hone
    change s.workers.countP (!·.joined) + 1 ≤ 1 at hone
    omega
  · cases hstep

theorem conforming_start {it : CDeviceItem} (hen : it.bEnable = true) (hs : it.bThreadStarted = false) :
    Conforming (Restart.start it) where
  enabled := hen
  few := Nat.zero_le 1
  asked := nofun
  joined := nofun
  started h := by
    rw [show it.bThreadStarted = true from h] at hs
    cases hs
  unstarted _ := nofun
  idle _ _ := hs
  joining := nofun
  guarded _ := nofun

/-! ## By the calls -/

/-- One of the flags is set, as it stays from the first call on. -/
structure Touched (s : Restart) : Prop where
  enabled : s.device.item.bEnable = true
  flag : s.device.item.bQuit = true ∨ s.device.item.bThreadStarted = true
  joining : s.caller = .joining → s.device.item.bQuit = true

theorem touched_step {m : RestartMove} (h : Touched s) (hstep : restartStep s m = some s') : Touched s' := by
  cases m with
  | startDriver created =>
    simp only [restartStep] at hstep
    split at hstep
    · cases hstep
      cases created with
      | none =>
        rw [startDriver_none]
        exact h
      | some o =>
        rw [startDriver_some h.enabled]
        exact ⟨h.enabled, .inr rfl, fun hj => h.joining hj⟩
    · cases hstep
  | stopDriver =>
    simp only [restartStep] at hstep
    split at hstep
    · cases hstep
      rw [stopDriver_eq h.enabled]
      exact ⟨h.enabled, .inl rfl, fun _ => rfl⟩
    · cases hstep
  | join =>
    simp only [restartStep] at hstep
    split at hstep
    · next hcaller =>
      have hquit := h.joining hcaller
      rcases joinDriver_cases hstep with ⟨-, rfl⟩ | ⟨w, -, rfl⟩
      · exact ⟨h.enabled, .inl hquit, nofun⟩
      · exact ⟨h.enabled, .inl hquit, nofun⟩
    · cases hstep
  | work k =>
    obtain ⟨w, -, hstep⟩ := restartStep_work hstep
    rcases workDriver_cases hstep with ⟨-, rfl⟩ | ⟨a, acts, m, -, -, rfl⟩
    · exact ⟨h.enabled, h.flag, h.joining⟩
    · obtain ⟨henable, hstarted, hquit⟩ := exec_flags a s.device
      refine ⟨henable.trans h.enabled, h.flag.imp (fun hq => ?_) fun hs => hstarted.trans hs, fun hj => ?_⟩
      · rw [hquit, hq, Bool.true_or]
      · rw [hquit, h.joining hj, Bool.true_or]

/-- The item before the first call. -/
structure NotCalled (s : Restart) : Prop where
  enabled : s.device.item.bEnable = true
  quit : s.device.item.bQuit = false
  started : s.device.item.bThreadStarted = false
  workers : s.workers = []
  caller : s.caller = .idle

theorem calls_cons (m : RestartMove) (ms : List RestartMove) :
    calls (m :: ms) = calls [m] ++ calls ms := by
  rw [← List.singleton_append]
  exact List.filterMap_append

/-- Later threads conform exactly when there are none. -/
theorem along_touched {ms : List RestartMove} {t : Restart} (h : Touched s) (hrun : run restartStep s ms = some t) :
    Along restartStep StartsFresh s ms ↔ DriverCall.start ∉ calls ms := by
  induction ms generalizing s with
  | nil => exact ⟨fun _ => List.not_mem_nil, fun _ => trivial⟩
  | cons m ms ih =>
    obtain ⟨s', hstep, hrun⟩ := run_cons_iff.mp hrun
    rw [along_cons hstep, calls_cons, List.mem_append, not_or, ih (touched_step h hstep) hrun]
    refine and_congr_left fun _ => ?_
    have hflags : ¬ (s.device.item.bQuit = false ∧ s.device.item.bThreadStarted = false) := by
      intro hno
      rcases h.flag with hf | hf <;> simp [hf] at hno
    cases m with
    | startDriver created =>
      cases created with
      | none => exact ⟨fun _ => List.not_mem_nil, fun _ => nofun⟩
      | some o => exact ⟨fun hc => absurd (hc o rfl) hflags, fun hc => absurd List.mem_cons_self hc⟩
    | stopDriver => exact ⟨fun _ => by decide, fun _ => nofun⟩
    | join | work k => exact ⟨fun _ => List.not_mem_nil, fun _ => nofun⟩

/-- The first thread conforms, if no call came before. -/
theorem along_notCalled {ms : List RestartMove} {t : Restart} (h : NotCalled s)
    (hrun : run restartStep s ms = some t) :
    Along restartStep StartsFresh s ms ↔ DriverCall.start ∉ (calls ms).tail := by
  induction ms generalizing s with
  | nil => exact ⟨fun _ => List.not_mem_nil, fun _ => trivial⟩
  | cons m ms ih =>
    obtain ⟨s', hstep, hrest⟩ := run_cons_iff.mp hrun
    have hc : StartsFresh s m := fun _ _ => ⟨h.quit, h.started⟩
    rw [along_cons hstep, and_iff_right hc]
    cases m with
    | startDriver created =>
      simp only [restartStep, if_pos h.caller, Option.some.injEq] at hstep
      subst hstep
      cases created with
      | none =>
        rw [startDriver_none] at hrest ⊢
        exact ih h hrest
      | some o =>
        rw [startDriver_some h.enabled] at hrest ⊢
        exact along_touched ⟨h.enabled, .inr rfl, fun hj => by cases h.caller.symm.trans hj⟩ hrest
    | stopDriver =>
      simp only [restartStep, if_pos h.caller, Option.some.injEq] at hstep
      subst hstep
      rw [stopDriver_eq h.enabled] at hrest ⊢
      exact along_touched ⟨h.enabled, .inl rfl, fun _ => rfl⟩ hrest
    | join => simp [restartStep, h.caller] at hstep
    | work k => simp [restartStep, h.workers] at hstep

/-- **When a driver can be started and stopped over and over**: the law holds in
every state of a run exactly when no thread is created after the run's first call. -/
theorem restartable_iff {it : CDeviceItem} (hen : it.bEnable = true) (hq : it.bQuit = false)
    (hs : it.bThreadStarted = false) {ms : List RestartMove} {t : Restart}
    (hrun : run restartStep (.start it) ms = some t) :
    (∀ bs s, bs <+: ms → run restartStep (.start it) bs = some s → Restartable s) ↔
      DriverCall.start ∉ (calls ms).tail := by
  rw [always_iff_along (I := Conforming) (fun _ => Conforming.restartable) (fun _ _ _ => conforming_step)
    (fun _ _ _ => not_restartable_step) (conforming_start hen hs) hrun]
  exact along_notCalled ⟨hen, hq, hs, rfl, rfl⟩ hrun

/-- An enabled item of level I. -/
def enabledDriver : CDeviceItem := { bEnable := true, driverLevel := VSCP_DRIVER_LEVEL1 }

/-- A thread whose library cannot be loaded. -/
def unloadable : Outcomes where
  dlopen := false
  dlsym _ := .error
  canalOpen := 0
  vscpOpen := 0
  connect := false
  getLevel := 1
  ticks := []

/-- A start, and a stop when the thread has returned. -/
def onceMoves : List RestartMove :=
  [.startDriver (some unloadable), .work 0, .work 0, .stopDriver, .join]

/-- A second start after the stop creates a thread that finds `m_bQuit` set, and
one without a stop creates a thread beside the first. -/
theorem not_restartable_twice :
    (∃ s, run restartStep (.start enabledDriver) (onceMoves ++ [.startDriver (some unloadable)]) = some s ∧
      s.device.item.bQuit = true ∧ ¬ Restartable s) ∧
    (∃ s, run restartStep (.start enabledDriver)
        [.startDriver (some unloadable), .startDriver (some unloadable)] = some s ∧
      s.workers.countP (!·.joined) = 2 ∧ ¬ Restartable s) := by
  constructor
  · refine ⟨_, rfl, rfl, fun h => ?_⟩
    exact absurd (h.quit { outcomes := unloadable } (.tail _ (.head _)) rfl) (by decide)
  · refine ⟨_, rfl, rfl, fun h => ?_⟩
    exact absurd h.one (by decide)

/-- Once started and stopped, the law holds throughout. -/
theorem restartable_once : (∃ t, run restartStep (.start enabledDriver) onceMoves = some t) ∧
    ∀ bs s, bs <+: onceMoves → run restartStep (.start enabledDriver) bs = some s → Restartable s := by
  have hrun : ∃ t, run restartStep (.start enabledDriver) onceMoves = some t := ⟨_, rfl⟩
  obtain ⟨t, ht⟩ := hrun
  exact ⟨⟨t, ht⟩, (restartable_iff rfl rfl rfl ht).mpr (by decide)⟩

end MqttVscpd
