/-
Start and stop of the device threads: `startDeviceWorkerThreads`, the main loop,
any number of `cleanup` calls and the deletion of the control object, with the
device threads running in between. `pthread_create` may fail for any item, and a
device thread may end at any time.
-/
import Mathlib.Data.List.Basic
import MqttVscpd.DeviceSystem
import MqttVscpd.Lib.Fairness

namespace MqttVscpd.Shutdown

open Transition

/-- A device item and its thread, with how often the thread has been created and joined. -/
structure Worker where
  item : CDeviceItem
  running : Bool := false
  created : Nat := 0
  joined : Nat := 0

/-- Where `main` is. The number is the item its loop is at. -/
inductive MainPc where
  /-- In `startDeviceWorkerThreads`. -/
  | starting (i : Nat)
  /-- In the main loop. -/
  | looping
  /-- In `cleanup`: about to call `stopDriver`. -/
  | stopping (i : Nat)
  /-- In `stopDriver`: in `pthread_join`. -/
  | joining (i : Nat)
  /-- A `cleanup` has returned. -/
  | cleanedUp
  /-- The control object is deleted. -/
  | deleted

structure State where
  workers : List Worker
  pc : MainPc := .starting 0
  /-- `CControlObject::m_bQuit` -/
  bQuit : Bool := false
  /-- The `cleanup` calls that have returned. -/
  cleanups : Nat := 0

/-- What a device thread does, as far as others can tell. -/
inductive ThreadAct where
  | work
  /-- `m_pCtrlObj->discovery(pev)` -/
  | discovery
  /-- `m_bQuit = true`, on the way out. -/
  | quit
  | returns

inductive Move where
  /-- The next item in `startDeviceWorkerThreads`, and whether `pthread_create` succeeds for it. -/
  | start (created : Bool)
  /-- A signal sets the control object's `m_bQuit`. -/
  | signal
  /-- The next test of the main loop. -/
  | loop
  /-- The next item in `stopDeviceWorkerThreads`, up to the join. -/
  | stop
  | join
  /-- Another `cleanup`. -/
  | cleanup
  | delete
  | thread (i : Nat) (act : ThreadAct)

/-- `startDriver` for an item `startDeviceWorkerThreads` does not skip. -/
def Worker.startDriver (w : Worker) (created : Bool) : Worker :=
  if !w.item.bEnable then w
  else if created then
    { w with item := { w.item with bThreadStarted := true }, running := true, created := w.created + 1 }
  else w

/-- `pthread_join` has returned. -/
def Worker.join (w : Worker) : Worker :=
  { w with item := { w.item with bThreadStarted := false }, joined := w.joined + 1 }

def Worker.act (w : Worker) : ThreadAct → Worker
  | .work | .discovery => w
  | .quit => { w with item := { w.item with bQuit := true } }
  | .returns => { w with running := false }

/-- `stopDriver` goes on to join the thread. -/
def Worker.joins (w : Worker) : Bool := w.item.bEnable && w.item.bThreadStarted

def step (s : State) : Move → Option State
  | .start created =>
    match s.pc with
    | .starting i =>
      if i < s.workers.length then
        some { s with workers := s.workers.modify i (·.startDriver created), pc := .starting (i + 1) }
      else some { s with pc := .looping }
    | _ => none
  | .signal => some { s with bQuit := true }
  | .loop =>
    match s.pc with
    | .looping => some { s with pc := if s.bQuit then .stopping 0 else .looping }
    | _ => none
  | .stop =>
    match s.pc with
    | .stopping i =>
      match s.workers[i]? with
      | some w =>
        some { s with
          workers := s.workers.modify i fun w => { w with item := requestQuit w.item }
          pc := if w.joins then .joining i else .stopping (i + 1) }
      | none => some { s with pc := .cleanedUp, cleanups := s.cleanups + 1 }
    | _ => none
  | .join =>
    match s.pc with
    | .joining i =>
      match s.workers[i]? with
      | some w =>
        if w.running then none
        else some { s with workers := s.workers.modify i Worker.join, pc := .stopping (i + 1) }
      | none => none
    | _ => none
  | .cleanup =>
    match s.pc with
    | .cleanedUp => some { s with pc := .stopping 0 }
    | _ => none
  | .delete =>
    match s.pc with
    | .cleanedUp => some { s with pc := .deleted }
    | _ => none
  | .thread i act =>
    match s.workers[i]? with
    | some w => if w.running then some { s with workers := s.workers.modify i (·.act act) } else none
    | none => none

/-- The items of a configuration, before any thread is started. -/
def Initial (s : State) : Prop :=
  ∃ items : List CDeviceItem, (∀ it ∈ items, it.bThreadStarted = false) ∧ s = { workers := items.map fun it => { item := it } }

/-! ## The invariant -/

/-- What an item's thread has been through when `main` is there. -/
def MainPc.Phase : MainPc → Nat → Worker → Prop
  | .starting k, i, w => k ≤ i → w.created = 0
  | .looping, _, _ => True
  | .stopping k, i, w => i < k → w.joined = w.created
  | .joining k, i, w => (i < k → w.joined = w.created) ∧ (i = k → w.joined < w.created ∧ w.item.bQuit = true)
  | .cleanedUp, _, w | .deleted, _, w => w.joined = w.created

/-- An item's flags follow its thread. -/
structure WorkerInv (pc : MainPc) (cleanups : Nat) (i : Nat) (w : Worker) : Prop where
  started : w.item.bThreadStarted = true ↔ w.joined < w.created
  joined_le : w.joined ≤ w.created
  created_le : w.created ≤ 1
  running : w.running = true → w.joined < w.created
  enabled : w.joined < w.created → w.item.bEnable = true
  phase : pc.Phase i w
  settled : 0 < cleanups → w.joined = w.created

/-- `main` has not come to its first `cleanup`. -/
def MainPc.beforeCleanup : MainPc → Prop
  | .starting _ | .looping => True
  | _ => False

structure Inv (s : State) : Prop where
  worker : ∀ i w, s.workers[i]? = some w → WorkerInv s.pc s.cleanups i w
  fresh : s.pc.beforeCleanup → s.cleanups = 0
  joinable : ∀ i, s.pc = .joining i → i < s.workers.length

theorem inv_initial {s : State} (h : Initial s) : Inv s := by
  obtain ⟨items, hns, rfl⟩ := h
  refine ⟨?_, fun _ => rfl, by simp⟩
  intro i w hw
  simp only [List.getElem?_map, Option.map_eq_some_iff] at hw
  obtain ⟨it, hit, rfl⟩ := hw
  have hstarted := hns it (List.mem_of_getElem? hit)
  exact ⟨by simp [hstarted], by simp, by simp, by simp, by simp, fun _ => rfl, by simp⟩

/-- What stands in a list in which the entry at `k` has been modified. -/
theorem getElem?_modify_some {α : Type} {ws : List α} {f : α → α} {k i : Nat} {w' : α}
    (h : (ws.modify k f)[i]? = some w') : ∃ w, ws[i]? = some w ∧ w' = if k = i then f w else w := by
  simp only [List.getElem?_modify, Option.map_eq_map, Option.map_eq_some_iff] at h
  obtain ⟨w, hw, rfl⟩ := h
  exact ⟨w, hw, rfl⟩

/-! ## What each step keeps -/

variable {pc : MainPc} {cleanups i k : Nat} {w : Worker}

theorem WorkerInv.startDriver (h : WorkerInv (.starting k) 0 k w) (created : Bool) :
    WorkerInv (.starting (k + 1)) 0 k (w.startDriver created) := by
  have hnone : w.created = 0 := h.phase (Nat.le_refl k)
  have hjoined : w.joined = 0 := Nat.le_zero.mp (hnone ▸ h.joined_le)
  have hphase : ∀ w' : Worker, (MainPc.starting (k + 1)).Phase k w' := by
    intro w' hk
    omega
  unfold Worker.startDriver
  split
  · exact { h with phase := hphase w }
  · next hen =>
    split
    · exact {
        started := by simp [hnone, hjoined]
        joined_le := by simp [hjoined]
        created_le := by simp [hnone]
        running := by simp [hnone, hjoined]
        enabled := fun _ => by simpa using hen
        phase := hphase _
        settled := by simp }
    · exact { h with phase := hphase w }

/-- The item `stopDriver` is called for. -/
theorem WorkerInv.stop (h : WorkerInv (.stopping k) cleanups k w) :
    WorkerInv (if w.joins then .joining k else .stopping (k + 1)) cleanups k { w with item := requestQuit w.item } := by
  have hen : (requestQuit w.item).bEnable = w.item.bEnable := by unfold requestQuit; split <;> rfl
  have hst : (requestQuit w.item).bThreadStarted = w.item.bThreadStarted := by unfold requestQuit; split <;> rfl
  have hphase : (if w.joins then MainPc.joining k else .stopping (k + 1)).Phase k
      { w with item := requestQuit w.item } := by
    split
    · next hj =>
      simp only [Worker.joins, Bool.and_eq_true] at hj
      refine ⟨fun hlt => absurd hlt (Nat.lt_irrefl k), fun _ => ⟨h.started.mp hj.2, ?_⟩⟩
      simp [requestQuit, hj.1]
    · next hj =>
      intro _
      by_contra hne
      have hlt : w.joined < w.created := Nat.lt_of_le_of_ne h.joined_le hne
      simp [Worker.joins, h.enabled hlt, h.started.mpr hlt] at hj
  exact { h with
    started := by rw [hst]; exact h.started
    enabled := by rw [hen]; exact h.enabled
    phase := hphase }

theorem WorkerInv.join (h : WorkerInv (.joining k) cleanups k w) (hr : w.running = false) :
    WorkerInv (.stopping (k + 1)) cleanups k w.join := by
  obtain ⟨hlt, -⟩ := h.phase.2 rfl
  have hone := h.created_le
  have hjoined : w.joined + 1 = w.created := by omega
  exact {
    started := by simp [Worker.join, hjoined]
    joined_le := by simp [Worker.join, hjoined]
    created_le := h.created_le
    running := by simp [Worker.join, hr]
    enabled := by simp [Worker.join, hjoined]
    phase := fun _ => hjoined
    settled := fun _ => hjoined }

theorem WorkerInv.act (h : WorkerInv pc cleanups i w) (a : ThreadAct) : WorkerInv pc cleanups i (w.act a) := by
  cases a with
  | work | discovery => exact h
  | returns => exact { h with running := by simp [Worker.act], phase := by cases pc <;> exact h.phase }
  | quit =>
    have hphase : pc.Phase i (w.act .quit) := by
      cases pc with
      | joining k => exact ⟨h.phase.1, fun hk => ⟨(h.phase.2 hk).1, rfl⟩⟩
      | _ => exact h.phase
    exact { h with phase := hphase }

/-- Modifying one worker and moving `main` on keeps the invariant, if the worker keeps its own and
the move keeps that of the others. -/
theorem Inv.modify {s : State} (hi : Inv s) {f : Worker → Worker}
    (hk : ∀ w, s.workers[k]? = some w → WorkerInv s.pc s.cleanups k w → WorkerInv pc s.cleanups k (f w))
    (hother : ∀ i w, i ≠ k → s.pc.Phase i w → pc.Phase i w)
    (hfresh : pc.beforeCleanup → s.pc.beforeCleanup) (hjoin : ∀ i, pc = .joining i → i < s.workers.length) :
    Inv { s with workers := s.workers.modify k f, pc := pc } := by
  refine ⟨?_, fun hb => hi.fresh (hfresh hb), ?_⟩
  · intro i w' hw'
    obtain ⟨w, hw, rfl⟩ := getElem?_modify_some hw'
    have hiw := hi.worker i w hw
    split
    · next heq =>
      subst heq
      exact hk w hw hiw
    · next hne => exact { hiw with phase := hother i w (Ne.symm hne) hiw.phase }
  · intro i hpc
    rw [List.length_modify]
    exact hjoin i hpc

/-- Moving `main` on keeps the invariant if every worker is where it should be. -/
theorem Inv.goto {s : State} (hi : Inv s) (hphase : ∀ i w, s.workers[i]? = some w → s.pc.Phase i w → pc.Phase i w)
    (hfresh : pc.beforeCleanup → s.pc.beforeCleanup) (hjoin : ∀ i, pc ≠ .joining i) : Inv { s with pc := pc } where
  worker i w hw := { hi.worker i w hw with phase := hphase i w hw (hi.worker i w hw).phase }
  fresh hb := hi.fresh (hfresh hb)
  joinable i hpc := absurd hpc (hjoin i)

theorem inv_start {s s' : State} {created : Bool} (hi : Inv s) (h : step s (.start created) = some s') : Inv s' := by
  simp only [step] at h
  split at h
  · next k hpc =>
    have hzero : s.cleanups = 0 := hi.fresh (by simp [hpc, MainPc.beforeCleanup])
    split at h <;> cases h
    · refine hi.modify ?_ ?_ (fun _ => by simp [hpc, MainPc.beforeCleanup]) (by simp)
      · intro w _ hw
        rw [hpc, hzero] at hw
        rw [hzero]
        exact hw.startDriver created
      · intro i w _ hw hle
        rw [hpc] at hw
        exact hw (by omega)
    · exact hi.goto (fun _ _ _ _ => trivial) (fun _ => by simp [hpc, MainPc.beforeCleanup]) (by simp)
  · cases h

theorem inv_stop {s s' : State} (hi : Inv s) (h : step s .stop = some s') : Inv s' := by
  simp only [step] at h
  split at h
  · next k hpc =>
    split at h <;> cases h
    · next w hw =>
      have hlt : k < s.workers.length := (List.getElem?_eq_some_iff.mp hw).1
      refine hi.modify ?_ ?_ ?_ ?_
      · intro w' hw' hinv
        obtain rfl : w = w' := Option.some.inj (hw.symm.trans hw')
        rw [hpc] at hinv
        exact hinv.stop
      · intro i w' hne hw'
        rw [hpc] at hw'
        split
        · exact ⟨hw', fun heq => absurd heq hne⟩
        · intro hlt'
          exact hw' (by omega)
      · intro hb
        split at hb <;> cases hb
      · intro i hjoin
        split at hjoin <;> cases hjoin
        exact hlt
    · next hnone =>
      have hdone : ∀ (i : Nat) (w : Worker), s.workers[i]? = some w → w.joined = w.created := by
        intro i w hw
        have hphase := (hi.worker i w hw).phase
        rw [hpc] at hphase
        have hlen := List.getElem?_eq_none_iff.mp hnone
        have hlt := (List.getElem?_eq_some_iff.mp hw).1
        exact hphase (by omega)
      refine ⟨?_, False.elim, by simp⟩
      intro i w hw
      exact { hi.worker i w hw with phase := hdone i w hw, settled := fun _ => hdone i w hw }
  · cases h

theorem inv_join {s s' : State} (hi : Inv s) (h : step s .join = some s') : Inv s' := by
  simp only [step] at h
  split at h
  · next k hpc =>
    split at h
    · next w hw =>
      split at h <;> cases h
      next hr =>
      refine hi.modify ?_ ?_ False.elim (by simp)
      · intro w' hw' hinv
        obtain rfl : w = w' := Option.some.inj (hw.symm.trans hw')
        rw [hpc] at hinv
        exact hinv.join (by simpa using hr)
      · intro i w' hne hw' hlt
        rw [hpc] at hw'
        exact hw'.1 (by omega)
    · cases h
  · cases h

theorem inv_step {s s' : State} {m : Move} (hi : Inv s) (h : step s m = some s') : Inv s' := by
  cases m with
  | start created => exact inv_start hi h
  | signal =>
    cases h
    exact ⟨hi.worker, hi.fresh, hi.joinable⟩
  | loop =>
    simp only [step] at h
    split at h
    · next hpc =>
      cases h
      refine hi.goto ?_ (fun _ => by simp [hpc, MainPc.beforeCleanup]) ?_
      · intro i w _ _
        split
        · intro hlt
          exact absurd hlt (Nat.not_lt_zero i)
        · trivial
      · intro i
        split <;> simp
    · cases h
  | stop => exact inv_stop hi h
  | join => exact inv_join hi h
  | cleanup =>
    simp only [step] at h
    split at h <;> cases h
    exact hi.goto (fun i _ _ _ hlt => absurd hlt (Nat.not_lt_zero i)) False.elim (by simp)
  | delete =>
    simp only [step] at h
    split at h <;> cases h
    next hpc => exact hi.goto (fun i w _ hw => by rw [hpc] at hw; exact hw) False.elim (by simp)
  | thread i a =>
    simp only [step] at h
    split at h
    · split at h <;> cases h
      exact hi.modify (fun w _ hw => hw.act a) (fun _ _ _ hw => hw) id hi.joinable
    · cases h

theorem Reachable.inv {s : State} (h : Reachable step Initial s) : Inv s :=
  Transition.Reachable.inv (fun _ => inv_initial) (fun _ _ _ => inv_step) h

/-! ## A cleanup returns -/

def MainPc.inCleanup : MainPc → Prop
  | .stopping _ | .joining _ => True
  | _ => False

/-- A step of `main`, not of a device thread or a signal. -/
def Move.isMain : Move → Prop
  | .signal | .thread _ _ => False
  | _ => True

/-- The thread of item `i` is not running. -/
def State.idle (s : State) (i : Nat) : Prop := ∃ w, s.workers[i]? = some w ∧ w.running = false

/-- A device thread whose item is asked to quit returns: the calls of its driver and of the log do. -/
def ThreadsReturn (e : Execution step) : Prop :=
  ∀ (i n : Nat) (w : Worker), (e.state n).workers[i]? = some w → w.item.bQuit = true →
    ∃ m, n ≤ m ∧ (e.state m).idle i

/-- Other threads' steps leave `main` where it is, and start no thread. -/
theorem step_aside {s s' : State} {m : Move} (hm : ¬ m.isMain) (h : step s m = some s') :
    s'.pc = s.pc ∧ s'.cleanups = s.cleanups ∧ s'.workers.length = s.workers.length ∧ (s.idle i → s'.idle i) := by
  cases m with
  | signal =>
    cases h
    exact ⟨rfl, rfl, rfl, id⟩
  | thread k a =>
    simp only [step] at h
    split at h
    · next w hw =>
      split at h <;> cases h
      next hrun =>
      refine ⟨rfl, rfl, List.length_modify .., ?_⟩
      intro hidle
      obtain ⟨v, hv, hv'⟩ := hidle
      have hne : k ≠ i := by
        intro heq
        subst heq
        rw [Option.some.inj (hw.symm.trans hv), hv'] at hrun
        cases hrun
      exact ⟨v, by simp [hv, hne], hv'⟩
    · cases h
  | _ => exact absurd trivial hm

/-- At an item in `stopDeviceWorkerThreads`, `main` can go on. -/
theorem stop_enabled {s : State} (h : s.pc = .stopping i) : ∃ m s', Move.isMain m ∧ step s m = some s' := by
  refine ⟨.stop, ?_⟩
  simp only [step, h]
  split <;> exact ⟨_, trivial, rfl⟩

theorem main_of_stopping {s s' : State} {m : Move} (h : s.pc = .stopping i) (hm : m.isMain)
    (hs : step s m = some s') :
    s.cleanups < s'.cleanups ∨ s'.cleanups = s.cleanups ∧ s'.workers.length = s.workers.length ∧
      i < s.workers.length ∧ (s'.pc = .joining i ∨ s'.pc = .stopping (i + 1)) := by
  cases m <;> simp only [step, h, Move.isMain] at hs hm
  case stop =>
    split at hs <;> cases hs
    · next w hw =>
      refine .inr ⟨rfl, List.length_modify .., (List.getElem?_eq_some_iff.mp hw).1, ?_⟩
      show (if w.joins then MainPc.joining i else .stopping (i + 1)) = _ ∨ _
      split <;> simp
    · exact .inl (Nat.lt_succ_self _)
  all_goals cases hs

theorem join_enabled {s : State} (h : s.pc = .joining i) (hidle : s.idle i) :
    ∃ m s', Move.isMain m ∧ step s m = some s' := by
  obtain ⟨w, hw, hrun⟩ := hidle
  exact ⟨.join, _, trivial, by simp only [step, h, hw, hrun]; rfl⟩

theorem main_of_joining {s s' : State} {m : Move} (h : s.pc = .joining i) (hm : m.isMain)
    (hs : step s m = some s') :
    s'.cleanups = s.cleanups ∧ s'.workers.length = s.workers.length ∧ s'.pc = .stopping (i + 1) := by
  cases m <;> simp only [step, h, Move.isMain] at hs hm
  case join =>
    split at hs
    · split at hs <;> cases hs
      exact ⟨rfl, List.length_modify .., rfl⟩
    · cases hs
  all_goals cases hs

/-- The steps of `main` left in a cleanup. -/
def State.left (s : State) : Nat :=
  match s.pc with
  | .stopping i => 2 * (s.workers.length - i) + 1
  | .joining i => 2 * (s.workers.length - i)
  | _ => 0

variable {e : Execution step} {n : Nat}

/-- A cleanup gets on: it returns or has fewer steps left. -/
def GetsOn (s t : State) : Prop :=
  s.cleanups < t.cleanups ∨ t.pc.inCleanup ∧ t.cleanups = s.cleanups ∧ t.left < s.left

theorem getsOn_stopping (hf : e.Fair Move.isMain) (hn : (e.state n).pc = .stopping i) :
    ∃ m, n ≤ m ∧ GetsOn (e.state n) (e.state m) := by
  let P : State → Prop := fun s => s.pc = .stopping i ∧ s.cleanups = (e.state n).cleanups ∧
    s.workers.length = (e.state n).workers.length
  refine hf.leads (P := P) (fun _ _ hs => stop_enabled hs.1) ?_ ?_ ⟨hn, rfl, rfl⟩
  · intro k m _ hs hm hst
    obtain ⟨hpc, hc, hl⟩ := hs
    rcases main_of_stopping hpc hm hst.2 with hlt | ⟨hc', hl', hi, hpc'⟩
    · exact .inl (hc ▸ hlt)
    · refine .inr ?_
      rcases hpc' with hpc' | hpc'
      · exact ⟨by simp [hpc', MainPc.inCleanup], hc'.trans hc, by simp only [State.left, hn, hpc', hl', hl]; omega⟩
      · refine ⟨by simp [hpc', MainPc.inCleanup], hc'.trans hc, ?_⟩
        simp only [State.left, hn, hpc', hl', hl]
        omega
  · intro k m _ hs hm hst
    obtain ⟨hpc, hc, hl, -⟩ := step_aside (i := i) hm hst.2
    exact .inl ⟨hpc.trans hs.1, hc.trans hs.2.1, hl.trans hs.2.2⟩

/-- `pthread_join` returns: the thread has been asked to quit, so it comes to an end. -/
theorem getsOn_joining (hf : e.Fair Move.isMain) (hr : ThreadsReturn e) (hinv : ∀ n, Inv (e.state n))
    (hn : (e.state n).pc = .joining i) : ∃ m, n ≤ m ∧ GetsOn (e.state n) (e.state m) := by
  have hi : i < (e.state n).workers.length := (hinv n).joinable i hn
  let P : State → Prop := fun s => s.pc = .joining i ∧ s.cleanups = (e.state n).cleanups ∧
    s.workers.length = (e.state n).workers.length
  have hdo : ∀ s m s', P s → Move.isMain m → step s m = some s' → GetsOn (e.state n) s' := by
    intro s m s' hs hm hst
    obtain ⟨hpc, hc, hl⟩ := hs
    obtain ⟨hc', hl', hpc'⟩ := main_of_joining hpc hm hst
    refine .inr ⟨by simp [hpc', MainPc.inCleanup], hc'.trans hc, ?_⟩
    simp only [State.left, hn, hpc', hl', hl]
    omega
  have hstay : ∀ s m s', P s → ¬ Move.isMain m → step s m = some s' → P s' := by
    intro s m s' hs hm hst
    obtain ⟨hpc, hc, hl, -⟩ := step_aside (i := i) hm hst
    exact ⟨hpc.trans hs.1, hc.trans hs.2.1, hl.trans hs.2.2⟩
  have hstep : ∀ k m, n ≤ k → P (e.state k) → e.Takes k m →
      P (e.state (k + 1)) ∨ GetsOn (e.state n) (e.state (k + 1)) := by
    intro k m _ hs hst
    by_cases hm : Move.isMain m
    · exact .inr (hdo _ m _ hs hm hst.2)
    · exact .inl (hstay _ m _ hs hm hst.2)
  rcases Execution.keeps_until hstep ⟨hn, rfl, rfl⟩ with hall | hq
  · -- Until the join returns, the thread returns.
    have hw := List.getElem?_eq_getElem hi
    have hquit := ((hinv n).worker i _ hw).phase
    rw [hn] at hquit
    obtain ⟨m, hm, hidle⟩ := hr i n _ hw (hquit.2 rfl).2
    obtain ⟨k, hk, hq⟩ := hf.leads (P := fun s => P s ∧ s.idle i) (fun _ _ hs => join_enabled hs.1.1 hs.2)
      (fun _ m _ hs hm hst => hdo _ m _ hs.1 hm hst.2)
      (fun _ m _ hs hm hst => .inl ⟨hstay _ m _ hs.1 hm hst.2, (step_aside hm hst.2).2.2.2 hs.2⟩)
      ⟨hall m hm, hidle⟩
    exact ⟨k, Nat.le_trans hm hk, hq⟩
  · exact hq

/-- Every `cleanup` that begins returns. -/
theorem cleanup_returns (h₀ : Initial (e.state 0)) (hf : e.Fair Move.isMain) (hr : ThreadsReturn e)
    (hn : (e.state n).pc.inCleanup) : ∃ m, n ≤ m ∧ (e.state n).cleanups < (e.state m).cleanups := by
  have hinv : ∀ n, Inv (e.state n) := Execution.inv (fun _ _ _ => inv_step) (inv_initial h₀)
  let P : State → Prop := fun s => s.pc.inCleanup ∧ s.cleanups = (e.state n).cleanups
  refine Execution.reaches_of_measure (P := P) (Q := fun s => (e.state n).cleanups < s.cleanups) State.left ?_
    ⟨hn, rfl⟩
  intro k _ hk
  have hon : ∃ m, k ≤ m ∧ GetsOn (e.state k) (e.state m) := by
    cases hpc : (e.state k).pc with
    | stopping i => exact getsOn_stopping hf hpc
    | joining i => exact getsOn_joining hf hr hinv hpc
    | _ =>
      have hin := hk.1
      rw [hpc] at hin
      exact hin.elim
  obtain ⟨m, hm, hlt | ⟨hin, hc, hleft⟩⟩ := hon
  · exact ⟨m, hm, .inl (hk.2 ▸ hlt)⟩
  · exact ⟨m, hm, .inr ⟨⟨hin, hc.trans hk.2⟩, hleft⟩⟩

/-- A thread that has been joined, or was never created, takes no step. -/
theorem thread_stopped {s : State} (hi : Inv s) (h : ∀ w ∈ s.workers, w.joined = w.created) (i : Nat)
    (act : ThreadAct) : step s (.thread i act) = none := by
  simp only [step]
  split
  · next w hw =>
    have hnot : ¬ w.running = true := by
      intro hrun
      have hlt := (hi.worker i w hw).running hrun
      have heq := h w (List.mem_of_getElem? hw)
      omega
    rw [if_neg hnot]
  · rfl

theorem all_joined {s : State} (hi : Inv s) (h : 0 < s.cleanups ∨ s.pc = .deleted) :
    ∀ w ∈ s.workers, w.joined = w.created := by
  intro w hw
  obtain ⟨i, hw⟩ := List.mem_iff_getElem?.mp hw
  rcases h with hc | hpc
  · exact (hi.worker i w hw).settled hc
  · have hphase := (hi.worker i w hw).phase
    rw [hpc] at hphase
    exact hphase

/-- **A clean shutdown joins every device thread exactly once.** No thread is
created twice, joined twice or joined without having been created. Once a
`cleanup` has returned, or the control object is deleted, each thread that was
created has been joined and none takes a step. And every `cleanup` returns, if
device threads asked to quit do. -/
theorem shutdown_joins_once :
    (∀ s, Reachable step Initial s →
      (∀ w ∈ s.workers, w.joined ≤ w.created ∧ w.created ≤ 1) ∧
        (0 < s.cleanups ∨ s.pc = .deleted →
          (∀ w ∈ s.workers, w.joined = w.created) ∧ ∀ i act, step s (.thread i act) = none)) ∧
    ∀ e : Execution step, Initial (e.state 0) → e.Fair Move.isMain → ThreadsReturn e →
      ∀ n, (e.state n).pc.inCleanup → ∃ m, n ≤ m ∧ (e.state n).cleanups < (e.state m).cleanups := by
  refine ⟨?_, fun e h₀ hf hr n hn => cleanup_returns h₀ hf hr hn⟩
  intro s hs
  have hi := Reachable.inv hs
  refine ⟨?_, ?_⟩
  · intro w hw
    obtain ⟨i, hw⟩ := List.mem_iff_getElem?.mp hw
    exact ⟨(hi.worker i w hw).joined_le, (hi.worker i w hw).created_le⟩
  · intro hc
    exact ⟨all_joined hi hc, thread_stopped hi (all_joined hi hc)⟩

/-! ## A run -/

/-- Two enabled items around a disabled one. -/
def threeItems : State where
  workers := [{ item := { bEnable := true } }, { item := {} }, { item := { bEnable := true } }]

/-- The third thread cannot be created, the first ends after it is asked to quit; two cleanups. -/
def twoCleanups : List Move :=
  [.start true, .start true, .start false, .start true, .thread 0 .discovery, .signal, .loop, .stop,
    .thread 0 .returns, .join, .stop, .stop, .stop, .cleanup, .stop, .stop, .stop, .stop, .delete]

theorem initial_threeItems : Initial threeItems :=
  ⟨[{ bEnable := true }, {}, { bEnable := true }], by decide, rfl⟩

/-- Where the run ends. -/
def afterCleanups : State where
  workers := [{ item := { bEnable := true, bQuit := true }, created := 1, joined := 1 }, { item := {} },
    { item := { bEnable := true, bQuit := true } }]
  pc := .deleted
  bQuit := true
  cleanups := 2

theorem run_twoCleanups : run step threeItems twoCleanups = some afterCleanups := rfl

theorem length_step {s s' : State} {m : Move} (h : step s m = some s') :
    s'.workers.length = s.workers.length := by
  cases m <;> simp only [step] at h
  case signal => cases h; rfl
  case thread =>
    split at h
    · split at h <;> cases h
      exact List.length_modify ..
    · cases h
  all_goals repeat' split at h
  all_goals cases h
  all_goals first | rfl | exact List.length_modify ..

theorem threadsReturn_twoCleanups : ThreadsReturn (.ofRun run_twoCleanups) := by
  intro i n w hw _
  have hlen : ((Execution.ofRun run_twoCleanups).state n).workers.length = 3 :=
    Execution.inv (I := fun s => s.workers.length = 3) (fun _ _ _ hs h => (length_step h).trans hs) rfl n
  have hi : i < 3 := hlen ▸ (List.getElem?_eq_some_iff.mp hw).1
  refine ⟨n + twoCleanups.length, Nat.le_add_right .., ?_⟩
  rw [Execution.ofRun_state run_twoCleanups (Nat.le_add_left ..)]
  obtain rfl | rfl | rfl : i = 0 ∨ i = 1 ∨ i = 2 := by omega
  all_goals exact ⟨_, rfl, rfl⟩

theorem shutdown_joins_once_twoCleanups :
    (∀ w ∈ afterCleanups.workers, w.joined = w.created) ∧
      ∃ m, 8 ≤ m ∧ 0 < ((Execution.ofRun run_twoCleanups).state m).cleanups := by
  have hreach : Reachable step Initial afterCleanups := ⟨_, _, initial_threeItems, run_twoCleanups⟩
  refine ⟨((shutdown_joins_once.1 _ hreach).2 (.inl (by decide))).1, ?_⟩
  refine shutdown_joins_once.2 (.ofRun run_twoCleanups) initial_threeItems ?_ threadsReturn_twoCleanups 8 trivial
  exact Execution.ofRun_fair run_twoCleanups fun m hm => by cases m <;> first | rfl | exact hm.elim

end MqttVscpd.Shutdown
