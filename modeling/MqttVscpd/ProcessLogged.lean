/-
The process with its log. What a thread logs goes into the queue of the logger's thread
pool, one record after the other, and the thread waits while the queue is full. In the
foreground the pool's worker empties the queue, and the waiting takes nothing from what
is fair: a signal ends the process (`process_ends`), and no callback hangs
(`callback_returns`). The daemon has lost the worker: the queue fills up, and a thread with
a record for it takes no step any more (`daemon_stalls`).
-/
import MqttVscpd.Lib.Posting
import MqttVscpd.LogSinks
import MqttVscpd.ProcessCalls
import MqttVscpd.ProcessReceives

namespace MqttVscpd.Process

open Transition
open Posting (Lifted Owns)

/-- Who logs. -/
inductive Thread (κ : Type) where
  | main
  /-- The handlers of `SIGINT`, `SIGTERM` and `SIGHUP`, which log nothing. -/
  | signals
  | device (k : Nat)
  /-- A call of `receive_event_callback`, which logs from its first line on. -/
  | callback (k : Nat) (i : κ)
  deriving DecidableEq

variable {κ : Type}

def threadOf : Act κ → Thread κ
  | .main .signal => .signals
  | .main _ => .main
  | .driver k (.event i _) | .driver k (.callback i) | .driver k (.fault (some i)) => .callback k i
  | .driver k _ => .device k

theorem threadOf_main_iff {a : Act κ} : threadOf a = .main ↔ OfMain a := by
  cases a with
  | main m => cases m <;> simp [threadOf, OfMain]
  | driver k b =>
    cases b with
    | fault c => cases c <;> simp [threadOf, OfMain]
    | _ => simp [threadOf, OfMain]

theorem threadOf_device_iff {a : Act κ} {k : Nat} : threadOf a = .device k ↔ OfThread k a := by
  cases a with
  | main m => cases m <;> simp [threadOf, OfThread]
  | driver j b =>
    cases b with
    | fault c => cases c <;> simp [threadOf, OfThread, DriverAct.ofThread]
    | _ => simp [threadOf, OfThread, DriverAct.ofThread]

theorem threadOf_callback_iff {a : Act κ} {k : Nat} {i : κ} :
    threadOf a = .callback k i ↔ OfCallback k i a ∨ ∃ ev, a = .driver k (.event i ev) := by
  cases a with
  | main m => cases m <;> simp [threadOf, OfCallback]
  | driver j b =>
    cases b with
    | fault c => cases c <;> simp [threadOf, OfCallback]
    | _ => simp [threadOf, OfCallback]

variable [DecidableEq κ]

/-- The process, what its threads have still to log, and the pool's queue. -/
abbrev LoggedState (κ : Type) := Posting.State (State κ) (Thread κ) LogRecord

/-- The steps of the process and of its log. `main`'s logger lets all records through to its pool. -/
abbrev loggedStep (lib : Vscphelper) (text : Guid → String) (dontRunAsDaemon : Bool) :
    LoggedState κ → Posting.Act (Act κ) (Thread κ) LogRecord → Option (LoggedState κ) :=
  Posting.step (step lib text) threadOf State.over (threadPool dontRunAsDaemon)

variable {lib : Vscphelper} {text : Guid → String}

/-! ## Without the worker -/

def loading : LogRecord := ⟨.debug, "Loading (dlopen) dynamic library"⟩

variable {e : Execution (loggedStep (κ := κ) lib text true)} {n k : Nat} {i : κ} {u : Driver κ}

variable (e) in
/-- No thread is passed over, as in `Fairly`, the records in between apart; who has a record comes
to put it if there is room again and again; and the pool's worker works on. -/
structure LoggedFairly : Prop where
  main : e.Fair (Lifted OfMain)
  threads : ∀ k, e.StrongFair (Lifted (OfThread k))
  callbacks : ∀ k i, e.Fair (Lifted (OfCallback k i))
  posts : ∀ θ, e.StrongFair (· = .post θ)
  worker : e.Fair (· = .take)

/-- No callback is under way where no thread has been created. -/
structure Unheard (text : Guid → String) (s : State κ) : Prop where
  inv : Inv text s
  unconnected : ∀ (k : Nat) (u : Driver κ), s.drivers[k]? = some u → u.created = 0 → u.device.connected = false

omit [DecidableEq κ] in
theorem unheard_initial {s : State κ} (h : Initial s) : Unheard text s := by
  refine ⟨inv_initial h, fun k u hu _ => ?_⟩
  obtain ⟨items, d, cfg, o, -, -, -, rfl⟩ := h
  simp only [List.getElem?_map, Option.map_eq_some_iff] at hu
  obtain ⟨it, -, rfl⟩ := hu
  rfl

theorem unheard_step {s s' : State κ} {a : Act κ} (hs : Unheard text s) (h : step lib text s a = some s') :
    Unheard text s' := by
  refine ⟨inv_step hs.inv h, fun k v hv hcreated => ?_⟩
  obtain ⟨u, hu, hat⟩ := step_to h hv
  have hconn := hs.unconnected k u hu
  cases hat with
  | main hm =>
    cases hm with
    | keeps | stops | joins => exact hconn hcreated
    | starts o =>
      cases hen : u.device.device.item.bEnable <;> cases o <;> simp_all [Driver.startDriver]
  | own hst =>
    cases hst with
    | act s₁ hr hp hs₁ =>
      have hlt : u.joined < u.created := (hs.inv.shutdown.worker k u.worker (by simp [hu])).running hr
      have hzero : u.created = 0 := hcreated
      omega
    | event j ev s₁ hs₁ =>
      simp only [MqttVscpd.step] at hs₁
      split at hs₁ <;> cases hs₁
      exact hconn hcreated
    | callback j s₁ hs₁ =>
      obtain ⟨pc, owner, -, rfl⟩ := step_callback hs₁
      exact hconn hcreated
    | _ => exact hconn hcreated
  | other => exact hconn hcreated

/-- Callback `i` of driver `k` runs. -/
def Running (k : Nat) (i : κ) (s : State κ) : Prop := ∃ u, s.drivers[k]? = some u ∧ u.device.cb i ≠ .idle

/-- Only its own steps end a callback. -/
theorem running_step {s s' : State κ} {a : Act κ} (hs : Unheard text s) (hrun : Running k i s)
    (ha : ¬ OfCallback k i a) (h : step lib text s a = some s') : Running k i s' := by
  obtain ⟨u, hu, hbusy⟩ := hrun
  obtain ⟨v, hv, hat⟩ := step_from h hu
  cases hat with
  | main hm =>
    cases hm with
    | keeps | stops | joins => exact ⟨_, hv, hbusy⟩
    | starts o hpc =>
      have hphase := (hs.inv.shutdown.worker k u.worker (by simp [hu])).phase
      simp only [State.shutdown, hpc] at hphase
      obtain ⟨g, hi⟩ := (hs.inv.driver k u hu).device
      exact absurd (hi.early (hs.unconnected k u hu (hphase (Nat.le_refl k))) i) hbusy
  | own hst =>
    cases hst with
    | act s₁ hr hp hs₁ =>
      obtain ⟨a, todo, -, -, rfl⟩ := threadStep_cases hs₁
      exact ⟨_, hv, hbusy⟩
    | event j ev s₁ hs₁ =>
      simp only [MqttVscpd.step] at hs₁
      split at hs₁ <;> cases hs₁
      refine ⟨_, hv, ?_⟩
      by_cases hij : i = j
      · simp [hij]
      · simpa [Function.update_of_ne hij] using hbusy
    | callback j s₁ hs₁ =>
      obtain ⟨pc, owner, -, rfl⟩ := step_callback hs₁
      have hij : i ≠ j := fun he => ha (.inl (by rw [he]))
      exact ⟨_, hv, by simpa [Function.update_of_ne hij] using hbusy⟩
    | _ => exact ⟨_, hv, hbusy⟩
  | other => exact ⟨u, hv, hbusy⟩

/-- A callback that can move runs. -/
theorem running_of_step {s s' : State κ} {a : Act κ} (ha : OfCallback k i a) (h : step lib text s a = some s') :
    Running k i s := by
  have hcalled : ∀ u : Driver κ, 0 ∈ u.called (.callback i) → u.device.cb i ≠ .idle := by
    intro u hnull hidle
    simp [Driver.called, hidle] at hnull
  obtain rfl | rfl := ha <;> obtain ⟨u, u', d', hu, hst, -⟩ := step_driver h <;> refine ⟨u, hu, ?_⟩
  · cases hst with
    | callback _ s₁ hs₁ =>
      intro hidle
      simp [MqttVscpd.step, hidle] at hs₁
  · cases hst with
    | faults _ hnull => exact hcalled u (by simpa [Driver.atNull] using hnull)

theorem owns_of_iff {e : Execution (step (κ := κ) lib text)} {θ : Thread κ} {F : Act κ → Prop}
    (h : ∀ a, threadOf a = θ ↔ F a) : Owns (step lib text) threadOf e θ F fun _ => True where
  enabled _ _ _ _ _ := trivial
  stays _ _ _ _ _ := trivial
  only _ a _ ha _ := (h a).mp ha
  thread a ha := (h a).mpr ha

theorem owns_callback {e : Execution (step (κ := κ) lib text)} (h₀ : Initial (e.state 0)) :
    Owns (step lib text) threadOf e (.callback k i) (OfCallback k i) (Running k i) where
  enabled _ _ _ ha h := running_of_step ha h
  stays m _ hrun ha ht :=
    running_step (Execution.inv (fun _ _ _ => unheard_step) (unheard_initial h₀) m) hrun ha ht.2
  only m a hrun ha ht := by
    refine (threadOf_callback_iff.mp ha).resolve_right ?_
    rintro ⟨ev, rfl⟩
    -- The callback runs already.
    obtain ⟨u, hu, hbusy⟩ := hrun
    obtain ⟨w, w', d', hw, hst, -⟩ := step_driver ht.2
    obtain rfl : u = w := Option.some.inj (hu.symm.trans hw)
    cases hst with
    | event _ _ s₁ hs₁ =>
      simp only [MqttVscpd.step] at hs₁
      split at hs₁ <;> cases hs₁
      next hc => exact hbusy hc.2
  thread a ha := threadOf_callback_iff.mpr (.inl ha)

/-- In the foreground, the log takes nothing from what is fair. -/
theorem LoggedFairly.system (hf : LoggedFairly e) (h₀ : Initial (e.state 0).sys) : Fairly (Posting.system e) where
  main := Posting.fair_system hf.main (owns_of_iff fun _ => threadOf_main_iff) (fun _ _ h => stuck_of_over h _)
    (hf.posts .main) hf.worker rfl (by decide)
  threads k := Posting.strongFair_system (hf.threads k) (owns_of_iff fun _ => threadOf_device_iff)
    (fun _ _ h => stuck_of_over h _) (hf.posts (.device k)) hf.worker rfl (by decide)
  callbacks k i := Posting.fair_system (hf.callbacks k i) (owns_callback h₀) (fun _ _ h => stuck_of_over h _)
    (hf.posts (.callback k i)) hf.worker rfl (by decide)

/-- **A signal ends the process**, in the foreground, whatever is logged. Once `m_bQuit` is set,
wherever `main` is, it comes to the deletion of the control object, with no device thread running
and each that was created joined; or a call of a driver at address 0 kills the process before. -/
theorem process_ends (h₀ : Initial (e.state 0).sys) (hf : LoggedFairly e) (hq : (e.state n).sys.bQuit = true) :
    ∃ m, n ≤ m ∧ ((e.state m).sys.killed = true ∨ (e.state m).sys.main = .deleted ∧
      ∀ u ∈ (e.state m).sys.drivers, u.running = false ∧ u.joined = u.created) :=
  ends_of_signal (e := Posting.system e) h₀ (hf.system h₀) hq

/-- With drivers that can be called nothing kills it: it comes to the deletion. -/
theorem process_deleted (h₀ : Initial (e.state 0).sys) (hf : LoggedFairly e) (hq : (e.state n).sys.bQuit = true)
    (hc : ∀ m a records, e.label m = some (.act a records) → StartsCallable (e.state m).sys a) :
    ∃ m, n ≤ m ∧ (e.state m).sys.main = .deleted ∧
      ∀ u ∈ (e.state m).sys.drivers, u.running = false ∧ u.joined = u.created := by
  have huncut : ∀ m, Uncut lib text (e.state m).sys := by
    have hstep : ∀ m a, 0 ≤ m → Uncut lib text (e.state m).sys → (Posting.system e).Takes m a →
        Uncut lib text (e.state (m + 1)).sys ∨ False := by
      intro m a _ hu ht
      obtain ⟨records, hl⟩ := Posting.label_system.mp ht.1
      exact .inl (uncut_step hu (hc m a records hl) ht.2)
    rcases Execution.keeps_until (e := Posting.system e) (P := Uncut lib text) (Q := fun _ => False) hstep
      (uncut_initial h₀) with hall | ⟨-, -, hfalse⟩
    · exact fun m => hall m (Nat.zero_le m)
    · exact hfalse.elim
  obtain ⟨m, hm, hkilled | hdeleted⟩ := ends_of_signal (e := Posting.system e) h₀ (hf.system h₀) hq
  · exact absurd ((huncut m).alive.symm.trans hkilled) Bool.false_ne_true
  · exact ⟨m, hm, hdeleted⟩

/-- Where a run has ended, nobody is passed over. -/
theorem loggedFairly_ofRun {s t : LoggedState κ} {acts : List (Posting.Act (Act κ) (Thread κ) LogRecord)}
    (h : run (loggedStep lib text true) s acts = some t) (hover : t.sys.over = true) :
    LoggedFairly (Execution.ofRun h) where
  main := Execution.ofRun_fair h fun b _ => Posting.step_of_stopped hover b
  threads _ := Execution.ofRun_strongFair h fun b _ => Posting.step_of_stopped hover b
  callbacks _ _ := Execution.ofRun_fair h fun b _ => Posting.step_of_stopped hover b
  posts _ := Execution.ofRun_strongFair h fun b _ => Posting.step_of_stopped hover b
  worker := Execution.ofRun_fair h fun b _ => Posting.step_of_stopped hover b

def emptyLog : LoggedState Unit := { sys := oneDriver, pending := fun _ => [], channel := {} }

/-- A run in which a record follows each step. -/
def withRecords (as : List (Act Unit)) : List (Posting.Act (Act Unit) (Thread Unit) LogRecord) :=
  as.flatMap fun a => [.act a [loading], .post (threadOf a), .take]

/-- Here the one driver's event has been sent, when the signal comes. -/
theorem process_ends_oneEvent :
    ∃ (e : Execution (loggedStep canalIdHelper nodeText true)) (m : Nat), e.state 0 = emptyLog ∧ 63 ≤ m ∧
      ((e.state m).sys.killed = true ∨ (e.state m).sys.main = .deleted ∧
        ∀ u ∈ (e.state m).sys.drivers, u.running = false ∧ u.joined = u.created) := by
  let acts := withRecords (oneEvent ++ endsProcess.dropLast) ++ [.act (.main .delete) []]
  have hrun : (run (loggedStep canalIdHelper nodeText true) emptyLog acts).map (·.sys.over) = some true := rfl
  obtain ⟨t, h, hover⟩ := Option.map_eq_some_iff.mp hrun
  have hquit : ((Execution.ofRun h).state 63).sys.bQuit = true := rfl
  obtain ⟨m, hm, hend⟩ := process_ends (e := Execution.ofRun h) initial_oneDriver (loggedFairly_ofRun h hover) hquit
  exact ⟨Execution.ofRun h, m, rfl, hm, hend⟩

/-- **No callback hangs**, in the foreground, whatever is logged: it returns, or the control object is
deleted, or a call of a driver at address 0 kills the process. -/
theorem callback_returns (h₀ : Initial (e.state 0).sys) (hf : LoggedFairly e)
    (hc : e.StrongFair (Lifted (OfCallback k i))) (hu : (e.state n).sys.drivers[k]? = some u) :
    ∃ m, n ≤ m ∧ ((e.state m).sys.over = true ∨
      ∃ v, (e.state m).sys.drivers[k]? = some v ∧ v.device.cb i = .idle) := by
  have hcall : (Posting.system e).StrongFair (OfCallback k i) := Posting.strongFair_system hc (owns_callback h₀)
    (fun _ _ h => stuck_of_over h _) (hf.posts (.callback k i)) hf.worker rfl (by decide)
  exact returns_or_over (e := Posting.system e) h₀ (hf.system h₀) hcall hu

/-- The broker's event comes when the driver is open, and the callback waits for the mutex. -/
theorem callback_returns_oneReceived :
    ∃ (e : Execution (loggedStep canalIdHelper nodeText true)) (u : Driver Unit) (m : Nat), e.state 0 = emptyLog ∧
      (e.state 33).sys.drivers[0]? = some u ∧ u.device.cb () = .entered VscpEvent.zero ∧ 33 ≤ m ∧
        ((e.state m).sys.over = true ∨ ∃ v, (e.state m).sys.drivers[0]? = some v ∧ v.device.cb () = .idle) := by
  let acts := withRecords (oneReceived ++ endsProcess.dropLast) ++ [.act (.main .delete) []]
  have hrun : (run (loggedStep canalIdHelper nodeText true) emptyLog acts).map (·.sys.over) = some true := rfl
  obtain ⟨t, h, hover⟩ := Option.map_eq_some_iff.mp hrun
  have hwaits : ((Execution.ofRun h).state 33).sys.drivers[0]?.map (fun u => u.device.cb ()) =
      some (.entered VscpEvent.zero) := rfl
  obtain ⟨u, hu, hcb⟩ := Option.map_eq_some_iff.mp hwaits
  obtain ⟨m, hm, hend⟩ := callback_returns (e := Execution.ofRun h) (i := ()) initial_oneDriver
    (loggedFairly_ofRun h hover) (Execution.ofRun_strongFair h fun b _ => Posting.step_of_stopped hover b) hu
  exact ⟨Execution.ofRun h, u, m, rfl, hu, hcb, hm, hend⟩

end MqttVscpd.Process
