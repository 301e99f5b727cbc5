/-
The termination signals against `main`: the handler writes through the global
`gpobj` while `main` constructs the control object, assigns the pointer, runs the
main loop, deletes the object and clears the pointer. A signal may come between
any two steps.
-/
import MqttVscpd.Lib.Transition

namespace MqttVscpd.Signals

open Transition

/-- The signals `setupSignalHandlers` gives to `_sighandlerStop`. -/
inductive Signal where
  | sigquit
  | sigabrt
  | sigint
  | sigterm
  | sighup
  deriving DecidableEq

/-- Where `main` is, from the return of `setupSignalHandlers` on. -/
inductive MainPc where
  /-- About to allocate the control object. -/
  | new
  | constructor
  /-- About to assign `gpobj`. -/
  | assign
  | init
  | setUpLogger
  /-- In `run`, before the main loop. -/
  | starting
  /-- At `while (!m_bQuit)`. -/
  | loopTest
  | loopBody
  /-- Past the main loop: `cleanup` in `run` and in `main`. -/
  | cleanup
  | delete
  /-- About to clear `gpobj`. -/
  | clear
  /-- On the way to `exit(EXIT_SUCCESS)`. -/
  | exiting
  /-- On the way to `exit(EXIT_FAILURE)`, the control object left as it is. -/
  | failing
  | exited
  deriving DecidableEq

/-- The main loop is still to come, or running. -/
def MainPc.beforeLoopEnd : MainPc → Bool
  | .new | .constructor | .assign | .init | .setUpLogger | .starting | .loopTest | .loopBody => true
  | _ => false

/-- `gpobj` has been assigned, and the object not been deleted. -/
def MainPc.owns : MainPc → Bool
  | .init | .setUpLogger | .starting | .loopTest | .loopBody | .cleanup | .delete | .failing => true
  | _ => false

inductive Lifetime where
  | unborn
  | constructing
  | live
  | deleted
  deriving DecidableEq

/-- What a write through `gpobj` hits. -/
inductive Target where
  | null
  | object (life : Lifetime)
  deriving DecidableEq

structure State where
  pc : MainPc := .new
  /-- Whether `gpobj` points to the control object; else it is NULL. -/
  gpobj : Bool := false
  object : Lifetime := .unborn
  bQuit : Bool := false
  /-- The iterations of the main loop begun. -/
  iterations : Nat := 0
  /-- What the handler's writes have hit, first to last. -/
  writes : List Target := []

def State.target (s : State) : Target := if s.gpobj then .object s.object else .null

/-- `_sighandlerStop`: `gpobj->m_bQuit = true`. Only a live object takes the write. -/
def sighandlerStop (s : State) : State :=
  { s with
    writes := s.writes ++ [s.target]
    bQuit := if s.target = .object .live then true else s.bQuit }

/-- The next step of `main`. `ok` is what the call it makes comes to. -/
def mainStep (s : State) (ok : Bool) : Option State :=
  match s.pc with
  | .new => some { s with pc := .constructor, object := .constructing }
  | .constructor => some { s with pc := .assign, object := .live, bQuit := false }
  | .assign => some { s with pc := .init, gpobj := true }
  | .init => some { s with pc := if ok then .setUpLogger else .failing }
  | .setUpLogger => some { s with pc := if ok then .starting else .failing }
  | .starting => some { s with pc := if ok then .loopTest else .failing }
  | .loopTest =>
    if s.bQuit then some { s with pc := .cleanup }
    else some { s with pc := .loopBody, iterations := s.iterations + 1 }
  | .loopBody => some { s with pc := .loopTest }
  | .cleanup => some { s with pc := if ok then .delete else .failing }
  | .delete => some { s with pc := .clear, object := .deleted }
  | .clear => some { s with pc := .exiting, gpobj := false }
  | .exiting | .failing => some { s with pc := .exited }
  | .exited => none

inductive Move where
  | main (ok : Bool)
  | signal (sig : Signal)
  deriving DecidableEq

/-- A signal finds its handler until the process has exited. -/
def step (s : State) : Move → Option State
  | .main ok => mainStep s ok
  | .signal _ => if s.pc = .exited then none else some (sighandlerStop s)

/-- The handlers have just been installed. -/
def start : State := {}

/-! ## What a write hits -/

/-- What `gpobj` is while `main` is there. -/
def MainPc.pointing : MainPc → Bool
  | .clear => true
  | pc => pc.owns

/-- How far the control object is while `main` is there. -/
def MainPc.lifetime : MainPc → Lifetime
  | .new => .unborn
  | .constructor => .constructing
  | .clear | .exiting | .exited => .deleted
  | _ => .live

/-- Until the process exits, the pointer and the object follow `main`. -/
def Inv (s : State) : Prop := s.pc ≠ .exited → s.gpobj = s.pc.pointing ∧ s.object = s.pc.lifetime

theorem inv_start : Inv start := by
  intro _
  exact ⟨rfl, rfl⟩

theorem inv_mainStep {s s' : State} {ok : Bool} (hi : Inv s) (h : mainStep s ok = some s') : Inv s' := by
  unfold mainStep at h
  unfold Inv at hi ⊢
  cases hpc : s.pc with
  | loopTest =>
    simp only [hpc] at h hi
    split at h <;> cases h <;> simpa [MainPc.pointing, MainPc.owns, MainPc.lifetime] using hi
  | init | setUpLogger | starting | cleanup =>
    simp only [hpc, Option.some.injEq] at h hi
    subst h
    cases ok <;> simpa [MainPc.pointing, MainPc.owns, MainPc.lifetime] using hi
  | exiting | failing =>
    simp only [hpc, Option.some.injEq] at h
    subst h
    intro hne
    exact absurd rfl hne
  | exited => simp only [hpc] at h; cases h
  | _ =>
    simp only [hpc, Option.some.injEq] at h hi
    subst h
    obtain ⟨hg, ho⟩ := hi (by decide)
    simp [MainPc.pointing, MainPc.owns, MainPc.lifetime, hg, ho]

theorem inv_step {s s' : State} {m : Move} (hi : Inv s) (h : step s m = some s') : Inv s' := by
  cases m with
  | main ok => exact inv_mainStep hi h
  | signal sig =>
    simp only [step] at h
    split at h <;> cases h
    exact hi

/-- A write hits a live object exactly when `main` owns one. -/
theorem target_live_iff {s : State} (hi : Inv s) (hx : s.pc ≠ .exited) :
    s.target = .object .live ↔ s.pc.owns = true := by
  obtain ⟨hg, ho⟩ := hi hx
  unfold State.target
  rw [hg, ho]
  cases s.pc <;> simp [MainPc.pointing, MainPc.owns, MainPc.lifetime]

/-- Every write of the handler hit a live control object. -/
def SafeWrites (s : State) : Prop := ∀ w ∈ s.writes, w = .object .live

/-- A signal comes between the assignment of `gpobj` and the deletion. -/
def Owned (s : State) : Move → Prop
  | .signal _ => s.pc.owns = true
  | .main _ => True

theorem writes_mainStep {s s' : State} {ok : Bool} (h : mainStep s ok = some s') : s'.writes = s.writes := by
  unfold mainStep at h
  split at h
  case h_7 => split at h <;> cases h <;> rfl
  case h_14 => cases h
  all_goals cases h; rfl

theorem safeWrites_signal {s : State} (hi : Inv s) (hx : s.pc ≠ .exited) :
    SafeWrites (sighandlerStop s) ↔ SafeWrites s ∧ s.pc.owns = true := by
  rw [← target_live_iff hi hx]
  simp [SafeWrites, sighandlerStop, or_imp, forall_and]

theorem safeWrites_step {s s' : State} {m : Move} (hi : Inv s) (h : step s m = some s') :
    SafeWrites s' ↔ SafeWrites s ∧ Owned s m := by
  cases m with
  | main ok => simp [SafeWrites, writes_mainStep h, Owned]
  | signal sig =>
    simp only [step] at h
    split at h
    · cases h
    · next hx =>
      cases h
      exact safeWrites_signal hi hx

/-- The writes of a run are safe exactly when its signals all come while `main` owns the object. -/
theorem safeWrites_iff {ms : List Move} {t : State} (h : run step start ms = some t) :
    SafeWrites t ↔ Along step Owned start ms := by
  constructor
  · intro hs
    refine along_of_not (I := Inv) (J := fun s => ¬ SafeWrites s) ?_ ?_ ?_ inv_start h (not_not.mpr hs)
    · intro s m s' hi hst
      exact inv_step hi hst
    · intro s m s' hi ho hst hs'
      exact ho ((safeWrites_step hi hst).mp hs').2
    · intro s m s' hi hn hst hs'
      exact hn ((safeWrites_step hi hst).mp hs').1
  · intro ha
    refine (ha.inv (I := fun s => Inv s ∧ SafeWrites s) ?_ ⟨inv_start, by simp [SafeWrites, start]⟩ h).2
    intro s m s' hi ho hst
    exact ⟨inv_step hi.1 hst, (safeWrites_step hi.1 hst).mpr ⟨hi.2, ho⟩⟩

/-! ## Leaving the main loop -/

/-- Once a handled signal has set `m_bQuit`, nothing resets it. -/
def Quitting (s : State) : Prop := s.bQuit = true ∧ s.pc ≠ .new ∧ s.pc ≠ .constructor

theorem quitting_step {s s' : State} {m : Move} (hq : Quitting s) (h : step s m = some s') :
    Quitting s' ∧ s'.iterations = s.iterations := by
  obtain ⟨hb, hn, hc⟩ := hq
  cases m with
  | main ok =>
    simp only [step, mainStep] at h
    cases hpc : s.pc with
    | new => exact absurd hpc hn
    | constructor => exact absurd hpc hc
    | exited => simp only [hpc] at h; cases h
    | loopTest =>
      simp only [hpc, hb, if_true, Option.some.injEq] at h
      subst h
      simp [Quitting]
    | _ =>
      simp only [hpc, Option.some.injEq] at h
      subst h
      cases ok <;> simp [Quitting, hb]
  | signal sig =>
    simp only [step] at h
    split at h
    · cases h
    · cases h
      simp [Quitting, sighandlerStop, hb, hn, hc]

/-- A signal while `main` owns the object sets `m_bQuit`. -/
theorem quitting_signal {s s' : State} {sig : Signal} (hi : Inv s) (ho : s.pc.owns = true)
    (h : step s (.signal sig) = some s') : Quitting s' := by
  simp only [step] at h
  split at h
  · cases h
  · next hx =>
    cases h
    have hlive := (target_live_iff hi hx).mpr ho
    refine ⟨by simp [sighandlerStop, hlive], ?_, ?_⟩
    · intro hpc
      have hnew : s.pc = .new := hpc
      rw [hnew] at ho
      cases ho
    · intro hpc
      have hcon : s.pc = .constructor := hpc
      rw [hcon] at ho
      cases ho

/-- Between `s`, where a signal comes, and `t` no iteration of the main loop
begins, and the test of the loop, if `t` is at it, ends the loop. -/
def Leaves (s t : State) : Prop :=
  t.iterations = s.iterations ∧ (t.pc = .loopTest → ∀ ok, ∃ t', step t (.main ok) = some t' ∧ t'.pc = .cleanup)

/-- Every signal of the run that comes before the main loop ends makes `main` leave it. -/
def NotLost (ms : List Move) (t : State) : Prop :=
  ∀ bs sig cs s, ms = bs ++ .signal sig :: cs → run step start bs = some s → s.pc.beforeLoopEnd = true → Leaves s t

theorem notLost {ms : List Move} {t : State} (h : run step start ms = some t)
    (ha : Along step Owned start ms) : NotLost ms t := by
  intro bs sig cs s hms hs _
  subst hms
  obtain ⟨s₁, h₁, h₂⟩ := run_append_iff.mp h
  obtain rfl : s₁ = s := Option.some.inj (h₁.symm.trans hs)
  obtain ⟨s', hsig, hcs⟩ := run_cons_iff.mp h₂
  have hi : Inv s₁ := run_inv (fun _ _ _ => inv_step) inv_start h₁
  have hown : s₁.pc.owns = true := ((along_append h₁).mp ha).2.1
  have hiter : s'.iterations = s₁.iterations := by
    simp only [step] at hsig
    split at hsig <;> cases hsig
    rfl
  have hend : Quitting t ∧ t.iterations = s₁.iterations := by
    refine run_inv (I := fun s => Quitting s ∧ s.iterations = s₁.iterations) ?_
      ⟨quitting_signal hi hown hsig, hiter⟩ hcs
    intro s m s' hq hst
    exact ⟨(quitting_step hq.1 hst).1, (quitting_step hq.1 hst).2.trans hq.2⟩
  refine ⟨hend.2, ?_⟩
  intro hpc ok
  exact ⟨{ t with pc := .cleanup }, by simp [step, mainStep, hpc, hend.1.1], rfl⟩

/-- **Termination signals** are written to a live control object, and none that
comes before the main loop ends is lost, in exactly the runs whose signals all
come after `gpobj` is assigned and before the object is deleted. -/
theorem signals_handled_iff {ms : List Move} {t : State} (h : run step start ms = some t) :
    SafeWrites t ∧ NotLost ms t ↔ Along step Owned start ms := by
  constructor
  · intro hs
    exact (safeWrites_iff h).mp hs.1
  · intro ha
    exact ⟨(safeWrites_iff h).mpr ha, notLost h ha⟩

/-- `main` from the handlers to the main loop. -/
def toLoop : List Move := List.replicate 6 (.main true)

/-- A signal while the control object is constructed writes through NULL, and one
while `gpobj` waits to be cleared writes to the deleted object. -/
theorem not_safeWrites :
    (∃ t, run step start [.main true, .signal .sigterm] = some t ∧ ¬ SafeWrites t) ∧
    ∃ t, run step start (toLoop ++ [.signal .sigint, .main true, .main true, .main true, .signal .sigint]) = some t ∧
      ¬ SafeWrites t := by
  refine ⟨⟨_, rfl, ?_⟩, ⟨_, rfl, ?_⟩⟩
  · intro h
    exact absurd (h .null (by decide)) (by decide)
  · intro h
    exact absurd (h (.object .deleted) (by decide)) (by decide)

/-- Two signals in the body of the first iteration. -/
def inBody : List Move := toLoop ++ [.main true, .signal .sigint, .signal .sighup, .main true, .main true]

theorem signals_handled_inBody : ∃ t, run step start inBody = some t ∧
    (SafeWrites t ∧ NotLost inBody t ↔ Along step Owned start inBody) :=
  ⟨_, rfl, signals_handled_iff rfl⟩

end MqttVscpd.Signals
