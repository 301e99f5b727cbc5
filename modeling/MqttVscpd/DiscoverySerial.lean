/-
`discovery()` as if its calls came one at a time. A call takes the mutex before it
looks at the map and gives it back after its last effect, so that a run is one of
calls that do not overlap, with the labels of the waiting threads put later
(`discovery_serializable`).
-/
import MqttVscpd.DiscoverySafety
import MqttVscpd.Lib.Simulation

namespace MqttVscpd.Discovery

open Keyed Transition

variable {ι : Type}

/-! ## One call at a time -/

/-- The thread whose step it is; a start is nobody's. -/
def Act.thread : Act ι → Option ι
  | .start _ _ => none
  | .call t _ | .acquire t | .find t | .insert t _ _ | .publish t _ | .record t | .release t => some t

/-- All but the calls themselves, which others cannot tell. -/
def Act.isEffect : Act ι → Bool
  | .call _ _ => false
  | _ => true

/-- As if the threads that wait for the mutex had not called yet. -/
def Pc.unwaiting : Pc → Pc
  | .waiting _ => .idle
  | p => p

def Daemon.settled (d : Daemon ι) : Daemon ι := { d with pc := fun t => (d.pc t).unwaiting }

/-- The step is a thread's while all the others are outside `discovery()`, or a start. -/
def Alone (d : Daemon ι) (a : Act ι) : Prop := ∀ t, a.thread = some t → ∀ u, u ≠ t → d.pc u = .idle

/-- A thread calls when it gets the mutex. -/
def late (d : Daemon ι) : Act ι → List (Act ι)
  | .call _ _ => []
  | .acquire t =>
    match d.pc t with
    | .waiting g => [.call t (some g), .acquire t]
    | _ => []
  | a => [a]

/-- The call a waiting thread has made. -/
def held (t : ι) (d : Daemon ι) : List (Act ι) :=
  match d.pc t with
  | .waiting g => [.call t (some g)]
  | _ => []

theorem Daemon.settled_of_quiescent {d : Daemon ι} (h : d.Quiescent) : d.settled = d := by
  have hpc : (fun t => (d.pc t).unwaiting) = d.pc := funext fun t => by simp [h t, Pc.unwaiting]
  simp [settled, hpc]

/-- A thread outside the mutex is idle in the settled state. -/
theorem unwaiting_of_outside {p : Pc} (h : ¬ p.inside = true) : p.unwaiting = .idle := by
  cases p <;> simp_all [Pc.inside, Pc.unwaiting]

theorem settled_pc (d : Daemon ι) (t : ι) : d.settled.pc t = (d.pc t).unwaiting := rfl

/-- While one thread has the mutex the others are outside, and idle in the settled state. -/
theorem settled_idle {d : Daemon ι} (hi : Inv d) {t u : ι} (ht : (d.pc t).inside = true) (hu : u ≠ t) :
    d.settled.pc u = .idle := by
  refine unwaiting_of_outside fun hin => hu ?_
  exact hi.lock.unique hin ht

/-- What else holds at every point: a waiting thread has found the database open. -/
structure Called (d : Daemon ι) : Prop where
  inv : Inv d
  waiting : ∀ t g, d.pc t = .waiting g → d.up = true ∧ d.dbOpen = true

theorem called_fresh : Called (Daemon.fresh : Daemon ι) := ⟨inv_fresh, fun t g h => by cases h⟩

variable [DecidableEq ι]

theorem settled_goto (d : Daemon ι) (t : ι) (p : Pc) : (d.goto t p).settled = d.settled.goto t p.unwaiting := by
  have hpc : (fun u => (Function.update d.pc t p u).unwaiting) =
      Function.update (fun u => (d.pc u).unwaiting) t p.unwaiting := by
    funext u
    by_cases hu : u = t
    · subst hu; simp
    · simp [Function.update_of_ne hu]
  simp [Daemon.settled, Daemon.goto, hpc]

theorem goto_self {d : Daemon ι} {t : ι} {p : Pc} (h : d.pc t = p) : d.goto t p = d := by
  simp [Daemon.goto, ← h]

theorem waiting_goto {d : Daemon ι} {t u : ι} {p : Pc} {g : String} (hp : ∀ g, p ≠ .waiting g)
    (h : (d.goto t p).pc u = .waiting g) : d.pc u = .waiting g := by
  by_cases hu : u = t
  · subst hu
    exact absurd (by simpa [Daemon.goto] using h) (hp g)
  · simpa [Daemon.goto, Function.update_of_ne hu] using h

theorem called_step {d d' : Daemon ι} {a : Act ι} (hc : Called d) (h : step d a = some d') : Called d' := by
  refine ⟨inv_step hc.inv h, fun u g hu => ?_⟩
  cases a with
  | start cfg o =>
    cases h
    cases hu
  | call t pev =>
    simp only [step] at h
    split at h
    · next hup =>
      split at h
      · cases h
        exact hc.waiting u g hu
      · split at h
        · next hdb =>
          cases h
          exact ⟨hup.1, hdb⟩
        · cases h
          exact hc.waiting u g hu
    · cases h
  | _ =>
    cases step_cases h
    all_goals exact hc.waiting u g (waiting_goto (by simp) hu)

/-- A thread's step moves no other thread. -/
theorem pc_of_ne {d d' : Daemon ι} {a : Act ι} {t u : ι} (hat : a.thread = some t) (hu : u ≠ t)
    (h : step d a = some d') : d'.pc u = d.pc u := by
  cases step_cases h <;> cases hat
  case refused => rfl
  all_goals simp [Daemon.goto, Function.update_of_ne hu]

theorem Reached.called {d : Daemon ι} (h : Reached d) : Called d :=
  Reachable.inv (fun _ h₀ => h₀ ▸ called_fresh) (fun _ _ _ => called_step) h

/-- Each step is made in the settled state, a waiting thread's call with the acquire. -/
theorem settled_step {d d' : Daemon ι} {a : Act ι} (hc : Called d) (h : step d a = some d') :
    run step d.settled (late d a) = some d'.settled := by
  cases a with
  | start cfg o =>
    cases h
    rfl
  | call t pev =>
    cases step_cases h with
    | refused => rfl
    | call _ g hpc =>
      have hidle : d.settled.pc t = .idle := by simp [settled_pc, hpc, Pc.unwaiting]
      rw [settled_goto, Pc.unwaiting, goto_self hidle]
      rfl
  | acquire t =>
    cases step_cases h with
    | acquire _ g hpc hfree =>
      obtain ⟨hup, hdb⟩ := hc.waiting t g hpc
      have hidle : d.settled.pc t = .idle := by simp [settled_pc, hpc, Pc.unwaiting]
      have hcall : step d.settled (.call t (some g)) = some (d.settled.goto t (.waiting g)) := by
        simp [step, Daemon.settled, hpc, Pc.unwaiting, hup, hdb]
      have hacq : step (d.settled.goto t (.waiting g)) (.acquire t) =
          some { d.settled.goto t (.looking g) with owner := some t } := by
        simp [step, Daemon.goto, Daemon.settled, hfree]
      have hlate : late d (.acquire t) = [.call t (some g), .acquire t] := by simp [late, hpc]
      rw [hlate, run_cons_iff]
      refine ⟨_, hcall, run_cons_iff.mpr ⟨_, hacq, ?_⟩⟩
      exact congrArg (fun e : Daemon ι => some { e with owner := some t }) (settled_goto d t (.looking g)).symm
  | find t =>
    simp only [step] at h
    split at h
    · next g hpc =>
      cases h
      have hlooking : d.settled.pc t = .looking g := by simp [settled_pc, hpc, Pc.unwaiting]
      have hmoves : (if (d.map g).isNone then Pc.inserting g else .unlocking).unwaiting =
          if (d.map g).isNone then .inserting g else .unlocking := by split <;> rfl
      rw [settled_goto, hmoves]
      simp only [late, run, step, hlooking]
      rfl
    · cases h
  | insert t ok date =>
    simp only [step] at h
    split at h
    · next g hpc =>
      have hinserting : d.settled.pc t = .inserting g := by simp [settled_pc, hpc, Pc.unwaiting]
      simp only [late, run, step, hinserting]
      split at h <;> cases h
      · next hnone =>
        have hnone : d.settled.file.bind (Db.insert ok (discoveredRow g date)) = none := hnone
        rw [hnone, settled_goto]
        rfl
      · next db hdb =>
        have hdb : d.settled.file.bind (Db.insert ok (discoveredRow g date)) = some db := hdb
        rw [hdb]
        exact congrArg (fun e : Daemon ι => some { e with file := some db }) (settled_goto d t (.publishing g date)).symm
    · cases h
  | publish t ok =>
    simp only [step] at h
    split at h
    · next g date hpc =>
      cases h
      have hpublishing : d.settled.pc t = .publishing g date := by simp [settled_pc, hpc, Pc.unwaiting]
      simp only [late, run, step, hpublishing]
      exact congrArg (fun e : Daemon ι => some { e with
        published := d.published ++ [Announcement.mk d.cfg.topicDiscovery g date ok] }) (settled_goto d t (.recording g)).symm
    · cases h
  | record t =>
    simp only [step] at h
    split at h
    · next g hpc =>
      cases h
      have hrecording : d.settled.pc t = .recording g := by simp [settled_pc, hpc, Pc.unwaiting]
      simp only [late, run, step, hrecording]
      exact congrArg (fun e : Daemon ι => some { e with
        map := Function.update d.map g (some "Discovered") }) (settled_goto d t .unlocking).symm
    · cases h
  | release t =>
    simp only [step] at h
    split at h
    · next hpc =>
      cases h
      have hunlocking : d.settled.pc t = .unlocking := by simp [settled_pc, hpc, Pc.unwaiting]
      simp only [late, run, step, hunlocking]
      exact congrArg (fun e : Daemon ι => some { e with owner := none }) (settled_goto d t .idle).symm
    · cases h

theorem simulates_settled :
    Simulates step step (fun d e : Daemon ι => Called d ∧ e = d.settled) late := by
  intro d a d' e hr h
  obtain ⟨hc, rfl⟩ := hr
  exact ⟨d'.settled, settled_step hc h, called_step hc h, rfl⟩

theorem alone_late {d d' : Daemon ι} {a : Act ι} (hc : Called d) (h : step d a = some d') :
    Along step Alone d.settled (late d a) := by
  have hown : ∀ t, a.thread = some t → (d.pc t).inside = true → Alone d.settled a := by
    intro t hat hin u hu v hv
    obtain rfl : t = u := Option.some.inj (hat.symm.trans hu)
    exact settled_idle hc.inv hin hv
  cases step_cases h with
  | start cfg o => exact ⟨fun t ht => (by cases ht), fun _ _ => trivial⟩
  | refused | call => trivial
  | acquire t g hpc hfree =>
    have hidle : ∀ u, d.settled.pc u = .idle := by
      intro u
      have hl := hc.inv.lock
      rw [hfree] at hl
      exact unwaiting_of_outside (hl.outside u)
    have hlate : late d (.acquire t) = [.call t (some g), .acquire t] := by simp [late, hpc]
    rw [hlate]
    refine ⟨fun _ _ u _ => hidle u, fun e he => ⟨fun u hu v hv => ?_, fun _ _ => trivial⟩⟩
    cases hu
    cases step_cases he with
    | refused => exact hidle v
    | call => simpa [Daemon.goto, Function.update_of_ne hv] using hidle v
  | known t _ hpc | unknown t _ hpc | insertFails t _ _ _ hpc | inserted t _ _ _ hpc | publish t _ _ _ hpc
  | record t _ hpc | release t hpc =>
    exact ⟨hown t rfl (by simp [hpc, Pc.inside]), fun _ _ => trivial⟩

theorem filter_late {d d' : Daemon ι} {a : Act ι} (h : step d a = some d') :
    (late d a).filter Act.isEffect = [a].filter Act.isEffect := by
  cases step_cases h with
  | acquire t g hpc => simp [late, hpc, Act.isEffect]
  | _ => rfl

/-- The step is the thread's. -/
def Act.isOf (t : ι) (a : Act ι) : Bool := a.thread == some t

theorem held_goto_of_ne {d : Daemon ι} {t u : ι} {p : Pc} (hu : t ≠ u) : held t (d.goto u p) = held t d := by
  simp [held, Daemon.goto, Function.update_of_ne hu]

theorem idle_of_call {d d' : Daemon ι} {t : ι} {pev : Option String} (h : step d (.call t pev) = some d') :
    d.pc t = .idle := by
  simp only [step] at h
  split at h
  · next hup => exact hup.2
  · cases h

/-- A thread's call may be put later, and nothing of the thread's before it. -/
theorem order_late {d d' : Daemon ι} {a : Act ι} (t : ι) (h : step d a = some d') :
    ∃ new, held t d ++ [a].filter (Act.isOf t) = new ++ held t d' ∧ ((late d a).filter (Act.isOf t)).Sublist new := by
  cases step_cases h with
  | start cfg o =>
    exact ⟨held t d, by simp [held, Daemon.start, Act.isOf, Act.thread], by simp [late, Act.isOf, Act.thread]⟩
  | refused u pev =>
    have hidle : u = t → held t d = [] := by
      intro hut
      simp [held, ← hut, idle_of_call h]
    by_cases hut : u = t
    · exact ⟨[.call u pev], by simp [hidle hut, hut, Act.isOf, Act.thread], by simp [late]⟩
    · exact ⟨[], by simp [hut, Act.isOf, Act.thread], by simp [late]⟩
  | call u g hpc =>
    refine ⟨[], ?_, by simp [late]⟩
    by_cases hut : u = t
    · subst hut
      simp [held, hpc, Daemon.goto, Act.isOf, Act.thread]
    · simp [held_goto_of_ne (Ne.symm hut), hut, Act.isOf, Act.thread]
  | acquire u g hpc =>
    by_cases hut : u = t
    · subst hut
      refine ⟨[.call u (some g), .acquire u], ?_, ?_⟩
      · simp [held, hpc, Daemon.goto, Act.isOf, Act.thread]
      · simp [late, hpc, Act.isOf, Act.thread]
    · refine ⟨[], ?_, ?_⟩
      · simpa [hut, Act.isOf, Act.thread, held] using (held_goto_of_ne (p := .looking g) (Ne.symm hut)).symm
      · simp [late, hpc, hut, Act.isOf, Act.thread]
  | known u _ hpc | unknown u _ hpc | insertFails u _ _ _ hpc | inserted u _ _ _ hpc | publish u _ _ _ hpc
  | record u _ hpc | release u hpc =>
    by_cases hut : u = t
    · subst hut
      refine ⟨_, ?_, List.Sublist.refl _⟩
      simp [held, hpc, Daemon.goto, late]
    · refine ⟨[], ?_, by simp [late, hut, Act.isOf, Act.thread]⟩
      simp [held, Daemon.goto, Function.update_of_ne (Ne.symm hut), hut, Act.isOf, Act.thread]

/-- **`discovery()` is serial.** Every run ends as one does in which each call is made
when the others are outside, but for the threads that still wait: with the same starts,
INSERTs, announcements and map entries in the same order, and each thread's steps in its own. -/
theorem discovery_serializable {as : List (Act ι)} {d : Daemon ι} (h : run step Daemon.fresh as = some d) :
    ∃ bs, run step Daemon.fresh bs = some d.settled ∧ Along step Alone Daemon.fresh bs ∧
      bs.filter Act.isEffect = as.filter Act.isEffect ∧
        ∀ t, (bs.filter (Act.isOf t)).Sublist (as.filter (Act.isOf t)) := by
  have hr : Called (Daemon.fresh : Daemon ι) ∧ Daemon.fresh = (Daemon.fresh : Daemon ι).settled :=
    ⟨called_fresh, (Daemon.settled_of_quiescent fun _ => rfl).symm⟩
  refine ⟨trace step late Daemon.fresh as, ?_, ?_, ?_, fun t => ?_⟩
  · obtain ⟨e, he, -, rfl⟩ := simulates_settled.run hr h
    exact he
  · refine simulates_settled.along (fun d a d' e hde hs => ?_) hr h
    obtain ⟨hc, rfl⟩ := hde
    exact alone_late hc hs
  · exact filter_trace (fun _ _ _ => filter_late) h
  · have hsub : ((trace step late Daemon.fresh as).filter (Act.isOf t)).Sublist
        (held t Daemon.fresh ++ as.filter (Act.isOf t)) := sublist_trace (fun _ _ _ => order_late t) h
    simpa [held, Daemon.fresh] using hsub

/-- Two threads call for one node, and the second to call gets the mutex first. -/
def twoCalls : List (Act Bool) :=
  [.start localCfg initSucceeds, .call false (some nodeGuid), .call true (some nodeGuid), .acquire true, .find true,
    .insert true true "2025-01-02T00:00:00", .publish true true, .record true, .release true, .acquire false,
    .find false, .release false]

theorem discovery_serializable_twoCalls :
    ∃ d bs, run step (Daemon.fresh : Daemon Bool) twoCalls = some d ∧ run step Daemon.fresh bs = some d.settled ∧
      Along step Alone Daemon.fresh bs ∧ bs.filter Act.isEffect = twoCalls.filter Act.isEffect := by
  have hruns : (run step (Daemon.fresh : Daemon Bool) twoCalls).isSome = true := rfl
  obtain ⟨d, hd⟩ := Option.isSome_iff_exists.mp hruns
  obtain ⟨bs, hbs, halone, heff, -⟩ := discovery_serializable hd
  exact ⟨d, bs, hd, hbs, halone, heff⟩

end MqttVscpd.Discovery
