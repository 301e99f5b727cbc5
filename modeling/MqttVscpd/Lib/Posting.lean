/-
Threads that put records into a bounded queue between their steps. After a step of the
system its thread has some records to put, and waits where the queue is full; it takes
its next step when all are in. With a reader that is not passed over, and writers that
get their turn, what was fair to the system alone stays so (`fair_system`,
`strongFair_system`); without a reader as many records are put as there is room for
(`run_unread`), and then a thread with a record takes no step any more (`stalled`).
-/
import MqttVscpd.Lib.Channel
import MqttVscpd.Lib.Fairness

namespace Posting

open Transition

/-- The system, the records its threads have still to put, and the queue. -/
structure State (S Θ R : Type*) where
  sys : S
  pending : Θ → List R
  channel : Channel.State R

inductive Act (A Θ R : Type*) where
  /-- A step of the system, and the records its thread puts after it. -/
  | act (a : A) (records : List R)
  /-- A thread puts its next record. -/
  | post (θ : Θ)
  /-- The reader takes a record. -/
  | take

variable {S A Θ R : Type*} [DecidableEq Θ]

/-- The steps of the system, whose threads are `thread`, and of the queue. Where the system has
stopped, so has everything. -/
def step (base : S → A → Option S) (thread : A → Θ) (stopped : S → Bool) (c : Channel) (s : State S Θ R)
    (b : Act A Θ R) : Option (State S Θ R) :=
  if stopped s.sys then none
  else match b with
    | .act a records =>
      match s.pending (thread a) with
      | [] => (base s.sys a).map fun t => { s with sys := t, pending := Function.update s.pending (thread a) records }
      | _ :: _ => none
    | .post θ =>
      match s.pending θ with
      | [] => none
      | r :: records => (c.step s.channel (.put r)).map fun channel =>
        { s with pending := Function.update s.pending θ records, channel }
    | .take => (c.step s.channel .take).map fun channel => { s with channel }

/-- A step of the system with one of these labels. -/
def Lifted (F : A → Prop) (b : Act A Θ R) : Prop := ∃ a records, b = .act a records ∧ F a

variable {base : S → A → Option S} {thread : A → Θ} {stopped : S → Bool} {c : Channel} {s t : State S Θ R}

theorem step_act_iff {a : A} {records : List R} :
    step base thread stopped c s (.act a records) = some t ↔
      stopped s.sys = false ∧ s.pending (thread a) = [] ∧ base s.sys a = some t.sys ∧
        t.pending = Function.update s.pending (thread a) records ∧ t.channel = s.channel := by
  obtain ⟨sys, pending, channel⟩ := t
  simp only [step]
  cases hs : stopped s.sys <;> cases hp : s.pending (thread a) <;> simp [Option.map_eq_some_iff]
  exact fun _ => ⟨fun h => ⟨h.1.symm, h.2.symm⟩, fun h => ⟨h.1.symm, h.2.symm⟩⟩

theorem step_post_iff {θ : Θ} :
    step base thread stopped c s (.post θ) = some t ↔
      stopped s.sys = false ∧ t.sys = s.sys ∧ ∃ r records, s.pending θ = r :: records ∧
        c.step s.channel (.put r) = some t.channel ∧ t.pending = Function.update s.pending θ records := by
  obtain ⟨sys, pending, channel⟩ := t
  simp only [step]
  cases hs : stopped s.sys <;> cases hp : s.pending θ <;> simp [Option.map_eq_some_iff]
  exact ⟨fun h => ⟨h.2.1.symm, h.1, h.2.2.symm⟩, fun h => ⟨h.2.1, h.1.symm, h.2.2.symm⟩⟩

theorem step_take_iff :
    step base thread stopped c s .take = some t ↔
      stopped s.sys = false ∧ c.step s.channel .take = some t.channel ∧ t.sys = s.sys ∧ t.pending = s.pending := by
  obtain ⟨sys, pending, channel⟩ := t
  simp only [step]
  cases hs : stopped s.sys <;> simp [Option.map_eq_some_iff]
  exact fun _ => ⟨fun h => ⟨h.1.symm, h.2.symm⟩, fun h => ⟨h.1.symm, h.2.symm⟩⟩

theorem step_of_stopped (h : stopped s.sys = true) (b : Act A Θ R) : step base thread stopped c s b = none :=
  if_pos h

/-! ## Without a reader -/

/-- How many records a list of labels puts. -/
def posted (acts : List (Act A Θ R)) : Nat :=
  acts.countP fun
    | .post _ => true
    | _ => false

theorem unread_step {b : Act A Θ R} (hc : c.reader = false) (hs : s.channel.queue.length ≤ c.capacity)
    (h : step base thread stopped c s b = some t) :
    t.channel.queue.length = s.channel.queue.length + posted [b] ∧ t.channel.queue.length ≤ c.capacity := by
  cases b with
  | act a records =>
    obtain ⟨-, -, -, -, hch⟩ := step_act_iff.mp h
    rw [hch]
    exact ⟨rfl, hs⟩
  | post θ =>
    obtain ⟨-, -, r, records, -, hput, -⟩ := step_post_iff.mp h
    obtain ⟨hroom, ht⟩ := Channel.step_put_iff.mp hput
    rw [ht, List.length_append]
    exact ⟨rfl, hroom⟩
  | take =>
    obtain ⟨-, htake, -, -⟩ := step_take_iff.mp h
    have hreader := (Channel.step_take_iff.mp htake).1
    rw [hc] at hreader
    cases hreader

/-- **Without a reader the queue takes what it has room for**, and keeps it, in every run. -/
theorem run_unread {acts : List (Act A Θ R)} (hc : c.reader = false) (hs : s.channel.queue.length ≤ c.capacity)
    (h : run (step base thread stopped c) s acts = some t) :
    t.channel.queue.length = s.channel.queue.length + posted acts ∧ t.channel.queue.length ≤ c.capacity := by
  induction acts generalizing s with
  | nil =>
    cases h
    exact ⟨rfl, hs⟩
  | cons b acts ih =>
    obtain ⟨s', h₁, h₂⟩ := run_cons_iff.mp h
    obtain ⟨hlen, hs'⟩ := unread_step hc hs h₁
    obtain ⟨hrest, ht⟩ := ih hs' h₂
    have hposted : posted (b :: acts) = posted [b] + posted acts := by
      rw [posted, posted, posted, ← List.countP_append, List.singleton_append]
    exact ⟨by omega, ht⟩

variable {e : Execution (step (R := R) base thread stopped c)} {n : Nat} {θ : Θ}

/-- The execution of the system in one with records. -/
def system (e : Execution (step (R := R) base thread stopped c)) : Execution base :=
  e.map State.sys
    (fun _ b => match b with
      | .act a _ => some a
      | .post _ | .take => none)
    fun n b ht => by
      cases b with
      | act a records => exact (step_act_iff.mp ht.2).2.2.1
      | post θ => exact (step_post_iff.mp ht.2).2.1
      | take => exact (step_take_iff.mp ht.2).2.2.1

theorem label_system {a : A} : (system e).label n = some a ↔ ∃ records, e.label n = some (.act a records) := by
  simp only [system, Execution.map, Option.bind_eq_some_iff]
  constructor
  · rintro ⟨b, hb, ha⟩
    cases b <;> cases ha
    exact ⟨_, hb⟩
  · rintro ⟨records, hb⟩
    exact ⟨_, hb, rfl⟩

/-- The queue has room again and again, as long as the system has not stopped. -/
theorem room (htake : e.Fair (· = .take)) (hc : c.reader = true) (hcap : 0 < c.capacity)
    (hgo : ∀ m, n ≤ m → stopped (e.state m).sys = false) :
    ∃ m, n ≤ m ∧ (e.state m).channel.queue.length < c.capacity := by
  by_cases hroom : (e.state n).channel.queue.length < c.capacity
  · exact ⟨n, Nat.le_refl n, hroom⟩
  refine htake.descends (P := fun l s => s.channel.queue.length = l ∧ c.capacity ≤ l)
    (Q := fun s => s.channel.queue.length < c.capacity) id (fun l m hm hs => ?_) (fun l m b _ hs hb ht => ?_)
    (fun l m b _ hs hb ht => ?_) ⟨rfl, by omega⟩
  · obtain ⟨r, queue, hq⟩ := List.exists_cons_of_length_pos (l := (e.state m).channel.queue) (by omega)
    refine ⟨.take, { e.state m with channel := ⟨queue, (e.state m).channel.taken ++ [r]⟩ }, rfl, ?_⟩
    exact step_take_iff.mpr ⟨hgo m hm, Channel.step_take_iff.mpr ⟨hc, r, hq, rfl⟩, rfl, rfl⟩
  · subst hb
    obtain ⟨-, r, hq, -⟩ := Channel.step_take_iff.mp (step_take_iff.mp ht.2).2.1
    obtain ⟨hl, -⟩ := hs
    rw [hq, List.length_cons] at hl
    by_cases hroom' : (e.state (m + 1)).channel.queue.length < c.capacity
    · exact .inl hroom'
    · exact .inr ⟨_, by simp only [id]; omega, rfl, by omega⟩
  · refine .inl ?_
    cases b with
    | act a records => exact (step_act_iff.mp ht.2).2.2.2.2 ▸ hs
    | post θ =>
      obtain ⟨-, -, r, records, -, hput, -⟩ := step_post_iff.mp ht.2
      have hroom' := (Channel.step_put_iff.mp hput).1
      omega
    | take => exact absurd rfl hb

/-- Records leave a thread only into the queue, one by one. -/
theorem pending_of_takes {b : Act A Θ R} {m : Nat} (ht : e.Takes m b) (hother : b ≠ .post θ)
    (hquiet : ∀ a records, b = .act a records → thread a ≠ θ) :
    (e.state (m + 1)).pending θ = (e.state m).pending θ := by
  cases b with
  | act a records =>
    rw [(step_act_iff.mp ht.2).2.2.2.1, Function.update_of_ne (Ne.symm (hquiet a records rfl))]
  | post θ' =>
    obtain ⟨-, -, r, records, -, -, hp⟩ := step_post_iff.mp ht.2
    have hne : θ ≠ θ' := fun he => hother (by rw [he])
    rw [hp, Function.update_of_ne hne]
  | take => rw [(step_take_iff.mp ht.2).2.2.2]

theorem pending_post {m : Nat} {r : R} {records : List R} (ht : e.Takes m (.post θ))
    (hs : (e.state m).pending θ = r :: records) : (e.state (m + 1)).pending θ = records := by
  obtain ⟨-, -, r', rest, hcons, -, hp⟩ := step_post_iff.mp ht.2
  obtain ⟨rfl, rfl⟩ := List.cons.inj (hs.symm.trans hcons)
  rw [hp, Function.update_self]

/-- A thread with a record to put has put it, or can, at some time. -/
theorem puts_or_can {r : R} {records : List R} (htake : e.Fair (· = .take)) (hc : c.reader = true)
    (hcap : 0 < c.capacity) (hgo : ∀ m, n ≤ m → stopped (e.state m).sys = false)
    (hquiet : ∀ m a posted, n ≤ m → e.label m = some (.act a posted) → thread a ≠ θ)
    (hs : (e.state n).pending θ = r :: records) :
    ∃ m, n ≤ m ∧ ((e.state m).pending θ = records ∨
      ∃ b t, b = .post θ ∧ step base thread stopped c (e.state m) b = some t) := by
  obtain ⟨m, hm, hroom⟩ := room htake hc hcap hgo
  have hkeeps : ∀ q b, n ≤ q → (e.state q).pending θ = r :: records → e.Takes q b →
      (e.state (q + 1)).pending θ = r :: records ∨ (e.state (q + 1)).pending θ = records := by
    intro q b hq hs ht
    by_cases hb : b = .post θ
    · exact .inr (pending_post (hb ▸ ht) hs)
    · exact .inl ((pending_of_takes ht hb fun a posted he => hquiet q a posted hq (he ▸ ht.1)).trans hs)
  rcases Execution.keeps_until (e := e) (P := fun s => s.pending θ = r :: records)
    (Q := fun s => s.pending θ = records) hkeeps hs with hall | ⟨q, hq, hput⟩
  · refine ⟨m, hm, .inr ⟨.post θ, { e.state m with
      pending := Function.update (e.state m).pending θ records
      channel := { (e.state m).channel with queue := (e.state m).channel.queue ++ [r] } }, rfl, ?_⟩⟩
    exact step_post_iff.mpr ⟨hgo m hm, rfl, r, records, hall m hm, Channel.step_put_iff.mpr ⟨hroom, rfl⟩, rfl⟩
  · exact ⟨q, hq, .inl hput⟩

/-- A thread that takes no step comes to have put all its records. -/
theorem emptied (hpost : e.StrongFair (· = .post θ)) (htake : e.Fair (· = .take)) (hc : c.reader = true)
    (hcap : 0 < c.capacity) (hgo : ∀ m, n ≤ m → stopped (e.state m).sys = false)
    (hquiet : ∀ m a posted, n ≤ m → e.label m = some (.act a posted) → thread a ≠ θ) :
    ∃ m, n ≤ m ∧ (e.state m).pending θ = [] := by
  refine Execution.descends (e := e) (P := fun records s => s.pending θ = records) (Q := fun s => s.pending θ = [])
    List.length (fun records m hm hs => ?_) rfl
  cases records with
  | nil => exact ⟨m, Nat.le_refl m, .inl hs⟩
  | cons r records =>
    have hless : ∀ p, (e.state p).pending θ = records → (e.state p).pending θ = [] ∨
        ∃ y : List R, y.length < (r :: records).length ∧ (e.state p).pending θ = y :=
      fun p hp => .inr ⟨records, by simp, hp⟩
    refine hpost.leads (P := fun s => s.pending θ = r :: records) (Q := fun s => s.pending θ = [] ∨
      ∃ y : List R, y.length < (r :: records).length ∧ s.pending θ = y) (fun p hp hs => ?_)
      (fun p b _ hs hb ht => hless _ (pending_post (hb ▸ ht) hs)) (fun p b hp hs hb ht => .inl ?_) hs
    · obtain ⟨q, hq, hput | hcan⟩ := puts_or_can htake hc hcap (fun q hq => hgo q (by omega))
        (fun q a posted hq => hquiet q a posted (by omega)) hs
      · exact ⟨q, hq, .inl (hless q hput)⟩
      · exact ⟨q, hq, .inr hcan⟩
    · exact (pending_of_takes ht hb fun a posted he => hquiet p a posted (by omega) (he ▸ ht.1)).trans hs

/-- And then it has none to put. -/
theorem drained (hpost : e.StrongFair (· = .post θ)) (htake : e.Fair (· = .take)) (hc : c.reader = true)
    (hcap : 0 < c.capacity) (hgo : ∀ m, n ≤ m → stopped (e.state m).sys = false)
    (hquiet : ∀ m a posted, n ≤ m → e.label m = some (.act a posted) → thread a ≠ θ) :
    ∃ m, n ≤ m ∧ ∀ p, m ≤ p → (e.state p).pending θ = [] := by
  obtain ⟨m, hm, hnil⟩ := emptied hpost htake hc hcap hgo hquiet
  refine ⟨m, hm, fun p hp => ?_⟩
  induction p, hp using Nat.le_induction with
  | base => exact hnil
  | succ p hp ih =>
    rcases Execution.takes_or_same (e := e) p with ⟨b, ht⟩ | hsame
    · have hb : b ≠ .post θ := by
        rintro rfl
        obtain ⟨-, -, r, rest, hcons, -⟩ := step_post_iff.mp ht.2
        rw [ih] at hcons
        cases hcons
      exact (pending_of_takes ht hb fun a posted he => hquiet p a posted (by omega) (he ▸ ht.1)).trans ih
    · rw [hsame]
      exact ih

/-! ## What is fair -/

/-- What makes the steps `F` of the system steps of one thread: where one of them is enabled the
thread is busy, it stays so until it takes one, and then it takes no other. -/
structure Owns (base : S → A → Option S) (thread : A → Θ) (e : Execution base) (θ : Θ) (F : A → Prop)
    (Busy : S → Prop) : Prop where
  enabled : ∀ m a t, F a → base (e.state m) a = some t → Busy (e.state m)
  stays : ∀ m a, Busy (e.state m) → ¬ F a → e.Takes m a → Busy (e.state (m + 1))
  only : ∀ m a, Busy (e.state m) → thread a = θ → e.Takes m a → F a
  thread : ∀ a, F a → thread a = θ

variable {F : A → Prop} {Busy : S → Prop}

/-- A system that has stopped stays as it is. -/
theorem stopped_stays {m : Nat} (h : stopped (e.state n).sys = true) (hm : n ≤ m) : e.state m = e.state n := by
  induction m, hm using Nat.le_induction with
  | base => rfl
  | succ m hm ih =>
    rcases Execution.takes_or_same (e := e) m with ⟨b, ht⟩ | hsame
    · have hs := ht.2
      rw [ih, step_of_stopped h] at hs
      cases hs
    · exact hsame.trans ih

/-- While `F` is enabled again and again and not taken, its thread puts its records and waits. -/
theorem ready (ho : Owns base thread (system e) θ F Busy) (hstop : ∀ s a, stopped s = true → base s a = none)
    (hpost : e.StrongFair (· = .post θ)) (htake : e.Fair (· = .take)) (hc : c.reader = true) (hcap : 0 < c.capacity)
    (hen : ∀ m, n ≤ m → ∃ p, m ≤ p ∧ ∃ a t, F a ∧ base (e.state p).sys a = some t)
    (hno : ∀ m a, n ≤ m → F a → (system e).label m ≠ some a) :
    ∃ m, n ≤ m ∧ ∀ p, m ≤ p → stopped (e.state p).sys = false ∧ (e.state p).pending θ = [] := by
  have hgo : ∀ m, n ≤ m → stopped (e.state m).sys = false := by
    intro m hm
    rw [← Bool.not_eq_true]
    intro h
    obtain ⟨p, hp, a, t, -, hs⟩ := hen m hm
    rw [stopped_stays h hp, hstop _ _ h] at hs
    cases hs
  obtain ⟨m, hm, a, t, hF, hs⟩ := hen n (Nat.le_refl n)
  have hbusy : ∀ p, m ≤ p → Busy (e.state p).sys := by
    intro p hp
    induction p, hp using Nat.le_induction with
    | base => exact ho.enabled m a t hF hs
    | succ p hp ih =>
      rcases Execution.takes_or_same (e := system e) p with ⟨b, ht⟩ | hsame
      · exact ho.stays p b ih (fun hb => hno p b (by omega) hb ht.1) ht
      · exact (show (e.state (p + 1)).sys = (e.state p).sys from hsame) ▸ ih
  have hquiet : ∀ p b records, m ≤ p → e.label p = some (.act b records) → thread b ≠ θ := by
    intro p b records hp hl he
    have hlabel : (system e).label p = some b := label_system.mpr ⟨records, hl⟩
    exact hno p b (by omega) (ho.only p b (hbusy p hp) he (Execution.takes_of_label hlabel)) hlabel
  obtain ⟨q, hq, hnil⟩ := drained (n := m) hpost htake hc hcap (fun p hp => hgo p (by omega)) hquiet
  exact ⟨q, by omega, fun p hp => ⟨hgo p (by omega), hnil p hp⟩⟩

/-- A step of the system is enabled where its thread has put its records. -/
theorem lifted_enabled {a : A} {t : S} (hF : F a) (ha : thread a = θ) (hs : base s.sys a = some t)
    (hready : stopped s.sys = false ∧ s.pending θ = []) :
    ∃ b t, Lifted F b ∧ step base thread stopped c s b = some t :=
  ⟨.act a [], ⟨t, Function.update s.pending (thread a) [], s.channel⟩, ⟨a, [], rfl, hF⟩,
    step_act_iff.mpr ⟨hready.1, ha ▸ hready.2, hs, rfl, rfl⟩⟩

/-- **Waiting for the queue takes nothing from fairness**: steps that are taken if they can be for
ever, records put before them, are so in the system alone. -/
theorem fair_system (hf : e.Fair (Lifted F)) (ho : Owns base thread (system e) θ F Busy)
    (hstop : ∀ s a, stopped s = true → base s a = none) (hpost : e.StrongFair (· = .post θ))
    (htake : e.Fair (· = .take)) (hc : c.reader = true) (hcap : 0 < c.capacity) : (system e).Fair F := by
  intro n hen
  by_contra hno
  obtain ⟨m, hm, hready⟩ := ready ho hstop hpost htake hc hcap (fun p hp => ⟨p, Nat.le_refl p, hen p hp⟩)
    fun p a hp hF hl => hno ⟨p, a, hp, hF, hl⟩
  have henabled : ∀ p, m ≤ p → ∃ b t, Lifted F b ∧ step base thread stopped c (e.state p) b = some t := by
    intro p hp
    obtain ⟨a, t, hF, hs⟩ := hen p (by omega)
    exact lifted_enabled hF (ho.thread a hF) hs (hready p hp)
  obtain ⟨p, b, hp, ⟨a, records, rfl, hF⟩, hl⟩ := hf m henabled
  exact hno ⟨p, a, by omega, hF, label_system.mpr ⟨records, hl⟩⟩

/-- Steps that are taken if they can be again and again are so in the system alone. -/
theorem strongFair_system (hf : e.StrongFair (Lifted F)) (ho : Owns base thread (system e) θ F Busy)
    (hstop : ∀ s a, stopped s = true → base s a = none) (hpost : e.StrongFair (· = .post θ))
    (htake : e.Fair (· = .take)) (hc : c.reader = true) (hcap : 0 < c.capacity) : (system e).StrongFair F := by
  intro n hen
  by_contra hno
  obtain ⟨m, hm, hready⟩ := ready ho hstop hpost htake hc hcap hen fun p a hp hF hl => hno ⟨p, a, hp, hF, hl⟩
  have henabled : ∀ p, m ≤ p → ∃ q, p ≤ q ∧ ∃ b t, Lifted F b ∧ step base thread stopped c (e.state q) b = some t := by
    intro p hp
    obtain ⟨q, hq, a, t, hF, hs⟩ := hen p (by omega)
    exact ⟨q, hq, lifted_enabled hF (ho.thread a hF) hs (hready q (by omega))⟩
  obtain ⟨p, b, hp, ⟨a, records, rfl, hF⟩, hl⟩ := hf m henabled
  exact hno ⟨p, a, by omega, hF, label_system.mpr ⟨records, hl⟩⟩

end Posting
