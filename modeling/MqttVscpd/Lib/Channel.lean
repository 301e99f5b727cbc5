/-
A bounded queue between those who put records into it and the reader who takes them
out. Who puts waits while the queue is full. The reader may be missing, as it is in a
process that was forked off while a thread of its parent did the reading: then nothing
is ever taken, and the queue fills up.
-/
import MqttVscpd.Lib.Transition

/-- How many records the queue holds at most, and whether there is a reader. -/
structure Channel where
  capacity : Nat
  reader : Bool

namespace Channel

open Transition

/-- The records put and not yet taken, and those taken, first to last. -/
structure State (R : Type*) where
  queue : List R := []
  taken : List R := []

inductive Act (R : Type*) where
  | put (r : R)
  | take

variable {R : Type*} (c : Channel)

/-- The queue in a child process, in which only the thread that forked goes on. -/
def forked : Channel := { c with reader := false }

/-- A record is put where there is room, and the first one is taken by the reader. -/
def step (s : State R) : Act R → Option (State R)
  | .put r => if s.queue.length < c.capacity then some { s with queue := s.queue ++ [r] } else none
  | .take =>
    match c.reader, s.queue with
    | true, r :: queue => some { queue, taken := s.taken ++ [r] }
    | _, _ => none

/-- The records a list of labels puts. -/
def puts (acts : List (Act R)) : List R :=
  acts.filterMap fun
    | .put r => some r
    | .take => none

variable {c} {s t : State R} {r : R} {acts : List (Act R)}

theorem step_put_iff :
    c.step s (.put r) = some t ↔ s.queue.length < c.capacity ∧ t = { s with queue := s.queue ++ [r] } := by
  by_cases hroom : s.queue.length < c.capacity
  · simp [step, hroom, eq_comm]
  · simp [step, hroom]

theorem step_take_iff :
    c.step s .take = some t ↔ c.reader = true ∧ ∃ r, s.queue = r :: t.queue ∧ t.taken = s.taken ++ [r] := by
  obtain ⟨queue, taken⟩ := s
  obtain ⟨queue', taken'⟩ := t
  cases hreader : c.reader <;> cases queue <;> simp [step, hreader, eq_comm]

/-- Nothing can be taken: nobody reads, or there is nothing to read. -/
theorem step_take_none_iff : c.step s .take = none ↔ c.reader = false ∨ s.queue = [] := by
  obtain ⟨queue, taken⟩ := s
  cases hreader : c.reader <;> cases queue <;> simp [step, hreader]

/-! ## What a step does, and a run -/

/-- A step puts a record at the end of what was put, or moves one on. -/
theorem step_history {a : Act R} (h : c.step s a = some t) :
    t.taken ++ t.queue = s.taken ++ s.queue ++ puts [a] := by
  cases a with
  | put r =>
    obtain ⟨-, rfl⟩ := step_put_iff.mp h
    simp [puts]
  | take =>
    obtain ⟨-, r, hq, ht⟩ := step_take_iff.mp h
    simp [puts, hq, ht]

/-- **The records come out in the order they went in**: those taken and those still in
the queue are those that were put, each once. -/
theorem run_history (h : run c.step s acts = some t) : t.taken ++ t.queue = s.taken ++ s.queue ++ puts acts := by
  induction acts generalizing s with
  | nil =>
    cases h
    simp [puts]
  | cons a acts ih =>
    obtain ⟨s', h₁, h₂⟩ := run_cons_iff.mp h
    have hputs : puts (a :: acts) = puts [a] ++ puts acts := List.filterMap_append (l := [a])
    rw [ih h₂, step_history h₁, hputs, ← List.append_assoc]

theorem step_capacity {a : Act R} (h : c.step s a = some t) (hs : s.queue.length ≤ c.capacity) :
    t.queue.length ≤ c.capacity := by
  cases a with
  | put r =>
    obtain ⟨hlt, rfl⟩ := step_put_iff.mp h
    rw [List.length_append, List.length_singleton]
    exact hlt
  | take =>
    obtain ⟨-, r, hq, -⟩ := step_take_iff.mp h
    rw [hq, List.length_cons] at hs
    omega

theorem run_capacity (h : run c.step s acts = some t) (hs : s.queue.length ≤ c.capacity) :
    t.queue.length ≤ c.capacity :=
  run_inv (I := fun u => u.queue.length ≤ c.capacity) (fun _ _ _ hu hstep => step_capacity hstep hu) hs h

/-- Without a reader nothing is taken. -/
theorem run_unread (hc : c.reader = false) (h : run c.step s acts = some t) : t.taken = s.taken := by
  refine run_inv (I := fun u => u.taken = s.taken) (fun u a u' hu hs => ?_) rfl h
  cases a with
  | put r =>
    obtain ⟨-, rfl⟩ := step_put_iff.mp hs
    exact hu
  | take =>
    obtain ⟨hreader, -⟩ := step_take_iff.mp hs
    rw [hc] at hreader
    cases hreader

/-- With a reader the queue can always be emptied. -/
theorem run_drain (hc : c.reader = true) (s : State R) :
    run c.step s (List.replicate s.queue.length .take) = some ⟨[], s.taken ++ s.queue⟩ := by
  obtain ⟨queue, taken⟩ := s
  induction queue generalizing taken with
  | nil => simp
  | cons r queue ih =>
    refine run_cons_iff.mpr ⟨⟨queue, taken ++ [r]⟩, step_take_iff.mpr ⟨hc, r, rfl, rfl⟩, ?_⟩
    rw [ih, List.append_assoc, List.singleton_append]

end Channel
