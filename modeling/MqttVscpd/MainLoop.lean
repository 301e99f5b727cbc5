/-
The main loop of `CControlObject::run` as a schedule: when `periodicEvents` is
called, over any number of iterations and whatever the clock reads.
-/
import Mathlib.Data.List.Chain
import Mathlib.Tactic.ByContra

namespace MqttVscpd

/-- One iteration: what it read into `now`, and what it read into `old_now` if it called `periodicEvents`. -/
structure Iteration where
  now : Int
  stored : Option Int

/-- The loop with the seconds it goes by, how often it has read the clock, and its iterations so far. -/
structure MainLoop where
  reads : Nat
  oldNow : Int
  iterations : List Iteration

/-- `old_now.tv_sec -= 60`, after the first reading. -/
def MainLoop.start (clock : Nat → Int) : MainLoop := ⟨1, clock 0 - 60, []⟩

/-- An iteration while `m_bQuit` is not set. -/
def MainLoop.pass (clock : Nat → Int) (s : MainLoop) : MainLoop :=
  let now := clock s.reads
  if now - s.oldNow > 60 then
    let oldNow := clock (s.reads + 1)
    ⟨s.reads + 2, oldNow, s.iterations ++ [⟨now, some oldNow⟩]⟩
  else ⟨s.reads + 1, s.oldNow, s.iterations ++ [⟨now, none⟩]⟩

/-- The loop after `n` iterations. -/
def MainLoop.run (clock : Nat → Int) : Nat → MainLoop
  | 0 => start clock
  | n + 1 => (run clock n).pass clock

/-! ## The schedule -/

/-- The reading stored at the last call. -/
def lastStored (its : List Iteration) : Option Int := its.reverse.findSome? (·.stored)

/-- `periodicEvents` is called in the first iteration, and in a later one exactly
when 60 seconds or more have passed since the reading stored at the last call. -/
def OnTime (before : List Iteration) (it : Iteration) : Prop :=
  it.stored.isSome = true ↔ before = [] ∨ ∃ base, lastStored before = some base ∧ 60 ≤ it.now - base

/-- The iteration does not find the clock exactly 60 seconds after `old_now`. -/
def OffBoundary (clock : Nat → Int) (before : List Iteration) (it : Iteration) : Prop :=
  it.now - (lastStored before).getD (clock 0 - 60) ≠ 60

instance (clock : Nat → Int) (before : List Iteration) (it : Iteration) : Decidable (OffBoundary clock before it) :=
  inferInstanceAs (Decidable (_ ≠ _))

/-- What holds of each iteration, given those before it. -/
def Throughout (P : List Iteration → Iteration → Prop) (its : List Iteration) : Prop :=
  ∀ i (h : i < its.length), P (its.take i) its[i]

variable {clock : Nat → Int} {s : MainLoop} {its : List Iteration} {it : Iteration}

theorem throughout_nil (P : List Iteration → Iteration → Prop) : Throughout P [] :=
  fun i h => absurd h (Nat.not_lt_zero i)

theorem throughout_concat {P : List Iteration → Iteration → Prop} :
    Throughout P (its ++ [it]) ↔ Throughout P its ∧ P its it := by
  constructor
  · intro hall
    constructor
    · intro i hi
      have hp := hall i (by rw [List.length_append]; omega)
      rwa [List.take_append_of_le_length (Nat.le_of_lt hi), List.getElem_append_left hi] at hp
    · have hp := hall its.length (by simp)
      rwa [List.take_left' rfl, List.getElem_append_right (Nat.le_refl _), List.getElem_singleton] at hp
  · intro hall i hi
    rw [List.length_append, List.length_singleton] at hi
    rcases Nat.lt_succ_iff_lt_or_eq.mp hi with hlt | rfl
    · rw [List.take_append_of_le_length (Nat.le_of_lt hlt), List.getElem_append_left hlt]
      exact hall.1 i hlt
    · rw [List.take_left' rfl, List.getElem_append_right (Nat.le_refl _), List.getElem_singleton]
      exact hall.2

theorem lastStored_concat (its : List Iteration) (it : Iteration) :
    lastStored (its ++ [it]) = it.stored.or (lastStored its) := by
  rw [lastStored, List.reverse_append, List.reverse_singleton, List.singleton_append, List.findSome?_cons]
  cases it.stored <;> rfl

/-- A list whose first iteration has called has a stored reading. -/
theorem lastStored_of_onTime (h : Throughout OnTime its) (hne : its ≠ []) : ∃ base, lastStored its = some base := by
  have hpos : 0 < its.length := List.length_pos_iff.mpr hne
  have hfirst := (h 0 hpos).mpr (.inl rfl)
  rw [← Option.isSome_iff_exists, lastStored, List.findSome?_isSome_iff]
  exact ⟨its[0], by simp, hfirst⟩

/-! ## The loop -/

/-- `old_now` is the reading stored at the last call, or the backdated first one. -/
structure MainLoop.Good (clock : Nat → Int) (s : MainLoop) : Prop where
  oldNow : s.oldNow = (lastStored s.iterations).getD (clock 0 - 60)
  reads : s.iterations = [] → s.reads = 1

theorem pass_iterations (clock : Nat → Int) (s : MainLoop) :
    ∃ it, (s.pass clock).iterations = s.iterations ++ [it] ∧ it.now = clock s.reads ∧
      (it.stored.isSome = true ↔ 60 < it.now - s.oldNow) ∧ (s.pass clock).oldNow = it.stored.getD s.oldNow := by
  unfold MainLoop.pass
  by_cases h : clock s.reads - s.oldNow > 60
  · exact ⟨⟨clock s.reads, some (clock (s.reads + 1))⟩, by simp [h]⟩
  · exact ⟨⟨clock s.reads, none⟩, by simp [h]⟩

theorem good_start (clock : Nat → Int) : (MainLoop.start clock).Good clock := ⟨rfl, fun _ => rfl⟩

theorem good_pass (h : s.Good clock) : (s.pass clock).Good clock := by
  obtain ⟨it, hits, -, -, hold⟩ := pass_iterations clock s
  constructor
  · rw [hits, lastStored_concat, hold, h.oldNow]
    cases it.stored <;> rfl
  · intro hnil
    rw [hits] at hnil
    simp at hnil

theorem good_run (clock : Nat → Int) (n : Nat) : (MainLoop.run clock n).Good clock := by
  induction n with
  | zero => exact good_start clock
  | succ n ih => exact good_pass ih

/-- The next iteration is on time exactly when it is off the boundary. -/
theorem onTime_iff (hfirst : clock 0 ≤ clock 1) (h : s.Good clock) (hs : Throughout OnTime s.iterations)
    (hnow : it.now = clock s.reads) (hcall : it.stored.isSome = true ↔ 60 < it.now - s.oldNow) :
    OnTime s.iterations it ↔ OffBoundary clock s.iterations it := by
  unfold OnTime OffBoundary
  rw [hcall, h.oldNow]
  by_cases hnil : s.iterations = []
  · have hstart : it.now = clock 1 := by rw [hnow, h.reads hnil]
    rw [hnil]
    simp only [true_or, iff_true]
    show 60 < it.now - (clock 0 - 60) ↔ it.now - (clock 0 - 60) ≠ 60
    omega
  · obtain ⟨base, hbase⟩ := lastStored_of_onTime hs hnil
    simp only [hbase, Option.getD_some, hnil, false_or, Option.some.injEq, exists_eq_left']
    omega

/-- **When heartbeats follow the schedule**: over any number of iterations under a
clock that does not go back, exactly when no iteration finds it 60 seconds after
`old_now`. -/
theorem heartbeats_scheduled_iff (clock : Nat → Int) (hclock : ∀ i, clock i ≤ clock (i + 1)) (n : Nat) :
    Throughout OnTime (MainLoop.run clock n).iterations ↔
      Throughout (OffBoundary clock) (MainLoop.run clock n).iterations := by
  induction n with
  | zero => exact ⟨fun _ => throughout_nil _, fun _ => throughout_nil _⟩
  | succ n ih =>
    obtain ⟨it, hits, hnow, hcall, -⟩ := pass_iterations clock (MainLoop.run clock n)
    have hgood := good_run clock n
    rw [MainLoop.run, hits, throughout_concat, throughout_concat, ← ih]
    exact and_congr_right fun hs => onTime_iff (hclock 0) hgood hs hnow hcall

/-- Two readings within the first second: no first heartbeat. And a minute later to the second: no second one. -/
theorem heartbeats_late :
    ¬ Throughout OnTime (MainLoop.run (fun _ => 1000) 1).iterations ∧
    ¬ Throughout OnTime (MainLoop.run (fun i => if i < 3 then 1000 + i else 1062) 2).iterations := by
  constructor
  · intro h
    exact absurd ((h 0 (by decide)).mpr (.inl rfl)) (by decide)
  · intro h
    exact absurd ((h 1 (by decide)).mpr (.inr ⟨1002, rfl, by decide⟩)) (by decide)

/-- A heartbeat at once, and one after 61 seconds. -/
theorem heartbeats_scheduled_61 :
    Throughout OnTime (MainLoop.run (fun i => if i < 3 then 1000 + i else 1063) 2).iterations := by
  refine (heartbeats_scheduled_iff _ (fun i => ?_) 2).mpr ?_
  · by_cases h : i < 3 <;> by_cases h' : i + 1 < 3 <;> simp only [h, h', if_true, if_false] <;> omega
  · show Throughout _ (([] ++ [⟨1001, some 1002⟩]) ++ [⟨1063, some 1063⟩])
    rw [throughout_concat, throughout_concat]
    exact ⟨⟨throughout_nil _, by decide⟩, by decide⟩

/-! ## How often -/

/-- What `old_now` has been, from the backdated first reading on. -/
def MainLoop.marks (clock : Nat → Int) (s : MainLoop) : List Int := (clock 0 - 60) :: s.iterations.filterMap (·.stored)

/-- The next mark after `a`, when `δ` seconds at most pass from one reading to the next. -/
def Paced (δ a b : Int) : Prop := a + 61 ≤ b ∧ b ≤ a + 60 + 2 * δ

/-- The marks so far are paced, and the last one is not overdue. -/
structure MainLoop.Steady (clock : Nat → Int) (δ : Int) (s : MainLoop) : Prop where
  paced : (s.marks clock).IsChain (Paced δ)
  last : (s.marks clock).getLast? = some s.oldNow
  reads : 0 < s.reads
  due : clock (s.reads - 1) ≤ s.oldNow + 60

theorem steady_start (clock : Nat → Int) (δ : Int) : (MainLoop.start clock).Steady clock δ where
  paced := List.isChain_singleton _
  last := rfl
  reads := Nat.one_pos
  due := by simp [MainLoop.start]

theorem steady_pass {δ : Int} (hclock : ∀ i, clock i ≤ clock (i + 1) ∧ clock (i + 1) ≤ clock i + δ)
    (h : s.Steady clock δ) : (s.pass clock).Steady clock δ := by
  obtain ⟨hpaced, hlast, hreads, hdue⟩ := h
  -- The reading of this iteration, and the one before it.
  have hnow := hclock (s.reads - 1)
  rw [Nat.sub_add_cancel hreads] at hnow
  have hstored := hclock s.reads
  unfold MainLoop.pass
  by_cases hcall : clock s.reads - s.oldNow > 60
  · simp only [hcall, if_true]
    have hmarks : ∀ k o, (⟨k, o, s.iterations ++ [⟨clock s.reads, some (clock (s.reads + 1))⟩]⟩ : MainLoop).marks clock =
        s.marks clock ++ [clock (s.reads + 1)] := fun _ _ => by simp [MainLoop.marks]
    have hon : clock (s.reads + 1) ≤ clock (s.reads + 1) + 60 := by omega
    refine ⟨?_, ?_, by simp, hon⟩
    · rw [hmarks, List.isChain_append]
      refine ⟨hpaced, List.isChain_singleton _, fun a ha b hb => ?_⟩
      obtain rfl : s.oldNow = a := by simpa [hlast] using ha
      obtain rfl : clock (s.reads + 1) = b := by simpa using hb
      constructor <;> omega
    · rw [hmarks, List.getLast?_append]
      rfl
  · simp only [hcall, if_false]
    have hmarks : ∀ k o, (⟨k, o, s.iterations ++ [⟨clock s.reads, none⟩]⟩ : MainLoop).marks clock = s.marks clock :=
      fun _ _ => by simp [MainLoop.marks]
    refine ⟨by rw [hmarks]; exact hpaced, by rw [hmarks]; exact hlast, by simp, ?_⟩
    simp only [Nat.add_sub_cancel]
    omega

/-- **Heartbeats are paced.** Under a clock that does not go back, and that goes on by `δ` seconds at
most from one reading to the next, `old_now` goes on by 61 seconds at least and `60 + 2 * δ` at most
from each call to the next, beginning a minute before the first reading; and the loop is never more
than a minute past it without a call. -/
theorem heartbeats_paced (clock : Nat → Int) (δ : Int)
    (hclock : ∀ i, clock i ≤ clock (i + 1) ∧ clock (i + 1) ≤ clock i + δ) (n : Nat) :
    ((MainLoop.run clock n).marks clock).IsChain (Paced δ) ∧
      ∀ b ∈ ((MainLoop.run clock n).marks clock).getLast?, clock ((MainLoop.run clock n).reads - 1) ≤ b + 60 := by
  have hsteady : (MainLoop.run clock n).Steady clock δ := by
    induction n with
    | zero => exact steady_start clock δ
    | succ n ih => exact steady_pass hclock ih
  refine ⟨hsteady.paced, fun b hb => ?_⟩
  obtain rfl : (MainLoop.run clock n).oldNow = b := by simpa [hsteady.last] using hb
  exact hsteady.due

/-- A clock read once a second. -/
theorem heartbeats_paced_seconds :
    ((MainLoop.run (fun i => i) 70).marks (fun i => i)).IsChain (Paced 1) :=
  (heartbeats_paced (fun i => i) 1 (fun i => by omega) 70).1

end MqttVscpd
