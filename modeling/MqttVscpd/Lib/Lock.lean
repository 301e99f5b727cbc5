/-
A blocking lock among any number of threads: the thread inside is the owner,
and what acquiring, releasing and every step in between keep of that.
-/
import Mathlib.Logic.Function.Basic

namespace Lock

variable {ι P : Type*}

/-- The owner, if any, is exactly the thread whose control point is inside. -/
def Excl (inside : P → Prop) (owner : Option ι) (pc : ι → P) : Prop :=
  ∀ t, inside (pc t) ↔ owner = some t

variable {inside : P → Prop} {owner : Option ι} {pc : ι → P} {t u : ι} {p : P}

theorem Excl.owner_eq (h : Excl inside owner pc) (ht : inside (pc t)) : owner = some t := (h t).mp ht

/-- At most one thread is inside. -/
theorem Excl.unique (h : Excl inside owner pc) (ht : inside (pc t)) (hu : inside (pc u)) : t = u := by
  have := (h.owner_eq ht).symm.trans (h.owner_eq hu)
  simpa using this

/-- Nobody is inside a free lock. -/
theorem Excl.outside (h : Excl inside none pc) (t : ι) : ¬ inside (pc t) := by
  intro ht
  simpa using (h t).mp ht

theorem Excl.outside_of_ne (h : Excl inside (some t) pc) (hne : u ≠ t) : ¬ inside (pc u) := fun hu =>
  hne (by simpa using ((h u).mp hu).symm)

theorem excl_idle (h : ∀ t, ¬ inside (pc t)) : Excl inside (none : Option ι) pc := by
  intro t
  simp [h t]

/-! ## Steps -/

variable [DecidableEq ι]

/-- Taking a free lock. -/
theorem Excl.acquire (h : Excl inside none pc) (hp : inside p) :
    Excl inside (some t) (Function.update pc t p) := by
  intro u
  by_cases hu : u = t
  · subst hu; simp [hp]
  · simp only [Function.update_of_ne hu, Option.some.injEq]
    exact ⟨fun hin => absurd hin (h.outside u), fun he => absurd he.symm hu⟩

/-- A step that stays on its side of the lock. -/
theorem Excl.move (h : Excl inside owner pc) (hp : inside p ↔ inside (pc t)) :
    Excl inside owner (Function.update pc t p) := by
  intro u
  by_cases hu : u = t
  · subst hu; simp only [Function.update_self]; exact hp.trans (h u)
  · simp only [Function.update_of_ne hu]; exact h u

/-- Leaving the lock. -/
theorem Excl.release (h : Excl inside owner pc) (ht : inside (pc t)) (hp : ¬ inside p) :
    Excl inside none (Function.update pc t p) := by
  intro u
  by_cases hu : u = t
  · subst hu; simp [hp]
  · have ho : owner = some t := h.owner_eq ht
    subst ho
    simp only [Function.update_of_ne hu]
    exact ⟨fun hin => absurd hin (h.outside_of_ne hu), fun he => by simp at he⟩

end Lock
