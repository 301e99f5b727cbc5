/-
Forward simulations. Each step of a lower system is matched by a run of an upper
one, so each run is; the labels of the matching run are what is said of the steps,
one after another, and a condition on them is checked step by step.
-/
import MqttVscpd.Lib.Transition

namespace Transition

variable {S A T B : Type*}

/-- What `emit` says of each step of a run, first to last. -/
def trace (step : S → A → Option S) (emit : S → A → List B) : S → List A → List B
  | _, [] => []
  | s, a :: as => emit s a ++ (step s a).elim [] fun s' => trace step emit s' as

variable {step low : S → A → Option S} {high : T → B → Option T} {emit : S → A → List B} {R : S → T → Prop}

@[simp] theorem trace_nil (s : S) : trace step emit s [] = [] := rfl

theorem trace_cons {s s' : S} {a : A} {as : List A} (h : step s a = some s') :
    trace step emit s (a :: as) = emit s a ++ trace step emit s' as := by
  simp [trace, h]

/-- What every step keeps of a state and all that was said before, a run keeps. -/
theorem run_trace {I : S → List B → Prop}
    (hstep : ∀ s a s' said, I s said → step s a = some s' → I s' (said ++ emit s a)) {s t : S} {as : List A}
    {said : List B} (hs : I s said) (h : run step s as = some t) : I t (said ++ trace step emit s as) := by
  induction as generalizing s said with
  | nil =>
    simp only [run_nil, Option.some.injEq] at h
    simpa [h] using hs
  | cons a as ih =>
    obtain ⟨s₁, h₁, h₂⟩ := run_cons_iff.mp h
    rw [trace_cons h₁, ← List.append_assoc]
    exact ih (hstep s a s₁ said hs h₁) h₂

/-! ## Simulation -/

/-- From a matching state the upper system takes the steps `emit` says of each step of the lower one. -/
def Simulates (low : S → A → Option S) (high : T → B → Option T) (R : S → T → Prop) (emit : S → A → List B) : Prop :=
  ∀ s a s' t, R s t → low s a = some s' → ∃ t', run high t (emit s a) = some t' ∧ R s' t'

/-- A simulation matches runs. -/
theorem Simulates.run (h : Simulates low high R emit) {s s' : S} {t : T} {as : List A} (hr : R s t)
    (hs : run low s as = some s') : ∃ t', Transition.run high t (trace low emit s as) = some t' ∧ R s' t' := by
  induction as generalizing s t with
  | nil =>
    simp only [run_nil, Option.some.injEq] at hs
    exact ⟨t, rfl, hs ▸ hr⟩
  | cons a as ih =>
    obtain ⟨s₁, h₁, h₂⟩ := run_cons_iff.mp hs
    obtain ⟨t₁, ht₁, hr₁⟩ := h s a s₁ t hr h₁
    obtain ⟨t', ht', hr'⟩ := ih hr₁ h₂
    exact ⟨t', by rw [trace_cons h₁]; exact run_append_iff.mpr ⟨t₁, ht₁, ht'⟩, hr'⟩

/-- A condition the matching steps meet, the matching run meets. -/
theorem Simulates.along (h : Simulates low high R emit) {C : T → B → Prop}
    (hc : ∀ s a s' t, R s t → low s a = some s' → Along high C t (emit s a)) {s s' : S} {t : T} {as : List A}
    (hr : R s t) (hs : Transition.run low s as = some s') : Along high C t (trace low emit s as) := by
  induction as generalizing s t with
  | nil => trivial
  | cons a as ih =>
    obtain ⟨s₁, h₁, h₂⟩ := run_cons_iff.mp hs
    obtain ⟨t₁, ht₁, hr₁⟩ := h s a s₁ t hr h₁
    rw [trace_cons h₁]
    exact (along_append ht₁).mpr ⟨hc s a s₁ t hr h₁, ih hr₁ h₂⟩

/-! ## Backwards -/

/-- A run is matched from its end, when each step of the lower system is: the upper labels may
foretell what the lower system decides later. -/
theorem run_backwards {I : S → Prop} (hI : ∀ s a s', I s → low s a = some s' → I s')
    (hstep : ∀ s a s' t', I s → low s a = some s' → R s' t' →
      ∃ t, R s t ∧ Transition.run high t (emit s a) = some t') {s s' : S} {t' : T} {as : List A} (hs : I s)
    (h : Transition.run low s as = some s') (hr : R s' t') :
    ∃ t, R s t ∧ Transition.run high t (trace low emit s as) = some t' := by
  induction as generalizing s with
  | nil =>
    simp only [run_nil, Option.some.injEq] at h
    exact ⟨t', h ▸ hr, rfl⟩
  | cons a as ih =>
    obtain ⟨s₁, h₁, h₂⟩ := run_cons_iff.mp h
    obtain ⟨t₁, hr₁, ht₁⟩ := ih (hI s a s₁ hs h₁) h₂
    obtain ⟨t, hrt, ht⟩ := hstep s a s₁ t₁ hs h₁ hr₁
    exact ⟨t, hrt, by rw [trace_cons h₁]; exact run_append_iff.mpr ⟨t₁, ht, ht₁⟩⟩

/-! ## Systems that match themselves -/

/-- Labels that are emitted as they are taken make the same list in both runs. -/
theorem filter_trace {emit : S → A → List A} {p : A → Bool}
    (hp : ∀ s a s', step s a = some s' → (emit s a).filter p = [a].filter p) {s s' : S} {as : List A}
    (h : Transition.run step s as = some s') : (trace step emit s as).filter p = as.filter p := by
  induction as generalizing s with
  | nil => rfl
  | cons a as ih =>
    obtain ⟨s₁, h₁, h₂⟩ := run_cons_iff.mp h
    rw [trace_cons h₁, List.filter_append, hp s a s₁ h₁, ih h₂, ← List.filter_append, List.singleton_append]

/-- Labels that are held back, and emitted later, keep their order: what is held back at a
state and the labels to come list all that is emitted from there. -/
theorem sublist_trace {emit : S → A → List A} {p : A → Bool} {held : S → List A}
    (hp : ∀ s a s', step s a = some s' →
      ∃ new, held s ++ [a].filter p = new ++ held s' ∧ ((emit s a).filter p).Sublist new) {s s' : S} {as : List A}
    (h : Transition.run step s as = some s') :
    ((trace step emit s as).filter p).Sublist (held s ++ as.filter p) := by
  induction as generalizing s with
  | nil => simp
  | cons a as ih =>
    obtain ⟨s₁, h₁, h₂⟩ := run_cons_iff.mp h
    obtain ⟨new, hnew, hsub⟩ := hp s a s₁ h₁
    have hall : held s ++ (a :: as).filter p = new ++ (held s₁ ++ as.filter p) := by
      rw [← List.singleton_append, List.filter_append, ← List.append_assoc, hnew, List.append_assoc]
    rw [trace_cons h₁, List.filter_append, hall]
    exact hsub.append (ih h₂)

end Transition
