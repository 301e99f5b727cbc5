/-
Labelled steps that are partial functions: the run over a list of labels, what
a run keeps when each of its steps keeps it, and conditions on a run's steps.
A label carries whatever the outside world decides at that step, so a run is
determined by its labels.
-/
import Mathlib.Data.List.Basic

namespace Transition

variable {S A : Type*}

/-- The state the labels lead to, when every step is enabled. -/
def run (step : S → A → Option S) : S → List A → Option S
  | s, [] => some s
  | s, a :: as => (step s a).bind fun s' => run step s' as

variable {step : S → A → Option S}

@[simp] theorem run_nil (s : S) : run step s [] = some s := rfl

theorem run_cons_iff {s t : S} {a : A} {as : List A} :
    run step s (a :: as) = some t ↔ ∃ s', step s a = some s' ∧ run step s' as = some t := by
  simp [run, Option.bind_eq_some_iff]

theorem run_singleton (s : S) (a : A) : run step s [a] = step s a := by
  cases h : step s a <;> simp [run, h]

theorem run_append_iff {s t : S} {as bs : List A} :
    run step s (as ++ bs) = some t ↔ ∃ s', run step s as = some s' ∧ run step s' bs = some t := by
  induction as generalizing s with
  | nil => simp
  | cons a as ih =>
    simp only [List.cons_append, run_cons_iff, ih]
    constructor
    · intro h
      obtain ⟨s₁, h₁, s₂, h₂, h₃⟩ := h
      exact ⟨s₂, ⟨s₁, h₁, h₂⟩, h₃⟩
    · intro h
      obtain ⟨s₂, ⟨s₁, h₁, h₂⟩, h₃⟩ := h
      exact ⟨s₁, h₁, s₂, h₂, h₃⟩

/-- The states some run from an initial state leads to. -/
def Reachable (step : S → A → Option S) (init : S → Prop) (s : S) : Prop :=
  ∃ s₀ as, init s₀ ∧ run step s₀ as = some s

/-! ## Invariants -/

/-- What every step keeps, a run keeps. -/
theorem run_inv {I : S → Prop} (hstep : ∀ s a s', I s → step s a = some s' → I s') {s t : S} {as : List A}
    (hs : I s) (h : run step s as = some t) : I t := by
  induction as generalizing s with
  | nil => simp only [run_nil, Option.some.injEq] at h; exact h ▸ hs
  | cons a as ih =>
    obtain ⟨s', h₁, h₂⟩ := run_cons_iff.mp h
    exact ih (hstep s a s' hs h₁) h₂

theorem Reachable.inv {I : S → Prop} {init : S → Prop} (hinit : ∀ s, init s → I s)
    (hstep : ∀ s a s', I s → step s a = some s' → I s') {s : S} (h : Reachable step init s) : I s := by
  obtain ⟨s₀, as, h₀, hr⟩ := h
  exact run_inv hstep (hinit s₀ h₀) hr

theorem Reachable.init {init : S → Prop} {s : S} (h : init s) : Reachable step init s :=
  ⟨s, [], h, rfl⟩

/-! ## Conditions on the steps of a run -/

/-- Every step of the run from `s` meets `C`, read where the step is taken.
A run that gets stuck is judged up to that point. -/
def Along (step : S → A → Option S) (C : S → A → Prop) : S → List A → Prop
  | _, [] => True
  | s, a :: as => C s a ∧ ∀ s', step s a = some s' → Along step C s' as

variable {C : S → A → Prop}

theorem along_cons {s s' : S} {a : A} {as : List A} (h : step s a = some s') :
    Along step C s (a :: as) ↔ C s a ∧ Along step C s' as := by
  simp [Along, h]

theorem along_append {s s' : S} {as bs : List A} (h : run step s as = some s') :
    Along step C s (as ++ bs) ↔ Along step C s as ∧ Along step C s' bs := by
  induction as generalizing s with
  | nil =>
    simp only [run_nil, Option.some.injEq] at h
    subst h
    simp [Along]
  | cons a as ih =>
    obtain ⟨s₁, h₁, h₂⟩ := run_cons_iff.mp h
    rw [List.cons_append, along_cons h₁, along_cons h₁, ih h₂, and_assoc]

/-- Labels that meet `C` wherever they are taken. -/
theorem along_of_forall {as : List A} (h : ∀ a ∈ as, ∀ s, C s a) (s : S) : Along step C s as := by
  induction as generalizing s with
  | nil => trivial
  | cons a as ih =>
    exact ⟨h a List.mem_cons_self s, fun s' _ => ih (fun b hb => h b (List.mem_cons_of_mem a hb)) s'⟩

/-- What every step that meets `C` keeps, a run of such steps keeps. -/
theorem Along.inv {I : S → Prop} (hstep : ∀ s a s', I s → C s a → step s a = some s' → I s') {s t : S}
    {as : List A} (hc : Along step C s as) (hs : I s) (h : run step s as = some t) : I t := by
  induction as generalizing s with
  | nil => simp only [run_nil, Option.some.injEq] at h; exact h ▸ hs
  | cons a as ih =>
    obtain ⟨s', h₁, h₂⟩ := run_cons_iff.mp h
    obtain ⟨hca, hcs⟩ := (along_cons h₁).mp hc
    exact ih hcs (hstep s a s' hs hca h₁) h₂

/-- A run with a step that fails `C` has a first part, that step, and a rest. -/
theorem exists_step_of_not_along {s t : S} {as : List A} (h : run step s as = some t)
    (hc : ¬ Along step C s as) :
    ∃ bs a cs s₁ s₂, as = bs ++ a :: cs ∧ run step s bs = some s₁ ∧ step s₁ a = some s₂ ∧
      run step s₂ cs = some t ∧ ¬ C s₁ a := by
  induction as generalizing s with
  | nil => exact absurd trivial hc
  | cons a as ih =>
    obtain ⟨s', h₁, h₂⟩ := run_cons_iff.mp h
    by_cases hca : C s a
    · have hcs : ¬ Along step C s' as := fun hcs => hc ((along_cons h₁).mpr ⟨hca, hcs⟩)
      obtain ⟨bs, b, cs, s₁, s₂, rfl, hb, hst, hr, hn⟩ := ih h₂ hcs
      exact ⟨a :: bs, b, cs, s₁, s₂, rfl, run_cons_iff.mpr ⟨s', h₁, hb⟩, hst, hr, hn⟩
    · exact ⟨[], a, as, s, s', rfl, rfl, h₁, h₂, hca⟩

/-- A step that fails `C` leaves `J`, which every step keeps: so the run of
steps that ends outside `J` met `C` throughout. -/
theorem along_of_not {I J : S → Prop} (hI : ∀ s a s', I s → step s a = some s' → I s')
    (hbad : ∀ s a s', I s → ¬ C s a → step s a = some s' → J s')
    (hJ : ∀ s a s', I s → J s → step s a = some s' → J s') {s t : S} {as : List A} (hs : I s)
    (h : run step s as = some t) (ht : ¬ J t) : Along step C s as := by
  by_contra hc
  obtain ⟨bs, a, cs, s₁, s₂, -, hb, hst, hr, hn⟩ := exists_step_of_not_along h hc
  have h₁ : I s₁ := run_inv hI hs hb
  have h₂ : I s₂ ∧ J s₂ := ⟨hI _ _ _ h₁ hst, hbad _ _ _ h₁ hn hst⟩
  have h₃ : I t ∧ J t :=
    run_inv (I := fun s => I s ∧ J s) (fun _ _ _ hij hs => ⟨hI _ _ _ hij.1 hs, hJ _ _ _ hij.1 hij.2 hs⟩) h₂ hr
  exact ht h₃.2

/-- A property a step leaves true exactly when it found it true and conforms: a run
leaves it true exactly when it found it true and all its steps conform. -/
theorem run_iff_along {P : S → Prop} (hstep : ∀ s a s', step s a = some s' → (P s' ↔ P s ∧ C s a)) {s t : S}
    {as : List A} (h : run step s as = some t) : P t ↔ P s ∧ Along step C s as := by
  induction as generalizing s with
  | nil =>
    simp only [run_nil, Option.some.injEq] at h
    subst h
    simp [Along]
  | cons a as ih =>
    obtain ⟨s', h₁, h₂⟩ := run_cons_iff.mp h
    rw [ih h₂, hstep s a s' h₁, along_cons h₁, and_assoc]

/-- A property that an invariant gives, that conforming steps keep and that the first
other step ends: it holds in every state of a run exactly when all steps conform. -/
theorem always_iff_along {I P : S → Prop} (hP : ∀ s, I s → P s)
    (hgo : ∀ s a s', I s → C s a → step s a = some s' → I s')
    (hbad : ∀ s a s', I s → ¬ C s a → step s a = some s' → ¬ P s') {s t : S} {as : List A} (hs : I s)
    (h : run step s as = some t) :
    (∀ bs s', bs <+: as → run step s bs = some s' → P s') ↔ Along step C s as := by
  constructor
  · intro hall
    induction as generalizing s with
    | nil => trivial
    | cons a as ih =>
      obtain ⟨s', h₁, h₂⟩ := run_cons_iff.mp h
      have hc : C s a := by
        by_contra hc
        exact hbad s a s' hs hc h₁ (hall [a] s' ⟨as, rfl⟩ (run_cons_iff.mpr ⟨s', h₁, rfl⟩))
      refine (along_cons h₁).mpr ⟨hc, ih (hgo s a s' hs hc h₁) h₂ fun bs u hbs hu => ?_⟩
      exact hall (a :: bs) u ((List.prefix_cons_inj a).mpr hbs) (run_cons_iff.mpr ⟨s', h₁, hu⟩)
  · intro hc bs s' hbs hs'
    obtain ⟨cs, rfl⟩ := hbs
    exact hP s' (Along.inv hgo ((along_append hs').mp hc).1 hs hs')

/-! ## A record beside the run -/

variable {H : Type*}

/-- The steps of `step` beside a record of them, which no step reads. -/
def noted (step : S → A → Option S) (note : S → A → H → H) (p : S × H) (a : A) : Option (S × H) :=
  (step p.1 a).map fun s' => (s', note p.1 a p.2)

variable {note : S → A → H → H}

theorem noted_iff {p q : S × H} {a : A} :
    noted step note p a = some q ↔ step p.1 a = some q.1 ∧ q.2 = note p.1 a p.2 := by
  obtain ⟨t, h⟩ := q
  rw [noted, Option.map_eq_some_iff]
  constructor
  · intro hex
    obtain ⟨s', hs, heq⟩ := hex
    cases heq
    exact ⟨hs, rfl⟩
  · intro hex
    exact ⟨t, hex.1, Prod.ext rfl hex.2.symm⟩

/-- The runs with a record are the runs without one. -/
theorem run_noted (p : S × H) (as : List A) : (run (noted step note) p as).map (·.1) = run step p.1 as := by
  induction as generalizing p with
  | nil => rfl
  | cons a as ih =>
    rw [run, run, noted]
    cases step p.1 a with
    | none => rfl
    | some s' => exact ih (s', note p.1 a p.2)

end Transition
