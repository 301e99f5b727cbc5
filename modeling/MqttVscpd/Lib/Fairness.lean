/-
Executions without end: at each time a step is taken, or nothing happens. A
group of labels that is fair is not passed over for ever while it is enabled, or,
if strongly fair, while it is enabled again and again, and what it then makes
certain is reached.
-/
import Mathlib.Data.Nat.Init
import MqttVscpd.Lib.Transition

namespace Transition

variable {S A : Type*} {step : S → A → Option S}

/-- The states at all times, and the label of the step taken at each time, if one is. -/
structure Execution (step : S → A → Option S) where
  state : Nat → S
  label : Nat → Option A
  next : ∀ n, (∃ a, label n = some a ∧ step (state n) a = some (state (n + 1))) ∨
    label n = none ∧ state (n + 1) = state n

namespace Execution

variable (e : Execution step)

/-- Labels of `F` are taken at some time if from some time on one is enabled at all times. -/
def Fair (F : A → Prop) : Prop :=
  ∀ n, (∀ m, n ≤ m → ∃ a s', F a ∧ step (e.state m) a = some s') → ∃ m a, n ≤ m ∧ F a ∧ e.label m = some a

/-- At time `n` the step `a` is taken. -/
def Takes (n : Nat) (a : A) : Prop := e.label n = some a ∧ step (e.state n) a = some (e.state (n + 1))

variable {e}

/-- At each time a step is taken, or nothing changes. -/
theorem takes_or_same (n : Nat) : (∃ a, e.Takes n a) ∨ e.state (n + 1) = e.state n := by
  rcases e.next n with ⟨a, ha, hs⟩ | ⟨-, hs⟩
  · exact .inl ⟨a, ha, hs⟩
  · exact .inr hs

theorem takes_of_label {n : Nat} {a : A} (h : e.label n = some a) : e.Takes n a := by
  rcases e.next n with ⟨b, hb, hs⟩ | ⟨hnone, -⟩
  · obtain rfl : a = b := Option.some.inj (h.symm.trans hb)
    exact ⟨h, hs⟩
  · rw [h] at hnone
    cases hnone

/-- What every step keeps, holds at all times. -/
theorem inv {I : S → Prop} (hstep : ∀ s a s', I s → step s a = some s' → I s') (h₀ : I (e.state 0)) (n : Nat) :
    I (e.state n) := by
  induction n with
  | zero => exact h₀
  | succ n ih =>
    rcases takes_or_same (e := e) n with ⟨a, ht⟩ | hs
    · exact hstep _ _ _ ih ht.2
    · rw [hs]
      exact ih

/-- What every step keeps until `Q` is reached, holds at all times or `Q` is reached. -/
theorem keeps_until {P Q : S → Prop} {n : Nat}
    (hstep : ∀ m a, n ≤ m → P (e.state m) → e.Takes m a → P (e.state (m + 1)) ∨ Q (e.state (m + 1)))
    (hn : P (e.state n)) :
    (∀ m, n ≤ m → P (e.state m)) ∨ ∃ m, n ≤ m ∧ Q (e.state m) := by
  by_cases hq : ∃ m, n ≤ m ∧ Q (e.state m)
  · exact .inr hq
  · refine .inl fun m hm => ?_
    induction m, hm using Nat.le_induction with
    | base => exact hn
    | succ m hm ih =>
      rcases takes_or_same (e := e) m with ⟨a, ht⟩ | hs
      · rcases hstep m a hm ih ht with hp | hq'
        · exact hp
        · exact absurd ⟨m + 1, by omega, hq'⟩ hq
      · rw [hs]
        exact ih

/-- While `P` holds a label of `F` is enabled; each of them leads to `Q`, and no
other label leaves `P` except for `Q`. -/
theorem Fair.leads {F : A → Prop} (hf : e.Fair F) {P Q : S → Prop} {n : Nat}
    (hen : ∀ m, n ≤ m → P (e.state m) → ∃ a s', F a ∧ step (e.state m) a = some s')
    (hdo : ∀ m a, n ≤ m → P (e.state m) → F a → e.Takes m a → Q (e.state (m + 1)))
    (hstay : ∀ m a, n ≤ m → P (e.state m) → ¬ F a → e.Takes m a → P (e.state (m + 1)) ∨ Q (e.state (m + 1)))
    (hn : P (e.state n)) :
    ∃ m, n ≤ m ∧ Q (e.state m) := by
  have hstep : ∀ m a, n ≤ m → P (e.state m) → e.Takes m a → P (e.state (m + 1)) ∨ Q (e.state (m + 1)) := by
    intro m a hm hp ht
    by_cases hF : F a
    · exact .inr (hdo m a hm hp hF ht)
    · exact hstay m a hm hp hF ht
  rcases keeps_until hstep hn with hall | hq
  · obtain ⟨m, a, hm, hFa, hl⟩ := hf n fun m hm => hen m hm (hall m hm)
    exact ⟨m + 1, by omega, hdo m a hm (hall m hm) hFa (takes_of_label hl)⟩
  · exact hq

/-! ## Strong fairness -/

variable (e) in
/-- Labels of `F` are taken at some time if again and again one is enabled. -/
def StrongFair (F : A → Prop) : Prop :=
  ∀ n, (∀ m, n ≤ m → ∃ p, m ≤ p ∧ ∃ a s', F a ∧ step (e.state p) a = some s') →
    ∃ m a, n ≤ m ∧ F a ∧ e.label m = some a

theorem StrongFair.fair {F : A → Prop} (hf : e.StrongFair F) : e.Fair F :=
  fun n hen => hf n fun m hm => ⟨m, Nat.le_refl m, hen m hm⟩

/-- While `P` holds a label of `F` is enabled again and again, unless `Q` comes first; each of them
leads to `Q`, and no other label leaves `P` except for `Q`. -/
theorem StrongFair.leads {F : A → Prop} (hf : e.StrongFair F) {P Q : S → Prop} {n : Nat}
    (hen : ∀ m, n ≤ m → P (e.state m) →
      ∃ p, m ≤ p ∧ (Q (e.state p) ∨ ∃ a s', F a ∧ step (e.state p) a = some s'))
    (hdo : ∀ m a, n ≤ m → P (e.state m) → F a → e.Takes m a → Q (e.state (m + 1)))
    (hstay : ∀ m a, n ≤ m → P (e.state m) → ¬ F a → e.Takes m a → P (e.state (m + 1)) ∨ Q (e.state (m + 1)))
    (hn : P (e.state n)) :
    ∃ m, n ≤ m ∧ Q (e.state m) := by
  have hstep : ∀ m a, n ≤ m → P (e.state m) → e.Takes m a → P (e.state (m + 1)) ∨ Q (e.state (m + 1)) := by
    intro m a hm hp ht
    by_cases hF : F a
    · exact .inr (hdo m a hm hp hF ht)
    · exact hstay m a hm hp hF ht
  by_contra hno
  have hall : ∀ m, n ≤ m → P (e.state m) := (keeps_until hstep hn).resolve_right hno
  have hagain : ∀ m, n ≤ m → ∃ p, m ≤ p ∧ ∃ a s', F a ∧ step (e.state p) a = some s' := by
    intro m hm
    obtain ⟨p, hp, hq | hen⟩ := hen m hm (hall m hm)
    · exact absurd ⟨p, by omega, hq⟩ hno
    · exact ⟨p, hp, hen⟩
  obtain ⟨m, a, hm, hFa, hl⟩ := hf n hagain
  exact hno ⟨m + 1, by omega, hdo m a hm (hall m hm) hFa (takes_of_label hl)⟩

/-! ## Progress -/

/-- What goes down in `μ` again and again goes down to `Q`. -/
theorem descends {ι : Type*} {P : ι → S → Prop} {Q : S → Prop} (μ : ι → Nat) {n : Nat}
    (hdown : ∀ x m, n ≤ m → P x (e.state m) → ∃ p, m ≤ p ∧ (Q (e.state p) ∨ ∃ y, μ y < μ x ∧ P y (e.state p)))
    {x : ι} (hn : P x (e.state n)) : ∃ m, n ≤ m ∧ Q (e.state m) := by
  suffices hall : ∀ k x m, μ x = k → n ≤ m → P x (e.state m) → ∃ p, n ≤ p ∧ Q (e.state p) from
    hall _ x n rfl (Nat.le_refl n) hn
  intro k
  induction k using Nat.strong_induction_on with
  | h k ih =>
    intro x m hk hm hx
    obtain ⟨p, hp, hq | ⟨y, hlt, hy⟩⟩ := hdown x m hm hx
    · exact ⟨p, by omega, hq⟩
    · exact ih _ (hk ▸ hlt) y p rfl (by omega) hy

/-- While `P x` holds a label of `F` is enabled; each of them leads to `Q` or down, and no other label
leaves `P x` except for `Q`. -/
theorem Fair.descends {F : A → Prop} (hf : e.Fair F) {ι : Type*} {P : ι → S → Prop} {Q : S → Prop} (μ : ι → Nat)
    {n : Nat} (hen : ∀ x m, n ≤ m → P x (e.state m) → ∃ a s', F a ∧ step (e.state m) a = some s')
    (hdo : ∀ x m a, n ≤ m → P x (e.state m) → F a → e.Takes m a →
      Q (e.state (m + 1)) ∨ ∃ y, μ y < μ x ∧ P y (e.state (m + 1)))
    (hstay : ∀ x m a, n ≤ m → P x (e.state m) → ¬ F a → e.Takes m a → P x (e.state (m + 1)) ∨ Q (e.state (m + 1)))
    {x : ι} (hn : P x (e.state n)) : ∃ m, n ≤ m ∧ Q (e.state m) := by
  refine Execution.descends μ (fun x m hm hx => ?_) hn
  exact hf.leads (P := P x) (Q := fun s => Q s ∨ ∃ y, μ y < μ x ∧ P y s)
    (fun p hp => hen x p (Nat.le_trans hm hp)) (fun p a hp => hdo x p a (Nat.le_trans hm hp))
    (fun p a hp hx hF ht => (hstay x p a (Nat.le_trans hm hp) hx hF ht).imp_right .inl) hx

/-- A measure that goes down again and again, while `P` holds, goes down to `Q`. -/
theorem reaches_of_measure {P Q : S → Prop} (μ : S → Nat) {n : Nat}
    (hdec : ∀ m, n ≤ m → P (e.state m) →
      ∃ p, m ≤ p ∧ (Q (e.state p) ∨ P (e.state p) ∧ μ (e.state p) < μ (e.state m)))
    (hn : P (e.state n)) : ∃ m, n ≤ m ∧ Q (e.state m) := by
  refine descends (P := fun k s => P s ∧ μ s = k) id (fun k m hm hk => ?_) (x := μ (e.state n)) ⟨hn, rfl⟩
  obtain ⟨p, hp, hq | ⟨hp', hlt⟩⟩ := hdec m hm hk.1
  · exact ⟨p, hp, .inl hq⟩
  · exact ⟨p, hp, .inr ⟨_, hk.2 ▸ hlt, hp', rfl⟩⟩

/-! ## Executions of a simpler system -/

/-- The execution of the system that `f` sees, in which a step that `g` does not see changes nothing. -/
def map {T B : Type*} {high : T → B → Option T} (e : Execution step) (f : S → T) (g : S → A → Option B)
    (h : ∀ n a, e.Takes n a →
      match g (e.state n) a with
      | some b => high (f (e.state n)) b = some (f (e.state (n + 1)))
      | none => f (e.state (n + 1)) = f (e.state n)) : Execution high where
  state n := f (e.state n)
  label n := (e.label n).bind (g (e.state n))
  next n := by
    rcases e.next n with ⟨a, ha, hs⟩ | ⟨hnone, hs⟩
    · have hsee := h n a ⟨ha, hs⟩
      cases hg : g (e.state n) a with
      | none =>
        rw [hg] at hsee
        exact .inr ⟨by simp [ha, hg], hsee⟩
      | some b =>
        rw [hg] at hsee
        exact .inl ⟨b, by simp [ha, hg], hsee⟩
    · exact .inr ⟨by simp [hnone], by rw [hs]⟩

/-! ## Executions that come to an end -/

/-- The execution of a run, which stays in the state the run ends in. -/
def ofRun {s t : S} {as : List A} (h : run step s as = some t) : Execution step where
  state n := (run step s (as.take n)).getD s
  label n := as[n]?
  next n := by
    rw [← List.take_append_drop n as, run_append_iff] at h
    obtain ⟨s₁, h₁, h₂⟩ := h
    cases hd : as.drop n with
    | nil =>
      have hn : as.length ≤ n := List.drop_eq_nil_iff.mp hd
      refine .inr ⟨List.getElem?_eq_none hn, ?_⟩
      rw [List.take_of_length_le hn, List.take_of_length_le (Nat.le_succ_of_le hn)]
    | cons a bs =>
      rw [hd] at h₂
      obtain ⟨s₂, hs, -⟩ := run_cons_iff.mp h₂
      have ha : as[n]? = some a := by
        rw [← List.head?_drop, hd]
        rfl
      have htake : as.take (n + 1) = as.take n ++ [a] := by rw [List.take_add_one, ha]; rfl
      have hrun : run step s (as.take n ++ [a]) = some s₂ := run_append_iff.mpr ⟨s₁, h₁, run_cons_iff.mpr ⟨s₂, hs, rfl⟩⟩
      refine .inl ⟨a, ha, ?_⟩
      rw [htake, h₁, hrun]
      exact hs

theorem ofRun_state {s t : S} {as : List A} (h : run step s as = some t) {n : Nat} (hn : as.length ≤ n) :
    (ofRun h).state n = t := by
  simp [ofRun, List.take_of_length_le hn, h]

/-- Labels that are not enabled where the run ends are treated fairly. -/
theorem ofRun_strongFair {s t : S} {as : List A} (h : run step s as = some t) {F : A → Prop}
    (hend : ∀ a, F a → step t a = none) : (ofRun h).StrongFair F := by
  intro n hen
  obtain ⟨m, hm, a, s', hF, hs⟩ := hen (n + as.length) (Nat.le_add_right ..)
  rw [ofRun_state h (by omega), hend a hF] at hs
  cases hs

theorem ofRun_fair {s t : S} {as : List A} (h : run step s as = some t) {F : A → Prop}
    (hend : ∀ a, F a → step t a = none) : (ofRun h).Fair F :=
  (ofRun_strongFair h hend).fair

end Execution

end Transition
