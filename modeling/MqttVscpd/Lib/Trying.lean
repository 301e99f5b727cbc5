/-
Programs that read and write a state and may throw: a throw keeps the state it
comes from. `Ends m r` says that `m` comes to the result `r`, a value or what it
throws, from whatever state; its rules follow the program's sequencing and its
`try` blocks.
-/
import Mathlib.Tactic.ByContra

namespace Trying

variable {σ ε α β : Type}

/-- A program over the state `σ` that returns an `α` or throws an `ε`. -/
abbrev Prog (σ ε α : Type) := ExceptT ε (StateM σ) α

/-- The result of a run, and the state it leaves. -/
def exec (m : Prog σ ε α) (s : σ) : Except ε α × σ := m.run s

@[simp] theorem exec_pure (a : α) (s : σ) : exec (pure a : Prog σ ε α) s = (.ok a, s) := rfl

@[simp] theorem exec_modify (f : σ → σ) (s : σ) : exec (modify f : Prog σ ε PUnit) s = (.ok ⟨⟩, f s) := rfl

theorem exec_bind (m : Prog σ ε α) (k : α → Prog σ ε β) (s : σ) :
    exec (m >>= k) s = match exec m s with
      | (.ok a, s') => exec (k a) s'
      | (.error e, s') => (.error e, s') := by
  show (ExceptT.bindCont k (exec m s).1).run (exec m s).2 = _
  rcases exec m s with ⟨_ | _, _⟩ <;> rfl

theorem exec_bind_of_ok {m : Prog σ ε α} {k : α → Prog σ ε β} {s s' : σ} {a : α} (h : exec m s = (.ok a, s')) :
    exec (m >>= k) s = exec (k a) s' := by
  rw [exec_bind, h]

/-- A sequence that came to a value: so did both parts. -/
theorem exec_bind_ok {m : Prog σ ε α} {k : α → Prog σ ε β} {s t : σ} {b : β} (h : exec (m >>= k) s = (.ok b, t)) :
    ∃ a s', exec m s = (.ok a, s') ∧ exec (k a) s' = (.ok b, t) := by
  rw [exec_bind] at h
  rcases hm : exec m s with ⟨_ | a, s'⟩
  · rw [hm] at h; cases h
  · rw [hm] at h; exact ⟨a, s', rfl, h⟩

theorem exec_lift_bind {x : Except ε α} {k : α → Prog σ ε β} {s : σ} {a : α} (hx : x = .ok a) :
    exec (liftM x >>= k) s = exec (k a) s := by
  subst hx
  exact exec_bind_of_ok rfl

theorem exec_get_bind {k : σ → Prog σ ε β} {s : σ} : exec (get >>= k) s = exec (k s) s := exec_bind_of_ok rfl

theorem exec_tryCatch (m : Prog σ ε α) (h : ε → Prog σ ε α) (s : σ) :
    exec (tryCatch m h) s = match exec m s with
      | (.ok a, s') => (.ok a, s')
      | (.error e, s') => exec (h e) s' := by
  have hrun : exec (tryCatch m h) s =
      (match (exec m s).1 with
        | .ok a => (pure (Except.ok a) : StateM σ (Except ε α))
        | .error e => (h e).run) (exec m s).2 := rfl
  rw [hrun]
  rcases exec m s with ⟨_ | _, _⟩ <;> rfl

/-! ## Results that no state changes -/

/-- From every state the program comes to this result. -/
def Ends (m : Prog σ ε α) (r : Except ε α) : Prop := ∀ s, (exec m s).1 = r

theorem ends_pure (a : α) : Ends (pure a : Prog σ ε α) (.ok a) := fun _ => rfl

theorem ends_lift {x r : Except ε α} (hx : x = r) : Ends (liftM x : Prog σ ε α) r := fun _ => hx

theorem ends_modify (f : σ → σ) : Ends (modify f : Prog σ ε PUnit) (.ok ⟨⟩) := fun _ => rfl

theorem Ends.exec_eq {m : Prog σ ε α} {r : Except ε α} (h : Ends m r) (s : σ) :
    exec m s = (r, (exec m s).2) := by
  rw [← h s]

theorem Ends.bind {m : Prog σ ε α} {k : α → Prog σ ε β} {a : α} {r : Except ε β} (h : Ends m (.ok a))
    (hk : Ends (k a) r) : Ends (m >>= k) r := by
  intro s
  rw [exec_bind, h.exec_eq s]
  exact hk _

theorem Ends.bind_error {m : Prog σ ε α} {k : α → Prog σ ε β} {e : ε} (h : Ends m (.error e)) :
    Ends (m >>= k) (.error e) := by
  intro s
  rw [exec_bind, h.exec_eq s]

/-- What a program reads of the state does not matter to a continuation that ends the same for all of it. -/
theorem ends_get_bind {k : σ → Prog σ ε β} {r : Except ε β} (hk : ∀ s, Ends (k s) r) :
    Ends (get >>= k) r := by
  intro s
  rw [exec_bind]
  exact hk s s

theorem Ends.catch_ok {m : Prog σ ε α} {h : ε → Prog σ ε α} {a : α} (hm : Ends m (.ok a)) :
    Ends (tryCatch m h) (.ok a) := by
  intro s
  rw [exec_tryCatch, hm.exec_eq s]

theorem Ends.catch_error {m : Prog σ ε α} {h : ε → Prog σ ε α} {e : ε} {r : Except ε α}
    (hm : Ends m (.error e)) (hh : Ends (h e) r) : Ends (tryCatch m h) r := by
  intro s
  rw [exec_tryCatch, hm.exec_eq s]
  exact hh _

/-- A pure step that succeeds. -/
theorem ends_lift_bind {x : Except ε α} {k : α → Prog σ ε β} {a : α} {r : Except ε β} (hx : x = .ok a)
    (hk : Ends (k a) r) : Ends (liftM x >>= k) r := by
  exact (ends_lift hx).bind hk

theorem ends_lift_bind_error {x : Except ε α} {k : α → Prog σ ε β} {e : ε} (hx : x = .error e) :
    Ends (liftM x >>= k) (.error e) := by
  exact (ends_lift hx).bind_error

/-! ## Results that some states give -/

/-- From every state that meets `P` the program comes to this result. -/
def EndsFrom (P : σ → Prop) (m : Prog σ ε α) (r : Except ε α) : Prop := ∀ s, P s → (exec m s).1 = r

variable {P Q : σ → Prop}

theorem Ends.from {m : Prog σ ε α} {r : Except ε α} (h : Ends m r) : EndsFrom P m r := fun s _ => h s

theorem EndsFrom.bind {m : Prog σ ε α} {k : α → Prog σ ε β} {a : α} {r : Except ε β}
    (h : EndsFrom P m (.ok a)) (hQ : ∀ s, P s → Q (exec m s).2) (hk : EndsFrom Q (k a) r) :
    EndsFrom P (m >>= k) r := by
  intro s hs
  have he : exec m s = (.ok a, (exec m s).2) := by rw [← h s hs]
  rw [exec_bind, he]
  exact hk _ (hQ s hs)

theorem Ends.bind_from {m : Prog σ ε α} {k : α → Prog σ ε β} {a : α} {r : Except ε β} (h : Ends m (.ok a))
    (hQ : ∀ s, Q (exec m s).2) (hk : EndsFrom Q (k a) r) : Ends (m >>= k) r :=
  fun s => EndsFrom.bind (P := fun _ => True) h.from (fun s _ => hQ s) hk s trivial

theorem EndsFrom.lift_bind {x : Except ε α} {k : α → Prog σ ε β} {a : α} {r : Except ε β} (hx : x = .ok a)
    (hk : EndsFrom P (k a) r) : EndsFrom P (liftM x >>= k) r :=
  (ends_lift hx).from.bind (fun _ => id) hk

theorem EndsFrom.get_bind {k : σ → Prog σ ε β} {r : Except ε β} (hk : ∀ s, P s → EndsFrom P (k s) r) :
    EndsFrom P (get >>= k) r := by
  intro s hs
  rw [exec_bind]
  exact hk s hs s hs

/-! ## Going on while true -/

/-- `m` comes to a value exactly when `returns` holds: to false if it is also `refused`, else to true. -/
structure Settles (m : Prog σ ε Bool) (returns refused : Prop) : Prop where
  goes : returns → ¬ refused → Ends m (.ok true)
  refuses : returns → refused → Ends m (.ok false)
  throws : ¬ returns → ∃ e, Ends m (.error e)

variable {m k : Prog σ ε Bool} {p q f g : Prop}

/-- A program that always returns. -/
theorem settles_of_ends (ht : ¬ f → Ends m (.ok true)) (hf : f → Ends m (.ok false)) : Settles m True f :=
  ⟨fun _ => ht, fun _ => hf, fun hn => absurd trivial hn⟩

theorem Ends.settles (h : Ends m (.ok true)) : Settles m True False := settles_of_ends (fun _ => h) False.elim

/-- The second program runs when the first comes to true. -/
theorem Settles.andM (hm : Settles m p f) (hk : Settles k q g) :
    Settles (m <&&> k) (p ∧ (¬ f → q)) (f ∨ g) where
  goes h hn := (hm.goes h.1 fun hf => hn (.inl hf)).bind
    (hk.goes (h.2 fun hf => hn (.inl hf)) fun hg => hn (.inr hg))
  refuses h hr := by
    by_cases hf : f
    · exact (hm.refuses h.1 hf).bind (ends_pure false)
    · exact (hm.goes h.1 hf).bind (hk.refuses (h.2 hf) (hr.resolve_left hf))
  throws h := by
    by_cases hp : p
    · have hfq : ¬ (¬ f → q) := fun hfq => h ⟨hp, hfq⟩
      obtain ⟨hf, hq⟩ := Classical.not_imp.mp hfq
      obtain ⟨e, he⟩ := hk.throws hq
      exact ⟨e, (hm.goes hp hf).bind he⟩
    · obtain ⟨e, he⟩ := hm.throws hp
      exact ⟨e, he.bind_error⟩

theorem Settles.congr (h : Settles m p f) (hp : p ↔ q) (hf : f ↔ g) : Settles m q g := by
  rw [← propext hp, ← propext hf]
  exact h

/-- What comes after a step that succeeds. -/
theorem Settles.after {n : Prog σ ε α} {k : α → Prog σ ε Bool} {a : α} (hn : Ends n (.ok a))
    (h : Settles (k a) p f) : Settles (n >>= k) p f where
  goes hp hf := hn.bind (h.goes hp hf)
  refuses hp hf := hn.bind (h.refuses hp hf)
  throws hp := (h.throws hp).imp fun _ he => hn.bind he

/-- `n` comes to a value exactly when `c` holds. -/
structure Passes (n : Prog σ ε α) (c : Prop) : Prop where
  passes : c → ∃ a, Ends n (.ok a)
  throws : ¬ c → ∃ e, Ends n (.error e)

theorem Passes.then {n : Prog σ ε α} {k : α → Prog σ ε Bool} {c : Prop} (hn : Passes n c)
    (hk : ∀ a, Settles (k a) p f) : Settles (n >>= k) (c ∧ p) f where
  goes h hf := by
    obtain ⟨a, ha⟩ := hn.passes h.1
    exact ha.bind ((hk a).goes h.2 hf)
  refuses h hf := by
    obtain ⟨a, ha⟩ := hn.passes h.1
    exact ha.bind ((hk a).refuses h.2 hf)
  throws h := by
    by_cases hc : c
    · obtain ⟨a, ha⟩ := hn.passes hc
      obtain ⟨e, he⟩ := (hk a).throws fun hp => h ⟨hc, hp⟩
      exact ⟨e, ha.bind he⟩
    · obtain ⟨e, he⟩ := hn.throws hc
      exact ⟨e, he.bind_error⟩

/-- From every state a value, or from none. -/
theorem Settles.returns_iff [Nonempty σ] (h : Settles m p f) : (∀ s, ∃ b, (exec m s).1 = .ok b) ↔ p := by
  constructor
  · intro hall
    by_contra hp
    obtain ⟨e, he⟩ := h.throws hp
    obtain ⟨s⟩ := ‹Nonempty σ›
    obtain ⟨b, hb⟩ := hall s
    rw [he s] at hb
    cases hb
  · intro hp s
    by_cases hf : f
    · exact ⟨false, h.refuses hp hf s⟩
    · exact ⟨true, h.goes hp hf s⟩

/-! ## A change of the state the program does not see -/

/-- In the state `g` has changed the program does the same, and leaves what it
leaves otherwise, changed by `g`. -/
def Commutes (g : σ → σ) (m : Prog σ ε α) : Prop := ∀ s, exec m (g s) = ((exec m s).1, g (exec m s).2)

section commutes

variable {g : σ → σ}

theorem commutes_pure (a : α) : Commutes g (pure a : Prog σ ε α) := fun _ => rfl

theorem commutes_throw (e : ε) : Commutes g (throw e : Prog σ ε α) := fun _ => rfl

theorem commutes_lift (x : Except ε α) : Commutes g (liftM x : Prog σ ε α) := fun _ => rfl

theorem commutes_modify {f : σ → σ} (hf : ∀ s, f (g s) = g (f s)) :
    Commutes g (modify f : Prog σ ε PUnit) := by
  intro s
  rw [exec_modify, exec_modify, hf]

theorem Commutes.bind {m : Prog σ ε α} {k : α → Prog σ ε β} (hm : Commutes g m) (hk : ∀ a, Commutes g (k a)) :
    Commutes g (m >>= k) := by
  intro s
  rw [exec_bind, exec_bind, hm s]
  rcases exec m s with ⟨_ | a, s'⟩
  · rfl
  · exact hk a s'

/-- A program that goes on from a part of the state `g` leaves alone. -/
theorem commutes_get_bind {k : σ → Prog σ ε β} (hg : ∀ s, k (g s) = k s) (hk : ∀ s, Commutes g (k s)) :
    Commutes g (get >>= k) := by
  intro s
  rw [exec_get_bind, exec_get_bind, hg]
  exact hk s s

theorem Commutes.tryCatch {m : Prog σ ε α} {h : ε → Prog σ ε α} (hm : Commutes g m)
    (hh : ∀ e, Commutes g (h e)) : Commutes g (tryCatch m h) := by
  intro s
  rw [exec_tryCatch, exec_tryCatch, hm s]
  rcases exec m s with ⟨e | _, s'⟩
  · exact hh e s'
  · rfl

theorem Commutes.ite {c : Prop} [Decidable c] {m k : Prog σ ε α} (hm : Commutes g m) (hk : Commutes g k) :
    Commutes g (if c then m else k) := by
  split
  · exact hm
  · exact hk

theorem Commutes.andM {m k : Prog σ ε Bool} (hm : Commutes g m) (hk : Commutes g k) : Commutes g (m <&&> k) := by
  refine hm.bind fun b => ?_
  cases b with
  | true => exact hk
  | false => exact commutes_pure false

/-- A change that is none at the start is none at the end. -/
theorem Commutes.fixed {m : Prog σ ε α} (h : Commutes g m) {s : σ} (hs : g s = s) :
    g (exec m s).2 = (exec m s).2 := by
  have hg := h s
  rw [hs] at hg
  exact (congrArg Prod.snd hg).symm

end commutes

/-! ## What a program keeps -/

/-- What holds before the program holds after it, whether it returns or throws. -/
def Keeps (I : σ → Prop) (m : Prog σ ε α) : Prop := ∀ s, I s → I (exec m s).2

section keeps

variable {I : σ → Prop}

theorem keeps_pure (a : α) : Keeps I (pure a : Prog σ ε α) := fun _ hs => hs

theorem keeps_lift (x : Except ε α) : Keeps I (liftM x : Prog σ ε α) := fun _ hs => hs

theorem keeps_modify {f : σ → σ} (hf : ∀ s, I s → I (f s)) : Keeps I (modify f : Prog σ ε PUnit) := hf

theorem Keeps.bind {m : Prog σ ε α} {k : α → Prog σ ε β} (hm : Keeps I m) (hk : ∀ a, Keeps I (k a)) :
    Keeps I (m >>= k) := by
  intro s hs
  have hs' := hm s hs
  rw [exec_bind]
  rcases hrun : exec m s with ⟨_ | a, s'⟩
  · rw [hrun] at hs'
    exact hs'
  · rw [hrun] at hs'
    exact hk a s' hs'

theorem keeps_get_bind {k : σ → Prog σ ε β} (hk : ∀ s, I s → Keeps I (k s)) : Keeps I (get >>= k) := by
  intro s hs
  rw [exec_get_bind]
  exact hk s hs s hs

theorem Keeps.ite {c : Prop} [Decidable c] {m k : Prog σ ε α} (hm : Keeps I m) (hk : ¬ c → Keeps I k) :
    Keeps I (if c then m else k) := by
  split
  · exact hm
  · next hc => exact hk hc

theorem Keeps.andM {m k : Prog σ ε Bool} (hm : Keeps I m) (hk : Keeps I k) : Keeps I (m <&&> k) := by
  refine hm.bind fun b => ?_
  cases b with
  | true => exact hk
  | false => exact keeps_pure false

end keeps

/-! ## One program after another -/

/-- The second program runs where the first has left off, when it came to true. -/
theorem exec_andM (m k : Prog σ ε Bool) (s : σ) :
    exec (m <&&> k) s = match exec m s with
      | (.ok true, s') => exec k s'
      | r => r := by
  unfold andM
  rw [exec_bind]
  rcases exec m s with ⟨_ | _ | _, s'⟩ <;> rfl

theorem exec_andM_of_true {m k : Prog σ ε Bool} {s s' : σ} (h : exec m s = (.ok true, s')) :
    exec (m <&&> k) s = exec k s' := by
  rw [exec_andM, h]

theorem exec_andM_of_false {m k : Prog σ ε Bool} {s s' : σ} (h : exec m s = (.ok false, s')) :
    exec (m <&&> k) s = (.ok false, s') := by
  rw [exec_andM, h]

theorem andM_assoc (m k n : Prog σ ε Bool) : ((m <&&> k) <&&> n) = (m <&&> k <&&> n) := by
  funext s
  show exec ((m <&&> k) <&&> n) s = exec (m <&&> k <&&> n) s
  simp only [exec_andM]
  rcases exec m s with ⟨_ | _ | _, s'⟩ <;> rfl

/-- Both programs came to true. -/
theorem exec_andM_true {m k : Prog σ ε Bool} {s t : σ} (h : exec (m <&&> k) s = (.ok true, t)) :
    ∃ s', exec m s = (.ok true, s') ∧ exec k s' = (.ok true, t) := by
  rw [exec_andM] at h
  rcases hm : exec m s with ⟨_ | _ | _, s'⟩
  · rw [hm] at h; cases h
  · rw [hm] at h; cases h
  · rw [hm] at h; exact ⟨s', rfl, h⟩

end Trying
