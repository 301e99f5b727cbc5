/-
Command lines as GNU `getopt` reads them in its default, permuting order, with
`POSIXLY_CORRECT` not set: words that begin with a dash are clusters of one-letter
options, an option's argument is the rest of its word or the next word, other words
are passed over, and a double dash ends the options. A grammar of such words says
what is read without an error, and as what.
-/
import Mathlib.Data.List.Basic

namespace Getopt

variable {α : Type*}

/-- What an option letter takes. -/
inductive Kind where
  | flag
  | arg
  deriving DecidableEq

/-- An option string: the letters there are, and the dash, which is none. -/
structure Spec (α : Type*) where
  dash : α
  kind : α → Option Kind
  kind_dash : kind dash = none

/-- What one call of `getopt` finds. -/
inductive Item (α : Type*) where
  | flag (c : α)
  | arg (c : α) (a : List α)
  /-- `'?'`: a letter there is not, or one whose argument is missing. -/
  | error (c : α)
  deriving DecidableEq

/-- The options of a cluster, and the letter whose argument is the next word. -/
def cluster (o : Spec α) : List α → List (Item α) × Option α
  | [] => ([], none)
  | c :: cs =>
    match o.kind c with
    | none => (.error c :: (cluster o cs).1, (cluster o cs).2)
    | some .flag => (.flag c :: (cluster o cs).1, (cluster o cs).2)
    | some .arg => if cs = [] then ([], some c) else ([.arg c cs], none)

/-! ## The grammar -/

/-- One or two words that belong together. -/
inductive Form (α : Type*) where
  /-- `-xyz` -/
  | flags (cs : List α)
  /-- `-xyc` and the argument, in one word. -/
  | joined (fs : List α) (c : α) (a : List α)
  /-- `-xyc`, and the argument as the next word. -/
  | separate (fs : List α) (c : α) (a : List α)
  | operand (w : List α)

def Form.words (o : Spec α) : Form α → List (List α)
  | .flags cs => [o.dash :: cs]
  | .joined fs c a => [o.dash :: (fs ++ c :: a)]
  | .separate fs c a => [o.dash :: (fs ++ [c]), a]
  | .operand w => [w]

def Form.items : Form α → List (Item α)
  | .flags cs => cs.map .flag
  | .joined fs c a | .separate fs c a => fs.map .flag ++ [.arg c a]
  | .operand _ => []

def Flags (o : Spec α) (fs : List α) : Prop := ∀ c ∈ fs, o.kind c = some .flag

/-- The form is of the option string's letters. -/
def Form.Ok (o : Spec α) : Form α → Prop
  | .flags cs => cs ≠ [] ∧ Flags o cs
  | .joined fs c a => Flags o fs ∧ o.kind c = some .arg ∧ a ≠ []
  | .separate fs c _ => Flags o fs ∧ o.kind c = some .arg
  | .operand w => w.head? ≠ some o.dash ∨ w = [o.dash]

/-- Where the options end: with the words, or at a double dash. -/
def Ends (o : Spec α) (rest : List (List α)) : Prop := rest = [] ∨ ∃ ws, rest = [o.dash, o.dash] :: ws

variable {o : Spec α} {fs cs : List α} {c : α} {ws rest : List (List α)}

theorem ne_dash_of_kind {k : Kind} (h : o.kind c = some k) : c ≠ o.dash := by
  intro he
  rw [he, o.kind_dash] at h
  cases h

/-! ## Clusters -/

theorem cluster_flags (hf : Flags o fs) (cs : List α) :
    cluster o (fs ++ cs) = (fs.map .flag ++ (cluster o cs).1, (cluster o cs).2) := by
  induction fs with
  | nil => rfl
  | cons f fs ih =>
    have hkind : o.kind f = some .flag := hf f (by simp)
    have htail : Flags o fs := fun c hc => hf c (by simp [hc])
    simp [cluster, hkind, ih htail]

theorem cluster_arg (hc : o.kind c = some .arg) (a : List α) :
    cluster o (c :: a) = if a = [] then ([], some c) else ([.arg c a], none) := by
  simp [cluster, hc]

/-- The letters before an option that takes an argument, and that one, are options. -/
theorem exists_cons (hf : Flags o fs) (hc : o.kind c = some .arg) (a : List α) :
    ∃ d cs, fs ++ c :: a = d :: cs ∧ d ≠ o.dash := by
  cases fs with
  | nil => exact ⟨c, a, rfl, ne_dash_of_kind hc⟩
  | cons f fs => exact ⟨f, fs ++ c :: a, rfl, ne_dash_of_kind (hf f (by simp))⟩

/-- Nothing found is an error. -/
def Clean (is : List (Item α)) : Prop := ∀ c, .error c ∉ is

theorem Clean.left {is js : List (Item α)} (h : Clean (is ++ js)) : Clean is := fun c hc => h c (by simp [hc])

theorem Clean.right {is js : List (Item α)} (h : Clean (is ++ js)) : Clean js := fun c hc => h c (by simp [hc])

/-- A cluster without an error is of flags, to its end or to an option that takes an argument. -/
theorem cluster_clean (h : Clean (cluster o cs).1) :
    (Flags o cs ∧ cluster o cs = (cs.map .flag, none)) ∨
      (∃ fs c a, cs = fs ++ c :: a ∧ Flags o fs ∧ o.kind c = some .arg ∧ a ≠ [] ∧ (cluster o cs).2 = none) ∨
        ∃ fs c, cs = fs ++ [c] ∧ Flags o fs ∧ o.kind c = some .arg ∧ (cluster o cs).2 = some c := by
  induction cs with
  | nil => exact .inl ⟨by simp [Flags], rfl⟩
  | cons d cs ih =>
    have hnil : Flags o [] := by simp [Flags]
    cases hkind : o.kind d with
    | none => exact absurd (by simp [cluster, hkind]) (h d)
    | some k =>
      cases k with
      | flag =>
        have hcons : ∀ {fs}, Flags o fs → Flags o (d :: fs) := by
          intro fs hf c hc
          rcases List.mem_cons.mp hc with rfl | hc
          · exact hkind
          · exact hf c hc
        have htail : Clean (cluster o cs).1 := fun c hc => h c (by simp [cluster, hkind, hc])
        rcases ih htail with ⟨hf, heq⟩ | ⟨fs, c, a, rfl, hf, hc, ha, heq⟩ | ⟨fs, c, rfl, hf, hc, heq⟩
        · exact .inl ⟨hcons hf, by simp [cluster, hkind, heq]⟩
        · exact .inr (.inl ⟨d :: fs, c, a, rfl, hcons hf, hc, ha, by simp [cluster, hkind, heq]⟩)
        · exact .inr (.inr ⟨d :: fs, c, rfl, hcons hf, hc, by simp [cluster, hkind, heq]⟩)
      | arg =>
        by_cases hcs : cs = []
        · subst hcs
          exact .inr (.inr ⟨[], d, rfl, hnil, hkind, by simp [cluster, hkind]⟩)
        · exact .inr (.inl ⟨[], d, cs, rfl, hnil, hkind, hcs, by simp [cluster, hkind, hcs]⟩)

/-! ## Words -/

variable [DecidableEq α]

/-- What a word is, by itself. -/
inductive Word (α : Type*) where
  | operand
  /-- The double dash. -/
  | ends
  | options (is : List (Item α))
  /-- Options, the last of which takes the next word. -/
  | wants (is : List (Item α)) (c : α)

def word (o : Spec α) : List α → Word α
  | [] => .operand
  | d :: cs =>
    -- A single dash is an operand too.
    if d ≠ o.dash ∨ cs = [] then .operand
    else if cs = [o.dash] then .ends
    else
      match cluster o cs with
      | (is, none) => .options is
      | (is, some c) => .wants is c

/-- All that calls of `getopt` find, up to the one that returns -1. -/
def scan (o : Spec α) : List (List α) → List (Item α)
  | [] => []
  | w :: ws =>
    match word o w with
    | .operand => scan o ws
    | .ends => []
    | .options is => is ++ scan o ws
    | .wants is c =>
      match ws with
      | [] => is ++ [.error c]
      | a :: ws => is ++ .arg c a :: scan o ws

/-- A word that begins an option is not an operand and does not end the options. -/
theorem word_cluster {d : α} (hd : d ≠ o.dash) (cs : List α) :
    word o (o.dash :: d :: cs) =
      match cluster o (d :: cs) with
      | (is, none) => .options is
      | (is, some c) => .wants is c := by
  simp [word, hd]

theorem scan_ends (h : Ends o rest) : scan o rest = [] := by
  rcases h with rfl | ⟨ws, rfl⟩
  · rfl
  · simp [scan, word]

theorem scan_form {f : Form α} (h : f.Ok o) (ws : List (List α)) : scan o (f.words o ++ ws) = f.items ++ scan o ws := by
  cases f with
  | flags cs =>
    obtain ⟨hne, hf⟩ := h
    obtain ⟨d, cs, rfl⟩ := List.exists_cons_of_ne_nil hne
    have hread : cluster o (d :: cs) = ((d :: cs).map .flag, none) := by
      simpa [cluster] using cluster_flags hf []
    simp [Form.words, Form.items, scan, word_cluster (ne_dash_of_kind (hf d (by simp))), hread]
  | joined fs c a =>
    obtain ⟨hf, hc, ha⟩ := h
    obtain ⟨d, cs, heq, hd⟩ := exists_cons hf hc a
    have hread : cluster o (d :: cs) = (fs.map .flag ++ [.arg c a], none) := by
      rw [← heq, cluster_flags hf, cluster_arg hc, if_neg ha]
    simp [Form.words, Form.items, scan, heq, word_cluster hd, hread]
  | separate fs c a =>
    obtain ⟨hf, hc⟩ := h
    obtain ⟨d, cs, heq, hd⟩ := exists_cons hf hc []
    have hread : cluster o (d :: cs) = (fs.map .flag, some c) := by
      rw [← heq, cluster_flags hf, cluster_arg hc, if_pos rfl, List.append_nil]
    simp [Form.words, Form.items, scan, heq, word_cluster hd, hread]
  | operand w =>
    have hop : word o w = .operand := by
      cases w with
      | nil => rfl
      | cons d cs =>
        have hop : d ≠ o.dash ∨ cs = [] := h.imp (by simp) (by simp)
        simp [word, hop]
    simp [Form.words, Form.items, scan, hop]

theorem scan_forms {forms : List (Form α)} (h : ∀ f ∈ forms, f.Ok o) (ws : List (List α)) :
    scan o (forms.flatMap (Form.words o) ++ ws) = forms.flatMap Form.items ++ scan o ws := by
  induction forms with
  | nil => rfl
  | cons f forms ih =>
    have htail : ∀ g ∈ forms, g.Ok o := fun g hg => h g (by simp [hg])
    simp only [List.flatMap_cons, List.append_assoc]
    rw [scan_form (h f (by simp)), ih htail]

/-! ## What is read without an error -/

/-- The words are of forms, and the options end after them. -/
def Wellformed (o : Spec α) (ws : List (List α)) : Prop :=
  ∃ (forms : List (Form α)) (rest : List (List α)),
    (∀ f ∈ forms, f.Ok o) ∧ Ends o rest ∧ ws = forms.flatMap (Form.words o) ++ rest

omit [DecidableEq α] in
theorem Wellformed.cons {f : Form α} (hf : f.Ok o) (h : Wellformed o ws) :
    Wellformed o (f.words o ++ ws) := by
  obtain ⟨forms, rest, hok, hends, rfl⟩ := h
  refine ⟨f :: forms, rest, fun g hg => ?_, hends, by simp⟩
  rcases List.mem_cons.mp hg with rfl | hg
  · exact hf
  · exact hok g hg

/-- What a word is says what it is made of. -/
theorem word_cases (o : Spec α) (w : List α) :
    match word o w with
    | .operand => (Form.operand w).Ok o
    | .ends => w = [o.dash, o.dash]
    | .options is => ∃ cs, w = o.dash :: cs ∧ cs ≠ [] ∧ cluster o cs = (is, none)
    | .wants is c => ∃ cs, w = o.dash :: cs ∧ cluster o cs = (is, some c) := by
  cases w with
  | nil => exact .inl (by simp)
  | cons d cs =>
    by_cases hd : d = o.dash
    · subst hd
      by_cases hnil : cs = []
      · simp [word, hnil, Form.Ok]
      · by_cases hends : cs = [o.dash]
        · simp [word, hends]
        · simp only [word, ne_eq, not_true_eq_false, hnil, hends, or_self, if_false]
          cases hread : cluster o cs with
          | mk is next => cases next <;> simp [hnil, hread]
    · simp [word, hd, Form.Ok]

/-- What is read without an error is well formed. -/
theorem wellformed_of_clean (h : Clean (scan o ws)) : Wellformed o ws := by
  fun_induction scan o ws with
  | case1 => exact ⟨[], [], by simp, .inl rfl, rfl⟩
  | case2 w ws hw ih =>
    have hok := word_cases o w
    rw [hw] at hok
    exact Wellformed.cons (f := .operand w) hok (ih h)
  | case3 w ws hw =>
    have hends := word_cases o w
    rw [hw] at hends
    exact ⟨[], _, by simp, .inr ⟨ws, by rw [hends]⟩, rfl⟩
  | case4 w ws is hw ih =>
    have hcs := word_cases o w
    rw [hw] at hcs
    obtain ⟨cs, rfl, hne, hread⟩ := hcs
    have hclean : Clean (cluster o cs).1 := by
      rw [hread]
      exact h.left
    rcases cluster_clean hclean with ⟨hf, -⟩ | ⟨fs, c, a, rfl, hf, hc, ha, -⟩ | ⟨fs, c, -, -, -, hnext⟩
    · exact Wellformed.cons (f := .flags cs) ⟨hne, hf⟩ (ih h.right)
    · exact Wellformed.cons (f := .joined fs c a) ⟨hf, hc, ha⟩ (ih h.right)
    · simp [hread] at hnext
  | case5 w is c => exact absurd (by simp) (h c)
  | case6 w is c hw a ws ih =>
    have hcs := word_cases o w
    rw [hw] at hcs
    obtain ⟨cs, rfl, hread⟩ := hcs
    have hclean : Clean (cluster o cs).1 := by
      rw [hread]
      exact h.left
    have hrest : Clean (scan o ws) := fun c' hc' => h c' (by simp [hc'])
    rcases cluster_clean hclean with ⟨-, hnext⟩ | ⟨fs, c', a', -, -, -, -, hnext⟩ | ⟨fs, c', rfl, hf, hc, -⟩
    · simp [hread] at hnext
    · simp [hread] at hnext
    · exact Wellformed.cons (f := .separate fs c' a) ⟨hf, hc⟩ (ih hrest)

end Getopt
