/-
Lists built entry by entry, where a block that comes with an entry is put into the
first element of the entry's key: into the entry's own element, unless an earlier
one has the same key.
-/
import Mathlib.Data.List.Induction

namespace Attach

variable {α β ε κ γ : Type*}

/-! ## The first element of a kind -/

/-- Change the first element that meets `p`. -/
def modifyFirst (p : α → Bool) (f : α → α) (l : List α) : List α :=
  match l.findIdx? p with
  | some i => l.modify i f
  | none => l

variable {p : α → Bool} {f : α → α}

theorem modifyFirst_cons (a : α) (l : List α) :
    modifyFirst p f (a :: l) = if p a then f a :: l else a :: modifyFirst p f l := by
  unfold modifyFirst
  rw [List.findIdx?_cons]
  cases p a with
  | true => rfl
  | false => cases l.findIdx? p <;> rfl

theorem map_modifyFirst {g : α → γ} (hg : ∀ a, g (f a) = g a) (l : List α) :
    (modifyFirst p f l).map g = l.map g := by
  induction l with
  | nil => rfl
  | cons a l ih =>
    rw [modifyFirst_cons]
    split
    · rw [List.map_cons, List.map_cons, hg]
    · rw [List.map_cons, List.map_cons, ih]

/-- A map that carries over what is looked for and what is changed. -/
theorem map_modifyFirst_comm {g : α → γ} {q : γ → Bool} {f' : γ → γ} (hq : ∀ a, q (g a) = p a)
    (hf : ∀ a, g (f a) = f' (g a)) (l : List α) : (modifyFirst p f l).map g = modifyFirst q f' (l.map g) := by
  induction l with
  | nil => rfl
  | cons a l ih =>
    rw [modifyFirst_cons, List.map_cons, modifyFirst_cons, hq]
    split
    · rw [List.map_cons, hf]
    · rw [List.map_cons, ih]

/-- With none before it, the last element is the first of its kind. -/
theorem modifyFirst_concat {l : List α} {a : α} (hl : ∀ b ∈ l, p b = false) (ha : p a = true) :
    modifyFirst p f (l ++ [a]) = l ++ [f a] := by
  induction l with
  | nil => rw [List.nil_append, modifyFirst_cons, if_pos ha]; rfl
  | cons b l ih =>
    rw [List.cons_append, modifyFirst_cons, hl b List.mem_cons_self, if_neg Bool.false_ne_true,
      ih fun c hc => hl c (List.mem_cons_of_mem b hc), List.cons_append]

theorem getElem?_modifyFirst {l : List α} {k : Nat} (h : l.findIdx? p ≠ some k) :
    (modifyFirst p f l)[k]? = l[k]? := by
  unfold modifyFirst
  cases hi : l.findIdx? p with
  | none => rfl
  | some i => exact List.getElem?_modify_ne f l fun hik => h (hik ▸ hi)

/-! ## Building a list -/

/-- How entries become elements: an entry's element, the block it brings, and how
a block is put into an element. -/
structure Placing (ε α β κ : Type*) where
  base : ε → α
  block : ε → Option β
  put : β → α → α
  key : α → κ
  key_put : ∀ b a, key (put b a) = key a

variable {P : Placing ε α β κ}

/-- The element of an entry that got its own block. -/
def Placing.own (P : Placing ε α β κ) (e : ε) : α :=
  match P.block e with
  | none => P.base e
  | some b => P.put b (P.base e)

theorem own_of_none {e : ε} (h : P.block e = none) : P.own e = P.base e := by
  rw [Placing.own, h]

theorem own_of_some {e : ε} {b : β} (h : P.block e = some b) : P.own e = P.put b (P.base e) := by
  rw [Placing.own, h]

/-- No entry with a block comes after one of its key. -/
def Placing.Unshadowed (P : Placing ε α β κ) (es : List ε) : Prop :=
  es.Pairwise fun e e' => (P.block e').isSome → P.key (P.base e) ≠ P.key (P.base e')

/-- A list whose keys are those of the entries has them place by place. -/
theorem key_at {l : List α} {es : List ε} (h : l.map P.key = es.map fun e => P.key (P.base e)) {n : Nat} {a : α}
    {e : ε} (ha : l[n]? = some a) (he : es[n]? = some e) : P.key a = P.key (P.base e) := by
  have hn := congrArg (·[n]?) h
  simp only [List.getElem?_map, ha, he] at hn
  exact Option.some.inj hn

variable [DecidableEq κ]

/-- Append the entry's element, and put the entry's block into the first element of its key. -/
def Placing.place (P : Placing ε α β κ) (l : List α) (e : ε) : List α :=
  match P.block e with
  | none => l ++ [P.base e]
  | some b => modifyFirst (fun a => P.key a = P.key (P.base e)) (P.put b) (l ++ [P.base e])

def Placing.build (P : Placing ε α β κ) (es : List ε) : List α := es.foldl P.place []

theorem place_of_none {e : ε} (h : P.block e = none) (l : List α) : P.place l e = l ++ [P.base e] := by
  rw [Placing.place, h]

theorem place_of_some {e : ε} {b : β} (h : P.block e = some b) (l : List α) :
    P.place l e = modifyFirst (fun a => P.key a = P.key (P.base e)) (P.put b) (l ++ [P.base e]) := by
  rw [Placing.place, h]

theorem build_concat (es : List ε) (e : ε) : P.build (es ++ [e]) = P.place (P.build es) e := by
  rw [Placing.build, List.foldl_append]
  rfl

/-- What a block does not change of an element is what the entries say. -/
theorem map_build {g : α → γ} (hg : ∀ b a, g (P.put b a) = g a) (es : List ε) :
    (P.build es).map g = es.map fun e => g (P.base e) := by
  induction es using List.reverseRecOn with
  | nil => rfl
  | append_singleton es e ih =>
    rw [build_concat, List.map_append, ← ih]
    cases hb : P.block e with
    | none => rw [place_of_none hb, List.map_append, List.map_singleton, List.map_singleton]
    | some b => rw [place_of_some hb, map_modifyFirst (hg b), List.map_append, List.map_singleton, List.map_singleton]

theorem keys_build (es : List ε) : (P.build es).map P.key = es.map fun e => P.key (P.base e) := map_build P.key_put es

theorem length_build (es : List ε) : (P.build es).length = es.length := by
  simpa using congrArg List.length (keys_build (P := P) es)

/-- Every entry's element has the entry's block, when no block meets an earlier element of its key. -/
theorem build_of_unshadowed {es : List ε} (h : P.Unshadowed es) : P.build es = es.map P.own := by
  induction es using List.reverseRecOn with
  | nil => rfl
  | append_singleton es e ih =>
    obtain ⟨hes, -, hlast⟩ := List.pairwise_append.mp h
    rw [build_concat, List.map_append, List.map_singleton]
    cases hb : P.block e with
    | none => rw [place_of_none hb, own_of_none hb, ih hes]
    | some b =>
      have hnone : ∀ a ∈ P.build es, decide (P.key a = P.key (P.base e)) = false := by
        intro a ha
        have hkey : P.key a ∈ es.map fun e => P.key (P.base e) := by
          rw [← keys_build]
          exact List.mem_map_of_mem ha
        obtain ⟨e', he', hkey⟩ := List.mem_map.mp hkey
        have hne := hlast e' he' e (List.mem_singleton_self e) (by rw [hb]; rfl)
        rw [← hkey]
        exact decide_eq_false hne
      rw [place_of_some hb, own_of_some hb, modifyFirst_concat hnone (decide_eq_true rfl), ih hes]

/-- An entry of an earlier one's key gets no block, neither its own nor another. -/
theorem build_of_shadowed {es : List ε} {i k : Nat} {e e' : ε} (hik : i < k) (hi : es[i]? = some e)
    (hk : es[k]? = some e') (hkey : P.key (P.base e) = P.key (P.base e')) :
    (P.build es)[k]? = some (P.base e') := by
  induction es using List.reverseRecOn with
  | nil => cases hk
  | append_singleton es x ih =>
    have hkeys : (P.build es ++ [P.base x]).map P.key = (es ++ [x]).map fun e => P.key (P.base e) := by
      rw [List.map_append, List.map_append, keys_build]
      rfl
    have hlen : (P.build es).length = es.length := length_build es
    have happended : (P.build es ++ [P.base x])[k]? = some (P.base e') := by
      by_cases hlast : k < es.length
      · rw [List.getElem?_append_left (hlen ▸ hlast)]
        rw [List.getElem?_append_left hlast] at hk
        rw [List.getElem?_append_left (Nat.lt_trans hik hlast)] at hi
        exact ih hi hk
      · have hkl : k = es.length := by
          have hk' := (List.getElem?_eq_some_iff.mp hk).1
          simp only [List.length_append, List.length_singleton] at hk'
          omega
        subst hkl
        rw [List.getElem?_concat_length, Option.some.injEq] at hk
        subst hk
        rw [← hlen, List.getElem?_concat_length]
    rw [build_concat]
    cases hb : P.block x with
    | none => rw [place_of_none hb, happended]
    | some b =>
      rw [place_of_some hb, getElem?_modifyFirst, happended]
      intro hfirst
      obtain ⟨hlt, hmeets, hbefore⟩ := List.findIdx?_eq_some_iff_getElem.mp hfirst
      have hsame := (key_at hkeys (List.getElem?_eq_getElem (Nat.lt_trans hik hlt)) hi).trans
        (hkey.trans (key_at hkeys (List.getElem?_eq_getElem hlt) hk).symm)
      refine hbefore i hik ?_
      rw [hsame]
      exact hmeets

end Attach
