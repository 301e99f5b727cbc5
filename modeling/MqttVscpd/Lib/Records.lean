/-
Texts of records: a list cut where two given elements stand one after the other,
and numbers read from their digits in a base up to 16.
-/
import Mathlib.Data.List.Basic

namespace Records

variable {α : Type*} [DecidableEq α]

/-! ## Terminated records -/

/-- The pieces between the places where `a` stands before `b`. -/
def pieces (a b : α) : List α → List (List α)
  | [] => [[]]
  | [x] => [[x]]
  | x :: y :: rest =>
    if x = a ∧ y = b then [] :: pieces a b rest else (pieces a b (y :: rest)).modifyHead (x :: ·)

/-- The records of a text that ends each of them with `a`, `b`. -/
def records (a b : α) (s : List α) : List (List α) := (pieces a b s).dropLast

variable {a b : α}

theorem pieces_cons_of_ne {x : α} (h : x ≠ a) (s : List α) :
    pieces a b (x :: s) = (pieces a b s).modifyHead (x :: ·) := by
  cases s with
  | nil => rfl
  | cons y rest => rw [pieces, if_neg fun hx => h hx.1]

theorem pieces_append {r : List α} (h : a ∉ r) (rest : List α) :
    pieces a b (r ++ a :: b :: rest) = r :: pieces a b rest := by
  induction r with
  | nil => rw [List.nil_append, pieces, if_pos ⟨rfl, rfl⟩]
  | cons x r ih =>
    rw [List.mem_cons, not_or] at h
    rw [List.cons_append, pieces_cons_of_ne (Ne.symm h.1), ih h.2]
    rfl

theorem pieces_flatMap {rs : List (List α)} (h : ∀ r ∈ rs, a ∉ r) :
    pieces a b (rs.flatMap (· ++ [a, b])) = rs ++ [[]] := by
  induction rs with
  | nil => rfl
  | cons r rs ih =>
    obtain ⟨hr, hrs⟩ := List.forall_mem_cons.mp h
    rw [List.flatMap_cons, List.append_assoc]
    exact (pieces_append hr _).trans (congrArg (r :: ·) (ih hrs))

/-- **Records are read back**, when none has the first element of the terminator. -/
theorem records_flatMap {rs : List (List α)} (h : ∀ r ∈ rs, a ∉ r) :
    records a b (rs.flatMap (· ++ [a, b])) = rs := by
  rw [records, pieces_flatMap h, List.dropLast_concat]

omit [DecidableEq α] in
/-- A text joined of parts has what its parts and its separator have. -/
theorem not_mem_intercalate {x : α} {sep : List α} (hsep : x ∉ sep) {parts : List (List α)}
    (h : ∀ part ∈ parts, x ∉ part) : x ∉ sep.intercalate parts := by
  induction parts with
  | nil => simp
  | cons part parts ih =>
    obtain ⟨hpart, hparts⟩ := List.forall_mem_cons.mp h
    cases parts with
    | nil => simpa using hpart
    | cons part' parts =>
      rw [List.intercalate_cons_cons]
      simp [hpart, hsep, ih hparts]

/-! ## Numerals -/

/-- The value of a digit, in either case. -/
def digit? (c : Char) : Option Nat :=
  if '0' ≤ c ∧ c ≤ '9' then some (c.toNat - '0'.toNat)
  else if 'A' ≤ c ∧ c ≤ 'F' then some (c.toNat - 'A'.toNat + 10)
  else if 'a' ≤ c ∧ c ≤ 'f' then some (c.toNat - 'a'.toNat + 10)
  else none

/-- One more digit of a number. -/
def shiftIn (base n : Nat) (c : Char) : Option Nat :=
  (digit? c).bind fun d => if d < base then some (base * n + d) else none

/-- The number a text is the numeral of. -/
def numeral? (base : Nat) (cs : List Char) : Option Nat := if cs = [] then none else cs.foldlM (shiftIn base) 0

variable {base : Nat}

theorem shiftIn_of_digit {c : Char} {d : Nat} (hc : digit? c = some d) (hd : d < base) (n : Nat) :
    shiftIn base n c = some (base * n + d) := by
  rw [shiftIn, hc, Option.bind_some, if_pos hd]

theorem digit?_digitChar : ∀ d < 16, digit? d.digitChar = some d := by decide

theorem digit?_toUpper : ∀ d < 16, digit? d.digitChar.toUpper = some d := by decide

/-- A numeral has digits only. -/
theorem numeral?_eq_none {cs : List Char} {c : Char} (hc : c ∈ cs) (hdigit : digit? c = none) :
    numeral? base cs = none := by
  have hfold : ∀ n, cs.foldlM (shiftIn base) n = none := by
    induction cs with
    | nil => cases hc
    | cons x cs ih =>
      intro n
      rw [List.foldlM_cons]
      rcases List.mem_cons.mp hc with rfl | hc
      · rw [shiftIn, hdigit]
        rfl
      · cases shiftIn base n x with
        | none => rfl
        | some m => exact ih hc m
  rw [numeral?, hfold, ite_self]

/-- The digits of a number, printed as `f` prints them, read back. -/
theorem foldlM_toDigits {f : Char → Char} (hf : ∀ d < 16, digit? (f d.digitChar) = some d) (hlo : 1 < base)
    (hhi : base ≤ 16) (n : Nat) : ((Nat.toDigits base n).map f).foldlM (shiftIn base) 0 = some n := by
  induction n using Nat.strongRecOn with
  | ind n ih =>
    by_cases hlt : n < base
    · rw [Nat.toDigits_of_lt_base hlt, List.map_singleton, List.foldlM_cons,
        shiftIn_of_digit (hf n (by omega)) hlt]
      simp
    · have hge : base ≤ n := Nat.le_of_not_lt hlt
      have hmod : n % base < base := Nat.mod_lt n (by omega)
      have hdiv : n / base < n := Nat.div_lt_self (by omega) hlo
      rw [Nat.toDigits_of_base_le hlo hge, List.map_append, List.map_singleton, List.foldlM_append, ih _ hdiv,
        Option.bind_eq_bind, Option.bind_some, List.foldlM_cons, shiftIn_of_digit (hf _ (by omega)) hmod,
        Nat.div_add_mod]
      rfl

/-- Zeros before a number do not change it. -/
theorem foldlM_zeros (hlo : 0 < base) (k : Nat) (cs : List Char) :
    (List.replicate k '0' ++ cs).foldlM (shiftIn base) 0 = cs.foldlM (shiftIn base) 0 := by
  induction k with
  | zero => rfl
  | succ k ih =>
    have hzero : shiftIn base 0 '0' = some 0 := shiftIn_of_digit (by decide) hlo 0
    rw [List.replicate_succ, List.cons_append, List.foldlM_cons, hzero]
    exact ih

/-- **Numbers are read back** from their digits, with any number of zeros before them. -/
theorem numeral?_toDigits {f : Char → Char} (hf : ∀ d < 16, digit? (f d.digitChar) = some d) (hlo : 1 < base)
    (hhi : base ≤ 16) (k n : Nat) :
    numeral? base (List.replicate k '0' ++ (Nat.toDigits base n).map f) = some n := by
  have hne : List.replicate k '0' ++ (Nat.toDigits base n).map f ≠ [] := by simp [Nat.toDigits_ne_nil]
  rw [numeral?, if_neg hne, foldlM_zeros (by omega), foldlM_toDigits hf hlo hhi]

end Records
