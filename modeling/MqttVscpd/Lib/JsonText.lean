/-
JSON texts. A lexer goes through the characters and gives tokens, a grammar goes
through the tokens over the arrays and objects that are open, and what is left at
the end is the value. Numbers keep their text.
-/
import Mathlib.Data.List.Basic
import Mathlib.Data.Option.Basic

namespace JsonText

inductive Keyword where
  | null
  | yes
  | no
  deriving DecidableEq

def Keyword.chars : Keyword → List Char
  | .null => ['n', 'u', 'l', 'l']
  | .yes => ['t', 'r', 'u', 'e']
  | .no => ['f', 'a', 'l', 's', 'e']

inductive Token where
  | openObj
  | closeObj
  | openArr
  | closeArr
  | comma
  | colon
  | str (s : List Char)
  | num (text : List Char)
  | word (w : Keyword)
  deriving DecidableEq

/-! ## The lexer -/

/-- How far a number is. -/
inductive NumPhase where
  | minus
  | zero
  | int
  | dot
  | frac
  | exp
  | expSign
  | expDigits
  deriving DecidableEq

/-- The phase after a character, unless the number ends before it. -/
def NumPhase.next : NumPhase → Char → Option NumPhase
  | .minus, c => if c = '0' then some .zero else if c.isDigit then some .int else none
  | .zero, c => if c = '.' then some .dot else if c = 'e' ∨ c = 'E' then some .exp else none
  | .int, c =>
    if c.isDigit then some .int else if c = '.' then some .dot else if c = 'e' ∨ c = 'E' then some .exp else none
  | .dot, c => if c.isDigit then some .frac else none
  | .frac, c => if c.isDigit then some .frac else if c = 'e' ∨ c = 'E' then some .exp else none
  | .exp, c => if c = '+' ∨ c = '-' then some .expSign else if c.isDigit then some .expDigits else none
  | .expSign, c => if c.isDigit then some .expDigits else none
  | .expDigits, c => if c.isDigit then some .expDigits else none

/-- A number may end here. -/
def NumPhase.complete : NumPhase → Bool
  | .zero | .int | .frac | .expDigits => true
  | _ => false

/-- Between tokens, or within one. A string holds what is decoded of it; the states
from `hex` on are within `\uXXXX`, of which a high surrogate needs a second. -/
inductive Lex where
  | out
  | str (acc : List Char)
  | esc (acc : List Char)
  | hex (acc : List Char) (high : Option Nat) (digits value : Nat)
  | low (acc : List Char) (high : Nat)
  | lowEsc (acc : List Char) (high : Nat)
  | num (phase : NumPhase) (text : List Char)
  | word (w : Keyword) (n : Nat)
  deriving DecidableEq

def hexValue (c : Char) : Option Nat :=
  if c.isDigit then some (c.toNat - '0'.toNat)
  else if 'a' ≤ c ∧ c ≤ 'f' then some (c.toNat - 'a'.toNat + 10)
  else if 'A' ≤ c ∧ c ≤ 'F' then some (c.toNat - 'A'.toNat + 10)
  else none

/-- What a character after a backslash stands for, `u` apart. -/
def unescape : Char → Option Char
  | '"' => some '"'
  | '\\' => some '\\'
  | '/' => some '/'
  | 'b' => some '\x08'
  | 'f' => some '\x0c'
  | 'n' => some '\n'
  | 'r' => some '\r'
  | 't' => some '\t'
  | _ => none

/-- The state after the four digits of `\uXXXX`. -/
def closeHex (acc : List Char) (high : Option Nat) (value : Nat) : Option Lex :=
  match high with
  | none =>
    if 0xD800 ≤ value ∧ value ≤ 0xDBFF then some (.low acc value)
    else if 0xDC00 ≤ value ∧ value ≤ 0xDFFF then none
    else some (.str (acc ++ [Char.ofNat value]))
  | some h =>
    if 0xDC00 ≤ value ∧ value ≤ 0xDFFF then
      some (.str (acc ++ [Char.ofNat (0x10000 + (h - 0xD800) * 0x400 + (value - 0xDC00))]))
    else none

def blank (c : Char) : Bool := c = ' ' || c = '\t' || c = '\n' || c = '\r'

def punctuation : Char → Option Token
  | '{' => some .openObj
  | '}' => some .closeObj
  | '[' => some .openArr
  | ']' => some .closeArr
  | ',' => some .comma
  | ':' => some .colon
  | _ => none

def firstPhase (c : Char) : Option NumPhase := if c = '-' then some .minus else NumPhase.minus.next c

def firstOfWord : Char → Option Keyword
  | 'n' => some .null
  | 't' => some .yes
  | 'f' => some .no
  | _ => none

/-- The start of a token, a whole one, or blank. -/
def Lex.start (c : Char) : Option (Lex × List Token) :=
  if blank c then some (.out, [])
  else if c = '"' then some (.str [], [])
  else
    match punctuation c, firstPhase c, firstOfWord c with
    | some t, _, _ => some (.out, [t])
    | none, some phase, _ => some (.num phase [c], [])
    | none, none, some w => some (.word w 1, [])
    | none, none, none => none

/-- One character: the next state, and the tokens that are complete. -/
def Lex.step : Lex → Char → Option (Lex × List Token)
  | .out, c => start c
  | .str acc, c =>
    if c = '"' then some (.out, [.str acc])
    else if c = '\\' then some (.esc acc, [])
    else if 0x20 ≤ c.toNat then some (.str (acc ++ [c]), [])
    else none
  | .esc acc, c =>
    if c = 'u' then some (.hex acc none 0 0, []) else (unescape c).map fun d => (.str (acc ++ [d]), [])
  | .hex acc high digits value, c =>
    (hexValue c).bind fun d =>
      if digits < 3 then some (.hex acc high (digits + 1) (16 * value + d), [])
      else (closeHex acc high (16 * value + d)).map fun q => (q, [])
  | .low acc high, c => if c = '\\' then some (.lowEsc acc high, []) else none
  | .lowEsc acc high, c => if c = 'u' then some (.hex acc (some high) 0 0, []) else none
  | .num phase text, c =>
    match phase.next c with
    | some phase' => some (.num phase' (text ++ [c]), [])
    | none => if phase.complete then (start c).map fun r => (r.1, .num text :: r.2) else none
  | .word w n, c =>
    if w.chars[n]? = some c then
      if n + 1 = w.chars.length then some (.out, [.word w]) else some (.word w (n + 1), [])
    else none

def Lex.run : Lex → List Char → Option (Lex × List Token)
  | q, [] => some (q, [])
  | q, c :: cs => (q.step c).bind fun r => (r.1.run cs).map fun r' => (r'.1, r.2 ++ r'.2)

/-- The tokens still to come at the end of the text. -/
def Lex.finish : Lex → Option (List Token)
  | .out => some []
  | .num phase text => if phase.complete then some [.num text] else none
  | _ => none

def tokens (text : List Char) : Option (List Token) :=
  (Lex.out.run text).bind fun r => r.1.finish.map (r.2 ++ ·)

/-! ## The grammar -/

inductive Value where
  | null
  | bool (b : Bool)
  | num (text : List Char)
  | str (s : List Char)
  | arr (xs : List Value)
  | obj (kvs : List (List Char × Value))

/-- An array or object that is open, with what it has so far. -/
inductive Frame where
  | arr (xs : List Value)
  | obj (kvs : List (List Char × Value)) (key : List Char)

/-- What is expected next, over the open frames. -/
inductive Gram where
  | value (st : List Frame)
  | firstElem (st : List Frame)
  | firstKey (st : List Frame)
  | key (st : List Frame) (kvs : List (List Char × Value))
  | colon (st : List Frame) (kvs : List (List Char × Value)) (key : List Char)
  | afterElem (st : List Frame) (xs : List Value)
  | afterMember (st : List Frame) (kvs : List (List Char × Value))
  | done (v : Value)

/-- A value is complete. -/
def Gram.complete (st : List Frame) (v : Value) : Gram :=
  match st with
  | [] => .done v
  | .arr xs :: st => .afterElem st (xs ++ [v])
  | .obj kvs k :: st => .afterMember st (kvs ++ [(k, v)])

def Keyword.value : Keyword → Value
  | .null => .null
  | .yes => .bool true
  | .no => .bool false

/-- The token where a value is expected. -/
def Gram.enter (st : List Frame) : Token → Option Gram
  | .openObj => some (.firstKey st)
  | .openArr => some (.firstElem st)
  | .str s => some (complete st (.str s))
  | .num text => some (complete st (.num text))
  | .word w => some (complete st w.value)
  | _ => none

def Gram.step : Gram → Token → Option Gram
  | .value st, t => Gram.enter st t
  | .firstElem st, t => if t = .closeArr then some (complete st (.arr [])) else Gram.enter (.arr [] :: st) t
  | .firstKey st, t =>
    match t with
    | .closeObj => some (complete st (.obj []))
    | .str k => some (.colon st [] k)
    | _ => none
  | .key st kvs, t =>
    match t with
    | .str k => some (.colon st kvs k)
    | _ => none
  | .colon st kvs k, t => if t = .colon then some (.value (.obj kvs k :: st)) else none
  | .afterElem st xs, t =>
    match t with
    | .comma => some (.value (.arr xs :: st))
    | .closeArr => some (complete st (.arr xs))
    | _ => none
  | .afterMember st kvs, t =>
    match t with
    | .comma => some (.key st kvs)
    | .closeObj => some (complete st (.obj kvs))
    | _ => none
  | .done _, _ => none

def Gram.result : Gram → Option Value
  | .done v => some v
  | _ => none

def parse (text : List Char) : Option Value :=
  (tokens text).bind fun ts => (ts.foldlM Gram.step (.value [])).bind Gram.result

namespace Value

/-- The member under a key; of several, the last. -/
def find? (v : Value) (key : String) : Option Value :=
  match v with
  | .obj kvs => kvs.reverse.lookup key.toList
  | _ => none

def bool? : Value → Option Bool
  | .bool b => some b
  | _ => none

def string? : Value → Option String
  | .str s => some (String.ofList s)
  | _ => none

/-- A number without sign, fraction or exponent. -/
def nat? : Value → Option Nat
  | .num text => if text.all Char.isDigit then some (Nat.ofDigitChars 10 text 0) else none
  | _ => none

end Value

/-! ## Running the lexer over parts of a text -/

theorem Lex.run_append (q : Lex) (s t : List Char) :
    q.run (s ++ t) = (q.run s).bind fun r => (r.1.run t).map fun r' => (r'.1, r.2 ++ r'.2) := by
  induction s generalizing q with
  | nil => simp [Lex.run]
  | cons c s ih =>
    rw [List.cons_append, Lex.run, Lex.run]
    cases q.step c with
    | none => rfl
    | some r =>
      simp only [Option.bind_some, ih]
      cases r.1.run s with
      | none => rfl
      | some r' =>
        simp only [Option.bind_some, Option.map_some]
        cases r'.1.run t with
        | none => rfl
        | some r'' => simp only [Option.map_some, List.append_assoc]

/-- A part of the text that is known. -/
theorem Lex.run_append_of_eq {q q' : Lex} {s : List Char} {ts : List Token} (h : q.run s = some (q', ts)) (t : List Char) :
    q.run (s ++ t) = (q'.run t).map fun r => (r.1, ts ++ r.2) := by
  rw [Lex.run_append, h]
  rfl

theorem Lex.run_cons_of_eq {q q' : Lex} {c : Char} {ts : List Token} (h : q.step c = some (q', ts)) (t : List Char) :
    q.run (c :: t) = (q'.run t).map fun r => (r.1, ts ++ r.2) := by
  rw [Lex.run, h]
  rfl

/-- A character that stands for itself within a string. -/
def Plain (c : Char) : Prop := 0x20 ≤ c.toNat ∧ c ≠ '"' ∧ c ≠ '\\'

instance (c : Char) : Decidable (Plain c) := inferInstanceAs (Decidable (_ ∧ _))

instance (s : List Char) : Decidable (∀ c ∈ s, Plain c) := List.decidableBAll Plain s

theorem Lex.step_str_plain {c : Char} (h : Plain c) (acc : List Char) :
    (Lex.str acc).step c = some (.str (acc ++ [c]), []) := by
  rw [Lex.step, if_neg h.2.1, if_neg h.2.2, if_pos h.1]

theorem Lex.run_str_plain {s : List Char} (h : ∀ c ∈ s, Plain c) (acc : List Char) :
    (Lex.str acc).run s = some (.str (acc ++ s), []) := by
  induction s generalizing acc with
  | nil => rw [List.append_nil]; rfl
  | cons c s ih =>
    have hs : ∀ c ∈ s, Plain c := fun d hd => h d (List.mem_cons_of_mem c hd)
    rw [Lex.run_cons_of_eq (Lex.step_str_plain (h c List.mem_cons_self) acc), ih hs, List.append_assoc]
    rfl

theorem Lex.run_str_quote (acc t : List Char) :
    (Lex.str acc).run ('"' :: t) = (Lex.out.run t).map fun r => (r.1, .str acc :: r.2) := by
  have hstep : (Lex.str acc).step '"' = some (.out, [.str acc]) := rfl
  exact Lex.run_cons_of_eq hstep t

/-! ### A number -/

theorem Lex.run_digits_pos {n : Nat} (hn : 0 < n) :
    Lex.out.run (Nat.toDigits 10 n) = some (.num .int (Nat.toDigits 10 n), []) := by
  induction n using Nat.strongRecOn with
  | ind n ih =>
    by_cases hlt : n < 10
    · rw [Nat.toDigits_of_lt_base hlt]
      have hall : ∀ d < 10, 0 < d → Lex.out.step d.digitChar = some (.num .int [d.digitChar], []) := by decide
      rw [Lex.run_cons_of_eq (hall n hlt hn)]
      rfl
    · have hge : 10 ≤ n := Nat.le_of_not_lt hlt
      have hd : ∀ d < 10, d.digitChar.isDigit = true := by decide
      rw [Nat.toDigits_of_base_le (by decide) hge,
        Lex.run_append_of_eq (ih (n / 10) (by omega) (by omega)), Lex.run]
      simp only [Lex.step, NumPhase.next, hd (n % 10) (Nat.mod_lt n (by decide)), if_true, Option.bind_some, Lex.run,
        Option.map_some, List.append_nil]

/-- A number ends before a character that is no part of it. -/
theorem Lex.run_num_end {phase : NumPhase} {text : List Char} {c : Char} (hnext : phase.next c = none)
    (hcomplete : phase.complete = true) (t : List Char) :
    (Lex.num phase text).run (c :: t) = (Lex.out.run (c :: t)).map fun r => (r.1, .num text :: r.2) := by
  rw [Lex.run, Lex.run, Lex.step, Lex.step, hnext]
  simp only [hcomplete, if_true]
  cases Lex.start c with
  | none => rfl
  | some r =>
    simp only [Option.map_some, Option.bind_some, Option.map_map]
    rfl

/-- The digits of a number, up to a character that is no part of it. -/
theorem Lex.run_digits (n : Nat) {c : Char} (hzero : NumPhase.zero.next c = none) (hint : NumPhase.int.next c = none)
    (t : List Char) :
    Lex.out.run (Nat.toDigits 10 n ++ c :: t) =
      (Lex.out.run (c :: t)).map fun r => (r.1, .num (Nat.toDigits 10 n) :: r.2) := by
  cases n with
  | zero =>
    have hrun : Lex.out.run (Nat.toDigits 10 0) = some (.num .zero (Nat.toDigits 10 0), []) := by decide
    rw [Lex.run_append_of_eq hrun, Lex.run_num_end hzero rfl]
    exact Option.map_map ..
  | succ n =>
    rw [Lex.run_append_of_eq (Lex.run_digits_pos n.succ_pos), Lex.run_num_end hint rfl]
    exact Option.map_map ..

/-! ### A text between quotes -/

/-- The tokens of a text put between quotes, if the closing quote closes a string. -/
def quoted (f : List Char) : Option (List Token) :=
  ((Lex.str []).run f).bind fun r =>
    match r.1 with
    | .str acc => some (r.2 ++ [.str acc])
    | _ => none

theorem quoted_plain {f : List Char} (h : ∀ c ∈ f, Plain c) : quoted f = some [.str f] := by
  rw [quoted, Lex.run_str_plain h]
  rfl

section misquoted

variable {mid : List Char} {c : Char}

/-- A quote, then what would be between two strings, then a quote and no token. -/
theorem Lex.run_str_misquoted (hmid : ∀ d ∈ mid, Plain d) (hc : Lex.start c = none) (acc t : List Char) :
    (Lex.str acc).run (mid ++ '"' :: c :: t) = none := by
  rw [Lex.run_append_of_eq (Lex.run_str_plain hmid acc), Lex.run_str_quote, Lex.run, Lex.step, hc]
  rfl

theorem Lex.run_misquoted {q : Lex} (hq : ∀ acc, q ≠ .str acc) (hmid : ∀ d ∈ mid, Plain d) (hc : Lex.start c = none)
    (t : List Char) : q.run ('"' :: (mid ++ '"' :: c :: t)) = none := by
  have hstr := Lex.run_str_misquoted hmid hc
  rw [Lex.run]
  cases q with
  | out =>
    rw [show Lex.out.step '"' = some (.str [], []) from rfl, Option.bind_some, hstr]
    rfl
  | str acc => exact absurd rfl (hq acc)
  | esc acc =>
    rw [show (Lex.esc acc).step '"' = some (.str (acc ++ ['"']), []) from rfl, Option.bind_some, hstr]
    rfl
  | num phase text =>
    have hnext : phase.next '"' = none := by cases phase <;> rfl
    rw [Lex.step, hnext]
    cases phase.complete with
    | false => rfl
    | true =>
      rw [show Lex.start '"' = some (.str [], []) from rfl]
      simp only [if_true, Option.map_some, Option.bind_some, hstr]
      rfl
  | word w n =>
    have hno : w.chars[n]? ≠ some '"' := by
      intro h
      have hmem := List.mem_of_getElem? h
      cases w <;> simp [Keyword.chars] at hmem
    rw [Lex.step, if_neg hno]
    rfl
  | hex | low | lowEsc => rfl

/-- A text between quotes, and on to the next string: the second quote closes a string, or nothing comes of it. -/
theorem Lex.run_quoted (f : List Char) (hmid : ∀ d ∈ mid, Plain d) (hc : Lex.start c = none) (t : List Char) :
    (Lex.str []).run (f ++ '"' :: (mid ++ '"' :: c :: t)) =
      (quoted f).bind fun ts => (Lex.out.run (mid ++ '"' :: c :: t)).map fun r => (r.1, ts ++ r.2) := by
  rw [Lex.run_append, quoted]
  cases (Lex.str []).run f with
  | none => rfl
  | some r =>
    obtain ⟨q, ts⟩ := r
    by_cases hq : ∃ acc, q = .str acc
    · obtain ⟨acc, rfl⟩ := hq
      simp only [Option.bind_some, Lex.run_str_quote, Option.map_map, Function.comp_def, List.append_assoc,
        List.singleton_append]
    · have hq : ∀ acc, q ≠ .str acc := not_exists.mp hq
      simp only [Option.bind_some, Lex.run_misquoted hq hmid hc, Option.map_none]
      cases q with
      | str acc => exact absurd rfl (hq acc)
      | _ => rfl

/-- A text between quotes and the known text up to where the next token starts. -/
theorem Lex.run_quoted_of_eq (mid : List Char) (c : Char) (t : List Char) {gap₁ gap₂ : List Char} {q : Lex}
    {ts : List Token} (f : List Char) (hgap : gap₁ ++ gap₂ = '"' :: (mid ++ '"' :: c :: t))
    (hmid : ∀ d ∈ mid, Plain d) (hc : Lex.start c = none)
    (h : Lex.out.run (mid ++ '"' :: c :: t) = some (q, ts)) (rest : List Char) :
    (Lex.str []).run (f ++ (gap₁ ++ (gap₂ ++ rest))) =
      (quoted f).bind fun a => (q.run rest).map fun r => (r.1, a ++ (ts ++ r.2)) := by
  have happend : gap₁ ++ (gap₂ ++ rest) = '"' :: (mid ++ '"' :: c :: (t ++ rest)) := by
    rw [← List.append_assoc, hgap]
    simp
  have hrun : Lex.out.run (mid ++ '"' :: c :: (t ++ rest)) = (q.run rest).map fun r => (r.1, ts ++ r.2) := by
    rw [← Lex.run_append_of_eq h rest]
    simp
  rw [happend, Lex.run_quoted f hmid hc, hrun]
  simp only [Option.map_map, Function.comp_def]

end misquoted

/-- The digits of a number and the known text after them. -/
theorem Lex.run_digits_of_eq {gap t : List Char} {c : Char} {q : Lex} {ts : List Token} (n : Nat) (hgap : gap = c :: t)
    (hzero : NumPhase.zero.next c = none) (hint : NumPhase.int.next c = none) (h : Lex.out.run gap = some (q, ts))
    (rest : List Char) :
    Lex.out.run (Nat.toDigits 10 n ++ (gap ++ rest)) =
      (q.run rest).map fun r => (r.1, .num (Nat.toDigits 10 n) :: (ts ++ r.2)) := by
  have hrun := Lex.run_append_of_eq h rest
  subst hgap
  rw [List.cons_append] at hrun ⊢
  rw [Lex.run_digits n hzero hint, hrun, Option.map_map]
  rfl

/-! ### What is decoded is no longer than its text -/

/-- After `pre`, what a string holds is shorter, or it is all of `pre` and needed no decoding. -/
def Lex.Decodes (pre : List Char) : Lex → Prop
  | .str acc => acc.length < pre.length ∨ (acc = pre ∧ ∀ c ∈ pre, Plain c)
  | .esc acc => acc.length < pre.length
  | .hex acc .. => acc.length < pre.length
  | .low acc _ => acc.length < pre.length
  | .lowEsc acc _ => acc.length < pre.length
  | _ => True

/-- The strings of the tokens are shorter than this. -/
def StringsBelow (n : Nat) (ts : List Token) : Prop := ∀ s, .str s ∈ ts → s.length < n

theorem punctuation_ne_str {c : Char} {t : Token} (h : punctuation c = some t) (s : List Char) : t ≠ .str s := by
  unfold punctuation at h
  split at h
  all_goals
    cases h
    try exact Token.noConfusion

/-- A token that starts holds no string yet. -/
theorem Lex.start_decodes (pre : List Char) {c : Char} {q : Lex} {ts : List Token} (h : Lex.start c = some (q, ts)) :
    q.Decodes (pre ++ [c]) ∧ ∀ s, .str s ∉ ts := by
  unfold Lex.start at h
  cases hblank : blank c with
  | true =>
    rw [hblank, if_pos rfl] at h
    cases h
    exact ⟨trivial, fun s => List.not_mem_nil⟩
  | false =>
    rw [hblank, if_neg Bool.false_ne_true] at h
    by_cases hquote : c = '"'
    · rw [if_pos hquote] at h
      cases h
      exact ⟨.inl (by simp), fun s => List.not_mem_nil⟩
    · rw [if_neg hquote] at h
      split at h
      · next t _ _ hp =>
        cases h
        exact ⟨trivial, fun s hs => punctuation_ne_str hp s (List.mem_singleton.mp hs).symm⟩
      · cases h
        exact ⟨trivial, fun s => List.not_mem_nil⟩
      · cases h
        exact ⟨trivial, fun s => List.not_mem_nil⟩
      · cases h

theorem closeHex_decodes {acc pre : List Char} {high : Option Nat} {value : Nat} {c : Char} {q : Lex}
    (hacc : acc.length < pre.length) (h : closeHex acc high value = some q) : q.Decodes (pre ++ [c]) := by
  have hone : ∀ d, (acc ++ [d]).length < (pre ++ [c]).length := by
    intro d
    rw [List.length_append, List.length_append]
    exact Nat.add_lt_add_right hacc 1
  cases high with
  | none =>
    simp only [closeHex] at h
    split_ifs at h
    · cases h
      exact Nat.lt_of_lt_of_le hacc (by simp)
    · cases h
      exact .inl (hone _)
  | some high =>
    simp only [closeHex] at h
    split_ifs at h
    cases h
    exact .inl (hone _)

theorem Lex.step_decodes {pre : List Char} {c : Char} {q q' : Lex} {ts : List Token} (hq : q.Decodes pre)
    (h : q.step c = some (q', ts)) : q'.Decodes (pre ++ [c]) ∧ StringsBelow (pre ++ [c]).length ts := by
  have hlen : (pre ++ [c]).length = pre.length + 1 := List.length_append
  have hnone : StringsBelow (pre ++ [c]).length [] := by
    intro s hs
    cases hs
  have hone : ∀ {acc : List Char} {d}, acc.length < pre.length → (acc ++ [d]).length < (pre ++ [c]).length := by
    intro acc d hacc
    rw [List.length_append, List.length_append]
    exact Nat.add_lt_add_right hacc 1
  cases q with
  | out =>
    obtain ⟨hq', hstart⟩ := Lex.start_decodes pre h
    exact ⟨hq', fun s hs => absurd hs (hstart s)⟩
  | str acc =>
    rw [Lex.step] at h
    have hle : acc.length ≤ pre.length := by
      obtain hlt | ⟨rfl, -⟩ := hq
      · exact Nat.le_of_lt hlt
      · exact Nat.le_refl _
    split_ifs at h with hquote hslash hlow
    · cases h
      refine ⟨trivial, fun s hs => ?_⟩
      obtain rfl : s = acc := by simpa using hs
      omega
    · cases h
      exact ⟨by rw [Lex.Decodes]; omega, hnone⟩
    · cases h
      refine ⟨?_, hnone⟩
      obtain hlt | ⟨rfl, hplain⟩ := hq
      · exact .inl (hone hlt)
      · refine .inr ⟨rfl, fun d hd => ?_⟩
        obtain hd | hd := List.mem_append.mp hd
        · exact hplain d hd
        · rw [List.mem_singleton.mp hd]
          exact ⟨hlow, hquote, hslash⟩
  | esc acc =>
    rw [Lex.step] at h
    have hacc : acc.length < pre.length := hq
    split_ifs at h
    · cases h
      exact ⟨by rw [Lex.Decodes]; omega, hnone⟩
    · obtain ⟨d, -, hd⟩ := Option.map_eq_some_iff.mp h
      cases hd
      exact ⟨.inl (hone hacc), hnone⟩
  | hex acc high digits value =>
    rw [Lex.step] at h
    have hacc : acc.length < pre.length := hq
    obtain ⟨d, -, hd⟩ := Option.bind_eq_some_iff.mp h
    split_ifs at hd
    · cases hd
      exact ⟨by rw [Lex.Decodes]; omega, hnone⟩
    · obtain ⟨q, hclose, hd⟩ := Option.map_eq_some_iff.mp hd
      cases hd
      exact ⟨closeHex_decodes hacc hclose, hnone⟩
  | low acc high | lowEsc acc high =>
    rw [Lex.step] at h
    have hacc : acc.length < pre.length := hq
    split_ifs at h
    cases h
    exact ⟨by rw [Lex.Decodes]; omega, hnone⟩
  | num phase text =>
    rw [Lex.step] at h
    split at h
    · cases h
      exact ⟨trivial, hnone⟩
    · split_ifs at h
      obtain ⟨r, hr, h⟩ := Option.map_eq_some_iff.mp h
      cases h
      obtain ⟨hq', hstart⟩ := Lex.start_decodes pre hr
      exact ⟨hq', fun s hs => absurd hs (by simp [hstart s])⟩
  | word w n =>
    rw [Lex.step] at h
    split_ifs at h
    · cases h
      exact ⟨trivial, fun s hs => by simp at hs⟩
    · cases h
      exact ⟨trivial, hnone⟩

theorem StringsBelow.mono {n m : Nat} {ts : List Token} (h : StringsBelow n ts) (hnm : n ≤ m) : StringsBelow m ts :=
  fun s hs => Nat.lt_of_lt_of_le (h s hs) hnm

theorem Lex.run_decodes {pre t : List Char} {q q' : Lex} {ts : List Token} (hq : q.Decodes pre)
    (h : q.run t = some (q', ts)) : q'.Decodes (pre ++ t) ∧ StringsBelow (pre ++ t).length ts := by
  induction t generalizing pre q ts with
  | nil =>
    cases h
    rw [List.append_nil]
    refine ⟨hq, fun s hs => ?_⟩
    cases hs
  | cons c t ih =>
    rw [Lex.run] at h
    obtain ⟨⟨q₁, ts₁⟩, hstep, h⟩ := Option.bind_eq_some_iff.mp h
    obtain ⟨⟨q₂, ts₂⟩, hrun, h⟩ := Option.map_eq_some_iff.mp h
    cases h
    obtain ⟨hq₁, hts₁⟩ := Lex.step_decodes hq hstep
    obtain ⟨hq₂, hts₂⟩ := ih hq₁ hrun
    have happend : pre ++ [c] ++ t = pre ++ c :: t := by rw [List.append_assoc]; rfl
    rw [happend] at hq₂ hts₂
    refine ⟨hq₂, fun s hs => ?_⟩
    obtain hs | hs := List.mem_append.mp hs
    · exact hts₁.mono (by rw [← happend]; simp) s hs
    · exact hts₂ s hs

/-- The strings a text between quotes comes to: the text itself if that is plain, or else shorter ones. -/
theorem quoted_strings {f s : List Char} {ts : List Token} (h : quoted f = some ts) (hs : .str s ∈ ts) :
    s.length < f.length ∨ (s = f ∧ ∀ c ∈ f, Plain c) := by
  obtain ⟨⟨q, ts₁⟩, hrun, h⟩ := Option.bind_eq_some_iff.mp h
  have hempty : (Lex.str []).Decodes [] := .inr ⟨rfl, fun c hc => by cases hc⟩
  obtain ⟨hq, hbelow⟩ := Lex.run_decodes hempty hrun
  rw [List.nil_append] at hq hbelow
  cases q with
  | str acc =>
    cases h
    obtain hs | hs := List.mem_append.mp hs
    · exact .inl (hbelow s hs)
    · obtain rfl : s = acc := by simpa using hs
      exact hq
  | _ => cases h

/-! ## The grammar over known tokens -/

theorem Gram.foldlM_cons_of_eq {g g' : Gram} {t : Token} (h : g.step t = some g') (ts : List Token) :
    (t :: ts).foldlM Gram.step g = ts.foldlM Gram.step g' := by
  rw [List.foldlM_cons, h]
  rfl

/-- The token is a whole value. -/
def Token.IsValue (t : Token) (v : Value) : Prop := ∀ st, Gram.enter st t = some (Gram.complete st v)

theorem isValue_str (s : List Char) : (Token.str s).IsValue (.str s) := fun _ => rfl

theorem isValue_num (text : List Char) : (Token.num text).IsValue (.num text) := fun _ => rfl

theorem isValue_word (w : Keyword) : (Token.word w).IsValue w.value := fun _ => rfl

/-- A member after the first, up to the end of its value. -/
theorem Gram.foldlM_member {t : Token} {v : Value} (ht : t.IsValue v) (st : List Frame)
    (kvs : List (List Char × Value)) (k : List Char) (ts : List Token) :
    (.comma :: .str k :: .colon :: t :: ts).foldlM Gram.step (.afterMember st kvs) =
      ts.foldlM Gram.step (.afterMember st (kvs ++ [(k, v)])) := by
  have hcomma : (Gram.afterMember st kvs).step .comma = some (.key st kvs) := rfl
  have hkey : (Gram.key st kvs).step (.str k) = some (.colon st kvs k) := rfl
  have hcolon : (Gram.colon st kvs k).step .colon = some (.value (.obj kvs k :: st)) := rfl
  have hvalue : (Gram.value (.obj kvs k :: st)).step t = some (.afterMember st (kvs ++ [(k, v)])) := ht _
  rw [foldlM_cons_of_eq hcomma, foldlM_cons_of_eq hkey, foldlM_cons_of_eq hcolon, foldlM_cons_of_eq hvalue]

/-- The first member of an object, up to the end of its value. -/
theorem Gram.foldlM_firstMember {t : Token} {v : Value} (ht : t.IsValue v) (st : List Frame) (k : List Char)
    (ts : List Token) :
    (.openObj :: .str k :: .colon :: t :: ts).foldlM Gram.step (.value st) =
      ts.foldlM Gram.step (.afterMember st [(k, v)]) := by
  have hopen : (Gram.value st).step .openObj = some (.firstKey st) := rfl
  have hkey : (Gram.firstKey st).step (.str k) = some (.colon st [] k) := rfl
  have hcolon : (Gram.colon st [] k).step .colon = some (.value (.obj [] k :: st)) := rfl
  have hvalue : (Gram.value (.obj [] k :: st)).step t = some (.afterMember st [(k, v)]) := ht _
  rw [foldlM_cons_of_eq hopen, foldlM_cons_of_eq hkey, foldlM_cons_of_eq hcolon, foldlM_cons_of_eq hvalue]

/-- An object that comes first in an array is read as any other element. -/
theorem Gram.foldlM_firstElem (st : List Frame) (ts : List Token) :
    (Token.openObj :: ts).foldlM Gram.step (.firstElem st) =
      (Token.openObj :: ts).foldlM Gram.step (.value (.arr [] :: st)) := by
  have hfirst : (Gram.firstElem st).step .openObj = some (.firstKey (.arr [] :: st)) := rfl
  have hother : (Gram.value (.arr [] :: st)).step .openObj = some (.firstKey (.arr [] :: st)) := rfl
  rw [foldlM_cons_of_eq hfirst, foldlM_cons_of_eq hother]

/-! ## The strings of a value are among the tokens -/

/-- Every string within the value, keys apart, meets `P`. -/
inductive Value.Within (P : List Char → Prop) : Value → Prop where
  | null : Within P .null
  | bool (b : Bool) : Within P (.bool b)
  | num (text : List Char) : Within P (.num text)
  | str {s : List Char} (h : P s) : Within P (.str s)
  | arr {xs : List Value} (h : ∀ x ∈ xs, Within P x) : Within P (.arr xs)
  | obj {kvs : List (List Char × Value)} (h : ∀ kv ∈ kvs, Within P kv.2) : Within P (.obj kvs)

variable {P : List Char → Prop}

theorem Value.Within.find? {v w : Value} {key : String} (hv : v.Within P) (h : v.find? key = some w) : w.Within P := by
  cases hv with
  | obj hkvs =>
    obtain ⟨l₁, l₂, hl, -⟩ := List.lookup_eq_some_iff.mp h
    exact hkvs _ (List.mem_reverse.mp (hl ▸ List.mem_append_right l₁ List.mem_cons_self))
  | _ => cases h

def Frame.Within (P : List Char → Prop) : Frame → Prop
  | .arr xs => ∀ x ∈ xs, x.Within P
  | .obj kvs _ => ∀ kv ∈ kvs, kv.2.Within P

def FramesWithin (P : List Char → Prop) (st : List Frame) : Prop := ∀ f ∈ st, f.Within P

theorem Frame.Within.cons {f : Frame} {st : List Frame} (hf : f.Within P) (hst : FramesWithin P st) :
    FramesWithin P (f :: st) := List.forall_mem_cons.mpr ⟨hf, hst⟩

def Gram.Within (P : List Char → Prop) : Gram → Prop
  | .value st | .firstElem st | .firstKey st => FramesWithin P st
  | .key st kvs | .colon st kvs _ | .afterMember st kvs => FramesWithin P st ∧ ∀ kv ∈ kvs, kv.2.Within P
  | .afterElem st xs => FramesWithin P st ∧ ∀ x ∈ xs, x.Within P
  | .done v => v.Within P

theorem Gram.complete_within {st : List Frame} {v : Value} (hst : FramesWithin P st) (hv : v.Within P) :
    (Gram.complete st v).Within P := by
  cases st with
  | nil => exact hv
  | cons f st =>
    obtain ⟨hf, hrest⟩ := List.forall_mem_cons.mp hst
    cases f with
    | arr xs => exact ⟨hrest, List.forall_mem_append.mpr ⟨hf, List.forall_mem_singleton.mpr hv⟩⟩
    | obj kvs k => exact ⟨hrest, List.forall_mem_append.mpr ⟨hf, List.forall_mem_singleton.mpr hv⟩⟩

theorem Gram.enter_within {st : List Frame} {t : Token} {g : Gram} (hst : FramesWithin P st)
    (ht : ∀ s, t = .str s → P s) (h : Gram.enter st t = some g) : g.Within P := by
  cases t with
  | openObj | openArr =>
    cases h
    exact hst
  | str s =>
    cases h
    exact Gram.complete_within hst (.str (ht s rfl))
  | num text =>
    cases h
    exact Gram.complete_within hst (.num text)
  | word w =>
    cases h
    refine Gram.complete_within hst ?_
    cases w with
    | null => exact .null
    | yes => exact .bool true
    | no => exact .bool false
  | _ => cases h

theorem Gram.step_within {g g' : Gram} {t : Token} (hg : g.Within P) (ht : ∀ s, t = .str s → P s)
    (h : g.step t = some g') : g'.Within P := by
  cases g with
  | value st => exact Gram.enter_within hg ht h
  | firstElem st =>
    rw [Gram.step] at h
    split at h
    · cases h
      exact Gram.complete_within hg (.arr fun x hx => by cases hx)
    · have hempty : (Frame.arr []).Within P := by
        intro x hx
        cases hx
      exact Gram.enter_within (Frame.Within.cons hempty hg) ht h
  | firstKey st =>
    cases t with
    | closeObj =>
      cases h
      exact Gram.complete_within hg (.obj fun kv hkv => by cases hkv)
    | str k =>
      cases h
      exact ⟨hg, fun kv hkv => by cases hkv⟩
    | _ => cases h
  | key st kvs =>
    cases t with
    | str k =>
      cases h
      exact hg
    | _ => cases h
  | colon st kvs k =>
    rw [Gram.step] at h
    split at h
    · cases h
      exact Frame.Within.cons hg.2 hg.1
    · cases h
  | afterElem st xs =>
    cases t with
    | comma =>
      cases h
      exact Frame.Within.cons hg.2 hg.1
    | closeArr =>
      cases h
      exact Gram.complete_within hg.1 (.arr hg.2)
    | _ => cases h
  | afterMember st kvs =>
    cases t with
    | comma =>
      cases h
      exact hg
    | closeObj =>
      cases h
      exact Gram.complete_within hg.1 (.obj hg.2)
    | _ => cases h
  | done v => cases h

theorem Gram.foldlM_within {ts : List Token} {g g' : Gram} (hg : g.Within P) (hts : ∀ s, .str s ∈ ts → P s)
    (h : ts.foldlM Gram.step g = some g') : g'.Within P := by
  induction ts generalizing g with
  | nil =>
    cases h
    exact hg
  | cons t ts ih =>
    rw [List.foldlM_cons] at h
    obtain ⟨g₁, hstep, h⟩ := Option.bind_eq_some_iff.mp h
    refine ih (Gram.step_within hg (fun s hs => hts s (hs ▸ List.mem_cons_self)) hstep) (fun s hs => ?_) h
    exact hts s (List.mem_cons_of_mem t hs)

/-- What a text parses to holds only strings the lexer gave. -/
theorem parse_within {text : List Char} {v : Value} (h : parse text = some v) :
    ∃ ts, tokens text = some ts ∧ v.Within fun s => .str s ∈ ts := by
  obtain ⟨ts, hts, h⟩ := Option.bind_eq_some_iff.mp h
  obtain ⟨g, hg, h⟩ := Option.bind_eq_some_iff.mp h
  have hstart : (Gram.value []).Within fun s => Token.str s ∈ ts := fun f hf => by cases hf
  have hwithin := Gram.foldlM_within hstart (fun s hs => hs) hg
  refine ⟨ts, hts, ?_⟩
  cases g with
  | done w =>
    cases h
    exact hwithin
  | _ => cases h

end JsonText
