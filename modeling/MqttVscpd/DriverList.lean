/-
The driver list the daemon publishes: the text `CDeviceList::getAllAsJSON` puts
together from templates, and what a JSON parser makes of it.
-/
import Mathlib.Algebra.Order.BigOperators.Group.List
import Mathlib.Algebra.Order.Ring.Nat
import Mathlib.Data.List.TakeWhile
import MqttVscpd.ReadJsonTotal
import MqttVscpd.Lib.JsonText

namespace MqttVscpd

open JsonText

/-! ## The text -/

/-- `CDeviceItem::getAsJSON`: `JSON_DRV_TEMPLATE`, line by line, with its arguments. A `%lu` here is
given a `uint32_t`, and prints it where `unsigned long` has 32 bits and where, as with gcc on x86-64,
the argument is passed with its upper half zero. -/
def CDeviceItem.getAsJSON (env : Environment) (it : CDeviceItem) : String :=
  String.join [
    "\x7b    ",
    "            \"enable\"      : ", if it.bEnable then "true" else "false", ",     ",
    "            \"active\"      : ", if it.bActive then "true" else "false", ",     ",
    "            \"name\"        : \"", c_str it.strName, "\", ",
    "            \"path\"        : \"", c_str it.strPath, "\", ",
    "            \"param\"       : \"", c_str it.strParameter, "\", ",
    "            \"level\"       : ", toString it.driverLevel.toNat, ",     ",
    "            \"flags\"       : ", toString it.deviceFlags.toNat, ",    ",
    "            \"guid\"        : \"", c_str (env.getAsString it.guid), "\", ",
    "            \"translation\" : ", toString it.translation.toNat, "     ",
    "        \x7d"]

/-- One step of the loop over the items. -/
def appendItem (env : Environment) (str : String) (it : CDeviceItem) : String :=
  (if str.length ≠ 0 then str ++ "," else str) ++ it.getAsJSON env

/-- `CDeviceList::getAllAsJSON` -/
def getAllAsJSON (env : Environment) (items : List CDeviceItem) : String :=
  let str := items.foldl (appendItem env) ""
  -- `driver_template`
  String.join ["\x7b", "    \"drivers\" : [", c_str str, "]", "\x7d"]

/-! ## What it is to say -/

structure DriverInfo where
  enable : Bool
  active : Bool
  name : String
  path : String
  param : String
  level : Nat
  flags : Nat
  guid : String
  translation : Nat

def CDeviceItem.info (env : Environment) (it : CDeviceItem) : DriverInfo where
  enable := it.bEnable
  active := it.bActive
  name := it.strName
  path := it.strPath
  param := it.strParameter
  level := it.driverLevel.toNat
  flags := it.deviceFlags.toNat
  guid := env.getAsString it.guid
  translation := it.translation.toNat

/-- One element of the array under `drivers`. -/
def decodeDriver (v : Value) : Option DriverInfo := do
  let enable ← (← v.find? "enable").bool?
  let active ← (← v.find? "active").bool?
  let name ← (← v.find? "name").string?
  let path ← (← v.find? "path").string?
  let param ← (← v.find? "param").string?
  let level ← (← v.find? "level").nat?
  let flags ← (← v.find? "flags").nat?
  let guid ← (← v.find? "guid").string?
  let translation ← (← v.find? "translation").nat?
  return { enable, active, name, path, param, level, flags, guid, translation }

def decodeDrivers (v : Value) : Option (List DriverInfo) :=
  match v.find? "drivers" with
  | some (.arr xs) => xs.mapM decodeDriver
  | _ => none

/-- The published text is one JSON object that says of every item, in order, what it is. -/
def PublishedRight (env : Environment) (items : List CDeviceItem) : Prop :=
  ∃ v, parse (getAllAsJSON env items).toList = some v ∧ decodeDrivers v = some (items.map (·.info env))

/-- A text with no quote, no backslash and no control character. -/
def Clean (s : String) : Prop := ∀ c ∈ s.toList, Plain c

/-! ## The tokens of an item -/

variable {env : Environment} {it : CDeviceItem} {items : List CDeviceItem}

def keyTokens (key : String) : List Token := [.comma, .str key.toList, .colon]

def boolToken (b : Bool) : Token := .word (if b then .yes else .no)

def natToken (n : Nat) : Token := .num (Nat.toDigits 10 n)

/-- The tokens of an item, with those of its three strings. -/
def tokensWith (env : Environment) (it : CDeviceItem) (name path param : List Token) : List Token :=
  [.openObj, .str "enable".toList, .colon, boolToken it.bEnable] ++ keyTokens "active" ++ [boolToken it.bActive] ++
    keyTokens "name" ++ name ++ keyTokens "path" ++ path ++ keyTokens "param" ++ param ++
    keyTokens "level" ++ [natToken it.driverLevel.toNat] ++ keyTokens "flags" ++ [natToken it.deviceFlags.toNat] ++
    keyTokens "guid" ++ [.str (env.getAsString it.guid).toList] ++
    keyTokens "translation" ++ [natToken it.translation.toNat, .closeObj]

/-- The tokens of an item's text, if each of its three strings is closed by the quote after it. -/
def itemTokens (env : Environment) (it : CDeviceItem) : Option (List Token) :=
  (quoted (c_str it.strName).toList).bind fun name =>
  (quoted (c_str it.strPath).toList).bind fun path =>
  (quoted (c_str it.strParameter).toList).map fun param => tokensWith env it name path param

theorem c_str_of_clean {s : String} (h : Clean s) : c_str s = s := by
  refine c_str_eq_self_iff.mpr fun hc => ?_
  exact absurd (h _ hc).1 (by decide)

theorem run_bool (b : Bool) (rest : List Char) :
    Lex.out.run ((if b then "true" else "false").toList ++ rest) =
      (Lex.out.run rest).map fun r => (r.1, boolToken b :: r.2) := by
  have hrun : Lex.out.run (if b then "true" else "false").toList = some (.out, [boolToken b]) := by
    cases b <;> decide +kernel
  exact Lex.run_append_of_eq hrun rest

/-- A string from its opening quote to the next key's colon, or the next value's opening quote. -/
theorem run_name (f rest : List Char) :
    (Lex.str []).run (f ++ ("\", ".toList ++ ("            \"path\"        : \"".toList ++ rest))) =
      (quoted f).bind fun a => ((Lex.str []).run rest).map fun r => (r.1, a ++ (keyTokens "path" ++ r.2)) :=
  Lex.run_quoted_of_eq ",             ".toList 'p' "ath\"        : \"".toList f (by decide +kernel)
    (by decide +kernel) (by decide +kernel) (by decide +kernel) rest

theorem run_path (f rest : List Char) :
    (Lex.str []).run (f ++ ("\", ".toList ++ ("            \"param\"       : \"".toList ++ rest))) =
      (quoted f).bind fun a => ((Lex.str []).run rest).map fun r => (r.1, a ++ (keyTokens "param" ++ r.2)) :=
  Lex.run_quoted_of_eq ",             ".toList 'p' "aram\"       : \"".toList f (by decide +kernel)
    (by decide +kernel) (by decide +kernel) (by decide +kernel) rest

theorem run_param (f rest : List Char) :
    (Lex.str []).run (f ++ ("\", ".toList ++ ("            \"level\"       : ".toList ++ rest))) =
      (quoted f).bind fun a => (Lex.out.run rest).map fun r => (r.1, a ++ (keyTokens "level" ++ r.2)) :=
  Lex.run_quoted_of_eq ",             ".toList 'l' "evel\"       : ".toList f (by decide +kernel)
    (by decide +kernel) (by decide +kernel) (by decide +kernel) rest

theorem run_guid {g : String} (hg : Clean g) (rest : List Char) :
    (Lex.str []).run ((c_str g).toList ++ ("\", ".toList ++ rest)) =
      (Lex.out.run rest).map fun r => (r.1, .str g.toList :: .comma :: r.2) := by
  have hrun : (Lex.str ([] ++ g.toList)).run "\", ".toList = some (.out, [.str g.toList, .comma]) := rfl
  rw [c_str_of_clean hg, Lex.run_append_of_eq (Lex.run_str_plain hg []), Lex.run_append_of_eq hrun, Option.map_map]
  rfl

theorem run_nat {gap : List Char} {q : Lex} {ts : List Token} (n : Nat) (h : Lex.out.run gap = some (q, ts))
    (hgap : gap.head? = some ',' ∨ gap.head? = some ' ') (rest : List Char) :
    Lex.out.run ((toString n).toList ++ (gap ++ rest)) =
      (q.run rest).map fun r => (r.1, natToken n :: (ts ++ r.2)) := by
  have hdigits : (toString n).toList = Nat.toDigits 10 n := by
    rw [Nat.toString_eq_ofList_toDigits, String.toList_ofList]
  rw [hdigits]
  cases gap with
  | nil => simp at hgap
  | cons c t =>
    simp only [List.head?_cons, Option.some.injEq] at hgap
    have hends : NumPhase.zero.next c = none ∧ NumPhase.int.next c = none := by
      obtain rfl | rfl := hgap <;> decide +kernel
    exact Lex.run_digits_of_eq n rfl hends.1 hends.2 h rest

/-- The lexer over an item's text. -/
theorem run_getAsJSON (hguid : Clean (env.getAsString it.guid)) (rest : List Char) :
    Lex.out.run ((it.getAsJSON env).toList ++ rest) =
      (itemTokens env it).bind fun ts => (Lex.out.run rest).map fun r => (r.1, ts ++ r.2) := by
  have hopen : Lex.out.run "\x7b    ".toList = some (.out, [.openObj]) := by decide +kernel
  have henable : Lex.out.run "            \"enable\"      : ".toList = some (.out, [.str "enable".toList, .colon]) := by
    decide +kernel
  have hcomma : Lex.out.run ",     ".toList = some (.out, [.comma]) := by decide +kernel
  have hactive : Lex.out.run "            \"active\"      : ".toList = some (.out, [.str "active".toList, .colon]) := by
    decide +kernel
  have hname : Lex.out.run "            \"name\"        : \"".toList = some (.str [], [.str "name".toList, .colon]) := by
    decide +kernel
  have hflags : Lex.out.run "            \"flags\"       : ".toList = some (.out, [.str "flags".toList, .colon]) := by
    decide +kernel
  have hcomma' : Lex.out.run ",    ".toList = some (.out, [.comma]) := by decide +kernel
  have hguidKey : Lex.out.run "            \"guid\"        : \"".toList = some (.str [], [.str "guid".toList, .colon]) := by
    decide +kernel
  have htr : Lex.out.run "            \"translation\" : ".toList =
      some (.out, [.str "translation".toList, .colon]) := by decide +kernel
  have hblank : Lex.out.run "     ".toList = some (.out, []) := by decide +kernel
  have hclose : Lex.out.run "        \x7d".toList = some (.out, [.closeObj]) := by decide +kernel
  rw [CDeviceItem.getAsJSON, String.toList_join]
  simp only [List.flatMap_cons, List.flatMap_nil, List.append_nil, List.append_assoc]
  rw [Lex.run_append_of_eq hopen, Lex.run_append_of_eq henable, run_bool, Lex.run_append_of_eq hcomma,
    Lex.run_append_of_eq hactive, run_bool, Lex.run_append_of_eq hcomma, Lex.run_append_of_eq hname, run_name, itemTokens]
  cases quoted (c_str it.strName).toList with
  | none => rfl
  | some name =>
    rw [Option.bind_some, Option.bind_some, run_path]
    cases quoted (c_str it.strPath).toList with
    | none => rfl
    | some path =>
      rw [Option.bind_some, Option.bind_some, run_param]
      cases quoted (c_str it.strParameter).toList with
      | none => rfl
      | some param =>
        rw [Option.bind_some, run_nat _ hcomma (.inl rfl), Lex.run_append_of_eq hflags, run_nat _ hcomma' (.inl rfl),
          Lex.run_append_of_eq hguidKey, run_guid hguid, Lex.run_append_of_eq htr, run_nat _ hblank (.inr rfl),
          Lex.run_append_of_eq hclose]
        simp only [Option.map_map, Function.comp_def, Option.map_some, Option.bind_some, tokensWith, keyTokens,
          List.append_assoc, List.cons_append, List.nil_append]

/-! ## The tokens of the list -/

theorem noNul_getAsJSON : '\x00' ∉ (it.getAsJSON env).toList := by
  have hstr : ∀ s, '\x00' ∉ (c_str s).toList := by
    intro s hc
    rw [c_str, String.toList_ofList] at hc
    exact absurd (List.mem_takeWhile_imp hc) (by decide)
  have hbool : ∀ b : Bool, '\x00' ∉ (if b then "true" else "false").toList := by decide +kernel
  have hnat : ∀ n : Nat, '\x00' ∉ (toString n).toList := by
    intro n hc
    rw [Nat.toString_eq_ofList_toDigits, String.toList_ofList] at hc
    cases Nat.isDigit_of_mem_toDigits (by decide) (by decide) hc
  rw [CDeviceItem.getAsJSON, String.toList_join, List.mem_flatMap]
  simp only [not_exists, not_and, List.forall_mem_cons, List.not_mem_nil, false_implies, implies_true, and_true]
  refine ⟨?_, ?_, hbool _, ?_, ?_, hbool _, ?_, ?_, hstr _, ?_, ?_, hstr _, ?_, ?_, hstr _, ?_, ?_, hnat _, ?_, ?_, hnat _,
    ?_, ?_, hstr _, ?_, ?_, hnat _, ?_, ?_⟩
  all_goals decide +kernel

/-- What the loop adds to a text that has an item. -/
def tailText (env : Environment) (items : List CDeviceItem) : List Char :=
  items.flatMap fun it => ',' :: (it.getAsJSON env).toList

theorem toList_comma (s t : String) : (s ++ "," ++ t).toList = s.toList ++ ',' :: t.toList := by
  rw [String.toList_append, String.toList_append, List.append_assoc]
  rfl

theorem foldl_appendItem {str : String} (h : str.length ≠ 0) (items : List CDeviceItem) :
    (items.foldl (appendItem env) str).toList = str.toList ++ tailText env items := by
  induction items generalizing str with
  | nil => exact (List.append_nil _).symm
  | cons it items ih =>
    have hstep : appendItem env str it = str ++ "," ++ it.getAsJSON env := by rw [appendItem, if_pos h]
    have hlen : (str ++ "," ++ it.getAsJSON env).length ≠ 0 := by
      rw [String.length_append, String.length_append]
      omega
    rw [List.foldl_cons, hstep, ih hlen, toList_comma, tailText, tailText, List.flatMap_cons, List.append_assoc]

def listText (env : Environment) : List CDeviceItem → List Char
  | [] => []
  | it :: items => (it.getAsJSON env).toList ++ tailText env items

theorem length_getAsJSON : (it.getAsJSON env).length ≠ 0 := by
  have hopen : "\x7b    ".length = 5 := by decide +kernel
  rw [CDeviceItem.getAsJSON, String.join_cons, String.length_append, hopen]
  omega

theorem toList_foldl (items : List CDeviceItem) : (items.foldl (appendItem env) "").toList = listText env items := by
  cases items with
  | nil => rfl
  | cons it items =>
    have hstep : appendItem env "" it = it.getAsJSON env := by
      rw [appendItem, if_neg (by decide), String.empty_append]
    rw [List.foldl_cons, hstep, foldl_appendItem length_getAsJSON, listText]

theorem noNul_listText (items : List CDeviceItem) : '\x00' ∉ listText env items := by
  have htail : '\x00' ∉ tailText env items.tail := by
    intro hc
    obtain ⟨it, -, hc⟩ := List.mem_flatMap.mp hc
    obtain hcomma | hc := List.mem_cons.mp hc
    · exact absurd hcomma (by decide)
    · exact noNul_getAsJSON hc
  cases items with
  | nil => exact List.not_mem_nil
  | cons it items => exact fun hc => (List.mem_append.mp hc).elim noNul_getAsJSON htail

theorem toList_getAllAsJSON (items : List CDeviceItem) :
    (getAllAsJSON env items).toList =
      "\x7b".toList ++ ("    \"drivers\" : [".toList ++ (listText env items ++ ("]".toList ++ "\x7d".toList))) := by
  have hstr : (c_str (items.foldl (appendItem env) "")).toList = listText env items := by
    rw [c_str_eq_self_iff.mpr (by rw [toList_foldl]; exact noNul_listText items), toList_foldl]
  rw [getAllAsJSON, String.toList_join]
  simp only [List.flatMap_cons, List.flatMap_nil, List.append_nil, hstr]

def tailTokens (env : Environment) : List CDeviceItem → Option (List Token)
  | [] => some []
  | it :: items => (itemTokens env it).bind fun a => (tailTokens env items).map fun b => .comma :: (a ++ b)

/-- The tokens between the brackets. -/
def listTokens (env : Environment) : List CDeviceItem → Option (List Token)
  | [] => some []
  | it :: items => (itemTokens env it).bind fun a => (tailTokens env items).map fun b => a ++ b

variable (hguid : ∀ g, Clean (env.getAsString g))

include hguid

theorem run_tailText (items : List CDeviceItem) (rest : List Char) :
    Lex.out.run (tailText env items ++ rest) =
      (tailTokens env items).bind fun ts => (Lex.out.run rest).map fun r => (r.1, ts ++ r.2) := by
  induction items with
  | nil =>
    simp only [tailText, List.flatMap_nil, List.nil_append, tailTokens, Option.bind_some]
    exact Option.map_id'.symm
  | cons it items ih =>
    have hcomma : Lex.out.step ',' = some (.out, [.comma]) := rfl
    rw [tailText, List.flatMap_cons, List.cons_append, List.cons_append, Lex.run_cons_of_eq hcomma, List.append_assoc,
      run_getAsJSON (hguid _), ← tailText, ih, tailTokens]
    cases itemTokens env it with
    | none => rfl
    | some a =>
      cases tailTokens env items with
      | none => rfl
      | some b =>
        simp only [Option.bind_some, Option.map_some, Option.map_map, Function.comp_def, List.append_assoc,
          List.cons_append, List.nil_append]

theorem run_listText (items : List CDeviceItem) (rest : List Char) :
    Lex.out.run (listText env items ++ rest) =
      (listTokens env items).bind fun ts => (Lex.out.run rest).map fun r => (r.1, ts ++ r.2) := by
  cases items with
  | nil =>
    simp only [listText, List.nil_append, listTokens, Option.bind_some]
    exact Option.map_id'.symm
  | cons it items =>
    rw [listText, List.append_assoc, run_getAsJSON (hguid _), run_tailText hguid, listTokens]
    cases itemTokens env it with
    | none => rfl
    | some a =>
      cases tailTokens env items with
      | none => rfl
      | some b =>
        simp only [Option.bind_some, Option.map_some, Option.map_map, Function.comp_def, List.append_assoc]

theorem tokens_getAllAsJSON (items : List CDeviceItem) :
    tokens (getAllAsJSON env items).toList = (listTokens env items).map fun ts =>
      [.openObj, .str "drivers".toList, .colon, .openArr] ++ ts ++ [.closeArr, .closeObj] := by
  have hopen : Lex.out.run "\x7b".toList = some (.out, [.openObj]) := by decide +kernel
  have hdrivers : Lex.out.run "    \"drivers\" : [".toList = some (.out, [.str "drivers".toList, .colon, .openArr]) := by
    decide +kernel
  have hend : Lex.out.run ("]".toList ++ "\x7d".toList) = some (.out, [.closeArr, .closeObj]) := by decide +kernel
  rw [toList_getAllAsJSON, tokens, Lex.run_append_of_eq hopen, Lex.run_append_of_eq hdrivers, run_listText hguid, hend]
  cases listTokens env items with
  | none => rfl
  | some ts =>
    simp only [Option.bind_some, Option.map_some, Lex.finish, List.append_assoc, List.cons_append, List.nil_append]

omit hguid

/-! ## Clean strings -/

/-- What the parser makes of an item with clean strings. -/
def itemValue (env : Environment) (it : CDeviceItem) : Value :=
  .obj [("enable".toList, .bool it.bEnable), ("active".toList, .bool it.bActive), ("name".toList, .str it.strName.toList),
    ("path".toList, .str it.strPath.toList), ("param".toList, .str it.strParameter.toList),
    ("level".toList, .num (Nat.toDigits 10 it.driverLevel.toNat)),
    ("flags".toList, .num (Nat.toDigits 10 it.deviceFlags.toNat)), ("guid".toList, .str (env.getAsString it.guid).toList),
    ("translation".toList, .num (Nat.toDigits 10 it.translation.toNat))]

structure CleanItem (it : CDeviceItem) : Prop where
  name : Clean it.strName
  path : Clean it.strPath
  param : Clean it.strParameter

theorem itemTokens_clean (h : CleanItem it) : itemTokens env it =
    some (tokensWith env it [.str it.strName.toList] [.str it.strPath.toList] [.str it.strParameter.toList]) := by
  rw [itemTokens, c_str_of_clean h.name, c_str_of_clean h.path, c_str_of_clean h.param, quoted_plain h.name,
    quoted_plain h.path, quoted_plain h.param]
  rfl

theorem isValue_bool (b : Bool) : (boolToken b).IsValue (.bool b) := by
  cases b with
  | true => exact isValue_word .yes
  | false => exact isValue_word .no

theorem isValue_nat (n : Nat) : (natToken n).IsValue (.num (Nat.toDigits 10 n)) := isValue_num _

theorem foldlM_tokensWith (st : List Frame) (ts : List Token) :
    (tokensWith env it [.str it.strName.toList] [.str it.strPath.toList] [.str it.strParameter.toList] ++ ts).foldlM
      Gram.step (.value st) = ts.foldlM Gram.step (Gram.complete st (itemValue env it)) := by
  have hclose : ∀ kvs, (Gram.afterMember st kvs).step .closeObj = some (Gram.complete st (.obj kvs)) := fun _ => rfl
  simp only [tokensWith, keyTokens, List.cons_append, List.nil_append]
  rw [Gram.foldlM_firstMember (isValue_bool _), Gram.foldlM_member (isValue_bool _), Gram.foldlM_member (isValue_str _),
    Gram.foldlM_member (isValue_str _), Gram.foldlM_member (isValue_str _), Gram.foldlM_member (isValue_nat _),
    Gram.foldlM_member (isValue_nat _), Gram.foldlM_member (isValue_str _), Gram.foldlM_member (isValue_nat _),
    Gram.foldlM_cons_of_eq (hclose _)]
  rfl

/-- The first item of the array. -/
theorem foldlM_firstItem (name path param ts : List Token) (st : List Frame) :
    (tokensWith env it name path param ++ ts).foldlM Gram.step (.firstElem st) =
      (tokensWith env it name path param ++ ts).foldlM Gram.step (.value (.arr [] :: st)) := by
  simp only [tokensWith, List.cons_append]
  rw [Gram.foldlM_firstElem]

theorem foldlM_tailTokens (h : ∀ it ∈ items, CleanItem it) (st : List Frame) (xs : List Value) :
    ∃ ts, tailTokens env items = some ts ∧ ∀ rest, (ts ++ rest).foldlM Gram.step (.afterElem st xs) =
      rest.foldlM Gram.step (.afterElem st (xs ++ items.map (itemValue env))) := by
  induction items generalizing xs with
  | nil => exact ⟨[], rfl, fun rest => by simp⟩
  | cons it items ih =>
    obtain ⟨hit, hitems⟩ := List.forall_mem_cons.mp h
    obtain ⟨ts, hts, hfold⟩ := ih hitems (xs ++ [itemValue env it])
    refine ⟨_, by rw [tailTokens, itemTokens_clean hit, hts]; rfl, fun rest => ?_⟩
    have hcomma : Gram.step (.afterElem st xs) .comma = some (.value (.arr xs :: st)) := rfl
    rw [List.cons_append, Gram.foldlM_cons_of_eq hcomma, List.append_assoc, foldlM_tokensWith, Gram.complete, hfold rest,
      List.append_assoc]
    rfl

theorem foldlM_listTokens (h : ∀ it ∈ items, CleanItem it) (st : List Frame) :
    ∃ ts, listTokens env items = some ts ∧ ∀ rest, (ts ++ Token.closeArr :: rest).foldlM Gram.step (.firstElem st) =
      rest.foldlM Gram.step (Gram.complete st (.arr (items.map (itemValue env)))) := by
  have hclose : ∀ xs, (Gram.afterElem st xs).step .closeArr = some (Gram.complete st (.arr xs)) := fun _ => rfl
  cases items with
  | nil =>
    have hempty : (Gram.firstElem st).step .closeArr = some (Gram.complete st (.arr [])) := rfl
    exact ⟨[], rfl, fun rest => Gram.foldlM_cons_of_eq hempty rest⟩
  | cons it items =>
    obtain ⟨hit, hitems⟩ := List.forall_mem_cons.mp h
    obtain ⟨ts, hts, hfold⟩ := foldlM_tailTokens hitems st [itemValue env it]
    refine ⟨_, by rw [listTokens, itemTokens_clean hit, hts]; rfl, fun rest => ?_⟩
    rw [List.append_assoc, foldlM_firstItem, foldlM_tokensWith, Gram.complete, List.nil_append, hfold,
      Gram.foldlM_cons_of_eq (hclose _), List.map_cons, List.singleton_append]

/-- What the parser makes of the published text. -/
theorem parse_clean (hguid : ∀ g, Clean (env.getAsString g)) (h : ∀ it ∈ items, CleanItem it) :
    parse (getAllAsJSON env items).toList =
      some (.obj [("drivers".toList, .arr (items.map (itemValue env)))]) := by
  obtain ⟨ts, hts, hfold⟩ := foldlM_listTokens h [.obj [] "drivers".toList]
  have hopen : (Gram.value []).step .openObj = some (.firstKey []) := rfl
  have hkey : (Gram.firstKey []).step (.str "drivers".toList) = some (.colon [] [] "drivers".toList) := rfl
  have hcolon : (Gram.colon [] [] "drivers".toList).step .colon = some (.value [.obj [] "drivers".toList]) := rfl
  have harr : (Gram.value [.obj [] "drivers".toList]).step .openArr = some (.firstElem [.obj [] "drivers".toList]) := rfl
  rw [parse, tokens_getAllAsJSON hguid, hts, Option.map_some, Option.bind_some]
  simp only [List.cons_append, List.nil_append]
  rw [Gram.foldlM_cons_of_eq hopen, Gram.foldlM_cons_of_eq hkey, Gram.foldlM_cons_of_eq hcolon,
    Gram.foldlM_cons_of_eq harr, hfold]
  rfl

theorem nat?_toDigits (n : Nat) : (Value.num (Nat.toDigits 10 n)).nat? = some n := by
  have hall : (Nat.toDigits 10 n).all Char.isDigit = true :=
    List.all_eq_true.mpr fun c hc => Nat.isDigit_of_mem_toDigits (by decide) (by decide) hc
  rw [Value.nat?, if_pos hall, Nat.ofDigitChars_ten_toDigits]

theorem string?_toList (s : String) : (Value.str s.toList).string? = some s := by
  rw [Value.string?, String.ofList_toList]

theorem decodeDriver_itemValue (it : CDeviceItem) : decodeDriver (itemValue env it) = some (it.info env) := by
  have henable : (itemValue env it).find? "enable" = some (.bool it.bEnable) := rfl
  have hactive : (itemValue env it).find? "active" = some (.bool it.bActive) := rfl
  have hname : (itemValue env it).find? "name" = some (.str it.strName.toList) := rfl
  have hpath : (itemValue env it).find? "path" = some (.str it.strPath.toList) := rfl
  have hparam : (itemValue env it).find? "param" = some (.str it.strParameter.toList) := rfl
  have hlevel : (itemValue env it).find? "level" = some (.num (Nat.toDigits 10 it.driverLevel.toNat)) := rfl
  have hflags : (itemValue env it).find? "flags" = some (.num (Nat.toDigits 10 it.deviceFlags.toNat)) := rfl
  have hguid : (itemValue env it).find? "guid" = some (.str (env.getAsString it.guid).toList) := rfl
  have htr : (itemValue env it).find? "translation" = some (.num (Nat.toDigits 10 it.translation.toNat)) := rfl
  rw [decodeDriver, henable, hactive, hname, hpath, hparam, hlevel, hflags, hguid, htr]
  simp only [Option.bind_eq_bind, Option.bind_some, Value.bool?, string?_toList, nat?_toDigits]
  rfl

theorem mapM_decodeDriver (items : List CDeviceItem) :
    (items.map (itemValue env)).mapM decodeDriver = some (items.map (·.info env)) := by
  induction items with
  | nil => rfl
  | cons it items ih =>
    rw [List.map_cons, List.mapM_cons, decodeDriver_itemValue, ih]
    rfl

theorem published_of_clean (hguid : ∀ g, Clean (env.getAsString g)) (h : ∀ it ∈ items, CleanItem it) :
    PublishedRight env items := by
  refine ⟨_, parse_clean hguid h, ?_⟩
  have hdrivers : (Value.obj [("drivers".toList, .arr (items.map (itemValue env)))]).find? "drivers" =
      some (.arr (items.map (itemValue env))) := rfl
  rw [decodeDrivers, hdrivers]
  exact mapM_decodeDriver items

/-! ## Strings that are not clean -/

def CDeviceItem.strings (it : CDeviceItem) : List String := [it.strName, it.strPath, it.strParameter]

theorem cleanItem_iff : CleanItem it ↔ ∀ f ∈ it.strings, Clean f := by
  simp only [CDeviceItem.strings, List.forall_mem_cons, List.not_mem_nil, false_implies, implies_true, and_true]
  exact ⟨fun h => ⟨h.name, h.path, h.param⟩, fun h => ⟨h.1, h.2.1, h.2.2⟩⟩

/-- A string token of an item is plain, or comes from one of its three strings. -/
theorem str_tokensWith {name path param : List Token} {s : List Char} (hguid : Clean (env.getAsString it.guid))
    (h : .str s ∈ tokensWith env it name path param) :
    (∀ c ∈ s, Plain c) ∨ .str s ∈ name ∨ .str s ∈ path ∨ .str s ∈ param := by
  have hkey : ∀ key ∈ ["enable", "active", "name", "path", "param", "level", "flags", "guid", "translation"],
      ∀ c ∈ key.toList, Plain c := by decide +kernel
  simp only [List.forall_mem_cons, List.not_mem_nil, false_implies, implies_true, and_true] at hkey
  obtain ⟨henable, hactive, hname, hpath, hparam, hlevel, hflags, hguidKey, htr⟩ := hkey
  simp only [tokensWith, keyTokens, boolToken, natToken, List.cons_append, List.nil_append, List.mem_append, List.mem_cons,
    List.not_mem_nil, Token.str.injEq, reduceCtorEq, false_or, or_false] at h
  obtain rfl | rfl | rfl | ((((((((hs | rfl) | hs) | rfl) | hs) | rfl) | rfl) | rfl) | rfl) | rfl := h
  · exact .inl henable
  · exact .inl hactive
  · exact .inl hname
  · exact .inr (.inl hs)
  · exact .inl hpath
  · exact .inr (.inr (.inl hs))
  · exact .inl hparam
  · exact .inr (.inr (.inr hs))
  · exact .inl hlevel
  · exact .inl hflags
  · exact .inl hguidKey
  · exact .inl hguid
  · exact .inl htr

theorem member_of_bind {α β : Type} {x : Value} {key : String} {get : Value → Option α} {k : α → Option β} {b : β}
    (h : ((x.find? key).bind fun v => (get v).bind k) = some b) :
    ∃ v a, x.find? key = some v ∧ get v = some a ∧ k a = some b := by
  obtain ⟨v, hv, h⟩ := Option.bind_eq_some_iff.mp h
  obtain ⟨a, ha, h⟩ := Option.bind_eq_some_iff.mp h
  exact ⟨v, a, hv, ha, h⟩

theorem eq_str_of_string? {v : Value} {s : String} (h : v.string? = some s) : v = .str s.toList := by
  cases v with
  | str t =>
    cases h
    rw [String.toList_ofList]
  | _ => cases h

/-- Each of the three strings of an item stands under a key of its element. -/
theorem decodeDriver_strings {x : Value} (h : decodeDriver x = some (it.info env)) :
    ∀ f ∈ it.strings, ∃ key, x.find? key = some (.str f.toList) := by
  obtain ⟨_, _, -, -, h⟩ := member_of_bind h
  obtain ⟨_, _, -, -, h⟩ := member_of_bind h
  obtain ⟨_, name, hname, hnameStr, h⟩ := member_of_bind h
  obtain ⟨_, path, hpath, hpathStr, h⟩ := member_of_bind h
  obtain ⟨_, param, hparam, hparamStr, h⟩ := member_of_bind h
  obtain ⟨_, _, -, -, h⟩ := member_of_bind h
  obtain ⟨_, _, -, -, h⟩ := member_of_bind h
  obtain ⟨_, _, -, -, h⟩ := member_of_bind h
  obtain ⟨_, _, -, -, h⟩ := member_of_bind h
  rw [eq_str_of_string? hnameStr] at hname
  rw [eq_str_of_string? hpathStr] at hpath
  rw [eq_str_of_string? hparamStr] at hparam
  cases h
  simp only [CDeviceItem.strings, List.forall_mem_cons, List.not_mem_nil, false_implies, implies_true, and_true]
  exact ⟨⟨_, hname⟩, ⟨_, hpath⟩, ⟨_, hparam⟩⟩

/-- A list with a longer element for each that meets `p` has none that does. -/
theorem not_of_ascent {α : Type} {l : List α} {p : α → Prop} (len : α → Nat)
    (h : ∀ a ∈ l, p a → ∃ b ∈ l, p b ∧ len a < len b) : ∀ a ∈ l, ¬ p a := by
  obtain ⟨bound, hbound⟩ : ∃ bound, ∀ a ∈ l, len a ≤ bound :=
    ⟨(l.map len).sum, fun a ha => List.single_le_sum (fun n _ => Nat.zero_le n) _ (List.mem_map_of_mem ha)⟩
  have hnone : ∀ n, ∀ a ∈ l, p a → bound < len a + n → False := by
    intro n
    induction n with
    | zero =>
      intro a ha _ hlt
      have hle := hbound a ha
      omega
    | succ n ih =>
      intro a ha hp hlt
      obtain ⟨b, hb, hpb, hab⟩ := h a ha hp
      exact ih b hb hpb (by omega)
  exact fun a ha hp => hnone (bound + 1) a ha hp (by omega)

/-- A string token of the published text that is not plain is shorter than some string that is not clean. -/
theorem longer_of_itemTokens {ts : List Token} {s : List Char} (hguid : Clean (env.getAsString it.guid))
    (hts : itemTokens env it = some ts) (hs : .str s ∈ ts) (hplain : ¬ ∀ c ∈ s, Plain c) :
    ∃ f ∈ it.strings, ¬ Clean f ∧ s.length < f.toList.length := by
  have hlonger : ∀ {f : String} {a : List Token}, quoted (c_str f).toList = some a → .str s ∈ a →
      ¬ Clean f ∧ s.length < f.toList.length := by
    intro f a ha hsa
    have hclean : ¬ Clean f := by
      intro hf
      rw [c_str_of_clean hf, quoted_plain hf, Option.some.injEq] at ha
      subst ha
      rw [List.mem_singleton, Token.str.injEq] at hsa
      exact hplain (hsa ▸ hf)
    obtain hlt | ⟨rfl, hf⟩ := quoted_strings ha hsa
    · refine ⟨hclean, Nat.lt_of_lt_of_le hlt ?_⟩
      rw [c_str, String.toList_ofList]
      exact (List.takeWhile_prefix _).length_le
    · exact absurd hf hplain
  obtain ⟨name, hname, hts⟩ := Option.bind_eq_some_iff.mp hts
  obtain ⟨path, hpath, hts⟩ := Option.bind_eq_some_iff.mp hts
  obtain ⟨param, hparam, rfl⟩ := Option.map_eq_some_iff.mp hts
  obtain hs | hs | hs | hs := str_tokensWith hguid hs
  · exact absurd hs hplain
  · exact ⟨it.strName, by simp [CDeviceItem.strings], hlonger hname hs⟩
  · exact ⟨it.strPath, by simp [CDeviceItem.strings], hlonger hpath hs⟩
  · exact ⟨it.strParameter, by simp [CDeviceItem.strings], hlonger hparam hs⟩

theorem longer_of_tailTokens {ts : List Token} {s : List Char} (hguid : ∀ g, Clean (env.getAsString g))
    (hts : tailTokens env items = some ts) (hs : .str s ∈ ts) (hplain : ¬ ∀ c ∈ s, Plain c) :
    ∃ it ∈ items, ∃ f ∈ it.strings, ¬ Clean f ∧ s.length < f.toList.length := by
  induction items generalizing ts with
  | nil =>
    cases hts
    cases hs
  | cons it items ih =>
    obtain ⟨a, ha, hts⟩ := Option.bind_eq_some_iff.mp hts
    obtain ⟨b, hb, rfl⟩ := Option.map_eq_some_iff.mp hts
    simp only [List.mem_cons, List.mem_append, reduceCtorEq, false_or] at hs
    obtain hs | hs := hs
    · exact ⟨it, List.mem_cons_self, longer_of_itemTokens (hguid _) ha hs hplain⟩
    · obtain ⟨it', hit', hf⟩ := ih hb hs
      exact ⟨it', List.mem_cons_of_mem it hit', hf⟩

theorem longer_of_listTokens {ts : List Token} {s : List Char} (hguid : ∀ g, Clean (env.getAsString g))
    (hts : listTokens env items = some ts) (hs : .str s ∈ ts) (hplain : ¬ ∀ c ∈ s, Plain c) :
    ∃ it ∈ items, ∃ f ∈ it.strings, ¬ Clean f ∧ s.length < f.toList.length := by
  cases items with
  | nil =>
    cases hts
    cases hs
  | cons it items =>
    obtain ⟨a, ha, hts⟩ := Option.bind_eq_some_iff.mp hts
    obtain ⟨b, hb, rfl⟩ := Option.map_eq_some_iff.mp hts
    obtain hs | hs := List.mem_append.mp hs
    · exact ⟨it, List.mem_cons_self, longer_of_itemTokens (hguid _) ha hs hplain⟩
    · obtain ⟨it', hit', hf⟩ := longer_of_tailTokens hguid hb hs hplain
      exact ⟨it', List.mem_cons_of_mem it hit', hf⟩

theorem mem_mapM {α β : Type} {g : α → Option β} {xs : List α} {ys : List β} (h : xs.mapM g = some ys) :
    ∀ y ∈ ys, ∃ x ∈ xs, g x = some y := by
  induction xs generalizing ys with
  | nil =>
    cases h
    exact fun y hy => absurd hy List.not_mem_nil
  | cons x xs ih =>
    rw [List.mapM_cons] at h
    obtain ⟨y, hy, h⟩ := Option.bind_eq_some_iff.mp h
    obtain ⟨ys', hys, h⟩ := Option.bind_eq_some_iff.mp h
    cases h
    intro z hz
    obtain rfl | hz := List.mem_cons.mp hz
    · exact ⟨x, List.mem_cons_self, hy⟩
    · obtain ⟨x', hx', hgx⟩ := ih hys z hz
      exact ⟨x', List.mem_cons_of_mem x hx', hgx⟩

/-- A string that the published list gives back is one of the text's tokens. -/
theorem token_of_published (h : PublishedRight env items) :
    ∃ ts, tokens (getAllAsJSON env items).toList = some ts ∧
      ∀ it ∈ items, ∀ f ∈ it.strings, .str f.toList ∈ ts := by
  obtain ⟨v, hparse, hdecode⟩ := h
  obtain ⟨ts, hts, hwithin⟩ := parse_within hparse
  refine ⟨ts, hts, fun it hit f hf => ?_⟩
  unfold decodeDrivers at hdecode
  split at hdecode
  · next xs hxs =>
    obtain ⟨x, hx, hdriver⟩ := mem_mapM hdecode (it.info env) (List.mem_map_of_mem hit)
    obtain ⟨key, hkey⟩ := decodeDriver_strings hdriver f hf
    have hxsWithin := hwithin.find? hxs
    cases hxsWithin with
    | arr hall =>
      have hstr := (hall x hx).find? hkey
      cases hstr with
      | str hs => exact hs
  · cases hdecode

theorem clean_of_published (hguid : ∀ g, Clean (env.getAsString g)) (h : PublishedRight env items) :
    ∀ it ∈ items, CleanItem it := by
  obtain ⟨ts, hts, htoken⟩ := token_of_published h
  have hascent : ∀ f ∈ items.flatMap CDeviceItem.strings, ¬ Clean f →
      ∃ g ∈ items.flatMap CDeviceItem.strings, ¬ Clean g ∧ f.toList.length < g.toList.length := by
    intro f hf hclean
    obtain ⟨it, hit, hf⟩ := List.mem_flatMap.mp hf
    rw [tokens_getAllAsJSON hguid] at hts
    obtain ⟨body, hbody, rfl⟩ := Option.map_eq_some_iff.mp hts
    have hmem := htoken it hit f hf
    simp only [List.mem_append, List.mem_cons, List.not_mem_nil, Token.str.injEq, reduceCtorEq, false_or, or_false] at hmem
    obtain hdrivers | hbodyMem := hmem
    · have hplain : ∀ c ∈ "drivers".toList, Plain c := by decide +kernel
      have hf : Clean f := by
        unfold Clean
        rw [hdrivers]
        exact hplain
      exact absurd hf hclean
    · obtain ⟨it', hit', g, hg, hlonger⟩ := longer_of_listTokens hguid hbody hbodyMem hclean
      exact ⟨g, List.mem_flatMap.mpr ⟨it', hit', hg⟩, hlonger⟩
  intro it hit
  refine cleanItem_iff.mpr fun f hf => not_not.mp ?_
  exact not_of_ascent (fun f => f.toList.length) hascent f (List.mem_flatMap.mpr ⟨it, hit, hf⟩)

/-- **When the published driver list is right**: the text of `getAllAsJSON` is one
JSON object with an element for every item, in order, that gives back the item's
values, exactly when no name, path or parameter string has a quote, a backslash or
a control character. -/
theorem driver_list_published_iff (hguid : ∀ g, Clean (env.getAsString g)) (items : List CDeviceItem) :
    PublishedRight env items ↔ ∀ it ∈ items, CleanItem it :=
  ⟨clean_of_published hguid, published_of_clean hguid⟩

theorem clean_bareEnvironment : ∀ g, Clean (bareEnvironment.getAsString g) := by
  have hclean : Clean "00:00:00:00:00:00:00:00:00:00:00:00:00:00:00:00" := by
    unfold Clean
    decide +kernel
  exact fun _ => hclean

/-- A driver under a Windows path. -/
theorem not_published_windowsPath :
    ¬ PublishedRight bareEnvironment [{ bEnable := true, strName := "can", strPath := "C:\\vscp\\can.dll" }] := by
  intro h
  have hclean := (clean_of_published clean_bareEnvironment h _ (List.mem_singleton_self _)).path
  unfold Clean at hclean
  revert hclean
  decide +kernel

/-- Two drivers under Unix paths. -/
theorem driver_list_published_twoDrivers :
    PublishedRight bareEnvironment
      [{ bEnable := true, strName := "can", strPath := "/var/lib/vscp/can.so", driverLevel := VSCP_DRIVER_LEVEL1 },
        { strName := "logger", strPath := "/var/lib/vscp/logger.so", driverLevel := VSCP_DRIVER_LEVEL2 }] := by
  refine (driver_list_published_iff clean_bareEnvironment _).mpr fun it hit => cleanItem_iff.mpr ?_
  simp only [List.mem_cons, List.not_mem_nil, or_false] at hit
  unfold Clean
  obtain rfl | rfl := hit <;> decide +kernel

end MqttVscpd
