/-
The driver list as lines of text: what `CDeviceList::getAllAsString` writes, and
what is read back when the lines are split at CR LF and the fields at commas.
-/
import MqttVscpd.DriverList
import MqttVscpd.Lib.Records

namespace MqttVscpd

open Records

/-! ## The text -/

/-- `"%04X"` -/
def hex04 (n : Nat) : String :=
  let digits := (Nat.toDigits 16 n).map Char.toUpper
  String.ofList (List.replicate (4 - digits.length) '0' ++ digits)

/-- `CDeviceItem::getAsString` -/
def CDeviceItem.getAsString (env : Environment) (it : CDeviceItem) : String :=
  let str := if it.bEnable then "true," else "false,"
  let str := str ++ if it.bActive then "true," else "false,"
  let str := str ++ (it.strName ++ ",")
  let str := str ++ (it.strPath ++ ",")
  let str := str ++ (it.strParameter ++ ",")
  -- The format is `"%d,%ul,"`: `%u`, and an `l` of its own.
  let str := str ++ (toString it.driverLevel.toNat ++ "," ++ toString it.deviceFlags.toNat ++ "l,")
  let str := str ++ (env.getAsString it.guid ++ ",")
  str ++ hex04 it.translation.toNat

/-- `CDeviceList::getAllAsString` -/
def getAllAsString (env : Environment) (items : List CDeviceItem) : String :=
  items.foldl (fun str it => str ++ (it.getAsString env ++ "\r\n")) ""

example : CDeviceItem.getAsString bareEnvironment
      { strName := "can", strPath := "/lib/can.so", strParameter := "can0;0" } =
    "false,true,can,/lib/can.so,can0;0,0,0l,00:00:00:00:00:00:00:00:00:00:00:00:00:00:00:00,0000" := by
  decide +kernel

/-! ## What it is to say -/

def readBool : List Char → Option Bool
  | ['t', 'r', 'u', 'e'] => some true
  | ['f', 'a', 'l', 's', 'e'] => some false
  | _ => none

/-- A line of the nine fields enable, active, name, path, parameter, level, flags, GUID and
translation, its flags read by `readFlags`. -/
def readLine (readFlags : List Char → Option Nat) (line : List Char) : Option DriverInfo :=
  match line.splitOn ',' with
  | [enable, active, name, path, param, level, flags, guid, translation] => do
    let enable ← readBool enable
    let active ← readBool active
    let level ← numeral? 10 level
    let flags ← readFlags flags
    let translation ← numeral? 16 translation
    return { enable, active, name := String.ofList name, path := String.ofList path,
             param := String.ofList param, level, flags, guid := String.ofList guid, translation }
  | _ => none

/-- A line for every item, in order, that gives back the item's values. -/
def ReadsBack (env : Environment) (readFlags : List Char → Option Nat) (items : List CDeviceItem) : Prop :=
  (records '\r' '\n' (getAllAsString env items).toList).mapM (readLine readFlags) = some (items.map (·.info env))

/-- A character that separates nothing. -/
def FieldChar (c : Char) : Prop := c ≠ ',' ∧ c ≠ '\r' ∧ c ≠ '\n'

/-- A text with no comma, CR or LF. -/
def FieldText (s : String) : Prop := ∀ c ∈ s.toList, FieldChar c

instance (c : Char) : Decidable (FieldChar c) := inferInstanceAs (Decidable (_ ∧ _))

instance (s : String) : Decidable (FieldText s) := List.decidableBAll FieldChar s.toList

structure FieldItem (it : CDeviceItem) : Prop where
  name : FieldText it.strName
  path : FieldText it.strPath
  param : FieldText it.strParameter

/-! ## The fields -/

variable {env : Environment} {it : CDeviceItem} {items : List CDeviceItem}

def decimal (n : Nat) : List Char := Nat.toDigits 10 n

def boolText (b : Bool) : List Char := if b then "true".toList else "false".toList

/-- The fields of an item's line. -/
def fields (env : Environment) (it : CDeviceItem) : List (List Char) :=
  [boolText it.bEnable, boolText it.bActive, it.strName.toList, it.strPath.toList, it.strParameter.toList,
    decimal it.driverLevel.toNat, decimal it.deviceFlags.toNat ++ ['l'], (env.getAsString it.guid).toList,
    (hex04 it.translation.toNat).toList]

theorem getAsString_eq (env : Environment) (it : CDeviceItem) :
    (it.getAsString env).toList = [','].intercalate (fields env it) := by
  have hdecimal : ∀ n : Nat, (toString n).toList = decimal n := fun n => by
    rw [Nat.toString_eq_ofList_toDigits, String.toList_ofList, decimal]
  have hbool : ∀ b : Bool, (if b then "true," else "false,").toList = boolText b ++ [','] := by decide +kernel
  simp only [CDeviceItem.getAsString, fields, String.toList_append, hdecimal, hbool]
  simp [List.intercalate, List.intersperse]

theorem numeral?_decimal (n : Nat) : numeral? 10 (decimal n) = some n := by
  have h := numeral?_toDigits (f := id) digit?_digitChar (by decide : 1 < 10) (by decide) 0 n
  rwa [List.map_id] at h

theorem numeral?_hex04 (n : Nat) : numeral? 16 (hex04 n).toList = some n := by
  rw [hex04, String.toList_ofList]
  exact numeral?_toDigits digit?_toUpper (by decide) (by decide) _ n

/-- What a numeral reads as a number has no character that is no digit. -/
theorem not_mem_numeral {base n : Nat} {cs : List Char} {c : Char} (h : numeral? base cs = some n)
    (hc : digit? c = none) : c ∉ cs := by
  intro hmem
  rw [numeral?_eq_none hmem hc] at h
  cases h

/-- No field of an item has a separator in it. -/
theorem separator_not_mem_fields (hguid : FieldText (env.getAsString it.guid)) (h : FieldItem it) :
    ∀ f ∈ fields env it, ',' ∉ f ∧ '\r' ∉ f := by
  have hbool : ∀ b : Bool, ',' ∉ boolText b ∧ '\r' ∉ boolText b := by decide +kernel
  have hstring : ∀ s : String, FieldText s → ',' ∉ s.toList ∧ '\r' ∉ s.toList :=
    fun s hs => ⟨fun hc => (hs _ hc).1 rfl, fun hc => (hs _ hc).2.1 rfl⟩
  have hnumeral : ∀ {base n : Nat} {cs : List Char}, numeral? base cs = some n → ',' ∉ cs ∧ '\r' ∉ cs :=
    fun hn => ⟨not_mem_numeral hn (by decide), not_mem_numeral hn (by decide)⟩
  have hflags : ',' ∉ decimal it.deviceFlags.toNat ++ ['l'] ∧ '\r' ∉ decimal it.deviceFlags.toNat ++ ['l'] := by
    obtain ⟨hcomma, hcr⟩ := hnumeral (numeral?_decimal it.deviceFlags.toNat)
    simp [hcomma, hcr]
  simp only [fields, List.forall_mem_cons]
  exact ⟨hbool _, hbool _, hstring _ h.name, hstring _ h.path, hstring _ h.param, hnumeral (numeral?_decimal _), hflags,
    hstring _ hguid, hnumeral (numeral?_hex04 _), by simp⟩

/-- A line splits into its nine fields. -/
theorem splitOn_getAsString (hguid : FieldText (env.getAsString it.guid)) (h : FieldItem it) :
    (it.getAsString env).toList.splitOn ',' = fields env it := by
  rw [getAsString_eq]
  exact List.splitOn_intercalate ',' (fun f hf => (separator_not_mem_fields hguid h f hf).1) (by simp [fields])

theorem cr_not_mem_getAsString (hguid : FieldText (env.getAsString it.guid)) (h : FieldItem it) :
    '\r' ∉ (it.getAsString env).toList := by
  rw [getAsString_eq]
  exact not_mem_intercalate (by decide) fun f hf => (separator_not_mem_fields hguid h f hf).2

/-! ## The lines -/

theorem getAllAsString_eq (env : Environment) (items : List CDeviceItem) :
    (getAllAsString env items).toList =
      (items.map fun it => (it.getAsString env).toList).flatMap (· ++ ['\r', '\n']) := by
  have hfold : ∀ str : String, (items.foldl (fun str it => str ++ (it.getAsString env ++ "\r\n")) str).toList =
      str.toList ++ (items.map fun it => (it.getAsString env).toList).flatMap (· ++ ['\r', '\n']) := by
    induction items with
    | nil => simp
    | cons it items ih =>
      intro str
      rw [List.foldl_cons, ih]
      simp [String.toList_append]
  rw [getAllAsString, hfold]
  rfl

/-- The text splits into a line for each item, in order. -/
theorem records_getAllAsString (hguid : ∀ g, FieldText (env.getAsString g)) (h : ∀ it ∈ items, FieldItem it) :
    records '\r' '\n' (getAllAsString env items).toList = items.map fun it => (it.getAsString env).toList := by
  rw [getAllAsString_eq]
  refine records_flatMap fun r hr => ?_
  obtain ⟨it, hit, rfl⟩ := List.mem_map.mp hr
  exact cr_not_mem_getAsString (hguid _) (h it hit)

/-- A line is read as its item, when its flags are read as something. -/
theorem readLine_getAsString (readFlags : List Char → Option Nat) (hguid : FieldText (env.getAsString it.guid))
    (h : FieldItem it) : readLine readFlags (it.getAsString env).toList =
      (readFlags (decimal it.deviceFlags.toNat ++ ['l'])).map fun flags => { it.info env with flags } := by
  have hbool : ∀ b : Bool, readBool (boolText b) = some b := by decide
  rw [readLine, splitOn_getAsString hguid h, fields]
  simp only [hbool, numeral?_decimal, numeral?_hex04, Option.bind_eq_bind, Option.bind_some, String.ofList_toList]
  cases readFlags (decimal it.deviceFlags.toNat ++ ['l']) <;> rfl

/-- The flags with the `l` that follows them are no numeral. -/
theorem numeral?_stray (base n : Nat) : numeral? base (decimal n ++ ['l']) = none :=
  numeral?_eq_none (List.mem_append_right _ List.mem_cons_self) (by decide)

/-- A decimal numeral and an `l`. -/
def readStray (cs : List Char) : Option Nat := if cs.getLast? = some 'l' then numeral? 10 cs.dropLast else none

/-- Reading the flags with their `l`, the list reads back: it is the `l` alone that is wrong. -/
theorem readsBack_stray (hguid : ∀ g, FieldText (env.getAsString g)) (h : ∀ it ∈ items, FieldItem it) :
    ReadsBack env readStray items := by
  have hstray : ∀ n, readStray (decimal n ++ ['l']) = some n := fun n => by
    rw [readStray, if_pos (by simp), List.dropLast_concat, numeral?_decimal]
  rw [ReadsBack, records_getAllAsString hguid h]
  induction items with
  | nil => rfl
  | cons it items ih =>
    obtain ⟨hit, hitems⟩ := List.forall_mem_cons.mp h
    rw [List.map_cons, List.mapM_cons, readLine_getAsString _ (hguid _) hit, hstray, ih hitems]
    rfl

/-- **When the textual driver list can be read back**: when it is empty. Every item's
flags end in an `l` that is part of no numeral. -/
theorem readsBack_iff (hguid : ∀ g, FieldText (env.getAsString g)) (h : ∀ it ∈ items, FieldItem it) :
    ReadsBack env (numeral? 10) items ↔ items = [] := by
  rw [ReadsBack, records_getAllAsString hguid h]
  cases items with
  | nil => exact iff_of_true rfl rfl
  | cons it items =>
    obtain ⟨hit, -⟩ := List.forall_mem_cons.mp h
    have hline : readLine (numeral? 10) (it.getAsString env).toList = none := by
      rw [readLine_getAsString _ (hguid _) hit, numeral?_stray, Option.map_none]
    rw [List.map_cons, List.mapM_cons, hline]
    simp

/-! ## One driver -/

def canDriver : CDeviceItem :=
  { bEnable := true, strName := "can", strPath := "/var/lib/vscp/can.so", strParameter := "can0;0;0", driverLevel := 1,
    translation := 2 }

theorem not_readsBack_canDriver : ¬ ReadsBack bareEnvironment (numeral? 10) [canDriver] := by
  intro h
  have hnone : ((records '\r' '\n' (getAllAsString bareEnvironment [canDriver]).toList).mapM
      (readLine (numeral? 10))).isSome = false := by decide +kernel
  rw [ReadsBack] at h
  rw [h] at hnone
  cases hnone

theorem field_bareEnvironment : ∀ g, FieldText (bareEnvironment.getAsString g) := by
  have hfield : FieldText "00:00:00:00:00:00:00:00:00:00:00:00:00:00:00:00" := by decide +kernel
  exact fun _ => hfield

theorem field_canDriver : FieldItem canDriver := by
  constructor <;> decide +kernel

theorem readsBack_empty : ReadsBack bareEnvironment (numeral? 10) [] ∧
    ¬ ReadsBack bareEnvironment (numeral? 10) [canDriver] := by
  refine ⟨(readsBack_iff field_bareEnvironment (by simp)).mpr rfl, fun h => ?_⟩
  have hempty := (readsBack_iff field_bareEnvironment fun it hit => List.eq_of_mem_singleton hit ▸ field_canDriver).mp h
  cases hempty

end MqttVscpd
