/-
What the drivers are configured with: the items `readJSON` leaves in the device
list, against the entries of the two driver blocks.
-/
import MqttVscpd.Lib.Attach
import MqttVscpd.ReadJsonFrame

namespace MqttVscpd

open Trying

/-- The string under a key. -/
def Json.string? (j : Json) (key : String) : Option String :=
  match j.find? key with
  | some (.str s) => some s
  | _ => none

/-- The object under a key. -/
def Json.object? (j : Json) (key : String) : Option Json := (j.find? key).filter Json.isObject

theorem string?_eq_some {j : Json} {key s : String} : j.string? key = some s ↔ j.find? key = some (.str s) := by
  unfold Json.string?
  split
  · next h => rw [h, Option.some.injEq, Option.some.injEq, Json.str.injEq]
  · next h => simpa using h s

theorem object?_eq_some {j v : Json} {key : String} : j.object? key = some v ↔ ObjectUnder j key v := by
  rw [Json.object?, Option.filter_eq_some_iff, ObjectUnder]

/-! ## Entries and what they give -/

inductive DriverLevel where
  | level1
  | level2

namespace DriverLevel

def number : DriverLevel → UInt8
  | .level1 => VSCP_DRIVER_LEVEL1
  | .level2 => VSCP_DRIVER_LEVEL2

def configKey : DriverLevel → String
  | .level1 => "config"
  | .level2 => "path-config"

def pathKey : DriverLevel → String
  | .level1 => "path"
  | .level2 => "path-driver"

end DriverLevel

/-- An entry of a driver block. -/
structure DriverEntry where
  level : DriverLevel
  it : Json

/-- The part of a device item that its entry decides. -/
structure DriverConfig where
  name : String
  parameter : String
  path : String
  guid : Guid
  level : UInt8
  flags : UInt32
  translation : UInt32
  mqttConfig : Json := .null
  /-- What `initFromJson` of its MQTT client was given. -/
  inits : List Json := []

def CDeviceItem.config (it : CDeviceItem) : DriverConfig where
  name := it.strName
  parameter := it.strParameter
  path := it.strPath
  guid := it.guid
  level := it.driverLevel
  flags := it.deviceFlags
  translation := it.translation
  mqttConfig := it.mqttConfig
  inits := it.mqttClient.inits

def DriverConfig.setMqtt (mqtt : Json) (d : DriverConfig) : DriverConfig :=
  { d with mqttConfig := mqtt, inits := d.inits ++ [mqtt] }

def configs (c : ControlObject) : List DriverConfig := c.devItemList.map (·.config)

namespace DriverEntry

def enabled (e : DriverEntry) : Bool :=
  match e.it.find? "enable" with
  | some (.bool b) => b
  | _ => false

/-- The entry is enabled and has its required fields. -/
def complete (e : DriverEntry) : Bool :=
  e.enabled && (e.it.string? "name").isSome && (e.it.string? e.level.configKey).isSome &&
    (e.it.string? e.level.pathKey).isSome && (e.it.string? "guid").isSome &&
    match e.level with
    | .level1 => ((e.it.find? "translation").getD .null).isNumber
    | .level2 => true

/-- The entry is complete, and there is a driver at its path. -/
def accepted (env : Environment) (e : DriverEntry) : Bool :=
  e.complete && (e.it.string? e.level.pathKey).any env.fileExists

def string (e : DriverEntry) (key : String) : String := (e.it.string? key).getD ""

/-- What `addItem` is given for the entry. -/
def given (env : Environment) (e : DriverEntry) : DriverConfig where
  name := e.string "name"
  parameter := e.string e.level.configKey
  path := e.string e.level.pathKey
  guid := env.getFromString Guid.nil (e.string "guid")
  level := e.level.number
  flags :=
    match e.level with
    | .level1 => (readFlags env e.it).toOption.getD 0
    | .level2 => 0
  translation :=
    match e.level with
    | .level1 => (((e.it.find? "translation").getD .null).getUInt8.toOption.getD 0).toUInt32
    | .level2 => NO_TRANSLATION

end DriverEntry

/-- Entries, their items' configurations, and the MQTT blocks. -/
def placing (env : Environment) : Attach.Placing DriverEntry DriverConfig Json String where
  base := DriverEntry.given env
  block e := e.it.object? "mqtt"
  put := DriverConfig.setMqtt
  key := DriverConfig.name
  key_put _ _ := rfl

variable {env : Environment} {e : DriverEntry} {c c' : ControlObject}

/-! ## One entry -/

def readDriver (env : Environment) : DriverLevel → Json → Ctl Bool
  | .level1 => readLevel1Driver env
  | .level2 => readLevel2Driver env

def accepts : DriverLevel → Json → Except Failure Bool
  | .level1 => acceptsLevel1
  | .level2 => acceptsLevel2

theorem stringAt_eq (ho : e.it.isObject = true) (key : String) :
    stringAt e.it key = .ok (e.it.string? key).isSome := by
  unfold stringAt Json.string?
  rw [Json.entry_of_isObject ho]
  cases e.it.find? key with
  | none => rfl
  | some v => cases v <;> rfl

theorem getStringAt_eq (ho : e.it.isObject = true) {key : String} (h : (e.it.string? key).isSome) :
    getStringAt e.it key = .ok (e.string key) := by
  obtain ⟨s, hs⟩ := Option.isSome_iff_exists.mp h
  unfold getStringAt DriverEntry.string
  rw [Json.entry_of_isObject ho, hs, string?_eq_some.mp hs]
  rfl

theorem valueBool_eq (hr : EntryRead e.it) : e.it.valueBool "enable" false = .ok e.enabled := by
  obtain ⟨ho, henable⟩ := hr
  unfold DriverEntry.enabled
  cases hit : e.it with
  | obj kvs =>
    rw [hit] at henable
    cases hf : kvs.lookup "enable" with
    | none => simp only [Json.valueBool, Json.find?, hf]
    | some v =>
      have hb := henable v hf
      cases v with
      | bool b => simp only [Json.valueBool, Json.find?, hf, Json.getBool]
      | _ => cases hb
  | _ => rw [hit] at ho; cases ho

theorem andM_eq {x y : Except Failure Bool} {a b : Bool} (hx : x = .ok a) (hy : y = .ok b) :
    (x <&&> y) = .ok (a && b) := by
  subst hx hy
  cases a <;> rfl

theorem accepts_eq (hr : EntryRead e.it) : accepts e.level e.it = .ok e.complete := by
  have hs := stringAt_eq hr.1
  unfold DriverEntry.complete
  simp only [Bool.and_assoc]
  cases e.level with
  | level1 =>
    refine andM_eq (valueBool_eq hr) (andM_eq (hs _) (andM_eq (hs _) (andM_eq (hs _) (andM_eq (hs _) ?_))))
    rw [Json.entry_of_isObject hr.1]
    rfl
  | level2 =>
    simp only [Bool.and_true]
    exact andM_eq (valueBool_eq hr) (andM_eq (hs _) (andM_eq (hs _) (andM_eq (hs _) (hs _))))

/-- A complete entry has the strings it needs. -/
theorem isSome_of_complete (h : e.complete = true) {key : String}
    (hkey : key ∈ ["name", e.level.configKey, e.level.pathKey, "guid"]) : (e.it.string? key).isSome := by
  simp only [DriverEntry.complete, Bool.and_eq_true] at h
  simp only [List.mem_cons, List.not_mem_nil, or_false] at hkey
  obtain rfl | rfl | rfl | rfl := hkey
  · exact h.1.1.1.1.2
  · exact h.1.1.1.2
  · exact h.1.1.2
  · exact h.1.2

/-! ## The list after one entry -/

/-- `addItem` for an entry. -/
def addGiven (env : Environment) (e : DriverEntry) : Ctl Bool :=
  addItem env (e.given env).name (e.given env).parameter (e.given env).path (e.given env).flags (e.given env).guid
    (e.given env).level (e.given env).translation

theorem configs_addGiven (e : DriverEntry) (c : ControlObject) :
    configs (exec (addGiven env e) c).2 =
      if env.fileExists (e.given env).path then configs c ++ [e.given env] else configs c := by
  unfold addGiven addItem
  rw [exec_bind_of_ok (exec_log ..), exec_bind_of_ok (exec_log ..)]
  cases env.fileExists (e.given env).path with
  | true =>
    rw [if_pos rfl, if_pos rfl, exec_bind_of_ok (exec_log ..), exec_bind_of_ok (exec_modify ..), exec_pure]
    simp only [configs, List.map_append, List.map_singleton]
    rfl
  | false =>
    rw [if_neg Bool.false_ne_true, if_neg Bool.false_ne_true, exec_bind_of_ok (exec_log ..), exec_pure]
    rfl

/-- `setMqtt` on the first item of a name, as the configurations see it. -/
theorem map_config_modifyFirst (name : String) (m : Json) (items : List CDeviceItem) :
    (Attach.modifyFirst (fun it => it.strName = name) (·.setMqtt m) items).map (·.config) =
      Attach.modifyFirst (fun d => d.name = name) (DriverConfig.setMqtt m) (items.map (·.config)) := by
  refine Attach.map_modifyFirst_comm ?_ ?_ items
  · intro it
    rfl
  · intro it
    rfl

theorem modifyFirst_of_found {name : String} {i : Nat} {items : List CDeviceItem} (m : Json)
    (hi : getDeviceItemFromName items name = some i) :
    Attach.modifyFirst (fun it => it.strName = name) (·.setMqtt m) items = items.modify i (·.setMqtt m) := by
  unfold getDeviceItemFromName at hi
  rw [Attach.modifyFirst, hi]

theorem modifyFirst_of_not_found {name : String} {items : List CDeviceItem} (m : Json)
    (hi : getDeviceItemFromName items name = none) :
    Attach.modifyFirst (fun it => it.strName = name) (·.setMqtt m) items = items := by
  unfold getDeviceItemFromName at hi
  rw [Attach.modifyFirst, hi]

variable {level : String} {report : Ctl Unit}

theorem configs_readDriverMqtt {it : Json} {name : String} (ho : it.isObject = true)
    (hname : getStringAt it "name" = .ok name) (hreport : ∀ c, configs (exec report c).2 = configs c)
    (h : exec (readDriverMqtt env it level report) c = (.ok true, c')) :
    configs c' = match it.object? "mqtt" with
      | none => configs c
      | some m => Attach.modifyFirst (fun d => d.name = name) (DriverConfig.setMqtt m) (configs c) := by
  unfold readDriverMqtt at h
  cases hm : it.object? "mqtt" with
  | none =>
    have hno : ∀ m, ¬ ObjectUnder it "mqtt" m := by
      intro m hobj
      rw [object?_eq_some.mpr hobj] at hm
      cases hm
    rw [exec_lift_bind (objectAt_of_not ho hno)] at h
    cases h
    rfl
  | some m =>
    have hobj := object?_eq_some.mp hm
    have hentry : it.entry "mqtt" = .ok m := by
      rw [Json.entry_of_isObject ho, hobj.1]
      rfl
    rw [exec_lift_bind (objectAt_of_objectUnder hobj)] at h
    simp only [Bool.not_true, Bool.false_eq_true, if_false] at h
    rw [exec_lift_bind hname, exec_get_bind] at h
    simp only [configs, ← map_config_modifyFirst]
    cases hi : getDeviceItemFromName c.devItemList name with
    | none =>
      rw [hi] at h
      cases h
      rw [modifyFirst_of_not_found m hi]
    | some i =>
      rw [hi, exec_lift_bind hentry, exec_bind_of_ok (exec_modify ..)] at h
      obtain ⟨⟨⟩, c₁, hrep, h⟩ := exec_bind_ok h
      have hc₁ := hreport { c with devItemList := c.devItemList.modify i (·.setMqtt m) }
      rw [hrep] at hc₁
      rw [modifyFirst_of_found m hi]
      cases hinit : env.initFromJson m with
      | true =>
        rw [hinit] at h
        cases h
        exact hc₁
      | false =>
        rw [hinit] at h
        cases h

theorem ends_addGiven (e : DriverEntry) : Ends (addGiven env e) (.ok (env.fileExists (e.given env).path)) := ends_addItem

theorem configs_addDriver {added : String} (ho : e.it.isObject = true)
    (hname : getStringAt e.it "name" = .ok (e.given env).name) (hreport : ∀ c, configs (exec report c).2 = configs c)
    (h : exec (addDriver env e.it level (e.given env).name (e.given env).path added (addGiven env e) report) c =
      (.ok true, c')) :
    configs c' = if env.fileExists (e.given env).path then (placing env).place (configs c) e else configs c := by
  have hadd : configs (exec (addGiven env e) c).2 = _ := configs_addGiven e c
  unfold addDriver at h
  rw [exec_bind_of_ok ((ends_addGiven e).exec_eq c)] at h
  cases hp : env.fileExists (e.given env).path with
  | false =>
    rw [hp] at h hadd
    cases h
    exact hadd
  | true =>
    rw [hp, if_pos rfl] at hadd
    rw [hp] at h
    simp only [Bool.not_true, Bool.false_eq_true, if_false] at h
    rw [exec_bind_of_ok (exec_log ..)] at h
    have hmqtt := configs_readDriverMqtt ho hname hreport h
    rw [if_pos rfl]
    cases hm : e.it.object? "mqtt" with
    | none =>
      rw [hm] at hmqtt
      rw [Attach.place_of_none hm]
      exact hmqtt.trans hadd
    | some m =>
      rw [hm] at hmqtt
      rw [Attach.place_of_some hm]
      refine hmqtt.trans ?_
      exact congrArg (Attach.modifyFirst _ _) hadd

/-! ## Entry by entry -/

/-- A value that was read is the one under `toOption`. -/
theorem eq_ok_getD {α : Type} {x : Except Failure α} (a : α) (h : ∃ b, x = .ok b) : x = .ok (x.toOption.getD a) := by
  obtain ⟨b, rfl⟩ := h
  rfl

theorem configs_readLevel1Driver {it : Json} (ho : it.isObject = true) (ha : acceptsLevel1 it = .ok true)
    (hcomplete : DriverEntry.complete ⟨.level1, it⟩ = true)
    (h : exec (readLevel1Driver env it) c = (.ok true, c')) :
    configs c' = if env.fileExists (DriverEntry.given env ⟨.level1, it⟩).path then
      (placing env).place (configs c) ⟨.level1, it⟩ else configs c := by
  have hs : ∀ key ∈ ["name", "config", "path", "guid"], getStringAt it key = .ok (DriverEntry.string ⟨.level1, it⟩ key) :=
    fun key hkey => getStringAt_eq ho (isSome_of_complete hcomplete hkey)
  simp only [List.forall_mem_cons, List.not_mem_nil, false_implies, implies_true, and_true] at hs
  obtain ⟨hname, hconfig, hpath, hguid⟩ := hs
  have htr : ((it.find? "translation").getD .null).isNumber = true := (Bool.and_eq_true .. ▸ hcomplete).2
  rw [readLevel1Driver, exec_lift_bind ha] at h
  simp only [Bool.not_true, Bool.false_eq_true, if_false] at h
  rw [exec_lift_bind (eq_ok_getD 0 (readFlags_of_isObject env ho)), exec_lift_bind hname, exec_lift_bind hconfig,
    exec_lift_bind hpath, exec_lift_bind hguid, exec_lift_bind (Json.entry_of_isObject ho _),
    exec_lift_bind (eq_ok_getD 0 (getUInt8_of_isNumber htr)), exec_bind_of_ok (exec_log ..)] at h
  -- The record logged before the item is added is no part of the configurations.
  have hstep := configs_addDriver (e := ⟨.level1, it⟩) ho hname (fun _ => rfl) h
  exact hstep

theorem configs_readLevel2Driver {it : Json} (ho : it.isObject = true) (ha : acceptsLevel2 it = .ok true)
    (hcomplete : DriverEntry.complete ⟨.level2, it⟩ = true)
    (h : exec (readLevel2Driver env it) c = (.ok true, c')) :
    configs c' = if env.fileExists (DriverEntry.given env ⟨.level2, it⟩).path then
      (placing env).place (configs c) ⟨.level2, it⟩ else configs c := by
  have hs : ∀ key ∈ ["name", "path-config", "path-driver", "guid"],
      getStringAt it key = .ok (DriverEntry.string ⟨.level2, it⟩ key) :=
    fun key hkey => getStringAt_eq ho (isSome_of_complete hcomplete hkey)
  simp only [List.forall_mem_cons, List.not_mem_nil, false_implies, implies_true, and_true] at hs
  obtain ⟨hname, hconfig, hpath, hguid⟩ := hs
  rw [readLevel2Driver, exec_lift_bind ha] at h
  simp only [Bool.not_true, Bool.false_eq_true, if_false] at h
  rw [exec_lift_bind hname, exec_lift_bind hconfig, exec_lift_bind hpath, exec_lift_bind hguid,
    exec_bind_of_ok (exec_log ..)] at h
  have hstep := configs_addDriver (e := ⟨.level2, it⟩) ho hname (fun _ => rfl) h
  exact hstep

theorem accepted_of_complete (h : e.complete = true) : e.accepted env = env.fileExists (e.given env).path := by
  have hmem : e.level.pathKey ∈ ["name", e.level.configKey, e.level.pathKey, "guid"] := by simp
  obtain ⟨path, hpath⟩ := Option.isSome_iff_exists.mp (isSome_of_complete h hmem)
  simp only [DriverEntry.accepted, DriverEntry.given, DriverEntry.string, h, hpath, Option.any_some, Option.getD_some,
    Bool.true_and]

/-- An entry that is not complete is passed over. -/
theorem exec_readDriver_incomplete (ha : accepts e.level e.it = .ok false) :
    exec (readDriver env e.level e.it) c = (.ok true, c) := by
  obtain ⟨level, it⟩ := e
  cases level with
  | level1 => exact exec_lift_bind ha
  | level2 => exact exec_lift_bind ha

theorem entryRead_of_ok {b : Bool} (h : exec (readDriver env e.level e.it) c = (.ok b, c')) : EntryRead e.it := by
  obtain ⟨level, it⟩ := e
  by_contra hr
  have hthrows : ∃ ex, Ends (readDriver env level it) (.error ex) := by
    cases level with
    | level1 => exact (settles_readLevel1Driver it).throws hr
    | level2 => exact (settles_readLevel2Driver it).throws hr
  obtain ⟨ex, hex⟩ := hthrows
  have hc := hex c
  rw [h] at hc
  cases hc

/-- An entry that is read appends its item exactly when it is accepted. -/
theorem configs_readDriver (h : exec (readDriver env e.level e.it) c = (.ok true, c')) :
    configs c' = if e.accepted env then (placing env).place (configs c) e else configs c := by
  have hr := entryRead_of_ok h
  have ha := accepts_eq hr
  cases hcomplete : e.complete with
  | false =>
    rw [hcomplete] at ha
    rw [exec_readDriver_incomplete ha] at h
    cases h
    rw [DriverEntry.accepted, hcomplete, Bool.false_and, if_neg Bool.false_ne_true]
  | true =>
    rw [hcomplete] at ha
    rw [accepted_of_complete hcomplete]
    obtain ⟨level, it⟩ := e
    cases level with
    | level1 => exact configs_readLevel1Driver hr.1 ha hcomplete h
    | level2 => exact configs_readLevel2Driver hr.1 ha hcomplete h

/-- The entries of a block, one after the other. -/
theorem configs_readEntries {level : DriverLevel} {its : List Json}
    (h : exec (readEntries (readDriver env level) its) c = (.ok true, c')) :
    configs c' = ((its.map (DriverEntry.mk level)).filter (·.accepted env)).foldl (placing env).place (configs c) := by
  induction its generalizing c with
  | nil =>
    cases h
    rfl
  | cons it its ih =>
    obtain ⟨c₁, hit, hits⟩ := exec_andM_true h
    have hstep := configs_readDriver (e := ⟨level, it⟩) hit
    rw [ih hits, hstep, List.map_cons, List.filter_cons]
    split
    · rfl
    · rfl

/-! ## A whole document -/

/-- The accepted entries of the two blocks, Level I first. -/
def acceptedEntries (env : Environment) (xs₁ xs₂ : List Json) : List DriverEntry :=
  (xs₁.map (DriverEntry.mk .level1) ++ xs₂.map (DriverEntry.mk .level2)).filter (·.accepted env)

/-- The change that holds the device list at that of `c`. -/
def holdItems (c : ControlObject) : Change where
  items _ := c.devItemList

theorem items_of_commutes {α : Type} {m : Ctl α} (h : Commutes ((holdItems c).applyWith {}) m) :
    (exec m c).2.devItemList = c.devItemList := by
  rw [← h.fixed rfl]
  rfl

/-- The sections before the drivers leave the device list alone. -/
theorem exec_readDrivers_of_readJSON {j : Json} (h : exec (readJSON env j) c = (.ok true, c')) :
    ∃ c₁, c₁.devItemList = c.devItemList ∧ exec (readDrivers env j) c₁ = (.ok true, c') := by
  have heq : readJSON env j =
      ((readGeneral env j <&&> readVscpKey env j <&&> readLogging j <&&> readMqtt env j) <&&> readDrivers env j) := by
    simp only [readJSON_eq, readRest, andM_assoc]
  rw [heq] at h
  obtain ⟨c₁, hbefore, hdrivers⟩ := exec_andM_true h
  refine ⟨c₁, ?_, hdrivers⟩
  have hleaves : Commutes ((holdItems c).applyWith {})
      (readGeneral env j <&&> readVscpKey env j <&&> readLogging j <&&> readMqtt env j) :=
    (commutes_readGeneral _ env j).andM ((commutes_readVscpKey rfl).andM
      ((commutes_readLogging fun _ => ⟨rfl, rfl⟩).andM commutes_readMqtt))
  have hitems := items_of_commutes hleaves
  rw [hbefore] at hitems
  exact hitems

theorem exec_holdsObject {j : Json} {key : String} {b : Bool} (h : Ends (holdsObject j key) (.ok b))
    (c : ControlObject) : exec (holdsObject j key) c = (.ok b, c) := by
  have hstate : (exec (holdsObject j key) c).2 = c := by
    unfold holdsObject
    rw [exec_andM, exec_pure]
    cases j.contains key with
    | false => rfl
    | true => cases j.index key <;> rfl
  rw [h.exec_eq, hstate]

/-- A block that is an array is gone through. -/
theorem configs_readDriverBlock (level : DriverLevel) {j d : Json} {key name : String} {xs : List Json}
    (hd : ObjectUnder j "drivers" d) (hxs : d.find? key = some (.arr xs))
    (h : exec (readDriverBlock j key name (readDriver env level)) c = (.ok true, c')) :
    configs c' = ((xs.map (DriverEntry.mk level)).filter (·.accepted env)).foldl (placing env).place (configs c) := by
  have hno : ∀ v, ¬ ObjectUnder d key v := by
    intro v hv
    obtain ⟨hf, ho⟩ := hv
    rw [hxs, Option.some.injEq] at hf
    subst hf
    cases ho
  have hidx := Json.index_of_find hd.1
  rw [readDriverBlock, exec_lift_bind hidx, exec_bind_of_ok (exec_holdsObject (ends_holdsObject_not hno) c)] at h
  simp only [Bool.false_eq_true, if_false] at h
  rw [exec_bind_of_ok (exec_log ..), exec_lift_bind hidx, exec_lift_bind (Json.index_of_find hxs)] at h
  have hread := configs_readEntries h
  exact hread

/-- The configurations after `readJSON`, built from the accepted entries. -/
theorem configs_readJSON {j d : Json} {xs₁ xs₂ : List Json} (hd : ObjectUnder j "drivers" d)
    (h₁ : d.find? "level1" = some (.arr xs₁)) (h₂ : d.find? "level2" = some (.arr xs₂)) (hc : c.devItemList = [])
    (h : exec (readJSON env j) c = (.ok true, c')) :
    configs c' = (placing env).build (acceptedEntries env xs₁ xs₂) := by
  obtain ⟨c₁, hitems, h⟩ := exec_readDrivers_of_readJSON h
  rw [readDrivers, exec_bind_of_ok (exec_holdsObject (ends_holdsObject hd) c₁)] at h
  obtain ⟨c₂, hlevel1, hlevel2⟩ := exec_andM_true h
  have hconfigs₂ := configs_readDriverBlock .level1 hd h₁ hlevel1
  have hconfigs := configs_readDriverBlock .level2 hd h₂ hlevel2
  have hempty : configs c₁ = [] := by rw [configs, hitems, hc]; rfl
  rw [hconfigs, hconfigs₂, hempty, acceptedEntries, List.filter_append, Attach.Placing.build, List.foldl_append]

/-! ## Every driver with its own configuration -/

/-- The entry's flags: a number or a string to decode under Level I. They are not part of the format
of a Level II entry, and ignored in one. -/
def FlagsRight (env : Environment) (e : DriverEntry) (flags : UInt32) : Prop :=
  match e.level with
  | .level2 => flags = 0
  | .level1 =>
    match e.it.find? "flags" with
    | some (.int n) => 0 ≤ n → n < 2 ^ 32 → (flags.toNat : Int) = n
    | some (.float _) => True
    | some (.str s) => flags = env.readStringValue s
    | _ => flags = 0

/-- The entry's translation under Level I, ignored in a Level II entry too. -/
def TranslationRight (e : DriverEntry) (translation : UInt32) : Prop :=
  match e.level with
  | .level2 => translation = NO_TRANSLATION
  | .level1 => ∀ n, e.it.find? "translation" = some (.int n) → 0 ≤ n → n < 2 ^ 32 → (translation.toNat : Int) = n

/-- What does not come from the MQTT block is the entry's own. -/
structure FieldsRight (env : Environment) (e : DriverEntry) (d : DriverConfig) : Prop where
  name : e.it.find? "name" = some (.str d.name)
  parameter : e.it.find? e.level.configKey = some (.str d.parameter)
  path : e.it.find? e.level.pathKey = some (.str d.path)
  guid : ∃ s, e.it.find? "guid" = some (.str s) ∧ d.guid = env.getFromString Guid.nil s
  level : d.level = e.level.number
  flags : FlagsRight env e d.flags
  translation : TranslationRight e d.translation

/-- The entry's own values, and its own MQTT block and no other. -/
structure Configured (env : Environment) (e : DriverEntry) (d : DriverConfig) : Prop extends FieldsRight env e d where
  mqttConfig : d.mqttConfig = (e.it.object? "mqtt").getD .null
  inits : d.inits = (e.it.object? "mqtt").toList

/-- A Level I translation fits the 8 bits it is read through. -/
def TranslationNarrow (e : DriverEntry) : Prop :=
  e.level = .level1 → ∀ n, e.it.find? "translation" = some (.int n) → 0 ≤ n → n < 2 ^ 32 → n < 256

theorem find_of_complete (h : e.complete = true) {key : String}
    (hkey : key ∈ ["name", e.level.configKey, e.level.pathKey, "guid"]) :
    e.it.find? key = some (.str (e.string key)) := by
  obtain ⟨s, hs⟩ := Option.isSome_iff_exists.mp (isSome_of_complete h hkey)
  rw [DriverEntry.string, hs]
  exact string?_eq_some.mp hs

theorem isObject_of_complete (h : e.complete = true) : e.it.isObject = true := by
  have hname : e.it.find? "name" = some _ := find_of_complete h (by simp)
  cases hit : e.it with
  | obj kvs => rfl
  | _ => rw [hit] at hname; cases hname

theorem flags_given (ho : e.it.isObject = true) : FlagsRight env e (e.given env).flags := by
  obtain ⟨level, it⟩ := e
  cases level with
  | level2 => rfl
  | level1 =>
    have he := Json.entry_of_isObject ho "flags"
    unfold FlagsRight DriverEntry.given readFlags getStringAt
    rw [he]
    cases it.find? "flags" with
    | none => rfl
    | some v =>
      cases v with
      | int n =>
        intro h0 hn
        have hmod : n % 2 ^ 32 = n := Int.emod_eq_of_lt h0 hn
        have hlt : n.toNat < 2 ^ 32 := by omega
        show ((UInt32.ofInt n).toNat : Int) = n
        rw [UInt32.ofInt, hmod, UInt32.toNat_ofNat_of_lt' hlt, Int.toNat_of_nonneg h0]
      | float => trivial
      | _ => rfl

/-- Under Level I the translation is what 8 bits keep of it. -/
theorem translation_given {n : Int} (hl : e.level = .level1) (hn : e.it.find? "translation" = some (.int n)) :
    ((e.given env).translation.toNat : Int) = n % 256 := by
  have htr : (e.given env).translation = (UInt8.ofInt n).toUInt32 := by
    simp only [DriverEntry.given, hl, hn]
    rfl
  have h0 : 0 ≤ n % 256 := Int.emod_nonneg n (by decide)
  have hlt : (n % 256).toNat < 2 ^ 8 := by omega
  rw [htr, UInt8.toNat_toUInt32, UInt8.ofInt]
  exact (congrArg Int.ofNat (UInt8.toNat_ofNat_of_lt' hlt)).trans (Int.toNat_of_nonneg h0)

/-- The translation is the entry's exactly when it fits in 8 bits. -/
theorem translationRight_given_iff : TranslationRight e (e.given env).translation ↔ TranslationNarrow e := by
  unfold TranslationRight TranslationNarrow
  cases hl : e.level with
  | level2 => simp [DriverEntry.given, hl]
  | level1 =>
    simp only [true_implies]
    refine forall_congr' fun n => forall_congr' fun hn => forall_congr' fun h0 => forall_congr' fun hlt => ?_
    rw [translation_given hl hn]
    omega

theorem fieldsRight_given (h : e.complete = true) (hnarrow : TranslationNarrow e) :
    FieldsRight env e (e.given env) where
  name := find_of_complete h (by simp)
  parameter := find_of_complete h (by simp)
  path := find_of_complete h (by simp)
  guid := ⟨_, find_of_complete h (by simp), rfl⟩
  level := rfl
  flags := flags_given (isObject_of_complete h)
  translation := translationRight_given_iff.mpr hnarrow

/-- An item that got its own block, and a narrow translation, is configured right. -/
theorem configured_own (h : e.complete = true) (hnarrow : TranslationNarrow e) :
    Configured env e ((placing env).own e) := by
  have hfields : FieldsRight env e (e.given env) := fieldsRight_given h hnarrow
  cases hm : e.it.object? "mqtt" with
  | none =>
    rw [Attach.own_of_none hm]
    exact { hfields with mqttConfig := by rw [hm]; rfl, inits := by rw [hm]; rfl }
  | some m =>
    rw [Attach.own_of_some hm]
    exact { hfields with mqttConfig := by rw [hm]; rfl, inits := by rw [hm]; rfl }

/-- No entry with an MQTT block comes after one of its name. -/
def NamesClear (es : List DriverEntry) : Prop :=
  es.Pairwise fun e e' => (e'.it.object? "mqtt").isSome → e.string "name" ≠ e'.string "name"

theorem unshadowed_iff (es : List DriverEntry) : (placing env).Unshadowed es ↔ NamesClear es := Iff.rfl

/-- Where every item built from the entries is its entry's own. -/
theorem configured_build_iff {es : List DriverEntry} (hes : ∀ e ∈ es, e.complete = true) :
    List.Forall₂ (Configured env) es ((placing env).build es) ↔ (∀ e ∈ es, TranslationNarrow e) ∧ NamesClear es := by
  constructor
  · intro h
    have hat : ∀ i (hi : i < es.length), ∃ d, ((placing env).build es)[i]? = some d ∧ Configured env es[i] d := by
      intro i hi
      have hib : i < ((placing env).build es).length := h.length_eq ▸ hi
      exact ⟨_, List.getElem?_eq_getElem hib, h.get hi hib⟩
    refine ⟨fun e he => ?_, List.pairwise_iff_getElem.mpr fun i k hi hk hik hblock hname => ?_⟩
    · obtain ⟨i, hi, rfl⟩ := List.getElem_of_mem he
      obtain ⟨d, hd, hright⟩ := hat i hi
      have hmap := congrArg (·[i]?) (Attach.map_build (P := placing env) (g := DriverConfig.translation) (fun _ _ => rfl) es)
      simp only [List.getElem?_map, hd, List.getElem?_eq_getElem hi, Option.map_some, Option.some.injEq] at hmap
      have htr := hright.translation
      rw [hmap] at htr
      exact translationRight_given_iff.mp htr
    · have hshadow := Attach.build_of_shadowed (P := placing env) hik (List.getElem?_eq_getElem hi)
        (List.getElem?_eq_getElem hk) hname
      obtain ⟨d, hd, hright⟩ := hat k hk
      rw [hshadow, Option.some.injEq] at hd
      subst hd
      obtain ⟨m, hm⟩ := Option.isSome_iff_exists.mp hblock
      have hinits := hright.inits
      rw [hm] at hinits
      cases hinits
  · intro h
    obtain ⟨hnarrow, hclear⟩ := h
    rw [Attach.build_of_unshadowed ((unshadowed_iff es).mpr hclear), List.forall₂_map_right_iff, List.forall₂_same]
    exact fun e he => configured_own (hes e he) (hnarrow e he)

theorem complete_of_accepted {xs₁ xs₂ : List Json} : ∀ e ∈ acceptedEntries env xs₁ xs₂, e.complete = true := by
  intro e he
  have ha := (List.mem_filter.mp he).2
  rw [DriverEntry.accepted, Bool.and_eq_true] at ha
  exact ha.1

theorem forall₂_configs {es : List DriverEntry} {items : List CDeviceItem} :
    List.Forall₂ (fun e item => Configured env e item.config) es items ↔
      List.Forall₂ (Configured env) es (items.map (·.config)) := List.forall₂_map_right_iff.symm

/-- **When every driver has its own configuration**: from an empty device list, a
`readJSON` that returns true leaves one item for each accepted entry, in order and
with the entry's own values, exactly when every Level I translation fits in 8 bits
and no accepted entry with an MQTT block has the name of an earlier one. What a Level II
entry says of flags and translation is ignored: its format has neither. -/
theorem drivers_configured_iff {j d : Json} {xs₁ xs₂ : List Json} (hd : ObjectUnder j "drivers" d)
    (h₁ : d.find? "level1" = some (.arr xs₁)) (h₂ : d.find? "level2" = some (.arr xs₂)) (hc : c.devItemList = [])
    (h : exec (readJSON env j) c = (.ok true, c')) :
    List.Forall₂ (fun e item => Configured env e item.config) (acceptedEntries env xs₁ xs₂) c'.devItemList ↔
      (∀ e ∈ acceptedEntries env xs₁ xs₂, TranslationNarrow e) ∧ NamesClear (acceptedEntries env xs₁ xs₂) := by
  have hbuild := configs_readJSON hd h₁ h₂ hc h
  rw [configs] at hbuild
  rw [forall₂_configs, hbuild]
  exact configured_build_iff complete_of_accepted

/-- Every path has a driver, and every MQTT client takes its configuration. -/
def driverEnvironment : Environment :=
  { bareEnvironment with
    fileExists := fun _ => true
    initFromJson := fun _ => true }

/-- A Level I entry of this name, with this MQTT block. -/
def level1Entry (name : String) (mqtt : Json) : Json :=
  .obj [("enable", .bool true), ("name", .str name), ("config", .str "can0"), ("path", .str "/var/lib/vscp/can.so"),
    ("guid", .str "00:00:00:00:00:00:00:00:00:00:00:00:00:00:00:00"), ("translation", .int 2), ("mqtt", mqtt)]

def level1Config (xs : List Json) : Json := configWith (.obj [("level1", .arr xs), ("level2", .arr [])])

/-- Two Level I drivers of one name, the second with an MQTT block. -/
def sameNames : List Json := [level1Entry "can" .null, level1Entry "can" (.obj [("host", .str "localhost")])]

/-- The first driver gets the second one's MQTT block. -/
theorem not_configured_sameNames : ∃ c', exec (readJSON driverEnvironment (level1Config sameNames))
      { vscpKey := Vector.replicate 32 0 } = (.ok true, c') ∧
    ¬ List.Forall₂ (fun e item => Configured driverEnvironment e item.config)
      (acceptedEntries driverEnvironment sameNames []) c'.devItemList := by
  refine ⟨_, rfl, fun hright => ?_⟩
  have hfirst := hright.get (i := 0) (by decide) (by decide)
  exact List.cons_ne_nil _ _ hfirst.inits

/-- Two Level I drivers, both with an MQTT block. -/
def twoNames : List Json :=
  [level1Entry "can1" (.obj [("host", .str "localhost")]), level1Entry "can2" (.obj [("host", .str "vscp1")])]

theorem drivers_configured_twoNames : ∃ c', exec (readJSON driverEnvironment (level1Config twoNames))
      { vscpKey := Vector.replicate 32 0 } = (.ok true, c') ∧
    List.Forall₂ (fun e item => Configured driverEnvironment e item.config)
      (acceptedEntries driverEnvironment twoNames []) c'.devItemList := by
  obtain ⟨c', hrun⟩ : ∃ c', exec (readJSON driverEnvironment (level1Config twoNames))
      { vscpKey := Vector.replicate 32 0 } = (.ok true, c') := ⟨_, rfl⟩
  have hdrivers : ObjectUnder (level1Config twoNames) "drivers" (.obj [("level1", .arr twoNames), ("level2", .arr [])]) :=
    ⟨rfl, rfl⟩
  refine ⟨c', hrun, (drivers_configured_iff hdrivers rfl rfl rfl hrun).mpr ⟨fun e he => ?_, ?_⟩⟩
  · have hentry : e ∈ twoNames.map (DriverEntry.mk .level1) := he
    simp only [twoNames, List.map_cons, List.map_nil, List.mem_cons, List.not_mem_nil, or_false] at hentry
    obtain rfl | rfl := hentry
    · intro _ n hn _ _
      cases hn
      decide
    · intro _ n hn _ _
      cases hn
      decide
  · refine List.pairwise_pair.mpr fun _ => ?_
    decide

end MqttVscpd
