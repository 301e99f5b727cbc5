/-
When `readJSON` returns. Each section settles: it comes to a value exactly when a
condition on the document holds, and its value ends `readJSON` or lets it go on.
The general settings and the logging block return whatever they find; the topics,
the driver blocks and their entries do not (`readJSON_returns_iff`).
-/
import MqttVscpd.ReadJson

namespace MqttVscpd

open Trying

variable {j : Json} {env : Environment} {key : String}

theorem contains_of_find {v : Json} (h : j.find? key = some v) : j.contains key = true := by
  rw [Json.contains, h]
  rfl

theorem contains_of_absent (h : j.find? key = none) : ¬ j.contains key = true := by
  rw [Json.contains, h]
  decide

/-! ## General settings -/

/-- There is a string under the key. -/
def StringUnder (j : Json) (key : String) : Prop := ∃ v, j.find? key = some v ∧ v.isString = true

/-- What is under the key, if anything, is a string. -/
def OptionalString (j : Json) (key : String) : Prop := ∀ v, j.find? key = some v → v.isString = true

theorem ends_failRequired (key : String) : Ends (failRequired key) (.ok false) :=
  (ends_log _ _).bind (ends_pure false)

theorem stringUnder_iff : StringUnder j key ↔ OptionalString j key ∧ j.find? key ≠ none := by
  unfold StringUnder OptionalString
  cases j.find? key <;> simp

/-- A `try` block on the string under a key refuses a value of another type, and an
absent key if what it does then is false. -/
theorem settles_tryString {absent : Ctl Bool} {found : String → Ctl Bool} {b : Bool}
    (ha : Ends absent (.ok b)) (hs : ∀ s, Ends (found s) (.ok true)) :
    Settles (catching
        (do
          if j.contains key then
            let s ← (← j.index key).getString
            found s
          else absent)
        (fun _ => failRequired key)) True
      (¬ (OptionalString j key ∧ (b = false → j.find? key ≠ none))) := by
  cases hf : j.find? key with
  | none =>
    rw [if_neg (contains_of_absent hf)]
    have habsent : Ends (catching absent fun _ => failRequired key) (.ok b) := ends_catching ha
    cases b with
    | true => exact habsent.settles.congr Iff.rfl (by simp [OptionalString, hf])
    | false => exact settles_of_ends (fun h => absurd (by simp) h) fun _ => habsent
  | some v =>
    rw [if_pos (contains_of_find hf)]
    have hidx := Json.index_of_find hf
    cases hv : v.isString with
    | true =>
      obtain ⟨s, hget⟩ := Json.getString_of_isString hv
      refine settles_of_ends (fun _ => ?_) fun h => absurd (by simp [OptionalString, hf, hv]) h
      exact ends_catching (ends_lift_bind hidx (ends_lift_bind hget (hs s)))
    | false =>
      obtain ⟨ex, hget⟩ := Json.getString_of_not hv
      refine settles_of_ends (fun h => absurd (by simp [OptionalString, hf, hv]) h) fun _ => ?_
      exact ends_catching_thrown ex (ends_lift_bind hidx (ends_lift_bind_error hget)) (ends_failRequired key)

theorem settles_readRequired {set : String → ControlObject → ControlObject} {value : ControlObject → String} :
    Settles (readRequired j key set value) True (¬ StringUnder j key) := by
  refine (settles_tryString (ends_failRequired key) fun s => ?_).congr Iff.rfl ?_
  · exact (ends_modify _).bind (ends_get_bind fun c => (ends_log _ _).bind (ends_pure true))
  · simp [stringUnder_iff]

theorem ends_readEncryptionKey (env : Environment) (path : String) :
    ∃ b, Ends (readEncryptionKey env path) (.ok b) := by
  unfold readEncryptionKey
  cases hf : env.readFile path with
  | none => exact ⟨false, (ends_log _ _).bind ((ends_log _ _).bind (ends_pure _))⟩
  | some hexstr => exact ⟨_, (ends_log _ _).bind ((ends_log _ _).bind ((ends_modify _).bind (ends_pure _)))⟩

theorem ends_readKeyFile (path : String) : Ends (readKeyFile env path) (.ok true) := by
  obtain ⟨b, hb⟩ := ends_readEncryptionKey env path
  refine (ends_log _ _).bind (hb.bind ?_)
  cases b with
  | true => exact ends_pure true
  | false => exact (ends_log _ _).bind (ends_pure true)

theorem settles_readVscpKey : Settles (readVscpKey env j) True (¬ OptionalString j "vscpkey") := by
  have habsent : Ends (do log .err "ReadConfig: 'Failed to read in encryption key "; readKeyFile env "")
      (.ok true) := (ends_log _ _).bind (ends_readKeyFile "")
  exact (settles_tryString habsent ends_readKeyFile).congr Iff.rfl (by simp)

/-! ## Logging -/

/-- The readers of the logging block give a value or throw. -/
def Throwing {α : Type} (read : Json → Except Failure α) : Prop := ∀ v, read v ≠ .error .undefined

theorem throwing_getString : Throwing Json.getString := by
  intro v
  cases v <;> simp [Json.getString, Json.typeError]

theorem throwing_getBool : Throwing Json.getBool := by
  intro v
  cases v <;> simp [Json.getBool, Json.typeError]

theorem throwing_getUInt16 : Throwing Json.getUInt16 := by
  intro v
  cases v <;> simp [Json.getUInt16, Json.getInt, Json.typeError, Functor.map, Except.map]

theorem throwing_getUInt32 : Throwing Json.getUInt32 := by
  intro v
  cases v <;> simp [Json.getUInt32, Json.getInt, Json.typeError, Functor.map, Except.map]

/-- What a reader in a `try` block comes to. -/
theorem Throwing.cases {α : Type} {read : Json → Except Failure α} (hr : Throwing read) (v : Json) :
    (∃ a, read v = .ok a) ∨ ∃ ex, read v = .error (.thrown ex) := by
  cases hv : read v with
  | ok a => exact .inl ⟨a, rfl⟩
  | error e =>
    cases e with
    | thrown ex => exact .inr ⟨ex, rfl⟩
    | undefined => exact absurd hv (hr v)

variable {logging : Json}

theorem ends_readLoggingValue {α : Type} {read : Json → Except Failure α} (hr : Throwing read)
    (hl : j.index "logging" = .ok logging) {set : α → ControlObject → ControlObject}
    {report : ControlObject → String} {missing : String} :
    Ends (readLoggingValue j key read set report missing) (.ok ()) := by
  unfold readLoggingValue
  refine ends_lift_bind hl ?_
  split
  · next hc =>
    obtain ⟨v, hv⟩ := Json.index_of_contains hc
    have htry : Ends (catching
        (do
          let v ← read (← (← j.index "logging").index key)
          modify (set v))
        (fun ex => log .err s!"ReadConfig: Failed to read '{key}' Error='{ex.what}'")) (.ok ()) := by
      rcases hr.cases v with ⟨a, ha⟩ | ⟨ex, hex⟩
      · exact ends_catching (ends_lift_bind hl (ends_lift_bind hv (ends_lift_bind ha (ends_modify _))))
      · exact ends_catching_thrown ex (ends_lift_bind hl (ends_lift_bind hv (ends_lift_bind_error hex)))
          (ends_log _ _)
    exact htry.bind (ends_get_bind fun c => ends_log _ _)
  · exact ends_log _ _

theorem ends_setLogLevel {str : String} {set : LogLevel → ControlObject → ControlObject} :
    Ends (setLogLevel key str set) (.ok ()) := by
  unfold setLogLevel
  split
  · exact (ends_modify _).bind (ends_log _ _)
  · exact ends_log _ _

theorem ends_readLogLevel {errorKey : String} {missing : Option String}
    {set : LogLevel → ControlObject → ControlObject} (hl : j.index "logging" = .ok logging) :
    Ends (readLogLevel j key errorKey missing set) (.ok ()) := by
  unfold readLogLevel
  refine ends_lift_bind hl ?_
  split
  · next hc =>
    obtain ⟨v, hv⟩ := Json.index_of_contains hc
    rcases throwing_getString.cases v with ⟨s, hs⟩ | ⟨ex, hex⟩
    · exact (ends_catching (ends_lift_bind hl (ends_lift_bind hv (ends_lift hs)))).bind ends_setLogLevel
    · have hthrow : Ends (do (← (← j.index "logging").index key).getString : Ctl String) (.error (.thrown ex)) :=
        ends_lift_bind hl (ends_lift_bind hv (ends_lift hex))
      exact (ends_catching_thrown ex hthrow ((ends_log _ _).bind (ends_pure ""))).bind ends_setLogLevel
  · split
    · exact ends_log _ _
    · exact ends_pure _

/-- There is an object under the key. -/
def ObjectUnder (j : Json) (key : String) (v : Json) : Prop := j.find? key = some v ∧ v.isObject = true

theorem ends_holdsObject {v : Json} (h : ObjectUnder j key v) : Ends (holdsObject j key) (.ok true) := by
  unfold holdsObject
  rw [contains_of_find h.1]
  refine (ends_pure true).bind (ends_lift_bind (Json.index_of_find h.1) ?_)
  rw [h.2]
  exact ends_pure true

theorem ends_holdsObject_not (h : ∀ v, ¬ ObjectUnder j key v) : Ends (holdsObject j key) (.ok false) := by
  unfold holdsObject
  cases hf : j.find? key with
  | none =>
    have hc : j.contains key = false := by simpa using contains_of_absent hf
    rw [hc]
    exact ends_pure false
  | some v =>
    have ho : v.isObject = false := by simpa [ObjectUnder, hf] using h v
    rw [contains_of_find hf]
    refine (ends_pure true).bind (ends_lift_bind (Json.index_of_find hf) ?_)
    rw [ho]
    exact ends_pure false

theorem ends_readFileLogging (hl : j.index "logging" = .ok logging) : Ends (readFileLogging j) (.ok ()) :=
  (ends_readLoggingValue throwing_getBool hl).bind <| (ends_readLogLevel hl).bind <|
  (ends_readLoggingValue throwing_getString hl).bind <| (ends_readLoggingValue throwing_getString hl).bind <|
  (ends_readLoggingValue throwing_getUInt32 hl).bind <| ends_readLoggingValue throwing_getUInt16 hl

theorem ends_readConsoleLogging (hl : j.index "logging" = .ok logging) : Ends (readConsoleLogging j) (.ok ()) :=
  (ends_readLoggingValue throwing_getBool hl).bind <| (ends_readLogLevel hl).bind <|
  ends_readLoggingValue throwing_getString hl

theorem ends_readSysLogging (hl : j.index "logging" = .ok logging) : Ends (readSysLogging j) (.ok ()) :=
  (ends_readLoggingValue throwing_getBool hl).bind <| (ends_readLogLevel hl).bind <|
  ends_readLoggingValue throwing_getString hl

theorem ends_readUdpLogging (hl : j.index "logging" = .ok logging) : Ends (readUdpLogging j) (.ok ()) :=
  (ends_readLoggingValue throwing_getBool hl).bind <| (ends_readLogLevel hl).bind <|
  (ends_readLoggingValue throwing_getString hl).bind <| (ends_readLoggingValue throwing_getString hl).bind <|
  ends_readLoggingValue throwing_getUInt16 hl

theorem ends_readLogging : Ends (readLogging j) (.ok true) := by
  by_cases ho : ∃ l, ObjectUnder j "logging" l
  · obtain ⟨l, ho⟩ := ho
    have hl := Json.index_of_find ho.1
    exact (ends_holdsObject ho).bind ((ends_readFileLogging hl).bind ((ends_readConsoleLogging hl).bind
      ((ends_readSysLogging hl).bind ((ends_readUdpLogging hl).bind (ends_pure true)))))
  · refine (ends_holdsObject_not fun l hl => ho ⟨l, hl⟩).bind ?_
    exact (ends_log _ _).bind (ends_pure true)

/-! ## MQTT -/

/-- The keys `readJSON` looks up itself in the MQTT block. -/
def topicKeys : List String := ["topic-daemon-base", "topic-drivers", "topic-discovery"]

/-- Every topic the block gives is a string. -/
def TopicsRead (mqtt : Json) : Prop := ∀ key ∈ topicKeys, OptionalString mqtt key

/-- The MQTT client takes no configuration from the block. -/
def MqttRefused (env : Environment) (j : Json) : Prop :=
  ∃ m, ObjectUnder j "mqtt" m ∧ env.initFromJson m = false

def MqttRead (env : Environment) (j : Json) : Prop :=
  ∀ m, ObjectUnder j "mqtt" m → env.initFromJson m = true → TopicsRead m

theorem ObjectUnder.unique {v w : Json} (hv : ObjectUnder j key v) (hw : ObjectUnder j key w) : v = w :=
  Option.some.inj (hv.1.symm.trans hw.1)

theorem passes_readTopic {mqtt : Json} (hm : j.index "mqtt" = .ok mqtt)
    {set : String → ControlObject → ControlObject} {missing : String} :
    Passes (readTopic j key set missing) (OptionalString mqtt key) := by
  unfold readTopic
  cases hf : mqtt.find? key with
  | none =>
    refine ⟨fun _ => ⟨(), ends_lift_bind hm ?_⟩, fun hn => absurd (by simp [OptionalString, hf]) hn⟩
    rw [if_neg (contains_of_absent hf)]
    exact ends_log _ _
  | some v =>
    have hidx := Json.index_of_find hf
    constructor
    · intro hs
      obtain ⟨s, hs⟩ := Json.getString_of_isString (hs v hf)
      refine ⟨(), ends_lift_bind hm ?_⟩
      rw [if_pos (contains_of_find hf)]
      exact ends_lift_bind hm (ends_lift_bind hidx (ends_lift_bind hs ((ends_modify _).bind (ends_log _ _))))
    · intro hn
      have hv : v.isString = false := by simpa [OptionalString, hf] using hn
      obtain ⟨ex, hex⟩ := Json.getString_of_not hv
      refine ⟨.thrown ex, ends_lift_bind hm ?_⟩
      rw [if_pos (contains_of_find hf)]
      exact ends_lift_bind hm (ends_lift_bind hidx (ends_lift_bind_error hex))

theorem settles_readMqtt : Settles (readMqtt env j) (MqttRead env j) (MqttRefused env j) := by
  unfold readMqtt
  by_cases ho : ∃ m, ObjectUnder j "mqtt" m
  · obtain ⟨m, ho⟩ := ho
    have hm := Json.index_of_find ho.1
    refine Settles.after (ends_holdsObject ho) (Settles.after (ends_lift hm) (Settles.after (ends_modify _) ?_))
    cases hi : env.initFromJson m with
    | false =>
      have href : MqttRefused env j := ⟨m, ho, hi⟩
      refine ⟨fun _ hn => absurd href hn, fun _ _ => (ends_log _ _).bind (ends_pure false), ?_⟩
      intro hn
      refine absurd (fun m' hm' hi' => ?_) hn
      rw [hm'.unique ho, hi] at hi'
      cases hi'
    | true =>
      refine Settles.congr ((passes_readTopic hm).then fun _ => (passes_readTopic hm).then fun _ =>
        (passes_readTopic hm).then fun _ => ((ends_modify _).bind (ends_pure true)).settles) ?_ ?_
      · constructor
        · intro h m' hm' _
          rw [hm'.unique ho]
          simpa [TopicsRead, topicKeys] using h
        · intro h
          simpa [TopicsRead, topicKeys] using h m ho hi
      · refine ⟨False.elim, fun ⟨m', hm', hi'⟩ => ?_⟩
        rw [hm'.unique ho, hi] at hi'
        cases hi'
  · refine Settles.congr ((ends_holdsObject_not fun m hm => ho ⟨m, hm⟩).bind
      ((ends_log _ _).bind (ends_pure true))).settles ?_ ?_
    · exact ⟨fun _ m hm => absurd ⟨m, hm⟩ ho, fun _ => trivial⟩
    · exact ⟨False.elim, fun ⟨m, hm, _⟩ => ho ⟨m, hm⟩⟩

/-! ## A driver entry -/

section andM

variable {x y : Except Failure Bool}

theorem andM_ok (hx : ∃ a, x = .ok a) (hy : ∃ b, y = .ok b) : ∃ c, (x <&&> y) = .ok c := by
  obtain ⟨a, rfl⟩ := hx
  cases a with
  | true => exact hy
  | false => exact ⟨false, rfl⟩

theorem andM_error {e : Failure} (hx : x = .error e) : (x <&&> y) = .error e := by
  subst hx
  rfl

theorem andM_true (h : (x <&&> y) = .ok true) : x = .ok true ∧ y = .ok true := by
  cases x with
  | error e => cases h
  | ok a =>
    cases a with
    | true => exact ⟨rfl, h⟩
    | false => cases h

end andM

/-- An entry is an object, and `enable`, if it is there, a boolean. -/
def EntryRead (it : Json) : Prop := it.isObject = true ∧ ∀ v, it.find? "enable" = some v → v.isBoolean = true

theorem valueBool_of_entryRead {it : Json} (h : EntryRead it) : ∃ b, it.valueBool "enable" false = .ok b := by
  obtain ⟨ho, hb⟩ := h
  cases it with
  | obj kvs =>
    cases hf : kvs.lookup "enable" with
    | none => exact ⟨false, by simp only [Json.valueBool, hf]⟩
    | some v =>
      obtain ⟨b, hv⟩ := Json.getBool_of_isBoolean (hb v hf)
      exact ⟨b, by simp only [Json.valueBool, hf, hv]⟩
  | _ => simp [Json.isObject] at ho

theorem valueBool_of_not_entryRead {it : Json} (h : ¬ EntryRead it) :
    ∃ e, it.valueBool "enable" false = .error e := by
  cases it with
  | obj kvs =>
    cases hf : kvs.lookup "enable" with
    | none => exact absurd ⟨rfl, fun v hv => by simp [Json.find?, hf] at hv⟩ h
    | some v =>
      cases hb : v.isBoolean with
      | true =>
        refine absurd ⟨rfl, fun w hw => ?_⟩ h
        rw [Json.find?, hf] at hw
        exact Option.some.inj hw ▸ hb
      | false =>
        obtain ⟨ex, hv⟩ := Json.getBool_of_not hb
        exact ⟨.thrown ex, by simp only [Json.valueBool, hf, hv]⟩
  | _ => exact ⟨_, rfl⟩

theorem stringAt_of_isObject {it : Json} (h : it.isObject = true) (key : String) :
    ∃ b, stringAt it key = .ok b := by
  unfold stringAt
  rw [Json.entry_of_isObject h]
  exact ⟨_, rfl⟩

theorem getStringAt_of_stringAt {it : Json} (h : stringAt it key = .ok true) :
    ∃ s, getStringAt it key = .ok s := by
  unfold stringAt at h
  unfold getStringAt
  cases he : it.entry key with
  | error e => rw [he] at h; cases h
  | ok v =>
    rw [he] at h
    exact Json.getString_of_isString (Except.ok.inj h)

theorem readFlags_of_isObject (env : Environment) {it : Json} (h : it.isObject = true) : ∃ f, readFlags env it = .ok f := by
  have he := Json.entry_of_isObject h "flags"
  generalize (it.find? "flags").getD .null = v at he
  unfold readFlags getStringAt
  rw [he]
  cases v with
  | int | float | str => exact ⟨_, rfl⟩
  | _ => exact ⟨0, rfl⟩

theorem getUInt8_of_isNumber {v : Json} (h : v.isNumber = true) : ∃ n, v.getUInt8 = .ok n := by
  obtain ⟨n, hn⟩ := Json.getInt_of_isNumber h
  exact ⟨UInt8.ofInt n, by rw [Json.getUInt8, hn]; rfl⟩

/-! ### Adding the driver -/

/-- The MQTT client of an accepted entry's driver takes no configuration from it. -/
def EntryRefused (env : Environment) (accepts : Json → Except Failure Bool) (pathKey : String) (it : Json) : Prop :=
  accepts it = .ok true ∧ (∃ path, getStringAt it pathKey = .ok path ∧ env.fileExists path = true) ∧
    ∃ m, ObjectUnder it "mqtt" m ∧ env.initFromJson m = false

/-- The list has an item of this name. -/
def HasItem (name : String) (c : ControlObject) : Prop := ∃ it ∈ c.devItemList, it.strName = name

theorem getDeviceItemFromName_of_hasItem {c : ControlObject} {name : String} (h : HasItem name c) :
    ∃ i, getDeviceItemFromName c.devItemList name = some i := by
  obtain ⟨it, hit, hn⟩ := h
  refine Option.isSome_iff_exists.mp ?_
  rw [getDeviceItemFromName, List.findIdx?_isSome]
  exact List.any_eq_true.mpr ⟨it, hit, by simpa using hn⟩

theorem ends_addItem {name config path : String} {flags : UInt32} {guid : Guid} {level : UInt8}
    {translation : UInt32} :
    Ends (addItem env name config path flags guid level translation) (.ok (env.fileExists path)) := by
  unfold addItem
  refine (ends_log _ _).bind ((ends_log _ _).bind ?_)
  cases hp : env.fileExists path with
  | true => exact (ends_log _ _).bind ((ends_modify _).bind (ends_pure true))
  | false => exact (ends_log _ _).bind (ends_pure false)

theorem addItem_hasItem {name config path : String} {flags : UInt32} {guid : Guid} {level : UInt8}
    {translation : UInt32} (hp : env.fileExists path = true) (c : ControlObject) :
    HasItem name (exec (addItem env name config path flags guid level translation) c).2 := by
  simp only [addItem, exec_bind, exec_log, hp, if_true, exec_modify, exec_pure]
  exact ⟨_, List.mem_append_right _ List.mem_cons_self, rfl⟩

theorem objectAt_of_objectUnder {it m : Json} (hm : ObjectUnder it key m) : objectAt it key = .ok true := by
  unfold objectAt
  have ho : it.isObject = true := by
    cases it with
    | obj kvs => rfl
    | _ => cases hm.1
  rw [contains_of_find hm.1, Json.entry_of_isObject ho, hm.1]
  show Except.ok m.isObject = .ok true
  rw [hm.2]

theorem objectAt_of_not {it : Json} (ho : it.isObject = true) (hm : ∀ m, ¬ ObjectUnder it key m) :
    objectAt it key = .ok false := by
  unfold objectAt
  cases hf : it.find? key with
  | none =>
    have hc : it.contains key = false := by simpa using contains_of_absent hf
    rw [hc]
    rfl
  | some m =>
    have hb : m.isObject = false := by simpa [ObjectUnder, hf] using hm m
    rw [contains_of_find hf, Json.entry_of_isObject ho, hf]
    show Except.ok m.isObject = .ok false
    rw [hb]

section addDriver

variable {it : Json} {level name path added : String} {add : Ctl Bool} {report : Ctl Unit}

theorem ends_readDriverMqtt {m : Json} (hm : ObjectUnder it "mqtt" m) (hn : getStringAt it "name" = .ok name)
    (hr : Ends report (.ok ())) :
    EndsFrom (HasItem name) (readDriverMqtt env it level report) (.ok (env.initFromJson m)) := by
  unfold readDriverMqtt
  have hentry : it.entry "mqtt" = .ok m := by
    cases it with
    | obj kvs => simp only [Json.entry, show kvs.lookup "mqtt" = some m from hm.1, Option.getD_some]
    | _ => cases hm.1
  refine EndsFrom.lift_bind (objectAt_of_objectUnder hm) (EndsFrom.lift_bind hn (EndsFrom.get_bind fun c hc => ?_))
  obtain ⟨i, hi⟩ := getDeviceItemFromName_of_hasItem hc
  rw [hi]
  refine Ends.from (ends_lift_bind hentry ((ends_modify _).bind (hr.bind ?_)))
  cases env.initFromJson m with
  | true => exact ends_pure true
  | false => exact (ends_log _ _).bind (ends_pure false)

theorem ends_readDriverMqtt_not (ho : it.isObject = true) (hm : ∀ m, ¬ ObjectUnder it "mqtt" m) :
    Ends (readDriverMqtt env it level report) (.ok true) := by
  unfold readDriverMqtt
  exact ends_lift_bind (objectAt_of_not ho hm) ((ends_log _ _).bind (ends_pure true))

/-- Once its fields are read, an entry comes to true unless its MQTT client refuses. -/
theorem settles_addDriver (ho : it.isObject = true) (hn : getStringAt it "name" = .ok name)
    (hadd : Ends add (.ok (env.fileExists path)))
    (hitem : env.fileExists path = true → ∀ c, HasItem name (exec add c).2) (hr : Ends report (.ok ())) :
    Settles (addDriver env it level name path added add report) True
      (env.fileExists path = true ∧ ∃ m, ObjectUnder it "mqtt" m ∧ env.initFromJson m = false) := by
  cases hp : env.fileExists path with
  | false =>
    rw [hp] at hadd
    refine (hadd.bind ((ends_log _ _).bind (ends_pure true))).settles.congr Iff.rfl ?_
    simp
  | true =>
    rw [hp] at hadd
    have hrest : ∀ r, EndsFrom (HasItem name) (readDriverMqtt env it level report) r →
        Ends (addDriver env it level name path added add report) r := by
      intro r h
      refine hadd.bind_from (hitem hp) ?_
      exact EndsFrom.bind (Q := HasItem name) (ends_log .debug added).from (fun _ hc => hc) h
    by_cases hm : ∃ m, ObjectUnder it "mqtt" m
    · obtain ⟨m, hm⟩ := hm
      cases hi : env.initFromJson m with
      | false =>
        have href : true = true ∧ ∃ m, ObjectUnder it "mqtt" m ∧ env.initFromJson m = false := ⟨rfl, m, hm, hi⟩
        exact ⟨fun _ hn' => absurd href hn', fun _ _ => hrest _ (hi ▸ ends_readDriverMqtt hm hn hr),
          fun h => absurd trivial h⟩
      | true =>
        refine (hrest _ (hi ▸ ends_readDriverMqtt hm hn hr)).settles.congr Iff.rfl ?_
        refine ⟨False.elim, fun ⟨_, m', hm', hi'⟩ => ?_⟩
        rw [hm'.unique hm, hi] at hi'
        cases hi'
    · have hno : ∀ m, ¬ ObjectUnder it "mqtt" m := fun m h => hm ⟨m, h⟩
      refine (hrest _ (ends_readDriverMqtt_not ho hno).from).settles.congr Iff.rfl ?_
      exact ⟨False.elim, fun ⟨_, m, h, _⟩ => hno m h⟩

end addDriver

/-! ### Both levels -/

/-- An entry is read when its `enable` is, and goes on to its driver when it is accepted. -/
theorem settles_entry {it : Json} {accepts : Json → Except Failure Bool} {pathKey : String} {body : Ctl Bool}
    (hok : EntryRead it → ∃ b, accepts it = .ok b) (herr : ¬ EntryRead it → ∃ e, accepts it = .error e)
    (hbody : EntryRead it → accepts it = .ok true → Settles body True (EntryRefused env accepts pathKey it)) :
    Settles (do if !(← accepts it) then return true else body : Ctl Bool) (EntryRead it)
      (EntryRefused env accepts pathKey it) := by
  by_cases hr : EntryRead it
  · obtain ⟨b, hb⟩ := hok hr
    refine Settles.after (ends_lift hb) ?_
    cases b with
    | true => exact (hbody hr hb).congr ⟨fun _ => hr, fun _ => trivial⟩ Iff.rfl
    | false =>
      refine (ends_pure true).settles.congr ⟨fun _ => hr, fun _ => trivial⟩ ⟨False.elim, ?_⟩
      intro hf
      rw [hf.1] at hb
      cases hb
  · obtain ⟨e, he⟩ := herr hr
    exact ⟨fun h => absurd h hr, fun h => absurd h hr, fun _ => ⟨e, ends_lift_bind_error he⟩⟩

theorem entryRefused_iff {it : Json} {accepts : Json → Except Failure Bool} {pathKey path : String}
    (ha : accepts it = .ok true) (hp : getStringAt it pathKey = .ok path) :
    (env.fileExists path = true ∧ ∃ m, ObjectUnder it "mqtt" m ∧ env.initFromJson m = false) ↔
      EntryRefused env accepts pathKey it := by
  constructor
  · intro h
    exact ⟨ha, ⟨path, hp, h.1⟩, h.2⟩
  · intro h
    obtain ⟨-, ⟨path', hp', hf⟩, hm⟩ := h
    rw [hp] at hp'
    exact ⟨Except.ok.inj hp' ▸ hf, hm⟩

theorem settles_readLevel1Driver (it : Json) :
    Settles (readLevel1Driver env it) (EntryRead it) (EntryRefused env acceptsLevel1 "path" it) := by
  refine settles_entry (fun hr => ?_) (fun hr => ?_) fun hr ha => ?_
  · have hs := stringAt_of_isObject hr.1
    refine andM_ok (valueBool_of_entryRead hr) (andM_ok (hs _) (andM_ok (hs _) (andM_ok (hs _) (andM_ok (hs _) ?_))))
    rw [Json.entry_of_isObject hr.1]
    exact ⟨_, rfl⟩
  · obtain ⟨e, he⟩ := valueBool_of_not_entryRead hr
    exact ⟨e, andM_error he⟩
  · obtain ⟨-, h⟩ := andM_true ha
    obtain ⟨hname, h⟩ := andM_true h
    obtain ⟨hconfig, h⟩ := andM_true h
    obtain ⟨hpath, h⟩ := andM_true h
    obtain ⟨hguid, htr⟩ := andM_true h
    rw [Json.entry_of_isObject hr.1] at htr
    obtain ⟨flags, hflags⟩ := readFlags_of_isObject env hr.1
    obtain ⟨name, hname⟩ := getStringAt_of_stringAt hname
    obtain ⟨config, hconfig⟩ := getStringAt_of_stringAt hconfig
    obtain ⟨path, hpath⟩ := getStringAt_of_stringAt hpath
    obtain ⟨guid, hguid⟩ := getStringAt_of_stringAt hguid
    obtain ⟨tr, htr⟩ := getUInt8_of_isNumber (Except.ok.inj htr)
    refine Settles.after (ends_lift hflags) <| Settles.after (ends_lift hname) <|
      Settles.after (ends_lift hconfig) <| Settles.after (ends_lift hpath) <| Settles.after (ends_lift hguid) <|
      Settles.after (ends_lift (Json.entry_of_isObject hr.1 _)) <| Settles.after (ends_lift htr) <|
      Settles.after (ends_log _ _) ?_
    exact (settles_addDriver hr.1 hname ends_addItem addItem_hasItem (ends_log _ _)).congr Iff.rfl
      (entryRefused_iff ha hpath)

theorem settles_readLevel2Driver (it : Json) :
    Settles (readLevel2Driver env it) (EntryRead it) (EntryRefused env acceptsLevel2 "path-driver" it) := by
  refine settles_entry (fun hr => ?_) (fun hr => ?_) fun hr ha => ?_
  · have hs := stringAt_of_isObject hr.1
    exact andM_ok (valueBool_of_entryRead hr) (andM_ok (hs _) (andM_ok (hs _) (andM_ok (hs _) (hs _))))
  · obtain ⟨e, he⟩ := valueBool_of_not_entryRead hr
    exact ⟨e, andM_error he⟩
  · obtain ⟨-, h⟩ := andM_true ha
    obtain ⟨hname, h⟩ := andM_true h
    obtain ⟨hconfig, h⟩ := andM_true h
    obtain ⟨hpath, hguid⟩ := andM_true h
    obtain ⟨name, hname⟩ := getStringAt_of_stringAt hname
    obtain ⟨config, hconfig⟩ := getStringAt_of_stringAt hconfig
    obtain ⟨path, hpath⟩ := getStringAt_of_stringAt hpath
    obtain ⟨guid, hguid⟩ := getStringAt_of_stringAt hguid
    refine Settles.after (ends_lift hname) <| Settles.after (ends_lift hconfig) <|
      Settles.after (ends_lift hpath) <| Settles.after (ends_lift hguid) <| Settles.after (ends_log _ _) ?_
    exact (settles_addDriver hr.1 hname ends_addItem addItem_hasItem (ends_pure _)).congr Iff.rfl
      (entryRefused_iff ha hpath)

/-! ## Driver blocks -/

/-- The entries are read, as far as one whose MQTT client refuses. -/
def EntriesRead (refused : Json → Prop) : List Json → Prop
  | [] => True
  | it :: its => EntryRead it ∧ (¬ refused it → EntriesRead refused its)

/-- The block is there, and it is an object or all its entries are read. -/
def BlockRead (refused : Json → Prop) (drivers : Json) (key : String) : Prop :=
  ∃ block, drivers.find? key = some block ∧ (block.isObject = true ∨ EntriesRead refused block.elements)

def BlockRefused (refused : Json → Prop) (drivers : Json) (key : String) : Prop :=
  ∃ block, drivers.find? key = some block ∧ block.isObject = false ∧ ∃ it ∈ block.elements, refused it

def Level1Refused (env : Environment) : Json → Prop := EntryRefused env acceptsLevel1 "path"

def Level2Refused (env : Environment) : Json → Prop := EntryRefused env acceptsLevel2 "path-driver"

/-- A `drivers` object has both blocks, unless the first ends the reading. -/
def DriversRead (env : Environment) (j : Json) : Prop :=
  ∀ d, ObjectUnder j "drivers" d → BlockRead (Level1Refused env) d "level1" ∧
    (¬ BlockRefused (Level1Refused env) d "level1" → BlockRead (Level2Refused env) d "level2")

def DriversRefused (env : Environment) (j : Json) : Prop :=
  ∃ d, ObjectUnder j "drivers" d ∧
    (BlockRefused (Level1Refused env) d "level1" ∨ BlockRefused (Level2Refused env) d "level2")

variable {read : Json → Ctl Bool} {refused : Json → Prop}

theorem settles_readEntries (h : ∀ it, Settles (read it) (EntryRead it) (refused it)) :
    ∀ its, Settles (readEntries read its) (EntriesRead refused its) (∃ it ∈ its, refused it)
  | [] => (ends_pure true).settles.congr Iff.rfl (by simp)
  | it :: its => ((h it).andM (settles_readEntries h its)).congr Iff.rfl (by simp)

theorem settles_readDriverBlock {d : Json} {level : String} (hd : ObjectUnder j "drivers" d)
    (h : ∀ it, Settles (read it) (EntryRead it) (refused it)) :
    Settles (readDriverBlock j key level read) (BlockRead refused d key) (BlockRefused refused d key) := by
  unfold readDriverBlock
  have hidx := Json.index_of_find hd.1
  refine Settles.after (ends_lift hidx) ?_
  cases hf : d.find? key with
  | none =>
    have hno : ¬ BlockRead refused d key := by simp [BlockRead, hf]
    have hholds : ∀ v, ¬ ObjectUnder d key v := by simp [ObjectUnder, hf]
    refine ⟨fun hr => absurd hr hno, fun hr => absurd hr hno, fun _ => ⟨.undefined, ?_⟩⟩
    exact (ends_holdsObject_not hholds).bind ((ends_log _ _).bind
      (ends_lift_bind hidx (ends_lift_bind_error (Json.index_of_absent hd.2 hf))))
  | some block =>
    cases ho : block.isObject with
    | true =>
      refine Settles.after (ends_holdsObject ⟨hf, ho⟩) (Settles.congr (Ends.settles (ends_pure true)) ?_ ?_)
      · exact ⟨fun _ => ⟨block, hf, .inl ho⟩, fun _ => trivial⟩
      · refine ⟨False.elim, fun ⟨block', hf', ho', _⟩ => ?_⟩
        rw [hf, Option.some.injEq] at hf'
        rw [← hf', ho] at ho'
        cases ho'
    | false =>
      have hholds : ∀ v, ¬ ObjectUnder d key v := by simp [ObjectUnder, hf, ho]
      refine (Settles.after (ends_holdsObject_not hholds) (Settles.after (ends_log _ _)
        (Settles.after (ends_lift hidx) (Settles.after (ends_lift (Json.index_of_find hf))
          (settles_readEntries h block.elements))))).congr ?_ ?_
      · simp [BlockRead, hf, ho]
      · simp [BlockRefused, hf, ho]

theorem settles_readDrivers : Settles (readDrivers env j) (DriversRead env j) (DriversRefused env j) := by
  unfold readDrivers
  by_cases hd : ∃ d, ObjectUnder j "drivers" d
  · obtain ⟨d, hd⟩ := hd
    refine (Settles.after (ends_holdsObject hd) ((settles_readDriverBlock hd settles_readLevel1Driver).andM
      (settles_readDriverBlock hd settles_readLevel2Driver))).congr ?_ ?_
    · exact ⟨fun h d' hd' => hd'.unique hd ▸ h, fun h => h d hd⟩
    · exact ⟨fun h => ⟨d, hd, h⟩, fun ⟨d', hd', h⟩ => hd'.unique hd ▸ h⟩
  · refine ((ends_holdsObject_not fun d h => hd ⟨d, h⟩).bind
      ((ends_log _ _).bind (ends_pure true))).settles.congr ?_ ?_
    · exact ⟨fun _ d h => absurd ⟨d, h⟩ hd, fun _ => trivial⟩
    · exact ⟨False.elim, fun ⟨d, h, _⟩ => hd ⟨d, h⟩⟩

/-! ## The whole document -/

/-- The settings `readJSON` cannot do without. -/
def requiredKeys : List String := ["runasuser", "guid", "servername", "classtypedb", "maindb"]

def GeneralRead (j : Json) : Prop := (∀ key ∈ requiredKeys, StringUnder j key) ∧ OptionalString j "vscpkey"

/-- `readJSON` ends early at the general settings or at the MQTT block, or all it meets can be read. -/
def Readable (env : Environment) (j : Json) : Prop :=
  GeneralRead j → MqttRead env j ∧ (¬ MqttRefused env j → DriversRead env j)

theorem settles_readJSON (env : Environment) (j : Json) : ∃ refused, Settles (readJSON env j) (Readable env j) refused := by
  refine ⟨_, Settles.congr (settles_readRequired.andM <| settles_readRequired.andM <| settles_readRequired.andM <|
    settles_readRequired.andM <| settles_readRequired.andM <| settles_readVscpKey.andM <|
    ends_readLogging.settles.andM <| settles_readMqtt.andM settles_readDrivers) ?_ Iff.rfl⟩
  simp only [Readable, GeneralRead, requiredKeys, List.forall_mem_cons, List.not_mem_nil, not_not, true_and,
    not_false_eq_true, false_implies, implies_true, and_true, true_implies, and_imp]

instance : Nonempty ControlObject := ⟨{ vscpKey := Vector.replicate 32 0 }⟩

/-- **When reading a configuration is total**: from every state `readJSON` returns
true or false, with no exception and no access to an absent key, exactly when the
document is readable. -/
theorem readJSON_returns_iff : (∀ c, ∃ b, (exec (readJSON env j) c).1 = .ok b) ↔ Readable env j := by
  obtain ⟨refused, h⟩ := settles_readJSON env j
  exact h.returns_iff

/-- No file can be read or found, no client takes a configuration, and every GUID is nil. -/
def bareEnvironment : Environment where
  fileExists _ := false
  readFile _ := some ""
  hexStr2ByteArray _ := []
  readStringValue _ := 0
  getFromString _ _ := Guid.nil
  getAsString _ := "00:00:00:00:00:00:00:00:00:00:00:00:00:00:00:00"
  initFromJson _ := false

/-- The required settings, with this `drivers` block. -/
def configWith (drivers : Json) : Json :=
  .obj [("runasuser", .str "vscp"), ("guid", .str "00:00:00:00:00:00:00:00:00:00:00:00:00:00:00:00"),
    ("servername", .str "local"), ("classtypedb", .str "vscp_events.sqlite3"), ("maindb", .str "vscpd.sqlite3"),
    ("drivers", drivers)]

/-- A `drivers` block with only Level I drivers indexes an absent key, and an
entry that is no object throws out of `readJSON`. -/
theorem readJSON_escapes :
    (exec (readJSON bareEnvironment (configWith (.obj [("level1", .arr [])])))
      { vscpKey := Vector.replicate 32 0 }).1 = .error .undefined ∧
    (exec (readJSON bareEnvironment (configWith (.obj [("level1", .arr [.str "off"]), ("level2", .arr [])])))
      { vscpKey := Vector.replicate 32 0 }).1 =
        .error (.thrown ⟨306, "cannot use value() with string"⟩) :=
  ⟨rfl, rfl⟩

end MqttVscpd
