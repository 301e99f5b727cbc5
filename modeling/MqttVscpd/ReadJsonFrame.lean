/-
What the sections of `readJSON` leave alone. A change of the key, of the device
list, of a sink's enable flag and level, of the topics and of the records logged
before is not seen by a section that is not about them.
-/
import MqttVscpd.ReadJsonTotal

namespace MqttVscpd

open Trying

/-- The four places a log record can go to. -/
inductive SinkKind where
  | console
  | file
  | syslog
  | udp
  deriving DecidableEq

/-- A change of the control object: of the key, the device list, the sinks' enable
flags and levels, and records put before the log. -/
structure Change where
  key : Vector UInt8 32 → Vector UInt8 32 := id
  items : List CDeviceItem → List CDeviceItem := id
  enable : SinkKind → Bool → Bool := fun _ => id
  level : SinkKind → LogLevel → LogLevel := fun _ => id
  before : List LogRecord := []

def Change.apply (d : Change) (c : ControlObject) : ControlObject :=
  { c with
    vscpKey := d.key c.vscpKey
    devItemList := d.items c.devItemList
    bEnableConsoleLog := d.enable .console c.bEnableConsoleLog
    consoleLogLevel := d.level .console c.consoleLogLevel
    bEnableFileLog := d.enable .file c.bEnableFileLog
    fileLogLevel := d.level .file c.fileLogLevel
    bEnableSysLog := d.enable .syslog c.bEnableSysLog
    sysLogLevel := d.level .syslog c.sysLogLevel
    bEnableUdpLog := d.enable .udp c.bEnableUdpLog
    udpLogLevel := d.level .udp c.udpLogLevel
    log := d.before ++ c.log }

/-- The change leaves a sink's enable flag and level alone. -/
def Change.Spares (d : Change) (k : SinkKind) : Prop := d.enable k = id ∧ d.level k = id

/-- A change of the topics. -/
structure TopicChange where
  base : String → String := id
  drivers : String → String := id
  discovery : String → String := id

/-- The change, and one of the topics with it. -/
def Change.applyWith (d : Change) (t : TopicChange) (c : ControlObject) : ControlObject :=
  { d.apply c with
    topicDaemonBase := t.base c.topicDaemonBase
    topicDrivers := t.drivers c.topicDrivers
    topicDiscovery := t.discovery c.topicDiscovery }

theorem Change.applyWith_none (d : Change) : d.applyWith {} = d.apply := rfl

variable {d : Change} {t : TopicChange} {j : Json} {env : Environment} {key : String}

theorem commutes_log (level : LogLevel) (text : String) : Commutes (d.applyWith t) (log level text) := by
  refine commutes_modify fun c => ?_
  simp only [Change.applyWith, Change.apply, List.append_assoc]

theorem Commutes.catching {α : Type} {g : ControlObject → ControlObject} {m : Ctl α} {h : TypeError → Ctl α}
    (hm : Commutes g m) (hh : ∀ ex, Commutes g (h ex)) : Commutes g (catching m h) := by
  refine Trying.Commutes.tryCatch hm fun e => ?_
  cases e with
  | thrown ex => exact hh ex
  | undefined => exact commutes_throw _

theorem commutes_failRequired (key : String) : Commutes (d.applyWith t) (failRequired key) :=
  (commutes_log _ _).bind fun _ => commutes_pure false

/-! ## General settings and the key -/

theorem commutes_readRequired {set : String → ControlObject → ControlObject} {value : ControlObject → String}
    (hset : ∀ s c, set s (d.applyWith t c) = d.applyWith t (set s c))
    (hvalue : ∀ c, value (d.applyWith t c) = value c) :
    Commutes (d.applyWith t) (readRequired j key set value) := by
  refine Commutes.catching (.ite ?_ (commutes_failRequired key)) fun _ => commutes_failRequired key
  refine (commutes_lift _).bind fun v => (commutes_lift _).bind fun s => (commutes_modify (hset s)).bind fun _ => ?_
  refine commutes_get_bind (fun c => by rw [hvalue]) fun c => ?_
  exact (commutes_log _ _).bind fun _ => commutes_pure true

/-- The required settings at the start of `readJSON`. -/
def readGeneral (env : Environment) (j : Json) : Ctl Bool :=
  readRunAsUser j <&&> readGuid env j <&&> readServerName j <&&> readClassTypeDb j <&&> readMainDb j

theorem commutes_readGeneral (d : Change) (env : Environment) (j : Json) :
    Commutes (d.applyWith t) (readGeneral env j) := by
  have hrun : Commutes (d.applyWith t) (readRunAsUser j) := commutes_readRequired (fun _ _ => rfl) fun _ => rfl
  have hguid : Commutes (d.applyWith t) (readGuid env j) := commutes_readRequired (fun _ _ => rfl) fun _ => rfl
  have hname : Commutes (d.applyWith t) (readServerName j) := commutes_readRequired (fun _ _ => rfl) fun _ => rfl
  have hclass : Commutes (d.applyWith t) (readClassTypeDb j) := commutes_readRequired (fun _ _ => rfl) fun _ => rfl
  have hmain : Commutes (d.applyWith t) (readMainDb j) := commutes_readRequired (fun _ _ => rfl) fun _ => rfl
  exact hrun.andM (hguid.andM (hname.andM (hclass.andM hmain)))

theorem commutes_readEncryptionKey (hkey : d.key = id) (path : String) :
    Commutes (d.applyWith t) (readEncryptionKey env path) := by
  unfold readEncryptionKey
  refine (commutes_log _ _).bind fun _ => ?_
  split
  · refine (commutes_log _ _).bind fun _ => (commutes_modify fun c => ?_).bind fun _ => commutes_pure _
    simp only [Change.applyWith, Change.apply, hkey, id]
  · exact (commutes_log _ _).bind fun _ => commutes_pure _

theorem commutes_readKeyFile (hkey : d.key = id) (path : String) :
    Commutes (d.applyWith t) (readKeyFile env path) := by
  refine (commutes_log _ _).bind fun _ => (commutes_readEncryptionKey hkey path).bind fun b => ?_
  exact Commutes.ite ((commutes_log _ _).bind fun _ => commutes_pure true) (commutes_pure true)

theorem commutes_readVscpKey (hkey : d.key = id) : Commutes (d.applyWith t) (readVscpKey env j) := by
  refine Commutes.catching (.ite ?_ ?_) fun _ => commutes_failRequired _
  · exact (commutes_lift _).bind fun v => (commutes_lift _).bind fun s => commutes_readKeyFile hkey s
  · exact (commutes_log _ _).bind fun _ => commutes_readKeyFile hkey ""

theorem commutes_holdsObject : Commutes (d.applyWith t) (holdsObject j key) :=
  (commutes_pure _).andM ((commutes_lift _).bind fun _ => commutes_pure _)

/-! ## Logging -/

theorem commutes_readLoggingValue {α : Type} {read : Json → Except Failure α}
    {set : α → ControlObject → ControlObject} {report : ControlObject → String} {missing : String}
    (hset : ∀ v c, set v (d.applyWith t c) = d.applyWith t (set v c))
    (hreport : ∀ c, report (d.applyWith t c) = report c) :
    Commutes (d.applyWith t) (readLoggingValue j key read set report missing) := by
  refine (commutes_lift _).bind fun l => .ite ?_ (commutes_log _ _)
  refine Commutes.bind (Commutes.catching ?_ fun _ => commutes_log _ _) fun _ => ?_
  · exact (commutes_lift _).bind fun l => (commutes_lift _).bind fun v => (commutes_lift _).bind fun a =>
      commutes_modify (hset a)
  · exact commutes_get_bind (fun c => by rw [hreport]) fun c => commutes_log _ _

theorem commutes_setLogLevel {str : String} {set : LogLevel → ControlObject → ControlObject}
    (hset : ∀ v c, set v (d.applyWith t c) = d.applyWith t (set v c)) :
    Commutes (d.applyWith t) (setLogLevel key str set) := by
  unfold setLogLevel
  split
  · exact (commutes_modify (hset _)).bind fun _ => commutes_log _ _
  · exact commutes_log _ _

theorem commutes_readLogLevel {errorKey : String} {missing : Option String}
    {set : LogLevel → ControlObject → ControlObject}
    (hset : ∀ v c, set v (d.applyWith t c) = d.applyWith t (set v c)) :
    Commutes (d.applyWith t) (readLogLevel j key errorKey missing set) := by
  refine (commutes_lift _).bind fun l => .ite ?_ ?_
  · refine Commutes.bind (Commutes.catching ?_ fun _ => ?_) fun str => commutes_setLogLevel hset
    · exact (commutes_lift _).bind fun l => (commutes_lift _).bind fun v => commutes_lift _
    · exact (commutes_log _ _).bind fun _ => commutes_pure _
  · split
    · exact commutes_log _ _
    · exact commutes_pure _

theorem commutes_readFileLogging (h : d.Spares .file) : Commutes (d.applyWith t) (readFileLogging j) := by
  obtain ⟨hen, hlv⟩ := h
  refine Commutes.bind (commutes_readLoggingValue ?_ ?_) fun _ => Commutes.bind (commutes_readLogLevel ?_) fun _ =>
    Commutes.bind (commutes_readLoggingValue (fun _ _ => rfl) fun _ => rfl) fun _ =>
    Commutes.bind (commutes_readLoggingValue (fun _ _ => rfl) fun _ => rfl) fun _ =>
    Commutes.bind (commutes_readLoggingValue (fun _ _ => rfl) fun _ => rfl) fun _ =>
    commutes_readLoggingValue (fun _ _ => rfl) fun _ => rfl
  all_goals intros; simp only [Change.applyWith, Change.apply, hen, hlv, id]

theorem commutes_readConsoleLogging (h : d.Spares .console) : Commutes (d.applyWith t) (readConsoleLogging j) := by
  obtain ⟨hen, hlv⟩ := h
  refine Commutes.bind (commutes_readLoggingValue ?_ ?_) fun _ => Commutes.bind (commutes_readLogLevel ?_) fun _ =>
    commutes_readLoggingValue (fun _ _ => rfl) fun _ => rfl
  all_goals intros; simp only [Change.applyWith, Change.apply, hen, hlv, id]

theorem commutes_readSysLogging (h : d.Spares .syslog) : Commutes (d.applyWith t) (readSysLogging j) := by
  obtain ⟨hen, hlv⟩ := h
  refine Commutes.bind (commutes_readLoggingValue ?_ ?_) fun _ => Commutes.bind (commutes_readLogLevel ?_) fun _ =>
    commutes_readLoggingValue (fun _ _ => rfl) fun _ => rfl
  all_goals intros; simp only [Change.applyWith, Change.apply, hen, hlv, id]

theorem commutes_readUdpLogging (h : d.Spares .udp) : Commutes (d.applyWith t) (readUdpLogging j) := by
  obtain ⟨hen, hlv⟩ := h
  refine Commutes.bind (commutes_readLoggingValue ?_ ?_) fun _ => Commutes.bind (commutes_readLogLevel ?_) fun _ =>
    Commutes.bind (commutes_readLoggingValue (fun _ _ => rfl) fun _ => rfl) fun _ =>
    Commutes.bind (commutes_readLoggingValue (fun _ _ => rfl) fun _ => rfl) fun _ =>
    commutes_readLoggingValue (fun _ _ => rfl) fun _ => rfl
  all_goals intros; simp only [Change.applyWith, Change.apply, hen, hlv, id]

theorem commutes_readLogging (h : ∀ k, d.Spares k) : Commutes (d.applyWith t) (readLogging j) := by
  refine commutes_holdsObject.bind fun b => .ite ?_ ?_
  · exact (commutes_log _ _).bind fun _ => commutes_pure true
  · exact (commutes_readFileLogging (h .file)).bind fun _ => (commutes_readConsoleLogging (h .console)).bind fun _ =>
      (commutes_readSysLogging (h .syslog)).bind fun _ => (commutes_readUdpLogging (h .udp)).bind fun _ =>
      commutes_pure true

/-! ## MQTT and drivers -/

theorem commutes_readTopic {set : String → ControlObject → ControlObject} {missing : String}
    (hset : ∀ v c, set v (d.applyWith t c) = d.applyWith t (set v c)) :
    Commutes (d.applyWith t) (readTopic j key set missing) := by
  refine (commutes_lift _).bind fun _ => .ite ?_ (commutes_log _ _)
  exact (commutes_lift _).bind fun _ => (commutes_lift _).bind fun _ => (commutes_lift _).bind fun s =>
    (commutes_modify (hset s)).bind fun _ => commutes_log _ _

/-- The MQTT block reads and writes the topics. -/
theorem commutes_readMqtt : Commutes (d.applyWith {}) (readMqtt env j) := by
  refine commutes_holdsObject.bind fun b => .ite ?_ ?_
  · exact (commutes_log _ _).bind fun _ => commutes_pure true
  · refine (commutes_lift _).bind fun mqtt => Commutes.bind (commutes_modify ?_) fun _ => .ite ?_ ?_
    · intro c
      rfl
    · exact (commutes_log _ _).bind fun _ => commutes_pure false
    · refine Commutes.bind (commutes_readTopic ?_) fun _ => Commutes.bind (commutes_readTopic ?_) fun _ =>
        Commutes.bind (commutes_readTopic ?_) fun _ => Commutes.bind (commutes_modify ?_) fun _ => commutes_pure true
      · exact fun _ _ => rfl
      · exact fun _ _ => rfl
      · exact fun _ _ => rfl
      · intro c
        have hbase : (d.applyWith {} c).topicDaemonBase = c.topicDaemonBase := rfl
        unfold addTopicBase
        rw [hbase]
        by_cases h : c.topicDaemonBase.length ≠ 0
        · rw [if_pos h, if_pos h]
          rfl
        · rw [if_neg h, if_neg h]

theorem commutes_addItem {strName strParameter strPath : String} {flags : UInt32} {guid : Guid} {level : UInt8}
    {translation : UInt32} (hitems : d.items = id) :
    Commutes (d.applyWith t) (addItem env strName strParameter strPath flags guid level translation) := by
  refine (commutes_log _ _).bind fun _ => (commutes_log _ _).bind fun _ => .ite ?_ ?_
  · refine (commutes_log _ _).bind fun _ => (commutes_modify fun c => ?_).bind fun _ => commutes_pure true
    simp only [Change.applyWith, Change.apply, hitems, id]
  · exact (commutes_log _ _).bind fun _ => commutes_pure false

theorem commutes_readDriverMqtt {it : Json} {level : String} {report : Ctl Unit} (hitems : d.items = id)
    (hr : Commutes (d.applyWith t) report) : Commutes (d.applyWith t) (readDriverMqtt env it level report) := by
  refine (commutes_lift _).bind fun b => .ite ?_ ?_
  · exact (commutes_log _ _).bind fun _ => commutes_pure true
  · refine (commutes_lift _).bind fun name => commutes_get_bind (fun c => ?_) fun c => ?_
    · simp only [Change.applyWith, Change.apply, hitems, id]
    · split
      · exact (commutes_log _ _).bind fun _ => commutes_pure true
      · refine (commutes_lift _).bind fun mqtt => (commutes_modify fun c => ?_).bind fun _ => hr.bind fun _ =>
          .ite ((commutes_log _ _).bind fun _ => commutes_pure false) (commutes_pure true)
        simp only [Change.applyWith, Change.apply, hitems, id]

theorem commutes_addDriver {it : Json} {level name path added : String} {add : Ctl Bool} {report : Ctl Unit}
    (hitems : d.items = id) (ha : Commutes (d.applyWith t) add) (hr : Commutes (d.applyWith t) report) :
    Commutes (d.applyWith t) (addDriver env it level name path added add report) := by
  refine ha.bind fun b => .ite ?_ ?_
  · exact (commutes_log _ _).bind fun _ => commutes_pure true
  · exact (commutes_log _ _).bind fun _ => commutes_readDriverMqtt hitems hr

theorem commutes_readLevel1Driver (hitems : d.items = id) (it : Json) :
    Commutes (d.applyWith t) (readLevel1Driver env it) := by
  refine (commutes_lift _).bind fun b => .ite (commutes_pure true) ?_
  exact (commutes_lift _).bind fun _ => (commutes_lift _).bind fun _ => (commutes_lift _).bind fun _ =>
    (commutes_lift _).bind fun _ => (commutes_lift _).bind fun _ => (commutes_lift _).bind fun _ =>
    (commutes_lift _).bind fun _ => (commutes_log _ _).bind fun _ =>
    commutes_addDriver hitems (commutes_addItem hitems) (commutes_log _ _)

theorem commutes_readLevel2Driver (hitems : d.items = id) (it : Json) :
    Commutes (d.applyWith t) (readLevel2Driver env it) := by
  refine (commutes_lift _).bind fun b => .ite (commutes_pure true) ?_
  exact (commutes_lift _).bind fun _ => (commutes_lift _).bind fun _ => (commutes_lift _).bind fun _ =>
    (commutes_lift _).bind fun _ => (commutes_log _ _).bind fun _ =>
    commutes_addDriver hitems (commutes_addItem hitems) (commutes_pure _)

theorem commutes_readEntries {read : Json → Ctl Bool} (h : ∀ it, Commutes (d.applyWith t) (read it))
    (its : List Json) : Commutes (d.applyWith t) (readEntries read its) := by
  induction its with
  | nil => exact commutes_pure true
  | cons it its ih => exact (h it).andM ih

theorem commutes_readDriverBlock {level : String} {read : Json → Ctl Bool}
    (h : ∀ it, Commutes (d.applyWith t) (read it)) :
    Commutes (d.applyWith t) (readDriverBlock j key level read) := by
  refine (commutes_lift _).bind fun _ => commutes_holdsObject.bind fun b => .ite (commutes_pure true) ?_
  exact (commutes_log _ _).bind fun _ => (commutes_lift _).bind fun _ => (commutes_lift _).bind fun sub =>
    commutes_readEntries h sub.elements

theorem commutes_readDrivers (hitems : d.items = id) : Commutes (d.applyWith t) (readDrivers env j) := by
  refine commutes_holdsObject.bind fun b => .ite ?_ ?_
  · exact (commutes_log _ _).bind fun _ => commutes_pure true
  · exact (commutes_readDriverBlock (commutes_readLevel1Driver hitems)).andM
      (commutes_readDriverBlock (commutes_readLevel2Driver hitems))

/-! ## The parts of `readJSON` -/

/-- What `readJSON` reads after the key. -/
def readRest (env : Environment) (j : Json) : Ctl Bool := readLogging j <&&> readMqtt env j <&&> readDrivers env j

theorem readJSON_eq (env : Environment) (j : Json) :
    readJSON env j = (readGeneral env j <&&> readVscpKey env j <&&> readRest env j) := by
  simp only [readJSON, readGeneral, readRest, andM_assoc]

theorem commutes_readRest (hitems : d.items = id) (h : ∀ k, d.Spares k) :
    Commutes (d.applyWith {}) (readRest env j) :=
  (commutes_readLogging h).andM (commutes_readMqtt.andM (commutes_readDrivers hitems))

end MqttVscpd
