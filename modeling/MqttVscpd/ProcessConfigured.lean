/-
From the configuration to the process. Whatever the document, and however reading it
ends, each item of the device list is enabled, idle, of a driver level there is, and
of a driver whose file exists; so what the model of a process starts from is what
`readJSON` and `init` leave (`process_of_configuration`).
-/
import MqttVscpd.DriverConfig
import MqttVscpd.EncryptionKey
import MqttVscpd.ProcessSafety

namespace MqttVscpd.Process

open Trying

/-- An item as `addItem` makes it, less its MQTT client. -/
structure Usable (env : Environment) (it : CDeviceItem) : Prop where
  enabled : it.bEnable = true
  active : it.bActive = true
  idle : it.bQuit = false ∧ it.bThreadStarted = false ∧ it.openHandle = 0
  level : it.driverLevel = VSCP_DRIVER_LEVEL1 ∨ it.driverLevel = VSCP_DRIVER_LEVEL2
  present : env.fileExists it.strPath = true
  unresolved : ∀ p, it.proc p = 0

def AllUsable (env : Environment) (c : ControlObject) : Prop := ∀ it ∈ c.devItemList, Usable env it

variable {env : Environment} {c : ControlObject}

/-! ## The driver entries -/

theorem keeps_log (level : LogLevel) (text : String) : Trying.Keeps (AllUsable env) (log level text) :=
  keeps_modify fun _ h => h

theorem keeps_holdsObject (j : Json) (key : String) : Trying.Keeps (AllUsable env) (holdsObject j key) :=
  (keeps_pure _).andM ((keeps_lift _).bind fun _ => keeps_pure _)

theorem keeps_addItem {name parameter path : String} {flags : UInt32} {guid : Guid} {level : UInt8}
    {translation : UInt32} (hlevel : level = VSCP_DRIVER_LEVEL1 ∨ level = VSCP_DRIVER_LEVEL2) :
    Trying.Keeps (AllUsable env) (addItem env name parameter path flags guid level translation) := by
  refine (keeps_log _ _).bind fun _ => (keeps_log _ _).bind fun _ => ?_
  cases hpath : env.fileExists path with
  | false => exact (keeps_log _ _).bind fun _ => keeps_pure false
  | true =>
    refine (keeps_log _ _).bind fun _ => (keeps_modify fun c hc it hit => ?_).bind fun _ => keeps_pure true
    simp only [List.mem_append, List.mem_singleton] at hit
    rcases hit with hit | rfl
    · exact hc it hit
    · exact ⟨rfl, rfl, ⟨rfl, rfl, rfl⟩, hlevel, hpath, fun _ => rfl⟩

theorem Usable.setMqtt {it : CDeviceItem} (h : Usable env it) (mqtt : Json) : Usable env (it.setMqtt mqtt) :=
  ⟨h.enabled, h.active, h.idle, h.level, h.present, h.unresolved⟩

theorem mem_modify {it : CDeviceItem} {items : List CDeviceItem} {f : CDeviceItem → CDeviceItem} {i : Nat}
    (h : it ∈ items.modify i f) : it ∈ items ∨ ∃ it' ∈ items, it = f it' := by
  obtain ⟨k, hk⟩ := List.mem_iff_getElem?.mp h
  simp only [List.getElem?_modify, Option.map_eq_map, Option.map_eq_some_iff] at hk
  obtain ⟨it', hit', rfl⟩ := hk
  have hmem : it' ∈ items := List.mem_of_getElem? hit'
  split
  · exact .inr ⟨it', hmem, rfl⟩
  · exact .inl hmem

theorem keeps_readDriverMqtt {it : Json} {level : String} {report : Ctl Unit}
    (hr : Trying.Keeps (AllUsable env) report) :
    Trying.Keeps (AllUsable env) (readDriverMqtt env it level report) := by
  refine (keeps_lift _).bind fun b => .ite ?_ fun _ => ?_
  · exact (keeps_log _ _).bind fun _ => keeps_pure true
  · refine (keeps_lift _).bind fun name => keeps_get_bind fun c _ => ?_
    split
    · exact (keeps_log _ _).bind fun _ => keeps_pure true
    · refine (keeps_lift _).bind fun mqtt => (keeps_modify fun c hc it hit => ?_).bind fun _ => hr.bind fun _ =>
        .ite ((keeps_log _ _).bind fun _ => keeps_pure false) fun _ => keeps_pure true
      rcases mem_modify hit with hit | ⟨it', hit', rfl⟩
      · exact hc it hit
      · exact (hc it' hit').setMqtt mqtt

theorem keeps_addDriver {it : Json} {level name path added : String} {add : Ctl Bool} {report : Ctl Unit}
    (ha : Trying.Keeps (AllUsable env) add) (hr : Trying.Keeps (AllUsable env) report) :
    Trying.Keeps (AllUsable env) (addDriver env it level name path added add report) := by
  refine ha.bind fun b => .ite ?_ fun _ => ?_
  · exact (keeps_log _ _).bind fun _ => keeps_pure true
  · exact (keeps_log _ _).bind fun _ => keeps_readDriverMqtt hr

theorem keeps_readLevel1Driver (it : Json) : Trying.Keeps (AllUsable env) (readLevel1Driver env it) := by
  refine (keeps_lift _).bind fun b => .ite (keeps_pure true) fun _ => ?_
  exact (keeps_lift _).bind fun _ => (keeps_lift _).bind fun _ => (keeps_lift _).bind fun _ =>
    (keeps_lift _).bind fun _ => (keeps_lift _).bind fun _ => (keeps_lift _).bind fun _ =>
    (keeps_lift _).bind fun _ => (keeps_log _ _).bind fun _ =>
    keeps_addDriver (keeps_addItem (.inl rfl)) (keeps_log _ _)

theorem keeps_readLevel2Driver (it : Json) : Trying.Keeps (AllUsable env) (readLevel2Driver env it) := by
  refine (keeps_lift _).bind fun b => .ite (keeps_pure true) fun _ => ?_
  exact (keeps_lift _).bind fun _ => (keeps_lift _).bind fun _ => (keeps_lift _).bind fun _ =>
    (keeps_lift _).bind fun _ => (keeps_log _ _).bind fun _ =>
    keeps_addDriver (keeps_addItem (.inr rfl)) (keeps_pure _)

theorem keeps_readEntries {read : Json → Ctl Bool} (h : ∀ it, Trying.Keeps (AllUsable env) (read it))
    (its : List Json) :
    Trying.Keeps (AllUsable env) (readEntries read its) := by
  induction its with
  | nil => exact keeps_pure true
  | cons it its ih => exact (h it).andM ih

theorem keeps_readDriverBlock {j : Json} {key level : String} {read : Json → Ctl Bool}
    (h : ∀ it, Trying.Keeps (AllUsable env) (read it)) :
    Trying.Keeps (AllUsable env) (readDriverBlock j key level read) := by
  refine (keeps_lift _).bind fun _ => (keeps_holdsObject _ _).bind fun b => .ite (keeps_pure true) fun _ => ?_
  exact (keeps_log _ _).bind fun _ => (keeps_lift _).bind fun _ => (keeps_lift _).bind fun sub =>
    keeps_readEntries h sub.elements

theorem keeps_readDrivers (j : Json) : Trying.Keeps (AllUsable env) (readDrivers env j) := by
  refine (keeps_holdsObject _ _).bind fun b => .ite ?_ fun _ => ?_
  · exact (keeps_log _ _).bind fun _ => keeps_pure true
  · exact (keeps_readDriverBlock keeps_readLevel1Driver).andM (keeps_readDriverBlock keeps_readLevel2Driver)

/-! ## The whole document -/

/-- What leaves the device list alone keeps its items. -/
theorem keeps_of_commutes {α : Type} {m : Ctl α} (h : ∀ c, Commutes ((holdItems c).applyWith {}) m) :
    Trying.Keeps (AllUsable env) m := by
  intro c hc
  unfold AllUsable
  rw [items_of_commutes (h c)]
  exact hc

theorem keeps_readJSON (j : Json) : Trying.Keeps (AllUsable env) (readJSON env j) := by
  rw [readJSON_eq]
  exact (keeps_of_commutes fun _ => commutes_readGeneral _ env j).andM
    ((keeps_of_commutes fun _ => commutes_readVscpKey rfl).andM
      ((keeps_of_commutes fun _ => commutes_readLogging fun _ => ⟨rfl, rfl⟩).andM
        ((keeps_of_commutes fun _ => commutes_readMqtt).andM (keeps_readDrivers j))))

/-- **A configuration makes a process that may start.** Whatever the document, and whether
`readJSON` returns or throws on it, every item it leaves in an empty device list is enabled,
active, not yet started nor asked to quit, of one of the two levels and of a driver whose file
exists; and with the registry an `init` that returns true leaves, after any daemons before,
it is a process of the model that has not begun. -/
theorem process_of_configuration {κ : Type} (j : Json) (hc : c.devItemList = []) {d : Discovery.Daemon Nat}
    (hd : Discovery.Reached d) {cfg : Cfg} {o : InitOutcome} (hup : (d.start cfg o).up = true) :
    (∀ it ∈ (exec (readJSON env j) c).2.devItemList, Usable env it) ∧
      Initial ({
        drivers := (exec (readJSON env j) c).2.devItemList.map Driver.ofItem
        registry := d.start cfg o } : State κ) := by
  have hready : AllUsable env (exec (readJSON env j) c).2 := keeps_readJSON j c (by simp [AllUsable, hc])
  exact ⟨hready, _, d, cfg, o, fun it hit => (hready it hit).idle.2.1, hd, hup, rfl⟩

/-- Two Level I drivers, after an `init` on no database. -/
theorem process_of_configuration_twoNames :
    ∃ items,
      (exec (readJSON driverEnvironment (level1Config twoNames)) { vscpKey := defaultKey }).2.devItemList = items ∧
      items.length = 2 ∧ Initial ({
        drivers := items.map Driver.ofItem
        registry := Discovery.Daemon.fresh.start Discovery.localCfg Discovery.initSucceeds } : State Unit) :=
  ⟨_, rfl, rfl, (process_of_configuration (level1Config twoNames) rfl (Transition.Reachable.init rfl) rfl).2⟩

end MqttVscpd.Process
