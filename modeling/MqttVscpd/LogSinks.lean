/-
Where log records go. The default logger is set three times: by `main` at start
up, by `init` after the configuration has been read, and by `main` again before
`run`. The last one is what `run` logs to. It is asynchronous: a record goes into the
queue of a thread pool, whose worker hands it to the sinks. `main` makes the pool
before it forks, and the worker does not come along into the daemon.
-/
import MqttVscpd.Lib.Channel
import MqttVscpd.ReadJsonFrame

namespace MqttVscpd

open Trying Transition

/-- The order of `spdlog::level::level_enum`. -/
def LogLevel.rank : LogLevel → Nat
  | .trace => 0
  | .debug => 1
  | .info => 2
  | .warn => 3
  | .err => 4
  | .critical => 5
  | .off => 6

instance : LE LogLevel := ⟨fun a b => a.rank ≤ b.rank⟩

instance (a b : LogLevel) : Decidable (a ≤ b) := inferInstanceAs (Decidable (a.rank ≤ b.rank))

structure Sink where
  kind : SinkKind
  level : LogLevel

/-- A logger. An `async_logger` posts its records to a thread pool, and waits while the
pool's queue is full. -/
structure Logger where
  name : String
  level : LogLevel
  sinks : List Sink
  pool : Option Channel := none

/-- The sinks a record reaches the level of: what `sink_it_` logs it to. -/
def Logger.sinkIt (l : Logger) (r : LogRecord) : List SinkKind :=
  (l.sinks.filter fun s => s.level ≤ r.level).map (·.kind)

/-- A record is logged through the default logger, or the pool's worker takes one. -/
inductive LogAct where
  | emit (r : LogRecord)
  | work

/-- Logging, over the pool's queue and the records that were handed to the sinks. -/
def Logger.step (l : Logger) (s : Channel.State LogRecord) : LogAct → Option (Channel.State LogRecord)
  | .emit r =>
    if l.level ≤ r.level then
      match l.pool with
      | none => some { s with taken := s.taken ++ [r] }
      | some pool => pool.step s (.put r)
    else some s
  | .work => l.pool.bind fun pool => pool.step s .take

/-- The records a sink has got. -/
def Logger.received (l : Logger) (s : Channel.State LogRecord) (k : SinkKind) : List LogRecord :=
  s.taken.flatMap fun r => List.replicate ((l.sinkIt r).count k) r

/-- The pool's worker has no more to do. -/
def Logger.Settled (l : Logger) (s : Channel.State LogRecord) : Prop := l.step s .work = none

/-- The records a list of labels emits. -/
def emitted (acts : List LogAct) : List LogRecord :=
  acts.filterMap fun
    | .emit r => some r
    | .work => none

/-- The pool of `init_thread_pool(8192, 1)`, in the process that `daemonize` leaves running. -/
def threadPool (dontRunAsDaemon : Bool) : Channel :=
  let pool : Channel := { capacity := 8192, reader := true }
  if dontRunAsDaemon then pool else pool.forked

/-- The logger `main` sets at start up. -/
def startUpLogger : Logger := { name := "console", level := .trace, sinks := [⟨.console, .trace⟩] }

/-- The logger `init` sets (Linux). -/
def initLogger (c : ControlObject) : Logger where
  name := "app"
  level := .trace
  sinks := [⟨.console, .warn⟩, ⟨.file, .trace⟩] ++ (if c.bEnableSysLog then [⟨.syslog, c.sysLogLevel⟩] else []) ++
    if c.bEnableUdpLog then [⟨.udp, c.udpLogLevel⟩] else []

/-- The logger `main` sets before `run`. -/
def mainLogger (dontRunAsDaemon : Bool) (c : ControlObject) : Logger where
  name := "logger"
  level := .trace
  sinks := [⟨.console, if c.bEnableConsoleLog then c.consoleLogLevel else .off⟩,
    ⟨.file, if c.bEnableFileLog then c.fileLogLevel else .off⟩]
  pool := some (threadPool dontRunAsDaemon)

/-- The default loggers of a start, in the order they are set. -/
def defaultLoggers (dontRunAsDaemon : Bool) (c : ControlObject) : List Logger :=
  [startUpLogger, initLogger c, mainLogger dontRunAsDaemon c]

/-- The default logger `run` finds: the one set last. -/
def runLogger (dontRunAsDaemon : Bool) (c : ControlObject) : Logger :=
  (defaultLoggers dontRunAsDaemon c).getLastD startUpLogger

/-! ## What is configured -/

/-- A sink's enable flag and level. -/
def ControlObject.settings (c : ControlObject) : SinkKind → Bool × LogLevel
  | .console => (c.bEnableConsoleLog, c.consoleLogLevel)
  | .file => (c.bEnableFileLog, c.fileLogLevel)
  | .syslog => (c.bEnableSysLog, c.sysLogLevel)
  | .udp => (c.bEnableUdpLog, c.udpLogLevel)

def SinkKind.enableKey : SinkKind → String
  | .console => "console-enable-log"
  | .file => "file-enable-log"
  | .syslog => "syslog-enable-log"
  | .udp => "udp-enable-log"

def SinkKind.levelKey : SinkKind → String
  | .console => "console-log-level"
  | .file => "file-log-level"
  | .syslog => "syslog-log-level"
  | .udp => "udp-log-level"

/-- The value under a key, if it is there and of the type that is read. -/
def valueUnder {α : Type} (read : Json → Except Failure α) (l : Json) (key : String) : Option α :=
  (l.find? key).bind fun v => (read v).toOption

/-- The names of the levels as they are documented, and "warn", from the level that lets
everything through to the one that lets nothing through. -/
def documentedLevels : List (String × LogLevel) :=
  [("trace", .trace), ("debug", .debug), ("info", .info), ("warn", .warn), ("err", .err), ("critical", .critical),
    ("off", .off)]

/-- The level a text means: of the levels whose names are in it, in any case, the one that
lets through least. -/
def levelNamed (text : String) : Option LogLevel :=
  ((documentedLevels.filter fun p => p.1.toList <:+: text.toLower.toList).getLast?).map (·.2)

/-- The level a text under a key names. -/
def levelUnder (l : Json) (key : String) : Option LogLevel := (valueUnder Json.getString l key).bind levelNamed

/-- A sink's enable flag and level in the logging block, or what they were before. -/
def settingsUnder (l : Json) (default : Bool × LogLevel) (k : SinkKind) : Bool × LogLevel :=
  ((valueUnder Json.getBool l k.enableKey).getD default.1, (levelUnder l k.levelKey).getD default.2)

/-- What the configuration says of a sink. -/
def configured (j : Json) (default : Bool × LogLevel) (k : SinkKind) : Bool × LogLevel :=
  match j.find? "logging" with
  | some l => if l.isObject then settingsUnder l default k else default
  | none => default

/-- What the constructor sets. -/
def defaultSettings : SinkKind → Bool × LogLevel
  | .console => (true, .info)
  | _ => (false, .info)

/-- What the configuration says of each sink, the constructor's values where it says nothing. -/
def configuredSinks (j : Json) (k : SinkKind) : Bool × LogLevel := configured j (defaultSettings k) k

/-- The chain of `find`s comes to the level that lets through least. -/
theorem findLogLevel_eq (text : String) : (findLogLevel text.toLower).map (·.2) = levelNamed text := by
  have hreverse : logLevelNames = documentedLevels.reverse := rfl
  rw [levelNamed, findLogLevel, ← List.head?_filter, hreverse, List.filter_reverse, List.head?_reverse]

/-- A documented name means its own level. -/
theorem levelNamed_documented : ∀ p ∈ documentedLevels, levelNamed p.1 = some p.2 := by
  have hlower : ∀ text : String, text.toLower.toList = text.toList.map Char.toLower := by
    intro text
    change (text.map Char.toLower).toList = _
    rw [String.toList_map]
  simp only [levelNamed, hlower]
  decide

/-! ## What `readJSON` leaves in the settings -/

/-- The change that holds a sink's settings at those of `c`. -/
def holdSettings (k : SinkKind) (c : ControlObject) : Change where
  enable k' := if k' = k then fun _ => (c.settings k).1 else id
  level k' := if k' = k then fun _ => (c.settings k).2 else id

theorem holdSettings_self (k : SinkKind) (c : ControlObject) : (holdSettings k c).apply c = c := by
  cases k <;> rfl

theorem holdSettings_spares {k k' : SinkKind} (h : k' ≠ k) (c : ControlObject) : (holdSettings k c).Spares k' :=
  ⟨if_neg h, if_neg h⟩

/-- What does not see the settings of a sink leaves them as they are. -/
theorem settings_of_commutes {α : Type} {m : Ctl α} {k : SinkKind} {c : ControlObject}
    (h : Commutes ((holdSettings k c).applyWith {}) m) : (exec m c).2.settings k = c.settings k := by
  rw [← h.fixed (holdSettings_self k c)]
  cases k <;> rfl

variable {j l : Json} {key : String} {k : SinkKind} {c : ControlObject}

theorem settings_log (level : LogLevel) (text : String) :
    (exec (log level text) c).2.settings k = c.settings k :=
  settings_of_commutes (commutes_log level text)

/-- A value of the logging block, when the block and the key are there. -/
theorem exec_loggingValue {α : Type} (read : Json → Except Failure α) (c : ControlObject)
    (hl : j.index "logging" = .ok l) {v : Json} (hv : l.find? key = some v) :
    exec (do read (← (← j.index "logging").index key) : Ctl α) c = (read v, c) := by
  rw [exec_lift_bind hl, exec_lift_bind (Json.index_of_find hv)]
  rfl

theorem settings_readLoggingValue {α : Type} {read : Json → Except Failure α} (hr : Throwing read)
    (hl : j.index "logging" = .ok l) {set : α → ControlObject → ControlObject} {report : ControlObject → String}
    {missing : String} :
    (exec (readLoggingValue j key read set report missing) c).2.settings k =
      ((valueUnder read l key).elim c fun v => set v c).settings k := by
  unfold readLoggingValue valueUnder
  rw [exec_lift_bind hl]
  cases hf : l.find? key with
  | none =>
    rw [if_neg (contains_of_absent hf)]
    exact settings_log _ _
  | some v =>
    rw [if_pos (contains_of_find hf), Option.bind_some]
    have hidx := Json.index_of_find hf
    rcases hr.cases v with ⟨a, ha⟩ | ⟨ex, hex⟩
    · have hbody : exec (do
          let v ← read (← (← j.index "logging").index key)
          modify (set v) : Ctl Unit) c = (.ok (), set a c) := by
        rw [exec_lift_bind hl, exec_lift_bind hidx, exec_lift_bind ha, exec_modify]
      rw [exec_bind_of_ok (exec_catching_ok hbody), exec_get_bind, settings_log, ha]
      rfl
    · have hbody : exec (do
          let v ← read (← (← j.index "logging").index key)
          modify (set v) : Ctl Unit) c = (.error (.thrown ex), c) := by
        rw [exec_lift_bind hl, exec_lift_bind hidx, exec_bind, hex]
        rfl
      rw [exec_bind_of_ok ((exec_catching_thrown hbody).trans (exec_log ..)), exec_get_bind, settings_log, hex]
      cases k <;> rfl

theorem settings_setLogLevel {str : String} {set : LogLevel → ControlObject → ControlObject} :
    (exec (setLogLevel key str set) c).2.settings k =
      ((findLogLevel str).elim c fun p => set p.2 c).settings k := by
  unfold setLogLevel
  split
  · next name level h =>
    rw [h, exec_bind_of_ok (exec_modify _ c), settings_log]
    rfl
  · next h =>
    rw [h, settings_log]
    rfl

theorem findLogLevel_empty : findLogLevel "".toLower = none := by
  have hlower : "".map Char.toLower = "" := by simp
  change findLogLevel ("".map Char.toLower) = none
  rw [hlower]
  simp [findLogLevel, logLevelNames]

theorem settings_readLogLevel (hl : j.index "logging" = .ok l) {errorKey : String} {missing : Option String}
    {set : LogLevel → ControlObject → ControlObject} :
    (exec (readLogLevel j key errorKey missing set) c).2.settings k =
      ((levelUnder l key).elim c fun v => set v c).settings k := by
  have hnamed : levelNamed = fun text => (findLogLevel text.toLower).map (·.2) :=
    funext fun text => (findLogLevel_eq text).symm
  unfold readLogLevel levelUnder valueUnder
  rw [exec_lift_bind hl, hnamed]
  cases hf : l.find? key with
  | none =>
    rw [if_neg (contains_of_absent hf)]
    cases missing with
    | none => rfl
    | some text => exact settings_log _ _
  | some v =>
    rw [if_pos (contains_of_find hf), Option.bind_some]
    have hvalue := exec_loggingValue Json.getString c hl hf
    rcases throwing_getString.cases v with ⟨s, hs⟩ | ⟨ex, hex⟩
    · have hbody : exec (do (← (← j.index "logging").index key).getString : Ctl String) c = (.ok s, c) :=
        hvalue.trans (by rw [hs])
      rw [exec_bind_of_ok (exec_catching_ok hbody), settings_setLogLevel, hs]
      cases hfind : findLogLevel s.toLower <;> simp [hfind, Except.toOption]
    · have hbody : exec (do (← (← j.index "logging").index key).getString : Ctl String) c =
          (.error (.thrown ex), c) :=
        hvalue.trans (by rw [hex])
      have hcatch : exec (catching (do (← (← j.index "logging").index key).getString) fun ex => do
          log .err s!"ReadConfig: Failed to read '{errorKey}' Error='{ex.what}'"
          return "") c = (.ok "", (exec (log .err s!"ReadConfig: Failed to read '{errorKey}' Error='{ex.what}'") c).2) :=
        exec_catching_thrown hbody
      rw [exec_bind_of_ok hcatch, settings_setLogLevel, findLogLevel_empty, hex]
      exact settings_log _ _

/-- A part of the logging block: the enable flag, the level, and what does not touch the settings. -/
theorem settings_section (hl : j.index "logging" = .ok l) {setEnable : Bool → ControlObject → ControlObject}
    {setLevel : LogLevel → ControlObject → ControlObject} {report : ControlObject → String} {missing errorKey : String}
    {absent : Option String} {rest : Ctl Unit}
    (hen : ∀ v c, (setEnable v c).settings k = (v, (c.settings k).2))
    (hlv : ∀ v c, (setLevel v c).settings k = ((c.settings k).1, v))
    (hrest : ∀ d : Change, Commutes (d.applyWith {}) rest) :
    (exec (do
      readLoggingValue j k.enableKey Json.getBool setEnable report missing
      readLogLevel j k.levelKey errorKey absent setLevel
      rest) c).2.settings k =
      ((valueUnder Json.getBool l k.enableKey).getD (c.settings k).1, (levelUnder l k.levelKey).getD (c.settings k).2) := by
  have henable : ∀ (o : Option Bool) (c : ControlObject),
      (o.elim c fun v => setEnable v c).settings k = (o.getD (c.settings k).1, (c.settings k).2) := by
    intro o c
    cases o with
    | none => rfl
    | some v => exact hen v c
  have hlevel : ∀ (o : Option LogLevel) (c : ControlObject),
      (o.elim c fun v => setLevel v c).settings k = ((c.settings k).1, o.getD (c.settings k).2) := by
    intro o c
    cases o with
    | none => rfl
    | some v => exact hlv v c
  rw [exec_bind_of_ok ((ends_readLoggingValue throwing_getBool hl).exec_eq c),
    exec_bind_of_ok ((ends_readLogLevel hl).exec_eq _), settings_of_commutes (hrest _), settings_readLogLevel hl,
    hlevel, settings_readLoggingValue throwing_getBool hl, henable]

/-! ## The sections of `readJSON` and the settings -/

theorem settings_readConsoleLogging (hl : j.index "logging" = .ok l) :
    (exec (readConsoleLogging j) c).2.settings .console = settingsUnder l (c.settings .console) .console := by
  refine settings_section (k := .console) hl (fun _ _ => rfl) (fun _ _ => rfl) fun d => ?_
  exact commutes_readLoggingValue (fun _ _ => rfl) fun _ => rfl

theorem settings_readFileLogging (hl : j.index "logging" = .ok l) :
    (exec (readFileLogging j) c).2.settings .file = settingsUnder l (c.settings .file) .file := by
  refine settings_section (k := .file) hl (fun _ _ => rfl) (fun _ _ => rfl) fun d => ?_
  refine Commutes.bind (commutes_readLoggingValue ?_ ?_) fun _ =>
    Commutes.bind (commutes_readLoggingValue ?_ ?_) fun _ => Commutes.bind (commutes_readLoggingValue ?_ ?_) fun _ =>
    commutes_readLoggingValue ?_ ?_
  all_goals intros; rfl

theorem settings_readSysLogging (hl : j.index "logging" = .ok l) :
    (exec (readSysLogging j) c).2.settings .syslog = settingsUnder l (c.settings .syslog) .syslog := by
  refine settings_section (k := .syslog) hl (fun _ _ => rfl) (fun _ _ => rfl) fun d => ?_
  exact commutes_readLoggingValue (fun _ _ => rfl) fun _ => rfl

theorem settings_readUdpLogging (hl : j.index "logging" = .ok l) :
    (exec (readUdpLogging j) c).2.settings .udp = settingsUnder l (c.settings .udp) .udp := by
  refine settings_section (k := .udp) hl (fun _ _ => rfl) (fun _ _ => rfl) fun d => ?_
  refine Commutes.bind (commutes_readLoggingValue ?_ ?_) fun _ =>
    Commutes.bind (commutes_readLoggingValue ?_ ?_) fun _ => commutes_readLoggingValue ?_ ?_
  all_goals intros; rfl

/-- The four parts one after the other: each sets its own sink's settings. -/
theorem settings_parts (hl : j.index "logging" = .ok l) :
    (exec (readUdpLogging j) (exec (readSysLogging j) (exec (readConsoleLogging j)
      (exec (readFileLogging j) c).2).2).2).2.settings k = settingsUnder l (c.settings k) k := by
  cases k with
  | file =>
    rw [settings_of_commutes (commutes_readUdpLogging (holdSettings_spares (by decide) _)),
      settings_of_commutes (commutes_readSysLogging (holdSettings_spares (by decide) _)),
      settings_of_commutes (commutes_readConsoleLogging (holdSettings_spares (by decide) _)),
      settings_readFileLogging hl]
  | console =>
    rw [settings_of_commutes (commutes_readUdpLogging (holdSettings_spares (by decide) _)),
      settings_of_commutes (commutes_readSysLogging (holdSettings_spares (by decide) _)),
      settings_readConsoleLogging hl,
      settings_of_commutes (commutes_readFileLogging (holdSettings_spares (by decide) _))]
  | syslog =>
    rw [settings_of_commutes (commutes_readUdpLogging (holdSettings_spares (by decide) _)),
      settings_readSysLogging hl,
      settings_of_commutes (commutes_readConsoleLogging (holdSettings_spares (by decide) _)),
      settings_of_commutes (commutes_readFileLogging (holdSettings_spares (by decide) _))]
  | udp =>
    rw [settings_readUdpLogging hl,
      settings_of_commutes (commutes_readSysLogging (holdSettings_spares (by decide) _)),
      settings_of_commutes (commutes_readConsoleLogging (holdSettings_spares (by decide) _)),
      settings_of_commutes (commutes_readFileLogging (holdSettings_spares (by decide) _))]

theorem settings_readLogging : (exec (readLogging j) c).2.settings k = configured j (c.settings k) k := by
  unfold readLogging
  have hobj : (exec (holdsObject j "logging") c).2.settings k = c.settings k :=
    settings_of_commutes commutes_holdsObject
  by_cases ho : ∃ l, ObjectUnder j "logging" l
  · obtain ⟨l, ho⟩ := ho
    have hl := Json.index_of_find ho.1
    have hconf : configured j (c.settings k) k = settingsUnder l (c.settings k) k := by
      simp only [configured, ho.1, ho.2, if_true]
    rw [exec_bind_of_ok ((ends_holdsObject ho).exec_eq c), hconf, ← hobj]
    generalize (exec (holdsObject j "logging") c).2 = c
    simp only [Bool.not_true, Bool.false_eq_true, if_false]
    rw [exec_bind_of_ok ((ends_readFileLogging hl).exec_eq c), exec_bind_of_ok ((ends_readConsoleLogging hl).exec_eq _),
      exec_bind_of_ok ((ends_readSysLogging hl).exec_eq _), exec_bind_of_ok ((ends_readUdpLogging hl).exec_eq _),
      exec_pure]
    exact settings_parts hl
  · have hconf : configured j (c.settings k) k = c.settings k := by
      unfold configured
      cases hf : j.find? "logging" with
      | none => rfl
      | some l => exact if_neg fun hobject => ho ⟨l, hf, hobject⟩
    rw [exec_bind_of_ok ((ends_holdsObject_not fun l hl => ho ⟨l, hl⟩).exec_eq c), hconf, ← hobj]
    simp only [Bool.not_false, if_true]
    rw [exec_bind_of_ok ((ends_log _ _).exec_eq _), exec_pure]
    exact settings_log _ _

/-- `readJSON` leaves in the settings what the configuration says. -/
theorem settings_readJSON {env : Environment} {c' : ControlObject} (h : exec (readJSON env j) c = (.ok true, c')) :
    c'.settings k = configured j (c.settings k) k := by
  rw [readJSON_eq] at h
  obtain ⟨c₁, h₁, h⟩ := exec_andM_true h
  obtain ⟨c₂, h₂, h⟩ := exec_andM_true h
  obtain ⟨c₃, h₃, h⟩ := exec_andM_true h
  obtain ⟨c₄, h₄, h₅⟩ := exec_andM_true h
  have hgeneral := settings_of_commutes (k := k) (commutes_readGeneral (holdSettings k c) env j)
  have hkey : (exec (readVscpKey env j) c₁).2.settings k = c₁.settings k :=
    settings_of_commutes (commutes_readVscpKey rfl)
  have hlogging : (exec (readLogging j) c₂).2.settings k = configured j (c₂.settings k) k := settings_readLogging
  have hmqtt : (exec (readMqtt env j) c₃).2.settings k = c₃.settings k := settings_of_commutes commutes_readMqtt
  have hdrivers : (exec (readDrivers env j) c₄).2.settings k = c₄.settings k :=
    settings_of_commutes (commutes_readDrivers rfl)
  rw [h₁] at hgeneral
  rw [h₂] at hkey
  rw [h₃] at hlogging
  rw [h₄] at hmqtt
  rw [h₅] at hdrivers
  rw [hdrivers, hmqtt, hlogging, hkey, hgeneral]

/-! ## Delivery -/

/-- A sink is to get a record. -/
def Wanted (settings : SinkKind → Bool × LogLevel) (k : SinkKind) (r : LogRecord) : Prop :=
  (settings k).1 = true ∧ (settings k).2 ≤ r.level

instance (settings : SinkKind → Bool × LogLevel) (k : SinkKind) (r : LogRecord) : Decidable (Wanted settings k r) :=
  inferInstanceAs (Decidable (_ ∧ _))

/-- Each sink has got the records it is to get, of those that were emitted, once each and
in their order, and no other. -/
def Routed (settings : SinkKind → Bool × LogLevel) (records : List LogRecord) (got : SinkKind → List LogRecord) :
    Prop :=
  ∀ k, got k = records.filter fun r => Wanted settings k r

theorem trace_le (level : LogLevel) : LogLevel.trace ≤ level := Nat.zero_le level.rank

theorem off_le_iff (level : LogLevel) : LogLevel.off ≤ level ↔ level = .off := by cases level <;> decide

theorem count_sinkIt (l : Logger) (r : LogRecord) (k : SinkKind) :
    (l.sinkIt r).count k = l.sinks.countP fun s => decide (s.level ≤ r.level) && s.kind == k := by
  rw [Logger.sinkIt, List.count_eq_countP, List.countP_map, List.countP_filter]
  refine List.countP_congr fun s _ => ?_
  simp [and_comm]

/-- `init`'s logger serves syslog and UDP as configured. -/
theorem count_initLogger (c : ControlObject) (r : LogRecord) {k : SinkKind} (hk : k = .syslog ∨ k = .udp) :
    ((initLogger c).sinkIt r).count k = if Wanted c.settings k r then 1 else 0 := by
  rw [count_sinkIt]
  rcases hk with rfl | rfl
  · cases hs : c.bEnableSysLog <;> cases hu : c.bEnableUdpLog <;>
      simp [initLogger, Wanted, ControlObject.settings, hs, hu, List.countP_cons]
  · cases hs : c.bEnableSysLog <;> cases hu : c.bEnableUdpLog <;>
      simp [initLogger, Wanted, ControlObject.settings, hs, hu, List.countP_cons]

/-- `main`'s logger passes a record on to a sink: it has none for syslog and UDP, and turns
one off by its level. -/
def PassedOn (settings : SinkKind → Bool × LogLevel) (k : SinkKind) (r : LogRecord) : Prop :=
  (k = .console ∨ k = .file) ∧ (if (settings k).1 then (settings k).2 else .off) ≤ r.level

instance (settings : SinkKind → Bool × LogLevel) (k : SinkKind) (r : LogRecord) : Decidable (PassedOn settings k r) :=
  inferInstanceAs (Decidable (_ ∧ _))

variable {d : Bool} {r : LogRecord} {s t : Channel.State LogRecord} {acts : List LogAct}

theorem count_mainLogger (c : ControlObject) (r : LogRecord) (k : SinkKind) :
    ((mainLogger d c).sinkIt r).count k = if PassedOn c.settings k r then 1 else 0 := by
  rw [count_sinkIt]
  cases k with
  | console => cases he : c.bEnableConsoleLog <;>
      simp [mainLogger, PassedOn, ControlObject.settings, List.countP_cons, he]
  | file => cases he : c.bEnableFileLog <;> simp [mainLogger, PassedOn, ControlObject.settings, List.countP_cons, he]
  | syslog | udp => simp [mainLogger, PassedOn]

theorem received_mainLogger (c : ControlObject) (s : Channel.State LogRecord) (k : SinkKind) :
    (mainLogger d c).received s k = s.taken.filter fun r => PassedOn c.settings k r := by
  rw [Logger.received]
  induction s.taken with
  | nil => rfl
  | cons r records ih =>
    rw [List.flatMap_cons, ih, count_mainLogger, List.filter_cons]
    by_cases hp : PassedOn c.settings k r <;> simp [hp]

/-- `main`'s logger has no level of its own: logging is the pool's queue at work. -/
theorem run_mainLogger (c : ControlObject) (h : run (mainLogger d c).step s acts = some t) :
    ∃ puts, Channel.puts puts = emitted acts ∧ run (threadPool d).step s puts = some t := by
  induction acts generalizing s with
  | nil => exact ⟨[], rfl, h⟩
  | cons a acts ih =>
    obtain ⟨s', h₁, h₂⟩ := run_cons_iff.mp h
    obtain ⟨puts, hputs, hrun⟩ := ih h₂
    cases a with
    | emit r =>
      have hput : (threadPool d).step s (.put r) = some s' := by
        rw [Logger.step, mainLogger, if_pos (trace_le _)] at h₁
        exact h₁
      exact ⟨.put r :: puts, congrArg (r :: ·) hputs, run_cons_iff.mpr ⟨s', hput, hrun⟩⟩
    | work => exact ⟨.take :: puts, hputs, run_cons_iff.mpr ⟨s', h₁, hrun⟩⟩

/-- In the foreground the sinks are handed all records, in the daemon none. -/
theorem taken_mainLogger {c : ControlObject} (h : run (mainLogger d c).step {} acts = some s)
    (hsettled : (mainLogger d c).Settled s) : s.taken = if d then emitted acts else [] := by
  obtain ⟨puts, hputs, hrun⟩ := run_mainLogger c h
  cases d with
  | false => exact Channel.run_unread rfl hrun
  | true =>
    have hempty : s.queue = [] := (Channel.step_take_none_iff.mp hsettled).resolve_left Bool.noConfusion
    have hhistory := Channel.run_history hrun
    rw [hempty, List.append_nil, hputs] at hhistory
    exact hhistory

/-- In the daemon log calls return 8192 times at most. -/
theorem length_emitted_le {c : ControlObject} (h : run (mainLogger false c).step {} acts = some s) :
    (emitted acts).length ≤ 8192 := by
  obtain ⟨puts, hputs, hrun⟩ := run_mainLogger c h
  have htaken : s.taken = [] := Channel.run_unread rfl hrun
  have hhistory := Channel.run_history hrun
  rw [htaken, hputs] at hhistory
  have hqueue : s.queue = emitted acts := hhistory
  rw [← hqueue]
  exact Channel.run_capacity hrun (Nat.zero_le _)

/-- Whatever was emitted in the foreground, the worker comes to an end with it. -/
theorem settles_mainLogger (c : ControlObject) (s : Channel.State LogRecord) :
    ∃ acts t, emitted acts = [] ∧ run (mainLogger true c).step s acts = some t ∧ (mainLogger true c).Settled t := by
  refine ⟨List.replicate s.queue.length .work, ⟨[], s.taken ++ s.queue⟩, ?_, ?_, rfl⟩
  · rw [emitted, List.filterMap_replicate]
  · have hmap : ∀ (n : Nat) (s : Channel.State LogRecord),
        run (mainLogger true c).step s (List.replicate n .work) =
          run (threadPool true).step s (List.replicate n .take) := by
      intro n
      induction n with
      | zero => exact fun s => rfl
      | succ n ih => exact fun s => congrArg ((threadPool true).step s .take).bind (funext fun s' => ih s')
    rw [hmap, Channel.run_drain rfl]

/-- Two filters agree on a list exactly when their conditions do. -/
theorem filter_eq_filter_iff {α : Type} {p q : α → Prop} [DecidablePred p] [DecidablePred q] {l : List α} :
    (l.filter fun x => p x) = (l.filter fun x => q x) ↔ ∀ x ∈ l, p x ↔ q x := by
  constructor
  · intro h x hx
    have hmem : x ∈ (l.filter fun x => p x) ↔ x ∈ l.filter fun x => q x := by rw [h]
    simpa [hx] using hmem
  · intro h
    exact List.filter_congr fun x hx => decide_eq_decide.mpr (h x hx)

/-- What a record needs to get to the sinks it is for. In the foreground: no enabled syslog or
UDP sink is to get it, and with the level off it finds console and file enabled. In the
daemon: no enabled sink is to get it. -/
def SinksServe (dontRunAsDaemon : Bool) (settings : SinkKind → Bool × LogLevel) (r : LogRecord) : Prop :=
  if dontRunAsDaemon then
    (∀ k, k = .syslog ∨ k = .udp → ¬ Wanted settings k r) ∧
      (r.level = .off → ∀ k, k = .console ∨ k = .file → (settings k).1 = true)
  else ∀ k, ¬ Wanted settings k r

theorem passedOn_iff_wanted {settings : SinkKind → Bool × LogLevel} :
    (∀ k, PassedOn settings k r ↔ Wanted settings k r) ↔ SinksServe true settings r := by
  have hkind : ∀ k : SinkKind, k = .syslog ∨ k = .udp ↔ ¬ (k = .console ∨ k = .file) := by
    intro k
    cases k <;> decide
  simp only [SinksServe, if_true, hkind]
  constructor
  · intro h
    refine ⟨fun k hk hw => hk ((h k).mpr hw).1, fun hoff k hk => ?_⟩
    refine ((h k).mp ⟨hk, ?_⟩).1
    -- A record of level off passes every level.
    have hall : ∀ level : LogLevel, level ≤ .off := by
      intro level
      cases level <;> decide
    rw [hoff]
    exact hall _
  · intro h k
    constructor
    · intro hpass
      cases he : (settings k).1 with
      | true => exact ⟨he, by simpa [he] using hpass.2⟩
      | false =>
        have hoff : r.level = .off := (off_le_iff _).mp (by simpa [he] using hpass.2)
        rw [h.2 hoff k hpass.1] at he
        cases he
    · intro hw
      refine ⟨?_, by simpa [hw.1] using hw.2⟩
      by_contra hk
      exact h.1 k hk hw

/-- **Records go where the configuration says exactly when** each of them is one the logger
serves, for every run of the logger, once the worker has come to an end with it. -/
theorem log_routed_iff (env : Environment) (j : Json) (key : Vector UInt8 32) (c : ControlObject) (d : Bool)
    (acts : List LogAct) (s : Channel.State LogRecord)
    (h : exec (readJSON env j) { vscpKey := key } = (.ok true, c))
    (hrun : run (runLogger d c).step {} acts = some s) (hsettled : (runLogger d c).Settled s) :
    Routed (configuredSinks j) (emitted acts) ((runLogger d c).received s) ↔
      ∀ r ∈ emitted acts, SinksServe d (configuredSinks j) r := by
  have hsettings : configuredSinks j = c.settings := by
    funext k
    rw [settings_readJSON h]
    cases k <;> rfl
  have htaken : s.taken = if d then emitted acts else [] := taken_mainLogger hrun hsettled
  have hgot : ∀ k, (runLogger d c).received s k = s.taken.filter fun r => PassedOn c.settings k r :=
    fun k => received_mainLogger c s k
  rw [hsettings, Routed]
  simp only [hgot, htaken]
  cases d with
  | true =>
    simp only [if_true, filter_eq_filter_iff, ← passedOn_iff_wanted]
    exact ⟨fun hall r hr k => hall k r hr, fun hall k r hr => hall r hr k⟩
  | false =>
    simp only [Bool.false_eq_true, if_false, List.filter_nil, SinksServe]
    simp only [eq_comm (a := ([] : List LogRecord)), List.filter_eq_nil_iff, decide_eq_true_eq]
    exact ⟨fun hall r hr k => hall k r hr, fun hall k r hr => hall r hr k⟩

/-- The required settings, with this `logging` block. -/
def loggingConfig (logging : Json) : Json :=
  .obj [("runasuser", .str "vscp"), ("guid", .str "00:00:00:00:00:00:00:00:00:00:00:00:00:00:00:00"),
    ("servername", .str "local"), ("classtypedb", .str "vscp_events.sqlite3"), ("maindb", .str "vscpd.sqlite3"),
    ("logging", logging)]

/-- In the foreground, with syslog enabled: an error that the worker has dealt with does not
get there. -/
theorem not_routed_syslog : ∃ c s,
    exec (readJSON bareEnvironment (loggingConfig (.obj [("syslog-enable-log", .bool true)])))
      { vscpKey := Vector.replicate 32 0 } = (.ok true, c) ∧
    run (runLogger true c).step {} [.emit ⟨.err, "Failed to connect"⟩, .work] = some s ∧
    (runLogger true c).Settled s ∧
    ¬ Routed (configuredSinks (loggingConfig (.obj [("syslog-enable-log", .bool true)])))
      [⟨.err, "Failed to connect"⟩] ((runLogger true c).received s) := by
  refine ⟨_, _, rfl, rfl, rfl, ?_⟩
  intro h
  exact absurd (h .syslog) (by decide)

/-- In the foreground, with file logging only: a warning goes to the file and the console, and
a debug record to neither. -/
theorem log_routed_file : ∃ c s,
    exec (readJSON bareEnvironment (loggingConfig (.obj [("file-enable-log", .bool true)])))
      { vscpKey := Vector.replicate 32 0 } = (.ok true, c) ∧
    run (runLogger true c).step {} [.emit ⟨.warn, "No reply"⟩, .emit ⟨.debug, "Working"⟩, .work, .work] = some s ∧
    Routed (configuredSinks (loggingConfig (.obj [("file-enable-log", .bool true)])))
      [⟨.warn, "No reply"⟩, ⟨.debug, "Working"⟩] ((runLogger true c).received s) := by
  have hread : ∃ c, exec (readJSON bareEnvironment (loggingConfig (.obj [("file-enable-log", .bool true)])))
      { vscpKey := Vector.replicate 32 0 } = (.ok true, c) := ⟨_, rfl⟩
  obtain ⟨c, hc⟩ := hread
  have hrun : run (runLogger true c).step {} [.emit ⟨.warn, "No reply"⟩, .emit ⟨.debug, "Working"⟩, .work, .work] =
      some ⟨[], [⟨.warn, "No reply"⟩, ⟨.debug, "Working"⟩]⟩ := rfl
  refine ⟨c, _, hc, hrun, (log_routed_iff _ _ _ c true _ _ hc hrun rfl).mpr ?_⟩
  intro r hr
  have hr : r = ⟨.warn, "No reply"⟩ ∨ r = ⟨.debug, "Working"⟩ := by simpa [emitted] using hr
  constructor
  · intro k hk
    rcases hk with rfl | rfl <;> rcases hr with rfl | rfl <;> decide
  · intro hoff
    rcases hr with rfl | rfl <;> cases hoff

end MqttVscpd
