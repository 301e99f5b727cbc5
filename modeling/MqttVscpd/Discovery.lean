/-
`CControlObject::discovery` called by any number of device threads, and the
daemon's starts around it: one step for each effect of a call another thread, or
the next start, can see. A start may come at any point. It ends the process that
runs, with all its calls wherever they are, and leaves the file to the new one.
-/
import MqttVscpd.Database
import MqttVscpd.Lib.Lock
import MqttVscpd.Lib.Transition

namespace MqttVscpd.Discovery

open Keyed

/-- Where a thread is in `discovery()`. GUIDs are as `getAsString()` has them. -/
inductive Pc where
  | idle
  /-- About to lock `m_mutex_discovery`. -/
  | waiting (g : String)
  /-- About to look the GUID up in the map. -/
  | looking (g : String)
  | inserting (g : String)
  | publishing (g date : String)
  /-- About to enter the GUID in the map. -/
  | recording (g : String)
  | unlocking
  deriving DecidableEq

/-- Holding `m_mutex_discovery`. -/
def Pc.inside : Pc → Bool
  | .idle | .waiting _ => false
  | _ => true

/-- A call of `mosquitto_publish` on the discovery topic. Its payload is the
JSON object of `guid` and `time`; `ok` is whether it returned `MOSQ_ERR_SUCCESS`. -/
structure Announcement where
  topic : String
  guid : String
  time : String
  ok : Bool
  deriving DecidableEq

/-- The daemon, its database file and the announcements made so far. -/
structure Daemon (ι : Type) where
  cfg : Cfg
  file : File
  /-- `init` has returned true. -/
  up : Bool
  /-- `m_db_vscp_daemon` is not NULL. -/
  dbOpen : Bool
  /-- `m_map_discoveryGuidToName` -/
  map : String → Option String
  /-- The thread that holds `m_mutex_discovery`. -/
  owner : Option ι
  pc : ι → Pc
  published : List Announcement

inductive Act (ι : Type) where
  | start (cfg : Cfg) (o : InitOutcome)
  /-- `discovery(pev)`, by the GUID of the event; `none` is a NULL event. -/
  | call (t : ι) (pev : Option String)
  | acquire (t : ι)
  | find (t : ι)
  /-- The INSERT, with the time read before it. -/
  | insert (t : ι) (ok : Bool) (date : String)
  | publish (t : ι) (ok : Bool)
  | record (t : ι)
  | release (t : ι)

/-- The row `discovery()` inserts. -/
def discoveredRow (g date : String) : Row where
  date := date
  guid := g
  name := "discovered"
  description := ""

namespace Daemon

variable {ι : Type}

/-- Before the first start: no file, nothing published. -/
def fresh : Daemon ι where
  cfg := ⟨"", "", "", ""⟩
  file := none
  up := false
  dbOpen := false
  map := fun _ => none
  owner := none
  pc := fun _ => .idle
  published := []

def rows (d : Daemon ι) : List Row := d.file.rows

def guids (d : Daemon ι) : List String := d.file.guids

/-- A new process on the file. -/
def start (d : Daemon ι) (cfg : Cfg) (o : InitOutcome) : Daemon ι :=
  let i := initDiscovery cfg o d.file
  { cfg := cfg, file := i.file, up := i.ok, dbOpen := i.dbOpen, map := i.map, owner := none,
    pc := fun _ => .idle, published := d.published }

/-- No `discovery()` call is in progress. -/
def Quiescent (d : Daemon ι) : Prop := ∀ t, d.pc t = .idle

def goto [DecidableEq ι] (d : Daemon ι) (t : ι) (p : Pc) : Daemon ι := { d with pc := Function.update d.pc t p }

end Daemon

variable {ι : Type} [DecidableEq ι]

def step (d : Daemon ι) : Act ι → Option (Daemon ι)
  | .start cfg o => some (d.start cfg o)
  | .call t pev =>
    if d.up ∧ d.pc t = .idle then
      match pev with
      | none => some d
      | some g => if d.dbOpen then some (d.goto t (.waiting g)) else some d
    else none
  | .acquire t =>
    match d.pc t with
    | .waiting g => if d.owner.isNone then some { d.goto t (.looking g) with owner := some t } else none
    | _ => none
  | .find t =>
    match d.pc t with
    | .looking g => some (d.goto t (if (d.map g).isNone then .inserting g else .unlocking))
    | _ => none
  | .insert t ok date =>
    match d.pc t with
    | .inserting g =>
      match d.file.bind (Db.insert ok (discoveredRow g date)) with
      | none => some (d.goto t .unlocking)
      | some db => some { d.goto t (.publishing g date) with file := some db }
    | _ => none
  | .publish t ok =>
    match d.pc t with
    -- A failed publish is logged, and the call goes on.
    | .publishing g date =>
      some { d.goto t (.recording g) with published := d.published ++ [⟨d.cfg.topicDiscovery, g, date, ok⟩] }
    | _ => none
  | .record t =>
    match d.pc t with
    | .recording g => some { d.goto t .unlocking with map := Function.update d.map g (some "Discovered") }
    | _ => none
  | .release t =>
    match d.pc t with
    | .unlocking => some { d.goto t .idle with owner := none }
    | _ => none

/-- The states runs of the daemon lead to. -/
def Reached : Daemon ι → Prop := Transition.Reachable step (· = Daemon.fresh)

/-! ## What a step can do -/

/-- The step relation, one constructor for each way a step can go. -/
inductive Steps (d : Daemon ι) : Act ι → Daemon ι → Prop where
  | start (cfg : Cfg) (o : InitOutcome) : Steps d (.start cfg o) (d.start cfg o)
  | refused (t : ι) (pev : Option String) : Steps d (.call t pev) d
  | call (t : ι) (g : String) (hpc : d.pc t = .idle) : Steps d (.call t (some g)) (d.goto t (.waiting g))
  | acquire (t : ι) (g : String) (hpc : d.pc t = .waiting g) (hfree : d.owner = none) :
    Steps d (.acquire t) { d.goto t (.looking g) with owner := some t }
  | known (t : ι) (g : String) (hpc : d.pc t = .looking g) (hm : d.map g ≠ none) :
    Steps d (.find t) (d.goto t .unlocking)
  | unknown (t : ι) (g : String) (hpc : d.pc t = .looking g) (hm : d.map g = none) :
    Steps d (.find t) (d.goto t (.inserting g))
  | insertFails (t : ι) (ok : Bool) (g date : String) (hpc : d.pc t = .inserting g)
    (hg : ok = true → d.file.table.isSome → g ∈ d.guids) :
    Steps d (.insert t ok date) (d.goto t .unlocking)
  | inserted (t : ι) (g date : String) (f : File) (hpc : d.pc t = .inserting g) (hd : d.file ≠ none)
    (hg : g ∉ d.guids) (ht : f.table.isSome) (hf : f.rows = d.rows ++ [discoveredRow g date]) :
    Steps d (.insert t true date) { d.goto t (.publishing g date) with file := f }
  | publish (t : ι) (ok : Bool) (g date : String) (hpc : d.pc t = .publishing g date) :
    Steps d (.publish t ok)
      { d.goto t (.recording g) with published := d.published ++ [⟨d.cfg.topicDiscovery, g, date, ok⟩] }
  | record (t : ι) (g : String) (hpc : d.pc t = .recording g) :
    Steps d (.record t) { d.goto t .unlocking with map := Function.update d.map g (some "Discovered") }
  | release (t : ι) (hpc : d.pc t = .unlocking) : Steps d (.release t) { d.goto t .idle with owner := none }

theorem step_cases {d d' : Daemon ι} {a : Act ι} (h : step d a = some d') : Steps d a d' := by
  cases a with
  | start cfg o => cases h; exact .start cfg o
  | call t pev =>
    simp only [step] at h
    split at h
    next hup =>
      split at h
      · cases h; exact .refused t _
      · split at h
        · cases h; exact .call t _ hup.2
        · cases h; exact .refused t _
    next => cases h
  | acquire t =>
    simp only [step] at h
    split at h
    next g hpc =>
      split at h
      · next hfree => cases h; exact .acquire t g hpc (Option.isNone_iff_eq_none.mp hfree)
      · cases h
    next => cases h
  | find t =>
    simp only [step] at h
    split at h
    next g hpc =>
      cases h
      split
      · next hm => exact .unknown t g hpc (Option.isNone_iff_eq_none.mp hm)
      · next hm => exact .known t g hpc (fun hn => hm (by rw [hn]; rfl))
    next => cases h
  | insert t ok date =>
    simp only [step] at h
    split at h
    next g hpc =>
      split at h
      · next hn =>
        cases h
        refine .insertFails t ok g date hpc fun hok ht => ?_
        obtain ⟨db, hf⟩ : ∃ db, d.file = some db := by
          cases hf : d.file with
          | none => simp [hf, File.table] at ht
          | some db => exact ⟨db, rfl⟩
        rw [hf] at hn ht
        show g ∈ d.file.guids
        rw [hf]
        exact Db.insert_eq_none hn hok ht
      · next db hdb =>
        cases h
        obtain ⟨db₀, hf, hi⟩ := Option.bind_eq_some_iff.mp hdb
        obtain ⟨rfl, hg, ht, hr⟩ := Db.insert_eq_some hi
        refine .inserted t g date (some db) hpc (by simp [hf]) ?_ ht ?_
        · show g ∉ d.file.guids
          rw [hf]
          exact hg
        · show File.rows (some db) = d.file.rows ++ _
          rw [hf]
          exact hr
    next => cases h
  | publish t ok =>
    simp only [step] at h
    split at h
    next g date hpc => cases h; exact .publish t ok g date hpc
    next => cases h
  | record t =>
    simp only [step] at h
    split at h
    next g hpc => cases h; exact .record t g hpc
    next => cases h
  | release t =>
    simp only [step] at h
    split at h
    next hpc => cases h; exact .release t hpc
    next => cases h

end MqttVscpd.Discovery
