/-
The discovery database and what `CControlObject::init` does with it: load the
table into the map when the file exists, else create the file, its table and
indexes, and the daemon's own row. SQLite's answers come from outside; a
statement that fails changes nothing, and one that succeeds is in the file.
-/
import MqttVscpd.Lib.Keyed

namespace MqttVscpd

open Keyed

/-- A row of the table `discovery`, less the row id its place in the table is. -/
structure Row where
  date : String
  guid : String
  name : String
  description : String

/-- The SQLite file's contents. `guid` is a UNIQUE column, and an empty file has no table. -/
structure Db where
  discovery : Option (Table Row.guid) := none
  idxguid : Bool := false
  idxname : Bool := false

/-- The file at `m_pathMainDb`, or that there is none. -/
abbrev File := Option Db

def File.table (f : File) : Option (Table Row.guid) := f.bind (·.discovery)

def File.rows (f : File) : List Row := f.table.elim [] (·.rows)

/-- The GUIDs in the table. -/
def File.guids (f : File) : List String := f.rows.map Row.guid

/-! ## Statements

Each takes whether SQLite can carry it out, and is `none` when it fails. -/

/-- `CREATE TABLE "discovery"` -/
def Db.createTable (ok : Bool) (db : Db) : Option Db :=
  if ok ∧ db.discovery.isNone then some { db with discovery := some Table.empty } else none

/-- `CREATE INDEX "idxguid" ON "discovery" ("guid")` -/
def Db.createIdxguid (ok : Bool) (db : Db) : Option Db :=
  if ok ∧ db.discovery.isSome ∧ !db.idxguid then some { db with idxguid := true } else none

/-- `CREATE INDEX "idxname" ON "discovery" ("name")` -/
def Db.createIdxname (ok : Bool) (db : Db) : Option Db :=
  if ok ∧ db.discovery.isSome ∧ !db.idxname then some { db with idxname := true } else none

/-- `INSERT INTO "discovery"`, atomic. -/
def Db.insert (ok : Bool) (r : Row) (db : Db) : Option Db :=
  match db.discovery with
  | none => none
  | some t => if ok then (t.insert r).map fun t' => { db with discovery := some t' } else none

/-- `sqlite3_prepare` of `SELECT guid,name from discovery`. -/
def Db.select (ok : Bool) (db : Db) : Option (List Row) :=
  if ok then db.discovery.map (·.rows) else none

/-- Run statements until one fails: the file then, and whether none did. -/
def Db.execAll : List (Db → Option Db) → Db → Db × Bool
  | [], db => (db, true)
  | q :: qs, db =>
    match q db with
    | none => (db, false)
    | some db' => Db.execAll qs db'

/-- An INSERT that succeeds appends a row with a new GUID to the table. -/
theorem Db.insert_eq_some {ok : Bool} {r : Row} {db db' : Db} (h : db.insert ok r = some db') :
    ok = true ∧ r.guid ∉ File.guids (some db) ∧ (File.table (some db')).isSome ∧
      File.rows (some db') = File.rows (some db) ++ [r] := by
  unfold Db.insert at h
  split at h
  · cases h
  next t ht =>
  split at h
  · next hok =>
    obtain ⟨t', hi, rfl⟩ := Option.map_eq_some_iff.mp h
    obtain ⟨hr, hrows⟩ := Table.insert_eq_some hi
    refine ⟨hok, ?_, rfl, ?_⟩
    · simpa [File.guids, File.rows, File.table, ht, Table.keys] using hr
    · simpa [File.rows, File.table, ht] using hrows
  · cases h

/-- An INSERT into the table fails for a fault or a GUID that is there. -/
theorem Db.insert_eq_none {ok : Bool} {r : Row} {db : Db} (h : db.insert ok r = none) (hok : ok = true)
    (ht : (File.table (some db)).isSome) : r.guid ∈ File.guids (some db) := by
  obtain ⟨t, ht⟩ := Option.isSome_iff_exists.mp ht
  have hd : db.discovery = some t := ht
  by_contra hr
  have hr' : r.guid ∉ t.keys := by simpa [File.guids, File.rows, ht, Table.keys] using hr
  obtain ⟨t', hi⟩ := Table.insert_isSome hr'
  simp [Db.insert, hd, hok, hi] at h

/-- The UNIQUE constraint, on the rows of the file. -/
theorem File.unique (f : File) : f.guids.Nodup := by
  unfold File.guids File.rows
  cases f.table with
  | none => exact List.nodup_nil
  | some t => exact t.unique

/-! ## `init` -/

/-- The configuration and identity the discovery code reads. -/
structure Cfg where
  /-- `m_pathMainDb`. Every start that names a file names the same one. -/
  pathMainDb : String
  /-- `m_guid.getAsString()` -/
  guid : String
  /-- `m_strServerName` -/
  serverName : String
  /-- `m_topicDiscovery`, rendered with the daemon's GUID. -/
  topicDiscovery : String

/-- What the calls of one `init` answer. -/
structure InitOutcome where
  /-- `sqlite3_open` returns `SQLITE_OK`. -/
  opened : Bool
  /-- `sqlite3_prepare` succeeds, where the table is there. -/
  prepared : Bool
  /-- The rows, in row id order, that `sqlite3_step` delivers at most. -/
  steps : Nat
  createTable : Bool
  idxguid : Bool
  idxname : Bool
  insert : Bool
  /-- The time as `vscp_getISOTimeString` has it. -/
  date : String

/-- What the part of `init` on the discovery database returns and leaves. -/
structure Init where
  /-- `init` returns true. -/
  ok : Bool
  /-- `m_db_vscp_daemon` is not NULL. -/
  dbOpen : Bool := false
  /-- `m_map_discoveryGuidToName` -/
  map : String → Option String := fun _ => none
  file : File

/-- The daemon's own row. -/
def ownRow (cfg : Cfg) (o : InitOutcome) : Row where
  date := o.date
  guid := cfg.guid
  name := "local-vscp-daemon"
  description := "The local VSCP MQTT Daemon"

/-- The statements that create the database, in order. -/
def creation (cfg : Cfg) (o : InitOutcome) : List (Db → Option Db) :=
  [Db.createTable o.createTable, Db.createIdxguid o.idxguid, Db.createIdxname o.idxname,
    Db.insert o.insert (ownRow cfg o)]

/-- `m_map_discoveryGuidToName[guid] = name` for the rows read. -/
def loadNames (rows : List Row) : String → Option String :=
  load Row.guid Row.name (fun _ => none) rows

/-- "Open the discovery database (create if not available)", the end of `init`. -/
def initDiscovery (cfg : Cfg) (o : InitOutcome) (file : File) : Init :=
  if cfg.pathMainDb.length = 0 then { ok := true, file := file }
  else match file with
  | some db =>
    -- A database that cannot be opened is not an error here, nor is a table that cannot be read.
    if !o.opened then { ok := true, file := some db }
    else match db.select o.prepared with
      | none => { ok := true, dbOpen := true, file := some db }
      | some rows => { ok := true, dbOpen := true, map := loadNames (rows.take o.steps), file := some db }
  | none =>
    if !o.opened then { ok := false, file := none }
    else
      -- `sqlite3_open` has made an empty file, which the next start finds.
      let (db, done) := Db.execAll (creation cfg o) {}
      if done then
        { ok := true, dbOpen := true, map := Function.update (fun _ => none) cfg.guid (some cfg.serverName),
          file := some db }
      else { ok := false, dbOpen := true, file := some db }

/-! ## What `init` leaves -/

variable {cfg : Cfg} {o : InitOutcome}

/-- All four statements succeed. -/
def InitOutcome.creates (o : InitOutcome) : Prop :=
  o.createTable = true ∧ o.idxguid = true ∧ o.idxname = true ∧ o.insert = true

/-- A creation that succeeds makes the table with the daemon's own row. -/
theorem execAll_creation (cfg : Cfg) (h : o.creates) : ∃ db, Db.execAll (creation cfg o) {} = (db, true) ∧
    File.rows (some db) = [ownRow cfg o] := by
  obtain ⟨h₁, h₂, h₃, h₄⟩ := h
  simp [creation, Db.execAll, Db.createTable, Db.createIdxguid, Db.createIdxname, Db.insert, h₁, h₂, h₃, h₄,
    Table.insert, File.rows, File.table]

/-- A creation that fails leaves no row. -/
theorem execAll_creation_fails (cfg : Cfg) (h : ¬ o.creates) : ∃ db, Db.execAll (creation cfg o) {} = (db, false) ∧
    File.rows (some db) = [] := by
  unfold InitOutcome.creates at h
  cases h₁ : o.createTable
  · simp [creation, Db.execAll, Db.createTable, h₁, File.rows, File.table]
  cases h₂ : o.idxguid
  · simp [creation, Db.execAll, Db.createTable, Db.createIdxguid, h₁, h₂, File.rows, File.table]
  cases h₃ : o.idxname
  · simp [creation, Db.execAll, Db.createTable, Db.createIdxguid, Db.createIdxname, h₁, h₂, h₃,
      File.rows, File.table]
  cases h₄ : o.insert
  · simp [creation, Db.execAll, Db.createTable, Db.createIdxguid, Db.createIdxname, Db.insert, h₁, h₂, h₃, h₄,
      File.rows, File.table]
  · exact absurd ⟨h₁, h₂, h₃, h₄⟩ h

/-- All that `init` can do with a file. -/
inductive Inits (cfg : Cfg) (o : InitOutcome) : File → Init → Prop where
  | unused (f : File) (hp : cfg.pathMainDb.length = 0) : Inits cfg o f { ok := true, file := f }
  | notOpened (db : Db) (ho : o.opened = false) : Inits cfg o (some db) { ok := true, file := some db }
  | unread (db : Db) (hp : cfg.pathMainDb.length ≠ 0) (ho : o.opened = true)
    (hs : o.prepared = true → File.table (some db) = none) :
    Inits cfg o (some db) { ok := true, dbOpen := true, file := some db }
  | loaded (db : Db) (t : Table Row.guid) (hp : cfg.pathMainDb.length ≠ 0) (ho : o.opened = true)
    (hs : o.prepared = true) (ht : File.table (some db) = some t) :
    Inits cfg o (some db)
      { ok := true, dbOpen := true, map := loadNames (t.rows.take o.steps), file := some db }
  | notMade (ho : o.opened = false) : Inits cfg o none { ok := false, file := none }
  | failed (db : Db) (hp : cfg.pathMainDb.length ≠ 0) (ho : o.opened = true) (hc : ¬ o.creates)
    (hr : File.rows (some db) = []) :
    Inits cfg o none { ok := false, dbOpen := true, file := some db }
  | created (db : Db) (hp : cfg.pathMainDb.length ≠ 0) (ho : o.opened = true) (hc : o.creates)
    (hr : File.rows (some db) = [ownRow cfg o]) :
    Inits cfg o none
      { ok := true, dbOpen := true, map := Function.update (fun _ => none) cfg.guid (some cfg.serverName),
        file := some db }

theorem initDiscovery_cases (cfg : Cfg) (o : InitOutcome) (file : File) :
    Inits cfg o file (initDiscovery cfg o file) := by
  unfold initDiscovery
  split
  · next hp => exact .unused file hp
  next hp =>
  cases file with
  | some db =>
    cases ho : o.opened with
    | false => exact .notOpened db ho
    | true =>
      show Inits cfg o (some db) (match db.select o.prepared with | none => _ | some rows => _)
      unfold Db.select
      cases hs : o.prepared with
      | false => exact .unread db hp ho (by simp [hs])
      | true =>
        cases ht : db.discovery with
        | none => exact .unread db hp ho fun _ => ht
        | some t => exact .loaded db t hp ho hs ht
  | none =>
    cases ho : o.opened with
    | false => exact .notMade ho
    | true =>
      by_cases hc : o.creates
      · obtain ⟨db, hdb, hr⟩ := execAll_creation cfg hc
        simp only [hdb, Bool.not_true, Bool.false_eq_true, if_false, if_true]
        exact .created db hp ho hc hr
      · obtain ⟨db, hdb, hr⟩ := execAll_creation_fails cfg hc
        simp only [hdb, Bool.not_true, Bool.false_eq_true, if_false]
        exact .failed db hp ho hc hr

/-- No row is lost, and one that is new is the daemon's own. -/
theorem Inits.rows {f : File} {i : Init} (h : Inits cfg o f i) :
    i.file.rows = f.rows ∨ f = none ∧ i.file.rows = [ownRow cfg o] := by
  cases h with
  | unused | notOpened | unread | loaded | notMade => exact .inl rfl
  | failed db _ _ _ hr => exact .inl hr
  | created db _ _ _ hr => exact .inr ⟨rfl, hr⟩

/-- What the map knows after `init` has a row. -/
theorem Inits.map_row {f : File} {i : Init} (h : Inits cfg o f i) {g n : String} (hm : i.map g = some n) :
    g ∈ i.file.guids := by
  cases h with
  | unused | notOpened | unread | notMade | failed => cases hm
  | loaded db t _ _ _ ht =>
    rcases load_cases hm with hn | ⟨r, hr, rfl, -⟩
    · cases hn
    · have hr' : r ∈ File.rows (some db) := by
        simp only [File.rows, ht, Option.elim_some]
        exact List.mem_of_mem_take hr
      exact List.mem_map_of_mem hr'
  | created db _ _ _ hr =>
    have hg : g = cfg.guid := by
      by_contra hne
      simp only [Function.update_of_ne hne, reduceCtorEq] at hm
    simp [File.guids, hr, ownRow, hg]

end MqttVscpd
