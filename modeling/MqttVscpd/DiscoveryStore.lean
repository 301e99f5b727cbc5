/-
The file and the map across starts. A start that finds the file only loads it,
so what a failed creation left is never completed; while every creation completes
and every load reads the daemon's own row, an open database has that row
(`recovered_of_sound`), and the loads alone decide it (`recovered_iff`). The map
agrees with what a start would load as long as no `discovery()` call inserts: the
name it enters is not the name in the row (`mirrors_iff`).
-/
import MqttVscpd.DiscoverySafety

namespace MqttVscpd.Discovery

open Keyed Transition

variable {ι : Type}

/-! ## Recovery -/

/-- When `init` has returned true with the database open, the table has a row
for the daemon and the map its GUID. -/
def Daemon.Recovered (d : Daemon ι) : Prop :=
  d.up = true → d.dbOpen = true →
    (∃ t, d.file.table = some t ∧ d.cfg.guid ∈ t.keys) ∧ d.map d.cfg.guid ≠ none

/-- A start as the daemon `g` that completes the creation it begins, or reads
the first row of the file it opens. -/
def Sound (g : String) (d : Daemon ι) : Act ι → Prop
  | .start cfg o => cfg.guid = g ∧ (cfg.pathMainDb.length ≠ 0 → o.opened = true →
      if d.file.isNone then o.creates else o.prepared = true ∧ 0 < o.steps)
  | _ => True

/-- The file begins with the row of `g`, which the map of an open database knows. -/
structure Whole (g : String) (d : Daemon ι) : Prop where
  head : d.file = none ∨ ∃ r rs, d.rows = r :: rs ∧ r.guid = g
  known : d.up = true → d.dbOpen = true → d.cfg.guid = g ∧ d.file ≠ none ∧ d.map g ≠ none

/-- A row is in a table. -/
theorem mem_rows_iff {f : File} {g : String} :
    (∃ r ∈ f.rows, r.guid = g) ↔ ∃ t, f.table = some t ∧ g ∈ t.keys := by
  cases ht : f.table with
  | none => simp [File.rows, ht]
  | some t => simp [File.rows, ht, Table.mem_keys]

theorem Whole.recovered {g : String} {d : Daemon ι} (h : Whole g d) : d.Recovered := by
  intro hup hdb
  obtain ⟨hg, hf, hm⟩ := h.known hup hdb
  obtain ⟨r, rs, hr, hrg⟩ := h.head.resolve_left hf
  have hr : d.file.rows = r :: rs := hr
  exact ⟨mem_rows_iff.mp ⟨r, by rw [hr]; exact List.mem_cons_self, hrg.trans hg.symm⟩, hg ▸ hm⟩

theorem whole_start {g : String} {d : Daemon ι} {cfg : Cfg} {o : InitOutcome} (h : Whole g d)
    (hs : Sound g d (.start cfg o)) : Whole g (d.start cfg o) := by
  obtain ⟨rfl, hs⟩ := hs
  have hhead := h.head
  have hi := initDiscovery_cases cfg o d.file
  unfold Daemon.start
  generalize initDiscovery cfg o d.file = i at hi ⊢
  unfold Daemon.rows at hhead
  generalize d.file = f at hs hhead hi
  cases hi with
  | unused _ hp => exact ⟨hhead, fun _ hdb => by cases hdb⟩
  | notOpened db _ => exact ⟨hhead, fun _ hdb => by cases hdb⟩
  | notMade _ => exact ⟨hhead, fun hup => by cases hup⟩
  | failed db hp ho hc _ => exact absurd (hs hp ho) hc
  | created db hp ho hc hr =>
    exact ⟨.inr ⟨ownRow cfg o, [], hr, rfl⟩, fun _ _ => ⟨rfl, by simp, by simp⟩⟩
  | unread db hp ho ht =>
    obtain ⟨hprep, -⟩ : o.prepared = true ∧ 0 < o.steps := by simpa using hs hp ho
    obtain ⟨r, rs, hr, -⟩ := hhead.resolve_left (by simp)
    simp [File.rows, ht hprep] at hr
  | loaded db t hp ho _ ht =>
    obtain ⟨-, hsteps⟩ : o.prepared = true ∧ 0 < o.steps := by simpa using hs hp ho
    refine ⟨hhead, fun _ _ => ⟨rfl, by simp, ?_⟩⟩
    obtain ⟨r, rs, hr, hrg⟩ := hhead.resolve_left (by simp)
    have hrows : t.rows = r :: rs := by simpa [File.rows, ht] using hr
    have hmem : r ∈ t.rows.take o.steps := by
      obtain ⟨k, hk⟩ : ∃ k, o.steps = k + 1 := ⟨o.steps - 1, by omega⟩
      rw [hrows, hk, List.take_succ_cons]
      exact List.mem_cons_self
    have hu : ((t.rows.take o.steps).map Row.guid).Nodup :=
      t.unique.sublist ((List.take_sublist _ _).map _)
    show loadNames (t.rows.take o.steps) cfg.guid ≠ none
    rw [← hrg, loadNames, load_of_mem hu hmem]
    simp

variable [DecidableEq ι]

/-- What the steps of `discovery()` leave alone, and what they only add to. -/
theorem call_frame {d d' : Daemon ι} {a : Act ι} (ha : ∀ cfg o, a ≠ .start cfg o) (h : step d a = some d') :
    d'.cfg = d.cfg ∧ d'.up = d.up ∧ d'.dbOpen = d.dbOpen ∧ (∃ rs, d'.rows = d.rows ++ rs) ∧
      (d'.file = none ↔ d.file = none) ∧ (∀ g, d.map g ≠ none → d'.map g ≠ none) := by
  cases step_cases h with
  | start cfg o => exact absurd rfl (ha cfg o)
  | inserted t g date f hpc hd _ ht hf =>
    have hn : f ≠ none := by
      intro hn
      simp [hn, File.table] at ht
    exact ⟨rfl, rfl, rfl, ⟨_, hf⟩, ⟨fun h => absurd h hn, fun h => absurd h hd⟩, fun _ => id⟩
  | record t g hpc =>
    refine ⟨rfl, rfl, rfl, ⟨[], (List.append_nil _).symm⟩, Iff.rfl, ?_⟩
    intro g' hm
    by_cases hg : g' = g
    · subst hg
      simp
    · simpa [Function.update_of_ne hg] using hm
  | refused | call | acquire | known | unknown | insertFails | publish | release =>
    exact ⟨rfl, rfl, rfl, ⟨[], (List.append_nil _).symm⟩, Iff.rfl, fun _ => id⟩

theorem whole_step {g : String} {d d' : Daemon ι} {a : Act ι} (hw : Whole g d) (hs : Sound g d a)
    (h : step d a = some d') : Whole g d' := by
  by_cases ha : ∃ cfg o, a = .start cfg o
  · obtain ⟨cfg, o, rfl⟩ := ha
    cases h
    exact whole_start hw hs
  · obtain ⟨hcfg, hup, hdb, ⟨rs, hrows⟩, hfile, hmap⟩ := call_frame (fun cfg o he => ha ⟨cfg, o, he⟩) h
    refine ⟨?_, fun hup' hdb' => ?_⟩
    · rcases hw.head with hf | ⟨r, rs', hr, hrg⟩
      · exact .inl (hfile.mpr hf)
      · exact .inr ⟨r, rs' ++ rs, by rw [hrows, hr, List.cons_append], hrg⟩
    · obtain ⟨hg, hf, hm⟩ := hw.known (hup ▸ hup') (hdb ▸ hdb')
      exact ⟨hcfg ▸ hg, fun hn => hf (hfile.mp hn), hmap g hm⟩

/-- **The database holds the daemon, once it is open**, in every state of a run
whose starts are sound. -/
theorem recovered_of_sound {g : String} {acts : List (Act ι)} {d : Daemon ι}
    (hs : Along step (Sound g) Daemon.fresh acts) (h : run step Daemon.fresh acts = some d) : d.Recovered := by
  have hfresh : Whole g (Daemon.fresh : Daemon ι) := ⟨.inl rfl, fun hup => by cases hup⟩
  exact (Along.inv (fun _ _ _ => whole_step) hs hfresh h).recovered

/-- A start that opens a file it finds reads the daemon's own row from it. -/
def ReadsOwn (d : Daemon ι) : Act ι → Prop
  | .start cfg o => cfg.pathMainDb.length ≠ 0 → o.opened = true → d.file ≠ none →
      o.prepared = true ∧ ∃ r ∈ d.rows.take o.steps, r.guid = cfg.guid
  | _ => True

omit [DecidableEq ι] in
/-- A creation leaves the row or lets the start fail; a load has to find it. -/
theorem recovered_start_iff {d : Daemon ι} {cfg : Cfg} {o : InitOutcome} :
    (d.start cfg o).Recovered ↔ ReadsOwn d (.start cfg o) := by
  have hi := initDiscovery_cases cfg o d.file
  unfold Daemon.Recovered Daemon.start ReadsOwn Daemon.rows
  generalize initDiscovery cfg o d.file = i at hi ⊢
  generalize d.file = f at hi ⊢
  cases hi with
  | unused _ hp => simp [hp]
  | notOpened db ho => simp [ho]
  | notMade ho => simp [ho]
  | failed db => simp
  | created db _ _ _ hr =>
    have hown : ∃ t, File.table (some db) = some t ∧ cfg.guid ∈ t.keys :=
      mem_rows_iff.mp ⟨ownRow cfg o, by simp [hr], rfl⟩
    simpa using hown
  | unread db hp ho ht =>
    have hnone : o.prepared = true → File.rows (some db) = [] := fun hprep => by simp [File.rows, ht hprep]
    simp only [ne_eq, not_true_eq_false, and_false, imp_false, hp, not_false_eq_true, ho, forall_const, reduceCtorEq,
      false_iff]
    rintro ⟨hprep, r, hr, -⟩
    simp [hnone hprep] at hr
  | loaded db t hp ho hprep ht =>
    have hrows : File.rows (some db) = t.rows := by simp [File.rows, ht]
    have hu : ((t.rows.take o.steps).map Row.guid).Nodup := t.unique.sublist ((List.take_sublist _ _).map _)
    have hread : loadNames (t.rows.take o.steps) cfg.guid ≠ none ↔ ∃ r ∈ t.rows.take o.steps, r.guid = cfg.guid := by
      constructor
      · intro hne
        obtain ⟨n, hn⟩ := Option.ne_none_iff_exists'.mp hne
        rcases load_cases hn with hnone | ⟨r, hr, hg, -⟩
        · cases hnone
        · exact ⟨r, hr, hg⟩
      · rintro ⟨r, hr, hg⟩
        rw [← hg, loadNames, load_of_mem hu hr]
        simp
    simp only [ht, hrows, hp, ho, hprep, hread, Option.some.injEq, exists_eq_left', forall_const, ne_eq,
      not_false_eq_true, reduceCtorEq, true_and, and_iff_right_iff_imp]
    rintro ⟨r, hr, hg⟩
    exact Table.mem_keys.mpr ⟨r, List.mem_of_mem_take hr, hg⟩

/-- **Exactly when the database holds the daemon, once it is open**, in every state of a run: each
start that opens a file it finds reads the daemon's row from it, whatever became of creations. -/
theorem recovered_iff {acts : List (Act ι)} {d : Daemon ι} (h : run step Daemon.fresh acts = some d) :
    (∀ bs d', bs <+: acts → run step Daemon.fresh bs = some d' → d'.Recovered) ↔
      Along step ReadsOwn Daemon.fresh acts := by
  refine always_iff_along (I := Daemon.Recovered) (fun _ => id) (fun d a d' hrec hc hs => ?_)
    (fun d a d' _ hc hs => ?_) (fun hup => by cases hup) h
  · by_cases ha : ∃ cfg o, a = .start cfg o
    · obtain ⟨cfg, o, rfl⟩ := ha
      cases hs
      exact recovered_start_iff.mpr hc
    · obtain ⟨hcfg, hup, hdb, ⟨rs, hrows⟩, -, hmap⟩ := call_frame (fun cfg o he => ha ⟨cfg, o, he⟩) hs
      intro hup' hdb'
      obtain ⟨htable, hm⟩ := hrec (hup ▸ hup') (hdb ▸ hdb')
      obtain ⟨r, hr, hg⟩ := mem_rows_iff.mpr htable
      have hmem : r ∈ d'.rows := hrows ▸ List.mem_append_left rs hr
      rw [hcfg]
      exact ⟨mem_rows_iff.mp ⟨r, hmem, hg⟩, hmap _ hm⟩
  · cases a with
    | start cfg o =>
      cases hs
      exact fun hrec => hc (recovered_start_iff.mp hrec)
    | _ => exact absurd trivial hc

theorem recovered_after_reload :
    ∃ d : Daemon Unit, run step Daemon.fresh [.start localCfg initSucceeds, .start localCfg initSucceeds] = some d ∧
      d.up = true ∧ d.dbOpen = true ∧ d.Recovered := by
  have hsound : Along step (Sound localCfg.guid) (Daemon.fresh : Daemon Unit)
      [.start localCfg initSucceeds, .start localCfg initSucceeds] := by
    refine ⟨⟨rfl, fun _ _ => ?_⟩, fun d hd => ⟨⟨rfl, fun _ _ => ?_⟩, fun _ _ => trivial⟩⟩
    · simp [Daemon.fresh, InitOutcome.creates, initSucceeds]
    · cases hd
      exact ⟨rfl, by decide⟩
  exact ⟨_, rfl, rfl, rfl, recovered_of_sound hsound rfl⟩

/-- The table cannot be created, and the next start finds the empty file: `init`
returns true with the database open and no table in it. -/
theorem not_recovered_after_failed_creation :
    ∃ d : Daemon Unit, run step Daemon.fresh
        [.start localCfg { initSucceeds with createTable := false }, .start localCfg initSucceeds] = some d ∧
      d.up = true ∧ d.dbOpen = true ∧ d.file.table.isNone ∧ ¬ d.Recovered := by
  refine ⟨_, rfl, rfl, rfl, rfl, ?_⟩
  intro h
  obtain ⟨⟨t, ht, -⟩, -⟩ := h rfl rfl
  cases ht

/-! ## The map and the table -/

/-- A step of a `discovery()` call: no start. -/
def callStep (d : Daemon ι) : Act ι → Option (Daemon ι)
  | .start _ _ => none
  | a => step d a

/-- `init` opens the database and reads it to the end, or creates it. -/
def LoadSucceeds (f : File) (cfg : Cfg) (o : InitOutcome) : Prop :=
  cfg.pathMainDb.length ≠ 0 ∧ o.opened = true ∧
    match f with
    | none => o.creates
    | some db => o.prepared = true ∧ ∃ t, File.table (some db) = some t ∧ t.rows.length ≤ o.steps

/-- The map is what a start would load from the table. -/
def Daemon.Mirrors (d : Daemon ι) : Prop := d.map = loadNames d.rows

/-- A `discovery()` call whose INSERT SQLite carries out is for a GUID that has a row. -/
def InsertsNothing (d : Daemon ι) : Act ι → Prop
  | .insert t ok _ => ok = true → ∀ g, d.pc t = .inserting g → g ∈ d.guids
  | _ => True

/-- The call has inserted the GUID's row and not yet made its map entry. -/
def Pc.entering (g : String) : Pc → Prop
  | .publishing g' _ | .recording g' => g = g'
  | _ => False

/-- The table is there, and no row has the name `discovery()` enters in the map. -/
structure Open (d : Daemon ι) : Prop where
  table : d.file.table.isSome
  names : ∀ r ∈ d.rows, r.name ≠ "Discovered"

/-- A row whose name is not the map's, or will not be. -/
def Stale (d : Daemon ι) : Prop :=
  ∃ r ∈ d.rows, (∃ n, d.map r.guid = some n ∧ n ≠ r.name) ∨ ∃ t, (d.pc t).entering r.guid

/-- The map mirrors the table, and no call is about to change that. -/
structure Fresh (d : Daemon ι) : Prop where
  mirrors : d.Mirrors
  idle : ∀ t g, ¬ (d.pc t).entering g

theorem callStep_step {d d' : Daemon ι} {a : Act ι} (h : callStep d a = some d') :
    (∀ cfg o, a ≠ .start cfg o) ∧ step d a = some d' := by
  cases a with
  | start cfg o => cases h
  | _ => exact ⟨by simp, h⟩

theorem callStep_cases {d d' : Daemon ι} {a : Act ι} (h : callStep d a = some d') :
    (∀ cfg o, a ≠ .start cfg o) ∧ Steps d a d' :=
  ⟨(callStep_step h).1, step_cases (callStep_step h).2⟩

theorem entering_goto {d : Daemon ι} {t : ι} {p : Pc} {g : String} (hp : p.entering g ↔ (d.pc t).entering g)
    (u : ι) : ((d.goto t p).pc u).entering g ↔ (d.pc u).entering g := by
  by_cases hu : u = t
  · subst hu
    simpa [Daemon.goto] using hp
  · simp [Daemon.goto, Function.update_of_ne hu]

/-- The names in the table are `init`'s and `discovery()`'s. -/
theorem names_step {d d' : Daemon ι} {a : Act ι} (hd : ∀ r ∈ d.rows, r.name ≠ "Discovered")
    (h : step d a = some d') : ∀ r ∈ d'.rows, r.name ≠ "Discovered" := by
  cases step_cases h with
  | start cfg o =>
    rcases rows_start d cfg o with he | ⟨-, he⟩
    · rw [he]
      exact hd
    · rw [he]
      simp [ownRow]
  | inserted t g date f hpc _ _ ht hf =>
    intro r hr
    have hr : r ∈ f.rows := hr
    rw [hf, List.mem_append, List.mem_singleton] at hr
    rcases hr with hr | rfl
    · exact hd r hr
    · simp [discoveredRow]
  | _ => exact hd

theorem open_step {d d' : Daemon ι} {a : Act ι} (ho : Open d) (h : callStep d a = some d') : Open d' := by
  refine ⟨?_, names_step ho.names (callStep_step h).2⟩
  obtain ⟨hns, hs⟩ := callStep_cases h
  cases hs with
  | start cfg o => exact absurd rfl (hns cfg o)
  | inserted t g date f hpc _ _ ht hf => exact ht
  | _ => exact ho.table

/-- Once a name differs it differs for good: the map is never given a row's name. -/
theorem stale_step {d d' : Daemon ι} {a : Act ι} (ho : Open d) (hs : Stale d) (h : callStep d a = some d') :
    Stale d' := by
  obtain ⟨r, hr, hst⟩ := hs
  obtain ⟨hns, hs⟩ := callStep_cases h
  cases hs with
  | start cfg o => exact absurd rfl (hns cfg o)
  | refused => exact ⟨r, hr, hst⟩
  | call t g hpc | known t g hpc | unknown t g hpc | insertFails t ok g date hpc
  | acquire t g hpc | release t hpc | publish t ok g date hpc =>
    refine ⟨r, hr, hst.imp_right fun ⟨u, hu⟩ => ⟨u, ?_⟩⟩
    exact (entering_goto (by simp [hpc, Pc.entering]) u).mpr hu
  | inserted t g date f hpc _ hg ht hf =>
    refine ⟨r, ?_, hst.imp_right fun ⟨u, hu⟩ => ⟨u, ?_⟩⟩
    · show r ∈ f.rows
      rw [hf]
      exact List.mem_append_left _ hr
    · have hut : u ≠ t := fun he => by simp [he, hpc, Pc.entering] at hu
      simpa [Daemon.goto, Function.update_of_ne hut] using hu
  | record t g hpc =>
    by_cases hg : r.guid = g
    · exact ⟨r, hr, .inl ⟨"Discovered", by simp [hg], (ho.names r hr).symm⟩⟩
    · refine ⟨r, hr, ?_⟩
      rcases hst with ⟨n, hm, hn⟩ | ⟨u, hu⟩
      · exact .inl ⟨n, by simpa [Function.update_of_ne hg] using hm, hn⟩
      · have hut : u ≠ t := by
          intro he
          rw [he, hpc] at hu
          exact hg hu
        exact .inr ⟨u, by simpa [Daemon.goto, Function.update_of_ne hut] using hu⟩

theorem stale_of_inserts {d d' : Daemon ι} {a : Act ι} (ho : Open d) (hc : ¬ InsertsNothing d a)
    (h : callStep d a = some d') : Stale d' := by
  obtain ⟨hns, hs⟩ := callStep_cases h
  cases hs with
  | start cfg o => exact absurd rfl (hns cfg o)
  | insertFails t ok g date hpc hg =>
    refine absurd (fun hok g' hpc' => ?_) hc
    rw [hpc, Pc.inserting.injEq] at hpc'
    exact hpc' ▸ hg hok ho.table
  | inserted t g date f hpc _ hg ht hf =>
    refine ⟨discoveredRow g date, ?_, .inr ⟨t, by simp [Daemon.goto, Pc.entering, discoveredRow]⟩⟩
    show _ ∈ f.rows
    rw [hf]
    exact List.mem_append_right _ List.mem_cons_self
  | _ => exact absurd trivial hc

theorem fresh_step {d d' : Daemon ι} {a : Act ι} (hf : Fresh d) (hc : InsertsNothing d a)
    (h : callStep d a = some d') : Fresh d' := by
  obtain ⟨hns, hs⟩ := callStep_cases h
  cases hs with
  | start cfg o => exact absurd rfl (hns cfg o)
  | refused => exact hf
  | call t g hpc | known t g hpc | unknown t g hpc | insertFails t ok g date hpc
  | acquire t g hpc | release t hpc =>
    refine ⟨hf.mirrors, fun u g' hu => hf.idle u g' ?_⟩
    exact (entering_goto (by simp [hpc, Pc.entering]) u).mp hu
  | inserted t g date f hpc _ hg => exact absurd (hc rfl g hpc) hg
  | publish t ok g date hpc => exact absurd (by rw [hpc]; rfl) (hf.idle t g)
  | record t g hpc => exact absurd (by rw [hpc]; rfl) (hf.idle t g)

/-! ### After a start that loads -/

section start

omit [DecidableEq ι]

variable {d : Daemon ι} {cfg : Cfg} {o : InitOutcome}

theorem loadNames_of_mem {r : Row} (h : r ∈ d.rows) : loadNames d.rows r.guid = some r.name :=
  load_of_mem d.file.unique h

/-- A start that reads the whole table mirrors it. -/
theorem start_loads {db : Db} (hf : d.file = some db) (hl : LoadSucceeds d.file cfg o) :
    (d.start cfg o).file.table.isSome ∧ (d.start cfg o).Mirrors := by
  have hi := initDiscovery_cases cfg o d.file
  unfold Daemon.Mirrors Daemon.start Daemon.rows
  generalize initDiscovery cfg o d.file = i at hi ⊢
  rw [hf] at hl hi
  obtain ⟨hp, ho, hprep, t, ht, hlen⟩ := hl
  cases hi with
  | unused _ hp' => exact absurd hp' hp
  | notOpened db ho' => rw [ho] at ho'; cases ho'
  | unread db _ _ hn => rw [hn hprep] at ht; cases ht
  | loaded db t' _ _ _ ht' =>
    have htt : t' = t := Option.some.inj (ht'.symm.trans ht)
    subst htt
    refine ⟨by simp [ht], ?_⟩
    simp [File.rows, ht, List.take_of_length_le hlen]

/-- A start that creates the database enters the server name. -/
theorem start_creates (hf : d.file = none) (hl : LoadSucceeds d.file cfg o) :
    (d.start cfg o).file.table.isSome ∧ (d.start cfg o).rows = [ownRow cfg o] ∧
      (d.start cfg o).map = Function.update (fun _ => none) cfg.guid (some cfg.serverName) := by
  have hi := initDiscovery_cases cfg o d.file
  unfold Daemon.start Daemon.rows
  generalize initDiscovery cfg o d.file = i at hi ⊢
  rw [hf] at hl hi
  obtain ⟨hp, ho, hc⟩ := hl
  cases hi with
  | unused _ hp' => exact absurd hp' hp
  | notMade ho' => rw [ho] at ho'; cases ho'
  | failed db _ _ hc' _ => exact absurd hc hc'
  | created db _ _ _ hr =>
    refine ⟨?_, hr, rfl⟩
    cases ht : File.table (some db) with
    | none => simp [File.rows, ht] at hr
    | some t => rfl

theorem start_mirrors (hl : LoadSucceeds d.file cfg o) (hn : d.file = none → cfg.serverName = "local-vscp-daemon") :
    (d.start cfg o).Mirrors := by
  cases hf : d.file with
  | some db => exact (start_loads hf hl).2
  | none =>
    obtain ⟨-, hr, hm⟩ := start_creates hf hl
    unfold Daemon.Mirrors
    rw [hr, hm, hn hf]
    rfl

theorem start_stale (hl : LoadSucceeds d.file cfg o) (hf : d.file = none)
    (hn : cfg.serverName ≠ "local-vscp-daemon") : Stale (d.start cfg o) := by
  obtain ⟨-, hr, hm⟩ := start_creates hf hl
  refine ⟨ownRow cfg o, by rw [hr]; exact List.mem_cons_self, .inl ⟨cfg.serverName, ?_, hn⟩⟩
  rw [hm]
  exact Function.update_self _ _ _

/-- Between calls a map that mirrors the table has no stale name. -/
theorem not_stale (hm : d.Mirrors) (hq : d.Quiescent) : ¬ Stale d := by
  intro hs
  obtain ⟨r, hr, ⟨n, hn, hne⟩ | ⟨t, ht⟩⟩ := hs
  · rw [hm, loadNames_of_mem hr] at hn
    exact hne (Option.some.inj hn).symm
  · rw [hq t] at ht
    exact ht

end start

/-- **When the map mirrors the table**, between calls after a start that has
loaded: exactly when that start gave its own row the server's name and no
`discovery()` call since has inserted a row. -/
theorem mirrors_iff {s t : Daemon ι} {cfg : Cfg} {o : InitOutcome} {acts : List (Act ι)} (hs : Reached s)
    (hl : LoadSucceeds s.file cfg o) (hr : run callStep (s.start cfg o) acts = some t) (hq : t.Quiescent) :
    t.Mirrors ↔ (s.file = none → cfg.serverName = "local-vscp-daemon") ∧
      Along callStep InsertsNothing (s.start cfg o) acts := by
  have hnames : ∀ r ∈ s.rows, r.name ≠ "Discovered" :=
    Reachable.inv (I := fun d => ∀ r ∈ d.rows, r.name ≠ "Discovered") (fun _ h₀ r hm => by subst h₀; cases hm)
      (fun _ _ _ => names_step) hs
  have htable : (s.start cfg o).file.table.isSome := by
    cases hf : s.file with
    | none => exact (start_creates hf hl).1
    | some db => exact (start_loads hf hl).1
  have hopen : Open (s.start cfg o) := ⟨htable, names_step hnames (a := .start cfg o) rfl⟩
  constructor
  · intro hm
    have hns : ¬ Stale t := not_stale hm hq
    constructor
    · intro hf
      by_contra hne
      have hst : Open t ∧ Stale t := run_inv (I := fun d => Open d ∧ Stale d)
        (fun _ _ _ hi h => ⟨open_step hi.1 h, stale_step hi.1 hi.2 h⟩) ⟨hopen, start_stale hl hf hne⟩ hr
      exact hns hst.2
    · exact along_of_not (fun _ _ _ => open_step) (fun _ _ _ => stale_of_inserts) (fun _ _ _ => stale_step)
        hopen hr hns
  · intro h
    obtain ⟨hname, hal⟩ := h
    have hfresh : Fresh (s.start cfg o) := ⟨start_mirrors hl hname, fun _ _ => id⟩
    exact (Along.inv (fun _ _ _ => fresh_step) hal hfresh hr).mirrors

/-- A `discovery()` call for the node that cannot insert it. -/
def failedCall : List (Act Unit) :=
  [.call () (some nodeGuid), .acquire (), .find (), .insert () false "2025-01-02T00:00:00", .release ()]

theorem mirrors_insert_fails :
    ∃ d : Daemon Unit, run callStep (Daemon.fresh.start localCfg initSucceeds) failedCall = some d ∧
      d.map localCfg.guid = some "local-vscp-daemon" ∧ d.Mirrors := by
  have hload : LoadSucceeds (Daemon.fresh : Daemon Unit).file localCfg initSucceeds :=
    ⟨by decide, rfl, rfl, rfl, rfl, rfl⟩
  have hrun : (run callStep (Daemon.fresh.start localCfg initSucceeds) failedCall).map
      (fun d => (d.pc (), d.map localCfg.guid)) = some (.idle, some "local-vscp-daemon") := rfl
  obtain ⟨d, hd, he⟩ := Option.map_eq_some_iff.mp hrun
  obtain ⟨hpc, hm⟩ := Prod.mk.inj he
  refine ⟨d, hd, hm, (mirrors_iff (Reachable.init rfl) hload hd fun _ => hpc).mpr ⟨fun _ => rfl, ?_⟩⟩
  simp [failedCall, Along, InsertsNothing]

/-- The first node found has one name in the map and another in its row. -/
theorem not_mirrors_discovered :
    ∃ d : Daemon Unit, run step Daemon.fresh (.start localCfg initSucceeds :: discoveryCall true) = some d ∧
      d.Quiescent ∧ d.map nodeGuid = some "Discovered" ∧ loadNames d.rows nodeGuid = some "discovered" ∧
        ¬ d.Mirrors := by
  refine ⟨_, rfl, fun _ => rfl, rfl, rfl, ?_⟩
  intro hm
  have := congrFun hm nodeGuid
  exact absurd (Option.some.inj this) (by decide)

end MqttVscpd.Discovery
