/-
The invariant of the table, the map and the announcements, through every order
of `discovery()` calls and starts, and what follows: a GUID is announced at most
once (`discovery_at_most_once`). The map only saves the INSERT: it is the row,
made before the announcement and never removed, that stops a second one.
-/
import MqttVscpd.Discovery

namespace MqttVscpd.Discovery

open Keyed Transition

variable {ι : Type}

/-- The GUIDs announced, with or without success. -/
def Daemon.announced (d : Daemon ι) : List String := d.published.map Announcement.guid

structure Inv (d : Daemon ι) : Prop where
  lock : Lock.Excl (·.inside = true) d.owner d.pc
  once : d.announced.Nodup
  announced : ∀ g ∈ d.announced, g ∈ d.guids
  map : ∀ g n, d.map g = some n → g ∈ d.guids
  publishing : ∀ t g date, d.pc t = .publishing g date → discoveredRow g date ∈ d.rows ∧ g ∉ d.announced
  recording : ∀ t g, d.pc t = .recording g → g ∈ d.guids

theorem inv_fresh : Inv (Daemon.fresh : Daemon ι) where
  lock := Lock.excl_idle fun _ => by simp [Daemon.fresh, Pc.inside]
  once := List.nodup_nil
  announced := fun g h => by cases h
  map := fun g n h => by cases h
  publishing := fun t g date h => by cases h
  recording := fun t g h => by cases h

theorem mem_guids {d : Daemon ι} {r : Row} (h : r ∈ d.rows) : r.guid ∈ d.guids := List.mem_map_of_mem h

/-- A start loses no row, and makes at most the daemon's own. -/
theorem rows_start (d : Daemon ι) (cfg : Cfg) (o : InitOutcome) :
    (d.start cfg o).rows = d.rows ∨ d.rows = [] ∧ (d.start cfg o).rows = [ownRow cfg o] := by
  rcases (initDiscovery_cases cfg o d.file).rows with hr | ⟨hf, hr⟩
  · exact .inl hr
  · exact .inr ⟨by simp [Daemon.rows, hf, File.rows, File.table], hr⟩

theorem guids_start {d : Daemon ι} {cfg : Cfg} {o : InitOutcome} {g : String} (h : g ∈ d.guids) :
    g ∈ (d.start cfg o).guids := by
  obtain ⟨r, hr, rfl⟩ := List.mem_map.mp h
  rcases rows_start d cfg o with he | ⟨he, -⟩
  · exact mem_guids (he ▸ hr)
  · rw [show d.file.rows = [] from he] at hr
    cases hr

theorem inv_start {d : Daemon ι} (cfg : Cfg) (o : InitOutcome) (hi : Inv d) : Inv (d.start cfg o) where
  lock := Lock.excl_idle fun _ => by simp [Daemon.start, Pc.inside]
  once := hi.once
  announced := fun g h => guids_start (hi.announced g h)
  map := fun g n h => (initDiscovery_cases cfg o d.file).map_row h
  publishing := fun t g date h => by cases h
  recording := fun t g h => by cases h

variable [DecidableEq ι]

/-- A thread moves on, to a point from which nothing is published or recorded that was not before. -/
theorem Inv.goto {d : Daemon ι} (hi : Inv d) {t : ι} {p : Pc} {owner : Option ι}
    (hl : Lock.Excl (·.inside = true) owner (Function.update d.pc t p))
    (hp : ∀ g date, p ≠ .publishing g date) (hr : ∀ g, p = .recording g → g ∈ d.guids) :
    Inv { d.goto t p with owner := owner } where
  lock := hl
  once := hi.once
  announced := hi.announced
  map := hi.map
  publishing := by
    intro u g date h
    by_cases hu : u = t
    · subst hu
      exact absurd (by simpa [Daemon.goto] using h) (hp g date)
    · exact hi.publishing u g date (by simpa [Daemon.goto, Function.update_of_ne hu] using h)
  recording := by
    intro u g h
    by_cases hu : u = t
    · subst hu
      exact hr g (by simpa [Daemon.goto] using h)
    · exact hi.recording u g (by simpa [Daemon.goto, Function.update_of_ne hu] using h)

/-- A step of a thread on its side of the lock. -/
theorem Inv.move {d : Daemon ι} (hi : Inv d) {t : ι} {p : Pc} (hin : p.inside = (d.pc t).inside)
    (hp : ∀ g date, p ≠ .publishing g date) (hr : ∀ g, p = .recording g → g ∈ d.guids) : Inv (d.goto t p) :=
  hi.goto (hi.lock.move (by rw [hin])) hp hr

theorem inv_inserted {d : Daemon ι} (hi : Inv d) {t : ι} {g date : String} {f : File}
    (hpc : d.pc t = .inserting g) (hg : g ∉ d.guids) (hf : f.rows = d.rows ++ [discoveredRow g date]) :
    Inv { d.goto t (.publishing g date) with file := f } := by
  have hguids : f.guids = d.guids ++ [g] := by simp [File.guids, Daemon.guids, hf, Daemon.rows, discoveredRow]
  have hmono : ∀ g' ∈ d.guids, g' ∈ f.guids := fun g' h => by rw [hguids]; exact List.mem_append_left _ h
  refine ⟨hi.lock.move (by simp [hpc, Pc.inside]), hi.once, fun g' h => hmono g' (hi.announced g' h),
    fun g' n h => hmono g' (hi.map g' n h), fun u g' date' h => ?_, fun u g' h => ?_⟩
  · by_cases hu : u = t
    · subst hu
      simp only [Daemon.goto, Function.update_self, Pc.publishing.injEq] at h
      obtain ⟨rfl, rfl⟩ := h
      -- What has no row has not been announced.
      refine ⟨?_, fun ha => hg (hi.announced g ha)⟩
      show _ ∈ f.rows
      rw [hf]
      exact List.mem_append_right _ List.mem_cons_self
    · simp only [Daemon.goto, Function.update_of_ne hu] at h
      obtain ⟨hrow, hnew⟩ := hi.publishing u g' date' h
      refine ⟨?_, hnew⟩
      show _ ∈ f.rows
      rw [hf]
      exact List.mem_append_left _ hrow
  · by_cases hu : u = t
    · subst hu
      simp [Daemon.goto] at h
    · simp only [Daemon.goto, Function.update_of_ne hu] at h
      exact hmono g' (hi.recording u g' h)

theorem inv_publish {d : Daemon ι} (hi : Inv d) {t : ι} {g date topic : String} {ok : Bool}
    (hpc : d.pc t = .publishing g date) :
    Inv { d.goto t (.recording g) with published := d.published ++ [⟨topic, g, date, ok⟩] } := by
  obtain ⟨hmem, hnew⟩ := hi.publishing t g date hpc
  have hrow : g ∈ d.guids := mem_guids hmem
  have hann : (d.published ++ [(⟨topic, g, date, ok⟩ : Announcement)]).map Announcement.guid = d.announced ++ [g] := by
    simp [Daemon.announced]
  refine ⟨hi.lock.move (by simp [hpc, Pc.inside]), ?_, fun g' h => ?_, hi.map, fun u g' date' h => ?_, fun u g' h => ?_⟩
  · show (List.map Announcement.guid _).Nodup
    rw [hann, ← List.concat_eq_append]
    exact hi.once.concat hnew
  · have h : g' ∈ List.map Announcement.guid (d.published ++ [⟨topic, g, date, ok⟩]) := h
    rw [hann] at h
    rcases List.mem_append.mp h with h | h
    · exact hi.announced g' h
    · rw [List.mem_singleton.mp h]
      exact hrow
  · have hu : u ≠ t := fun hu => by subst hu; simp [Daemon.goto] at h
    simp only [Daemon.goto, Function.update_of_ne hu] at h
    -- Only the owner of the mutex publishes.
    exact absurd (hi.lock.unique (t := u) (u := t) (by simp [h, Pc.inside]) (by simp [hpc, Pc.inside])) hu
  · by_cases hu : u = t
    · subst hu
      simp only [Daemon.goto, Function.update_self, Pc.recording.injEq] at h
      exact h ▸ hrow
    · exact hi.recording u g' (by simpa [Daemon.goto, Function.update_of_ne hu] using h)

theorem inv_record {d : Daemon ι} (hi : Inv d) {t : ι} {g n : String} (hpc : d.pc t = .recording g) :
    Inv { d.goto t .unlocking with map := Function.update d.map g (some n) } := by
  have hi' : Inv (d.goto t .unlocking) := hi.move (by simp [hpc, Pc.inside]) (by simp) (by simp)
  refine { hi' with map := fun g' n' h => ?_ }
  by_cases hg : g' = g
  · subst hg
    exact hi.recording t g' hpc
  · exact hi.map g' n' (by simpa [Function.update_of_ne hg] using h)

theorem inv_step {d d' : Daemon ι} {a : Act ι} (hi : Inv d) (h : step d a = some d') : Inv d' := by
  cases step_cases h with
  | start cfg o => exact inv_start cfg o hi
  | refused => exact hi
  | call t g hpc => exact hi.move (by simp [hpc, Pc.inside]) (by simp) (by simp)
  | acquire t g hpc hfree =>
    have hl := hi.lock
    rw [hfree] at hl
    exact hi.goto (hl.acquire rfl) (by simp) (by simp)
  | known t g hpc | unknown t g hpc | insertFails t ok g date hpc =>
    exact hi.move (by simp [hpc, Pc.inside]) (by simp) (by simp)
  | inserted t g date f hpc _ hg _ hf => exact inv_inserted hi hpc hg hf
  | publish t ok g date hpc => exact inv_publish hi hpc
  | record t g hpc => exact inv_record hi hpc
  | release t hpc => exact hi.goto (hi.lock.release (by simp [hpc, Pc.inside]) (by simp [Pc.inside])) (by simp) (by simp)

theorem Reached.inv {d : Daemon ι} (h : Reached d) : Inv d :=
  Reachable.inv (fun _ h₀ => h₀ ▸ inv_fresh) (fun _ _ _ => inv_step) h

/-- **Discovery is at most once.** Whatever SQLite and the broker answer, in
every order of the threads' steps and through every start, a GUID has at most
one announcement over the whole history and at most one row in the table, and a
row if the map knows it. -/
theorem discovery_at_most_once {d : Daemon ι} (h : Reached d) (g : String) :
    d.announced.count g ≤ 1 ∧ d.guids.count g ≤ 1 ∧ (d.map g ≠ none → g ∈ d.guids) := by
  have hi := h.inv
  refine ⟨List.nodup_iff_count_le_one.mp hi.once g, List.nodup_iff_count_le_one.mp d.file.unique g, ?_⟩
  intro hm
  obtain ⟨n, hn⟩ := Option.ne_none_iff_exists'.mp hm
  exact hi.map g n hn

/-- A daemon named as the literal of its own row. -/
def localCfg : Cfg where
  pathMainDb := "/var/lib/vscp/vscpd.sqlite3"
  guid := "FF:FF:FF:FF:FF:FF:FF:FE:00:00:00:00:00:01:00:00"
  serverName := "local-vscp-daemon"
  topicDiscovery := "vscp-daemon/FF:FF:FF:FF:FF:FF:FF:FE:00:00:00:00:00:01:00:00/discovery"

/-- SQLite carries out whatever it is asked. -/
def initSucceeds : InitOutcome where
  opened := true
  prepared := true
  steps := 100
  createTable := true
  idxguid := true
  idxname := true
  insert := true
  date := "2025-01-01T00:00:00"

/-- A node. -/
def nodeGuid : String := "FF:FF:FF:FF:FF:FF:FF:F5:00:00:00:00:00:00:00:01"

/-- A `discovery()` call for the node from start to end, on a map that lacks it. -/
def discoveryCall (published : Bool) : List (Act Unit) :=
  [.call () (some nodeGuid), .acquire (), .find (), .insert () true "2025-01-02T00:00:00", .publish () published,
    .record (), .release ()]

/-- The node is found, and after a start that cannot read the table it looks new again. -/
theorem discovery_at_most_once_reloaded :
    ∃ d : Daemon Unit, Reached d ∧ d.map nodeGuid = none ∧ nodeGuid ∈ d.announced ∧
      d.announced.count nodeGuid ≤ 1 ∧ d.guids.count nodeGuid ≤ 1 := by
  have hrun : (run step (Daemon.fresh : Daemon Unit)
      (.start localCfg initSucceeds :: discoveryCall true ++
        .start localCfg { initSucceeds with prepared := false } ::
          [.call () (some nodeGuid), .acquire (), .find (), .insert () true "2025-01-03T00:00:00", .release ()])).map
      (fun d => (d.map nodeGuid, d.announced)) = some (none, [nodeGuid]) := rfl
  obtain ⟨d, hd, he⟩ := Option.map_eq_some_iff.mp hrun
  obtain ⟨hm, ha⟩ := Prod.mk.inj he
  have hreached : Reached d := ⟨_, _, rfl, hd⟩
  obtain ⟨honce, hrow, -⟩ := discovery_at_most_once hreached nodeGuid
  exact ⟨d, hreached, hm, by rw [ha]; exact List.mem_cons_self, honce, hrow⟩

end MqttVscpd.Discovery
