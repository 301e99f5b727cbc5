/-
When a discovered node stays unannounced. `discovery()` inserts the row, publishes
and enters the GUID in the map, and a failed publish stops neither: from then on
the map, and after a start the row, turns every later call for the GUID away. So
a run leaves every node announced exactly when no publish of it fails and no start
comes between an INSERT and its publish (`accounted_iff`).
-/
import MqttVscpd.DiscoverySafety

namespace MqttVscpd.Discovery

open Keyed Transition

variable {ι : Type}

namespace Daemon

/-- A publish for the GUID has succeeded. -/
def Announced (d : Daemon ι) (g : String) : Prop := ∃ a ∈ d.published, a.guid = g ∧ a.ok = true

/-- The GUID is in the table or in the map. -/
def Known (d : Daemon ι) (g : String) : Prop := g ∈ d.guids ∨ d.map g ≠ none

/-- It was `init` that recorded the GUID. -/
def RecordedByInit (d : Daemon ι) (g : String) : Prop :=
  ∃ r ∈ d.rows, r.guid = g ∧ r.name = "local-vscp-daemon"

/-- The next `discovery()` call for the GUID, by some thread, gets to the publish. -/
def Retries [DecidableEq ι] (d : Daemon ι) (g : String) : Prop :=
  ∃ t ok date d', run step d [.call t (some g), .acquire t, .find t, .insert t ok date] = some d' ∧
    d'.pc t = .publishing g date

/-- What `discovery()` recorded has been announced, or will be tried again. -/
def Accounted [DecidableEq ι] (d : Daemon ι) : Prop :=
  ∀ g, d.Known g → ¬ d.RecordedByInit g → d.Announced g ∨ d.Retries g

/-- A call is between its INSERT for the GUID and its publish. -/
def Publishing (d : Daemon ι) (g : String) : Prop := ∃ t date, d.pc t = .publishing g date

/-- Every row of `discovery()` has been announced or is about to be. -/
def Covered (d : Daemon ι) : Prop :=
  ∀ r ∈ d.rows, r.name ≠ "local-vscp-daemon" → d.Announced r.guid ∨ d.Publishing r.guid

end Daemon

theorem Announced.append {d d' : Daemon ι} {as : List Announcement} {g : String}
    (h : d'.published = d.published ++ as) (ha : d.Announced g) : d'.Announced g := by
  obtain ⟨a, hm, ha⟩ := ha
  exact ⟨a, h ▸ List.mem_append_left _ hm, ha⟩

theorem not_announced {d : Daemon ι} {g : String} (h : g ∉ d.announced) : ¬ d.Announced g := by
  intro hann
  obtain ⟨a, ha, rfl, -⟩ := hann
  exact h (List.mem_map_of_mem ha)

theorem discoveredRow_name (g date : String) : (discoveredRow g date).name ≠ "local-vscp-daemon" := by
  simp [discoveredRow]

variable [DecidableEq ι]

/-! ## What a step does to the rows and the announcements -/

/-- A thread that is not publishing, and does not go to. -/
theorem publishing_goto {d : Daemon ι} {t : ι} {p : Pc} (hb : ∀ g date, d.pc t ≠ .publishing g date)
    (hp : ∀ g date, p ≠ .publishing g date) (g : String) : (d.goto t p).Publishing g ↔ d.Publishing g := by
  constructor
  · intro hpub
    obtain ⟨u, date, hu⟩ := hpub
    have hne : u ≠ t := fun h => hp g date (by simpa [h, Daemon.goto] using hu)
    exact ⟨u, date, by simpa [Daemon.goto, Function.update_of_ne hne] using hu⟩
  · intro hpub
    obtain ⟨u, date, hu⟩ := hpub
    have hne : u ≠ t := fun h => hb g date (h ▸ hu)
    exact ⟨u, date, by simpa [Daemon.goto, Function.update_of_ne hne] using hu⟩

/-- What a step does to the rows, the announcements and the calls about to publish. -/
inductive Changes (d : Daemon ι) : Act ι → Daemon ι → Prop where
  | start (cfg : Cfg) (o : InitOutcome) : Changes d (.start cfg o) (d.start cfg o)
  | inserts (t : ι) (g date : String) (d' : Daemon ι) (hg : g ∉ d.guids)
    (hr : d'.rows = d.rows ++ [discoveredRow g date]) (hp : d'.published = d.published)
    (hpub : ∀ g', d'.Publishing g' ↔ d.Publishing g' ∨ g' = g) : Changes d (.insert t true date) d'
  | publishes (t : ι) (ok : Bool) (topic g date : String) (d' : Daemon ι) (hpc : d.pc t = .publishing g date)
    (hr : d'.rows = d.rows) (hp : d'.published = d.published ++ [⟨topic, g, date, ok⟩])
    (hpub : ∀ g', ¬ d'.Publishing g') : Changes d (.publish t ok) d'
  | keeps (a : Act ι) (d' : Daemon ι) (hs : ∀ cfg o, a ≠ .start cfg o) (hpu : ∀ t ok, a ≠ .publish t ok)
    (hr : d'.rows = d.rows) (hp : d'.published = d.published)
    (hpub : ∀ g', d'.Publishing g' ↔ d.Publishing g') : Changes d a d'

theorem step_changes {d d' : Daemon ι} {a : Act ι} (hi : Inv d) (h : step d a = some d') : Changes d a d' := by
  cases step_cases h with
  | start cfg o => exact .start cfg o
  | inserted t g date f hpc _ hg _ hf =>
    refine .inserts t g date _ hg hf rfl fun g' => ⟨fun hpub => ?_, fun hpub => ?_⟩
    · obtain ⟨u, date', hu⟩ := hpub
      by_cases hut : u = t
      · subst hut
        simp only [Daemon.goto, Function.update_self, Pc.publishing.injEq] at hu
        exact .inr hu.1.symm
      · exact .inl ⟨u, date', by simpa [Daemon.goto, Function.update_of_ne hut] using hu⟩
    · rcases hpub with ⟨u, date', hu⟩ | rfl
      · have hut : u ≠ t := fun h => by rw [h, hpc] at hu; cases hu
        exact ⟨u, date', by simpa [Daemon.goto, Function.update_of_ne hut] using hu⟩
      · exact ⟨t, date, by simp [Daemon.goto]⟩
  | publish t ok g date hpc =>
    refine .publishes t ok _ g date _ hpc rfl rfl fun g' hpub => ?_
    obtain ⟨u, date', hu⟩ := hpub
    have hut : u ≠ t := fun h => by simp [h, Daemon.goto] at hu
    have hu : d.pc u = .publishing g' date' := by simpa [Daemon.goto, Function.update_of_ne hut] using hu
    -- Two calls do not publish at once.
    exact hut (hi.lock.unique (by simp [hu, Pc.inside]) (by simp [hpc, Pc.inside]))
  | refused => exact .keeps _ _ (by simp) (by simp) rfl rfl fun _ => Iff.rfl
  | call t g hpc | known t g hpc | unknown t g hpc | insertFails t ok g date hpc =>
    exact .keeps _ _ (by simp) (by simp) rfl rfl (publishing_goto (by simp [hpc]) (by simp))
  | acquire t g hpc | record t g hpc | release t hpc =>
    refine .keeps _ _ (by simp) (by simp) rfl rfl fun g' => ?_
    exact publishing_goto (by simp [hpc]) (by simp) g'

/-! ## Covered rows -/

/-- The publish succeeds, and a start finds no call about to publish. -/
def Delivers (d : Daemon ι) : Act ι → Prop
  | .publish _ ok => ok = true
  | .start _ _ => ∀ g, ¬ d.Publishing g
  | _ => True

theorem covered_step {d d' : Daemon ι} {a : Act ι} (hi : Inv d) (hc : d.Covered) (hd : Delivers d a)
    (h : step d a = some d') : d'.Covered := by
  intro r hmem hn
  cases step_changes hi h with
  | start cfg o =>
    rcases rows_start d cfg o with he | ⟨-, he⟩
    · exact .inl ((hc r (he ▸ hmem) hn).resolve_right (hd _))
    · rw [he, List.mem_singleton] at hmem
      exact absurd (by rw [hmem]; rfl) hn
  | inserts t g date _ hg hr hp hpub =>
    rw [hr, List.mem_append, List.mem_singleton] at hmem
    rcases hmem with hmem | rfl
    · rcases hc r hmem hn with ha | hpr
      · exact .inl (Announced.append (by rw [hp, List.append_nil]) ha)
      · exact .inr ((hpub _).mpr (.inl hpr))
    · exact .inr ((hpub _).mpr (.inr rfl))
  | publishes t ok topic g date _ hpc hr hp hpub =>
    rcases hc r (hr ▸ hmem) hn with ha | ⟨u, date', hu⟩
    · exact .inl (Announced.append hp ha)
    · -- The one call that publishes is the one that just did.
      have hut : u = t := hi.lock.unique (by simp [hu, Pc.inside]) (by simp [hpc, Pc.inside])
      rw [hut, hpc, Pc.publishing.injEq] at hu
      have hok : ok = true := hd
      exact .inl ⟨⟨topic, g, date, ok⟩, by simp [hp], hu.1, hok⟩
  | keeps _ _ _ _ hr hp hpub =>
    rcases hc r (hr ▸ hmem) hn with ha | hpr
    · exact .inl (Announced.append (by rw [hp, List.append_nil]) ha)
    · exact .inr ((hpub _).mpr hpr)

/-- A row that is neither announced nor about to be stays so. -/
theorem not_covered_step {d d' : Daemon ι} {a : Act ι} (hi : Inv d) (hc : ¬ d.Covered)
    (h : step d a = some d') : ¬ d'.Covered := by
  simp only [Daemon.Covered, not_forall, not_or] at hc
  obtain ⟨r, hmem, hn, hna, hnp⟩ := hc
  intro hc'
  cases step_changes hi h with
  | start cfg o =>
    rcases rows_start d cfg o with he | ⟨he, -⟩
    · rcases hc' r (he ▸ hmem) hn with ha | ⟨u, date, hu⟩
      · exact hna ha
      · cases hu
    · rw [he] at hmem
      cases hmem
  | inserts t g date _ hg hr hp hpub =>
    rcases hc' r (by rw [hr]; exact List.mem_append_left _ hmem) hn with ⟨a, ha, hag⟩ | hpr
    · exact hna ⟨a, hp ▸ ha, hag⟩
    · rcases (hpub _).mp hpr with hpr | rfl
      · exact hnp hpr
      · exact hg (mem_guids hmem)
  | publishes t ok topic g date _ hpc hr hp hpub =>
    rcases hc' r (hr ▸ hmem) hn with ⟨a, ha, hag, hok⟩ | hpr
    · rw [hp, List.mem_append, List.mem_singleton] at ha
      rcases ha with ha | rfl
      · exact hna ⟨a, ha, hag, hok⟩
      · exact hnp ⟨t, date, by rw [← hag]; exact hpc⟩
    · exact hpub _ hpr
  | keeps _ _ _ _ hr hp hpub =>
    rcases hc' r (hr ▸ hmem) hn with ⟨a, ha, hag⟩ | hpr
    · exact hna ⟨a, hp ▸ ha, hag⟩
    · exact hnp ((hpub _).mp hpr)

/-- A failed publish, or a start before the publish, leaves its row uncovered. -/
theorem not_covered_of_not_delivers {d d' : Daemon ι} {a : Act ι} (hi : Inv d) (hd : ¬ Delivers d a)
    (h : step d a = some d') : ¬ d'.Covered := by
  intro hc
  cases step_changes hi h with
  | start cfg o =>
    simp only [Delivers, not_forall, not_not] at hd
    obtain ⟨g, t, date, hpc⟩ := hd
    obtain ⟨hmem, hnew⟩ := hi.publishing t g date hpc
    rcases rows_start d cfg o with he | ⟨he, -⟩
    · rcases hc (discoveredRow g date) (he ▸ hmem) (discoveredRow_name g date) with ha | ⟨u, date', hu⟩
      · exact not_announced hnew ha
      · cases hu
    · rw [he] at hmem
      cases hmem
  | inserts => exact hd trivial
  | publishes t ok topic g date _ hpc hr hp hpub =>
    obtain ⟨hmem, hnew⟩ := hi.publishing t g date hpc
    rcases hc (discoveredRow g date) (hr ▸ hmem) (discoveredRow_name g date) with ⟨a, ha, hag, hok⟩ | hpr
    · rw [hp, List.mem_append, List.mem_singleton] at ha
      rcases ha with ha | rfl
      · exact not_announced hnew ⟨a, ha, hag, hok⟩
      · exact hd hok
    · exact hpub _ hpr
  | keeps a _ hs hpu =>
    cases a with
    | start cfg o => exact hs cfg o rfl
    | publish t ok => exact hpu t ok rfl
    | _ => exact hd trivial

theorem covered_iff {acts : List (Act ι)} {d : Daemon ι} (h : run step Daemon.fresh acts = some d) :
    d.Covered ↔ Along step Delivers Daemon.fresh acts := by
  constructor
  · intro hc
    exact along_of_not (J := fun d => ¬ d.Covered) (fun _ _ _ => inv_step)
      (fun _ _ _ => not_covered_of_not_delivers) (fun _ _ _ => not_covered_step) inv_fresh h (not_not.mpr hc)
  · intro hd
    have hI : Inv d ∧ d.Covered :=
      Along.inv (I := fun d => Inv d ∧ d.Covered)
        (fun _ _ _ hi hd hs => ⟨inv_step hi.1 hs, covered_step hi.1 hi.2 hd hs⟩) hd
        ⟨inv_fresh, fun r hr => by cases hr⟩ h
    exact hI.2

/-! ## Between calls -/

/-- A GUID with a row keeps it, and no call gets to its publish any more. -/
theorem barred_step {d d' : Daemon ι} {a : Act ι} {g : String} (hi : Inv d) (hg : g ∈ d.guids)
    (hn : ¬ d.Publishing g) (h : step d a = some d') : g ∈ d'.guids ∧ ¬ d'.Publishing g := by
  obtain ⟨r, hmem, rfl⟩ := List.mem_map.mp hg
  cases step_changes hi h with
  | start cfg o => exact ⟨guids_start hg, fun ⟨u, _, hu⟩ => by cases hu⟩
  | inserts t g' date _ hg' hr hp hpub =>
    refine ⟨mem_guids (by rw [hr]; exact List.mem_append_left _ hmem), ?_⟩
    intro hpr
    rcases (hpub _).mp hpr with hpr | rfl
    · exact hn hpr
    · exact hg' hg
  | publishes t ok topic g' date _ hpc hr hp hpub => exact ⟨mem_guids (hr ▸ hmem), hpub _⟩
  | keeps _ _ _ _ hr hp hpub => exact ⟨mem_guids (hr ▸ hmem), fun hpr => hn ((hpub _).mp hpr)⟩

/-- A GUID with a row is not announced again, whether or not the map knows it. -/
theorem not_retries {d : Daemon ι} (hi : Inv d) {g : String} (hg : g ∈ d.guids) (hq : d.Quiescent) :
    ¬ d.Retries g := by
  intro hret
  obtain ⟨t, ok, date, d', hr, hpc⟩ := hret
  have hn : ¬ d.Publishing g := fun ⟨u, _, hu⟩ => by simp [hq u] at hu
  obtain ⟨-, -, hn'⟩ := run_inv (I := fun d => Inv d ∧ g ∈ d.guids ∧ ¬ d.Publishing g)
    (fun _ _ _ hs h => ⟨inv_step hs.1 h, barred_step hs.1 hs.2.1 hs.2.2 h⟩) ⟨hi, hg, hn⟩ hr
  exact hn' ⟨t, date, hpc⟩

theorem accounted_iff_covered {d : Daemon ι} (hi : Inv d) (hq : d.Quiescent) : d.Accounted ↔ d.Covered := by
  constructor
  · intro ha r hr hn
    have hg : r.guid ∈ d.guids := mem_guids hr
    have hinit : ¬ d.RecordedByInit r.guid := by
      intro hrec
      obtain ⟨r', hr', he, hn'⟩ := hrec
      have : r' = r := List.inj_on_of_nodup_map d.file.unique hr' hr he
      exact hn (this ▸ hn')
    exact .inl ((ha r.guid (.inl hg) hinit).resolve_right (not_retries hi hg hq))
  · intro hc g hk hinit
    have hg : g ∈ d.guids := by
      rcases hk with hg | hm
      · exact hg
      · obtain ⟨n, hn⟩ := Option.ne_none_iff_exists'.mp hm
        exact hi.map g n hn
    obtain ⟨r, hr, rfl⟩ := List.mem_map.mp hg
    refine .inl ((hc r hr fun hn => hinit ⟨r, hr, rfl, hn⟩).resolve_right ?_)
    intro hpub
    obtain ⟨t, date, hpc⟩ := hpub
    simp [hq t] at hpc

/-- **When every discovered node is accounted for**, at the end of a run with no
call in progress: exactly when no publish in it failed and no start came between
an INSERT and its publish. -/
theorem accounted_iff {acts : List (Act ι)} {d : Daemon ι} (h : run step Daemon.fresh acts = some d)
    (hq : d.Quiescent) : d.Accounted ↔ Along step Delivers Daemon.fresh acts :=
  (accounted_iff_covered (run_inv (fun _ _ _ => inv_step) inv_fresh h) hq).trans (covered_iff h)

theorem accounted_publish_succeeds :
    ∃ d : Daemon Unit, run step Daemon.fresh (.start localCfg initSucceeds :: discoveryCall true) = some d ∧
      nodeGuid ∈ d.announced ∧ d.Accounted := by
  have hrun : (run step (Daemon.fresh : Daemon Unit) (.start localCfg initSucceeds :: discoveryCall true)).map
      (fun d => (d.pc (), d.announced)) = some (.idle, [nodeGuid]) := rfl
  obtain ⟨d, hd, he⟩ := Option.map_eq_some_iff.mp hrun
  obtain ⟨hpc, ha⟩ := Prod.mk.inj he
  refine ⟨d, hd, by rw [ha]; exact List.mem_cons_self, (accounted_iff hd fun _ => hpc).mpr ?_⟩
  simp [discoveryCall, Along, Delivers, Daemon.Publishing, Daemon.fresh]

/-- The broker is away for the one publish of a node: the node is in the table
and in the map, and no later call announces it. -/
theorem not_accounted_publish_fails :
    ∃ d : Daemon Unit, run step Daemon.fresh (.start localCfg initSucceeds :: discoveryCall false) = some d ∧
      d.Quiescent ∧ ¬ d.Accounted := by
  have hrun : (run step (Daemon.fresh : Daemon Unit) (.start localCfg initSucceeds :: discoveryCall false)).map
      (fun d => (d.pc (), d.rows.map (fun r => (r.guid, r.name)), d.published.map (·.ok))) =
        some (.idle, [(localCfg.guid, "local-vscp-daemon"), (nodeGuid, "discovered")], [false]) := rfl
  obtain ⟨d, hd, he⟩ := Option.map_eq_some_iff.mp hrun
  simp only [Prod.mk.injEq] at he
  obtain ⟨hpc, hrows, hok⟩ := he
  have hq : d.Quiescent := fun _ => hpc
  have hi : Inv d := run_inv (fun _ _ _ => inv_step) inv_fresh hd
  have hg : nodeGuid ∈ d.guids := by
    have hguids : d.guids = [localCfg.guid, nodeGuid] := by
      simpa [Daemon.guids, File.guids, Daemon.rows, Function.comp_def] using congrArg (List.map Prod.fst) hrows
    rw [hguids]
    exact List.mem_cons_of_mem _ List.mem_cons_self
  have hinit : ¬ d.RecordedByInit nodeGuid := by
    intro hrec
    obtain ⟨r, hr, he, hn⟩ := hrec
    have : (r.guid, r.name) ∈ d.rows.map fun r => (r.guid, r.name) := List.mem_map_of_mem hr
    rw [hrows, he, hn] at this
    revert this
    decide
  refine ⟨d, hd, hq, ?_⟩
  intro hacc
  rcases hacc nodeGuid (.inl hg) hinit with ⟨a, ha, -, hok'⟩ | hret
  · have : a.ok ∈ d.published.map (·.ok) := List.mem_map_of_mem ha
    rw [hok, hok'] at this
    simp at this
  · exact not_retries hi hg hq hret

end MqttVscpd.Discovery
