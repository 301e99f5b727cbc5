/-
The table as a record of what was announced, over any number of starts: rows and
announcements are never taken back, and the announcements are, one for one and in
order, of rows, with the times stored there (`announced_as_stored`).
-/
import MqttVscpd.DiscoverySafety

namespace MqttVscpd.Discovery

open Transition

variable {ι : Type} [DecidableEq ι] {d d' : Daemon ι} {a : Act ι}

/-- What a row tells: the GUID and its time. -/
def Row.entry (r : Row) : String × String := (r.guid, r.date)

/-- What an announcement tells. -/
def Announcement.entry (a : Announcement) : String × String := (a.guid, a.time)

def Daemon.stored (d : Daemon ι) : List (String × String) := d.rows.map Row.entry

def Daemon.told (d : Daemon ι) : List (String × String) := d.published.map Announcement.entry

/-! ## Growth -/

theorem grows_step (h : step d a = some d') : d.rows <+: d'.rows ∧ d.published <+: d'.published := by
  cases step_cases h with
  | start cfg o =>
    refine ⟨?_, List.prefix_refl _⟩
    rcases rows_start d cfg o with heq | ⟨hnil, -⟩
    · exact heq ▸ List.prefix_refl _
    · simp [hnil]
  | inserted t g date f hpc hd hg ht hf =>
    refine ⟨?_, List.prefix_refl _⟩
    show d.rows <+: f.rows
    rw [hf]
    exact List.prefix_append ..
  | publish t ok g date hpc => exact ⟨List.prefix_refl _, List.prefix_append ..⟩
  | _ => exact ⟨List.prefix_refl _, List.prefix_refl _⟩

theorem grows_run {acts : List (Act ι)} (h : run step d acts = some d') :
    d.rows <+: d'.rows ∧ d.published <+: d'.published :=
  run_inv (I := fun e => d.rows <+: e.rows ∧ d.published <+: e.published)
    (fun _ _ _ hpre hs => ⟨hpre.1.trans (grows_step hs).1, hpre.2.trans (grows_step hs).2⟩)
    ⟨List.prefix_refl _, List.prefix_refl _⟩ h

/-! ## Order -/

/-- The announcements are of rows, in order, and a thread about to announce is about to announce the last row. -/
structure Ordered (d : Daemon ι) : Prop where
  told : d.told.Sublist d.stored
  last : ∀ t g date, d.pc t = .publishing g date → ∃ before, d.stored = before ++ [(g, date)] ∧ d.told.Sublist before

omit [DecidableEq ι] in
theorem ordered_fresh : Ordered (Daemon.fresh : Daemon ι) where
  told := List.Sublist.slnil
  last := fun t g date h => by cases h

/-- Moving one thread to where it does not announce. -/
theorem Ordered.goto (h : Ordered d) {t : ι} {p : Pc} (hp : ∀ g date, p ≠ .publishing g date)
    (hpc : d'.pc = Function.update d.pc t p) (hrows : d'.rows = d.rows) (hpub : d'.published = d.published) :
    Ordered d' := by
  have hstored : d'.stored = d.stored := by rw [Daemon.stored, hrows]; rfl
  have htold : d'.told = d.told := by rw [Daemon.told, hpub]; rfl
  refine ⟨by rw [hstored, htold]; exact h.told, fun u g date hu => ?_⟩
  rw [hstored, htold]
  by_cases hut : u = t
  · subst hut
    exact absurd (by simpa [hpc] using hu) (hp g date)
  · exact h.last u g date (by simpa [hpc, Function.update_of_ne hut] using hu)

omit [DecidableEq ι] in
/-- While a thread is inside, another one is not about to announce. -/
theorem not_publishing_beside {t u : ι} {g date : String} (hi : Inv d) (hin : (d.pc t).inside = true) (hut : u ≠ t) :
    d.pc u ≠ .publishing g date := by
  intro hu
  have heq : u = t := hi.lock.unique (t := u) (u := t) (by simp [hu, Pc.inside]) hin
  exact hut heq

theorem ordered_step (hi : Inv d) (ho : Ordered d) (h : step d a = some d') : Ordered d' := by
  cases step_cases h with
  | start cfg o =>
    refine ⟨?_, fun t g date hpc => by cases hpc⟩
    show d.told.Sublist ((d.start cfg o).rows.map Row.entry)
    rcases rows_start d cfg o with heq | ⟨hnil, -⟩
    · rw [heq]
      exact ho.told
    · have hnone : d.told = [] := by
        have htold := ho.told
        rw [Daemon.stored, hnil] at htold
        exact List.sublist_nil.mp htold
      simp [hnone]
  | refused => exact ho
  | call t g hpc => exact ho.goto (t := t) (by simp) rfl rfl rfl
  | acquire t g hpc hfree => exact ho.goto (t := t) (by simp) rfl rfl rfl
  | known t g hpc hm => exact ho.goto (t := t) (by simp) rfl rfl rfl
  | unknown t g hpc hm => exact ho.goto (t := t) (by simp) rfl rfl rfl
  | insertFails t ok g date hpc hg => exact ho.goto (t := t) (by simp) rfl rfl rfl
  | record t g hpc => exact ho.goto (t := t) (by simp) rfl rfl rfl
  | release t hpc => exact ho.goto (t := t) (by simp) rfl rfl rfl
  | inserted t g date f hpc hd hg ht hf =>
    have hstored : f.rows.map Row.entry = d.stored ++ [(g, date)] := by
      rw [hf, List.map_append]
      rfl
    refine ⟨?_, fun u g' date' hu => ?_⟩
    · show d.told.Sublist (f.rows.map Row.entry)
      rw [hstored]
      exact ho.told.trans (List.sublist_append_left ..)
    · by_cases hut : u = t
      · subst hut
        obtain ⟨rfl, rfl⟩ : g = g' ∧ date = date' := by simpa [Daemon.goto] using hu
        exact ⟨d.stored, hstored, ho.told⟩
      · have hu' : d.pc u = .publishing g' date' := by simpa [Daemon.goto, Function.update_of_ne hut] using hu
        exact absurd hu' (not_publishing_beside hi (by simp [hpc, Pc.inside]) hut)
  | publish t ok g date hpc =>
    obtain ⟨before, hstored, hsub⟩ := ho.last t g date hpc
    refine ⟨?_, fun u g' date' hu => ?_⟩
    · show ((d.published ++ [_]).map Announcement.entry).Sublist d.stored
      rw [hstored, List.map_append]
      exact hsub.append (List.Sublist.refl _)
    · by_cases hut : u = t
      · subst hut
        simp [Daemon.goto] at hu
      · have hu' : d.pc u = .publishing g' date' := by simpa [Daemon.goto, Function.update_of_ne hut] using hu
        exact absurd hu' (not_publishing_beside hi (by simp [hpc, Pc.inside]) hut)

theorem Reached.ordered (h : Reached d) : Ordered d :=
  (Reachable.inv (I := fun d => Inv d ∧ Ordered d) (fun _ h₀ => h₀ ▸ ⟨inv_fresh, ordered_fresh⟩)
    (fun _ _ _ hd hs => ⟨inv_step hd.1 hs, ordered_step hd.1 hd.2 hs⟩) h).2

/-- **The table records what was announced**, over any number of starts, with any of them
failing. Whatever comes later, no row and no announcement is taken back or changes its
place; and the announcements made so far are of rows, one for one, in the order of the
rows, each with the GUID and the time its row has. -/
theorem announced_as_stored {acts : List (Act ι)} (hd : Reached d) (h : run step d acts = some d') :
    d.rows <+: d'.rows ∧ d.published <+: d'.published ∧
      (d'.published.map fun a => (a.guid, a.time)).Sublist (d'.rows.map fun r => (r.guid, r.date)) := by
  obtain ⟨hrows, hpub⟩ := grows_run h
  obtain ⟨d₀, acts₀, h₀, hrun⟩ := hd
  have hd' : Reached d' := ⟨d₀, acts₀ ++ acts, h₀, run_append_iff.mpr ⟨d, hrun, h⟩⟩
  exact ⟨hrows, hpub, hd'.ordered.told⟩

/-- A node is found on a new database, and the daemon starts again. -/
theorem announced_as_stored_restart :
    ∃ d d' : Daemon Unit, d'.published.length = 1 ∧ d.rows <+: d'.rows ∧
      (d'.published.map fun a => (a.guid, a.time)).Sublist (d'.rows.map fun r => (r.guid, r.date)) := by
  have hfirst : ∃ d, run step (Daemon.fresh : Daemon Unit) (.start localCfg initSucceeds :: discoveryCall true) = some d ∧
      ∃ d', run step d [.start localCfg initSucceeds] = some d' ∧ d'.published.length = 1 := ⟨_, rfl, _, rfl, rfl⟩
  obtain ⟨d, hd, d', hd', hone⟩ := hfirst
  obtain ⟨hrows, -, hsub⟩ := announced_as_stored ⟨_, _, rfl, hd⟩ hd'
  exact ⟨d, d', hone, hrows, hsub⟩

end MqttVscpd.Discovery
