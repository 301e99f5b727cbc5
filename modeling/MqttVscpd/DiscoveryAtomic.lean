/-
What whole calls of `discovery()` make of the table, the map and the announcements.
Between two starts the daemon's registry is that of calls carried out one after
another, in the order their threads got the mutex (`registry_atomic`).
-/
import MqttVscpd.DiscoverySerial
import MqttVscpd.DiscoveryStore

namespace MqttVscpd.Discovery

open Keyed Transition

variable {ι : Type} [DecidableEq ι]

/-- What calls of `discovery()` read and write. -/
structure Registry where
  cfg : Cfg
  file : File
  map : String → Option String
  published : List Announcement

def Daemon.registry (d : Daemon ι) : Registry := ⟨d.cfg, d.file, d.map, d.published⟩

/-- One call: its GUID, whether SQLite carries its INSERT out, the time it reads, and
whether its publish succeeds. The last three go unused where the call does not get to them. -/
structure Visit where
  guid : String
  inserts : Bool
  date : String
  sends : Bool

/-- The whole call at once. -/
def Registry.discover (r : Registry) (v : Visit) : Registry :=
  if (r.map v.guid).isSome then r
  else match r.file.bind (Db.insert v.inserts (discoveredRow v.guid v.date)) with
    | none => r
    | some db => { r with
      file := some db
      published := r.published ++ [⟨r.cfg.topicDiscovery, v.guid, v.date, v.sends⟩]
      map := Function.update r.map v.guid (some "Discovered") }

theorem discover_known {r : Registry} {v : Visit} (h : r.map v.guid ≠ none) : r.discover v = r := by
  simp [Registry.discover, Option.isSome_iff_ne_none.mpr h]

theorem discover_refused {r : Registry} {v : Visit}
    (h : r.file.bind (Db.insert v.inserts (discoveredRow v.guid v.date)) = none) : r.discover v = r := by
  simp [Registry.discover, h]

theorem discover_entered {r : Registry} {v : Visit} {db : Db} (hm : r.map v.guid = none)
    (h : r.file.bind (Db.insert v.inserts (discoveredRow v.guid v.date)) = some db) :
    r.discover v = { r with
      file := some db
      published := r.published ++ [⟨r.cfg.topicDiscovery, v.guid, v.date, v.sends⟩]
      map := Function.update r.map v.guid (some "Discovered") } := by
  simp [Registry.discover, hm, h]

/-- The GUID whose call gets the mutex. -/
def admitted (d : Daemon ι) : Act ι → List String
  | .acquire t =>
    match d.pc t with
    | .waiting g => [g]
    | _ => []
  | _ => []

/-- What the registry has become of `r` when the call for `g`, made in `r`, is there. -/
def Pc.Done (g : String) (r now : Registry) : Pc → Prop
  | .looking g' => g' = g ∧ now = r
  | .inserting g' => g' = g ∧ now = r ∧ r.map g = none
  | .publishing g' date => g' = g ∧ r.map g = none ∧ ∃ ok db, r.file.bind (Db.insert ok (discoveredRow g date)) = some db ∧
    now = { r with file := some db }
  | .recording g' => g' = g ∧ r.map g = none ∧ ∃ ok date sent db,
    r.file.bind (Db.insert ok (discoveredRow g date)) = some db ∧
      now = { r with file := some db, published := r.published ++ [⟨r.cfg.topicDiscovery, g, date, sent⟩] }
  | .unlocking => ∃ v : Visit, v.guid = g ∧ now = r.discover v
  | _ => False

/-- The registry is what whole calls for the GUIDs made of `r`, and the owner's call in part. -/
def Explained (r : Registry) (d : Daemon ι) (gs : List String) : Prop :=
  match d.owner with
  | none => ∃ vs : List Visit, vs.map (·.guid) = gs ∧ d.registry = vs.foldl Registry.discover r
  | some t => ∃ (vs : List Visit) (g : String), vs.map (·.guid) ++ [g] = gs ∧
    (d.pc t).Done g (vs.foldl Registry.discover r) d.registry

section explained

omit [DecidableEq ι]

variable {r : Registry} {d d' : Daemon ι} {gs : List String}

theorem Explained.congr (hx : Explained r d gs) (ho : d'.owner = d.owner) (hr : d'.registry = d.registry)
    (hpc : ∀ t, d.owner = some t → d'.pc t = d.pc t) : Explained r d' gs := by
  unfold Explained at hx ⊢
  rw [ho, hr]
  split
  · next hnone => simpa [hnone] using hx
  · next t ht =>
    rw [hpc t ht]
    simpa [ht] using hx

/-- A step of the thread inside, whose call does its next part. -/
theorem Explained.move (hx : Explained r d gs) {t : ι} {p : Pc} (ho : d.owner = some t) (ho' : d'.owner = some t)
    (hpc : d'.pc t = p) (hdone : ∀ g r, (d.pc t).Done g r d.registry → p.Done g r d'.registry) : Explained r d' gs := by
  unfold Explained at hx ⊢
  rw [ho] at hx
  rw [ho']
  obtain ⟨vs, g, hgs, hd⟩ := hx
  exact ⟨vs, g, hgs, hpc ▸ hdone g _ hd⟩

end explained

theorem explained_step {r : Registry} {d d' : Daemon ι} {a : Act ι} {gs : List String} (hi : Inv d)
    (hx : Explained r d gs) (h : callStep d a = some d') : Explained r d' (gs ++ admitted d a) := by
  obtain ⟨hns, hs⟩ := callStep_step h
  cases a with
  | start cfg o => exact absurd rfl (hns cfg o)
  | call t pev =>
    show Explained r d' (gs ++ [])
    rw [List.append_nil]
    have hidle := idle_of_call hs
    have hne : ∀ u, d.owner = some u → u ≠ t := by
      intro u hu hut
      have hin : (d.pc u).inside = true := (hi.lock u).mpr hu
      simp [hut, hidle, Pc.inside] at hin
    cases step_cases hs with
    | refused => exact hx
    | call => exact hx.congr rfl rfl fun u hu => by simp [Daemon.goto, Function.update_of_ne (hne u hu)]
  | acquire t =>
    cases step_cases hs with
    | acquire _ g hpc hfree =>
      simp only [Explained, hfree] at hx
      obtain ⟨vs, hgs, hr⟩ := hx
      have hadm : admitted d (.acquire t) = [g] := by simp [admitted, hpc]
      simp only [Explained]
      refine ⟨vs, g, by rw [hgs, hadm], ?_⟩
      rw [show ({ d.goto t (.looking g) with owner := some t } : Daemon ι).pc t = .looking g by simp [Daemon.goto]]
      exact ⟨rfl, hr⟩
  | find t =>
    show Explained r d' (gs ++ [])
    rw [List.append_nil]
    have hpc' : ∀ p, (d.goto t p).pc t = p := fun p => by simp [Daemon.goto]
    cases step_cases hs with
    | known _ g hpc hm =>
      have ho : d.owner = some t := hi.lock.owner_eq (t := t) (by simp [hpc, Pc.inside])
      refine hx.move ho ho (hpc' _) fun g' r' hd => ?_
      rw [hpc] at hd
      obtain ⟨rfl, hr⟩ := hd
      have hm' : r'.map g ≠ none := hr ▸ hm
      exact ⟨⟨g, false, "", false⟩, rfl, hr.trans (discover_known hm').symm⟩
    | unknown _ g hpc hm =>
      have ho : d.owner = some t := hi.lock.owner_eq (t := t) (by simp [hpc, Pc.inside])
      refine hx.move ho ho (hpc' _) fun g' r' hd => ?_
      rw [hpc] at hd
      obtain ⟨rfl, hr⟩ := hd
      exact ⟨rfl, hr, hr ▸ hm⟩
  | insert t ok date =>
    show Explained r d' (gs ++ [])
    rw [List.append_nil]
    simp only [step] at hs
    split at hs
    · next g hpc =>
      have ho : d.owner = some t := hi.lock.owner_eq (t := t) (by simp [hpc, Pc.inside])
      split at hs <;> cases hs
      · next hnone =>
        refine hx.move (p := .unlocking) ho ho (by simp [Daemon.goto]) fun g' r' hd => ?_
        rw [hpc] at hd
        obtain ⟨rfl, rfl, hm⟩ := hd
        exact ⟨⟨g, ok, date, false⟩, rfl, (discover_refused hnone).symm⟩
      · next db hdb =>
        refine hx.move (p := .publishing g date) ho ho (by simp [Daemon.goto]) fun g' r' hd => ?_
        rw [hpc] at hd
        obtain ⟨rfl, rfl, hm⟩ := hd
        exact ⟨rfl, hm, ok, db, hdb, rfl⟩
    · cases hs
  | publish t ok =>
    show Explained r d' (gs ++ [])
    rw [List.append_nil]
    simp only [step] at hs
    split at hs
    · next g date hpc =>
      cases hs
      have ho : d.owner = some t := hi.lock.owner_eq (t := t) (by simp [hpc, Pc.inside])
      refine hx.move (p := .recording g) ho ho (by simp [Daemon.goto]) fun g' r' hd => ?_
      rw [hpc] at hd
      obtain ⟨rfl, hm, ok', db, hdb, hr⟩ := hd
      refine ⟨rfl, hm, ok', date, ok, db, hdb, ?_⟩
      simp only [Daemon.registry, Registry.mk.injEq] at hr
      obtain ⟨hcfg, hfile, hmap, hpub⟩ := hr
      simp [Daemon.registry, Daemon.goto, hcfg, hfile, hmap, hpub]
    · cases hs
  | record t =>
    show Explained r d' (gs ++ [])
    rw [List.append_nil]
    simp only [step] at hs
    split at hs
    · next g hpc =>
      cases hs
      have ho : d.owner = some t := hi.lock.owner_eq (t := t) (by simp [hpc, Pc.inside])
      refine hx.move (p := .unlocking) ho ho (by simp [Daemon.goto]) fun g' r' hd => ?_
      rw [hpc] at hd
      obtain ⟨rfl, hm, ok, date, sent, db, hdb, hr⟩ := hd
      refine ⟨⟨g, ok, date, sent⟩, rfl, ?_⟩
      rw [discover_entered hm hdb]
      simp only [Daemon.registry, Registry.mk.injEq] at hr
      obtain ⟨hcfg, hfile, hmap, hpub⟩ := hr
      simp [Daemon.registry, Daemon.goto, hcfg, hfile, hmap, hpub]
    · cases hs
  | release t =>
    show Explained r d' (gs ++ [])
    rw [List.append_nil]
    simp only [step] at hs
    split at hs
    · next hpc =>
      cases hs
      have ho : d.owner = some t := hi.lock.owner_eq (t := t) (by simp [hpc, Pc.inside])
      simp only [Explained, ho, hpc] at hx
      obtain ⟨vs, g, hgs, v, hv, hr⟩ := hx
      exact ⟨vs ++ [v], by simp [← hgs, hv], by rw [List.foldl_concat]; exact hr⟩
    · cases hs

/-- **`discovery()` is atomic**, between two starts: once all its calls have returned, the
file, the map and the announcements are what whole calls make of them, one after another,
for the GUIDs in the order their threads got the mutex. -/
theorem registry_atomic {s t : Daemon ι} {acts : List (Act ι)} (hs : Reached s) (hq : s.Quiescent)
    (h : run callStep s acts = some t) (hqt : t.Quiescent) :
    ∃ vs : List Visit, vs.map (·.guid) = trace callStep admitted s acts ∧
      t.registry = vs.foldl Registry.discover s.registry := by
  have hfree : ∀ {d : Daemon ι}, Inv d → d.Quiescent → d.owner = none := by
    intro d hi hqd
    cases ho : d.owner with
    | none => rfl
    | some u =>
      have hin : (d.pc u).inside = true := (hi.lock u).mpr ho
      rw [hqd u] at hin
      cases hin
  have h₀ : Explained s.registry s [] := by
    simp only [Explained, hfree hs.inv hq]
    exact ⟨[], rfl, rfl⟩
  obtain ⟨hi, hx⟩ := run_trace (I := fun d gs => Inv d ∧ Explained s.registry d gs)
    (fun d a d' gs hd hstep => ⟨inv_step hd.1 (callStep_step hstep).2, explained_step hd.1 hd.2 hstep⟩) ⟨hs.inv, h₀⟩ h
  rw [List.nil_append] at hx
  simp only [Explained, hfree hi hqt] at hx
  exact hx

theorem registry_atomic_twoCalls :
    ∃ (t : Daemon Bool) (vs : List Visit),
      run callStep (Daemon.fresh.start localCfg initSucceeds) twoCalls.tail = some t ∧
        vs.map (·.guid) = [nodeGuid, nodeGuid] ∧
          t.registry = vs.foldl Registry.discover (Daemon.fresh.start localCfg initSucceeds : Daemon Bool).registry := by
  have hrun : (run callStep (Daemon.fresh.start localCfg initSucceeds) twoCalls.tail).map
      (fun d : Daemon Bool => (d.pc false, d.pc true)) = some (.idle, .idle) := rfl
  obtain ⟨t, ht, he⟩ := Option.map_eq_some_iff.mp hrun
  obtain ⟨hf, htrue⟩ := Prod.mk.inj he
  have hs : Reached (Daemon.fresh.start localCfg initSucceeds : Daemon Bool) :=
    ⟨Daemon.fresh, [.start localCfg initSucceeds], rfl, rfl⟩
  obtain ⟨vs, hvs, hreg⟩ := registry_atomic hs (fun _ => rfl) ht fun b => by cases b; exact hf; exact htrue
  exact ⟨t, vs, ht, hvs, hreg⟩

end MqttVscpd.Discovery
