/-
Tables whose rows have distinct keys, and maps loaded from rows one by one,
a later row over an earlier one of the same key.
-/
import Mathlib.Data.List.Nodup
import Mathlib.Logic.Function.Basic

namespace Keyed

variable {R K V : Type*}

/-- A table with a unique column: no two rows have the same key. -/
structure Table (key : R → K) where
  rows : List R
  unique : (rows.map key).Nodup

namespace Table

variable {key : R → K}

def keys (t : Table key) : List K := t.rows.map key

def empty : Table key := ⟨[], List.nodup_nil⟩

@[simp] theorem empty_rows : (empty : Table key).rows = [] := rfl

@[simp] theorem empty_keys : (empty : Table key).keys = [] := rfl

theorem mem_keys {t : Table key} {k : K} : k ∈ t.keys ↔ ∃ r ∈ t.rows, key r = k := List.mem_map

/-- Append a row, unless the table has its key. -/
def insert [DecidableEq K] (t : Table key) (r : R) : Option (Table key) :=
  if h : key r ∈ t.keys then none
  else some ⟨t.rows ++ [r], by
    rw [List.map_append, List.map_singleton, ← List.concat_eq_append]
    exact t.unique.concat h⟩

theorem insert_eq_some [DecidableEq K] {t t' : Table key} {r : R} (h : t.insert r = some t') :
    key r ∉ t.keys ∧ t'.rows = t.rows ++ [r] := by
  unfold insert at h
  split at h
  · cases h
  · next hk => cases h; exact ⟨hk, rfl⟩

theorem insert_isSome [DecidableEq K] {t : Table key} {r : R} (h : key r ∉ t.keys) :
    ∃ t', t.insert r = some t' := by
  unfold insert
  rw [dif_neg h]
  exact ⟨_, rfl⟩

end Table

/-! ## Loading a map -/

variable [DecidableEq K]

/-- Enter the rows' values under their keys, in order. -/
def load (key : R → K) (val : R → V) (m : K → Option V) (rows : List R) : K → Option V :=
  rows.foldl (fun m r => Function.update m (key r) (some (val r))) m

variable {key : R → K} {val : R → V} {m : K → Option V}

theorem load_cons {r : R} {rows : List R} :
    load key val m (r :: rows) = load key val (Function.update m (key r) (some (val r))) rows := rfl

/-- What a load finds came from a row, or was there before. -/
theorem load_cases {rows : List R} {k : K} {v : V} (h : load key val m rows k = some v) :
    m k = some v ∨ ∃ r ∈ rows, key r = k ∧ val r = v := by
  induction rows generalizing m with
  | nil => exact .inl h
  | cons r rows ih =>
    rw [load_cons] at h
    rcases ih h with hm | ⟨r', hr', hk⟩
    · by_cases hkr : k = key r
      · subst hkr
        rw [Function.update_self] at hm
        exact .inr ⟨r, List.mem_cons_self, rfl, Option.some.inj hm⟩
      · rw [Function.update_of_ne hkr] at hm
        exact .inl hm
    · exact .inr ⟨r', List.mem_cons_of_mem _ hr', hk⟩

/-- Keys no row has keep their value. -/
theorem load_of_not_mem {rows : List R} {k : K} (h : k ∉ rows.map key) : load key val m rows k = m k := by
  induction rows generalizing m with
  | nil => rfl
  | cons r rows ih =>
    rw [List.map_cons, List.mem_cons, not_or] at h
    rw [load_cons]
    exact (ih h.2).trans (Function.update_of_ne h.1 _ _)

/-- From distinct keys a load finds each row's value. -/
theorem load_of_mem {rows : List R} (hu : (rows.map key).Nodup) {r : R} (hr : r ∈ rows) :
    load key val m rows (key r) = some (val r) := by
  induction rows generalizing m with
  | nil => cases hr
  | cons r' rows ih =>
    obtain ⟨hn, hu⟩ := List.nodup_cons.mp hu
    rw [load_cons]
    rcases List.mem_cons.mp hr with rfl | hr
    · exact (load_of_not_mem hn).trans (Function.update_self _ _ _)
    · exact ih hu hr

/-! ## The last row of a key -/

/-- A row no later row has the key of. -/
def Last {K : Type*} (key : R → K) (rows : List R) (r : R) : Prop :=
  ∃ before after, rows = before ++ r :: after ∧ key r ∉ after.map key

omit [DecidableEq K] in
theorem Last.mem {rows : List R} {r : R} (h : Last key rows r) : r ∈ rows := by
  obtain ⟨before, after, rfl, -⟩ := h
  exact List.mem_append_right _ List.mem_cons_self

/-- Every key some row has is the key of a last row. -/
theorem exists_last {rows : List R} {k : K} (h : k ∈ rows.map key) : ∃ r, Last key rows r ∧ key r = k := by
  induction rows with
  | nil => cases h
  | cons r rows ih =>
    by_cases hk : k ∈ rows.map key
    · obtain ⟨r', ⟨before, after, hrows, hafter⟩, hr'⟩ := ih hk
      exact ⟨r', ⟨r :: before, after, by rw [hrows, List.cons_append], hafter⟩, hr'⟩
    · have hr : k = key r := by simpa [hk] using h
      exact ⟨r, ⟨[], rows, rfl, hr ▸ hk⟩, hr.symm⟩

omit [DecidableEq K] in
/-- Which rows are last depends on which rows have the same key, not on the keys. -/
theorem Last.congr {K' : Type*} {key' : R → K'} {rows : List R} {r : R}
    (hkey : ∀ r ∈ rows, ∀ r' ∈ rows, key r = key r' ↔ key' r = key' r') :
    Last key rows r ↔ Last key' rows r := by
  refine exists_congr fun before => exists_congr fun after => and_congr_right fun hrows => not_congr ?_
  subst hrows
  simp only [List.mem_map]
  refine exists_congr fun r' => and_congr_right fun hr' => ?_
  exact hkey r' (List.mem_append_right _ (List.mem_cons_of_mem _ hr')) r
    (List.mem_append_right _ List.mem_cons_self)

omit [DecidableEq K] in
/-- So does which rows have keys of their own. -/
theorem nodup_congr {K' : Type*} {key' : R → K'} {rows : List R}
    (hkey : ∀ r ∈ rows, ∀ r' ∈ rows, key r = key r' ↔ key' r = key' r') (h : (rows.map key').Nodup) :
    (rows.map key).Nodup := by
  rw [List.nodup_map_iff_inj_on (List.Nodup.of_map key' h)]
  intro r hr r' hr' heq
  exact List.inj_on_of_nodup_map h hr hr' ((hkey r hr r' hr').mp heq)

/-- The last row of a key wins, whatever came before it. -/
theorem load_last {rows : List R} {r : R} (h : Last key rows r) : load key val m rows (key r) = some (val r) := by
  obtain ⟨before, after, rfl, hafter⟩ := h
  rw [load, List.foldl_append, ← load, ← load, load_cons, load_of_not_mem hafter, Function.update_self]

/-- **What a load finds in a map that was empty**: the value of the key's last row. -/
theorem load_iff_last {rows : List R} {k : K} {v : V} :
    load key val (fun _ => none) rows k = some v ↔ ∃ r, Last key rows r ∧ key r = k ∧ val r = v := by
  constructor
  · intro h
    have hk : k ∈ rows.map key := by
      by_contra hk
      rw [load_of_not_mem hk] at h
      cases h
    obtain ⟨r, hlast, rfl⟩ := exists_last hk
    rw [load_last hlast] at h
    exact ⟨r, hlast, rfl, Option.some.inj h⟩
  · intro h
    obtain ⟨r, hlast, rfl, rfl⟩ := h
    exact load_last hlast

/-- The same in terms of other keys, which the same rows share. -/
theorem load_iff_last_congr {K' : Type*} {key' : R → K'} {rows : List R}
    (hkey : ∀ r ∈ rows, ∀ r' ∈ rows, key r = key r' ↔ key' r = key' r') {k : K} {v : V} :
    load key val (fun _ => none) rows k = some v ↔ ∃ r, Last key' rows r ∧ key r = k ∧ val r = v := by
  rw [load_iff_last]
  exact exists_congr fun r => by rw [Last.congr hkey]

/-- From distinct keys with distinct values, the map and the map back are inverse. -/
theorem load_inverse [DecidableEq V] {rows : List R} (hk : (rows.map key).Nodup) (hv : (rows.map val).Nodup)
    {k : K} {v : V} : load key val (fun _ => none) rows k = some v ↔ load val key (fun _ => none) rows v = some k := by
  constructor
  · intro h
    rcases load_cases h with hnone | ⟨r, hr, rfl, rfl⟩
    · cases hnone
    · exact load_of_mem hv hr
  · intro h
    rcases load_cases h with hnone | ⟨r, hr, rfl, rfl⟩
    · cases hnone
    · exact load_of_mem hk hr

end Keyed
