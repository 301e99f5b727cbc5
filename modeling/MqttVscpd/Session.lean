/-
The life of one driver as the rest of the daemon may rely on it: the library is
loaded, the driver opened, its callbacks let in, shut out again, and only then
the driver closed and the library unloaded. `deviceThread` follows it
(`deviceThread_follows`), whatever its calls answer.
-/
import MqttVscpd.DeviceThread
import MqttVscpd.Lib.Transition

namespace MqttVscpd

open Transition

/-- The stages of a driver's life. -/
inductive Stage where
  | fresh
  | loaded
  | opened
  /-- Open, but the MQTT client has not connected, so no callback will come. -/
  | unconnected
  | serving
  /-- `m_bQuit` is set: no callback passes its guard from here on. -/
  | quitting
  /-- The device thread owns `m_deviceMutex`. -/
  | closing
  | closed
  | cleared
  | released
  | over
  deriving DecidableEq

/-- The stage an action leads to, where it is allowed. -/
def Stage.next : Stage → Act → Option Stage
  | .fresh, .dlopen ok => some (if ok then .loaded else .over)
  | .loaded, .dlsym _ _ => some .loaded
  | .loaded, .canalOpen h => some (if 0 < h then .opened else .loaded)
  | .loaded, .vscpOpen h => some (if h ≠ 0 then .opened else .loaded)
  | .loaded, .dlclose => some .over
  | .opened, .connect ok => some (if ok then .serving else .unconnected)
  | .unconnected, .close => some .unconnected
  | .unconnected, .clearHandle => some .unconnected
  | .unconnected, .dlclose => some .over
  | .serving, .getLevel _ => some .serving
  | .serving, .testQuit _ => some .serving
  | .serving, .pass _ _ => some .serving
  | .serving, .quit => some .quitting
  | .quitting, .quit => some .quitting
  | .quitting, .disconnect => some .quitting
  | .quitting, .lock => some .closing
  | .closing, .close => some .closed
  | .closed, .clearHandle => some .cleared
  | .cleared, .unlock => some .released
  | .released, .dlclose => some .over
  | _, _ => none

/-- From the stage on, every action is allowed where it is taken. -/
def Follows (g : Stage) (acts : List Act) : Prop := ∃ g', run Stage.next g acts = some g'

theorem follows_nil (g : Stage) : Follows g [] := ⟨g, rfl⟩

theorem follows_cons_iff {g : Stage} {a : Act} {acts : List Act} :
    Follows g (a :: acts) ↔ ∃ g', g.next a = some g' ∧ Follows g' acts := by
  simp only [Follows, run_cons_iff]
  constructor
  · intro h
    obtain ⟨g₂, g₁, h₁, h₂⟩ := h
    exact ⟨g₁, h₁, g₂, h₂⟩
  · intro h
    obtain ⟨g₁, h₁, g₂, h₂⟩ := h
    exact ⟨g₂, g₁, h₁, h₂⟩

theorem Follows.cons {g g' : Stage} {a : Act} {acts : List Act} (h : g.next a = some g')
    (ha : Follows g' acts) : Follows g (a :: acts) := follows_cons_iff.mpr ⟨g', h, ha⟩

theorem Follows.append {g g' : Stage} {acts acts' : List Act} (h : run Stage.next g acts = some g')
    (h' : Follows g' acts') : Follows g (acts ++ acts') := by
  obtain ⟨g₂, h₂⟩ := h'
  exact ⟨g₂, run_append_iff.mpr ⟨g', h, h₂⟩⟩

/-! ## `deviceThread` follows the stages -/

theorem follows_lookupAll (o : Outcomes) (missing : Lookup → Bool) {bail k : List Act}
    (hb : Follows .loaded bail) (hk : Follows .loaded k) (ps : List Proc) :
    Follows .loaded (lookupAll o missing bail ps k) := by
  induction ps with
  | nil => exact hk
  | cons p ps ih =>
    refine .cons rfl ?_
    split
    · exact hb
    · exact ih

theorem run_workLoopActs (l : Loop) (ticks : List Tick) :
    run Stage.next .serving (workLoopActs l ticks) = some .serving := by
  induction ticks with
  | nil => rfl
  | cons t ticks ih => exact ih

theorem follows_shutdown {g : Stage} (h : g.next .quit = some .quitting) : Follows g shutdownActs :=
  .cons h ⟨.over, rfl⟩

theorem follows_level1Serve (o : Outcomes) : Follows .opened (level1Serve o) := by
  refine .cons rfl ?_
  cases o.connect with
  | false => exact ⟨.over, rfl⟩
  | true =>
    have hlevel : Stage.next .serving (.getLevel o.getLevel) = some .serving := rfl
    refine .cons hlevel ?_
    split
    · exact .append (run_append_iff.mpr ⟨_, run_workLoopActs _ _, rfl⟩) (follows_shutdown rfl)
    · exact .append (run_workLoopActs _ _) (follows_shutdown rfl)

theorem follows_level2Serve (o : Outcomes) : Follows .opened (level2Serve o) := by
  refine .cons rfl ?_
  cases o.connect with
  | false => exact ⟨.over, rfl⟩
  | true => exact .append (run_workLoopActs _ _) (follows_shutdown rfl)

theorem follows_level1Open (o : Outcomes) : Follows .loaded (level1Open o) := by
  refine .cons rfl ?_
  by_cases h : 0 < o.canalOpen
  · have hle : ¬ o.canalOpen ≤ 0 := by omega
    rw [if_pos h, if_neg hle]
    exact follows_level1Serve o
  · have hle : o.canalOpen ≤ 0 := by omega
    rw [if_neg h, if_pos hle]
    exact ⟨.over, rfl⟩

theorem follows_level2Open (o : Outcomes) : Follows .loaded (level2Open o) := by
  refine .cons rfl ?_
  by_cases h : o.vscpOpen = 0
  · rw [if_neg (not_not.mpr h), if_pos h]
    exact ⟨.over, rfl⟩
  · rw [if_pos h, if_neg h]
    exact follows_level2Serve o

theorem deviceThread_follows (it : CDeviceItem) (o : Outcomes) : Follows .fresh (deviceThread it o) := by
  refine .cons rfl ?_
  cases o.dlopen with
  | false => exact follows_nil _
  | true =>
    have hbail : Follows .loaded [.dlclose] := ⟨.over, rfl⟩
    simp only [Bool.not_true, Bool.false_eq_true, if_false, if_true]
    split
    · exact follows_lookupAll o _ (follows_nil _) (follows_lookupAll o _ hbail
        (follows_lookupAll o _ (follows_nil _) (follows_level1Open o) _) _) _
    split
    · exact follows_lookupAll o _ (follows_nil _) (follows_level2Open o) _
    · exact follows_nil _

/-! ## What comes after an action -/

/-- `P` holds of each action and the actions after it. -/
def ForRests (P : Act → List Act → Prop) : List Act → Prop
  | [] => True
  | a :: rest => P a rest ∧ ForRests P rest

section
variable {P : Act → List Act → Prop} (hplain : ∀ a rest, a ≠ .connect false → a ≠ .lock → P a rest)
include hplain

theorem forRests_append (acts : List Act) {rest : List Act} (ha : ∀ a ∈ acts, a ≠ .connect false ∧ a ≠ .lock)
    (hr : ForRests P rest) : ForRests P (acts ++ rest) := by
  induction acts with
  | nil => exact hr
  | cons a acts ih =>
    obtain ⟨ha, hacts⟩ := List.forall_mem_cons.mp ha
    exact ⟨hplain a _ ha.1 ha.2, ih hacts⟩

theorem forRests_lookupAll {o : Outcomes} {missing : Lookup → Bool} {bail k : List Act} (hb : ForRests P bail)
    (hk : ForRests P k) (ps : List Proc) : ForRests P (lookupAll o missing bail ps k) := by
  induction ps with
  | nil => exact hk
  | cons p ps ih =>
    refine ⟨hplain _ _ (by simp) (by simp), ?_⟩
    split
    · exact hb
    · exact ih

/-- Only a `connect()` that fails and the lock are followed by anything particular. -/
theorem forRests_deviceThread (hunload : P (.connect false) [.dlclose])
    (hclose : P (.connect false) [.close, .clearHandle, .dlclose])
    (hlock : P .lock [.close, .clearHandle, .unlock, .dlclose]) (it : CDeviceItem) (o : Outcomes) :
    ForRests P (deviceThread it o) := by
  have hnone : ForRests P [] := trivial
  have hone : ForRests P [.dlclose] := ⟨hplain _ _ (by simp) (by simp), trivial⟩
  have hshut : ForRests P shutdownActs :=
    forRests_append hplain [.quit, .disconnect] (by simp)
      ⟨hlock, forRests_append hplain [.close, .clearHandle, .unlock] (by simp) hone⟩
  have hloop : ∀ (l : Loop) (rest : List Act), ForRests P rest → ForRests P (workLoopActs l o.ticks ++ rest) := by
    refine fun l rest hr => forRests_append hplain _ (fun a ha => ?_) hr
    simp only [workLoopActs, List.mem_append, List.mem_flatMap, List.mem_cons, List.not_mem_nil, or_false] at ha
    rcases ha with ⟨t, -, rfl | rfl⟩ | rfl <;> simp
  have hserve1 : ForRests P (level1Serve o) := by
    unfold level1Serve
    cases o.connect with
    | false => exact ⟨hunload, hone⟩
    | true =>
      refine ⟨hplain _ _ (by simp) (by simp), hplain _ _ (by simp) (by simp), ?_⟩
      split
      · rw [List.append_assoc]
        exact hloop _ _ ⟨hplain _ _ (by simp) (by simp), hshut⟩
      · exact hloop _ _ hshut
  have hserve2 : ForRests P (level2Serve o) := by
    unfold level2Serve
    cases o.connect with
    | false => exact ⟨hclose, forRests_append hplain [.close, .clearHandle] (by simp) hone⟩
    | true => exact ⟨hplain _ _ (by simp) (by simp), hloop _ _ hshut⟩
  have hlevel1 : ForRests P (level1Open o) := by
    refine ⟨hplain _ _ (by simp) (by simp), ?_⟩
    split
    · exact hone
    · exact hserve1
  have hlevel2 : ForRests P (level2Open o) := by
    refine ⟨hplain _ _ (by simp) (by simp), ?_⟩
    split
    · exact hone
    · exact hserve2
  refine ⟨hplain _ _ (by simp) (by simp), ?_⟩
  split
  · trivial
  split
  · exact forRests_lookupAll hplain hnone (forRests_lookupAll hplain hone
      (forRests_lookupAll hplain hnone hlevel1 _) _) _
  split
  · exact forRests_lookupAll hplain hnone hlevel2 _
  · trivial

end

end MqttVscpd
