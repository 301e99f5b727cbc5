/-
What `deviceThread` has released when it returns: every library it loaded,
every driver it opened, and the handle the callback guard reads. It does so on
some exits only; `released_iff` says on which.
-/
import MqttVscpd.DeviceThread

namespace MqttVscpd

/-- Every close is of a handle open at the time, with the library still loaded. -/
def ClosesInOrder : List Call → Prop
  | [] => True
  | .close h :: calls => Loaded calls ∧ IsOpen h calls ∧ ClosesInOrder calls
  | _ :: calls => ClosesInOrder calls

/-- Every load is matched by one unload, every open by one close of the same
handle before the unload, and a driver that was open leaves `m_openHandle` 0. -/
structure Released (d : Device) : Prop where
  library : d.calls.count .dlclose = d.calls.count .dlopen
  driver : ∀ h, d.calls.count (.close h) = d.calls.count (.opened h)
  order : ClosesInOrder d.calls
  handle : (∃ h, Call.opened h ∈ d.calls) → d.item.openHandle = 0

/-- The item and the calls made for it when `deviceThread` has returned. -/
def returned (it : CDeviceItem) (o : Outcomes) : Device := execAll { item := it } (deviceThread it o)

/-- The outcomes that lead to an exit that releases everything: the load fails;
or a Level I item finds `CanalOpen` and does not fail to connect with its
driver open; or a Level II item finds all its symbols. -/
def ReleasingExit (it : CDeviceItem) (o : Outcomes) : Prop :=
  o.dlopen = false ∨
  it.driverLevel = VSCP_DRIVER_LEVEL1 ∧ o.dlsym .canalOpen ≠ .error ∧
    ((∀ p ∈ level1Required, o.dlsym p ≠ .error) → 0 < o.canalOpen → o.connect = true) ∨
  it.driverLevel = VSCP_DRIVER_LEVEL2 ∧ ∀ p ∈ level2Required, (o.dlsym p).addr ≠ 0

/-! ## Running parts of the thread -/

theorem execAll_cons (d : Device) (a : Act) (acts : List Act) :
    execAll d (a :: acts) = execAll (a.exec d) acts := rfl

@[simp] theorem execAll_nil (d : Device) : execAll d [] = d := rfl

theorem execAll_append (d : Device) (acts acts' : List Act) :
    execAll d (acts ++ acts') = execAll (execAll d acts) acts' := List.foldl_append

/-- The part of a device the releases are about. -/
def Device.held (d : Device) : List Call × Int := (d.calls, d.item.openHandle)

/-- What an action does to the part releases are about depends on that part alone. -/
theorem exec_held (a : Act) {d d' : Device} (h : d.held = d'.held) : (a.exec d).held = (a.exec d').held := by
  simp only [Device.held, Prod.mk.injEq] at h
  obtain ⟨hc, hh⟩ := h
  cases a with
  | dlopen ok => cases ok <;> simp [Act.exec, Device.held, hc, hh]
  | close | canalOpen | vscpOpen => simp [Act.exec, Device.held, hc, hh]
  | _ => simp [Act.exec, Device.held, CDeviceItem.setProc, hc, hh]

theorem execAll_held {acts : List Act} {d d' : Device} (h : d.held = d'.held) :
    (execAll d acts).held = (execAll d' acts).held := by
  induction acts generalizing d d' with
  | nil => exact h
  | cons a acts ih => exact ih (exec_held a h)

/-- Lookups hold nothing: the thread goes on with `k` or with `bail`. -/
theorem execAll_lookupAll (o : Outcomes) (missing : Lookup → Bool) (bail k : List Act) (ps : List Proc)
    (d : Device) : (execAll d (lookupAll o missing bail ps k)).held =
      (execAll d (if ∀ p ∈ ps, missing (o.dlsym p) = false then k else bail)).held := by
  induction ps generalizing d with
  | nil => simp [lookupAll]
  | cons p ps ih =>
    have hd : (Act.exec (.dlsym p (o.dlsym p).addr) d).held = d.held := rfl
    simp only [lookupAll, execAll_cons, List.forall_mem_cons]
    cases hp : missing (o.dlsym p) with
    | true => simpa using execAll_held hd
    | false =>
      simp only [Bool.false_eq_true, if_false, true_and, ih]
      exact execAll_held hd

theorem execAll_workLoopActs (l : Loop) (ticks : List Tick) (d : Device) :
    execAll d (workLoopActs l ticks) = d := by
  simp only [workLoopActs, execAll_append]
  induction ticks with
  | nil => rfl
  | cons t ticks ih => exact ih

/-- The end of a thread that served its driver. -/
theorem held_shutdown (d : Device) : (execAll d shutdownActs).held =
    (.dlclose :: .close d.item.openHandle :: d.calls, 0) := rfl

/-! ## The exits -/

variable {d : Device} {calls : List Call} {h : Int}

theorem held_level1Serve (o : Outcomes) (hd : d.held = (calls, h)) : (execAll d (level1Serve o)).held =
    if o.connect then (.dlclose :: .close h :: calls, 0) else (.dlclose :: calls, h) := by
  obtain ⟨rfl, rfl⟩ := Prod.mk.inj hd
  cases hc : o.connect with
  | false => simp only [level1Serve, hc]; rfl
  | true =>
    simp only [level1Serve, hc, execAll_cons, Bool.not_true, Bool.false_eq_true, if_false, if_true,
      execAll_append, held_shutdown]
    split
    · simp only [execAll_append, execAll_workLoopActs]; rfl
    · simp only [execAll_workLoopActs]; rfl

theorem held_level2Serve (o : Outcomes) (hd : d.held = (calls, h)) : (execAll d (level2Serve o)).held =
    (.dlclose :: .close h :: calls, 0) := by
  obtain ⟨rfl, rfl⟩ := Prod.mk.inj hd
  cases hc : o.connect with
  | false => simp only [level2Serve, hc]; rfl
  | true =>
    simp only [level2Serve, hc, execAll_cons, Bool.not_true, Bool.false_eq_true, if_false, execAll_append,
      execAll_workLoopActs, held_shutdown]
    rfl

theorem held_level1 (o : Outcomes) (d : Device) : (execAll d (level1 o)).held =
    if o.dlsym .canalOpen = .error then d.held
    else if ∀ p ∈ level1Required, o.dlsym p ≠ .error then (execAll d (level1Open o)).held
    else (.dlclose :: d.calls, d.item.openHandle) := by
  have hmiss : ∀ p, (o.dlsym p).isError = false ↔ o.dlsym p ≠ .error := by
    intro p
    cases o.dlsym p <;> simp [Lookup.isError]
  simp only [level1, execAll_lookupAll, List.forall_mem_singleton, hmiss]
  by_cases hopen : o.dlsym .canalOpen = .error
  · simp [hopen]
  · simp only [hopen, ne_eq, not_false_iff, if_true, if_false, execAll_lookupAll, hmiss]
    split
    · simp [execAll_lookupAll]
    · rfl

theorem held_level2 (o : Outcomes) (d : Device) : (execAll d (level2 o)).held =
    if ∀ p ∈ level2Required, (o.dlsym p).addr ≠ 0 then (execAll d (level2Open o)).held else d.held := by
  simp only [level2, execAll_lookupAll, decide_eq_false_iff_not]
  split <;> rfl

/-! ## Which exits release -/

theorem released_unloaded (hc : d.held = ([], h)) : Released d := by
  have hc : d.calls = [] := congrArg Prod.fst hc
  exact ⟨by simp [hc], by simp [hc], by simp [hc, ClosesInOrder], by simp [hc]⟩

theorem released_unopened (hc : d.held = ([.dlclose, .dlopen], h)) : Released d := by
  have hc : d.calls = [.dlclose, .dlopen] := congrArg Prod.fst hc
  exact ⟨by simp [hc], by simp [hc], by simp [hc, ClosesInOrder], by simp [hc]⟩

theorem released_served (hc : d.held = ([.dlclose, .close h, .opened h, .dlopen], 0)) : Released d := by
  have hh : d.item.openHandle = 0 := congrArg Prod.snd hc
  have hc : d.calls = [.dlclose, .close h, .opened h, .dlopen] := congrArg Prod.fst hc
  refine ⟨by simp [hc], fun h' => ?_, ?_, fun _ => hh⟩
  · by_cases e : h = h'
    · subst e; simp [hc]
    · simp [hc, e]
  · simp [hc, ClosesInOrder, Loaded, IsOpen]

/-- A library left loaded. -/
theorem not_released_loaded (hc : d.held = ([.dlopen], h)) : ¬ Released d := by
  intro hr
  have hc : d.calls = [.dlopen] := congrArg Prod.fst hc
  have := hr.library
  simp [hc] at this

/-- A driver left open. -/
theorem not_released_opened {k : Int} (hc : d.held = ([.dlclose, .opened h, .dlopen], k)) :
    ¬ Released d := by
  intro hr
  have hc : d.calls = [.dlclose, .opened h, .dlopen] := congrArg Prod.fst hc
  have := hr.driver h
  simp [hc] at this

theorem released_level1Open_iff (o : Outcomes) (hc : d.held = ([.dlopen], h)) :
    Released (execAll d (level1Open o)) ↔ (0 < o.canalOpen → o.connect = true) := by
  have hcalls : d.calls = [.dlopen] := congrArg Prod.fst hc
  by_cases hpos : 0 < o.canalOpen
  · have hne : ¬ o.canalOpen ≤ 0 := by omega
    have hopen : ((Act.canalOpen o.canalOpen).exec d).held = ([.opened o.canalOpen, .dlopen], o.canalOpen) := by
      simp [Act.exec, Device.held, hpos, hcalls]
    have hheld := held_level1Serve o hopen
    simp only [level1Open, hne, if_false, execAll_cons, hpos, forall_const]
    cases hcon : o.connect with
    | true => simpa using released_served (by simpa [hcon] using hheld)
    | false => simpa using not_released_opened (by simpa [hcon] using hheld)
  · have hle : o.canalOpen ≤ 0 := by omega
    simp only [level1Open, hle, if_true, execAll_cons, execAll_nil, hpos, false_implies, iff_true]
    exact released_unopened (h := o.canalOpen) (by simp [Act.exec, Device.held, hpos, hcalls])

theorem released_level2Open (o : Outcomes) (hc : d.held = ([.dlopen], h)) :
    Released (execAll d (level2Open o)) := by
  have hcalls : d.calls = [.dlopen] := congrArg Prod.fst hc
  by_cases hz : o.vscpOpen = 0
  · simp only [level2Open, hz, if_true, execAll_cons, execAll_nil]
    exact released_unopened (h := 0) (by simp [Act.exec, Device.held, hcalls])
  · have hopen : ((Act.vscpOpen o.vscpOpen).exec d).held = ([.opened o.vscpOpen, .dlopen], o.vscpOpen) := by
      simp [Act.exec, Device.held, hz, hcalls]
    simp only [level2Open, hz, if_false, execAll_cons]
    exact released_served (held_level2Serve o hopen)

/-- Releasing is a matter of what is held. -/
theorem released_congr {d' : Device} (hd : d.held = d'.held) : Released d ↔ Released d' := by
  obtain ⟨hc, hh⟩ := Prod.mk.inj hd
  have cast : ∀ {d d' : Device}, d.calls = d'.calls → d.item.openHandle = d'.item.openHandle → Released d →
      Released d' := fun hc hh hr =>
    ⟨hc ▸ hr.library, hc ▸ hr.driver, hc ▸ hr.order, hc ▸ hh ▸ hr.handle⟩
  exact ⟨cast hc hh, cast hc.symm hh.symm⟩

theorem released_level1_iff (o : Outcomes) (hc : d.held = ([.dlopen], h)) :
    Released (execAll d (level1 o)) ↔ o.dlsym .canalOpen ≠ .error ∧
      ((∀ p ∈ level1Required, o.dlsym p ≠ .error) → 0 < o.canalOpen → o.connect = true) := by
  have hheld := held_level1 o d
  by_cases hopen : o.dlsym .canalOpen = .error
  · rw [if_pos hopen] at hheld
    simp only [hopen, ne_eq, not_true, false_and, iff_false]
    exact not_released_loaded (hheld.trans hc)
  rw [if_neg hopen] at hheld
  simp only [ne_eq, hopen, not_false_iff, true_and]
  by_cases hreq : ∀ p ∈ level1Required, o.dlsym p ≠ .error
  · rw [if_pos hreq] at hheld
    rw [released_congr hheld, released_level1Open_iff o hc]
    exact ⟨fun hr _ => hr, fun hr => hr hreq⟩
  · rw [if_neg hreq] at hheld
    rw [(Prod.mk.inj hc).1] at hheld
    exact ⟨fun _ hr => absurd hr hreq, fun _ => released_unopened hheld⟩

theorem released_level2_iff (o : Outcomes) (hc : d.held = ([.dlopen], h)) :
    Released (execAll d (level2 o)) ↔ ∀ p ∈ level2Required, (o.dlsym p).addr ≠ 0 := by
  have hheld := held_level2 o d
  by_cases hreq : ∀ p ∈ level2Required, (o.dlsym p).addr ≠ 0
  · rw [if_pos hreq] at hheld
    rw [released_congr hheld]
    exact iff_of_true (released_level2Open o hc) hreq
  · rw [if_neg hreq] at hheld
    exact iff_of_false (not_released_loaded (hheld.trans hc)) hreq

/-- **Release on exit.** A `deviceThread` that returns has released all it
acquired exactly on a releasing exit. The others: an item of neither level, a
driver without `CanalOpen` or without one of the Level II symbols (library left
loaded), a Level I connect that fails (driver left open, `m_openHandle` stale). -/
theorem released_iff (it : CDeviceItem) (o : Outcomes) : Released (returned it o) ↔ ReleasingExit it o := by
  unfold returned deviceThread ReleasingExit
  cases hl : o.dlopen with
  | false =>
    simp only [Bool.not_false, if_true, true_or, iff_true]
    exact released_unloaded (h := it.openHandle) rfl
  | true =>
    have hc : ((Act.dlopen true).exec { item := it }).held = ([.dlopen], it.openHandle) := rfl
    simp only [execAll_cons, Bool.not_true, Bool.false_eq_true, if_false, Bool.true_eq_false, false_or]
    by_cases h1 : it.driverLevel = VSCP_DRIVER_LEVEL1
    · have h2 : ¬ it.driverLevel = VSCP_DRIVER_LEVEL2 := by rw [h1]; decide
      rw [if_pos h1, released_level1_iff o hc]
      exact ⟨fun hr => .inl ⟨h1, hr⟩, fun hr => hr.elim (·.2) fun hr => absurd hr.1 h2⟩
    rw [if_neg h1]
    by_cases h2 : it.driverLevel = VSCP_DRIVER_LEVEL2
    · rw [if_pos h2, released_level2_iff o hc]
      exact ⟨fun hr => .inr ⟨h2, hr⟩, fun hr => hr.elim (fun hr => absurd hr.1 h1) (·.2)⟩
    · rw [if_neg h2]
      exact iff_of_false (not_released_loaded hc) fun hr => hr.elim (fun hr => h1 hr.1) fun hr => h2 hr.1

/-- A Level I driver whose MQTT client does not connect stays open, and the
item keeps its handle. -/
theorem level1_connect_leaks : ¬ Released (returned { driverLevel := VSCP_DRIVER_LEVEL1 }
    { dlopen := true, dlsym := fun _ => .found 4096, canalOpen := 7, vscpOpen := 0, connect := false,
      getLevel := 1, ticks := [] }) :=
  not_released_opened (h := 7) (k := 7) rfl

end MqttVscpd
