/-
Which driver entry point a callback calls. `receive_event_callback` chooses by
`m_driverLevel`, and a Level I device thread overwrites that field, after its
callbacks are live, with what the driver's `CanalGetLevel` reports. A report of
1 keeps every callback on the CANAL send functions (`served_of_level`), and no other
does (`served_iff`): 2 sends it through `m_proc_VSCPWrite`, which is NULL for a Level I
driver.
-/
import MqttVscpd.DeviceSafety

namespace MqttVscpd

open Transition

/-- The part of an item the dispatch reads and only the device thread writes. -/
structure Entries where
  level : UInt8
  proc : Proc → Nat

def CDeviceItem.entries (it : CDeviceItem) : Entries := ⟨it.driverLevel, it.proc⟩

def Act.entries : Act → Entries → Entries
  | .dlsym p a, e => { e with proc := Function.update e.proc p a }
  | .getLevel level, e => { e with level := UInt8.ofNat level }
  | _, e => e

theorem exec_entries (a : Act) (d : Device) : (a.exec d).item.entries = a.entries d.item.entries := by
  cases a with
  | dlopen ok => cases ok <;> rfl
  | _ => rfl

/-- All along the actions, `Q` holds of the entries once `connect()` has succeeded. -/
def Keeps (Q : Entries → Prop) : Bool → Entries → List Act → Prop
  | c, e, [] => c = true → Q e
  | c, e, a :: acts => (c = true → Q e) ∧ Keeps Q (c || a.connects) (a.entries e) acts

section keeps

variable {Q : Entries → Prop}

theorem Keeps.now {c : Bool} {e : Entries} {acts : List Act} (h : Keeps Q c e acts) (hc : c = true) : Q e := by
  cases acts with
  | nil => exact h hc
  | cons a acts => exact h.1 hc

/-- Actions that do not connect keep anything. -/
theorem keeps_unconnected {e : Entries} {acts : List Act} (h : ∀ a ∈ acts, a.connects = false) :
    Keeps Q false e acts := by
  induction acts generalizing e with
  | nil => simp [Keeps]
  | cons a acts ih =>
    simp only [List.forall_mem_cons] at h
    simp only [Keeps, h.1, Bool.or_self, Bool.false_eq_true, false_implies, true_and]
    exact ih h.2

/-- Actions that write no entries keep what holds of them. -/
theorem keeps_same {c : Bool} {e : Entries} {acts : List Act} (he : ∀ a ∈ acts, a.entries e = e) (hQ : Q e) :
    Keeps Q c e acts := by
  induction acts generalizing c with
  | nil => exact fun _ => hQ
  | cons a acts ih =>
    simp only [List.forall_mem_cons] at he
    refine ⟨fun _ => hQ, ?_⟩
    rw [he.1]
    exact ih he.2

theorem entries_workLoopActs {l : Loop} {ticks : List Tick} {e : Entries} :
    ∀ a ∈ workLoopActs l ticks, a.entries e = e := by
  intro a ha
  simp only [workLoopActs, List.mem_append, List.mem_flatMap, List.mem_cons,
    List.not_mem_nil, or_false] at ha
  rcases ha with ⟨t, -, rfl | rfl⟩ | rfl <;> rfl

theorem entries_shutdownActs {e : Entries} : ∀ a ∈ shutdownActs, a.entries e = e := by
  simp [shutdownActs, Act.entries]

end keeps

/-- What lookups go on from: the symbols looked up have the addresses found. -/
theorem lookupAll_induction {P : Entries → List Act → Prop} {o : Outcomes} {missing : Lookup → Bool} {bail k : List Act}
    (hsym : ∀ e p x acts, P (Act.entries (.dlsym p x) e) acts → P e (.dlsym p x :: acts)) (hbail : ∀ e, P e bail)
    {level : UInt8} :
    ∀ {ps : List Proc} (done : List Proc) {e : Entries}, e.level = level →
      (∀ q ∈ done, e.proc q = (o.dlsym q).addr) →
      ((∀ q ∈ ps, missing (o.dlsym q) = false) → ∀ e' : Entries, e'.level = level →
        (∀ q ∈ done ++ ps, e'.proc q = (o.dlsym q).addr) → P e' k) →
      P e (lookupAll o missing bail ps k)
  | [], done, e, hl, hd, hk => hk (by simp) e hl (by simpa using hd)
  | p :: ps, done, e, hl, hd, hk => by
    simp only [lookupAll]
    refine hsym _ _ _ _ ?_
    split
    · exact hbail _
    · next hp =>
      refine lookupAll_induction hsym hbail (done ++ [p]) hl (fun q hq => ?_) fun hfound e' hl' he' => ?_
      · simp only [Act.entries]
        by_cases hqp : q = p
        · subst hqp; simp
        · rw [Function.update_of_ne hqp]
          simp only [List.mem_append, List.mem_singleton, hqp, or_false] at hq
          exact hd q hq
      · refine hk ?_ e' hl' (by simpa using he')
        simpa only [List.forall_mem_cons] using ⟨by simpa using hp, hfound⟩

theorem keeps_dlsym {Q : Entries → Prop} (e : Entries) (p : Proc) (x : Nat) (acts : List Act)
    (h : Keeps Q false (Act.entries (.dlsym p x) e) acts) : Keeps Q false e (.dlsym p x :: acts) :=
  ⟨fun hc => Bool.noConfusion hc, h⟩

/-! ## What the entries are while callbacks run -/

/-- A Level I driver reports level 1, and exports one of the send functions at
an address other than 0 (a missing `CanalSend` ends the thread before it connects). -/
def ReportsLevel1 (o : Outcomes) : Prop :=
  o.getLevel % 256 = 1 ∧ (o.dlsym .canalSend ≠ .found 0 ∨ (o.dlsym .canalBlockingSend).addr ≠ 0)

/-- A Level I thread comes to ask the driver for its level, and its callbacks are live. -/
structure AsksLevel (o : Outcomes) : Prop where
  loads : o.dlopen = true
  required : ∀ p ∈ Proc.canalOpen :: level1Required, (o.dlsym p).isError = false
  opens : 0 < o.canalOpen
  connects : o.connect = true

/-- An event that converts to CANAL finds a send function. -/
def SendsCanal (lib : Vscphelper) (o : Outcomes) : Prop :=
  (∃ ev, lib.convertEventToCanal ev ≠ none) →
    (o.dlsym .canalSend).addr ≠ 0 ∨ (o.dlsym .canalBlockingSend).addr ≠ 0

/-- The level is the configured one and the entry points it leads to were found. -/
def Dispatches (lib : Vscphelper) (it : CDeviceItem) (o : Outcomes) (e : Entries) : Prop :=
  e.level = it.driverLevel ∧
    (it.driverLevel = VSCP_DRIVER_LEVEL1 ∧
      e.proc .canalSend = (o.dlsym .canalSend).addr ∧
      e.proc .canalBlockingSend = (o.dlsym .canalBlockingSend).addr ∧ SendsCanal lib o ∨
    it.driverLevel = VSCP_DRIVER_LEVEL2 ∧
      e.proc .vscpWrite = (o.dlsym .vscpWrite).addr ∧ (o.dlsym .vscpWrite).addr ≠ 0)

variable {lib : Vscphelper} {it : CDeviceItem} {o : Outcomes}

theorem keeps_level1Serve (h1 : it.driverLevel = VSCP_DRIVER_LEVEL1) {e : Entries}
    (hr : o.connect = true → o.getLevel % 256 = 1 ∧ Dispatches lib it o e) :
    Keeps (Dispatches lib it o) false e (level1Serve o) := by
  simp only [level1Serve, Keeps, Bool.false_eq_true, false_implies, true_and]
  cases hc : o.connect with
  | false => exact keeps_unconnected (by simp [Act.connects])
  | true =>
    obtain ⟨hl, hQ⟩ := hr hc
    -- The level reported is the level the item has.
    have he : Act.entries (.getLevel o.getLevel) e = e := by
      have : UInt8.ofNat o.getLevel = e.level := by
        rw [hQ.1, h1]
        exact UInt8.toNat_inj.mp (by simpa [VSCP_DRIVER_LEVEL1] using hl)
      simp only [Act.entries, this]
    refine keeps_same (fun a ha => ?_) hQ
    simp only [Bool.not_true, Bool.false_eq_true, if_false, List.mem_cons] at ha
    rcases ha with rfl | ha
    · exact he
    split at ha <;> simp only [List.mem_append, List.mem_singleton] at ha
    · rcases ha with (ha | rfl) | ha
      · exact entries_workLoopActs a ha
      · rfl
      · exact entries_shutdownActs a ha
    · rcases ha with ha | ha
      · exact entries_workLoopActs a ha
      · exact entries_shutdownActs a ha

theorem keeps_level2Serve {e : Entries} (hQ : Dispatches lib it o e) :
    Keeps (Dispatches lib it o) false e (level2Serve o) := by
  simp only [level2Serve, Keeps, Bool.false_eq_true, false_implies, true_and]
  cases hc : o.connect with
  | false => exact keeps_unconnected (by simp [Act.connects])
  | true =>
    refine keeps_same (fun a ha => ?_) hQ
    simp only [Bool.not_true, Bool.false_eq_true, if_false, List.mem_append] at ha
    rcases ha with ha | ha
    · exact entries_workLoopActs a ha
    · exact entries_shutdownActs a ha

theorem isError_eq_false {l : Lookup} (h : l.isError = false) (h0 : l ≠ .found 0) : l.addr ≠ 0 := by
  cases l with
  | error => simp [Lookup.isError] at h
  | found a => simpa [Lookup.addr] using h0

theorem keeps_level1 (h1 : it.driverLevel = VSCP_DRIVER_LEVEL1) (hload : o.dlopen = true)
    (hr : AsksLevel o → o.getLevel % 256 = 1 ∧ SendsCanal lib o) {e : Entries} (hl : e.level = it.driverLevel) :
    Keeps (Dispatches lib it o) false e (level1 o) := by
  refine lookupAll_induction keeps_dlsym (fun _ => keeps_unconnected (by simp)) [] hl (by simp) fun hopen e₁ hl₁ he₁ => ?_
  refine lookupAll_induction keeps_dlsym (fun _ => keeps_unconnected (by simp [Act.connects])) _ hl₁ he₁
    fun hreq e₂ hl₂ he₂ => ?_
  refine lookupAll_induction keeps_dlsym (fun _ => keeps_unconnected (by simp)) _ hl₂ he₂ fun _ e₃ hl₃ he₃ => ?_
  simp only [level1Open, Keeps, Bool.false_eq_true, false_implies, true_and]
  split
  · exact keeps_unconnected (by simp [Act.connects])
  · refine keeps_level1Serve h1 fun hc => ?_
    obtain ⟨hlevel, hsends⟩ := hr ⟨hload, by simpa using ⟨by simpa using hopen, hreq⟩, by omega, hc⟩
    exact ⟨hlevel, hl₃, .inl ⟨h1, he₃ _ (by simp [level1Required]), he₃ _ (by simp [level1Optional]), hsends⟩⟩

theorem keeps_level2 (h2 : it.driverLevel = VSCP_DRIVER_LEVEL2) {e : Entries} (hl : e.level = it.driverLevel) :
    Keeps (Dispatches lib it o) false e (level2 o) := by
  refine lookupAll_induction keeps_dlsym (fun _ => keeps_unconnected (by simp)) [] hl (by simp) fun hreq e₁ hl₁ he₁ => ?_
  have hQ : Dispatches lib it o e₁ :=
    ⟨hl₁, .inr ⟨h2, he₁ _ (by simp [level2Required]), by simpa using hreq .vscpWrite (by simp [level2Required])⟩⟩
  simp only [level2Open, Keeps, Bool.false_eq_true, false_implies, true_and]
  split
  · exact keeps_unconnected (by simp [Act.connects])
  · exact keeps_level2Serve hQ

theorem keeps_deviceThread
    (hr : it.driverLevel = VSCP_DRIVER_LEVEL1 → AsksLevel o → o.getLevel % 256 = 1 ∧ SendsCanal lib o) :
    Keeps (Dispatches lib it o) false it.entries (deviceThread it o) := by
  simp only [deviceThread, Keeps, Bool.false_eq_true, false_implies, true_and]
  split
  · exact keeps_unconnected (by simp)
  next hload =>
  split
  · next h1 => exact keeps_level1 h1 (by simpa using hload) (hr h1) rfl
  split
  · next h2 => exact keeps_level2 h2 rfl
  · exact keeps_unconnected (by simp)

/-! ## What the callbacks call -/

/-- The callback is on the way its item's configured level leads. -/
def OnPath (lib : Vscphelper) (it : CDeviceItem) (o : Outcomes) : CallbackPc → Prop
  | .convert _ => it.driverLevel = VSCP_DRIVER_LEVEL1
  | .selectSend => it.driverLevel = VSCP_DRIVER_LEVEL1 ∧ ∃ ev, lib.convertEventToCanal ev ≠ none
  | .testLevel2 _ => it.driverLevel = VSCP_DRIVER_LEVEL2
  | .inCall p addr _ => addr ≠ 0 ∧ addr = (o.dlsym p).addr ∧
    (it.driverLevel = VSCP_DRIVER_LEVEL1 → p = .canalSend ∨ p = .canalBlockingSend)
  | .invalidLevel => False
  | _ => True

theorem receiveEventCallback_onPath {it' : CDeviceItem} {pc : CallbackPc} (hQ : Dispatches lib it o it'.entries)
    (hp : OnPath lib it o pc) : OnPath lib it o (receiveEventCallback lib it' pc) := by
  have hlevel : it'.driverLevel = it.driverLevel := hQ.1
  cases pc with
  | idle | entered | unlocking | inCall | invalidLevel => simp [receiveEventCallback, OnPath]
  | testQuit | testHandle =>
    simp only [receiveEventCallback]
    split <;> simp [OnPath]
  | testLevel1 ev =>
    simp only [receiveEventCallback, hlevel]
    split
    · next h1 => exact h1
    · next h1 => exact hQ.2.elim (fun h => absurd h.1 h1) (·.1)
  | convert ev =>
    simp only [receiveEventCallback]
    split
    · trivial
    · next msg hmsg => exact ⟨hp, ev, by simp [hmsg]⟩
  | selectSend =>
    obtain ⟨h1, hev⟩ := hp
    have h2 : ¬ it.driverLevel = VSCP_DRIVER_LEVEL2 := by rw [h1]; decide
    obtain ⟨-, hs, hb, hsends⟩ := hQ.2.resolve_right fun h => h2 h.1
    simp only [CDeviceItem.entries] at hs hb
    simp only [receiveEventCallback]
    split
    · next hne => exact ⟨hne, hb, fun _ => .inr rfl⟩
    · next hz =>
      have hsend : (o.dlsym .canalSend).addr ≠ 0 :=
        (hsends hev).resolve_right fun hne => hz (by rw [hb]; exact hne)
      exact ⟨by rw [hs]; exact hsend, hs, fun _ => .inl rfl⟩
  | testLevel2 ev =>
    have h2 : it.driverLevel = VSCP_DRIVER_LEVEL2 := hp
    have h1 : ¬ it.driverLevel = VSCP_DRIVER_LEVEL1 := by rw [h2]; decide
    obtain ⟨-, hw, hne⟩ := hQ.2.resolve_left fun h => h1 h.1
    simp only [CDeviceItem.entries] at hw
    simp only [receiveEventCallback, hlevel, h2, if_true]
    exact ⟨by rw [hw]; exact hne, hw, fun h => absurd h h1⟩

section system

variable {ι : Type} [DecidableEq ι]

/-- Every callback is on its way, and stays so for the rest of `deviceThread`. -/
structure DispatchInv (lib : Vscphelper) (it : CDeviceItem) (o : Outcomes) (s : State ι) : Prop where
  keeps : Keeps (Dispatches lib it o) s.connected s.device.item.entries s.todo
  path : ∀ i, OnPath lib it o (s.cb i)

theorem onPath_update {s : State ι} {i : ι} {pc : CallbackPc} (h : ∀ j, OnPath lib it o (s.cb j))
    (hp : OnPath lib it o pc) : ∀ j, OnPath lib it o (Function.update s.cb i pc j) := by
  intro j
  by_cases e : j = i
  · subst e; simpa using hp
  · simpa [Function.update_of_ne e] using h j

theorem dispatchInv_step {s s' : State ι} {m : Move ι} (hi : Inv s ∧ DispatchInv lib it o s)
    (h : step lib s m = some s') : Inv s' ∧ DispatchInv lib it o s' := by
  refine ⟨inv_step hi.1 h, ?_⟩
  obtain ⟨⟨g, hg⟩, hd⟩ := hi
  cases m with
  | thread =>
    obtain ⟨a, todo, htodo, -, rfl⟩ := threadStep_cases h
    have hk := hd.keeps
    rw [htodo] at hk
    exact ⟨by simpa only [exec_entries] using hk.2, hd.path⟩
  | stopDriver =>
    cases h
    refine ⟨?_, hd.path⟩
    have he : (requestQuit s.device.item).entries = s.device.item.entries := by
      unfold requestQuit; split <;> rfl
    simpa only [State.modify, he] using hd.keeps
  | pauseDriver | resumeDriver => cases h; exact ⟨hd.keeps, hd.path⟩
  | event i ev =>
    simp only [step] at h
    split at h
    · cases h; exact ⟨hd.keeps, onPath_update hd.path trivial⟩
    · cases h
  | callback i =>
    simp only [step] at h
    split at h
    · cases h
    · split at h
      · cases h; exact ⟨hd.keeps, onPath_update hd.path trivial⟩
      · cases h
    · cases h; exact ⟨hd.keeps, onPath_update hd.path trivial⟩
    · next hidle _ _ =>
      cases h
      have hQ := hd.keeps.now (hg.connected hidle)
      exact ⟨hd.keeps, onPath_update hd.path (receiveEventCallback_onPath hQ (hd.path i))⟩

/-- No callback calls an entry point `deviceThread` did not find, and an item
configured as Level I is served by its CANAL send functions. -/
def Served (it : CDeviceItem) (o : Outcomes) (s : State ι) : Prop :=
  ∀ i, (∀ p addr h, s.cb i = .inCall p addr h → addr ≠ 0 ∧ o.dlsym p = .found addr) ∧
    (it.driverLevel = VSCP_DRIVER_LEVEL1 → s.cb i ≠ .invalidLevel ∧
      ∀ p addr h, s.cb i = .inCall p addr h → p = .canalSend ∨ p = .canalBlockingSend)

theorem served_of_asked
    (hr : it.driverLevel = VSCP_DRIVER_LEVEL1 → AsksLevel o → o.getLevel % 256 = 1 ∧ SendsCanal lib o)
    {s : State ι} (h : Reached lib it o s) : Served it o s := by
  have hi : Inv s ∧ DispatchInv lib it o s := by
    refine Reachable.inv (fun s₀ h₀ => ?_) (fun _ _ _ => dispatchInv_step) h
    subst h₀
    exact ⟨inv_start it o, keeps_deviceThread hr, fun _ => trivial⟩
  intro i
  have hp := hi.2.path i
  refine ⟨fun p addr hd hc => ?_, fun h1 => ⟨fun hc => ?_, fun p addr hd hc => ?_⟩⟩
  · rw [hc] at hp
    obtain ⟨hne, ha, -⟩ := hp
    refine ⟨hne, ?_⟩
    cases hl : o.dlsym p with
    | error => exact absurd (by rw [ha, hl]; rfl) hne
    | found a => rw [ha, hl]; rfl
  · rw [hc] at hp
    exact hp
  · rw [hc] at hp
    exact hp.2.2 h1

/-- **Incoming events reach entry points that exist**, in every reachable state
of a device, when a Level I driver reports level 1. -/
theorem served_of_level {lib : Vscphelper} (hr : it.driverLevel = VSCP_DRIVER_LEVEL1 → ReportsLevel1 o)
    {s : State ι} (h : Reached lib it o s) : Served it o s := by
  refine served_of_asked (fun h1 hasks => ?_) h
  obtain ⟨hlevel, hsend⟩ := hr h1
  exact ⟨hlevel, fun _ => hsend.imp_left (isError_eq_false (hasks.required _ (by simp [level1Required])))⟩

/-! ### Where they do not -/

/-- What a Level I thread does until it has asked for the level. -/
def untilLevel (o : Outcomes) : List Act :=
  .dlopen true :: ((Proc.canalOpen :: level1Required ++ level1Optional).map fun p => .dlsym p (o.dlsym p).addr) ++
    [.canalOpen o.canalOpen, .connect true, .getLevel o.getLevel]

theorem lookupAll_found {missing : Lookup → Bool} {bail k : List Act} {ps : List Proc}
    (h : ∀ p ∈ ps, missing (o.dlsym p) = false) :
    lookupAll o missing bail ps k = ps.map (fun p => .dlsym p (o.dlsym p).addr) ++ k := by
  induction ps with
  | nil => rfl
  | cons p ps ih =>
    simp only [List.forall_mem_cons] at h
    rw [lookupAll, h.1, ih h.2]
    rfl

theorem deviceThread_of_asks (h1 : it.driverLevel = VSCP_DRIVER_LEVEL1) (h : AsksLevel o) :
    ∃ rest, deviceThread it o = untilLevel o ++ rest := by
  have hopen : ∀ p ∈ [Proc.canalOpen], (o.dlsym p).isError = false :=
    fun p hp => h.required p (List.mem_cons.mpr (.inl (List.mem_singleton.mp hp)))
  have hreq : ∀ p ∈ level1Required, (o.dlsym p).isError = false := fun p hp => h.required p (List.mem_cons_of_mem _ hp)
  have hpos : ¬ o.canalOpen ≤ 0 := Int.not_le.mpr h.opens
  rw [deviceThread, level1, lookupAll_found hopen, lookupAll_found hreq, lookupAll_found fun _ _ => rfl]
  simp [h.loads, h.connects, h1, level1Open, level1Serve, hpos, untilLevel]

/-- The action waits for nothing and leaves the mutex alone. -/
def Act.free : Act → Bool
  | .testQuit _ | .lock | .unlock => false
  | _ => true

omit [DecidableEq ι] in
theorem threadStep_free {s : State ι} {a : Act} {todo : List Act} (ht : s.todo = a :: todo) (ha : a.free = true) :
    threadStep s = some { s with
      device := a.exec s.device, todo := todo, connected := s.connected || a.connects } := by
  unfold threadStep
  rw [ht]
  cases a <;> first | (cases ha; done) | simp [Act.connects]

theorem run_threads {s : State ι} {acts rest : List Act} (ht : s.todo = acts ++ rest)
    (ha : ∀ a ∈ acts, a.free = true) :
    run (step lib) s (List.replicate acts.length .thread) = some { s with
      device := execAll s.device acts, todo := rest, connected := s.connected || acts.any Act.connects } := by
  induction acts generalizing s with
  | nil =>
    have ht : s.todo = rest := ht
    subst ht
    simp [execAll]
  | cons a acts ih =>
    simp only [List.forall_mem_cons] at ha
    refine run_cons_iff.mpr ⟨_, threadStep_free ht ha.1, ?_⟩
    rw [ih rfl ha.2]
    simp [execAll, Bool.or_assoc]

theorem execAll_lookups (ps : List Proc) (d : Device) :
    execAll d (ps.map fun p => .dlsym p (o.dlsym p).addr) = { d with item := { d.item with
      proc := fun p => if p ∈ ps then (o.dlsym p).addr else d.item.proc p } } := by
  induction ps generalizing d with
  | nil => simp [execAll]
  | cons p ps ih =>
    have hcons : execAll d ((p :: ps).map fun p => .dlsym p (o.dlsym p).addr) =
        execAll (Act.exec (.dlsym p (o.dlsym p).addr) d) (ps.map fun p => .dlsym p (o.dlsym p).addr) := rfl
    rw [hcons, ih]
    simp only [Act.exec, CDeviceItem.setProc, Device.mk.injEq, CDeviceItem.mk.injEq, and_true, true_and]
    funext q
    by_cases hq : q = p
    · subst hq
      simp
    · simp [hq]

/-- The item when the thread has asked for the level. -/
def itemAsked (it : CDeviceItem) (o : Outcomes) : CDeviceItem := { it with
  proc := fun p => if p ∈ Proc.canalOpen :: level1Required ++ level1Optional then (o.dlsym p).addr else it.proc p
  openHandle := o.canalOpen
  driverLevel := UInt8.ofNat o.getLevel }

/-- There a callback can be called, with no other about. -/
theorem exists_asked (lib : Vscphelper) (h1 : it.driverLevel = VSCP_DRIVER_LEVEL1) (h : AsksLevel o) :
    ∃ s : State ι, Reached lib it o s ∧ s.device.item = itemAsked it o ∧ s.connected = true ∧ s.mutex = none ∧
      ∀ i, s.cb i = .idle := by
  obtain ⟨rest, hrest⟩ := deviceThread_of_asks h1 h
  have hfree : ∀ a ∈ untilLevel o, a.free = true := by
    intro a ha
    simp only [untilLevel, List.cons_append, List.mem_cons, List.mem_append, List.mem_map, List.not_mem_nil,
      or_false] at ha
    obtain rfl | ⟨p, -, rfl⟩ | rfl | rfl | rfl := ha <;> rfl
  refine ⟨_, ⟨start it o, _, rfl, run_threads hrest hfree⟩, ?_, ?_, rfl, fun _ => rfl⟩
  · have hsplit : execAll { item := it } (untilLevel o) = execAll (execAll (Act.exec (.dlopen true) { item := it })
        ((Proc.canalOpen :: level1Required ++ level1Optional).map fun p => .dlsym p (o.dlsym p).addr))
          [.canalOpen o.canalOpen, .connect true, .getLevel o.getLevel] := by
      rw [untilLevel, execAll, List.foldl_append, List.foldl_cons]
      rfl
    show (execAll { item := it } (untilLevel o)).item = itemAsked it o
    rw [hsplit, execAll_lookups]
    rfl
  · simp [untilLevel, Act.connects]

/-- A callback in the mutex goes on. -/
theorem reached_callback {s : State ι} {i : ι} {pc : CallbackPc} (h : Reached lib it o s) (hpc : s.cb i = pc)
    (hin : pc.inside = true) (hu : pc ≠ .unlocking) :
    ∃ t, Reached lib it o t ∧ t.device = s.device ∧ t.cb i = receiveEventCallback lib s.device.item pc := by
  obtain ⟨s₀, moves, h₀, hr⟩ := h
  let t := { s with cb := Function.update s.cb i (receiveEventCallback lib s.device.item pc) }
  have hstep : step lib s (.callback i) = some t := by
    simp only [step, t]
    subst hpc
    cases hpc : s.cb i <;> simp_all [CallbackPc.inside]
  exact ⟨t, ⟨s₀, moves ++ [.callback i], h₀, run_append_iff.mpr ⟨s, hr, (run_singleton ..).trans hstep⟩⟩, rfl,
    Function.update_self ..⟩

/-- A callback that comes then gets as far as the test of the level. -/
theorem exists_dispatching (lib : Vscphelper) (h1 : it.driverLevel = VSCP_DRIVER_LEVEL1) (hq : it.bQuit = false)
    (h : AsksLevel o) (i : ι) (ev : VscpEvent) :
    ∃ s : State ι, Reached lib it o s ∧ s.device.item = itemAsked it o ∧ s.cb i = .testLevel1 ev := by
  obtain ⟨s, ⟨s₀, moves, h₀, hr⟩, hit, hconn, hm, hidle⟩ := exists_asked (ι := ι) lib h1 h
  have hcalled : ∃ t : State ι, Reached lib it o t ∧ t.device = s.device ∧ t.cb i = .testQuit ev := by
    refine ⟨{ s with mutex := some (some i), cb := Function.update s.cb i (.testQuit ev) },
      ⟨s₀, moves ++ [.event i ev, .callback i], h₀, run_append_iff.mpr ⟨s, hr, ?_⟩⟩, rfl, Function.update_self ..⟩
    simp [run, step, hconn, hm, hidle i]
  obtain ⟨t, ht, hdev, hpc⟩ := hcalled
  obtain ⟨t₁, ht₁, hdev₁, hpc₁⟩ := reached_callback ht hpc rfl (by simp)
  have hquit : t.device.item.bQuit = false := by rw [hdev, hit]; exact hq
  rw [receiveEventCallback, hquit, if_neg Bool.false_ne_true] at hpc₁
  obtain ⟨t₂, ht₂, hdev₂, hpc₂⟩ := reached_callback ht₁ hpc₁ rfl (by simp)
  have hopen : t₁.device.item.openHandle ≠ 0 := by
    rw [hdev₁, hdev, hit]
    exact h.opens.ne'
  rw [receiveEventCallback, if_neg hopen] at hpc₂
  exact ⟨t₂, ht₂, by rw [hdev₂, hdev₁, hdev, hit], hpc₂⟩

/-- A report of another level leads callbacks away from the send functions, and without one
they call through a pointer that is NULL. -/
theorem not_served_of_asked (h1 : it.driverLevel = VSCP_DRIVER_LEVEL1) (hq : it.bQuit = false) (h : AsksLevel o)
    (hbad : ¬ (o.getLevel % 256 = 1 ∧ SendsCanal lib o)) (i : ι) :
    ∃ s : State ι, Reached lib it o s ∧ ¬ Served it o s := by
  have hreports : (itemAsked it o).driverLevel = VSCP_DRIVER_LEVEL1 ↔ o.getLevel % 256 = 1 := by
    simp [itemAsked, VSCP_DRIVER_LEVEL1, ← UInt8.toNat_inj]
  by_cases hlevel : o.getLevel % 256 = 1
  · have hsends : ¬ SendsCanal lib o := fun hs => hbad ⟨hlevel, hs⟩
    simp only [SendsCanal, Classical.not_imp, not_or, not_not] at hsends
    obtain ⟨⟨ev, hev⟩, hsend, hblocking⟩ := hsends
    obtain ⟨s, hs, hit, hpc⟩ := exists_dispatching lib h1 hq h i ev
    obtain ⟨s₁, hs₁, hdev₁, hpc₁⟩ := reached_callback hs hpc rfl (by simp)
    rw [receiveEventCallback, hit, if_pos (hreports.mpr hlevel)] at hpc₁
    obtain ⟨s₂, hs₂, hdev₂, hpc₂⟩ := reached_callback hs₁ hpc₁ rfl (by simp)
    obtain ⟨msg, hmsg⟩ := Option.ne_none_iff_exists'.mp hev
    simp only [receiveEventCallback, hmsg] at hpc₂
    obtain ⟨s₃, hs₃, -, hpc₃⟩ := reached_callback hs₂ hpc₂ rfl (by simp)
    have hzero : (itemAsked it o).proc .canalBlockingSend = 0 ∧ (itemAsked it o).proc .canalSend = 0 := by
      simp [itemAsked, level1Required, level1Optional, hsend, hblocking]
    rw [receiveEventCallback, hdev₂, hdev₁, hit, if_neg (not_not.mpr hzero.1), hzero.2] at hpc₃
    exact ⟨s₃, hs₃, fun hserved => ((hserved i).1 _ _ _ hpc₃).1 rfl⟩
  · obtain ⟨s, hs, hit, hpc⟩ := exists_dispatching lib h1 hq h i VscpEvent.zero
    obtain ⟨s₁, hs₁, hdev₁, hpc₁⟩ := reached_callback hs hpc rfl (by simp)
    rw [receiveEventCallback, hit, if_neg fun he => hlevel (hreports.mp he)] at hpc₁
    obtain ⟨s₂, hs₂, -, hpc₂⟩ := reached_callback hs₁ hpc₁ rfl (by simp)
    rw [receiveEventCallback] at hpc₂
    refine ⟨s₂, hs₂, fun hserved => ?_⟩
    obtain ⟨hvalid, hsend⟩ := (hserved i).2 h1
    split at hpc₂
    · simpa using hsend _ _ _ hpc₂
    · exact hvalid hpc₂

/-- **Exactly when incoming events reach entry points that exist**: a Level I thread that comes to ask
its driver for the level is answered 1, and events that convert find a send function. -/
theorem served_iff [Inhabited ι] (hq : it.bQuit = false) :
    (∀ s : State ι, Reached lib it o s → Served it o s) ↔
      (it.driverLevel = VSCP_DRIVER_LEVEL1 → AsksLevel o → o.getLevel % 256 = 1 ∧ SendsCanal lib o) := by
  constructor
  · intro hserved h1 hasks
    by_contra hbad
    obtain ⟨s, hs, hnot⟩ := not_served_of_asked (ι := ι) h1 hq hasks hbad default
    exact hnot (hserved s hs)
  · exact fun hr s hs => served_of_asked hr hs

end system

/-- A Level I driver that found all its symbols and reports level 2. -/
def level2Report : Outcomes := { servingOutcomes with getLevel := 2 }

/-- The device thread past `CanalGetLevel`, then a callback as far as its dispatch leads it. -/
def movesPastGetLevel : List (Move Unit) :=
  List.replicate 20 .thread ++ .event () VscpEvent.zero :: List.replicate 5 (.callback ())

/-- The callback is inside a call through `m_proc_VSCPWrite`, which is NULL. -/
theorem not_served_level2Report :
    ∃ s : State Unit, Reached canalIdHelper { driverLevel := VSCP_DRIVER_LEVEL1 } level2Report s ∧
      s.cb () = .inCall .vscpWrite 0 7 ∧ ¬ Served { driverLevel := VSCP_DRIVER_LEVEL1 } level2Report s := by
  have hrun : (run (step canalIdHelper) (start { driverLevel := VSCP_DRIVER_LEVEL1 } level2Report)
      movesPastGetLevel).map (·.cb ()) = some (.inCall .vscpWrite 0 7) := rfl
  obtain ⟨s, hs, hc⟩ := Option.map_eq_some_iff.mp hrun
  refine ⟨s, ⟨_, _, rfl, hs⟩, hc, ?_⟩
  intro h
  exact ((h ()).1 _ _ _ hc).1 rfl

theorem served_of_level_reached :
    ∃ s : State Unit, Reached canalIdHelper { driverLevel := VSCP_DRIVER_LEVEL1 } servingOutcomes s ∧
      s.cb () = .inCall .canalBlockingSend 4096 7 ∧ Served { driverLevel := VSCP_DRIVER_LEVEL1 } servingOutcomes s := by
  have hrun : (run (step canalIdHelper) (start { driverLevel := VSCP_DRIVER_LEVEL1 } servingOutcomes)
      movesToCall).map (·.cb ()) = some (.inCall .canalBlockingSend 4096 7) := rfl
  obtain ⟨s, hs, hc⟩ := Option.map_eq_some_iff.mp hrun
  have hreached : Reached canalIdHelper { driverLevel := VSCP_DRIVER_LEVEL1 } servingOutcomes s :=
    ⟨_, _, rfl, hs⟩
  exact ⟨s, hreached, hc, served_of_level (fun _ => ⟨rfl, .inl (by decide)⟩) hreached⟩

end MqttVscpd
