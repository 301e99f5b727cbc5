/-
Facts about the work loops: when the two Level I loops hand `sendEvent` the
same event (`loops_agree_iff`), and what becomes of the messages a run reads
(`workLoop_accounted_iff`).
-/
import MqttVscpd.WorkLoop

namespace MqttVscpd

/-! ## The two Level I loops -/

/-- The fields a subscriber sees: head, class, type, GUID, obid, data. -/
def SameFields (e e' : VscpEvent) : Prop :=
  e.head = e'.head ∧ e.vscpClass = e'.vscpClass ∧ e.vscpType = e'.vscpType ∧ e.guid = e'.guid ∧
    e.obid = e'.obid ∧ e.data = e'.data

/-- Both loops drop the message, or both hand on the same event. -/
def SameOutcome : Option VscpEvent → Option VscpEvent → Prop
  | .none, .none => True
  | .some e, .some e' => SameFields e e'
  | _, _ => False

/-- The CANAL conversion copies bytes 0 to 14 of the interface GUID. -/
def CopiesGuid (conv : VscpEvent → CanalMsg → Guid → Option VscpEvent) : Prop :=
  ∀ ev msg guid ev', conv ev msg guid = some ev' → ∀ i < 15, ev'.guid.byte i = guid.byte i

/-- The helper library with other measurement conversions. -/
def Vscphelper.withMeasurement (lib : Vscphelper) (toDouble toString : VscpEvent → VscpEvent) : Vscphelper :=
  { lib with
    convertLevel1MeasurementToLevel2Double := toDouble
    convertLevel1MeasurementToLevel2String := toString }

/-- The loops agree on a message whatever the translation mask and the
measurement conversions are. -/
def LoopsAgree (lib : Vscphelper) (it : CDeviceItem) (msg : CanalMsg) : Prop :=
  ∀ toDouble toString translation,
    SameOutcome (blockingEvent (lib.withMeasurement toDouble toString) { it with translation } msg)
      (nonBlockingEvent (lib.withMeasurement toDouble toString) { it with translation } msg)

/-- The conversion fails from both loops' initial events, or makes the same
event of them up to `obid`, and then byte 14 of the interface GUID is zero. -/
def ConversionAgrees (lib : Vscphelper) (guid : Guid) (msg : CanalMsg) : Prop :=
  match lib.convertCanalToEvent (blockingInit guid) msg guid,
      lib.convertCanalToEvent (nonBlockingInit lib) msg guid with
  | .none, .none => True
  | .some e, .some e' => { e with obid := 0 } = { e' with obid := 0 } ∧ guid.byte 14 = 0
  | _, _ => False

theorem outgoingTranslations_m2f (lib : Vscphelper) (ev : VscpEvent) :
    outgoingTranslations lib VSCP_DRIVER_OUT_TR_M1_M2F ev = lib.convertLevel1MeasurementToLevel2Double ev := by
  have hf : VSCP_DRIVER_OUT_TR_M1_M2F &&& VSCP_DRIVER_OUT_TR_M1_M2F ≠ 0 := by decide
  have hs : ¬ VSCP_DRIVER_OUT_TR_M1_M2F &&& VSCP_DRIVER_OUT_TR_M1_M2S ≠ 0 := by decide
  have ha : ¬ VSCP_DRIVER_OUT_TR_M1_M2F &&& VSCP_DRIVER_OUT_TR_ALL_L2 ≠ 0 := by decide
  simp only [outgoingTranslations, if_pos hf, if_neg hs, if_neg ha]

/-- Zeroing a byte that is zero. -/
theorem setByte_eq_self {guid : Guid} (h : guid.byte 14 = 0) : guid.setByte 14 0 = guid := by
  rw [← h]
  exact guid.setByte_byte (by omega)

/-- **The two Level I loops agree** on a message, for every translation mask and
all measurement conversions, exactly when the CANAL conversion does not tell
their initial events apart and byte 14 of the interface GUID is zero (or it
refuses the message from both). -/
theorem loops_agree_iff (lib : Vscphelper) (it : CDeviceItem) (msg : CanalMsg)
    (hcopy : CopiesGuid lib.convertCanalToEvent) : LoopsAgree lib it msg ↔ ConversionAgrees lib it.guid msg := by
  have hb : ∀ d s, (lib.withMeasurement d s).convertCanalToEvent = lib.convertCanalToEvent := fun _ _ => rfl
  have hn : ∀ d s, nonBlockingInit (lib.withMeasurement d s) = nonBlockingInit lib := fun _ _ => rfl
  simp only [LoopsAgree, ConversionAgrees, blockingEvent, nonBlockingEvent, hb, hn]
  cases hcb : lib.convertCanalToEvent (blockingInit it.guid) msg it.guid with
  | none =>
    cases hcn : lib.convertCanalToEvent (nonBlockingInit lib) msg it.guid with
    | none => simp [SameOutcome]
    | some e' => exact ⟨fun h => h id id 0, False.elim⟩
  | some e =>
  cases hcn : lib.convertCanalToEvent (nonBlockingInit lib) msg it.guid with
  | none => exact ⟨fun h => h id id 0, False.elim⟩
  | some e' =>
  have he : e.guid.byte 14 = it.guid.byte 14 := hcopy _ _ _ _ hcb 14 (by omega)
  have he' : e'.guid.byte 14 = it.guid.byte 14 := hcopy _ _ _ _ hcn 14 (by omega)
  constructor
  · intro h
    -- A measurement conversion that singles out the blocking loop's event tells any two events apart.
    let b : VscpEvent := { e with obid := 0, guid := e.guid.setByte 14 0 }
    let probe : VscpEvent → VscpEvent := fun ev => { ev with vscpClass := if ev = b then 1 else 0 }
    have hp := (h probe id VSCP_DRIVER_OUT_TR_M1_M2F).2.1
    simp only [outgoingTranslations_m2f, Vscphelper.withMeasurement] at hp
    have heq : { e' with obid := 0 } = b := by
      by_contra hne
      simp [probe, hne, b] at hp
    have hg : it.guid.byte 14 = 0 := by
      have hguid : e'.guid = e.guid.setByte 14 0 := congrArg VscpEvent.guid heq
      rw [← he', hguid]
      exact Guid.byte_setByte _ (by omega) 0
    refine ⟨?_, hg⟩
    rw [heq]
    simp only [b, setByte_eq_self (he.trans hg)]
  · intro h d s mask
    obtain ⟨heq, hg⟩ := h
    have hset : e.guid.setByte 14 0 = e.guid := setByte_eq_self (he.trans hg)
    simp only [SameOutcome, hset, heq]
    exact ⟨rfl, rfl, rfl, rfl, rfl, rfl⟩

theorem canalIdHelper_copiesGuid : CopiesGuid canalIdHelper.convertCanalToEvent := by
  intro ev msg guid ev' h i hi
  simp only [canalIdHelper] at h
  split at h
  · cases h
  · cases h
    exact guid.byte_setByte_of_ne (by omega) _

/-- The interface GUID 00:..:00:01:00: byte 14 is not zero. -/
def oddGuid : Guid := Guid.nil.setByte 14 1

/-- An information event, class 20, type 9, from node 5. -/
def heartbeatMsg : CanalMsg where
  flags := 1
  obid := 0
  id := 0x0C140905
  data := [0, 0, 0]
  timestamp := 1000

/-- Two items that differ in whether the driver exports `CanalBlockingReceive`
publish the message under different GUIDs. -/
theorem loops_disagree : CopiesGuid canalIdHelper.convertCanalToEvent ∧
    ¬ SameOutcome (blockingEvent canalIdHelper { guid := oddGuid } heartbeatMsg)
      (nonBlockingEvent canalIdHelper { guid := oddGuid } heartbeatMsg) := by
  refine ⟨canalIdHelper_copiesGuid, ?_⟩
  intro h
  have hg : (oddGuid.setByte 15 5).setByte 14 0 = oddGuid.setByte 15 5 := h.2.2.2.1
  exact absurd hg (by decide)

/-- With byte 14 zero the two loops agree on the same message. -/
theorem loops_agree_nilGuid : LoopsAgree canalIdHelper {} heartbeatMsg :=
  (loops_agree_iff canalIdHelper {} heartbeatMsg canalIdHelper_copiesGuid).mpr
    ⟨by decide, by decide⟩

/-! ## Every message read is accounted for -/

/-- A pass that reads a message either sends it successfully, once, or reports
one error; a pass that reads none does neither. -/
def Accounted (effs : List Effect) : Prop :=
  let sent := effs.countP fun e => e matches .send _ true
  let reported := effs.countP fun e => e matches .failedToConvert | .failedToSend
  if .read ∈ effs then sent = 1 ∧ reported = 0 ∨ sent = 0 ∧ reported = 1 else sent = 0 ∧ reported = 0

/-- The pass reads a message from the driver and can make an event of it. -/
def Converts (lib : Vscphelper) (it : CDeviceItem) : Loop → Tick → Prop
  | .blocking, t => ∃ msg, t.msg = some msg ∧
    (lib.convertCanalToEvent (blockingInit it.guid) msg it.guid).isSome
  | .nonBlocking, t => t.dataAvailable = true ∧ ∃ msg, t.msg = some msg ∧
    (lib.convertCanalToEvent (nonBlockingInit lib) msg it.guid).isSome
  | .level2, t => t.event.isSome

theorem blockingEvent_isSome (lib : Vscphelper) (it : CDeviceItem) (msg : CanalMsg) :
    (blockingEvent lib it msg).isSome = (lib.convertCanalToEvent (blockingInit it.guid) msg it.guid).isSome := by
  unfold blockingEvent
  split <;> simp_all

theorem nonBlockingEvent_isSome (lib : Vscphelper) (it : CDeviceItem) (msg : CanalMsg) :
    (nonBlockingEvent lib it msg).isSome = (lib.convertCanalToEvent (nonBlockingInit lib) msg it.guid).isSome := by
  unfold nonBlockingEvent
  split <;> simp_all

/-- `sendEvent` answers true whatever the client answered, so the failure branch is dead. -/
theorem sendOrReport_eq (ev : VscpEvent) (sendOk : Bool) :
    sendOrReport ev sendOk = [.discovery ev, .send ev sendOk] := rfl

theorem accounted_sendOrReport (ev : VscpEvent) (sendOk : Bool) :
    Accounted (.read :: sendOrReport ev sendOk) ↔ sendOk = true := by
  cases sendOk <;> simp [sendOrReport_eq, Accounted]

theorem accounted_passLevel1 (ev : Option VscpEvent) (sendOk : Bool) :
    Accounted (passLevel1 ev sendOk) ↔ (ev.isSome → sendOk = true) := by
  cases ev with
  | none => simp [passLevel1, Accounted]
  | some ev => simp only [passLevel1, accounted_sendOrReport, Option.isSome_some, forall_const]

theorem accounted_pass (lib : Vscphelper) (it : CDeviceItem) (l : Loop) (t : Tick) :
    Accounted (pass lib it l t) ↔ (Converts lib it l t → t.sendOk = true) := by
  cases l with
  | blocking =>
    cases hm : t.msg with
    | none => simp [pass, Converts, hm, Accounted]
    | some msg => simp [pass, Converts, hm, accounted_passLevel1, blockingEvent_isSome]
  | nonBlocking =>
    cases ha : t.dataAvailable with
    | false => simp [pass, Converts, ha, Accounted]
    | true =>
      cases hm : t.msg with
      | none => simp [pass, Converts, ha, hm, Accounted]
      | some msg => simp [pass, Converts, ha, hm, accounted_passLevel1, nonBlockingEvent_isSome]
  | level2 =>
    cases he : t.event with
    | none => simp [pass, Converts, he, Accounted]
    | some ev => simp [pass, Converts, he, accounted_sendOrReport]

/-- **Conservation.** In a run of any of the three loops every message read is
sent once or reported once, exactly when every event the run hands to the MQTT
client is taken by it. -/
theorem workLoop_accounted_iff (lib : Vscphelper) (it : CDeviceItem) (l : Loop) (run : List (Bool × Tick)) :
    (∀ effs ∈ workLoop lib it l run, Accounted effs) ↔
      ∀ t ∈ passes run, Converts lib it l t → t.sendOk = true := by
  simp only [workLoop_eq, List.forall_mem_map, accounted_pass]

/-- A Level II pass whose send fails leaves neither a sent event nor an error. -/
theorem workLoop_loses : ¬ ∀ effs ∈ workLoop canalIdHelper {} .level2
    [(false, ⟨false, none, some VscpEvent.zero, false, 1⟩), (true, ⟨false, none, none, true, 2⟩)],
    Accounted effs := by
  intro h
  have hp := h _ (List.mem_singleton.mpr rfl)
  rw [accounted_pass] at hp
  exact absurd (hp rfl) (by decide)

end MqttVscpd
