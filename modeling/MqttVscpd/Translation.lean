/-
The outgoing translations of the two Level I loops under every mask: when an
event published as Level I over Level II still tells the class and the data of
the Level I event it was made of.
-/
import MqttVscpd.WorkLoopFacts

namespace MqttVscpd

/-- The message a Level I pass reads. -/
def level1Read : Loop → Tick → Option CanalMsg
  | .blocking, t => t.msg
  | .nonBlocking, t => if t.dataAvailable then t.msg else none
  | .level2, _ => none

/-- The Level I event a loop makes of a message, before the translations. -/
def level1Original (lib : Vscphelper) (it : CDeviceItem) (msg : CanalMsg) : Loop → Option VscpEvent
  | .blocking => (lib.convertCanalToEvent (blockingInit it.guid) msg it.guid).map fun ev =>
      { ev with obid := 0, guid := ev.guid.setByte 14 0 }
  | .nonBlocking => (lib.convertCanalToEvent (nonBlockingInit lib) msg it.guid).map fun ev => { ev with obid := 0 }
  | .level2 => none

/-- The events a pass hands to the MQTT client. -/
def published (effs : List Effect) : List VscpEvent :=
  effs.filterMap fun
    | .send ev _ => some ev
    | _ => none

/-- The measurement conversions make Level II events of measurement events, and leave other events alone. -/
structure ConvertsMeasurements (lib : Vscphelper) (meas : VscpEvent → Prop) : Prop where
  toDouble : ∀ ev, meas ev → 1023 < (lib.convertLevel1MeasurementToLevel2Double ev).vscpClass.toNat
  toDouble_other : ∀ ev, ¬ meas ev → lib.convertLevel1MeasurementToLevel2Double ev = ev
  toString : ∀ ev, meas ev → 1023 < (lib.convertLevel1MeasurementToLevel2String ev).vscpClass.toNat
  toString_other : ∀ ev, ¬ meas ev → lib.convertLevel1MeasurementToLevel2String ev = ev

/-- The class and the data of the Level I event can be told from the published one. -/
structure Recovers (ev pub : VscpEvent) : Prop where
  vscpClass : pub.vscpClass.toNat = ev.vscpClass.toNat + 512
  range : 512 ≤ pub.vscpClass.toNat ∧ pub.vscpClass.toNat ≤ 1023
  data : pub.data.drop 16 = ev.data

/-! ## One pass -/

variable {lib : Vscphelper} {it : CDeviceItem} {meas : VscpEvent → Prop} {ev : VscpEvent}

theorem blockingEvent_eq (lib : Vscphelper) (it : CDeviceItem) (msg : CanalMsg) :
    blockingEvent lib it msg = (level1Original lib it msg .blocking).map (outgoingTranslations lib it.translation) := by
  unfold blockingEvent level1Original
  cases lib.convertCanalToEvent (blockingInit it.guid) msg it.guid <;> rfl

theorem nonBlockingEvent_eq (lib : Vscphelper) (it : CDeviceItem) (msg : CanalMsg) :
    nonBlockingEvent lib it msg =
      (level1Original lib it msg .nonBlocking).map (outgoingTranslations lib it.translation) := by
  unfold nonBlockingEvent level1Original
  cases lib.convertCanalToEvent (nonBlockingInit lib) msg it.guid <;> rfl

theorem published_passLevel1 (ev : VscpEvent) (sendOk : Bool) : published (passLevel1 (some ev) sendOk) = [ev] := rfl

/-- A pass that makes an event of its message publishes it once, translated. -/
theorem published_pass {l : Loop} {t : Tick} {msg : CanalMsg} (hmsg : level1Read l t = some msg)
    (hev : level1Original lib it msg l = some ev) :
    published (pass lib it l t) = [outgoingTranslations lib it.translation ev] := by
  cases l with
  | blocking =>
    have ht : t.msg = some msg := hmsg
    rw [pass, ht]
    simp only [blockingEvent_eq, hev, Option.map_some, published_passLevel1]
  | nonBlocking =>
    obtain ⟨hdata, ht⟩ : t.dataAvailable = true ∧ t.msg = some msg := by simpa [level1Read] using hmsg
    rw [pass, if_pos hdata, ht]
    simp only [nonBlockingEvent_eq, hev, Option.map_some, published_passLevel1]
  | level2 => cases hmsg

/-! ## The translations -/

/-- The event the third translation finds. -/
def measurementTranslations (lib : Vscphelper) (translation : UInt32) (ev : VscpEvent) : VscpEvent :=
  let ev := if translation &&& VSCP_DRIVER_OUT_TR_M1_M2F ≠ 0 then
    lib.convertLevel1MeasurementToLevel2Double ev else ev
  if translation &&& VSCP_DRIVER_OUT_TR_M1_M2S ≠ 0 then
    lib.convertLevel1MeasurementToLevel2String ev else ev

theorem outgoingTranslations_all {translation : UInt32} (h : translation &&& VSCP_DRIVER_OUT_TR_ALL_L2 ≠ 0)
    (ev : VscpEvent) :
    outgoingTranslations lib translation ev =
      { measurementTranslations lib translation ev with
        vscpClass := (measurementTranslations lib translation ev).vscpClass + 512
        data := (List.replicate 16 0 ++ (measurementTranslations lib translation ev).data).take
          ((16 + (measurementTranslations lib translation ev).data.length) % 2 ^ 16) } :=
  if_pos h

/-- No measurement, or no measurement translation. -/
def Untouched (meas : VscpEvent → Prop) (translation : UInt32) (ev : VscpEvent) : Prop :=
  ¬ meas ev ∨ translation &&& VSCP_DRIVER_OUT_TR_M1_M2F = 0 ∧ translation &&& VSCP_DRIVER_OUT_TR_M1_M2S = 0

theorem measurementTranslations_untouched (hconv : ConvertsMeasurements lib meas) {translation : UInt32}
    (h : Untouched meas translation ev) : measurementTranslations lib translation ev = ev := by
  unfold measurementTranslations
  rcases h with h | ⟨hf, hs⟩
  · simp only [hconv.toDouble_other ev h, ite_self, hconv.toString_other ev h]
  · rw [if_neg (not_not.mpr hf), if_neg (not_not.mpr hs)]

/-- The string conversion leaves a class above 1023 above 1023. -/
theorem toString_above (hconv : ConvertsMeasurements lib meas) (h : 1023 < ev.vscpClass.toNat) :
    1023 < (lib.convertLevel1MeasurementToLevel2String ev).vscpClass.toNat := by
  by_cases hm : meas ev
  · exact hconv.toString ev hm
  · rw [hconv.toString_other ev hm]
    exact h

theorem measurementTranslations_touched (hconv : ConvertsMeasurements lib meas) {translation : UInt32}
    (h : ¬ Untouched meas translation ev) : 1023 < (measurementTranslations lib translation ev).vscpClass.toNat := by
  obtain ⟨hm, hbits⟩ : meas ev ∧ ¬ (translation &&& VSCP_DRIVER_OUT_TR_M1_M2F = 0 ∧
      translation &&& VSCP_DRIVER_OUT_TR_M1_M2S = 0) := by
    simpa only [Untouched, not_or, not_not] using h
  unfold measurementTranslations
  by_cases hf : translation &&& VSCP_DRIVER_OUT_TR_M1_M2F = 0
  · rw [if_neg (not_not.mpr hf), if_pos fun hs => hbits ⟨hf, hs⟩]
    exact hconv.toString ev hm
  · rw [if_pos hf]
    split
    · exact toString_above hconv (hconv.toDouble ev hm)
    · exact hconv.toDouble ev hm

/-- 16 bytes in front of a Level I event's data. -/
theorem drop_level1Data {data : List UInt8} (h : data.length ≤ 8) :
    ((List.replicate 16 0 ++ data).take ((16 + data.length) % 2 ^ 16)).drop 16 = data := by
  have hlen : (16 + data.length) % 2 ^ 16 = (List.replicate 16 (0 : UInt8) ++ data).length := by
    rw [List.length_append, List.length_replicate]
    omega
  rw [hlen, List.take_length]
  exact List.drop_left' List.length_replicate

/-- **When Level I over Level II is faithful**: under a mask with `ALL_L2`, either
Level I loop publishes one event that tells the class and the data of the Level I
event, exactly when the event is no measurement, or the mask asks for neither
measurement translation. -/
theorem level1_over_level2_iff (hconv : ConvertsMeasurements lib meas) {l : Loop} {t : Tick} {msg : CanalMsg}
    (hmsg : level1Read l t = some msg) (hev : level1Original lib it msg l = some ev)
    (hclass : ev.vscpClass.toNat < 512) (hdata : ev.data.length ≤ 8)
    (hmask : it.translation &&& VSCP_DRIVER_OUT_TR_ALL_L2 ≠ 0) :
    (∃ pub, published (pass lib it l t) = [pub] ∧ Recovers ev pub) ↔ Untouched meas it.translation ev := by
  rw [published_pass hmsg hev, outgoingTranslations_all hmask]
  constructor
  · intro h
    obtain ⟨pub, hpub, hrec⟩ := h
    by_contra htouched
    have habove := measurementTranslations_touched hconv htouched
    have hlt := (measurementTranslations lib it.translation ev).vscpClass.toNat_lt
    have hplus := hrec.vscpClass
    cases hpub
    simp only [UInt16.toNat_add, UInt16.reduceToNat] at hplus
    omega
  · intro h
    rw [measurementTranslations_untouched hconv h]
    have hplus : (ev.vscpClass + 512).toNat = ev.vscpClass.toNat + 512 := by
      simp only [UInt16.toNat_add, UInt16.reduceToNat]
      omega
    refine ⟨_, rfl, hplus, ?_, drop_level1Data hdata⟩
    rw [hplus]
    omega

/-! ## A measurement -/

/-- A temperature reading of 0 degrees Celsius, as an integer from sensor 0. -/
def ZeroDegrees (ev : VscpEvent) : Prop := ev.vscpClass = 10 ∧ ev.vscpType = 6 ∧ ev.data = [0x68, 0]

instance (ev : VscpEvent) : Decidable (ZeroDegrees ev) := inferInstanceAs (Decidable (_ ∧ _))

/-- A helper library whose only measurements are readings of 0 degrees. -/
def zeroDegreesHelper : Vscphelper :=
  { canalIdHelper with
    convertLevel1MeasurementToLevel2Double := fun ev =>
      if ZeroDegrees ev then { ev with vscpClass := 1060, data := [0, 0, 0, 1, 0, 0, 0, 0, 0, 0, 0, 0] } else ev
    convertLevel1MeasurementToLevel2String := fun ev =>
      if ZeroDegrees ev then { ev with vscpClass := 1040, data := [0, 0, 0, 1, 0x30] } else ev }

theorem zeroDegreesHelper_converts : ConvertsMeasurements zeroDegreesHelper ZeroDegrees where
  toDouble ev h := by
    simp only [zeroDegreesHelper, if_pos h]
    decide
  toDouble_other ev h := if_neg h
  toString ev h := by
    simp only [zeroDegreesHelper, if_pos h]
    decide
  toString_other ev h := if_neg h

/-- A temperature of 0 degrees, class 10, type 6, from node 5. -/
def temperatureMsg : CanalMsg where
  flags := 1
  obid := 0
  id := 0x0C0A0605
  data := [0x68, 0]
  timestamp := 1000

/-- What the non-blocking loop makes of a message, before the translations. -/
def originalOf (it : CDeviceItem) (msg : CanalMsg) : VscpEvent :=
  (level1Original zeroDegreesHelper it msg .nonBlocking).getD VscpEvent.zero

/-- An item that converts measurements to floats, and everything to Level I over Level II. -/
def floatOverLevel2 : CDeviceItem := { translation := VSCP_DRIVER_OUT_TR_M1_M2F ||| VSCP_DRIVER_OUT_TR_ALL_L2 }

/-- A temperature converted to a float and then put over Level II is published under class 1572. -/
theorem not_recovers_temperature : ConvertsMeasurements zeroDegreesHelper ZeroDegrees ∧
    (originalOf floatOverLevel2 temperatureMsg).vscpClass = 10 ∧
    (published (pass zeroDegreesHelper floatOverLevel2 .nonBlocking ⟨true, some temperatureMsg, none, true, 1⟩)).map
      (·.vscpClass) = [1572] ∧
    ¬ ∃ pub, published (pass zeroDegreesHelper floatOverLevel2 .nonBlocking ⟨true, some temperatureMsg, none, true, 1⟩) =
      [pub] ∧ Recovers (originalOf floatOverLevel2 temperatureMsg) pub := by
  refine ⟨zeroDegreesHelper_converts, by decide, by decide, ?_⟩
  intro h
  obtain ⟨pub, hpub, hrec⟩ := h
  cases hpub
  exact absurd hrec.vscpClass (by decide)

/-- An event that is no measurement keeps its class and its data under the same mask. -/
theorem level1_over_level2_heartbeat :
    ∃ pub, published (pass zeroDegreesHelper floatOverLevel2 .nonBlocking ⟨true, some heartbeatMsg, none, true, 1⟩) =
      [pub] ∧ Recovers (originalOf floatOverLevel2 heartbeatMsg) pub :=
  (level1_over_level2_iff zeroDegreesHelper_converts rfl rfl (by decide) (by decide) (by decide)).mpr
    (.inl (by decide))

end MqttVscpd
