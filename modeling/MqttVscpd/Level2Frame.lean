/-
What the Level II loop makes of an event's frame version and timestamp: every
event reaches a normal form, and a datetime block becomes the instant it denotes,
unless it passes the range checks without denoting one and its 64-bit nanoseconds
come out positive.
-/
import Mathlib.Data.BitVec
import MqttVscpd.Lib.Calendar
import MqttVscpd.WorkLoop

namespace MqttVscpd

open Calendar

/-! ## Bits under a mask -/

section bits

variable {w : Nat} {head mask bits : BitVec w}

theorem replace_and_mask (h : bits &&& mask = bits) : (head &&& ~~~ mask ||| bits) &&& mask = bits := by
  ext i hi
  have hb := congrArg (fun b : BitVec w => b[i]) h
  simp only [BitVec.getElem_and] at hb
  simp only [BitVec.getElem_and, BitVec.getElem_or, BitVec.getElem_not]
  cases hm : mask[i] <;> simp_all

theorem replace_and_not_mask (h : bits &&& mask = bits) :
    (head &&& ~~~ mask ||| bits) &&& ~~~ mask = head &&& ~~~ mask := by
  ext i hi
  have hb := congrArg (fun b : BitVec w => b[i]) h
  simp only [BitVec.getElem_and] at hb
  simp only [BitVec.getElem_and, BitVec.getElem_or, BitVec.getElem_not]
  cases hm : mask[i] <;> simp_all

end bits

/-! ## The normal form -/

/-- A UNIX_NS frame with a timestamp. -/
def Vscphelper.Normal (lib : Vscphelper) (ev : VscpEvent) : Prop :=
  ev.head &&& lib.frameVersionMask = lib.frameVersionUnixNs ∧ ev.timestampNs ≠ 0

/-- Two events that differ at most in what the normalisation may change. -/
structure Vscphelper.SameContent (lib : Vscphelper) (ev ev' : VscpEvent) : Prop where
  head : ev'.head &&& ~~~ lib.frameVersionMask = ev.head &&& ~~~ lib.frameVersionMask
  vscpClass : ev'.vscpClass = ev.vscpClass
  vscpType : ev'.vscpType = ev.vscpType
  guid : ev'.guid = ev.guid
  obid : ev'.obid = ev.obid
  data : ev'.data = ev.data

variable {lib : Vscphelper} {ev : VscpEvent} {now : UInt64}

theorem level2Event_of_normal (h : lib.Normal ev) (now : UInt64) : level2Event lib now ev = ev := by
  rw [level2Event, if_neg (not_not.mpr h.1.symm), if_neg h.2]

/-- A positive instant, or the clock, is not zero. -/
theorem stamp_ne_zero (ns : Int64) (hnow : now ≠ 0) : (if ns > 0 then ns.toUInt64 else now) ≠ 0 := by
  split
  · next hns =>
    intro h
    have hz : ns = 0 := by
      rw [← Int64.toInt64_toUInt64 ns, h]
      rfl
    rw [hz] at hns
    exact absurd hns (by decide)
  · exact hnow

theorem level2Event_normal (hmask : lib.frameVersionUnixNs &&& lib.frameVersionMask = lib.frameVersionUnixNs)
    (hnow : now ≠ 0) : lib.Normal (level2Event lib now ev) := by
  unfold level2Event
  split
  · exact ⟨UInt16.toBitVec_inj.mp (replace_and_mask (congrArg UInt16.toBitVec hmask)), stamp_ne_zero _ hnow⟩
  · next hv =>
    have hframe := (not_not.mp hv).symm
    split
    · exact ⟨hframe, hnow⟩
    · next hts => exact ⟨hframe, hts⟩

theorem level2Event_sameContent
    (hmask : lib.frameVersionUnixNs &&& lib.frameVersionMask = lib.frameVersionUnixNs) :
    lib.SameContent ev (level2Event lib now ev) := by
  unfold level2Event
  split
  · exact ⟨UInt16.toBitVec_inj.mp (replace_and_not_mask (congrArg UInt16.toBitVec hmask)), rfl, rfl, rfl, rfl, rfl⟩
  · split <;> exact ⟨rfl, rfl, rfl, rfl, rfl, rfl⟩

/-- **The normalisation reaches a normal form**, changes nothing else of the event
and nothing of an event in normal form: so a second time it changes nothing,
whatever the clock reads. -/
theorem level2Event_normalises (lib : Vscphelper) (ev : VscpEvent) (now : UInt64)
    (hmask : lib.frameVersionUnixNs &&& lib.frameVersionMask = lib.frameVersionUnixNs) (hnow : now ≠ 0) :
    lib.Normal (level2Event lib now ev) ∧ lib.SameContent ev (level2Event lib now ev) ∧
      (lib.Normal ev → level2Event lib now ev = ev) ∧
      ∀ now', level2Event lib now' (level2Event lib now ev) = level2Event lib now ev := by
  have hnormal : lib.Normal (level2Event lib now ev) := level2Event_normal hmask hnow
  refine ⟨hnormal, level2Event_sameContent hmask, ?_, ?_⟩
  · intro h
    exact level2Event_of_normal h now
  · intro now'
    exact level2Event_of_normal hnormal now'

/-- A frame of another version with a priority and a date, and with data. -/
def datedEvent : VscpEvent := { VscpEvent.zero with
  head := 0x02e5
  obid := 7
  timestamp := 250
  year := 2025
  month := 3
  day := 2
  hour := 12
  vscpClass := 10
  vscpType := 6
  guid := Guid.nil.setByte 15 9
  data := [0x89, 0x02, 0x01] }

theorem level2Event_normalises_dated :
    (level2Event canalIdHelper 5 datedEvent).head = 0x01e5 ∧
      (level2Event canalIdHelper 5 datedEvent).timestampNs = 250000 ∧
        canalIdHelper.Normal (level2Event canalIdHelper 5 datedEvent) ∧
          canalIdHelper.SameContent datedEvent (level2Event canalIdHelper 5 datedEvent) ∧
            ∀ now, level2Event canalIdHelper now (level2Event canalIdHelper 5 datedEvent) =
              level2Event canalIdHelper 5 datedEvent := by
  obtain ⟨hnormal, hsame, -, hagain⟩ := level2Event_normalises canalIdHelper datedEvent 5 (by decide) (by decide)
  exact ⟨by decide, by decide, hnormal, hsame, hagain⟩

/-! ## The timestamp -/

/-- The seconds from the epoch to the datetime block, with days past the end of the month rolling over. -/
def datetimeSeconds (ev : VscpEvent) : Int :=
  dayNumber ev.year.toNat ev.month.toNat ev.day.toNat * 86400 + ev.hour.toNat * 3600 + ev.minute.toNat * 60 +
    ev.second.toNat

/-- The instant of the datetime block and the microseconds of `timestamp`, in nanoseconds. -/
def datetimeNs (ev : VscpEvent) : Int := datetimeSeconds ev * 10 ^ 9 + ev.timestamp.toNat * 1000

/-- `vscp_to_unix_ns` does not validate the date, and computes in wrapping 64-bit arithmetic. -/
def ComputesUnixNs (lib : Vscphelper) : Prop :=
  ∀ ev : VscpEvent, lib.toUnixNs ev.year ev.month ev.day ev.hour ev.minute ev.second ev.timestamp =
    Int64.ofInt (datetimeNs ev)

/-- The datetime block is an existing date and time after 1970-01-01T00:00:00
whose instant signed 64-bit nanoseconds can hold. -/
structure Denotes (ev : VscpEvent) : Prop where
  date : ExistingDate ev.year.toNat ev.month.toNat ev.day.toNat
  hour : ev.hour ≤ 23
  minute : ev.minute ≤ 59
  second : ev.second ≤ 59
  afterEpoch : 0 < datetimeSeconds ev
  representable : datetimeNs ev < 2 ^ 63

/-- The timestamp is the instant the datetime block denotes; the clock's reading
when it denotes none. -/
def StampedRight (ev : VscpEvent) (now stamp : UInt64) : Prop :=
  (Denotes ev → (stamp.toNat : Int) = datetimeNs ev) ∧ (¬ Denotes ev → stamp = now)

theorem Denotes.positive (h : Denotes ev) : 0 < datetimeNs ev := by
  have := h.afterEpoch
  unfold datetimeNs
  omega

/-- An existing time of day is within its day. -/
theorem Denotes.day (h : Denotes ev) :
    dayNumber ev.year.toNat ev.month.toNat ev.day.toNat * 86400 ≤ datetimeSeconds ev ∧
      datetimeSeconds ev < (dayNumber ev.year.toNat ev.month.toNat ev.day.toNat + 1) * 86400 := by
  have hh := UInt8.le_iff_toNat_le.mp h.hour
  have hm := UInt8.le_iff_toNat_le.mp h.minute
  have hs := UInt8.le_iff_toNat_le.mp h.second
  simp only [UInt8.reduceToNat] at hh hm hs
  unfold datetimeSeconds
  omega

/-- A datetime block that denotes an instant lies between 1970 and 2262. -/
theorem Denotes.year (h : Denotes ev) : 1970 ≤ ev.year.toNat ∧ ev.year.toNat < 2263 := by
  obtain ⟨hlo, hhi⟩ := h.day
  have hpos := h.afterEpoch
  have hrep := h.representable
  unfold datetimeNs at hrep
  constructor
  · have hday := h.date.dayNumber_nonneg_iff.mp (by omega)
    omega
  · by_contra hy
    have hyear := h.date.year_le
    have hmono := daysBeforeYear_mono (show (2263 : Int) ≤ ev.year.toNat by omega)
    have hfrom : daysBeforeYear 2263 - daysBeforeYear 1970 = 107016 := by decide
    omega

/-- What denotes an instant passes the range checks. -/
theorem Denotes.validDatetime (h : Denotes ev) : validDatetime ev = true := by
  obtain ⟨hy₁, hy₂⟩ := h.year
  obtain ⟨hd₁, hd₂⟩ := h.date
  have hm : ev.month.toNat ≤ 12 := month_le_of_days (show 0 < daysInMonth ev.year.toNat ev.month.toNat by omega)
  have hm₀ : ev.month.toNat ≠ 0 := by
    intro h₀
    rw [h₀] at hd₂
    simp only [daysInMonth] at hd₂
    omega
  have hd : daysInMonth ev.year.toNat ev.month.toNat ≤ 31 := by
    unfold daysInMonth
    split <;> omega
  have hhour := UInt8.le_iff_toNat_le.mp h.hour
  have hminute := UInt8.le_iff_toNat_le.mp h.minute
  have hsecond := UInt8.le_iff_toNat_le.mp h.second
  simp only [MqttVscpd.validDatetime, Bool.and_eq_true, decide_eq_true_eq, UInt8.le_iff_toNat_le,
    UInt16.lt_iff_toNat_lt, gt_iff_lt, ge_iff_le, UInt16.reduceToNat, UInt8.reduceToNat] at *
  omega

/-- The nanoseconds the code takes for the datetime block's instant. -/
def wrappedNs (ev : VscpEvent) : Int := (datetimeNs ev).bmod (2 ^ 64)

theorem Denotes.wrappedNs_eq (h : Denotes ev) : wrappedNs ev = datetimeNs ev := by
  have h₀ := h.positive
  have h₁ := h.representable
  exact Int.bmod_eq_of_le_mul_two (by omega) (by omega)

/-- What the code publishes for an event that is no UNIX_NS frame. -/
theorem timestampNs_level2Event (hns : ComputesUnixNs lib)
    (hframe : ev.head &&& lib.frameVersionMask ≠ lib.frameVersionUnixNs) (now : UInt64) :
    if validDatetime ev = true ∧ 0 < wrappedNs ev
      then ((level2Event lib now ev).timestampNs.toNat : Int) = wrappedNs ev
      else (level2Event lib now ev).timestampNs = now := by
  have hwrap : (Int64.ofInt (datetimeNs ev)).toInt = wrappedNs ev := Int64.toInt_ofInt
  have hpos : Int64.ofInt (datetimeNs ev) > 0 ↔ 0 < wrappedNs ev := by
    rw [← hwrap]
    exact Int64.lt_iff_toInt_lt
  rw [level2Event, if_pos (Ne.symm hframe)]
  simp only [hns ev]
  cases hv : validDatetime ev with
  | false => simp
  | true =>
    by_cases hw : 0 < wrappedNs ev
    · simp only [hw, hpos.mpr hw, and_self, if_true]
      rw [Int64.toNat_toUInt64_of_le (Int64.le_of_lt (hpos.mpr hw)), Int64.toNatClampNeg, hwrap]
      omega
    · simp [hw, mt hpos.mp hw]

/-- What passes the range checks without denoting an instant is stamped with its
positive nanoseconds, and not with the clock's reading. -/
theorem not_stampedRight (hns : ComputesUnixNs lib)
    (hframe : ev.head &&& lib.frameVersionMask ≠ lib.frameVersionUnixNs) (hd : ¬ Denotes ev)
    (hv : validDatetime ev = true) (hw : 0 < wrappedNs ev) (hnow : (now.toNat : Int) ≠ wrappedNs ev) :
    ¬ StampedRight ev now (level2Event lib now ev).timestampNs := by
  intro h
  have hstamp := timestampNs_level2Event hns hframe now
  rw [if_pos ⟨hv, hw⟩, h.2 hd] at hstamp
  exact hnow hstamp

/-- **The timestamp is right, whatever the clock reads, exactly when** the
datetime block denotes an instant, or a range check rejects it, or its
nanoseconds, with the day rolled over and wrapped to 64 bits, are not positive. -/
theorem level2_timestamp_iff (lib : Vscphelper) (ev : VscpEvent) (hns : ComputesUnixNs lib)
    (hframe : ev.head &&& lib.frameVersionMask ≠ lib.frameVersionUnixNs) :
    (∀ now, StampedRight ev now (level2Event lib now ev).timestampNs) ↔
      Denotes ev ∨ validDatetime ev = false ∨ (datetimeNs ev).bmod (2 ^ 64) ≤ 0 := by
  constructor
  · intro h
    by_contra hn
    obtain ⟨hd, hv, hw⟩ : ¬ Denotes ev ∧ validDatetime ev = true ∧ 0 < wrappedNs ev := by
      simpa [not_or, wrappedNs] using hn
    have hzero : ((0 : UInt64).toNat : Int) ≠ wrappedNs ev := by
      simp only [UInt64.reduceToNat]
      omega
    exact not_stampedRight hns hframe hd hv hw hzero (h 0)
  · intro h now
    have hnow := timestampNs_level2Event hns hframe now
    constructor
    · intro hd
      rw [if_pos ⟨hd.validDatetime, hd.wrappedNs_eq ▸ hd.positive⟩] at hnow
      rw [hnow, hd.wrappedNs_eq]
    · intro hd
      rw [if_neg] at hnow
      · exact hnow
      · intro hc
        rcases h with h | h | h
        · exact hd h
        · rw [h] at hc
          cases hc.1
        · exact absurd hc.2 (Int.not_lt.mpr h)

/-- A helper library that computes the instant as described. -/
def unixNsHelper : Vscphelper :=
  { canalIdHelper with
    toUnixNs := fun year month day hour minute second us => Int64.ofInt (datetimeNs { VscpEvent.zero with
      year := year
      month := month
      day := day
      hour := hour
      minute := minute
      second := second
      timestamp := us }) }

theorem unixNsHelper_computes : ComputesUnixNs unixNsHelper := fun _ => rfl

/-- An original frame with a date, at noon. -/
def noonOf (year : UInt16) (month day : UInt8) : VscpEvent :=
  { VscpEvent.zero with year := year, month := month, day := day, hour := 12 }

/-- 30 February is stamped as 2 March, and a day in 2600 as one in 2015. -/
theorem not_stampedRight_february : ComputesUnixNs unixNsHelper ∧
    datetimeNs (noonOf 2025 2 30) = datetimeNs (noonOf 2025 3 2) ∧
    ¬ StampedRight (noonOf 2025 2 30) 1 (level2Event unixNsHelper 1 (noonOf 2025 2 30)).timestampNs ∧
    ¬ StampedRight (noonOf 2600 1 1) 1 (level2Event unixNsHelper 1 (noonOf 2600 1 1)).timestampNs := by
  refine ⟨unixNsHelper_computes, ?_, ?_, ?_⟩
  · have hroll := dayNumber_rollover 2025 2 2
    exact congrArg (fun n : Int => (n * 86400 + 12 * 3600) * 10 ^ 9) hroll
  · refine not_stampedRight unixNsHelper_computes (by decide) ?_ (by decide) (by decide) (by decide)
    intro h
    exact absurd h.date (by decide)
  · refine not_stampedRight unixNsHelper_computes (by decide) ?_ (by decide) (by decide) (by decide)
    intro h
    exact absurd h.representable (by decide)

/-- 2 March is stamped as itself. -/
theorem level2_timestamp_march :
    StampedRight (noonOf 2025 3 2) 0 (level2Event unixNsHelper 0 (noonOf 2025 3 2)).timestampNs :=
  (level2_timestamp_iff unixNsHelper (noonOf 2025 3 2) unixNsHelper_computes (by decide)).mpr
    (.inl ⟨by decide, by decide, by decide, by decide, by decide, by decide⟩) 0

end MqttVscpd
