/-
`CDeviceList::getCountDrivers`, and when it counts what its contract says: the
drivers of a type, only the enabled ones or all. The code tests `m_bEnable` either
way, and a driver's level only for being set.
-/
import MqttVscpd.DeviceItem

namespace MqttVscpd

/-- The body of the loop in `getCountDrivers`. -/
def countDriver (type : UInt8) (bOnlyActive : Bool) (count : UInt16) (item : CDeviceItem) : UInt16 :=
  if bOnlyActive then
    if item.bEnable then
      if type = 0 then count + 1
      else if type = VSCP_DRIVER_LEVEL1 then if item.driverLevel ≠ 0 then count + 1 else count
      else if type = VSCP_DRIVER_LEVEL2 then if item.driverLevel ≠ 0 then count + 1 else count
      else count
    else count
  else
    -- The same again, `m_bEnable` included.
    if item.bEnable then
      if type = 0 then count + 1
      else if type = VSCP_DRIVER_LEVEL1 then if item.driverLevel ≠ 0 then count + 1 else count
      else if type = VSCP_DRIVER_LEVEL2 then if item.driverLevel ≠ 0 then count + 1 else count
      else count
    else count

def getCountDrivers (items : List CDeviceItem) (type : UInt8) (bOnlyActive : Bool) : UInt16 :=
  items.foldl (countDriver type bOnlyActive) 0

/-! ## The contract -/

/-- An item of the type, 0 being any level. -/
def CDeviceItem.ofType (type : UInt8) (item : CDeviceItem) : Bool := type = 0 || item.driverLevel = type

/-- The number of drivers of the type: "only enabled drivers" under `bOnlyActive`, else all. -/
def driverCount (items : List CDeviceItem) (type : UInt8) (bOnlyActive : Bool) : Nat :=
  items.countP fun item => (!bOnlyActive || item.bEnable) && item.ofType type

/-! ## What is counted -/

/-- An item the code counts under a type, if it is enabled. -/
def CDeviceItem.counted (type : UInt8) (item : CDeviceItem) : Bool :=
  type = 0 || ((type = VSCP_DRIVER_LEVEL1 || type = VSCP_DRIVER_LEVEL2) && item.driverLevel ≠ 0)

theorem countDriver_eq (type : UInt8) (bOnlyActive : Bool) :
    countDriver type bOnlyActive = fun count item =>
      if item.bEnable && item.counted type then count + 1 else count := by
  funext count item
  cases bOnlyActive <;> grind [countDriver, CDeviceItem.counted]

/-- `bOnlyActive` makes no difference. -/
theorem getCountDrivers_flag (items : List CDeviceItem) (type : UInt8) :
    getCountDrivers items type true = getCountDrivers items type false := by
  rw [getCountDrivers, getCountDrivers, countDriver_eq, countDriver_eq]

/-- A 16-bit counter counts a list shorter than 65536. -/
theorem foldl_count {α : Type} (p : α → Bool) {l : List α} {count : UInt16} (h : count.toNat + l.length < 65536) :
    (l.foldl (fun count a => if p a then count + 1 else count) count).toNat = count.toNat + l.countP p := by
  induction l generalizing count with
  | nil => rfl
  | cons a l ih =>
    rw [List.length_cons] at h
    rw [List.foldl_cons, List.countP_cons]
    split
    · have hplus : (count + 1).toNat = count.toNat + 1 := by
        simp only [UInt16.toNat_add, UInt16.reduceToNat]
        omega
      rw [ih (by omega), hplus]
      omega
    · exact ih (by omega)

theorem getCountDrivers_toNat {items : List CDeviceItem} (hlen : items.length < 65536) (type : UInt8)
    (bOnlyActive : Bool) :
    (getCountDrivers items type bOnlyActive).toNat = items.countP fun item => item.bEnable && item.counted type := by
  have hstart : (0 : UInt16).toNat + items.length < 65536 := by simpa using hlen
  rw [getCountDrivers, countDriver_eq, foldl_count _ hstart]
  exact Nat.zero_add _

/-! ## When the counts agree -/

theorem countP_split {α : Type} (p q : α → Bool) (l : List α) :
    l.countP p = (l.countP fun a => p a && q a) + l.countP fun a => p a && !q a := by
  rw [List.countP_eq_countP_filter_add l p q, List.countP_filter, List.countP_filter]

/-- Two counts agree when what one has over the other is as much either way. -/
theorem countP_eq_iff {α : Type} {p q : α → Bool} {l : List α} :
    l.countP p = l.countP q ↔ (l.countP fun a => p a && !q a) = l.countP fun a => q a && !p a := by
  have hcomm : (l.countP fun a => q a && p a) = l.countP fun a => p a && q a := by simp only [Bool.and_comm]
  rw [countP_split p q, countP_split q p, hcomm, Nat.add_left_cancel_iff]

/-- Of a smaller kind there are as many when all are of it. -/
theorem countP_eq_of_imp_iff {α : Type} {p q : α → Bool} {l : List α} (h : ∀ a, p a = true → q a = true) :
    l.countP p = l.countP q ↔ ∀ a ∈ l, q a = true → p a = true := by
  have hnone : (l.countP fun a => p a && !q a) = 0 := by
    rw [List.countP_eq_zero]
    intro a _ ha
    cases hp : p a with
    | false => simp [hp] at ha
    | true => simp [h a hp] at ha
  rw [countP_eq_iff, hnone, eq_comm, List.countP_eq_zero]
  simp

theorem level_ne_zero {level : UInt8} (h : level = VSCP_DRIVER_LEVEL1 ∨ level = VSCP_DRIVER_LEVEL2) : level ≠ 0 := by
  rcases h with rfl | rfl <;> decide

theorem counted_level {level : UInt8} (h : level = VSCP_DRIVER_LEVEL1 ∨ level = VSCP_DRIVER_LEVEL2)
    (item : CDeviceItem) : item.counted level = decide (item.driverLevel ≠ 0) := by
  have h0 := level_ne_zero h
  rcases h with rfl | rfl <;> simp [CDeviceItem.counted, h0]

theorem ofType_level {level : UInt8} (h : level = VSCP_DRIVER_LEVEL1 ∨ level = VSCP_DRIVER_LEVEL2)
    (item : CDeviceItem) : item.ofType level = decide (item.driverLevel = level) := by
  simp [CDeviceItem.ofType, level_ne_zero h]

section counts

variable {items : List CDeviceItem} (hlen : items.length < 65536)
include hlen

theorem count_all_enabled : (getCountDrivers items 0 true).toNat = driverCount items 0 true := by
  rw [getCountDrivers_toNat hlen, driverCount]
  simp [CDeviceItem.counted, CDeviceItem.ofType]

theorem count_all_iff :
    (getCountDrivers items 0 false).toNat = driverCount items 0 false ↔ ∀ item ∈ items, item.bEnable = true := by
  rw [getCountDrivers_toNat hlen, driverCount, countP_eq_of_imp_iff (by simp [CDeviceItem.ofType])]
  simp [CDeviceItem.counted, CDeviceItem.ofType]

variable {level : UInt8} (hlevel : level = VSCP_DRIVER_LEVEL1 ∨ level = VSCP_DRIVER_LEVEL2)
include hlevel

/-- Of the enabled items the code counts those of the other levels too, but for 0. -/
theorem count_level_enabled_iff :
    (getCountDrivers items level true).toNat = driverCount items level true ↔
      ∀ item ∈ items, item.bEnable = true → item.driverLevel = 0 ∨ item.driverLevel = level := by
  have h0 := level_ne_zero hlevel
  rw [getCountDrivers_toNat hlen, driverCount, eq_comm]
  simp only [counted_level hlevel, ofType_level hlevel]
  rw [countP_eq_of_imp_iff]
  · refine forall₂_congr fun item _ => ?_
    cases item.bEnable <;> by_cases hz : item.driverLevel = 0 <;> simp [hz]
  · intro item hitem
    obtain ⟨he, hl⟩ : item.bEnable = true ∧ item.driverLevel = level := by simpa using hitem
    simp [he, hl, h0]

/-- Of all the items the code counts those too, and misses the disabled ones. -/
theorem count_level_iff :
    (getCountDrivers items level false).toNat = driverCount items level false ↔
      (items.countP fun item => item.bEnable && item.driverLevel ≠ 0 && item.driverLevel ≠ level) =
        items.countP fun item => !item.bEnable && item.driverLevel = level := by
  have h0 := level_ne_zero hlevel
  rw [getCountDrivers_toNat hlen, driverCount, countP_eq_iff]
  simp only [counted_level hlevel, ofType_level hlevel]
  refine Eq.congr (List.countP_congr fun item _ => ?_) (List.countP_congr fun item _ => ?_)
  · simp [and_assoc]
  · by_cases hl : item.driverLevel = level <;> simp [hl, h0]

omit hlevel in
theorem count_levels_add_iff (hlevels : ∀ item ∈ items,
      item.driverLevel = VSCP_DRIVER_LEVEL1 ∨ item.driverLevel = VSCP_DRIVER_LEVEL2) (bOnlyActive : Bool) :
    (getCountDrivers items VSCP_DRIVER_LEVEL1 bOnlyActive).toNat +
        (getCountDrivers items VSCP_DRIVER_LEVEL2 bOnlyActive).toNat =
      (getCountDrivers items 0 bOnlyActive).toNat ↔ ∀ item ∈ items, item.bEnable = false := by
  have hcount : ∀ type, type = 0 ∨ type = VSCP_DRIVER_LEVEL1 ∨ type = VSCP_DRIVER_LEVEL2 →
      (getCountDrivers items type bOnlyActive).toNat = items.countP CDeviceItem.bEnable := by
    intro type htype
    rw [getCountDrivers_toNat hlen]
    refine List.countP_congr fun item hitem => ?_
    have hset := level_ne_zero (hlevels item hitem)
    rcases htype with rfl | htype
    · simp [CDeviceItem.counted]
    · simp [counted_level htype, hset]
  rw [hcount 0 (.inl rfl), hcount _ (.inr (.inl rfl)), hcount _ (.inr (.inr rfl)), Nat.add_eq_right,
    List.countP_eq_zero]
  simp only [Bool.not_eq_true]

end counts

/-- **When the driver counts match the list.** The count of the enabled drivers always
does. The count of all drivers does when all are enabled. The count of a level's enabled
drivers does when no enabled item is of another level, and the count of a level's drivers
when those make up for its disabled ones. The two levels add up to the whole when no item
is enabled. -/
theorem getCountDrivers_iff {items : List CDeviceItem} (hlen : items.length < 65536) :
    (getCountDrivers items 0 true).toNat = driverCount items 0 true ∧
    ((getCountDrivers items 0 false).toNat = driverCount items 0 false ↔
      ∀ item ∈ items, item.bEnable = true) ∧
    (∀ level, level = VSCP_DRIVER_LEVEL1 ∨ level = VSCP_DRIVER_LEVEL2 →
      ((getCountDrivers items level true).toNat = driverCount items level true ↔
        ∀ item ∈ items, item.bEnable = true → item.driverLevel = 0 ∨ item.driverLevel = level) ∧
      ((getCountDrivers items level false).toNat = driverCount items level false ↔
        (items.countP fun item => item.bEnable && item.driverLevel ≠ 0 && item.driverLevel ≠ level) =
          items.countP fun item => !item.bEnable && item.driverLevel = level)) ∧
    ((∀ item ∈ items, item.driverLevel = VSCP_DRIVER_LEVEL1 ∨ item.driverLevel = VSCP_DRIVER_LEVEL2) →
      ∀ bOnlyActive,
        (getCountDrivers items VSCP_DRIVER_LEVEL1 bOnlyActive).toNat +
            (getCountDrivers items VSCP_DRIVER_LEVEL2 bOnlyActive).toNat =
          (getCountDrivers items 0 bOnlyActive).toNat ↔ ∀ item ∈ items, item.bEnable = false) :=
  ⟨count_all_enabled hlen, count_all_iff hlen,
    fun _ hlevel => ⟨count_level_enabled_iff hlen hlevel, count_level_iff hlen hlevel⟩,
    fun hlevels => count_levels_add_iff hlen hlevels⟩

/-! ## Three drivers -/

/-- A Level I and a Level II driver, enabled, and a Level I driver that is not. -/
def threeDrivers : List CDeviceItem :=
  [{ driverLevel := 1, bEnable := true }, { driverLevel := 2, bEnable := true }, { driverLevel := 1 }]

/-- Of three drivers, two of them Level I, the code finds two of every type, enabled or not. -/
theorem not_driverCount_three :
    getCountDrivers threeDrivers 1 true = 2 ∧ driverCount threeDrivers 1 true = 1 ∧
    getCountDrivers threeDrivers 0 false = 2 ∧ driverCount threeDrivers 0 false = 3 ∧
    getCountDrivers threeDrivers 2 false = 2 ∧ driverCount threeDrivers 2 false = 1 ∧
    (getCountDrivers threeDrivers 1 true).toNat + (getCountDrivers threeDrivers 2 true).toNat ≠
      (getCountDrivers threeDrivers 0 true).toNat := by
  decide

/-- Four enabled drivers, two of each level, and two disabled ones of Level I. -/
def sixDrivers : List CDeviceItem :=
  [{ driverLevel := 1, bEnable := true }, { driverLevel := 2, bEnable := true }, { driverLevel := 1 },
    { driverLevel := 1, bEnable := true }, { driverLevel := 2, bEnable := true }, { driverLevel := 1 }]

/-- As many Level I drivers are disabled as Level II drivers are enabled. -/
theorem driverCount_six :
    (getCountDrivers sixDrivers 0 true).toNat = driverCount sixDrivers 0 true ∧
      (getCountDrivers sixDrivers 0 false).toNat ≠ driverCount sixDrivers 0 false ∧
        (getCountDrivers sixDrivers VSCP_DRIVER_LEVEL1 false).toNat = driverCount sixDrivers VSCP_DRIVER_LEVEL1 false ∧
          (getCountDrivers sixDrivers VSCP_DRIVER_LEVEL1 true).toNat ≠
            driverCount sixDrivers VSCP_DRIVER_LEVEL1 true := by
  obtain ⟨hactive, hall, hlevel, -⟩ := getCountDrivers_iff (show sixDrivers.length < 65536 by decide)
  obtain ⟨henabled, hany⟩ := hlevel VSCP_DRIVER_LEVEL1 (.inl rfl)
  exact ⟨hactive, mt hall.mp (by decide), hany.mpr (by decide), mt henabled.mp (by decide)⟩

end MqttVscpd
