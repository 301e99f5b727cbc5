/-
`CControlObject::periodicEvents`: four events written one after the other into
one uninitialised event on the stack, and what their payloads decode to. Copies
that leave the data array are `none`.
-/
import Mathlib.Data.List.TakeWhile
import MqttVscpd.Lib.Buffer
import MqttVscpd.ServerGuid

namespace MqttVscpd

open Buffer

/-- What `vscp_makeTimeStamp` and `vscp_setEventExToNow` put into an event. -/
structure EventTime where
  timestamp : UInt32
  year : UInt16
  month : UInt8
  day : UInt8
  hour : UInt8
  minute : UInt8
  second : UInt8

/-- `vscpEventEx`, with its data array. -/
structure VscpEventEx where
  head : UInt16
  obid : UInt32
  time : EventTime
  vscpClass : UInt16
  vscpType : UInt16
  guid : Guid
  sizeData : UInt16
  data : Vector UInt8 512

/-- The class and type numbers of the four events. -/
structure EventNumbers where
  class1Information : UInt16
  typeInformationNodeHeartbeat : UInt16
  class2Information : UInt16
  type2InformationHeartBeat : UInt16
  class1Protocol : UInt16
  typeProtocolSegctrlHeartbeat : UInt16
  class2Protocol : UInt16
  type2ProtocolHighEndServerCaps : UInt16

/-- What `periodicEvents` reads. -/
structure Periodic where
  guid : Guid
  /-- The bytes of `m_strServerName`. -/
  strServerName : List UInt8
  /-- `gethostbyname` for the host's own name. -/
  host : Option (List HostAddr)
  /-- `time(&tnow)` -/
  tnow : Int
  /-- The clock at each event. -/
  times : Fin 4 → EventTime

def VSCP_CAPABILITY_OFFSET_GUID : Nat := 8
def VSCP_CAPABILITY_OFFSET_IP_ADDR : Nat := 24
def VSCP_CAPABILITY_OFFSET_SRV_NAME : Nat := 40

/-! ## The name -/

/-- The bytes of `c_str()` that `strlen` counts. -/
def cstr (name : List UInt8) : List UInt8 := name.takeWhile (· ≠ 0)

/-- `std::min((int) strlen(m_strServerName.c_str()), 64)` -/
def nameCount (name : List UInt8) : Int := min (Int.bmod (cstr name).length (2 ^ 32)) 64

/-- The `memcpy` of the name. A negative count is taken as a `size_t`, more than any array has. -/
def copyName (data : Vector UInt8 512) (off : Nat) (name : List UInt8) : Option (Vector UInt8 512) :=
  if nameCount name < 0 then none else copy data off ((cstr name).take (nameCount name).toNat)

/-- `memset(ex.data, 0, sizeof(ex.data))` -/
def zeroData : Vector UInt8 512 := Vector.replicate 512 0

/-! ## The events -/

/-- The fields each event starts with. -/
def VscpEventEx.start (ex : VscpEventEx) (d : Periodic) (k : Fin 4) (vscpClass vscpType : UInt16) : VscpEventEx :=
  { ex with obid := 0, head := 0, time := d.times k, vscpClass, vscpType, guid := d.guid }

/-- The Level I heartbeat. -/
def class1Heartbeat (ids : EventNumbers) (d : Periodic) (ex : VscpEventEx) : Option VscpEventEx := do
  let ex := { ex.start d 0 ids.class1Information ids.typeInformationNodeHeartbeat with sizeData := 3 }
  let data ← copy ex.data VSCP_CAPABILITY_OFFSET_GUID d.guid.toList
  let data ← store data 0 0
  let data ← store data 1 0
  let data ← store data 2 0
  return { ex with data }

/-- The Level II heartbeat. -/
def class2Heartbeat (ids : EventNumbers) (d : Periodic) (ex : VscpEventEx) : Option VscpEventEx := do
  let ex := { ex.start d 1 ids.class2Information ids.type2InformationHeartBeat with sizeData := 64 }
  let _ ← copy ex.data VSCP_CAPABILITY_OFFSET_GUID d.guid.toList
  -- The `memset` takes the GUID away again.
  let data := zeroData
  let data ← copyName data 0 d.strServerName
  return { ex with data }

/-- The segment controller heartbeat. -/
def segctrlHeartbeat (ids : EventNumbers) (d : Periodic) (ex : VscpEventEx) : Option VscpEventEx := do
  let ex := { ex.start d 2 ids.class1Protocol ids.typeProtocolSegctrlHeartbeat with sizeData := 5 }
  let data ← copy ex.data VSCP_CAPABILITY_OFFSET_GUID d.guid.toList
  let time32 := UInt32.ofInt d.tnow
  let data ← store data 0 0
  let data ← store data 1 (time32 >>> 24 &&& 0xff).toUInt8
  let data ← store data 2 (time32 >>> 16 &&& 0xff).toUInt8
  let data ← store data 3 (time32 >>> 8 &&& 0xff).toUInt8
  let data ← store data 4 (time32 &&& 0xff).toUInt8
  return { ex with data }

/-- The server address, when the host's name can be looked up. -/
def copyAddress (data : Vector UInt8 512) (host : Option (List HostAddr)) : Option (Vector UInt8 512) :=
  match host with
  | none => some data
  | some addrs => do
    let guid ← getIPAddress (some addrs)
    let data ← store data VSCP_CAPABILITY_OFFSET_IP_ADDR (guid.byte 8)
    let data ← store data (VSCP_CAPABILITY_OFFSET_IP_ADDR + 1) (guid.byte 9)
    let data ← store data (VSCP_CAPABILITY_OFFSET_IP_ADDR + 2) (guid.byte 10)
    store data (VSCP_CAPABILITY_OFFSET_IP_ADDR + 3) (guid.byte 11)

/-- `CControlObject::getVscpCapabilities`, which sets nothing yet. -/
def getVscpCapabilities (pCaps : Vector UInt8 512) : Vector UInt8 512 := pCaps

/-- The capabilities event. -/
def highEndServerCaps (ids : EventNumbers) (d : Periodic) (ex : VscpEventEx) : Option VscpEventEx := do
  let ex := ex.start d 3 ids.class2Protocol ids.type2ProtocolHighEndServerCaps
  let data := zeroData
  let data ← copy data VSCP_CAPABILITY_OFFSET_GUID d.guid.toList
  let data ← copyAddress data d.host
  let data ← copyName data VSCP_CAPABILITY_OFFSET_SRV_NAME d.strServerName
  return { ex with data := getVscpCapabilities data, sizeData := 104 }

/-- The events `periodicEvents` sends, made of the event found on the stack. -/
def periodicEvents (ids : EventNumbers) (d : Periodic) (ex : VscpEventEx) : Option (List VscpEventEx) := do
  let ex₁ ← class1Heartbeat ids d ex
  let ex₂ ← class2Heartbeat ids d ex₁
  let ex₃ ← segctrlHeartbeat ids d ex₂
  let ex₄ ← highEndServerCaps ids d ex₃
  return [ex₁, ex₂, ex₃, ex₄]

/-! ## What the payloads are to decode to -/

/-- The data bytes below `sizeData`. -/
def VscpEventEx.payload (ex : VscpEventEx) : List UInt8 := slice ex.data 0 ex.sizeData.toNat

/-- A text in a field of 64 bytes, zero padded. -/
def padded (s : List UInt8) : List UInt8 := s ++ List.replicate (64 - s.length) 0

/-- The name up to its first NUL, cut at 64 bytes. -/
def nameField (name : List UInt8) : List UInt8 := padded ((cstr name).take 64)

/-- The number that bytes stand for, most significant first. -/
def bigEndian (bytes : List UInt8) : Nat := bytes.foldl (fun n b => n * 256 + b.toNat) 0

/-- Bytes 8 to 11 of the GUID `getIPAddress` makes, or zeros when the lookup fails. -/
def IsAddress (host : Option (List HostAddr)) (address : List UInt8) : Prop :=
  match host with
  | none => address = [0, 0, 0, 0]
  | some addrs => ∃ guid, getIPAddress (some addrs) = some guid ∧
      address = [guid.byte 8, guid.byte 9, guid.byte 10, guid.byte 11]

/-- The payloads say what the daemon is. -/
structure Decodes (d : Periodic) (node heartbeat segctrl caps : List UInt8) : Prop where
  node : node = [0, 0, 0]
  heartbeat : heartbeat = nameField d.strServerName
  index : segctrl.length = 5 ∧ segctrl.head? = some 0
  time : (bigEndian segctrl.tail : Int) = d.tnow % 2 ^ 32
  caps : ∃ address, IsAddress d.host address ∧
    caps = List.replicate 8 0 ++ d.guid.toList ++ address ++ List.replicate 12 0 ++ nameField d.strServerName

/-- Whatever the stack holds, all writes stay in the data array and the payloads are these. -/
def Sends (ids : EventNumbers) (d : Periodic) (payloads : List (List UInt8)) : Prop :=
  ∀ ex, ∃ evs, periodicEvents ids d ex = some evs ∧ evs.map (·.payload) = payloads

/-! ## The name -/

variable {ids : EventNumbers} {d : Periodic} {name : List UInt8}

/-- The bytes of the name that are copied, when the count is not negative. -/
def copiedName (name : List UInt8) : List UInt8 := (cstr name).take (nameCount name).toNat

theorem length_copiedName_le (name : List UInt8) : (copiedName name).length ≤ 64 := by
  have hle : (nameCount name).toNat ≤ 64 := by
    unfold nameCount
    omega
  rw [copiedName, List.length_take]
  omega

/-- The count of a name as an `int` is its length, or comes to at least the 64 bytes of the field. -/
def NameFits (name : List UInt8) : Prop :=
  (cstr name).length < 2 ^ 31 ∨ 64 ≤ Int.bmod (cstr name).length (2 ^ 32)

theorem nameFits_iff : NameFits name ↔ 0 ≤ nameCount name ∧ copiedName name = (cstr name).take 64 := by
  unfold NameFits copiedName nameCount
  generalize cstr name = s
  have hmod := Int.bmod_eq_emod s.length (2 ^ 32)
  constructor
  · intro h
    refine ⟨by split at hmod <;> omega, ?_⟩
    rw [List.take_eq_take_iff]
    split at hmod <;> omega
  · intro h
    obtain ⟨hnonneg, hcopied⟩ := h
    have hlen := congrArg List.length hcopied
    simp only [List.length_take] at hlen
    split at hmod <;> omega

theorem ne_zero_of_mem_cstr {b : UInt8} (h : b ∈ cstr name) : b ≠ 0 := by
  have hb := List.mem_takeWhile_imp h
  simpa using hb

/-- A name without NULs is what its field reads as. -/
theorem cstr_padded {s : List UInt8} (h : ∀ b ∈ s, b ≠ 0) : cstr (padded s) = s := by
  unfold cstr padded
  rw [List.takeWhile_append_of_pos (by simpa using h), List.takeWhile_replicate]
  simp

theorem padded_take_inj {k m : Nat} (h : padded ((cstr name).take k) = padded ((cstr name).take m)) :
    (cstr name).take k = (cstr name).take m := by
  have hk := cstr_padded (s := (cstr name).take k) fun b hb => ne_zero_of_mem_cstr (List.mem_of_mem_take hb)
  have hm := cstr_padded (s := (cstr name).take m) fun b hb => ne_zero_of_mem_cstr (List.mem_of_mem_take hb)
  rw [← hk, h, hm]

/-- A field of zeros the name is copied to. -/
theorem copyName_of_nonneg (data : Vector UInt8 512) (off : Nat) (hoff : off + 64 ≤ 512) (h : 0 ≤ nameCount name) :
    ∃ data', copyName data off name = some data' ∧ copy data off (copiedName name) = some data' := by
  have hlen := length_copiedName_le name
  obtain ⟨data', hd⟩ := copy_of_le data off (copiedName name) (by omega)
  exact ⟨data', by rw [copyName, if_neg (not_lt.mpr h)]; exact hd, hd⟩

theorem slice_padded {data data' : Vector UInt8 512} {off : Nat}
    (hzero : ∀ k m, off ≤ k → k + m ≤ off + 64 → slice data k m = List.replicate m 0)
    (h : copy data off (copiedName name) = some data') : slice data' off 64 = padded (copiedName name) := by
  have hlen := length_copiedName_le name
  have hsum : (copiedName name).length + (64 - (copiedName name).length) = 64 := by omega
  rw [← hsum, slice_add, slice_copy_self h, slice_copy_after h (Nat.le_refl _), hzero _ _ (by omega) (by omega), padded]

/-! ## Each event -/

theorem slice_zeroData {k m : Nat} (h : k + m ≤ 512) : slice zeroData k m = List.replicate m 0 := slice_replicate 0 h

theorem length_guid (guid : Guid) : guid.toList.length = 16 := Vector.length_toList

theorem bind_of_some {α β : Type} {x : Option α} {a : α} (h : x = some a) (f : α → Option β) : x >>= f = f a := by
  rw [h]
  rfl

theorem bind_of_none {α β : Type} {x : Option α} (h : x = none) (f : α → Option β) : x >>= f = none := by
  rw [h]
  rfl

theorem class1Heartbeat_eq (ids : EventNumbers) (d : Periodic) (ex : VscpEventEx) :
    ∃ ex', class1Heartbeat ids d ex = some ex' ∧ ex'.payload = [0, 0, 0] := by
  obtain ⟨b, hb⟩ := copy_of_le ex.data VSCP_CAPABILITY_OFFSET_GUID d.guid.toList (by rw [length_guid]; decide)
  obtain ⟨b₀, h₀⟩ := store_of_lt b (k := 0) 0 (by decide)
  obtain ⟨b₁, h₁⟩ := store_of_lt b₀ (k := 1) 0 (by decide)
  obtain ⟨b₂, h₂⟩ := store_of_lt b₁ (k := 2) 0 (by decide)
  refine ⟨{ ex.start d 0 ids.class1Information ids.typeInformationNodeHeartbeat with sizeData := 3, data := b₂ }, ?_,
    slice_copy_self (copy_of_store h₀ (copy_of_store h₁ h₂))⟩
  exact (bind_of_some hb _).trans <| (bind_of_some h₀ _).trans <| (bind_of_some h₁ _).trans <| bind_of_some h₂ _

theorem class2Heartbeat_of_neg (h : nameCount d.strServerName < 0) (ex : VscpEventEx) :
    class2Heartbeat ids d ex = none := by
  obtain ⟨b, hb⟩ := copy_of_le ex.data VSCP_CAPABILITY_OFFSET_GUID d.guid.toList (by rw [length_guid]; decide)
  exact (bind_of_some hb _).trans (bind_of_none (if_pos h) _)

theorem class2Heartbeat_eq (ids : EventNumbers) (h : 0 ≤ nameCount d.strServerName) (ex : VscpEventEx) :
    ∃ ex', class2Heartbeat ids d ex = some ex' ∧ ex'.payload = padded (copiedName d.strServerName) := by
  obtain ⟨b, hb⟩ := copy_of_le ex.data VSCP_CAPABILITY_OFFSET_GUID d.guid.toList (by rw [length_guid]; decide)
  obtain ⟨b', hname, hcopy⟩ := copyName_of_nonneg zeroData 0 (by decide) h
  refine ⟨{ ex.start d 1 ids.class2Information ids.type2InformationHeartBeat with sizeData := 64, data := b' }, ?_,
    slice_padded (fun k m _ hkm => slice_zeroData (by omega)) hcopy⟩
  exact (bind_of_some hb _).trans (bind_of_some hname _)

/-- The four time bytes, as one number. -/
theorem bigEndian_time (t : UInt32) :
    bigEndian [(t >>> 24 &&& 0xff).toUInt8, (t >>> 16 &&& 0xff).toUInt8, (t >>> 8 &&& 0xff).toUInt8,
      (t &&& 0xff).toUInt8] = t.toNat := by
  have hlt := t.toNat_lt
  have hmask : ∀ n : Nat, n &&& 255 = n % 256 := fun n => Nat.and_two_pow_sub_one_eq_mod n 8
  simp only [bigEndian, List.foldl_cons, List.foldl_nil, UInt32.toNat_toUInt8, UInt32.toNat_and,
    UInt32.toNat_shiftRight, UInt32.reduceToNat, hmask, Nat.shiftRight_eq_div_pow, Nat.reduceMod, Nat.reducePow]
  omega

theorem segctrlHeartbeat_eq (ids : EventNumbers) (d : Periodic) :
    ∃ time, time.length = 4 ∧ (bigEndian time : Int) = d.tnow % 2 ^ 32 ∧
      ∀ ex, ∃ ex', segctrlHeartbeat ids d ex = some ex' ∧ ex'.payload = 0 :: time := by
  refine ⟨[(UInt32.ofInt d.tnow >>> 24 &&& 0xff).toUInt8, (UInt32.ofInt d.tnow >>> 16 &&& 0xff).toUInt8,
    (UInt32.ofInt d.tnow >>> 8 &&& 0xff).toUInt8, (UInt32.ofInt d.tnow &&& 0xff).toUInt8], rfl, ?_, fun ex => ?_⟩
  · rw [bigEndian_time, UInt32.ofInt, UInt32.toNat_ofNat']
    omega
  · obtain ⟨b, hb⟩ := copy_of_le ex.data VSCP_CAPABILITY_OFFSET_GUID d.guid.toList (by rw [length_guid]; decide)
    obtain ⟨b₀, h₀⟩ := store_of_lt b (k := 0) 0 (by decide)
    obtain ⟨b₁, h₁⟩ := store_of_lt b₀ (k := 1) (UInt32.ofInt d.tnow >>> 24 &&& 0xff).toUInt8 (by decide)
    obtain ⟨b₂, h₂⟩ := store_of_lt b₁ (k := 2) (UInt32.ofInt d.tnow >>> 16 &&& 0xff).toUInt8 (by decide)
    obtain ⟨b₃, h₃⟩ := store_of_lt b₂ (k := 3) (UInt32.ofInt d.tnow >>> 8 &&& 0xff).toUInt8 (by decide)
    obtain ⟨b₄, h₄⟩ := store_of_lt b₃ (k := 4) (UInt32.ofInt d.tnow &&& 0xff).toUInt8 (by decide)
    refine ⟨{ ex.start d 2 ids.class1Protocol ids.typeProtocolSegctrlHeartbeat with sizeData := 5, data := b₄ }, ?_,
      slice_copy_self (copy_of_store h₀ (copy_of_store h₁ (copy_of_store h₂ (copy_of_store h₃ h₄))))⟩
    exact (bind_of_some hb _).trans <| (bind_of_some h₀ _).trans <| (bind_of_some h₁ _).trans <|
      (bind_of_some h₂ _).trans <| (bind_of_some h₃ _).trans <| bind_of_some h₄ _

/-- `getIPAddress` has room for the host's addresses. -/
def AddressesFit (host : Option (List HostAddr)) : Prop := (host.getD []).length < 16

theorem getIPAddress_of_fit {addrs : List HostAddr} (h : addrs.length < 16) :
    ∃ guid, getIPAddress (some addrs) = some guid :=
  ⟨_, if_neg (Nat.not_le.mpr h)⟩

theorem copyAddress_of_not_fit {host : Option (List HostAddr)} (h : ¬ AddressesFit host) (data : Vector UInt8 512) :
    copyAddress data host = none := by
  cases host with
  | none => exact absurd (Nat.zero_lt_succ 15) h
  | some addrs =>
    have hnone : getIPAddress (some addrs) = none := if_pos (Nat.not_lt.mp h)
    rw [copyAddress, hnone]
    rfl

/-- The address field is written, and the rest of the array left alone. -/
theorem copyAddress_of_fit {host : Option (List HostAddr)} (h : AddressesFit host) :
    ∃ address, IsAddress host address ∧ ∀ data : Vector UInt8 512, slice data 24 4 = [0, 0, 0, 0] →
      ∃ data', copyAddress data host = some data' ∧ slice data' 24 4 = address ∧
        ∀ k m, k + m ≤ 24 ∨ 28 ≤ k → slice data' k m = slice data k m := by
  cases host with
  | none => exact ⟨[0, 0, 0, 0], rfl, fun data hzero => ⟨data, rfl, hzero, fun _ _ _ => rfl⟩⟩
  | some addrs =>
    obtain ⟨guid, hguid⟩ : ∃ guid, getIPAddress (some addrs) = some guid := getIPAddress_of_fit h
    refine ⟨_, ⟨guid, hguid, rfl⟩, fun data _ => ?_⟩
    obtain ⟨b₀, h₀⟩ := store_of_lt data (k := 24) (guid.byte 8) (by decide)
    obtain ⟨b₁, h₁⟩ := store_of_lt b₀ (k := 25) (guid.byte 9) (by decide)
    obtain ⟨b₂, h₂⟩ := store_of_lt b₁ (k := 26) (guid.byte 10) (by decide)
    obtain ⟨b₃, h₃⟩ := store_of_lt b₂ (k := 27) (guid.byte 11) (by decide)
    have hcopy := copy_of_store h₀ (copy_of_store h₁ (copy_of_store h₂ h₃))
    refine ⟨b₃, ?_, slice_copy_self hcopy, fun k m hkm => ?_⟩
    · exact (bind_of_some hguid _).trans <| (bind_of_some h₀ _).trans <| (bind_of_some h₁ _).trans <|
        (bind_of_some h₂ _).trans h₃
    · rcases hkm with hk | hk
      · exact slice_copy_before hcopy hk
      · exact slice_copy_after hcopy hk

theorem highEndServerCaps_of_not_fit (h : ¬ AddressesFit d.host) (ex : VscpEventEx) :
    highEndServerCaps ids d ex = none := by
  obtain ⟨b, hb⟩ := copy_of_le zeroData VSCP_CAPABILITY_OFFSET_GUID d.guid.toList (by rw [length_guid]; decide)
  exact (bind_of_some hb _).trans (bind_of_none (copyAddress_of_not_fit h b) _)

theorem highEndServerCaps_eq (ids : EventNumbers) (hname : 0 ≤ nameCount d.strServerName) (hfit : AddressesFit d.host) :
    ∃ address, IsAddress d.host address ∧ ∀ ex, ∃ ex', highEndServerCaps ids d ex = some ex' ∧
      ex'.payload = List.replicate 8 0 ++ d.guid.toList ++ address ++ List.replicate 12 0 ++
        padded (copiedName d.strServerName) := by
  obtain ⟨address, haddress, hwrite⟩ := copyAddress_of_fit hfit
  refine ⟨address, haddress, fun ex => ?_⟩
  obtain ⟨b, hb⟩ := copy_of_le zeroData VSCP_CAPABILITY_OFFSET_GUID d.guid.toList (by rw [length_guid]; decide)
  have hlen := length_guid d.guid
  -- Beside the GUID the array is zero.
  have hbefore : slice b 0 8 = List.replicate 8 0 :=
    (slice_copy_before hb (by decide)).trans (slice_zeroData (by decide))
  have hafter : ∀ k m, 24 ≤ k → k + m ≤ 512 → slice b k m = List.replicate m 0 := by
    intro k m hk hkm
    rw [slice_copy_after hb (by rw [hlen]; exact hk)]
    exact slice_zeroData hkm
  obtain ⟨b', hb', hfield, hrest⟩ := hwrite b (hafter 24 4 (by decide) (by decide))
  obtain ⟨b'', hb'', hcopy⟩ := copyName_of_nonneg b' VSCP_CAPABILITY_OFFSET_SRV_NAME (by decide) hname
  have hguid : slice b 8 16 = d.guid.toList := by
    have hself := slice_copy_self hb
    rwa [hlen] at hself
  have hpadded : slice b'' 40 64 = padded (copiedName d.strServerName) := by
    refine slice_padded (fun k m hk hkm => ?_) hcopy
    have hk : 40 ≤ k := hk
    have hkm : k + m ≤ 40 + 64 := hkm
    rw [hrest k m (by omega), hafter k m (by omega) (by omega)]
  have hkept : ∀ k m, k + m ≤ 40 → slice b'' k m = slice b' k m := fun k m hkm => slice_copy_before hcopy hkm
  refine ⟨{ ex.start d 3 ids.class2Protocol ids.type2ProtocolHighEndServerCaps with data := b'', sizeData := 104 }, ?_, ?_⟩
  · exact (bind_of_some hb _).trans ((bind_of_some hb' _).trans (bind_of_some hb'' _))
  · have hsplit : slice b'' 0 (8 + 16 + 4 + 12 + 64) =
        slice b'' 0 8 ++ slice b'' 8 16 ++ slice b'' 24 4 ++ slice b'' 28 12 ++ slice b'' 40 64 := by
      rw [slice_add, slice_add, slice_add, slice_add]
    refine hsplit.trans ?_
    rw [hpadded, hkept 0 8 (by decide), hkept 8 16 (by decide), hkept 24 4 (by decide), hkept 28 12 (by decide),
      hfield, hrest 0 8 (.inl (by decide)), hrest 8 16 (.inl (by decide)), hrest 28 12 (.inr (by decide)), hbefore,
      hguid, hafter 28 12 (by decide) (by decide)]

/-! ## All four -/

/-- With a name and a host that fit, the events are the same whatever the stack held. -/
theorem sends_of_fit (ids : EventNumbers) (hname : 0 ≤ nameCount d.strServerName) (hfit : AddressesFit d.host) :
    ∃ time address, time.length = 4 ∧ (bigEndian time : Int) = d.tnow % 2 ^ 32 ∧ IsAddress d.host address ∧
      Sends ids d [[0, 0, 0], padded (copiedName d.strServerName), 0 :: time,
        List.replicate 8 0 ++ d.guid.toList ++ address ++ List.replicate 12 0 ++ padded (copiedName d.strServerName)] := by
  obtain ⟨time, hlen, htime, hsegctrl⟩ := segctrlHeartbeat_eq ids d
  obtain ⟨address, haddress, hcaps⟩ := highEndServerCaps_eq ids hname hfit
  refine ⟨time, address, hlen, htime, haddress, fun ex => ?_⟩
  obtain ⟨ex₁, h₁, hp₁⟩ := class1Heartbeat_eq ids d ex
  obtain ⟨ex₂, h₂, hp₂⟩ := class2Heartbeat_eq ids hname ex₁
  obtain ⟨ex₃, h₃, hp₃⟩ := hsegctrl ex₂
  obtain ⟨ex₄, h₄, hp₄⟩ := hcaps ex₃
  refine ⟨[ex₁, ex₂, ex₃, ex₄], ?_, by simp only [List.map_cons, List.map_nil, hp₁, hp₂, hp₃, hp₄]⟩
  exact (bind_of_some h₁ _).trans <| (bind_of_some h₂ _).trans <| (bind_of_some h₃ _).trans (bind_of_some h₄ _)

/-- Events that are sent had their name and addresses fit. -/
theorem fit_of_periodicEvents {ex : VscpEventEx} {evs : List VscpEventEx} (h : periodicEvents ids d ex = some evs) :
    0 ≤ nameCount d.strServerName ∧ AddressesFit d.host := by
  obtain ⟨ex₁, h₁, h⟩ := Option.bind_eq_some_iff.mp h
  obtain ⟨ex₂, h₂, h⟩ := Option.bind_eq_some_iff.mp h
  obtain ⟨ex₃, h₃, h⟩ := Option.bind_eq_some_iff.mp h
  obtain ⟨ex₄, h₄, -⟩ := Option.bind_eq_some_iff.mp h
  constructor
  · by_contra hneg
    rw [class2Heartbeat_of_neg (not_le.mp hneg)] at h₂
    cases h₂
  · by_contra hfit
    rw [highEndServerCaps_of_not_fit hfit] at h₄
    cases h₄

/-- An event with all bytes zero. -/
def VscpEventEx.zero : VscpEventEx := ⟨0, 0, ⟨0, 0, 0, 0, 0, 0, 0⟩, 0, 0, Guid.nil, 0, zeroData⟩

/-- **When the payloads decode to what the daemon is**: exactly when the count of
the name fits an `int`, or comes to 64 or more all the same, and the host has
fewer than 16 addresses. -/
theorem periodicEvents_decode_iff (ids : EventNumbers) (d : Periodic) :
    (∃ node heartbeat segctrl caps, Decodes d node heartbeat segctrl caps ∧
      Sends ids d [node, heartbeat, segctrl, caps]) ↔ NameFits d.strServerName ∧ AddressesFit d.host := by
  constructor
  · intro h
    obtain ⟨node, heartbeat, segctrl, caps, hdec, hsends⟩ := h
    obtain ⟨evs, hevs, hpayloads⟩ := hsends .zero
    obtain ⟨hname, hfit⟩ := fit_of_periodicEvents hevs
    obtain ⟨time, address, -, -, -, hsends'⟩ := sends_of_fit ids hname hfit
    obtain ⟨evs', hevs', hpayloads'⟩ := hsends' .zero
    rw [hevs, Option.some.injEq] at hevs'
    rw [← hevs', hpayloads] at hpayloads'
    have hheartbeat : heartbeat = padded (copiedName d.strServerName) := (List.cons.inj (List.cons.inj hpayloads').2).1
    rw [hdec.heartbeat] at hheartbeat
    exact ⟨nameFits_iff.mpr ⟨hname, padded_take_inj hheartbeat.symm⟩, hfit⟩
  · intro h
    obtain ⟨hname, hcopied⟩ := nameFits_iff.mp h.1
    obtain ⟨time, address, hlen, htime, haddress, hsends⟩ := sends_of_fit ids hname h.2
    refine ⟨_, _, 0 :: time, _, ⟨rfl, rfl, ⟨?_, rfl⟩, htime, address, haddress, rfl⟩, ?_⟩
    · rw [List.length_cons, hlen]
    · rw [hcopied] at hsends
      exact hsends

theorem cstr_replicate {b : UInt8} (hb : b ≠ 0) (n : Nat) : cstr (List.replicate n b) = List.replicate n b := by
  rw [cstr, List.takeWhile_replicate, if_pos (by simpa using hb)]

/-- A daemon of this name on a host with these addresses, at the epoch. -/
def periodicOf (name : List UInt8) (addrs : List HostAddr) : Periodic :=
  ⟨Guid.nil, name, some addrs, 0, fun _ => ⟨0, 1970, 1, 1, 0, 0, 0⟩⟩

def zeroNumbers : EventNumbers := ⟨0, 0, 0, 0, 0, 0, 0, 0⟩

/-- Without room for the name or the addresses, no events can be counted on. -/
theorem not_sends (h : ¬ (0 ≤ nameCount d.strServerName ∧ AddressesFit d.host)) (payloads : List (List UInt8)) :
    ¬ Sends ids d payloads := by
  intro hs
  obtain ⟨evs, hevs, -⟩ := hs .zero
  exact h (fit_of_periodicEvents hevs)

theorem nameCount_replicate {b : UInt8} (hb : b ≠ 0) (n : Nat) :
    nameCount (List.replicate n b) = min (Int.bmod n (2 ^ 32)) 64 := by
  unfold nameCount
  rw [cstr_replicate hb]
  simp only [List.length_replicate]

/-- A name of 2 GiB. -/
def longName : List UInt8 := List.replicate (2 ^ 31) 0x76

/-- The writes leave their arrays on a host with 16 addresses, and under a name of 2 GiB. -/
theorem periodicEvents_not_sent :
    (∀ payloads, ¬ Sends zeroNumbers (periodicOf [0x76] (List.replicate 16 lanAddr)) payloads) ∧
    (∀ payloads, ¬ Sends zeroNumbers (periodicOf longName [lanAddr]) payloads) := by
  constructor
  · refine not_sends fun h => ?_
    have hlt : 16 < 16 := h.2
    omega
  · refine not_sends fun h => ?_
    have hcount : 0 ≤ nameCount longName := h.1
    rw [longName, nameCount_replicate (by decide)] at hcount
    exact absurd hcount (by decide)

end MqttVscpd
