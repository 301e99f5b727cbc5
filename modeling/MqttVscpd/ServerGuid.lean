/-
The server GUID `init` makes when the configuration gives none: from the address
of a network adapter, each platform in its own way, else from the host's first
IP address. `none` is undefined behaviour.
-/
import MqttVscpd.Event

namespace MqttVscpd

/-- The six bytes of an adapter address. -/
structure Mac where
  m0 : UInt8
  m1 : UInt8
  m2 : UInt8
  m3 : UInt8
  m4 : UInt8
  m5 : UInt8
  deriving DecidableEq

def Mac.zero : Mac := ⟨0, 0, 0, 0, 0, 0⟩

/-- A `sockaddr` of `getifaddrs`: of the family `AF_LINK` with these address bytes, or of another. -/
inductive SockAddr where
  | link (lladdr : List UInt8)
  | other

/-- What the calls of `getMacAddress` answer on each platform. -/
inductive Platform where
  /-- `Netbios` for adapter 0, when both calls succeed. -/
  | windows (adapter : Option Mac)
  /-- The interfaces of `getifaddrs`, when it succeeds, each with its `ifa_addr`, which may be NULL. -/
  | macOS (interfaces : Option (List (Option SockAddr)))
  /-- `SIOCGIFHWADDR` for `eth0`, when there is a socket and the call succeeds. -/
  | linux (eth0 : Option Mac)

/-- An entry of `h_addr_list`: the four bytes of an address in network byte order,
and what the bytes in memory behind it, which the code reads as well, hold. -/
structure HostAddr where
  a : UInt8
  b : UInt8
  c : UInt8
  d : UInt8
  behind : UInt32

structure Network where
  platform : Platform
  /-- `gethostbyname` for the host's own name. -/
  host : Option (List HostAddr)

/-- The eight bytes both kinds of GUID start with, the last aside. -/
def Guid.setPrefix (guid : Guid) (last : UInt8) : Guid :=
  (((((((guid.setByte 0 0xff).setByte 1 0xff).setByte 2 0xff).setByte 3 0xff).setByte 4 0xff).setByte 5
    0xff).setByte 6 0xff).setByte 7 last

/-- The GUID bytes from an adapter address. -/
def Guid.setMac (guid : Guid) (m : Mac) : Guid :=
  ((((((((guid.setPrefix 0xfe).setByte 8 m.m0).setByte 9 m.m1).setByte 10 m.m2).setByte 11 m.m3).setByte 12
    m.m4).setByte 13 m.m5).setByte 14 0).setByte 15 0

/-- The loop over `getifaddrs`: the first `AF_LINK` address of six bytes that are not all zero. -/
def findInterface : List (Option SockAddr) → Option (Option Mac)
  | [] => some none
  -- `ifa_addr` is read before it is tested.
  | none :: _ => none
  | some (.link [m0, m1, m2, m3, m4, m5]) :: ifs =>
    if (⟨m0, m1, m2, m3, m4, m5⟩ : Mac) = .zero then findInterface ifs else some (some ⟨m0, m1, m2, m3, m4, m5⟩)
  | some _ :: ifs => findInterface ifs

/-- `CControlObject::getMacAddress`: what it returns and the GUID it leaves. -/
def getMacAddress (platform : Platform) (guid : Guid) : Option (Bool × Guid) :=
  match platform with
  -- The text made of the adapter's address is not used, and `rv` is never set.
  | .windows none => some (false, guid)
  | .windows (some _) => some (false, guid)
  | .macOS none => some (false, Guid.nil)
  | .macOS (some ifs) =>
    match findInterface ifs with
    | none => none
    | some none => some (false, Guid.nil)
    | some (some m) => some (true, Guid.nil.setMac m)
  | .linux none => some (false, Guid.nil)
  | .linux (some m) => some (true, Guid.nil.setMac m)

/-- `*((unsigned long *) pAddr)` on a little-endian host. -/
def HostAddr.load (p : HostAddr) : Nat :=
  p.a.toNat + p.b.toNat * 2 ^ 8 + p.c.toNat * 2 ^ 16 + p.d.toNat * 2 ^ 24 + p.behind.toNat * 2 ^ 32

/-- The GUID bytes from `localaddr[0]`. -/
def Guid.setLocalAddr (guid : Guid) (localaddr : Nat) : Guid :=
  (((((((guid.setByte 8 (.ofNat (localaddr >>> 24 &&& 0xff))).setByte 9
    (.ofNat (localaddr >>> 16 &&& 0xff))).setByte 10 (.ofNat (localaddr >>> 8 &&& 0xff))).setByte 11
    (.ofNat (localaddr &&& 0xff))).setByte 12 0).setByte 13 0).setByte 14 0).setByte 15 0

/-- `CControlObject::getIPAddress`: the GUID it leaves. -/
def getIPAddress (host : Option (List HostAddr)) : Option Guid :=
  match host with
  | none => some (Guid.nil.setPrefix 0xfd)
  | some addrs =>
    -- `localaddr` has room for 16 entries, and the loop writes one for the NULL at the end too.
    if 16 ≤ addrs.length then none
    else some ((Guid.nil.setPrefix 0xfd).setLocalAddr ((addrs.head?.map HostAddr.load).getD 0))

/-- The GUID step of `CControlObject::init`. -/
def initGuid (net : Network) (guid : Guid) : Option Guid :=
  if guid = Guid.nil then
    match getMacAddress net.platform guid with
    | none => none
    | some (true, guid) => some guid
    | some (false, _) => getIPAddress net.host
  else some guid

/-! ## The documented GUID -/

/-- FF:FF:FF:FF:FF:FF:FF:FE, the adapter address and 00:00. -/
def macGuid (m : Mac) : Guid :=
  #v[0xff, 0xff, 0xff, 0xff, 0xff, 0xff, 0xff, 0xfe, m.m0, m.m1, m.m2, m.m3, m.m4, m.m5, 0, 0]

/-- FF:FF:FF:FF:FF:FF:FF:FD, the IP address and 00:00:00:00. -/
def ipGuid (p : HostAddr) : Guid :=
  #v[0xff, 0xff, 0xff, 0xff, 0xff, 0xff, 0xff, 0xfd, p.a, p.b, p.c, p.d, 0, 0, 0, 0]

/-- The address of an interface, when it is six bytes and not all of them zero. -/
def SockAddr.mac? : SockAddr → Option Mac
  | .link [m0, m1, m2, m3, m4, m5] =>
    if (⟨m0, m1, m2, m3, m4, m5⟩ : Mac) = .zero then none else some ⟨m0, m1, m2, m3, m4, m5⟩
  | _ => none

/-- The adapter address that is available: the first, where there are several. -/
def Platform.available : Platform → Option Mac
  | .windows adapter => adapter.filter (· ≠ .zero)
  | .macOS interfaces => (interfaces.getD []).findSome? fun addr => addr.bind SockAddr.mac?
  | .linux eth0 => eth0.filter (· ≠ .zero)

/-- The host resolves to this first address. -/
def Network.firstAddr (net : Network) : Option HostAddr := net.host.bind List.head?

/-- The GUID is the documented one. -/
def Documented (net : Network) (guid : Option Guid) : Prop :=
  match net.platform.available with
  | some m => guid = some (macGuid m)
  | none => ∀ p, net.firstAddr = some p → guid = some (ipGuid p)

/-! ## What the code writes -/

theorem Guid.nil_eq : Guid.nil = #v[0, 0, 0, 0, 0, 0, 0, 0, 0, 0, 0, 0, 0, 0, 0, 0] := rfl

/-- The bytes of a GUID written one after the other. -/
theorem Guid.setBytes_eq (last b8 b9 b10 b11 b12 b13 b14 b15 : UInt8) :
    ((((((((Guid.nil.setPrefix last).setByte 8 b8).setByte 9 b9).setByte 10 b10).setByte 11 b11).setByte 12
      b12).setByte 13 b13).setByte 14 b14).setByte 15 b15 =
      #v[0xff, 0xff, 0xff, 0xff, 0xff, 0xff, 0xff, last, b8, b9, b10, b11, b12, b13, b14, b15] := by
  simp [Guid.setPrefix, Guid.setByte, Guid.nil_eq]

theorem setMac_eq (m : Mac) : Guid.nil.setMac m = macGuid m := Guid.setBytes_eq ..

theorem byte_of_load {n a r k : Nat} (hn : n / 2 ^ k = a + r * 256) :
    UInt8.ofNat (n >>> k &&& 0xff) = UInt8.ofNat a := by
  rw [Nat.shiftRight_eq_div_pow, hn, show 0xff = 2 ^ 8 - 1 from rfl, Nat.and_two_pow_sub_one_eq_mod]
  apply UInt8.toNat_inj.mp
  simp

/-- The address with its bytes the other way round. -/
def HostAddr.reverse (p : HostAddr) : HostAddr := { p with a := p.d, b := p.c, c := p.b, d := p.a }

theorem setLocalAddr_load (p : HostAddr) (last : UInt8) :
    (Guid.nil.setPrefix last).setLocalAddr p.load =
      #v[0xff, 0xff, 0xff, 0xff, 0xff, 0xff, 0xff, last, p.d, p.c, p.b, p.a, 0, 0, 0, 0] := by
  have ha := p.a.toNat_lt
  have hb := p.b.toNat_lt
  have hc := p.c.toNat_lt
  have h24 : p.load / 2 ^ 24 = p.d.toNat + p.behind.toNat * 256 := by unfold HostAddr.load; omega
  have h16 : p.load / 2 ^ 16 = p.c.toNat + (p.d.toNat + p.behind.toNat * 2 ^ 8) * 256 := by
    unfold HostAddr.load; omega
  have h8 : p.load / 2 ^ 8 = p.b.toNat + (p.c.toNat + p.d.toNat * 2 ^ 8 + p.behind.toNat * 2 ^ 16) * 256 := by
    unfold HostAddr.load; omega
  have h0 : p.load / 2 ^ 0 =
      p.a.toNat + (p.b.toNat + p.c.toNat * 2 ^ 8 + p.d.toNat * 2 ^ 16 + p.behind.toNat * 2 ^ 24) * 256 := by
    unfold HostAddr.load; omega
  have hlow := byte_of_load h0
  rw [Nat.shiftRight_zero] at hlow
  rw [Guid.setLocalAddr, Guid.setBytes_eq, byte_of_load h24, byte_of_load h16, byte_of_load h8, hlow]
  simp only [UInt8.ofNat_toNat]

theorem getIPAddress_cons (p : HostAddr) (addrs : List HostAddr) (h : (p :: addrs).length < 16) :
    getIPAddress (some (p :: addrs)) = some (ipGuid p.reverse) := by
  rw [getIPAddress, if_neg (Nat.not_le.mpr h), List.head?_cons, Option.map_some, Option.getD_some,
    setLocalAddr_load]
  rfl

theorem ipGuid_reverse_iff (p : HostAddr) : ipGuid p.reverse = ipGuid p ↔ p.a = p.d ∧ p.b = p.c := by
  constructor
  · intro h
    simp [ipGuid, HostAddr.reverse] at h
    exact ⟨h.1.symm, h.2.1.symm⟩
  · intro h
    simp [ipGuid, HostAddr.reverse, h.1, h.2]

/-- The last byte both kinds of GUID start with tells them apart. -/
theorem getIPAddress_ne_macGuid (host : Option (List HostAddr)) (m : Mac) :
    getIPAddress host ≠ some (macGuid m) := by
  intro h
  unfold getIPAddress at h
  split at h
  · simp [macGuid, Guid.setPrefix, Guid.setByte, Guid.nil_eq] at h
  · split at h
    · cases h
    · simp only [Guid.setLocalAddr, Guid.setBytes_eq, Option.some.injEq, macGuid] at h
      simp at h

/-! ## When the GUID is the documented one -/

/-- An interface without an address comes before any with an available one. -/
def NullFirst (ifs : List (Option SockAddr)) : Prop :=
  ∃ before after, ifs = before ++ none :: after ∧ ∀ addr ∈ before, addr.bind SockAddr.mac? = none

/-- `getMacAddress` reads through a NULL `ifa_addr`. -/
def Platform.ReadsNull : Platform → Prop
  | .macOS (some ifs) => NullFirst ifs
  | _ => False

def Platform.IsWindows : Platform → Prop
  | .windows _ => True
  | _ => False

/-- `getMacAddress` takes an address that is all zero. -/
def Platform.TakesZero : Platform → Prop
  | .linux (some m) => m = .zero
  | _ => False

/-- With an adapter address: not on Windows, and no interface without an address
is met before. Without one, if the host has an address: none of the above goes
wrong, the host has at most 15 addresses and the first reads the same both ways. -/
def DocumentedWhen (net : Network) : Prop :=
  match net.platform.available with
  | some _ => ¬ net.platform.IsWindows ∧ ¬ net.platform.ReadsNull
  | none => ∀ p, net.firstAddr = some p → ¬ net.platform.TakesZero ∧ ¬ net.platform.ReadsNull ∧
    (net.host.getD []).length < 16 ∧ p.a = p.d ∧ p.b = p.c

theorem nullFirst_cons {addr : Option SockAddr} {ifs : List (Option SockAddr)} :
    NullFirst (addr :: ifs) ↔ addr = none ∨ addr.bind SockAddr.mac? = none ∧ NullFirst ifs := by
  constructor
  · intro h
    obtain ⟨before, after, heq, hb⟩ := h
    cases before with
    | nil => exact .inl (List.cons.inj heq).1
    | cons b before =>
      obtain ⟨rfl, rfl⟩ := List.cons.inj heq
      exact .inr ⟨hb _ (by simp), before, after, rfl, fun a ha => hb a (by simp [ha])⟩
  · intro h
    rcases h with rfl | ⟨hn, before, after, rfl, hb⟩
    · exact ⟨[], ifs, rfl, by simp⟩
    · refine ⟨addr :: before, after, rfl, ?_⟩
      intro a ha
      rcases List.mem_cons.mp ha with rfl | ha
      · exact hn
      · exact hb a ha

theorem findInterface_cons (sa : SockAddr) (ifs : List (Option SockAddr)) :
    findInterface (some sa :: ifs) = match sa.mac? with
      | some m => some (some m)
      | none => findInterface ifs := by
  cases sa with
  | other => rfl
  | link bytes =>
    match bytes with
    | [m0, m1, m2, m3, m4, m5] =>
      simp only [findInterface, SockAddr.mac?]
      split <;> rfl
    | [] | [_] | [_, _] | [_, _, _] | [_, _, _, _] | [_, _, _, _, _] | _ :: _ :: _ :: _ :: _ :: _ :: _ :: _ => rfl

theorem findInterface_eq (ifs : List (Option SockAddr)) :
    (NullFirst ifs → findInterface ifs = none) ∧
      (¬ NullFirst ifs → findInterface ifs = some (ifs.findSome? fun addr => addr.bind SockAddr.mac?)) := by
  induction ifs with
  | nil =>
    refine ⟨?_, fun _ => rfl⟩
    intro h
    obtain ⟨before, after, heq, -⟩ := h
    simp at heq
  | cons addr ifs ih =>
    rw [nullFirst_cons]
    cases addr with
    | none => exact ⟨fun _ => rfl, fun h => absurd (.inl rfl) h⟩
    | some sa =>
      rw [findInterface_cons]
      cases hm : sa.mac? with
      | none => simpa [hm] using ih
      | some m => simp [hm]

/-- When the code goes by the IP address. -/
theorem documented_ip_iff (net : Network) :
    (∀ p, net.firstAddr = some p → getIPAddress net.host = some (ipGuid p)) ↔
      ∀ p, net.firstAddr = some p → (net.host.getD []).length < 16 ∧ p.a = p.d ∧ p.b = p.c := by
  refine forall_congr' fun p => imp_congr_right fun hp => ?_
  obtain ⟨addrs, ha, hp⟩ := Option.bind_eq_some_iff.mp hp
  obtain ⟨rest, rfl⟩ := List.head?_eq_some_iff.mp hp
  rw [ha, Option.getD_some]
  by_cases hl : (p :: rest).length < 16
  · rw [getIPAddress_cons p rest hl, Option.some.injEq, ipGuid_reverse_iff]
    exact (and_iff_right hl).symm
  · have hnone : getIPAddress (some (p :: rest)) = none := by
      simp only [getIPAddress, if_pos (Nat.not_lt.mp hl)]
    rw [hnone]
    exact ⟨fun h => absurd h (by simp), fun h => absurd h.1 hl⟩

/-- **The GUID is the documented one exactly** under `DocumentedWhen`. -/
theorem guid_documented_iff (net : Network) : Documented net (initGuid net Guid.nil) ↔ DocumentedWhen net := by
  obtain ⟨platform, host⟩ := net
  have hip := documented_ip_iff ⟨platform, host⟩
  unfold Documented DocumentedWhen initGuid
  simp only [if_true]
  cases platform with
  | windows adapter =>
    have hcode : getMacAddress (.windows adapter) Guid.nil = some (false, Guid.nil) := by cases adapter <;> rfl
    rw [hcode]
    cases hav : (Platform.windows adapter).available with
    | none => simpa [Platform.TakesZero, Platform.ReadsNull] using hip
    | some m => simpa [Platform.IsWindows] using getIPAddress_ne_macGuid host m
  | macOS interfaces =>
    cases interfaces with
    | none => simpa [getMacAddress, Platform.available, Platform.TakesZero, Platform.ReadsNull] using hip
    | some ifs =>
      obtain ⟨hnull, hfound⟩ := findInterface_eq ifs
      by_cases hn : NullFirst ifs
      · simp only [getMacAddress, hnull hn, Platform.ReadsNull, hn]
        cases (Platform.macOS (some ifs)).available <;> simp
      · simp only [getMacAddress, hfound hn, Platform.available, Option.getD_some]
        cases ifs.findSome? fun addr => addr.bind SockAddr.mac? with
        | none => simpa [Platform.TakesZero, Platform.ReadsNull, hn] using hip
        | some m => simp [setMac_eq, Platform.IsWindows, Platform.ReadsNull, hn]
  | linux eth0 =>
    cases eth0 with
    | none => simpa [getMacAddress, Platform.available, Platform.TakesZero, Platform.ReadsNull] using hip
    | some m =>
      simp only [getMacAddress, setMac_eq]
      by_cases hz : m = .zero
      · have hav : (Platform.linux (some m)).available = none := by simp [Platform.available, Option.filter, hz]
        rw [hav]
        simp [macGuid, ipGuid, Platform.TakesZero, hz]
      · have hav : (Platform.linux (some m)).available = some m := by simp [Platform.available, Option.filter, hz]
        rw [hav]
        simp [Platform.IsWindows, Platform.ReadsNull]

/-- 192.168.1.10 -/
def lanAddr : HostAddr := ⟨192, 168, 1, 10, 0⟩

/-- A Windows host takes its IP address for the GUID, whatever its adapter, and a
Linux host without `eth0` has the address the wrong way round. -/
theorem guid_not_documented :
    (∀ adapter : Mac, adapter ≠ .zero →
      ¬ Documented ⟨.windows (some adapter), some [lanAddr]⟩ (initGuid ⟨.windows (some adapter), some [lanAddr]⟩ Guid.nil)) ∧
    initGuid ⟨.linux none, some [lanAddr]⟩ Guid.nil = some (ipGuid ⟨10, 1, 168, 192, 0⟩) ∧
    ¬ Documented ⟨.linux none, some [lanAddr]⟩ (initGuid ⟨.linux none, some [lanAddr]⟩ Guid.nil) := by
  have hlinux : initGuid ⟨.linux none, some [lanAddr]⟩ Guid.nil = some (ipGuid ⟨10, 1, 168, 192, 0⟩) :=
    getIPAddress_cons lanAddr [] (by decide)
  refine ⟨?_, hlinux, ?_⟩
  · intro adapter hne h
    have hav : (Platform.windows (some adapter)).available = some adapter := by
      simp [Platform.available, Option.filter, hne]
    simp only [Documented, hav, initGuid, getMacAddress, if_true] at h
    exact getIPAddress_ne_macGuid _ adapter h
  · intro h
    rw [hlinux] at h
    exact absurd (h lanAddr rfl) (by decide)

end MqttVscpd
