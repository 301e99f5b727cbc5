/-
The loop over the host's addresses in `CControlObject::getIPAddress`, pass by
pass: it always ends, and it writes `localaddr` at every index from 0 to that of
the NULL at the end of the list, or to 16.
-/
import MqttVscpd.Lib.DoWhile
import MqttVscpd.ServerGuid

namespace MqttVscpd

/-- The variables of the loop: `localaddr` with the memory around it, and the
indices it was written at. -/
structure AddrLoop where
  idx : Int
  pAddr : Option HostAddr
  localaddr : Int → Nat
  written : List Int

/-- `localaddr[idx] = v` -/
def AddrLoop.write (s : AddrLoop) (v : Nat) : AddrLoop :=
  { s with localaddr := fun i => if i = s.idx then v else s.localaddr i, written := s.written ++ [s.idx] }

/-- The body. The list ends with NULL. -/
def addrBody (addrs : List HostAddr) (s : AddrLoop) : AddrLoop :=
  let s := { s with idx := s.idx + 1 }
  let s := s.write 0
  let s := { s with pAddr := addrs[s.idx.toNat]? }
  match s.pAddr with
  | some p => s.write p.load
  | none => s

/-- `(NULL != pAddr) && (idx < 16)` -/
def addrCond (s : AddrLoop) : Bool := s.pAddr.isSome && decide (s.idx < 16)

/-- Before the loop only `idx` has a value. -/
def addrStart (pAddr : Option HostAddr) (localaddr : Int → Nat) : AddrLoop := ⟨-1, pAddr, localaddr, []⟩

/-- The loop, for at most `n` passes. -/
def addrLoop (addrs : List HostAddr) (n : Nat) (s : AddrLoop) : Option AddrLoop :=
  DoWhile.run (addrBody addrs) addrCond n s

/-- An index of `unsigned long localaddr[16]`. -/
def InArray (i : Int) : Prop := 0 ≤ i ∧ i < 16

instance (i : Int) : Decidable (InArray i) := inferInstanceAs (Decidable (_ ∧ _))

/-! ## One pass -/

variable {addrs : List HostAddr} {s : AddrLoop}

theorem addrBody_idx (addrs : List HostAddr) (s : AddrLoop) : (addrBody addrs s).idx = s.idx + 1 := by
  unfold addrBody
  dsimp only
  split <;> rfl

theorem addrBody_pAddr (addrs : List HostAddr) (s : AddrLoop) :
    (addrBody addrs s).pAddr = addrs[(s.idx + 1).toNat]? := by
  unfold addrBody
  dsimp only
  split <;> rfl

theorem mem_written_addrBody {i : Int} : i ∈ (addrBody addrs s).written ↔ i ∈ s.written ∨ i = s.idx + 1 := by
  unfold addrBody
  dsimp only
  split <;> simp [AddrLoop.write]

/-- The entry holds the address, or 0 for the NULL. -/
theorem addrBody_localaddr (i : Int) :
    (addrBody addrs s).localaddr i =
      if i = s.idx + 1 then (addrs[(s.idx + 1).toNat]?.map HostAddr.load).getD 0 else s.localaddr i := by
  unfold addrBody AddrLoop.write
  dsimp only
  split
  · next p hp =>
    rw [hp, Option.map_some, Option.getD_some]
    by_cases hi : i = s.idx + 1
    · simp only [if_pos hi]
    · simp only [if_neg hi]
  · next hp => rw [hp, Option.map_none, Option.getD_none]

theorem addrCond_addrBody : addrCond (addrBody addrs s) = true ↔
    (s.idx + 1).toNat < addrs.length ∧ s.idx + 1 < 16 := by
  rw [addrCond, addrBody_idx, addrBody_pAddr, Bool.and_eq_true, decide_eq_true_iff]
  simp

/-! ## The loop -/

/-- `localaddr[0]` when the loop is done. -/
def firstLocalAddr (addrs : List HostAddr) : Nat := (addrs.head?.map HostAddr.load).getD 0

/-- The writes so far are those at 0 to `idx`. -/
structure AddrLoop.Filled (addrs : List HostAddr) (s : AddrLoop) : Prop where
  low : -1 ≤ s.idx
  written : ∀ i, i ∈ s.written ↔ 0 ≤ i ∧ i ≤ s.idx
  first : 0 ≤ s.idx → s.localaddr 0 = firstLocalAddr addrs

theorem filled_addrStart (pAddr : Option HostAddr) (localaddr : Int → Nat) :
    (addrStart pAddr localaddr).Filled addrs where
  low := Int.le_refl _
  written i := by
    simp only [addrStart, List.not_mem_nil, false_iff]
    omega
  first h := by
    simp only [addrStart] at h
    omega

/-- Each pass writes the next entry. -/
theorem filled_addrBody (h : s.Filled addrs) : (addrBody addrs s).Filled addrs := by
  have hlow := h.low
  refine ⟨?_, fun i => ?_, fun _ => ?_⟩
  · rw [addrBody_idx]
    omega
  · rw [mem_written_addrBody, h.written, addrBody_idx]
    omega
  · rw [addrBody_localaddr]
    split
    · next h0 => rw [← h0, firstLocalAddr, List.head?_eq_getElem?]; rfl
    · next h0 => exact h.first (by omega)

/-- The loop ends at the NULL, or at index 16. -/
theorem addrLoop_ends {n : Nat} (hn : 17 ≤ n) (addrs : List HostAddr) (pAddr : Option HostAddr)
    (localaddr : Int → Nat) :
    ∃ t, addrLoop addrs n (addrStart pAddr localaddr) = some t ∧ t.Filled addrs ∧ t.idx = min (addrs.length : Int) 16 := by
  have hmeasure : ∀ s, addrCond (addrBody addrs s) = true → (15 - (addrBody addrs s).idx).toNat < (15 - s.idx).toNat := by
    intro s hc
    have hroom := (addrCond_addrBody.mp hc).2
    rw [addrBody_idx]
    omega
  obtain ⟨t, ht⟩ := DoWhile.run_of_measure (fun s => (15 - s.idx).toNat) hmeasure
    (s := addrStart pAddr localaddr) (n := n) (by simp only [addrStart]; omega)
  refine ⟨t, ht, DoWhile.run_invariant (I := fun s : AddrLoop => s.Filled addrs ∧ s.idx < addrs.length ∧ s.idx < 16)
    (Q := fun t : AddrLoop => t.Filled addrs ∧ t.idx = min (addrs.length : Int) 16) ?_ ?_ ⟨filled_addrStart .., ?_⟩ ht⟩
  · intro s hs hc
    obtain ⟨hfill, hlen, hroom⟩ := hs
    obtain ⟨hnext, hroom'⟩ := addrCond_addrBody.mp hc
    rw [addrBody_idx]
    exact ⟨filled_addrBody hfill, by omega, hroom'⟩
  · intro s hs hc
    obtain ⟨hfill, hlen, hroom⟩ := hs
    have hstop : ¬ ((s.idx + 1).toNat < addrs.length ∧ s.idx + 1 < 16) := by
      rw [← addrCond_addrBody, hc]
      decide
    have hlow := hfill.low
    refine ⟨filled_addrBody hfill, ?_⟩
    rw [addrBody_idx]
    omega
  · simp only [addrStart]
    omega

/-- The indices written stay in the array exactly for lists of fewer than 16 addresses. -/
theorem inArray_iff {t : AddrLoop} (hfill : t.Filled addrs) (hidx : t.idx = min (addrs.length : Int) 16) :
    (∀ i ∈ t.written, InArray i) ↔ addrs.length < 16 := by
  constructor
  · intro h
    have hlast := h t.idx ((hfill.written _).mpr ⟨by omega, Int.le_refl _⟩)
    have hbound := hlast.2
    omega
  · intro h i hi
    have hi := (hfill.written i).mp hi
    exact ⟨hi.1, by omega⟩

/-- **When the address loop is safe**: it ends, within 17 passes, and all its
writes are inside `localaddr`, exactly for fewer than 16 addresses. -/
theorem addrLoop_in_bounds_iff (addrs : List HostAddr) (pAddr : Option HostAddr) (localaddr : Int → Nat) :
    (∀ n, 17 ≤ n → ∃ t, addrLoop addrs n (addrStart pAddr localaddr) = some t ∧ ∀ i ∈ t.written, InArray i) ↔
      addrs.length < 16 := by
  constructor
  · intro h
    obtain ⟨t, ht, hin⟩ := h 17 (Nat.le_refl _)
    obtain ⟨t', ht', hfill, hidx⟩ := addrLoop_ends (Nat.le_refl 17) addrs pAddr localaddr
    rw [ht] at ht'
    cases ht'
    exact (inArray_iff hfill hidx).mp hin
  · intro h n hn
    obtain ⟨t, ht, hfill, hidx⟩ := addrLoop_ends hn addrs pAddr localaddr
    exact ⟨t, ht, (inArray_iff hfill hidx).mpr h⟩

/-- A host with 16 addresses: its NULL is written behind the array. -/
theorem addrLoop_out_of_bounds : ∃ t,
    addrLoop (List.replicate 16 lanAddr) 17 (addrStart none fun _ => 0) = some t ∧ 16 ∈ t.written ∧ ¬ InArray 16 := by
  obtain ⟨t, ht, hfill, hidx⟩ := addrLoop_ends (Nat.le_refl 17) (List.replicate 16 lanAddr) none fun _ => 0
  have h16 : t.idx = 16 := hidx
  exact ⟨t, ht, (hfill.written 16).mpr (by omega), by decide⟩

/-- `getIPAddress` is this loop and the GUID made of `localaddr[0]`; a write outside the array is undefined. -/
theorem getIPAddress_eq_addrLoop (addrs : List HostAddr) (pAddr : Option HostAddr) (localaddr : Int → Nat) :
    getIPAddress (some addrs) = (addrLoop addrs 17 (addrStart pAddr localaddr)).bind fun t =>
      if ∀ i ∈ t.written, InArray i then some ((Guid.nil.setPrefix 0xfd).setLocalAddr (t.localaddr 0)) else none := by
  obtain ⟨t, ht, hfill, hidx⟩ := addrLoop_ends (Nat.le_refl 17) addrs pAddr localaddr
  rw [ht, Option.bind_some, getIPAddress]
  by_cases h : addrs.length < 16
  · rw [if_neg (Nat.not_le.mpr h), if_pos ((inArray_iff hfill hidx).mpr h), hfill.first (by omega), firstLocalAddr]
  · rw [if_pos (Nat.not_lt.mp h), if_neg (mt (inArray_iff hfill hidx).mp h)]

end MqttVscpd
