/-
Arrays of a fixed size that are written piece by piece, as with `memcpy`: a piece
that does not fit is refused, what was written is read back, and what lies beside
it is left alone.
-/
import Mathlib.Data.Vector.Basic

namespace Buffer

variable {α : Type} {n : Nat} {b c : Vector α n} {off k m : Nat} {src : List α}

/-- The array with `src` put at `off`, as the list of its entries. -/
def patch (l : List α) (off : Nat) (src : List α) : List α := l.take off ++ src ++ l.drop (off + src.length)

theorem length_patch {l : List α} (h : off + src.length ≤ l.length) : (patch l off src).length = l.length := by
  simp only [patch, List.length_append, List.length_take, List.length_drop]
  omega

theorem patch_append {l more : List α} (h : off + src.length ≤ l.length) :
    patch (patch l off src) (off + src.length) more = patch l off (src ++ more) := by
  have hlen : (l.take off ++ src).length = off + src.length := by
    simp only [List.length_append, List.length_take]
    omega
  have htake : (l.take off ++ src ++ l.drop (off + src.length)).take (off + src.length) = l.take off ++ src :=
    List.take_left' hlen
  have hdrop : (l.take off ++ src ++ l.drop (off + src.length)).drop (off + src.length) = l.drop (off + src.length) :=
    List.drop_left' hlen
  simp only [patch]
  rw [htake, ← List.drop_drop, hdrop, List.drop_drop, List.length_append, Nat.add_assoc, ← List.append_assoc]

/-- Write `src` at `off`; `none` when it goes past the end. -/
def copy (b : Vector α n) (off : Nat) (src : List α) : Option (Vector α n) :=
  if h : off + src.length ≤ n then
    some ⟨(patch b.toList off src).toArray, by simp [length_patch (l := b.toList) (by simpa using h)]⟩
  else none

/-- Write one entry. -/
def store (b : Vector α n) (i : Nat) (a : α) : Option (Vector α n) := copy b i [a]

/-- The `m` entries from `k` on. -/
def slice (b : Vector α n) (k m : Nat) : List α := (b.toList.drop k).take m

/-! ## When a write fits -/

theorem copy_of_le (b : Vector α n) (off : Nat) (src : List α) (h : off + src.length ≤ n) : ∃ c, copy b off src = some c :=
  ⟨_, dif_pos h⟩

theorem copy_of_lt (b : Vector α n) (h : n < off + src.length) : copy b off src = none :=
  dif_neg (Nat.not_le.mpr h)

theorem le_of_copy (h : copy b off src = some c) : off + src.length ≤ n := by
  by_contra hlt
  rw [copy_of_lt b (Nat.not_le.mp hlt)] at h
  cases h

theorem toList_copy (h : copy b off src = some c) : c.toList = patch b.toList off src := by
  rw [copy, dif_pos (le_of_copy h)] at h
  rw [← Option.some.inj h]
  rfl

theorem store_of_lt (b : Vector α n) (a : α) (h : k < n) : ∃ c, store b k a = some c := copy_of_le b k [a] h

/-! ## Reading back -/

/-- Two slices side by side. -/
theorem slice_add (b : Vector α n) (k m l : Nat) : slice b k (m + l) = slice b k m ++ slice b (k + m) l := by
  rw [slice, slice, slice, List.take_add, List.drop_drop]

theorem slice_copy_self (h : copy b off src = some c) : slice c off src.length = src := by
  have hle := le_of_copy h
  have htake : (b.toList.take off).length = off := by
    simp only [List.length_take, Vector.length_toList]
    omega
  rw [slice, toList_copy h, patch, List.append_assoc, List.drop_left' htake, List.take_left' rfl]

/-- A slice that ends where the write starts, or before. -/
theorem slice_copy_before (h : copy b off src = some c) (hk : k + m ≤ off) : slice c k m = slice b k m := by
  have hle := le_of_copy h
  have hlen : m ≤ ((b.toList.take off).drop k).length := by
    simp only [List.length_drop, List.length_take, Vector.length_toList]
    omega
  rw [slice, toList_copy h, patch, List.append_assoc, List.drop_append_of_le_length (by simp; omega),
    List.take_append_of_le_length hlen, List.drop_take, List.take_take, slice]
  congr 1
  omega

/-- A slice that starts where the write ends, or behind it. -/
theorem slice_copy_after (h : copy b off src = some c) (hk : off + src.length ≤ k) : slice c k m = slice b k m := by
  have hle := le_of_copy h
  obtain ⟨j, rfl⟩ := Nat.exists_eq_add_of_le hk
  have hlen : (b.toList.take off ++ src).length = off + src.length := by
    simp only [List.length_append, List.length_take, Vector.length_toList]
    omega
  rw [slice, toList_copy h, patch, ← List.drop_drop, List.drop_left' hlen, List.drop_drop, slice]

/-- Two writes side by side are one. -/
theorem copy_append (b : Vector α n) (off : Nat) (src more : List α) :
    copy b off (src ++ more) = (copy b off src).bind fun c => copy c (off + src.length) more := by
  by_cases hsrc : off + src.length ≤ n
  · obtain ⟨c, hc⟩ := copy_of_le b off src hsrc
    rw [hc, Option.bind_some]
    by_cases hmore : off + src.length + more.length ≤ n
    · have hall : off + (src ++ more).length ≤ n := by
        rw [List.length_append]
        omega
      obtain ⟨d, hd⟩ := copy_of_le c _ more hmore
      obtain ⟨e, he⟩ := copy_of_le b off (src ++ more) hall
      rw [hd, he, Option.some.injEq, ← Vector.toList_inj, toList_copy hd, toList_copy he, toList_copy hc,
        patch_append (by simpa using hsrc)]
    · rw [copy_of_lt c (Nat.not_le.mp hmore), copy_of_lt b]
      rw [List.length_append]
      omega
  · rw [copy_of_lt b (Nat.not_le.mp hsrc), Option.bind_none, copy_of_lt b]
    rw [List.length_append]
    omega

/-- Entries stored one after the other are one write. -/
theorem copy_of_store {d : Vector α n} {a : α} (h : store b off a = some c) (hmore : copy c (off + 1) src = some d) :
    copy b off (a :: src) = some d := by
  rw [← List.singleton_append, copy_append, show copy b off [a] = some c from h]
  exact hmore

theorem slice_replicate (a : α) (h : k + m ≤ n) : slice (Vector.replicate n a) k m = List.replicate m a := by
  rw [slice, Vector.toList_replicate, List.drop_replicate, List.take_replicate]
  congr 1
  omega

end Buffer
